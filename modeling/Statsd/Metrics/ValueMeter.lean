/-
A pulled metric that sums increasing diffs, without states, as a meter. When every pull returns every key,
the keys move together: they all have a base or none has, and there is a value pending for all of them or
for none. A pull moves the bases to its values and adds the diffs to what is pending.
-/
import Statsd.Metrics.ValueClosing

namespace Statsd.Metrics

/-- The values of every field of every dimension in what. -/
abbrev Values := HashableDimensionKey → Nat → Int

/-- A pulled metric that sums the diffs of a value that goes up. -/
structure ValueMetric.Diffed (m : ValueMetric) : Prop where
  pulled : m.mIsPulled = true
  diff : m.mUseDiff = true
  sum : m.mAggregationType = .SUM
  direction : m.mValueDirection = .INCREASING ∨ m.mValueDirection = .ANY

/-- The pull at `t` succeeds in time and returns one event for each key, with the values `v`. -/
structure Pull.Returns (m : ValueMetric) (K : Finset HashableDimensionKey) (pull : Pull Int) (t : Int) (v : Values) : Prop where
  success : pull.success = true
  inTime : pull.elapsedRealtimeNs - t ≤ m.mMaxPullDelayNs
  nodup : (pull.allData.map (·.eventKey.mDimensionKeyInWhat)).Nodup
  keys : ∀ w, w ∈ K ↔ w ∈ pull.allData.map (·.eventKey.mDimensionKeyInWhat)
  events : ∀ ev ∈ pull.allData, ev.eventKey.mStateValuesKey = [] ∧ ev.statePrimaryKeys = ∅ ∧
    ev.values = ((List.range m.fieldCount).map (v ev.eventKey.mDimensionKeyInWhat)).map some

/-- What is pending after a pull: the diff to the base is added when there is one. -/
def pendAdd (base pending : Option Values) (v : Values) : Option Values :=
  base.elim pending fun b => some fun w i => pending.elim 0 (· w i) + (v w i - b w i)

namespace ValueMetricProducer

/-- The base that a pull takes its diffs from: zero where the producer has only a global one. -/
def baseOrZero (p : ValueMetricProducer Int) (base : Option Values) : Option Values :=
  base.or (if p.mHasGlobalBase && p.mUseZeroDefaultBase then some fun _ _ => 0 else none)

/-- The invariants of the data of a metric without states whose keys are in `K`. -/
structure KeyedBy (p : ValueMetricProducer Int) (K : Finset HashableDimensionKey) : Prop where
  sized : Sized p
  indexed : Indexed p
  stateFree : StateFree p
  keys : ∀ k ∈ p.mCurrentSlicedBucket, k.mStateValuesKey = [] ∧ k.mDimensionKeyInWhat ∈ K

/-- The producer is a meter with a base and pending values for all its keys. -/
structure Metered (p : ValueMetricProducer Int) (K : Finset HashableDimensionKey) (base pending : Option Values) : Prop where
  keyed : p.KeyedBy K
  base : ∀ w ∈ K, ∀ i < p.fieldCount, p.baseAt w i = base.map (· w i)
  pending : ∀ w ∈ K, ∀ i < p.fieldCount, p.pendingAt ⟨w, []⟩ i = pending.map (· w i)

section

variable {p : ValueMetricProducer Int} {K : Finset HashableDimensionKey}

variable {q : ValueMetricProducer Int} {v : Values}

theorem KeyedBy.congr (h : p.KeyedBy K) (hm : q.toValueMetric = p.toValueMetric)
    (hb : q.mCurrentBaseInfo = p.mCurrentBaseInfo) (hs : q.mCurrentSlicedBucket = p.mCurrentSlicedBucket) : q.KeyedBy K := by
  refine ⟨⟨?_, ?_⟩, ?_, ⟨?_, ?_⟩, ?_⟩
  · rw [hb, hm]; exact h.sized.base
  · rw [hs, hm]; exact h.sized.sliced
  · unfold Indexed; rw [hs]; exact h.indexed
  · rw [hm]; exact h.stateFree.unknown
  · rw [hb]; exact h.stateFree.base
  · rw [hs]; exact h.keys

theorem KeyedBy.below (h : p.KeyedBy K) (hlimit : K.card < p.mDimensionHardLimit) :
    p.hasReachedGuardRailLimit = false ∧ ∀ k, p.hitGuardRailLocked k = false := by
  have hlen : p.mCurrentSlicedBucket.entries.length ≤ K.card := by
    have hinj : (p.mCurrentSlicedBucket.keys.map (·.mDimensionKeyInWhat)).Nodup := by
      refine List.Nodup.map_on (fun a ha b hb hab => ?_) p.mCurrentSlicedBucket.keys_nodup
      have h1 := (h.keys a (AList.mem_keys.2 ha)).1
      have h2 := (h.keys b (AList.mem_keys.2 hb)).1
      obtain ⟨aw, as⟩ := a
      obtain ⟨bw, bs⟩ := b
      dsimp only at h1 h2 hab
      rw [h1, h2, hab]
    have hsub : (p.mCurrentSlicedBucket.keys.map (·.mDimensionKeyInWhat)).toFinset ⊆ K := by
      intro w hw
      obtain ⟨k, hk, rfl⟩ := List.mem_map.1 (List.mem_toFinset.1 hw)
      exact (h.keys k (AList.mem_keys.2 hk)).2
    have hcard := Finset.card_le_card hsub
    rw [List.toFinset_card_of_nodup hinj, List.length_map] at hcard
    simpa [AList.keys, List.keys] using hcard
  have hreach : p.hasReachedGuardRailLimit = false := by
    unfold hasReachedGuardRailLimit
    simp only [ge_iff_le, decide_eq_false_iff_not, not_le]
    omega
  refine ⟨hreach, fun k => ?_⟩
  unfold hitGuardRailLocked
  split
  · rfl
  · split
    · exact hreach
    · rfl

/-! ## The events of a pull -/

/-- The diff of a field that an event adds, when there is a base to take it from. -/
def fieldDiff (p : ValueMetricProducer Int) (w : HashableDimensionKey) (i : Nat) (v : Int) : Option Int :=
  (p.diffBase (p.baseAt w i) v).bind fun base => p.diffValue base v

/-- The keys are tracked, with the values of their events as bases and the diffs added to what is pending. -/
structure AllTracked (p q : ValueMetricProducer Int) (ws : List HashableDimensionKey) (v : Values) : Prop where
  keys : ∀ w ∈ ws, ⟨w, []⟩ ∈ q.mCurrentSlicedBucket
  base : ∀ w, ∀ i < p.fieldCount, q.baseAt w i = if w ∈ ws then some (v w i) else p.baseAt w i
  pending : ∀ w, ∀ i < p.fieldCount, q.pendingAt ⟨w, []⟩ i =
    if w ∈ ws then p.addDiff (p.pendingAt ⟨w, []⟩ i) (p.fieldDiff w i (v w i)) else p.pendingAt ⟨w, []⟩ i

/-- The data after the events of some keys: the keys are tracked, or the guardrail is reached. -/
structure Processed (p q : ValueMetricProducer Int) (K : Finset HashableDimensionKey) (ws : List HashableDimensionKey)
    (v : Values) : Prop where
  only : DataOnly p q
  keyed : q.KeyedBy K
  matched : ∀ w, w ∈ q.mMatchedMetricDimensionKeys ↔ w ∈ p.mMatchedMetricDimensionKeys ∨ w ∈ ws
  kept : ∀ k ∈ p.mCurrentSlicedBucket, k ∈ q.mCurrentSlicedBucket
  full : p.mDimensionHardLimit ≤ q.mCurrentSlicedBucket.entries.length ∨ AllTracked p q ws v

theorem processed_event (hd : p.mIsPulled = true ∧ p.mUseDiff = true) (h : p.KeyedBy K) (hactive : p.mIsActive = true) {e : Int}
    (hbase : p.mTimeBaseNs ≤ e) (hstart : p.mCurrentBucketStartTimeNs ≤ e) {ev : ValueEvent Int}
    (hK : ev.eventKey.mDimensionKeyInWhat ∈ K) (hstate : ev.eventKey.mStateValuesKey = []) (hprimary : ev.statePrimaryKeys = ∅)
    (hvalues : ev.values = ((List.range p.fieldCount).map (v ev.eventKey.mDimensionKeyInWhat)).map some) :
    Processed p (p.onMatchedLogEventLocked { ev with elapsedTimestampNs := e }) K [ev.eventKey.mDimensionKeyInWhat] v := by
  let p1 : ValueMetricProducer Int := { p with
    mMatchedMetricDimensionKeys := insert ev.eventKey.mDimensionKeyInWhat p.mMatchedMetricDimensionKeys }
  have hp1 : p1.KeyedBy K := h.congr rfl rfl rfl
  have hmatched : ∀ w', w' ∈ p1.mMatchedMetricDimensionKeys ↔
      w' ∈ p.mMatchedMetricDimensionKeys ∨ w' ∈ [ev.eventKey.mDimensionKeyInWhat] := by
    intro w'
    show w' ∈ insert ev.eventKey.mDimensionKeyInWhat p.mMatchedMetricDimensionKeys ↔ _
    rw [Finset.mem_insert, List.mem_singleton]
    exact or_comm
  have hconsiders : p.considers e ev = true := by simp [considers, hactive, hbase, hstart, hprimary]
  rw [onMatchedLogEventLocked_eq hd e ev p1 rfl, if_pos hconsiders]
  split
  · rename_i hhit
    refine ⟨rfl, hp1, hmatched, fun k hk => hk, .inl ?_⟩
    unfold hitGuardRailLocked hasReachedGuardRailLimit at hhit
    split at hhit
    · cases hhit
    · split at hhit
      · exact of_decide_eq_true hhit
      · cases hhit
  have hacc := accumulate_spec (p := p1) hp1.sized hd.2 { ev with elapsedTimestampNs := e } hvalues (by simp [p1])
  have hkey : p1.stateKeyOf ev.eventKey.mDimensionKeyInWhat = [] := hp1.stateFree.stateKeyOf _
  dsimp only at hacc
  generalize hw : ev.eventKey.mDimensionKeyInWhat = w at *
  have hkeyed : (p1.accumulate { ev with elapsedTimestampNs := e }).KeyedBy K := by
    refine ⟨hacc.sized, hp1.indexed.accumulate _, hp1.stateFree.accumulate hstate, fun k hk => ?_⟩
    rcases (hacc.keys k).1 hk with hk | rfl
    · exact hp1.keys k hk
    · exact ⟨hkey, hK⟩
  have hget : ∀ i, i < p.fieldCount → ((List.range p.fieldCount).map (v w))[i]? = some (v w i) := by
    intro i hi
    rw [List.getElem?_map, List.getElem?_range hi]
    rfl
  have hfirst : DataOnly p p1 := rfl
  refine ⟨hfirst.trans hacc.only, hkeyed, fun w' => ?_, fun k hk => (hacc.keys k).2 (.inl hk),
    .inr ⟨fun w' hw' => ?_, fun w' i hi => ?_, fun w' i hi => ?_⟩⟩
  · rw [hacc.matched]
    exact hmatched w'
  · rw [List.mem_singleton.1 hw']
    exact (hacc.keys _).2 (.inr (by rw [hkey]))
  · rw [hacc.base]
    by_cases hw' : w' = w
    · subst hw'
      rw [if_pos ⟨rfl, hi⟩, if_pos (List.mem_singleton_self w'), hget i hi]
    · rw [if_neg fun h => hw' h.1, if_neg fun h => hw' (List.mem_singleton.1 h)]
      rfl
  · rw [hacc.pending, hkey]
    by_cases hw' : w' = w
    · subst hw'
      rw [if_pos ⟨rfl, hi⟩, if_pos (List.mem_singleton_self w'), hget i hi]
      rfl
    · rw [if_neg fun h => hw' (MetricDimensionKey.mk.inj h.1).1, if_neg fun h => hw' (List.mem_singleton.1 h)]
      rfl

theorem processed_events (hd : p.mIsPulled = true ∧ p.mUseDiff = true) (h : p.KeyedBy K) (hactive : p.mIsActive = true) {e : Int}
    (hbase : p.mTimeBaseNs ≤ e) (hstart : p.mCurrentBucketStartTimeNs ≤ e) (l : List (ValueEvent Int))
    (hnodup : (l.map (·.eventKey.mDimensionKeyInWhat)).Nodup)
    (hev : ∀ ev ∈ l, ev.eventKey.mDimensionKeyInWhat ∈ K ∧ ev.eventKey.mStateValuesKey = [] ∧ ev.statePrimaryKeys = ∅ ∧
      ev.values = ((List.range p.fieldCount).map (v ev.eventKey.mDimensionKeyInWhat)).map some) :
    Processed p (l.foldl (fun p data => p.onMatchedLogEventLocked { data with elapsedTimestampNs := e }) p) K
      (l.map (·.eventKey.mDimensionKeyInWhat)) v := by
  induction l generalizing p with
  | nil =>
    refine ⟨.refl p, h, fun w => by simp, fun k hk => hk, .inr ⟨fun w hw => absurd hw List.not_mem_nil, fun w i hi => ?_, fun w i hi => ?_⟩⟩
    · rw [List.map_nil, if_neg List.not_mem_nil]; rfl
    · rw [List.map_nil, if_neg List.not_mem_nil]; rfl
  | cons ev l ih =>
    obtain ⟨hK, hstate, hprimary, hvalues⟩ := hev ev List.mem_cons_self
    have hfirst := processed_event hd h hactive hbase hstart hK hstate hprimary hvalues
    rw [List.foldl_cons]
    generalize p.onMatchedLogEventLocked { ev with elapsedTimestampNs := e } = q at hfirst
    have hm : q.toValueMetric = p.toValueMetric := hfirst.only.congr (·.toValueMetric) fun _ _ _ _ _ => rfl
    have ha : q.mIsActive = p.mIsActive := hfirst.only.congr (·.mIsActive) fun _ _ _ _ _ => rfl
    have hs : q.mCurrentBucketStartTimeNs = p.mCurrentBucketStartTimeNs :=
      hfirst.only.congr (·.mCurrentBucketStartTimeNs) fun _ _ _ _ _ => rfl
    have hcount : q.fieldCount = p.fieldCount := by rw [hm]
    have hdiffs : ∀ (x : Option Int), q.addDiff x = p.addDiff x := fun x =>
      hfirst.only.congr (fun r => r.addDiff x) fun _ _ _ _ _ => rfl
    rw [List.map_cons, List.nodup_cons] at hnodup
    have hrest := ih (p := q) (by rw [hm]; exact hd) hfirst.keyed (ha.trans hactive) (by rw [hm]; exact hbase)
      (by rw [hs]; exact hstart) hnodup.2 (fun ev' hev' => by rw [hcount]; exact hev ev' (List.mem_cons_of_mem ev hev'))
    generalize l.foldl (fun p data => p.onMatchedLogEventLocked { data with elapsedTimestampNs := e }) q = r at hrest
    generalize hw0 : ev.eventKey.mDimensionKeyInWhat = w0 at hfirst hnodup
    rw [List.map_cons, hw0]
    refine ⟨hfirst.only.trans hrest.only, hrest.keyed, fun w => ?_, fun k hk => hrest.kept k (hfirst.kept k hk), ?_⟩
    · rw [hrest.matched, hfirst.matched, List.mem_singleton, List.mem_cons, or_assoc]
    rcases hrest.full with hfull | hlater
    · rw [hm] at hfull
      exact .inl hfull
    rcases hfirst.full with hfull | hone
    · -- the tracked keys only grow
      refine .inl (hfull.trans ?_)
      have hsub : q.mCurrentSlicedBucket.keys ⊆ r.mCurrentSlicedBucket.keys := fun k hk =>
        AList.mem_keys.1 (hrest.kept k (AList.mem_keys.2 hk))
      have hle := (List.Nodup.subperm q.mCurrentSlicedBucket.keys_nodup hsub).length_le
      simpa [AList.keys, List.keys] using hle
    -- a key is of the first event or of a later one, never of both
    refine .inr ⟨fun w hw => ?_, fun w i hi => ?_, fun w i hi => ?_⟩
    · rcases List.mem_cons.1 hw with rfl | hw
      · exact hrest.kept _ (hone.keys _ (List.mem_singleton_self _))
      · exact hlater.keys w hw
    · rw [hlater.base w i (by rw [hcount]; exact hi), hone.base w i hi]
      by_cases hl : w ∈ l.map (·.eventKey.mDimensionKeyInWhat)
      · rw [if_pos hl, if_pos (List.mem_cons_of_mem w0 hl)]
      · rw [if_neg hl]
        by_cases hw : w = w0
        · rw [if_pos (List.mem_singleton.2 hw), if_pos (List.mem_cons.2 (.inl hw))]
        · rw [if_neg fun hmem => hw (List.mem_singleton.1 hmem), if_neg fun hmem => (List.mem_cons.1 hmem).elim hw hl]
    · have hdiff : w ∈ l.map (·.eventKey.mDimensionKeyInWhat) → q.fieldDiff w i (v w i) = p.fieldDiff w i (v w i) := by
        intro hl
        have hne : w ∉ [w0] := fun hmem => hnodup.1 (List.mem_singleton.1 hmem ▸ hl)
        unfold fieldDiff
        rw [hone.base w i hi, if_neg hne]
        exact hfirst.only.congr (fun r => (r.diffBase (p.baseAt w i) (v w i)).bind fun base => r.diffValue base (v w i))
          fun _ _ _ _ _ => rfl
      rw [hlater.pending w i (by rw [hcount]; exact hi), hone.pending w i hi]
      by_cases hl : w ∈ l.map (·.eventKey.mDimensionKeyInWhat)
      · have hne : w ∉ [w0] := fun hmem => hnodup.1 (List.mem_singleton.1 hmem ▸ hl)
        rw [if_pos hl, if_neg hne, if_pos (List.mem_cons_of_mem w0 hl), hdiffs, hdiff hl]
      · rw [if_neg hl]
        by_cases hw : w = w0
        · rw [if_pos (List.mem_singleton.2 hw), if_pos (List.mem_cons.2 (.inl hw))]
        · rw [if_neg fun hmem => hw (List.mem_singleton.1 hmem), if_neg fun hmem => (List.mem_cons.1 hmem).elim hw hl]

theorem resetMissing_all (h : ∀ k ∈ p.mCurrentSlicedBucket, k.mDimensionKeyInWhat ∈ p.mMatchedMetricDimensionKeys) :
    p.resetMissing = p := by
  unfold resetMissing
  have hkeys : ∀ s ∈ p.mCurrentSlicedBucket.entries, s.1.mDimensionKeyInWhat ∈ p.mMatchedMetricDimensionKeys := fun s hs =>
    h s.1 (List.mem_keys_of_mem hs)
  generalize p.mCurrentSlicedBucket.entries = l at hkeys
  induction l with
  | nil => rfl
  | cons s l ih =>
    rw [List.foldl_cons]
    dsimp only
    rw [if_neg fun hmem => hmem.1 (hkeys s List.mem_cons_self)]
    exact ih fun s' hs' => hkeys s' (List.mem_cons_of_mem s hs')

theorem fieldDiff_eq (hd : p.toValueMetric.Diffed) {w : HashableDimensionKey} {i : Nat} {base : Option Values}
    (hb : p.baseAt w i = base.map (· w i)) {v : Int} (hup : ∀ b, p.baseOrZero base = some b → b w i ≤ v) :
    p.fieldDiff w i v = (p.baseOrZero base).map fun b => v - b w i := by
  have hsub : ∀ b : Int, b ≤ v → p.diffValue b v = some (v - b) := by
    intro b hle
    unfold diffValue
    rcases hd.direction with hdir | hdir
    · simp [hdir, MetricValue.ge, MetricValue.sub, hle]
    · simp [hdir, MetricValue.sub]
  unfold fieldDiff baseOrZero at *
  rw [hb]
  cases base with
  | some b => exact hsub _ (hup b rfl)
  | none =>
    simp only [Option.map_none, Option.none_or, diffBase] at hup ⊢
    split
    · rename_i hzero
      rw [if_pos hzero] at hup
      exact hsub _ (hup _ rfl)
    · rfl

theorem KeyedBy.pulled (h : p.KeyedBy K) (hd : p.toValueMetric.Diffed) (hactive : p.mIsActive = true) {pull : Pull Int} {t e : Int} (hret : pull.Returns p.toValueMetric K t v) (hbase : p.mTimeBaseNs ≤ e) (hstart : p.mCurrentBucketStartTimeNs ≤ e) :
    ∃ q : ValueMetricProducer Int, q.toValueMetric = p.toValueMetric ∧
      Processed { p with mMatchedMetricDimensionKeys := ∅ } q K (pull.allData.map (·.eventKey.mDimensionKeyInWhat)) v ∧
      p.accumulateEvents pull t e = if q.hasReachedGuardRailLimit then
          { { q with mMatchedMetricDimensionKeys := ∅, mHasGlobalBase := true }.invalidateCurrentBucket e .DIMENSION_GUARDRAIL_REACHED with
            mCurrentSlicedBucket := ∅ }
        else { q with mMatchedMetricDimensionKeys := ∅, mHasGlobalBase := true } := by
  have hev := processed_events (p := { p with mMatchedMetricDimensionKeys := ∅ }) ⟨hd.pulled, hd.diff⟩ (h.congr rfl rfl rfl) hactive hbase
    hstart pull.allData hret.nodup fun ev hev => ⟨(hret.keys _).2 (List.mem_map_of_mem hev), hret.events ev hev⟩
  refine ⟨_, hev.only.congr (·.toValueMetric) fun _ _ _ _ _ => rfl, hev, ?_⟩
  unfold accumulateEvents
  rw [if_neg (not_lt.2 hstart), if_neg (not_lt.2 hret.inTime)]
  dsimp only
  generalize pull.allData.foldl (fun p data => p.onMatchedLogEventLocked { data with elapsedTimestampNs := e })
    { p with mMatchedMetricDimensionKeys := ∅ } = q at hev
  have hall : q.resetMissing = q := by
    refine resetMissing_all fun k hk => (hev.matched _).2 (.inr ?_)
    exact (hret.keys _).1 (hev.keyed.keys k hk).2
  rw [hall]
  rfl

variable {base pending : Option Values}

theorem Metered.pull (h : Metered p K base pending) (hlimit : K.card < p.mDimensionHardLimit)
    (hd : p.toValueMetric.Diffed)
    (hactive : p.mIsActive = true) {pull : Pull Int} {t e : Int} (hret : pull.Returns p.toValueMetric K t v)
    (hbase : p.mTimeBaseNs ≤ e) (hstart : p.mCurrentBucketStartTimeNs ≤ e)
    (hup : ∀ b, p.baseOrZero base = some b → ∀ w ∈ K, ∀ i < p.fieldCount, b w i ≤ v w i) :
    Metered (p.accumulateEvents pull t e) K (some v) (pendAdd (p.baseOrZero base) pending v) ∧
      DataOnly { p with mHasGlobalBase := true } (p.accumulateEvents pull t e) := by
  obtain ⟨q, hmetric, hev, heq⟩ := h.keyed.pulled hd hactive hret hbase hstart
  have hcount : q.fieldCount = p.fieldCount := by rw [hmetric]
  have hbelow := (hev.keyed.below (by rw [hmetric]; exact hlimit)).1
  rw [heq, if_neg (by rw [hbelow]; exact Bool.false_ne_true)]
  have htracked : AllTracked { p with mMatchedMetricDimensionKeys := ∅ } q (pull.allData.map (·.eventKey.mDimensionKeyInWhat)) v := by
    refine hev.full.resolve_left fun hfull => ?_
    unfold hasReachedGuardRailLimit at hbelow
    rw [hmetric] at hbelow
    exact of_decide_eq_false hbelow hfull
  refine ⟨⟨hev.keyed.congr rfl rfl rfl, fun w hw i hi => ?_, fun w hw i hi => ?_⟩, ?_⟩
  · rw [hcount] at hi
    have hb := htracked.base w i hi
    rw [if_pos ((hret.keys w).1 hw)] at hb
    exact hb
  · rw [hcount] at hi
    have hp := htracked.pending w i hi
    rw [if_pos ((hret.keys w).1 hw)] at hp
    have hdiff : fieldDiff { p with mMatchedMetricDimensionKeys := ∅ } w i (v w i) = (p.baseOrZero base).map fun b => v w i - b w i :=
      fieldDiff_eq hd (h.base w hw i hi) fun b hb => hup b hb w hw i hi
    have hpend : pendingAt { p with mMatchedMetricDimensionKeys := ∅ } ⟨w, []⟩ i = pending.map (· w i) := h.pending w hw i hi
    rw [hdiff, hpend] at hp
    refine hp.trans ?_
    unfold pendAdd addDiff aggregate
    cases p.baseOrZero base with
    | none => rfl
    | some b =>
      cases pending with
      | none => simp
      | some x => simp [hd.sum, MetricValue.add]
  · have honly := hev.only
    unfold DataOnly at honly ⊢
    have hq := congrArg (fun r : ValueMetricProducer Int =>
      { r with mHasGlobalBase := true, mMatchedMetricDimensionKeys := p.mMatchedMetricDimensionKeys }) honly
    exact hq

/-! ## Resets and flushes -/

theorem Metered.congr (h : Metered p K base pending)
    (hm : q.toValueMetric = p.toValueMetric) (hb : q.mCurrentBaseInfo = p.mCurrentBaseInfo)
    (hs : q.mCurrentSlicedBucket = p.mCurrentSlicedBucket) : Metered q K base pending := by
  refine ⟨h.keyed.congr hm hb hs, ?_, ?_⟩
  · unfold baseAt; rw [hb, hm]; exact h.base
  · unfold pendingAt; rw [hs, hm]; exact h.pending

theorem KeyedBy.resetBase (h : p.KeyedBy K) : p.resetBase.KeyedBy K := by
  refine ⟨⟨fun w => ?_, h.sized.sliced⟩, h.indexed, ⟨h.stateFree.unknown, fun w b hb => ?_⟩, h.keys⟩
  · rw [getD_resetBase, List.length_map]
    exact h.sized.base w
  · rw [getD_resetBase] at hb
    obtain ⟨b', hb', rfl⟩ := List.mem_map.1 hb
    exact h.stateFree.base w b' hb'

theorem Metered.resetBase (h : Metered p K base pending) : Metered p.resetBase K none pending :=
  ⟨h.keyed.resetBase, fun w _ i _ => baseAt_resetBase p w i, h.pending⟩

theorem Metered.invalidate (h : Metered p K base pending) (t : Int) (r : BucketDropReason) :
    Metered (p.invalidateCurrentBucket t r) K none pending := by
  have hskip : Metered (p.skipCurrentBucket t r) K base pending := h.congr rfl rfl rfl
  exact hskip.resetBase

theorem Metered.flush (h : Metered p K base pending) {e next : Int}
    (hm : q.toValueMetric = p.toValueMetric) (hc : Closing p q e next) : Metered q K base none := by
  refine ⟨⟨hc.toFlushed.sized (by rw [hm]) h.keyed.sized, hc.indexed, ⟨?_, ?_⟩, fun k hk => ?_⟩, ?_, fun w _ i _ => hc.pendingAt _ i⟩
  · rw [hm]; exact h.keyed.stateFree.unknown
  · rw [hc.bases.1]; exact h.keyed.stateFree.base
  · obtain ⟨l', hl⟩ := Option.isSome_iff_exists.1 (AList.lookup_isSome.2 hk)
    obtain ⟨l, hp, -⟩ := hc.slice hl
    exact h.keyed.keys k (AList.lookup_isSome.1 (by rw [hp]; rfl))
  · unfold baseAt; rw [hc.bases.1, hm]; exact h.base

/-! ## The guardrail -/

theorem Metered.pull_over (h : Metered p K none none) (hlimit : p.mDimensionHardLimit ≤ K.card) (hd : p.toValueMetric.Diffed)
    (hactive : p.mIsActive = true) {pull : Pull Int} {t e : Int} (hret : pull.Returns p.toValueMetric K t v)
    (hbase : p.mTimeBaseNs ≤ e) (hstart : p.mCurrentBucketStartTimeNs ≤ e) :
    Metered (p.accumulateEvents pull t e) K none none ∧
      DataOnly (p.invalidateCurrentBucket e .DIMENSION_GUARDRAIL_REACHED) (p.accumulateEvents pull t e) := by
  obtain ⟨q, hmetric, hev, heq⟩ := h.keyed.pulled hd hactive hret hbase hstart
  have hreached : q.mDimensionHardLimit ≤ q.mCurrentSlicedBucket.entries.length := by
    rw [hmetric]
    rcases hev.full with hfull | htracked
    · exact hfull
    · -- all keys are tracked, and they are too many
      have hsub : K ⊆ (q.mCurrentSlicedBucket.keys.map (·.mDimensionKeyInWhat)).toFinset := by
        intro w hw
        have hmem := AList.mem_keys.1 (htracked.keys w ((hret.keys w).1 hw))
        exact List.mem_toFinset.2 (List.mem_map.2 ⟨_, hmem, rfl⟩)
      have hcard := (Finset.card_le_card hsub).trans (List.toFinset_card_le _)
      rw [List.length_map] at hcard
      have hlen : K.card ≤ q.mCurrentSlicedBucket.entries.length := by simpa [AList.keys, List.keys] using hcard
      exact hlimit.trans hlen
  rw [heq, if_pos (by unfold hasReachedGuardRailLimit; exact decide_eq_true hreached)]
  refine ⟨⟨⟨⟨?_, fun k => ?_⟩, fun k i int hint => ?_, ⟨?_, ?_⟩, fun k hk => ?_⟩, fun w hw i hi => ?_, fun w hw i hi => ?_⟩, ?_⟩
  · exact hev.keyed.resetBase.sized.base
  · show (UMap.getD ∅ k []).length ≤ _
    simp
  · have hint : (UMap.getD (∅ : UMap MetricDimensionKey (List (Interval Int))) k [])[i]? = some int := hint
    simp at hint
  · exact hev.keyed.stateFree.unknown
  · exact hev.keyed.resetBase.stateFree.base
  · exact absurd hk (AList.notMem_empty k)
  · exact baseAt_resetBase q w i
  · show (UMap.getD ∅ (⟨w, []⟩ : MetricDimensionKey) [])[i]?.bind _ = none
    simp
  · have honly := hev.only
    unfold DataOnly at honly ⊢
    have hq := congrArg (fun r : ValueMetricProducer Int =>
      { r.invalidateCurrentBucket e .DIMENSION_GUARDRAIL_REACHED with
        mCurrentBaseInfo := (p.invalidateCurrentBucket e .DIMENSION_GUARDRAIL_REACHED).mCurrentBaseInfo
        mMatchedMetricDimensionKeys := p.mMatchedMetricDimensionKeys }) honly
    exact hq

/-! ## Pulls of an inactive metric -/

theorem KeyedBy.resetMissing (h : p.KeyedBy K) : p.resetMissing.KeyedBy K := by
  obtain ⟨honly, hbase⟩ := resetMissing_only p
  have hm : p.resetMissing.toValueMetric = p.toValueMetric := congrArg (·.toValueMetric) honly
  have hs : p.resetMissing.mCurrentSlicedBucket = p.mCurrentSlicedBucket := congrArg (·.mCurrentSlicedBucket) honly
  refine ⟨⟨fun w => ?_, ?_⟩, ?_, ⟨?_, fun w b hb => ?_⟩, ?_⟩
  · rw [hm]
    rcases hbase w with heq | ⟨heq, -⟩
    · rw [heq]; exact h.sized.base w
    · rw [heq, List.length_map]; exact h.sized.base w
  · rw [hs, hm]; exact h.sized.sliced
  · unfold Indexed; rw [hs]; exact h.indexed
  · rw [hm]; exact h.stateFree.unknown
  · rcases hbase w with heq | ⟨heq, -⟩
    · rw [heq] at hb; exact h.stateFree.base w b hb
    · rw [heq] at hb
      obtain ⟨b', hb', rfl⟩ := List.mem_map.1 hb
      exact h.stateFree.base w b' hb'
  · rw [hs]; exact h.keys

/-- A pull of an inactive metric: its events are dropped, and bases may be. -/
structure Dropped (p q : ValueMetricProducer Int) (K : Finset HashableDimensionKey) : Prop where
  keyed : q.KeyedBy K
  base : ∀ w i, q.baseAt w i = none ∨ q.baseAt w i = p.baseAt w i
  pending : ∀ k i, p.pendingAt k i = none → q.pendingAt k i = none
  drops : DropsLogged q
  condition : q.mCondition = p.mCondition
  active : q.mIsActive = p.mIsActive

theorem dropped_invalidate (h : p.KeyedBy K) (hdrops : DropsLogged p) (t : Int) {r : BucketDropReason} (hr : r ≠ .NO_DATA) :
    Dropped p (p.invalidateCurrentBucket t r) K := by
  have hskip : (p.skipCurrentBucket t r).KeyedBy K := h.congr rfl rfl rfl
  have hd := hdrops.skip t hr
  exact ⟨hskip.resetBase, fun w i => .inl (baseAt_resetBase _ w i), fun k i hp => hp, ⟨hd.logged, hd.reason⟩, rfl, rfl⟩

theorem dropped_accumulateEvents (h : p.KeyedBy K) (hinactive : p.mIsActive = false) (hdrops : DropsLogged p) (pull : Pull Int) (t e : Int) :
    Dropped p (p.accumulateEvents pull t e) K := by
  unfold accumulateEvents
  split
  · exact dropped_invalidate h hdrops e (by decide)
  split
  · exact dropped_invalidate h hdrops e (by decide)
  dsimp only
  have hfold : ∀ (l : List (ValueEvent Int)) (q : ValueMetricProducer Int), q.mIsActive = false →
      l.foldl (fun p data => p.onMatchedLogEventLocked { data with elapsedTimestampNs := e }) q = q := by
    intro l
    induction l with
    | nil => exact fun q _ => rfl
    | cons ev l ih =>
      intro q hq
      have hev : q.onMatchedLogEventLocked { ev with elapsedTimestampNs := e } = q := if_pos (by simp [hq])
      rw [List.foldl_cons, hev]
      exact ih q hq
  let p0 : ValueMetricProducer Int := { p with mMatchedMetricDimensionKeys := ∅ }
  rw [show pull.allData.foldl (fun p data => p.onMatchedLogEventLocked { data with elapsedTimestampNs := e }) p0 = p0 from
    hfold _ p0 hinactive]
  have hp0 : p0.KeyedBy K := h.congr rfl rfl rfl
  obtain ⟨honly, hbase⟩ := resetMissing_only p0
  have hkeyed := hp0.resetMissing
  let q : ValueMetricProducer Int := { p0.resetMissing with mMatchedMetricDimensionKeys := ∅, mHasGlobalBase := true }
  have hq : q.KeyedBy K := hkeyed.congr rfl rfl rfl
  have hsliced : p0.resetMissing.mCurrentSlicedBucket = p.mCurrentSlicedBucket := congrArg (·.mCurrentSlicedBucket) honly
  have hskip : q.mCurrentBucketIsSkipped = p.mCurrentBucketIsSkipped := congrArg (·.mCurrentBucketIsSkipped) honly
  have hdrop : q.dropEvents = p.dropEvents := congrArg (·.dropEvents) honly
  have hlogged : DropsLogged q := ⟨by rw [hskip, hdrop]; exact hdrops.logged, by rw [hdrop]; exact hdrops.reason⟩
  show Dropped p (if q.hasReachedGuardRailLimit then
    { q.invalidateCurrentBucket e .DIMENSION_GUARDRAIL_REACHED with mCurrentSlicedBucket := ∅ } else q) K
  split
  · have hinv := dropped_invalidate hq hlogged e (r := .DIMENSION_GUARDRAIL_REACHED) (by decide)
    refine ⟨⟨⟨hinv.keyed.sized.base, fun k => ?_⟩, fun k i int hint => ?_, ⟨hinv.keyed.stateFree.unknown, hinv.keyed.stateFree.base⟩,
      fun k hk => absurd hk (AList.notMem_empty k)⟩, fun w i => .inl (baseAt_resetBase _ w i), fun k i hp => ?_,
      ⟨hinv.drops.logged, hinv.drops.reason⟩, ?_, ?_⟩
    · show (UMap.getD ∅ k []).length ≤ _
      simp
    · have hint : (UMap.getD (∅ : UMap MetricDimensionKey (List (Interval Int))) k [])[i]? = some int := hint
      simp at hint
    · show (UMap.getD ∅ k [])[i]?.bind _ = none
      simp
    · exact congrArg (·.mCondition) honly
    · exact congrArg (·.mIsActive) honly
  · refine ⟨hq, fun w i => ?_, fun k i hp => ?_, hlogged, congrArg (·.mCondition) honly, congrArg (·.mIsActive) honly⟩
    · show (UMap.getD p0.resetMissing.mCurrentBaseInfo w [])[i]?.bind _ = none ∨
        (UMap.getD p0.resetMissing.mCurrentBaseInfo w [])[i]?.bind _ = _
      rcases hbase w with heq | ⟨heq, -⟩
      · rw [heq]
        exact .inr rfl
      · rw [heq, List.getElem?_map]
        refine .inl ?_
        cases (UMap.getD p0.mCurrentBaseInfo w [])[i]? with
        | none => rfl
        | some b => rfl
    · show (UMap.getD p0.resetMissing.mCurrentSlicedBucket k [])[i]?.bind _ = none
      rw [hsliced]
      exact hp

theorem dropped_pull (h : p.KeyedBy K) (hinactive : p.mIsActive = false) (hdrops : DropsLogged p) (pull : Pull Int) (t : Int) :
    Dropped p (p.pullAndMatchEventsLocked pull t) K := by
  unfold pullAndMatchEventsLocked
  split
  · exact dropped_invalidate h hdrops t (by decide)
  · exact dropped_accumulateEvents h hinactive hdrops pull t t

end

end ValueMetricProducer

end Statsd.Metrics
