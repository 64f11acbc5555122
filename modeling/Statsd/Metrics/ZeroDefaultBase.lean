/-
Zero as the base of a diff. A metric that uses it takes zero for the base of a key that was not in the
data of an earlier pull, so that a new key is counted from its beginning. The producer does not keep the
pulls: one flag says that there was one, and a key is taken for new when it has no base. We log, next to
the producer, the keys of the pulls that were processed in full in the current period, a period being a
time in which the metric is active and its condition true. A diff from zero is justified when a pull of
the log did not have the key; it is justified when every pull that leaves the flag set was complete, or
came after one that was and dropped no base.
-/
import Statsd.Base.Run
import Statsd.Metrics.ValueClosing

namespace Statsd.Metrics

/-- A pull whose events a producer processes: the producer as the pull finds it, the time for which the
pull was asked and the time at which its events count. -/
structure Pulled (V : Type) where
  found : ValueMetricProducer V
  pull : Pull V
  asked : Int
  counted : Int

variable {V : Type} [MetricValue V]

namespace ValueMetricProducer

/-- The diff of field `i` of an event at time `e` is taken from zero, for want of a base: the event is
aggregated, and so far it has a value for each field. -/
def UsesZero (p : ValueMetricProducer V) (e : Int) (ev : ValueEvent V) (i : Nat) : Prop :=
  p.considers e ev = true ∧ p.hitGuardRailLocked ev.eventKey = false ∧ i < p.fieldCount ∧
    (∀ j ≤ i, ev.values[j]?.join ≠ none) ∧ p.baseAt ev.eventKey.mDimensionKeyInWhat i = none ∧
    ∃ v, ev.values[i]? = some (some v) ∧ p.diffBase none v = some (MetricValue.zero v)

/-- The metric is active and its condition true. -/
def inPeriod (p : ValueMetricProducer V) : Bool := p.mIsActive && decide (p.mCondition = .kTrue)

end ValueMetricProducer

open ValueMetricProducer

namespace Pulled

/-- The producer after the first `n` events of the pull. -/
def after (x : Pulled V) (n : Nat) : ValueMetricProducer V :=
  (x.pull.allData.take n).foldl (fun p data => p.onMatchedLogEventLocked { data with elapsedTimestampNs := x.counted })
    { x.found with mMatchedMetricDimensionKeys := ∅ }

/-- The producer after the pull. -/
def result (x : Pulled V) : ValueMetricProducer V := x.found.accumulateEvents x.pull x.asked x.counted

/-- The pull is neither late nor delayed. -/
def inTime (x : Pulled V) : Bool :=
  decide (x.found.mCurrentBucketStartTimeNs ≤ x.counted) &&
    decide (x.pull.elapsedRealtimeNs - x.asked ≤ x.found.mMaxPullDelayNs)

/-- The metric is active, no event of the pull is dropped, and each has a value for each field. -/
def complete (x : Pulled V) : Bool :=
  x.found.mIsActive && x.pull.allData.all fun ev =>
    x.found.considers x.counted ev && decide (ev.values.length = x.found.fieldCount) && ev.values.all Option.isSome

/-- The pull is processed in full: it is complete and no event hits the guardrail. -/
def full (x : Pulled V) : Bool :=
  x.inTime && x.complete && !(x.after x.pull.allData.length).hasReachedGuardRailLimit

/-- The keys that the pull has events for. -/
def keys (x : Pulled V) : List HashableDimensionKey := x.pull.allData.map (·.eventKey.mDimensionKeyInWhat)

/-- There is a global base already, and the pull has an event for every tracked key that it looks for. -/
def KeepsBases (x : Pulled V) : Prop :=
  x.found.mHasGlobalBase = true ∧ ∀ k ∈ x.found.mCurrentSlicedBucket,
    k.mDimensionKeyInWhat.contains x.found.mStateChangePrimaryKey.2 = true →
    ∃ ev ∈ x.pull.allData, x.found.considers x.counted ev = true ∧ ev.eventKey.mDimensionKeyInWhat = k.mDimensionKeyInWhat

end Pulled

namespace ValueMetricProducer

/-! ## Events -/

variable {p : ValueMetricProducer V}

theorem updateIntervals_bases (hdiff : p.mUseDiff = true) (stateKey : HashableDimensionKey) (values : List (Option V)) (i : Nat)
    (bs : List (BaseInfo V)) (ints : List (Interval V)) (j : Nat)
    (h : (p.updateIntervals stateKey i values bs ints).1[j]?.bind (·.base) = none) : bs[j]?.bind (·.base) = none := by
  have hfield := p.updateIntervals_field stateKey values i bs ints j
  generalize bs[j]? = b₀, ints[j]? = int₀, (p.updateIntervals stateKey i values bs ints).1[j]? = b',
    (p.updateIntervals stateKey i values bs ints).2.1[j]? = int' at hfield h ⊢
  cases hfield with
  | kept _ => exact h
  | reached _ => exact h
  | updated _ =>
    rw [Option.bind_some, (updateInterval_diffed hdiff _ _ _).1] at h
    cases h

/-- The data after some events at time `e`: bases are only gained and keys only added, and an event that is
not dropped is of a matched key. -/
structure Gained (p q : ValueMetricProducer V) (e : Int) (l : List (ValueEvent V)) : Prop where
  only : DataOnly p q
  sized : Sized q
  base : ∀ w i, q.baseAt w i = none → p.baseAt w i = none
  tracked : ∀ k ∈ p.mCurrentSlicedBucket, k ∈ q.mCurrentSlicedBucket
  keys : ∀ k ∈ q.mCurrentSlicedBucket, k ∈ p.mCurrentSlicedBucket ∨ k.mDimensionKeyInWhat ∈ q.mMatchedMetricDimensionKeys
  kept : ∀ w ∈ p.mMatchedMetricDimensionKeys, w ∈ q.mMatchedMetricDimensionKeys
  matched : ∀ ev ∈ l, p.considers e ev = true → ev.eventKey.mDimensionKeyInWhat ∈ q.mMatchedMetricDimensionKeys

theorem Gained.refl (h : Sized p) (e : Int) : Gained p p e [] :=
  ⟨.refl p, h, fun _ _ h => h, fun _ h => h, fun _ h => .inl h, fun _ h => h, fun _ h => absurd h List.not_mem_nil⟩

omit [MetricValue V] in
theorem DataOnly.considers {p q : ValueMetricProducer V} (h : DataOnly p q) (e : Int) (ev : ValueEvent V) :
    q.considers e ev = p.considers e ev := h.congr (·.considers e ev) fun _ _ _ _ _ => rfl

theorem Gained.trans {p q r : ValueMetricProducer V} {e : Int} {l l' : List (ValueEvent V)} (h : Gained p q e l) (h' : Gained q r e l') :
    Gained p r e (l ++ l') := by
  refine ⟨h.only.trans h'.only, h'.sized, fun w i hn => h.base w i (h'.base w i hn), fun k hk => h'.tracked k (h.tracked k hk),
    fun k hk => ?_, fun w hw => h'.kept w (h.kept w hw), fun ev hev hc => ?_⟩
  · rcases h'.keys k hk with hk | hk
    · exact (h.keys k hk).imp_right (h'.kept _)
    · exact .inr hk
  · rcases List.mem_append.1 hev with hev | hev
    · exact h'.kept _ (h.matched ev hev hc)
    · exact h'.matched ev hev ((h.only.considers e ev).trans hc)

omit [MetricValue V] in
theorem Sized.insert (h : Sized p) (w : HashableDimensionKey) :
    Sized { p with mMatchedMetricDimensionKeys := insert w p.mMatchedMetricDimensionKeys } := ⟨h.base, h.sliced⟩

theorem gained_accumulate (h : Sized p) (hdiff : p.mUseDiff = true) (e : Int) (ev : ValueEvent V)
    (hmatched : ev.eventKey.mDimensionKeyInWhat ∈ p.mMatchedMetricDimensionKeys) :
    Gained p (p.accumulate { ev with elapsedTimestampNs := e }) e [ev] := by
  have honly := p.accumulate_dataOnly { ev with elapsedTimestampNs := e }
  obtain ⟨hbase, hsliced, hmatch⟩ := p.accumulate_data { ev with elapsedTimestampNs := e }
  dsimp only at hbase hsliced hmatch
  have hcount : (p.accumulate { ev with elapsedTimestampNs := e }).fieldCount = p.fieldCount :=
    honly.congr (·.fieldCount) fun _ _ _ _ _ => rfl
  generalize hw : ev.eventKey.mDimensionKeyInWhat = w at hbase hsliced hmatched
  have hbs := h.length_basesOf w
  have hints := h.length_intervalsOf w
  have h3 := updateIntervals_bases hdiff ev.eventKey.mStateValuesKey ev.values 0 (p.basesOf w) (p.intervalsOf w)
  obtain ⟨h1, h2⟩ := p.updateIntervals_length ev.eventKey.mStateValuesKey ev.values 0 (p.basesOf w) (p.intervalsOf w)
  refine ⟨honly, ⟨fun w' => ?_, fun k => ?_⟩, fun w' i hn => ?_, fun k hk => ?_, fun k hk => ?_, fun w' hw' => ?_, fun ev' hev' _ => ?_⟩
  · rw [hbase, hcount, UMap.getD_insert]
    split
    · rw [h1, hbs]
    · exact h.base w'
  · rw [hsliced, hcount, UMap.getD_insert]
    split
    · rw [h2, hints]
    · exact h.sliced k
  · unfold baseAt at hn
    rw [hbase, UMap.getD_insert] at hn
    split at hn
    · rename_i hw'
      rw [hw', ← p.basesOf_get]
      exact h3 i hn
    · exact hn
  · rw [hsliced]
    exact AList.mem_insert _ |>.2 (.inr hk)
  · rw [hsliced] at hk
    rw [hmatch]
    rcases (AList.mem_insert _).1 hk with rfl | hk
    · exact .inr hmatched
    · exact .inl hk
  · rw [hmatch]; exact hw'
  · rw [List.mem_singleton.1 hev', hmatch, hw]
    exact hmatched

theorem gained_event (h : Sized p) (hd : p.mIsPulled = true ∧ p.mUseDiff = true) (e : Int) (ev : ValueEvent V) :
    Gained p (p.onMatchedLogEventLocked { ev with elapsedTimestampNs := e }) e [ev] := by
  rw [onMatchedLogEventLocked_eq hd e ev _ rfl]
  split
  · have hins : Gained p { p with
        mMatchedMetricDimensionKeys := insert ev.eventKey.mDimensionKeyInWhat p.mMatchedMetricDimensionKeys } e [ev] := by
      refine ⟨rfl, h.insert _, fun _ _ hn => hn, fun _ hk => hk, fun _ hk => .inl hk, fun w hw => Finset.mem_insert_of_mem hw,
        fun ev' hev' _ => ?_⟩
      rw [List.mem_singleton.1 hev']
      exact Finset.mem_insert_self _ _
    split
    · exact hins
    · have hacc := gained_accumulate hins.sized (p := { p with
        mMatchedMetricDimensionKeys := insert ev.eventKey.mDimensionKeyInWhat p.mMatchedMetricDimensionKeys }) hd.2 e ev
        (Finset.mem_insert_self _ _)
      have hnil : Gained p { p with
          mMatchedMetricDimensionKeys := insert ev.eventKey.mDimensionKeyInWhat p.mMatchedMetricDimensionKeys } e [] :=
        { hins with matched := fun _ h => absurd h List.not_mem_nil }
      exact hnil.trans hacc
  · rename_i hc
    refine { Gained.refl h e with matched := fun ev' hev' hc' => ?_ }
    rw [List.mem_singleton.1 hev'] at hc'
    exact absurd hc' hc

theorem gained_events (h : Sized p) (hd : p.mIsPulled = true ∧ p.mUseDiff = true) (e : Int)
    (l : List (ValueEvent V)) :
    Gained p (l.foldl (fun p data => p.onMatchedLogEventLocked { data with elapsedTimestampNs := e }) p) e l := by
  induction l generalizing p with
  | nil => exact .refl h e
  | cons ev l ih =>
    have hev := gained_event h hd e ev
    have hd' : (p.onMatchedLogEventLocked { ev with elapsedTimestampNs := e }).mIsPulled = true ∧
        (p.onMatchedLogEventLocked { ev with elapsedTimestampNs := e }).mUseDiff = true := by
      rw [hev.only.congr (·.mIsPulled) fun _ _ _ _ _ => rfl, hev.only.congr (·.mUseDiff) fun _ _ _ _ _ => rfl]
      exact hd
    exact hev.trans (ih hev.sized hd')

theorem Gained.reached {p q : ValueMetricProducer V} {e : Int} {l : List (ValueEvent V)} (h : Gained p q e l)
    (hp : p.hasReachedGuardRailLimit = true) : q.hasReachedGuardRailLimit = true := by
  have hlen : ∀ m : UMap MetricDimensionKey (List (Interval V)), m.entries.length = m.keys.length := fun m =>
    (List.length_map Sigma.fst).symm
  have hle := (List.subperm_of_subset p.mCurrentSlicedBucket.keys_nodup
    (fun k hk => AList.mem_keys.1 (h.tracked k (AList.mem_keys.2 hk)) : p.mCurrentSlicedBucket.keys ⊆ q.mCurrentSlicedBucket.keys)).length_le
  have hlimit : q.mDimensionHardLimit = p.mDimensionHardLimit := h.only.congr (·.mDimensionHardLimit) fun _ _ _ _ _ => rfl
  unfold hasReachedGuardRailLimit at hp ⊢
  rw [decide_eq_true_eq] at hp ⊢
  rw [hlimit]
  rw [hlen] at hp ⊢
  exact hp.trans hle

omit [MetricValue V] in
theorem hitGuardRailLocked_reached {k : MetricDimensionKey} (h : p.hitGuardRailLocked k = true) :
    p.hasReachedGuardRailLimit = true := by
  unfold hitGuardRailLocked at h
  split at h
  · cases h
  · split at h
    · exact h
    · cases h

/-- An event that is not dropped and has a value for each field gives its key all bases, unless the guardrail
is reached. -/
theorem base_event (h : Sized p) (hd : p.mIsPulled = true ∧ p.mUseDiff = true) {e : Int} {ev : ValueEvent V}
    (hc : p.considers e ev = true) (hlen : ev.values.length = p.fieldCount) (hall : ev.values.all Option.isSome = true) :
    (p.onMatchedLogEventLocked { ev with elapsedTimestampNs := e }).hasReachedGuardRailLimit = true ∨
      ∀ i < p.fieldCount, (p.onMatchedLogEventLocked { ev with elapsedTimestampNs := e }).baseAt ev.eventKey.mDimensionKeyInWhat i ≠ none := by
  rw [onMatchedLogEventLocked_eq hd e ev _ rfl, if_pos hc]
  split
  · rename_i hhit
    exact .inl (hitGuardRailLocked_reached hhit)
  · obtain ⟨vs, hvs⟩ : ∃ vs : List V, ev.values = vs.map some := by
      refine ⟨ev.values.filterMap id, ?_⟩
      have hsome := List.all_eq_true.1 hall
      generalize ev.values = l at hsome
      induction l with
      | nil => rfl
      | cons v l ih =>
        obtain ⟨a, rfl⟩ := Option.isSome_iff_exists.1 (hsome v List.mem_cons_self)
        rw [List.filterMap_cons_some (f := id) (a := some a) (b := a) rfl, List.map_cons, ← ih fun v hv => hsome v (List.mem_cons_of_mem _ hv)]
    have hcount : vs.length = p.fieldCount := by rw [← hlen, hvs, List.length_map]
    have hacc := accumulate_spec (h.insert ev.eventKey.mDimensionKeyInWhat) hd.2 { ev with elapsedTimestampNs := e } hvs hcount
    refine .inr fun i hi => ?_
    rw [hacc.base, if_pos ⟨rfl, hi⟩, List.getElem?_eq_getElem (by omega)]
    exact Option.some_ne_none _

theorem base_events (h : Sized p) (hd : p.mIsPulled = true ∧ p.mUseDiff = true) {e : Int} (l : List (ValueEvent V))
    (hl : ∀ ev ∈ l, p.considers e ev = true ∧ ev.values.length = p.fieldCount ∧ ev.values.all Option.isSome = true) :
    (l.foldl (fun p data => p.onMatchedLogEventLocked { data with elapsedTimestampNs := e }) p).hasReachedGuardRailLimit = true ∨
      ∀ ev ∈ l, ∀ i < p.fieldCount, (l.foldl (fun p data => p.onMatchedLogEventLocked { data with elapsedTimestampNs := e }) p).baseAt
        ev.eventKey.mDimensionKeyInWhat i ≠ none := by
  induction l generalizing p with
  | nil => exact .inr fun ev hev => absurd hev List.not_mem_nil
  | cons ev l ih =>
    have hev := gained_event h hd e ev
    obtain ⟨hc, hlen, hall⟩ := hl ev List.mem_cons_self
    have hfirst := base_event h hd hc hlen hall
    rw [List.foldl_cons]
    generalize p.onMatchedLogEventLocked { ev with elapsedTimestampNs := e } = q at hev hfirst
    have hcount : q.fieldCount = p.fieldCount := hev.only.congr (·.fieldCount) fun _ _ _ _ _ => rfl
    have hd' : q.mIsPulled = true ∧ q.mUseDiff = true := by
      rw [hev.only.congr (·.mIsPulled) fun _ _ _ _ _ => rfl, hev.only.congr (·.mUseDiff) fun _ _ _ _ _ => rfl]
      exact hd
    have hrest := gained_events hev.sized hd' e l
    rcases hfirst with hfirst | hfirst
    · exact .inl (hrest.reached hfirst)
    have hih := ih hev.sized hd' fun ev' hev' => by
      rw [hev.only.considers, hcount]
      exact hl ev' (List.mem_cons_of_mem _ hev')
    rw [hcount] at hih
    refine hih.imp_right fun hbase ev' hev' i hi => ?_
    rcases List.mem_cons.1 hev' with rfl | hev'
    · exact fun hn => hfirst i hi (hrest.base _ i hn)
    · exact hbase ev' hev' i hi

/-! ## Pulls -/

/-- The diffs from zero are justified by the pulls with the keys in `log`. -/
structure Covered (p : ValueMetricProducer V) (log : List (List HashableDimensionKey)) : Prop where
  sized : Sized p
  base : p.mHasGlobalBase = true → ∀ w, ∀ i < p.fieldCount, p.baseAt w i = none → ∃ keys ∈ log, w ∉ keys

omit [MetricValue V] in
theorem Sized.covered (h : Sized p) (hno : p.mHasGlobalBase = false) (log : List (List HashableDimensionKey)) :
    Covered p log := ⟨h, fun hyes => absurd (hno.symm.trans hyes) Bool.false_ne_true⟩

/-- What else a call does to the data: bases and values are only dropped, and the global base with the first base. -/
structure Settles (p p' : ValueMetricProducer V) : Prop where
  metric : p'.toValueMetric = p.toValueMetric
  global : p'.mHasGlobalBase = true → p.mHasGlobalBase = true ∧ p'.mCurrentBaseInfo = p.mCurrentBaseInfo
  base : ∀ w, (UMap.getD p'.mCurrentBaseInfo w []).length ≤ (UMap.getD p.mCurrentBaseInfo w []).length
  sliced : ∀ k, (UMap.getD p'.mCurrentSlicedBucket k []).length ≤ (UMap.getD p.mCurrentSlicedBucket k []).length

namespace Settles

omit [MetricValue V]

variable {p p' p'' : ValueMetricProducer V}

theorem congr (hm : p'.toValueMetric = p.toValueMetric) (hg : p'.mHasGlobalBase = p.mHasGlobalBase)
    (hb : p'.mCurrentBaseInfo = p.mCurrentBaseInfo) (hs : p'.mCurrentSlicedBucket = p.mCurrentSlicedBucket) : Settles p p' :=
  ⟨hm, fun h => ⟨hg.symm.trans h, hb⟩, fun w => by rw [hb], fun k => by rw [hs]⟩

theorem refl (p : ValueMetricProducer V) : Settles p p := congr rfl rfl rfl rfl

theorem trans (h : Settles p p') (h' : Settles p' p'') : Settles p p'' := by
  refine ⟨h'.metric.trans h.metric, fun hg => ?_, fun w => (h'.base w).trans (h.base w), fun k => (h'.sliced k).trans (h.sliced k)⟩
  obtain ⟨hg', hb'⟩ := h'.global hg
  obtain ⟨hg, hb⟩ := h.global hg'
  exact ⟨hg, hb'.trans hb⟩

theorem resetBase (p : ValueMetricProducer V) : Settles p p.resetBase := by
  refine ⟨rfl, fun hg => absurd hg Bool.false_ne_true, fun w => ?_, fun k => le_refl _⟩
  rw [getD_resetBase, List.length_map]

theorem invalidate (p : ValueMetricProducer V) (t : Int) (r : BucketDropReason) : Settles p (p.invalidateCurrentBucket t r) :=
  trans (congr rfl rfl rfl rfl : Settles p (p.skipCurrentBucket t r)) (resetBase _)

theorem sized (h : Settles p p') (hp : Sized p) : Sized p' := by
  refine ⟨fun w => ?_, fun k => ?_⟩
  · rw [h.metric]
    exact (h.base w).trans (hp.base w)
  · rw [h.metric]
    exact (h.sliced k).trans (hp.sliced k)

theorem covered (h : Settles p p') {log : List (List HashableDimensionKey)} (hp : Covered p log) : Covered p' log := by
  refine ⟨h.sized hp.sized, fun hg w i hi hn => ?_⟩
  obtain ⟨hg', hb⟩ := h.global hg
  unfold baseAt at hn
  rw [hb] at hn
  rw [h.metric] at hi
  exact hp.base hg' w i hi hn

end Settles

theorem settles_flush (p : ValueMetricProducer V) (e next : Int) : Settles p (p.flushCurrentBucketLocked e next) := by
  obtain ⟨skipped, hspec⟩ := p.flushCurrentBucketLocked_spec e next
  have hf := p.flushCurrentBucketLocked_flushed e next
  refine ⟨hspec.metric, fun hg => ⟨hf.bases.2.symm.trans hg, hf.bases.1⟩, fun w => by rw [hf.bases.1], fun k => ?_⟩
  cases hl : (p.flushCurrentBucketLocked e next).mCurrentSlicedBucket.lookup k with
  | none => rw [UMap.getD_of_lookup_none hl]; exact Nat.zero_le _
  | some l =>
    obtain ⟨l', hl', rfl⟩ := hf.slice hl
    rw [UMap.getD_of_lookup_some hl, UMap.getD_of_lookup_some hl', List.length_map]

theorem settles_flushIfNeeded (p : ValueMetricProducer V) (e : Int) : Settles p (p.flushIfNeededLocked e) := by
  unfold flushIfNeededLocked
  split
  · exact .refl p
  · exact p.settles_flush e _

omit [MetricValue V] in
theorem not_inPeriod : p.inPeriod = false ↔ p.mCondition ≠ .kTrue ∨ p.mIsActive = false := by
  unfold inPeriod
  cases p.mIsActive with
  | true => simp
  | false => simp

/-- The condition and the activity of the metric stay. -/
structure Steady (p p' : ValueMetricProducer V) : Prop where
  condition : p'.mCondition = p.mCondition
  active : p'.mIsActive = p.mIsActive

omit [MetricValue V] in
theorem Steady.trans {p p' p'' : ValueMetricProducer V} (h : Steady p p') (h' : Steady p' p'') : Steady p p'' :=
  ⟨h'.condition.trans h.condition, h'.active.trans h.active⟩

omit [MetricValue V] in
theorem OffClock.steady {p p' : ValueMetricProducer V} (h : OffClock p p') : Steady p p' := ⟨h.condition, h.active⟩

theorem KeepsState.steady {t : Int} {p p' : ValueMetricProducer V} (h : KeepsState t p p') : Steady p p' := ⟨h.state.1, h.state.2⟩

end ValueMetricProducer

namespace Pulled

/-- The producer after the events of the pull, with the bases of missing keys dropped. -/
def settled (x : Pulled V) : ValueMetricProducer V :=
  { (x.after x.pull.allData.length).resetMissing with mMatchedMetricDimensionKeys := ∅, mHasGlobalBase := true }

variable {x : Pulled V}

theorem result_inTime (h : x.inTime = true) :
    x.result = if (x.after x.pull.allData.length).hasReachedGuardRailLimit then
        { x.settled.invalidateCurrentBucket x.counted .DIMENSION_GUARDRAIL_REACHED with mCurrentSlicedBucket := ∅ }
      else x.settled := by
  simp only [inTime, Bool.and_eq_true, decide_eq_true_eq] at h
  have hreached : x.settled.hasReachedGuardRailLimit = (x.after x.pull.allData.length).hasReachedGuardRailLimit := by
    have honly := (resetMissing_only (x.after x.pull.allData.length)).1
    exact congrArg (·.hasReachedGuardRailLimit) honly
  rw [← hreached]
  unfold result accumulateEvents settled after
  rw [if_neg (not_lt.2 h.1), if_neg (not_lt.2 h.2), List.take_length]

theorem result_untimely (h : x.inTime = false) : ∃ r, x.result = x.found.invalidateCurrentBucket x.counted r := by
  unfold result accumulateEvents
  split
  · exact ⟨_, rfl⟩
  · split
    · exact ⟨_, rfl⟩
    · rename_i h1 h2
      simp [inTime, not_lt.1 h1, not_lt.1 h2] at h

theorem gained (h : Sized x.found) (hd : x.found.mIsPulled = true ∧ x.found.mUseDiff = true) (n : Nat) :
    ValueMetricProducer.Gained { x.found with mMatchedMetricDimensionKeys := ∅ } (x.after n) x.counted (x.pull.allData.take n) :=
  gained_events (p := { x.found with mMatchedMetricDimensionKeys := ∅ }) ⟨h.base, h.sliced⟩ hd x.counted _

theorem sized_result (h : Sized x.found) (hd : x.found.mIsPulled = true ∧ x.found.mUseDiff = true) : Sized x.result := by
  cases htime : x.inTime with
  | false =>
    obtain ⟨r, hr⟩ := result_untimely htime
    rw [hr]
    exact (Settles.invalidate _ _ _).sized h
  | true =>
    obtain ⟨honly, hbase⟩ := resetMissing_only (x.after x.pull.allData.length)
    have hgained := gained h hd x.pull.allData.length
    have hsized : Sized x.settled := by
      have hcount : (x.after x.pull.allData.length).resetMissing.fieldCount = (x.after x.pull.allData.length).fieldCount :=
        congrArg (·.fieldCount) honly
      have hsliced : (x.after x.pull.allData.length).resetMissing.mCurrentSlicedBucket =
          (x.after x.pull.allData.length).mCurrentSlicedBucket := congrArg (·.mCurrentSlicedBucket) honly
      refine ⟨fun w => ?_, fun k => ?_⟩
      · show (UMap.getD (x.after x.pull.allData.length).resetMissing.mCurrentBaseInfo w []).length ≤ _
        rw [show x.settled.fieldCount = _ from hcount]
        rcases hbase w with heq | ⟨heq, -⟩
        · rw [heq]; exact hgained.sized.base w
        · rw [heq, List.length_map]; exact hgained.sized.base w
      · show (UMap.getD (x.after x.pull.allData.length).resetMissing.mCurrentSlicedBucket k []).length ≤ _
        rw [show x.settled.fieldCount = _ from hcount, hsliced]
        exact hgained.sized.sliced k
    rw [result_inTime htime]
    split
    · have hinv := (Settles.invalidate x.settled x.counted .DIMENSION_GUARDRAIL_REACHED).sized hsized
      exact ⟨hinv.base, fun k => by simp⟩
    · exact hsized

theorem result_global (h : x.result.mHasGlobalBase = true) :
    x.inTime = true ∧ (x.after x.pull.allData.length).hasReachedGuardRailLimit = false ∧ x.result = x.settled := by
  cases htime : x.inTime with
  | false =>
    obtain ⟨r, hr⟩ := result_untimely htime
    rw [hr] at h
    cases h
  | true =>
    rw [result_inTime htime] at h ⊢
    cases hreached : (x.after x.pull.allData.length).hasReachedGuardRailLimit with
    | true =>
      rw [hreached, if_pos rfl] at h
      cases h
    | false => exact ⟨rfl, rfl, rfl⟩

theorem covered_result {log : List (List HashableDimensionKey)} (h : Covered x.found log)
    (hd : x.found.mIsPulled = true ∧ x.found.mUseDiff = true) (hok : x.inTime = true → x.complete = true ∨ x.KeepsBases) :
    Covered x.result (log ++ if x.full then [x.keys] else []) := by
  refine ⟨sized_result h.sized hd, fun hg w i hi hn => ?_⟩
  obtain ⟨htime, hreached, hresult⟩ := result_global hg
  obtain ⟨honly, hreset⟩ := resetMissing_only (x.after x.pull.allData.length)
  have hgained := gained h.sized hd x.pull.allData.length
  rw [List.take_length] at hgained
  have hcount : x.result.fieldCount = x.found.fieldCount := by
    rw [hresult]
    exact (congrArg (·.fieldCount) honly).trans (hgained.only.congr (·.fieldCount) fun _ _ _ _ _ => rfl)
  rw [hcount] at hi
  -- the base was not there after the events, or it is dropped with those of the missing keys
  have hmissing : (x.after x.pull.allData.length).baseAt w i = none ∨ w ∉ (x.after x.pull.allData.length).mMatchedMetricDimensionKeys ∧
      w.contains x.found.mStateChangePrimaryKey.2 = true ∧ ∃ k ∈ (x.after x.pull.allData.length).mCurrentSlicedBucket,
        k.mDimensionKeyInWhat = w := by
    have hprimary : (x.after x.pull.allData.length).mStateChangePrimaryKey = x.found.mStateChangePrimaryKey :=
      hgained.only.congr (·.mStateChangePrimaryKey) fun _ _ _ _ _ => rfl
    rw [hresult] at hn
    rcases hreset w with heq | ⟨-, hw⟩
    · refine .inl ?_
      unfold baseAt
      rw [← heq]
      exact hn
    · rw [hprimary] at hw
      exact .inr hw
  rcases hok htime with hcomplete | ⟨hglobal, hkeeps⟩
  · by_cases hw : w ∈ x.keys
    · obtain ⟨ev, hev, rfl⟩ := List.mem_map.1 hw
      have hdata := List.all_eq_true.1 (Bool.and_eq_true_iff.1 hcomplete).2
      have hbase := base_events (p := { x.found with mMatchedMetricDimensionKeys := ∅ }) (e := x.counted) ⟨h.sized.base, h.sized.sliced⟩ hd
        x.pull.allData fun ev hev => by
          have hev := hdata ev hev
          simp only [Bool.and_eq_true, decide_eq_true_eq] at hev
          exact ⟨hev.1.1, hev.1.2, hev.2⟩
      have hafter : x.after x.pull.allData.length = x.pull.allData.foldl
          (fun p data => p.onMatchedLogEventLocked { data with elapsedTimestampNs := x.counted })
          { x.found with mMatchedMetricDimensionKeys := ∅ } := by
        unfold after
        rw [List.take_length]
      rw [← hafter] at hbase
      rcases hbase with hbase | hbase
      · exact absurd (hreached.symm.trans hbase) Bool.false_ne_true
      · rcases hmissing with hnone | ⟨hunmatched, -⟩
        · exact absurd hnone (hbase ev hev i hi)
        · have hc := hdata ev hev
          simp only [Bool.and_eq_true] at hc
          exact absurd (hgained.matched ev hev hc.1.1) hunmatched
    · have hfull : x.full = true := by
        unfold full
        rw [htime, hcomplete, hreached]
        rfl
      exact ⟨x.keys, List.mem_append_right _ (by rw [if_pos hfull]; exact List.mem_singleton_self _), hw⟩
  · rcases hmissing with hnone | ⟨hunmatched, hcontains, k, hk, rfl⟩
    · obtain ⟨keys, hkeys, hw⟩ := h.base hglobal w i hi (hgained.base w i hnone)
      exact ⟨keys, List.mem_append_left _ hkeys, hw⟩
    · rcases hgained.keys k hk with hk | hk
      · obtain ⟨ev, hev, hc, hw⟩ := hkeeps k hk hcontains
        rw [← hw] at hunmatched
        exact absurd (hgained.matched ev hev hc) hunmatched
      · exact absurd hk hunmatched

theorem uses_covered {log : List (List HashableDimensionKey)} (h : Covered x.found log)
    (hd : x.found.mIsPulled = true ∧ x.found.mUseDiff = true) {n : Nat} {ev : ValueEvent V} {i : Nat}
    (huses : (x.after n).UsesZero x.counted ev i) : ∃ keys ∈ log, ev.eventKey.mDimensionKeyInWhat ∉ keys := by
  obtain ⟨-, -, hi, -, hnone, v, -, hzero⟩ := huses
  have hgained := gained h.sized hd n
  have hcount : (x.after n).fieldCount = x.found.fieldCount := hgained.only.congr (·.fieldCount) fun _ _ _ _ _ => rfl
  have hglobal : (x.after n).mHasGlobalBase = x.found.mHasGlobalBase := hgained.only.congr (·.mHasGlobalBase) fun _ _ _ _ _ => rfl
  refine h.base ?_ _ i (hcount ▸ hi) (hgained.base _ i hnone)
  unfold diffBase at hzero
  cases hg : (x.after n).mHasGlobalBase with
  | true => exact hglobal.symm.trans hg
  | false =>
    rw [hg] at hzero
    cases hzero

end Pulled

namespace ValueMetricProducer

/-! ## Calls -/

/-- The pull whose events are processed by a call at time `t`, when there is one: pulls that fail have no
events. Events that reach a pulled metric in another way are not among these calls. -/
def Call.pulled (p : ValueMetricProducer V) (t : Int) : Call V → Option (Pulled V)
  | .conditionChanged condition pull =>
    if p.mIsActive && decide (p.mCurrentBucketStartTimeNs ≤ t) && (condition || decide (p.mCondition = .kTrue)) && pull.success then
      some ⟨if p.mCondition = .kUnknown then p.invalidateCurrentBucket t .CONDITION_UNKNOWN else p, pull, t, t⟩
    else none
  | .activeStateChanged isActive pull =>
    if (isActive != p.mIsActive) && decide (p.mCurrentBucketStartTimeNs ≤ t) && decide (p.mCondition = .kTrue) && pull.success then
      some ⟨if isActive then { p with mIsActive := true } else { p with mIsActive := false }.flushLocked t, pull, t, t⟩
    else none
  | .appUpgrade pull =>
    if p.mSplitBucketForAppUpgrade && decide (p.mCondition = .kTrue) && pull.success then some ⟨p, pull, t, t⟩ else none
  | .statsdInitCompleted pull => if decide (p.mCondition = .kTrue) && pull.success then some ⟨p, pull, t, t⟩ else none
  | .dataPulled pull =>
    if decide (p.mCondition = .kTrue) && pull.success then
      some ⟨p, pull, t, if t < p.getCurrentBucketEndTimeNs then t else p.calcPreviousBucketEndTime t - 1⟩
    else none
  | .stateChanged atomId primaryKey oldState newState pull =>
    if decide (oldState ≠ newState) && p.inPeriod && decide (p.mCurrentBucketStartTimeNs ≤ t) && pull.success then
      some ⟨{ p with mStateChangePrimaryKey := (atomId, primaryKey) }, pull, t, t⟩
    else none
  | .prepareFirstBucket pull =>
    if p.inPeriod && pull.success then some ⟨p, pull, p.mCurrentBucketStartTimeNs, p.mCurrentBucketStartTimeNs⟩ else none
  | .dumpReport include_current_partial_bucket _ dumpLatency pull =>
    if include_current_partial_bucket && decide (p.mCondition = .kTrue) && decide (dumpLatency = .NO_TIME_CONSTRAINTS) && pull.success then
      some ⟨p, pull, t, t⟩
    else none
  | _ => none

/-- The call is not an event from the log. -/
def Call.unlogged : Call V → Bool
  | .matchedLogEvent _ => false
  | _ => true

/-- The call ends a period: the condition becomes false or the metric inactive. -/
def Call.ends : Call V → Bool
  | .conditionChanged false _ => true
  | .activeStateChanged false _ => true
  | _ => false

/-- A call is its pull, with bases and values only dropped before and after. -/
def Takes (p p' : ValueMetricProducer V) : Option (Pulled V) → Prop
  | none => Settles p p'
  | some x => Settles p x.found ∧ Settles x.result p'

theorem takes_pull {p q p' : ValueMetricProducer V} {pull : Pull V} (h : Settles p q) (t : Int)
    (h' : Settles (q.pullAndMatchEventsLocked pull t) p') : Takes p p' (if pull.success then some ⟨q, pull, t, t⟩ else none) := by
  unfold pullAndMatchEventsLocked at h'
  cases hs : pull.success with
  | false =>
    rw [hs] at h'
    exact (h.trans (.invalidate q t .PULL_FAILED)).trans h'
  | true =>
    rw [hs] at h'
    exact ⟨h, h'⟩

theorem settles_drop (p : ValueMetricProducer V) (drop : Bool) : Settles p (if drop then p.resetBase else p) := by
  cases drop with
  | true => exact .resetBase p
  | false => exact .refl p

/-- The end of a condition change. -/
def endCondition (p : ValueMetricProducer V) (c : ConditionState) (condition : Bool) (t : Int) : ValueMetricProducer V :=
  let q := { p with mCondition := c }.flushIfNeededLocked t
  { q with mConditionTimer := q.mConditionTimer.onConditionChanged condition t }

theorem settles_endCondition (p : ValueMetricProducer V) (c : ConditionState) (condition : Bool) (t : Int) :
    Settles p (p.endCondition c condition t) :=
  ((.congr rfl rfl rfl rfl : Settles p { p with mCondition := c }).trans (settles_flushIfNeeded _ t)).trans (.congr rfl rfl rfl rfl)

theorem endCondition_state (p : ValueMetricProducer V) (c : ConditionState) (condition : Bool) (t : Int) :
    (p.endCondition c condition t).mCondition = c ∧ (p.endCondition c condition t).mIsActive = p.mIsActive := by
  exact (KeepsState.flush { p with mCondition := c } (t := t)).state

variable {p : ValueMetricProducer V}

theorem takes_conditionChanged (hd : p.mIsPulled = true ∧ p.mUseDiff = true) (t : Int) (condition : Bool)
    (pull : Pull V) : Takes p (p.onConditionChangedLocked condition t pull) (Call.pulled p t (.conditionChanged condition pull)) := by
  unfold onConditionChangedLocked
  dsimp only [Call.pulled]
  cases hactive : p.mIsActive with
  | false => exact .congr rfl rfl rfl rfl
  | true =>
    simp only [Bool.not_true, Bool.false_eq_true, if_false, Bool.true_and]
    by_cases hlate : p.mCurrentBucketStartTimeNs ≤ t
    · rw [decide_eq_true hlate, decide_eq_false (not_lt.2 hlate), if_neg Bool.false_ne_true, Bool.true_and]
      have hq : ∃ q, (if p.mCondition = .kUnknown then p.invalidateCurrentBucket t .CONDITION_UNKNOWN else p) = q ∧ Settles p q ∧
          q.mCondition = p.mCondition := by
        split
        · exact ⟨_, rfl, .invalidate p t _, rfl⟩
        · exact ⟨_, rfl, .refl p, rfl⟩
      obtain ⟨q, hq, hsettles, hcond⟩ := hq
      have hnew : decide (ConditionState.ofBool condition = .kTrue) = condition := by
        cases condition <;> rfl
      rw [hq, show q.mIsPulled = true by rw [hsettles.metric]; exact hd.1, Bool.true_and, hnew, hcond]
      cases condition || decide (p.mCondition = .kTrue) with
      | false => exact hsettles.trans ((settles_drop q _).trans (settles_endCondition _ _ _ t))
      | true =>
        exact takes_pull hsettles t ((settles_drop (q.pullAndMatchEventsLocked pull t) _).trans (settles_endCondition _ _ _ t))
    · rw [decide_eq_false hlate, decide_eq_true (not_le.1 hlate)]
      exact (Settles.invalidate p t .EVENT_IN_WRONG_BUCKET).trans (.congr rfl rfl rfl rfl)

/-- The end of a change of activity while the condition is true. -/
def endActive (p : ValueMetricProducer V) (t : Int) : ValueMetricProducer V :=
  let q := p.flushIfNeededLocked t
  { q with mConditionTimer := q.mConditionTimer.onConditionChanged q.mIsActive t }

theorem settles_endActive (p : ValueMetricProducer V) (t : Int) : Settles p (p.endActive t) :=
  (settles_flushIfNeeded p t).trans (.congr rfl rfl rfl rfl)

theorem steady_endActive (p : ValueMetricProducer V) (t : Int) : Steady p (p.endActive t) :=
  ⟨(KeepsState.flush p (t := t)).state.1, (KeepsState.flush p (t := t)).state.2⟩

theorem takes_setActive (hd : p.mIsPulled = true ∧ p.mUseDiff = true) (t : Int) (isActive : Bool)
    (pull : Pull V) : Takes p (p.setActive isActive t pull) (Call.pulled p t (.activeStateChanged isActive pull)) := by
  unfold setActive
  dsimp only [Call.pulled]
  by_cases hsame : isActive = p.mIsActive
  · rw [if_pos hsame, show (isActive != p.mIsActive) = false by simp [hsame]]
    exact .refl p
  rw [if_neg hsame, show (isActive != p.mIsActive) = true by simp [hsame], Bool.true_and]
  unfold onActiveStateChangedLocked
  dsimp only
  -- the bucket is flushed first when the metric becomes inactive
  have hflush : ∀ r : ValueMetricProducer V, ∃ q, (if !isActive then r.flushLocked t else r) = q ∧ Settles r q ∧
      q.mCondition = r.mCondition := by
    intro r
    cases isActive with
    | true => exact ⟨r, rfl, .refl r, rfl⟩
    | false => exact ⟨_, rfl, (settles_flushIfNeeded r t).trans (settles_flush _ t t), (KeepsState.flushLocked r t).state.1⟩
  have hset : Settles p { p with mIsActive := isActive } := .congr rfl rfl rfl rfl
  by_cases hlate : p.mCurrentBucketStartTimeNs ≤ t
  · rw [decide_eq_true hlate, decide_eq_false (not_lt.2 hlate), if_neg Bool.false_ne_true, Bool.true_and]
    obtain ⟨q, hq, hsettles, hcond⟩ := hflush { p with mIsActive := isActive }
    have hfound : (if isActive then { p with mIsActive := true } else { p with mIsActive := false }.flushLocked t) = q := by
      rw [← hq]
      cases isActive <;> rfl
    rw [hq, hcond, hfound]
    by_cases hc : p.mCondition = .kTrue
    · rw [if_neg (not_not.2 hc), decide_eq_true hc, Bool.true_and, if_neg Bool.false_ne_true,
        if_pos (show q.mIsPulled = true by rw [hsettles.metric]; exact hd.1)]
      exact takes_pull (hset.trans hsettles) t ((settles_drop (q.pullAndMatchEventsLocked pull t) _).trans (settles_endActive _ t))
    · rw [if_pos hc, decide_eq_false hc]
      exact hset.trans hsettles
  · rw [decide_eq_false hlate, decide_eq_true (not_le.1 hlate), if_pos rfl]
    have hinvalid : Settles p ({ p with mIsActive := isActive }.invalidateCurrentBucket t .EVENT_IN_WRONG_BUCKET) :=
      hset.trans (.invalidate _ t _)
    have hactive : ({ p with mIsActive := isActive }.invalidateCurrentBucket t .EVENT_IN_WRONG_BUCKET : ValueMetricProducer V).mIsActive =
      isActive := rfl
    generalize ({ p with mIsActive := isActive }.invalidateCurrentBucket t .EVENT_IN_WRONG_BUCKET : ValueMetricProducer V) = p1
      at hinvalid hactive
    obtain ⟨q, hq, hsettles, -⟩ := hflush p1
    have hinv : Settles p q := hinvalid.trans hsettles
    rw [hactive, hq]
    split
    · exact hinv
    · exact hinv.trans (settles_endActive q t)

variable {p p' : ValueMetricProducer V}

theorem takes_pullIfTrue (hpulled : p.mIsPulled = true) (t : Int) (pull : Pull V)
    (h : Settles (p.pullIfTrue t pull) p') :
    Takes p p' (if decide (p.mCondition = .kTrue) && pull.success then some ⟨p, pull, t, t⟩ else none) := by
  unfold pullIfTrue at h
  rw [hpulled, Bool.true_and] at h
  cases hc : decide (p.mCondition = .kTrue) with
  | false =>
    rw [hc] at h
    exact h
  | true =>
    rw [hc] at h
    exact takes_pull (.refl p) t h

theorem takes_call (hd : p.mIsPulled = true ∧ p.mUseDiff = true) (t : Int) {c : Call V}
    (hc : c.unlogged = true) : Takes p (p.call t c) (Call.pulled p t c) := by
  cases c with
  | matchedLogEvent event => cases hc
  | conditionChanged condition pull => exact takes_conditionChanged hd t condition pull
  | activeStateChanged isActive pull => exact takes_setActive hd t isActive pull
  | appUpgrade pull =>
    show Takes p (p.notifyAppUpgrade t pull) _
    unfold notifyAppUpgrade
    dsimp only [Call.pulled]
    cases p.mSplitBucketForAppUpgrade with
    | false => exact .refl p
    | true => exact takes_pullIfTrue hd.1 t pull (settles_flush _ t t)
  | statsdInitCompleted pull => exact takes_pullIfTrue hd.1 t pull (settles_flush _ t t)
  | dataPulled pull =>
    show Takes p (if p.mIsPulled then p.onDataPulled pull t else p) _
    rw [if_pos hd.1]
    unfold onDataPulled
    dsimp only [Call.pulled]
    by_cases htrue : p.mCondition = .kTrue
    · rw [if_pos htrue, decide_eq_true htrue, Bool.true_and]
      cases pull.success with
      | false => exact (Settles.invalidate p t .PULL_FAILED).trans (settles_flushIfNeeded _ t)
      | true =>
        rw [if_neg (by simp), if_pos rfl]
        refine ⟨.refl p, ?_⟩
        unfold Pulled.result
        split
        · exact settles_flushIfNeeded _ t
        · exact settles_flushIfNeeded _ t
    · rw [if_neg htrue, decide_eq_false htrue]
      exact settles_flushIfNeeded p t
  | stateChanged atomId primaryKey oldState newState pull =>
    show Takes p (p.onStateChanged t atomId primaryKey oldState newState pull) _
    unfold onStateChanged
    dsimp only [Call.pulled]
    by_cases hsame : oldState = newState
    · rw [if_pos hsame, decide_eq_false (not_not.2 hsame)]
      exact .refl p
    rw [if_neg hsame, decide_eq_true hsame, Bool.true_and]
    cases hperiod : p.inPeriod with
    | false =>
      rw [if_pos (not_inPeriod.1 hperiod)]
      exact .refl p
    | true =>
      rw [if_neg fun h => absurd ((not_inPeriod.2 h).symm.trans hperiod) Bool.false_ne_true, Bool.true_and]
      by_cases hlate : p.mCurrentBucketStartTimeNs ≤ t
      · rw [if_neg (not_lt.2 hlate), decide_eq_true hlate, Bool.true_and, if_pos hd.1]
        have hset : Settles p { p with mStateChangePrimaryKey := (atomId, primaryKey) } := .congr rfl rfl rfl rfl
        refine takes_pull hset t (.trans ?_ (settles_flushIfNeeded _ t))
        exact .congr rfl rfl rfl rfl
      · rw [if_pos (not_le.1 hlate), decide_eq_false hlate]
        exact .invalidate p t _
  | prepareFirstBucket pull =>
    show Takes p (p.prepareFirstBucketLocked pull) _
    have hprepare : p.prepareFirstBucketLocked pull =
        if p.inPeriod then p.pullAndMatchEventsLocked pull p.mCurrentBucketStartTimeNs else p := by
      unfold prepareFirstBucketLocked inPeriod
      rw [hd.1, hd.2, Bool.and_true, Bool.and_true]
    rw [hprepare]
    dsimp only [Call.pulled]
    cases p.inPeriod with
    | false => exact .refl p
    | true => exact takes_pull (.refl p) _ (.refl _)
  | dumpReport partialBucket erase latency pull =>
    show Takes p (p.prepareDump t partialBucket latency pull) _
    unfold prepareDump
    dsimp only [Call.pulled]
    rw [hd.1, Bool.true_and]
    cases partialBucket with
    | false => exact .refl p
    | true =>
      simp only [Bool.not_true, Bool.false_eq_true, if_false, Bool.true_and]
      cases decide (p.mCondition = .kTrue) with
      | false => exact settles_flush p t t
      | true =>
        cases latency with
        | FAST => exact (Settles.invalidate p t _).trans (settles_flush _ t t)
        | NO_TIME_CONSTRAINTS => exact takes_pull (.refl p) t (settles_flush _ t t)
  | dropData => exact settles_flushIfNeeded p t

/-- The pulls of a call are complete or keep the bases, if they are in time and do not end a period. -/
def Call.Accountable (p : ValueMetricProducer V) (t : Int) (c : Call V) : Prop :=
  c.ends = false → ∀ x ∈ Call.pulled p t c, x.inTime = true → x.complete = true ∨ x.KeepsBases

omit [MetricValue V] in
theorem Settles.noGlobal (h : Settles p p') (hp : p.mHasGlobalBase = false) : p'.mHasGlobalBase = false := by
  cases hg : p'.mHasGlobalBase with
  | false => rfl
  | true => exact absurd (hp.symm.trans (h.global hg).1) Bool.false_ne_true

theorem idle_steady {x : Option (Pulled V)} (hsteady : Steady p p') (htakes : Takes p p' x)
    (hfound : ∀ y ∈ x, y.found.mIsActive = p.mIsActive ∧ p.mCondition = .kTrue)
    (hok : ∀ y ∈ x, y.inTime = true → y.complete = true ∨ y.KeepsBases) (hidle : p.inPeriod = false → p.mHasGlobalBase = false)
    (hout : p'.inPeriod = false) : p'.mHasGlobalBase = false := by
  have hp : p.inPeriod = false := by
    unfold inPeriod at hout ⊢
    rw [← hsteady.active, ← hsteady.condition]
    exact hout
  cases x with
  | none => exact htakes.noGlobal (hidle hp)
  | some y =>
    obtain ⟨hbefore, hafter⟩ := htakes
    obtain ⟨hactive, hcond⟩ := hfound y rfl
    refine hafter.noGlobal ?_
    cases hg : y.result.mHasGlobalBase with
    | false => rfl
    | true =>
      rcases hok y rfl (Pulled.result_global hg).1 with hcomplete | hkeeps
      · have hact : p.mIsActive = true := hactive.symm.trans (Bool.and_eq_true_iff.1 hcomplete).1
        rcases not_inPeriod.1 hp with hc | hc
        · exact absurd hcond hc
        · exact absurd (hc.symm.trans hact) Bool.false_ne_true
      · exact absurd ((hbefore.noGlobal (hidle hp)).symm.trans hkeeps.1) Bool.false_ne_true

theorem idle_conditionChanged (hd : p.mIsPulled = true ∧ p.mUseDiff = true) (t : Int)
    (condition : Bool) (pull : Pull V) (hidle : p.inPeriod = false → p.mHasGlobalBase = false) :
    (condition = false → (p.onConditionChangedLocked condition t pull).inPeriod = false) ∧
      ((p.onConditionChangedLocked condition t pull).inPeriod = false →
        (p.onConditionChangedLocked condition t pull).mHasGlobalBase = false) := by
  unfold onConditionChangedLocked
  dsimp only
  cases hactive : p.mIsActive with
  | false =>
    have hp : p.inPeriod = false := not_inPeriod.2 (.inr hactive)
    exact ⟨fun _ => not_inPeriod.2 (.inr rfl), fun _ => hidle hp⟩
  | true =>
    simp only [Bool.not_true, Bool.false_eq_true, if_false]
    by_cases hlate : t < p.mCurrentBucketStartTimeNs
    · rw [decide_eq_true hlate, if_pos rfl]
      exact ⟨fun _ => not_inPeriod.2 (.inl (by simp)), fun _ => rfl⟩
    rw [decide_eq_false hlate, if_neg Bool.false_ne_true]
    have hq : ∃ q, (if p.mCondition = .kUnknown then p.invalidateCurrentBucket t .CONDITION_UNKNOWN else p) = q ∧ Settles p q ∧
        Steady p q := by
      split
      · exact ⟨_, rfl, .invalidate p t _, rfl, rfl⟩
      · exact ⟨_, rfl, .refl p, rfl, rfl⟩
    obtain ⟨q, hq, hsettles, hsteady⟩ := hq
    have hqd : q.mIsPulled = true ∧ q.mUseDiff = true := by rw [hsettles.metric]; exact hd
    rw [hq, hqd.1, Bool.true_and]
    cases condition with
    | true =>
      -- a period begins or goes on
      refine ⟨fun h => absurd h.symm Bool.false_ne_true, fun hout => ?_⟩
      have hr := (q.offClock_pullAndMatchEventsLocked hqd.1 pull t).steady
      rw [show decide (ConditionState.ofBool true = .kTrue) = true from rfl, Bool.true_or, if_pos rfl] at hout
      generalize q.pullAndMatchEventsLocked pull t = r at hr hout
      have hfalse : decide (ConditionState.ofBool true = .kFalse) = false := rfl
      rw [hfalse, Bool.and_false, Bool.and_false, if_neg Bool.false_ne_true] at hout
      have hstate := r.endCondition_state .kTrue true t
      rcases not_inPeriod.1 hout with hc | hc
      · exact absurd hstate.1 hc
      · exact absurd ((hstate.2.trans (hr.active.trans (hsteady.active.trans hactive))).symm.trans hc) (by decide)
    | false =>
      have hstate : ∀ r : ValueMetricProducer V, (r.endCondition .kFalse false t).inPeriod = false := fun r =>
        not_inPeriod.2 (.inl (by rw [(r.endCondition_state .kFalse false t).1]; decide))
      refine ⟨fun _ => hstate _, fun _ => ?_⟩
      rw [show decide (ConditionState.ofBool false = .kTrue) = false from rfl, Bool.false_or]
      by_cases hc : p.mCondition = .kTrue
      · -- the period ends and the bases are dropped
        have hpull := q.offClock_pullAndMatchEventsLocked hqd.1 pull t
        have hr := hpull.steady
        have hmetric := hpull.metric
        rw [hsteady.condition, decide_eq_true hc, if_pos rfl]
        generalize q.pullAndMatchEventsLocked pull t = r at hr hmetric
        have hdrop : (r.mUseDiff && (decide (r.mCondition = .kTrue) && decide (ConditionState.ofBool false = .kFalse))) = true := by
          rw [hmetric, hqd.2, hr.condition, hsteady.condition, decide_eq_true hc]
          rfl
        rw [hdrop, if_pos rfl]
        exact (settles_endCondition r.resetBase .kFalse false t).noGlobal rfl
      · have hno : q.mHasGlobalBase = false := hsettles.noGlobal (hidle (not_inPeriod.2 (.inl hc)))
        rw [hsteady.condition, decide_eq_false hc, if_neg Bool.false_ne_true]
        exact ((settles_drop q _).trans (settles_endCondition _ .kFalse false t)).noGlobal hno

theorem settles_flushLocked (p : ValueMetricProducer V) (t : Int) : Settles p (p.flushLocked t) ∧ Steady p (p.flushLocked t) :=
  ⟨(settles_flushIfNeeded p t).trans (settles_flush _ t t), (KeepsState.flushLocked p t).steady⟩

theorem steady_activeStateChanged (p : ValueMetricProducer V) (t : Int) (pull : Pull V) : Steady p (p.onActiveStateChangedLocked t pull) := by
  unfold onActiveStateChangedLocked
  dsimp only
  generalize decide (t < p.mCurrentBucketStartTimeNs) = late
  have hq : Steady p (if late then p.invalidateCurrentBucket t .EVENT_IN_WRONG_BUCKET else p) := by
    split
    · exact ⟨rfl, rfl⟩
    · exact ⟨rfl, rfl⟩
  generalize (if late = true then p.invalidateCurrentBucket t .EVENT_IN_WRONG_BUCKET else p) = q at hq
  have hr : Steady q (if !q.mIsActive then q.flushLocked t else q) := by
    split
    · exact (KeepsState.flushLocked q t).steady
    · exact ⟨rfl, rfl⟩
  generalize (if (!q.mIsActive) = true then q.flushLocked t else q) = r at hr
  split
  · exact hq.trans hr
  refine (hq.trans hr).trans (.trans ?_ (steady_endActive _ t))
  split
  · exact ⟨rfl, rfl⟩
  have hpull := (r.offClock_pull true pull t).steady
  rw [Bool.and_true] at hpull
  generalize (if r.mIsPulled = true then r.pullAndMatchEventsLocked pull t else r) = r' at hpull
  split
  · exact ⟨hpull.condition, hpull.active⟩
  · exact hpull

theorem deactivated_noGlobal (hd : p.mIsPulled = true ∧ p.mUseDiff = true)
    (hinactive : p.mIsActive = false) (hcond : p.mCondition = .kTrue) (t : Int) (pull : Pull V) :
    (p.onActiveStateChangedLocked t pull).mHasGlobalBase = false := by
  unfold onActiveStateChangedLocked
  dsimp only
  cases hlate : decide (t < p.mCurrentBucketStartTimeNs) with
  | true =>
    -- the late bucket is invalidated
    rw [if_pos rfl]
    have hno : (p.invalidateCurrentBucket t .EVENT_IN_WRONG_BUCKET).mHasGlobalBase = false := rfl
    generalize p.invalidateCurrentBucket t .EVENT_IN_WRONG_BUCKET = q at hno
    have hflush : ∃ r, (if !q.mIsActive then q.flushLocked t else q) = r ∧ r.mHasGlobalBase = false := by
      split
      · exact ⟨_, rfl, (settles_flushLocked q t).1.noGlobal hno⟩
      · exact ⟨_, rfl, hno⟩
    obtain ⟨r, hr, hno⟩ := hflush
    rw [hr, if_pos rfl]
    split
    · exact hno
    · exact (settles_endActive r t).noGlobal hno
  | false =>
    rw [if_neg Bool.false_ne_true, hinactive, Bool.not_false, if_pos (rfl : true = true)]
    obtain ⟨hsettles, hsteady⟩ := settles_flushLocked p t
    generalize p.flushLocked t = q at hsettles hsteady
    have hqd : q.mIsPulled = true ∧ q.mUseDiff = true := by rw [hsettles.metric]; exact hd
    rw [if_neg (not_not.2 (hsteady.condition.trans hcond)), if_neg Bool.false_ne_true, if_pos hqd.1]
    have hq := q.offClock_pullAndMatchEventsLocked hqd.1 pull t
    have hpull := hq.steady
    have hmetric := hq.metric
    generalize q.pullAndMatchEventsLocked pull t = r at hpull hmetric
    have hdrop : (r.mUseDiff && !r.mIsActive) = true := by
      rw [hmetric, hqd.2, hpull.active, hsteady.active, hinactive]
      rfl
    rw [hdrop, if_pos rfl]
    exact (settles_endActive r.resetBase t).noGlobal rfl

theorem idle_setActive (hd : p.mIsPulled = true ∧ p.mUseDiff = true) (t : Int)
    (isActive : Bool) (pull : Pull V) (hidle : p.inPeriod = false → p.mHasGlobalBase = false) :
    (isActive = false → (p.setActive isActive t pull).inPeriod = false) ∧
      ((p.setActive isActive t pull).inPeriod = false → (p.setActive isActive t pull).mHasGlobalBase = false) := by
  have htakes := takes_setActive hd t isActive pull
  unfold setActive at htakes ⊢
  by_cases hsame : isActive = p.mIsActive
  · rw [if_pos hsame]
    exact ⟨fun hno => not_inPeriod.2 (.inr (hsame.symm.trans hno)), hidle⟩
  rw [if_neg hsame] at htakes ⊢
  have hsteady := steady_activeStateChanged { p with mIsActive := isActive } t pull
  refine ⟨fun hno => not_inPeriod.2 (.inr (hsteady.active.trans hno)), fun hout => ?_⟩
  by_cases hc : p.mCondition = .kTrue
  · cases isActive with
    | true =>
      rcases not_inPeriod.1 hout with hc' | hc'
      · exact absurd (hsteady.condition.trans hc) hc'
      · exact absurd (hsteady.active.symm.trans hc').symm Bool.false_ne_true
    | false => exact deactivated_noGlobal (p := { p with mIsActive := false }) hd rfl hc t pull
  · have hnone : Call.pulled p t (.activeStateChanged isActive pull) = none := by
      simp [Call.pulled, hc]
    rw [hnone] at htakes
    exact htakes.noGlobal (hidle (not_inPeriod.2 (.inl hc)))

theorem takes_metric (hd : p.mIsPulled = true ∧ p.mUseDiff = true) {x : Option (Pulled V)}
    (h : Takes p p' x) : p'.toValueMetric = p.toValueMetric := by
  cases x with
  | none => exact h.metric
  | some y =>
    have hpulled : y.found.mIsPulled = true := by rw [h.1.metric]; exact hd.1
    exact h.2.metric.trans ((y.found.offClock_accumulateEvents hpulled y.pull y.asked y.counted).metric.trans h.1.metric)

theorem takes_sized (hp : Sized p) (hd : p.mIsPulled = true ∧ p.mUseDiff = true) {x : Option (Pulled V)}
    (h : Takes p p' x) : Sized p' := by
  cases x with
  | none => exact h.sized hp
  | some y =>
    have hyd : y.found.mIsPulled = true ∧ y.found.mUseDiff = true := by rw [h.1.metric]; exact hd
    exact h.2.sized (Pulled.sized_result (h.1.sized hp) hyd)

theorem pulled_found {t : Int} {c : Call V} (hswitches : c.switches = false) {y : Pulled V}
    (hy : y ∈ Call.pulled p t c) : y.found.mIsActive = p.mIsActive ∧ p.mCondition = .kTrue := by
  have hite : ∀ {b : Bool} {z : Pulled V}, y ∈ (if b then some z else none) → b = true ∧ z = y := by
    intro b z h
    cases b with
    | false => cases h
    | true => exact ⟨rfl, Option.some.inj h⟩
  cases c with
  | conditionChanged condition pull => cases hswitches
  | activeStateChanged isActive pull => cases hswitches
  | matchedLogEvent event => cases hy
  | dropData => cases hy
  | appUpgrade pull | statsdInitCompleted pull | dataPulled pull | stateChanged _ _ _ _ pull | prepareFirstBucket pull
  | dumpReport _ _ _ pull =>
    obtain ⟨hb, rfl⟩ := hite hy
    simp only [Bool.and_eq_true, decide_eq_true_eq, inPeriod] at hb
    exact ⟨rfl, by tauto⟩

theorem idle_call (hd : p.mIsPulled = true ∧ p.mUseDiff = true) (t : Int) {c : Call V}
    (hc : c.unlogged = true) (hok : Call.Accountable p t c) (hidle : p.inPeriod = false → p.mHasGlobalBase = false) :
    (c.ends = true → (p.call t c).inPeriod = false) ∧ ((p.call t c).inPeriod = false → (p.call t c).mHasGlobalBase = false) := by
  have hrest : c.switches = false →
      (c.ends = true → (p.call t c).inPeriod = false) ∧ ((p.call t c).inPeriod = false → (p.call t c).mHasGlobalBase = false) := by
    intro hswitches
    have hends : c.ends = false := by
      cases c with
      | conditionChanged condition pull => cases hswitches
      | activeStateChanged isActive pull => cases hswitches
      | _ => rfl
    exact ⟨fun hends' => absurd (hends.symm.trans hends') Bool.false_ne_true,
      idle_steady (p.keepsState_call t hswitches).steady (takes_call hd t hc) (fun y hy => pulled_found hswitches hy) (hok hends) hidle⟩
  cases c with
  | conditionChanged condition pull =>
    obtain ⟨h1, h2⟩ := idle_conditionChanged hd t condition pull hidle
    refine ⟨fun hends => h1 ?_, h2⟩
    cases condition with
    | true => cases hends
    | false => rfl
  | activeStateChanged isActive pull =>
    obtain ⟨h1, h2⟩ := idle_setActive hd t isActive pull hidle
    refine ⟨fun hends => h1 ?_, h2⟩
    cases isActive with
    | true => cases hends
    | false => rfl
  | _ => exact hrest rfl

/-! ## Histories -/

/-- A history with the keys of the pulls of the current period that were processed in full. -/
structure Logged (V : Type) where
  history : History V
  pulls : List (List HashableDimensionKey)

namespace Logged

def new (metric : ValueMetric) (startTimeNs : Int) (initialCondition : ConditionState) (isActive : Bool) : Logged V :=
  ⟨.new metric startTimeNs initialCondition isActive, []⟩

/-- The pull of a call belongs to the period the call leads to, which goes on when it was there before. -/
def step (x : Logged V) (e : Int × Call V) : Logged V :=
  ⟨x.history.step e,
    if (x.history.step e).producer.inPeriod then
      (if x.history.producer.inPeriod then x.pulls else []) ++
        ((Call.pulled x.history.producer e.1 e.2).toList.filter Pulled.full).map Pulled.keys
    else []⟩

/-- The condition on a call, which is not an event from the log. -/
def Ok (x : Logged V) (e : Int × Call V) : Prop := e.2.unlogged = true ∧ Call.Accountable x.history.producer e.1 e.2

/-- Every diff from zero that the call takes is justified: an earlier pull of the period was processed in
full and had no event for the key. -/
def Justified (x : Logged V) (e : Int × Call V) : Prop :=
  ∀ y ∈ Call.pulled x.history.producer e.1 e.2, y.inTime = true → ∀ (n : Nat) (ev : ValueEvent V), y.pull.allData[n]? = some ev →
    ∀ i, (y.after n).UsesZero y.counted ev i → ∃ keys ∈ x.pulls, ev.eventKey.mDimensionKeyInWhat ∉ keys

/-- The invariant of a history with its log. -/
structure Inv (metric : ValueMetric) (x : Logged V) : Prop where
  metric : x.history.producer.toValueMetric = metric
  covered : Covered x.history.producer x.pulls
  idle : x.history.producer.inPeriod = false → x.history.producer.mHasGlobalBase = false ∧ x.pulls = []

variable {metric : ValueMetric}

omit [MetricValue V] in
theorem Inv.diffed (hm : metric.mIsPulled = true ∧ metric.mUseDiff = true) {x : Logged V} (h : x.Inv metric) :
    x.history.producer.mIsPulled = true ∧ x.history.producer.mUseDiff = true := by
  rw [h.metric]
  exact hm

omit [MetricValue V] in
theorem Inv.pulls {x : Logged V} (h : x.Inv metric) :
    (if x.history.producer.inPeriod then x.pulls else []) = x.pulls := by
  cases hp : x.history.producer.inPeriod with
  | true => rfl
  | false => exact (h.idle hp).2.symm

theorem step_settles (x : History V) (e : Int × Call V) :
    Settles (x.producer.call e.1 e.2) (x.step e).producer ∧ Steady (x.producer.call e.1 e.2) (x.step e).producer := by
  unfold History.step
  dsimp only
  split
  · exact ⟨.congr rfl rfl rfl rfl, rfl, rfl⟩
  · exact ⟨.refl _, rfl, rfl⟩

theorem inv_step (hm : metric.mIsPulled = true ∧ metric.mUseDiff = true) {x : Logged V} {e : Int × Call V}
    (hok : x.Ok e) (h : x.Inv metric) : (x.step e).Inv metric := by
  obtain ⟨hlog, hacc⟩ := hok
  have hd := h.diffed hm
  obtain ⟨hsettles, hsteady⟩ := step_settles x.history e
  obtain ⟨hends, hidle⟩ := idle_call hd e.1 hlog hacc fun hp => (h.idle hp).1
  have hperiod : (x.history.step e).producer.inPeriod = (x.history.producer.call e.1 e.2).inPeriod := by
    unfold inPeriod
    rw [hsteady.active, hsteady.condition]
  have htakes := takes_call hd e.1 hlog
  have hout : (x.history.step e).producer.inPeriod = false → (x.history.step e).producer.mHasGlobalBase = false := fun hp =>
    hsettles.noGlobal (hidle (hperiod.symm.trans hp))
  have hmetric : (x.history.step e).producer.toValueMetric = x.history.producer.toValueMetric :=
    hsettles.metric.trans (takes_metric hd htakes)
  refine ⟨hmetric.trans h.metric, ?_, fun hp => ⟨hout hp, if_neg fun hp' => absurd (hp.symm.trans hp') Bool.false_ne_true⟩⟩
  unfold step
  dsimp only
  rw [h.pulls]
  cases hp : (x.history.step e).producer.inPeriod with
  | false => exact (hsettles.sized (takes_sized h.covered.sized hd htakes)).covered (hout hp) _
  | true =>
    rw [if_pos rfl]
    have hnot : e.2.ends = false := by
      cases hx : e.2.ends with
      | false => rfl
      | true => exact absurd ((hends hx).symm.trans (hperiod.symm.trans hp)) Bool.false_ne_true
    have hpulls := hacc hnot
    refine hsettles.covered ?_
    generalize Call.pulled x.history.producer e.1 e.2 = pulled at htakes hpulls
    cases pulled with
    | none =>
      rw [Option.toList_none, List.filter_nil, List.map_nil, List.append_nil]
      exact htakes.covered h.covered
    | some y =>
      obtain ⟨hbefore, hafter⟩ := htakes
      have hyd : y.found.mIsPulled = true ∧ y.found.mUseDiff = true := by rw [hbefore.metric]; exact hd
      have hcovered := hafter.covered (Pulled.covered_result (hbefore.covered h.covered) hyd (hpulls y rfl))
      have hlogged : (List.filter Pulled.full (some y).toList).map Pulled.keys = if y.full then [y.keys] else [] := by
        rw [Option.toList_some, List.filter_singleton]
        cases y.full with
        | true => rfl
        | false => rfl
      rw [hlogged]
      exact hcovered

theorem Inv.justified (hm : metric.mIsPulled = true ∧ metric.mUseDiff = true) {x : Logged V} (h : x.Inv metric)
    {e : Int × Call V} (hlog : e.2.unlogged = true) : x.Justified e := by
  intro y hy _ n ev _ i huses
  have hd := h.diffed hm
  have htakes := takes_call hd e.1 hlog
  rw [hy] at htakes
  have hyd : y.found.mIsPulled = true ∧ y.found.mUseDiff = true := by rw [htakes.1.metric]; exact hd
  exact Pulled.uses_covered (htakes.1.covered h.covered) hyd huses

theorem inv_new (metric : ValueMetric) (startTimeNs : Int) (initialCondition : ConditionState) (isActive : Bool) :
    (new metric startTimeNs initialCondition isActive : Logged V).Inv metric := by
  let p0 : ValueMetricProducer V := initial metric initialCondition isActive
  let p1 : ValueMetricProducer V := { p0 with mCurrentBucketNum := p0.mCurrentBucketNum + p0.calcBucketsForwardCount startTimeNs }
  have hsized : Sized p1 := ⟨fun w => by simp [p1, p0, initial], fun k => by simp [p1, p0, initial]⟩
  have hsettles : Settles p1 (new metric startTimeNs initialCondition isActive : Logged V).history.producer :=
    (settles_flushIfNeeded p1 startTimeNs).trans (.congr rfl rfl rfl rfl)
  have hno := hsettles.noGlobal rfl
  exact ⟨hsettles.metric, (hsettles.sized hsized).covered hno [], fun _ => ⟨hno, rfl⟩⟩

end Logged

/-- In every history of a pulled and diffed metric in which the pulls that do not end a period are complete,
or come with a global base and drop no base, zero is the base of a key only when an earlier pull of the
period was processed in full and had no event for the key. -/
theorem zero_base_justified (metric : ValueMetric) (hm : metric.mIsPulled = true ∧ metric.mUseDiff = true) (startTimeNs : Int)
    (initialCondition : ConditionState) (isActive : Bool) (es : List (Int × Call V))
    (hok : RunOk Logged.step Logged.Ok (.new metric startTimeNs initialCondition isActive) es) (n : Nat) (e : Int × Call V)
    (he : es[n]? = some e) :
    ((es.take n).foldl Logged.step (.new metric startTimeNs initialCondition isActive)).Justified e := by
  have hinv : ((es.take n).foldl Logged.step (.new metric startTimeNs initialCondition isActive : Logged V)).Inv metric :=
    hok.inv_take (fun x e hok h => Logged.inv_step hm hok h) (Logged.inv_new metric startTimeNs initialCondition isActive) n
  exact hinv.justified hm (hok.at_step he).1

/-- A metric that takes diffs from zero for new keys, for the cases below. -/
def zeroMetric : ValueMetric := { pushedMetric 60 with mIsPulled := true, mUseDiff := true, mUseZeroDefaultBase := true }

/-- The event of the empty key with a value. -/
def valueEvent (t x : Int) : ValueEvent Int := ⟨t, ⟨[], []⟩, true, ∅, [some x]⟩

/-- A key that the first pull does not have is new at the end of the bucket, and is counted from zero. -/
theorem zero_base_justified_new_key :
    let es : List (Int × Call Int) := [(5, .prepareFirstBucket ⟨true, 5, []⟩), (60, .dataPulled ⟨true, 60, [valueEvent 60 10]⟩)]
    let x : Logged Int := (es.take 1).foldl Logged.step (.new zeroMetric 5 .kTrue true)
    (x.pulls = [[]] ∧ ∃ y ∈ Call.pulled x.history.producer 60 (.dataPulled ⟨true, 60, [valueEvent 60 10]⟩),
      (y.after 0).UsesZero y.counted (valueEvent 60 10) 0) ∧
    x.Justified (60, .dataPulled ⟨true, 60, [valueEvent 60 10]⟩) := by
  intro es x
  refine ⟨⟨by decide +kernel, ⟨x.history.producer, ⟨true, 60, [valueEvent 60 10]⟩, 60, 59⟩, by rfl, by decide +kernel, by decide +kernel,
    by decide +kernel, by decide +kernel, by decide +kernel, 10, rfl, by decide +kernel⟩, ?_⟩
  refine zero_base_justified zeroMetric ⟨rfl, rfl⟩ 5 .kTrue true es ⟨⟨rfl, fun _ y hy _ => ?_⟩, ⟨rfl, fun _ y hy _ => ?_⟩, trivial⟩ 1 _ rfl
  · have hy : (⟨(Logged.new zeroMetric 5 .kTrue true : Logged Int).history.producer, ⟨true, 5, []⟩, 5, 5⟩ : Pulled Int) = y :=
      Option.some.inj hy
    subst hy
    exact .inl (by decide +kernel)
  · have hy : (⟨x.history.producer, ⟨true, 60, [valueEvent 60 10]⟩, 60, 59⟩ : Pulled Int) = y := Option.some.inj hy
    subst hy
    exact .inl (by decide +kernel)

/-- A pull at the end of a bucket while the metric is inactive: its event is dropped, but it sets the global
base. The activation takes the diff of the key from zero and counts it as a whole, without a pull before it
in its period. -/
theorem inactive_pull_sets_global_base :
    let es : List (Int × Call Int) :=
      [(60, .dataPulled ⟨true, 60, [valueEvent 60 1000]⟩), (70, .activeStateChanged true ⟨true, 70, [valueEvent 70 1000]⟩)]
    let x : Logged Int := (es.take 1).foldl Logged.step (.new zeroMetric 5 .kTrue false)
    (zeroMetric.mIsPulled = true ∧ zeroMetric.mUseDiff = true ∧ zeroMetric.mUseZeroDefaultBase = true ∧
      (es.foldl Logged.step (.new zeroMetric 5 .kTrue false)).history.producer.pendingAt ⟨[], []⟩ 0 = some 1000) ∧
    ¬ x.Justified (70, .activeStateChanged true ⟨true, 70, [valueEvent 70 1000]⟩) := by
  intro es x
  refine ⟨⟨rfl, rfl, rfl, by decide +kernel⟩, fun h => ?_⟩
  have hpulls : x.pulls = [] := by decide +kernel
  have huses := h ⟨{ x.history.producer with mIsActive := true }, ⟨true, 70, [valueEvent 70 1000]⟩, 70, 70⟩ (by rfl) (by decide +kernel) 0
    (valueEvent 70 1000) rfl 0 ⟨by decide +kernel, by decide +kernel, by decide +kernel, by decide +kernel, by decide +kernel, 1000, rfl,
      by decide +kernel⟩
  rw [hpulls] at huses
  obtain ⟨keys, hkeys, -⟩ := huses
  cases hkeys

end ValueMetricProducer

end Statsd.Metrics
