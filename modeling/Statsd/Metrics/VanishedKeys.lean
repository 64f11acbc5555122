/-
The bases after a pull for a state change. The keys of the pull have the pulled values as bases, and the tracked keys that
are not in it should have none when they are keys of the changed state. The producer looks for the values of the state's
primary key among the values of the key in what, with their fields, where the fields are those of two different atoms: it
is right exactly when this agrees with the linked fields for every tracked key that has a base.
-/
import Statsd.Metrics.MatchedEvent
import Statsd.Metrics.ZeroDefaultBase

namespace Statsd.Metrics

variable {V : Type} [MetricValue V]

namespace ValueMetricProducer

/-! ## Events -/

variable {p : ValueMetricProducer V}

theorem updateIntervals_values_diffed (hdiff : p.mUseDiff = true) (stateKey : HashableDimensionKey)
    (values : List (Option V)) (i : Nat) (bs : List (BaseInfo V)) (ints : List (Interval V)) (hb : bs.length = values.length)
    (hi : ints.length = values.length) (j : Nat) :
    (p.updateIntervals stateKey i values bs ints).1[j]?.bind (·.base) = (fieldValue values j).or (bs[j]?.bind (·.base)) := by
  have hfield := p.updateIntervals_field stateKey values i bs ints j
  have hkept := fieldValue_kept hb hi (j := j)
  generalize bs[j]? = b₀, ints[j]? = int₀, (p.updateIntervals stateKey i values bs ints).1[j]? = b',
    (p.updateIntervals stateKey i values bs ints).2.1[j]? = int' at hfield hkept ⊢
  cases hfield with
  | kept h => simp [hkept h]
  | reached h => simp [h]
  | updated h =>
    rw [h, Option.bind_some, (updateInterval_diffed hdiff _ _ _).1]
    rfl

/-- The base of a field after some events of a pull: that of the last one with a value, or the one before. -/
def basePulled (events : List (ValueEvent V)) (w : HashableDimensionKey) (i : Nat) (base : Option V) : Option V :=
  events.foldl (fun base event =>
    if event.eventKey.mDimensionKeyInWhat = w then (fieldValue event.values i).or base else base) base

omit [MetricValue V] in
theorem basePulled_eq (events : List (ValueEvent V)) (w : HashableDimensionKey) (i : Nat) (base : Option V) :
    basePulled events w i base = (basePulled events w i none).or base := by
  induction events generalizing base with
  | nil => rfl
  | cons event events ih =>
    unfold basePulled at ih ⊢
    rw [List.foldl_cons, List.foldl_cons, ih, ih (if event.eventKey.mDimensionKeyInWhat = w then _ else _)]
    split
    · rw [Option.or_assoc, Option.or_none]
    · rw [Option.or_none]

omit [MetricValue V] in
theorem basePulled_absent {events : List (ValueEvent V)} {w : HashableDimensionKey}
    (h : ∀ event ∈ events, event.eventKey.mDimensionKeyInWhat ≠ w) (i : Nat) (base : Option V) : basePulled events w i base = base := by
  induction events with
  | nil => rfl
  | cons event events ih =>
    unfold basePulled at ih ⊢
    rw [List.foldl_cons, if_neg (h event List.mem_cons_self)]
    exact ih fun e he => h e (List.mem_cons_of_mem _ he)

/-- The bases and the matched keys after some events. -/
structure PulledBases (p q : ValueMetricProducer V) (events : List (ValueEvent V)) : Prop where
  base : ∀ w i, q.baseAt w i = basePulled events w i (p.baseAt w i)
  matched : ∀ w, w ∈ q.mMatchedMetricDimensionKeys ↔
    w ∈ p.mMatchedMetricDimensionKeys ∨ ∃ event ∈ events, event.eventKey.mDimensionKeyInWhat = w

theorem pulledBases_accumulate (h : Sized p) (hdiff : p.mUseDiff = true) (event : ValueEvent V)
    (hlength : event.values.length = p.fieldCount) (w : HashableDimensionKey) (i : Nat) :
    (p.accumulate event).baseAt w i = basePulled [event] w i (p.baseAt w i) := by
  obtain ⟨hbase, -, -⟩ := p.accumulate_data event
  unfold basePulled
  rw [List.foldl_cons, List.foldl_nil]
  unfold baseAt
  rw [hbase, UMap.getD_insert]
  by_cases hw : w = event.eventKey.mDimensionKeyInWhat
  · subst hw
    rw [if_pos rfl, if_pos rfl, updateIntervals_values_diffed hdiff _ _ _ _ _ ((h.length_basesOf _).trans hlength.symm)
      ((h.length_intervalsOf _).trans hlength.symm) i, p.basesOf_get]
    rfl
  · rw [if_neg hw, if_neg (Ne.symm hw)]

theorem pulledBases_events (h : Sized p) (hd : p.mIsPulled = true ∧ p.mUseDiff = true) {e : Int}
    (l : List (ValueEvent V)) (hlength : ∀ ev ∈ l, ev.values.length = p.fieldCount)
    (hroom : (l.foldl (fun p data => p.onMatchedLogEventLocked { data with elapsedTimestampNs := e }) p).hasReachedGuardRailLimit = false) :
    PulledBases p (l.foldl (fun p data => p.onMatchedLogEventLocked { data with elapsedTimestampNs := e }) p)
      (l.filter (p.considers e)) := by
  induction l generalizing p with
  | nil => exact ⟨fun _ _ => rfl, fun w => by simp⟩
  | cons ev l ih =>
    have hev := gained_event h hd e ev
    have heq := onMatchedLogEventLocked_eq hd e ev _ rfl
    rw [List.foldl_cons] at hroom ⊢
    generalize hq : p.onMatchedLogEventLocked { ev with elapsedTimestampNs := e } = q at hev heq hroom
    have hcount : q.fieldCount = p.fieldCount := hev.only.congr (·.fieldCount) fun _ _ _ _ _ => rfl
    have hd' : q.mIsPulled = true ∧ q.mUseDiff = true := by
      rw [hev.only.congr (·.mIsPulled) fun _ _ _ _ _ => rfl, hev.only.congr (·.mUseDiff) fun _ _ _ _ _ => rfl]
      exact hd
    have hrest := ih hev.sized hd' (fun ev' hev' => by rw [hcount]; exact hlength ev' (List.mem_cons_of_mem _ hev')) hroom
    have hconsiders : l.filter (q.considers e) = l.filter (p.considers e) :=
      List.filter_congr fun ev' _ => hev.only.considers e ev'
    rw [hconsiders] at hrest
    cases hc : p.considers e ev with
    | false =>
      rw [hc, if_neg Bool.false_ne_true] at heq
      rw [List.filter_cons_of_neg (by rw [hc]; exact Bool.false_ne_true)]
      subst heq
      exact hrest
    | true =>
      rw [hc, if_pos rfl] at heq
      rw [List.filter_cons_of_pos hc]
      -- the guardrail was not hit, since it is not reached at the end
      have hnohit : hitGuardRailLocked { p with
          mMatchedMetricDimensionKeys := insert ev.eventKey.mDimensionKeyInWhat p.mMatchedMetricDimensionKeys } ev.eventKey = false := by
        by_contra hhit
        rw [Bool.not_eq_false] at hhit
        rw [if_pos hhit] at heq
        have hreached : q.hasReachedGuardRailLimit = true := by rw [heq]; exact hitGuardRailLocked_reached hhit
        rw [(gained_events hev.sized hd' e l).reached hreached] at hroom
        cases hroom
      rw [hnohit, if_neg Bool.false_ne_true] at heq
      have hbase : ∀ w i, q.baseAt w i = basePulled [ev] w i (p.baseAt w i) := by
        intro w i
        rw [heq]
        exact pulledBases_accumulate (h.insert ev.eventKey.mDimensionKeyInWhat) hd.2 { ev with elapsedTimestampNs := e }
          (hlength ev List.mem_cons_self) w i
      have hmatched : q.mMatchedMetricDimensionKeys = insert ev.eventKey.mDimensionKeyInWhat p.mMatchedMetricDimensionKeys := by
        rw [heq]
        exact (accumulate_data _ _).2.2
      refine ⟨fun w i => ?_, fun w => ?_⟩
      · rw [hrest.base, hbase]
        rfl
      · rw [hrest.matched, hmatched]
        simp only [Finset.mem_insert, List.exists_mem_cons_iff]
        tauto

/-! ## The guardrail -/

/-- The keys that events are aggregated under: each under the states of the event before it with its dimensions in what. -/
def aggregatedKeys (stateKeyOf : HashableDimensionKey → HashableDimensionKey) : List (ValueEvent V) → List MetricDimensionKey
  | [] => []
  | event :: events =>
    ⟨event.eventKey.mDimensionKeyInWhat, stateKeyOf event.eventKey.mDimensionKeyInWhat⟩ ::
      aggregatedKeys (Function.update stateKeyOf event.eventKey.mDimensionKeyInWhat event.eventKey.mStateValuesKey) events

/-- The tracked keys with those that events add. -/
def keysWith (p : ValueMetricProducer V) (events : List (ValueEvent V)) : Finset MetricDimensionKey :=
  (p.mCurrentSlicedBucket.keys ++ aggregatedKeys p.stateKeyOf events).toFinset

omit [MetricValue V] in
theorem hasReachedGuardRailLimit_eq (p : ValueMetricProducer V) :
    p.hasReachedGuardRailLimit = decide (p.mDimensionHardLimit ≤ (p.keysWith []).card) := by
  unfold hasReachedGuardRailLimit keysWith aggregatedKeys
  rw [List.append_nil, List.toFinset_card_of_nodup p.mCurrentSlicedBucket.keys_nodup]
  unfold AList.keys List.keys
  rw [List.length_map]

omit [MetricValue V] in
theorem keysWith_mono (p : ValueMetricProducer V) (events : List (ValueEvent V)) : p.keysWith [] ⊆ p.keysWith events := by
  intro k hk
  simp only [keysWith, aggregatedKeys, List.append_nil, List.mem_toFinset, List.mem_append] at hk ⊢
  exact .inl hk

theorem keysWith_accumulate (h : Sized p) (hfields : 0 < p.fieldCount) (event : ValueEvent V)
    (hlength : event.values.length = p.fieldCount) (events : List (ValueEvent V)) :
    (p.accumulate event).keysWith events = p.keysWith (event :: events) := by
  obtain ⟨-, hsliced, -⟩ := p.accumulate_data event
  ext k
  simp only [keysWith, aggregatedKeys, List.mem_toFinset, List.mem_append, List.mem_cons, ← AList.mem_keys, hsliced, AList.mem_insert,
    stateKeyOf_accumulate_eq h hfields event hlength]
  tauto

theorem reached_events (h : Sized p) (hd : p.mIsPulled = true ∧ p.mUseDiff = true) (hfields : 0 < p.fieldCount)
    {e : Int} (l : List (ValueEvent V)) (hlength : ∀ ev ∈ l, ev.values.length = p.fieldCount) :
    (l.foldl (fun p data => p.onMatchedLogEventLocked { data with elapsedTimestampNs := e }) p).hasReachedGuardRailLimit =
      decide (p.mDimensionHardLimit ≤ (p.keysWith (l.filter (p.considers e))).card) := by
  induction l generalizing p with
  | nil => exact p.hasReachedGuardRailLimit_eq
  | cons ev l ih =>
    have hev := gained_event h hd e ev
    have heq := onMatchedLogEventLocked_eq hd e ev _ rfl
    rw [List.foldl_cons]
    generalize hq : p.onMatchedLogEventLocked { ev with elapsedTimestampNs := e } = q at hev heq ⊢
    have hmetric : q.toValueMetric = p.toValueMetric := hev.only.congr (·.toValueMetric) fun _ _ _ _ _ => rfl
    have hd' : q.mIsPulled = true ∧ q.mUseDiff = true := by rw [hmetric]; exact hd
    have hih := ih hev.sized hd' (by rw [hmetric]; exact hfields)
      (fun ev' hev' => by rw [hmetric]; exact hlength ev' (List.mem_cons_of_mem _ hev'))
    rw [List.filter_congr fun ev' _ => hev.only.considers e ev', hmetric] at hih
    cases hc : p.considers e ev with
    | false =>
      rw [hc, if_neg Bool.false_ne_true] at heq
      rw [List.filter_cons_of_neg (by rw [hc]; exact Bool.false_ne_true), hih, heq]
    | true =>
      rw [hc, if_pos rfl] at heq
      rw [List.filter_cons_of_pos hc]
      by_cases hhit : hitGuardRailLocked { p with
          mMatchedMetricDimensionKeys := insert ev.eventKey.mDimensionKeyInWhat p.mMatchedMetricDimensionKeys } ev.eventKey = true
      · -- the guardrail was reached before the event
        rw [if_pos hhit] at heq
        have hreached : p.hasReachedGuardRailLimit = true := hitGuardRailLocked_reached hhit
        have hq : q.hasReachedGuardRailLimit = true := by rw [heq]; exact hreached
        rw [(gained_events hev.sized hd' e l).reached hq]
        rw [hasReachedGuardRailLimit_eq, decide_eq_true_eq] at hreached
        exact (decide_eq_true (hreached.trans (Finset.card_le_card (p.keysWith_mono _)))).symm
      · rw [if_neg hhit] at heq
        have hkeys := keysWith_accumulate (h.insert ev.eventKey.mDimensionKeyInWhat) hfields { ev with elapsedTimestampNs := e }
          (hlength ev List.mem_cons_self) (l.filter (p.considers e))
        rw [← heq] at hkeys
        rw [hih, hkeys]
        rfl

/-! ## State changes -/

/-- A pulled metric with diffs; it has a field. -/
structure PulledDiff (metric : ValueMetric) : Prop where
  pulled : metric.mIsPulled = true
  diff : metric.mUseDiff = true
  fields : 0 < metric.fieldCount

/-- A tracked key. -/
def Tracked (p : ValueMetricProducer V) (w : HashableDimensionKey) : Prop := ∃ k ∈ p.mCurrentSlicedBucket, k.mDimensionKeyInWhat = w

/-- The events have the key: it is present in the pulled data. -/
def Present (events : List (ValueEvent V)) (w : HashableDimensionKey) : Prop := ∃ event ∈ events, event.eventKey.mDimensionKeyInWhat = w

/-- A tracked key that the events do not have, of the changed state. -/
def Vanished (p : ValueMetricProducer V) (events : List (ValueEvent V)) (ofState : HashableDimensionKey → Bool) (w : HashableDimensionKey) :
    Prop := p.Tracked w ∧ ¬ Present events w ∧ ofState w = true

/-- Vanished keys have no base, the others that the events do not have keep theirs, and those the events have get the
pulled values as bases. -/
structure BasesRight (p : ValueMetricProducer V) (events : List (ValueEvent V)) (ofState : HashableDimensionKey → Bool)
    (p' : ValueMetricProducer V) : Prop where
  vanished : ∀ w, Vanished p events ofState w → ∀ i, p'.baseAt w i = none
  kept : ∀ w, ¬ Present events w → ¬ Vanished p events ofState w → ∀ i, p'.baseAt w i = p.baseAt w i
  pulled : ∀ w i v, basePulled events w i none = some v → p'.baseAt w i = some v

/-- When a pull leaves the right bases. Below the guardrail the tracked keys that it does not have and that have a base are
of the changed state exactly when they contain its primary key. At the guardrail all bases are dropped: none was pulled,
and only keys of the changed state had one. -/
def PullsRight (p : ValueMetricProducer V) (events : List (ValueEvent V)) (ofState : HashableDimensionKey → Bool)
    (primaryKey : HashableDimensionKey) : Prop :=
  if p.mDimensionHardLimit ≤ (p.keysWith events).card then
    (∀ w i, basePulled events w i none = none) ∧
      ∀ w, ¬ Present events w → ¬ Vanished p events ofState w → ∀ i, p.baseAt w i = none
  else
    ∀ w, p.Tracked w → ¬ Present events w → (∃ i, p.baseAt w i ≠ none) → w.contains primaryKey = ofState w

end ValueMetricProducer

namespace Pulled

open ValueMetricProducer

/-- The events of a pull that are not dropped. -/
def considered (x : Pulled V) : List (ValueEvent V) := x.pull.allData.filter (x.found.considers x.counted)

theorem settled_base {x : Pulled V} (h : Sized x.found) (hm : PulledDiff x.found.toValueMetric)
    (hlength : ∀ event ∈ x.pull.allData, event.values.length = x.found.fieldCount)
    (hroom : (x.after x.pull.allData.length).hasReachedGuardRailLimit = false) (w : HashableDimensionKey) (i : Nat) :
    (Vanished x.found x.considered (·.contains x.found.mStateChangePrimaryKey.2) w → x.settled.baseAt w i = none) ∧
      (¬ Vanished x.found x.considered (·.contains x.found.mStateChangePrimaryKey.2) w →
        x.settled.baseAt w i = basePulled x.considered w i (x.found.baseAt w i)) := by
  have hd : x.found.mIsPulled = true ∧ x.found.mUseDiff = true := ⟨hm.pulled, hm.diff⟩
  have hgained := gained h hd x.pull.allData.length
  unfold after at hroom hgained
  rw [List.take_length] at hroom hgained
  have hbases := pulledBases_events (p := { x.found with mMatchedMetricDimensionKeys := ∅ }) ⟨h.base, h.sliced⟩ hd x.pull.allData hlength
    hroom
  obtain ⟨-, hmissing⟩ := resetMissing_spec (x.after x.pull.allData.length)
  unfold settled baseAt
  dsimp only
  unfold after at hmissing ⊢
  rw [List.take_length] at hmissing ⊢
  generalize x.pull.allData.foldl _ _ = q at *
  have hmatched : w ∈ q.mMatchedMetricDimensionKeys ↔ Present x.considered w :=
    (hbases.matched w).trans (by simp [Present, considered, ValueMetricProducer.considers])
  have hprimary : q.mStateChangePrimaryKey = x.found.mStateChangePrimaryKey :=
    hgained.only.congr (·.mStateChangePrimaryKey) fun _ _ _ _ _ => rfl
  have hvanished : q.Missing w ↔ Vanished x.found x.considered (·.contains x.found.mStateChangePrimaryKey.2) w := by
    unfold Missing Vanished Tracked
    rw [hmatched, hprimary]
    refine and_congr_left fun ⟨habsent, _⟩ => ⟨fun ⟨k, hk, hw⟩ => ?_, fun ⟨k, hk, hw⟩ => ⟨k, hgained.tracked k hk, hw⟩⟩
    rcases hgained.keys k hk with hk | hk
    · exact ⟨k, hk, hw⟩
    · rw [hw] at hk
      exact absurd (hmatched.1 hk) habsent
  constructor
  · intro hw
    rw [(hmissing w).1 (hvanished.2 hw)]
    exact get_dropBase _ i
  · intro hw
    rw [(hmissing w).2 (mt hvanished.1 hw)]
    exact hbases.base w i

/-- A pull in time leaves the right bases exactly when the tracked keys it does not have are told apart rightly. -/
theorem basesRight_iff {x : Pulled V} (h : Sized x.found) (hm : PulledDiff x.found.toValueMetric) (htime : x.inTime = true)
    (hlength : ∀ event ∈ x.pull.allData, event.values.length = x.found.fieldCount) (ofState : HashableDimensionKey → Bool) :
    BasesRight x.found x.considered ofState x.result ↔ PullsRight x.found x.considered ofState x.found.mStateChangePrimaryKey.2 := by
  have hd : x.found.mIsPulled = true ∧ x.found.mUseDiff = true := ⟨hm.pulled, hm.diff⟩
  have hreached : (x.after x.pull.allData.length).hasReachedGuardRailLimit =
      decide (x.found.mDimensionHardLimit ≤ (x.found.keysWith x.considered).card) := by
    have hevents := reached_events (p := { x.found with mMatchedMetricDimensionKeys := ∅ }) (e := x.counted) ⟨h.base, h.sliced⟩ hd hm.fields
      x.pull.allData hlength
    unfold after
    rw [List.take_length]
    exact hevents
  have habsent : ∀ w, ¬ Present x.considered w → ∀ i base, basePulled x.considered w i base = base := fun w hw i base =>
    basePulled_absent (fun event hevent hkey => hw ⟨event, hevent, hkey⟩) i base
  rw [result_inTime htime]
  unfold PullsRight
  by_cases hlimit : x.found.mDimensionHardLimit ≤ (x.found.keysWith x.considered).card
  · rw [hreached, if_pos (decide_eq_true hlimit), if_pos hlimit]
    have hnone : ∀ w i, ({ x.settled.invalidateCurrentBucket x.counted .DIMENSION_GUARDRAIL_REACHED with
        mCurrentSlicedBucket := ∅ } : ValueMetricProducer V).baseAt w i = none := fun w i => baseAt_resetBase _ w i
    constructor
    · intro hright
      refine ⟨fun w i => ?_, fun w hw hkept i => ?_⟩
      · cases hpulled : basePulled x.considered w i none with
        | none => rfl
        | some v => exact absurd ((hnone w i).symm.trans (hright.pulled w i v hpulled)) (Option.some_ne_none v).symm
      · rw [← hright.kept w hw hkept i]
        exact hnone w i
    · rintro ⟨hpulled, hkept⟩
      refine ⟨fun w _ i => hnone w i, fun w hw hv i => ?_, fun w i v hv => ?_⟩
      · rw [hkept w hw hv i]
        exact hnone w i
      · exact absurd ((hpulled w i).symm.trans hv) (Option.some_ne_none v).symm
  · rw [hreached, decide_eq_false hlimit, if_neg Bool.false_ne_true, if_neg hlimit]
    have hbase := settled_base h hm hlength (hreached.trans (decide_eq_false hlimit))
    constructor
    · rintro hright w htracked hw ⟨i, hi⟩
      obtain ⟨hreset, hkeep⟩ := hbase w i
      rw [habsent w hw] at hkeep
      cases hof : ofState w with
      | true =>
        by_contra hcontains
        have hkept := hkeep fun hv => hcontains hv.2.2
        exact hi (hkept.symm.trans (hright.vanished w ⟨htracked, hw, hof⟩ i))
      | false =>
        by_contra hcontains
        have hdropped := hreset ⟨htracked, hw, by simpa using hcontains⟩
        have hkept := hright.kept w hw (fun hv => Bool.false_ne_true (hof.symm.trans hv.2.2)) i
        exact hi (hkept.symm.trans hdropped)
    · intro hagree
      refine ⟨fun w hv i => ?_, fun w hw hv i => ?_, fun w i v hv => ?_⟩
      · obtain ⟨hreset, hkeep⟩ := hbase w i
        by_cases hcontains : Vanished x.found x.considered (·.contains x.found.mStateChangePrimaryKey.2) w
        · exact hreset hcontains
        · -- the key does not contain the primary key, so it had no base
          rw [hkeep hcontains, habsent w hv.2.1]
          by_contra hi
          exact hcontains ⟨hv.1, hv.2.1, (hagree w hv.1 hv.2.1 ⟨i, hi⟩).trans hv.2.2⟩
      · obtain ⟨hreset, hkeep⟩ := hbase w i
        by_cases hcontains : Vanished x.found x.considered (·.contains x.found.mStateChangePrimaryKey.2) w
        · -- the key is not of the changed state, so it had no base
          rw [hreset hcontains]
          by_contra hi
          exact hv ⟨hcontains.1, hw, (hagree w hcontains.1 hw ⟨i, Ne.symm hi⟩).symm.trans hcontains.2.2⟩
        · rw [hkeep hcontains, habsent w hw]
      · have hpresent : Present x.considered w := by
          by_contra hw
          rw [habsent w hw] at hv
          cases hv
        rw [(hbase w i).2 fun hvanished => hvanished.2.1 hpresent, basePulled_eq, hv]
        rfl

end Pulled

namespace ValueMetricProducer

/-! ## Histories -/

omit [MetricValue V] in
theorem BasesRight.congr {p p' q : ValueMetricProducer V} {events : List (ValueEvent V)} {ofState : HashableDimensionKey → Bool}
    (hbase : q.mCurrentBaseInfo = p'.mCurrentBaseInfo) : BasesRight p events ofState q ↔ BasesRight p events ofState p' := by
  have hat : q.baseAt = p'.baseAt := by
    funext w i
    unfold baseAt
    rw [hbase]
  constructor
  · rintro ⟨h1, h2, h3⟩
    rw [hat] at h1 h2 h3
    exact ⟨h1, h2, h3⟩
  · rintro ⟨h1, h2, h3⟩
    rw [← hat] at h1 h2 h3
    exact ⟨h1, h2, h3⟩

theorem flushIfNeededLocked_bases (p : ValueMetricProducer V) (t : Int) :
    (p.flushIfNeededLocked t).mCurrentBaseInfo = p.mCurrentBaseInfo := by
  unfold flushIfNeededLocked
  split
  · rfl
  · exact (p.flushCurrentBucketLocked_flushed t _).bases.1

theorem stateChanged_bases {p : ValueMetricProducer V} (hpulled : p.mIsPulled = true) {t atomId : Int} {primaryKey : HashableDimensionKey}
    {oldState newState : Value} {pull : Pull V} {x : Pulled V}
    (hx : x ∈ Call.pulled p t (.stateChanged atomId primaryKey oldState newState pull)) :
    x = ⟨{ p with mStateChangePrimaryKey := (atomId, primaryKey) }, pull, t, t⟩ ∧
      (p.onStateChanged t atomId primaryKey oldState newState pull).mCurrentBaseInfo = x.result.mCurrentBaseInfo := by
  dsimp only [Call.pulled] at hx
  split at hx
  · rename_i hcond
    cases hx
    simp only [Bool.and_eq_true, decide_eq_true_eq, inPeriod] at hcond
    obtain ⟨⟨⟨hchange, hactive, htrue⟩, hstart⟩, hsuccess⟩ := hcond
    refine ⟨rfl, ?_⟩
    unfold onStateChanged
    rw [if_neg hchange, if_neg (by simp [hactive, htrue]), if_neg (not_lt.2 hstart)]
    dsimp only
    rw [if_pos hpulled]
    rw [flushIfNeededLocked_bases]
    unfold pullAndMatchEventsLocked
    rw [hsuccess]
    rfl
  · cases hx

theorem sized_call {p : ValueMetricProducer V} (h : Sized p) (hd : p.mIsPulled = true ∧ p.mUseDiff = true) (t : Int) (c : Call V) :
    Sized (p.call t c) ∧ (p.call t c).toValueMetric = p.toValueMetric := by
  cases hc : c.unlogged with
  | true => exact ⟨takes_sized h hd (takes_call hd t hc), takes_metric hd (takes_call hd t hc)⟩
  | false =>
    cases c with
    | matchedLogEvent event =>
      have hev := gained_event h hd t event
      exact ⟨hev.sized, hev.only.congr (·.toValueMetric) fun _ _ _ _ _ => rfl⟩
    | _ => cases hc

theorem sized_history {metric : ValueMetric} (hm : PulledDiff metric) (startTimeNs : Int) (initialCondition : ConditionState)
    (isActive : Bool) (es : List (Int × Call V)) :
    Sized (es.foldl History.step (.new metric startTimeNs initialCondition isActive)).producer ∧
      (es.foldl History.step (.new metric startTimeNs initialCondition isActive : History V)).producer.toValueMetric = metric := by
  induction es using List.reverseRecOn with
  | nil =>
    obtain ⟨hmetric, hcovered, -⟩ := Logged.inv_new (V := V) metric startTimeNs initialCondition isActive
    exact ⟨hcovered.sized, hmetric⟩
  | append_singleton es e ih =>
    rw [List.foldl_append, List.foldl_cons, List.foldl_nil]
    obtain ⟨hsized, hmetric⟩ := ih
    obtain ⟨hcall, hsame⟩ := sized_call hsized (by rw [hmetric]; exact ⟨hm.pulled, hm.diff⟩) e.1 e.2
    have hsettles := (Logged.step_settles (es.foldl History.step (.new metric startTimeNs initialCondition isActive)) e).1
    exact ⟨hsettles.sized hcall, hsettles.metric.trans (hsame.trans hmetric)⟩

/-- In every history of a pulled metric with diffs, a pull in time for a state change leaves the right bases exactly when,
below the guardrail, the tracked keys with a base that are not in the pull contain the primary key exactly when their linked
fields have its values. -/
theorem stateChange_bases_right_iff (metric : ValueMetric) (hm : PulledDiff metric) (startTimeNs : Int) (initialCondition : ConditionState)
    (isActive : Bool) (es : List (Int × Call V)) (t atomId : Int) (primaryKey : HashableDimensionKey) (oldState newState : Value)
    (pull : Pull V) (x : Pulled V)
    (hx : x ∈ Call.pulled (es.foldl History.step (.new metric startTimeNs initialCondition isActive)).producer t
      (.stateChanged atomId primaryKey oldState newState pull))
    (htime : x.inTime = true) (hlength : ∀ event ∈ pull.allData, event.values.length = metric.fieldCount)
    (stateLinks : List Metric2State) :
    let p := (es.foldl History.step (.new metric startTimeNs initialCondition isActive)).producer
    BasesRight p x.considered (containsLinkedStateValues · primaryKey stateLinks atomId)
        (p.onStateChanged t atomId primaryKey oldState newState pull) ↔
      PullsRight p x.considered (containsLinkedStateValues · primaryKey stateLinks atomId) primaryKey := by
  intro p
  obtain ⟨hsized, hmetric⟩ := sized_history hm startTimeNs initialCondition isActive es
  obtain ⟨rfl, hbases⟩ := stateChanged_bases (by rw [hmetric]; exact hm.pulled) hx
  have hfound : p.toValueMetric = metric := hmetric
  have hright := Pulled.basesRight_iff ⟨hsized.base, hsized.sliced⟩
    (show PulledDiff p.toValueMetric by rw [hfound]; exact hm) htime (by
      intro event hevent
      show _ = p.toValueMetric.fieldCount
      rw [hfound]
      exact hlength event hevent) (containsLinkedStateValues · primaryKey stateLinks atomId)
  rw [BasesRight.congr hbases]
  constructor
  · rintro ⟨h1, h2, h3⟩
    exact hright.1 ⟨h1, h2, h3⟩
  · intro h
    obtain ⟨h1, h2, h3⟩ := hright.2 h
    exact ⟨h1, h2, h3⟩

/-- A metric with the diffs of the values of an atom, sliced by its first field and by a state with that primary field. -/
def linkedMetric : ValueMetric :=
  { pushedMetric 1000 with mIsPulled := true, mUseDiff := true, unknownStateKey := [(⟨27, 0⟩, .INT (-1))] }

theorem linkedMetric_pulledDiff : PulledDiff linkedMetric := ⟨rfl, rfl, by decide⟩

/-- The first field of an atom, as a matcher and with a value. -/
def firstField (atomId : Int) : Matcher := ⟨⟨atomId, 0x10000#32⟩, 0xff7f0000#32⟩
def firstKey (atomId x : Int) : HashableDimensionKey := [(⟨atomId, 0x10000#32⟩, .INT x)]

/-- The first fields of the atom 10 and of the state 27 are linked. -/
def firstLinks : List Metric2State := [⟨27, [firstField 10], [firstField 27]⟩]

/-- The pulled event of a key. -/
def linkedEvent (t x value : Int) : ValueEvent Int :=
  ⟨t, ⟨firstKey 10 x, [(⟨27, 0⟩, .INT 2)]⟩, true, AList.insert 27 (firstKey 27 x) ∅, [some value]⟩

/-- The pull of the second state change does not have the key of the first, whose state changed; the primary key has the
tag of the state atom and the key that of the pulled one, so the base stays. -/
theorem vanished_key_keeps_base :
    let es : List (Int × Call Int) :=
      [(10, .stateChanged 27 (firstKey 27 1) (.INT 1) (.INT 2) ⟨true, 10, [linkedEvent 10 1 5]⟩)]
    let p : ValueMetricProducer Int := (es.foldl History.step (.new linkedMetric 0 .kTrue true)).producer
    let x : Pulled Int := ⟨{ p with mStateChangePrimaryKey := (27, firstKey 27 1) }, ⟨true, 20, []⟩, 20, 20⟩
    (x ∈ Call.pulled p 20 (.stateChanged 27 (firstKey 27 1) (.INT 2) (.INT 3) ⟨true, 20, []⟩) ∧ x.inTime = true ∧
      (p.onStateChanged 20 27 (firstKey 27 1) (.INT 2) (.INT 3) ⟨true, 20, []⟩).baseAt (firstKey 10 1) 0 = some 5) ∧
    ¬ BasesRight p x.considered (containsLinkedStateValues · (firstKey 27 1) firstLinks 27)
      (p.onStateChanged 20 27 (firstKey 27 1) (.INT 2) (.INT 3) ⟨true, 20, []⟩) := by
  intro es p x
  have hstays : (p.onStateChanged 20 27 (firstKey 27 1) (.INT 2) (.INT 3) ⟨true, 20, []⟩).baseAt (firstKey 10 1) 0 = some 5 := by
    decide +kernel
  refine ⟨⟨by rfl, by decide +kernel, hstays⟩, fun hright => ?_⟩
  have hvanished := hright.vanished (firstKey 10 1)
    ⟨⟨⟨firstKey 10 1, [(⟨27, 0⟩, .INT (-1))]⟩, by decide +kernel, rfl⟩,
      fun ⟨_, hevent, _⟩ => absurd hevent List.not_mem_nil, by decide +kernel⟩ 0
  exact absurd (hstays.symm.trans hvanished) (Option.some_ne_none 5)

/-- A change of a state without primary fields is of every key, and the base of a key that is not in its pull is dropped. -/
theorem stateChange_bases_right_no_fields :
    let es : List (Int × Call Int) :=
      [(10, .stateChanged 27 (firstKey 27 1) (.INT 1) (.INT 2) ⟨true, 10, [linkedEvent 10 1 5]⟩)]
    let p : ValueMetricProducer Int := (es.foldl History.step (.new linkedMetric 0 .kTrue true)).producer
    let x : Pulled Int := ⟨{ p with mStateChangePrimaryKey := (28, []) }, ⟨true, 20, []⟩, 20, 20⟩
    (p.baseAt (firstKey 10 1) 0 = some 5 ∧
      (p.onStateChanged 20 28 [] (.INT 2) (.INT 3) ⟨true, 20, []⟩).baseAt (firstKey 10 1) 0 = none) ∧
    BasesRight p x.considered (containsLinkedStateValues · [] firstLinks 28)
      (p.onStateChanged 20 28 [] (.INT 2) (.INT 3) ⟨true, 20, []⟩) := by
  intro es p x
  refine ⟨⟨by decide +kernel, by decide +kernel⟩, ?_⟩
  refine (stateChange_bases_right_iff linkedMetric linkedMetric_pulledDiff 0 .kTrue true es 20 28 [] (.INT 2) (.INT 3) ⟨true, 20, []⟩ x
    (by rfl) (by decide +kernel) (fun event hevent => absurd hevent List.not_mem_nil) firstLinks).2 ?_
  unfold PullsRight
  rw [if_neg (by decide +kernel)]
  rintro w ⟨k, hk, rfl⟩ - -
  have hkeys : ∀ k ∈ p.mCurrentSlicedBucket.keys,
      k.mDimensionKeyInWhat.contains [] = containsLinkedStateValues k.mDimensionKeyInWhat [] firstLinks 28 := by
    decide +kernel
  exact hkeys k (AList.mem_keys.1 hk)

end ValueMetricProducer

end Statsd.Metrics
