/-
The nesting counts of the keys of a SUM metric over runs of its producer. Beside the producer runs a reference counter for each key in
what and internal key: one more with each start, one less with each stop, none after the first stop when nesting is off and after a
stop of all. A key that is absent stays so when a guardrail drops its start.

The trackers keep the reference counters, each on one side only, until a start of a key that is held goes to the other side: a paused
key whose condition is true by then while the metric is active, or a started one whose condition is not. Without links to the condition
there is no such start. With links there is one when a change of the condition did not reach the tracker, as at an activation where only
the keys that changed last are looked at.
-/
import Statsd.Base.Run
import Statsd.Metrics.DurationMetricProducer
import Statsd.Metrics.OringKeys

namespace Statsd.Metrics

open OringDurationTracker

/-- The producer of a SUM metric. -/
abbrev SumDurationProducer := DurationMetricProducer OringDurationTracker

/-- The reference counter of each key in what and internal key. -/
abbrev NestingCounts := HashableDimensionKey → HashableDimensionKey → Nat

def NestingCounts.update (n : NestingCounts) (whatKey key : HashableDimensionKey) (f : Nat → Nat) : NestingCounts :=
  fun w k => if w = whatKey ∧ k = key then f (n w k) else n w k

theorem NestingCounts.update_other (n : NestingCounts) {whatKey w : HashableDimensionKey} (hw : w ≠ whatKey) (key : HashableDimensionKey)
    (f : Nat → Nat) : n.update whatKey key f w = n w := by
  funext k
  exact if_neg fun hk => hw hk.1

theorem NestingCounts.update_absent {n : NestingCounts} {whatKey : HashableDimensionKey} (hn : ∀ key, n whatKey key = 0)
    {f : Nat → Nat} (hf : f 0 = 0) (key : HashableDimensionKey) : n.update whatKey key f = n := by
  funext w k
  unfold NestingCounts.update
  split
  · rename_i hk
    rw [hk.1, hn k, hf]
  · rfl

namespace DurationMetricProducer

/-! ## The reference counters -/

/-- The key in what and the internal key of an event. -/
def whatKeyOf (p : SumDurationProducer) (event : MatchedEvent) : HashableDimensionKey := (p.metricKey event).mDimensionKeyInWhat

def internalKeyOf (p : SumDurationProducer) (event : MatchedEvent) : HashableDimensionKey :=
  p.internalKey (p.whatKeyOf event) event.values

/-- A guardrail, of the producer or of the tracker, drops the start. -/
def dropsStart (p : SumDurationProducer) (event : MatchedEvent) : Bool :=
  match p.startedTracker (p.metricKey event) with
  | none => true
  | some tracker => tracker.hitGuardRail (p.internalKeyOf event)

/-- The producer as an event at `t` finds it. -/
def atEvent (p : SumDurationProducer) (t : Int) : SumDurationProducer := if p.mIsActive then p.flushIfNeededLocked t else p

/-- The reference counters after a matched event. -/
def countEvent (p : SumDurationProducer) (n : NestingCounts) (matcherIndex : Int) (event : MatchedEvent) : NestingCounts :=
  if event.elapsedTimestampNs < p.mTimeBaseNs then n
  else if matcherIndex = p.mStopAllIndex then fun _ _ => 0
  else if matcherIndex = p.mStopIndex then n.update (p.whatKeyOf event) (p.internalKeyOf event) (KeyEntry.countStop p.mNested)
  else
    let dropped := (p.atEvent event.elapsedTimestampNs).dropsStart event
    n.update (p.whatKeyOf event) (p.internalKeyOf event) fun n => if dropped && decide (n = 0) then 0 else n + 1

/-- A producer with its reference counters. -/
structure Counting where
  producer : SumDurationProducer
  counts : NestingCounts

/-- A call at a time; only matched events count. -/
def Counting.step (x : Counting) (e : Int × Call) : Counting where
  producer := x.producer.call e.1 e.2
  counts := match e.2 with
    | .matchedLogEvent matcherIndex values outside => x.producer.countEvent x.counts matcherIndex ⟨e.1, values, outside⟩
    | _ => x.counts

/-- Each key is on one side only and has its count there. -/
structure Counting.Kept (x : Counting) : Prop where
  disjoint : ∀ whatKey tracker, x.producer.mCurrentSlicedDurationTrackerMap.lookup whatKey = some tracker → ∀ key,
    tracker.mStarted.lookup key = none ∨ tracker.mPaused.lookup key = none
  count : ∀ whatKey tracker, x.producer.mCurrentSlicedDurationTrackerMap.lookup whatKey = some tracker → ∀ key,
    (tracker.mStarted.lookup key).or (tracker.mPaused.lookup key) = KeyEntry.stored (x.counts whatKey key)
  absent : ∀ whatKey, x.producer.mCurrentSlicedDurationTrackerMap.lookup whatKey = none → ∀ key, x.counts whatKey key = 0

/-- The key that an event starts is not paused if its condition is met and the metric is active, and not started otherwise. -/
def StartsOnSide (p : SumDurationProducer) (event : MatchedEvent) : Prop :=
  ∀ tracker, p.mCurrentSlicedDurationTrackerMap.lookup (p.whatKeyOf event) = some tracker →
    if p.startCondition event then tracker.mPaused.lookup (p.internalKeyOf event) = none
    else tracker.mStarted.lookup (p.internalKeyOf event) = none

/-- The call is no start of a metric with links to its condition, or it starts a key on the side where it is. -/
def Counting.OnSide (x : Counting) (e : Int × Call) : Prop :=
  match e.2 with
  | .matchedLogEvent matcherIndex values outside =>
    x.producer.mConditionSliced = true → x.producer.mTimeBaseNs ≤ e.1 → matcherIndex ≠ x.producer.mStopAllIndex →
      matcherIndex ≠ x.producer.mStopIndex → x.producer.StartsOnSide ⟨e.1, values, outside⟩
  | _ => True

/-! ## The invariant -/

/-- What is known of the entry of a key with the count `n`. Without links to the condition the side is that of the metric's own
condition, `on`. -/
structure EntryInv (conditionSliced on : Bool) (n : Nat) (e : KeyEntry) : Prop where
  holds : e.Holds n
  keyed : conditionSliced = true → n ≠ 0 → e.conditionKey.isSome
  unkeyed : conditionSliced = false → e.conditionKey = none
  side : conditionSliced = false → e.OnSide on

namespace EntryInv

variable {conditionSliced on : Bool} {n : Nat} {e : KeyEntry}

theorem empty (conditionSliced on : Bool) : EntryInv conditionSliced on 0 {} := by
  refine ⟨.started rfl rfl, fun _ h => absurd rfl h, fun _ => rfl, fun _ => ?_⟩
  cases on with
  | true => rfl
  | false => rfl

theorem start (h : EntryInv conditionSliced on n e) {condition : Bool} (hside : e.OnSide condition)
    (hon : conditionSliced = false → condition = on) (conditionKey : ConditionKey) :
    EntryInv conditionSliced on (n + 1) (e.start conditionSliced condition conditionKey) := by
  refine ⟨h.holds.start conditionSliced hside conditionKey, fun hs _ => ?_, fun hs => ?_, fun hs => ?_⟩
  · unfold KeyEntry.start
    rw [hs]
    cases hk : e.conditionKey with
    | none => rfl
    | some k => rfl
  · unfold KeyEntry.start
    rw [hs]
    exact h.unkeyed hs
  · rw [← hon hs]
    cases condition with
    | true => exact hside
    | false => exact hside

theorem stop (h : EntryInv conditionSliced on n e) (nested : Bool) :
    EntryInv conditionSliced on (KeyEntry.countStop nested n) (e.stop nested) := by
  refine ⟨h.holds.stop nested, fun hs hn => ?_, fun hs => ?_, fun hs => ?_⟩
  · -- a count is left, so neither side has ended
    have hn0 : n ≠ 0 := by
      intro h0
      subst h0
      cases nested with
      | true => exact hn rfl
      | false => exact hn rfl
    have hleft : ∀ count, count = none ∨ count = KeyEntry.stored n → KeyEntry.ends nested count = false := by
      rintro count (rfl | rfl)
      · rfl
      · unfold KeyEntry.ends
        rw [KeyEntry.stored_bind_stopCount]
        have := KeyEntry.stored_isSome.2 hn
        cases hc : KeyEntry.stored (KeyEntry.countStop nested n) with
        | none => rw [hc] at this; cases this
        | some c => exact Bool.and_false _
    have hboth : KeyEntry.ends nested e.started = false ∧ KeyEntry.ends nested e.paused = false := by
      rcases h.holds with ⟨h1, h2⟩ | ⟨h1, h2⟩
      · exact ⟨hleft _ (.inr h1), hleft _ (.inl h2)⟩
      · exact ⟨hleft _ (.inl h1), hleft _ (.inr h2)⟩
    unfold KeyEntry.stop
    rw [hboth.1, hboth.2]
    exact h.keyed hs hn0
  · unfold KeyEntry.stop
    rw [h.unkeyed hs]
    split <;> rfl
  · have hside := h.side hs
    cases on with
    | true =>
      show e.paused.bind _ = none
      rw [show e.paused = none from hside]
      rfl
    | false =>
      show e.started.bind _ = none
      rw [show e.started = none from hside]
      rfl

theorem move (h : EntryInv conditionSliced on n e) (condition : Bool) : EntryInv conditionSliced condition n (e.move condition) := by
  refine ⟨h.holds.move condition, fun hs hn => ?_, fun hs => ?_, fun _ => KeyEntry.move_onSide e condition⟩
  · rw [KeyEntry.move_conditionKey]
    exact h.keyed hs hn
  · rw [KeyEntry.move_conditionKey]
    exact h.unkeyed hs

theorem sliced (h : EntryInv true on n e) (on' : Bool) : EntryInv true on' n e :=
  ⟨h.holds, h.keyed, fun hs => (by cases hs), fun hs => (by cases hs)⟩

theorem requery (h : EntryInv true on n e) (query : ConditionKey → ConditionState) (on' : Bool) :
    EntryInv true on' n (e.requery query) := by
  refine ⟨h.holds.requery query, fun hs hn => ?_, fun hs => (by cases hs), fun hs => (by cases hs)⟩
  rw [KeyEntry.requery_conditionKey]
  exact h.keyed hs hn

end EntryInv

/-- The entries of a tracker have the counts `n`. -/
structure TrackerInv (m : DurationMetric) (on : Bool) (n : HashableDimensionKey → Nat) (t : OringDurationTracker) : Prop where
  nested : t.mNested = m.mNested
  sliced : t.mConditionSliced = m.mConditionSliced
  entry : ∀ key, EntryInv m.mConditionSliced on (n key) (t.entry key)

/-- The condition of a metric without links is true and the metric is active. -/
def on (p : SumDurationProducer) : Bool := decide (p.mCondition = .kTrue) && p.mIsActive

/-- The trackers have the counts `n`; between the calls `on` is that of the producer. -/
structure Inv (p : SumDurationProducer) (on : Bool) (n : NestingCounts) : Prop where
  tracker : ∀ whatKey t, p.mCurrentSlicedDurationTrackerMap.lookup whatKey = some t →
    TrackerInv p.toDurationMetric on (n whatKey) t
  absent : ∀ whatKey, p.mCurrentSlicedDurationTrackerMap.lookup whatKey = none → ∀ key, n whatKey key = 0

/-! ## What the calls do to a tracker -/

namespace TrackerInv

variable {m : DurationMetric} {on : Bool} {n : HashableDimensionKey → Nat} {t : OringDurationTracker}

theorem of_keys {t' : OringDurationTracker} {entry' : HashableDimensionKey → KeyEntry} {on' : Bool}
    {n' : HashableDimensionKey → Nat} (h : TrackerInv m on n t) (hkeys : KeysSpec t t' entry')
    (hentry : ∀ key, EntryInv m.mConditionSliced on' (n' key) (entry' key)) : TrackerInv m on' n' t' :=
  ⟨hkeys.nested.trans h.nested, hkeys.sliced.trans h.sliced, fun key => by rw [hkeys.entry]; exact hentry key⟩

theorem same {t' : OringDurationTracker} (h : TrackerInv m on n t) (hkeys : SameKeys t t') : TrackerInv m on n t' :=
  h.of_keys hkeys h.entry

theorem sliced' (h : TrackerInv m on n t) (hs : m.mConditionSliced = true) (on' : Bool) : TrackerInv m on' n t := by
  refine ⟨h.nested, h.sliced, fun key => ?_⟩
  have := h.entry key
  rw [hs] at this ⊢
  exact this.sliced on'

theorem onConditionChanged (h : TrackerInv m on n t) (condition : Bool) (now : Int) :
    TrackerInv m condition n (t.onConditionChanged condition now) :=
  h.of_keys (onConditionChanged_keys t condition now) fun key => (h.entry key).move condition

theorem onSlicedConditionMayChange (h : TrackerInv m on n t) (hs : m.mConditionSliced = true)
    (query : ConditionKey → ConditionState) (now : Int) : TrackerInv m on n (t.onSlicedConditionMayChange query now) := by
  refine h.of_keys (onSlicedConditionMayChange_keys t query now) fun key => ?_
  have := h.entry key
  rw [hs] at this ⊢
  exact this.requery query on

theorem noteStopAll (h : TrackerInv m on n t) (now : Int) : TrackerInv m on (fun _ => 0) (t.noteStopAll now) :=
  h.of_keys (noteStopAll_keys t now) fun _ => .empty m.mConditionSliced on

theorem noteStop (h : TrackerInv m on n t) (key : HashableDimensionKey) (now : Int) :
    TrackerInv m on (fun k => if k = key then KeyEntry.countStop m.mNested (n k) else n k) (t.noteStop key now false) := by
  refine h.of_keys (noteStop_keys t key now) fun k => ?_
  split
  · rename_i hk
    subst hk
    rw [h.nested]
    exact (h.entry k).stop m.mNested
  · exact h.entry k

theorem hitGuardRail (h : TrackerInv m on n t) {key : HashableDimensionKey} (hrail : m.mConditionSliced = false ∨ n key ≠ 0) :
    t.hitGuardRail key = false := by
  cases hs : m.mConditionSliced with
  | false => exact hitGuardRail_of_empty (fun k => (h.entry k).unkeyed hs) key
  | true =>
    rw [hs] at hrail
    exact hitGuardRail_of_tracked ((h.entry key).keyed hs (hrail.resolve_left Bool.noConfusion))

theorem noteStart (h : TrackerInv m on n t) {key : HashableDimensionKey} {condition : Bool} (hside : (t.entry key).OnSide condition)
    (hon : m.mConditionSliced = false → condition = on) (now : Int) (conditionKey : ConditionKey) :
    TrackerInv m on (fun k => if k = key then (if t.hitGuardRail key && decide (n k = 0) then 0 else n k + 1) else n k)
      (t.noteStart key condition now conditionKey) := by
  cases hrail : t.hitGuardRail key with
  | true =>
    -- the key is absent and stays so
    have hzero : n key = 0 := by
      by_contra hne
      rw [h.hitGuardRail (.inr hne)] at hrail
      cases hrail
    have hkept : t.noteStart key condition now conditionKey = t := if_pos hrail
    rw [hkept]
    refine ⟨h.nested, h.sliced, fun k => ?_⟩
    by_cases hk : k = key
    · subst hk
      simpa [hzero] using h.entry k
    · simpa [hk] using h.entry k
  | false =>
    refine h.of_keys (noteStart_keys hrail condition now conditionKey) fun k => ?_
    split
    · rename_i hk
      subst hk
      rw [h.sliced]
      exact (h.entry k).start hside hon conditionKey
    · exact h.entry k

theorem created (p : SumDurationProducer) (eventKey : MetricDimensionKey) (on : Bool) :
    TrackerInv p.toDurationMetric on (fun _ => 0) (p.createDurationTracker eventKey) :=
  ⟨rfl, rfl, fun _ => .empty p.mConditionSliced on⟩

end TrackerInv

/-! ## What the calls do to the producer -/

/-- A flush leaves the keys alone; a tracker without any may go. -/
structure Flushed (p p' : SumDurationProducer) : Prop where
  same : SameMetric p p'
  kept : ∀ whatKey t', p'.mCurrentSlicedDurationTrackerMap.lookup whatKey = some t' →
    ∃ t, p.mCurrentSlicedDurationTrackerMap.lookup whatKey = some t ∧ SameKeys t t'
  erased : ∀ whatKey t, p.mCurrentSlicedDurationTrackerMap.lookup whatKey = some t →
    p'.mCurrentSlicedDurationTrackerMap.lookup whatKey = none → ∀ key, (t.entry key).started = none ∧ (t.entry key).paused = none

namespace Flushed

variable {p p' p'' : SumDurationProducer}

theorem refl (p : SumDurationProducer) : Flushed p p :=
  ⟨.refl p, fun _ t' h => ⟨t', h, .refl t'⟩, fun _ t h h' => by rw [h] at h'; cases h'⟩

theorem trans (h : Flushed p p') (h' : Flushed p' p'') : Flushed p p'' := by
  refine ⟨h.same.trans h'.same, fun whatKey t'' ht'' => ?_, fun whatKey t ht hnone key => ?_⟩
  · obtain ⟨t', ht', hkeys'⟩ := h'.kept whatKey t'' ht''
    obtain ⟨t, ht, hkeys⟩ := h.kept whatKey t' ht'
    exact ⟨t, ht, hkeys.andThen hkeys'⟩
  · cases hl : p'.mCurrentSlicedDurationTrackerMap.lookup whatKey with
    | none => exact h.erased whatKey t ht hl key
    | some t' =>
      obtain ⟨t0, ht0, hkeys⟩ := h.kept whatKey t' hl
      rw [ht] at ht0
      cases ht0
      rw [← hkeys.entry key]
      exact h'.erased whatKey t' hl hnone key

theorem flushCurrentBucketLocked (p : SumDurationProducer) (e next : Int) : Flushed p (p.flushCurrentBucketLocked e next) := by
  obtain ⟨hsame, hlook⟩ := flushCurrentBucketLocked_spec p e next
  refine ⟨hsame, fun whatKey t' ht' => ?_, fun whatKey t ht hnone => ?_⟩
  · have h := hlook whatKey
    rw [ht'] at h
    generalize p.mCurrentSlicedDurationTrackerMap.lookup whatKey = before at h
    cases h with
    | kept tracker output _ => exact ⟨tracker, rfl, (flushCurrentBucket_keys tracker e output).1⟩
  · have h := hlook whatKey
    rw [ht, hnone] at h
    cases h with
    | done tracker output hdone => exact (flushCurrentBucket_keys t e output).2.1 hdone

theorem flushIfNeededLocked (p : SumDurationProducer) (e : Int) : Flushed p (p.flushIfNeededLocked e) := by
  unfold DurationMetricProducer.flushIfNeededLocked
  dsimp only
  split
  · exact .refl p
  · have h := flushCurrentBucketLocked p e
      (p.getCurrentBucketEndTimeNs + (1 + (e - p.getCurrentBucketEndTimeNs).tdiv p.mBucketSizeNs - 1) * p.mBucketSizeNs)
    exact ⟨⟨h.same.metric, h.same.activation, h.same.condition⟩, h.kept, h.erased⟩

theorem flushLocked (p : SumDurationProducer) (e : Int) : Flushed p (p.flushLocked e) :=
  (flushIfNeededLocked p e).trans (flushCurrentBucketLocked _ e e)

theorem atEvent (p : SumDurationProducer) (t : Int) : Flushed p (p.atEvent t) := by
  unfold DurationMetricProducer.atEvent
  split
  · exact flushIfNeededLocked p t
  · exact .refl p

end Flushed

variable {p p' : SumDurationProducer}

theorem SameMetric.on_eq (h : SameMetric p p') : p'.on = p.on := by
  unfold DurationMetricProducer.on mIsActive
  rw [h.condition, h.activation]

variable {p : SumDurationProducer} {n : NestingCounts} {event : MatchedEvent} {t : OringDurationTracker} {on : Bool}

theorem Inv.flush (h : Inv p on n) (hf : Flushed p p') : Inv p' on n := by
  refine ⟨fun whatKey t' ht' => ?_, fun whatKey hnone key => ?_⟩
  · obtain ⟨t, ht, hkeys⟩ := hf.kept whatKey t' ht'
    rw [hf.same.metric]
    exact (h.tracker whatKey t ht).same hkeys
  · cases hl : p.mCurrentSlicedDurationTrackerMap.lookup whatKey with
    | none => exact h.absent whatKey hl key
    | some t => exact ((h.tracker whatKey t hl).entry key).holds.absent.2 (hf.erased whatKey t hl hnone key)

theorem Inv.flushed (h : Inv p p.on n) (hf : Flushed p p') : Inv p' p'.on n := by
  rw [hf.same.on_eq]
  exact h.flush hf

theorem Inv.mapTrackers {on on' : Bool} {n n' : NestingCounts} (h : Inv p on n)
    {f : HashableDimensionKey → OringDurationTracker → OringDurationTracker}
    (hf : ∀ whatKey t, TrackerInv p.toDurationMetric on (n whatKey) t → TrackerInv p.toDurationMetric on' (n' whatKey) (f whatKey t))
    (hzero : ∀ whatKey, (∀ key, n whatKey key = 0) → ∀ key, n' whatKey key = 0) : Inv (p.mapTrackers f) on' n' := by
  have hlook : ∀ whatKey, (p.mapTrackers f).mCurrentSlicedDurationTrackerMap.lookup whatKey =
      (p.mCurrentSlicedDurationTrackerMap.lookup whatKey).map (f whatKey) := UMap.lookup_mapKeyed f _
  refine ⟨fun whatKey t' ht' => ?_, fun whatKey hnone => ?_⟩
  · rw [hlook, Option.map_eq_some_iff] at ht'
    obtain ⟨t, ht, rfl⟩ := ht'
    exact hf whatKey t (h.tracker whatKey t ht)
  · rw [hlook, Option.map_eq_none_iff] at hnone
    exact hzero whatKey (h.absent whatKey hnone)

theorem Inv.set {n n' : NestingCounts} (h : Inv p on n) {whatKey : HashableDimensionKey} (ht : TrackerInv p.toDurationMetric on (n' whatKey) t)
    (hother : ∀ w, w ≠ whatKey → n' w = n w) : Inv (p.setTracker whatKey t) on n' := by
  refine ⟨fun w t' ht' => ?_, fun w hnone => ?_⟩
  · change (p.mCurrentSlicedDurationTrackerMap.insert whatKey t).lookup w = some t' at ht'
    rw [UMap.lookup_insert'] at ht'
    split at ht'
    · rename_i hw
      cases ht'
      rw [hw]
      exact ht
    · rename_i hw
      rw [hother w hw]
      exact h.tracker w t' ht'
  · change (p.mCurrentSlicedDurationTrackerMap.insert whatKey t).lookup w = none at hnone
    rw [UMap.lookup_insert'] at hnone
    split at hnone
    · cases hnone
    · rename_i hw
      rw [hother w hw]
      exact h.absent w hnone

/-! ## Events -/

theorem startCondition_same (h : SameMetric p p') (event : MatchedEvent) :
    p'.startCondition event = p.startCondition event := by
  unfold startCondition mIsActive
  rw [h.metric, h.condition, h.activation]

theorem keys_same (h : SameMetric p p') (event : MatchedEvent) :
    p'.whatKeyOf event = p.whatKeyOf event ∧ p'.internalKeyOf event = p.internalKeyOf event := by
  unfold internalKeyOf whatKeyOf
  rw [h.metric]
  exact ⟨rfl, rfl⟩

theorem startCondition_unsliced (hs : p.mConditionSliced = false) (event : MatchedEvent) :
    p.startCondition event = p.on := by
  unfold startCondition on EventSlicing.conditionMet
  rw [hs]
  rfl

theorem handleStopEvent_of_none
    (hl : p.mCurrentSlicedDurationTrackerMap.lookup (p.whatKeyOf event) = none) : p.handleStopEvent event = p := by
  unfold DurationMetricProducer.handleStopEvent
  dsimp only
  rw [show p.mCurrentSlicedDurationTrackerMap.lookup (p.metricKey event).mDimensionKeyInWhat = none from hl]

theorem handleStopEvent_of_some (hl : p.mCurrentSlicedDurationTrackerMap.lookup (p.whatKeyOf event) = some t) :
    p.handleStopEvent event = p.setTracker (p.whatKeyOf event)
      (t.noteStop (p.internalKeyOf event) event.elapsedTimestampNs false) := by
  unfold DurationMetricProducer.handleStopEvent
  dsimp only
  rw [show p.mCurrentSlicedDurationTrackerMap.lookup (p.metricKey event).mDimensionKeyInWhat = some t from hl]
  rfl

theorem startedTracker_of_none (hl : p.mCurrentSlicedDurationTrackerMap.lookup (p.whatKeyOf event) = none) :
    p.startedTracker (p.metricKey event) =
      if p.hitGuardRailLocked (p.whatKeyOf event) then none else some (p.createDurationTracker (p.metricKey event)) := by
  unfold DurationMetricProducer.startedTracker
  rw [show p.mCurrentSlicedDurationTrackerMap.lookup (p.metricKey event).mDimensionKeyInWhat = none from hl]
  rfl

theorem startedTracker_of_some (hl : p.mCurrentSlicedDurationTrackerMap.lookup (p.whatKeyOf event) = some t) :
    p.startedTracker (p.metricKey event) = some t := by
  unfold DurationMetricProducer.startedTracker
  rw [show p.mCurrentSlicedDurationTrackerMap.lookup (p.metricKey event).mDimensionKeyInWhat = some t from hl]

theorem handleStartEvent_of_none (hl : p.startedTracker (p.metricKey event) = none)
    (conditionKey : ConditionKey) (condition : Bool) :
    p.handleStartEvent (p.metricKey event) conditionKey condition event.elapsedTimestampNs event.values = p := by
  unfold DurationMetricProducer.handleStartEvent
  dsimp only
  rw [hl]

theorem handleStartEvent_of_some (hl : p.startedTracker (p.metricKey event) = some t) (conditionKey : ConditionKey) (condition : Bool) :
    p.handleStartEvent (p.metricKey event) conditionKey condition event.elapsedTimestampNs event.values =
      p.setTracker (p.whatKeyOf event) (t.noteStart (p.internalKeyOf event) condition event.elapsedTimestampNs conditionKey) := by
  unfold DurationMetricProducer.handleStartEvent
  dsimp only
  rw [hl]
  rfl

theorem handleStopEvent_same (p : SumDurationProducer) (event : MatchedEvent) : SameMetric p (p.handleStopEvent event) := by
  unfold DurationMetricProducer.handleStopEvent
  dsimp only
  split
  · exact .refl p
  · exact ⟨rfl, rfl, rfl⟩

theorem handleStartEvent_same (p : SumDurationProducer) (eventKey : MetricDimensionKey) (conditionKey : ConditionKey)
    (condition : Bool) (now : Int) (values : List (Field × Value)) :
    SameMetric p (p.handleStartEvent eventKey conditionKey condition now values) := by
  unfold DurationMetricProducer.handleStartEvent
  dsimp only
  split
  · exact .refl p
  · exact ⟨rfl, rfl, rfl⟩

theorem Inv.handleStopEvent (h : Inv p on n) (event : MatchedEvent) :
    Inv (p.handleStopEvent event) on (n.update (p.whatKeyOf event) (p.internalKeyOf event) (KeyEntry.countStop p.mNested)) := by
  cases hl : p.mCurrentSlicedDurationTrackerMap.lookup (p.whatKeyOf event) with
  | none =>
    -- there is nothing to stop
    have hzero : KeyEntry.countStop p.mNested 0 = 0 := by cases p.mNested <;> rfl
    rw [NestingCounts.update_absent (h.absent _ hl) hzero, handleStopEvent_of_none hl]
    exact h
  | some t =>
    rw [handleStopEvent_of_some hl]
    refine h.set ?_ fun w hw => n.update_other hw _ _
    have ht := (h.tracker _ t hl).noteStop (p.internalKeyOf event) event.elapsedTimestampNs
    refine ⟨ht.nested, ht.sliced, fun key => ?_⟩
    have := ht.entry key
    unfold NestingCounts.update
    simp only [true_and]
    exact this

theorem Inv.startedTracker (h : Inv p on n) (ht : p.startedTracker (p.metricKey event) = some t) :
    TrackerInv p.toDurationMetric on (n (p.whatKeyOf event)) t ∧
      (p.mCurrentSlicedDurationTrackerMap.lookup (p.whatKeyOf event) = some t ∨ ∀ key, t.entry key = {}) := by
  cases hl : p.mCurrentSlicedDurationTrackerMap.lookup (p.whatKeyOf event) with
  | some tracker =>
    rw [startedTracker_of_some hl] at ht
    cases ht
    exact ⟨h.tracker _ t hl, .inl rfl⟩
  | none =>
    rw [startedTracker_of_none hl] at ht
    split at ht
    · cases ht
    · cases ht
      have hzero : n (p.whatKeyOf event) = fun _ => 0 := funext (h.absent _ hl)
      rw [hzero]
      exact ⟨.created p (p.metricKey event) on, .inr fun _ => rfl⟩

theorem Inv.handleStartEvent (h : Inv p p.on n) (event : MatchedEvent)
    (hside : p.mConditionSliced = true → p.StartsOnSide event) (conditionKey : ConditionKey) :
    Inv (p.handleStartEvent (p.metricKey event) conditionKey (p.startCondition event) event.elapsedTimestampNs event.values)
      p.on (n.update (p.whatKeyOf event) (p.internalKeyOf event) fun n => if p.dropsStart event && decide (n = 0) then 0 else n + 1) := by
  cases hl : p.startedTracker (p.metricKey event) with
  | none =>
    -- there is no tracker, so the key is absent
    have hdrops : p.dropsStart event = true := by unfold dropsStart; rw [hl]
    have hnone : p.mCurrentSlicedDurationTrackerMap.lookup (p.whatKeyOf event) = none := by
      cases hm : p.mCurrentSlicedDurationTrackerMap.lookup (p.whatKeyOf event) with
      | none => rfl
      | some t =>
        rw [startedTracker_of_some hm] at hl
        cases hl
    rw [NestingCounts.update_absent (h.absent _ hnone) (by rw [hdrops]; rfl), handleStartEvent_of_none hl]
    exact h
  | some t =>
    have hdrops : p.dropsStart event = t.hitGuardRail (p.internalKeyOf event) := by unfold dropsStart; rw [hl]
    rw [handleStartEvent_of_some hl]
    obtain ⟨ht, hwhere⟩ := h.startedTracker hl
    have honside : (t.entry (p.internalKeyOf event)).OnSide (p.startCondition event) := by
      rcases hwhere with hin | hnew
      · cases hs : p.mConditionSliced with
        | false =>
          rw [startCondition_unsliced hs]
          exact (ht.entry _).side hs
        | true => exact hside hs t hin
      · rw [hnew]
        unfold KeyEntry.OnSide
        split <;> rfl
    have hstart := ht.noteStart honside (fun hs => startCondition_unsliced hs event) event.elapsedTimestampNs conditionKey
    refine h.set ⟨hstart.nested, hstart.sliced, fun key => ?_⟩ fun w hw => n.update_other hw _ _
    have := hstart.entry key
    unfold NestingCounts.update
    simp only [true_and, hdrops]
    exact this

theorem startsOnSide_flush {p q : SumDurationProducer} (hf : Flushed p q) (event : MatchedEvent) :
    q.StartsOnSide event ↔ p.StartsOnSide event := by
  obtain ⟨hwhat, hkey⟩ := keys_same hf.same event
  unfold StartsOnSide
  rw [hwhat, hkey, startCondition_same hf.same]
  have hside : ∀ {t t' : OringDurationTracker}, SameKeys t t' →
      (t'.entry (p.internalKeyOf event) = t.entry (p.internalKeyOf event)) := fun hkeys => hkeys.entry _
  constructor
  · intro h t ht
    cases hl : q.mCurrentSlicedDurationTrackerMap.lookup (p.whatKeyOf event) with
    | none =>
      obtain ⟨hstarted, hpaused⟩ := hf.erased _ t ht hl (p.internalKeyOf event)
      split
      · exact hpaused
      · exact hstarted
    | some t' =>
      obtain ⟨t0, ht0, hkeys⟩ := hf.kept _ t' hl
      rw [ht] at ht0
      cases ht0
      have hc : (t'.entry (p.internalKeyOf event)).OnSide (p.startCondition event) := h t' hl
      rw [hside hkeys] at hc
      exact hc
  · intro h t' ht'
    obtain ⟨t, ht, hkeys⟩ := hf.kept _ t' ht'
    have hc : (t.entry (p.internalKeyOf event)).OnSide (p.startCondition event) := h t ht
    rw [← hside hkeys] at hc
    exact hc

theorem Inv.handleMatchedLogEvent (h : Inv p p.on n) (matcherIndex : Int)
    (event : MatchedEvent)
    (hside : p.mConditionSliced = true → p.mTimeBaseNs ≤ event.elapsedTimestampNs → matcherIndex ≠ p.mStopAllIndex →
      matcherIndex ≠ p.mStopIndex → p.StartsOnSide event) :
    Inv (p.handleMatchedLogEventValuesLocked matcherIndex event) (p.handleMatchedLogEventValuesLocked matcherIndex event).on
      (p.countEvent n matcherIndex event) := by
  unfold handleMatchedLogEventValuesLocked countEvent atEvent
  dsimp only
  split
  · exact h
  · rename_i htime
    have hf := Flushed.atEvent p event.elapsedTimestampNs
    unfold atEvent at hf
    generalize (if p.mIsActive then p.flushIfNeededLocked event.elapsedTimestampNs else p) = q at hf ⊢
    have hq := h.flushed hf
    obtain ⟨hwhat, hkey⟩ := keys_same hf.same event
    rw [← hwhat, ← hkey, ← hf.same.metric]
    split
    · exact hq.mapTrackers (fun _ _ ht => ht.noteStopAll _) fun _ _ _ => rfl
    · rename_i hall
      split
      · rw [(handleStopEvent_same q event).on_eq]
        exact hq.handleStopEvent event
      · rename_i hstop
        have hside' : q.mConditionSliced = true → q.StartsOnSide event := fun hs =>
          (startsOnSide_flush hf event).2
            (hside (hf.same.metric ▸ hs) (not_lt.1 htime) (hf.same.metric ▸ hall) (hf.same.metric ▸ hstop))
        rw [(handleStartEvent_same q _ _ _ _ _).on_eq]
        exact hq.handleStartEvent event hside' _

theorem handleMatchedLogEvent_start {matcherIndex : Int}
    (htime : p.mTimeBaseNs ≤ event.elapsedTimestampNs) (hall : matcherIndex ≠ p.mStopAllIndex) (hstop : matcherIndex ≠ p.mStopIndex) :
    ∃ conditionKey, p.handleMatchedLogEventValuesLocked matcherIndex event =
      (p.atEvent event.elapsedTimestampNs).handleStartEvent ((p.atEvent event.elapsedTimestampNs).metricKey event) conditionKey
        ((p.atEvent event.elapsedTimestampNs).startCondition event) event.elapsedTimestampNs event.values := by
  have hf := Flushed.atEvent p event.elapsedTimestampNs
  rw [← hf.same.metric] at hall hstop
  unfold handleMatchedLogEventValuesLocked
  unfold atEvent at hall hstop ⊢
  dsimp only
  rw [if_neg (not_lt.2 htime), if_neg hall, if_neg hstop]
  exact ⟨_, rfl⟩

theorem Inv.handleStartEvent_split (h : Inv p p.on n)
    (hs : p.mConditionSliced = true) (hside : ¬ p.StartsOnSide event) (conditionKey : ConditionKey) :
    ∃ t, (p.handleStartEvent (p.metricKey event) conditionKey (p.startCondition event) event.elapsedTimestampNs
        event.values).mCurrentSlicedDurationTrackerMap.lookup (p.whatKeyOf event) = some t ∧
      ¬ (t.mStarted.lookup (p.internalKeyOf event) = none ∨ t.mPaused.lookup (p.internalKeyOf event) = none) := by
  unfold StartsOnSide at hside
  obtain ⟨t, ht⟩ := not_forall.1 hside
  obtain ⟨hl, hc⟩ := Classical.not_imp.1 ht
  have hc : ¬ (t.entry (p.internalKeyOf event)).OnSide (p.startCondition event) := hc
  have hinv := h.tracker _ t hl
  -- the key is held, so its start is not dropped
  have hheld : n (p.whatKeyOf event) (p.internalKeyOf event) ≠ 0 := by
    intro hzero
    obtain ⟨hstarted, hpaused⟩ := (hinv.entry _).holds.absent.1 hzero
    apply hc
    unfold KeyEntry.OnSide
    split
    · exact hpaused
    · exact hstarted
  have hkeys := noteStart_keys (hinv.hitGuardRail (.inr hheld)) (p.startCondition event) event.elapsedTimestampNs conditionKey
  have hentry := hkeys.entry (p.internalKeyOf event)
  rw [if_pos rfl] at hentry
  have hsplit := KeyEntry.start_split hc t.mConditionSliced conditionKey
  rw [← hentry] at hsplit
  refine ⟨_, ?_, hsplit⟩
  rw [handleStartEvent_of_some (startedTracker_of_some hl)]
  exact AList.lookup_insert _

/-! ## Conditions, activations and states -/

theorem Inv.congr (h : Inv p on n)
    (hmap : p'.mCurrentSlicedDurationTrackerMap = p.mCurrentSlicedDurationTrackerMap)
    (hmetric : p'.toDurationMetric = p.toDurationMetric) : Inv p' on n :=
  ⟨fun whatKey t ht => by rw [hmetric]; exact h.tracker whatKey t (hmap ▸ ht), fun whatKey hnone => h.absent whatKey (hmap ▸ hnone)⟩

theorem Inv.sliced (h : Inv p on n) (hs : p.mConditionSliced = true)
    (on' : Bool) : Inv p on' n :=
  ⟨fun whatKey t ht => (h.tracker whatKey t ht).sliced' hs on', h.absent⟩

theorem Inv.onConditionChanged (h : Inv p on n) (condition : Bool)
    (now : Int) : Inv (p.mapTrackers fun _ t => DurationTracker.onConditionChanged t condition now) condition n :=
  h.mapTrackers (fun _ _ ht => ht.onConditionChanged condition now) fun _ hzero => hzero

theorem Inv.followChange (h : Inv p on n) (hs : p.mConditionSliced = true)
    (wizard : ConditionWizard) (currentUnSlicedPartCondition : Bool) (now : Int) :
    Inv (p.followChange wizard currentUnSlicedPartCondition now) on n := by
  have hmove : ∀ {n : HashableDimensionKey → Nat} {t : OringDurationTracker}, TrackerInv p.toDurationMetric on n t → ∀ condition,
      TrackerInv p.toDurationMetric on n (t.onConditionChanged condition now) :=
    fun ht condition => (ht.onConditionChanged condition now).sliced' hs on
  have hunsliced : Inv (p.followUnslicedPart wizard currentUnSlicedPartCondition now) on n := by
    unfold followUnslicedPart
    refine h.mapTrackers (fun whatKey t ht => ?_) fun _ hzero => hzero
    split
    · split
      · exact hmove ht _
      · exact ht
    · exact ht
  have hchanged : ∀ changedToTrue changedToFalse, Inv (p.followChangedDimensions changedToTrue changedToFalse now) on n := by
    intro changedToTrue changedToFalse
    unfold followChangedDimensions
    refine h.mapTrackers (fun whatKey t ht => ?_) fun _ hzero => hzero
    have htrue : TrackerInv p.toDurationMetric on (n whatKey) (if p.linkedConditionDimensionKey whatKey ∈ changedToTrue then
        DurationTracker.onConditionChanged t true now else t) := by
      split
      · exact hmove ht true
      · exact ht
    dsimp only
    split
    · exact hmove htrue false
    · exact htrue
  unfold DurationMetricProducer.followChange
  split
  · split
    · exact hunsliced
    · split
      · exact hchanged _ _
      · exact h
  · exact hunsliced

theorem Inv.onSlicedConditionMayChangeInternalLocked (h : Inv p on n)
    (hs : p.mConditionSliced = true) (wizard : ConditionWizard) (now : Int) :
    Inv (p.onSlicedConditionMayChangeInternalLocked wizard now) on n := by
  unfold DurationMetricProducer.onSlicedConditionMayChangeInternalLocked
  split
  · unfold onSlicedConditionMayChangeLocked_opt1
    split
    · exact h
    · split
      · exact h.followChange hs wizard true now
      · dsimp only
        split
        · exact h
        · have h' : Inv { p with mUnSlicedPartCondition := wizard.getUnSlicedPartConditionState } on n := h.congr rfl rfl
          exact h'.followChange hs wizard _ now
  · exact h.mapTrackers (fun _ _ ht => ht.onSlicedConditionMayChange hs wizard.query now) fun _ hzero => hzero

theorem Inv.onActiveStateChangedLocked (h : Inv p on n)
    (hon : p.mCondition ≠ .kTrue → on = false) (wizard : ConditionWizard) (now : Int) :
    Inv (p.onActiveStateChangedLocked wizard now) (p.onActiveStateChangedLocked wizard now).on n := by
  unfold DurationMetricProducer.onActiveStateChangedLocked
  dsimp only
  have hf : Flushed p (if !p.mIsActive then p.flushLocked now else p) := by
    split
    · exact .flushLocked p now
    · exact .refl p
  generalize (if !p.mIsActive then p.flushLocked now else p) = q at hf ⊢
  have hq := h.flush hf
  cases hs : q.mConditionSliced with
  | false =>
    simp only [Bool.not_false, if_true]
    split
    · rename_i hcond
      have hoff : q.on = on := by
        rw [hon (by rw [← hf.same.condition]; exact hcond)]
        unfold DurationMetricProducer.on
        rw [decide_eq_false hcond, Bool.false_and]
      rw [hoff]
      exact hq
    · rename_i hcond
      have hf' : Flushed q (if q.mIsActive then q.flushIfNeededLocked now else q) := .atEvent q now
      generalize (if q.mIsActive then q.flushIfNeededLocked now else q) = r at hf' ⊢
      have hr := (hq.flush hf').onConditionChanged r.mIsActive now
      have hon' : (r.mapTrackers fun _ t => DurationTracker.onConditionChanged t r.mIsActive now).on = r.mIsActive := by
        have hcond' : r.mCondition = .kTrue := hf'.same.condition.trans (not_not.1 hcond)
        show (decide (r.mCondition = .kTrue) && r.mIsActive) = r.mIsActive
        rw [decide_eq_true hcond', Bool.true_and]
      rw [hon']
      exact hr
  | true =>
    simp only [Bool.not_true, Bool.false_eq_true, if_false]
    split
    · have hf' := Flushed.flushIfNeededLocked q now
      have hs' : (q.flushIfNeededLocked now).mConditionSliced = true := by rw [hf'.same.metric]; exact hs
      exact ((hq.flush hf').sliced hs' _).onSlicedConditionMayChangeInternalLocked hs' wizard now
    · exact ((hq.onConditionChanged q.mIsActive now).sliced hs _)

theorem Inv.onSlicedConditionMayChangeLocked (h : Inv p p.on n)
    (wizard : ConditionWizard) (now : Int) :
    Inv (p.onSlicedConditionMayChangeLocked wizard now) (p.onSlicedConditionMayChangeLocked wizard now).on n := by
  unfold DurationMetricProducer.onSlicedConditionMayChangeLocked
  dsimp only
  split
  · exact h
  · have hf := Flushed.flushIfNeededLocked p now
    have hq := h.flush hf
    cases hs : (p.flushIfNeededLocked now).mConditionSliced with
    | false =>
      simp only [Bool.not_false, if_true]
      exact h.flushed hf
    | true =>
      simp only [Bool.not_true, Bool.false_eq_true, if_false]
      exact (hq.sliced hs _).onSlicedConditionMayChangeInternalLocked hs wizard now

theorem Inv.onConditionChangedLocked (h : Inv p p.on n) (conditionMet : Bool)
    (now : Int) : Inv (p.onConditionChangedLocked conditionMet now) (p.onConditionChangedLocked conditionMet now).on n := by
  unfold DurationMetricProducer.onConditionChangedLocked
  dsimp only
  have hcond : Inv { p with mCondition := .ofBool conditionMet } p.on n := h.congr rfl rfl
  cases hactive : p.mIsActive with
  | false =>
    have hoff : p.on = false := by
      unfold DurationMetricProducer.on
      rw [hactive, Bool.and_false]
    have hoff' : DurationMetricProducer.on { p with mCondition := .ofBool conditionMet } = false := by
      unfold DurationMetricProducer.on
      rw [show mIsActive { p with mCondition := .ofBool conditionMet } = false from hactive, Bool.and_false]
    rw [hoff] at hcond
    rw [if_pos (show (!mIsActive { p with mCondition := .ofBool conditionMet }) = true by
      rw [show mIsActive { p with mCondition := .ofBool conditionMet } = false from hactive]; rfl), hoff']
    exact hcond
  | true =>
    rw [if_neg (show ¬ (!mIsActive { p with mCondition := .ofBool conditionMet }) = true by
      rw [show mIsActive { p with mCondition := .ofBool conditionMet } = true from hactive]; exact Bool.noConfusion)]
    have hf := Flushed.flushIfNeededLocked { p with mCondition := .ofBool conditionMet } now
    generalize flushIfNeededLocked { p with mCondition := .ofBool conditionMet } now = q at hf ⊢
    have hon : (q.mapTrackers fun _ t => DurationTracker.onConditionChanged t conditionMet now).on = conditionMet := by
      have hcond : q.mCondition = .ofBool conditionMet := hf.same.condition
      have hactive' : q.mIsActive = true := by unfold mIsActive; rw [hf.same.activation]; exact hactive
      show (decide (q.mCondition = .kTrue) && q.mIsActive) = conditionMet
      rw [hcond, hactive']
      cases conditionMet <;> rfl
    rw [hon]
    exact (hcond.flush hf).onConditionChanged conditionMet now

theorem Inv.activation (h : Inv p p.on n) {activation : MetricProducer}
    (hactive : activation.mIsActive = p.mIsActive) : Inv { p with activation } (DurationMetricProducer.on { p with activation }) n := by
  have hon : DurationMetricProducer.on { p with activation } = p.on := by
    show (decide (p.mCondition = .kTrue) && activation.mIsActive) = (decide (p.mCondition = .kTrue) && p.mIsActive)
    rw [hactive]
  rw [hon]
  exact h.congr rfl rfl

theorem Inv.followActivation (h : Inv p p.on n) (activation : MetricProducer)
    (wizard : ConditionWizard) (now : Int) :
    Inv ({ p with activation }.onActiveStateChangedLocked wizard now)
      ({ p with activation }.onActiveStateChangedLocked wizard now).on n := by
  have h' : Inv { p with activation } p.on n := h.congr rfl rfl
  refine h'.onActiveStateChangedLocked (fun hcond => ?_) wizard now
  have hcond' : p.mCondition ≠ .kTrue := hcond
  unfold DurationMetricProducer.on
  rw [decide_eq_false hcond', Bool.false_and]

theorem activateLocked_active (a : MetricProducer) (i : Nat) (now : Int) (h : a.mIsActive = true) :
    (a.activateLocked i now).mIsActive = true := by
  unfold MetricProducer.activateLocked
  split
  · exact h
  · split
    · exact h
    · split
      · split
        · exact h
        · exact h
      · rfl

theorem cancelEventActivationLocked_active (a : MetricProducer) (i : Nat) :
    (a.cancelEventActivationLocked i).mIsActive = a.mIsActive := by
  unfold MetricProducer.cancelEventActivationLocked
  split
  · rfl
  · rfl

theorem Inv.flushIfExpire (h : Inv p p.on n) (wizard : ConditionWizard) (now : Int) :
    Inv (p.flushIfExpire wizard now) (p.flushIfExpire wizard now).on n := by
  unfold DurationMetricProducer.flushIfExpire
  dsimp only
  split
  · exact h
  · rename_i hactive
    split
    · exact h.followActivation _ wizard now
    · rename_i hactive'
      refine h.activation ?_
      have h1 : p.mIsActive = true := by simpa using hactive
      have h2 : (p.activation.flushIfExpire now).mIsActive = true := by simpa [mIsActive] using hactive'
      rw [h1, h2]

theorem Inv.activateLocked (h : Inv p p.on n) (wizard : ConditionWizard) (i : Nat)
    (now : Int) : Inv (p.activateLocked wizard i now) (p.activateLocked wizard i now).on n := by
  unfold DurationMetricProducer.activateLocked
  dsimp only
  split
  · exact h.followActivation _ wizard now
  · rename_i hchange
    refine h.activation ?_
    unfold mIsActive at hchange ⊢
    cases hactive : p.activation.mIsActive with
    | true => exact activateLocked_active _ i now hactive
    | false =>
      rw [hactive] at hchange
      simpa using hchange

theorem Inv.onStateChanged (h : Inv p p.on n) (now atomId : Int)
    (primaryKey : HashableDimensionKey) (newState : Field × Value) :
    Inv (p.onStateChanged now atomId primaryKey newState) (p.onStateChanged now atomId primaryKey newState).on n := by
  have hf := Flushed.flushIfNeededLocked p now
  have hon : (p.onStateChanged now atomId primaryKey newState).on = p.on := hf.same.on_eq
  rw [hon]
  unfold DurationMetricProducer.onStateChanged
  dsimp only
  refine (h.flush hf).mapTrackers (fun whatKey t ht => ?_) fun _ hzero => hzero
  split
  · exact ht.same (onStateChanged_keys t now atomId _)
  · exact ht

theorem Inv.onDumpReportLocked (h : Inv p p.on n) (now : Int)
    (include_current_partial_bucket erase_data : Bool) :
    Inv (p.onDumpReportLocked now include_current_partial_bucket erase_data)
      (p.onDumpReportLocked now include_current_partial_bucket erase_data).on n := by
  unfold DurationMetricProducer.onDumpReportLocked
  dsimp only
  have hf : Flushed p (if include_current_partial_bucket then p.flushLocked now else p.flushIfNeededLocked now) := by
    split
    · exact .flushLocked p now
    · exact .flushIfNeededLocked p now
  generalize (if include_current_partial_bucket then p.flushLocked now else p.flushIfNeededLocked now) = q at hf ⊢
  have hq := h.flushed hf
  split
  · exact hq.congr rfl rfl
  · exact hq

/-! ## Runs -/

/-- A producer as the constructor leaves it before its fake start events, with nothing counted. -/
def Counting.new (metric : DurationMetric) (activations : EventActivations) (initialCondition : ConditionState)
    (equalOutputDimensions : List Matcher → Bool) (startTimeNs : Int) : Counting where
  producer := .new metric activations initialCondition equalOutputDimensions startTimeNs
  counts := fun _ _ => 0

/-- The invariant between two calls. -/
def Counting.Inv (x : Counting) : Prop := x.producer.Inv x.producer.on x.counts

theorem Counting.inv_new (metric : DurationMetric) (activations : EventActivations) (initialCondition : ConditionState)
    (equalOutputDimensions : List Matcher → Bool) (startTimeNs : Int) :
    (Counting.new metric activations initialCondition equalOutputDimensions startTimeNs).Inv := by
  have hempty : ∀ {p : SumDurationProducer}, p.mCurrentSlicedDurationTrackerMap = ∅ → ∀ on,
      DurationMetricProducer.Inv p on fun _ _ => 0 := by
    intro p hp on
    refine ⟨fun whatKey t ht => ?_, fun _ _ _ => rfl⟩
    rw [hp, AList.lookup_empty] at ht
    cases ht
  unfold Counting.Inv Counting.new DurationMetricProducer.new
  dsimp only
  exact ((hempty rfl _).flush (.flushIfNeededLocked _ startTimeNs)).congr rfl rfl

theorem Counting.Inv.kept {x : Counting} (h : x.Inv) : x.Kept :=
  ⟨fun whatKey t ht key => ((h.tracker whatKey t ht).entry key).holds.disjoint,
    fun whatKey t ht key => ((h.tracker whatKey t ht).entry key).holds.count, h.absent⟩

theorem Counting.Inv.step {x : Counting} (h : x.Inv) {e : Int × Call} (hside : x.OnSide e) : (x.step e).Inv := by
  obtain ⟨t, c⟩ := e
  cases c with
  | matchedLogEvent matcherIndex values outside =>
    exact DurationMetricProducer.Inv.handleMatchedLogEvent h matcherIndex ⟨t, values, outside⟩ hside
  | conditionChanged conditionMet => exact DurationMetricProducer.Inv.onConditionChangedLocked h conditionMet t
  | slicedConditionMayChange wizard => exact DurationMetricProducer.Inv.onSlicedConditionMayChangeLocked h wizard t
  | stateChanged atomId primaryKey newState => exact DurationMetricProducer.Inv.onStateChanged h t atomId primaryKey newState
  | flushIfExpire wizard => exact DurationMetricProducer.Inv.flushIfExpire h wizard t
  | activate wizard i => exact DurationMetricProducer.Inv.activateLocked h wizard i t
  | cancelEventActivation i =>
    exact DurationMetricProducer.Inv.activation h (cancelEventActivationLocked_active x.producer.activation i)
  | appUpgrade => exact DurationMetricProducer.Inv.flushed h (Flushed.flushLocked x.producer t)
  | dumpReport include_current_partial_bucket erase_data =>
    exact DurationMetricProducer.Inv.onDumpReportLocked h t include_current_partial_bucket erase_data

theorem Counting.Inv.split {x : Counting} (h : x.Inv) {e : Int × Call} (hside : ¬ x.OnSide e) : ¬ (x.step e).Kept := by
  obtain ⟨now, c⟩ := e
  cases c with
  | matchedLogEvent matcherIndex values outside =>
    unfold Counting.OnSide at hside
    dsimp only at hside
    simp only [Classical.not_imp] at hside
    obtain ⟨hs, htime, hall, hstop, hside⟩ := hside
    have hf := Flushed.atEvent x.producer now
    have hq := DurationMetricProducer.Inv.flushed h hf
    obtain ⟨conditionKey, heq⟩ := @handleMatchedLogEvent_start x.producer ⟨now, values, outside⟩ matcherIndex htime hall hstop
    obtain ⟨t, ht, hboth⟩ := hq.handleStartEvent_split (hf.same.metric ▸ hs) (fun h' => hside ((startsOnSide_flush hf _).1 h'))
      conditionKey
    rw [← heq] at ht
    exact fun hkept => hboth (hkept.disjoint _ t ht _)
  | _ => exact absurd trivial hside

/-- In every run from a new producer each key stays on one side with the count of its reference counter exactly when no start of a
metric with links finds its key on the other side than its condition says. -/
theorem counts_kept_iff (metric : DurationMetric) (activations : EventActivations) (initialCondition : ConditionState)
    (equalOutputDimensions : List Matcher → Bool) (startTimeNs : Int) (calls : List (Int × Call)) :
    (∀ k, ((calls.take k).foldl Counting.step
      (Counting.new metric activations initialCondition equalOutputDimensions startTimeNs)).Kept) ↔
    RunOk Counting.step Counting.OnSide (Counting.new metric activations initialCondition equalOutputDimensions startTimeNs) calls :=
  have hnew := Counting.inv_new metric activations initialCondition equalOutputDimensions startTimeNs
  RunOk.iff_prefixes (I := Counting.Inv) (P := fun _ x => x.Kept)
    (fun _ _ _ h _ hside => ⟨h.step hside, (h.step hside).kept⟩) (fun _ _ _ h _ hside => h.split hside) hnew hnew.kept calls

/-! ## An activation that does not resume a key -/

namespace Reactivation

/-- The first field of an atom. -/
def firstField (atom : Int) : FieldMatcher := .mk atom none [.mk 1 none []]

/-- An event of an atom with one field. -/
def valuesOf (atom value : Int) : List (Field × Value) := [(.ofPos atom (fun _ => 1#32) 0, .INT value)]

/-- A condition for each value of its atom's field: on with matcher 2, off with matcher 3. -/
def condition : Condition.SimpleConditionTracker :=
  .new { start := some 2, stop := some 3, stop_all := none, count_nesting := true, initial_value := .FALSE
         dimensions := some (firstField 20) }

/-- The condition after a start for a value. -/
def conditionOn (t : Condition.SimpleConditionTracker) (value : Int) : Condition.SimpleConditionTracker :=
  (t.evaluateCondition ⟨valuesOf 20 value, fun i => if i = 2 then .kMatched else .kNotMatched⟩ .kNotEvaluated false).tracker

/-- The metric has one link, from its dimension to that of the condition. -/
def metric : DurationMetric where
  mDimensionsInWhat := (firstField 10).translateFieldMatcher
  mConditionSliced := true
  mMetric2ConditionLinks := [⟨7, (firstField 10).translateFieldMatcher, (firstField 20).translateFieldMatcher⟩]
  mMetric2StateLinks := []
  mSlicedStateAtoms := []
  mStateGroupMap := ∅
  mStartIndex := 0
  mStopIndex := 1
  mStopAllIndex := -1
  mNested := true
  mInternalDimensions := (firstField 10).translateFieldMatcher
  mTimeBaseNs := 0
  mBucketSizeNs := 1000

/-- It is activated by matcher 5 for a time of 100. -/
def activations : EventActivations where
  activations := [⟨100, 0, .kNotActive, .ACTIVATE_IMMEDIATELY⟩]
  mEventActivationMap := (∅ : UMap Nat Nat).insert 5 0
  mEventDeactivationMap := ∅

def wizard (t : Condition.SimpleConditionTracker) : ConditionWizard := .ofSimple 7 false t

def start (t : Condition.SimpleConditionTracker) (value : Int) : Call :=
  .matchedLogEvent 0 (valuesOf 10 value) ⟨(wizard t).query, fun _ _ => (⟨0, 0#32⟩, none)⟩

/-- Key 1 is started while its condition is true; then the condition of key 2 becomes true. The metric expires, which pauses key 1,
and is activated again, which looks at key 2 only. Key 1 is started a second time. -/
def calls : List (Int × Call) :=
  let first := conditionOn condition 1
  let second := conditionOn first 2
  [(1, .activate (wizard condition) 5), (2, .slicedConditionMayChange (wizard first)), (3, start first 1),
    (4, .slicedConditionMayChange (wizard second)), (200, .flushIfExpire (wizard second)), (201, .activate (wizard second) 5),
    (202, start second 1)]

end Reactivation

/-- In the end key 1 is on both sides. -/
theorem reactivation_splits : ¬ ∀ k, ((Reactivation.calls.take k).foldl Counting.step (Counting.new Reactivation.metric
    Reactivation.activations .kUnknown (equalDimensions Reactivation.condition.mOutputDimensions) 0)).Kept := by
  intro h
  have hkept := h 7
  have hboth : ((((Reactivation.calls.take 7).foldl Counting.step (Counting.new Reactivation.metric Reactivation.activations
      .kUnknown (equalDimensions Reactivation.condition.mOutputDimensions)
      0)).producer.mCurrentSlicedDurationTrackerMap.lookup (Reactivation.valuesOf 10 1)).map fun t =>
        (t.mStarted.lookup (Reactivation.valuesOf 10 1), t.mPaused.lookup (Reactivation.valuesOf 10 1))) =
      some (some 1, some 1) := by decide +kernel
  obtain ⟨t, ht, hcounts⟩ := Option.map_eq_some_iff.1 hboth
  rw [Prod.mk.injEq] at hcounts
  have hone := hkept.disjoint _ t ht (Reactivation.valuesOf 10 1)
  rw [hcounts.1, hcounts.2] at hone
  rcases hone with h1 | h1
  · cases h1
  · cases h1

end DurationMetricProducer

end Statsd.Metrics
