/-
What the calls to the producer of a duration metric leave of its trackers, flushes apart. The operations of a tracker do not change its
bucket. So a call keeps the buckets of the trackers that are there, and a tracker that it creates has the bucket of the producer.
-/
import Statsd.Metrics.DurationMetricProducer

namespace Statsd.Metrics.DurationMetricProducer

open DurationTracker

variable {T C : Type} [DurationTracker T]

/-- A part of a tracker that only flushes change. -/
structure Unmoved (part : T → C) : Prop where
  noteStart : ∀ t key condition eventTime conditionKey, part (noteStart t key condition eventTime conditionKey) = part t
  noteStop : ∀ t key eventTime stopAll, part (noteStop t key eventTime stopAll) = part t
  noteStopAll : ∀ t eventTime, part (noteStopAll t eventTime) = part t
  onSlicedConditionMayChange : ∀ t query timestamp, part (onSlicedConditionMayChange t query timestamp) = part t
  onConditionChanged : ∀ t condition timestamp, part (onConditionChanged t condition timestamp) = part t
  onStateChanged : ∀ t timestamp atomId newState, part (DurationTracker.onStateChanged t timestamp atomId newState) = part t

/-- The producer keeps its bucket, and the trackers keep the part; a new tracker is one that the producer creates. -/
structure Follows (part : T → C) (p q : DurationMetricProducer T) : Prop where
  metric : q.toDurationMetric = p.toDurationMetric
  bucketStart : q.mCurrentBucketStartTimeNs = p.mCurrentBucketStartTimeNs
  bucketNum : q.mCurrentBucketNum = p.mCurrentBucketNum
  kept : ∀ k tracker, p.mCurrentSlicedDurationTrackerMap.lookup k = some tracker →
    ∃ tracker', q.mCurrentSlicedDurationTrackerMap.lookup k = some tracker' ∧ part tracker' = part tracker
  created : ∀ k tracker, p.mCurrentSlicedDurationTrackerMap.lookup k = none → q.mCurrentSlicedDurationTrackerMap.lookup k = some tracker →
    ∃ eventKey, part tracker = part (p.createDurationTracker eventKey)

namespace Follows

variable {part : T → C} {p q r : DurationMetricProducer T}

theorem same (hmetric : q.toDurationMetric = p.toDurationMetric) (hstart : q.mCurrentBucketStartTimeNs = p.mCurrentBucketStartTimeNs)
    (hnum : q.mCurrentBucketNum = p.mCurrentBucketNum)
    (htrackers : q.mCurrentSlicedDurationTrackerMap = p.mCurrentSlicedDurationTrackerMap) : Follows part p q := by
  refine ⟨hmetric, hstart, hnum, fun k tracker hk => ⟨tracker, ?_, rfl⟩, fun k tracker hnone hk => ?_⟩
  · rw [htrackers, hk]
  · rw [htrackers, hnone] at hk
    cases hk

theorem refl (p : DurationMetricProducer T) : Follows part p p := same rfl rfl rfl rfl

theorem createDurationTracker_eq (h : Follows part p q) (eventKey : MetricDimensionKey) :
    q.createDurationTracker eventKey = p.createDurationTracker eventKey := by
  unfold createDurationTracker
  rw [h.metric, h.bucketStart, h.bucketNum]

theorem trans (h : Follows part p q) (h' : Follows part q r) : Follows part p r := by
  refine ⟨h'.metric.trans h.metric, h'.bucketStart.trans h.bucketStart, h'.bucketNum.trans h.bucketNum, fun k tracker hk => ?_,
    fun k tracker hnone hk => ?_⟩
  · obtain ⟨tracker', hk', hpart⟩ := h.kept k tracker hk
    obtain ⟨tracker'', hk'', hpart'⟩ := h'.kept k tracker' hk'
    exact ⟨tracker'', hk'', hpart'.trans hpart⟩
  · cases hq : q.mCurrentSlicedDurationTrackerMap.lookup k with
    | none =>
      obtain ⟨eventKey, hpart⟩ := h'.created k tracker hq hk
      exact ⟨eventKey, by rw [hpart, h.createDurationTracker_eq]⟩
    | some tracker' =>
      obtain ⟨eventKey, hpart⟩ := h.created k tracker' hnone hq
      obtain ⟨tracker'', hk'', hpart'⟩ := h'.kept k tracker' hq
      rw [hk] at hk''
      cases hk''
      exact ⟨eventKey, hpart'.trans hpart⟩

theorem mapTrackers {f : HashableDimensionKey → T → T} (hf : ∀ k tracker, part (f k tracker) = part tracker) :
    Follows part p (p.mapTrackers f) := by
  refine ⟨rfl, rfl, rfl, fun k tracker hk => ⟨f k tracker, ?_, hf k tracker⟩, fun k tracker hnone hk => ?_⟩
  · simp [DurationMetricProducer.mapTrackers, hk]
  · simp [DurationMetricProducer.mapTrackers, hnone] at hk

theorem setTracker {whatKey : HashableDimensionKey} {old tracker : T}
    (hold : p.mCurrentSlicedDurationTrackerMap.lookup whatKey = some old) (hpart : part tracker = part old) :
    Follows part p (p.setTracker whatKey tracker) := by
  refine ⟨rfl, rfl, rfl, fun k tracker' hk => ?_, fun k tracker' hnone hk => ?_⟩
  · by_cases hkey : k = whatKey
    · subst hkey
      rw [hold] at hk
      cases hk
      exact ⟨tracker, AList.lookup_insert _, hpart⟩
    · exact ⟨tracker', (AList.lookup_insert_ne hkey).trans hk, rfl⟩
  · have hkey : k ≠ whatKey := by
      rintro rfl
      rw [hold] at hnone
      cases hnone
    rw [DurationMetricProducer.setTracker, AList.lookup_insert_ne hkey, hnone] at hk
    cases hk

theorem addTracker {whatKey : HashableDimensionKey} {eventKey : MetricDimensionKey} {tracker : T}
    (hnone : p.mCurrentSlicedDurationTrackerMap.lookup whatKey = none)
    (hpart : part tracker = part (p.createDurationTracker eventKey)) : Follows part p (p.setTracker whatKey tracker) := by
  refine ⟨rfl, rfl, rfl, fun k tracker' hk => ?_, fun k tracker' hnone' hk => ?_⟩
  · have hkey : k ≠ whatKey := by
      rintro rfl
      rw [hnone] at hk
      cases hk
    exact ⟨tracker', (AList.lookup_insert_ne hkey).trans hk, rfl⟩
  · by_cases hkey : k = whatKey
    · subst hkey
      rw [DurationMetricProducer.setTracker, AList.lookup_insert] at hk
      cases hk
      exact ⟨eventKey, hpart⟩
    · rw [DurationMetricProducer.setTracker, AList.lookup_insert_ne hkey, hnone'] at hk
      cases hk

/-! ## Events -/

theorem handleStartEvent (hpart : Unmoved part) (p : DurationMetricProducer T) (eventKey : MetricDimensionKey)
    (conditionKeys : ConditionKey) (condition : Bool) (eventTimeNs : Int) (eventValues : List (Field × Value)) :
    Follows part p (p.handleStartEvent eventKey conditionKeys condition eventTimeNs eventValues) := by
  unfold DurationMetricProducer.handleStartEvent startedTracker
  dsimp only
  cases hold : p.mCurrentSlicedDurationTrackerMap.lookup eventKey.mDimensionKeyInWhat with
  | some tracker => exact setTracker hold (hpart.noteStart ..)
  | none =>
    cases p.hitGuardRailLocked eventKey.mDimensionKeyInWhat with
    | true => exact refl p
    | false => exact addTracker hold (hpart.noteStart ..)

theorem handleStopEvent (hpart : Unmoved part) (p : DurationMetricProducer T) (event : MatchedEvent) :
    Follows part p (p.handleStopEvent event) := by
  unfold DurationMetricProducer.handleStopEvent
  dsimp only
  cases hold : p.mCurrentSlicedDurationTrackerMap.lookup (p.metricKey event).mDimensionKeyInWhat with
  | some tracker => exact setTracker hold (hpart.noteStop ..)
  | none => exact refl p

theorem noteStopAll (hpart : Unmoved part) (p : DurationMetricProducer T) (eventTimeNs : Int) :
    Follows part p (p.mapTrackers fun _ tracker => DurationTracker.noteStopAll tracker eventTimeNs) :=
  mapTrackers fun _ tracker => hpart.noteStopAll tracker eventTimeNs

/-! ## Conditions and states -/

theorem onConditionChanged_if (hpart : Unmoved part) (follows : Prop) [Decidable follows] (tracker : T) (condition : Bool)
    (timestamp : Int) :
    part (if follows then DurationTracker.onConditionChanged tracker condition timestamp else tracker) = part tracker := by
  split
  · exact hpart.onConditionChanged tracker condition timestamp
  · rfl

theorem onConditionChanged (hpart : Unmoved part) (p : DurationMetricProducer T) (condition : Bool) (timestamp : Int) :
    Follows part p (p.mapTrackers fun _ tracker => DurationTracker.onConditionChanged tracker condition timestamp) :=
  mapTrackers fun _ tracker => hpart.onConditionChanged tracker condition timestamp

theorem followUnslicedPart (hpart : Unmoved part) (p : DurationMetricProducer T) (wizard : ConditionWizard)
    (currentUnSlicedPartCondition : Bool) (eventTime : Int) :
    Follows part p (p.followUnslicedPart wizard currentUnSlicedPartCondition eventTime) := by
  apply mapTrackers
  intro whatKey tracker
  split
  · exact onConditionChanged_if hpart ..
  · rfl

theorem followChangedDimensions (hpart : Unmoved part) (p : DurationMetricProducer T)
    (changedToTrue changedToFalse : Finset HashableDimensionKey) (eventTime : Int) :
    Follows part p (p.followChangedDimensions changedToTrue changedToFalse eventTime) := by
  apply mapTrackers
  intro whatKey tracker
  exact (onConditionChanged_if hpart ..).trans (onConditionChanged_if hpart ..)

theorem followChange (hpart : Unmoved part) (p : DurationMetricProducer T) (wizard : ConditionWizard)
    (currentUnSlicedPartCondition : Bool) (eventTime : Int) :
    Follows part p (p.followChange wizard currentUnSlicedPartCondition eventTime) := by
  unfold DurationMetricProducer.followChange
  split
  · split
    · apply followUnslicedPart hpart
    split
    · apply followChangedDimensions hpart
    · exact refl p
  · apply followUnslicedPart hpart

theorem onSlicedConditionMayChangeInternalLocked (hpart : Unmoved part) (p : DurationMetricProducer T) (wizard : ConditionWizard)
    (eventTimeNs : Int) : Follows part p (p.onSlicedConditionMayChangeInternalLocked wizard eventTimeNs) := by
  unfold DurationMetricProducer.onSlicedConditionMayChangeInternalLocked
  split
  · unfold onSlicedConditionMayChangeLocked_opt1
    split
    · exact refl p
    split
    · apply followChange hpart
    dsimp only
    split
    · exact refl p
    · have hpart' : Follows part p { p with mUnSlicedPartCondition := wizard.getUnSlicedPartConditionState } := same rfl rfl rfl rfl
      exact hpart'.trans (followChange hpart ..)
  · exact mapTrackers fun _ tracker => hpart.onSlicedConditionMayChange tracker _ eventTimeNs

theorem onStateChanged (hpart : Unmoved part) (p : DurationMetricProducer T) (linked : HashableDimensionKey → Bool)
    (timestamp atomId : Int) (newState : Value) :
    Follows part p (p.mapTrackers fun whatKey tracker =>
      if linked whatKey then DurationTracker.onStateChanged tracker timestamp atomId newState else tracker) := by
  apply mapTrackers
  intro whatKey tracker
  split
  · exact hpart.onStateChanged tracker timestamp atomId newState
  · rfl

end Follows

end Statsd.Metrics.DurationMetricProducer
