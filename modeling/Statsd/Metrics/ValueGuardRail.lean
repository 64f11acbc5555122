/-
The guardrail of a value metric over whole runs. It looks at the key of the event, while the event is aggregated under
the state its dimension was last seen with: the guardrail bounds the tracked keys, and drops no event of a tracked key,
exactly when these two keys are tracked alike whenever an event finds the limit reached.

A call goes through one matched event, or through the events of one pull; what else it does adds no key.
-/
import Statsd.Base.Run
import Statsd.Metrics.StateAttribution

namespace Statsd.Metrics

/-- The soft and hard limits that a metric can have: those of `kAtomDimensionKeySizeLimitMap`, and the ones of other atoms. -/
def dimensionLimits : List (Nat × Nat) :=
  [(6000, 10000), (1500, 2500), (6000, 10000), (kDimensionKeySizeSoftLimit, kDimensionKeySizeHardLimit)]

theorem dimensionLimits_le {soft hard : Nat} (h : (soft, hard) ∈ dimensionLimits) : 0 < soft ∧ soft ≤ hard := by
  have hall : ∀ limits ∈ dimensionLimits, 0 < limits.1 ∧ limits.1 ≤ limits.2 := by decide
  exact hall _ h

namespace ValueMetricProducer

variable {V : Type} [MetricValue V] {p p' p'' : ValueMetricProducer V}

/-! ## The tracked keys -/

/-- The number of tracked keys. -/
def trackedKeys (p : ValueMetricProducer V) : Nat := p.mCurrentSlicedBucket.entries.length

/-- The key is tracked. -/
def HasKey (p : ValueMetricProducer V) (key : MetricDimensionKey) : Prop := (p.mCurrentSlicedBucket.lookup key).isSome = true

/-- The key that an event is aggregated under. -/
def storageKey (p : ValueMetricProducer V) (event : ValueEvent V) : MetricDimensionKey :=
  ⟨event.eventKey.mDimensionKeyInWhat, p.stateKeyOf event.eventKey.mDimensionKeyInWhat⟩

/-- The same metric, with no more keys. -/
structure Lighter (p p' : ValueMetricProducer V) : Prop where
  metric : p'.toValueMetric = p.toValueMetric
  tracked : p'.trackedKeys ≤ p.trackedKeys

omit [MetricValue V] in
theorem Lighter.refl (p : ValueMetricProducer V) : Lighter p p := ⟨rfl, le_refl _⟩

omit [MetricValue V] in
theorem Lighter.trans (h : Lighter p p') (h' : Lighter p' p'') : Lighter p p'' :=
  ⟨h'.metric.trans h.metric, h'.tracked.trans h.tracked⟩

omit [MetricValue V] in
theorem Lighter.of_eq (hmetric : p'.toValueMetric = p.toValueMetric) (hsliced : p'.mCurrentSlicedBucket = p.mCurrentSlicedBucket) :
    Lighter p p' :=
  ⟨hmetric, le_of_eq (congrArg (fun m : UMap MetricDimensionKey (List (Interval V)) => m.entries.length) hsliced)⟩

theorem lighter_invalidate (p : ValueMetricProducer V) (t : Int) (r : BucketDropReason) : Lighter p (p.invalidateCurrentBucket t r) :=
  .of_eq rfl rfl

theorem lighter_flushCurrentBucket (p : ValueMetricProducer V) (t next : Int) : Lighter p (p.flushCurrentBucketLocked t next) := by
  obtain ⟨_, hspec⟩ := p.flushCurrentBucketLocked_spec t next
  refine ⟨hspec.metric, ?_⟩
  unfold trackedKeys
  rw [(p.flushCurrentBucketLocked_flushed t next).sliced]
  unfold UMap.mapVal UMap.filterVal
  rw [List.length_map]
  exact List.length_filter_le _ _

theorem lighter_flushIfNeeded (p : ValueMetricProducer V) (t : Int) : Lighter p (p.flushIfNeededLocked t) := by
  unfold flushIfNeededLocked
  split
  · exact .refl p
  · exact p.lighter_flushCurrentBucket t _

theorem lighter_flush (p : ValueMetricProducer V) (t : Int) : Lighter p (p.flushLocked t) :=
  (p.lighter_flushIfNeeded t).trans (lighter_flushCurrentBucket _ t t)

theorem lighter_resetMissing (p : ValueMetricProducer V) : Lighter p p.resetMissing := by
  have honly := p.resetMissing_only.1
  exact .of_eq (congrArg (·.toValueMetric) honly) (congrArg (·.mCurrentSlicedBucket) honly)

theorem trackedKeys_accumulate (p : ValueMetricProducer V) (event : ValueEvent V) [Decidable (p.HasKey (p.storageKey event))] :
    (p.accumulate event).trackedKeys = if p.HasKey (p.storageKey event) then p.trackedKeys else p.trackedKeys + 1 := by
  have hkeys : ∀ m : UMap MetricDimensionKey (List (Interval V)), m.entries.length = m.keys.length := fun m =>
    (List.length_map _).symm
  obtain ⟨-, hsliced, -⟩ := p.accumulate_data event
  unfold trackedKeys
  rw [hsliced, hkeys, hkeys, AList.keys_insert, List.length_cons, List.length_erase]
  change (if p.storageKey event ∈ p.mCurrentSlicedBucket.keys then _ else _) + 1 = _
  have hmem : p.storageKey event ∈ p.mCurrentSlicedBucket.keys ↔ p.HasKey (p.storageKey event) := by
    unfold HasKey
    rw [← AList.mem_keys, AList.lookup_isSome]
  by_cases htracks : p.HasKey (p.storageKey event)
  · rw [if_pos (hmem.2 htracks), if_pos htracks]
    have := List.length_pos_of_mem (hmem.2 htracks)
    omega
  · rw [if_neg fun h => htracks (hmem.1 h), if_neg htracks]

/-! ## Events at the guardrail -/

/-- The producer as it is when the event reaches the guardrail; none for an event that does not reach it. -/
def atGuardRail (p : ValueMetricProducer V) (event : ValueEvent V) : Option (ValueMetricProducer V) :=
  if !p.mIsActive then none
  else if event.elapsedTimestampNs < p.mTimeBaseNs then none
  else
    let condition := if p.mConditionSliced then event.slicedCondition else decide (p.mCondition = .kTrue)
    if (event.statePrimaryKeys.lookup p.mStateChangePrimaryKey.1).any fun key => decide (key ≠ p.mStateChangePrimaryKey.2) then none
    else if event.elapsedTimestampNs < p.mCurrentBucketStartTimeNs then none
    else
      let p := { p with
        mMatchedMetricDimensionKeys := insert event.eventKey.mDimensionKeyInWhat p.mMatchedMetricDimensionKeys }
      let p := if p.mIsPulled then p else p.flushIfNeededLocked event.elapsedTimestampNs
      if (!p.mIsPulled && !condition) || (p.mIsPulled && !p.mUseDiff && decide (p.mCondition ≠ .kTrue)) then none
      else some p

theorem onMatchedLogEventLocked_atGuardRail (p : ValueMetricProducer V) (event : ValueEvent V) :
    match p.atGuardRail event with
    | none => Lighter p (p.onMatchedLogEventLocked event)
    | some g => Lighter p g ∧
      p.onMatchedLogEventLocked event = if g.hitGuardRailLocked event.eventKey then g else g.accumulate event := by
  unfold atGuardRail onMatchedLogEventLocked onMatchedLogEventInternalLocked
  dsimp only
  by_cases hactive : (!p.mIsActive) = true
  · rw [if_pos hactive, if_pos hactive]
    exact .refl p
  rw [if_neg hactive, if_neg hactive]
  by_cases hbase : event.elapsedTimestampNs < p.mTimeBaseNs
  · rw [if_pos hbase, if_pos hbase]
    exact .refl p
  rw [if_neg hbase, if_neg hbase]
  by_cases hprimary : ((event.statePrimaryKeys.lookup p.mStateChangePrimaryKey.1).any
      fun key => decide (key ≠ p.mStateChangePrimaryKey.2)) = true
  · rw [if_pos hprimary, if_pos hprimary]
    exact .refl p
  rw [if_neg hprimary, if_neg hprimary]
  by_cases hlate : event.elapsedTimestampNs < p.mCurrentBucketStartTimeNs
  · rw [if_pos hlate, if_pos hlate]
    exact .refl p
  rw [if_neg hlate, if_neg hlate]
  have hmatched : Lighter p { p with
      mMatchedMetricDimensionKeys := insert event.eventKey.mDimensionKeyInWhat p.mMatchedMetricDimensionKeys } := .of_eq rfl rfl
  have hflush : Lighter p (if p.mIsPulled then { p with
      mMatchedMetricDimensionKeys := insert event.eventKey.mDimensionKeyInWhat p.mMatchedMetricDimensionKeys }
      else { p with
        mMatchedMetricDimensionKeys := insert event.eventKey.mDimensionKeyInWhat p.mMatchedMetricDimensionKeys
        }.flushIfNeededLocked event.elapsedTimestampNs) := by
    split
    · exact hmatched
    · exact hmatched.trans (lighter_flushIfNeeded _ _)
  generalize (if p.mIsPulled then { p with
      mMatchedMetricDimensionKeys := insert event.eventKey.mDimensionKeyInWhat p.mMatchedMetricDimensionKeys }
      else { p with
        mMatchedMetricDimensionKeys := insert event.eventKey.mDimensionKeyInWhat p.mMatchedMetricDimensionKeys
        }.flushIfNeededLocked event.elapsedTimestampNs) = g at hflush
  generalize (if p.mConditionSliced then event.slicedCondition else decide (p.mCondition = .kTrue)) = condition
  by_cases hskip : ((!g.mIsPulled && !condition) || (g.mIsPulled && !g.mUseDiff && decide (g.mCondition ≠ .kTrue))) = true
  · rw [if_pos hskip, if_pos hskip]
    exact hflush
  · rw [if_neg hskip, if_neg hskip]
    exact ⟨hflush, rfl⟩

/-- When the limit is reached at the guardrail, the key of the event is tracked exactly when its storage key is. -/
def EventCond (p : ValueMetricProducer V) (event : ValueEvent V) : Prop :=
  ∀ g, p.atGuardRail event = some g → g.hasReachedGuardRailLimit = true → (g.HasKey event.eventKey ↔ g.HasKey (g.storageKey event))

/-- The keys stay within the limit, and an event whose storage key is tracked does not hit the guardrail. -/
def EventFine (p : ValueMetricProducer V) (event : ValueEvent V) : Prop :=
  (p.onMatchedLogEventLocked event).trackedKeys ≤ p.mDimensionHardLimit ∧
    ∀ g, p.atGuardRail event = some g → g.HasKey (g.storageKey event) → g.hitGuardRailLocked event.eventKey = false

/-- The keys are within the limits of the metric. -/
structure WithinLimits (p : ValueMetricProducer V) : Prop where
  limits : 0 < p.mDimensionSoftLimit ∧ p.mDimensionSoftLimit ≤ p.mDimensionHardLimit
  tracked : p.trackedKeys ≤ p.mDimensionHardLimit

omit [MetricValue V] in
theorem WithinLimits.lighter (h : p.WithinLimits) (hp : Lighter p p') : p'.WithinLimits := by
  refine ⟨?_, ?_⟩
  · rw [hp.metric]
    exact h.limits
  · rw [hp.metric]
    exact hp.tracked.trans h.tracked

omit [MetricValue V] in
theorem WithinLimits.hit_iff (h : p.WithinLimits) (key : MetricDimensionKey) :
    p.hitGuardRailLocked key = true ↔ ¬ p.HasKey key ∧ p.hasReachedGuardRailLimit = true := by
  obtain ⟨⟨hsoft, hhard⟩, -⟩ := h
  unfold hitGuardRailLocked HasKey
  split
  · rename_i hkey
    exact iff_of_false Bool.false_ne_true fun h => h.1 hkey
  · rename_i hkey
    rw [and_iff_right hkey]
    split
    · rfl
    · rename_i hlength
      unfold hasReachedGuardRailLimit
      rw [decide_eq_true_eq]
      exact iff_of_false Bool.false_ne_true fun hreached => by omega

theorem WithinLimits.fine_iff (h : p.WithinLimits) (event : ValueEvent V) : p.EventFine event ↔ p.EventCond event := by
  have hmatched := p.onMatchedLogEventLocked_atGuardRail event
  unfold EventFine EventCond
  cases hat : p.atGuardRail event with
  | none =>
    rw [hat] at hmatched
    have hwithin := h.lighter hmatched
    refine iff_of_true ⟨?_, fun g hg => nomatch hg⟩ fun g hg => nomatch hg
    rw [← hmatched.metric]
    exact hwithin.tracked
  | some g =>
    rw [hat] at hmatched
    obtain ⟨hlighter, hevent⟩ := hmatched
    have hg := h.lighter hlighter
    have hhit := hg.hit_iff event.eventKey
    have hreached : g.hasReachedGuardRailLimit = true ↔ g.mDimensionHardLimit ≤ g.trackedKeys := decide_eq_true_iff
    have htracked := hg.tracked
    simp only [Option.some.injEq, forall_eq']
    rw [← hlighter.metric, hevent]
    classical
    by_cases hr : g.hasReachedGuardRailLimit = true
    · have hlength := hreached.1 hr
      simp only [hr, forall_const]
      by_cases hk : g.HasKey event.eventKey
      · have hnot : g.hitGuardRailLocked event.eventKey = false := Bool.eq_false_iff.2 fun h => (hhit.1 h).1 hk
        rw [hnot, if_neg Bool.false_ne_true, trackedKeys_accumulate]
        by_cases hs : g.HasKey (g.storageKey event)
        · simp [hk, hs, htracked]
        · rw [if_neg hs]
          exact iff_of_false (fun hle => by omega) fun hiff => hs (hiff.1 hk)
      · have hyes : g.hitGuardRailLocked event.eventKey = true := hhit.2 ⟨hk, hr⟩
        simp [hyes, hk, htracked]
    · have hnot : g.hitGuardRailLocked event.eventKey = false := Bool.eq_false_iff.2 fun h => hr (hhit.1 h).2
      refine iff_of_true ⟨?_, fun _ => hnot⟩ fun h => absurd h hr
      rw [hnot, if_neg Bool.false_ne_true, trackedKeys_accumulate]
      split
      · exact htracked
      · have := mt hreached.2 hr
        omega

theorem WithinLimits.matched (h : p.WithinLimits) {event : ValueEvent V} (hfine : p.EventFine event) :
    (p.onMatchedLogEventLocked event).WithinLimits := by
  have hmetric : (p.onMatchedLogEventLocked event).toValueMetric = p.toValueMetric := by
    have hmatched := p.onMatchedLogEventLocked_atGuardRail event
    cases hat : p.atGuardRail event with
    | none =>
      rw [hat] at hmatched
      exact hmatched.metric
    | some g =>
      rw [hat] at hmatched
      rw [hmatched.2]
      split
      · exact hmatched.1.metric
      · exact ((g.accumulate_dataOnly event).congr (·.toValueMetric) fun _ _ _ _ _ => rfl).trans hmatched.1.metric
  refine ⟨?_, ?_⟩
  · rw [hmetric]
    exact h.limits
  · rw [hmetric]
    exact hfine.1

/-! ## The events of a call -/

/-- The events that a call goes through, and the producer that the first of them finds; none for a call without events. -/
abbrev Events (V : Type) : Type := Option (ValueMetricProducer V × List (ValueEvent V))

/-- The events of a pull, in `accumulateEvents`. -/
def accumulateEventsOf (p : ValueMetricProducer V) (pull : Pull V) (originalPullTimeNs eventElapsedTimeNs : Int) : Events V :=
  if eventElapsedTimeNs < p.mCurrentBucketStartTimeNs then none
  else if pull.elapsedRealtimeNs - originalPullTimeNs > p.mMaxPullDelayNs then none
  else
    some ({ p with mMatchedMetricDimensionKeys := ∅ },
      pull.allData.map fun data => { data with elapsedTimestampNs := eventElapsedTimeNs })

def pullEvents (p : ValueMetricProducer V) (pull : Pull V) (timestampNs : Int) : Events V :=
  if !pull.success then none else p.accumulateEventsOf pull timestampNs timestampNs

def pullIfTrueEvents (p : ValueMetricProducer V) (eventTimeNs : Int) (pull : Pull V) : Events V :=
  if p.mIsPulled && decide (p.mCondition = .kTrue) then p.pullEvents pull eventTimeNs else none

def dataPulledEvents (p : ValueMetricProducer V) (pull : Pull V) (originalPullTimeNs : Int) : Events V :=
  if p.mCondition = .kTrue then
    if !pull.success then none
    else if originalPullTimeNs < p.getCurrentBucketEndTimeNs then p.accumulateEventsOf pull originalPullTimeNs originalPullTimeNs
    else p.accumulateEventsOf pull originalPullTimeNs (p.calcPreviousBucketEndTime originalPullTimeNs - 1)
  else none

def stateChangedEvents (p : ValueMetricProducer V) (eventTimeNs atomId : Int) (primaryKey : HashableDimensionKey)
    (oldState newState : Value) (pull : Pull V) : Events V :=
  if oldState = newState then none
  else if p.mCondition ≠ .kTrue ∨ p.mIsActive = false then none
  else if eventTimeNs < p.mCurrentBucketStartTimeNs then none
  else if p.mIsPulled then { p with mStateChangePrimaryKey := (atomId, primaryKey) }.pullEvents pull eventTimeNs
  else none

def conditionChangedEvents (p : ValueMetricProducer V) (condition : Bool) (eventTimeNs : Int) (pull : Pull V) : Events V :=
  if !p.mIsActive then none
  else if eventTimeNs < p.mCurrentBucketStartTimeNs then none
  else
    let p := if p.mCondition = .kUnknown then p.invalidateCurrentBucket eventTimeNs .CONDITION_UNKNOWN else p
    if p.mIsPulled && (decide (ConditionState.ofBool condition = .kTrue) || decide (p.mCondition = .kTrue)) then
      p.pullEvents pull eventTimeNs
    else none

def activeStateChangedEvents (p : ValueMetricProducer V) (eventTimeNs : Int) (pull : Pull V) : Events V :=
  let isEventTooLate := decide (eventTimeNs < p.mCurrentBucketStartTimeNs)
  let p := if isEventTooLate then p.invalidateCurrentBucket eventTimeNs .EVENT_IN_WRONG_BUCKET else p
  let p := if !p.mIsActive then p.flushLocked eventTimeNs else p
  if p.mCondition ≠ .kTrue then none
  else if isEventTooLate then none
  else if p.mIsPulled then p.pullEvents pull eventTimeNs
  else none

/-- The events of a call at time `t`. -/
def callEvents (p : ValueMetricProducer V) (t : Int) : Call V → Events V
  | .matchedLogEvent event => some (p, [{ event with elapsedTimestampNs := t }])
  | .conditionChanged condition pull => p.conditionChangedEvents condition t pull
  | .activeStateChanged isActive pull =>
    if isActive = p.mIsActive then none else { p with mIsActive := isActive }.activeStateChangedEvents t pull
  | .appUpgrade pull => if !p.mSplitBucketForAppUpgrade then none else p.pullIfTrueEvents t pull
  | .statsdInitCompleted pull => p.pullIfTrueEvents t pull
  | .dataPulled pull => if p.mIsPulled then p.dataPulledEvents pull t else none
  | .stateChanged atomId primaryKey oldState newState pull => p.stateChangedEvents t atomId primaryKey oldState newState pull
  | .prepareFirstBucket pull =>
    if p.mIsActive && p.mIsPulled && decide (p.mCondition = .kTrue) && p.mUseDiff then
      p.pullEvents pull p.mCurrentBucketStartTimeNs
    else none
  | .dumpReport include_current_partial_bucket _ dumpLatency pull =>
    if !include_current_partial_bucket then none
    else if p.mIsPulled && decide (p.mCondition = .kTrue) then
      match dumpLatency with
      | .FAST => none
      | .NO_TIME_CONSTRAINTS => p.pullEvents pull t
    else none
  | .dropData => none

/-- `p'` comes from `p` through some events: what happens before and after them adds no key. -/
def Through (p p' : ValueMetricProducer V) (events : Events V) : Prop :=
  match events with
  | none => Lighter p p'
  | some (q, es) => Lighter p q ∧ Lighter (es.foldl onMatchedLogEventLocked q) p'

theorem Through.after {events : Events V} (h : Through p p' events) (hlighter : Lighter p' p'') : Through p p'' events := by
  cases events with
  | none => exact Lighter.trans h hlighter
  | some r => exact ⟨h.1, h.2.trans hlighter⟩

theorem Through.before {events : Events V} (hlighter : Lighter p p') (h : Through p' p'' events) : Through p p'' events := by
  cases events with
  | none => exact hlighter.trans h
  | some r => exact ⟨hlighter.trans h.1, h.2⟩

theorem through_accumulateEvents (p : ValueMetricProducer V) (pull : Pull V) (originalPullTimeNs eventElapsedTimeNs : Int) :
    Through p (p.accumulateEvents pull originalPullTimeNs eventElapsedTimeNs)
      (p.accumulateEventsOf pull originalPullTimeNs eventElapsedTimeNs) := by
  unfold accumulateEvents accumulateEventsOf
  split
  · exact p.lighter_invalidate _ _
  · split
    · exact p.lighter_invalidate _ _
    · refine ⟨.of_eq rfl rfl, ?_⟩
      rw [List.foldl_map]
      have hmissing : ∀ q : ValueMetricProducer V,
          Lighter q { q.resetMissing with mMatchedMetricDimensionKeys := ∅, mHasGlobalBase := true } := fun q =>
        q.lighter_resetMissing.trans (.of_eq rfl rfl)
      dsimp only
      split
      · exact (hmissing _).trans ⟨rfl, Nat.zero_le _⟩
      · exact hmissing _

theorem through_pull (p : ValueMetricProducer V) (pull : Pull V) (timestampNs : Int) :
    Through p (p.pullAndMatchEventsLocked pull timestampNs) (p.pullEvents pull timestampNs) := by
  unfold pullAndMatchEventsLocked pullEvents
  split
  · exact p.lighter_invalidate _ _
  · exact p.through_accumulateEvents pull _ _

theorem through_pullIfTrue (p : ValueMetricProducer V) (eventTimeNs : Int) (pull : Pull V) :
    Through p (p.pullIfTrue eventTimeNs pull) (p.pullIfTrueEvents eventTimeNs pull) := by
  unfold pullIfTrue pullIfTrueEvents
  split
  · exact p.through_pull pull _
  · exact .refl p

theorem through_dataPulled (p : ValueMetricProducer V) (pull : Pull V) (originalPullTimeNs : Int) :
    Through p (p.onDataPulled pull originalPullTimeNs) (p.dataPulledEvents pull originalPullTimeNs) := by
  unfold onDataPulled dataPulledEvents
  refine Through.after ?_ (lighter_flushIfNeeded _ _)
  split
  · split
    · exact p.lighter_invalidate _ _
    · split
      · exact p.through_accumulateEvents pull _ _
      · exact p.through_accumulateEvents pull _ _
  · exact Lighter.refl p

theorem through_stateChanged (p : ValueMetricProducer V) (eventTimeNs atomId : Int) (primaryKey : HashableDimensionKey)
    (oldState newState : Value) (pull : Pull V) :
    Through p (p.onStateChanged eventTimeNs atomId primaryKey oldState newState pull)
      (p.stateChangedEvents eventTimeNs atomId primaryKey oldState newState pull) := by
  unfold onStateChanged stateChangedEvents
  split
  · exact Lighter.refl p
  · split
    · exact Lighter.refl p
    · split
      · exact p.lighter_invalidate _ _
      · have hset : Lighter p { p with mStateChangePrimaryKey := (atomId, primaryKey) } := .of_eq rfl rfl
        have hclear : ∀ q : ValueMetricProducer V,
            Lighter q ({ q with mStateChangePrimaryKey := (0, DEFAULT_DIMENSION_KEY) }.flushIfNeededLocked eventTimeNs) := by
          intro q
          refine Lighter.trans ?_ (lighter_flushIfNeeded _ _)
          exact .of_eq rfl rfl
        dsimp only
        cases p.mIsPulled with
        | true => exact Through.before hset ((through_pull _ pull eventTimeNs).after (hclear _))
        | false => exact Lighter.trans hset (hclear _)

theorem through_conditionChanged (p : ValueMetricProducer V) (condition : Bool) (eventTimeNs : Int) (pull : Pull V) :
    Through p (p.onConditionChangedLocked condition eventTimeNs pull) (p.conditionChangedEvents condition eventTimeNs pull) := by
  have hreset : ∀ (q : ValueMetricProducer V) (c : Bool), Lighter q (if c then q.resetBase else q) := by
    intro q c
    split
    · exact .of_eq rfl rfl
    · exact .refl q
  have hend : ∀ q : ValueMetricProducer V, Lighter q
      { ({ q with mCondition := .ofBool condition }.flushIfNeededLocked eventTimeNs) with
        mConditionTimer := ({ q with mCondition := .ofBool condition }.flushIfNeededLocked eventTimeNs).mConditionTimer.onConditionChanged
          condition eventTimeNs } := by
    intro q
    have hset : Lighter q { q with mCondition := .ofBool condition } := .of_eq rfl rfl
    refine (hset.trans (lighter_flushIfNeeded _ eventTimeNs)).trans ?_
    exact .of_eq rfl rfl
  unfold onConditionChangedLocked conditionChangedEvents
  dsimp only
  by_cases hactive : (!p.mIsActive) = true
  · rw [if_pos hactive, if_pos hactive]
    exact Lighter.of_eq rfl rfl
  rw [if_neg hactive, if_neg hactive]
  by_cases hlate : eventTimeNs < p.mCurrentBucketStartTimeNs
  · rw [if_pos (decide_eq_true hlate), if_pos hlate]
    exact (p.lighter_invalidate eventTimeNs .EVENT_IN_WRONG_BUCKET).trans (.of_eq rfl rfl)
  rw [if_neg (by simpa using hlate), if_neg hlate]
  have hknown : Lighter p (if p.mCondition = .kUnknown then p.invalidateCurrentBucket eventTimeNs .CONDITION_UNKNOWN else p) := by
    split
    · exact p.lighter_invalidate _ _
    · exact .refl p
  generalize (if p.mCondition = .kUnknown then p.invalidateCurrentBucket eventTimeNs .CONDITION_UNKNOWN else p) = q at hknown
  refine Through.before hknown ?_
  refine Through.after ?_ (hend _)
  refine Through.after ?_ (hreset _ _)
  split
  · exact q.through_pull pull eventTimeNs
  · exact Lighter.refl q

theorem through_activeStateChanged (p : ValueMetricProducer V) (eventTimeNs : Int) (pull : Pull V) :
    Through p (p.onActiveStateChangedLocked eventTimeNs pull) (p.activeStateChangedEvents eventTimeNs pull) := by
  have hend : ∀ q : ValueMetricProducer V, Lighter q
      { q.flushIfNeededLocked eventTimeNs with
        mConditionTimer := (q.flushIfNeededLocked eventTimeNs).mConditionTimer.onConditionChanged
          (q.flushIfNeededLocked eventTimeNs).mIsActive eventTimeNs } := fun q =>
    (q.lighter_flushIfNeeded eventTimeNs).trans (.of_eq rfl rfl)
  unfold onActiveStateChangedLocked activeStateChangedEvents
  dsimp only
  have hlate : Lighter p (if decide (eventTimeNs < p.mCurrentBucketStartTimeNs) = true then
      p.invalidateCurrentBucket eventTimeNs .EVENT_IN_WRONG_BUCKET else p) := by
    split
    · exact p.lighter_invalidate _ _
    · exact .refl p
  generalize (if decide (eventTimeNs < p.mCurrentBucketStartTimeNs) = true then
    p.invalidateCurrentBucket eventTimeNs .EVENT_IN_WRONG_BUCKET else p) = q at hlate
  have hflush : Lighter q (if (!q.mIsActive) = true then q.flushLocked eventTimeNs else q) := by
    split
    · exact q.lighter_flush eventTimeNs
    · exact .refl q
  generalize (if (!q.mIsActive) = true then q.flushLocked eventTimeNs else q) = r at hflush
  refine Through.before (hlate.trans hflush) ?_
  split
  · exact Lighter.refl r
  · refine Through.after ?_ (hend _)
    split
    · exact Lighter.refl r
    · have hreset : ∀ q : ValueMetricProducer V, Lighter q (if (q.mUseDiff && !q.mIsActive) = true then q.resetBase else q) := by
        intro q
        split
        · exact .of_eq rfl rfl
        · exact .refl q
      refine Through.after ?_ (hreset _)
      split
      · exact r.through_pull pull eventTimeNs
      · exact Lighter.refl r

theorem through_call (p : ValueMetricProducer V) (t : Int) (call : Call V) : Through p (p.call t call) (p.callEvents t call) := by
  cases call with
  | matchedLogEvent event => exact ⟨.refl p, .refl _⟩
  | conditionChanged condition pull => exact p.through_conditionChanged condition t pull
  | activeStateChanged isActive pull =>
    simp only [ValueMetricProducer.call, callEvents, setActive]
    split
    · exact Lighter.refl p
    · have hset : Lighter p { p with mIsActive := isActive } := .of_eq rfl rfl
      exact Through.before hset (through_activeStateChanged _ t pull)
  | appUpgrade pull =>
    simp only [ValueMetricProducer.call, callEvents, notifyAppUpgrade]
    split
    · exact Lighter.refl p
    · exact (p.through_pullIfTrue t pull).after (lighter_flushCurrentBucket _ t t)
  | statsdInitCompleted pull => exact (p.through_pullIfTrue t pull).after (lighter_flushCurrentBucket _ t t)
  | dataPulled pull =>
    simp only [ValueMetricProducer.call, callEvents]
    split
    · exact p.through_dataPulled pull t
    · exact Lighter.refl p
  | stateChanged atomId primaryKey oldState newState pull => exact p.through_stateChanged t atomId primaryKey oldState newState pull
  | prepareFirstBucket pull =>
    simp only [ValueMetricProducer.call, callEvents, prepareFirstBucketLocked]
    split
    · exact p.through_pull pull _
    · exact Lighter.refl p
  | dumpReport include_current_partial_bucket erase_data dumpLatency pull =>
    simp only [ValueMetricProducer.call, callEvents, prepareDump]
    split
    · exact Lighter.refl p
    · refine Through.after ?_ (lighter_flushCurrentBucket _ t t)
      split
      · cases dumpLatency with
        | FAST => exact p.lighter_invalidate _ _
        | NO_TIME_CONSTRAINTS => exact p.through_pull pull _
      · exact Lighter.refl p
  | dropData => exact p.lighter_flushIfNeeded t

/-! ## Runs -/

/-- Every event that the call goes through meets `Q` in the state in which it comes. -/
def CallChecks (Q : ValueMetricProducer V → ValueEvent V → Prop) (p : ValueMetricProducer V) (e : Int × Call V) : Prop :=
  ∀ q es, p.callEvents e.1 e.2 = some (q, es) → RunOk onMatchedLogEventLocked Q q es

/-- A call and the erasure after it. -/
def run (p : ValueMetricProducer V) (e : Int × Call V) : ValueMetricProducer V :=
  if e.2.erases then (p.call e.1 e.2).clearPastBucketsLocked else p.call e.1 e.2

theorem WithinLimits.checks_iff (h : p.WithinLimits) (e : Int × Call V) : p.CallChecks EventFine e ↔ p.CallChecks EventCond e := by
  have hthrough := p.through_call e.1 e.2
  unfold CallChecks
  cases hevents : p.callEvents e.1 e.2 with
  | none => exact iff_of_true (fun q es h => nomatch h) fun q es h => nomatch h
  | some r =>
    obtain ⟨q, es⟩ := r
    rw [hevents] at hthrough
    have hq := h.lighter hthrough.1
    have hcongr : RunOk onMatchedLogEventLocked EventFine q es ↔ RunOk onMatchedLogEventLocked EventCond q es :=
      RunOk.congr (I := WithinLimits) (fun q event hq hcond => hq.matched ((hq.fine_iff event).2 hcond))
        (fun q event hq => hq.fine_iff event) hq es
    constructor
    · intro hfine q' es' hsome
      cases hsome
      exact hcongr.1 (hfine q es rfl)
    · intro hcond q' es' hsome
      cases hsome
      exact hcongr.2 (hcond q es rfl)

theorem WithinLimits.run (h : p.WithinLimits) {e : Int × Call V} (hfine : p.CallChecks EventFine e) : (p.run e).WithinLimits := by
  have hcall : (p.call e.1 e.2).WithinLimits := by
    have hthrough := p.through_call e.1 e.2
    cases hevents : p.callEvents e.1 e.2 with
    | none =>
      rw [hevents] at hthrough
      exact h.lighter hthrough
    | some r =>
      obtain ⟨q, es⟩ := r
      rw [hevents] at hthrough
      have hall := (hfine q es hevents).inv (fun q event hfine hq => WithinLimits.matched hq hfine) (h.lighter hthrough.1)
      exact hall.lighter hthrough.2
  unfold ValueMetricProducer.run
  split
  · exact hcall.lighter (.of_eq rfl rfl)
  · exact hcall

theorem Advances.metric {t : Int} (h : Advances t p p') : p'.toValueMetric = p.toValueMetric := by
  induction h with
  | same h => exact h.metric
  | flush p => exact (p.lighter_flushIfNeeded t).metric
  | split p => exact (p.lighter_flushCurrentBucket t t).metric
  | trans h h' ih ih' => exact ih'.trans ih

theorem run_metric (p : ValueMetricProducer V) (e : Int × Call V) : (p.run e).toValueMetric = p.toValueMetric := by
  have hcall := (p.advances_call e.1 e.2).metric
  unfold ValueMetricProducer.run
  split
  · exact hcall
  · exact hcall

theorem withinLimits_new {metric : ValueMetric} (hlimits : (metric.mDimensionSoftLimit, metric.mDimensionHardLimit) ∈ dimensionLimits)
    (startTimeNs : Int) (initialCondition : ConditionState) (isActive : Bool) :
    (new metric startTimeNs initialCondition isActive : ValueMetricProducer V).WithinLimits := by
  have hinitial : (initial metric initialCondition isActive : ValueMetricProducer V).WithinLimits :=
    ⟨dimensionLimits_le hlimits, Nat.zero_le _⟩
  unfold new
  generalize (initial metric initialCondition isActive : ValueMetricProducer V) = p at hinitial ⊢
  have hnum : Lighter p { p with mCurrentBucketNum := p.mCurrentBucketNum + p.calcBucketsForwardCount startTimeNs } := .of_eq rfl rfl
  have hstart := hinitial.lighter (hnum.trans (lighter_flushIfNeeded _ startTimeNs))
  exact hstart.lighter (.of_eq rfl rfl)

end ValueMetricProducer

open ValueMetricProducer

/-- In every state of a run the keys are within the limit, and no event of a tracked key is dropped by the guardrail. -/
def GuardRailKept {V : Type} [MetricValue V] (p : ValueMetricProducer V) (es : List (Int × Call V)) : Prop :=
  (∀ n, ((es.take n).foldl run p).trackedKeys ≤ p.mDimensionHardLimit) ∧ RunOk run (CallChecks EventFine) p es

/-- A run keeps the guardrail's promise exactly when, whenever an event finds the limit reached, its own key is tracked
exactly when the key it is aggregated under is. -/
theorem guardrail_kept_iff {V : Type} [MetricValue V] {metric : ValueMetric}
    (hlimits : (metric.mDimensionSoftLimit, metric.mDimensionHardLimit) ∈ dimensionLimits) (startTimeNs : Int)
    (initialCondition : ConditionState) (isActive : Bool) (es : List (Int × Call V)) :
    GuardRailKept (new metric startTimeNs initialCondition isActive) es ↔
      RunOk run (CallChecks EventCond) (new metric startTimeNs initialCondition isActive) es := by
  have hnew := withinLimits_new (V := V) hlimits startTimeNs initialCondition isActive
  generalize (new metric startTimeNs initialCondition isActive : ValueMetricProducer V) = p at hnew
  have hcongr : RunOk run (CallChecks EventFine) p es ↔ RunOk run (CallChecks EventCond) p es :=
    RunOk.congr (I := WithinLimits) (fun q e hq hcond => hq.run ((hq.checks_iff e).2 hcond))
      (fun q e hq => hq.checks_iff e) hnew es
  constructor
  · intro hkept
    exact hcongr.1 hkept.2
  · intro hcond
    have hfine := hcongr.2 hcond
    have hwithin := hfine.inv_take (I := fun q => q.WithinLimits ∧ q.toValueMetric = p.toValueMetric)
      (fun q e hfine hq => ⟨hq.1.run hfine, (q.run_metric e).trans hq.2⟩) ⟨hnew, rfl⟩
    refine ⟨fun n => ?_, hfine⟩
    rw [← (hwithin n).2]
    exact (hwithin n).1.tracked

/-! ## A dropped event of a tracked key -/

/-- An event of the dimension `w` in a screen state. -/
def stateEvent (w : HashableDimensionKey) (state : Int) : ValueEvent Int := ⟨0, ⟨w, screenState state⟩, true, ∅, [some 1]⟩

namespace ValueMetricProducer

/-- The keys of the dimensions `ws`, all of an unknown state, are tracked in the first bucket. -/
structure Filled (p : ValueMetricProducer Int) (ws : List HashableDimensionKey) : Prop where
  metric : p.toValueMetric = screenMetric
  ready : p.mIsActive = true ∧ p.mCondition = .kTrue ∧ p.mCurrentBucketStartTimeNs = 0 ∧ p.mCurrentBucketNum = 0
  states : ∀ w, p.stateKeyOf w = screenState (-1)
  keys : ∀ w s, p.HasKey ⟨w, s⟩ ↔ w ∈ ws ∧ s = screenState (-1)
  tracked : p.trackedKeys = ws.length

theorem Filled.new : Filled (.new screenMetric 0 .kTrue true) [] := by
  have hsliced : (ValueMetricProducer.new screenMetric 0 .kTrue true : ValueMetricProducer Int).mCurrentSlicedBucket = ∅ := rfl
  have hbases : (ValueMetricProducer.new screenMetric 0 .kTrue true : ValueMetricProducer Int).mCurrentBaseInfo = ∅ := rfl
  refine ⟨rfl, ⟨rfl, rfl, rfl, rfl⟩, fun w => ?_, fun w s => ?_, rfl⟩
  · rfl
  · unfold HasKey
    rw [hsliced, AList.lookup_empty]
    simp

variable {ws : List HashableDimensionKey} {p : ValueMetricProducer Int}

theorem Filled.atGuardRail (h : p.Filled ws)
    (w : HashableDimensionKey) (state : Int) : ∃ g, p.atGuardRail (stateEvent w state) = some g ∧ g.Filled ws := by
  obtain ⟨hactive, hcondition, hstart, hnum⟩ := h.ready
  have hpulled : p.mIsPulled = false := congrArg (·.mIsPulled) h.metric
  have hbase : p.mTimeBaseNs = 0 := congrArg (·.mTimeBaseNs) h.metric
  have hsize : p.mBucketSizeNs = 60 := congrArg (·.mBucketSizeNs) h.metric
  have hsliced : p.mConditionSliced = false := congrArg (·.mConditionSliced) h.metric
  refine ⟨{ p with mMatchedMetricDimensionKeys := insert w p.mMatchedMetricDimensionKeys }, ?_, h.metric, h.ready, h.states, h.keys,
    h.tracked⟩
  unfold ValueMetricProducer.atGuardRail flushIfNeededLocked getCurrentBucketEndTimeNs
  simp [stateEvent, hactive, hcondition, hstart, hnum, hpulled, hbase, hsize, hsliced]

theorem Filled.fill (h : p.Filled ws) {w : HashableDimensionKey}
    (hw : w ∉ ws) (hlength : ws.length < kDimensionKeySizeHardLimit) :
    Filled (p.run (0, .matchedLogEvent (stateEvent w (-1)))) (w :: ws) := by
  obtain ⟨g, hat, hg⟩ := h.atGuardRail w (-1)
  have hevent := p.onMatchedLogEventLocked_atGuardRail (stateEvent w (-1))
  rw [hat] at hevent
  have hkey : g.storageKey (stateEvent w (-1)) = ⟨w, screenState (-1)⟩ := by
    unfold storageKey
    rw [hg.states]
    rfl
  have hhit : g.hitGuardRailLocked (stateEvent w (-1)).eventKey = false := by
    have hhard : g.mDimensionHardLimit = kDimensionKeySizeHardLimit := congrArg (·.mDimensionHardLimit) hg.metric
    have hreached : g.hasReachedGuardRailLimit = false := by
      have htracked := hg.tracked
      unfold trackedKeys at htracked
      unfold hasReachedGuardRailLimit
      rw [htracked, hhard]
      exact decide_eq_false (not_le.2 hlength)
    unfold hitGuardRailLocked
    rw [hreached]
    split
    · rfl
    · split <;> rfl
  have hrun : p.run (0, .matchedLogEvent (stateEvent w (-1))) = g.accumulate (stateEvent w (-1)) := by
    have hevent := hevent.2
    rw [hhit, if_neg Bool.false_ne_true] at hevent
    exact hevent
  rw [hrun]
  have honly := g.accumulate_dataOnly (stateEvent w (-1))
  obtain ⟨-, hsliced, -⟩ := g.accumulate_data (stateEvent w (-1))
  have hnew : ¬ g.HasKey (g.storageKey (stateEvent w (-1))) := by
    rw [hkey, hg.keys]
    exact fun hmem => hw hmem.1
  classical
  refine ⟨?_, ⟨?_, ?_, ?_, ?_⟩, fun w' => ?_, fun w' s => ?_, ?_⟩
  · exact (honly.congr (·.toValueMetric) fun _ _ _ _ _ => rfl).trans hg.metric
  · exact (honly.congr (·.mIsActive) fun _ _ _ _ _ => rfl).trans hg.ready.1
  · exact (honly.congr (·.mCondition) fun _ _ _ _ _ => rfl).trans hg.ready.2.1
  · exact (honly.congr (·.mCurrentBucketStartTimeNs) fun _ _ _ _ _ => rfl).trans hg.ready.2.2.1
  · exact (honly.congr (·.mCurrentBucketNum) fun _ _ _ _ _ => rfl).trans hg.ready.2.2.2
  · rcases g.stateKeyOf_accumulate (stateEvent w (-1)) w' with ⟨hsame, -⟩ | ⟨-, hstate⟩
    · rw [hsame, hg.states]
    · exact hstate
  · unfold HasKey
    rw [hsliced, UMap.lookup_insert']
    have hstored : (⟨(stateEvent w (-1)).eventKey.mDimensionKeyInWhat, g.stateKeyOf (stateEvent w (-1)).eventKey.mDimensionKeyInWhat⟩ :
      MetricDimensionKey) = ⟨w, screenState (-1)⟩ := hkey
    rw [hstored, List.mem_cons]
    split
    · rename_i heq
      cases heq
      simp
    · rename_i hne
      have hkeys := hg.keys w' s
      unfold HasKey at hkeys
      rw [hkeys]
      constructor
      · exact fun hmem => ⟨.inr hmem.1, hmem.2⟩
      · rintro ⟨rfl | hmem, rfl⟩
        · exact absurd rfl hne
        · exact ⟨hmem, rfl⟩
  · rw [trackedKeys_accumulate, if_neg hnew, hg.tracked, List.length_cons]

theorem Filled.fillAll (h : p.Filled ws)
    (new : List HashableDimensionKey) (hnodup : new.Nodup) (hnew : ∀ w ∈ new, w ∉ ws)
    (hlength : ws.length + new.length ≤ kDimensionKeySizeHardLimit) :
    ∃ ws', ws'.length = ws.length + new.length ∧ (∀ w, w ∈ ws' ↔ w ∈ ws ∨ w ∈ new) ∧
      Filled ((new.map fun w => ((0 : Int), Call.matchedLogEvent (stateEvent w (-1)))).foldl run p) ws' := by
  induction new generalizing p ws with
  | nil => exact ⟨ws, rfl, fun w => by simp, h⟩
  | cons w new ih =>
    obtain ⟨hw, hrest⟩ := List.nodup_cons.1 hnodup
    rw [List.length_cons] at hlength
    have hfilled := h.fill (hnew w List.mem_cons_self) (by omega)
    obtain ⟨ws', hlen, hmem, hall⟩ := ih hfilled hrest (fun w' hw' hin => by
      rcases List.mem_cons.1 hin with rfl | hin
      · exact hw hw'
      · exact hnew w' (List.mem_cons_of_mem w hw') hin) (by rw [List.length_cons]; omega)
    refine ⟨ws', ?_, fun w' => ?_, hall⟩
    · rw [hlen, List.length_cons, List.length_cons]
      omega
    · rw [hmem, List.mem_cons, List.mem_cons]
      tauto

theorem Filled.cond (h : p.Filled ws)
    (hlength : ws.length < kDimensionKeySizeHardLimit) (w : HashableDimensionKey) (state : Int) :
    p.EventCond (stateEvent w state) := by
  intro g hg hreached
  obtain ⟨g', hat, hfilled⟩ := h.atGuardRail w state
  rw [hat] at hg
  cases hg
  have hlimit : g.mDimensionHardLimit = kDimensionKeySizeHardLimit := congrArg (·.mDimensionHardLimit) hfilled.metric
  have hle : g.mDimensionHardLimit ≤ g.trackedKeys := of_decide_eq_true hreached
  rw [hlimit, hfilled.tracked] at hle
  exact absurd hlength (not_lt.2 hle)

end ValueMetricProducer

/-- Two events of one dimension, the second in another state. -/
theorem guardrail_kept_two : GuardRailKept (.new screenMetric 0 .kTrue true)
    [(0, .matchedLogEvent (stateEvent [] (-1))), (0, .matchedLogEvent (stateEvent [] 2))] := by
  refine (guardrail_kept_iff (by decide) 0 .kTrue true _).2 ⟨fun q es h => ?_, fun q es h => ?_, trivial⟩
  · cases h
    exact ⟨Filled.new.cond (by decide) [] (-1), trivial⟩
  · cases h
    exact ⟨(Filled.new.fill List.not_mem_nil (by decide)).cond (by decide) [] 2, trivial⟩

/-- Each dimension of an unknown state comes once until the limit is reached, then the first of them in a new state: its key
is not tracked, and the event is dropped although the key that it would be aggregated under is tracked. -/
theorem new_state_dropped :
    ¬ ∀ (metric : ValueMetric), (metric.mDimensionSoftLimit, metric.mDimensionHardLimit) ∈ dimensionLimits →
      ∀ (startTimeNs : Int) (initialCondition : ConditionState) (isActive : Bool) (es : List (Int × Call Int)),
        GuardRailKept (new metric startTimeNs initialCondition isActive) es := by
  intro h
  obtain ⟨keys, hnodup, hkeys, first, hfirst⟩ : ∃ keys : List HashableDimensionKey,
      keys.Nodup ∧ keys.length = kDimensionKeySizeHardLimit ∧ ∃ first, first ∈ keys := by
    have hinj : Function.Injective fun i : Nat => ([(Field.ofPos 10 (fun _ => 1) 0, .INT i)] : HashableDimensionKey) := by
      intro i j hij
      simpa using hij
    have hzero : 0 ∈ List.range kDimensionKeySizeHardLimit := List.mem_range.2 (Nat.zero_lt_succ _)
    exact ⟨_, List.nodup_range.map hinj, by rw [List.length_map, List.length_range], _, List.mem_map_of_mem hzero⟩
  obtain ⟨ws, hlength, hmem, hfilled⟩ := Filled.new.fillAll keys hnodup (fun w _ => List.not_mem_nil) (by rw [hkeys]; rfl)
  rw [hkeys, List.length_nil, Nat.zero_add] at hlength
  have hkept := (h screenMetric (by decide) 0 .kTrue true (keys.map (fun w => ((0 : Int), Call.matchedLogEvent (stateEvent w (-1)))) ++
    [(0, .matchedLogEvent (stateEvent first 2))])).2
  obtain ⟨hfine, -⟩ := (RunOk.append_iff.1 hkept).2
  obtain ⟨g, hat, hg⟩ := hfilled.atGuardRail first 2
  have hstored : g.HasKey (g.storageKey (stateEvent first 2)) := by
    unfold storageKey
    rw [hg.states]
    exact (hg.keys _ _).2 ⟨(hmem _).2 (.inr hfirst), rfl⟩
  have hhit := (hfine _ _ rfl).1.2 g hat hstored
  have hwithin : g.WithinLimits := by
    refine ⟨?_, ?_⟩
    · rw [hg.metric]
      decide
    · rw [hg.tracked, hg.metric, hlength]
      exact le_refl _
  have hreached : g.hasReachedGuardRailLimit = true := by
    have htracked := hg.tracked
    unfold trackedKeys at htracked
    unfold hasReachedGuardRailLimit
    rw [htracked, hg.metric, hlength]
    exact decide_eq_true (le_refl _)
  have hnot : ¬ g.HasKey (stateEvent first 2).eventKey := fun htracks => by
    have hstate := ((hg.keys _ _).1 htracks).2
    exact absurd hstate (by decide)
  rw [(hwithin.hit_iff _).2 ⟨hnot, hreached⟩] at hhit
  cases hhit

end Statsd.Metrics
