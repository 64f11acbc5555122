/-
The bucket arithmetic of duration metrics as the machine does it. Times and bucket numbers are `int64_t`, but a count of buckets is an
`int`: in the producer (metrics/DurationMetricProducer.cpp) and, with copies of the same arithmetic, in both kinds of trackers
(metrics/duration_helper).

The rounding is a parameter. Without any the functions below are those of DurationMetricProducer.lean and of the trackers. Only what moves a
bucket is rounded: the durations and the buckets that are reported are exact integers, as before. Each sum or product is rounded once, at
its end, which on two's complement gives the same as rounding every step.

A call to the producer moves the buckets by its flushes alone.
-/
import Statsd.Metrics.TrackerCalls

namespace Statsd.Metrics

/-- How the results of the arithmetic are stored. -/
structure Arithmetic where
  toInt64 : Int → Int
  toInt : Int → Int
  toInt64_toInt64 : ∀ x, toInt64 (toInt64 x) = toInt64 x
  toInt64_zero : toInt64 0 = 0
  /-- An `int` moves a stored number, unless it is 0. -/
  toInt_eq_zero : ∀ x n, toInt64 x = x → toInt64 (x + toInt n) = x → toInt n = 0

namespace Arithmetic

/-- Integers without a bound. -/
def exact : Arithmetic where
  toInt64 := id
  toInt := id
  toInt64_toInt64 _ := rfl
  toInt64_zero := rfl
  toInt_eq_zero x n _ h := by
    simp only [id] at h ⊢
    omega

/-- Two's complement. -/
def machine : Arithmetic where
  toInt64 x := x.bmod (2 ^ 64)
  toInt x := x.bmod (2 ^ 32)
  toInt64_toInt64 _ := Int.bmod_bmod
  toInt64_zero := rfl
  toInt_eq_zero x n hx h := by
    simp only [Int.bmod_def] at hx h ⊢
    omega

end Arithmetic

/-! ## Trackers -/

/-- A tracker whose bucket is moved with the arithmetic `a`. -/
def Rounded (_ : Arithmetic) (T : Type) : Type := T

/-- `flushCurrentBucket` with the arithmetic `a`. -/
def OringDurationTracker.flushCurrentBucketIn (a : Arithmetic) (t : OringDurationTracker) (eventTimeNs : Int) (output : PastBuckets) :
    OringDurationTracker × PastBuckets × Bool :=
  let fullBucketEnd := a.toInt64 t.getCurrentBucketEndTimeNs
  let numBucketsForward :=
    if eventTimeNs ≥ fullBucketEnd then a.toInt (1 + (a.toInt64 (eventTimeNs - fullBucketEnd)).tdiv t.mBucketSizeNs) else 0
  -- before the end of the bucket this must be a partial bucket
  let currentBucketEndTimeNs := if eventTimeNs ≥ fullBucketEnd then fullBucketEnd else eventTimeNs
  let t := if t.mStarted.entries.isEmpty then t else t.recordDuration currentBucketEndTimeNs
  let s := t.mStateKeyDurationMap.keys.foldl (flushStateKey eventTimeNs fullBucketEnd currentBucketEndTimeNs) (t, output)
  let s :=
    if s.1.mStarted.entries.isEmpty then
      if numBucketsForward ≥ 2 then
        (s.1.call (.addPastBucket s.1.mEventKey 0 (s.1.mCurrentBucketNum + numBucketsForward - 1)), s.2)
      else s
    else (List.range' 1 (numBucketsForward - 1).toNat).foldl (fillBucket fullBucketEnd) s
  let start :=
    if numBucketsForward > 0 then a.toInt64 (fullBucketEnd + a.toInt (numBucketsForward - 1) * s.1.mBucketSizeNs) else eventTimeNs
  let num := if numBucketsForward > 0 then a.toInt64 (s.1.mCurrentBucketNum + numBucketsForward) else s.1.mCurrentBucketNum
  ({ s.1 with mCurrentBucketStartTimeNs := start, mCurrentBucketNum := num, mLastStartTime := start }, s.2,
    s.1.mStarted.entries.isEmpty && s.1.mPaused.entries.isEmpty)

/-- `flushCurrentBucket` with the arithmetic `a`. -/
def MaxDurationTracker.flushCurrentBucketIn (a : Arithmetic) (t : MaxDurationTracker) (eventTimeNs : Int) (output : PastBuckets) :
    MaxDurationTracker × PastBuckets × Bool :=
  let fullBucketEnd := a.toInt64 t.getCurrentBucketEndTimeNs
  let numBucketsForward :=
    if eventTimeNs ≥ fullBucketEnd then a.toInt (1 + (a.toInt64 (eventTimeNs - fullBucketEnd)).tdiv t.mBucketSizeNs) else 0
  -- before the end of the bucket this must be a partial bucket
  let currentBucketEndTimeNs := if eventTimeNs ≥ fullBucketEnd then fullBucketEnd else eventTimeNs
  let pending := t.mInfos.filterVal fun duration => decide (duration.state ≠ .kStopped)
  let output :=
    if t.mDuration ≠ 0 then UMap.push output t.mEventKey ⟨t.mCurrentBucketStartTimeNs, currentBucketEndTimeNs, t.mDuration⟩
    else output
  let t := if numBucketsForward > 0 then
      { t with mCurrentBucketStartTimeNs := a.toInt64 (fullBucketEnd + a.toInt (numBucketsForward - 1) * t.mBucketSizeNs)
               mCurrentBucketNum := a.toInt64 (t.mCurrentBucketNum + numBucketsForward) }
    else { t with mCurrentBucketStartTimeNs := eventTimeNs }
  ({ t with mInfos := pending, mDuration := 0 }, output, pending.entries.isEmpty)

instance (a : Arithmetic) : DurationTracker (Rounded a OringDurationTracker) where
  new := OringDurationTracker.new
  noteStart := OringDurationTracker.noteStart
  noteStop := OringDurationTracker.noteStop
  noteStopAll := OringDurationTracker.noteStopAll
  onSlicedConditionMayChange := OringDurationTracker.onSlicedConditionMayChange
  onConditionChanged := OringDurationTracker.onConditionChanged
  onStateChanged := OringDurationTracker.onStateChanged
  flushCurrentBucket := OringDurationTracker.flushCurrentBucketIn a

instance (a : Arithmetic) : DurationTracker (Rounded a MaxDurationTracker) where
  new := MaxDurationTracker.new
  noteStart := MaxDurationTracker.noteStart
  noteStop := MaxDurationTracker.noteStop
  noteStopAll := MaxDurationTracker.noteStopAll
  onSlicedConditionMayChange := MaxDurationTracker.onSlicedConditionMayChange
  onConditionChanged := MaxDurationTracker.onConditionChanged
  onStateChanged := fun tracker _ _ _ => tracker
  flushCurrentBucket := MaxDurationTracker.flushCurrentBucketIn a

/-! ## The producer -/

namespace Arithmetic

variable {T : Type} [DurationTracker T]

open DurationTracker DurationMetricProducer

section

variable (a : Arithmetic)

def flushIfNeededLocked (p : DurationMetricProducer T) (eventTimeNs : Int) : DurationMetricProducer T :=
  let currentBucketEndTimeNs := a.toInt64 p.getCurrentBucketEndTimeNs
  if currentBucketEndTimeNs > eventTimeNs then p
  else
    let numBucketsForward := a.toInt (1 + (a.toInt64 (eventTimeNs - currentBucketEndTimeNs)).tdiv p.mBucketSizeNs)
    let nextBucketNs := a.toInt64 (currentBucketEndTimeNs + a.toInt (numBucketsForward - 1) * p.mBucketSizeNs)
    let p := p.flushCurrentBucketLocked eventTimeNs nextBucketNs
    { p with mCurrentBucketNum := a.toInt64 (p.mCurrentBucketNum + numBucketsForward) }

/-- `MetricProducer::flushLocked`. -/
def flushLocked (p : DurationMetricProducer T) (eventTimeNs : Int) : DurationMetricProducer T :=
  (a.flushIfNeededLocked p eventTimeNs).flushCurrentBucketLocked eventTimeNs eventTimeNs

/-- The constructor, before `initTrueDimensions`. -/
def new (metric : DurationMetric) (activations : EventActivations) (initialCondition : ConditionState)
    (equalOutputDimensions : List Matcher → Bool) (startTimeNs : Int) : DurationMetricProducer T :=
  let p : DurationMetricProducer T :=
    { metric with
      activation := .new activations
      mCondition := initialCondition
      mHasLinksToAllConditionDimensionsInTracker := metric.hasLinksToAllConditionDimensions equalOutputDimensions
      mUnSlicedPartCondition := .kUnknown
      mCurrentBucketStartTimeNs := metric.mTimeBaseNs
      mCurrentBucketNum := 0
      mCurrentSlicedDurationTrackerMap := ∅
      mPastBuckets := ∅ }
  { a.flushIfNeededLocked p startTimeNs with mCurrentBucketStartTimeNs := startTimeNs }

def handleMatchedLogEventValuesLocked (p : DurationMetricProducer T) (matcherIndex : Int) (event : MatchedEvent) :
    DurationMetricProducer T :=
  let eventTimeNs := event.elapsedTimestampNs
  if eventTimeNs < p.mTimeBaseNs then p
  else
    let p := if p.mIsActive then a.flushIfNeededLocked p eventTimeNs else p
    if matcherIndex = p.mStopAllIndex then p.mapTrackers fun _ tracker => noteStopAll tracker eventTimeNs
    else if matcherIndex = p.mStopIndex then p.handleStopEvent event
    else
      p.handleStartEvent (p.metricKey event) (if p.mConditionSliced then p.conditionKey event else ∅) (p.startCondition event)
        eventTimeNs event.values

def onSlicedConditionMayChangeLocked (p : DurationMetricProducer T) (wizard : ConditionWizard) (eventTime : Int) :
    DurationMetricProducer T :=
  if !p.mIsActive then p
  else
    let p := a.flushIfNeededLocked p eventTime
    if !p.mConditionSliced then p else p.onSlicedConditionMayChangeInternalLocked wizard eventTime

def onConditionChangedLocked (p : DurationMetricProducer T) (conditionMet : Bool) (eventTime : Int) : DurationMetricProducer T :=
  let p := { p with mCondition := .ofBool conditionMet }
  if !p.mIsActive then p
  else (a.flushIfNeededLocked p eventTime).mapTrackers fun _ tracker => onConditionChanged tracker conditionMet eventTime

def onActiveStateChangedLocked (p : DurationMetricProducer T) (wizard : ConditionWizard) (eventTimeNs : Int) :
    DurationMetricProducer T :=
  -- `MetricProducer::onActiveStateChangedLocked`
  let p := if !p.mIsActive then a.flushLocked p eventTimeNs else p
  if !p.mConditionSliced then
    if p.mCondition ≠ .kTrue then p
    else
      let p := if p.mIsActive then a.flushIfNeededLocked p eventTimeNs else p
      p.mapTrackers fun _ tracker => onConditionChanged tracker p.mIsActive eventTimeNs
  else if p.mIsActive then (a.flushIfNeededLocked p eventTimeNs).onSlicedConditionMayChangeInternalLocked wizard eventTimeNs
  else p.mapTrackers fun _ tracker => onConditionChanged tracker p.mIsActive eventTimeNs

def flushIfExpire (p : DurationMetricProducer T) (wizard : ConditionWizard) (elapsedTimestampNs : Int) :
    DurationMetricProducer T :=
  if !p.mIsActive then p
  else
    let p := { p with activation := p.activation.flushIfExpire elapsedTimestampNs }
    if !p.mIsActive then a.onActiveStateChangedLocked p wizard elapsedTimestampNs else p

def activateLocked (p : DurationMetricProducer T) (wizard : ConditionWizard) (activationTrackerIndex : Nat)
    (elapsedTimestampNs : Int) : DurationMetricProducer T :=
  let oldActiveState := p.mIsActive
  let p := { p with activation := p.activation.activateLocked activationTrackerIndex elapsedTimestampNs }
  if !oldActiveState && p.mIsActive then a.onActiveStateChangedLocked p wizard elapsedTimestampNs else p

def onStateChanged (p : DurationMetricProducer T) (eventTimeNs atomId : Int) (primaryKey : HashableDimensionKey)
    (newState : Field × Value) : DurationMetricProducer T :=
  let newStateCopy := p.mapStateValue atomId newState
  (a.flushIfNeededLocked p eventTimeNs).mapTrackers fun whatKey tracker =>
    if containsLinkedStateValues whatKey primaryKey p.mMetric2StateLinks atomId then
      DurationTracker.onStateChanged tracker eventTimeNs atomId newStateCopy.2
    else tracker

/-- The part of `onDumpReportLocked` that changes the producer. -/
def onDumpReportLocked (p : DurationMetricProducer T) (dumpTimeNs : Int) (include_current_partial_bucket erase_data : Bool) :
    DurationMetricProducer T :=
  let p := if include_current_partial_bucket then a.flushLocked p dumpTimeNs else a.flushIfNeededLocked p dumpTimeNs
  if erase_data then { p with mPastBuckets := ∅ } else p

def notifyAppUpgrade (p : DurationMetricProducer T) (eventTimeNs : Int) : DurationMetricProducer T := a.flushLocked p eventTimeNs

def call (p : DurationMetricProducer T) (t : Int) : Call → DurationMetricProducer T
  | .matchedLogEvent matcherIndex values outside => a.handleMatchedLogEventValuesLocked p matcherIndex ⟨t, values, outside⟩
  | .conditionChanged conditionMet => a.onConditionChangedLocked p conditionMet t
  | .slicedConditionMayChange wizard => a.onSlicedConditionMayChangeLocked p wizard t
  | .stateChanged atomId primaryKey newState => a.onStateChanged p t atomId primaryKey newState
  | .flushIfExpire wizard => a.flushIfExpire p wizard t
  | .activate wizard activationTrackerIndex => a.activateLocked p wizard activationTrackerIndex t
  | .cancelEventActivation deactivationTrackerIndex => p.cancelEventActivationLocked deactivationTrackerIndex
  | .appUpgrade => a.notifyAppUpgrade p t
  | .dumpReport include_current_partial_bucket erase_data => a.onDumpReportLocked p t include_current_partial_bucket erase_data

theorem flushLocked_mIsActive (p : DurationMetricProducer T) (t : Int) : (a.flushLocked p t).mIsActive = p.mIsActive := by
  have hflush : ∀ next, (p.flushCurrentBucketLocked t next).activation = p.activation := fun next =>
    (p.flushCurrentBucketLocked_spec t next).1.activation
  have hneeded : (a.flushIfNeededLocked p t).activation = p.activation := by
    unfold flushIfNeededLocked
    dsimp only
    split
    · rfl
    · simp only [hflush]
  unfold mIsActive flushLocked
  rw [((a.flushIfNeededLocked p t).flushCurrentBucketLocked_spec t t).1.activation, hneeded]

end

/-! ## Without rounding -/

theorem exact_new (metric : DurationMetric) (activations : EventActivations) (initialCondition : ConditionState)
    (equalOutputDimensions : List Matcher → Bool) (startTimeNs : Int) :
    exact.new metric activations initialCondition equalOutputDimensions startTimeNs =
      (DurationMetricProducer.new metric activations initialCondition equalOutputDimensions startTimeNs :
        DurationMetricProducer T) := rfl

theorem exact_call (p : DurationMetricProducer T) (t : Int) (c : Call) : exact.call p t c = p.call t c := by
  cases c <;> rfl

theorem exact_oring : (inferInstance : DurationTracker (Rounded exact OringDurationTracker)) =
    (inferInstance : DurationTracker OringDurationTracker) := rfl

theorem exact_max : (inferInstance : DurationTracker (Rounded exact MaxDurationTracker)) =
    (inferInstance : DurationTracker MaxDurationTracker) := rfl

end Arithmetic

/-! ## What a call leaves of the buckets -/

/-- The flushes of a call. -/
inductive FlushKind where
  | nothing | ifNeeded | forced

def Arithmetic.flush {T : Type} [DurationTracker T] (a : Arithmetic) (p : DurationMetricProducer T) (t : Int) :
    FlushKind → DurationMetricProducer T
  | .nothing => p
  | .ifNeeded => a.flushIfNeededLocked p t
  | .forced => a.flushLocked p t

namespace DurationMetricProducer

open DurationTracker

section

variable {T : Type} [DurationTracker T]

/-- The flushes of a call. -/
def flushKind (p : DurationMetricProducer T) (t : Int) : Call → FlushKind
  | .matchedLogEvent _ _ _ => if t < p.mTimeBaseNs then .nothing else if p.mIsActive then .ifNeeded else .nothing
  | .conditionChanged _ | .slicedConditionMayChange _ => if p.mIsActive then .ifNeeded else .nothing
  | .stateChanged _ _ _ => .ifNeeded
  | .flushIfExpire _ => if p.mIsActive && !(p.activation.flushIfExpire t).mIsActive then .forced else .nothing
  | .activate _ activationTrackerIndex =>
    if !p.mIsActive && (p.activation.activateLocked activationTrackerIndex t).mIsActive &&
        (p.mConditionSliced || decide (p.mCondition = .kTrue)) then .ifNeeded
    else .nothing
  | .cancelEventActivation _ => .nothing
  | .appUpgrade => .forced
  | .dumpReport include_current_partial_bucket _ => if include_current_partial_bucket then .forced else .ifNeeded

/-- The flushes when a metric has become active or inactive. -/
def activeStateFlushKind (p : DurationMetricProducer T) : FlushKind :=
  if !p.mIsActive then .forced
  else if p.mConditionSliced || decide (p.mCondition = .kTrue) then .ifNeeded
  else .nothing

end

variable {T C : Type} [DurationTracker T] (a : Arithmetic) {part : T → C} (hpart : Unmoved part) (p : DurationMetricProducer T)

include hpart

theorem follows_matchedLogEvent (matcherIndex : Int) (event : MatchedEvent) :
    Follows part (a.flush p event.elapsedTimestampNs
      (p.flushKind event.elapsedTimestampNs (.matchedLogEvent matcherIndex event.values event.outside)))
      (a.handleMatchedLogEventValuesLocked p matcherIndex event) := by
  unfold flushKind Arithmetic.handleMatchedLogEventValuesLocked
  dsimp only
  by_cases hbase : event.elapsedTimestampNs < p.mTimeBaseNs
  · rw [if_pos hbase, if_pos hbase]
    exact .refl p
  rw [if_neg hbase, if_neg hbase]
  have hevent : ∀ q : DurationMetricProducer T, Follows part q
      (if matcherIndex = q.mStopAllIndex then q.mapTrackers fun _ tracker => noteStopAll tracker event.elapsedTimestampNs
      else if matcherIndex = q.mStopIndex then q.handleStopEvent event
      else q.handleStartEvent (q.metricKey event) (if q.mConditionSliced then q.conditionKey event else ∅) (q.startCondition event)
        event.elapsedTimestampNs event.values) := by
    intro q
    split
    · apply Follows.noteStopAll hpart
    split
    · apply Follows.handleStopEvent hpart
    · apply Follows.handleStartEvent hpart
  cases p.mIsActive with
  | true => exact hevent _
  | false => exact hevent _

theorem follows_activeStateChanged (wizard : ConditionWizard) (t : Int) :
    Follows part (a.flush p t p.activeStateFlushKind) (a.onActiveStateChangedLocked p wizard t) := by
  unfold activeStateFlushKind Arithmetic.onActiveStateChangedLocked
  cases hactive : p.mIsActive with
  | false =>
    simp only [Bool.not_false, if_true]
    have hactive' : (a.flushLocked p t).mIsActive = false := (a.flushLocked_mIsActive p t).trans hactive
    unfold Arithmetic.flush
    generalize a.flushLocked p t = q at hactive'
    rw [hactive']
    simp only [Bool.false_eq_true, if_false]
    split
    · split
      · exact .refl q
      · apply Follows.onConditionChanged hpart
    · apply Follows.onConditionChanged hpart
  | true =>
    simp only [Bool.not_true, Bool.false_eq_true, if_false, hactive, if_true]
    by_cases hsliced : p.mConditionSliced = true
    · simp only [hsliced, Bool.not_true, Bool.true_or, Bool.false_eq_true, if_false, if_true]
      apply Follows.onSlicedConditionMayChangeInternalLocked hpart
    · by_cases hcondition : p.mCondition = .kTrue
      · simp only [hsliced, hcondition, Bool.not_false, ne_eq, not_true_eq_false, decide_true, Bool.or_true, if_true, if_false]
        apply Follows.onConditionChanged hpart
      · simp only [hsliced, hcondition, Bool.not_false, ne_eq, not_false_eq_true, decide_false, Bool.or_false, if_true,
          Bool.false_eq_true, if_false]
        exact .refl p

theorem follows_flushIfExpire (wizard : ConditionWizard) (t : Int) : ∃ activation,
    Follows part (a.flush { p with activation := activation } t (p.flushKind t (.flushIfExpire wizard))) (a.flushIfExpire p wizard t) := by
  unfold flushKind Arithmetic.flushIfExpire
  dsimp only
  cases p.mIsActive with
  | false => exact ⟨p.activation, .refl p⟩
  | true =>
    refine ⟨p.activation.flushIfExpire t, ?_⟩
    have hexpired := follows_activeStateChanged a hpart { p with activation := p.activation.flushIfExpire t } wizard t
    unfold activeStateFlushKind at hexpired
    unfold mIsActive at hexpired ⊢
    cases hactive : (p.activation.flushIfExpire t).mIsActive with
    | false => simpa [hactive] using hexpired
    | true => exact .same rfl rfl rfl rfl

theorem follows_activate (wizard : ConditionWizard) (activationTrackerIndex : Nat) (t : Int) : ∃ activation,
    Follows part (a.flush { p with activation := activation } t (p.flushKind t (.activate wizard activationTrackerIndex)))
      (a.activateLocked p wizard activationTrackerIndex t) := by
  refine ⟨p.activation.activateLocked activationTrackerIndex t, ?_⟩
  unfold flushKind Arithmetic.activateLocked
  dsimp only
  cases p.mIsActive with
  | true => exact .same rfl rfl rfl rfl
  | false =>
    have hactivated := follows_activeStateChanged a hpart
      { p with activation := p.activation.activateLocked activationTrackerIndex t } wizard t
    unfold activeStateFlushKind at hactivated
    unfold mIsActive at hactivated ⊢
    cases hactive : (p.activation.activateLocked activationTrackerIndex t).mIsActive with
    | false => exact .same rfl rfl rfl rfl
    | true => simpa [hactive] using hactivated

/-- A call is its flushes, once the activation or the condition has changed, and nothing else that moves a bucket. -/
theorem follows_call (t : Int) (c : Call) : ∃ activation mCondition,
    Follows part (a.flush { p with activation := activation, mCondition := mCondition } t (p.flushKind t c)) (a.call p t c) := by
  cases c with
  | matchedLogEvent matcherIndex values outside =>
    exact ⟨p.activation, p.mCondition, follows_matchedLogEvent a hpart p matcherIndex ⟨t, values, outside⟩⟩
  | conditionChanged conditionMet =>
    refine ⟨p.activation, .ofBool conditionMet, ?_⟩
    unfold Arithmetic.call Arithmetic.onConditionChangedLocked flushKind mIsActive
    dsimp only
    cases p.activation.mIsActive with
    | false => exact .same rfl rfl rfl rfl
    | true => exact Follows.onConditionChanged hpart ..
  | slicedConditionMayChange wizard =>
    refine ⟨p.activation, p.mCondition, ?_⟩
    unfold Arithmetic.call Arithmetic.onSlicedConditionMayChangeLocked flushKind
    dsimp only
    cases p.mIsActive with
    | false => exact .refl p
    | true =>
      simp only [Bool.not_true, Bool.false_eq_true, if_false, if_true]
      split
      · exact .refl _
      · apply Follows.onSlicedConditionMayChangeInternalLocked hpart
  | stateChanged atomId primaryKey newState => exact ⟨p.activation, p.mCondition, Follows.onStateChanged hpart ..⟩
  | flushIfExpire wizard =>
    obtain ⟨activation, h⟩ := follows_flushIfExpire a hpart p wizard t
    exact ⟨activation, p.mCondition, h⟩
  | activate wizard activationTrackerIndex =>
    obtain ⟨activation, h⟩ := follows_activate a hpart p wizard activationTrackerIndex t
    exact ⟨activation, p.mCondition, h⟩
  | cancelEventActivation deactivationTrackerIndex => exact ⟨p.activation, p.mCondition, .same rfl rfl rfl rfl⟩
  | appUpgrade => exact ⟨p.activation, p.mCondition, .refl _⟩
  | dumpReport include_current_partial_bucket erase_data =>
    refine ⟨p.activation, p.mCondition, ?_⟩
    have herase : ∀ q : DurationMetricProducer T, Follows part q (if erase_data then { q with mPastBuckets := ∅ } else q) := by
      intro q
      cases erase_data with
      | true => exact .same rfl rfl rfl rfl
      | false => exact .refl q
    cases include_current_partial_bucket with
    | true => exact herase _
    | false => exact herase _

end DurationMetricProducer

end Statsd.Metrics
