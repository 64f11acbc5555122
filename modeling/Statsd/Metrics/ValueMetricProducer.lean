/-
Value metrics (metrics/ValueMetricProducer.{h,cpp} over metrics/MetricProducer.{h,cpp}, with the
stopwatch of condition/ConditionTimer.h). A producer aggregates the values of matched or pulled events
in the current bucket. Buckets end with the metric's grid, or early at a forced split; a bucket that is
closed goes to the past buckets, or to the skipped ones when it is invalid, too small or empty, and the
time between its end and the start of the next bucket is recorded as skipped too.

Values are of any type with the arithmetic the producer uses, since the sources mix integers and
doubles; integers, with truncated averages, are one instance. What comes from outside is part of the call: the matched event
with its dimension key, condition and values, and the outcome of a pull. Times are exact integers.
-/
import Mathlib
import Statsd.Base.UMap
import Statsd.StatsLogUtil
import Statsd.Metrics.OringDurationTracker

namespace Statsd.Metrics

/-! ## The stopwatch -/

structure ConditionTimer where
  mTimerNs : Int
  mLastConditionTrueTimestampNs : Int
  mCondition : Bool

namespace ConditionTimer

def new (initCondition : Bool) (bucketStartNs : Int) : ConditionTimer :=
  ⟨0, if initCondition then bucketStartNs else 0, initCondition⟩

/-- `newBucketStart`: the timer of the next bucket, and the time in the closed one. -/
def newBucketStart (t : ConditionTimer) (nextBucketStartNs : Int) : ConditionTimer × Int :=
  if t.mCondition then
    (⟨0, nextBucketStartNs, true⟩, t.mTimerNs + (nextBucketStartNs - t.mLastConditionTrueTimestampNs))
  else ({ t with mTimerNs := 0 }, t.mTimerNs)

def onConditionChanged (t : ConditionTimer) (newCondition : Bool) (timestampNs : Int) : ConditionTimer :=
  if newCondition = t.mCondition then t
  else if newCondition then { t with mCondition := true, mLastConditionTrueTimestampNs := timestampNs }
  else { t with mCondition := false, mTimerNs := t.mTimerNs + (timestampNs - t.mLastConditionTrueTimestampNs) }

end ConditionTimer

/-! ## The data -/

/-- The arithmetic of `Value` that value metrics use. -/
class MetricValue (V : Type) where
  /-- The zero of a value's own type. -/
  zero : V → V
  /-- A default-constructed value. -/
  unknown : V
  isZero : V → Bool
  ge : V → V → Bool
  sub : V → V → V
  add : V → V → V
  min : V → V → V
  max : V → V → V
  /-- A sum over a sample size, as a double. -/
  average : V → Int → V
  /-- `long_value`. -/
  toLong : V → Int

instance : MetricValue Int where
  zero _ := 0
  unknown := 0
  isZero v := decide (v = 0)
  ge a b := decide (a ≥ b)
  sub a b := a - b
  add a b := a + b
  min a b := if a < b then a else b
  max a b := if a < b then b else a
  average v n := v.tdiv n
  toLong v := v

inductive BucketDropReason where
  | DUMP_REPORT_REQUESTED | EVENT_IN_WRONG_BUCKET | CONDITION_UNKNOWN | PULL_FAILED | PULL_DELAYED
  | DIMENSION_GUARDRAIL_REACHED | MULTIPLE_BUCKETS_SKIPPED | BUCKET_TOO_SMALL | NO_DATA
deriving DecidableEq

structure DropEvent where
  reason : BucketDropReason
  dropTimeNs : Int

structure SkippedBucket where
  bucketStartTimeNs : Int
  bucketEndTimeNs : Int
  dropEvents : List DropEvent

structure ValueBucket (V : Type) where
  mBucketStartNs : Int
  mBucketEndNs : Int
  valueIndex : List Nat
  values : List V
  mConditionTrueNs : Int

/-- The state of an aggregation in the current bucket; there is a value when `hasValue` is set. -/
structure Interval (V : Type) where
  valueIndex : Nat := 0
  value : Option V := none
  sampleSize : Int := 0
  seenNewData : Bool := false

/-- The base of a dimension for diffs, when it has one, and the last seen state values. -/
structure BaseInfo (V : Type) where
  base : Option V := none
  currentState : Option HashableDimensionKey := none

inductive AggregationType where
  | SUM | MIN | MAX | AVG
deriving DecidableEq

inductive ValueDirection where
  | UNKNOWN | INCREASING | DECREASING | ANY
deriving DecidableEq

inductive DumpLatency where
  | FAST | NO_TIME_CONSTRAINTS
deriving DecidableEq

/-- The constants of a producer. -/
structure ValueMetric where
  mTimeBaseNs : Int
  mBucketSizeNs : Int
  mIsPulled : Bool
  mMinBucketSizeNs : Int
  mDimensionSoftLimit : Nat
  mDimensionHardLimit : Nat
  mUseAbsoluteValueOnReset : Bool
  mAggregationType : AggregationType
  mUseDiff : Bool
  mValueDirection : ValueDirection
  mSkipZeroDiffOutput : Bool
  mUseZeroDefaultBase : Bool
  mMaxPullDelayNs : Int
  mSplitBucketForAppUpgrade : Bool
  mConditionSliced : Bool
  /-- The number of field matchers. -/
  fieldCount : Nat
  /-- `getUnknownStateKey()`. -/
  unknownStateKey : HashableDimensionKey

structure ValueMetricProducer (V : Type) extends ValueMetric where
  mCurrentBucketStartTimeNs : Int
  mCurrentBucketNum : Int
  mCondition : ConditionState
  mIsActive : Bool
  mCurrentSlicedBucket : UMap MetricDimensionKey (List (Interval V))
  mCurrentBaseInfo : UMap HashableDimensionKey (List (BaseInfo V))
  mCurrentFullBucket : UMap MetricDimensionKey Int
  mPastBuckets : UMap MetricDimensionKey (List (ValueBucket V))
  mMatchedMetricDimensionKeys : Finset HashableDimensionKey
  mStateChangePrimaryKey : Int × HashableDimensionKey
  mHasGlobalBase : Bool
  mCurrentBucketIsSkipped : Bool
  /-- The drop events of `mCurrentSkippedBucket`. -/
  dropEvents : List DropEvent
  mSkippedBuckets : List SkippedBucket
  mConditionTimer : ConditionTimer
  anomalyCalls : List AnomalyCall

/-- An event that matched the metric's what: its key and state values, the state primary keys of its
links, the answer of the condition wizard, and the value of each field matcher. -/
structure ValueEvent (V : Type) where
  elapsedTimestampNs : Int
  eventKey : MetricDimensionKey
  slicedCondition : Bool
  statePrimaryKeys : UMap Int HashableDimensionKey
  values : List (Option V)

/-- The outcome of a pull: the events that match the metric's what, and the time when it was over. -/
structure Pull (V : Type) where
  success : Bool
  elapsedRealtimeNs : Int
  allData : List (ValueEvent V)

def kMaxLoggedBucketDropEvents : Nat := 10

namespace ValueMetricProducer

variable {V : Type} [MetricValue V]

/-! ## Buckets -/

def getCurrentBucketEndTimeNs (p : ValueMetricProducer V) : Int := p.mTimeBaseNs + (p.mCurrentBucketNum + 1) * p.mBucketSizeNs

def calcBucketsForwardCount (p : ValueMetricProducer V) (eventTimeNs : Int) : Int :=
  if eventTimeNs < p.getCurrentBucketEndTimeNs then 0
  else 1 + (eventTimeNs - p.getCurrentBucketEndTimeNs).tdiv p.mBucketSizeNs

/-- Only pulled metrics and diffed ones skip the buckets in between. -/
def multipleBucketsSkipped (p : ValueMetricProducer V) (numBucketsForward : Int) : Bool :=
  decide (numBucketsForward > 1) && (p.mIsPulled || p.mUseDiff)

def skipCurrentBucket (p : ValueMetricProducer V) (dropTimeNs : Int) (reason : BucketDropReason) : ValueMetricProducer V :=
  { p with
    dropEvents := if p.dropEvents.length ≥ kMaxLoggedBucketDropEvents then p.dropEvents
      else p.dropEvents ++ [⟨reason, dropTimeNs⟩]
    mCurrentBucketIsSkipped := true }

def invalidateCurrentBucketWithoutResetBase (p : ValueMetricProducer V) (dropTimeNs : Int) (reason : BucketDropReason) :
    ValueMetricProducer V :=
  p.skipCurrentBucket dropTimeNs reason

def resetBase (p : ValueMetricProducer V) : ValueMetricProducer V :=
  { p with
    mCurrentBaseInfo := p.mCurrentBaseInfo.mapVal fun slice => slice.map fun baseInfo => { baseInfo with base := none }
    mHasGlobalBase := false }

def invalidateCurrentBucket (p : ValueMetricProducer V) (dropTimeNs : Int) (reason : BucketDropReason) :
    ValueMetricProducer V :=
  (p.invalidateCurrentBucketWithoutResetBase dropTimeNs reason).resetBase

/-- The values of an interval in a bucket: none when it has no value or a zero diff to be left out. -/
def intervalOutput (p : ValueMetricProducer V) (interval : Interval V) : Option (Nat × V) :=
  match interval.value with
  | none => none
  | some value =>
    if p.mSkipZeroDiffOutput && p.mUseDiff && MetricValue.isZero value then none
    else some (interval.valueIndex,
      if p.mAggregationType ≠ .AVG then value else MetricValue.average value interval.sampleSize)

def buildPartialBucket (p : ValueMetricProducer V) (bucketEndTime : Int) (intervals : List (Interval V))
    (conditionTrueDuration : Int) : ValueBucket V :=
  let output := intervals.filterMap p.intervalOutput
  ⟨p.mCurrentBucketStartTimeNs, bucketEndTime, output.map (·.1), output.map (·.2), conditionTrueDuration⟩

/-- The loop over the slices of a bucket to be kept: the past buckets, and whether there was data. -/
def keepSlice (p : ValueMetricProducer V) (bucketEndTime conditionTrueDuration : Int)
    (s : UMap MetricDimensionKey (List (ValueBucket V)) × Bool)
    (slice : Sigma fun _ : MetricDimensionKey => List (Interval V)) :
    UMap MetricDimensionKey (List (ValueBucket V)) × Bool :=
  let bucket := p.buildPartialBucket bucketEndTime slice.2 conditionTrueDuration
  if bucket.valueIndex.length > 0 then (UMap.push s.1 slice.1 bucket, true) else s

/-- The first value of a slice. -/
def firstValue (slice : List (Interval V)) : Option Int := slice.head?.bind fun interval => interval.value.map MetricValue.toLong

def hitFullBucketGuardRailLocked (p : ValueMetricProducer V) (newKey : MetricDimensionKey) : Bool :=
  if (p.mCurrentFullBucket.lookup newKey).isSome then false
  else if p.mCurrentFullBucket.entries.length > p.mDimensionSoftLimit - 1 then
    decide (p.mCurrentFullBucket.entries.length + 1 > p.mDimensionHardLimit)
  else false

/-- One slice is added to the full bucket. -/
def addToFullBucket (p : ValueMetricProducer V) (slice : Sigma fun _ : MetricDimensionKey => List (Interval V)) :
    ValueMetricProducer V :=
  match firstValue slice.2 with
  | none => p
  | some v => { p with mCurrentFullBucket := p.mCurrentFullBucket.insert slice.1 (UMap.getD p.mCurrentFullBucket slice.1 0 + v) }

def appendToFullBucket (p : ValueMetricProducer V) (isFullBucketReached : Bool) : ValueMetricProducer V :=
  if p.mCurrentBucketIsSkipped then
    -- an invalid bucket is not added, and makes the full one invalid
    if isFullBucketReached then { p with mCurrentFullBucket := ∅ } else p
  else if isFullBucketReached then
    if p.mCurrentFullBucket.entries.length > 0 then
      let p := p.mCurrentSlicedBucket.entries.foldl
        (fun p slice => if p.hitFullBucketGuardRailLocked slice.1 then p else p.addToFullBucket slice) p
      { p with
        anomalyCalls := p.anomalyCalls ++ p.mCurrentFullBucket.entries.map fun slice =>
          .addPastBucket slice.1 slice.2 p.mCurrentBucketNum
        mCurrentFullBucket := ∅ }
    else
      { p with anomalyCalls := p.anomalyCalls ++ p.mCurrentSlicedBucket.entries.filterMap fun slice =>
          (firstValue slice.2).map fun v => .addPastBucket slice.1 v p.mCurrentBucketNum }
  else p.mCurrentSlicedBucket.entries.foldl addToFullBucket p

def initCurrentSlicedBucket (p : ValueMetricProducer V) (nextBucketStartTimeNs : Int) : ValueMetricProducer V :=
  { p with
    -- a slice without new data is obsolete
    mCurrentSlicedBucket := (p.mCurrentSlicedBucket.filterVal fun slice => slice.any (·.seenNewData)).mapVal fun slice =>
      slice.map fun interval => { interval with value := none, sampleSize := 0, seenNewData := false }
    mCurrentBucketIsSkipped := false
    dropEvents := []
    mCurrentBucketStartTimeNs := nextBucketStartTimeNs }

/-- The bucket that a flush closes: the producer with the bucket marked as the flush finds it, and the
time the bucket ends. -/
def markBucket (p : ValueMetricProducer V) (eventTimeNs nextBucketStartTimeNs : Int) : ValueMetricProducer V × Int :=
  let p := if p.mCondition = .kUnknown then p.invalidateCurrentBucketWithoutResetBase eventTimeNs .CONDITION_UNKNOWN else p
  if p.multipleBucketsSkipped (p.calcBucketsForwardCount eventTimeNs) then
    (p.invalidateCurrentBucketWithoutResetBase eventTimeNs .MULTIPLE_BUCKETS_SKIPPED, nextBucketStartTimeNs)
  else if eventTimeNs < p.getCurrentBucketEndTimeNs then (p, eventTimeNs)
  else (p, p.getCurrentBucketEndTimeNs)

/-- The current bucket is closed at `bucketEndTime`. -/
def closeBucket (p : ValueMetricProducer V) (eventTimeNs bucketEndTime : Int) : ValueMetricProducer V :=
  let (timer, conditionTrueDuration) := p.mConditionTimer.newBucketStart bucketEndTime
  let p := { p with mConditionTimer := timer }
  let p := if bucketEndTime - p.mCurrentBucketStartTimeNs ≥ p.mMinBucketSizeNs then p
    else p.skipCurrentBucket eventTimeNs .BUCKET_TOO_SMALL
  let p :=
    if p.mCurrentBucketIsSkipped then p
    else
      let (past, bucketHasData) := p.mCurrentSlicedBucket.entries.foldl (p.keepSlice bucketEndTime conditionTrueDuration)
        (p.mPastBuckets, false)
      let p := { p with mPastBuckets := past }
      if bucketHasData then p else p.skipCurrentBucket eventTimeNs .NO_DATA
  if p.mCurrentBucketIsSkipped then
    { p with mSkippedBuckets := p.mSkippedBuckets ++ [⟨p.mCurrentBucketStartTimeNs, bucketEndTime, p.dropEvents⟩] }
  else p

/-- The time between the end of the closed bucket and the next one is skipped. -/
def recordGap (p : ValueMetricProducer V) (eventTimeNs bucketEndTime nextBucketStartTimeNs : Int) : ValueMetricProducer V :=
  if bucketEndTime < nextBucketStartTimeNs then
    { p with mSkippedBuckets := p.mSkippedBuckets ++ [⟨bucketEndTime, nextBucketStartTimeNs, [⟨.NO_DATA, eventTimeNs⟩]⟩] }
  else p

def flushCurrentBucketLocked (p : ValueMetricProducer V) (eventTimeNs nextBucketStartTimeNs : Int) : ValueMetricProducer V :=
  let fullBucketEndTimeNs := p.getCurrentBucketEndTimeNs
  let numBucketsForward := p.calcBucketsForwardCount eventTimeNs
  let (p, bucketEndTime) := p.markBucket eventTimeNs nextBucketStartTimeNs
  let p := (p.closeBucket eventTimeNs bucketEndTime).recordGap eventTimeNs bucketEndTime nextBucketStartTimeNs
  let p := (p.appendToFullBucket (decide (eventTimeNs > fullBucketEndTimeNs))).initCurrentSlicedBucket nextBucketStartTimeNs
  { p with
    mConditionTimer := (p.mConditionTimer.newBucketStart nextBucketStartTimeNs).1
    mCurrentBucketNum := p.mCurrentBucketNum + numBucketsForward }

def flushIfNeededLocked (p : ValueMetricProducer V) (eventTimeNs : Int) : ValueMetricProducer V :=
  if eventTimeNs < p.getCurrentBucketEndTimeNs then p
  else
    p.flushCurrentBucketLocked eventTimeNs
      (p.getCurrentBucketEndTimeNs + (p.calcBucketsForwardCount eventTimeNs - 1) * p.mBucketSizeNs)

/-- `MetricProducer::flushLocked`. -/
def flushLocked (p : ValueMetricProducer V) (eventTimeNs : Int) : ValueMetricProducer V :=
  (p.flushIfNeededLocked eventTimeNs).flushCurrentBucketLocked eventTimeNs eventTimeNs

/-- The members as the constructor initialises them. -/
def initial (metric : ValueMetric) (initialCondition : ConditionState) (isActive : Bool) : ValueMetricProducer V :=
  { metric with
    mCurrentBucketStartTimeNs := metric.mTimeBaseNs
    mCurrentBucketNum := 0
    mCondition := initialCondition
    mIsActive := isActive
    mCurrentSlicedBucket := ∅
    mCurrentBaseInfo := ∅
    mCurrentFullBucket := ∅
    mPastBuckets := ∅
    mMatchedMetricDimensionKeys := ∅
    mStateChangePrimaryKey := (0, DEFAULT_DIMENSION_KEY)
    mHasGlobalBase := false
    mCurrentBucketIsSkipped := false
    dropEvents := []
    mSkippedBuckets := []
    mConditionTimer := .new false metric.mTimeBaseNs
    anomalyCalls := [] }

/-- The body of the constructor. -/
def startAt (p : ValueMetricProducer V) (startTimeNs : Int) : ValueMetricProducer V :=
  let p := { p with mCurrentBucketNum := p.mCurrentBucketNum + p.calcBucketsForwardCount startTimeNs }
  let p := p.flushIfNeededLocked startTimeNs
  -- the first bucket is a partial one
  { p with
    mCurrentBucketStartTimeNs := startTimeNs
    mConditionTimer := (p.mConditionTimer.newBucketStart startTimeNs).1.onConditionChanged
      (p.mIsActive && decide (p.mCondition = .kTrue)) startTimeNs }

def new (metric : ValueMetric) (startTimeNs : Int) (initialCondition : ConditionState) (isActive : Bool) :
    ValueMetricProducer V :=
  (initial metric initialCondition isActive).startAt startTimeNs

/-! ## Matched events -/

def hasReachedGuardRailLimit (p : ValueMetricProducer V) : Bool :=
  decide (p.mCurrentSlicedBucket.entries.length ≥ p.mDimensionHardLimit)

def hitGuardRailLocked (p : ValueMetricProducer V) (newKey : MetricDimensionKey) : Bool :=
  if (p.mCurrentSlicedBucket.lookup newKey).isSome then false
  else if p.mCurrentSlicedBucket.entries.length > p.mDimensionSoftLimit - 1 then p.hasReachedGuardRailLimit
  else false

/-- The diff of a value to the base: none when the value moved in the wrong direction. -/
def diffValue (p : ValueMetricProducer V) (base value : V) : Option V :=
  match p.mValueDirection with
  | .INCREASING =>
    if MetricValue.ge value base then some (MetricValue.sub value base)
    else if p.mUseAbsoluteValueOnReset then some value
    else none
  | .DECREASING =>
    if MetricValue.ge base value then some (MetricValue.sub base value)
    else if p.mUseAbsoluteValueOnReset then some value
    else none
  | .ANY => some (MetricValue.sub value base)
  | .UNKNOWN => some MetricValue.unknown

/-- A value is aggregated into an interval. -/
def aggregate (p : ValueMetricProducer V) (interval : Interval V) (value : V) : Interval V :=
  { interval with
    value := match interval.value with
      | none => some value
      | some old => some (match p.mAggregationType with
        | .SUM | .AVG => MetricValue.add old value
        | .MIN => MetricValue.min value old
        | .MAX => MetricValue.max value old)
    sampleSize := interval.sampleSize + 1 }

/-- The loop body for a field with a value: the base, the interval, and whether the interval is correct. -/
def updateInterval (p : ValueMetricProducer V) (baseInfo : BaseInfo V) (interval : Interval V) (value : V) :
    BaseInfo V × Interval V × Bool :=
  let interval := { interval with seenNewData := true }
  if !p.mUseDiff then (baseInfo, p.aggregate interval value, true)
  else
    let base := match baseInfo.base with
      | some base => some base
      | none => if p.mHasGlobalBase && p.mUseZeroDefaultBase then some (MetricValue.zero value) else none
    let baseInfo := { baseInfo with base := some value }
    match base with
    | none => (baseInfo, interval, false)
    | some base =>
      match p.diffValue base value with
      | none => (baseInfo, interval, false)
      | some diff => (baseInfo, p.aggregate interval diff, true)

/-- The loop over the fields, from field `i`; `none` when a value is of a bad type. -/
def updateIntervals (p : ValueMetricProducer V) (stateKey : HashableDimensionKey) :
    Nat → List (Option V) → List (BaseInfo V) → List (Interval V) → List (BaseInfo V) × List (Interval V) × Option Bool
  | i, value :: values, baseInfo :: baseInfos, interval :: intervals =>
    let baseInfo := { baseInfo with currentState := some stateKey }
    let interval := { interval with valueIndex := i }
    match value with
    | none => (baseInfo :: baseInfos, interval :: intervals, none)
    | some value =>
      let (baseInfo, interval, correct) := p.updateInterval baseInfo interval value
      let (baseInfos, intervals, useAnomalyDetection) := updateIntervals p stateKey (i + 1) values baseInfos intervals
      (baseInfo :: baseInfos, interval :: intervals, useAnomalyDetection.map (correct && ·))
  | _, _, baseInfos, intervals => (baseInfos, intervals, some true)

/-- `resize`, which here only grows. -/
def resize {α : Type} (l : List α) (n : Nat) (a : α) : List α := l ++ List.replicate (n - l.length) a

/-- The part of `onMatchedLogEventInternalLocked` for an event that is aggregated. -/
def accumulate (p : ValueMetricProducer V) (event : ValueEvent V) : ValueMetricProducer V :=
  let whatKey := event.eventKey.mDimensionKeyInWhat
  let baseInfos := (resize (UMap.getD p.mCurrentBaseInfo whatKey []) p.fieldCount {}).map fun baseInfo =>
    { baseInfo with currentState := some (baseInfo.currentState.getD p.unknownStateKey) }
  -- the intervals of the previous state are the ones to close
  let oldStateKey := (baseInfos.head?.bind (·.currentState)).getD p.unknownStateKey
  let key : MetricDimensionKey := ⟨whatKey, oldStateKey⟩
  let intervals := resize (UMap.getD p.mCurrentSlicedBucket key []) p.fieldCount {}
  let (baseInfos, intervals, useAnomalyDetection) :=
    p.updateIntervals event.eventKey.mStateValuesKey 0 event.values baseInfos intervals
  let p := { p with
    mCurrentBaseInfo := p.mCurrentBaseInfo.insert whatKey baseInfos
    mCurrentSlicedBucket := p.mCurrentSlicedBucket.insert key intervals }
  if useAnomalyDetection = some true ∧
      ¬ p.multipleBucketsSkipped (p.calcBucketsForwardCount event.elapsedTimestampNs) = true then
    { p with anomalyCalls := p.anomalyCalls ++
        [.detectAndDeclareAnomaly event.elapsedTimestampNs p.mCurrentBucketNum event.eventKey
          ((firstValue intervals).getD 0 + UMap.getD p.mCurrentFullBucket event.eventKey 0)] }
  else p

def onMatchedLogEventInternalLocked (p : ValueMetricProducer V) (condition : Bool) (event : ValueEvent V) :
    ValueMetricProducer V :=
  -- a state change of another primary key
  if (event.statePrimaryKeys.lookup p.mStateChangePrimaryKey.1).any fun key => decide (key ≠ p.mStateChangePrimaryKey.2) then p
  else if event.elapsedTimestampNs < p.mCurrentBucketStartTimeNs then p
  else
    let p := { p with
      mMatchedMetricDimensionKeys := insert event.eventKey.mDimensionKeyInWhat p.mMatchedMetricDimensionKeys }
    -- a pulled metric cannot flush without a pull
    let p := if p.mIsPulled then p else p.flushIfNeededLocked event.elapsedTimestampNs
    if (!p.mIsPulled && !condition) || (p.mIsPulled && !p.mUseDiff && decide (p.mCondition ≠ .kTrue)) then p
    else if p.hitGuardRailLocked event.eventKey then p
    else p.accumulate event

def onMatchedLogEventLocked (p : ValueMetricProducer V) (event : ValueEvent V) : ValueMetricProducer V :=
  if !p.mIsActive then p
  else if event.elapsedTimestampNs < p.mTimeBaseNs then p
  else
    let condition := if p.mConditionSliced then event.slicedCondition else decide (p.mCondition = .kTrue)
    p.onMatchedLogEventInternalLocked condition event

/-! ## Pulls -/

/-- The bases of tracked keys that the pulled data does not have are reset. -/
def resetMissing (p : ValueMetricProducer V) : ValueMetricProducer V :=
  p.mCurrentSlicedBucket.entries.foldl (fun p slice =>
    let whatKey := slice.1.mDimensionKeyInWhat
    if whatKey ∉ p.mMatchedMetricDimensionKeys ∧ whatKey.contains p.mStateChangePrimaryKey.2 = true then
      match p.mCurrentBaseInfo.lookup whatKey with
      | none => p
      | some baseInfos =>
        { p with mCurrentBaseInfo := p.mCurrentBaseInfo.insert whatKey (baseInfos.map fun b => { b with base := none }) }
    else p) p

def accumulateEvents (p : ValueMetricProducer V) (pull : Pull V) (originalPullTimeNs eventElapsedTimeNs : Int) :
    ValueMetricProducer V :=
  if eventElapsedTimeNs < p.mCurrentBucketStartTimeNs then
    p.invalidateCurrentBucket eventElapsedTimeNs .EVENT_IN_WRONG_BUCKET
  else if pull.elapsedRealtimeNs - originalPullTimeNs > p.mMaxPullDelayNs then
    p.invalidateCurrentBucket eventElapsedTimeNs .PULL_DELAYED
  else
    let p := { p with mMatchedMetricDimensionKeys := ∅ }
    let p := pull.allData.foldl
      (fun p data => p.onMatchedLogEventLocked { data with elapsedTimestampNs := eventElapsedTimeNs }) p
    let p := { p.resetMissing with mMatchedMetricDimensionKeys := ∅, mHasGlobalBase := true }
    if p.hasReachedGuardRailLimit then
      { p.invalidateCurrentBucket eventElapsedTimeNs .DIMENSION_GUARDRAIL_REACHED with mCurrentSlicedBucket := ∅ }
    else p

def pullAndMatchEventsLocked (p : ValueMetricProducer V) (pull : Pull V) (timestampNs : Int) : ValueMetricProducer V :=
  if !pull.success then p.invalidateCurrentBucket timestampNs .PULL_FAILED
  else p.accumulateEvents pull timestampNs timestampNs

def calcPreviousBucketEndTime (p : ValueMetricProducer V) (currentTimeNs : Int) : Int :=
  p.mTimeBaseNs + (currentTimeNs - p.mTimeBaseNs).tdiv p.mBucketSizeNs * p.mBucketSizeNs

def onDataPulled (p : ValueMetricProducer V) (pull : Pull V) (originalPullTimeNs : Int) : ValueMetricProducer V :=
  let p :=
    if p.mCondition = .kTrue then
      if !pull.success then p.invalidateCurrentBucket originalPullTimeNs .PULL_FAILED
      else if originalPullTimeNs < p.getCurrentBucketEndTimeNs then
        p.accumulateEvents pull originalPullTimeNs originalPullTimeNs
      else
        -- a scheduled pull counts for the end of the previous bucket
        p.accumulateEvents pull originalPullTimeNs (p.calcPreviousBucketEndTime originalPullTimeNs - 1)
    else p
  p.flushIfNeededLocked originalPullTimeNs

/-! ## Changes -/

def onStateChanged (p : ValueMetricProducer V) (eventTimeNs atomId : Int) (primaryKey : HashableDimensionKey)
    (oldState newState : Value) (pull : Pull V) : ValueMetricProducer V :=
  -- the states as their groups map them
  if oldState = newState then p
  else if p.mCondition ≠ .kTrue ∨ p.mIsActive = false then p
  else if eventTimeNs < p.mCurrentBucketStartTimeNs then p.invalidateCurrentBucket eventTimeNs .EVENT_IN_WRONG_BUCKET
  else
    let p := { p with mStateChangePrimaryKey := (atomId, primaryKey) }
    let p := if p.mIsPulled then p.pullAndMatchEventsLocked pull eventTimeNs else p
    { p with mStateChangePrimaryKey := (0, DEFAULT_DIMENSION_KEY) }.flushIfNeededLocked eventTimeNs

def onConditionChangedLocked (p : ValueMetricProducer V) (condition : Bool) (eventTimeNs : Int) (pull : Pull V) :
    ValueMetricProducer V :=
  let newCondition := ConditionState.ofBool condition
  let isEventTooLate := decide (eventTimeNs < p.mCurrentBucketStartTimeNs)
  if !p.mIsActive then { p with mCondition := if isEventTooLate then .kUnknown else newCondition }
  else if isEventTooLate then
    let p := p.invalidateCurrentBucket eventTimeNs .EVENT_IN_WRONG_BUCKET
    -- the timer takes the unknown condition for a true one
    { p with mCondition := .kUnknown, mConditionTimer := p.mConditionTimer.onConditionChanged true eventTimeNs }
  else
    let p := if p.mCondition = .kUnknown then p.invalidateCurrentBucket eventTimeNs .CONDITION_UNKNOWN else p
    let p := if p.mIsPulled && (decide (newCondition = .kTrue) || decide (p.mCondition = .kTrue)) then
        p.pullAndMatchEventsLocked pull eventTimeNs
      else p
    let p := if p.mUseDiff && (decide (p.mCondition = .kTrue) && decide (newCondition = .kFalse)) then p.resetBase else p
    let p := { p with mCondition := newCondition }.flushIfNeededLocked eventTimeNs
    { p with mConditionTimer := p.mConditionTimer.onConditionChanged condition eventTimeNs }

def onActiveStateChangedLocked (p : ValueMetricProducer V) (eventTimeNs : Int) (pull : Pull V) : ValueMetricProducer V :=
  let isEventTooLate := decide (eventTimeNs < p.mCurrentBucketStartTimeNs)
  let p := if isEventTooLate then p.invalidateCurrentBucket eventTimeNs .EVENT_IN_WRONG_BUCKET else p
  let p := if !p.mIsActive then p.flushLocked eventTimeNs else p
  if p.mCondition ≠ .kTrue then p
  else
    let p :=
      if isEventTooLate then p
      else
        let p := if p.mIsPulled then p.pullAndMatchEventsLocked pull eventTimeNs else p
        if p.mUseDiff && !p.mIsActive then p.resetBase else p
    let p := p.flushIfNeededLocked eventTimeNs
    { p with mConditionTimer := p.mConditionTimer.onConditionChanged p.mIsActive eventTimeNs }

/-- An activation or deactivation: the producer hears of it when its state changes. -/
def setActive (p : ValueMetricProducer V) (isActive : Bool) (eventTimeNs : Int) (pull : Pull V) : ValueMetricProducer V :=
  if isActive = p.mIsActive then p else { p with mIsActive := isActive }.onActiveStateChangedLocked eventTimeNs pull

/-- A pull at a bucket boundary when the metric needs one. -/
def pullIfTrue (p : ValueMetricProducer V) (eventTimeNs : Int) (pull : Pull V) : ValueMetricProducer V :=
  if p.mIsPulled && decide (p.mCondition = .kTrue) then p.pullAndMatchEventsLocked pull eventTimeNs else p

def notifyAppUpgrade (p : ValueMetricProducer V) (eventTimeNs : Int) (pull : Pull V) : ValueMetricProducer V :=
  if !p.mSplitBucketForAppUpgrade then p
  else (p.pullIfTrue eventTimeNs pull).flushCurrentBucketLocked eventTimeNs eventTimeNs

def onStatsdInitCompleted (p : ValueMetricProducer V) (eventTimeNs : Int) (pull : Pull V) : ValueMetricProducer V :=
  (p.pullIfTrue eventTimeNs pull).flushCurrentBucketLocked eventTimeNs eventTimeNs

def prepareFirstBucketLocked (p : ValueMetricProducer V) (pull : Pull V) : ValueMetricProducer V :=
  if p.mIsActive && p.mIsPulled && decide (p.mCondition = .kTrue) && p.mUseDiff then
    p.pullAndMatchEventsLocked pull p.mCurrentBucketStartTimeNs
  else p

/-! ## Reports -/

def clearPastBucketsLocked (p : ValueMetricProducer V) : ValueMetricProducer V :=
  { p with mPastBuckets := ∅, mSkippedBuckets := [] }

/-- The part of `onDumpReportLocked` before the report is written. -/
def prepareDump (p : ValueMetricProducer V) (dumpTimeNs : Int) (include_current_partial_bucket : Bool)
    (dumpLatency : DumpLatency) (pull : Pull V) : ValueMetricProducer V :=
  if !include_current_partial_bucket then p
  else
    let p := if p.mIsPulled && decide (p.mCondition = .kTrue) then
        match dumpLatency with
        | .FAST => p.invalidateCurrentBucket dumpTimeNs .DUMP_REPORT_REQUESTED
        | .NO_TIME_CONSTRAINTS => p.pullAndMatchEventsLocked pull dumpTimeNs
      else p
    p.flushCurrentBucketLocked dumpTimeNs dumpTimeNs

end ValueMetricProducer

end Statsd.Metrics
