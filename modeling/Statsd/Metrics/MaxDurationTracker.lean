/-
Duration trackers of MAX metrics (metrics/duration_helper/MaxDurationTracker.{h,cpp} and DurationTracker.h). Each
internal key has a duration of its own, which is started, paused while the condition is false, and erased by the stop
that ends it; a bucket reports the longest one.

As for the trackers of SUM metrics, the calls to the anomaly trackers are only recorded, the answer of the condition
wizard is a parameter of `onSlicedConditionMayChange`, and times and counts are exact integers.
-/
import Statsd.Metrics.OringDurationTracker

namespace Statsd.Metrics

inductive DurationState where
  | kStopped | kStarted | kPaused
deriving DecidableEq

/-- The duration of one key; `startCount` is the number of starts seen. -/
structure DurationInfo where
  state : DurationState := .kStopped
  startCount : Int := 0
  lastStartTime : Int := 0
  lastDuration : Int := 0
  conditionKeys : ConditionKey := ∅

structure MaxDurationTracker where
  mEventKey : MetricDimensionKey
  mBucketSizeNs : Int
  mNested : Bool
  mCurrentBucketStartTimeNs : Int
  mDuration : Int
  mCurrentBucketNum : Int
  mStartTimeNs : Int
  mConditionSliced : Bool
  mInfos : UMap HashableDimensionKey DurationInfo
  anomalyCalls : List AnomalyCall

namespace MaxDurationTracker

/-- The constructor. -/
def new (eventKey : MetricDimensionKey) (nesting : Bool) (currentBucketStartNs currentBucketNum startTimeNs bucketSizeNs : Int)
    (conditionSliced : Bool) : MaxDurationTracker where
  mEventKey := eventKey
  mBucketSizeNs := bucketSizeNs
  mNested := nesting
  mCurrentBucketStartTimeNs := currentBucketStartNs
  mDuration := 0
  mCurrentBucketNum := currentBucketNum
  mStartTimeNs := startTimeNs
  mConditionSliced := conditionSliced
  mInfos := ∅
  anomalyCalls := []

def getCurrentBucketEndTimeNs (t : MaxDurationTracker) : Int := t.mStartTimeNs + (t.mCurrentBucketNum + 1) * t.mBucketSizeNs

def startAnomalyAlarm (t : MaxDurationTracker) (eventTime : Int) : MaxDurationTracker :=
  { t with anomalyCalls := t.anomalyCalls ++ [.startAlarm t.mEventKey eventTime] }

def stopAnomalyAlarm (t : MaxDurationTracker) (timestamp : Int) : MaxDurationTracker :=
  { t with anomalyCalls := t.anomalyCalls ++ [.stopAlarm t.mEventKey timestamp] }

/-- The duration of a key is set. -/
def setInfo (t : MaxDurationTracker) (key : HashableDimensionKey) (duration : DurationInfo) : MaxDurationTracker :=
  { t with mInfos := t.mInfos.insert key duration }

def anyStarted (t : MaxDurationTracker) : Bool := t.mInfos.entries.any fun it => decide (it.2.state = .kStarted)

/-- The alarm of the other keys is set again. -/
def restartAlarm (t : MaxDurationTracker) (eventTime : Int) : MaxDurationTracker :=
  if t.anyStarted then t.startAnomalyAlarm eventTime else t

/-! ## Starts and stops -/

def hitGuardRail (t : MaxDurationTracker) (newKey : HashableDimensionKey) : Bool :=
  if (t.mInfos.lookup newKey).isSome then false
  else if t.mInfos.entries.length > kDimensionKeySizeSoftLimit - 1 then
    decide (t.mInfos.entries.length + 1 > kDimensionKeySizeHardLimit)
  else false

def noteStart (t : MaxDurationTracker) (key : HashableDimensionKey) (condition : Bool) (eventTime : Int)
    (conditionKey : ConditionKey) : MaxDurationTracker :=
  if t.hitGuardRail key then t
  else
    let duration := UMap.getD t.mInfos key {}
    let duration := if t.mConditionSliced then { duration with conditionKeys := conditionKey } else duration
    match duration.state with
    | .kStarted | .kPaused => t.setInfo key { duration with startCount := duration.startCount + 1 }
    | .kStopped =>
      if !condition then
        -- the event waits for the condition to become true
        t.setInfo key { duration with state := .kPaused, startCount := 1 }
      else
        (t.setInfo key { duration with state := .kStarted, lastStartTime := eventTime, startCount := 1 }).startAnomalyAlarm eventTime

/-- Whether a stop that leaves `startCount` ends the duration. -/
def ends (t : MaxDurationTracker) (forceStop : Bool) (startCount : Int) : Bool :=
  forceStop || !t.mNested || decide (startCount ≤ 0)

/-- What `noteStop` does to the duration of the key. -/
def stopDuration (t : MaxDurationTracker) (duration : DurationInfo) (eventTime : Int) (forceStop : Bool) : DurationInfo :=
  match duration.state with
  | .kStopped => duration
  | .kStarted =>
    let duration := { duration with startCount := duration.startCount - 1 }
    if t.ends forceStop duration.startCount then
      { duration with state := .kStopped, lastDuration := duration.lastDuration + (eventTime - duration.lastStartTime) }
    else duration
  | .kPaused =>
    let duration := { duration with startCount := duration.startCount - 1 }
    if t.ends forceStop duration.startCount then { duration with state := .kStopped } else duration

/-- `mDuration` is raised to the duration. -/
def raise (t : MaxDurationTracker) (lastDuration : Int) : MaxDurationTracker :=
  if lastDuration > t.mDuration then { t with mDuration := lastDuration } else t

def noteStop (t : MaxDurationTracker) (key : HashableDimensionKey) (eventTime : Int) (forceStop : Bool) : MaxDurationTracker :=
  match t.mInfos.lookup key with
  | none => t
  | some old =>
    let duration := t.stopDuration old eventTime forceStop
    let t' :=
      if old.state = .kStarted ∧ duration.state = .kStopped then
        ((t.stopAnomalyAlarm eventTime).setInfo key duration).restartAlarm eventTime
      else t.setInfo key duration
    let t' := t'.raise duration.lastDuration
    if duration.state = .kStopped then { t' with mInfos := t'.mInfos.erase key } else t'

def noteStopAll (t : MaxDurationTracker) (eventTime : Int) : MaxDurationTracker :=
  t.mInfos.keys.foldl (fun t key => t.noteStop key eventTime true) t

/-! ## Flushing -/

/-- `flushCurrentBucket`: the tracker, the collected buckets, and whether the tracker has no pending event. -/
def flushCurrentBucket (t : MaxDurationTracker) (eventTimeNs : Int) (output : PastBuckets) : MaxDurationTracker × PastBuckets × Bool :=
  let fullBucketEnd := t.getCurrentBucketEndTimeNs
  let numBucketsForward := if eventTimeNs ≥ fullBucketEnd then 1 + (eventTimeNs - fullBucketEnd).tdiv t.mBucketSizeNs else 0
  -- before the end of the bucket this must be a partial bucket
  let currentBucketEndTimeNs := if eventTimeNs ≥ fullBucketEnd then fullBucketEnd else eventTimeNs
  let pending := t.mInfos.filterVal fun duration => decide (duration.state ≠ .kStopped)
  let output :=
    if t.mDuration ≠ 0 then UMap.push output t.mEventKey ⟨t.mCurrentBucketStartTimeNs, currentBucketEndTimeNs, t.mDuration⟩
    else output
  let t := if numBucketsForward > 0 then
      { t with mCurrentBucketStartTimeNs := fullBucketEnd + (numBucketsForward - 1) * t.mBucketSizeNs
               mCurrentBucketNum := t.mCurrentBucketNum + numBucketsForward }
    else { t with mCurrentBucketStartTimeNs := eventTimeNs }
  ({ t with mInfos := pending, mDuration := 0 }, output, pending.entries.isEmpty)

def flushIfNeeded (t : MaxDurationTracker) (eventTimeNs : Int) (output : PastBuckets) : MaxDurationTracker × PastBuckets × Bool :=
  if eventTimeNs < t.getCurrentBucketEndTimeNs then (t, output, false) else t.flushCurrentBucket eventTimeNs output

/-! ## Conditions -/

def noteConditionChanged (t : MaxDurationTracker) (key : HashableDimensionKey) (conditionMet : Bool) (timestamp : Int) :
    MaxDurationTracker :=
  match t.mInfos.lookup key with
  | none => t
  | some duration =>
    match duration.state with
    | .kStarted =>
      if conditionMet then t
      else
        ((t.stopAnomalyAlarm timestamp).setInfo key
          { duration with state := .kPaused, lastDuration := duration.lastDuration + (timestamp - duration.lastStartTime) }).restartAlarm timestamp
    | .kStopped => t
    | .kPaused =>
      if conditionMet then
        (t.setInfo key { duration with state := .kStarted, lastStartTime := timestamp }).startAnomalyAlarm timestamp
      else t

/-- The loop body of `onSlicedConditionMayChange`; `query` is the wizard's answer at the time of the call. -/
def queryCondition (query : ConditionKey → ConditionState) (timestamp : Int) (t : MaxDurationTracker) (key : HashableDimensionKey) :
    MaxDurationTracker :=
  match t.mInfos.lookup key with
  | none => t
  | some duration =>
    if duration.state = .kStopped then t
    else t.noteConditionChanged key (decide (query duration.conditionKeys = .kTrue)) timestamp

def onSlicedConditionMayChange (t : MaxDurationTracker) (query : ConditionKey → ConditionState) (timestamp : Int) : MaxDurationTracker :=
  t.mInfos.keys.foldl (queryCondition query timestamp) t

def onConditionChanged (t : MaxDurationTracker) (condition : Bool) (timestamp : Int) : MaxDurationTracker :=
  t.mInfos.keys.foldl (fun t key => t.noteConditionChanged key condition timestamp) t

end MaxDurationTracker

end Statsd.Metrics
