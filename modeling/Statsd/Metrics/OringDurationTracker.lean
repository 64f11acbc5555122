/-
Duration trackers of SUM metrics (metrics/duration_helper/OringDurationTracker.{h,cpp} and
DurationTracker.h). A tracker follows the internal keys of one what-dimension: those that are started
and those that are started but paused by a false condition. While any key is started the clock runs
for the current state key; the time is taken when the last key stops, when the state changes and when
a bucket is flushed.

The calls to the anomaly trackers do not come back to the tracker; they are only recorded. The answer
of the condition wizard to a condition key is a parameter of `onSlicedConditionMayChange`. Times are
exact integers.
-/
import Statsd.Base.UMap
import Statsd.HashableDimensionKey
import Statsd.Condition.SimpleConditionTracker

namespace Statsd

/-- The keys to query each linked condition with. -/
abbrev ConditionKey := UMap Int HashableDimensionKey

namespace UMap

variable {K V : Type} [DecidableEq K]

/-- `m.insert(l.begin(), l.end())`. -/
def insertAll (m : UMap K V) (l : List (Sigma fun _ : K => V)) : UMap K V := l.foldl (fun m it => m.emplace it.1 it.2) m

/-- The map without the keys of some entries. -/
def eraseAll (m : UMap K V) (l : List (Sigma fun _ : K => V)) : UMap K V := l.foldl (fun m it => m.erase it.1) m

end UMap

namespace Metrics

structure DurationBucket where
  mBucketStartNs : Int
  mBucketEndNs : Int
  mDuration : Int
deriving DecidableEq

/-- The duration of a state key in the current partial bucket, and the sum of the past partial ones of
the current full bucket. -/
structure DurationValues where
  mDuration : Int := 0
  mDurationFullBucket : Int := 0

/-- What a tracker tells its anomaly trackers. -/
inductive AnomalyCall where
  | startAlarm (eventKey : MetricDimensionKey) (eventTime : Int)
  | stopAlarm (eventKey : MetricDimensionKey) (timestamp : Int)
  | addPastBucket (eventKey : MetricDimensionKey) (bucketValue bucketNum : Int)
  | detectAndDeclareAnomaly (timestamp currBucketNum : Int) (eventKey : MetricDimensionKey) (currentBucketValue : Int)

structure OringDurationTracker where
  mEventKey : MetricDimensionKey
  mBucketSizeNs : Int
  mNested : Bool
  mCurrentBucketStartTimeNs : Int
  mStateKeyDurationMap : UMap HashableDimensionKey DurationValues
  mCurrentBucketNum : Int
  mStartTimeNs : Int
  mConditionSliced : Bool
  mStarted : UMap HashableDimensionKey Int
  mPaused : UMap HashableDimensionKey Int
  mLastStartTime : Int
  mConditionKeyMap : UMap HashableDimensionKey ConditionKey
  anomalyCalls : List AnomalyCall

/-- The emitted buckets of each key, as the metric producer collects them. -/
abbrev PastBuckets := UMap MetricDimensionKey (List DurationBucket)

namespace OringDurationTracker

/-- The constructor. -/
def new (eventKey : MetricDimensionKey) (nesting : Bool) (currentBucketStartNs currentBucketNum startTimeNs bucketSizeNs : Int)
    (conditionSliced : Bool) : OringDurationTracker where
  mEventKey := eventKey
  mBucketSizeNs := bucketSizeNs
  mNested := nesting
  mCurrentBucketStartTimeNs := currentBucketStartNs
  mStateKeyDurationMap := ∅
  mCurrentBucketNum := currentBucketNum
  mStartTimeNs := startTimeNs
  mConditionSliced := conditionSliced
  mStarted := ∅
  mPaused := ∅
  mLastStartTime := 0
  mConditionKeyMap := ∅
  anomalyCalls := []

def getCurrentBucketEndTimeNs (t : OringDurationTracker) : Int := t.mStartTimeNs + (t.mCurrentBucketNum + 1) * t.mBucketSizeNs

/-- The current state key. -/
def stateKey (t : OringDurationTracker) : HashableDimensionKey := t.mEventKey.mStateValuesKey

def getCurrentStateKeyDuration (t : OringDurationTracker) : Int :=
  (UMap.getD t.mStateKeyDurationMap t.stateKey {}).mDuration

def getCurrentStateKeyFullBucketDuration (t : OringDurationTracker) : Int :=
  (UMap.getD t.mStateKeyDurationMap t.stateKey {}).mDurationFullBucket

def call (t : OringDurationTracker) (c : AnomalyCall) : OringDurationTracker :=
  { t with anomalyCalls := t.anomalyCalls ++ [c] }

def startAnomalyAlarm (t : OringDurationTracker) (eventTime : Int) : OringDurationTracker :=
  t.call (.startAlarm t.mEventKey eventTime)

def stopAnomalyAlarm (t : OringDurationTracker) (timestamp : Int) : OringDurationTracker :=
  t.call (.stopAlarm t.mEventKey timestamp)

/-- `detectAndDeclareAnomaly` with the duration of the current state key in the current full bucket. -/
def detectAndDeclareAnomaly (t : OringDurationTracker) (timestamp : Int) : OringDurationTracker :=
  t.call (.detectAndDeclareAnomaly timestamp t.mCurrentBucketNum t.mEventKey
    (t.getCurrentStateKeyDuration + t.getCurrentStateKeyFullBucketDuration))

/-- `mStateKeyDurationMap[mEventKey.getStateValuesKey()].mDuration += duration`. -/
def addDuration (t : OringDurationTracker) (duration : Int) : OringDurationTracker :=
  let v := UMap.getD t.mStateKeyDurationMap t.stateKey {}
  { t with mStateKeyDurationMap := t.mStateKeyDurationMap.insert t.stateKey { v with mDuration := v.mDuration + duration } }

/-! ## Starts and stops -/

def hitGuardRail (t : OringDurationTracker) (newKey : HashableDimensionKey) : Bool :=
  if (t.mConditionKeyMap.lookup newKey).isSome then false
  else if t.mConditionKeyMap.entries.length > kDimensionKeySizeSoftLimit - 1 then
    decide (t.mConditionKeyMap.entries.length + 1 > kDimensionKeySizeHardLimit)
  else false

/-- `counts[key]++`. -/
def increment (counts : UMap HashableDimensionKey Int) (key : HashableDimensionKey) : UMap HashableDimensionKey Int :=
  counts.insert key (UMap.getD counts key 0 + 1)

def noteStart (t : OringDurationTracker) (key : HashableDimensionKey) (condition : Bool) (eventTime : Int)
    (conditionKey : ConditionKey) : OringDurationTracker :=
  if t.hitGuardRail key then t
  else
    let t :=
      if condition then
        let t := if t.mStarted.entries.isEmpty then { t with mLastStartTime := eventTime }.startAnomalyAlarm eventTime else t
        { t with mStarted := increment t.mStarted key }
      else { t with mPaused := increment t.mPaused key }
    if t.mConditionSliced && (t.mConditionKeyMap.lookup key).isNone then
      { t with mConditionKeyMap := t.mConditionKeyMap.insert key conditionKey }
    else t

/-- One stop of a key in a map of counts: the map, and whether the key is gone. -/
def decrement (mNested stopAll : Bool) (counts : UMap HashableDimensionKey Int) (key : HashableDimensionKey) (count : Int) :
    UMap HashableDimensionKey Int × Bool :=
  if stopAll || !mNested || decide (count - 1 ≤ 0) then (counts.erase key, true) else (counts.insert key (count - 1), false)

/-- The condition key of a key that is gone goes too. -/
def dropConditionKey (t : OringDurationTracker) (key : HashableDimensionKey) (gone : Bool) : OringDurationTracker :=
  if gone then { t with mConditionKeyMap := t.mConditionKeyMap.erase key } else t

/-- The time up to `timestamp` goes to the current state key. -/
def recordDuration (t : OringDurationTracker) (timestamp : Int) : OringDurationTracker :=
  t.addDuration (timestamp - t.mLastStartTime)

/-- The part of `noteStop` about the started keys. -/
def stopStarted (t : OringDurationTracker) (key : HashableDimensionKey) (timestamp : Int) (stopAll : Bool) :
    OringDurationTracker :=
  match t.mStarted.lookup key with
  | none => t
  | some count =>
    let r := decrement t.mNested stopAll t.mStarted key count
    let t := { t with mStarted := r.1 }.dropConditionKey key r.2
    if t.mStarted.entries.isEmpty then (t.recordDuration timestamp).detectAndDeclareAnomaly timestamp else t

/-- The part of `noteStop` about the paused keys. -/
def stopPaused (t : OringDurationTracker) (key : HashableDimensionKey) (stopAll : Bool) : OringDurationTracker :=
  match t.mPaused.lookup key with
  | none => t
  | some count =>
    let r := decrement t.mNested stopAll t.mPaused key count
    { t with mPaused := r.1 }.dropConditionKey key r.2

/-- The alarm is off while nothing is started. -/
def stopAlarmIfStopped (t : OringDurationTracker) (timestamp : Int) : OringDurationTracker :=
  if t.mStarted.entries.isEmpty then t.stopAnomalyAlarm timestamp else t

def noteStop (t : OringDurationTracker) (key : HashableDimensionKey) (timestamp : Int) (stopAll : Bool) :
    OringDurationTracker :=
  ((t.stopStarted key timestamp stopAll).stopPaused key stopAll).stopAlarmIfStopped timestamp

def noteStopAll (t : OringDurationTracker) (timestamp : Int) : OringDurationTracker :=
  let t := if !t.mStarted.entries.isEmpty then (t.recordDuration timestamp).detectAndDeclareAnomaly timestamp else t
  { t.stopAnomalyAlarm timestamp with mStarted := ∅, mPaused := ∅, mConditionKeyMap := ∅ }

/-! ## Flushing -/

/-- The loop state of `flushCurrentBucket`: the tracker and the buckets collected so far. -/
abbrev Flushing := OringDurationTracker × PastBuckets

/-- The state key's entry of the duration map is set. -/
def setValues (t : OringDurationTracker) (stateKey : HashableDimensionKey) (v : DurationValues) : OringDurationTracker :=
  { t with mStateKeyDurationMap := t.mStateKeyDurationMap.insert stateKey v }

/-- The loop body for one state key. -/
def flushStateKey (eventTimeNs fullBucketEnd currentBucketEndTimeNs : Int) (s : Flushing)
    (stateKey : HashableDimensionKey) : Flushing :=
  let key : MetricDimensionKey := ⟨s.1.mEventKey.mDimensionKeyInWhat, stateKey⟩
  let v := UMap.getD s.1.mStateKeyDurationMap stateKey {}
  let (t, output) :=
    if v.mDuration > 0 then
      (s.1.setValues stateKey { v with mDurationFullBucket := v.mDurationFullBucket + v.mDuration },
        UMap.push s.2 key ⟨s.1.mCurrentBucketStartTimeNs, currentBucketEndTimeNs, v.mDuration⟩)
    else s
  let t :=
    if eventTimeNs > fullBucketEnd then
      -- the end of a full bucket goes to the anomaly trackers
      let v := UMap.getD t.mStateKeyDurationMap stateKey {}
      (t.call (.addPastBucket key t.getCurrentStateKeyFullBucketDuration t.mCurrentBucketNum)).setValues stateKey
        { v with mDurationFullBucket := 0 }
    else t
  let v := UMap.getD t.mStateKeyDurationMap stateKey {}
  (t.setValues stateKey { v with mDuration := 0 }, output)

/-- The loop body for the `i`-th skipped bucket: it was full for the current state key. -/
def fillBucket (fullBucketEnd : Int) (s : Flushing) (i : Nat) : Flushing :=
  let start := fullBucketEnd + s.1.mBucketSizeNs * ((i : Int) - 1)
  (s.1.call (.addPastBucket s.1.mEventKey s.1.mBucketSizeNs (s.1.mCurrentBucketNum + i)),
    UMap.push s.2 s.1.mEventKey ⟨start, start + s.1.mBucketSizeNs, s.1.mBucketSizeNs⟩)

/-- How many buckets forward an event at or after the bucket's end is. -/
def bucketsForward (t : OringDurationTracker) (eventTimeNs : Int) : Int :=
  if eventTimeNs ≥ t.getCurrentBucketEndTimeNs then 1 + (eventTimeNs - t.getCurrentBucketEndTimeNs).tdiv t.mBucketSizeNs else 0

/-- `flushCurrentBucket`: the tracker, the collected buckets, and whether the tracker is done. -/
def flushCurrentBucket (t : OringDurationTracker) (eventTimeNs : Int) (output : PastBuckets) :
    OringDurationTracker × PastBuckets × Bool :=
  let numBucketsForward := t.bucketsForward eventTimeNs
  let fullBucketEnd := t.getCurrentBucketEndTimeNs
  -- before the end of the bucket this must be a partial bucket
  let currentBucketEndTimeNs := if eventTimeNs ≥ fullBucketEnd then fullBucketEnd else eventTimeNs
  let t := if t.mStarted.entries.isEmpty then t else t.recordDuration currentBucketEndTimeNs
  let s := t.mStateKeyDurationMap.keys.foldl (flushStateKey eventTimeNs fullBucketEnd currentBucketEndTimeNs) (t, output)
  let s :=
    if s.1.mStarted.entries.isEmpty then
      if numBucketsForward ≥ 2 then
        (s.1.call (.addPastBucket s.1.mEventKey 0 (s.1.mCurrentBucketNum + numBucketsForward - 1)), s.2)
      else s
    else (List.range' 1 (numBucketsForward - 1).toNat).foldl (fillBucket fullBucketEnd) s
  let start := if numBucketsForward > 0 then fullBucketEnd + (numBucketsForward - 1) * s.1.mBucketSizeNs else eventTimeNs
  let num := if numBucketsForward > 0 then s.1.mCurrentBucketNum + numBucketsForward else s.1.mCurrentBucketNum
  ({ s.1 with mCurrentBucketStartTimeNs := start, mCurrentBucketNum := num, mLastStartTime := start }, s.2,
    s.1.mStarted.entries.isEmpty && s.1.mPaused.entries.isEmpty)

def flushIfNeeded (t : OringDurationTracker) (eventTimeNs : Int) (output : PastBuckets) :
    OringDurationTracker × PastBuckets × Bool :=
  if eventTimeNs < t.getCurrentBucketEndTimeNs then (t, output, false) else t.flushCurrentBucket eventTimeNs output

/-! ## Conditions and states -/

/-- The entries of `keys` whose condition key is known and answered as `moves` says. -/
def answered (t : OringDurationTracker) (keys : UMap HashableDimensionKey Int) (moves : ConditionKey → Bool) :
    List (Sigma fun _ : HashableDimensionKey => Int) :=
  keys.entries.filter fun it => match t.mConditionKeyMap.lookup it.1 with
    | none => false
    | some conditionKey => moves conditionKey

/-- The started keys whose condition is no longer true leave the started ones. -/
def pauseKeys (t : OringDurationTracker) (startedToPaused : List (Sigma fun _ : HashableDimensionKey => Int)) (timestamp : Int) :
    OringDurationTracker :=
  let wasStarted := !t.mStarted.entries.isEmpty
  let t := { t with mStarted := t.mStarted.eraseAll startedToPaused }
  if wasStarted && t.mStarted.entries.isEmpty then (t.recordDuration timestamp).detectAndDeclareAnomaly timestamp else t

/-- The paused keys whose condition is true leave the paused ones; they will be the first started ones
when no key is started. -/
def resumeKeys (t : OringDurationTracker) (pausedToStarted : List (Sigma fun _ : HashableDimensionKey => Int)) (timestamp : Int) :
    OringDurationTracker :=
  let t := { t with mPaused := t.mPaused.eraseAll pausedToStarted }
  if t.mStarted.entries.isEmpty && !pausedToStarted.isEmpty then
    { t with mLastStartTime := timestamp }.startAnomalyAlarm timestamp
  else t

/-- `onSlicedConditionMayChange`; `query` is the wizard's answer at the time of the call. -/
def onSlicedConditionMayChange (t : OringDurationTracker) (query : ConditionKey → ConditionState) (timestamp : Int) :
    OringDurationTracker :=
  let startedToPaused := t.answered t.mStarted fun k => decide (query k ≠ .kTrue)
  let pausedToStarted := t.answered t.mPaused fun k => decide (query k = .kTrue)
  let t := (t.pauseKeys startedToPaused timestamp).resumeKeys pausedToStarted timestamp
  { t with mStarted := t.mStarted.insertAll pausedToStarted
           mPaused := t.mPaused.insertAll startedToPaused }.stopAlarmIfStopped timestamp

def onConditionChanged (t : OringDurationTracker) (condition : Bool) (timestamp : Int) : OringDurationTracker :=
  let t :=
    if condition then
      if t.mPaused.entries.isEmpty then t
      else
        let t := if t.mStarted.entries.isEmpty then { t with mLastStartTime := timestamp }.startAnomalyAlarm timestamp else t
        { t with mStarted := t.mStarted.insertAll t.mPaused.entries, mPaused := ∅ }
    else if t.mStarted.entries.isEmpty then t
    else
      let t := t.recordDuration timestamp
      { t with mPaused := t.mPaused.insertAll t.mStarted.entries, mStarted := ∅ }.detectAndDeclareAnomaly timestamp
  t.stopAlarmIfStopped timestamp

def updateCurrentStateKey (t : OringDurationTracker) (atomId : Int) (newState : Value) : OringDurationTracker :=
  { t with mEventKey := { t.mEventKey with
      mStateValuesKey := t.mEventKey.mStateValuesKey.map fun v => if v.1.mTag = atomId then (v.1, newState) else v } }

def onStateChanged (t : OringDurationTracker) (timestamp atomId : Int) (newState : Value) : OringDurationTracker :=
  if t.mStarted.entries.isEmpty then t.updateCurrentStateKey atomId newState
  else { t.recordDuration timestamp with mLastStartTime := timestamp }.updateCurrentStateKey atomId newState

end OringDurationTracker

end Metrics

end Statsd
