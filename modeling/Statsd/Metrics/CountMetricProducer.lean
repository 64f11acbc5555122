/-
Count metrics (metrics/CountMetricProducer.{h,cpp} over metrics/MetricProducer.{h,cpp}). A producer counts
the matched events of each key in the current bucket. A bucket ends with the metric's grid, or early at a
forced split; the counts of a closed bucket go to the past buckets, and those of a full bucket, with the
counts of its earlier parts, to the anomaly trackers.

Calls to the anomaly trackers do not come back to the producer; they are only recorded. The dimensions of
a report are written as the keys they come from. Times are exact integers.
-/
import Statsd.Metrics.Activation
import Statsd.Metrics.MatchedEvent

namespace Statsd.Metrics

structure CountBucket where
  mBucketStartNs : Int
  mBucketEndNs : Int
  mCount : Int
deriving DecidableEq

/-- What a producer tells each of its anomaly trackers. -/
inductive CountAnomalyCall where
  | addPastBucket (bucketValues : UMap MetricDimensionKey Int) (bucketNum : Int)
  | detectAndDeclareAnomaly (timestampNs currBucketNum : Int) (key : MetricDimensionKey) (currentBucketValue : Int)

/-- The constants of a producer. -/
structure CountMetric extends EventSlicing where
  mTimeBaseNs : Int
  mBucketSizeNs : Int

structure CountMetricProducer extends CountMetric where
  activation : MetricProducer
  mCondition : ConditionState
  mCurrentBucketStartTimeNs : Int
  mCurrentBucketNum : Int
  mCurrentSlicedCounter : UMap MetricDimensionKey Int
  mCurrentFullCounters : UMap MetricDimensionKey Int
  mPastBuckets : UMap MetricDimensionKey (List CountBucket)
  anomalyCalls : List CountAnomalyCall

/-- The information about a bucket in a report: a partial bucket has its times, a full one its number. -/
inductive CountBucketInfo where
  | partialBucket (start_bucket_elapsed_millis end_bucket_elapsed_millis count : Int)
  | fullBucket (bucket_num count : Int)

/-- A report; one without past buckets ends after the first field. -/
structure CountReport where
  is_active : Bool
  data : Option (Int × Int × List (MetricDimensionKey × List CountBucketInfo))

namespace CountMetricProducer

/-! ## Buckets -/

def getCurrentBucketEndTimeNs (p : CountMetricProducer) : Int := p.mTimeBaseNs + (p.mCurrentBucketNum + 1) * p.mBucketSizeNs

def getBucketNumFromEndTimeNs (p : CountMetricProducer) (endNs : Int) : Int := (endNs - p.mTimeBaseNs).tdiv p.mBucketSizeNs - 1

/-- The counts of a bucket are added to those of its full bucket. -/
def addToFullCounters (full sliced : UMap MetricDimensionKey Int) : UMap MetricDimensionKey Int :=
  sliced.entries.foldl (fun full it => full.insert it.1 (UMap.getD full it.1 0 + it.2)) full

/-- The part of `flushCurrentBucketLocked` about the anomaly trackers. -/
def feedAnomalyTrackers (p : CountMetricProducer) (eventTimeNs : Int) : CountMetricProducer :=
  if eventTimeNs > p.getCurrentBucketEndTimeNs then
    if p.mCurrentFullCounters.entries.length > 0 then
      { p with
        anomalyCalls := p.anomalyCalls ++
          [.addPastBucket (addToFullCounters p.mCurrentFullCounters p.mCurrentSlicedCounter) p.mCurrentBucketNum]
        mCurrentFullCounters := ∅ }
    else { p with anomalyCalls := p.anomalyCalls ++ [.addPastBucket p.mCurrentSlicedCounter p.mCurrentBucketNum] }
  else { p with mCurrentFullCounters := addToFullCounters p.mCurrentFullCounters p.mCurrentSlicedCounter }

def flushCurrentBucketLocked (p : CountMetricProducer) (eventTimeNs nextBucketStartTimeNs : Int) : CountMetricProducer :=
  let fullBucketEndTimeNs := p.getCurrentBucketEndTimeNs
  let bucketEndNs := if eventTimeNs < fullBucketEndTimeNs then eventTimeNs else fullBucketEndTimeNs
  let mPastBuckets := p.mCurrentSlicedCounter.entries.foldl
    (fun past counter => UMap.push past counter.1 ⟨p.mCurrentBucketStartTimeNs, bucketEndNs, counter.2⟩) p.mPastBuckets
  { { p with mPastBuckets }.feedAnomalyTrackers eventTimeNs with
    mCurrentSlicedCounter := ∅
    mCurrentBucketStartTimeNs := nextBucketStartTimeNs }

def flushIfNeededLocked (p : CountMetricProducer) (eventTimeNs : Int) : CountMetricProducer :=
  let currentBucketEndTimeNs := p.getCurrentBucketEndTimeNs
  if eventTimeNs < currentBucketEndTimeNs then p
  else
    let numBucketsForward := 1 + (eventTimeNs - currentBucketEndTimeNs).tdiv p.mBucketSizeNs
    let nextBucketNs := currentBucketEndTimeNs + (numBucketsForward - 1) * p.mBucketSizeNs
    let p := p.flushCurrentBucketLocked eventTimeNs nextBucketNs
    { p with mCurrentBucketNum := p.mCurrentBucketNum + numBucketsForward }

/-- `MetricProducer::flushLocked`. -/
def flushLocked (p : CountMetricProducer) (eventTimeNs : Int) : CountMetricProducer :=
  (p.flushIfNeededLocked eventTimeNs).flushCurrentBucketLocked eventTimeNs eventTimeNs

/-- The constructor. No anomaly tracker is there yet to be told of a bucket. -/
def new (metric : CountMetric) (activations : EventActivations) (initialCondition : ConditionState) (startTimeNs : Int) :
    CountMetricProducer :=
  let p : CountMetricProducer :=
    { metric with
      activation := .new activations
      mCondition := initialCondition
      mCurrentBucketStartTimeNs := metric.mTimeBaseNs
      mCurrentBucketNum := 0
      mCurrentSlicedCounter := ∅
      mCurrentFullCounters := ∅
      mPastBuckets := ∅
      anomalyCalls := [] }
  { p.flushIfNeededLocked startTimeNs with mCurrentBucketStartTimeNs := startTimeNs, anomalyCalls := [] }

/-! ## Events -/

def hitGuardRailLocked (p : CountMetricProducer) (newKey : MetricDimensionKey) : Bool :=
  if (p.mCurrentSlicedCounter.lookup newKey).isSome then false
  else if p.mCurrentSlicedCounter.entries.length > kDimensionKeySizeSoftLimit - 1 then
    decide (p.mCurrentSlicedCounter.entries.length + 1 > kDimensionKeySizeHardLimit)
  else false

/-- An event of a key is counted, and reported to the anomaly trackers with the count of the full bucket. -/
def count (p : CountMetricProducer) (eventTimeNs : Int) (eventKey : MetricDimensionKey) (value : Int) : CountMetricProducer :=
  { p with
    mCurrentSlicedCounter := p.mCurrentSlicedCounter.insert eventKey value
    anomalyCalls := p.anomalyCalls ++ [.detectAndDeclareAnomaly eventTimeNs p.mCurrentBucketNum eventKey
      (value + UMap.getD p.mCurrentFullCounters eventKey 0)] }

def onMatchedLogEventInternalLocked (p : CountMetricProducer) (eventKey : MetricDimensionKey) (condition : Bool)
    (eventTimeNs : Int) : CountMetricProducer :=
  let p := p.flushIfNeededLocked eventTimeNs
  if !condition then p
  else
    match p.mCurrentSlicedCounter.lookup eventKey with
    | none => if p.hitGuardRailLocked eventKey then p else p.count eventTimeNs eventKey 1
    | some value => p.count eventTimeNs eventKey (value + 1)

def onMatchedLogEventLocked (p : CountMetricProducer) (event : MatchedEvent) : CountMetricProducer :=
  if !p.activation.mIsActive then p
  -- an old event
  else if event.elapsedTimestampNs < p.mTimeBaseNs then p
  else
    p.onMatchedLogEventInternalLocked (p.metricKey event) (p.conditionMet p.mCondition event) event.elapsedTimestampNs

/-! ## Changes -/

def onConditionChangedLocked (p : CountMetricProducer) (conditionMet : Bool) : CountMetricProducer :=
  { p with mCondition := .ofBool conditionMet }

/-- `MetricProducer::onActiveStateChangedLocked`. -/
def onActiveStateChangedLocked (p : CountMetricProducer) (eventTimeNs : Int) : CountMetricProducer :=
  if !p.activation.mIsActive then p.flushLocked eventTimeNs else p

def flushIfExpire (p : CountMetricProducer) (elapsedTimestampNs : Int) : CountMetricProducer :=
  if !p.activation.mIsActive then p
  else
    let p := { p with activation := p.activation.flushIfExpire elapsedTimestampNs }
    if !p.activation.mIsActive then p.onActiveStateChangedLocked elapsedTimestampNs else p

def activateLocked (p : CountMetricProducer) (activationTrackerIndex : Nat) (elapsedTimestampNs : Int) :
    CountMetricProducer :=
  let oldActiveState := p.activation.mIsActive
  let p := { p with activation := p.activation.activateLocked activationTrackerIndex elapsedTimestampNs }
  if !oldActiveState && p.activation.mIsActive then p.onActiveStateChangedLocked elapsedTimestampNs else p

def cancelEventActivationLocked (p : CountMetricProducer) (deactivationTrackerIndex : Nat) : CountMetricProducer :=
  { p with activation := p.activation.cancelEventActivationLocked deactivationTrackerIndex }

def loadActiveMetricLocked (p : CountMetricProducer) (activeMetric : List ActiveEventActivation) (currentTimeNs : Int) :
    CountMetricProducer :=
  { p with activation := p.activation.loadActiveMetricLocked activeMetric currentTimeNs }

def notifyAppUpgrade (p : CountMetricProducer) (eventTimeNs : Int) : CountMetricProducer := p.flushLocked eventTimeNs

def onStatsdInitCompleted (p : CountMetricProducer) (eventTimeNs : Int) : CountMetricProducer := p.flushLocked eventTimeNs

/-! ## Reports -/

def bucketInfo (p : CountMetricProducer) (bucket : CountBucket) : CountBucketInfo :=
  if bucket.mBucketEndNs - bucket.mBucketStartNs ≠ p.mBucketSizeNs then
    .partialBucket (bucket.mBucketStartNs.tdiv 1000000) (bucket.mBucketEndNs.tdiv 1000000) bucket.mCount
  else .fullBucket (p.getBucketNumFromEndTimeNs bucket.mBucketEndNs) bucket.mCount

/-- The report of the past buckets. -/
def report (p : CountMetricProducer) : CountReport where
  is_active := p.activation.mIsActive
  data :=
    if p.mPastBuckets.entries.isEmpty then none
    else some (p.mTimeBaseNs, p.mBucketSizeNs, p.mPastBuckets.entries.map fun counter => (counter.1, counter.2.map p.bucketInfo))

def onDumpReportLocked (p : CountMetricProducer) (dumpTimeNs : Int) (include_current_partial_bucket erase_data : Bool) :
    CountMetricProducer × CountReport :=
  let p := if include_current_partial_bucket then p.flushLocked dumpTimeNs else p.flushIfNeededLocked dumpTimeNs
  (if erase_data then { p with mPastBuckets := ∅ } else p, p.report)

end CountMetricProducer

end Statsd.Metrics
