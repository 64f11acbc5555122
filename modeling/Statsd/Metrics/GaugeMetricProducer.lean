/-
Gauge metrics (metrics/GaugeMetricProducer.{h,cpp} over metrics/MetricProducer.{h,cpp}). A producer keeps
the fields of matched or pulled atoms of each key in the current bucket. A bucket ends with the metric's
grid, or early at a forced split. With anomaly trackers, the first field of the first atom of each key is
the value of the key in the bucket.

A matched event may trigger a pull, whose atoms are matched events in turn: an event comes with the outcome
of the pull that it would trigger. Calls to the anomaly trackers are only recorded, and the report is not
written. Times are exact integers.
-/
import Statsd.Metrics.CountMetricProducer
import Statsd.Metrics.ValueMetricProducer

namespace Statsd

def kTimestampTruncationStartTag : Int := 300000
def kTimestampTruncationEndTag : Int := 304999

/-- `truncateTimestampIfNecessary`: some timestamps are rounded down to five minutes. -/
def truncateTimestampIfNecessary (shouldTruncateTimestamp : Bool) (tagId elapsedTimestampNs : Int) : Int :=
  if shouldTruncateTimestamp || (decide (tagId ≥ kTimestampTruncationStartTag) && decide (tagId ≤ kTimestampTruncationEndTag)) then
    (elapsedTimestampNs.tdiv NS_PER_SEC).tdiv (5 * 60) * NS_PER_SEC * (5 * 60)
  else elapsedTimestampNs

/-- `filterGaugeValues`: the values that each matcher matches, matcher by matcher. -/
def filterGaugeValues (matcherFields : List Matcher) (values : List (Field × Value)) : List (Field × Value) :=
  matcherFields.flatMap fun field => values.filter fun value => value.1.matches field

namespace Metrics

/-! ## The data -/

inductive SamplingType where
  | RANDOM_ONE_SAMPLE | ALL_CONDITION_CHANGES | CONDITION_CHANGE_TO_TRUE | FIRST_N_SAMPLES
deriving DecidableEq

/-- An atom in a bucket. The history of the run is kept with it: the value on which `detectAndDeclareAnomaly`
was called for the atom, if it was. -/
structure GaugeAtom where
  mFields : List (Field × Value)
  mElapsedTimestampNs : Int
  detectedOn : Option Int
deriving DecidableEq

structure GaugeBucket where
  mBucketStartNs : Int
  mBucketEndNs : Int
  mGaugeAtoms : List GaugeAtom

abbrev DimToGaugeAtomsMap := UMap MetricDimensionKey (List GaugeAtom)

/-- The constants of a producer; a pushed metric has no pull tag, and a metric without a trigger event has -1. -/
structure GaugeMetric extends EventSlicing where
  mTimeBaseNs : Int
  mBucketSizeNs : Int
  mIsPulled : Bool
  mTriggerAtomId : Int
  mMinBucketSizeNs : Int
  mMaxPullDelayNs : Int
  mDimensionSoftLimit : Nat
  mDimensionHardLimit : Nat
  mGaugeAtomsPerDimensionLimit : Nat
  mSplitBucketForAppUpgrade : Bool
  mFieldMatchers : List Matcher
  mSamplingType : SamplingType
  /-- The number of anomaly trackers. -/
  mAnomalyTrackers : Nat

structure GaugeMetricProducer extends GaugeMetric where
  activation : MetricProducer
  mCondition : ConditionState
  mCurrentBucketStartTimeNs : Int
  mCurrentBucketNum : Int
  mCurrentSlicedBucket : DimToGaugeAtomsMap
  mCurrentSlicedBucketForAnomaly : UMap MetricDimensionKey Int
  mPastBuckets : UMap MetricDimensionKey (List GaugeBucket)
  mSkippedBuckets : List SkippedBucket
  anomalyCalls : List CountAnomalyCall
  /-- The buckets that `updateCurrentSlicedBucketForAnomaly` went over. -/
  updatedFrom : List DimToGaugeAtomsMap

/-- An event that matched the metric's what or its trigger, and the outcome of the pull when it triggers one: whether it
succeeds, when it is over, and the atoms that match the metric's what. -/
inductive GaugeEvent where
  | mk (event : MatchedEvent) (tagId : Int) (shouldTruncateTimestamp pullSuccess : Bool) (elapsedRealtimeNs : Int)
    (allData : List GaugeEvent)

/-- The time that an event comes with. -/
def GaugeEvent.elapsedTimestampNs : GaugeEvent → Int
  | mk event _ _ _ _ _ => event.elapsedTimestampNs

/-- The outcome of a pull. -/
structure GaugePull where
  success : Bool
  elapsedRealtimeNs : Int
  allData : List GaugeEvent

/-- The value of a field for the anomaly trackers. -/
def gaugeVal : Value → Int
  | .INT int_value => int_value
  | .LONG long_value => long_value
  | _ => 0

/-- The value of the only field, for an atom that has one. -/
def onlyValue : List (Field × Value) → Option Int
  | [field] => some (gaugeVal field.2)
  | _ => none

/-- What the flush path reads of the atoms of a key: nothing when there is no atom, otherwise the first field of the first
atom, which may have none. -/
inductive FirstField where
  | noAtom
  | undefined
  | value (gaugeVal : Int)
deriving DecidableEq

def firstField : List GaugeAtom → FirstField
  | [] => .noAtom
  | atom :: _ =>
    match atom.mFields with
    | [] => .undefined
    | field :: _ => .value (gaugeVal field.2)

namespace GaugeMetricProducer

/-! ## Buckets -/

def getCurrentBucketEndTimeNs (p : GaugeMetricProducer) : Int := p.mTimeBaseNs + (p.mCurrentBucketNum + 1) * p.mBucketSizeNs

/-- Where the first field is read of an atom without fields, which is undefined in the source, the key is left as it is. -/
def updateCurrentSlicedBucketForAnomaly (p : GaugeMetricProducer) : GaugeMetricProducer :=
  { p with
    mCurrentSlicedBucketForAnomaly := p.mCurrentSlicedBucket.entries.foldl (fun values slice =>
      match firstField slice.2 with
      | .noAtom | .undefined => values
      | .value v => values.insert slice.1 v) p.mCurrentSlicedBucketForAnomaly
    updatedFrom := p.updatedFrom ++ [p.mCurrentSlicedBucket] }

/-- The part of `flushCurrentBucketLocked` about the past buckets. A bucket that is too small is skipped, with its drop as
the only one that the skipped bucket has. -/
def closeBucket (p : GaugeMetricProducer) (eventTimeNs bucketEndTime : Int) : GaugeMetricProducer :=
  if bucketEndTime - p.mCurrentBucketStartTimeNs ≥ p.mMinBucketSizeNs then
    { p with
      mPastBuckets := p.mCurrentSlicedBucket.entries.foldl
        (fun past slice => UMap.push past slice.1 ⟨p.mCurrentBucketStartTimeNs, bucketEndTime, slice.2⟩) p.mPastBuckets }
  else
    { p with
      mSkippedBuckets := p.mSkippedBuckets ++
        [⟨p.mCurrentBucketStartTimeNs, bucketEndTime, [⟨.BUCKET_TOO_SMALL, eventTimeNs⟩]⟩] }

/-- The part of `flushCurrentBucketLocked` about the anomaly trackers. -/
def feedAnomalyTrackers (p : GaugeMetricProducer) (eventTimeNs fullBucketEndTimeNs : Int) : GaugeMetricProducer :=
  if p.mAnomalyTrackers > 0 then
    let p := p.updateCurrentSlicedBucketForAnomaly
    if eventTimeNs > fullBucketEndTimeNs then
      -- a full bucket
      { p with
        anomalyCalls := p.anomalyCalls ++ [.addPastBucket p.mCurrentSlicedBucketForAnomaly p.mCurrentBucketNum]
        mCurrentSlicedBucketForAnomaly := ∅ }
    else p
  else p

def flushCurrentBucketLocked (p : GaugeMetricProducer) (eventTimeNs nextBucketStartTimeNs : Int) : GaugeMetricProducer :=
  let fullBucketEndTimeNs := p.getCurrentBucketEndTimeNs
  let bucketEndTime := if eventTimeNs < fullBucketEndTimeNs then eventTimeNs else fullBucketEndTimeNs
  { (p.closeBucket eventTimeNs bucketEndTime).feedAnomalyTrackers eventTimeNs fullBucketEndTimeNs with
    mCurrentSlicedBucket := ∅
    mCurrentBucketStartTimeNs := nextBucketStartTimeNs }

def flushIfNeededLocked (p : GaugeMetricProducer) (eventTimeNs : Int) : GaugeMetricProducer :=
  let currentBucketEndTimeNs := p.getCurrentBucketEndTimeNs
  if eventTimeNs < currentBucketEndTimeNs then p
  else
    let numBucketsForward := 1 + (eventTimeNs - currentBucketEndTimeNs).tdiv p.mBucketSizeNs
    let nextBucketNs := currentBucketEndTimeNs + (numBucketsForward - 1) * p.mBucketSizeNs
    let p := p.flushCurrentBucketLocked eventTimeNs nextBucketNs
    { p with mCurrentBucketNum := p.mCurrentBucketNum + numBucketsForward }

/-- `MetricProducer::flushLocked`. -/
def flushLocked (p : GaugeMetricProducer) (eventTimeNs : Int) : GaugeMetricProducer :=
  (p.flushIfNeededLocked eventTimeNs).flushCurrentBucketLocked eventTimeNs eventTimeNs

/-- The constructor. No anomaly tracker is there yet to be told of a bucket. -/
def new (metric : GaugeMetric) (activations : EventActivations) (initialCondition : ConditionState) (startTimeNs : Int) :
    GaugeMetricProducer :=
  let p : GaugeMetricProducer :=
    { metric with
      activation := .new activations
      mCondition := initialCondition
      mCurrentBucketStartTimeNs := metric.mTimeBaseNs
      mCurrentBucketNum := 0
      mCurrentSlicedBucket := ∅
      mCurrentSlicedBucketForAnomaly := ∅
      mPastBuckets := ∅
      mSkippedBuckets := []
      anomalyCalls := []
      updatedFrom := [] }
  { p.flushIfNeededLocked startTimeNs with mCurrentBucketStartTimeNs := startTimeNs, anomalyCalls := [], updatedFrom := [] }

/-! ## Events -/

def hitGuardRailLocked (p : GaugeMetricProducer) (newKey : MetricDimensionKey) : Bool :=
  if (p.mCurrentSlicedBucket.lookup newKey).isSome then false
  else if p.mCurrentSlicedBucket.entries.length > p.mDimensionSoftLimit - 1 then
    decide (p.mCurrentSlicedBucket.entries.length + 1 > p.mDimensionHardLimit)
  else false

/-- The fields that the filter keeps, all when there is no filter, without those of the dimensions. -/
def getGaugeFields (p : GaugeMetricProducer) (values : List (Field × Value)) : List (Field × Value) :=
  let gaugeFields := if p.mFieldMatchers.length > 0 then filterGaugeValues p.mFieldMatchers values else values
  p.mDimensionsInWhat.foldl (fun gaugeFields field => gaugeFields.filter fun it => !it.1.matches field) gaugeFields

/-- The value on which `detectAndDeclareAnomaly` is called for an atom with the fields. -/
def liveValue (p : GaugeMetricProducer) (mFields : List (Field × Value)) : Option Int :=
  if p.mAnomalyTrackers > 0 then onlyValue mFields else none

/-- The part of `onMatchedLogEventInternalLocked` for an event that triggers no pull. -/
def addGaugeAtom (p : GaugeMetricProducer) (event : MatchedEvent) (tagId : Int) (shouldTruncateTimestamp : Bool) :
    GaugeMetricProducer :=
  let eventKey := p.metricKey event
  if (p.mCurrentSlicedBucket.lookup eventKey).isSome && decide (p.mSamplingType = .RANDOM_ONE_SAMPLE) then p
  else if p.hitGuardRailLocked eventKey then p
  else
    let atoms := UMap.getD p.mCurrentSlicedBucket eventKey []
    -- the key is entered even when there is no room for an atom
    if atoms.length ≥ p.mGaugeAtomsPerDimensionLimit then
      { p with mCurrentSlicedBucket := p.mCurrentSlicedBucket.insert eventKey atoms }
    else
      let mFields := p.getGaugeFields event.values
      let gaugeAtom : GaugeAtom :=
        ⟨mFields, truncateTimestampIfNecessary shouldTruncateTimestamp tagId event.elapsedTimestampNs, p.liveValue mFields⟩
      { p with
        mCurrentSlicedBucket := p.mCurrentSlicedBucket.insert eventKey (atoms ++ [gaugeAtom])
        anomalyCalls := p.anomalyCalls ++ (p.liveValue mFields).toList.map fun v =>
          .detectAndDeclareAnomaly event.elapsedTimestampNs p.mCurrentBucketNum eventKey v }

/-- `triggerPuller`. -/
def triggerPuller (p : GaugeMetricProducer) : Bool :=
  match p.mSamplingType with
  | .RANDOM_ONE_SAMPLE => decide (p.mCondition = .kTrue) && p.mCurrentSlicedBucket.entries.isEmpty
  | .CONDITION_CHANGE_TO_TRUE | .FIRST_N_SAMPLES => decide (p.mCondition = .kTrue)
  | .ALL_CONDITION_CHANGES => false

mutual

/-- `onMatchedLogEventLocked` and `onMatchedLogEventInternalLocked`, for an event at time `eventTimeNs`. -/
def onMatchedLogEventLocked : GaugeEvent → Int → GaugeMetricProducer → GaugeMetricProducer
  | .mk event tagId shouldTruncateTimestamp pullSuccess elapsedRealtimeNs allData, eventTimeNs, p =>
    if !p.activation.mIsActive then p
    else if eventTimeNs < p.mTimeBaseNs then p
    else if !p.conditionMet p.mCondition event then p
    else if eventTimeNs < p.mCurrentBucketStartTimeNs then p
    else
      let p := p.flushIfNeededLocked eventTimeNs
      if p.mTriggerAtomId = tagId then
        -- `pullAndMatchEventsLocked`
        if !p.triggerPuller || !pullSuccess then p
        else if elapsedRealtimeNs - eventTimeNs > p.mMaxPullDelayNs then p
        else onMatchedLogEventsLocked allData eventTimeNs p
      else p.addGaugeAtom { event with elapsedTimestampNs := eventTimeNs } tagId shouldTruncateTimestamp

/-- The loop over the atoms of a pull. -/
def onMatchedLogEventsLocked : List GaugeEvent → Int → GaugeMetricProducer → GaugeMetricProducer
  | [], _, p => p
  | data :: allData, eventTimeNs, p => onMatchedLogEventsLocked allData eventTimeNs (onMatchedLogEventLocked data eventTimeNs p)

end

/-! ## Pulls -/

def pullAndMatchEventsLocked (p : GaugeMetricProducer) (pull : GaugePull) (timestampNs : Int) : GaugeMetricProducer :=
  if !p.triggerPuller || !pull.success then p
  else if pull.elapsedRealtimeNs - timestampNs > p.mMaxPullDelayNs then p
  else onMatchedLogEventsLocked pull.allData timestampNs p

/-- A pull that the metric registered for. Its atoms come with their own times. -/
def onDataPulled (p : GaugeMetricProducer) (pull : GaugePull) (originalPullTimeNs : Int) : GaugeMetricProducer :=
  if !pull.success || pull.allData.isEmpty then p
  else if pull.elapsedRealtimeNs - originalPullTimeNs > p.mMaxPullDelayNs then p
  else pull.allData.foldl (fun p data => onMatchedLogEventLocked data data.elapsedTimestampNs p) p

/-- The pull of a new bucket. -/
def pullForBucket (p : GaugeMetricProducer) (pull : GaugePull) (timestampNs : Int) : GaugeMetricProducer :=
  if p.mIsPulled && decide (p.mSamplingType = .RANDOM_ONE_SAMPLE) then p.pullAndMatchEventsLocked pull timestampNs else p

def prepareFirstBucketLocked (p : GaugeMetricProducer) (pull : GaugePull) : GaugeMetricProducer :=
  if p.activation.mIsActive then p.pullForBucket pull p.mCurrentBucketStartTimeNs else p

/-! ## Changes -/

/-- `onConditionChangedLocked`, and `onSlicedConditionMayChangeLocked` with the overall condition. -/
def onConditionChangedLocked (p : GaugeMetricProducer) (conditionMet : Bool) (eventTimeNs : Int) (pull : GaugePull) :
    GaugeMetricProducer :=
  let p := { p with mCondition := .ofBool conditionMet }
  if !p.activation.mIsActive then p
  else
    let p := p.flushIfNeededLocked eventTimeNs
    if p.mIsPulled && decide (p.mTriggerAtomId = -1) then p.pullAndMatchEventsLocked pull eventTimeNs else p

def onActiveStateChangedLocked (p : GaugeMetricProducer) (eventTimeNs : Int) (pull : GaugePull) : GaugeMetricProducer :=
  let p := if !p.activation.mIsActive then p.flushLocked eventTimeNs else p
  if p.mCondition ≠ .kTrue ∨ p.mIsPulled = false then p
  else if p.mTriggerAtomId = -1 ∨ (p.activation.mIsActive = true ∧ p.mSamplingType = .RANDOM_ONE_SAMPLE) then
    p.pullAndMatchEventsLocked pull eventTimeNs
  else p

def flushIfExpire (p : GaugeMetricProducer) (elapsedTimestampNs : Int) (pull : GaugePull) : GaugeMetricProducer :=
  if !p.activation.mIsActive then p
  else
    let p := { p with activation := p.activation.flushIfExpire elapsedTimestampNs }
    if !p.activation.mIsActive then p.onActiveStateChangedLocked elapsedTimestampNs pull else p

def activateLocked (p : GaugeMetricProducer) (activationTrackerIndex : Nat) (elapsedTimestampNs : Int) (pull : GaugePull) :
    GaugeMetricProducer :=
  let oldActiveState := p.activation.mIsActive
  let p := { p with activation := p.activation.activateLocked activationTrackerIndex elapsedTimestampNs }
  if !oldActiveState && p.activation.mIsActive then p.onActiveStateChangedLocked elapsedTimestampNs pull else p

def cancelEventActivationLocked (p : GaugeMetricProducer) (deactivationTrackerIndex : Nat) : GaugeMetricProducer :=
  { p with activation := p.activation.cancelEventActivationLocked deactivationTrackerIndex }

def loadActiveMetricLocked (p : GaugeMetricProducer) (activeMetric : List ActiveEventActivation) (currentTimeNs : Int) :
    GaugeMetricProducer :=
  { p with activation := p.activation.loadActiveMetricLocked activeMetric currentTimeNs }

def notifyAppUpgrade (p : GaugeMetricProducer) (eventTimeNs : Int) (pull : GaugePull) : GaugeMetricProducer :=
  if !p.mSplitBucketForAppUpgrade then p else (p.flushLocked eventTimeNs).pullForBucket pull eventTimeNs

def onStatsdInitCompleted (p : GaugeMetricProducer) (eventTimeNs : Int) (pull : GaugePull) : GaugeMetricProducer :=
  (p.flushLocked eventTimeNs).pullForBucket pull eventTimeNs

/-! ## Reports -/

def clearPastBucketsLocked (p : GaugeMetricProducer) (dumpTimeNs : Int) : GaugeMetricProducer :=
  { p.flushIfNeededLocked dumpTimeNs with mPastBuckets := ∅, mSkippedBuckets := [] }

def dropDataLocked (p : GaugeMetricProducer) (dropTimeNs : Int) : GaugeMetricProducer :=
  { p.flushIfNeededLocked dropTimeNs with mPastBuckets := ∅ }

/-- `onDumpReportLocked`, up to the report itself. -/
def onDumpReportLocked (p : GaugeMetricProducer) (dumpTimeNs : Int) (include_current_partial_bucket erase_data : Bool) :
    GaugeMetricProducer :=
  let p := if include_current_partial_bucket then p.flushLocked dumpTimeNs else p.flushIfNeededLocked dumpTimeNs
  -- without buckets to report the function returns before the erasure, which has nothing to erase then
  if erase_data then { p with mPastBuckets := ∅, mSkippedBuckets := [] } else p

/-! ## Calls -/

/-- The calls a producer gets, with the outcome of the pull they may make. -/
inductive Call where
  | matchedLogEvent (event : GaugeEvent)
  | conditionChanged (conditionMet : Bool) (pull : GaugePull)
  | flushIfExpire (pull : GaugePull)
  | activate (activationTrackerIndex : Nat) (pull : GaugePull)
  | cancelEventActivation (deactivationTrackerIndex : Nat)
  | loadActiveMetric (activeMetric : List ActiveEventActivation)
  | appUpgrade (pull : GaugePull)
  | statsdInitCompleted (pull : GaugePull)
  | dataPulled (pull : GaugePull)
  | prepareFirstBucket (pull : GaugePull)
  | dumpReport (include_current_partial_bucket erase_data : Bool)
  | dropData
  | clearPastBuckets

/-- The call at time `t`. A scheduled pull reaches only the metrics that registered for it. -/
def call (p : GaugeMetricProducer) (t : Int) : Call → GaugeMetricProducer
  | .matchedLogEvent event => onMatchedLogEventLocked event t p
  | .conditionChanged conditionMet pull => p.onConditionChangedLocked conditionMet t pull
  | .flushIfExpire pull => p.flushIfExpire t pull
  | .activate activationTrackerIndex pull => p.activateLocked activationTrackerIndex t pull
  | .cancelEventActivation deactivationTrackerIndex => p.cancelEventActivationLocked deactivationTrackerIndex
  | .loadActiveMetric activeMetric => p.loadActiveMetricLocked activeMetric t
  | .appUpgrade pull => p.notifyAppUpgrade t pull
  | .statsdInitCompleted pull => p.onStatsdInitCompleted t pull
  | .dataPulled pull =>
    if p.mIsPulled && decide (p.mSamplingType = .RANDOM_ONE_SAMPLE) then p.onDataPulled pull t else p
  | .prepareFirstBucket pull => p.prepareFirstBucketLocked pull
  | .dumpReport include_current_partial_bucket erase_data => p.onDumpReportLocked t include_current_partial_bucket erase_data
  | .dropData => p.dropDataLocked t
  | .clearPastBuckets => p.clearPastBucketsLocked t

end GaugeMetricProducer

end Metrics

end Statsd
