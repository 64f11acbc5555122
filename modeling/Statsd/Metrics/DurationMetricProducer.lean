/-
Duration metrics (metrics/DurationMetricProducer.{h,cpp}). A producer keeps a duration tracker for each key in what; the trackers
follow the internal keys that are started. The two kinds of trackers, for sums and for maxima, are the instances of a class with the
virtual functions of DurationTracker.h.

What the condition wizard answers for the metric's condition is part of each call. The anomaly trackers do not call back and are
known to the duration trackers only. Times are exact integers.
-/
import Statsd.Metrics.Activation
import Statsd.Metrics.MatchedEvent
import Statsd.Metrics.MaxDurationTracker

namespace Statsd

namespace UMap

variable {K V : Type} [DecidableEq K]

/-- A loop that changes the value of every key. -/
def mapKeyed (f : K → V → V) (m : UMap K V) : UMap K V where
  entries := m.entries.map fun it => ⟨it.1, f it.1 it.2⟩
  nodupKeys := by
    have : (m.entries.map fun it => (⟨it.1, f it.1 it.2⟩ : Sigma fun _ : K => V)).keys = m.entries.keys := by
      simp [List.keys]
    rw [List.NodupKeys, this]
    exact m.nodupKeys

@[simp] theorem lookup_mapKeyed (f : K → V → V) (m : UMap K V) (k : K) : (m.mapKeyed f).lookup k = (m.lookup k).map (f k) :=
  List.dlookup_map₂ k

end UMap

namespace Metrics

/-- The virtual functions of a duration tracker; `flushCurrentBucket` also returns whether the tracker is done. -/
class DurationTracker (T : Type) where
  new : (eventKey : MetricDimensionKey) → (nesting : Bool) →
    (currentBucketStartNs currentBucketNum startTimeNs bucketSizeNs : Int) → (conditionSliced : Bool) → T
  noteStart : T → (key : HashableDimensionKey) → (condition : Bool) → (eventTime : Int) → ConditionKey → T
  noteStop : T → (key : HashableDimensionKey) → (eventTime : Int) → (stopAll : Bool) → T
  noteStopAll : T → (eventTime : Int) → T
  onSlicedConditionMayChange : T → (query : ConditionKey → ConditionState) → (timestamp : Int) → T
  onConditionChanged : T → (condition : Bool) → (timestamp : Int) → T
  onStateChanged : T → (timestamp atomId : Int) → (newState : Value) → T
  flushCurrentBucket : T → (eventTimeNs : Int) → PastBuckets → T × PastBuckets × Bool

/-- The trackers of SUM metrics. -/
instance : DurationTracker OringDurationTracker where
  new := OringDurationTracker.new
  noteStart := OringDurationTracker.noteStart
  noteStop := OringDurationTracker.noteStop
  noteStopAll := OringDurationTracker.noteStopAll
  onSlicedConditionMayChange := OringDurationTracker.onSlicedConditionMayChange
  onConditionChanged := OringDurationTracker.onConditionChanged
  onStateChanged := OringDurationTracker.onStateChanged
  flushCurrentBucket := OringDurationTracker.flushCurrentBucket

/-- The trackers of MAX_SPARSE metrics; they do not handle states. -/
instance : DurationTracker MaxDurationTracker where
  new := MaxDurationTracker.new
  noteStart := MaxDurationTracker.noteStart
  noteStop := MaxDurationTracker.noteStop
  noteStopAll := MaxDurationTracker.noteStopAll
  onSlicedConditionMayChange := MaxDurationTracker.onSlicedConditionMayChange
  onConditionChanged := MaxDurationTracker.onConditionChanged
  onStateChanged := fun tracker _ _ _ => tracker
  flushCurrentBucket := MaxDurationTracker.flushCurrentBucket

/-- The answers of the condition wizard for the condition of the metric. -/
structure ConditionWizard where
  query : ConditionKey → ConditionState
  IsChangedDimensionTrackable : Bool
  IsSimpleCondition : Bool
  getUnSlicedPartConditionState : ConditionState
  getChangedToTrueDimensions : Option (Finset HashableDimensionKey)
  getChangedToFalseDimensions : Option (Finset HashableDimensionKey)
  getSlicedDimensionMap : UMap HashableDimensionKey Int

/-- The wizard's answers for a simple condition. -/
def ConditionWizard.ofSimple (conditionId : Int) (isPartialLink : Bool) (t : Condition.SimpleConditionTracker) : ConditionWizard where
  query := fun parameters => t.isConditionMet (parameters.lookup conditionId) isPartialLink .kNotEvaluated
  IsChangedDimensionTrackable := true
  IsSimpleCondition := true
  getUnSlicedPartConditionState := .kUnknown
  getChangedToTrueDimensions := t.getChangedToTrueDimensions
  getChangedToFalseDimensions := t.getChangedToFalseDimensions
  getSlicedDimensionMap := t.mSlicedConditionState

/-- The constants of a producer. -/
structure DurationMetric extends EventSlicing where
  mStartIndex : Int
  mStopIndex : Int
  mStopAllIndex : Int
  mNested : Bool
  mInternalDimensions : List Matcher
  mTimeBaseNs : Int
  mBucketSizeNs : Int

namespace DurationMetric

/-- The only link gives all output dimensions of the condition; `equalOutputDimensions` is the wizard's answer. -/
def hasLinksToAllConditionDimensions (m : DurationMetric) (equalOutputDimensions : List Matcher → Bool) : Bool :=
  match m.mMetric2ConditionLinks with
  | [link] => equalOutputDimensions link.conditionFields
  | _ => false

def mUseWhatDimensionAsInternalDimension (m : DurationMetric) : Bool := equalDimensions m.mDimensionsInWhat m.mInternalDimensions

/-- The internal key of an event. -/
def internalKey (m : DurationMetric) (whatKey : HashableDimensionKey) (values : List (Field × Value)) : HashableDimensionKey :=
  if m.mUseWhatDimensionAsInternalDimension then whatKey
  else if m.mInternalDimensions.isEmpty then DEFAULT_DIMENSION_KEY
  else filterValues m.mInternalDimensions values

end DurationMetric

structure DurationMetricProducer (T : Type) extends DurationMetric where
  activation : MetricProducer
  mCondition : ConditionState
  mHasLinksToAllConditionDimensionsInTracker : Bool
  mUnSlicedPartCondition : ConditionState
  mCurrentBucketStartTimeNs : Int
  mCurrentBucketNum : Int
  mCurrentSlicedDurationTrackerMap : UMap HashableDimensionKey T
  mPastBuckets : PastBuckets

namespace DurationMetricProducer

open DurationTracker

variable {T : Type} [DurationTracker T]

def mIsActive (p : DurationMetricProducer T) : Bool := p.activation.mIsActive

/-! ## Buckets -/

def getCurrentBucketEndTimeNs (p : DurationMetricProducer T) : Int := p.mTimeBaseNs + (p.mCurrentBucketNum + 1) * p.mBucketSizeNs

/-- The loop body for one tracker of `flushCurrentBucketLocked`. -/
def flushTracker (eventTimeNs : Int) (p : DurationMetricProducer T) (whatKey : HashableDimensionKey) : DurationMetricProducer T :=
  match p.mCurrentSlicedDurationTrackerMap.lookup whatKey with
  | none => p
  | some tracker =>
    let (tracker, mPastBuckets, done) := flushCurrentBucket tracker eventTimeNs p.mPastBuckets
    { p with
      mPastBuckets
      mCurrentSlicedDurationTrackerMap :=
        if done then p.mCurrentSlicedDurationTrackerMap.erase whatKey
        else p.mCurrentSlicedDurationTrackerMap.insert whatKey tracker }

def flushCurrentBucketLocked (p : DurationMetricProducer T) (eventTimeNs nextBucketStartTimeNs : Int) : DurationMetricProducer T :=
  { p.mCurrentSlicedDurationTrackerMap.keys.foldl (flushTracker eventTimeNs) p with
    mCurrentBucketStartTimeNs := nextBucketStartTimeNs }

def flushIfNeededLocked (p : DurationMetricProducer T) (eventTimeNs : Int) : DurationMetricProducer T :=
  let currentBucketEndTimeNs := p.getCurrentBucketEndTimeNs
  if currentBucketEndTimeNs > eventTimeNs then p
  else
    let numBucketsForward := 1 + (eventTimeNs - currentBucketEndTimeNs).tdiv p.mBucketSizeNs
    let nextBucketNs := currentBucketEndTimeNs + (numBucketsForward - 1) * p.mBucketSizeNs
    let p := p.flushCurrentBucketLocked eventTimeNs nextBucketNs
    { p with mCurrentBucketNum := p.mCurrentBucketNum + numBucketsForward }

/-- `MetricProducer::flushLocked`. -/
def flushLocked (p : DurationMetricProducer T) (eventTimeNs : Int) : DurationMetricProducer T :=
  (p.flushIfNeededLocked eventTimeNs).flushCurrentBucketLocked eventTimeNs eventTimeNs

/-- The constructor, before `initTrueDimensions`. -/
def new (metric : DurationMetric) (activations : EventActivations) (initialCondition : ConditionState)
    (equalOutputDimensions : List Matcher → Bool) (startTimeNs : Int) : DurationMetricProducer T :=
  let p : DurationMetricProducer T :=
    { metric with
      activation := .new activations
      mCondition := initialCondition
      mHasLinksToAllConditionDimensionsInTracker := metric.hasLinksToAllConditionDimensions equalOutputDimensions
      mUnSlicedPartCondition := .kUnknown
      mCurrentBucketStartTimeNs := metric.mTimeBaseNs
      mCurrentBucketNum := 0
      mCurrentSlicedDurationTrackerMap := ∅
      mPastBuckets := ∅ }
  { p.flushIfNeededLocked startTimeNs with mCurrentBucketStartTimeNs := startTimeNs }

/-! ## Events -/

def createDurationTracker (p : DurationMetricProducer T) (eventKey : MetricDimensionKey) : T :=
  DurationTracker.new eventKey p.mNested p.mCurrentBucketStartTimeNs p.mCurrentBucketNum p.mTimeBaseNs p.mBucketSizeNs
    p.mConditionSliced

/-- A loop over the trackers with their keys in what. -/
def mapTrackers (p : DurationMetricProducer T) (f : HashableDimensionKey → T → T) : DurationMetricProducer T :=
  { p with mCurrentSlicedDurationTrackerMap := p.mCurrentSlicedDurationTrackerMap.mapKeyed f }

def setTracker (p : DurationMetricProducer T) (whatKey : HashableDimensionKey) (tracker : T) : DurationMetricProducer T :=
  { p with mCurrentSlicedDurationTrackerMap := p.mCurrentSlicedDurationTrackerMap.insert whatKey tracker }

def hitGuardRailLocked (p : DurationMetricProducer T) (whatKey : HashableDimensionKey) : Bool :=
  if (p.mCurrentSlicedDurationTrackerMap.lookup whatKey).isSome then false
  else if p.mCurrentSlicedDurationTrackerMap.entries.length > kDimensionKeySizeSoftLimit - 1 then
    decide (p.mCurrentSlicedDurationTrackerMap.entries.length + 1 > kDimensionKeySizeHardLimit)
  else false

/-- The tracker a start is for; a new one if there is none yet, and none if that would be too many. -/
def startedTracker (p : DurationMetricProducer T) (eventKey : MetricDimensionKey) : Option T :=
  match p.mCurrentSlicedDurationTrackerMap.lookup eventKey.mDimensionKeyInWhat with
  | some tracker => some tracker
  | none => if p.hitGuardRailLocked eventKey.mDimensionKeyInWhat then none else some (p.createDurationTracker eventKey)

def handleStartEvent (p : DurationMetricProducer T) (eventKey : MetricDimensionKey) (conditionKeys : ConditionKey)
    (condition : Bool) (eventTimeNs : Int) (eventValues : List (Field × Value)) : DurationMetricProducer T :=
  let whatKey := eventKey.mDimensionKeyInWhat
  match p.startedTracker eventKey with
  | none => p
  | some tracker =>
    p.setTracker whatKey (noteStart tracker (p.internalKey whatKey eventValues) condition eventTimeNs conditionKeys)

/-- The part of `handleMatchedLogEventValuesLocked` about a stop. -/
def handleStopEvent (p : DurationMetricProducer T) (event : MatchedEvent) : DurationMetricProducer T :=
  let whatKey := (p.metricKey event).mDimensionKeyInWhat
  match p.mCurrentSlicedDurationTrackerMap.lookup whatKey with
  | none => p
  | some tracker =>
    p.setTracker whatKey (noteStop tracker (p.internalKey whatKey event.values) event.elapsedTimestampNs false)

/-- Whether a start counts at once: its condition is met and the metric is active. -/
def startCondition (p : DurationMetricProducer T) (event : MatchedEvent) : Bool :=
  p.conditionMet p.mCondition event && p.mIsActive

def handleMatchedLogEventValuesLocked (p : DurationMetricProducer T) (matcherIndex : Int) (event : MatchedEvent) :
    DurationMetricProducer T :=
  let eventTimeNs := event.elapsedTimestampNs
  if eventTimeNs < p.mTimeBaseNs then p
  else
    let p := if p.mIsActive then p.flushIfNeededLocked eventTimeNs else p
    if matcherIndex = p.mStopAllIndex then p.mapTrackers fun _ tracker => noteStopAll tracker eventTimeNs
    else if matcherIndex = p.mStopIndex then p.handleStopEvent event
    else
      p.handleStartEvent (p.metricKey event) (if p.mConditionSliced then p.conditionKey event else ∅) (p.startCondition event)
        eventTimeNs event.values

/-- The fake start events for the internal keys that are started already, as often as they are. -/
def trueDimensions (slicedWhatMap : UMap HashableDimensionKey Int) (outside : Outside) (startTimeNs : Int) : List MatchedEvent :=
  slicedWhatMap.entries.flatMap fun it => List.replicate it.2.toNat ⟨startTimeNs, it.1, outside⟩

def initTrueDimensions (p : DurationMetricProducer T) (slicedWhatMap : UMap HashableDimensionKey Int) (outside : Outside)
    (startTimeNs : Int) : DurationMetricProducer T :=
  (trueDimensions slicedWhatMap outside startTimeNs).foldl (fun q => q.handleMatchedLogEventValuesLocked p.mStartIndex) p

/-! ## Conditions -/

/-- The key to look a tracker up with among the keys of the condition. -/
def linkedConditionDimensionKey (p : DurationMetricProducer T) (whatKey : HashableDimensionKey) : HashableDimensionKey :=
  match p.mMetric2ConditionLinks with
  | link :: _ => getDimensionForCondition whatKey link
  | [] => []

/-- A part of the condition that is not sliced has changed: the trackers whose key is true follow it. -/
def followUnslicedPart (p : DurationMetricProducer T) (wizard : ConditionWizard) (currentUnSlicedPartCondition : Bool)
    (eventTime : Int) : DurationMetricProducer T :=
  p.mapTrackers fun whatKey tracker =>
    match wizard.getSlicedDimensionMap.lookup (p.linkedConditionDimensionKey whatKey) with
    | some startedCount => if startedCount > 0 then onConditionChanged tracker currentUnSlicedPartCondition eventTime else tracker
    | none => tracker

/-- The sliced part has changed: the trackers whose key has changed follow it. -/
def followChangedDimensions (p : DurationMetricProducer T) (changedToTrue changedToFalse : Finset HashableDimensionKey)
    (eventTime : Int) : DurationMetricProducer T :=
  p.mapTrackers fun whatKey tracker =>
    let key := p.linkedConditionDimensionKey whatKey
    let tracker := if key ∈ changedToTrue then onConditionChanged tracker true eventTime else tracker
    if key ∈ changedToFalse then onConditionChanged tracker false eventTime else tracker

/-- The end of `onSlicedConditionMayChangeLocked_opt1`, when the state of the unsliced part is known. -/
def followChange (p : DurationMetricProducer T) (wizard : ConditionWizard) (currentUnSlicedPartCondition : Bool)
    (eventTime : Int) : DurationMetricProducer T :=
  match wizard.getChangedToTrueDimensions, wizard.getChangedToFalseDimensions with
  | some changedToTrue, some changedToFalse =>
    if changedToTrue = ∅ ∧ changedToFalse = ∅ then p.followUnslicedPart wizard currentUnSlicedPartCondition eventTime
    else if currentUnSlicedPartCondition then p.followChangedDimensions changedToTrue changedToFalse eventTime
    else p
  | _, _ => p.followUnslicedPart wizard currentUnSlicedPartCondition eventTime

def onSlicedConditionMayChangeLocked_opt1 (p : DurationMetricProducer T) (wizard : ConditionWizard) (eventTime : Int) :
    DurationMetricProducer T :=
  if p.mMetric2ConditionLinks.length ≠ 1 ∨ p.mHasLinksToAllConditionDimensionsInTracker = false then p
  else if wizard.IsSimpleCondition then p.followChange wizard true eventTime
  else
    let unslicedPartState := wizard.getUnSlicedPartConditionState
    -- the unsliced part is still false
    if p.mUnSlicedPartCondition = .kFalse ∧ unslicedPartState = .kFalse then p
    else
      { p with mUnSlicedPartCondition := unslicedPartState }.followChange wizard (decide (unslicedPartState.rank > 0)) eventTime

def onSlicedConditionMayChangeInternalLocked (p : DurationMetricProducer T) (wizard : ConditionWizard) (eventTimeNs : Int) :
    DurationMetricProducer T :=
  if wizard.IsChangedDimensionTrackable && p.mHasLinksToAllConditionDimensionsInTracker then
    p.onSlicedConditionMayChangeLocked_opt1 wizard eventTimeNs
  else p.mapTrackers fun _ tracker => onSlicedConditionMayChange tracker wizard.query eventTimeNs

def onSlicedConditionMayChangeLocked (p : DurationMetricProducer T) (wizard : ConditionWizard) (eventTime : Int) :
    DurationMetricProducer T :=
  if !p.mIsActive then p
  else
    let p := p.flushIfNeededLocked eventTime
    if !p.mConditionSliced then p else p.onSlicedConditionMayChangeInternalLocked wizard eventTime

def onConditionChangedLocked (p : DurationMetricProducer T) (conditionMet : Bool) (eventTime : Int) : DurationMetricProducer T :=
  let p := { p with mCondition := .ofBool conditionMet }
  if !p.mIsActive then p
  else (p.flushIfNeededLocked eventTime).mapTrackers fun _ tracker => onConditionChanged tracker conditionMet eventTime

/-! ## Activations and states -/

def onActiveStateChangedLocked (p : DurationMetricProducer T) (wizard : ConditionWizard) (eventTimeNs : Int) :
    DurationMetricProducer T :=
  -- `MetricProducer::onActiveStateChangedLocked`
  let p := if !p.mIsActive then p.flushLocked eventTimeNs else p
  if !p.mConditionSliced then
    if p.mCondition ≠ .kTrue then p
    else
      let p := if p.mIsActive then p.flushIfNeededLocked eventTimeNs else p
      p.mapTrackers fun _ tracker => onConditionChanged tracker p.mIsActive eventTimeNs
  else if p.mIsActive then (p.flushIfNeededLocked eventTimeNs).onSlicedConditionMayChangeInternalLocked wizard eventTimeNs
  else p.mapTrackers fun _ tracker => onConditionChanged tracker p.mIsActive eventTimeNs

def flushIfExpire (p : DurationMetricProducer T) (wizard : ConditionWizard) (elapsedTimestampNs : Int) :
    DurationMetricProducer T :=
  if !p.mIsActive then p
  else
    let p := { p with activation := p.activation.flushIfExpire elapsedTimestampNs }
    if !p.mIsActive then p.onActiveStateChangedLocked wizard elapsedTimestampNs else p

def activateLocked (p : DurationMetricProducer T) (wizard : ConditionWizard) (activationTrackerIndex : Nat)
    (elapsedTimestampNs : Int) : DurationMetricProducer T :=
  let oldActiveState := p.mIsActive
  let p := { p with activation := p.activation.activateLocked activationTrackerIndex elapsedTimestampNs }
  if !oldActiveState && p.mIsActive then p.onActiveStateChangedLocked wizard elapsedTimestampNs else p

def cancelEventActivationLocked (p : DurationMetricProducer T) (deactivationTrackerIndex : Nat) : DurationMetricProducer T :=
  { p with activation := p.activation.cancelEventActivationLocked deactivationTrackerIndex }

def onStateChanged (p : DurationMetricProducer T) (eventTimeNs atomId : Int) (primaryKey : HashableDimensionKey)
    (newState : Field × Value) : DurationMetricProducer T :=
  let newStateCopy := p.mapStateValue atomId newState
  (p.flushIfNeededLocked eventTimeNs).mapTrackers fun whatKey tracker =>
    if containsLinkedStateValues whatKey primaryKey p.mMetric2StateLinks atomId then
      DurationTracker.onStateChanged tracker eventTimeNs atomId newStateCopy.2
    else tracker

/-! ## Reports -/

/-- The part of `onDumpReportLocked` that changes the producer. -/
def onDumpReportLocked (p : DurationMetricProducer T) (dumpTimeNs : Int) (include_current_partial_bucket erase_data : Bool) :
    DurationMetricProducer T :=
  let p := if include_current_partial_bucket then p.flushLocked dumpTimeNs else p.flushIfNeededLocked dumpTimeNs
  if erase_data then { p with mPastBuckets := ∅ } else p

def notifyAppUpgrade (p : DurationMetricProducer T) (eventTimeNs : Int) : DurationMetricProducer T := p.flushLocked eventTimeNs

/-! ## Calls -/

/-- The calls to a producer with what they are told; each comes with a time. -/
inductive Call where
  | matchedLogEvent (matcherIndex : Int) (values : List (Field × Value)) (outside : Outside)
  | conditionChanged (conditionMet : Bool)
  | slicedConditionMayChange (wizard : ConditionWizard)
  | stateChanged (atomId : Int) (primaryKey : HashableDimensionKey) (newState : Field × Value)
  | flushIfExpire (wizard : ConditionWizard)
  | activate (wizard : ConditionWizard) (activationTrackerIndex : Nat)
  | cancelEventActivation (deactivationTrackerIndex : Nat)
  | appUpgrade
  | dumpReport (include_current_partial_bucket erase_data : Bool)

def call (p : DurationMetricProducer T) (t : Int) : Call → DurationMetricProducer T
  | .matchedLogEvent matcherIndex values outside => p.handleMatchedLogEventValuesLocked matcherIndex ⟨t, values, outside⟩
  | .conditionChanged conditionMet => p.onConditionChangedLocked conditionMet t
  | .slicedConditionMayChange wizard => p.onSlicedConditionMayChangeLocked wizard t
  | .stateChanged atomId primaryKey newState => p.onStateChanged t atomId primaryKey newState
  | .flushIfExpire wizard => p.flushIfExpire wizard t
  | .activate wizard activationTrackerIndex => p.activateLocked wizard activationTrackerIndex t
  | .cancelEventActivation deactivationTrackerIndex => p.cancelEventActivationLocked deactivationTrackerIndex
  | .appUpgrade => p.notifyAppUpgrade t
  | .dumpReport include_current_partial_bucket erase_data => p.onDumpReportLocked t include_current_partial_bucket erase_data

theorem initTrueDimensions_eq_calls (p : DurationMetricProducer T) (slicedWhatMap : UMap HashableDimensionKey Int)
    (outside : Outside) (startTimeNs : Int) : p.initTrueDimensions slicedWhatMap outside startTimeNs =
      ((trueDimensions slicedWhatMap outside startTimeNs).map fun event =>
        (event.elapsedTimestampNs, Call.matchedLogEvent p.mStartIndex event.values event.outside)).foldl
        (fun q e => q.call e.1 e.2) p := by
  rw [List.foldl_map]
  rfl

/-! ## What a flush leaves -/

/-- Nothing but the trackers, their buckets and the bucket of the producer differs. -/
structure SameMetric (p p' : DurationMetricProducer T) : Prop where
  metric : p'.toDurationMetric = p.toDurationMetric
  activation : p'.activation = p.activation
  condition : p'.mCondition = p.mCondition

theorem SameMetric.refl (p : DurationMetricProducer T) : SameMetric p p := ⟨rfl, rfl, rfl⟩

theorem SameMetric.trans {p p' p'' : DurationMetricProducer T} (h : SameMetric p p') (h' : SameMetric p' p'') : SameMetric p p'' :=
  ⟨h'.metric.trans h.metric, h'.activation.trans h.activation, h'.condition.trans h.condition⟩

/-- What becomes of a tracker at a flush. -/
inductive TrackerFlush (eventTimeNs : Int) : Option T → Option T → Prop where
  | none : TrackerFlush eventTimeNs none none
  | done (tracker : T) (output : PastBuckets) (h : (flushCurrentBucket tracker eventTimeNs output).2.2 = true) :
      TrackerFlush eventTimeNs (some tracker) none
  | kept (tracker : T) (output : PastBuckets) (h : (flushCurrentBucket tracker eventTimeNs output).2.2 = false) :
      TrackerFlush eventTimeNs (some tracker) (some (flushCurrentBucket tracker eventTimeNs output).1)

theorem flushTracker_same (e : Int) (p : DurationMetricProducer T) (whatKey : HashableDimensionKey) :
    SameMetric p (flushTracker e p whatKey) := by
  unfold flushTracker
  split
  · exact .refl p
  · exact ⟨rfl, rfl, rfl⟩

theorem flushTracker_lookup (e : Int) (p : DurationMetricProducer T) (whatKey k : HashableDimensionKey) :
    (k ≠ whatKey → (flushTracker e p whatKey).mCurrentSlicedDurationTrackerMap.lookup k =
      p.mCurrentSlicedDurationTrackerMap.lookup k) ∧
    TrackerFlush e (p.mCurrentSlicedDurationTrackerMap.lookup whatKey)
      ((flushTracker e p whatKey).mCurrentSlicedDurationTrackerMap.lookup whatKey) := by
  unfold flushTracker
  cases hl : p.mCurrentSlicedDurationTrackerMap.lookup whatKey with
  | none =>
    refine ⟨fun _ => rfl, ?_⟩
    rw [hl]
    exact .none
  | some tracker =>
    dsimp only
    cases hdone : (flushCurrentBucket tracker e p.mPastBuckets).2.2 with
    | true =>
      simp only [if_true]
      refine ⟨fun hk => AList.lookup_erase_ne hk, ?_⟩
      rw [AList.lookup_erase]
      exact .done tracker _ hdone
    | false =>
      simp only [Bool.false_eq_true, if_false]
      refine ⟨fun hk => AList.lookup_insert_ne hk, ?_⟩
      rw [AList.lookup_insert]
      exact .kept tracker _ hdone

theorem foldl_flushTracker (e : Int) (l : List HashableDimensionKey) (hl : l.Nodup) (p : DurationMetricProducer T) :
    SameMetric p (l.foldl (flushTracker e) p) ∧ ∀ k,
      (k ∉ l → (l.foldl (flushTracker e) p).mCurrentSlicedDurationTrackerMap.lookup k =
        p.mCurrentSlicedDurationTrackerMap.lookup k) ∧
      (k ∈ l → TrackerFlush e (p.mCurrentSlicedDurationTrackerMap.lookup k)
        ((l.foldl (flushTracker e) p).mCurrentSlicedDurationTrackerMap.lookup k)) := by
  induction l generalizing p with
  | nil => exact ⟨.refl p, fun k => ⟨fun _ => rfl, fun h => absurd h List.not_mem_nil⟩⟩
  | cons a l ih =>
    rw [List.nodup_cons] at hl
    obtain ⟨hsame, hrest⟩ := ih hl.2 (flushTracker e p a)
    rw [List.foldl_cons]
    refine ⟨(flushTracker_same e p a).trans hsame, fun k => ?_⟩
    obtain ⟨hother, hhere⟩ := flushTracker_lookup e p a k
    by_cases hk : k = a
    · subst hk
      refine ⟨fun h => absurd List.mem_cons_self h, fun _ => ?_⟩
      rw [(hrest k).1 hl.1]
      exact hhere
    · have hmem : k ∈ a :: l ↔ k ∈ l := by simp [hk]
      rw [hmem, ← hother hk]
      exact hrest k

theorem foldl_flushTracker_num (e : Int) (l : List HashableDimensionKey) (p : DurationMetricProducer T) :
    (l.foldl (flushTracker e) p).mCurrentBucketNum = p.mCurrentBucketNum := by
  induction l generalizing p with
  | nil => rfl
  | cons k l ih =>
    rw [List.foldl_cons, ih]
    unfold flushTracker
    split <;> rfl

theorem flushCurrentBucketLocked_spec (p : DurationMetricProducer T) (e next : Int) :
    SameMetric p (p.flushCurrentBucketLocked e next) ∧ ∀ k, TrackerFlush e (p.mCurrentSlicedDurationTrackerMap.lookup k)
      ((p.flushCurrentBucketLocked e next).mCurrentSlicedDurationTrackerMap.lookup k) := by
  obtain ⟨hsame, hlook⟩ := foldl_flushTracker e p.mCurrentSlicedDurationTrackerMap.keys
    p.mCurrentSlicedDurationTrackerMap.keys_nodup p
  refine ⟨⟨hsame.metric, hsame.activation, hsame.condition⟩, fun k => ?_⟩
  by_cases hk : k ∈ p.mCurrentSlicedDurationTrackerMap.keys
  · exact (hlook k).2 hk
  · have hnone : p.mCurrentSlicedDurationTrackerMap.lookup k = none :=
      AList.lookup_eq_none.2 fun h => hk (AList.mem_keys.1 h)
    have := (hlook k).1 hk
    rw [hnone] at this ⊢
    show TrackerFlush e none ((p.mCurrentSlicedDurationTrackerMap.keys.foldl (flushTracker e) p).mCurrentSlicedDurationTrackerMap.lookup k)
    rw [this]
    exact .none

end DurationMetricProducer

end Metrics

end Statsd
