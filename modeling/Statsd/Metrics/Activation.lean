/-
Metric activation (metrics/MetricProducer.{h,cpp}, MetricsManager.cpp, handleMetricActivation of
metrics_manager_util.cpp). A metric may be activated by events, each activation for its own time to
live, and cancelled by other events. The manager keeps, for every atom matcher, the metrics it
activates and the metrics it deactivates; on each event it first lets expired activations go, then
cancels, then activates.

Activations are objects shared between a metric's two tables, here the positions of a list. Only the
activation part of producers and manager is kept: their reaction to becoming active or inactive does
not touch it. Times are exact integers.
-/
import Statsd.Base.UMap
import Statsd.StatsLogUtil
import Statsd.Matchers.AtomMatchingTracker

namespace Statsd.Metrics

open Matchers

inductive ActivationState where
  | kNotActive | kActive | kActiveOnBoot
deriving DecidableEq

inductive ActivationType where
  | ACTIVATION_TYPE_UNKNOWN | ACTIVATE_IMMEDIATELY | ACTIVATE_ON_BOOT
deriving DecidableEq

structure Activation where
  ttl_ns : Int
  start_ns : Int
  state : ActivationState
  activationType : ActivationType

/-! ## The producer -/

/-- The activations of a metric: the objects, and the tables from matchers to them. -/
structure EventActivations where
  activations : List Activation
  mEventActivationMap : UMap Nat Nat
  mEventDeactivationMap : UMap Nat (List Nat)

structure MetricProducer extends EventActivations where
  mIsActive : Bool

namespace MetricProducer

/-- The constructor: a metric without activations is active from the start. -/
def new (a : EventActivations) : MetricProducer := { a with mIsActive := a.mEventActivationMap.entries.isEmpty }

/-- The activation's time is over. -/
def expire (elapsedTimestampNs : Int) (a : Activation) : Activation :=
  if a.state = .kActive ∧ elapsedTimestampNs > a.ttl_ns + a.start_ns then { a with state := .kNotActive } else a

/-- The activation object `i` is active. -/
def activeAt (activations : List Activation) (i : Nat) : Bool :=
  match activations[i]? with
  | some a => decide (a.state = .kActive)
  | none => false

/-- The loop body of `evaluateActiveStateLocked`. -/
def evaluateActivation (elapsedTimestampNs : Int) (s : List Activation × Bool) (it : Sigma fun _ : Nat => Nat) :
    List Activation × Bool :=
  let activations := s.1.modify it.2 (expire elapsedTimestampNs)
  (activations, s.2 || activeAt activations it.2)

/-- `evaluateActiveStateLocked`: the activations with the expired ones off, and whether one is on. -/
def evaluateActiveStateLocked (p : MetricProducer) (elapsedTimestampNs : Int) : List Activation × Bool :=
  p.mEventActivationMap.entries.foldl (evaluateActivation elapsedTimestampNs)
    (p.activations, p.mEventActivationMap.entries.isEmpty)

def flushIfExpire (p : MetricProducer) (elapsedTimestampNs : Int) : MetricProducer :=
  if !p.mIsActive then p
  else
    let (activations, isActive) := p.evaluateActiveStateLocked elapsedTimestampNs
    { p with activations, mIsActive := isActive }

def activateLocked (p : MetricProducer) (activationTrackerIndex : Nat) (elapsedTimestampNs : Int) : MetricProducer :=
  match p.mEventActivationMap.lookup activationTrackerIndex with
  | none => p
  | some i =>
    match p.activations[i]? with
    | none => p
    | some activation =>
      if activation.activationType = .ACTIVATE_ON_BOOT then
        if activation.state = .kNotActive then
          { p with activations := p.activations.set i { activation with state := .kActiveOnBoot } }
        else p
      else
        { p with
          activations := p.activations.set i { activation with start_ns := elapsedTimestampNs, state := .kActive }
          mIsActive := true }

/-- One activation is cancelled. -/
def cancel (activations : List Activation) (i : Nat) : List Activation :=
  activations.modify i fun a => { a with state := .kNotActive }

def cancelEventActivationLocked (p : MetricProducer) (deactivationTrackerIndex : Nat) : MetricProducer :=
  match p.mEventDeactivationMap.lookup deactivationTrackerIndex with
  | none => p
  | some toCancel => { p with activations := toCancel.foldl cancel p.activations }

end MetricProducer

/-- The saved state of an activation. -/
inductive ActiveEventActivation.State where
  | UNNKNOWN | ACTIVE | ACTIVATE_ON_BOOT
deriving DecidableEq

/-- A saved activation. -/
structure ActiveEventActivation where
  atom_matcher_index : Nat
  remaining_ttl_nanos : Int
  state : Option ActiveEventActivation.State

namespace MetricProducer

/-- The loop body of `loadActiveMetricLocked`. -/
def loadActivation (currentTimeNs : Int) (p : MetricProducer) (saved : ActiveEventActivation) : MetricProducer :=
  match p.mEventActivationMap.lookup saved.atom_matcher_index with
  | none => p
  | some i =>
    match p.activations[i]? with
    | none => p
    | some activation =>
      -- an activation saved without a state is taken for an active one
      if saved.state = none ∨ saved.state = some .ACTIVE then
        { p with
          activations := p.activations.set i { activation with
            start_ns := currentTimeNs + saved.remaining_ttl_nanos - activation.ttl_ns, state := .kActive }
          mIsActive := true }
      else if saved.state = some .ACTIVATE_ON_BOOT then
        { p with activations := p.activations.set i { activation with state := .kActiveOnBoot } }
      else p

def loadActiveMetricLocked (p : MetricProducer) (activeMetric : List ActiveEventActivation) (currentTimeNs : Int) :
    MetricProducer :=
  if p.mEventActivationMap.entries.length = 0 then p else activeMetric.foldl (loadActivation currentTimeNs) p

end MetricProducer

/-! ## The config -/

structure EventActivation where
  atom_matcher_id : Int
  ttl_seconds : Int
  activation_type : Option ActivationType
  deactivation_atom_matcher_id : Option Int

structure MetricActivation where
  metric_id : Int
  activation_type : ActivationType
  event_activation : List EventActivation

/-- The parts of a config that decide activation: the atom matchers with their ids, the ids of the
metrics in the order of their producers, and the metric activations. -/
structure ActivationConfig where
  atom_matcher : List (Int × AtomMatchingTracker)
  metric : List Int
  metric_activation : List MetricActivation

/-- The manager's activation tables. -/
structure ActivationTables where
  activationAtomTrackerToMetricMap : UMap Nat (List Nat)
  deactivationAtomTrackerToMetricMap : UMap Nat (List Nat)
  metricsWithActivation : List Nat

/-- The type of an event activation, by default its metric activation's. -/
def EventActivation.type (activation : EventActivation) (metricActivation : MetricActivation) : ActivationType :=
  activation.activation_type.getD metricActivation.activation_type

/-- One event activation of `handleMetricActivation`. -/
def handleEventActivation (atomMatchingTrackerMap : UMap Int Nat) (metricActivation : MetricActivation)
    (metricIndex : Nat) (s : ActivationTables × EventActivations) (activation : EventActivation) :
    Option (ActivationTables × EventActivations) :=
  match atomMatchingTrackerMap.lookup activation.atom_matcher_id with
  | none => none
  | some atomMatcherIndex =>
    let activationWrapper : Activation :=
      ⟨activation.ttl_seconds * NS_PER_SEC, 0, .kNotActive, activation.type metricActivation⟩
    let wrapper := s.2.activations.length
    let tables := { s.1 with
      activationAtomTrackerToMetricMap := s.1.activationAtomTrackerToMetricMap.push atomMatcherIndex metricIndex }
    let own := { s.2 with
      activations := s.2.activations ++ [activationWrapper]
      mEventActivationMap := s.2.mEventActivationMap.emplace atomMatcherIndex wrapper }
    match activation.deactivation_atom_matcher_id with
    | none => some (tables, own)
    | some id =>
      match atomMatchingTrackerMap.lookup id with
      | none => none
      | some deactivationAtomMatcherIndex =>
        some ({ tables with
            deactivationAtomTrackerToMetricMap :=
              tables.deactivationAtomTrackerToMetricMap.push deactivationAtomMatcherIndex metricIndex },
          { own with
            mEventDeactivationMap := own.mEventDeactivationMap.push deactivationAtomMatcherIndex wrapper })

/-- The activation of a metric, if it has one. -/
def ActivationConfig.activationOf (config : ActivationConfig) (metricId : Int) : Option MetricActivation :=
  config.metric_activation.find? fun a => decide (a.metric_id = metricId)

def handleMetricActivation (config : ActivationConfig) (metricId : Int) (metricIndex : Nat)
    (atomMatchingTrackerMap : UMap Int Nat) (tables : ActivationTables) :
    Option (ActivationTables × EventActivations) :=
  match config.activationOf metricId with
  | none => some (tables, ⟨[], ∅, ∅⟩)
  | some metricActivation => do
    let (tables, own) ← metricActivation.event_activation.foldlM
      (handleEventActivation atomMatchingTrackerMap metricActivation metricIndex) (tables, ⟨[], ∅, ∅⟩)
    some ({ tables with metricsWithActivation := tables.metricsWithActivation ++ [metricIndex] }, own)

/-! ## The manager -/

structure MetricsManager where
  mAllAtomMatchingTrackers : List AtomMatchingTracker
  mTagIds : Finset Int
  mAllMetricProducers : List MetricProducer
  mActivationAtomTrackerToMetricMap : UMap Nat (List Nat)
  mDeactivationAtomTrackerToMetricMap : UMap Nat (List Nat)
  mMetricIndexesWithActivation : List Nat
  mIsAlwaysActive : Bool
  mIsActive : Bool

/-- The ids of the config's atom matchers. -/
def ActivationConfig.matcherIds (config : ActivationConfig) : List Int := config.atom_matcher.map (·.1)

def ActivationConfig.trackers (config : ActivationConfig) : List AtomMatchingTracker := config.atom_matcher.map (·.2)

/-- The producers of the first `n` metrics, with the tables filled so far. -/
def initMetrics (config : ActivationConfig) : Nat → Option (ActivationTables × List MetricProducer)
  | 0 => some (⟨∅, ∅, []⟩, [])
  | n + 1 => do
    let (tables, producers) ← initMetrics config n
    let metricId ← config.metric[n]?
    let (tables, own) ← handleMetricActivation config metricId n (UMap.indexMap config.matcherIds) tables
    some (tables, producers ++ [MetricProducer.new own])

namespace MetricsManager

/-- `initializeConfigActiveStatus`. -/
def initializeConfigActiveStatus (m : MetricsManager) : MetricsManager :=
  let mIsAlwaysActive := decide (m.mMetricIndexesWithActivation.length ≠ m.mAllMetricProducers.length) ||
    decide (m.mAllMetricProducers.length = 0)
  { m with
    mIsAlwaysActive
    mIsActive := mIsAlwaysActive || m.mMetricIndexesWithActivation.any fun i =>
      match m.mAllMetricProducers[i]? with
      | some p => p.mIsActive
      | none => false }

/-- The manager of a config: `none` for a config with duplicate matcher ids, several activations of
one metric, or an activation naming an unknown matcher. -/
def init (config : ActivationConfig) : Option MetricsManager :=
  if ¬ config.matcherIds.Nodup ∨ ¬ (config.metric_activation.map (·.metric_id)).Nodup then none
  else do
    let (tables, producers) ← initMetrics config config.metric.length
    some (initializeConfigActiveStatus
      { mAllAtomMatchingTrackers := config.trackers
        mTagIds := config.trackers.foldl (fun s t => s ∪ t.mAtomIds) ∅
        mAllMetricProducers := producers
        mActivationAtomTrackerToMetricMap := tables.activationAtomTrackerToMetricMap
        mDeactivationAtomTrackerToMetricMap := tables.deactivationAtomTrackerToMetricMap
        mMetricIndexesWithActivation := tables.metricsWithActivation
        mIsAlwaysActive := false
        mIsActive := false })

/-- The metric at an index is active. -/
def isActiveAt (producers : List MetricProducer) (metricIndex : Nat) : Bool :=
  match producers[metricIndex]? with
  | some p => p.mIsActive
  | none => false

/-- The loop that lets expired activations go: the metrics that are still active. -/
def expireLoop (eventTimeNs : Int) (s : List MetricProducer × List Nat) (metricIndex : Nat) :
    List MetricProducer × List Nat :=
  let producers := s.1.modify metricIndex (·.flushIfExpire eventTimeNs)
  (producers, if isActiveAt producers metricIndex then s.2 ++ [metricIndex] else s.2)

/-- The loop over the deactivation table: the producers, and the metrics that were cancelled. -/
def cancelLoop (matcherCache : MatcherCache) (s : List MetricProducer × List Nat) (it : Sigma fun _ : Nat => List Nat) :
    List MetricProducer × List Nat :=
  if matcherCache it.1 = .kMatched then
    it.2.foldl (fun s metricIndex =>
      (s.1.modify metricIndex (·.cancelEventActivationLocked it.1), s.2 ++ [metricIndex])) s
  else s

/-- The loop over the cancelled metrics: those no longer active leave the active ones. -/
def cancelledLoop (eventTimeNs : Int) (s : List MetricProducer × List Nat) (metricIndex : Nat) :
    List MetricProducer × List Nat :=
  let producers := s.1.modify metricIndex (·.flushIfExpire eventTimeNs)
  (producers, if isActiveAt producers metricIndex then s.2 else s.2.filter (· ≠ metricIndex))

/-- The loop over the activation table. -/
def activateLoop (matcherCache : MatcherCache) (eventTimeNs : Int) (s : List MetricProducer × Bool)
    (it : Sigma fun _ : Nat => List Nat) : List MetricProducer × Bool :=
  if matcherCache it.1 = .kMatched then
    it.2.foldl (fun s metricIndex =>
      let producers := s.1.modify metricIndex (·.activateLocked it.1 eventTimeNs)
      (producers, s.2 || isActiveAt producers metricIndex)) s
  else s

/-- `onLogEvent`, for an event that passes the credential and sanity checks, up to the conditions. -/
def onLogEvent (m : MetricsManager) (event : LogEvent) : MetricsManager :=
  let eventTimeNs := event.elapsedTimestampNs
  let (producers, activeMetricsIndices) :=
    m.mMetricIndexesWithActivation.foldl (expireLoop eventTimeNs) (m.mAllMetricProducers, [])
  if event.tagId ∉ m.mTagIds then
    -- not interesting
    { m with mAllMetricProducers := producers, mIsActive := m.mIsAlwaysActive || !activeMetricsIndices.isEmpty }
  else
    let matcherCache := Matchers.matcherCache m.mAllAtomMatchingTrackers event
    let (producers, metricIndicesWithCanceledActivations) :=
      m.mDeactivationAtomTrackerToMetricMap.entries.foldl (cancelLoop matcherCache) (producers, [])
    let (producers, activeMetricsIndices) :=
      metricIndicesWithCanceledActivations.dedup.foldl (cancelledLoop eventTimeNs) (producers, activeMetricsIndices)
    let isActive := m.mIsAlwaysActive || !activeMetricsIndices.isEmpty
    let (producers, isActive) :=
      m.mActivationAtomTrackerToMetricMap.entries.foldl (activateLoop matcherCache eventTimeNs) (producers, isActive)
    { m with mAllMetricProducers := producers, mIsActive := isActive }

end MetricsManager

end Statsd.Metrics
