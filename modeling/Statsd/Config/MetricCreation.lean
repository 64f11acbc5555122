/-
How the metric producers of a config are created (the five create*MetricProducerAndUpdateMetadata of
metrics_manager_util.cpp with what they call). A function that returns nothing makes the whole config fail; a producer
is a pointer, so it may also be null.

Of a producer there is what these functions read: its type and hash, its activations and the atoms of its states. A
`FieldMatcher` without a field is like none at all.
-/
import Statsd.Base.Writes
import Statsd.Config.MetricUpdateStatus

namespace Statsd.Config

open UpdateStatus

/-! ## Metrics -/

structure MetricStateLink where
  state_atom_id : Int
  fields_in_what : Option FieldMatcher
  fields_in_state : Option FieldMatcher

/-- How a duration metric aggregates. -/
inductive AggregationType where
  | SUM | MAX_SPARSE
deriving DecidableEq

inductive SamplingType where
  | RANDOM_ONE_SAMPLE | ALL_CONDITION_CHANGES | CONDITION_CHANGE_TO_TRUE | FIRST_N_SAMPLES
deriving DecidableEq

structure FieldFilter where
  include_all : Option Bool
  fields : Option FieldMatcher

/-- The fields of a metric that only its creation reads. A metric has the default of a field its message lacks. -/
structure MetricFields where
  has_id : Bool
  has_what : Bool
  dimensions_in_what : Option FieldMatcher
  state_link : List MetricStateLink
  aggregation_type : AggregationType
  value_field : Option FieldMatcher
  gauge_fields_filter : FieldFilter
  sampling_type : SamplingType

/-- `translateFieldMatcher` of a matcher that may be missing. -/
def translateField (matcher : Option FieldMatcher) : List Matcher :=
  match matcher with
  | none => []
  | some matcher => matcher.translateFieldMatcher

def hasLeafNode (matcher : Option FieldMatcher) : Bool := matcher.isSome

/-- A `MetricProducer`, with an activation by the message it is made of. -/
structure MetricProducer where
  getMetricType : MetricType
  getProtoHash : UInt64
  mEventActivationMap : UMap Nat EventActivation
  mEventDeactivationMap : UMap Nat (List EventActivation)
  getSlicedStateAtoms : List Int

/-- The maps that the functions fill besides. -/
structure MetricMetadata where
  trackerToMetricMap : UMap Nat (List Nat)
  conditionToMetricMap : UMap Nat (List Nat)
  activationAtomTrackerToMetricMap : UMap Nat (List Nat)
  deactivationAtomTrackerToMetricMap : UMap Nat (List Nat)
  metricsWithActivation : List Nat
  replacedMetrics : Finset Int

/-- What the functions have of the config and of its matchers, conditions and states. -/
structure MetricsContext where
  config : MetricsConfig MetricFields
  predicate : List Predicate
  no_report_metric : List Int
  whitelisted_atom_ids : List Int
  atomMatchingTrackerMap : UMap Int Nat
  getAtomIds : Nat → Finset Int
  conditionTrackerMap : UMap Int Nat
  stateAtomIdMap : UMap Int Int
  PullerForMatcherExists : Int → Bool
  hashing : Hashing MetricFields

/-- The result of a function that fills the maps. -/
abbrev Creates := StateWriter MetricMetadata

/-- The index of each metric's activation, unless some metric has two. -/
def MetricsConfig.metricToActivationMap (config : MetricsConfig MetricFields) : Option (UMap Int Nat) :=
  let metricIds := config.metric_activation.map (·.metric_id)
  if metricIds.Nodup then some (UMap.indexMap metricIds) else none

section

variable (c : MetricsContext) (metricToActivationMap : UMap Int Nat)

/-! ## What metrics refer to -/

def handleMetricWithAtomMatchingTrackers (matcherId : Int) (metricIndex : Nat) (enforceOneAtom : Bool) : Creates Nat := do
  let logTrackerIndex ← .ofOption (c.atomMatchingTrackerMap.lookup matcherId)
  .check !(enforceOneAtom && decide ((c.getAtomIds logTrackerIndex).card > 1))
  .tell fun data => { data with trackerToMetricMap := data.trackerToMetricMap.push logTrackerIndex metricIndex }
  return logTrackerIndex

def handleMetricWithConditions (condition : Int) (metricIndex : Nat) (links : List MetricConditionLink) : Creates Nat := do
  let conditionIndex ← .ofOption (c.conditionTrackerMap.lookup condition)
  .check (links.all fun link => (c.conditionTrackerMap.lookup link.condition).isSome)
  .tell fun data => { data with conditionToMetricMap := data.conditionToMetricMap.push conditionIndex metricIndex }
  return conditionIndex

/-- The condition of a metric that may have one; links ask for one. -/
def handleCondition (condition : Option Int) (metricIndex : Nat) (links : List MetricConditionLink) : Creates (Option Nat) :=
  match condition with
  | some condition => do
    let conditionIndex ← handleMetricWithConditions c condition metricIndex links
    return some conditionIndex
  | none => do
    .check links.isEmpty
    return none

/-- `handleMetricWithStates`: the atoms of the states. -/
def handleMetricWithStates (stateIds : List Int) : Option (List Int) := c.stateAtomIdMap.lookupAll stateIds

/-- The states of a metric that may be sliced by some; state links ask for one. -/
def handleStates (slice_by_state : List Int) (state_link : List MetricStateLink) : Option (List Int) :=
  if slice_by_state.isEmpty then if state_link.isEmpty then some [] else none
  else handleMetricWithStates c slice_by_state

def handleMetricWithStateLink (stateMatcher : Option FieldMatcher) (dimensionsInWhat : List Matcher) : Bool :=
  subsetDimensions (translateField stateMatcher) dimensionsInWhat

/-- The activations and deactivations of a metric. -/
structure ActivationMaps where
  eventActivationMap : UMap Nat EventActivation
  eventDeactivationMap : UMap Nat (List EventActivation)

/-- The loop of `handleMetricActivation`. -/
def addActivations (metricIndex : Nat) : List EventActivation → ActivationMaps → Creates ActivationMaps
  | [], maps => return maps
  | activation :: rest, maps => do
    let atomMatcherIndex ← .ofOption (c.atomMatchingTrackerMap.lookup activation.atom_matcher_id)
    .tell fun data =>
      { data with
        activationAtomTrackerToMetricMap := data.activationAtomTrackerToMetricMap.push atomMatcherIndex metricIndex }
    let maps := { maps with eventActivationMap := maps.eventActivationMap.emplace atomMatcherIndex activation }
    match activation.deactivation_atom_matcher_id with
    | none => addActivations metricIndex rest maps
    | some deactivation_atom_matcher_id => do
      let deactivationAtomMatcherIndex ← .ofOption (c.atomMatchingTrackerMap.lookup deactivation_atom_matcher_id)
      .tell fun data =>
        { data with
          deactivationAtomTrackerToMetricMap :=
            data.deactivationAtomTrackerToMetricMap.push deactivationAtomMatcherIndex metricIndex }
      addActivations metricIndex rest
        { maps with eventDeactivationMap := maps.eventDeactivationMap.push deactivationAtomMatcherIndex activation }

def handleMetricActivation (metricId : Int) (metricIndex : Nat) : Creates ActivationMaps :=
  match metricToActivationMap.lookup metricId with
  | none => return ⟨∅, ∅⟩
  | some activationIndex => do
    let metricActivation ← .ofOption c.config.metric_activation[activationIndex]?
    let maps ← addActivations c metricIndex metricActivation.event_activation ⟨∅, ∅⟩
    .tell fun data => { data with metricsWithActivation := data.metricsWithActivation ++ [metricIndex] }
    return maps

/-! ## Producers -/

/-- The result is nothing, a null pointer or a producer. -/
def createCountMetricProducerAndUpdateMetadata (metric : CountMetric MetricFields) (metricIndex : Nat) :
    Creates (Option MetricProducer) := do
  .check (metric.rest.has_id && metric.rest.has_what)
  let _trackerIndex ← handleMetricWithAtomMatchingTrackers c metric.what metricIndex metric.rest.dimensions_in_what.isSome
  let _conditionIndex ← handleCondition c metric.condition metricIndex metric.links
  let slicedStateAtoms ← .ofOption (handleStates c metric.slice_by_state metric.rest.state_link)
  let maps ← handleMetricActivation c metricToActivationMap metric.id metricIndex
  let metricHash ← .ofOption (getMetricProtoHash c.hashing c.config (.count metric) metric.id metricToActivationMap)
  return some ⟨.METRIC_TYPE_COUNT, metricHash, maps.eventActivationMap, maps.eventDeactivationMap, slicedStateAtoms⟩

/-- `isValid` of a duration metric: its dimensions and links are subsets of the internal dimensions. -/
def durationIsValid (metric : DurationMetric MetricFields) (internalDimensions : Option FieldMatcher) : Bool :=
  subsetDimensions (translateField metric.rest.dimensions_in_what) (translateField internalDimensions) &&
    (metric.links.all fun link => subsetDimensions (translateField link.fields_in_what) (translateField internalDimensions)) &&
    metric.rest.state_link.all fun stateLink =>
      subsetDimensions (translateField stateLink.fields_in_what) (translateField internalDimensions)

/-- A matcher that a simple predicate may name. -/
def handleOptionalMatcher (matcher : Option Int) (metricIndex : Nat) (enforceOneAtom : Bool) : Creates (Option Nat) :=
  match matcher with
  | none => return none
  | some matcher => do
    let index ← handleMetricWithAtomMatchingTrackers c matcher metricIndex enforceOneAtom
    return some index

def createDurationMetricProducerAndUpdateMetadata (metric : DurationMetric MetricFields) (metricIndex : Nat) :
    Creates (Option MetricProducer) := do
  .check (metric.rest.has_id && metric.rest.has_what)
  let whatIndex ← .ofOption (c.conditionTrackerMap.lookup metric.what)
  let durationWhat ← .ofOption c.predicate[whatIndex]?
  match durationWhat.contents with
  | .simple_predicate simplePredicate => do
    .check simplePredicate.start.isSome
    let _startIndex ← handleOptionalMatcher c simplePredicate.start metricIndex metric.rest.dimensions_in_what.isSome
    let _stopIndex ← handleOptionalMatcher c simplePredicate.stop metricIndex metric.rest.dimensions_in_what.isSome
    let _stopAllIndex ← handleOptionalMatcher c simplePredicate.stop_all metricIndex metric.rest.dimensions_in_what.isSome
    let _conditionIndex ← handleCondition c metric.condition metricIndex metric.links
    .check (metric.slice_by_state.isEmpty || decide (metric.rest.aggregation_type ≠ .MAX_SPARSE))
    let slicedStateAtoms ← .ofOption (handleStates c metric.slice_by_state metric.rest.state_link)
    .check (metric.rest.state_link.all fun stateLink =>
      handleMetricWithStateLink stateLink.fields_in_what (translateField metric.rest.dimensions_in_what))
    let maps ← handleMetricActivation c metricToActivationMap metric.id metricIndex
    let metricHash ← .ofOption (getMetricProtoHash c.hashing c.config (.duration metric) metric.id metricToActivationMap)
    .check (durationIsValid metric simplePredicate.dimensions)
    return some ⟨.METRIC_TYPE_DURATION, metricHash, maps.eventActivationMap, maps.eventDeactivationMap, slicedStateAtoms⟩
  | .combination _ _ => .fail
  | .CONTENTS_NOT_SET => .fail

def createEventMetricProducerAndUpdateMetadata (metric : EventMetric MetricFields) (metricIndex : Nat) :
    Creates (Option MetricProducer) := do
  .check (metric.rest.has_id && metric.rest.has_what)
  let _trackerIndex ← handleMetricWithAtomMatchingTrackers c metric.what metricIndex false
  let _conditionIndex ← handleCondition c metric.condition metricIndex metric.links
  let success ← (handleMetricActivation c metricToActivationMap metric.id metricIndex).attempt
  match success with
  | none => return none
  | some maps => do
    let metricHash ← .ofOption (getMetricProtoHash c.hashing c.config (.event metric) metric.id metricToActivationMap)
    return some ⟨.METRIC_TYPE_EVENT, metricHash, maps.eventActivationMap, maps.eventDeactivationMap, []⟩

/-- The atom of a matcher that matches one atom only. -/
def onlyAtom (trackerIndex : Nat) : Option Int :=
  match (c.getAtomIds trackerIndex).sort (· ≤ ·) with
  | [atomTagId] => some atomTagId
  | _ => none

def createValueMetricProducerAndUpdateMetadata (metric : ValueMetric MetricFields) (metricIndex : Nat) :
    Creates (Option MetricProducer) := do
  .check (metric.rest.has_id && metric.rest.has_what)
  .check metric.rest.value_field.isSome
  .check !(translateField metric.rest.value_field).isEmpty
  let trackerIndex ← handleMetricWithAtomMatchingTrackers c metric.what metricIndex metric.rest.dimensions_in_what.isSome
  let _atomTagId ← .ofOption (onlyAtom c trackerIndex)
  let _conditionIndex ← handleCondition c metric.condition metricIndex metric.links
  let slicedStateAtoms ← .ofOption (handleStates c metric.slice_by_state metric.rest.state_link)
  .check (metric.rest.state_link.all fun stateLink =>
    handleMetricWithStateLink stateLink.fields_in_what (translateField metric.rest.dimensions_in_what))
  let maps ← handleMetricActivation c metricToActivationMap metric.id metricIndex
  let metricHash ← .ofOption (getMetricProtoHash c.hashing c.config (.value metric) metric.id metricToActivationMap)
  return some ⟨.METRIC_TYPE_VALUE, metricHash, maps.eventActivationMap, maps.eventDeactivationMap, slicedStateAtoms⟩

/-- The field filter of a gauge metric either includes all fields or names some. -/
def fieldFilterOk (filter : FieldFilter) : Bool :=
  !((filter.include_all.isNone || decide (filter.include_all = some false)) && !hasLeafNode filter.fields) &&
    !(decide (filter.include_all = some true) && hasLeafNode filter.fields)

/-- The trigger of a gauge metric, which asks for a pulled atom and for the first samples. -/
def handleTrigger (metric : GaugeMetric MetricFields) (pulled : Bool) (metricIndex : Nat) : Creates Unit :=
  match metric.trigger_event with
  | some trigger_event => do
    .check pulled
    .check (decide (metric.rest.sampling_type = .FIRST_N_SAMPLES))
    let _triggerTrackerIndex ← handleMetricWithAtomMatchingTrackers c trigger_event metricIndex true
    return ()
  | none => .check !(pulled && decide (metric.rest.sampling_type = .FIRST_N_SAMPLES))

def createGaugeMetricProducerAndUpdateMetadata (metric : GaugeMetric MetricFields) (metricIndex : Nat) :
    Creates (Option MetricProducer) := do
  .check (metric.rest.has_id && metric.rest.has_what)
  .check (fieldFilterOk metric.rest.gauge_fields_filter)
  let trackerIndex ← handleMetricWithAtomMatchingTrackers c metric.what metricIndex metric.rest.dimensions_in_what.isSome
  let atomTagId ← .ofOption (onlyAtom c trackerIndex)
  handleTrigger c metric (c.PullerForMatcherExists atomTagId) metricIndex
  let _conditionIndex ← handleCondition c metric.condition metricIndex metric.links
  let maps ← handleMetricActivation c metricToActivationMap metric.id metricIndex
  let metricHash ← .ofOption (getMetricProtoHash c.hashing c.config (.gauge metric) metric.id metricToActivationMap)
  return some ⟨.METRIC_TYPE_GAUGE, metricHash, maps.eventActivationMap, maps.eventDeactivationMap, []⟩

/-- The function of the five for a metric. -/
def createMetricProducerAndUpdateMetadata (metric : MetricMessage MetricFields) (metricIndex : Nat) :
    Creates (Option MetricProducer) :=
  match metric with
  | .count metric => createCountMetricProducerAndUpdateMetadata c metricToActivationMap metric metricIndex
  | .duration metric => createDurationMetricProducerAndUpdateMetadata c metricToActivationMap metric metricIndex
  | .event metric => createEventMetricProducerAndUpdateMetadata c metricToActivationMap metric metricIndex
  | .value metric => createValueMetricProducerAndUpdateMetadata c metricToActivationMap metric metricIndex
  | .gauge metric => createGaugeMetricProducerAndUpdateMetadata c metricToActivationMap metric metricIndex

end

end Statsd.Config
