/-
The metric producers of a config (initMetrics of metrics_manager_util.cpp) and of a config that replaces another one
(updateMetrics of config_update_utils.cpp with `onConfigUpdated` of the producers). An unchanged metric keeps its
producer, which looks up its matchers and its condition again, but not its states.

A run ends with true or false, or at a null pointer among the producers.
-/
import Statsd.Config.MetricResolution

namespace Statsd.Config

open UpdateStatus

/-! ## A new config -/

/-- What a config's metrics come to. -/
structure Metrics where
  metricMap : UMap Int Nat
  allMetricProducers : List (Option MetricProducer)
  noReportMetricIds : List Int
  data : MetricMetadata

inductive MetricsOutcome where
  | returnsTrue (metrics : Metrics)
  | returnsFalse
  | nullDereferenced

/-- The loops over the metrics of each kind. -/
def createAll (c : MetricsContext) (metricToActivationMap : UMap Int Nat) :
    Nat → List (MetricMessage MetricFields) → Creates (List (Option MetricProducer))
  | _, [] => return []
  | metricIndex, metric :: rest => do
    let producer ← createMetricProducerAndUpdateMetadata c metricToActivationMap metric metricIndex
    let producers ← createAll c metricToActivationMap (metricIndex + 1) rest
    return producer :: producers

/-- The loop that registers the producers with the state trackers. -/
def registerAll (whitelisted_atom_ids : List Int) (metrics : Metrics) : List (Option MetricProducer) → MetricsOutcome
  | [] => .returnsTrue metrics
  | none :: _ => .nullDereferenced
  | some producer :: rest =>
    if producer.getSlicedStateAtoms.any (decide <| · ∈ whitelisted_atom_ids) then .returnsFalse
    else registerAll whitelisted_atom_ids metrics rest

/-- The check of `no_report_metric` and the loop after it. -/
def finishMetrics (c : MetricsContext) (metrics : Metrics) : MetricsOutcome :=
  if metrics.noReportMetricIds.all (decide <| · ∈ metrics.metricMap) then
    registerAll c.whitelisted_atom_ids metrics metrics.allMetricProducers
  else .returnsFalse

def MetricMetadata.empty : MetricMetadata := ⟨∅, ∅, ∅, ∅, [], ∅⟩

/-- The producers of a config. -/
def createMetrics (c : MetricsContext) : Option Metrics := do
  let metricToActivationMap ← c.config.metricToActivationMap
  let run := createAll c metricToActivationMap 0 c.config.metrics
  let producers ← run.result
  return {
    metricMap := UMap.indexMap (c.config.metrics.map (·.dependencies.metricId))
    allMetricProducers := producers
    noReportMetricIds := c.no_report_metric
    data := run.write .empty }

def initMetrics (c : MetricsContext) : MetricsOutcome :=
  match createMetrics c with
  | none => .returnsFalse
  | some metrics => finishMetrics c metrics

/-! ## A config that replaces another one -/

/-- What the update has besides of the old config. -/
structure UpdateContext extends MetricsContext where
  oldAtomMatchingTrackerMap : UMap Int Nat
  oldMetricProducerMap : UMap Int Nat
  oldMetricProducers : List MetricProducer
  replacedMatchers : Finset Int
  replacedConditions : Finset Int
  replacedStates : Finset Int

/-- The arguments of `determineAllMetricUpdateStatuses`. -/
def UpdateContext.metricsUpdate (u : UpdateContext) (metricToActivationMap : UMap Int Nat) : MetricsUpdate MetricFields where
  hashing := u.hashing
  config := u.config
  oldMetricProducerMap := u.oldMetricProducerMap
  oldMetricProducers := u.oldMetricProducers.map fun producer => ⟨producer.getMetricType, producer.getProtoHash⟩
  metricToActivationMap
  replacedMatchers := u.replacedMatchers
  replacedConditions := u.replacedConditions
  replacedStates := u.replacedStates

section

variable (u : UpdateContext) (metricToActivationMap : UMap Int Nat)

/-- The loop of `handleMetricActivationOnConfigUpdate`. -/
def updateActivations (metricIndex : Nat) (oldEventActivationMap : UMap Nat EventActivation) :
    List EventActivation → ActivationMaps → Creates ActivationMaps
  | [], maps => return maps
  | activation :: rest, maps => do
    let newActivationMatcherIndex ← .ofOption (u.atomMatchingTrackerMap.lookup activation.atom_matcher_id)
    let oldActivationMatcherIndex ← .ofOption (u.oldAtomMatchingTrackerMap.lookup activation.atom_matcher_id)
    let oldEventActivation ← .ofOption (oldEventActivationMap.lookup oldActivationMatcherIndex)
    .tell fun data =>
      { data with
        activationAtomTrackerToMetricMap := data.activationAtomTrackerToMetricMap.push newActivationMatcherIndex metricIndex }
    let maps :=
      { maps with eventActivationMap := maps.eventActivationMap.emplace newActivationMatcherIndex oldEventActivation }
    match activation.deactivation_atom_matcher_id with
    | none => updateActivations metricIndex oldEventActivationMap rest maps
    | some deactivationMatcherId => do
      let newDeactivationMatcherIndex ← .ofOption (u.atomMatchingTrackerMap.lookup deactivationMatcherId)
      .tell fun data =>
        { data with
          deactivationAtomTrackerToMetricMap :=
            data.deactivationAtomTrackerToMetricMap.push newDeactivationMatcherIndex metricIndex }
      updateActivations metricIndex oldEventActivationMap rest
        { maps with eventDeactivationMap := maps.eventDeactivationMap.push newDeactivationMatcherIndex oldEventActivation }

def handleMetricActivationOnConfigUpdate (metricId : Int) (metricIndex : Nat)
    (oldEventActivationMap : UMap Nat EventActivation) : Creates ActivationMaps :=
  match metricToActivationMap.lookup metricId with
  | none => return ⟨∅, ∅⟩
  | some activationIndex => do
    let metricActivation ← .ofOption u.config.metric_activation[activationIndex]?
    let maps ← updateActivations u metricIndex oldEventActivationMap metricActivation.event_activation ⟨∅, ∅⟩
    .tell fun data => { data with metricsWithActivation := data.metricsWithActivation ++ [metricIndex] }
    return maps

/-- The condition of a metric, if it has one. -/
def updateCondition (condition : Option Int) (metricIndex : Nat) (links : List MetricConditionLink) : Creates Unit :=
  match condition with
  | none => return ()
  | some condition => do
    let _conditionIndex ← handleMetricWithConditions u.toMetricsContext condition metricIndex links
    return ()

/-- What a metric of each kind looks up again. -/
def updateIndices (metric : MetricMessage MetricFields) (metricIndex : Nat) : Creates Unit :=
  match metric with
  | .count metric => do
    let _trackerIndex ← handleMetricWithAtomMatchingTrackers u.toMetricsContext metric.what metricIndex false
    updateCondition u metric.condition metricIndex metric.links
  | .duration metric => do
    let whatIndex ← .ofOption (u.conditionTrackerMap.lookup metric.what)
    let durationWhat ← .ofOption u.predicate[whatIndex]?
    match durationWhat.contents with
    | .simple_predicate simplePredicate => do
      let enforceOneAtom := metric.rest.dimensions_in_what.isSome
      -- a start that is not set reads as 0
      let _startIndex ←
        handleMetricWithAtomMatchingTrackers u.toMetricsContext (simplePredicate.start.getD 0) metricIndex enforceOneAtom
      let _stopIndex ← handleOptionalMatcher u.toMetricsContext simplePredicate.stop metricIndex enforceOneAtom
      let _stopAllIndex ← handleOptionalMatcher u.toMetricsContext simplePredicate.stop_all metricIndex enforceOneAtom
      updateCondition u metric.condition metricIndex metric.links
    | .combination _ _ => .fail
    | .CONTENTS_NOT_SET => .fail
  | .event metric => do
    let _trackerIndex ← handleMetricWithAtomMatchingTrackers u.toMetricsContext metric.what metricIndex false
    updateCondition u metric.condition metricIndex metric.links
  | .value metric => do
    let _mWhatMatcherIndex ← handleMetricWithAtomMatchingTrackers u.toMetricsContext metric.what metricIndex false
    updateCondition u metric.condition metricIndex metric.links
  | .gauge metric => do
    let _mWhatMatcherIndex ← handleMetricWithAtomMatchingTrackers u.toMetricsContext metric.what metricIndex false
    let _triggerTrackerIndex ← handleOptionalMatcher u.toMetricsContext metric.trigger_event metricIndex true
    updateCondition u metric.condition metricIndex metric.links

/-- `onConfigUpdatedLocked` of the producer of a metric, which is of the metric's type. -/
def onConfigUpdatedLocked (metric : MetricMessage MetricFields) (metricIndex : Nat) (producer : MetricProducer) :
    Creates MetricProducer := do
  let maps ← handleMetricActivationOnConfigUpdate u metricToActivationMap metric.dependencies.metricId metricIndex
    producer.mEventActivationMap
  updateIndices u metric metricIndex
  return { producer with
    mEventActivationMap := maps.eventActivationMap
    mEventDeactivationMap := maps.eventDeactivationMap }

/-- The index of the producer and what the update makes of it. -/
def updateMetric (metric : MetricMessage MetricFields) (metricIndex : Nat) (oldMetricProducers : List MetricProducer) :
    Creates (Nat × MetricProducer) := do
  let oldIndex ← .ofOption (u.oldMetricProducerMap.lookup metric.dependencies.metricId)
  let producer ← .ofOption oldMetricProducers[oldIndex]?
  let producer ← onConfigUpdatedLocked u metricToActivationMap metric metricIndex producer
  return (oldIndex, producer)

/-- A pointer to a producer of the old config or to a new one, which may be null. -/
inductive NewProducer where
  | preserved (oldIndex : Nat)
  | created (producer : Option MetricProducer)

/-- What is behind the pointer. -/
def NewProducer.get (oldMetricProducers : List MetricProducer) : NewProducer → Option MetricProducer
  | preserved oldIndex => oldMetricProducers[oldIndex]?
  | created producer => producer

/-- The producer of a metric by its status, with the producers of the old config, which are changed in place. -/
def updateProducer (metric : MetricMessage MetricFields) (updateStatus : UpdateStatus) (metricIndex : Nat)
    (oldMetricProducers : List MetricProducer) : Creates (NewProducer × List MetricProducer) :=
  match updateStatus with
  | UPDATE_PRESERVE => do
    let (oldIndex, producer) ← updateMetric u metricToActivationMap metric metricIndex oldMetricProducers
    return (.preserved oldIndex, oldMetricProducers.set oldIndex producer)
  | UPDATE_REPLACE => do
    .tell fun data => { data with replacedMetrics := insert metric.dependencies.metricId data.replacedMetrics }
    let producer ← createMetricProducerAndUpdateMetadata u.toMetricsContext metricToActivationMap metric metricIndex
    return (.created producer, oldMetricProducers)
  | UPDATE_NEW => do
    let producer ← createMetricProducerAndUpdateMetadata u.toMetricsContext metricToActivationMap metric metricIndex
    return (.created producer, oldMetricProducers)
  | UPDATE_UNKNOWN => .fail

/-- The loops over the metrics of each kind with their statuses. -/
def updateProducers : Nat → List (MetricMessage MetricFields × UpdateStatus) → List MetricProducer →
    Creates (List NewProducer × List MetricProducer)
  | _, [], oldMetricProducers => return ([], oldMetricProducers)
  | metricIndex, (metric, updateStatus) :: rest, oldMetricProducers => do
    let (producer, oldMetricProducers) ←
      updateProducer u metricToActivationMap metric updateStatus metricIndex oldMetricProducers
    let (producers, oldMetricProducers) ← updateProducers (metricIndex + 1) rest oldMetricProducers
    return (producer :: producers, oldMetricProducers)

end

/-- The producers of a config that replaces another one. -/
def replaceMetrics (u : UpdateContext) : Option Metrics := do
  let metricToActivationMap ← u.config.metricToActivationMap
  let metricsToUpdate ← determineAllMetricUpdateStatuses (u.metricsUpdate metricToActivationMap)
  let run := updateProducers u metricToActivationMap 0 (u.config.metrics.zip metricsToUpdate) u.oldMetricProducers
  let (producers, oldMetricProducers) ← run.result
  return {
    metricMap := UMap.lastIndexMap (u.config.metrics.map (·.dependencies.metricId))
    allMetricProducers := producers.map (·.get oldMetricProducers)
    noReportMetricIds := u.no_report_metric
    data := run.write .empty }

def updateMetrics (u : UpdateContext) : MetricsOutcome :=
  match replaceMetrics u with
  | none => .returnsFalse
  | some metrics => finishMetrics u.toMetricsContext metrics

/-! ## What the update looks up -/

section

variable (u : UpdateContext)

/-- The condition of a metric exists, if it has one. -/
def ConditionKept (condition : Option Int) (links : List MetricConditionLink) : Prop :=
  ∀ i ∈ condition, ConditionFound u.toMetricsContext i links

/-- What a metric of each kind looks up again exists. -/
def IndicesFound : MetricMessage MetricFields → Prop
  | .count metric => MatcherFound u.toMetricsContext metric.what false ∧ ConditionKept u metric.condition metric.links
  | .duration metric =>
    ∃ i predicate simplePredicate, u.conditionTrackerMap.lookup metric.what = some i ∧ u.predicate[i]? = some predicate ∧
      predicate.contents = .simple_predicate simplePredicate ∧
      MatcherFound u.toMetricsContext (simplePredicate.start.getD 0) metric.rest.dimensions_in_what.isSome ∧
      (∀ m ∈ simplePredicate.stop, MatcherFound u.toMetricsContext m metric.rest.dimensions_in_what.isSome) ∧
      (∀ m ∈ simplePredicate.stop_all, MatcherFound u.toMetricsContext m metric.rest.dimensions_in_what.isSome) ∧
      ConditionKept u metric.condition metric.links
  | .event metric => MatcherFound u.toMetricsContext metric.what false ∧ ConditionKept u metric.condition metric.links
  | .value metric => MatcherFound u.toMetricsContext metric.what false ∧ ConditionKept u metric.condition metric.links
  | .gauge metric =>
    MatcherFound u.toMetricsContext metric.what false ∧
      (∀ m ∈ metric.trigger_event, MatcherFound u.toMetricsContext m true) ∧
      ConditionKept u metric.condition metric.links

/-- The activations of a metric exist, and the old producer has them under the given indices. -/
def ActivationKept (indices : Set Nat) (metricId : Int) : Prop :=
  ∀ a ∈ u.config.metric_activation, a.metric_id = metricId → ∀ activation ∈ a.event_activation,
    ActivationFound u.toMetricsContext activation ∧
      ∃ i ∈ indices, u.oldAtomMatchingTrackerMap.lookup activation.atom_matcher_id = some i

/-- The indices under which a producer has its activations after the update. -/
def activationIndices (metricId : Int) : Set Nat :=
  {i | ∃ a ∈ u.config.metric_activation, a.metric_id = metricId ∧ ∃ activation ∈ a.event_activation,
    u.atomMatchingTrackerMap.lookup activation.atom_matcher_id = some i}

end

/-- The indices under which a producer has its activations. -/
def MetricProducer.indices (producer : MetricProducer) : Set Nat := {i | i ∈ producer.mEventActivationMap}

section

open StateWriter

variable {u : UpdateContext} {metricToActivationMap : UMap Int Nat}

theorem exists_updateCondition_iff {condition : Option Int} (metricIndex : Nat) {links : List MetricConditionLink} :
    (∃ x, (updateCondition u condition metricIndex links).result = some x) ↔ ConditionKept u condition links := by
  cases condition with
  | none => simp [updateCondition, ConditionKept]
  | some condition =>
    have hcondition := exists_handleMetricWithConditions_iff (c := u.toMetricsContext) condition metricIndex links
    simp [updateCondition, ConditionKept, exists_result_bind_iff, hcondition]

variable {metricIndex : Nat}

variable {metric : MetricMessage MetricFields} {old : UMap Nat EventActivation}

theorem exists_updateIndices_iff :
    (∃ x, (updateIndices u metric metricIndex).result = some x) ↔ IndicesFound u metric := by
  cases metric with
  | count metric =>
    simp only [updateIndices, matcher_bind_eq_some, exists_and_left, exists_updateCondition_iff, IndicesFound]
  | event metric =>
    simp only [updateIndices, matcher_bind_eq_some, exists_and_left, exists_updateCondition_iff, IndicesFound]
  | value metric =>
    simp only [updateIndices, matcher_bind_eq_some, exists_and_left, exists_updateCondition_iff, IndicesFound]
  | gauge metric =>
    simp only [updateIndices, matcher_bind_eq_some, optionalMatcher_bind_eq_some, exists_and_left,
      exists_updateCondition_iff, IndicesFound]
  | duration metric =>
    simp only [updateIndices, exists_result_bind_iff, result_ofOption, IndicesFound]
    constructor
    · rintro ⟨i, hi, predicate, hpredicate, x, hx⟩
      split at hx
      · rename_i simplePredicate hcontents
        simp only [matcher_bind_eq_some, optionalMatcher_bind_eq_some] at hx
        obtain ⟨hstart, hstop, hstopAll, hcondition⟩ := hx
        exact ⟨i, predicate, simplePredicate, hi, hpredicate, hcontents, hstart, hstop, hstopAll,
          (exists_updateCondition_iff metricIndex).1 ⟨x, hcondition⟩⟩
      · cases hx
      · cases hx
    · rintro ⟨i, predicate, simplePredicate, hi, hpredicate, hcontents, hstart, hstop, hstopAll, hcondition⟩
      obtain ⟨x, hx⟩ := (exists_updateCondition_iff metricIndex).2 hcondition
      refine ⟨i, hi, predicate, hpredicate, x, ?_⟩
      rw [hcontents]
      simp only [matcher_bind_eq_some, optionalMatcher_bind_eq_some]
      exact ⟨hstart, hstop, hstopAll, hx⟩

theorem exists_updateActivations_iff {activations : List EventActivation}
    (maps : ActivationMaps) :
    (∃ maps', (updateActivations u metricIndex old activations maps).result = some maps') ↔
      ∀ activation ∈ activations, ActivationFound u.toMetricsContext activation ∧
        ∃ i ∈ old, u.oldAtomMatchingTrackerMap.lookup activation.atom_matcher_id = some i := by
  induction activations generalizing maps with
  | nil => simp [updateActivations]
  | cons activation activations ih =>
    simp only [List.forall_mem_cons, ActivationFound, updateActivations, exists_result_bind_iff, result_ofOption,
      result_tell_eq_some, exists_const, true_and]
    cases activation.deactivation_atom_matcher_id with
    | none =>
      simp only [ih, exists_and_right, exists_lookup_iff]
      constructor
      · rintro ⟨hmatcher, i, hi, hmem, hrest⟩
        exact ⟨⟨⟨hmatcher, nofun⟩, i, hmem, hi⟩, hrest⟩
      · rintro ⟨⟨⟨hmatcher, -⟩, i, hmem, hi⟩, hrest⟩
        exact ⟨hmatcher, i, hi, hmem, hrest⟩
    | some d =>
      simp only [exists_result_bind_iff, result_ofOption, result_tell_eq_some, exists_const, true_and, ih,
        exists_and_right, exists_lookup_iff]
      constructor
      · rintro ⟨hmatcher, i, hi, hmem, hd, hrest⟩
        exact ⟨⟨⟨hmatcher, fun d' hd' => Option.some.inj hd' ▸ hd⟩, i, hmem, hi⟩, hrest⟩
      · rintro ⟨⟨⟨hmatcher, hd⟩, i, hmem, hi⟩, hrest⟩
        exact ⟨hmatcher, i, hi, hmem, hd d rfl, hrest⟩

theorem mem_updateActivations {activations : List EventActivation}
    {maps maps' : ActivationMaps}
    (h : (updateActivations u metricIndex old activations maps).result = some maps') (i : Nat) :
    i ∈ maps'.eventActivationMap ↔ i ∈ maps.eventActivationMap ∨
      ∃ activation ∈ activations, u.atomMatchingTrackerMap.lookup activation.atom_matcher_id = some i := by
  induction activations generalizing maps with
  | nil =>
    obtain rfl := Option.some.inj h
    simp
  | cons activation activations ih =>
    simp only [updateActivations, result_bind_eq_some, result_ofOption, result_tell_eq_some, exists_const, true_and] at h
    obtain ⟨j, hj, k, -, oldActivation, -, h⟩ := h
    have hmem : ∀ {maps'' : ActivationMaps}, maps''.eventActivationMap = maps.eventActivationMap.emplace j oldActivation →
        (updateActivations u metricIndex old activations maps'').result = some maps' →
        (i ∈ maps'.eventActivationMap ↔ i ∈ maps.eventActivationMap ∨
          ∃ a ∈ activation :: activations, u.atomMatchingTrackerMap.lookup a.atom_matcher_id = some i) := by
      intro maps'' hmaps h
      simp only [ih h, hmaps, UMap.mem_emplace_iff, List.mem_cons, exists_eq_or_imp, hj, Option.some.injEq,
        eq_comm (a := j), or_assoc, or_left_comm]
    split at h
    · exact hmem rfl h
    · simp only [result_bind_eq_some, result_ofOption, result_tell_eq_some, exists_const, true_and] at h
      obtain ⟨_, -, h⟩ := h
      exact hmem rfl h

/-- The activations are updated when they and their old ones exist, and stand under their new indices then. -/
theorem exists_handleMetricActivationOnConfigUpdate_iff (hmap : u.config.metricToActivationMap = some metricToActivationMap)
    {metricId : Int} {producer : MetricProducer} :
    (∃ maps, (handleMetricActivationOnConfigUpdate u metricToActivationMap metricId metricIndex
      producer.mEventActivationMap).result = some maps) ↔ ActivationKept u producer.indices metricId := by
  rw [ActivationKept, forall_activation_iff hmap _ _, handleMetricActivationOnConfigUpdate]
  cases hi : metricToActivationMap.lookup metricId with
  | none => simp
  | some i =>
    obtain ⟨a, ha⟩ := get_of_lookup hmap hi
    simp only [exists_result_bind_iff, result_ofOption, ha, Option.some.injEq, exists_eq_left', result_tell_eq_some,
      exists_const, result_pure, exists_eq', and_true, exists_updateActivations_iff]
    constructor
    · rintro h j a' ⟨⟩ ha'
      obtain rfl := Option.some.inj (ha.symm.trans ha')
      exact h
    · exact fun h => h i a rfl ha

theorem indices_of_handleMetricActivationOnConfigUpdate
    (hmap : u.config.metricToActivationMap = some metricToActivationMap) {metricId : Int} {maps : ActivationMaps}
    (h : (handleMetricActivationOnConfigUpdate u metricToActivationMap metricId metricIndex old).result = some maps) :
    {i | i ∈ maps.eventActivationMap} = activationIndices u metricId := by
  ext i
  have hnot := forall_activation_iff hmap metricId (fun a =>
    ¬ ∃ activation ∈ a.event_activation, u.atomMatchingTrackerMap.lookup activation.atom_matcher_id = some i)
  rw [← not_iff_not]
  refine Iff.trans ?_ (Iff.trans hnot.symm (by simp [activationIndices]))
  rw [handleMetricActivationOnConfigUpdate] at h
  cases hi : metricToActivationMap.lookup metricId with
  | none =>
    rw [hi] at h
    obtain rfl := Option.some.inj h
    simp
  | some j =>
    obtain ⟨a, ha⟩ := get_of_lookup hmap hi
    simp only [hi, ha, result_bind_eq_some, result_ofOption, Option.some.injEq, exists_eq_left', result_tell_eq_some,
      exists_const, result_pure, true_and] at h
    obtain ⟨maps', hmaps, rfl⟩ := h
    have hmem := mem_updateActivations hmaps i
    simp only [AList.notMem_empty, false_or] at hmem
    simp only [Set.mem_ofPred_eq, hmem]
    constructor
    · rintro hno k a' ⟨⟩ ha'
      obtain rfl := Option.some.inj (ha.symm.trans ha')
      exact hno
    · exact fun hno => hno j a rfl ha

theorem exists_onConfigUpdatedLocked_iff (hmap : u.config.metricToActivationMap = some metricToActivationMap) {producer : MetricProducer} :
    (∃ p, (onConfigUpdatedLocked u metricToActivationMap metric metricIndex producer).result = some p) ↔
      ActivationKept u producer.indices metric.dependencies.metricId ∧ IndicesFound u metric := by
  simp only [onConfigUpdatedLocked, exists_result_bind_iff, result_pure, Option.some.injEq, exists_eq', and_true,
    exists_and_right, exists_updateIndices_iff, exists_handleMetricActivationOnConfigUpdate_iff hmap]

theorem onConfigUpdatedLocked_spec (hmap : u.config.metricToActivationMap = some metricToActivationMap) {producer p : MetricProducer}
    (h : (onConfigUpdatedLocked u metricToActivationMap metric metricIndex producer).result = some p) :
    p.indices = activationIndices u metric.dependencies.metricId ∧ p.getSlicedStateAtoms = producer.getSlicedStateAtoms := by
  simp only [onConfigUpdatedLocked, result_bind_eq_some, result_pure, Option.some.injEq] at h
  obtain ⟨maps, hmaps, -, -, rfl⟩ := h
  exact ⟨indices_of_handleMetricActivationOnConfigUpdate hmap hmaps, rfl⟩

end

/-! ## Which configs are accepted -/

/-- A metric is created: its checks pass, its activation resolves and it has a hash. -/
def Passes (c : MetricsContext) (metricToActivationMap : UMap Int Nat) (metric : MetricMessage MetricFields) : Prop :=
  ChecksPass c metric ∧ ActivationOk c metric.dependencies.metricId ∧
    (getMetricProtoHash c.hashing c.config metric metric.dependencies.metricId metricToActivationMap).isSome

/-- A metric with its status passes, when the activations of the old producers stand under the given indices. -/
def MetricPasses (u : UpdateContext) (metricToActivationMap : UMap Int Nat) (m : MetricMessage MetricFields × UpdateStatus)
    (indices : List (Set Nat)) : Prop :=
  match m.2 with
  | UPDATE_PRESERVE =>
    ∃ oldIndex own, u.oldMetricProducerMap.lookup m.1.dependencies.metricId = some oldIndex ∧
      indices[oldIndex]? = some own ∧ ActivationKept u own m.1.dependencies.metricId ∧ IndicesFound u m.1
  | UPDATE_REPLACE => Passes u.toMetricsContext metricToActivationMap m.1
  | UPDATE_NEW => Passes u.toMetricsContext metricToActivationMap m.1
  | UPDATE_UNKNOWN => False

/-- The producer of a preserved metric has its activations under new indices. -/
def indicesAfter (u : UpdateContext) (m : MetricMessage MetricFields × UpdateStatus) (indices : List (Set Nat)) :
    List (Set Nat) :=
  match m.2, u.oldMetricProducerMap.lookup m.1.dependencies.metricId with
  | UPDATE_PRESERVE, some oldIndex => indices.set oldIndex (activationIndices u m.1.dependencies.metricId)
  | _, _ => indices

/-- Every metric passes, one after the other. -/
def AllPass (u : UpdateContext) (metricToActivationMap : UMap Int Nat) :
    List (MetricMessage MetricFields × UpdateStatus) → List (Set Nat) → Prop
  | [], _ => True
  | m :: rest, indices =>
    MetricPasses u metricToActivationMap m indices ∧ AllPass u metricToActivationMap rest (indicesAfter u m indices)

/-- The atoms of a metric's states: a preserved metric has those of its old producer. -/
def slicedAtoms (u : UpdateContext) (metric : MetricMessage MetricFields) (updateStatus : UpdateStatus) : Set Int :=
  match updateStatus with
  | UPDATE_PRESERVE =>
    {a | ∃ i producer, u.oldMetricProducerMap.lookup metric.dependencies.metricId = some i ∧
      u.oldMetricProducers[i]? = some producer ∧ a ∈ producer.getSlicedStateAtoms}
  | _ => {a | ∃ s ∈ metric.dependencies.stateDependencies, u.stateAtomIdMap.lookup s = some a}

/-- What the update asks of a config, its activations and the statuses of its metrics. -/
structure UpdateAccepted (u : UpdateContext) (metricToActivationMap : UMap Int Nat) (metricsToUpdate : List UpdateStatus) :
    Prop where
  activations : u.config.metricToActivationMap = some metricToActivationMap
  statuses : determineAllMetricUpdateStatuses (u.metricsUpdate metricToActivationMap) = some metricsToUpdate
  metrics : AllPass u metricToActivationMap (u.config.metrics.zip metricsToUpdate) (u.oldMetricProducers.map (·.indices))
  reported : ∀ id ∈ u.no_report_metric, id ∈ u.config.metrics.map (·.dependencies.metricId)
  states : ∀ m ∈ u.config.metrics.zip metricsToUpdate, ∀ a ∈ slicedAtoms u m.1 m.2, a ∉ u.whitelisted_atom_ids

/-- No event metric of the config lacks its activation only. -/
def NoDangling (c : MetricsContext) : Prop :=
  (c.config.metric_activation.map (·.metric_id)).Nodup → ∀ metric ∈ c.config.event_metric, ¬ Dangling c metric

/-! ## Runs -/

section

open StateWriter

variable {c : MetricsContext} {u : UpdateContext} {metricToActivationMap : UMap Int Nat}

variable {metric : MetricMessage MetricFields}

theorem not_dangling (hmap : c.config.metricToActivationMap = some metricToActivationMap) (hno : NoDangling c) (hmetric : metric ∈ c.config.metrics) :
    ¬ ∃ event, metric = .event event ∧ Dangling c event := by
  rintro ⟨event, rfl, hdangling⟩
  obtain ⟨hnodup, -⟩ := Option.ite_none_right_eq_some.1 hmap
  refine hno hnodup event ?_ hdangling
  simpa [MetricsConfig.metrics] using hmetric

variable {metricIndex : Nat}

theorem create_eq_some_iff (hmap : c.config.metricToActivationMap = some metricToActivationMap) (hno : NoDangling c) (hmetric : metric ∈ c.config.metrics) {r : Option MetricProducer} :
    (createMetricProducerAndUpdateMetadata c metricToActivationMap metric metricIndex).result = some r ↔
      ChecksPass c metric ∧ ∃ p, r = some p ∧ Made c metricToActivationMap metric metricIndex p := by
  rw [create_eq_some hmap]
  exact or_iff_left fun h => not_dangling hmap hno hmetric h.2

theorem exists_create_of_noDangling (hmap : c.config.metricToActivationMap = some metricToActivationMap)
    (hno : NoDangling c) (hmetric : metric ∈ c.config.metrics) :
    (∃ r, (createMetricProducerAndUpdateMetadata c metricToActivationMap metric metricIndex).result = some r) ↔
      Passes c metricToActivationMap metric := by
  rw [Passes, ← exists_create_iff hmap metricIndex]
  simp only [create_eq_some_iff hmap hno hmetric, Option.some.injEq]
  constructor
  · rintro ⟨r, hchecks, p, -, hmade⟩
    exact ⟨p, hchecks, p, rfl, hmade⟩
  · rintro ⟨p, hp⟩
    exact ⟨some p, hp.1, p, rfl, by obtain ⟨-, q, rfl, hq⟩ := hp; exact hq⟩

theorem createAll_spec (hmap : c.config.metricToActivationMap = some metricToActivationMap) (hno : NoDangling c)
    {metrics : List (MetricMessage MetricFields)} (hmetrics : ∀ m ∈ metrics, m ∈ c.config.metrics)
    {producers : List (Option MetricProducer)}
    (h : (createAll c metricToActivationMap metricIndex metrics).result = some producers) :
    (∀ m ∈ metrics, Passes c metricToActivationMap m) ∧ none ∉ producers := by
  induction metrics generalizing metricIndex producers with
  | nil =>
    simp only [createAll, result_pure, Option.some.injEq] at h
    subst h
    exact ⟨List.forall_mem_nil _, List.not_mem_nil⟩
  | cons m metrics ih =>
    obtain ⟨hm, hmetrics⟩ := List.forall_mem_cons.1 hmetrics
    simp only [createAll, result_bind_eq_some, result_pure, Option.some.injEq] at h
    obtain ⟨r, hr, rest, hrest, rfl⟩ := h
    obtain ⟨hpass, hnull⟩ := ih hmetrics hrest
    refine ⟨List.forall_mem_cons.2 ⟨(exists_create_of_noDangling hmap hno hm).1 ⟨r, hr⟩, hpass⟩, ?_⟩
    obtain ⟨-, p, rfl, -⟩ := (create_eq_some_iff hmap hno hm).1 hr
    simpa using hnull

/-- What the pointer to a metric's producer is after the update. -/
def PointsTo (u : UpdateContext) (m : MetricMessage MetricFields × UpdateStatus) (producer : NewProducer) : Prop :=
  match m.2 with
  | UPDATE_PRESERVE => ∃ i < u.oldMetricProducers.length,
      u.oldMetricProducerMap.lookup m.1.dependencies.metricId = some i ∧ producer = .preserved i
  | _ => ∃ p, producer = .created (some p) ∧
      m.1.dependencies.stateDependencies.map u.stateAtomIdMap.lookup = p.getSlicedStateAtoms.map some

theorem exists_updateProducer_iff (hmap : u.config.metricToActivationMap = some metricToActivationMap)
    (hno : NoDangling u.toMetricsContext) {m : MetricMessage MetricFields × UpdateStatus} (hm : m.1 ∈ u.config.metrics)
    (metricIndex : Nat) {producers : List MetricProducer} :
    (∃ r, (updateProducer u metricToActivationMap m.1 m.2 metricIndex producers).result = some r) ↔
      MetricPasses u metricToActivationMap m (producers.map (·.indices)) := by
  obtain ⟨metric, status⟩ := m
  cases status with
  | UPDATE_UNKNOWN => simp [updateProducer, MetricPasses]
  | UPDATE_NEW =>
    simp only [updateProducer, exists_result_bind_iff, result_pure, Option.some.injEq, exists_eq', and_true,
      exists_create_of_noDangling hmap hno hm, MetricPasses]
  | UPDATE_REPLACE =>
    simp only [updateProducer, exists_result_bind_iff, result_tell_eq_some, exists_const, true_and, result_pure,
      Option.some.injEq, exists_eq', and_true, exists_create_of_noDangling hmap hno hm, MetricPasses]
  | UPDATE_PRESERVE =>
    simp only [updateProducer, updateMetric, exists_result_bind_iff, result_ofOption, result_pure, Option.some.injEq,
      exists_eq', and_true, exists_onConfigUpdatedLocked_iff hmap, MetricPasses, List.getElem?_map, Option.map_eq_some_iff]
    constructor
    · rintro ⟨i, hi, producer, hproducer, hkept, hfound⟩
      exact ⟨i, _, hi, ⟨producer, hproducer, rfl⟩, hkept, hfound⟩
    · rintro ⟨i, _, hi, ⟨producer, hproducer, rfl⟩, hkept, hfound⟩
      exact ⟨i, hi, producer, hproducer, hkept, hfound⟩

theorem length_of_map_eq {A B : Type} {f : A → B} {l l' : List A} (h : l.map f = l'.map f) : l.length = l'.length := by
  rw [← List.length_map (f := f), h, List.length_map]

theorem updateProducer_spec (hmap : u.config.metricToActivationMap = some metricToActivationMap)
    (hno : NoDangling u.toMetricsContext) {m : MetricMessage MetricFields × UpdateStatus} (hm : m.1 ∈ u.config.metrics) {producers producers' : List MetricProducer} {producer : NewProducer}
    (hsliced : producers.map (·.getSlicedStateAtoms) = u.oldMetricProducers.map (·.getSlicedStateAtoms))
    (h : (updateProducer u metricToActivationMap m.1 m.2 metricIndex producers).result = some (producer, producers')) :
    PointsTo u m producer ∧ producers'.map (·.getSlicedStateAtoms) = u.oldMetricProducers.map (·.getSlicedStateAtoms) ∧
      producers'.map (·.indices) = indicesAfter u m (producers.map (·.indices)) := by
  obtain ⟨metric, status⟩ := m
  cases status with
  | UPDATE_UNKNOWN => cases h
  | UPDATE_NEW =>
    simp only [updateProducer, result_bind_eq_some, result_pure, Option.some.injEq, Prod.mk.injEq] at h
    obtain ⟨r, hr, rfl, rfl⟩ := h
    obtain ⟨-, p, rfl, _, _, _, -, -, hatoms, rfl⟩ := (create_eq_some_iff hmap hno hm).1 hr
    exact ⟨⟨_, rfl, hatoms⟩, hsliced, rfl⟩
  | UPDATE_REPLACE =>
    simp only [updateProducer, result_bind_eq_some, result_tell_eq_some, exists_const, true_and, result_pure,
      Option.some.injEq, Prod.mk.injEq] at h
    obtain ⟨r, hr, rfl, rfl⟩ := h
    obtain ⟨-, p, rfl, _, _, _, -, -, hatoms, rfl⟩ := (create_eq_some_iff hmap hno hm).1 hr
    exact ⟨⟨_, rfl, hatoms⟩, hsliced, rfl⟩
  | UPDATE_PRESERVE =>
    simp only [updateProducer, updateMetric, result_bind_eq_some, result_ofOption, result_pure, Option.some.injEq] at h
    obtain ⟨-, ⟨i, hi, old, hold, p, hp, rfl⟩, h⟩ := h
    obtain ⟨rfl, rfl⟩ := Prod.mk.inj h
    obtain ⟨hindices, hatoms⟩ := onConfigUpdatedLocked_spec hmap hp
    obtain ⟨hlt, hget⟩ := List.getElem?_eq_some_iff.1 hold
    refine ⟨⟨i, length_of_map_eq hsliced ▸ hlt, hi, rfl⟩, ?_, ?_⟩
    · have hset := congrArg (List.map (·.getSlicedStateAtoms)) (List.set_getElem_self hlt)
      rw [List.map_set] at hset ⊢
      rw [hatoms, ← hget, hset, hsliced]
    · rw [List.map_set, hindices, indicesAfter]
      simp only [hi]

theorem exists_updateProducers_iff (hmap : u.config.metricToActivationMap = some metricToActivationMap)
    (hno : NoDangling u.toMetricsContext) {metrics : List (MetricMessage MetricFields × UpdateStatus)}
    (hmetrics : ∀ m ∈ metrics, m.1 ∈ u.config.metrics) (metricIndex : Nat) {producers : List MetricProducer}
    (hsliced : producers.map (·.getSlicedStateAtoms) = u.oldMetricProducers.map (·.getSlicedStateAtoms)) :
    (∃ r, (updateProducers u metricToActivationMap metricIndex metrics producers).result = some r) ↔
      AllPass u metricToActivationMap metrics (producers.map (·.indices)) := by
  induction metrics generalizing metricIndex producers with
  | nil => simp [updateProducers, AllPass]
  | cons m metrics ih =>
    obtain ⟨hm, hmetrics⟩ := List.forall_mem_cons.1 hmetrics
    rw [AllPass, ← exists_updateProducer_iff hmap hno hm metricIndex]
    simp only [updateProducers, exists_result_bind_iff, result_pure, Option.some.injEq, exists_eq', and_true]
    constructor
    · rintro ⟨⟨producer, producers'⟩, hr, hrest⟩
      obtain ⟨-, hsliced', hindices⟩ := updateProducer_spec hmap hno hm hsliced hr
      rw [ih hmetrics _ hsliced', hindices] at hrest
      exact ⟨⟨_, hr⟩, hrest⟩
    · rintro ⟨⟨⟨producer, producers'⟩, hr⟩, hrest⟩
      obtain ⟨-, hsliced', hindices⟩ := updateProducer_spec hmap hno hm hsliced hr
      rw [← hindices, ← ih hmetrics (metricIndex + 1) hsliced'] at hrest
      exact ⟨_, hr, hrest⟩

theorem updateProducers_spec (hmap : u.config.metricToActivationMap = some metricToActivationMap)
    (hno : NoDangling u.toMetricsContext) {metrics : List (MetricMessage MetricFields × UpdateStatus)}
    (hmetrics : ∀ m ∈ metrics, m.1 ∈ u.config.metrics) {producers producers' : List MetricProducer}
    {pointers : List NewProducer}
    (hsliced : producers.map (·.getSlicedStateAtoms) = u.oldMetricProducers.map (·.getSlicedStateAtoms))
    (h : (updateProducers u metricToActivationMap metricIndex metrics producers).result = some (pointers, producers')) :
    List.Forall₂ (PointsTo u) metrics pointers ∧
      producers'.map (·.getSlicedStateAtoms) = u.oldMetricProducers.map (·.getSlicedStateAtoms) := by
  induction metrics generalizing metricIndex producers pointers with
  | nil =>
    simp only [updateProducers, result_pure, Option.some.injEq, Prod.mk.injEq] at h
    obtain ⟨rfl, rfl⟩ := h
    exact ⟨.nil, hsliced⟩
  | cons m metrics ih =>
    obtain ⟨hm, hmetrics⟩ := List.forall_mem_cons.1 hmetrics
    simp only [updateProducers, result_bind_eq_some, result_pure, Option.some.injEq, Prod.mk.injEq] at h
    obtain ⟨⟨producer, producers₁⟩, hr, ⟨rest, producers₂⟩, hrest, rfl, rfl⟩ := h
    obtain ⟨hpoints, hsliced', -⟩ := updateProducer_spec hmap hno hm hsliced hr
    obtain ⟨hall, hsliced''⟩ := ih hmetrics hsliced' hrest
    exact ⟨.cons hpoints hall, hsliced''⟩

/-! ## The loop at the end -/

theorem registerAll_of_notMem (whitelisted : List Int) (metrics : Metrics) {producers : List (Option MetricProducer)}
    (h : none ∉ producers) :
    registerAll whitelisted metrics producers ≠ .nullDereferenced ∧
      ((∃ m, registerAll whitelisted metrics producers = .returnsTrue m) ↔
        ∀ p, some p ∈ producers → ∀ a ∈ p.getSlicedStateAtoms, a ∉ whitelisted) := by
  induction producers with
  | nil => simp [registerAll]
  | cons producer producers ih =>
    cases producer with
    | none => exact absurd List.mem_cons_self h
    | some producer =>
      obtain ⟨hnull, htrue⟩ := ih fun hmem => h (List.mem_cons_of_mem _ hmem)
      rw [registerAll]
      split
      · rename_i hany
        obtain ⟨a, ha, hmem⟩ := List.any_eq_true.1 hany
        refine ⟨nofun, iff_of_false (by simp) fun hall => ?_⟩
        exact hall producer List.mem_cons_self a ha (of_decide_eq_true hmem)
      · rename_i hany
        refine ⟨hnull, htrue.trans ⟨fun hall p hp => ?_, fun hall p hp => hall p (List.mem_cons_of_mem _ hp)⟩⟩
        rcases List.mem_cons.1 hp with heq | hp
        · obtain rfl := Option.some.inj heq
          exact fun a ha hmem => hany (List.any_eq_true.2 ⟨a, ha, decide_eq_true hmem⟩)
        · exact hall p hp

theorem finishMetrics_of_notMem {metrics : Metrics} (h : none ∉ metrics.allMetricProducers) :
    finishMetrics c metrics ≠ .nullDereferenced ∧
      ((∃ m, finishMetrics c metrics = .returnsTrue m) ↔
        (∀ id ∈ metrics.noReportMetricIds, id ∈ metrics.metricMap) ∧
          ∀ p, some p ∈ metrics.allMetricProducers → ∀ a ∈ p.getSlicedStateAtoms, a ∉ c.whitelisted_atom_ids) := by
  obtain ⟨hnull, htrue⟩ := registerAll_of_notMem c.whitelisted_atom_ids metrics h
  unfold finishMetrics
  split
  · rename_i hall
    simp only [List.all_eq_true, decide_eq_true_eq] at hall
    exact ⟨hnull, htrue.trans (and_iff_right hall).symm⟩
  · rename_i hall
    simp only [List.all_eq_true, decide_eq_true_eq] at hall
    exact ⟨nofun, iff_of_false (by simp) fun hand => hall hand.1⟩

end

end Statsd.Config
