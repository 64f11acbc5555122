/-
Which metrics are created: what the functions check of a metric, and what of a metric resolves in the config.
-/
import Statsd.Config.MetricCreation

namespace Statsd.Config

/-! ## What a metric needs -/

/-- What the update of a metric reads of it. -/
def MetricMessage.dependencies {R : Type} : MetricMessage R → MetricDependencies R
  | count metric => metric.dependencies
  | duration metric => metric.dependencies
  | event metric => metric.dependencies
  | value metric => metric.dependencies
  | gauge metric => metric.dependencies

/-- The metrics of a config in the order of their indices. -/
def MetricsConfig.metrics {R : Type} (config : MetricsConfig R) : List (MetricMessage R) :=
  config.count_metric.map .count ++ config.duration_metric.map .duration ++ config.event_metric.map .event ++
    config.value_metric.map .value ++ config.gauge_metric.map .gauge

theorem dependencies_eq_map {R : Type} (config : MetricsConfig R) :
    config.dependencies = config.metrics.map (·.dependencies) := by
  simp only [MetricsConfig.dependencies, MetricsConfig.metrics, List.map_append, List.map_map]
  rfl

section

variable (c : MetricsContext)

/-- The matcher exists, and is about one atom if it has to be. -/
def MatcherFound (matcher : Int) (enforceOneAtom : Bool) : Prop :=
  ∃ i, c.atomMatchingTrackerMap.lookup matcher = some i ∧ (enforceOneAtom = true → (c.getAtomIds i).card ≤ 1)

/-- The condition and those of its links exist. -/
def ConditionFound (condition : Int) (links : List MetricConditionLink) : Prop :=
  condition ∈ c.conditionTrackerMap ∧ ∀ link ∈ links, link.condition ∈ c.conditionTrackerMap

/-- The condition exists if there is one, and there are no links without. -/
def ConditionOk (condition : Option Int) (links : List MetricConditionLink) : Prop :=
  match condition with
  | some condition => ConditionFound c condition links
  | none => links = []

/-- The states exist, and there are no links to states without. -/
def StatesOk (slice_by_state : List Int) (state_link : List MetricStateLink) : Prop :=
  (∀ s ∈ slice_by_state, s ∈ c.stateAtomIdMap) ∧ (slice_by_state = [] → state_link = [])

/-- The matcher and the deactivation matcher of an activation exist. -/
def ActivationFound (activation : EventActivation) : Prop :=
  activation.atom_matcher_id ∈ c.atomMatchingTrackerMap ∧
    ∀ d ∈ activation.deactivation_atom_matcher_id, d ∈ c.atomMatchingTrackerMap

/-- The activations of a metric exist. -/
def ActivationOk (metricId : Int) : Prop :=
  ∀ a ∈ c.config.metric_activation, a.metric_id = metricId → ∀ activation ∈ a.event_activation, ActivationFound c activation

/-- A trigger is for the first samples of a pulled atom, which need one. -/
def TriggerOk (metric : GaugeMetric MetricFields) (pulled : Bool) : Prop :=
  match metric.trigger_event with
  | some trigger_event =>
    pulled = true ∧ metric.rest.sampling_type = .FIRST_N_SAMPLES ∧ MatcherFound c trigger_event true
  | none => ¬ (pulled = true ∧ metric.rest.sampling_type = .FIRST_N_SAMPLES)

/-- The links to states are about the dimensions of the metric. -/
def StateLinksOk (rest : MetricFields) : Prop :=
  ∀ stateLink ∈ rest.state_link,
    handleMetricWithStateLink stateLink.fields_in_what (translateField rest.dimensions_in_what) = true

/-- What is checked of a metric apart from its activation and its hash. -/
def ChecksPass : MetricMessage MetricFields → Prop
  | .count metric =>
    (metric.rest.has_id = true ∧ metric.rest.has_what = true) ∧
      MatcherFound c metric.what metric.rest.dimensions_in_what.isSome ∧ ConditionOk c metric.condition metric.links ∧
      StatesOk c metric.slice_by_state metric.rest.state_link
  | .duration metric =>
    (metric.rest.has_id = true ∧ metric.rest.has_what = true) ∧
      ∃ i predicate simplePredicate, c.conditionTrackerMap.lookup metric.what = some i ∧ c.predicate[i]? = some predicate ∧
        predicate.contents = .simple_predicate simplePredicate ∧ simplePredicate.start.isSome = true ∧
        (∀ matcher ∈ simplePredicate.matchers, MatcherFound c matcher metric.rest.dimensions_in_what.isSome) ∧
        ConditionOk c metric.condition metric.links ∧
        (metric.slice_by_state = [] ∨ metric.rest.aggregation_type ≠ .MAX_SPARSE) ∧
        StatesOk c metric.slice_by_state metric.rest.state_link ∧ StateLinksOk metric.rest ∧
        durationIsValid metric simplePredicate.dimensions = true
  | .event metric =>
    (metric.rest.has_id = true ∧ metric.rest.has_what = true) ∧ MatcherFound c metric.what false ∧
      ConditionOk c metric.condition metric.links
  | .value metric =>
    (metric.rest.has_id = true ∧ metric.rest.has_what = true) ∧ metric.rest.value_field.isSome = true ∧
      translateField metric.rest.value_field ≠ [] ∧
      (∃ i atomTagId, c.atomMatchingTrackerMap.lookup metric.what = some i ∧ c.getAtomIds i = {atomTagId}) ∧
      ConditionOk c metric.condition metric.links ∧ StatesOk c metric.slice_by_state metric.rest.state_link ∧
      StateLinksOk metric.rest
  | .gauge metric =>
    (metric.rest.has_id = true ∧ metric.rest.has_what = true) ∧ fieldFilterOk metric.rest.gauge_fields_filter = true ∧
      (∃ i atomTagId, c.atomMatchingTrackerMap.lookup metric.what = some i ∧ c.getAtomIds i = {atomTagId} ∧
        TriggerOk c metric (c.PullerForMatcherExists atomTagId)) ∧
      ConditionOk c metric.condition metric.links

variable (metricToActivationMap : UMap Int Nat)

/-- The producer that is made of a metric whose checks pass. -/
def Made (metric : MetricMessage MetricFields) (metricIndex : Nat) (producer : MetricProducer) : Prop :=
  ∃ maps metricHash slicedStateAtoms,
    (handleMetricActivation c metricToActivationMap metric.dependencies.metricId metricIndex).result = some maps ∧
    getMetricProtoHash c.hashing c.config metric metric.dependencies.metricId metricToActivationMap = some metricHash ∧
    metric.dependencies.stateDependencies.map c.stateAtomIdMap.lookup = slicedStateAtoms.map some ∧
    producer = ⟨metric.dependencies.metricType, metricHash, maps.eventActivationMap, maps.eventDeactivationMap,
      slicedStateAtoms⟩

end

/-! ## What the checks find -/

section

open StateWriter

variable {c : MetricsContext} {metricToActivationMap : UMap Int Nat}

variable {metricIndex : Nat} {metric : MetricMessage MetricFields} {r : Option MetricProducer} {enforceOneAtom : Bool}

theorem handleMetricWithAtomMatchingTrackers_eq_some {matcherId : Int} {i : Nat} :
    (handleMetricWithAtomMatchingTrackers c matcherId metricIndex enforceOneAtom).result = some i ↔
      c.atomMatchingTrackerMap.lookup matcherId = some i ∧ (enforceOneAtom = true → (c.getAtomIds i).card ≤ 1) := by
  simp only [handleMetricWithAtomMatchingTrackers, result_bind_eq_some, result_ofOption, result_check_eq_some,
    result_tell_eq_some, result_pure, Option.some.injEq, exists_const, true_and]
  constructor
  · rintro ⟨j, hj, hone, rfl⟩
    exact ⟨hj, fun henforce => by simpa [henforce] using hone⟩
  · rintro ⟨hi, hone⟩
    refine ⟨i, hi, ?_, rfl⟩
    cases enforceOneAtom with
    | false => rfl
    | true => simpa using hone rfl

theorem matcher_bind_eq_some {α : Type} {matcherId : Int} {x : Creates α} {r : α} :
    (handleMetricWithAtomMatchingTrackers c matcherId metricIndex enforceOneAtom >>= fun _ => x).result = some r ↔
      MatcherFound c matcherId enforceOneAtom ∧ x.result = some r := by
  simp only [result_bind_eq_some, handleMetricWithAtomMatchingTrackers_eq_some, MatcherFound, ← exists_and_right]

theorem optionalMatcher_bind_eq_some {α : Type} {matcher : Option Int} {x : Creates α} {r : α} :
    (handleOptionalMatcher c matcher metricIndex enforceOneAtom >>= fun _ => x).result = some r ↔
      (∀ matcherId ∈ matcher, MatcherFound c matcherId enforceOneAtom) ∧ x.result = some r := by
  rw [result_bind_eq_some, exists_and_right]
  refine and_congr_left fun _ => ?_
  cases matcher with
  | none => simp [handleOptionalMatcher]
  | some matcher =>
    simp [handleOptionalMatcher, result_bind_eq_some, handleMetricWithAtomMatchingTrackers_eq_some, MatcherFound]

theorem exists_handleMetricWithConditions_iff (condition : Int) (metricIndex : Nat) (links : List MetricConditionLink) :
    (∃ i, (handleMetricWithConditions c condition metricIndex links).result = some i) ↔
      ConditionFound c condition links := by
  simp only [handleMetricWithConditions, ConditionFound, result_bind_eq_some, result_ofOption, result_check_eq_some,
    result_tell_eq_some, result_pure, Option.some.injEq, exists_const, true_and, List.all_eq_true, AList.lookup_isSome]
  constructor
  · rintro ⟨-, i, hi, hlinks, -⟩
    exact ⟨AList.lookup_isSome.1 (by rw [hi]; rfl), hlinks⟩
  · rintro ⟨hmem, hlinks⟩
    obtain ⟨i, hi⟩ := Option.isSome_iff_exists.1 (AList.lookup_isSome.2 hmem)
    exact ⟨i, i, hi, hlinks, rfl⟩

theorem condition_bind_eq_some {α : Type} {condition : Option Int} {links : List MetricConditionLink}
    {x : Creates α} {r : α} :
    (handleCondition c condition metricIndex links >>= fun _ => x).result = some r ↔
      ConditionOk c condition links ∧ x.result = some r := by
  rw [result_bind_eq_some, exists_and_right]
  refine and_congr_left fun _ => ?_
  cases condition with
  | none => simp [handleCondition, ConditionOk, result_bind_eq_some]
  | some condition =>
    rw [ConditionOk, ← exists_handleMetricWithConditions_iff condition metricIndex links]
    simp [handleCondition, result_bind_eq_some]

theorem handleStates_eq_some {slice_by_state : List Int} {state_link : List MetricStateLink} {atoms : List Int} :
    handleStates c slice_by_state state_link = some atoms ↔
      StatesOk c slice_by_state state_link ∧ slice_by_state.map c.stateAtomIdMap.lookup = atoms.map some := by
  cases slice_by_state with
  | nil =>
    cases state_link with
    | nil => simp [handleStates, StatesOk]
    | cons _ _ => simp [handleStates, StatesOk]
  | cons s slice_by_state =>
    rw [← UMap.lookupAll_eq_some_iff]
    refine ⟨fun h => ⟨⟨fun s' hs' => ?_, nofun⟩, h⟩, fun h => h.2⟩
    exact UMap.mem_of_map_lookup (UMap.lookupAll_eq_some_iff.1 h) hs'

theorem onlyAtom_eq_some {i : Nat} {atomTagId : Int} : onlyAtom c i = some atomTagId ↔ c.getAtomIds i = {atomTagId} := by
  constructor
  · intro h
    unfold onlyAtom at h
    split at h
    · rename_i a hsort
      obtain rfl := Option.some.inj h
      ext b
      rw [← Finset.mem_sort (· ≤ ·), hsort, List.mem_singleton, Finset.mem_singleton]
    · cases h
  · intro h
    rw [onlyAtom, h, Finset.sort_singleton]

/-! ## Activations -/

theorem exists_lookup_iff {K V : Type} [DecidableEq K] {m : UMap K V} {k : K} : (∃ v, m.lookup k = some v) ↔ k ∈ m := by
  rw [← AList.lookup_isSome, Option.isSome_iff_exists]

theorem exists_addActivations_iff {activations : List EventActivation} (maps : ActivationMaps) :
    (∃ maps', (addActivations c metricIndex activations maps).result = some maps') ↔
      ∀ activation ∈ activations, ActivationFound c activation := by
  induction activations generalizing maps with
  | nil => simp [addActivations]
  | cons activation activations ih =>
    simp only [List.forall_mem_cons, ActivationFound, addActivations, exists_result_bind_iff, result_ofOption,
      result_tell_eq_some, exists_const, true_and]
    cases activation.deactivation_atom_matcher_id with
    | none => simp [ih, exists_lookup_iff, ActivationFound]
    | some d =>
      simp [exists_result_bind_iff, ih, exists_lookup_iff, ActivationFound, and_assoc]

theorem forall_activation_iff (hmap : c.config.metricToActivationMap = some metricToActivationMap) (metricId : Int)
    (P : MetricActivation → Prop) :
    (∀ a ∈ c.config.metric_activation, a.metric_id = metricId → P a) ↔
      ∀ i a, metricToActivationMap.lookup metricId = some i → c.config.metric_activation[i]? = some a → P a := by
  obtain ⟨hnodup, hmap⟩ := Option.ite_none_right_eq_some.1 hmap
  obtain rfl := Option.some.inj hmap
  simp only [UMap.lookup_indexMap hnodup, List.getElem?_map, Option.map_eq_some_iff]
  constructor
  · rintro h i a ⟨a', ha', hid⟩ ha
    obtain rfl := Option.some.inj (ha'.symm.trans ha)
    exact h a' (List.mem_of_getElem? ha) hid
  · intro h a ha hid
    obtain ⟨i, hi⟩ := List.mem_iff_getElem?.1 ha
    exact h i a ⟨a, hi, hid⟩ hi

theorem get_of_lookup (hmap : c.config.metricToActivationMap = some metricToActivationMap) {metricId : Int} {i : Nat}
    (hi : metricToActivationMap.lookup metricId = some i) : ∃ a, c.config.metric_activation[i]? = some a := by
  obtain ⟨hnodup, hmap⟩ := Option.ite_none_right_eq_some.1 hmap
  obtain rfl := Option.some.inj hmap
  rw [UMap.lookup_indexMap hnodup, List.getElem?_map, Option.map_eq_some_iff] at hi
  obtain ⟨a, ha, -⟩ := hi
  exact ⟨a, ha⟩

theorem exists_handleMetricActivation_iff (hmap : c.config.metricToActivationMap = some metricToActivationMap)
    (metricId : Int) (metricIndex : Nat) :
    (∃ maps, (handleMetricActivation c metricToActivationMap metricId metricIndex).result = some maps) ↔
      ActivationOk c metricId := by
  rw [ActivationOk, forall_activation_iff hmap _ _, handleMetricActivation]
  cases hi : metricToActivationMap.lookup metricId with
  | none => simp
  | some i =>
    obtain ⟨a, ha⟩ := get_of_lookup hmap hi
    simp only [exists_result_bind_iff, result_ofOption, ha, Option.some.injEq, exists_eq_left', result_tell_eq_some,
      exists_const, result_pure, exists_eq', and_true, exists_addActivations_iff]
    constructor
    · rintro h j a' ⟨⟩ ha'
      obtain rfl := Option.some.inj (ha.symm.trans ha')
      exact h
    · exact fun h => h i a rfl ha

/-! ## The five functions -/

theorem createCount_eq_some {metric : CountMetric MetricFields} :
    (createCountMetricProducerAndUpdateMetadata c metricToActivationMap metric metricIndex).result = some r ↔
      ChecksPass c (.count metric) ∧ ∃ p, r = some p ∧ Made c metricToActivationMap (.count metric) metricIndex p := by
  unfold createCountMetricProducerAndUpdateMetadata
  simp only [check_bind_eq_some, matcher_bind_eq_some, condition_bind_eq_some, ofOption_bind_eq_some,
    handleStates_eq_some, result_bind_eq_some (x := handleMetricActivation _ _ _ _), result_pure, Bool.and_eq_true,
    Option.some.injEq]
  constructor
  · rintro ⟨hhas, hwhat, hcondition, atoms, ⟨hstates, hatoms⟩, maps, hmaps, hash, hhash, rfl⟩
    exact ⟨⟨hhas, hwhat, hcondition, hstates⟩, _, rfl, maps, hash, atoms, hmaps, hhash, hatoms, rfl⟩
  · rintro ⟨⟨hhas, hwhat, hcondition, hstates⟩, _, rfl, maps, hash, atoms, hmaps, hhash, hatoms, rfl⟩
    exact ⟨hhas, hwhat, hcondition, atoms, ⟨hstates, hatoms⟩, maps, hmaps, hash, hhash, rfl⟩

theorem createEvent_eq_some {metric : EventMetric MetricFields} :
    (createEventMetricProducerAndUpdateMetadata c metricToActivationMap metric metricIndex).result = some r ↔
      ChecksPass c (.event metric) ∧
        ((∃ p, r = some p ∧ Made c metricToActivationMap (.event metric) metricIndex p) ∨
          r = none ∧ (handleMetricActivation c metricToActivationMap metric.id metricIndex).result = none) := by
  unfold createEventMetricProducerAndUpdateMetadata
  simp only [check_bind_eq_some, matcher_bind_eq_some, condition_bind_eq_some,
    result_bind_eq_some (x := (handleMetricActivation c metricToActivationMap metric.id metricIndex).attempt),
    result_attempt, Bool.and_eq_true, Option.some.injEq, exists_eq_left']
  simp only [ChecksPass, and_assoc]
  refine and_congr_right fun _ => and_congr_right fun _ => and_congr_right fun _ => and_congr_right fun _ => ?_
  cases hmaps : (handleMetricActivation c metricToActivationMap metric.id metricIndex).result with
  | none =>
    simp only [result_pure, Option.some.injEq, and_true]
    constructor
    · rintro rfl
      exact .inr rfl
    · rintro (⟨p, -, maps, -, -, hmaps', -⟩ | rfl)
      · rw [show MetricDependencies.metricId _ = metric.id from rfl, hmaps] at hmaps'
        cases hmaps'
      · rfl
  | some maps =>
    simp only [ofOption_bind_eq_some, result_pure, Option.some.injEq, reduceCtorEq, and_false, or_false]
    constructor
    · rintro ⟨hash, hhash, rfl⟩
      exact ⟨_, rfl, maps, hash, [], hmaps, hhash, rfl, rfl⟩
    · rintro ⟨_, rfl, maps', hash, atoms, hmaps', hhash, hatoms, rfl⟩
      obtain rfl := Option.some.inj (hmaps.symm.trans hmaps')
      obtain rfl := List.map_eq_nil_iff.1 hatoms.symm
      exact ⟨hash, hhash, rfl⟩

theorem createValue_eq_some {metric : ValueMetric MetricFields} :
    (createValueMetricProducerAndUpdateMetadata c metricToActivationMap metric metricIndex).result = some r ↔
      ChecksPass c (.value metric) ∧ ∃ p, r = some p ∧ Made c metricToActivationMap (.value metric) metricIndex p := by
  unfold createValueMetricProducerAndUpdateMetadata
  simp only [check_bind_eq_some,
    result_bind_eq_some (x := handleMetricWithAtomMatchingTrackers c metric.what metricIndex _),
    handleMetricWithAtomMatchingTrackers_eq_some, condition_bind_eq_some, ofOption_bind_eq_some, onlyAtom_eq_some,
    handleStates_eq_some, result_bind_eq_some (x := handleMetricActivation _ _ _ _), result_pure, Bool.and_eq_true,
    Bool.not_eq_true', List.isEmpty_eq_false_iff, List.all_eq_true, Option.some.injEq]
  constructor
  · rintro ⟨hhas, hfield, hmatchers, i, ⟨hi, -⟩, atomTagId, hone, hcondition, atoms, ⟨hstates, hatoms⟩, hlinks, maps, hmaps,
      hash, hhash, rfl⟩
    exact ⟨⟨hhas, hfield, hmatchers, ⟨i, atomTagId, hi, hone⟩, hcondition, hstates, hlinks⟩, _, rfl, maps, hash, atoms,
      hmaps, hhash, hatoms, rfl⟩
  · rintro ⟨⟨hhas, hfield, hmatchers, ⟨i, atomTagId, hi, hone⟩, hcondition, hstates, hlinks⟩, _, rfl, maps, hash, atoms,
      hmaps, hhash, hatoms, rfl⟩
    exact ⟨hhas, hfield, hmatchers, i, ⟨hi, fun _ => by rw [hone, Finset.card_singleton]⟩, atomTagId, hone, hcondition,
      atoms, ⟨hstates, hatoms⟩, hlinks, maps, hmaps, hash, hhash, rfl⟩

theorem exists_handleTrigger_iff {metric : GaugeMetric MetricFields} {pulled : Bool} :
    (∃ u, (handleTrigger c metric pulled metricIndex).result = some u) ↔ TriggerOk c metric pulled := by
  unfold handleTrigger TriggerOk
  cases metric.trigger_event with
  | none => cases pulled <;> simp
  | some trigger_event =>
    simp only [exists_result_bind_iff, result_check_eq_some, exists_const, handleMetricWithAtomMatchingTrackers_eq_some,
      result_pure, exists_eq', and_true, decide_eq_true_eq, MatcherFound]

theorem createGauge_eq_some {metric : GaugeMetric MetricFields} :
    (createGaugeMetricProducerAndUpdateMetadata c metricToActivationMap metric metricIndex).result = some r ↔
      ChecksPass c (.gauge metric) ∧ ∃ p, r = some p ∧ Made c metricToActivationMap (.gauge metric) metricIndex p := by
  unfold createGaugeMetricProducerAndUpdateMetadata
  simp only [check_bind_eq_some,
    result_bind_eq_some (x := handleMetricWithAtomMatchingTrackers c metric.what metricIndex _),
    handleMetricWithAtomMatchingTrackers_eq_some, condition_bind_eq_some, ofOption_bind_eq_some, onlyAtom_eq_some,
    result_bind_eq_some (x := handleTrigger _ _ _ _), exists_and_right, exists_handleTrigger_iff,
    result_bind_eq_some (x := handleMetricActivation _ _ _ _), result_pure, Bool.and_eq_true,
    Option.some.injEq]
  constructor
  · rintro ⟨hhas, hfilter, i, ⟨hi, -⟩, atomTagId, hone, htrigger, hcondition, maps, hmaps, hash, hhash, rfl⟩
    exact ⟨⟨hhas, hfilter, ⟨i, atomTagId, hi, hone, htrigger⟩, hcondition⟩, _, rfl, maps, hash, [], hmaps, hhash, rfl, rfl⟩
  · rintro ⟨⟨hhas, hfilter, ⟨i, atomTagId, hi, hone, htrigger⟩, hcondition⟩, _, rfl, maps, hash, atoms, hmaps, hhash,
      hatoms, rfl⟩
    obtain rfl := List.map_eq_nil_iff.1 hatoms.symm
    exact ⟨hhas, hfilter, i, ⟨hi, fun _ => by rw [hone, Finset.card_singleton]⟩, atomTagId, hone, htrigger, hcondition,
      maps, hmaps, hash, hhash, rfl⟩

theorem forall_matchers_iff {p : SimplePredicate} {P : Int → Prop} :
    (∀ matcher ∈ p.matchers, P matcher) ↔
      (∀ m ∈ p.start, P m) ∧ (∀ m ∈ p.stop, P m) ∧ ∀ m ∈ p.stop_all, P m := by
  simp only [SimplePredicate.matchers, List.forall_mem_append, Option.mem_toList, Option.mem_def, and_assoc]

theorem createDuration_eq_some {metric : DurationMetric MetricFields} :
    (createDurationMetricProducerAndUpdateMetadata c metricToActivationMap metric metricIndex).result = some r ↔
      ChecksPass c (.duration metric) ∧
        ∃ p, r = some p ∧ Made c metricToActivationMap (.duration metric) metricIndex p := by
  unfold createDurationMetricProducerAndUpdateMetadata
  simp only [check_bind_eq_some, ofOption_bind_eq_some, Bool.and_eq_true]
  constructor
  · rintro ⟨hhas, i, hi, predicate, hpredicate, h⟩
    split at h
    · rename_i simplePredicate hcontents
      simp only [check_bind_eq_some, optionalMatcher_bind_eq_some, condition_bind_eq_some, ofOption_bind_eq_some,
        handleStates_eq_some, result_bind_eq_some (x := handleMetricActivation _ _ _ _), result_pure, Bool.or_eq_true,
        List.isEmpty_iff, decide_eq_true_eq, List.all_eq_true, Option.some.injEq] at h
      obtain ⟨hsome, hstart, hstop, hstopAll, hcondition, hmax, atoms, ⟨hstates, hatoms⟩, hlinks, maps, hmaps, hash, hhash,
        hvalid, rfl⟩ := h
      exact ⟨⟨hhas, i, predicate, simplePredicate, hi, hpredicate, hcontents, hsome,
        forall_matchers_iff.2 ⟨hstart, hstop, hstopAll⟩, hcondition, hmax, hstates, hlinks, hvalid⟩, _, rfl, maps, hash,
        atoms, hmaps, hhash, hatoms, rfl⟩
    · cases h
    · cases h
  · rintro ⟨⟨hhas, i, predicate, simplePredicate, hi, hpredicate, hcontents, hsome, hmatchers, hcondition, hmax, hstates,
      hlinks, hvalid⟩, _, rfl, maps, hash, atoms, hmaps, hhash, hatoms, rfl⟩
    obtain ⟨hstart, hstop, hstopAll⟩ := forall_matchers_iff.1 hmatchers
    refine ⟨hhas, i, hi, predicate, hpredicate, ?_⟩
    rw [hcontents]
    simp only [check_bind_eq_some, optionalMatcher_bind_eq_some, condition_bind_eq_some, ofOption_bind_eq_some,
      handleStates_eq_some, result_bind_eq_some (x := handleMetricActivation _ _ _ _), result_pure, Bool.or_eq_true,
      List.isEmpty_iff, decide_eq_true_eq, List.all_eq_true, Option.some.injEq]
    exact ⟨hsome, hstart, hstop, hstopAll, hcondition, hmax, atoms, ⟨hstates, hatoms⟩, hlinks, maps, hmaps, hash, hhash,
      hvalid, rfl⟩

/-- A metric is an event metric whose activation does not resolve, though all that is checked before does. -/
def Dangling (c : MetricsContext) (metric : EventMetric MetricFields) : Prop :=
  ChecksPass c (.event metric) ∧ ¬ ActivationOk c metric.id

/-- What a function returns for a metric is made of it, except for an event metric without its activation. -/
theorem create_eq_some (hmap : c.config.metricToActivationMap = some metricToActivationMap) :
    (createMetricProducerAndUpdateMetadata c metricToActivationMap metric metricIndex).result = some r ↔
      (ChecksPass c metric ∧ ∃ p, r = some p ∧ Made c metricToActivationMap metric metricIndex p) ∨
        r = none ∧ ∃ event, metric = .event event ∧ Dangling c event := by
  cases metric with
  | count metric => simp [createMetricProducerAndUpdateMetadata, createCount_eq_some]
  | duration metric => simp [createMetricProducerAndUpdateMetadata, createDuration_eq_some]
  | value metric => simp [createMetricProducerAndUpdateMetadata, createValue_eq_some]
  | gauge metric => simp [createMetricProducerAndUpdateMetadata, createGauge_eq_some]
  | event metric =>
    have hactivation := (exists_handleMetricActivation_iff hmap metric.id metricIndex).not
    rw [not_exists, ← Option.eq_none_iff_forall_ne_some] at hactivation
    simp only [createMetricProducerAndUpdateMetadata, createEvent_eq_some, hactivation, Dangling, and_or_left,
      MetricMessage.event.injEq, exists_eq_left', and_left_comm (b := r = none)]

theorem create_eq_null (hmap : c.config.metricToActivationMap = some metricToActivationMap) :
    (createMetricProducerAndUpdateMetadata c metricToActivationMap metric metricIndex).result = some none ↔
      ∃ event, metric = .event event ∧ Dangling c event := by
  rw [create_eq_some hmap]
  simp

theorem ChecksPass.states (h : ChecksPass c metric) :
    ∀ s ∈ metric.dependencies.stateDependencies, s ∈ c.stateAtomIdMap := by
  cases metric with
  | count metric =>
    obtain ⟨-, -, -, hstates, -⟩ := h
    exact hstates
  | duration metric =>
    obtain ⟨-, i, predicate, simplePredicate, -, -, -, -, -, -, -, ⟨hstates, -⟩, -⟩ := h
    exact hstates
  | event metric => exact nofun
  | value metric =>
    obtain ⟨-, -, -, -, -, ⟨hstates, -⟩, -⟩ := h
    exact hstates
  | gauge metric => exact nofun

/-- A producer is made exactly of a metric whose checks pass, whose activation resolves and that has a hash. -/
theorem exists_create_iff (hmap : c.config.metricToActivationMap = some metricToActivationMap) (metricIndex : Nat) :
    (∃ p, (createMetricProducerAndUpdateMetadata c metricToActivationMap metric metricIndex).result = some (some p)) ↔
      ChecksPass c metric ∧ ActivationOk c metric.dependencies.metricId ∧
        (getMetricProtoHash c.hashing c.config metric metric.dependencies.metricId metricToActivationMap).isSome := by
  simp only [create_eq_some hmap, Option.some.injEq, reduceCtorEq, false_and, or_false, exists_eq_left',
    ← exists_handleMetricActivation_iff hmap _ metricIndex, Option.isSome_iff_exists]
  constructor
  · rintro ⟨p, hchecks, maps, hash, atoms, hmaps, hhash, -, -⟩
    exact ⟨hchecks, ⟨maps, hmaps⟩, hash, hhash⟩
  · rintro ⟨hchecks, ⟨maps, hmaps⟩, hash, hhash⟩
    obtain ⟨atoms, hatoms⟩ := UMap.exists_lookupAll hchecks.states
    exact ⟨_, hchecks, maps, hash, atoms, hmaps, hhash, UMap.lookupAll_eq_some_iff.1 hatoms, rfl⟩

/-! ## Metrics that resolve -/

/-- The matchers that a condition names. -/
def predicateMatchers (c : MetricsContext) (condition : Int) : List Int :=
  match c.conditionTrackerMap.lookup condition with
  | none => []
  | some i =>
    match c.predicate[i]? with
    | none => []
    | some predicate => predicate.contents.matchers

/-- The matchers of a metric. -/
def matcherIds (c : MetricsContext) : MetricMessage MetricFields → List Int
  | .count metric => [metric.what]
  | .duration metric => predicateMatchers c metric.what
  | .event metric => [metric.what]
  | .value metric => [metric.what]
  | .gauge metric => metric.what :: metric.trigger_event.toList

/-- The matchers, conditions, links, states and activations of a metric resolve. -/
structure Resolves (c : MetricsContext) (metric : MetricMessage MetricFields) : Prop where
  matchers : ∀ i ∈ matcherIds c metric, i ∈ c.atomMatchingTrackerMap
  conditions : ∀ i ∈ metric.dependencies.conditionDependencies, i ∈ c.conditionTrackerMap
  links : ∀ link ∈ metric.dependencies.conditionLinks, link.condition ∈ c.conditionTrackerMap
  states : ∀ s ∈ metric.dependencies.stateDependencies, s ∈ c.stateAtomIdMap
  activations : ActivationOk c metric.dependencies.metricId

theorem MatcherFound.mem {matcher : Int} (h : MatcherFound c matcher enforceOneAtom) :
    matcher ∈ c.atomMatchingTrackerMap := by
  obtain ⟨i, hi, -⟩ := h
  exact exists_lookup_iff.1 ⟨i, hi⟩

theorem ConditionOk.condition {condition : Option Int} {links : List MetricConditionLink}
    (h : ConditionOk c condition links) : ∀ i ∈ condition.toFinset, i ∈ c.conditionTrackerMap := by
  intro i hi
  obtain rfl := Option.mem_toFinset.1 hi
  exact h.1

theorem ConditionOk.links {condition : Option Int} {links : List MetricConditionLink} (h : ConditionOk c condition links) :
    ∀ link ∈ links, link.condition ∈ c.conditionTrackerMap := by
  cases condition with
  | none =>
    obtain rfl : links = [] := h
    exact nofun
  | some condition => exact h.2

theorem predicateMatchers_eq {condition : Int} {i : Nat} {predicate : Predicate} {simplePredicate : SimplePredicate}
    (hi : c.conditionTrackerMap.lookup condition = some i) (hpredicate : c.predicate[i]? = some predicate)
    (hcontents : predicate.contents = .simple_predicate simplePredicate) :
    predicateMatchers c condition = simplePredicate.matchers := by
  simp [predicateMatchers, hi, hpredicate, hcontents, PredicateContents.matchers]

theorem ChecksPass.resolves (h : ChecksPass c metric)
    (hactivations : ActivationOk c metric.dependencies.metricId) : Resolves c metric := by
  suffices (∀ i ∈ matcherIds c metric, i ∈ c.atomMatchingTrackerMap) ∧
      (∀ i ∈ metric.dependencies.conditionDependencies, i ∈ c.conditionTrackerMap) ∧
      ∀ link ∈ metric.dependencies.conditionLinks, link.condition ∈ c.conditionTrackerMap from
    ⟨this.1, this.2.1, this.2.2, h.states, hactivations⟩
  cases metric with
  | count metric =>
    obtain ⟨-, hwhat, hcondition, -⟩ := h
    exact ⟨List.forall_mem_singleton.2 hwhat.mem, hcondition.condition, hcondition.links⟩
  | duration metric =>
    obtain ⟨-, i, predicate, simplePredicate, hi, hpredicate, hcontents, -, hmatchers, hcondition, -⟩ := h
    refine ⟨fun m hm => ?_, fun j hj => ?_, hcondition.links⟩
    · rw [matcherIds, predicateMatchers_eq hi hpredicate hcontents] at hm
      exact (hmatchers m hm).mem
    · rcases Finset.mem_insert.1 hj with rfl | hj
      · exact exists_lookup_iff.1 ⟨i, hi⟩
      · exact hcondition.condition j hj
  | event metric =>
    obtain ⟨-, hwhat, hcondition⟩ := h
    exact ⟨List.forall_mem_singleton.2 hwhat.mem, hcondition.condition, hcondition.links⟩
  | value metric =>
    obtain ⟨-, -, -, ⟨i, -, hi, -⟩, hcondition, -⟩ := h
    exact ⟨List.forall_mem_singleton.2 (exists_lookup_iff.1 ⟨i, hi⟩), hcondition.condition, hcondition.links⟩
  | gauge metric =>
    obtain ⟨-, -, ⟨i, atomTagId, hi, -, htrigger⟩, hcondition⟩ := h
    refine ⟨List.forall_mem_cons.2 ⟨exists_lookup_iff.1 ⟨i, hi⟩, fun m hm => ?_⟩, hcondition.condition, hcondition.links⟩
    rw [Option.mem_toList] at hm
    rw [TriggerOk, hm] at htrigger
    exact htrigger.2.2.mem

end

end Statsd.Config
