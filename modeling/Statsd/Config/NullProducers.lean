/-
When a failed creation leaves a null producer: an event metric whose activation names a missing matcher gets a null
pointer instead of nothing, and the loop after the creations reads it. A preserved metric may also lose a state that the
new config lacks without being noticed.
-/
import Statsd.Config.MetricsUpdate

namespace Statsd.Config

open UpdateStatus

/-! ## What a run should do -/

def AllResolve (c : MetricsContext) : Prop := ∀ m ∈ c.config.metrics, Resolves c m

/-- The five functions return nothing or a producer. -/
def NeverNull (c : MetricsContext) : Prop :=
  ∀ metricToActivationMap, c.config.metricToActivationMap = some metricToActivationMap → ∀ metric ∈ c.config.metrics,
    ∀ metricIndex, (createMetricProducerAndUpdateMetadata c metricToActivationMap metric metricIndex).result ≠ some none

/-- No creation yields a null producer: a run of initMetrics returns false when some metric does not resolve, and has
only producers otherwise. -/
structure InitSound (c : MetricsContext) : Prop where
  never : NeverNull c
  false : ¬ AllResolve c → initMetrics c = .returnsFalse
  producers : AllResolve c → ∀ metrics, createMetrics c = some metrics → none ∉ metrics.allMetricProducers

/-- The same for a run of updateMetrics. -/
structure UpdateSound (u : UpdateContext) : Prop where
  never : NeverNull u.toMetricsContext
  false : ¬ AllResolve u.toMetricsContext → updateMetrics u = .returnsFalse
  producers : AllResolve u.toMetricsContext → ∀ metrics, replaceMetrics u = some metrics → none ∉ metrics.allMetricProducers

/-- A state or a link of the metric does not resolve. -/
def Unnoticed (c : MetricsContext) (metric : MetricMessage MetricFields) : Prop :=
  (∃ s ∈ metric.dependencies.stateDependencies, s ∉ c.stateAtomIdMap) ∨
    ∃ link ∈ metric.dependencies.conditionLinks, link.condition ∉ c.conditionTrackerMap

/-! ## Metrics of a run -/

section

variable {c : MetricsContext} {u : UpdateContext} {metricToActivationMap : UMap Int Nat}

theorem neverNull_iff : NeverNull c ↔ NoDangling c := by
  constructor
  · intro h hnodup event hevent hdangling
    have hmap : c.config.metricToActivationMap = some (UMap.indexMap (c.config.metric_activation.map (·.metric_id))) :=
      if_pos hnodup
    refine h _ hmap (.event event) ?_ 0 ((create_eq_null hmap).2 ⟨event, rfl, hdangling⟩)
    simpa [MetricsConfig.metrics] using hevent
  · intro h map hmap metric hmetric metricIndex hnull
    exact not_dangling hmap h hmetric ((create_eq_null hmap).1 hnull)

theorem Passes.resolves {metric : MetricMessage MetricFields} (h : Passes c metricToActivationMap metric) :
    Resolves c metric := h.1.resolves h.2.1

theorem resolves_of_kept {indices : Set Nat} {metric : MetricMessage MetricFields}
    (hkept : ActivationKept u indices metric.dependencies.metricId) (hfound : IndicesFound u metric)
    (hnoticed : ¬ Unnoticed u.toMetricsContext metric) : Resolves u.toMetricsContext metric := by
  have hcondition : ∀ {condition : Option Int} {links : List MetricConditionLink}, ConditionKept u condition links →
      ∀ i ∈ condition.toFinset, i ∈ u.conditionTrackerMap :=
    fun hk i hi => (hk i (Option.mem_toFinset.1 hi)).1
  suffices (∀ i ∈ matcherIds u.toMetricsContext metric, i ∈ u.atomMatchingTrackerMap) ∧
      ∀ i ∈ metric.dependencies.conditionDependencies, i ∈ u.conditionTrackerMap by
    refine ⟨this.1, this.2, fun link hlink => ?_, fun s hs => ?_, fun a ha hid e he => (hkept a ha hid e he).1⟩
    · exact not_not.1 fun hno => hnoticed (.inr ⟨link, hlink, hno⟩)
    · exact not_not.1 fun hno => hnoticed (.inl ⟨s, hs, hno⟩)
  cases metric with
  | count metric => exact ⟨List.forall_mem_singleton.2 hfound.1.mem, hcondition hfound.2⟩
  | event metric => exact ⟨List.forall_mem_singleton.2 hfound.1.mem, hcondition hfound.2⟩
  | value metric => exact ⟨List.forall_mem_singleton.2 hfound.1.mem, hcondition hfound.2⟩
  | gauge metric =>
    obtain ⟨hwhat, htrigger, hk⟩ := hfound
    refine ⟨List.forall_mem_cons.2 ⟨hwhat.mem, fun m hm => ?_⟩, hcondition hk⟩
    exact (htrigger m (Option.mem_toList.1 hm)).mem
  | duration metric =>
    obtain ⟨i, predicate, simplePredicate, hi, hpredicate, hcontents, hstart, hstop, hstopAll, hk⟩ := hfound
    refine ⟨fun m hm => ?_, fun j hj => ?_⟩
    · rw [matcherIds, predicateMatchers_eq hi hpredicate hcontents] at hm
      refine forall_matchers_iff.2 ⟨fun m hm => ?_, fun m hm => (hstop m hm).mem, fun m hm => (hstopAll m hm).mem⟩ m hm
      rw [Option.mem_def.1 hm] at hstart
      exact hstart.mem
    · rcases Finset.mem_insert.1 hj with rfl | hj
      · exact exists_lookup_iff.1 ⟨i, hi⟩
      · exact hcondition hk j hj

theorem resolves_of_allPass {metrics : List (MetricMessage MetricFields × UpdateStatus)} {indices : List (Set Nat)}
    (h : AllPass u metricToActivationMap metrics indices)
    (hnoticed : ∀ m ∈ metrics, m.2 = UPDATE_PRESERVE → ¬ Unnoticed u.toMetricsContext m.1) :
    ∀ m ∈ metrics, Resolves u.toMetricsContext m.1 := by
  induction metrics generalizing indices with
  | nil => exact List.forall_mem_nil _
  | cons m metrics ih =>
    obtain ⟨hpass, hall⟩ := h
    obtain ⟨hm, hmetrics⟩ := List.forall_mem_cons.1 hnoticed
    refine List.forall_mem_cons.2 ⟨?_, ih hall hmetrics⟩
    obtain ⟨metric, status⟩ := m
    cases status with
    | UPDATE_UNKNOWN => cases hpass
    | UPDATE_NEW => exact Passes.resolves hpass
    | UPDATE_REPLACE => exact Passes.resolves hpass
    | UPDATE_PRESERVE =>
      obtain ⟨oldIndex, own, -, -, hkept, hfound⟩ := hpass
      exact resolves_of_kept hkept hfound (hm rfl)

theorem PointsTo.atoms {m : MetricMessage MetricFields × UpdateStatus} {pointer : NewProducer} {producers : List MetricProducer}
    (h : PointsTo u m pointer)
    (hsliced : producers.map (·.getSlicedStateAtoms) = u.oldMetricProducers.map (·.getSlicedStateAtoms)) :
    ∃ p, pointer.get producers = some p ∧ ∀ a, a ∈ p.getSlicedStateAtoms ↔ a ∈ slicedAtoms u m.1 m.2 := by
  have hcreated : ∀ {p : MetricProducer}, m.1.dependencies.stateDependencies.map u.stateAtomIdMap.lookup =
      p.getSlicedStateAtoms.map some → ∀ a, a ∈ p.getSlicedStateAtoms ↔
        ∃ s ∈ m.1.dependencies.stateDependencies, u.stateAtomIdMap.lookup s = some a := by
    intro p hatoms a
    rw [← List.mem_map_of_injective (Option.some_injective _), ← hatoms, List.mem_map]
  obtain ⟨metric, status⟩ := m
  cases status with
  | UPDATE_PRESERVE =>
    obtain ⟨i, hlt, hi, rfl⟩ := h
    have hlen := length_of_map_eq hsliced
    have hget := congrArg (·[i]?) hsliced
    simp only [List.getElem?_map, List.getElem?_eq_getElem hlt, List.getElem?_eq_getElem (hlen ▸ hlt),
      Option.map_some, Option.some.injEq] at hget
    refine ⟨producers[i], List.getElem?_eq_getElem (hlen ▸ hlt), fun a => ?_⟩
    rw [hget]
    constructor
    · exact fun ha => ⟨i, _, hi, List.getElem?_eq_getElem hlt, ha⟩
    · rintro ⟨j, p, hj, hp, ha⟩
      obtain rfl := Option.some.inj (hi.symm.trans hj)
      obtain rfl := Option.some.inj ((List.getElem?_eq_getElem hlt).symm.trans hp)
      exact ha
  | UPDATE_NEW =>
    obtain ⟨p, rfl, hatoms⟩ := h
    exact ⟨p, rfl, hcreated hatoms⟩
  | UPDATE_REPLACE =>
    obtain ⟨p, rfl, hatoms⟩ := h
    exact ⟨p, rfl, hcreated hatoms⟩
  | UPDATE_UNKNOWN =>
    obtain ⟨p, rfl, hatoms⟩ := h
    exact ⟨p, rfl, hcreated hatoms⟩

/-! ## Whole runs -/

theorem createMetrics_spec (hno : NoDangling c) {metrics : Metrics} (h : createMetrics c = some metrics) :
    AllResolve c ∧ none ∉ metrics.allMetricProducers := by
  obtain ⟨map, hmap, h⟩ := Option.bind_eq_some_iff.1 h
  obtain ⟨producers, hproducers, h⟩ := Option.bind_eq_some_iff.1 h
  obtain rfl := Option.some.inj h
  obtain ⟨hpass, hnull⟩ := createAll_spec hmap hno (fun _ h => h) hproducers
  exact ⟨fun m hm => (hpass m hm).resolves, hnull⟩

theorem initSound_iff : InitSound c ↔ NoDangling c := by
  constructor
  · exact fun h => neverNull_iff.1 h.never
  · intro hno
    refine ⟨neverNull_iff.2 hno, fun hresolve => ?_, fun _ metrics h => (createMetrics_spec hno h).2⟩
    cases hmetrics : createMetrics c with
    | none => simp only [initMetrics, hmetrics]
    | some metrics => exact absurd (createMetrics_spec hno hmetrics).1 hresolve

theorem mem_zip_fst {statuses : List UpdateStatus}
    (hstatuses : determineAllMetricUpdateStatuses (u.metricsUpdate metricToActivationMap) = some statuses) :
    (u.config.metrics.zip statuses).map Prod.fst = u.config.metrics := by
  have hlen := (determineAllMetricUpdateStatuses_spec hstatuses).length_eq
  rw [UpdateContext.metricsUpdate, dependencies_eq_map, List.length_map] at hlen
  exact List.map_fst_zip hlen.le

theorem mem_of_mem_zip {statuses : List UpdateStatus} {m : MetricMessage MetricFields × UpdateStatus}
    (hm : m ∈ u.config.metrics.zip statuses) : m.1 ∈ u.config.metrics := (List.of_mem_zip hm).1

theorem forall_atoms_iff {metrics : List (MetricMessage MetricFields × UpdateStatus)} {pointers : List NewProducer}
    {producers : List MetricProducer} (h : List.Forall₂ (PointsTo u) metrics pointers)
    (hsliced : producers.map (·.getSlicedStateAtoms) = u.oldMetricProducers.map (·.getSlicedStateAtoms)) {P : Int → Prop} :
    none ∉ pointers.map (·.get producers) ∧
      ((∀ p, some p ∈ pointers.map (·.get producers) → ∀ a ∈ p.getSlicedStateAtoms, P a) ↔
        ∀ m ∈ metrics, ∀ a ∈ slicedAtoms u m.1 m.2, P a) := by
  induction h with
  | nil => simp
  | @cons m pointer metrics pointers hm _ ih =>
    obtain ⟨p, hp, hatoms⟩ := hm.atoms hsliced
    obtain ⟨hnull, hall⟩ := ih
    rw [List.map_cons, hp]
    refine ⟨by simpa using hnull, ?_⟩
    rw [List.forall_mem_cons, ← hall]
    simp only [← hatoms]
    constructor
    · exact fun h => ⟨h p List.mem_cons_self, fun q hq => h q (List.mem_cons_of_mem _ hq)⟩
    · rintro ⟨hhead, htail⟩ q hq
      rcases List.mem_cons.1 hq with heq | hq
      · obtain rfl := Option.some.inj heq
        exact hhead
      · exact htail q hq

theorem replaceMetrics_spec (hno : NoDangling u.toMetricsContext) {metrics : Metrics} (h : replaceMetrics u = some metrics) :
    none ∉ metrics.allMetricProducers ∧
      ((∃ m, finishMetrics u.toMetricsContext metrics = .returnsTrue m) ↔
        ∃ metricToActivationMap metricsToUpdate, UpdateAccepted u metricToActivationMap metricsToUpdate) := by
  obtain ⟨map, hmap, h⟩ := Option.bind_eq_some_iff.1 h
  obtain ⟨statuses, hstatuses, h⟩ := Option.bind_eq_some_iff.1 h
  obtain ⟨⟨pointers, producers⟩, hrun, h⟩ := Option.bind_eq_some_iff.1 h
  obtain rfl := Option.some.inj h
  have hmem : ∀ m ∈ u.config.metrics.zip statuses, m.1 ∈ u.config.metrics := fun m => mem_of_mem_zip
  have hpass := (exists_updateProducers_iff hmap hno hmem 0 rfl).1 ⟨_, hrun⟩
  obtain ⟨hpoints, hsliced⟩ := updateProducers_spec hmap hno hmem rfl hrun
  obtain ⟨hnull, hatoms⟩ := forall_atoms_iff hpoints hsliced (P := (· ∉ u.whitelisted_atom_ids))
  refine ⟨hnull, (finishMetrics_of_notMem (c := u.toMetricsContext) hnull).2.trans ?_⟩
  rw [hatoms]
  simp only [UMap.mem_lastIndexMap_iff]
  constructor
  · exact fun h => ⟨map, statuses, hmap, hstatuses, hpass, h.1, h.2⟩
  · rintro ⟨map', statuses', haccepted⟩
    obtain rfl := Option.some.inj (hmap.symm.trans haccepted.activations)
    obtain rfl := Option.some.inj (hstatuses.symm.trans haccepted.statuses)
    exact ⟨haccepted.reported, haccepted.states⟩

theorem updateMetrics_returnsTrue_iff (hno : NoDangling u.toMetricsContext) :
    (∃ m, updateMetrics u = .returnsTrue m) ↔
      ∃ metricToActivationMap metricsToUpdate, UpdateAccepted u metricToActivationMap metricsToUpdate := by
  unfold updateMetrics
  cases h : replaceMetrics u with
  | some metrics => exact (replaceMetrics_spec hno h).2
  | none =>
    refine iff_of_false (by simp) ?_
    rintro ⟨map, statuses, haccepted⟩
    obtain ⟨r, hr⟩ := (exists_updateProducers_iff haccepted.activations hno (fun m => mem_of_mem_zip) 0
      rfl).2 haccepted.metrics
    simp [replaceMetrics, haccepted.activations, haccepted.statuses, hr] at h

/-- The condition under which an update is sound. -/
def PreservedResolve (u : UpdateContext) : Prop :=
  ∀ metricToActivationMap metricsToUpdate, UpdateAccepted u metricToActivationMap metricsToUpdate →
    ∀ m ∈ u.config.metrics.zip metricsToUpdate, m.2 = UPDATE_PRESERVE → ¬ Unnoticed u.toMetricsContext m.1

/-- A config is replaced soundly exactly when no event metric lacks its activation only, and the update is rejected if a
preserved metric has a state or a link that does not resolve. -/
theorem updateSound_iff : UpdateSound u ↔ NoDangling u.toMetricsContext ∧ PreservedResolve u := by
  constructor
  · intro h
    have hno := neverNull_iff.1 h.never
    refine ⟨hno, fun map statuses haccepted m hm hpreserve hunnoticed => ?_⟩
    obtain ⟨metrics, htrue⟩ := (updateMetrics_returnsTrue_iff hno).2 ⟨map, statuses, haccepted⟩
    have hresolve : ¬ AllResolve u.toMetricsContext := by
      intro hall
      have hmem : m.1 ∈ u.config.metrics := mem_zip_fst haccepted.statuses ▸ List.mem_map_of_mem hm
      obtain ⟨s, hs, hno⟩ | ⟨link, hlink, hno⟩ := hunnoticed
      · exact hno ((hall m.1 hmem).states s hs)
      · exact hno ((hall m.1 hmem).links link hlink)
    cases htrue.symm.trans (h.false hresolve)
  · rintro ⟨hno, hpreserved⟩
    refine ⟨neverNull_iff.2 hno, fun hresolve => ?_, fun _ metrics h => (replaceMetrics_spec hno h).1⟩
    cases hresult : updateMetrics u with
    | returnsFalse => rfl
    | nullDereferenced =>
      unfold updateMetrics at hresult
      cases h : replaceMetrics u with
      | none => rw [h] at hresult; cases hresult
      | some metrics =>
        rw [h] at hresult
        exact absurd hresult (finishMetrics_of_notMem (replaceMetrics_spec hno h).1).1
    | returnsTrue metrics =>
      obtain ⟨map, statuses, haccepted⟩ := (updateMetrics_returnsTrue_iff hno).1 ⟨metrics, hresult⟩
      have hall := resolves_of_allPass haccepted.metrics (hpreserved map statuses haccepted)
      refine absurd (fun m hm => ?_) hresolve
      rw [← mem_zip_fst haccepted.statuses, List.mem_map] at hm
      obtain ⟨m, hm, rfl⟩ := hm
      exact hall m hm

end

/-- No creation yields a null producer, and metrics that do not resolve make a run return false, exactly when no event
metric lacks its activation only and no preserved metric loses a state or a link. -/
theorem creation_never_null_iff (c : MetricsContext) (u : UpdateContext) :
    (InitSound c ↔ NoDangling c) ∧ (UpdateSound u ↔ NoDangling u.toMetricsContext ∧ PreservedResolve u) :=
  ⟨initSound_iff, updateSound_iff⟩

/-! ## An event metric activated by a missing matcher -/

/-- A config with one matcher and one event metric, which is activated by another matcher. -/
def missingActivation : MetricsContext where
  config :=
    { count_metric := []
      duration_metric := []
      event_metric := [⟨10, 1, none, [], ⟨true, true, none, [], .SUM, none, ⟨none, none⟩, .RANDOM_ONE_SAMPLE⟩⟩]
      value_metric := []
      gauge_metric := []
      metric_activation := [⟨10, [⟨2, none⟩]⟩] }
  predicate := []
  no_report_metric := []
  whitelisted_atom_ids := []
  atomMatchingTrackerMap := (∅ : UMap Int Nat).insert 1 0
  getAtomIds := fun _ => {100}
  conditionTrackerMap := ∅
  stateAtomIdMap := ∅
  PullerForMatcherExists := fun _ => false
  hashing := ⟨fun _ => some 7, fun _ => some 8, fun h _ => h⟩

/-- Its producer is null, and reading it crashes the run that should have returned false. -/
theorem missing_activation_crashes :
    initMetrics missingActivation = .nullDereferenced ∧ ¬ ∀ c, InitSound c := by
  have hnull : initMetrics missingActivation = .nullDereferenced := rfl
  refine ⟨hnull, fun h => ?_⟩
  have hfalse := (h missingActivation).false fun hall => ?_
  · cases hnull.symm.trans hfalse
  · have hactivation := (hall (.event ⟨10, 1, none, [], _⟩) (.head _)).activations ⟨10, [⟨2, none⟩]⟩ (.head _) rfl
      ⟨2, none⟩ (.head _)
    exact absurd hactivation.1 (by decide)

end Statsd.Config
