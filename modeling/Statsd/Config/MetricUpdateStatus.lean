/-
What becomes of the metrics of a config when a new one replaces it (determineMetricUpdateStatus and
determineAllMetricUpdateStatuses of metrics/parsing_utils/config_update_utils.cpp). A metric is replaced when
its own message changed or something it depends on is replaced. The ids of its states are intersected in the
order of the config with the sorted set of the replaced ones, so a replaced state is overlooked behind a
greater id.

What a metric asks beyond its dependencies is only read by the hash of its message (`R`).
-/
import Mathlib.Data.Finset.Sort
import Statsd.Base.SetIntersection
import Statsd.Config.UpdateStatus

namespace Statsd.Config

open UpdateStatus

/-! ## The metrics of a config -/

structure EventActivation where
  atom_matcher_id : Int
  deactivation_atom_matcher_id : Option Int

structure MetricActivation where
  metric_id : Int
  event_activation : List EventActivation

structure MetricConditionLink where
  condition : Int
  fields_in_what : Option FieldMatcher
  fields_in_condition : Option FieldMatcher

structure CountMetric (R : Type) where
  id : Int
  what : Int
  condition : Option Int
  slice_by_state : List Int
  links : List MetricConditionLink
  rest : R

structure DurationMetric (R : Type) where
  id : Int
  what : Int
  condition : Option Int
  slice_by_state : List Int
  links : List MetricConditionLink
  rest : R

structure EventMetric (R : Type) where
  id : Int
  what : Int
  condition : Option Int
  links : List MetricConditionLink
  rest : R

structure ValueMetric (R : Type) where
  id : Int
  what : Int
  condition : Option Int
  slice_by_state : List Int
  links : List MetricConditionLink
  rest : R

structure GaugeMetric (R : Type) where
  id : Int
  what : Int
  trigger_event : Option Int
  condition : Option Int
  links : List MetricConditionLink
  rest : R

/-- A metric's message, as the hash takes it. -/
inductive MetricMessage (R : Type) where
  | count (metric : CountMetric R)
  | duration (metric : DurationMetric R)
  | event (metric : EventMetric R)
  | value (metric : ValueMetric R)
  | gauge (metric : GaugeMetric R)

structure MetricsConfig (R : Type) where
  count_metric : List (CountMetric R)
  duration_metric : List (DurationMetric R)
  event_metric : List (EventMetric R)
  value_metric : List (ValueMetric R)
  gauge_metric : List (GaugeMetric R)
  metric_activation : List MetricActivation

inductive MetricType where
  | METRIC_TYPE_EVENT | METRIC_TYPE_COUNT | METRIC_TYPE_DURATION | METRIC_TYPE_GAUGE | METRIC_TYPE_VALUE
deriving DecidableEq

/-- The part of an old metric producer that the update reads. -/
structure OldMetricProducer where
  getMetricType : MetricType
  getProtoHash : UInt64

/-- The hashes of the serialised messages, if they can be serialised, and of two hashes written together. -/
structure Hashing (R : Type) where
  metric : MetricMessage R → Option UInt64
  activation : MetricActivation → Option UInt64
  combine : UInt64 → UInt64 → UInt64

section

variable {R : Type}

/-! ## The status of a metric -/

def getMetricProtoHash (hashing : Hashing R) (config : MetricsConfig R) (metric : MetricMessage R) (id : Int)
    (metricToActivationMap : UMap Int Nat) : Option UInt64 :=
  match hashing.metric metric with
  | none => none
  | some metricHash =>
    match metricToActivationMap.lookup id with
    | none => some metricHash
    | some i =>
      match config.metric_activation[i]? with
      | none => none
      | some activation => (hashing.activation activation).map (hashing.combine metricHash)

/-- Returns true if any matchers in the metric activation were replaced. -/
def metricActivationDepsChange (config : MetricsConfig R) (metricToActivationMap : UMap Int Nat) (metricId : Int)
    (replacedMatchers : Finset Int) : Bool :=
  match metricToActivationMap.lookup metricId with
  | none => false
  | some i =>
    match config.metric_activation[i]? with
    | none => false
    | some metricActivation =>
      metricActivation.event_activation.any fun activation =>
        decide (activation.atom_matcher_id ∈ replacedMatchers) ||
          activation.deactivation_atom_matcher_id.any (decide <| · ∈ replacedMatchers)

/-- The arguments that are the same for all metrics of an update. -/
structure MetricsUpdate (R : Type) where
  hashing : Hashing R
  config : MetricsConfig R
  oldMetricProducerMap : UMap Int Nat
  oldMetricProducers : List OldMetricProducer
  metricToActivationMap : UMap Int Nat
  replacedMatchers : Finset Int
  replacedConditions : Finset Int
  replacedStates : Finset Int

/-- The arguments that a metric brings. -/
structure MetricDependencies (R : Type) where
  metric : MetricMessage R
  metricId : Int
  metricType : MetricType
  matcherDependencies : Finset Int
  conditionDependencies : Finset Int
  stateDependencies : List Int
  conditionLinks : List MetricConditionLink

/-- `determineMetricUpdateStatus`, the status if it returns true. -/
def determineMetricUpdateStatus (u : MetricsUpdate R) (m : MetricDependencies R) : Option UpdateStatus :=
  match u.oldMetricProducerMap.lookup m.metricId with
  | none => some UPDATE_NEW
  | some oldIndex =>
    match getMetricProtoHash u.hashing u.config m.metric m.metricId u.metricToActivationMap,
        u.oldMetricProducers[oldIndex]? with
    | some metricHash, some oldMetricProducer =>
      if oldMetricProducer.getMetricType ≠ m.metricType ∨ oldMetricProducer.getProtoHash ≠ metricHash then
        some UPDATE_REPLACE
      -- intersections of what the metric depends on with what has been replaced
      else if setIntersection m.matcherDependencies.sort u.replacedMatchers.sort ≠ [] then some UPDATE_REPLACE
      else if setIntersection m.conditionDependencies.sort u.replacedConditions.sort ≠ [] then some UPDATE_REPLACE
      else if setIntersection m.stateDependencies u.replacedStates.sort ≠ [] then some UPDATE_REPLACE
      else if m.conditionLinks.any fun link => decide (link.condition ∈ u.replacedConditions) then
        some UPDATE_REPLACE
      else if metricActivationDepsChange u.config u.metricToActivationMap m.metricId u.replacedMatchers then
        some UPDATE_REPLACE
      else some UPDATE_PRESERVE
    | _, _ => none

/-- What each kind of metric depends on. -/
def CountMetric.dependencies (metric : CountMetric R) : MetricDependencies R where
  metric := .count metric
  metricId := metric.id
  metricType := .METRIC_TYPE_COUNT
  matcherDependencies := {metric.what}
  conditionDependencies := metric.condition.toFinset
  stateDependencies := metric.slice_by_state
  conditionLinks := metric.links

def DurationMetric.dependencies (metric : DurationMetric R) : MetricDependencies R where
  metric := .duration metric
  metricId := metric.id
  metricType := .METRIC_TYPE_DURATION
  matcherDependencies := ∅
  conditionDependencies := insert metric.what metric.condition.toFinset
  stateDependencies := metric.slice_by_state
  conditionLinks := metric.links

def EventMetric.dependencies (metric : EventMetric R) : MetricDependencies R where
  metric := .event metric
  metricId := metric.id
  metricType := .METRIC_TYPE_EVENT
  matcherDependencies := {metric.what}
  conditionDependencies := metric.condition.toFinset
  stateDependencies := []
  conditionLinks := metric.links

def ValueMetric.dependencies (metric : ValueMetric R) : MetricDependencies R where
  metric := .value metric
  metricId := metric.id
  metricType := .METRIC_TYPE_VALUE
  matcherDependencies := {metric.what}
  conditionDependencies := metric.condition.toFinset
  stateDependencies := metric.slice_by_state
  conditionLinks := metric.links

def GaugeMetric.dependencies (metric : GaugeMetric R) : MetricDependencies R where
  metric := .gauge metric
  metricId := metric.id
  metricType := .METRIC_TYPE_GAUGE
  matcherDependencies := insert metric.what metric.trigger_event.toFinset
  conditionDependencies := metric.condition.toFinset
  stateDependencies := []
  conditionLinks := metric.links

/-- The metrics of a config in the order of their indices. -/
def MetricsConfig.dependencies (config : MetricsConfig R) : List (MetricDependencies R) :=
  config.count_metric.map (·.dependencies) ++ config.duration_metric.map (·.dependencies) ++
    config.event_metric.map (·.dependencies) ++ config.value_metric.map (·.dependencies) ++
    config.gauge_metric.map (·.dependencies)

/-- `determineAllMetricUpdateStatuses`. -/
def determineAllMetricUpdateStatuses (u : MetricsUpdate R) : Option (List UpdateStatus) :=
  u.config.dependencies.mapM (determineMetricUpdateStatus u)

/-! ## What the status should be -/

/-- The metric's type or message differs from the old one. -/
def Changed (u : MetricsUpdate R) (m : MetricDependencies R) (old : OldMetricProducer) (metricHash : UInt64) : Prop :=
  old.getMetricType ≠ m.metricType ∨ old.getProtoHash ≠ metricHash

/-- A matcher or deactivation matcher of the metric's activation is replaced. -/
def ActivationReplaced (u : MetricsUpdate R) (m : MetricDependencies R) : Prop :=
  ∃ i metricActivation activation, u.metricToActivationMap.lookup m.metricId = some i ∧
    u.config.metric_activation[i]? = some metricActivation ∧ activation ∈ metricActivation.event_activation ∧
    (activation.atom_matcher_id ∈ u.replacedMatchers ∨
      ∃ d, activation.deactivation_atom_matcher_id = some d ∧ d ∈ u.replacedMatchers)

/-- A dependency other than a state is replaced. -/
def OtherReplaced (u : MetricsUpdate R) (m : MetricDependencies R) : Prop :=
  (∃ i ∈ m.matcherDependencies, i ∈ u.replacedMatchers) ∨
    (∃ i ∈ m.conditionDependencies, i ∈ u.replacedConditions) ∨
    (∃ link ∈ m.conditionLinks, link.condition ∈ u.replacedConditions) ∨ ActivationReplaced u m

/-- A state the metric is sliced by is replaced. -/
def StateReplaced (u : MetricsUpdate R) (m : MetricDependencies R) : Prop :=
  ∃ i ∈ m.stateDependencies, i ∈ u.replacedStates

/-- A replaced state of the metric stands behind no greater id. -/
def StateFound (u : MetricsUpdate R) (m : MetricDependencies R) : Prop :=
  ∃ pre i post, m.stateDependencies = pre ++ i :: post ∧ i ∈ u.replacedStates ∧ ∀ x ∈ pre, x ≤ i

/-- The status says whether the metric changed or something it depends on is replaced. -/
def RightStatus (u : MetricsUpdate R) (m : MetricDependencies R) (old : OldMetricProducer) (metricHash : UInt64)
    (status : UpdateStatus) : Prop :=
  (status = UPDATE_REPLACE ↔ Changed u m old metricHash ∨ OtherReplaced u m ∨ StateReplaced u m) ∧
    (status ≠ UPDATE_REPLACE → status = UPDATE_PRESERVE)

/-! ## The checks one by one -/

theorem metricActivationDepsChange_iff (u : MetricsUpdate R) (m : MetricDependencies R) :
    metricActivationDepsChange u.config u.metricToActivationMap m.metricId u.replacedMatchers = true ↔
      ActivationReplaced u m := by
  unfold metricActivationDepsChange ActivationReplaced
  cases hmap : u.metricToActivationMap.lookup m.metricId with
  | none =>
    refine iff_of_false Bool.false_ne_true ?_
    rintro ⟨i, a, e, hi, -⟩
    cases hi
  | some i =>
    cases hact : u.config.metric_activation[i]? with
    | none =>
      refine iff_of_false (by simp [hact]) ?_
      rintro ⟨j, a, e, hj, ha, -⟩
      cases hj
      rw [hact] at ha; cases ha
    | some a =>
      simp only [hact, List.any_eq_true, Bool.or_eq_true, decide_eq_true_eq, Option.any_eq_true]
      constructor
      · rintro ⟨e, he, hor⟩
        exact ⟨i, a, e, rfl, hact, he, hor⟩
      · rintro ⟨j, a', e, hj, ha', he, hor⟩
        cases hj
        rw [hact] at ha'
        cases ha'
        exact ⟨e, he, hor⟩

theorem setIntersection_sort (s t : Finset Int) : setIntersection s.sort t.sort ≠ [] ↔ ∃ i ∈ s, i ∈ t := by
  rw [setIntersection_ne_nil_iff _ t.sortedLT_sort.pairwise, record_of_sorted s.sortedLT_sort.pairwise]
  simp only [Finset.mem_sort]

theorem setIntersection_states (u : MetricsUpdate R) (m : MetricDependencies R) :
    setIntersection m.stateDependencies u.replacedStates.sort ≠ [] ↔ StateFound u m := by
  rw [setIntersection_ne_nil_iff _ u.replacedStates.sortedLT_sort.pairwise]
  unfold Record StateFound
  simp only [Finset.mem_sort]

theorem determineMetricUpdateStatus_spec {u : MetricsUpdate R} {m : MetricDependencies R} {oldIndex : Nat}
    {old : OldMetricProducer} {metricHash : UInt64} {status : UpdateStatus}
    (hidx : u.oldMetricProducerMap.lookup m.metricId = some oldIndex)
    (hold : u.oldMetricProducers[oldIndex]? = some old)
    (hhash : getMetricProtoHash u.hashing u.config m.metric m.metricId u.metricToActivationMap = some metricHash)
    (h : determineMetricUpdateStatus u m = some status) :
    (status = UPDATE_REPLACE ∧ (Changed u m old metricHash ∨ OtherReplaced u m ∨ StateFound u m)) ∨
      (status = UPDATE_PRESERVE ∧ ¬ (Changed u m old metricHash ∨ OtherReplaced u m ∨ StateFound u m)) := by
  unfold determineMetricUpdateStatus at h
  simp only [hidx, hhash, hold] at h
  simp only [setIntersection_sort, List.any_eq_true, decide_eq_true_eq] at h
  unfold Changed OtherReplaced
  split at h
  · rename_i hc
    exact .inl ⟨(Option.some.inj h).symm, .inl hc⟩
  · rename_i hc
    split at h
    · rename_i hm
      exact .inl ⟨(Option.some.inj h).symm, .inr (.inl (.inl hm))⟩
    · rename_i hm
      split at h
      · rename_i hp
        exact .inl ⟨(Option.some.inj h).symm, .inr (.inl (.inr (.inl hp)))⟩
      · rename_i hp
        split at h
        · rename_i hs
          exact .inl ⟨(Option.some.inj h).symm, .inr (.inr ((setIntersection_states u m).1 hs))⟩
        · rename_i hs
          split at h
          · rename_i hl
            exact .inl ⟨(Option.some.inj h).symm, .inr (.inl (.inr (.inr (.inl hl))))⟩
          · rename_i hl
            split at h
            · rename_i ha
              have ha := (metricActivationDepsChange_iff u m).1 ha
              exact .inl ⟨(Option.some.inj h).symm, .inr (.inl (.inr (.inr (.inr ha))))⟩
            · rename_i ha
              refine .inr ⟨(Option.some.inj h).symm, ?_⟩
              rintro (hc' | (hm' | hp' | hl' | ha') | hs')
              · exact hc hc'
              · exact hm hm'
              · exact hp hp'
              · exact hl hl'
              · exact ha ((metricActivationDepsChange_iff u m).2 ha')
              · exact hs ((setIntersection_states u m).2 hs')

theorem StateFound.replaced {u : MetricsUpdate R} {m : MetricDependencies R} (h : StateFound u m) :
    StateReplaced u m := by
  obtain ⟨pre, i, post, heq, hi, -⟩ := h
  exact ⟨i, by rw [heq]; simp, hi⟩

theorem determineAllMetricUpdateStatuses_spec {u : MetricsUpdate R} {statuses : List UpdateStatus}
    (h : determineAllMetricUpdateStatuses u = some statuses) :
    List.Forall₂ (fun m status => determineMetricUpdateStatus u m = some status) u.config.dependencies statuses := by
  unfold determineAllMetricUpdateStatuses at h
  generalize u.config.dependencies = l at h
  induction l generalizing statuses with
  | nil =>
    simp only [List.mapM_nil, Option.pure_def, Option.some.injEq] at h
    rw [← h]
    exact .nil
  | cons m l ih =>
    rw [List.mapM_cons] at h
    obtain ⟨status, hstatus, h⟩ := Option.bind_eq_some_iff.1 h
    obtain ⟨rest, hrest, h⟩ := Option.bind_eq_some_iff.1 h
    rw [← Option.some.inj h]
    exact .cons hstatus (ih hrest)

/-! ## Which statuses are right -/

/-- For an existing metric and any replaced sets, the status is right exactly when a replaced state the metric is
sliced by comes with another reason to replace it, or some replaced state stands behind no greater id. -/
theorem metric_status_right_iff (u : MetricsUpdate R) (m : MetricDependencies R) (oldIndex : Nat)
    (old : OldMetricProducer) (metricHash : UInt64) (status : UpdateStatus)
    (hidx : u.oldMetricProducerMap.lookup m.metricId = some oldIndex)
    (hold : u.oldMetricProducers[oldIndex]? = some old)
    (hhash : getMetricProtoHash u.hashing u.config m.metric m.metricId u.metricToActivationMap = some metricHash)
    (h : determineMetricUpdateStatus u m = some status) :
    RightStatus u m old metricHash status ↔
      (StateReplaced u m → Changed u m old metricHash ∨ OtherReplaced u m ∨ StateFound u m) := by
  have hsub := StateFound.replaced (u := u) (m := m)
  unfold RightStatus
  rcases determineMetricUpdateStatus_spec hidx hold hhash h with ⟨rfl, hor⟩ | ⟨rfl, hnor⟩
  · refine iff_of_true ⟨iff_of_true rfl ?_, fun hne => absurd rfl hne⟩ fun _ => hor
    rcases hor with hc | ho | hs
    · exact .inl hc
    · exact .inr (.inl ho)
    · exact .inr (.inr (hsub hs))
  · constructor
    · rintro ⟨hiff, -⟩ hs
      exact absurd (hiff.2 (.inr (.inr hs))) (by decide)
    · intro himp
      refine ⟨iff_of_false (by decide) ?_, fun _ => rfl⟩
      rintro (hc | ho | hs)
      · exact hnor (.inl hc)
      · exact hnor (.inr (.inl ho))
      · exact hnor (himp hs)

end

/-! ## A metric sliced by two states -/

/-- The update of a config with one unchanged count metric, sliced by the given states, in which the given
states are replaced. -/
def twoStates (slice_by_state : List Int) (replacedStates : Finset Int) : MetricsUpdate Unit where
  hashing := ⟨fun _ => some 7, fun _ => none, fun h _ => h⟩
  config :=
    { count_metric := [⟨1, 2, none, slice_by_state, [], ()⟩]
      duration_metric := []
      event_metric := []
      value_metric := []
      gauge_metric := []
      metric_activation := [] }
  oldMetricProducerMap := (∅ : UMap Int Nat).insert 1 0
  oldMetricProducers := [⟨.METRIC_TYPE_COUNT, 7⟩]
  metricToActivationMap := ∅
  replacedMatchers := ∅
  replacedConditions := ∅
  replacedStates

def twoStatesMetric (slice_by_state : List Int) : MetricDependencies Unit :=
  CountMetric.dependencies ⟨1, 2, none, slice_by_state, [], ()⟩

/-- A replaced state in front: the metric is replaced, as it should be. -/
theorem metric_status_right_first :
    RightStatus (twoStates [20, 10] {20}) (twoStatesMetric [20, 10]) ⟨.METRIC_TYPE_COUNT, 7⟩ 7 UPDATE_REPLACE :=
  (metric_status_right_iff (twoStates [20, 10] {20}) (twoStatesMetric [20, 10]) 0 ⟨.METRIC_TYPE_COUNT, 7⟩ 7
    UPDATE_REPLACE rfl rfl rfl (by decide +kernel)).2 fun _ =>
      .inr (.inr ⟨[], 20, [10], rfl, by decide, fun x hx => by cases hx⟩)

/-- A replaced state behind a greater id: the metric is preserved. -/
theorem metric_status_stale :
    ¬ ∀ (u : MetricsUpdate Unit) (m : MetricDependencies Unit) (oldIndex : Nat) (old : OldMetricProducer)
      (metricHash : UInt64) (status : UpdateStatus), u.oldMetricProducerMap.lookup m.metricId = some oldIndex →
      u.oldMetricProducers[oldIndex]? = some old →
      getMetricProtoHash u.hashing u.config m.metric m.metricId u.metricToActivationMap = some metricHash →
      determineMetricUpdateStatus u m = some status → RightStatus u m old metricHash status := by
  intro h
  have hright := h (twoStates [20, 10] {10}) (twoStatesMetric [20, 10]) 0 ⟨.METRIC_TYPE_COUNT, 7⟩ 7 UPDATE_PRESERVE
    rfl rfl rfl (by decide +kernel)
  have hreplaced : StateReplaced (twoStates [20, 10] {10}) (twoStatesMetric [20, 10]) :=
    ⟨10, by simp [twoStatesMetric, CountMetric.dependencies], by simp [twoStates]⟩
  exact absurd (hright.1.2 (.inr (.inr hreplaced))) (by decide)

end Statsd.Config
