/-
The guardrails of gauge metrics. The current bucket of a gauge metric keeps a bounded number of keys and, for each
of them, a bounded number of atoms, whichever way the atoms come: matched, pulled on a trigger, a condition or an
activation, or delivered by a scheduled pull.
-/
import Statsd.Metrics.GaugeAnomaly

namespace Statsd.Metrics

namespace GaugeMetricProducer

/-- The current bucket has no more keys than the guardrail lets in, and no more atoms of a key than the limit; for a metric that
samples one atom, no more than one. -/
structure InBounds (metric : GaugeMetric) (p : GaugeMetricProducer) : Prop where
  configured : p.toGaugeMetric = metric
  keys : p.mCurrentSlicedBucket.entries.length ≤ max metric.mDimensionSoftLimit metric.mDimensionHardLimit
  atoms : ∀ key atoms, p.mCurrentSlicedBucket.lookup key = some atoms →
    atoms.length ≤ metric.mGaugeAtomsPerDimensionLimit ∧ (metric.mSamplingType = .RANDOM_ONE_SAMPLE → atoms.length ≤ 1)

variable {metric : GaugeMetric} {p p' : GaugeMetricProducer}

theorem InBounds.empty (hmetric : p.toGaugeMetric = metric) (hsliced : p.mCurrentSlicedBucket = ∅) : InBounds metric p := by
  refine ⟨hmetric, ?_, fun key atoms hkey => ?_⟩
  · rw [hsliced]
    exact Nat.zero_le _
  · rw [hsliced] at hkey
    cases hkey

theorem InBounds.same (h : InBounds metric p) (hsame : SameValues p p') : InBounds metric p' := by
  refine ⟨hsame.metric.trans h.configured, ?_, ?_⟩
  · rw [hsame.sliced]
    exact h.keys
  · rw [hsame.sliced]
    exact h.atoms

theorem InBounds.flush (h : InBounds metric p) (t next : Int) : InBounds metric (p.flushCurrentBucketLocked t next) := by
  refine .empty (.trans ?_ h.configured) rfl
  unfold flushCurrentBucketLocked feedAnomalyTrackers closeBucket updateCurrentSlicedBucketForAnomaly
  dsimp only
  split_ifs <;> rfl

theorem length_insert (m : DimToGaugeAtomsMap) (key : MetricDimensionKey) (atoms : List GaugeAtom) :
    (m.insert key atoms).entries.length = if (m.lookup key).isSome then m.entries.length else m.entries.length + 1 := by
  have hkeys : ∀ m : DimToGaugeAtomsMap, m.entries.length = m.keys.length := fun m => (List.length_map _).symm
  rw [hkeys, hkeys, AList.keys_insert, List.length_cons, List.length_erase]
  by_cases hkey : key ∈ m
  · have hpos := List.length_pos_of_mem (AList.mem_keys.1 hkey)
    rw [if_pos (AList.mem_keys.1 hkey), if_pos (AList.lookup_isSome.2 hkey)]
    omega
  · rw [if_neg fun hmem => hkey (AList.mem_keys.2 hmem), if_neg fun hsome => hkey (AList.lookup_isSome.1 hsome)]

/-- Atoms are entered for a key that the guardrail lets pass. -/
theorem InBounds.enter (hsoft : 0 < metric.mDimensionSoftLimit) (h : InBounds metric p) {key : MetricDimensionKey}
    (hrail : p.hitGuardRailLocked key = false) {atoms : List GaugeAtom} (hlimit : atoms.length ≤ metric.mGaugeAtomsPerDimensionLimit)
    (hone : metric.mSamplingType = .RANDOM_ONE_SAMPLE → atoms.length ≤ 1) {anomalyCalls : List CountAnomalyCall} :
    InBounds metric { p with mCurrentSlicedBucket := p.mCurrentSlicedBucket.insert key atoms, anomalyCalls } := by
  have hkeys := h.keys
  refine ⟨h.configured, ?_, fun key' atoms' hkey' => ?_⟩
  · rw [length_insert]
    unfold hitGuardRailLocked at hrail
    rw [h.configured] at hrail
    split_ifs at hrail ⊢ with hsome hover
    · exact hkeys
    · have := of_decide_eq_false hrail
      omega
    · omega
  · rw [UMap.lookup_insert'] at hkey'
    split_ifs at hkey' with heq
    · cases hkey'
      exact ⟨hlimit, hone⟩
    · exact h.atoms key' atoms' hkey'

theorem InBounds.add (hsoft : 0 < metric.mDimensionSoftLimit) (h : InBounds metric p) (event : MatchedEvent) (tagId : Int)
    (shouldTruncateTimestamp : Bool) : InBounds metric (p.addGaugeAtom event tagId shouldTruncateTimestamp) := by
  obtain rfl := h.configured
  have hold : (UMap.getD p.mCurrentSlicedBucket (p.metricKey event) []).length ≤ p.mGaugeAtomsPerDimensionLimit := by
    cases hkey : p.mCurrentSlicedBucket.lookup (p.metricKey event) with
    | none => simp [UMap.getD_of_lookup_none hkey]
    | some atoms =>
      rw [UMap.getD_of_lookup_some hkey]
      exact (h.atoms _ _ hkey).1
  unfold addGaugeAtom
  dsimp only
  split
  · exact h
  · rename_i hsampled
    -- a metric that samples one atom has none for the key yet
    have hnone : p.mSamplingType = .RANDOM_ONE_SAMPLE → UMap.getD p.mCurrentSlicedBucket (p.metricKey event) [] = [] := by
      intro hrandom
      rw [hrandom] at hsampled
      exact UMap.getD_of_lookup_none (by simpa using hsampled) _
    split
    · exact h
    · rename_i hrail
      have hrail := Bool.eq_false_of_not_eq_true hrail
      split
      · exact h.enter hsoft hrail hold fun hrandom => by simp [hnone hrandom]
      · refine h.enter hsoft hrail ?_ fun hrandom => by simp [hnone hrandom]
        rw [List.length_append, List.length_singleton]
        omega

theorem InBounds.moves (hsoft : 0 < metric.mDimensionSoftLimit) (h : InBounds metric p) (hmoves : Moves p p') : InBounds metric p' := by
  induction hmoves with
  | same hsame => exact h.same hsame
  | flush p t next => exact h.flush t next
  | add p event tagId shouldTruncateTimestamp => exact h.add hsoft event tagId shouldTruncateTimestamp
  | trans hmoves hmoves' ih ih' => exact ih' (ih h)

end GaugeMetricProducer

open GaugeMetricProducer

/-- In every run of a gauge metric the current bucket stays within the guardrails. -/
theorem gauge_bucket_bounded {metric : GaugeMetric} (hsoft : 0 < metric.mDimensionSoftLimit) (activations : EventActivations)
    (initialCondition : ConditionState) (startTimeNs : Int) (calls : List (Int × GaugeMetricProducer.Call)) :
    InBounds metric (calls.foldl (fun p c => p.call c.1 c.2) (new metric activations initialCondition startTimeNs)) := by
  have hrun : ∀ p : GaugeMetricProducer, InBounds metric p → InBounds metric (calls.foldl (fun p c => p.call c.1 c.2) p) := by
    induction calls with
    | nil => exact fun p h => h
    | cons c calls ih => exact fun p h => ih _ (h.moves hsoft (p.moves_call c.1 c.2))
  have hnew : ∀ p : GaugeMetricProducer, p.toGaugeMetric = metric → p.mCurrentSlicedBucket = ∅ →
      p.mCurrentSlicedBucketForAnomaly = ∅ → InBounds metric { p.flushIfNeededLocked startTimeNs with
        mCurrentBucketStartTimeNs := startTimeNs, anomalyCalls := [], updatedFrom := [] } := by
    intro p hmetric hsliced hforAnomaly
    obtain ⟨hmetric', hsliced', -⟩ := p.flushIfNeeded_empty startTimeNs hsliced hforAnomaly
    exact .empty (hmetric'.trans hmetric) hsliced'
  exact hrun _ (hnew _ rfl rfl rfl)

theorem gauge_bucket_bounded_sampled :
    0 < (alertedGauge []).mDimensionSoftLimit ∧
      InBounds (alertedGauge []) (gaugeCalls.foldl (fun p c => p.call c.1 c.2) (new (alertedGauge []) ⟨[], ∅, ∅⟩ .kTrue 0)) :=
  ⟨by decide, gauge_bucket_bounded (by decide) ⟨[], ∅, ∅⟩ .kTrue 0 gaugeCalls⟩

end Statsd.Metrics
