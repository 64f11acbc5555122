/-
The anomaly feed of a count metric. The counts of a full bucket go to the anomaly trackers when it is over:
those of its last part, with the ones kept of its earlier parts. The feed matches the reports unless a flush
comes at exactly the end of a full bucket with counts: the bucket is then over but is taken for a part, and
its counts are handed over with those of the next one.
-/
import Statsd.Base.Handover
import Statsd.Metrics.CountConservation

namespace Statsd.Metrics.CountMetricProducer

open Statsd.Handover

/-- The counts handed over for a key, each with the number of its bucket. -/
def handedTo (k : MetricDimensionKey) (calls : List CountAnomalyCall) : List (Int × Int) :=
  calls.flatMap fun
    | .addPastBucket bucketValues bucketNum => (bucketValues.lookup k).toList.map fun v => (bucketNum, v)
    | .detectAndDeclareAnomaly _ _ _ _ => []

theorem handedTo_append (k : MetricDimensionKey) (l l' : List CountAnomalyCall) : handedTo k (l ++ l') = handedTo k l ++ handedTo k l' :=
  List.flatMap_append

/-- The reported counts, each with the number of the full bucket that its bucket starts in. -/
def partsOf (m : CountMetric) (buckets : List CountBucket) : List (Int × Int) :=
  buckets.map fun b => (Grid.cellOf m.mTimeBaseNs m.mBucketSizeNs b.mBucketStartNs, b.mCount)

/-- The interval of a bucket lies in full bucket `n`. -/
def Within (m : CountMetric) (n : Int) (b : CountBucket) : Prop :=
  m.mTimeBaseNs + n * m.mBucketSizeNs ≤ b.mBucketStartNs ∧ b.mBucketStartNs < m.mTimeBaseNs + (n + 1) * m.mBucketSizeNs ∧
    b.mBucketEndNs ≤ m.mTimeBaseNs + (n + 1) * m.mBucketSizeNs

instance (m : CountMetric) (n : Int) (b : CountBucket) : Decidable (Within m n b) := by unfold Within; infer_instance

theorem lookup_addToFullCounters (full sliced : UMap MetricDimensionKey Int) (k : MetricDimensionKey) :
    (addToFullCounters full sliced).lookup k = join (full.lookup k) (sliced.lookup k) := by
  have h := UMap.lookup_foldl_insert (fun a v : Int => a + v) 0 sliced.entries sliced.nodupKeys full k
  refine Eq.trans h ?_
  rw [show sliced.lookup k = sliced.entries.dlookup k from rfl]
  unfold UMap.getD
  cases sliced.entries.dlookup k with
  | none => cases full.lookup k <;> rfl
  | some v =>
    cases full.lookup k with
    | none =>
      show some (0 + v) = some v
      rw [zero_add]
    | some w => rfl

/-- The feed of a flush at time `e`: past the end of the full bucket its counts are handed over, and before
it they are kept. -/
structure FeedsAt (p q : CountMetricProducer) (e : Int) (k : MetricDimensionKey) : Prop where
  whole : p.getCurrentBucketEndTimeNs < e →
    handedTo k q.anomalyCalls = handedTo k p.anomalyCalls ++
      (join (p.mCurrentFullCounters.lookup k) (p.mCurrentSlicedCounter.lookup k)).toList.map (fun v => (p.mCurrentBucketNum, v)) ∧
    q.mCurrentFullCounters.lookup k = none
  part : e ≤ p.getCurrentBucketEndTimeNs →
    handedTo k q.anomalyCalls = handedTo k p.anomalyCalls ∧
    q.mCurrentFullCounters.lookup k = join (p.mCurrentFullCounters.lookup k) (p.mCurrentSlicedCounter.lookup k)

theorem feedAnomalyTrackers_feed (p : CountMetricProducer) (e : Int) (k : MetricDimensionKey) : FeedsAt p (p.feedAnomalyTrackers e) e k := by
  unfold feedAnomalyTrackers
  refine ⟨fun hover => ?_, fun hpart => ?_⟩
  · rw [if_pos hover]
    split
    · refine ⟨?_, rfl⟩
      rw [handedTo_append, ← lookup_addToFullCounters]
      exact congrArg (handedTo k p.anomalyCalls ++ ·) (List.append_nil _)
    · rename_i hempty
      have hnil : p.mCurrentFullCounters.entries = [] := List.length_eq_zero_iff.1 (by omega)
      have hnone : p.mCurrentFullCounters.lookup k = none := by
        unfold AList.lookup
        rw [hnil]
        rfl
      rw [handedTo_append, hnone]
      refine ⟨congrArg (handedTo k p.anomalyCalls ++ ·) (List.append_nil _), rfl⟩
  · rw [if_neg (not_lt.2 hpart)]
    exact ⟨rfl, lookup_addToFullCounters _ _ k⟩

theorem flushCurrentBucketLocked_feed (p : CountMetricProducer) (e next : Int) (k : MetricDimensionKey) :
    FeedsAt p (p.flushCurrentBucketLocked e next) e k := by
  let past := p.mCurrentSlicedCounter.entries.foldl
    (fun past counter => UMap.push past counter.1 ⟨p.mCurrentBucketStartTimeNs, p.closesAt e, counter.2⟩) p.mPastBuckets
  have h := feedAnomalyTrackers_feed { p with mPastBuckets := past } e k
  exact ⟨h.whole, h.part⟩

/-! ## The invariant -/

/-- The feed so far; `erased` are the past buckets that were erased. -/
structure Feeding (p : CountMetricProducer) (erased : MetricDimensionKey → List CountBucket) (now : Int) : Prop where
  inCell : Grid.InCell p.mTimeBaseNs p.mBucketSizeNs p.mCurrentBucketNum p.mCurrentBucketStartTimeNs
  began : p.mCurrentBucketStartTimeNs ≤ now
  fed : ∀ k, Fed (partsOf p.toCountMetric (erased k ++ UMap.getD p.mPastBuckets k [])) (handedTo k p.anomalyCalls)
    (p.mCurrentFullCounters.lookup k) p.mCurrentBucketNum
  placed : ∀ k, ∀ b ∈ erased k ++ UMap.getD p.mPastBuckets k [],
    b.mBucketEndNs ≤ p.mTimeBaseNs + (Grid.cellOf p.mTimeBaseNs p.mBucketSizeNs b.mBucketStartNs + 1) * p.mBucketSizeNs

/-- At exactly the end of a full bucket there are no counts in it. -/
def NoCountAtEnd (p : CountMetricProducer) (t : Int) : Prop :=
  t = p.getCurrentBucketEndTimeNs → p.mCurrentSlicedCounter.entries = [] ∧ p.mCurrentFullCounters.entries = []

section

variable {p : CountMetricProducer} {erased : MetricDimensionKey → List CountBucket} {now : Int}

theorem Feeding.tick (h : Feeding p erased now) {now' : Int} (hle : now ≤ now') : Feeding p erased now' :=
  { h with began := h.began.trans hle }

theorem Feeding.congr (h : Feeding p erased now) {q : CountMetricProducer} (hm : q.toCountMetric = p.toCountMetric)
    (hnum : q.mCurrentBucketNum = p.mCurrentBucketNum) (hstart : q.mCurrentBucketStartTimeNs = p.mCurrentBucketStartTimeNs)
    (hfull : q.mCurrentFullCounters = p.mCurrentFullCounters) (hpast : q.mPastBuckets = p.mPastBuckets)
    (hcalls : ∀ k, handedTo k q.anomalyCalls = handedTo k p.anomalyCalls) : Feeding q erased now := by
  refine ⟨?_, ?_, fun k => ?_, fun k b hb => ?_⟩
  · rw [hm, hnum, hstart]; exact h.inCell
  · rw [hstart]; exact h.began
  · rw [hm, hnum, hfull, hpast, hcalls]; exact h.fed k
  · rw [hm]
    rw [hpast] at hb
    exact h.placed k b hb

theorem partsOf_flush (hsize : 0 < p.mBucketSizeNs) (h : Feeding p erased now) (next : Int) (k : MetricDimensionKey) :
    partsOf p.toCountMetric (erased k ++ UMap.getD (p.flushCurrentBucketLocked now next).mPastBuckets k []) =
      partsOf p.toCountMetric (erased k ++ UMap.getD p.mPastBuckets k []) ++
        (p.mCurrentSlicedCounter.lookup k).toList.map fun v => (p.mCurrentBucketNum, v) := by
  have hcell := (Grid.inCell_iff hsize).1 h.inCell
  rw [flushCurrentBucketLocked_past, ← List.append_assoc]
  cases p.mCurrentSlicedCounter.lookup k with
  | none =>
    rw [List.append_nil]
    exact (List.append_nil _).symm
  | some n =>
    unfold partsOf
    rw [List.map_append, List.map_singleton, hcell]
    rfl

theorem placed_flush (hsize : 0 < p.mBucketSizeNs) (h : Feeding p erased now) (next : Int) (k : MetricDimensionKey) :
    ∀ b ∈ erased k ++ UMap.getD (p.flushCurrentBucketLocked now next).mPastBuckets k [],
      b.mBucketEndNs ≤ p.mTimeBaseNs + (Grid.cellOf p.mTimeBaseNs p.mBucketSizeNs b.mBucketStartNs + 1) * p.mBucketSizeNs := by
  intro b hb
  rw [flushCurrentBucketLocked_past, ← List.append_assoc] at hb
  rcases List.mem_append.1 hb with hb | hb
  · exact h.placed k b hb
  · cases hs : p.mCurrentSlicedCounter.lookup k with
    | none =>
      rw [hs] at hb
      cases hb
    | some n =>
      rw [hs, List.mem_singleton] at hb
      subst hb
      show p.closesAt now ≤ _
      rw [(Grid.inCell_iff hsize).1 h.inCell]
      unfold closesAt
      split
      · rename_i hlt
        exact le_of_lt hlt
      · exact le_refl _

theorem Feeding.split (hsize : 0 < p.mBucketSizeNs) (h : Feeding p erased now) (hlt : now < p.getCurrentBucketEndTimeNs) :
    Feeding (p.flushCurrentBucketLocked now now) erased now := by
  have hmetric := p.flushCurrentBucketLocked_metric now now
  have hnum := p.flushCurrentBucketLocked_num now now
  refine ⟨?_, le_refl now, fun k => ?_, fun k => ?_⟩
  · rw [hmetric, hnum]
    exact ⟨h.inCell.lower.trans h.began, hlt⟩
  · obtain ⟨hcalls, hfull⟩ := (p.flushCurrentBucketLocked_feed now now k).part (le_of_lt hlt)
    rw [hmetric, hnum, hcalls, hfull, partsOf_flush hsize h]
    exact (h.fed k).part ⟨by cases p.mCurrentSlicedCounter.lookup k <;> simp, fun hne hnone => hne (by rw [hnone]; rfl)⟩
  · rw [hmetric]
    exact placed_flush hsize h now k

theorem Feeding.flushIfNeeded (hsize : 0 < p.mBucketSizeNs) (h : Feeding p erased now) (hend : p.NoCountAtEnd now) :
    Feeding (p.flushIfNeededLocked now) erased now ∧ now < (p.flushIfNeededLocked now).getCurrentBucketEndTimeNs := by
  have hspec := flushIfNeededLocked_spec hsize now
  refine ⟨?_, hspec.lt_end⟩
  generalize p.flushIfNeededLocked now = q at hspec
  cases hspec with
  | early _ => exact h
  | @overdue next num hover hle hnum _ hcell =>
    have hmetric := p.flushCurrentBucketLocked_metric now next
    refine ⟨?_, hle, fun k => ?_, fun k => ?_⟩
    · dsimp only
      rw [hmetric]
      exact hcell
    · dsimp only
      rw [hmetric, partsOf_flush hsize h]
      by_cases heq : now = p.getCurrentBucketEndTimeNs
      · -- the bucket is taken for a part, and has no counts
        obtain ⟨hsliced, hfull⟩ := hend heq
        have hs : p.mCurrentSlicedCounter.lookup k = none := by unfold AList.lookup; rw [hsliced]; rfl
        have hf : p.mCurrentFullCounters.lookup k = none := by unfold AList.lookup; rw [hfull]; rfl
        obtain ⟨hcalls, hfull⟩ := (p.flushCurrentBucketLocked_feed now next k).part (le_of_eq heq)
        have hk := h.fed k
        rw [hf] at hk
        rw [hcalls, hfull, hs, hf, Option.toList_none, List.map_nil, List.append_nil]
        exact hk.idle (by omega)
      · have hpart : Part (p.mCurrentSlicedCounter.lookup k).toList (p.mCurrentSlicedCounter.lookup k) :=
          ⟨by cases p.mCurrentSlicedCounter.lookup k <;> simp, fun hne hnone => hne (by rw [hnone]; rfl)⟩
        obtain ⟨hcalls, hfull⟩ := (p.flushCurrentBucketLocked_feed now next k).whole (by omega)
        rw [hcalls, hfull]
        exact (h.fed k).whole hpart (by omega)
    · dsimp only
      rw [hmetric]
      exact placed_flush hsize h next k

theorem Feeding.flushLocked (hsize : 0 < p.mBucketSizeNs) (h : Feeding p erased now) (hend : p.NoCountAtEnd now) :
    Feeding (p.flushLocked now) erased now := by
  obtain ⟨h1, h2⟩ := h.flushIfNeeded hsize hend
  have hm := flushIfNeededLocked_metric p now
  exact h1.split (by rw [hm]; exact hsize) h2

theorem Feeding.set (h : Feeding p erased now) (activation : MetricProducer) (mCondition : ConditionState) :
    Feeding { p with activation := activation, mCondition := mCondition } erased now := h.congr rfl rfl rfl rfl rfl fun _ => rfl

theorem Feeding.count (h : Feeding p erased now) (t : Int) (k : MetricDimensionKey) (value : Int) : Feeding (p.count t k value) erased now := by
  refine h.congr rfl rfl rfl rfl rfl fun k' => ?_
  show handedTo k' (p.anomalyCalls ++ [_]) = _
  rw [handedTo_append]
  exact List.append_nil _

theorem Feeding.erase (h : Feeding p erased now) :
    Feeding { p with mPastBuckets := ∅ } (fun k => erased k ++ UMap.getD p.mPastBuckets k []) now := by
  refine ⟨h.inCell, h.began, fun k => ?_, fun k => ?_⟩
  · rw [UMap.getD_empty, List.append_nil]
    exact h.fed k
  · rw [UMap.getD_empty, List.append_nil]
    exact h.placed k

theorem Feeding.call (hsize : 0 < p.mBucketSizeNs) (h : Feeding p erased now) (c : Call)
    (hend : p.flushes now c = true → p.NoCountAtEnd now) :
    Feeding (p.call now c) (fun k => erased k ++ UMap.getD (p.erasedBy now c) k []) now := by
  obtain ⟨l, hdoes, -⟩ := p.call_does now c
  generalize p.flushes now c = flushes, p.Splits now c = splits, p.erasedBy now c = gone, p.call now c = q at hdoes hend ⊢
  cases hdoes with
  | nothing activation mCondition => simpa using h.set activation mCondition
  | flushes => simpa using (h.flushIfNeeded hsize (hend rfl)).1
  | counts k => simpa using (h.flushIfNeeded hsize (hend rfl)).1.count now k _
  | splits activation =>
    simpa using Feeding.flushLocked (p := { p with activation := activation }) hsize (h.set activation p.mCondition) (hend rfl)
  | erases _ q hq =>
    have hq' : Feeding q erased now := by
      rw [hq]
      cases splits with
      | true => exact h.flushLocked hsize (hend rfl)
      | false => exact (h.flushIfNeeded hsize (hend rfl)).1
    exact hq'.erase

theorem Feeding.reported (hsize : 0 < p.mBucketSizeNs) (h : Feeding p erased now) (k : MetricDimensionKey) (n : Int) :
    valuesAt n (partsOf p.toCountMetric (erased k ++ UMap.getD p.mPastBuckets k [])) =
      ((erased k ++ UMap.getD p.mPastBuckets k []).filter fun b => decide (Within p.toCountMetric n b)).map (·.mCount) := by
  unfold valuesAt partsOf
  rw [List.filter_map, List.map_map]
  refine congrArg (List.map _) (List.filter_congr fun b hb => ?_)
  have hiff : Within p.toCountMetric n b ↔ Grid.cellOf p.mTimeBaseNs p.mBucketSizeNs b.mBucketStartNs = n := by
    refine ⟨fun hw => (Grid.inCell_iff hsize).1 ⟨hw.1, hw.2.1⟩, fun hcell => ?_⟩
    obtain ⟨h1, h2⟩ := (Grid.inCell_iff hsize).2 hcell
    have hplaced := h.placed k b hb
    rw [hcell] at hplaced
    exact ⟨h1, h2, hplaced⟩
  simp only [Function.comp_apply, hiff]

end

namespace History

end History

end Statsd.Metrics.CountMetricProducer
