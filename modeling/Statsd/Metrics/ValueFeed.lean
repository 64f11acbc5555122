/-
The anomaly feed of a value metric with integer sums. As for counts, the values of a full bucket go to the
anomaly trackers when it is over, the parts of it that were closed before being kept in a map of their own;
only the first field is fed. The feed matches the reports as long as no bucket is skipped, unless a flush
comes at exactly the end of a full bucket with values, or the kept keys run into the dimension guardrail.
-/
import Statsd.Metrics.CountFeed
import Statsd.Metrics.ValueClosing

namespace Statsd.Metrics.ValueMetricProducer

open Statsd.Handover

/-- The values handed over for a key, each with the number of its bucket. -/
def handedTo (k : MetricDimensionKey) (calls : List AnomalyCall) : List (Int × Int) :=
  calls.filterMap fun
    | .addPastBucket eventKey bucketValue bucketNum => if eventKey = k then some (bucketNum, bucketValue) else none
    | _ => none

theorem handedTo_append (k : MetricDimensionKey) (l l' : List AnomalyCall) : handedTo k (l ++ l') = handedTo k l ++ handedTo k l' :=
  List.filterMap_append

theorem handedTo_cons (k key : MetricDimensionKey) (v n : Int) (l : List AnomalyCall) :
    handedTo k (.addPastBucket key v n :: l) = (if key = k then [(n, v)] else []) ++ handedTo k l := by
  unfold handedTo
  by_cases hk : key = k
  · rw [if_pos hk]
    exact List.filterMap_cons_some (if_pos hk)
  · rw [if_neg hk]
    exact List.filterMap_cons_none (if_neg hk)

/-- The reported values of the first field, each with the number of the full bucket that its bucket starts in. -/
def partsOf (m : ValueMetric) (buckets : List (ValueBucket Int)) : List (Int × Int) :=
  buckets.filterMap fun b => (b.valueAt 0).map fun v => (Grid.cellOf m.mTimeBaseNs m.mBucketSizeNs b.mBucketStartNs, v)

/-- The interval of a bucket lies in full bucket `n`. -/
def Within (m : ValueMetric) (n : Int) (b : ValueBucket Int) : Prop :=
  m.mTimeBaseNs + n * m.mBucketSizeNs ≤ b.mBucketStartNs ∧ b.mBucketStartNs < m.mTimeBaseNs + (n + 1) * m.mBucketSizeNs ∧
    b.mBucketEndNs ≤ m.mTimeBaseNs + (n + 1) * m.mBucketSizeNs

instance (m : ValueMetric) (n : Int) (b : ValueBucket Int) : Decidable (Within m n b) := by unfold Within; infer_instance

/-! ## The feed of a flush -/

theorem firstValue_eq (slice : List (Interval Int)) : firstValue slice = slice[0]?.bind (·.value) := by
  cases slice with
  | nil => rfl
  | cons int slice =>
    show int.value.map id = int.value
    exact Option.map_id_apply

theorem pendingAt_dlookup (p : ValueMetricProducer Int) (k : MetricDimensionKey) :
    (p.mCurrentSlicedBucket.entries.dlookup k).bind firstValue = p.pendingAt k 0 := by
  unfold pendingAt UMap.getD AList.lookup
  cases p.mCurrentSlicedBucket.entries.dlookup k with
  | none => rfl
  | some slice => exact firstValue_eq slice

theorem lookup_addToFullBucket (p : ValueMetricProducer Int) (slice : Sigma fun _ : MetricDimensionKey => List (Interval Int))
    (k : MetricDimensionKey) :
    (p.addToFullBucket slice).mCurrentFullBucket.lookup k =
      join (p.mCurrentFullBucket.lookup k) (if k = slice.1 then firstValue slice.2 else none) := by
  unfold addToFullBucket
  cases firstValue slice.2 with
  | none =>
    rw [ite_self]
    cases p.mCurrentFullBucket.lookup k <;> rfl
  | some v =>
    show (p.mCurrentFullBucket.insert slice.1 _).lookup k = _
    rw [UMap.lookup_insert']
    by_cases hk : k = slice.1
    · rw [if_pos hk, if_pos hk, hk]
      unfold UMap.getD
      cases p.mCurrentFullBucket.lookup slice.1 with
      | none =>
        show some (0 + v) = some v
        rw [zero_add]
      | some w => rfl
    · rw [if_neg hk, if_neg hk]
      cases p.mCurrentFullBucket.lookup k <;> rfl

theorem foldl_addToFullBucket (l : List (Sigma fun _ : MetricDimensionKey => List (Interval Int))) (hl : l.NodupKeys)
    (p : ValueMetricProducer Int) (k : MetricDimensionKey) :
    (l.foldl addToFullBucket p).mCurrentFullBucket.lookup k = join (p.mCurrentFullBucket.lookup k) ((l.dlookup k).bind firstValue) := by
  induction l generalizing p with
  | nil => cases h : p.mCurrentFullBucket.lookup k <;> simp [h, join]
  | cons slice l ih =>
    rw [List.nodupKeys_cons] at hl
    rw [List.foldl_cons, ih hl.2, lookup_addToFullBucket]
    by_cases hk : k = slice.1
    · subst hk
      have hnone : l.dlookup slice.1 = none := List.dlookup_eq_none.2 hl.1
      rw [if_pos rfl, hnone, List.dlookup_cons_eq, Option.bind_none, Option.bind_some]
      cases join (p.mCurrentFullBucket.lookup slice.1) (firstValue slice.2) <;> rfl
    · rw [if_neg hk, List.dlookup_cons_ne _ _ hk]
      cases p.mCurrentFullBucket.lookup k <;> rfl

theorem foldl_unguarded (l : List (Sigma fun _ : MetricDimensionKey => List (Interval Int))) (p : ValueMetricProducer Int)
    (K : Finset MetricDimensionKey) (hfull : ∀ k, p.mCurrentFullBucket.lookup k ≠ none → k ∈ K)
    (hl : ∀ slice ∈ l, firstValue slice.2 ≠ none → slice.1 ∈ K) (hlimit : K.card ≤ p.mDimensionHardLimit) :
    l.foldl (fun p slice => if p.hitFullBucketGuardRailLocked slice.1 then p else p.addToFullBucket slice) p = l.foldl addToFullBucket p := by
  induction l generalizing p with
  | nil => rfl
  | cons slice l ih =>
    have hstep : (if p.hitFullBucketGuardRailLocked slice.1 then p else p.addToFullBucket slice) = p.addToFullBucket slice := by
      by_cases hv : firstValue slice.2 = none
      · have hsame : p.addToFullBucket slice = p := by
          unfold addToFullBucket
          rw [hv]
        rw [hsame, ite_self]
      · have hroom : p.hitFullBucketGuardRailLocked slice.1 = false := by
          unfold hitFullBucketGuardRailLocked
          split
          · rfl
          · rename_i hnew
            have hnotmem : slice.1 ∉ p.mCurrentFullBucket.keys := by
              intro hmem
              exact hnew (AList.lookup_isSome.2 (AList.mem_keys.2 hmem))
            have hsub : (slice.1 :: p.mCurrentFullBucket.keys).length ≤ K.card := by
              rw [← List.toFinset_card_of_nodup (List.nodup_cons.2 ⟨hnotmem, p.mCurrentFullBucket.keys_nodup⟩)]
              refine Finset.card_le_card fun k hk => ?_
              rcases List.mem_cons.1 (List.mem_toFinset.1 hk) with rfl | hk
              · exact hl slice List.mem_cons_self hv
              · refine hfull k fun hnone => ?_
                exact (AList.lookup_eq_none.1 hnone) (AList.mem_keys.2 hk)
            have hlen : p.mCurrentFullBucket.keys.length = p.mCurrentFullBucket.entries.length := List.length_map _
            rw [List.length_cons, hlen] at hsub
            split
            · exact decide_eq_false (by omega)
            · rfl
        rw [hroom, if_neg Bool.false_ne_true]
    have hlimit' : (p.addToFullBucket slice).mDimensionHardLimit = p.mDimensionHardLimit := by
      unfold addToFullBucket
      cases firstValue slice.2 <;> rfl
    rw [List.foldl_cons, List.foldl_cons, hstep]
    refine ih (p.addToFullBucket slice) (fun k hk => ?_) (fun s hs => hl s (List.mem_cons_of_mem _ hs)) (by rw [hlimit']; exact hlimit)
    rw [lookup_addToFullBucket] at hk
    by_cases hold : p.mCurrentFullBucket.lookup k = none
    · by_cases hk' : k = slice.1
      · rw [hold, if_pos hk'] at hk
        rw [hk']
        exact hl slice List.mem_cons_self hk
      · rw [hold, if_neg hk'] at hk
        exact absurd rfl hk
    · exact hfull k hold

theorem handedTo_slices {α : Type} (f : α → Option Int) (n : Int) (k : MetricDimensionKey)
    (l : List (Sigma fun _ : MetricDimensionKey => α)) (hl : l.NodupKeys) :
    handedTo k (l.filterMap fun slice => (f slice.2).map fun v => .addPastBucket slice.1 v n) =
      ((l.dlookup k).bind f).toList.map fun v => (n, v) := by
  induction l with
  | nil => rfl
  | cons slice l ih =>
    rw [List.nodupKeys_cons] at hl
    have ih := ih hl.2
    by_cases hk : k = slice.1
    · subst hk
      have hnone : l.dlookup slice.1 = none := List.dlookup_eq_none.2 hl.1
      rw [hnone] at ih
      rw [List.dlookup_cons_eq, Option.bind_some]
      cases hf : f slice.2 with
      | none =>
        rw [List.filterMap_cons_none (by rw [hf]; rfl)]
        exact ih
      | some v =>
        rw [List.filterMap_cons_some (b := .addPastBucket slice.1 v n) (by rw [hf]; rfl)]
        rw [handedTo_cons, if_pos rfl, ih]
        rfl
    · rw [List.dlookup_cons_ne _ _ hk]
      cases hf : f slice.2 with
      | none =>
        rw [List.filterMap_cons_none (by rw [hf]; rfl)]
        exact ih
      | some v =>
        rw [List.filterMap_cons_some (b := .addPastBucket slice.1 v n) (by rw [hf]; rfl)]
        rw [handedTo_cons, if_neg (Ne.symm hk), ih, List.nil_append]

/-- The feed of a flush that does not skip its bucket: the values of a full bucket that is over are handed
over, and those of a part are kept. -/
structure FeedsAt (p q : ValueMetricProducer Int) (isFullBucketReached : Bool) (k : MetricDimensionKey) : Prop where
  whole : isFullBucketReached = true →
    handedTo k q.anomalyCalls = handedTo k p.anomalyCalls ++
      (join (p.mCurrentFullBucket.lookup k) (p.pendingAt k 0)).toList.map (fun v => (p.mCurrentBucketNum, v)) ∧
    q.mCurrentFullBucket.lookup k = none
  part : isFullBucketReached = false →
    handedTo k q.anomalyCalls = handedTo k p.anomalyCalls ∧
    q.mCurrentFullBucket.lookup k = join (p.mCurrentFullBucket.lookup k) (p.pendingAt k 0)

theorem FeedsAt.congr {p p' q q' : ValueMetricProducer Int} {isFullBucketReached : Bool} {k : MetricDimensionKey}
    (h : FeedsAt p q isFullBucketReached k) (hfull : p.mCurrentFullBucket = p'.mCurrentFullBucket) (hcalls : p.anomalyCalls = p'.anomalyCalls)
    (hnum : p.mCurrentBucketNum = p'.mCurrentBucketNum) (hpend : ∀ k, p.pendingAt k 0 = p'.pendingAt k 0)
    (hfull' : q'.mCurrentFullBucket = q.mCurrentFullBucket) (hcalls' : q'.anomalyCalls = q.anomalyCalls) :
    FeedsAt p' q' isFullBucketReached k := by
  refine ⟨fun hr => ?_, fun hr => ?_⟩
  · rw [hfull', hcalls', ← hfull, ← hcalls, ← hnum, ← hpend]
    exact h.whole hr
  · rw [hfull', hcalls', ← hfull, ← hcalls, ← hpend]
    exact h.part hr

theorem foldl_addToFullBucket_only (l : List (Sigma fun _ : MetricDimensionKey => List (Interval Int))) (p : ValueMetricProducer Int) :
    { l.foldl addToFullBucket p with mCurrentFullBucket := p.mCurrentFullBucket } = p := by
  induction l generalizing p with
  | nil => rfl
  | cons slice l ih =>
    have hadd : { p.addToFullBucket slice with mCurrentFullBucket := p.mCurrentFullBucket } = p := by
      unfold addToFullBucket
      split <;> rfl
    have h := ih (p.addToFullBucket slice)
    rw [List.foldl_cons]
    have hset := congrArg (fun q : ValueMetricProducer Int => { q with mCurrentFullBucket := p.mCurrentFullBucket }) h
    exact hset.trans hadd

/-- The keys with values in the full bucket do not run into its guardrail. -/
def FullBucketFits (p : ValueMetricProducer Int) : Prop :=
  ∃ K : Finset MetricDimensionKey, (∀ k, p.pendingAt k 0 ≠ none ∨ p.mCurrentFullBucket.lookup k ≠ none → k ∈ K) ∧
    K.card ≤ p.mDimensionHardLimit

theorem appendToFullBucket_feed {p : ValueMetricProducer Int} (hkept : p.mCurrentBucketIsSkipped = false) {isFullBucketReached : Bool}
    (hfits : isFullBucketReached = true → p.FullBucketFits) (k : MetricDimensionKey) :
    FeedsAt p (p.appendToFullBucket isFullBucketReached) isFullBucketReached k := by
  have hnodup := p.mCurrentSlicedBucket.nodupKeys
  unfold appendToFullBucket
  rw [hkept, if_neg Bool.false_ne_true]
  cases isFullBucketReached with
  | false =>
    refine ⟨fun h => absurd h Bool.false_ne_true, fun _ => ⟨?_, ?_⟩⟩
    · have hcalls : (p.mCurrentSlicedBucket.entries.foldl addToFullBucket p).anomalyCalls = p.anomalyCalls :=
        congrArg (·.anomalyCalls) (foldl_addToFullBucket_only p.mCurrentSlicedBucket.entries p)
      rw [if_neg Bool.false_ne_true, hcalls]
    · rw [if_neg Bool.false_ne_true, foldl_addToFullBucket _ hnodup, pendingAt_dlookup]
  | true =>
    refine ⟨fun _ => ?_, fun h => absurd h.symm Bool.false_ne_true⟩
    obtain ⟨K, hkeys, hlimit⟩ := hfits rfl
    rw [if_pos rfl]
    by_cases hfull : p.mCurrentFullBucket.entries.length > 0
    · rw [if_pos hfull]
      have hslices : ∀ slice ∈ p.mCurrentSlicedBucket.entries, firstValue slice.2 ≠ none → slice.1 ∈ K := by
        intro slice hslice hv
        refine hkeys slice.1 (.inl ?_)
        rw [← pendingAt_dlookup, List.mem_dlookup hnodup hslice]
        exact hv
      have hfold := foldl_unguarded p.mCurrentSlicedBucket.entries p K (fun k hk => hkeys k (.inr hk)) hslices hlimit
      dsimp only
      rw [hfold]
      have honly := foldl_addToFullBucket_only p.mCurrentSlicedBucket.entries p
      have hlook := foldl_addToFullBucket p.mCurrentSlicedBucket.entries hnodup p k
      rw [pendingAt_dlookup] at hlook
      have hcalls : (p.mCurrentSlicedBucket.entries.foldl addToFullBucket p).anomalyCalls = p.anomalyCalls :=
        congrArg (·.anomalyCalls) honly
      have hnum : (p.mCurrentSlicedBucket.entries.foldl addToFullBucket p).mCurrentBucketNum = p.mCurrentBucketNum :=
        congrArg (·.mCurrentBucketNum) honly
      generalize p.mCurrentSlicedBucket.entries.foldl addToFullBucket p = q at *
      refine ⟨?_, rfl⟩
      rw [handedTo_append, hcalls, hnum, ← hlook]
      refine congrArg (handedTo k p.anomalyCalls ++ ·) ?_
      have hslice := handedTo_slices some p.mCurrentBucketNum k q.mCurrentFullBucket.entries q.mCurrentFullBucket.nodupKeys
      simp only [Option.map_some, List.filterMap_eq_map'] at hslice
      rw [hslice]
      unfold AList.lookup
      cases q.mCurrentFullBucket.entries.dlookup k <;> rfl
    · rw [if_neg hfull]
      have hnil : p.mCurrentFullBucket.entries = [] := List.length_eq_zero_iff.1 (by omega)
      have hnone : p.mCurrentFullBucket.lookup k = none := by
        unfold AList.lookup
        rw [hnil]
        rfl
      refine ⟨?_, hnone⟩
      rw [handedTo_append, hnone, ← pendingAt_dlookup]
      exact congrArg (handedTo k p.anomalyCalls ++ ·) (handedTo_slices firstValue p.mCurrentBucketNum k _ hnodup)

theorem appendToFullBucket_skipped {p : ValueMetricProducer Int} (hskipped : p.mCurrentBucketIsSkipped = true) :
    p.appendToFullBucket false = p := by
  unfold appendToFullBucket
  rw [if_pos hskipped, if_neg Bool.false_ne_true]

/-- A flush and its feed; `skipped` says that the closed bucket is skipped. -/
structure Flushes (p q : ValueMetricProducer Int) (t next : Int) (skipped : Bool) : Prop where
  skips : ∃ l, q.mSkippedBuckets = p.mSkippedBuckets ++ l ∧
    (skipped = true → ∃ s ∈ l, s.bucketStartTimeNs = p.mCurrentBucketStartTimeNs)
  past : ∃ duration, ∀ k, UMap.getD q.mPastBuckets k [] = UMap.getD p.mPastBuckets k [] ++
    if skipped then [] else p.keptOf (p.closesAt t next) duration k
  single : skipped = false → p.multipleBucketsSkipped (p.calcBucketsForwardCount t) = false
  feeds : skipped = false → (p.getCurrentBucketEndTimeNs < t → p.FullBucketFits) → ∀ k,
    FeedsAt p q (decide (t > p.getCurrentBucketEndTimeNs)) k
  idle : skipped = true → t ≤ p.getCurrentBucketEndTimeNs → ∀ k,
    handedTo k q.anomalyCalls = handedTo k p.anomalyCalls ∧ q.mCurrentFullBucket.lookup k = p.mCurrentFullBucket.lookup k

theorem flushCurrentBucketLocked_flushes (p : ValueMetricProducer Int) (t next : Int) :
    ∃ skipped, Flushes p (p.flushCurrentBucketLocked t next) t next skipped := by
  obtain ⟨skipped, drops, h⟩ := p.flushCurrentBucketLocked_flush t next
  obtain ⟨r, hr, hmetric, hnum, hsliced, hfull, hcalls, hfull', hcalls'⟩ := h.appended
  refine ⟨skipped, ⟨_, h.skippedBuckets, ?_⟩, ⟨_, h.past⟩, fun hs => ?_, fun hs hfits k => ?_, fun hs hle k => ?_⟩
  · rintro rfl
    exact ⟨_, List.mem_append_left _ (List.mem_singleton_self _), rfl⟩
  · cases hm : p.multipleBucketsSkipped (p.calcBucketsForwardCount t) with
    | false => rfl
    | true =>
      have hinvalid : p.invalidAt t next = true := by simp [invalidAt, hm]
      exact absurd (hs.symm.trans (h.invalid hinvalid).1) Bool.false_ne_true
  · have hpend : ∀ k, r.pendingAt k 0 = p.pendingAt k 0 := by
      intro k
      unfold pendingAt
      rw [hsliced]
    have hfits' : decide (t > p.getCurrentBucketEndTimeNs) = true → FullBucketFits r := by
      intro hreached
      obtain ⟨K, hkeys, hlimit⟩ := hfits (of_decide_eq_true hreached)
      refine ⟨K, fun k hk => ?_, by rw [hmetric]; exact hlimit⟩
      rw [hpend, hfull] at hk
      exact hkeys k hk
    exact FeedsAt.congr (appendToFullBucket_feed (hr.trans hs) hfits' k) hfull hcalls hnum hpend hfull' hcalls'
  · rw [decide_eq_false (not_lt.2 hle), appendToFullBucket_skipped (hr.trans hs)] at hfull' hcalls'
    rw [hfull', hcalls', hfull, hcalls]
    exact ⟨rfl, rfl⟩

end Statsd.Metrics.ValueMetricProducer
