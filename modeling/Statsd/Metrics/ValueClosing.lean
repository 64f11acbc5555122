/-
What a flush does to the values of a metric. A valid bucket is emitted for each key with the values that
are pending for it; an invalid one is recorded as skipped, with a reason other than missing data. In both
cases nothing is pending afterwards, and the bases stay.
-/
import Statsd.Metrics.ValueAccumulation
import Statsd.Metrics.ValueTiling

namespace Statsd.Metrics

/-- The value of a field in a bucket. -/
def ValueBucket.valueAt {V : Type} (b : ValueBucket V) (i : Nat) : Option V := (b.valueIndex.zip b.values).lookup i

namespace ValueMetricProducer

variable {V : Type} [MetricValue V]

/-! ## The buckets of the keys -/

theorem lookup_filterMap_output (p : ValueMetricProducer V) (l : List (Interval V)) (n : Nat)
    (h : ∀ (j : Nat) (int : Interval V), l[j]? = some int → int.value ≠ none → int.valueIndex = n + j) (i : Nat) :
    (l.filterMap p.intervalOutput).lookup (n + i) = (l[i]?.bind p.intervalOutput).map (·.2) ∧
      ∀ m < n, (l.filterMap p.intervalOutput).lookup m = none := by
  induction l generalizing n i with
  | nil => exact ⟨rfl, fun _ _ => rfl⟩
  | cons int l ih =>
    have hrest : ∀ (j : Nat) (int' : Interval V), l[j]? = some int' → int'.value ≠ none → int'.valueIndex = n + 1 + j := by
      intro j int' hget hval
      rw [h (j + 1) int' hget hval]
      omega
    cases hout : p.intervalOutput int with
    | none =>
      rw [List.filterMap_cons_none hout]
      refine ⟨?_, fun m hm => (ih (n + 1) hrest 0).2 m (by omega)⟩
      cases i with
      | zero =>
        rw [List.getElem?_cons_zero, Option.bind_some, hout]
        exact (ih (n + 1) hrest 0).2 n (by omega)
      | succ i =>
        rw [List.getElem?_cons_succ, show n + (i + 1) = n + 1 + i by omega]
        exact (ih (n + 1) hrest i).1
    | some o =>
      have hval : int.value ≠ none := by
        intro hnone
        unfold intervalOutput at hout
        rw [hnone] at hout
        cases hout
      have hindex : o.1 = n := by
        have hx := h 0 int rfl hval
        unfold intervalOutput at hout
        split at hout
        · cases hout
        · split at hout
          · cases hout
          · cases hout
            exact hx
      rw [List.filterMap_cons_some hout]
      obtain ⟨o1, o2⟩ := o
      dsimp only at hindex
      subst hindex
      refine ⟨?_, fun m hm => ?_⟩
      · cases i with
        | zero =>
          rw [List.getElem?_cons_zero, Option.bind_some, hout, add_zero, List.lookup_cons_self]
          rfl
        | succ i =>
          rw [List.getElem?_cons_succ, List.lookup_cons, show (o1 + (i + 1) == o1) = false from by simp,
            show o1 + (i + 1) = o1 + 1 + i by omega]
          exact (ih (o1 + 1) hrest i).1
      · rw [List.lookup_cons, show (m == o1) = false from by simp; omega]
        exact (ih (o1 + 1) hrest 0).2 m (by omega)

theorem valueAt_buildPartialBucket (p : ValueMetricProducer V) (stop duration : Int) (ints : List (Interval V))
    (h : ∀ (j : Nat) (int : Interval V), ints[j]? = some int → int.value ≠ none → int.valueIndex = j) (i : Nat) :
    (p.buildPartialBucket stop ints duration).valueAt i = (ints[i]?.bind p.intervalOutput).map (·.2) := by
  have hzip : ∀ l : List (Nat × V), (l.map (·.1)).zip (l.map (·.2)) = l := by
    intro l
    induction l with
    | nil => rfl
    | cons a l ih => simp [ih]
  unfold ValueBucket.valueAt buildPartialBucket
  dsimp only
  rw [hzip]
  have hlook := (p.lookup_filterMap_output ints 0 (fun j int h1 h2 => by rw [zero_add]; exact h j int h1 h2) i).1
  rw [zero_add] at hlook
  exact hlook

/-- A pending value as a bucket shows it: zero diffs may be left out. -/
def shown (p : ValueMetricProducer V) (pending : Option V) : Option V :=
  pending.filter fun value => !(p.mSkipZeroDiffOutput && p.mUseDiff && MetricValue.isZero value)

theorem keptOf_shown {p : ValueMetricProducer V} (h : Indexed p) (havg : p.mAggregationType ≠ .AVG) (stop duration : Int)
    (k : MetricDimensionKey) :
    p.keptOf stop duration k = [] ∧ (∀ i, p.shown (p.pendingAt k i) = none) ∨
      ∃ b, p.keptOf stop duration k = [b] ∧ b.interval = (p.mCurrentBucketStartTimeNs, stop) ∧
        ∀ i, b.valueAt i = p.shown (p.pendingAt k i) := by
  have hout : ∀ int : Interval V, (p.intervalOutput int).map (·.2) = p.shown int.value := by
    intro int
    unfold intervalOutput shown
    cases int.value with
    | none => rfl
    | some v =>
      dsimp only
      rw [if_pos havg, Option.filter_some]
      cases p.mSkipZeroDiffOutput && p.mUseDiff && MetricValue.isZero v with
      | true => rfl
      | false => rfl
  unfold keptOf
  cases hl : p.mCurrentSlicedBucket.lookup k with
  | none =>
    refine .inl ⟨rfl, fun i => ?_⟩
    unfold pendingAt
    rw [UMap.getD_of_lookup_none hl]
    rfl
  | some ints =>
    have hget : UMap.getD p.mCurrentSlicedBucket k [] = ints := UMap.getD_of_lookup_some hl []
    have hvalue : ∀ i, (p.buildPartialBucket stop ints duration).valueAt i = p.shown (p.pendingAt k i) := by
      intro i
      rw [p.valueAt_buildPartialBucket stop duration ints (fun j int h1 h2 => h k j int (by rw [hget]; exact h1) h2)]
      unfold pendingAt
      rw [hget]
      cases ints[i]? with
      | none => rfl
      | some int => exact hout int
    rw [Option.elim_some]
    unfold keptBucket
    split
    · exact .inr ⟨_, rfl, rfl, hvalue⟩
    · rename_i hlen
      refine .inl ⟨rfl, fun i => ?_⟩
      rw [← hvalue]
      have hnil : (p.buildPartialBucket stop ints duration).valueIndex = [] := List.length_eq_zero_iff.1 (by omega)
      unfold ValueBucket.valueAt
      rw [hnil, List.zip_nil_left]
      rfl

/-! ## Closing a bucket -/

/-- What a flush does to the values. -/
structure Closing (p p' : ValueMetricProducer V) (e next : Int) : Prop extends Flushed p p' where
  past : ∃ duration, ∀ k, UMap.getD p'.mPastBuckets k [] = UMap.getD p.mPastBuckets k [] ++
    if p.invalidAt e next then [] else p.keptOf (p.closesAt e next) duration k
  skipped : ∃ l, p'.mSkippedBuckets = p.mSkippedBuckets ++ l ∧
    (p.invalidAt e next = true → ∃ s ∈ l, SkippedInvalid s ∧ s.bucketStartTimeNs = p.mCurrentBucketStartTimeNs)

variable {p p' : ValueMetricProducer V}

omit [MetricValue V] in
theorem Flushed.slice (h : Flushed p p') {k : MetricDimensionKey}
    {l' : List (Interval V)} (hl : p'.mCurrentSlicedBucket.lookup k = some l') :
    ∃ l, p.mCurrentSlicedBucket.lookup k = some l ∧
      l' = l.map fun interval => { interval with value := none, sampleSize := 0, seenNewData := false } := by
  rw [h.sliced, UMap.lookup_mapVal] at hl
  obtain ⟨l, hkept, rfl⟩ := Option.map_eq_some_iff.1 hl
  exact ⟨l, UMap.lookup_of_filterVal hkept, rfl⟩

omit [MetricValue V] in
theorem Flushed.interval (h : Flushed p p') {k : MetricDimensionKey} {i : Nat} {int : Interval V}
    (hget : (UMap.getD p'.mCurrentSlicedBucket k [])[i]? = some int) : int.value = none := by
  cases hl : p'.mCurrentSlicedBucket.lookup k with
  | none =>
    rw [UMap.getD_of_lookup_none hl] at hget
    cases hget
  | some l' =>
    obtain ⟨l, -, rfl⟩ := h.slice hl
    rw [UMap.getD_of_lookup_some hl, List.getElem?_map] at hget
    obtain ⟨int', -, rfl⟩ := Option.map_eq_some_iff.1 hget
    rfl

omit [MetricValue V] in
theorem Flushed.pendingAt (h : Flushed p p') (k : MetricDimensionKey) (i : Nat) : p'.pendingAt k i = none := by
  unfold ValueMetricProducer.pendingAt
  cases hget : (UMap.getD p'.mCurrentSlicedBucket k [])[i]? with
  | none => rfl
  | some int => exact h.interval hget

omit [MetricValue V] in
theorem Flushed.indexed (h : Flushed p p') : Indexed p' :=
  fun _ _ _ hget hval => absurd (h.interval hget) hval

omit [MetricValue V] in
theorem Flushed.sized (h : Flushed p p') (hcount : p'.fieldCount = p.fieldCount) (hp : Sized p) :
    Sized p' := by
  refine ⟨fun w => ?_, fun k => ?_⟩
  · rw [h.bases.1, hcount]
    exact hp.base w
  · rw [hcount]
    cases hl : p'.mCurrentSlicedBucket.lookup k with
    | none => rw [UMap.getD_of_lookup_none hl]; exact Nat.zero_le _
    | some l' =>
      obtain ⟨l, hl', rfl⟩ := h.slice hl
      have hlen := hp.sliced k
      rw [UMap.getD_of_lookup_some hl'] at hlen
      rw [UMap.getD_of_lookup_some hl, List.length_map]
      exact hlen

theorem flushCurrentBucketLocked_flushed (p : ValueMetricProducer V) (e next : Int) :
    Flushed p (p.flushCurrentBucketLocked e next) := by
  obtain ⟨_, _, h⟩ := p.flushCurrentBucketLocked_flush e next
  exact h.toFlushed

theorem flushCurrentBucketLocked_closing (p : ValueMetricProducer V) (e next : Int) (h : DropsLogged p) :
    Closing p (p.flushCurrentBucketLocked e next) e next := by
  obtain ⟨skipped, drops, hflush⟩ := p.flushCurrentBucketLocked_flush e next
  refine ⟨hflush.toFlushed, ⟨(p.mConditionTimer.newBucketStart (p.closesAt e next)).2, fun k => ?_⟩, _, hflush.skippedBuckets, fun hi => ?_⟩
  · rw [hflush.past k]
    cases hi : p.invalidAt e next with
    | true => rw [(hflush.invalid hi).1]
    | false =>
      -- a valid bucket is skipped for want of data only
      cases skipped with
      | false => rfl
      | true =>
        have hnone := not_exists.1 (mt (hflush.data hi).2 (Ne.symm Bool.false_ne_true)) k
        rw [not_not.1 hnone]
        rfl
  · obtain ⟨rfl, hlogged⟩ := hflush.invalid hi
    exact ⟨_, List.mem_append_left _ (List.mem_singleton_self _), hlogged h, rfl⟩

theorem flushCurrentBucketLocked_skipped (p : ValueMetricProducer V) (e next : Int) :
    ∃ l, (p.flushCurrentBucketLocked e next).mSkippedBuckets = p.mSkippedBuckets ++ l := by
  obtain ⟨_, _, h⟩ := p.flushCurrentBucketLocked_flush e next
  exact ⟨_, h.skippedBuckets⟩

theorem KeepsState.state {t : Int} {p q : ValueMetricProducer V} (h : KeepsState t p q) : q.mCondition = p.mCondition ∧ q.mIsActive = p.mIsActive := by
  induction h with
  | off h => exact ⟨h.condition, h.active⟩
  | flush p =>
    unfold flushIfNeededLocked
    split
    · exact ⟨rfl, rfl⟩
    · exact ⟨(p.flushCurrentBucketLocked_flushed t _).state.1, (p.flushCurrentBucketLocked_flushed t _).state.2.1⟩
  | split p => exact ⟨(p.flushCurrentBucketLocked_flushed t t).state.1, (p.flushCurrentBucketLocked_flushed t t).state.2.1⟩
  | trans _ _ ih1 ih2 => exact ⟨ih2.1.trans ih1.1, ih2.2.trans ih1.2⟩

theorem Advances.skipped {p q : ValueMetricProducer V} {t : Int} (ha : Advances t p q) :
    ∃ l, q.mSkippedBuckets = p.mSkippedBuckets ++ l := by
  induction ha with
  | same h => exact ⟨[], by rw [h.skipped, List.append_nil]⟩
  | flush p =>
    unfold flushIfNeededLocked
    split
    · exact ⟨[], (List.append_nil _).symm⟩
    · exact p.flushCurrentBucketLocked_skipped t _
  | split p => exact p.flushCurrentBucketLocked_skipped t t
  | trans _ _ ih1 ih2 =>
    obtain ⟨l1, h1⟩ := ih1
    obtain ⟨l2, h2⟩ := ih2
    exact ⟨l1 ++ l2, by rw [h2, h1, List.append_assoc]⟩

theorem History.mem_skipped_step {x : History V} (e : Int × Call V) {s : SkippedBucket} (hs : s ∈ x.skipped) : s ∈ (x.step e).skipped := by
  obtain ⟨l, hl⟩ := (x.producer.advances_call e.1 e.2).skipped
  have hmem : s ∈ x.erasedSkipped ++ (x.producer.call e.1 e.2).mSkippedBuckets := by
    rw [hl, ← List.append_assoc]
    exact List.mem_append_left l hs
  unfold History.step
  dsimp only
  split
  · exact List.mem_append_left [] hmem
  · exact hmem

end ValueMetricProducer

end Statsd.Metrics
