/-
A flush of a value metric. The current bucket is marked, closed and given to the full bucket, and the next
one is opened. The closed bucket is invalid, or it is skipped for want of data, or it is kept for each key
with values; what else a flush changes are the marks, the stopwatch and what is left of the slices.
-/
import Statsd.Metrics.ValueMetricProducer

namespace Statsd.Metrics.ValueMetricProducer

variable {V : Type}

/-! ## The marks -/

/-- The drop events of an open bucket have a reason other than missing data, and there is one when the
bucket is invalid. -/
structure DropsLogged (p : ValueMetricProducer V) : Prop where
  logged : p.mCurrentBucketIsSkipped = true → p.dropEvents ≠ []
  reason : ∀ d ∈ p.dropEvents, d.reason ≠ .NO_DATA

theorem DropsLogged.skip {p : ValueMetricProducer V} (h : DropsLogged p) (t : Int) {r : BucketDropReason} (hr : r ≠ .NO_DATA) :
    DropsLogged (p.skipCurrentBucket t r) := by
  refine ⟨fun _ => ?_, fun d hd => ?_⟩
  · unfold skipCurrentBucket
    dsimp only
    split
    · rename_i hlen
      intro hnil
      rw [hnil] at hlen
      simp [kMaxLoggedBucketDropEvents] at hlen
    · simp
  · unfold skipCurrentBucket at hd
    dsimp only at hd
    split at hd
    · exact h.reason d hd
    · rcases List.mem_append.1 hd with hd | hd
      · exact h.reason d hd
      · rw [List.mem_singleton.1 hd]
        exact hr

/-- When the closed bucket ends. -/
def closesAt (p : ValueMetricProducer V) (e next : Int) : Int :=
  if p.multipleBucketsSkipped (p.calcBucketsForwardCount e) then next
  else if e < p.getCurrentBucketEndTimeNs then e
  else p.getCurrentBucketEndTimeNs

/-- The bucket that a flush closes is invalid: it was invalidated before, its condition is not known,
buckets are skipped, or it is too small. -/
def invalidAt (p : ValueMetricProducer V) (e next : Int) : Bool :=
  p.mCurrentBucketIsSkipped || decide (p.mCondition = .kUnknown) || p.multipleBucketsSkipped (p.calcBucketsForwardCount e) ||
    decide (p.closesAt e next - p.mCurrentBucketStartTimeNs < p.mMinBucketSizeNs)

/-- A skipped bucket that was skipped as invalid, not for want of data. -/
def SkippedInvalid (s : SkippedBucket) : Prop := ∃ d ∈ s.dropEvents, d.reason ≠ .NO_DATA

/-- Nothing but the marks of the current bucket differs. -/
def MarksOnly (p p' : ValueMetricProducer V) : Prop :=
  { p' with mCurrentBucketIsSkipped := p.mCurrentBucketIsSkipped, dropEvents := p.dropEvents } = p

variable (p : ValueMetricProducer V)

theorem markBucket_spec (e next : Int) :
    MarksOnly p (p.markBucket e next).1 ∧ (p.markBucket e next).2 = p.closesAt e next ∧
      (p.markBucket e next).1.mCurrentBucketIsSkipped =
        (p.mCurrentBucketIsSkipped || decide (p.mCondition = .kUnknown) || p.multipleBucketsSkipped (p.calcBucketsForwardCount e)) ∧
      (DropsLogged p → DropsLogged (p.markBucket e next).1) := by
  unfold markBucket closesAt
  dsimp only
  have hfirst : ∃ p1, (if p.mCondition = .kUnknown then
      p.invalidateCurrentBucketWithoutResetBase e .CONDITION_UNKNOWN else p) = p1 ∧ MarksOnly p p1 ∧
      p1.mCurrentBucketIsSkipped = (p.mCurrentBucketIsSkipped || decide (p.mCondition = .kUnknown)) ∧ (DropsLogged p → DropsLogged p1) := by
    split
    · rename_i hc
      refine ⟨_, rfl, rfl, ?_, fun h => h.skip e (by decide)⟩
      simp [hc, invalidateCurrentBucketWithoutResetBase, skipCurrentBucket]
    · rename_i hc
      exact ⟨_, rfl, rfl, by simp [hc], fun h => h⟩
  obtain ⟨p1, hp1, honly, hskipped, hdrops⟩ := hfirst
  rw [hp1]
  unfold MarksOnly at honly
  have hmulti := congrArg (fun q : ValueMetricProducer V => q.multipleBucketsSkipped (q.calcBucketsForwardCount e)) honly
  have hend := congrArg (·.getCurrentBucketEndTimeNs) honly
  change p1.multipleBucketsSkipped (p1.calcBucketsForwardCount e) = _ at hmulti
  change p1.getCurrentBucketEndTimeNs = _ at hend
  rw [hmulti, hend]
  cases p.multipleBucketsSkipped (p.calcBucketsForwardCount e) with
  | true => exact ⟨honly, rfl, by simp [invalidateCurrentBucketWithoutResetBase, skipCurrentBucket], fun h => (hdrops h).skip e (by decide)⟩
  | false =>
    rw [Bool.or_false, if_neg Bool.false_ne_true, if_neg Bool.false_ne_true]
    split
    · exact ⟨honly, rfl, hskipped, hdrops⟩
    · exact ⟨honly, rfl, hskipped, hdrops⟩

/-! ## Closing a bucket -/

variable [MetricValue V]

/-- The bucket of a slice is kept when it has a value. -/
def keptBucket (p : ValueMetricProducer V) (stop duration : Int) (ints : List (Interval V)) : List (ValueBucket V) :=
  if (p.buildPartialBucket stop ints duration).valueIndex.length > 0 then [p.buildPartialBucket stop ints duration] else []

theorem foldl_keepSlice_kept (stop duration : Int)
    (l : List (Sigma fun _ : MetricDimensionKey => List (Interval V))) (hl : l.NodupKeys)
    (s : UMap MetricDimensionKey (List (ValueBucket V)) × Bool) (k : MetricDimensionKey) :
    UMap.getD (l.foldl (p.keepSlice stop duration) s).1 k [] =
      UMap.getD s.1 k [] ++ (l.dlookup k).elim [] (p.keptBucket stop duration) := by
  induction l generalizing s with
  | nil => exact (List.append_nil _).symm
  | cons slice l ih =>
    rw [List.nodupKeys_cons] at hl
    rw [List.foldl_cons, ih hl.2]
    have hslice : UMap.getD (p.keepSlice stop duration s slice).1 k [] =
        UMap.getD s.1 k [] ++ if k = slice.1 then p.keptBucket stop duration slice.2 else [] := by
      unfold keepSlice keptBucket
      dsimp only
      split
      · unfold UMap.push
        dsimp only
        rw [UMap.getD_insert]
        split
        · rename_i hk; rw [hk]
        · exact (List.append_nil _).symm
      · split <;> exact (List.append_nil _).symm
    rw [hslice]
    by_cases hk : k = slice.1
    · subst hk
      have hnone : l.dlookup slice.1 = none := List.dlookup_eq_none.2 hl.1
      rw [if_pos rfl, hnone, List.dlookup_cons_eq]
      simp
    · rw [if_neg hk, List.append_nil, List.dlookup_cons_ne _ _ hk]

/-- The bucket kept for a key at a flush that closes the current bucket at `stop`. -/
def keptOf (p : ValueMetricProducer V) (stop duration : Int) (k : MetricDimensionKey) : List (ValueBucket V) :=
  (p.mCurrentSlicedBucket.lookup k).elim [] (p.keptBucket stop duration)

theorem foldl_keepSlice_data (stop duration : Int)
    (l : List (Sigma fun _ : MetricDimensionKey => List (Interval V))) (s : UMap MetricDimensionKey (List (ValueBucket V)) × Bool) :
    (l.foldl (p.keepSlice stop duration) s).2 = true ↔ s.2 = true ∨ ∃ slice ∈ l, p.keptBucket stop duration slice.2 ≠ [] := by
  induction l generalizing s with
  | nil => simp
  | cons slice l ih =>
    rw [List.foldl_cons, ih, List.exists_mem_cons_iff, ← or_assoc]
    refine or_congr_left ?_
    unfold keepSlice keptBucket
    dsimp only
    split
    · simp
    · simp

theorem exists_keptOf_iff (stop duration : Int) :
    (∃ slice ∈ p.mCurrentSlicedBucket.entries, p.keptBucket stop duration slice.2 ≠ []) ↔ ∃ k, p.keptOf stop duration k ≠ [] := by
  have hnodup := p.mCurrentSlicedBucket.nodupKeys
  constructor
  · rintro ⟨slice, hslice, hne⟩
    refine ⟨slice.1, ?_⟩
    unfold keptOf AList.lookup
    rw [List.mem_dlookup hnodup hslice]
    exact hne
  · rintro ⟨k, hne⟩
    unfold keptOf at hne
    cases hl : p.mCurrentSlicedBucket.lookup k with
    | none => exact absurd (by rw [hl]; rfl) hne
    | some ints =>
      rw [hl] at hne
      exact ⟨⟨k, ints⟩, List.of_mem_dlookup hl, hne⟩

theorem keptOf_cases (stop duration : Int) (k : MetricDimensionKey) :
    p.keptOf stop duration k = [] ∨ ∃ b, p.keptOf stop duration k = [b] ∧ b.mBucketStartNs = p.mCurrentBucketStartTimeNs ∧
      b.mBucketEndNs = stop ∧ b.mConditionTrueNs = duration := by
  unfold keptOf
  cases p.mCurrentSlicedBucket.lookup k with
  | none => exact .inl rfl
  | some ints =>
    rw [Option.elim_some]
    unfold keptBucket
    split
    · exact .inr ⟨_, rfl, rfl, rfl, rfl⟩
    · exact .inl rfl

/-- The current bucket of `p` is closed at `stop`: nothing but the marks, the stopwatch and the closed buckets
changes. An invalid or small bucket is skipped, and another one is kept when there are values. -/
structure Closes (p q : ValueMetricProducer V) (stop duration : Int) : Prop where
  only : { q with
    mConditionTimer := p.mConditionTimer, mPastBuckets := p.mPastBuckets, mSkippedBuckets := p.mSkippedBuckets
    mCurrentBucketIsSkipped := p.mCurrentBucketIsSkipped, dropEvents := p.dropEvents } = p
  timer : q.mConditionTimer = (p.mConditionTimer.newBucketStart stop).1
  past : ∀ k, UMap.getD q.mPastBuckets k [] = UMap.getD p.mPastBuckets k [] ++
    if q.mCurrentBucketIsSkipped then [] else p.keptOf stop duration k
  skipped : q.mSkippedBuckets = p.mSkippedBuckets ++
    if q.mCurrentBucketIsSkipped then [⟨p.mCurrentBucketStartTimeNs, stop, q.dropEvents⟩] else []
  invalid : (p.mCurrentBucketIsSkipped || decide (stop - p.mCurrentBucketStartTimeNs < p.mMinBucketSizeNs)) = true →
    q.mCurrentBucketIsSkipped = true ∧ (DropsLogged p → DropsLogged q)
  data : (p.mCurrentBucketIsSkipped || decide (stop - p.mCurrentBucketStartTimeNs < p.mMinBucketSizeNs)) = false →
    (q.mCurrentBucketIsSkipped = false ↔ ∃ k, p.keptOf stop duration k ≠ [])

theorem closeBucket_closes (e stop : Int) : Closes p (p.closeBucket e stop) stop (p.mConditionTimer.newBucketStart stop).2 := by
  unfold closeBucket
  dsimp only
  -- the bucket as it is found: too small buckets are skipped
  have hfound : ∃ p1, (if stop - p.mCurrentBucketStartTimeNs ≥ p.mMinBucketSizeNs then
      { p with mConditionTimer := (p.mConditionTimer.newBucketStart stop).1 }
      else { p with mConditionTimer := (p.mConditionTimer.newBucketStart stop).1 }.skipCurrentBucket e .BUCKET_TOO_SMALL) = p1 ∧
      MarksOnly { p with mConditionTimer := (p.mConditionTimer.newBucketStart stop).1 } p1 ∧
      p1.mCurrentBucketIsSkipped = (p.mCurrentBucketIsSkipped || decide (stop - p.mCurrentBucketStartTimeNs < p.mMinBucketSizeNs)) ∧
      (DropsLogged p → DropsLogged p1) := by
    have hd : DropsLogged p → DropsLogged { p with mConditionTimer := (p.mConditionTimer.newBucketStart stop).1 } :=
      fun h => ⟨h.logged, h.reason⟩
    split
    · rename_i hlarge
      exact ⟨_, rfl, rfl, by simp [not_lt.2 hlarge], hd⟩
    · rename_i hlarge
      exact ⟨_, rfl, rfl, by simp [skipCurrentBucket, not_le.1 hlarge], fun h => (hd h).skip e (by decide)⟩
  obtain ⟨p1, hp1, honly, hskip, hdrops⟩ := hfound
  rw [hp1]
  have hall : { p1 with
      mConditionTimer := p.mConditionTimer, mCurrentBucketIsSkipped := p.mCurrentBucketIsSkipped, dropEvents := p.dropEvents } = p :=
    congrArg (fun q : ValueMetricProducer V => { q with mConditionTimer := p.mConditionTimer }) honly
  have htimer : p1.mConditionTimer = (p.mConditionTimer.newBucketStart stop).1 := congrArg (·.mConditionTimer) honly
  have hpast : p1.mPastBuckets = p.mPastBuckets := congrArg (·.mPastBuckets) honly
  have hskipped : p1.mSkippedBuckets = p.mSkippedBuckets := congrArg (·.mSkippedBuckets) honly
  have hstart : p1.mCurrentBucketStartTimeNs = p.mCurrentBucketStartTimeNs := congrArg (·.mCurrentBucketStartTimeNs) honly
  have honly' := congrArg (fun q : ValueMetricProducer V =>
    { q with mPastBuckets := p.mPastBuckets, mSkippedBuckets := p.mSkippedBuckets }) hall
  generalize (p.mConditionTimer.newBucketStart stop).2 = duration
  cases hs : p1.mCurrentBucketIsSkipped with
  | true =>
    simp only [if_true, hs]
    refine ⟨honly', htimer, fun k => ?_, ?_, fun _ => ⟨rfl, fun h => ⟨fun _ => (hdrops h).logged hs, (hdrops h).reason⟩⟩, fun h => ?_⟩
    · rw [if_pos rfl, List.append_nil, hpast]
    · rw [if_pos rfl, hskipped, hstart]
    · exact absurd (h.symm.trans (hskip.symm.trans hs)) Bool.false_ne_true
  | false =>
    simp only [Bool.false_eq_true, if_false]
    have hfold := p1.foldl_keepSlice_kept stop duration p1.mCurrentSlicedBucket.entries p1.mCurrentSlicedBucket.nodupKeys
      (p1.mPastBuckets, false)
    have hdata := p1.foldl_keepSlice_data stop duration p1.mCurrentSlicedBucket.entries (p1.mPastBuckets, false)
    rw [p1.exists_keptOf_iff] at hdata
    simp only [Bool.false_eq_true, false_or] at hdata
    have hkept : ∀ k, p1.keptOf stop duration k = p.keptOf stop duration k := by
      intro k
      have hk := congrArg (fun q : ValueMetricProducer V => q.keptOf stop duration k) hall
      exact hk
    generalize p1.mCurrentSlicedBucket.entries.foldl (p1.keepSlice stop duration) (p1.mPastBuckets, false) = r at hfold hdata
    have hvalues : ∀ k, UMap.getD r.1 k [] = UMap.getD p.mPastBuckets k [] ++ p.keptOf stop duration k := by
      intro k
      rw [← hkept, ← hpast]
      exact hfold k
    simp only [hkept] at hdata
    have hvalid : ¬ (p.mCurrentBucketIsSkipped || decide (stop - p.mCurrentBucketStartTimeNs < p.mMinBucketSizeNs)) = true := by
      rw [← hskip, hs]
      exact Bool.false_ne_true
    cases hr : r.2 with
    | true =>
      simp only [if_true, Bool.false_eq_true, if_false]
      refine ⟨honly', htimer, fun k => ?_, ?_, fun h => absurd h hvalid, fun _ => iff_of_true rfl (hdata.1 hr)⟩
      · rw [if_neg Bool.false_ne_true]
        exact hvalues k
      · rw [if_neg Bool.false_ne_true, List.append_nil]
        exact hskipped
    | false =>
      -- no slice had data: nothing was pushed, and the bucket is skipped
      have hnone : ¬ ∃ k, p.keptOf stop duration k ≠ [] := fun h => absurd (hr.symm.trans (hdata.2 h)) Bool.false_ne_true
      simp only [Bool.false_eq_true, if_false, skipCurrentBucket, if_true]
      refine ⟨honly', htimer, fun k => ?_, ?_, fun h => absurd h hvalid, fun _ => iff_of_false (Ne.symm Bool.false_ne_true) hnone⟩
      · refine (hvalues k).trans ?_
        rw [not_not.1 fun hne => hnone ⟨k, hne⟩, if_pos rfl]
      · rw [hskipped, hstart, if_pos rfl]

/-! ## The full bucket and the gap -/

theorem appendToFullBucket_only (full : Bool) :
    { p.appendToFullBucket full with mCurrentFullBucket := p.mCurrentFullBucket, anomalyCalls := p.anomalyCalls } = p := by
  have hfold : ∀ (f : ValueMetricProducer V → (Sigma fun _ : MetricDimensionKey => List (Interval V)) → ValueMetricProducer V),
      (∀ q slice, { f q slice with mCurrentFullBucket := q.mCurrentFullBucket, anomalyCalls := q.anomalyCalls } = q) →
      ∀ (l : List (Sigma fun _ : MetricDimensionKey => List (Interval V))) q,
        { l.foldl f q with mCurrentFullBucket := q.mCurrentFullBucket, anomalyCalls := q.anomalyCalls } = q := by
    intro f hf l
    induction l with
    | nil => intro q; rfl
    | cons slice l ih =>
      intro q
      have h1 := ih (f q slice)
      have h2 := hf q slice
      rw [List.foldl_cons]
      calc _ = { { l.foldl f (f q slice) with
                  mCurrentFullBucket := (f q slice).mCurrentFullBucket, anomalyCalls := (f q slice).anomalyCalls } with
                mCurrentFullBucket := q.mCurrentFullBucket, anomalyCalls := q.anomalyCalls } := rfl
        _ = { f q slice with mCurrentFullBucket := q.mCurrentFullBucket, anomalyCalls := q.anomalyCalls } := by rw [h1]
        _ = q := h2
  have hadd : ∀ (q : ValueMetricProducer V) slice,
      { q.addToFullBucket slice with mCurrentFullBucket := q.mCurrentFullBucket, anomalyCalls := q.anomalyCalls } = q := by
    intro q slice
    unfold addToFullBucket
    split <;> rfl
  unfold appendToFullBucket
  split
  · split <;> rfl
  · split
    · split
      · have h := hfold (fun p slice => if p.hitFullBucketGuardRailLocked slice.1 then p else p.addToFullBucket slice)
          (fun q slice => by
            dsimp only
            split
            · rfl
            · exact hadd q slice) p.mCurrentSlicedBucket.entries p
        exact h
      · rfl
    · exact hfold addToFullBucket hadd p.mCurrentSlicedBucket.entries p

/-! ## The flush -/

/-- What a flush leaves to the next bucket: the bases, and the slices without their values. -/
structure Flushed (p p' : ValueMetricProducer V) : Prop where
  bases : p'.mCurrentBaseInfo = p.mCurrentBaseInfo ∧ p'.mHasGlobalBase = p.mHasGlobalBase
  sliced : p'.mCurrentSlicedBucket = (p.mCurrentSlicedBucket.filterVal fun slice => slice.any (·.seenNewData)).mapVal fun slice =>
    slice.map fun interval => { interval with value := none, sampleSize := 0, seenNewData := false }
  state : p'.mCondition = p.mCondition ∧ p'.mIsActive = p.mIsActive ∧ p'.mStateChangePrimaryKey = p.mStateChangePrimaryKey
  opened : p'.mCurrentBucketIsSkipped = false ∧ p'.dropEvents = []

/-- A flush at `e` that opens the next bucket at `next`; `skipped` says that the closed bucket is skipped, with
`drops`. What goes to the full bucket comes from the closed one. -/
structure Flush (p q : ValueMetricProducer V) (e next : Int) (skipped : Bool) (drops : List DropEvent) : Prop extends Flushed p q where
  metric : q.toValueMetric = p.toValueMetric
  start : q.mCurrentBucketStartTimeNs = next
  num : q.mCurrentBucketNum = p.mCurrentBucketNum + p.calcBucketsForwardCount e
  timer : q.mConditionTimer = ((p.mConditionTimer.newBucketStart (p.closesAt e next)).1.newBucketStart next).1
  past : ∀ k, UMap.getD q.mPastBuckets k [] = UMap.getD p.mPastBuckets k [] ++
    if skipped then [] else p.keptOf (p.closesAt e next) (p.mConditionTimer.newBucketStart (p.closesAt e next)).2 k
  skippedBuckets : q.mSkippedBuckets = p.mSkippedBuckets ++
    ((if skipped then [⟨p.mCurrentBucketStartTimeNs, p.closesAt e next, drops⟩] else []) ++
      if p.closesAt e next < next then [⟨p.closesAt e next, next, [⟨.NO_DATA, e⟩]⟩] else [])
  invalid : p.invalidAt e next = true → skipped = true ∧ (DropsLogged p → ∃ d ∈ drops, d.reason ≠ .NO_DATA)
  data : p.invalidAt e next = false → (skipped = false ↔
    ∃ k, p.keptOf (p.closesAt e next) (p.mConditionTimer.newBucketStart (p.closesAt e next)).2 k ≠ [])
  appended : ∃ r : ValueMetricProducer V, r.mCurrentBucketIsSkipped = skipped ∧ r.toValueMetric = p.toValueMetric ∧
    r.mCurrentBucketNum = p.mCurrentBucketNum ∧ r.mCurrentSlicedBucket = p.mCurrentSlicedBucket ∧
    r.mCurrentFullBucket = p.mCurrentFullBucket ∧ r.anomalyCalls = p.anomalyCalls ∧
    q.mCurrentFullBucket = (r.appendToFullBucket (decide (e > p.getCurrentBucketEndTimeNs))).mCurrentFullBucket ∧
    q.anomalyCalls = (r.appendToFullBucket (decide (e > p.getCurrentBucketEndTimeNs))).anomalyCalls

theorem flushCurrentBucketLocked_flush (e next : Int) :
    ∃ skipped drops, Flush p (p.flushCurrentBucketLocked e next) e next skipped drops := by
  obtain ⟨honly, hstop, hmarks, hdrops⟩ := p.markBucket_spec e next
  unfold MarksOnly at honly
  unfold flushCurrentBucketLocked
  dsimp only
  rw [hstop]
  generalize (p.markBucket e next).1 = p1 at honly hmarks hdrops
  generalize hclosed : p.closesAt e next = stop
  have hclose := p1.closeBucket_closes e stop
  generalize p1.closeBucket e stop = p2 at hclose
  -- what the closed bucket leaves is that of the producer
  have hall : { p2 with
      mConditionTimer := p.mConditionTimer, mPastBuckets := p.mPastBuckets, mSkippedBuckets := p.mSkippedBuckets
      mCurrentBucketIsSkipped := p.mCurrentBucketIsSkipped, dropEvents := p.dropEvents } = p :=
    (congrArg (fun q : ValueMetricProducer V => { q with
      mConditionTimer := p.mConditionTimer, mPastBuckets := p.mPastBuckets, mSkippedBuckets := p.mSkippedBuckets
      mCurrentBucketIsSkipped := p.mCurrentBucketIsSkipped, dropEvents := p.dropEvents }) hclose.only).trans
      ((congrArg (fun q : ValueMetricProducer V => { q with
        mConditionTimer := p.mConditionTimer, mPastBuckets := p.mPastBuckets, mSkippedBuckets := p.mSkippedBuckets }) honly))
  have htimer1 : p1.mConditionTimer = p.mConditionTimer := congrArg (·.mConditionTimer) honly
  have hpast1 : p1.mPastBuckets = p.mPastBuckets := congrArg (·.mPastBuckets) honly
  have hskipped1 : p1.mSkippedBuckets = p.mSkippedBuckets := congrArg (·.mSkippedBuckets) honly
  have hstart1 : p1.mCurrentBucketStartTimeNs = p.mCurrentBucketStartTimeNs := congrArg (·.mCurrentBucketStartTimeNs) honly
  have hsize1 : p1.mMinBucketSizeNs = p.mMinBucketSizeNs := congrArg (·.mMinBucketSizeNs) honly
  have hkept1 : ∀ duration k, p1.keptOf stop duration k = p.keptOf stop duration k := by
    intro duration k
    have hk := congrArg (fun q : ValueMetricProducer V => q.keptOf stop duration k) honly
    exact hk
  obtain ⟨-, htimer, hpast, hskipped, hinvalid, hdata⟩ := hclose
  have hmarked : (p1.mCurrentBucketIsSkipped || decide (stop - p1.mCurrentBucketStartTimeNs < p1.mMinBucketSizeNs)) =
      p.invalidAt e next := by
    rw [hmarks, hstart1, hsize1, ← hclosed]
    rfl
  rw [hmarked] at hinvalid hdata
  simp only [htimer1, hkept1] at htimer hpast hdata
  rw [hpast1] at hpast
  rw [hskipped1, hstart1] at hskipped
  generalize hg : (if stop < next then [⟨stop, next, [⟨.NO_DATA, e⟩]⟩] else [] : List SkippedBucket) = g
  have hgap : p2.recordGap e stop next = { p2 with mSkippedBuckets := p2.mSkippedBuckets ++ g } := by
    unfold recordGap
    rw [← hg]
    split
    · rfl
    · rw [List.append_nil]
  rw [hgap]
  have happ := appendToFullBucket_only { p2 with mSkippedBuckets := p2.mSkippedBuckets ++ g } (decide (e > p.getCurrentBucketEndTimeNs))
  generalize hr : ({ p2 with mSkippedBuckets := p2.mSkippedBuckets ++ g } : ValueMetricProducer V).appendToFullBucket
    (decide (e > p.getCurrentBucketEndTimeNs)) = r at happ
  have hnext := (congrArg (fun q : ValueMetricProducer V => { q with
    mConditionTimer := p.mConditionTimer, mPastBuckets := p.mPastBuckets, mSkippedBuckets := p.mSkippedBuckets
    mCurrentBucketIsSkipped := p.mCurrentBucketIsSkipped, dropEvents := p.dropEvents }) happ).trans hall
  refine ⟨p2.mCurrentBucketIsSkipped, p2.dropEvents, ⟨⟨congrArg (·.mCurrentBaseInfo) hnext, congrArg (·.mHasGlobalBase) hnext⟩, ?_,
    ⟨congrArg (·.mCondition) hnext, congrArg (·.mIsActive) hnext, congrArg (·.mStateChangePrimaryKey) hnext⟩, rfl, rfl⟩,
    congrArg (·.toValueMetric) hnext, rfl, ?_, ?_, fun k => ?_, ?_, fun hi => ?_, by rw [hclosed]; exact hdata, ?_⟩
  · have h4 : r.mCurrentSlicedBucket = p.mCurrentSlicedBucket := congrArg (·.mCurrentSlicedBucket) hnext
    rw [← h4]
    rfl
  · exact congrArg (· + p.calcBucketsForwardCount e) (congrArg (·.mCurrentBucketNum) hnext)
  · have h4 : r.mConditionTimer = p2.mConditionTimer := congrArg (·.mConditionTimer) happ
    show (r.mConditionTimer.newBucketStart next).1 = _
    rw [h4, htimer, hclosed]
  · have h4 : r.mPastBuckets = p2.mPastBuckets := congrArg (·.mPastBuckets) happ
    show UMap.getD r.mPastBuckets k [] = _
    rw [h4, hclosed]
    exact hpast k
  · have h4 : r.mSkippedBuckets = p2.mSkippedBuckets ++ g := congrArg (·.mSkippedBuckets) happ
    show r.mSkippedBuckets = _
    rw [h4, hclosed, hg, hskipped, List.append_assoc]
  · obtain ⟨hs, hlogged⟩ := hinvalid hi
    refine ⟨hs, fun hd => ?_⟩
    obtain ⟨d, hd'⟩ := List.exists_mem_of_ne_nil _ ((hlogged (hdrops hd)).logged hs)
    exact ⟨d, hd', (hlogged (hdrops hd)).reason d hd'⟩
  · exact ⟨{ p2 with mSkippedBuckets := p2.mSkippedBuckets ++ g }, rfl, congrArg (·.toValueMetric) hall, congrArg (·.mCurrentBucketNum) hall,
      congrArg (·.mCurrentSlicedBucket) hall, congrArg (·.mCurrentFullBucket) hall, congrArg (·.anomalyCalls) hall, congrArg (·.mCurrentFullBucket) hr.symm,
      congrArg (·.anomalyCalls) hr.symm⟩

end Statsd.Metrics.ValueMetricProducer
