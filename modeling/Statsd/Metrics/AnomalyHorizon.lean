/-
The prediction beyond its horizon (the return after the loop of `predictAnomalyTimestampNs`). When the refractory
period ends behind every bucket the loop looks at, its end is returned without a look at the bucket it falls in,
and the sum there is that of the whole buckets before plus what has passed of its own bucket.
-/
import Statsd.Metrics.AnomalyPrediction

namespace Statsd

namespace Metrics.OringDurationTracker

open Anomaly Segments

section

variable {t : OringDurationTracker} {a : AnomalyTracker MetricDimensionKey} {past : Int → Int} {N : Nat} {e : Int}

theorem predictInFuture_beyond (hsize : 0 < t.mBucketSizeNs)
    (hbeyond : t.getCurrentBucketEndTimeNs + (N + 1) * t.mBucketSizeNs < t.refractoryPeriodEndNs a) :
    ∀ (n : Nat) (futureBucketIdx pastNs : Int), futureBucketIdx + n = N + 2 →
      t.predictInFuture a e n futureBucketIdx pastNs = max (e + a.getAnomalyThreshold) (t.refractoryPeriodEndNs a) := by
  intro n
  induction n with
  | zero =>
    intro futureBucketIdx pastNs _
    rfl
  | succ n ih =>
    intro futureBucketIdx pastNs hidx
    have hend : futureBucketIdx * t.mBucketSizeNs ≤ (N + 1) * t.mBucketSizeNs :=
      mul_le_mul_of_nonneg_right (by omega) (le_of_lt hsize)
    unfold predictInFuture
    dsimp only
    rw [if_neg (by omega)]
    split
    · exact ih _ _ (by omega)
    · exact ih _ _ (by omega)

theorem predictAnomalyTimestampNs_beyond (hnum : a.getNumOfPastBuckets = N) (hsize : 0 < t.mBucketSizeNs)
    (hevent : e ≤ t.getCurrentBucketEndTimeNs) (hthreshold : a.getAnomalyThreshold ≤ (N + 1) * t.mBucketSizeNs)
    (hbeyond : t.getCurrentBucketEndTimeNs + (N + 1) * t.mBucketSizeNs < t.refractoryPeriodEndNs a) :
    t.predictAnomalyTimestampNs a e = t.refractoryPeriodEndNs a := by
  have hwindow : 0 ≤ ((N : Int) + 1) * t.mBucketSizeNs := mul_nonneg (by omega) (le_of_lt hsize)
  unfold predictAnomalyTimestampNs
  dsimp only
  rw [if_neg (by omega), predictInFuture_beyond hsize hbeyond _ _ _ (by omega)]
  omega

theorem exists_segment_beyond (hsize : 0 < t.mBucketSizeNs) (hevent : e ≤ t.getCurrentBucketEndTimeNs) {time : Int}
    (hbeyond : t.getCurrentBucketEndTimeNs + (N + 1) * t.mBucketSizeNs < time) :
    ∃ j, N < j ∧ InSegment e t.futureEnd j time := by
  have hwindow : 0 ≤ ((N : Int) + 1) * t.mBucketSizeNs := mul_nonneg (by omega) (le_of_lt hsize)
  -- each bucket has at least one nanosecond
  have hreach : time ≤ t.futureEnd (time - t.getCurrentBucketEndTimeNs).toNat := by
    unfold futureEnd
    rw [bucketEnd_add]
    have hlater : ((time - t.getCurrentBucketEndTimeNs).toNat : Int) = time - t.getCurrentBucketEndTimeNs := by omega
    have hmul := mul_le_mul_of_nonneg_left (show (1 : Int) ≤ t.mBucketSizeNs by omega)
      (show 0 ≤ time - t.getCurrentBucketEndTimeNs by omega)
    rw [hlater]
    omega
  have hstart : e ≤ time := by omega
  obtain ⟨j, _, hsegment⟩ := exists_inSegment hstart _ hreach
  refine ⟨j, not_le.1 fun hj => ?_, hsegment⟩
  have hup := hsegment.upper
  have hmul : (j : Int) * t.mBucketSizeNs ≤ (N + 1) * t.mBucketSizeNs :=
    mul_le_mul_of_nonneg_right (by omega) (le_of_lt hsize)
  unfold futureEnd at hup
  rw [bucketEnd_add] at hup
  omega

theorem windowDuration_beyond (hsize : 0 < t.mBucketSizeNs) (hevent : e ≤ t.getCurrentBucketEndTimeNs) {time : Int}
    (hbeyond : t.getCurrentBucketEndTimeNs + (N + 1) * t.mBucketSizeNs < time) :
    t.windowDuration past N e time = N * t.mBucketSizeNs + (time - t.bucketEnd (t.bucketAt time - 1)) := by
  obtain ⟨j, hj, hsegment⟩ := exists_segment_beyond hsize hevent hbeyond
  rw [windowDuration_eq hsize hsegment, carried_future hj, bucketAt_eq hsize hsegment]
  have hup : min time (t.bucketEnd (t.mCurrentBucketNum + j)) = time := min_eq_left hsegment.upper
  unfold durationUpTo
  rw [if_neg (by omega), if_neg (by omega), hup]

end

/-- With a refractory period that ends behind the horizon, the end of the period is returned, and the sum over
the bucket of that time and the `N` before it reaches the threshold if and only if the period ends far enough
into its bucket. -/
theorem predictAnomalyTimestampNs_beyond_iff (t : OringDurationTracker) (anomalyTracker : AnomalyTracker MetricDimensionKey)
    (past : Int → Int) (N : Nat) (eventTimestampNs : Int) (hnum : anomalyTracker.getNumOfPastBuckets = N)
    (hsize : 0 < t.mBucketSizeNs) (hevent : eventTimestampNs ≤ t.getCurrentBucketEndTimeNs)
    (hthreshold : anomalyTracker.getAnomalyThreshold ≤ (N + 1) * t.mBucketSizeNs)
    (hbeyond : t.getCurrentBucketEndTimeNs + (N + 1) * t.mBucketSizeNs < t.refractoryPeriodEndNs anomalyTracker) :
    anomalyTracker.getAnomalyThreshold ≤
        t.windowDuration past N eventTimestampNs (t.predictAnomalyTimestampNs anomalyTracker eventTimestampNs) ↔
      anomalyTracker.getAnomalyThreshold - N * t.mBucketSizeNs ≤ t.refractoryPeriodEndNs anomalyTracker -
        t.bucketEnd (t.bucketAt (t.refractoryPeriodEndNs anomalyTracker) - 1) := by
  rw [predictAnomalyTimestampNs_beyond hnum hsize hevent hthreshold hbeyond, windowDuration_beyond hsize hevent hbeyond]
  omega

/-- A duration that runs in minute buckets from the start of the first one. -/
def minuteTracker : OringDurationTracker :=
  { OringDurationTracker.new ⟨[], []⟩ false 0 0 0 60000000000 false with
    mStateKeyDurationMap := (∅ : UMap HashableDimensionKey DurationValues).insert [] ⟨0, 0⟩ }

/-- A tracker that asks for 50 seconds in one bucket, in a refractory period that began at time 0. -/
def fiftySeconds (refractoryPeriodEndsSec : Nat) : AnomalyTracker MetricDimensionKey :=
  trackerAfter ⟨1, some 50000000000, some refractoryPeriodEndsSec⟩ [] ((∅ : UMap MetricDimensionKey Nat).insert ⟨[], []⟩ refractoryPeriodEndsSec)

/-- The period ends with the third minute: the whole minute counts. -/
theorem prediction_at_minute_end :
    minuteTracker.predictAnomalyTimestampNs (fiftySeconds 180) 0 = 180000000000 ∧
      50000000000 ≤ minuteTracker.windowDuration (fun _ => 0) 0 0 180000000000 := by
  have hresult : minuteTracker.predictAnomalyTimestampNs (fiftySeconds 180) 0 = 180000000000 := by decide +kernel
  have h := (predictAnomalyTimestampNs_beyond_iff minuteTracker (fiftySeconds 180) (fun _ => 0) 0 0 (by decide +kernel)
    (by decide +kernel) (by decide +kernel) (by decide +kernel) (by decide +kernel)).mpr (by decide +kernel)
  rw [hresult] at h
  have hthreshold : (fiftySeconds 180).getAnomalyThreshold = 50000000000 := by decide +kernel
  exact ⟨hresult, hthreshold ▸ h⟩

/-- The period ends ten seconds into the third minute: the alarm is set for then, and the minute holds ten
seconds of the fifty asked for. -/
theorem prediction_below_threshold :
    (fiftySeconds 130).getNumOfPastBuckets = 0 ∧ (fiftySeconds 130).getAnomalyThreshold = 50000000000 ∧
      minuteTracker.getCurrentBucketEndTimeNs + 60000000000 < minuteTracker.refractoryPeriodEndNs (fiftySeconds 130) ∧
      minuteTracker.predictAnomalyTimestampNs (fiftySeconds 130) 0 = 130000000000 ∧
      minuteTracker.windowDuration (fun _ => 0) 0 0 130000000000 = 10000000000 := by
  refine ⟨by decide +kernel, by decide +kernel, by decide +kernel, by decide +kernel, ?_⟩
  rw [windowDuration_beyond (by decide +kernel) (by decide +kernel) (by decide +kernel)]
  decide +kernel

end Metrics.OringDurationTracker

end Statsd
