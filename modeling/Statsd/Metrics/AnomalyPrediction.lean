/-
The prediction of an anomaly (`predictAnomalyTimestampNs` of metrics/duration_helper/OringDurationTracker.cpp). While a
duration runs, the sum over the window grows with the time; at the end of a bucket the oldest bucket leaves the
window. The prediction is the least time, not before the event and not within the refractory period, at which
the sum reaches the threshold.
-/
import Statsd.Base.Segments
import Statsd.Anomaly.Window
import Statsd.Metrics.OringDurationTracker

namespace Statsd

namespace Anomaly.AnomalyTracker

variable {K : Type} [DecidableEq K]

/-- The threshold of the alert, as an `int64_t`. -/
def getAnomalyThreshold (t : AnomalyTracker K) : Int :=
  (t.mAlert.trigger_if_sum_gt.getD 0).num.tdiv (t.mAlert.trigger_if_sum_gt.getD 0).den

def getRefractoryPeriodEndsSec (t : AnomalyTracker K) (key : K) : Nat := (t.mRefractoryPeriodEndsSec.lookup key).getD 0

def getNumOfPastBuckets (t : AnomalyTracker K) : Int := t.mNumOfPastBuckets

end Anomaly.AnomalyTracker

namespace Metrics.OringDurationTracker

open Anomaly Segments

section

variable (t : OringDurationTracker) (anomalyTracker : AnomalyTracker MetricDimensionKey) (eventTimestampNs : Int)

/-- The past duration of the current state key in the current bucket. -/
def currentStateBucketPastNs : Int := t.getCurrentStateKeyDuration + t.getCurrentStateKeyFullBucketDuration

def refractoryPeriodEndNs : Int := anomalyTracker.getRefractoryPeriodEndsSec t.mEventKey * NS_PER_SEC

/-- The loop of `predictAnomalyTimestampNs`, with the number of passes left. -/
def predictInFuture : Nat → Int → Int → Int
  | 0, _, _ => max (eventTimestampNs + anomalyTracker.getAnomalyThreshold) (t.refractoryPeriodEndNs anomalyTracker)
  | n + 1, futureBucketIdx, pastNs =>
    let bucketEndNs := t.getCurrentBucketEndTimeNs + futureBucketIdx * t.mBucketSizeNs
    let anomalyTimestampNs := max (bucketEndNs - t.mBucketSizeNs + anomalyTracker.getAnomalyThreshold - pastNs)
      (t.refractoryPeriodEndNs anomalyTracker)
    if anomalyTimestampNs ≤ bucketEndNs then anomalyTimestampNs
    else if anomalyTracker.getNumOfPastBuckets ≤ 0 then predictInFuture n (futureBucketIdx + 1) pastNs
    else
      let pastNs := pastNs + t.mBucketSizeNs
      let pastNs :=
        if futureBucketIdx < anomalyTracker.getNumOfPastBuckets then
          pastNs - anomalyTracker.getPastBucketValue t.mEventKey
            (t.mCurrentBucketNum - anomalyTracker.getNumOfPastBuckets + futureBucketIdx)
        else if futureBucketIdx = anomalyTracker.getNumOfPastBuckets then
          pastNs - (t.currentStateBucketPastNs + (t.getCurrentBucketEndTimeNs - eventTimestampNs))
        else pastNs
      predictInFuture n (futureBucketIdx + 1) pastNs

def predictAnomalyTimestampNs : Int :=
  let pastNs := t.currentStateBucketPastNs + anomalyTracker.getSumOverPastBuckets t.mEventKey
  let anomalyTimestampNs :=
    max (eventTimestampNs + anomalyTracker.getAnomalyThreshold - pastNs) (t.refractoryPeriodEndNs anomalyTracker)
  if anomalyTimestampNs ≤ t.getCurrentBucketEndTimeNs then max eventTimestampNs anomalyTimestampNs
  else
    let pastNs :=
      if anomalyTracker.getNumOfPastBuckets > 0 then
        pastNs - anomalyTracker.getPastBucketValue t.mEventKey
          (t.mCurrentBucketNum - anomalyTracker.getNumOfPastBuckets) + (t.getCurrentBucketEndTimeNs - eventTimestampNs)
      else 0
    t.predictInFuture anomalyTracker eventTimestampNs (anomalyTracker.getNumOfPastBuckets + 1).toNat 1 pastNs

/-! ## The sum while the duration runs -/

/-- The end of the bucket of a number. -/
def bucketEnd (num : Int) : Int := t.mStartTimeNs + (num + 1) * t.mBucketSizeNs

/-- The number of the bucket of a time that is not before the current bucket; the end of a bucket belongs to it. -/
def bucketAt (time : Int) : Int := t.mCurrentBucketNum + max 0 (-((t.getCurrentBucketEndTimeNs - time) / t.mBucketSizeNs))

/-- The duration in the bucket of a number up to a time, when it runs from the event on; `past` is the duration of
each past bucket. -/
def durationUpTo (past : Int → Int) (eventTimestampNs time num : Int) : Int :=
  if num < t.mCurrentBucketNum then past num
  else if num = t.mCurrentBucketNum then t.currentStateBucketPastNs + (min time (t.bucketEnd num) - eventTimestampNs)
  else min time (t.bucketEnd num) - t.bucketEnd (num - 1)

/-- The sum over the bucket of a time and the `N` buckets before it. -/
noncomputable def windowDuration (past : Int → Int) (N : Nat) (eventTimestampNs time : Int) : Int :=
  ∑ num ∈ Finset.Icc (t.bucketAt time - N) (t.bucketAt time), t.durationUpTo past eventTimestampNs time num

end

/-- What the prediction reads from an anomaly tracker with `N` past buckets. -/
structure Recorded (t : OringDurationTracker) (a : AnomalyTracker MetricDimensionKey) (N : Nat) (past : Int → Int) : Prop where
  num : a.getNumOfPastBuckets = N
  sum : a.getSumOverPastBuckets t.mEventKey = ∑ n ∈ Finset.Ico (t.mCurrentBucketNum - N) t.mCurrentBucketNum, past n
  value : 0 < N → ∀ n, t.mCurrentBucketNum - N ≤ n → n < t.mCurrentBucketNum → a.getPastBucketValue t.mEventKey n = past n
  nonneg : ∀ n, 0 ≤ past n

/-! ## The segments: a bucket is one -/

/-- The duration of a bucket at its end. -/
def fullDuration (t : OringDurationTracker) (past : Int → Int) (e num : Int) : Int :=
  if num < t.mCurrentBucketNum then past num
  else if num = t.mCurrentBucketNum then t.currentStateBucketPastNs + (t.getCurrentBucketEndTimeNs - e)
  else t.mBucketSizeNs

/-- The sum over the buckets before the `j`-th future one that are in its window. -/
noncomputable def carried (t : OringDurationTracker) (past : Int → Int) (N : Nat) (e : Int) (j : Nat) : Int :=
  ∑ n ∈ Finset.Ico (t.mCurrentBucketNum + j - N) (t.mCurrentBucketNum + j), t.fullDuration past e n

/-- The ends of the current bucket and of those after it. -/
def futureEnd (t : OringDurationTracker) (j : Nat) : Int := t.bucketEnd (t.mCurrentBucketNum + j)

section

variable {t : OringDurationTracker} {past : Int → Int} {N : Nat} {e threshold : Int}

theorem bucketEnd_current (t : OringDurationTracker) : t.bucketEnd t.mCurrentBucketNum = t.getCurrentBucketEndTimeNs := rfl

theorem bucketEnd_pred (t : OringDurationTracker) (n : Int) : t.bucketEnd (n - 1) = t.bucketEnd n - t.mBucketSizeNs := by
  unfold bucketEnd
  ring

theorem bucketEnd_add (t : OringDurationTracker) (j : Int) :
    t.bucketEnd (t.mCurrentBucketNum + j) = t.getCurrentBucketEndTimeNs + j * t.mBucketSizeNs := by
  unfold bucketEnd getCurrentBucketEndTimeNs
  ring

theorem bucketEnd_le (hsize : 0 < t.mBucketSizeNs) {m n : Int} (h : m ≤ n) : t.bucketEnd m ≤ t.bucketEnd n := by
  unfold bucketEnd
  have := mul_le_mul_of_nonneg_right (show m + 1 ≤ n + 1 by omega) (le_of_lt hsize)
  omega

theorem bucketAt_eq (hsize : 0 < t.mBucketSizeNs) {j : Nat} {time : Int} (h : InSegment e t.futureEnd j time) :
    t.bucketAt time = t.mCurrentBucketNum + j := by
  have hup := h.upper
  unfold futureEnd at hup
  rw [bucketEnd_add] at hup
  unfold bucketAt
  have hlo : -(j : Int) ≤ (t.getCurrentBucketEndTimeNs - time) / t.mBucketSizeNs := by
    rw [Int.le_ediv_iff_mul_le hsize]
    have : -(j : Int) * t.mBucketSizeNs = -(j * t.mBucketSizeNs) := by ring
    omega
  cases j with
  | zero =>
    push_cast at hlo ⊢
    omega
  | succ i =>
    have hlow := h.lower i (Nat.lt_succ_self i)
    unfold futureEnd at hlow
    rw [bucketEnd_add] at hlow
    have hhi : (t.getCurrentBucketEndTimeNs - time) / t.mBucketSizeNs < -(i : Int) := by
      rw [Int.ediv_lt_iff_lt_mul hsize]
      have : -(i : Int) * t.mBucketSizeNs = -(i * t.mBucketSizeNs) := by ring
      omega
    push_cast at hlo ⊢
    omega

theorem durationUpTo_full (hsize : 0 < t.mBucketSizeNs) {j : Nat} {time n : Int} (h : InSegment e t.futureEnd j time)
    (hn : n < t.mCurrentBucketNum + j) : t.durationUpTo past e time n = t.fullDuration past e n := by
  unfold durationUpTo fullDuration
  by_cases hpast : n < t.mCurrentBucketNum
  · rw [if_pos hpast, if_pos hpast]
  -- its end is before the time
  have hend : t.bucketEnd n < time := by
    have hle : t.bucketEnd n ≤ t.futureEnd (n - t.mCurrentBucketNum).toNat := bucketEnd_le hsize (by omega)
    have := h.lower (n - t.mCurrentBucketNum).toNat (by omega)
    omega
  rw [if_neg hpast, if_neg hpast, min_eq_right (le_of_lt hend)]
  split
  · rename_i hn
    rw [hn, bucketEnd_current]
  · rw [bucketEnd_pred]
    ring

theorem windowDuration_eq (hsize : 0 < t.mBucketSizeNs) {j : Nat} {time : Int} (h : InSegment e t.futureEnd j time) :
    t.windowDuration past N e time = t.carried past N e j + t.durationUpTo past e time (t.mCurrentBucketNum + j) := by
  unfold windowDuration carried
  rw [bucketAt_eq hsize h, ← Finset.Ico_insert_right (by omega), Finset.sum_insert (by simp), add_comm]
  congr 1
  refine Finset.sum_congr rfl fun n hn => ?_
  exact durationUpTo_full hsize h (Finset.mem_Ico.1 hn).2

theorem carried_future {j : Nat} (hj : N < j) : t.carried past N e j = N * t.mBucketSizeNs := by
  have hfull : ∀ n ∈ Finset.Ico (t.mCurrentBucketNum + j - N) (t.mCurrentBucketNum + j),
      t.fullDuration past e n = t.mBucketSizeNs := by
    intro n hn
    have := Finset.mem_Ico.1 hn
    unfold fullDuration
    rw [if_neg (by omega), if_neg (by omega)]
  unfold carried
  rw [Finset.sum_congr rfl hfull, Finset.sum_const, Int.card_Ico, nsmul_eq_mul]
  congr 2
  omega

variable {a : AnomalyTracker MetricDimensionKey}

end

/-! ## What an anomaly tracker has recorded -/

/-- A tracker after any calls, with any refractory periods. -/
def trackerAfter (alert : Alert) (calls : List (Call MetricDimensionKey)) (refractoryPeriodEndsSec : UMap MetricDimensionKey Nat) :
    AnomalyTracker MetricDimensionKey :=
  { calls.foldl Call.run (AnomalyTracker.new alert) with mRefractoryPeriodEndsSec := refractoryPeriodEndsSec }

variable {K : Type}

end Metrics.OringDurationTracker

end Statsd
