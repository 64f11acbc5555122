/-
The window of past buckets of `AnomalyTracker` (anomaly/AnomalyTracker.{h,cpp}): a circular buffer
of `num_buckets - 1` past buckets indexed by the bucket number, and the running sum of their values
per dimension key, kept up to date one bucket at a time. A bucket is a `shared_ptr<DimToValMap>`,
here an optional map; the callers hand over a fresh map for every bucket, so maps are values.
-/
import Statsd.Base.UMap
import Statsd.StatsLogUtil

namespace Statsd.Anomaly

/-- `DimToValMap`: a value for each dimension key. -/
abbrev DimToValMap (K : Type) := UMap K Int

/-- The fields of the `Alert` message the tracker reads. -/
structure Alert where
  num_buckets : Int
  trigger_if_sum_gt : Option ℚ
  refractory_period_secs : Option Int

/-- The state of an `AnomalyTracker`. -/
structure AnomalyTracker (K : Type) where
  mAlert : Alert
  mNumOfPastBuckets : Int
  mPastBuckets : List (Option (DimToValMap K))
  mSumOverPastBuckets : DimToValMap K
  mMostRecentBucketNum : Int
  mRefractoryPeriodEndsSec : UMap K Nat

section

variable {K : Type} [DecidableEq K]

/-! ## The running sum -/

/-- From `mSumOverPastBuckets[key]`, subtracts `bucketValue`, removing the entry if it is now 0. -/
def subtractValueFromSum (sum : DimToValMap K) (key : K) (bucketValue : Int) : DimToValMap K :=
  match sum.lookup key with
  | none => sum
  | some v => if v - bucketValue = 0 then sum.erase key else sum.insert key (v - bucketValue)

def subtractBucketFromSum (sum : DimToValMap K) (bucket : Option (DimToValMap K)) : DimToValMap K :=
  match bucket with
  | none => sum
  | some b => b.entries.foldl (fun s kv => subtractValueFromSum s kv.1 kv.2) sum

/-- `mSumOverPastBuckets[key] += bucketValue`. -/
def addValueToSum (sum : DimToValMap K) (key : K) (bucketValue : Int) : DimToValMap K :=
  sum.insert key (UMap.getD sum key 0 + bucketValue)

def addBucketToSum (sum : DimToValMap K) (bucket : Option (DimToValMap K)) : DimToValMap K :=
  match bucket with
  | none => sum
  | some b => b.entries.foldl (fun s kv => addValueToSum s kv.1 kv.2) sum

/-! ## The circular buffer -/

namespace AnomalyTracker

def resetStorage (t : AnomalyTracker K) : AnomalyTracker K :=
  { t with mPastBuckets := List.replicate t.mNumOfPastBuckets.toNat none, mSumOverPastBuckets := ∅ }

/-- The constructor. -/
def new (alert : Alert) : AnomalyTracker K :=
  resetStorage
    { mAlert := alert, mNumOfPastBuckets := alert.num_buckets - 1, mPastBuckets := [],
      mSumOverPastBuckets := ∅, mMostRecentBucketNum := -1, mRefractoryPeriodEndsSec := ∅ }

/-- The slot of a bucket number (C++ `%`, which the code only calls on `bucketNum ≥ 0`). -/
def index (t : AnomalyTracker K) (bucketNum : Int) : Nat := (bucketNum.tmod t.mNumOfPastBuckets).toNat

/-- `mPastBuckets[i]`. -/
def slot (t : AnomalyTracker K) (i : Nat) : Option (DimToValMap K) := (t.mPastBuckets[i]?).join

/-- One iteration of the loop that empties old buckets. -/
def clearBucket (t : AnomalyTracker K) (i : Int) : AnomalyTracker K :=
  { t with
    mSumOverPastBuckets := subtractBucketFromSum t.mSumOverPastBuckets (t.slot (t.index i))
    mPastBuckets := t.mPastBuckets.set (t.index i) none }

def advanceMostRecentBucketTo (t : AnomalyTracker K) (bucketNum : Int) : AnomalyTracker K :=
  if t.mNumOfPastBuckets ≤ 0 then t
  else if bucketNum ≤ t.mMostRecentBucketNum then t
  else if bucketNum ≥ t.mMostRecentBucketNum + t.mNumOfPastBuckets then
    { t.resetStorage with mMostRecentBucketNum := bucketNum }
  else
    let t' := (List.range (bucketNum - t.mMostRecentBucketNum).toNat).foldl
      (fun u (j : Nat) => u.clearBucket (t.mMostRecentBucketNum + 1 + j)) t
    { t' with mMostRecentBucketNum := bucketNum }

/-- `addPastBucket(bucket, bucketNum)`. -/
def addPastBucket (t : AnomalyTracker K) (bucket : Option (DimToValMap K)) (bucketNum : Int) :
    AnomalyTracker K :=
  if t.mNumOfPastBuckets = 0 ∨ bucketNum < 0 ∨ bucketNum ≤ t.mMostRecentBucketNum - t.mNumOfPastBuckets then t
  else
    let t' :=
      if bucketNum ≤ t.mMostRecentBucketNum then
        -- updating an old bucket, not adding a new one
        { t with mSumOverPastBuckets := subtractBucketFromSum t.mSumOverPastBuckets (t.slot (t.index bucketNum)) }
      else t.advanceMostRecentBucketTo bucketNum
    { t' with
      mPastBuckets := t'.mPastBuckets.set (t'.index bucketNum) bucket
      mSumOverPastBuckets := addBucketToSum t'.mSumOverPastBuckets bucket }

/-- `addPastBucket(key, bucketValue, bucketNum)`. -/
def addPastBucketValue (t : AnomalyTracker K) (key : K) (bucketValue bucketNum : Int) : AnomalyTracker K :=
  if t.mNumOfPastBuckets = 0 ∨ bucketNum < 0 ∨ bucketNum ≤ t.mMostRecentBucketNum - t.mNumOfPastBuckets then t
  else
    match decide (bucketNum ≤ t.mMostRecentBucketNum), t.slot (t.index bucketNum) with
    | true, some bucket =>
      -- insert into an already existing past bucket, taking an old entry out of the sum first
      let sum := match bucket.lookup key with
        | some old => subtractValueFromSum t.mSumOverPastBuckets key old
        | none => t.mSumOverPastBuckets
      { t with
        mPastBuckets := t.mPastBuckets.set (t.index bucketNum) (some (bucket.insert key bucketValue))
        mSumOverPastBuckets := addValueToSum sum key bucketValue }
    | _, _ => t.addPastBucket (some (AList.singleton key bucketValue)) bucketNum

def getPastBucketValue (t : AnomalyTracker K) (key : K) (bucketNum : Int) : Int :=
  if bucketNum < 0 ∨ t.mMostRecentBucketNum < 0 ∨ bucketNum ≤ t.mMostRecentBucketNum - t.mNumOfPastBuckets ∨
      bucketNum > t.mMostRecentBucketNum then 0
  else
    match t.slot (t.index bucketNum) with
    | none => 0
    | some bucket => UMap.getD bucket key 0

def getSumOverPastBuckets (t : AnomalyTracker K) (key : K) : Int := UMap.getD t.mSumOverPastBuckets key 0

/-- `detectAnomaly`: the verdict, and the tracker advanced to the bucket before the current one. -/
def detectAnomaly (t : AnomalyTracker K) (currentBucketNum : Int) (key : K) (currentBucketValue : Int) :
    Bool × AnomalyTracker K :=
  let t' := if currentBucketNum > t.mMostRecentBucketNum + 1 then
    t.advanceMostRecentBucketTo (currentBucketNum - 1) else t
  (match t.mAlert.trigger_if_sum_gt with
    | none => false
    | some threshold => decide (((t'.getSumOverPastBuckets key + currentBucketValue : Int) : ℚ) > threshold), t')

/-! ## Declaring -/

def isInRefractoryPeriod (t : AnomalyTracker K) (timestampNs : Int) (key : K) : Bool :=
  match t.mRefractoryPeriodEndsSec.lookup key with
  | some endSec => decide (timestampNs < endSec * NS_PER_SEC)
  | none => false

/-- `declareAnomaly`: whether an anomaly was declared, and the tracker with the key's refractory
period started (its end in seconds, rounded up, as a `uint32_t`). -/
def declareAnomaly (t : AnomalyTracker K) (timestampNs : Int) (key : K) : Bool × AnomalyTracker K :=
  if t.isInRefractoryPeriod timestampNs key then (false, t)
  else
    match t.mAlert.refractory_period_secs with
    | none => (true, t)
    | some secs =>
      let endSec := ((timestampNs + NS_PER_SEC - 1).tdiv NS_PER_SEC + secs) % 2 ^ 32
      (true, { t with mRefractoryPeriodEndsSec := t.mRefractoryPeriodEndsSec.insert key endSec.toNat })

def detectAndDeclareAnomaly (t : AnomalyTracker K) (timestampNs currBucketNum : Int) (key : K)
    (currentBucketValue : Int) : Bool × AnomalyTracker K :=
  let (anomaly, t') := t.detectAnomaly currBucketNum key currentBucketValue
  if anomaly then t'.declareAnomaly timestampNs key else (false, t')

end AnomalyTracker

end

end Statsd.Anomaly
