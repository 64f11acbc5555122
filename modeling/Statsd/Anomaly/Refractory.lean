/-
Refractory periods of anomaly trackers over whole runs (anomaly/AnomalyTracker.cpp and
anomaly/DurationAnomalyTracker.cpp): after an anomaly is declared for a dimension key, the next one for the
key comes no earlier than the refractory period later, counted from the first whole second after the
declaration. The ends of the periods are kept as 32-bit seconds.

A run is any sequence of calls of a tracker, with timestamps in any order. A base tracker is one that
is never asked for alarms.
-/
import Statsd.Anomaly.DurationAnomalyTracker

namespace Statsd.Anomaly

/-- Rounded up to seconds. -/
def ceilSec (timestampNs : Int) : Int := -(-timestampNs / NS_PER_SEC)

inductive TrackerCall (K : Type) where
  | addPastBucket (bucket : Option (DimToValMap K)) (bucketNum : Int)
  | addPastBucketValue (key : K) (bucketValue bucketNum : Int)
  | detectAnomaly (currentBucketNum : Int) (key : K) (currentBucketValue : Int)
  | detectAndDeclareAnomaly (timestampNs currBucketNum : Int) (key : K) (currentBucketValue : Int)
  | declareAnomaly (timestampNs : Int) (key : K)
  | startAlarm (ref : Nat) (key : K) (timestampNs : Int)
  | stopAlarm (key : K) (timestampNs : Int)
  | cancelAllAlarms
  | informAlarmsFired (timestampNs : Int) (firedAlarms : List InternalAlarm)

/-- A tracker and the alarm monitor, with the anomalies declared so far, the latest first. -/
structure TrackerRun (K : Type) where
  tracker : DurationAnomalyTracker K
  monitor : AlarmMonitor
  declared : List (Int × K)

section

variable {K : Type} [DecidableEq K]

/-- The declarations of one call, at its time. -/
def noteAll (timestampNs : Int) (declarations : List (Declaration K)) (declared : List (Int × K)) : List (Int × K) :=
  declarations.foldl (fun declared d => if d.declared then (timestampNs, d.key) :: declared else declared) declared

namespace TrackerRun

/-- The inherited part of the tracker changes. -/
def base (s : TrackerRun K) (tracker : AnomalyTracker K) : TrackerRun K :=
  { s with tracker := { tracker with mAlarms := s.tracker.mAlarms } }

/-- A call that may have declared an anomaly. -/
def declare (s : TrackerRun K) (timestampNs : Int) (key : K) (result : Bool × AnomalyTracker K) : TrackerRun K :=
  { s.base result.2 with declared := if result.1 then (timestampNs, key) :: s.declared else s.declared }

def step (s : TrackerRun K) : TrackerCall K → TrackerRun K
  | .addPastBucket bucket bucketNum => s.base (s.tracker.addPastBucket bucket bucketNum)
  | .addPastBucketValue key bucketValue bucketNum => s.base (s.tracker.addPastBucketValue key bucketValue bucketNum)
  | .detectAnomaly currentBucketNum key currentBucketValue =>
    s.base (s.tracker.detectAnomaly currentBucketNum key currentBucketValue).2
  | .detectAndDeclareAnomaly timestampNs currBucketNum key currentBucketValue =>
    s.declare timestampNs key (s.tracker.detectAndDeclareAnomaly timestampNs currBucketNum key currentBucketValue)
  | .declareAnomaly timestampNs key => s.declare timestampNs key (s.tracker.declareAnomaly timestampNs key)
  | .startAlarm ref key timestampNs =>
    let (tracker, monitor) := s.tracker.startAlarm s.monitor ref key timestampNs
    { s with tracker, monitor }
  | .stopAlarm key timestampNs =>
    let (tracker, monitor, declarations) := s.tracker.stopAlarm s.monitor key timestampNs
    ⟨tracker, monitor, noteAll timestampNs declarations s.declared⟩
  | .cancelAllAlarms =>
    let (tracker, monitor) := s.tracker.cancelAllAlarms s.monitor
    { s with tracker, monitor }
  | .informAlarmsFired timestampNs firedAlarms =>
    let r := s.tracker.informAlarmsFired timestampNs firedAlarms
    { s with tracker := r.tracker, declared := noteAll timestampNs r.declarations s.declared }

end TrackerRun

/-- The time at which a call may declare. -/
def TrackerCall.timestampNs : TrackerCall K → Option Int
  | detectAndDeclareAnomaly timestampNs _ _ _ | declareAnomaly timestampNs _ | stopAlarm _ timestampNs
  | informAlarmsFired timestampNs _ => some timestampNs
  | _ => none

/-- The end of a refractory period that starts with the call fits 32 bits. -/
def TrackerCall.Fits (R : Int) (call : TrackerCall K) : Prop := ∀ t, call.timestampNs = some t → ceilSec t + R < 2 ^ 32

/-- The times of the anomalies declared for a key, the latest first. -/
def timesOf (key : K) (declared : List (Int × K)) : List Int := (declared.filter fun d => decide (d.2 = key)).map (·.1)

/-- Of two successive anomalies of one key, the second comes when the refractory period of the first is over. -/
def RefractoryRespected (R : Int) (declared : List (Int × K)) : Prop :=
  ∀ key, (timesOf key declared).IsChain fun t2 t1 => (ceilSec t1 + R) * NS_PER_SEC ≤ t2

/-! ## The window leaves the periods alone -/

/-- The alert and the ends of the refractory periods are the same. -/
def SamePeriods (t t' : AnomalyTracker K) : Prop :=
  t'.mAlert = t.mAlert ∧ t'.mRefractoryPeriodEndsSec = t.mRefractoryPeriodEndsSec

namespace AnomalyTracker

variable (t : AnomalyTracker K)

theorem advance_periods (bucketNum : Int) : SamePeriods t (t.advanceMostRecentBucketTo bucketNum) := by
  unfold advanceMostRecentBucketTo
  split
  · exact ⟨rfl, rfl⟩
  · split
    · exact ⟨rfl, rfl⟩
    · split
      · exact ⟨rfl, rfl⟩
      · dsimp only
        have hfold : ∀ (l : List Nat) (u : AnomalyTracker K), SamePeriods t u →
            SamePeriods t (l.foldl (fun u (j : Nat) => u.clearBucket (t.mMostRecentBucketNum + 1 + j)) u) := by
          intro l
          induction l with
          | nil => exact fun u hu => hu
          | cons j l ih => exact fun u hu => ih _ hu
        exact hfold _ t ⟨rfl, rfl⟩

theorem addPastBucket_periods (bucket : Option (DimToValMap K)) (bucketNum : Int) :
    SamePeriods t (t.addPastBucket bucket bucketNum) := by
  unfold addPastBucket
  split
  · exact ⟨rfl, rfl⟩
  · dsimp only
    split
    · exact ⟨rfl, rfl⟩
    · exact t.advance_periods bucketNum

theorem addPastBucketValue_periods (key : K) (bucketValue bucketNum : Int) :
    SamePeriods t (t.addPastBucketValue key bucketValue bucketNum) := by
  unfold addPastBucketValue
  split
  · exact ⟨rfl, rfl⟩
  · split
    · exact ⟨rfl, rfl⟩
    · exact t.addPastBucket_periods _ bucketNum

theorem detectAnomaly_periods (currentBucketNum : Int) (key : K) (currentBucketValue : Int) :
    SamePeriods t (t.detectAnomaly currentBucketNum key currentBucketValue).2 := by
  unfold detectAnomaly
  dsimp only
  split
  · exact t.advance_periods _
  · exact ⟨rfl, rfl⟩

end AnomalyTracker

/-! ## What a declaration keeps -/

/-- The periods are respected so far, and the one of the last anomaly of each key is in force until it is over. -/
structure InForce (R : Int) (t : AnomalyTracker K) (declared : List (Int × K)) : Prop where
  alert : t.mAlert.refractory_period_secs = some R
  respected : RefractoryRespected R declared
  inForce : ∀ key t1, (timesOf key declared).head? = some t1 →
    ∃ endSec, t.mRefractoryPeriodEndsSec.lookup key = some endSec ∧ ceilSec t1 + R ≤ endSec

theorem timesOf_cons (key : K) (d : Int × K) (declared : List (Int × K)) :
    timesOf key (d :: declared) = if d.2 = key then d.1 :: timesOf key declared else timesOf key declared := by
  unfold timesOf
  rw [List.filter_cons]
  by_cases h : d.2 = key <;> simp [h]

/-- The end of a period, rounded as the tracker does it: the division rounds towards zero, which is up for
negative times. -/
theorem ceilSec_le (t : Int) : ceilSec t ≤ (t + NS_PER_SEC - 1).tdiv NS_PER_SEC ∧
    ((t + NS_PER_SEC - 1).tdiv NS_PER_SEC ≤ ceilSec t ∨ (t + NS_PER_SEC - 1).tdiv NS_PER_SEC ≤ 0) := by
  unfold ceilSec NS_PER_SEC
  rw [Int.tdiv_eq_ediv, show Int.sign 1000000000 = 1 from rfl]
  split <;> omega

variable {R : Int} {t : AnomalyTracker K} {declared : List (Int × K)}

theorem InForce.same (h : InForce R t declared) {t' : AnomalyTracker K} (hs : SamePeriods t t') : InForce R t' declared :=
  ⟨hs.1 ▸ h.alert, h.respected, fun key t1 ht1 => hs.2 ▸ h.inForce key t1 ht1⟩

theorem InForce.declareAnomaly (h : InForce R t declared) (hR : R < 2 ^ 31) {ts : Int} (hfits : ceilSec ts + R < 2 ^ 32) (key : K) :
    InForce R (t.declareAnomaly ts key).2 (if (t.declareAnomaly ts key).1 then (ts, key) :: declared else declared) := by
  unfold AnomalyTracker.declareAnomaly
  split
  · exact h
  · rename_i hover
    rw [h.alert]
    dsimp only
    rw [if_pos rfl]
    refine ⟨h.alert, fun key' => ?_, fun key' t1 ht1 => ?_⟩
    · rw [timesOf_cons]
      split
      · rename_i hkey
        subst hkey
        refine List.isChain_cons.2 ⟨fun t1 ht1 => ?_, h.respected _⟩
        obtain ⟨endSec, hlook, hle⟩ := h.inForce _ t1 ht1
        simp only [AnomalyTracker.isInRefractoryPeriod, hlook, decide_eq_true_eq, not_lt] at hover
        have hmul : (ceilSec t1 + R) * NS_PER_SEC ≤ endSec * NS_PER_SEC := Int.mul_le_mul_of_nonneg_right hle (by decide)
        exact hmul.trans hover
      · exact h.respected key'
    · rw [timesOf_cons] at ht1
      rw [UMap.lookup_insert']
      by_cases hkey : key = key'
      · rw [if_pos hkey] at ht1
        cases ht1
        refine ⟨_, if_pos hkey.symm, ?_⟩
        -- a sum below zero wraps to a later end
        obtain ⟨hceil, hsec⟩ := ceilSec_le ts
        have hwrap := Int.emod_nonneg ((ts + NS_PER_SEC - 1).tdiv NS_PER_SEC + R) (by decide : (2 ^ 32 : Int) ≠ 0)
        rw [Int.toNat_of_nonneg hwrap]
        dsimp only
        omega
      · rw [if_neg hkey] at ht1
        rw [if_neg fun he => hkey he.symm]
        exact h.inForce key' t1 ht1

theorem InForce.detectAndDeclareAnomaly (h : InForce R t declared) (hR : R < 2 ^ 31) {ts : Int} (hfits : ceilSec ts + R < 2 ^ 32)
    (num : Int) (key : K) (value : Int) : InForce R (t.detectAndDeclareAnomaly ts num key value).2
      (if (t.detectAndDeclareAnomaly ts num key value).1 then (ts, key) :: declared else declared) := by
  have hdetect := h.same (t.detectAnomaly_periods num key value)
  unfold AnomalyTracker.detectAndDeclareAnomaly
  dsimp only
  split
  · exact hdetect.declareAnomaly hR hfits key
  · exact hdetect

/-! ## The alarms -/

theorem noteAll_append (ts : Int) (l l' : List (Declaration K)) (declared : List (Int × K)) :
    noteAll ts (l ++ l') declared = noteAll ts l' (noteAll ts l declared) := List.foldl_append

theorem InForce.declareAlarm {t : DurationAnomalyTracker K} (h : InForce R t.toAnomalyTracker declared) (hR : R < 2 ^ 31) {ts : Int}
    (hfits : ceilSec ts + R < 2 ^ 32) (key : K) (alarm : InternalAlarm) :
    InForce R (t.declareAlarm ts key alarm).1.toAnomalyTracker (noteAll ts [(t.declareAlarm ts key alarm).2] declared) :=
  (h.declareAnomaly hR hfits key).same ⟨rfl, rfl⟩

theorem InForce.fire {ts : Int} (hR : R < 2 ^ 31) (hfits : ceilSec ts + R < 2 ^ 32)
    (l : List (Sigma fun _ : K => InternalAlarm)) {r : DurationAnomalyTracker.Informed K}
    (h : InForce R r.tracker.toAnomalyTracker (noteAll ts r.declarations declared)) :
    InForce R (l.foldl (DurationAnomalyTracker.Informed.fire ts) r).tracker.toAnomalyTracker
      (noteAll ts (l.foldl (DurationAnomalyTracker.Informed.fire ts) r).declarations declared) := by
  induction l generalizing r with
  | nil => exact h
  | cons kv l ih =>
    refine ih ?_
    unfold DurationAnomalyTracker.Informed.fire
    dsimp only
    rw [noteAll_append]
    exact (h.declareAlarm hR hfits kv.1 kv.2).same ⟨rfl, rfl⟩

/-! ## Runs -/

theorem InForce.step {s : TrackerRun K} (h : InForce R s.tracker.toAnomalyTracker s.declared) (hR : R < 2 ^ 31) (call : TrackerCall K)
    (hfits : call.Fits R) : InForce R (s.step call).tracker.toAnomalyTracker (s.step call).declared := by
  cases call with
  | addPastBucket bucket bucketNum => exact h.same (AnomalyTracker.addPastBucket_periods ..)
  | addPastBucketValue key bucketValue bucketNum => exact h.same (AnomalyTracker.addPastBucketValue_periods ..)
  | detectAnomaly currentBucketNum key currentBucketValue => exact h.same (AnomalyTracker.detectAnomaly_periods _ _ key currentBucketValue)
  | detectAndDeclareAnomaly timestampNs currBucketNum key currentBucketValue =>
    exact h.detectAndDeclareAnomaly hR (hfits timestampNs rfl) currBucketNum key currentBucketValue
  | declareAnomaly timestampNs key => exact h.declareAnomaly hR (hfits timestampNs rfl) key
  | startAlarm ref key timestampNs =>
    refine h.same ?_
    show SamePeriods _ (s.tracker.startAlarm s.monitor ref key timestampNs).1.toAnomalyTracker
    unfold DurationAnomalyTracker.startAlarm
    dsimp only
    split <;> exact ⟨rfl, rfl⟩
  | stopAlarm key timestampNs =>
    show InForce R (s.tracker.stopAlarm s.monitor key timestampNs).1.toAnomalyTracker
      (noteAll timestampNs (s.tracker.stopAlarm s.monitor key timestampNs).2.2 s.declared)
    unfold DurationAnomalyTracker.stopAlarm
    split
    · exact h
    · rename_i alarm halarm
      dsimp only
      split
      · exact (h.declareAlarm hR (hfits timestampNs rfl) key alarm).same ⟨rfl, rfl⟩
      · exact h.same ⟨rfl, rfl⟩
  | cancelAllAlarms => exact h.same ⟨rfl, rfl⟩
  | informAlarmsFired timestampNs firedAlarms =>
    show InForce R (s.tracker.informAlarmsFired timestampNs firedAlarms).tracker.toAnomalyTracker
      (noteAll timestampNs (s.tracker.informAlarmsFired timestampNs firedAlarms).declarations s.declared)
    unfold DurationAnomalyTracker.informAlarmsFired
    split
    · exact h
    · exact InForce.fire hR (hfits timestampNs rfl) _ h

theorem InForce.run (hR : R < 2 ^ 31) (calls : List (TrackerCall K)) (hfits : ∀ call ∈ calls, call.Fits R) {s : TrackerRun K}
    (h : InForce R s.tracker.toAnomalyTracker s.declared) :
    InForce R (calls.foldl TrackerRun.step s).tracker.toAnomalyTracker (calls.foldl TrackerRun.step s).declared := by
  induction calls generalizing s with
  | nil => exact h
  | cons call calls ih =>
    exact ih (fun c hc => hfits c (List.mem_cons_of_mem _ hc)) (h.step hR call (hfits call List.mem_cons_self))

end

end Statsd.Anomaly
