/-
The alarm of a MAX tracker follows its longest running key. Between two calls all running durations grow alike, so the time
at which the longest one reaches the threshold stays the same; each call that changes the running keys sets the alarm again
to that time, or to the end of the refractory period if that is later. A pause or a stop declares an alarm that is due.
-/
import Statsd.Anomaly.AlarmDelivery
import Statsd.Anomaly.Refractory
import Statsd.Metrics.MaxDurationAlarms

namespace Statsd.Metrics

open Anomaly
open OringDurationTracker (TrackerOp)

/-- The accumulated duration of a started key. -/
def DurationInfo.elapsed (d : DurationInfo) (time : Int) : Int := d.lastDuration + (time - d.lastStartTime)

namespace MaxDurationTracker

/-- The key is started, with a duration up to the time. -/
def RunsFor (t : MaxDurationTracker) (time : Int) (k : HashableDimensionKey) (elapsed : Int) : Prop :=
  ∃ d, t.mInfos.lookup k = some d ∧ d.state = .kStarted ∧ d.elapsed time = elapsed

/-- The durations of the started keys. -/
def running (t : MaxDurationTracker) (time : Int) : Set Int := {elapsed | ∃ k, t.RunsFor time k elapsed}

end MaxDurationTracker

namespace MaxAlarms

/-- The alarm of the tracker. -/
def armed (x : MaxAlarms) : Option InternalAlarm := x.anomalyTracker.mAlarms.lookup x.tracker.mEventKey

def refractoryEndNs (x : MaxAlarms) : Int := x.anomalyTracker.getRefractoryPeriodEndsSec x.tracker.mEventKey * NS_PER_SEC

/-- When the alarm is to be if the longest running duration is `longest` at a time. -/
def alarmTimeNs (x : MaxAlarms) (time longest : Int) : Int :=
  max (time + x.anomalyTracker.getAnomalyThreshold - longest) x.refractoryEndNs

/-- While a key is started the alarm is in the monitor, besides what was queued before, for the second after its time;
otherwise there is none. -/
structure TracksLongest (queued : Set InternalAlarm) (x : MaxAlarms) : Prop where
  running : ∀ time longest, IsGreatest (x.tracker.running time) longest → ∃ a, x.armed = some a ∧
    x.monitor.mPq.elems = insert a queued ∧ (a.timestampSec.toNat : Int) = ceilSec (x.alarmTimeNs time longest)
  idle : ∀ time, x.tracker.running time = ∅ → x.armed = none ∧ x.monitor.mPq.elems = queued

/-- The second of the alarm is one of 32 bits. -/
def AlarmFits (x : MaxAlarms) : Prop :=
  ∀ time longest, IsGreatest (x.tracker.running time) longest → ceilSec (x.alarmTimeNs time longest) < 2 ^ 32

/-- An anomaly of the tracker's key was declared between two states. -/
def Declared (x x' : MaxAlarms) : Prop :=
  ∃ d ∈ x'.declarations.drop x.declarations.length, d.key = x.tracker.mEventKey ∧ d.declared = true

end MaxAlarms

/-- The alarms at the time of the last call. -/
structure AlarmRun where
  now : Int
  alarms : MaxAlarms

namespace AlarmRun

def step (r : AlarmRun) (e : MaxEvent) : AlarmRun := ⟨e.time, r.alarms.apply e.time e.op⟩

/-- A started key is stopped or paused by the call. -/
def Leaves (r : AlarmRun) (e : MaxEvent) : Prop :=
  ∃ k elapsed, r.alarms.tracker.RunsFor e.time k elapsed ∧ ∀ elapsed', ¬ (r.step e).alarms.tracker.RunsFor e.time k elapsed'

/-- An alarm that is due when a started key is stopped or paused is declared by the call. -/
def DeclaresDue (r : AlarmRun) (e : MaxEvent) : Prop :=
  r.Leaves e → ∀ a, r.alarms.armed = some a → a.timestampSec.toNat * NS_PER_SEC ≤ e.time → r.alarms.Declared (r.step e).alarms

end AlarmRun

/-! ## Running durations -/

/-- An entry is within the times of the run so far. -/
structure DurationInfo.Within (now : Int) (d : DurationInfo) : Prop where
  nonneg : 0 ≤ d.lastDuration
  since : d.state = .kStarted → d.lastDuration ≤ d.lastStartTime ∧ d.lastStartTime ≤ now
  ended : d.state ≠ .kStarted → d.lastDuration ≤ now

namespace DurationInfo.Within

variable {now : Int} {d : DurationInfo} (h : d.Within now)
include h

theorem mono {now' : Int} (hle : now ≤ now') : d.Within now' :=
  ⟨h.nonneg, fun hs => ⟨(h.since hs).1, (h.since hs).2.trans hle⟩, fun hs => (h.ended hs).trans hle⟩

theorem elapsed (hs : d.state = .kStarted) : 0 ≤ d.elapsed now ∧ d.elapsed now ≤ now := by
  have h0 := h.nonneg
  have hsince := h.since hs
  unfold DurationInfo.elapsed
  omega

end DurationInfo.Within

namespace MaxDurationTracker

variable {t t' : MaxDurationTracker} {now time time' longest : Int}

theorem runsFor_shift {k : HashableDimensionKey} {elapsed : Int} (h : t.RunsFor time k elapsed) (time' : Int) :
    t.RunsFor time' k (elapsed + (time' - time)) := by
  obtain ⟨d, hd, hs, rfl⟩ := h
  refine ⟨d, hd, hs, ?_⟩
  unfold DurationInfo.elapsed
  omega

theorem longest_shift (h : IsGreatest (t.running time) longest) (time' : Int) :
    IsGreatest (t.running time') (longest + (time' - time)) := by
  obtain ⟨⟨k, hk⟩, hupper⟩ := h
  refine ⟨⟨k, runsFor_shift hk time'⟩, ?_⟩
  rintro elapsed ⟨k', hk'⟩
  have hle := hupper ⟨k', runsFor_shift hk' time⟩
  omega

theorem running_eq_of_runsFor (h : ∀ k elapsed, t'.RunsFor time k elapsed ↔ t.RunsFor time k elapsed) :
    t'.running time = t.running time := by
  ext elapsed
  exact exists_congr fun k => h k elapsed

theorem foldl_raiseElapsed (time : Int) (l : List (Sigma fun _ : HashableDimensionKey => DurationInfo)) (m : Int) :
    m ≤ l.foldl (fun m it => raiseElapsed time m it.2) m ∧
    (∀ it ∈ l, it.2.state = .kStarted → it.2.elapsed time ≤ l.foldl (fun m it => raiseElapsed time m it.2) m) ∧
    (l.foldl (fun m it => raiseElapsed time m it.2) m = m ∨
      ∃ it ∈ l, it.2.state = .kStarted ∧ it.2.elapsed time = l.foldl (fun m it => raiseElapsed time m it.2) m) := by
  induction l generalizing m with
  | nil => exact ⟨le_refl m, nofun, .inl rfl⟩
  | cons it l ih =>
    rw [List.foldl_cons]
    obtain ⟨hlow, hupper, hreached⟩ := ih (raiseElapsed time m it.2)
    generalize l.foldl (fun m it => raiseElapsed time m it.2) (raiseElapsed time m it.2) = r at hlow hupper hreached
    have hraise : m ≤ raiseElapsed time m it.2 ∧ (it.2.state = .kStarted → it.2.elapsed time ≤ raiseElapsed time m it.2) ∧
        (raiseElapsed time m it.2 = m ∨ it.2.state = .kStarted ∧ it.2.elapsed time = raiseElapsed time m it.2) := by
      unfold raiseElapsed DurationInfo.elapsed
      by_cases hs : it.2.state = .kStarted
      · simp only [hs, if_true]
        split
        · exact ⟨by omega, fun _ => le_refl _, .inr ⟨trivial, rfl⟩⟩
        · exact ⟨le_refl m, fun _ => by omega, .inl rfl⟩
      · simp only [hs, if_false]
        exact ⟨le_refl m, nofun, .inl trivial⟩
    refine ⟨hraise.1.trans hlow, ?_, ?_⟩
    · intro it' hit'
      rcases List.mem_cons.1 hit' with rfl | hmem
      · exact fun hs => (hraise.2.1 hs).trans hlow
      · exact hupper it' hmem
    · rcases hreached with rfl | ⟨it', hit', hs, he⟩
      · rcases hraise.2.2 with heq | ⟨hs, he⟩
        · exact .inl heq
        · exact .inr ⟨it, List.mem_cons_self, hs, he⟩
      · exact .inr ⟨it', List.mem_cons_of_mem _ hit', hs, he⟩

theorem runsFor_iff_mem {k : HashableDimensionKey} {elapsed : Int} : t.RunsFor time k elapsed ↔
    ∃ d, (⟨k, d⟩ : Sigma fun _ => DurationInfo) ∈ t.mInfos.entries ∧ d.state = .kStarted ∧ d.elapsed time = elapsed :=
  exists_congr fun _ => and_congr_left fun _ => AList.mem_lookup_iff

variable (hwithin : ∀ k d, t.mInfos.lookup k = some d → d.Within now)
include hwithin

theorem isGreatest_maxElapsed (hrunning : (t.running now).Nonempty) :
    IsGreatest (t.running now) (t.mInfos.entries.foldl (fun m it => raiseElapsed now m it.2) 0) := by
  obtain ⟨hlow, hupper, hreached⟩ := foldl_raiseElapsed now t.mInfos.entries 0
  generalize t.mInfos.entries.foldl (fun m it => raiseElapsed now m it.2) 0 = r at hlow hupper hreached
  have hle : ∀ elapsed ∈ t.running now, elapsed ≤ r := by
    rintro elapsed ⟨k, hk⟩
    obtain ⟨d, hd, hs, rfl⟩ := runsFor_iff_mem.1 hk
    exact hupper _ hd hs
  refine ⟨?_, hle⟩
  rcases hreached with rfl | ⟨it, hit, hs, he⟩
  · -- all durations are zero
    obtain ⟨elapsed, k, d, hd, hs, rfl⟩ := hrunning
    have h0 := ((hwithin k d hd).elapsed hs).1
    have hle0 := hle _ ⟨k, d, hd, hs, rfl⟩
    exact ⟨k, d, hd, hs, le_antisymm hle0 h0⟩
  · exact ⟨it.1, runsFor_iff_mem.2 ⟨it.2, hit, hs, he⟩⟩

theorem longest_within (h : IsGreatest (t.running now) longest) : 0 ≤ longest ∧ longest ≤ now := by
  obtain ⟨⟨k, d, hd, hs, rfl⟩, -⟩ := h
  exact (hwithin k d hd).elapsed hs

end MaxDurationTracker

/-! ## The alarm -/

theorem toNat_alarmSec {ns : Int} (hpos : 0 < ns) :
    0 < ceilSec ns ∧ ((DurationAnomalyTracker.alarmSec ns).toNat : Int) = ceilSec ns % 2 ^ 32 := by
  have hsec : ceilSec ns = (ns - 1).tdiv NS_PER_SEC + 1 := by
    rw [Int.tdiv_eq_ediv_of_nonneg (by omega)]
    unfold ceilSec NS_PER_SEC
    omega
  have hlow : 0 ≤ (ns - 1).tdiv NS_PER_SEC := Int.tdiv_nonneg (by omega) (by decide)
  rw [hsec]
  refine ⟨by omega, ?_⟩
  unfold DurationAnomalyTracker.alarmSec
  rw [UInt32.toNat_add, UInt32.toNat_ofNat', show (1 : UInt32).toNat = 1 from rfl]
  omega

theorem ceilSec_mono {a b : Int} (h : a ≤ b) : ceilSec a ≤ ceilSec b := by
  unfold ceilSec NS_PER_SEC
  omega

theorem le_ceilSec (a : Int) : a ≤ ceilSec a * NS_PER_SEC := by
  unfold ceilSec NS_PER_SEC
  omega

namespace MaxAlarms

variable {queued : Set InternalAlarm} {now time longest : Int} {x x' : MaxAlarms}

/-- The queue of the monitor has the alarm of the tracker and what was queued before. -/
structure Queue (queued : Set InternalAlarm) (x : MaxAlarms) : Prop where
  wf : AlarmQueue.WF x.monitor.mPq
  fresh : ∀ a ∈ queued, a.ref < x.nextRef
  queue : ∀ a, a ∈ x.monitor.mPq.elems ↔ a ∈ queued ∨ x.armed = some a ∧ ¬ a.timestampSec < 1
  own : ∀ a, x.armed = some a → a ∉ queued

/-- The entries, the queue and the threshold. -/
structure Ready (queued : Set InternalAlarm) (now : Int) (x : MaxAlarms) : Prop extends Queue queued x where
  within : ∀ k d, x.tracker.mInfos.lookup k = some d → d.Within now
  threshold : 0 < x.anomalyTracker.getAnomalyThreshold

/-- The alarm is the rounded time of the longest running key, as a second of 32 bits. -/
structure Inv (queued : Set InternalAlarm) (now : Int) (x : MaxAlarms) : Prop extends Ready queued now x where
  idle : x.tracker.running now = ∅ → x.armed = none
  running : ∀ longest, IsGreatest (x.tracker.running now) longest → ∃ a, x.armed = some a ∧
    a.timestampSec = DurationAnomalyTracker.alarmSec (x.alarmTimeNs now longest)

theorem alarmTimeNs_shift (x : MaxAlarms) (time time' longest : Int) :
    x.alarmTimeNs time' (longest + (time' - time)) = x.alarmTimeNs time longest := by
  unfold alarmTimeNs
  congr 1
  omega

theorem Ready.alarmTimeNs_pos (h : Ready queued now x) (hlongest : IsGreatest (x.tracker.running now) longest) :
    0 < x.alarmTimeNs now longest := by
  have hwithin := MaxDurationTracker.longest_within h.within hlongest
  have hthreshold := h.threshold
  refine lt_of_lt_of_le ?_ (le_max_left ..)
  omega

theorem Ready.predict_eq (h : Ready queued now x) (hlongest : IsGreatest (x.tracker.running now) longest) :
    x.tracker.predictAnomalyTimestampNs x.anomalyTracker.toAnomalyTracker now = x.alarmTimeNs now longest := by
  have hmax := MaxDurationTracker.isGreatest_maxElapsed h.within ⟨longest, hlongest.1⟩
  unfold MaxDurationTracker.predictAnomalyTimestampNs alarmTimeNs
  rw [hmax.unique hlongest]
  rfl

theorem Ready.exists_longest (h : Ready queued now x) (hrunning : (x.tracker.running now).Nonempty) :
    ∃ longest, IsGreatest (x.tracker.running now) longest :=
  ⟨_, MaxDurationTracker.isGreatest_maxElapsed h.within hrunning⟩

theorem not_refractory (h : x.refractoryEndNs ≤ time) :
    x.anomalyTracker.isInRefractoryPeriod time x.tracker.mEventKey = false := by
  unfold refractoryEndNs AnomalyTracker.getRefractoryPeriodEndsSec at h
  unfold AnomalyTracker.isInRefractoryPeriod
  cases hlook : x.anomalyTracker.mRefractoryPeriodEndsSec.lookup x.tracker.mEventKey with
  | none => rfl
  | some endSec =>
    rw [hlook] at h
    exact decide_eq_false (not_lt.2 h)

/-! ## Starting and stopping the alarm -/

theorem Ready.start (h : Ready queued now x) (hrunning : (x.tracker.running now).Nonempty) :
    Inv queued now (x.startAnomalyAlarm now) ∧
      (x.startAnomalyAlarm now).anomalyTracker.toAnomalyTracker = x.anomalyTracker.toAnomalyTracker ∧
      (x.startAnomalyAlarm now).declarations = x.declarations := by
  obtain ⟨longest, hlongest⟩ := h.exists_longest hrunning
  have hpos := h.alarmTimeNs_pos hlongest
  have hpredict := h.predict_eq hlongest
  have hstart : x.startAnomalyAlarm now =
      ⟨x.tracker.startAnomalyAlarm now,
        (x.anomalyTracker.startAlarm x.monitor x.nextRef x.tracker.mEventKey (x.alarmTimeNs now longest)).1,
        (x.anomalyTracker.startAlarm x.monitor x.nextRef x.tracker.mEventKey (x.alarmTimeNs now longest)).2,
        x.nextRef + 1, x.declarations⟩ := by
    unfold startAnomalyAlarm
    dsimp only
    rw [hpredict, if_pos hpos]
    rfl
  rw [hstart]
  generalize hnew : (⟨x.nextRef, DurationAnomalyTracker.alarmSec (x.alarmTimeNs now longest)⟩ : InternalAlarm) = new
  rcases x.anomalyTracker.startAlarm_spec h.wf x.nextRef x.tracker.mEventKey (x.alarmTimeNs now longest) with
    ⟨href, -⟩ | ⟨hlookup, hwf, hqueue⟩
  · rw [not_refractory (show x.refractoryEndNs ≤ x.alarmTimeNs now longest from le_max_right ..)] at href
    cases href
  · rw [hnew] at hlookup hqueue
    have hsame := x.anomalyTracker.startAlarm_toAnomalyTracker x.monitor x.nextRef x.tracker.mEventKey (x.alarmTimeNs now longest)
    generalize x.anomalyTracker.startAlarm x.monitor x.nextRef x.tracker.mEventKey (x.alarmTimeNs now longest) = r
      at hlookup hwf hqueue hsame
    have harmed : r.1.mAlarms.lookup x.tracker.mEventKey = some new := by rw [hlookup, if_pos rfl]
    have hsec : DurationAnomalyTracker.alarmSec (x.alarmTimeNs now longest) = new.timestampSec := by rw [← hnew]
    refine ⟨⟨⟨⟨hwf, fun a ha => Nat.lt_succ_of_lt (h.fresh a ha), fun a => ?_, fun a ha hmem => ?_⟩, h.within, ?_⟩, ?_, ?_⟩, hsame, rfl⟩
    · change a ∈ r.2.mPq.elems ↔ a ∈ queued ∨ r.1.mAlarms.lookup x.tracker.mEventKey = some a ∧ ¬ a.timestampSec < 1
      rw [hqueue, harmed, h.queue, hsec, Option.some_inj]
      constructor
      · rintro (⟨rfl, hone⟩ | ⟨hmem | ⟨hown, -⟩, hne⟩)
        · exact .inr ⟨rfl, hone⟩
        · exact .inl hmem
        · exact absurd hown hne
      · rintro (hmem | ⟨rfl, hone⟩)
        · exact .inr ⟨.inl hmem, fun hown => h.own a hown hmem⟩
        · exact .inl ⟨rfl, hone⟩
    · have hnewa : new = a := Option.some.inj (harmed.symm.trans ha)
      have hlt := h.fresh a hmem
      rw [← hnewa, ← hnew] at hlt
      exact lt_irrefl _ hlt
    · change 0 < AnomalyTracker.getAnomalyThreshold r.1.toAnomalyTracker
      rw [hsame]
      exact h.threshold
    · intro hnone
      change x.tracker.running now = ∅ at hnone
      rw [hnone] at hrunning
      exact absurd hrunning Set.not_nonempty_empty
    · intro longest' hlongest'
      refine ⟨new, harmed, ?_⟩
      rw [← hsec, hlongest.unique hlongest']
      unfold alarmTimeNs refractoryEndNs
      dsimp only
      rw [hsame]
      rfl

theorem Ready.stop (h : Ready queued now x) :
    Ready queued now (x.stopAnomalyAlarm now) ∧ (x.stopAnomalyAlarm now).armed = none := by
  obtain ⟨hlookup, hwf, hqueue, -⟩ := x.anomalyTracker.stopAlarm_spec h.wf x.tracker.mEventKey now
  have halert := x.anomalyTracker.stopAlarm_mAlert x.monitor x.tracker.mEventKey now
  have hnone : (x.stopAnomalyAlarm now).armed = none := (hlookup _).trans (if_pos rfl)
  refine ⟨⟨⟨hwf, h.fresh, fun a => ?_, fun a ha => ?_⟩, h.within, ?_⟩, hnone⟩
  · rw [hnone]
    change a ∈ (x.anomalyTracker.stopAlarm x.monitor x.tracker.mEventKey now).2.1.mPq.elems ↔ _
    rw [hqueue, h.queue]
    constructor
    · rintro ⟨hmem | ⟨hown, -⟩, hne⟩
      · exact .inl hmem
      · exact absurd hown hne
    · rintro (hmem | ⟨hown, -⟩)
      · exact ⟨.inl hmem, fun hown => h.own a hown hmem⟩
      · cases hown
  · rw [hnone] at ha
    cases ha
  · change 0 < AnomalyTracker.getAnomalyThreshold (x.anomalyTracker.stopAlarm x.monitor x.tracker.mEventKey now).1.toAnomalyTracker
    unfold AnomalyTracker.getAnomalyThreshold
    rw [halert]
    exact h.threshold

theorem anyStarted_iff (t : MaxDurationTracker) (time : Int) : t.anyStarted = true ↔ (t.running time).Nonempty := by
  unfold MaxDurationTracker.anyStarted
  rw [List.any_eq_true]
  constructor
  · rintro ⟨it, hit, hs⟩
    exact ⟨_, it.1, MaxDurationTracker.runsFor_iff_mem.2 ⟨it.2, hit, of_decide_eq_true hs, rfl⟩⟩
  · rintro ⟨elapsed, k, hk⟩
    obtain ⟨d, hd, hs, -⟩ := MaxDurationTracker.runsFor_iff_mem.1 hk
    exact ⟨_, hd, decide_eq_true hs⟩

theorem Ready.restart (h : Ready queued now x) (hnone : x.armed = none) :
    Inv queued now (x.restartAlarm now) ∧ (x.restartAlarm now).declarations = x.declarations := by
  unfold restartAlarm
  by_cases hany : x.tracker.anyStarted = true
  · rw [if_pos hany]
    obtain ⟨hinv, -, hdeclarations⟩ := h.start ((anyStarted_iff _ now).1 hany)
    exact ⟨hinv, hdeclarations⟩
  · rw [if_neg hany]
    refine ⟨⟨h, fun _ => hnone, fun longest hlongest => ?_⟩, rfl⟩
    exact absurd ((anyStarted_iff _ now).2 ⟨longest, hlongest.1⟩) hany

/-! ## What a call does -/

/-- The started keys stay started with their durations, and so do the threshold and the refractory period. -/
structure Kept (now : Int) (x x' : MaxAlarms) : Prop where
  runs : ∀ k elapsed, x.tracker.RunsFor now k elapsed → x'.tracker.RunsFor now k elapsed
  base : x'.anomalyTracker.toAnomalyTracker = x.anomalyTracker.toAnomalyTracker

/-- The time of the alarm is over. -/
def Due (now : Int) (x : MaxAlarms) : Prop :=
  ∃ longest, IsGreatest (x.tracker.running now) longest ∧ ceilSec (x.alarmTimeNs now longest) * NS_PER_SEC ≤ now

/-- All started keys stay started, or an alarm that was due is declared. -/
structure Moves (now : Int) (x x' : MaxAlarms) : Prop where
  eventKey : x'.tracker.mEventKey = x.tracker.mEventKey
  grows : x.declarations <+: x'.declarations
  kept : Kept now x x' ∨ (Due now x → x.Declared x')

theorem Moves.refl (now : Int) (x : MaxAlarms) : Moves now x x :=
  ⟨rfl, List.prefix_rfl, .inl ⟨fun _ _ h => h, rfl⟩⟩

theorem Due.kept (h : Due now x) {queued : Set InternalAlarm} (hkept : Kept now x x') (hkey : x'.tracker.mEventKey = x.tracker.mEventKey)
    (hready : Ready queued now x') : Due now x' := by
  obtain ⟨longest, ⟨⟨k, hk⟩, -⟩, hdue⟩ := h
  obtain ⟨longest', hlongest'⟩ := hready.exists_longest ⟨longest, k, hkept.runs k longest hk⟩
  have hle : longest ≤ longest' := hlongest'.2 ⟨k, hkept.runs k longest hk⟩
  refine ⟨longest', hlongest', le_trans (Int.mul_le_mul_of_nonneg_right (ceilSec_mono ?_) (by decide)) hdue⟩
  unfold alarmTimeNs refractoryEndNs
  rw [hkept.base, hkey]
  exact max_le_max_right _ (by omega)

theorem Declared.mono {x'' : MaxAlarms} (h : x.Declared x') (hgrows : x'.declarations <+: x''.declarations) : x.Declared x'' := by
  obtain ⟨d, hd, hdeclared⟩ := h
  obtain ⟨new, hnew⟩ := hgrows
  refine ⟨d, ?_, hdeclared⟩
  rw [← hnew, List.drop_append]
  exact List.mem_append_left _ hd

theorem Moves.trans {x'' : MaxAlarms} (h : Moves now x x') (hready : Ready queued now x') (h' : Moves now x' x'') : Moves now x x'' := by
  refine ⟨h'.eventKey.trans h.eventKey, h.grows.trans h'.grows, ?_⟩
  rcases h.kept with hkept | hdeclared
  · rcases h'.kept with hkept' | hdeclared'
    · exact .inl ⟨fun k elapsed hk => hkept'.runs k elapsed (hkept.runs k elapsed hk), hkept'.base.trans hkept.base⟩
    · refine .inr fun hdue => ?_
      obtain ⟨d, hd, hkey, hdeclared⟩ := hdeclared' (hdue.kept hkept h.eventKey hready)
      exact ⟨d, List.drop_subset_drop_left _ h.grows.length_le hd, hkey.trans h.eventKey, hdeclared⟩
  · exact .inr fun hdue => (hdeclared hdue).mono h'.grows

/-- The state after a call at its time. -/
structure Stepped (queued : Set InternalAlarm) (now : Int) (x x' : MaxAlarms) : Prop where
  inv : Inv queued now x'
  moves : Moves now x x'

def Steps (queued : Set InternalAlarm) (now : Int) (f : MaxAlarms → MaxAlarms) : Prop :=
  ∀ x, Inv queued now x → Stepped queued now x (f x)

theorem Inv.refl (h : Inv queued now x) : Stepped queued now x x := ⟨h, .refl now x⟩

theorem Ready.update (h : Ready queued now x) {f : MaxDurationTracker → MaxDurationTracker}
    (hkey : (f x.tracker).mEventKey = x.tracker.mEventKey)
    (hwithin : ∀ k d, (f x.tracker).mInfos.lookup k = some d → d.Within now) : Ready queued now (x.update f) := by
  have harmed : (x.update f).armed = x.armed := congrArg x.anomalyTracker.mAlarms.lookup hkey
  refine ⟨⟨h.wf, h.fresh, fun a => ?_, fun a ha => h.own a (harmed ▸ ha)⟩, hwithin, h.threshold⟩
  rw [harmed]
  exact h.queue a

theorem Inv.update (h : Inv queued now x) {f : MaxDurationTracker → MaxDurationTracker}
    (hkey : (f x.tracker).mEventKey = x.tracker.mEventKey)
    (hwithin : ∀ k d, (f x.tracker).mInfos.lookup k = some d → d.Within now)
    (hruns : ∀ k elapsed, (f x.tracker).RunsFor now k elapsed ↔ x.tracker.RunsFor now k elapsed) :
    Stepped queued now x (x.update f) := by
  have harmed : (x.update f).armed = x.armed := congrArg x.anomalyTracker.mAlarms.lookup hkey
  have hrunning : (x.update f).tracker.running now = x.tracker.running now := MaxDurationTracker.running_eq_of_runsFor hruns
  refine ⟨⟨h.toReady.update hkey hwithin, fun hidle => ?_, fun longest hlongest => ?_⟩,
    hkey, List.prefix_rfl, .inl ⟨fun k elapsed => (hruns k elapsed).2, rfl⟩⟩
  · rw [harmed]
    exact h.idle (hrunning ▸ hidle)
  · rw [hrunning] at hlongest
    rw [harmed]
    have htime : (x.update f).alarmTimeNs now longest = x.alarmTimeNs now longest := by
      unfold alarmTimeNs refractoryEndNs
      rw [show (x.update f).tracker.mEventKey = x.tracker.mEventKey from hkey]
      rfl
    rw [htime]
    exact h.running longest hlongest

/-! ## One key -/

section

variable (h : Inv queued now x) (key : HashableDimensionKey) {d : DurationInfo} (hd : d.Within now)

theorem lookup_setInfo (t : MaxDurationTracker) (key k : HashableDimensionKey) (d : DurationInfo) :
    (t.setInfo key d).mInfos.lookup k = if k = key then some d else t.mInfos.lookup k := UMap.lookup_insert' ..

theorem runsFor_setInfo (t : MaxDurationTracker) (key k : HashableDimensionKey) (d : DurationInfo) (time elapsed : Int) :
    (t.setInfo key d).RunsFor time k elapsed ↔
      if k = key then d.state = .kStarted ∧ d.elapsed time = elapsed else t.RunsFor time k elapsed := by
  unfold MaxDurationTracker.RunsFor
  simp only [lookup_setInfo]
  split
  · constructor
    · rintro ⟨d', hd', hruns⟩
      cases hd'
      exact hruns
    · exact fun hruns => ⟨d, rfl, hruns⟩
  · exact Iff.rfl

include h hd

theorem within_setInfo (k : HashableDimensionKey) (d' : DurationInfo) (hd' : (x.tracker.setInfo key d).mInfos.lookup k = some d') :
    d'.Within now := by
  rw [lookup_setInfo] at hd'
  split at hd'
  · cases hd'
    exact hd
  · exact h.within k d' hd'

theorem Inv.setInfo (hsame : ∀ elapsed, x.tracker.RunsFor now key elapsed ↔ d.state = .kStarted ∧ d.elapsed now = elapsed) :
    Stepped queued now x (x.update (·.setInfo key d)) := by
  refine h.update rfl (within_setInfo h key hd) fun k elapsed => ?_
  rw [runsFor_setInfo]
  split
  · rename_i hk
    rw [hk, hsame]
  · exact Iff.rfl

theorem Inv.enter (hs : d.state = .kStarted) (hnot : ∀ elapsed, ¬ x.tracker.RunsFor now key elapsed) :
    Stepped queued now x ((x.update (·.setInfo key d)).startAnomalyAlarm now) := by
  have hready : Ready queued now (x.update (·.setInfo key d)) := h.toReady.update rfl (within_setInfo h key hd)
  have hruns : (x.tracker.setInfo key d).RunsFor now key (d.elapsed now) := (runsFor_setInfo ..).2 (by rw [if_pos rfl]; exact ⟨hs, rfl⟩)
  obtain ⟨hinv, hbase, hdeclarations⟩ := hready.start ⟨_, key, hruns⟩
  refine ⟨hinv, by rw [startAnomalyAlarm_tracker]; rfl, by rw [hdeclarations]; exact List.prefix_rfl, .inl ⟨fun k elapsed hk => ?_, hbase⟩⟩
  rw [startAnomalyAlarm_tracker]
  refine (runsFor_setInfo x.tracker key k d now elapsed).2 ?_
  split
  · rename_i hkey
    rw [hkey] at hk
    exact absurd hk (hnot elapsed)
  · exact hk

theorem Inv.leave (hs : d.state ≠ .kStarted) :
    Stepped queued now x (((x.stopAnomalyAlarm now).update (·.setInfo key d)).restartAlarm now) := by
  obtain ⟨hstopped, hnone⟩ := h.toReady.stop
  have hready : Ready queued now ((x.stopAnomalyAlarm now).update (·.setInfo key d)) := hstopped.update rfl (within_setInfo h key hd)
  obtain ⟨hinv, hdeclarations⟩ := hready.restart hnone
  refine ⟨hinv, ?_, ?_, .inr ?_⟩
  · rw [restartAlarm_tracker]
    exact (MaxDurationTracker.sameBucket_restartAlarm _ now).eventKey
  · rw [hdeclarations]
    exact List.prefix_append ..
  · rintro ⟨longest, hlongest, hdue⟩
    obtain ⟨a, ha, hsec⟩ := h.running longest hlongest
    have hpos := h.toReady.alarmTimeNs_pos hlongest
    obtain ⟨hceil, htoNat⟩ := toNat_alarmSec hpos
    -- wrapped or not, the second of the alarm is over, and so is the refractory period
    have hover : NS_PER_SEC * (a.timestampSec.toNat : Int) ≤ now := by
      rw [hsec, htoNat, mul_comm]
      exact le_trans (Int.mul_le_mul_of_nonneg_right (by omega) (by decide)) hdue
    have hdeclares := x.anomalyTracker.stopAlarm_due x.monitor ha hover
      (not_refractory ((le_max_right ..).trans ((le_ceilSec (x.alarmTimeNs now longest)).trans hdue)))
    refine ⟨⟨x.tracker.mEventKey, a, true⟩, ?_, rfl, rfl⟩
    rw [hdeclarations]
    change _ ∈ (x.declarations ++ (x.anomalyTracker.stopAlarm x.monitor x.tracker.mEventKey now).2.2).drop x.declarations.length
    rw [hdeclares, List.drop_left]
    exact List.mem_singleton_self _

end

/-! ## The calls -/

theorem runsFor_iff_of_lookup {t : MaxDurationTracker} {key : HashableDimensionKey} {d : DurationInfo}
    (hd : t.mInfos.lookup key = some d) (time elapsed : Int) :
    t.RunsFor time key elapsed ↔ d.state = .kStarted ∧ d.elapsed time = elapsed := by
  unfold MaxDurationTracker.RunsFor
  rw [hd]
  constructor
  · rintro ⟨d', hd', hruns⟩
    cases hd'
    exact hruns
  · exact fun hruns => ⟨d, rfl, hruns⟩

theorem Inv.within_getD (h : Inv queued now x) (hnow : 0 ≤ now) (key : HashableDimensionKey) :
    (UMap.getD x.tracker.mInfos key {}).Within now ∧ ∀ elapsed, x.tracker.RunsFor now key elapsed ↔
      (UMap.getD x.tracker.mInfos key {}).state = .kStarted ∧ (UMap.getD x.tracker.mInfos key {}).elapsed now = elapsed := by
  unfold UMap.getD
  cases hd : x.tracker.mInfos.lookup key with
  | none =>
    refine ⟨⟨le_refl 0, nofun, fun _ => hnow⟩, fun elapsed => iff_of_false ?_ nofun⟩
    rintro ⟨d, hd', -⟩
    rw [hd] at hd'
    cases hd'
  | some d => exact ⟨h.within key d hd, runsFor_iff_of_lookup hd now⟩

theorem steps_noteStart (key : HashableDimensionKey) (condition : Bool) (hnow : 0 ≤ now) (conditionKey : ConditionKey) :
    Steps queued now (·.noteStart key condition now conditionKey) := by
  intro x h
  change Stepped queued now x (x.noteStart key condition now conditionKey)
  unfold noteStart
  split
  · exact h.refl
  · dsimp only
    generalize hgen : (if x.tracker.mConditionSliced = true then
      { UMap.getD x.tracker.mInfos key {} with conditionKeys := conditionKey } else UMap.getD x.tracker.mInfos key {}) = d
    -- the entry runs as the old one, and a new one does not
    have hspec : d.Within now ∧ ∀ elapsed, x.tracker.RunsFor now key elapsed ↔ d.state = .kStarted ∧ d.elapsed now = elapsed := by
      have hold := h.within_getD hnow key
      rw [← hgen]
      split
      · exact ⟨⟨hold.1.nonneg, hold.1.since, hold.1.ended⟩, hold.2⟩
      · exact hold
    obtain ⟨hwithin, hruns⟩ := hspec
    have hcount : Stepped queued now x (x.update (·.setInfo key { d with startCount := d.startCount + 1 })) :=
      h.setInfo key ⟨hwithin.nonneg, hwithin.since, hwithin.ended⟩ hruns
    cases hstate : d.state with
    | kStarted =>
      rw [hstate] at hcount
      exact hcount
    | kPaused =>
      rw [hstate] at hcount
      exact hcount
    | kStopped =>
      have hended := hwithin.ended (by rw [hstate]; simp)
      have hnot : ∀ elapsed, ¬ x.tracker.RunsFor now key elapsed := by
        intro elapsed hk
        have hs := ((hruns elapsed).1 hk).1
        rw [hstate] at hs
        cases hs
      dsimp only
      split
      · refine h.setInfo key ⟨hwithin.nonneg, fun hs => (by cases hs), fun _ => hended⟩ fun elapsed => ?_
        exact iff_of_false (hnot elapsed) fun hs => by cases hs.1
      · exact h.enter key ⟨hwithin.nonneg, fun _ => ⟨hended, le_refl now⟩, fun hs => absurd rfl hs⟩ rfl hnot

theorem steps_noteConditionChanged (key : HashableDimensionKey) (conditionMet : Bool) :
    Steps queued now (·.noteConditionChanged key conditionMet now) := by
  intro x h
  change Stepped queued now x (x.noteConditionChanged key conditionMet now)
  unfold noteConditionChanged
  cases hd : x.tracker.mInfos.lookup key with
  | none => exact h.refl
  | some d =>
    have hwithin := h.within key d hd
    have hruns := runsFor_iff_of_lookup hd now
    dsimp only
    cases hstate : d.state with
    | kStopped => exact h.refl
    | kStarted =>
      have helapsed := hwithin.elapsed hstate
      dsimp only
      split
      · exact h.refl
      · exact h.leave key ⟨helapsed.1, nofun, fun _ => helapsed.2⟩ nofun
    | kPaused =>
      have hended := hwithin.ended (by rw [hstate]; simp)
      dsimp only
      split
      · refine h.enter key ⟨hwithin.nonneg, fun _ => ⟨hended, le_refl now⟩, fun hs => absurd rfl hs⟩ rfl fun elapsed hk => ?_
        have hs := ((hruns elapsed).1 hk).1
        rw [hstate] at hs
        cases hs
      · exact h.refl

theorem steps_queryCondition (query : ConditionKey → ConditionState) (key : HashableDimensionKey) :
    Steps queued now (queryCondition query now · key) := by
  intro x h
  change Stepped queued now x (queryCondition query now x key)
  unfold queryCondition
  split
  · exact h.refl
  · split
    · exact h.refl
    · exact steps_noteConditionChanged key _ x h

theorem stopDuration_cases (t : MaxDurationTracker) (old : DurationInfo) (time : Int) (forceStop : Bool) :
    (old.state = .kStarted ∧ (t.stopDuration old time forceStop).state = .kStopped ∧
      (t.stopDuration old time forceStop).lastDuration = old.elapsed time) ∨
    ((t.stopDuration old time forceStop).lastDuration = old.lastDuration ∧
      (t.stopDuration old time forceStop).lastStartTime = old.lastStartTime ∧
      ((t.stopDuration old time forceStop).state = .kStarted ↔ old.state = .kStarted)) := by
  unfold MaxDurationTracker.stopDuration
  cases hstate : old.state with
  | kStopped => exact .inr ⟨rfl, rfl, by rw [hstate]⟩
  | kStarted =>
    dsimp only
    split
    · exact .inl ⟨rfl, rfl, rfl⟩
    · exact .inr ⟨rfl, rfl, by simp⟩
  | kPaused =>
    dsimp only
    split
    · exact .inr ⟨rfl, rfl, by simp⟩
    · exact .inr ⟨rfl, rfl, by simp⟩

theorem Stepped.trans {x'' : MaxAlarms} (h : Stepped queued now x x') (h' : Stepped queued now x' x'') : Stepped queued now x x'' :=
  ⟨h'.inv, h.moves.trans h.inv.toReady h'.moves⟩

theorem Inv.finish (h : Inv queued now x) (key : HashableDimensionKey) {d : DurationInfo} (hd : x.tracker.mInfos.lookup key = some d) :
    Stepped queued now x (if d.state = .kStopped then (x.update (·.raise d.lastDuration)).update fun t => { t with mInfos := t.mInfos.erase key }
      else x.update (·.raise d.lastDuration)) := by
  have hinfos : (x.tracker.raise d.lastDuration).mInfos = x.tracker.mInfos := MaxDurationTracker.raise_mInfos ..
  have hraise : Stepped queued now x (x.update (·.raise d.lastDuration)) := by
    refine h.update (MaxDurationTracker.sameBucket_raise ..).eventKey (fun k d' hd' => ?_) fun k elapsed => ?_
    · rw [hinfos] at hd'
      exact h.within k d' hd'
    · unfold MaxDurationTracker.RunsFor
      rw [hinfos]
  split
  · rename_i hstopped
    refine hraise.trans (hraise.inv.update rfl (fun k d' hd' => ?_) fun k elapsed => ?_)
    · dsimp only at hd'
      rw [UMap.lookup_erase'] at hd'
      split at hd'
      · cases hd'
      · exact hraise.inv.within k d' hd'
    · unfold MaxDurationTracker.RunsFor
      rw [UMap.lookup_erase', show (x.update (·.raise d.lastDuration)).tracker.mInfos = x.tracker.mInfos from hinfos]
      split
      · rename_i hk
        rw [hk, hd]
        refine iff_of_false (fun ⟨_, hnone, _⟩ => nomatch hnone) ?_
        rintro ⟨d', hd', hs, -⟩
        cases hd'
        rw [hstopped] at hs
        cases hs
      · exact Iff.rfl
  · exact hraise

theorem steps_noteStop (key : HashableDimensionKey) (forceStop : Bool) : Steps queued now (·.noteStop key now forceStop) := by
  intro x h
  change Stepped queued now x (x.noteStop key now forceStop)
  unfold noteStop
  cases hold : x.tracker.mInfos.lookup key with
  | none => exact h.refl
  | some old =>
    have hwithin := h.within key old hold
    have hruns := runsFor_iff_of_lookup hold now
    dsimp only
    rcases stopDuration_cases x.tracker old now forceStop with ⟨hstarted, hstopped, hlast⟩ | ⟨hlast, hsince, hstate⟩
    · -- the duration of a started key ends
      have helapsed := hwithin.elapsed hstarted
      have hleave := h.leave key (d := x.tracker.stopDuration old now forceStop)
        ⟨by rw [hlast]; exact helapsed.1, by rw [hstopped]; exact nofun, fun _ => by rw [hlast]; exact helapsed.2⟩
        (by rw [hstopped]; exact nofun)
      rw [if_pos (show old.state = .kStarted ∧ (x.tracker.stopDuration old now forceStop).state = .kStopped from ⟨hstarted, hstopped⟩)]
      refine hleave.trans (hleave.inv.finish key ?_)
      rw [restartAlarm_tracker, MaxDurationTracker.restartAlarm_mInfos]
      exact (lookup_setInfo ..).trans (if_pos rfl)
    · have hset := h.setInfo key (d := x.tracker.stopDuration old now forceStop)
        ⟨by rw [hlast]; exact hwithin.nonneg, by rw [hlast, hsince, hstate]; exact hwithin.since,
          by rw [hlast, Ne, hstate]; exact hwithin.ended⟩
        (by
          intro elapsed
          rw [hruns, hstate]
          unfold DurationInfo.elapsed
          rw [hlast, hsince])
      have hno : ¬ (old.state = .kStarted ∧ (x.tracker.stopDuration old now forceStop).state = .kStopped) := by
        rintro ⟨hs, hstopped⟩
        have hs' := hstate.2 hs
        rw [hstopped] at hs'
        cases hs'
      rw [if_neg hno]
      refine hset.trans (hset.inv.finish key ?_)
      exact (lookup_setInfo ..).trans (if_pos rfl)

theorem steps_foldl {f : MaxAlarms → HashableDimensionKey → MaxAlarms} (hf : ∀ key, Steps queued now (f · key))
    (keys : List HashableDimensionKey) : Steps queued now (keys.foldl f) := by
  induction keys with
  | nil => exact fun x h => h.refl
  | cons key keys ih =>
    intro x h
    obtain ⟨hinv, hmoves⟩ := hf key x h
    obtain ⟨hinv', hmoves'⟩ := ih (f x key) hinv
    exact ⟨hinv', hmoves.trans hinv.toReady hmoves'⟩

theorem steps_flush (time : Int) : Steps queued now (·.update fun t => (t.flushCurrentBucket time ∅).1) := by
  intro x h
  have hlookup : ∀ k, (x.tracker.flushCurrentBucket time ∅).1.mInfos.lookup k =
      (x.tracker.mInfos.lookup k).filter fun d => decide (d.state ≠ .kStopped) := fun k => by
    unfold MaxDurationTracker.flushCurrentBucket
    exact UMap.lookup_filterVal ..
  refine h.update ?_ (fun k d hd => ?_) fun k elapsed => ?_
  · unfold MaxDurationTracker.flushCurrentBucket
    dsimp only
    split <;> split <;> rfl
  · rw [hlookup, Option.filter_eq_some_iff] at hd
    exact h.within k d hd.1
  · unfold MaxDurationTracker.RunsFor
    rw [hlookup]
    refine exists_congr fun d => ?_
    rw [Option.filter_eq_some_iff]
    constructor
    · exact fun ⟨⟨hd, _⟩, hs⟩ => ⟨hd, hs⟩
    · rintro ⟨hd, hs, he⟩
      exact ⟨⟨hd, decide_eq_true (by rw [hs]; exact nofun)⟩, hs, he⟩

theorem steps_apply (hnow : 0 ≤ now) (op : TrackerOp) : Steps queued now (·.apply now op) := by
  cases op with
  | noteStart key condition conditionKey => exact steps_noteStart key condition hnow conditionKey
  | noteStop key stopAll => exact steps_noteStop key stopAll
  | noteStopAll => exact fun x => steps_foldl (fun key => steps_noteStop key true) _ x
  | onConditionChanged condition => exact fun x => steps_foldl (fun key => steps_noteConditionChanged key condition) _ x
  | onSlicedConditionMayChange query => exact fun x => steps_foldl (steps_queryCondition query) _ x
  | onStateChanged _ _ => exact fun x h => h.refl
  | flushIfNeeded =>
    intro x h
    change Stepped queued now x (x.update fun t => (t.flushIfNeeded now ∅).1)
    by_cases hlt : now < x.tracker.getCurrentBucketEndTimeNs
    · have hsame : (x.update fun t => (t.flushIfNeeded now ∅).1) = x := by
        unfold update MaxDurationTracker.flushIfNeeded
        dsimp only
        rw [if_pos hlt]
      rw [hsame]
      exact h.refl
    · have hflush : (x.update fun t => (t.flushIfNeeded now ∅).1) = x.update fun t => (t.flushCurrentBucket now ∅).1 := by
        unfold update MaxDurationTracker.flushIfNeeded
        dsimp only
        rw [if_neg hlt]
      rw [hflush]
      exact steps_flush now x h
  | flushCurrentBucket => exact steps_flush now

/-! ## Runs -/

theorem Inv.tick (h : Inv queued now x) {now' : Int} (hle : now ≤ now') : Inv queued now' x := by
  refine ⟨⟨h.toQueue, fun k d hd => (h.within k d hd).mono hle, h.threshold⟩, fun hidle => h.idle ?_, fun longest hlongest => ?_⟩
  · rw [Set.eq_empty_iff_forall_notMem] at hidle ⊢
    rintro elapsed ⟨k, hk⟩
    exact hidle _ ⟨k, MaxDurationTracker.runsFor_shift hk now'⟩
  · have hback := MaxDurationTracker.longest_shift hlongest now
    obtain ⟨a, ha, hsec⟩ := h.running _ hback
    rw [alarmTimeNs_shift] at hsec
    exact ⟨a, ha, hsec⟩

theorem Inv.tracks (h : Inv queued now x) (hfits : x.AlarmFits) : TracksLongest queued x := by
  refine ⟨fun time longest hlongest => ?_, fun time hidle => ?_⟩
  · have hnow := MaxDurationTracker.longest_shift hlongest now
    obtain ⟨a, ha, hsec⟩ := h.running _ hnow
    have hpos := h.toReady.alarmTimeNs_pos hnow
    rw [alarmTimeNs_shift] at hsec hpos
    obtain ⟨hceil, htoNat⟩ := toNat_alarmSec hpos
    rw [Int.emod_eq_of_lt hceil.le (hfits time longest hlongest), ← hsec] at htoNat
    have hone : ¬ a.timestampSec < 1 := by
      rw [UInt32.lt_iff_toNat_lt, show (1 : UInt32).toNat = 1 from rfl]
      omega
    refine ⟨a, ha, ?_, htoNat⟩
    ext b
    rw [h.queue, ha, Option.some_inj, Set.mem_insert_iff]
    constructor
    · rintro (hmem | ⟨rfl, -⟩)
      · exact .inr hmem
      · exact .inl rfl
    · rintro (rfl | hmem)
      · exact .inr ⟨rfl, hone⟩
      · exact .inl hmem
  · have hnone : x.armed = none := by
      refine h.idle (Set.eq_empty_iff_forall_notMem.2 ?_)
      rintro elapsed ⟨k, hk⟩
      exact (Set.eq_empty_iff_forall_notMem.1 hidle) _ ⟨k, MaxDurationTracker.runsFor_shift hk time⟩
    refine ⟨hnone, ?_⟩
    ext b
    rw [h.queue, hnone]
    simp

end MaxAlarms

namespace AlarmRun

open MaxAlarms

variable {queued : Set InternalAlarm}

/-- What holds after each call: the invariant, and the alarm of a key that runs fits. -/
structure Ok (queued : Set InternalAlarm) (r : AlarmRun) : Prop where
  nonneg : 0 ≤ r.now
  inv : Inv queued r.now r.alarms
  fits : r.alarms.AlarmFits

theorem Ok.step {r : AlarmRun} (h : Ok queued r) {e : MaxEvent} (htime : r.now ≤ e.time) (hfits : (r.step e).alarms.AlarmFits) :
    Ok queued (r.step e) ∧ TracksLongest queued (r.step e).alarms ∧ r.DeclaresDue e := by
  have hnonneg := h.nonneg.trans htime
  have hinv := h.inv.tick htime
  obtain ⟨hinv', hmoves⟩ := steps_apply hnonneg e.op r.alarms hinv
  refine ⟨⟨hnonneg, hinv', hfits⟩, hinv'.tracks hfits, ?_⟩
  rintro ⟨k, elapsed, hk, hleft⟩ a ha hdue
  rcases hmoves.kept with hkept | hdeclared
  · exact absurd (hkept.runs k elapsed hk) (hleft elapsed)
  · refine hdeclared ?_
    obtain ⟨longest, hlongest⟩ := hinv.toReady.exists_longest ⟨elapsed, k, hk⟩
    obtain ⟨a', ha', -, hsec⟩ := (hinv.tracks h.fits).running e.time longest hlongest
    rw [ha] at ha'
    cases ha'
    rw [hsec] at hdue
    exact ⟨longest, hlongest, hdue⟩

end AlarmRun

/-- From a new MAX tracker, with any anomaly tracker that has a positive threshold and no alarm of its key, and any monitor: over
every run of calls at times from zero on that do not go back, in which the second of each alarm is below 2^32, the alarm
tracks the longest running key after each call, and one that is due by a stop or a pause is declared. -/
theorem alarm_tracks_longest (eventKey : MetricDimensionKey) (nesting : Bool)
    (currentBucketStartNs currentBucketNum startTimeNs bucketSizeNs : Int) (conditionSliced : Bool)
    (anomalyTracker : DurationAnomalyTracker MetricDimensionKey) (monitor : AlarmMonitor) (nextRef : Nat)
    (declarations : List (Declaration MetricDimensionKey)) (hthreshold : 0 < anomalyTracker.getAnomalyThreshold)
    (hnone : anomalyTracker.mAlarms.lookup eventKey = none) (hwf : AlarmQueue.WF monitor.mPq)
    (hfresh : ∀ a ∈ monitor.mPq.elems, a.ref < nextRef) (es : List MaxEvent)
    (hrun : RunOk AlarmRun.step (fun r e => r.now ≤ e.time ∧ (r.step e).alarms.AlarmFits)
      ⟨0, .new eventKey nesting currentBucketStartNs currentBucketNum startTimeNs bucketSizeNs conditionSliced, anomalyTracker,
        monitor, nextRef, declarations⟩ es) :
    RunOk AlarmRun.step (fun r e => (r.step e).alarms.TracksLongest monitor.mPq.elems ∧ r.DeclaresDue e)
      ⟨0, .new eventKey nesting currentBucketStartNs currentBucketNum startTimeNs bucketSizeNs conditionSliced, anomalyTracker,
        monitor, nextRef, declarations⟩ es := by
  have hempty : ∀ time elapsed, ∀ k, ¬ (MaxDurationTracker.new eventKey nesting currentBucketStartNs currentBucketNum startTimeNs
      bucketSizeNs conditionSliced).RunsFor time k elapsed := by
    rintro time elapsed k ⟨d, hd, -⟩
    cases hd
  have hstart : AlarmRun.Ok monitor.mPq.elems ⟨0, .new eventKey nesting currentBucketStartNs currentBucketNum startTimeNs bucketSizeNs
      conditionSliced, anomalyTracker, monitor, nextRef, declarations⟩ := by
    refine ⟨le_refl 0, ⟨⟨⟨hwf, hfresh, fun a => ?_, fun a ha => ?_⟩, fun k d hd => ?_, hthreshold⟩, fun _ => hnone, ?_⟩, ?_⟩
    · constructor
      · exact .inl
      · rintro (hmem | ⟨ha, -⟩)
        · exact hmem
        · cases hnone.symm.trans ha
    · cases hnone.symm.trans ha
    · cases hd
    · rintro longest ⟨⟨k, hk⟩, -⟩
      exact absurd hk (hempty _ _ k)
    · rintro time longest ⟨⟨k, hk⟩, -⟩
      exact absurd hk (hempty _ _ k)
  refine hrun.imp (fun r e hok hstep => ?_) hstart
  exact hok.step hstep.1 hstep.2

/-- A new tracker of the empty key with a threshold, at a time. -/
def withThreshold (now thresholdNs : Int) : AlarmRun :=
  ⟨now, .new ⟨[], []⟩ false 0 0 0 60 false, .new ⟨1, some thresholdNs, some 0⟩, .new 0, 0, []⟩

/-- The empty key is started at a time. -/
def startAt (time : Int) : MaxEvent := ⟨time, .noteStart [] true ∅⟩

theorem runsFor_startAt (now thresholdNs t time : Int) (k : HashableDimensionKey) (elapsed : Int) :
    ((withThreshold now thresholdNs).step (startAt t)).alarms.tracker.RunsFor time k elapsed ↔ k = [] ∧ time - t = elapsed := by
  have htracker : ((withThreshold now thresholdNs).step (startAt t)).alarms.tracker =
      (((MaxDurationTracker.new ⟨[], []⟩ false 0 0 0 60 false).setInfo [] ⟨.kStarted, 1, t, 0, ∅⟩).startAnomalyAlarm t) :=
    MaxAlarms.noteStart_tracker ..
  rw [htracker]
  refine (MaxAlarms.runsFor_setInfo _ [] k ⟨.kStarted, 1, t, 0, ∅⟩ time elapsed).trans ?_
  unfold DurationInfo.elapsed
  split
  · rename_i hk
    simp [hk]
  · rename_i hk
    refine iff_of_false ?_ fun h => hk h.1
    rintro ⟨d, hd, -⟩
    cases hd

theorem longest_startAt (now thresholdNs t time : Int) :
    IsGreatest (((withThreshold now thresholdNs).step (startAt t)).alarms.tracker.running time) (time - t) := by
  refine ⟨⟨[], (runsFor_startAt ..).2 ⟨rfl, rfl⟩⟩, ?_⟩
  rintro elapsed ⟨k, hk⟩
  exact ((runsFor_startAt ..).1 hk).2.ge

/-- An alarm that is due after 158 years is armed for an earlier second, and one before zero is not armed. -/
theorem alarm_wraps_or_missing :
    ¬ RunOk AlarmRun.step (fun r e => (r.step e).alarms.TracksLongest ∅ ∧ r.DeclaresDue e)
        (withThreshold 0 5000000000000000000) [startAt 0] ∧
      ¬ RunOk AlarmRun.step (fun r e => (r.step e).alarms.TracksLongest ∅ ∧ r.DeclaresDue e)
        (withThreshold (-10000000000) 1000000000) [startAt (-10000000000)] := by
  constructor
  · intro hrun
    obtain ⟨a, ha, -, hsec⟩ := hrun.1.1.running 0 (0 - 0) (longest_startAt ..)
    have hwrapped : ((withThreshold 0 5000000000000000000).step (startAt 0)).alarms.armed = some ⟨0, 705032704⟩ := by decide +kernel
    cases hwrapped.symm.trans ha
    exact absurd hsec (by decide +kernel)
  · intro hrun
    obtain ⟨a, ha, -⟩ := hrun.1.1.running 0 (0 - -10000000000) (longest_startAt ..)
    have hnone : ((withThreshold (-10000000000) 1000000000).step (startAt (-10000000000))).alarms.armed = none := by decide +kernel
    cases hnone.symm.trans ha

/-- A stop after the alarm was due declares it. -/
theorem alarm_tracks_longest_due :
    let es : List MaxEvent := [startAt 0, ⟨20000000000, .noteStop [] false⟩]
    RunOk AlarmRun.step (fun r e => (r.step e).alarms.TracksLongest ∅ ∧ r.DeclaresDue e) (withThreshold 0 10000000000) es ∧
      (es.foldl AlarmRun.step (withThreshold 0 10000000000)).alarms.declarations.map Declaration.declared = [true] := by
  intro es
  have hqueue : (AlarmMonitor.new 0).mPq.elems = ∅ := IndexedPriorityQueue.elems_new
  refine ⟨?_, by decide +kernel⟩
  have h := alarm_tracks_longest ⟨[], []⟩ false 0 0 0 60 false (.new ⟨1, some 10000000000, some 0⟩) (.new 0) 0 [] (by decide +kernel) rfl
    IndexedPriorityQueue.wf_new (by rw [hqueue]; exact nofun) es ⟨⟨by decide, ?_⟩, ⟨by decide, ?_⟩, trivial⟩
  · rw [hqueue] at h
    exact h
  · intro time longest hlongest
    have hshift : time - 0 = 0 + (time - 0) := by omega
    rw [hlongest.unique (longest_startAt 0 10000000000 0 time), hshift, MaxAlarms.alarmTimeNs_shift]
    decide +kernel
  · rintro time longest ⟨⟨k, d, hd, -⟩, -⟩
    have hinfos : (((withThreshold 0 10000000000).step (startAt 0)).step ⟨20000000000, .noteStop [] false⟩).alarms.tracker.mInfos = ∅ := rfl
    cases (congrArg (AList.lookup k) hinfos).symm.trans hd

end Statsd.Metrics
