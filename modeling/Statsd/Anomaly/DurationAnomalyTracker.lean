/-
The anomaly tracker of duration metrics (anomaly/DurationAnomalyTracker.{h,cpp}): it keeps the alarm of
each dimension key that would become an anomaly, and hands its alarms to the alarm monitor. The calls of
the monitor's callbacks and what a declaration reports are left out; the alarm behind each call of
`declareAnomaly` is recorded, with whether the call declared.
-/
import Statsd.Anomaly.Armed
import Statsd.Anomaly.AnomalyTracker

namespace Statsd.Anomaly

structure DurationAnomalyTracker (K : Type) extends AnomalyTracker K where
  mAlarms : UMap K InternalAlarm

/-- A call of `declareAnomaly` for an alarm. -/
structure Declaration (K : Type) where
  key : K
  alarm : InternalAlarm
  declared : Bool

namespace DurationAnomalyTracker

section

variable {K : Type} [DecidableEq K]

/-- The constructor. -/
def new (alert : Alert) : DurationAnomalyTracker K := { AnomalyTracker.new alert with mAlarms := ∅ }

/-- Rounded up to seconds, as an `uint32_t`. -/
def alarmSec (timestampNs : Int) : UInt32 := UInt32.ofNat ((timestampNs - 1).tdiv NS_PER_SEC % 2 ^ 32).toNat + 1

/-- `declareAnomaly` for an alarm of the tracker. -/
def declareAlarm (t : DurationAnomalyTracker K) (timestampNs : Int) (key : K) (alarm : InternalAlarm) :
    DurationAnomalyTracker K × Declaration K :=
  let (declared, tracker) := t.declareAnomaly timestampNs key
  ({ tracker with mAlarms := t.mAlarms }, ⟨key, alarm, declared⟩)

/-- `startAlarm`, where `ref` is the address of the new alarm. -/
def startAlarm (t : DurationAnomalyTracker K) (monitor : AlarmMonitor) (ref : Nat) (dimensionKey : K)
    (timestampNs : Int) : DurationAnomalyTracker K × AlarmMonitor :=
  let timestampSec := alarmSec timestampNs
  if t.isInRefractoryPeriod timestampNs dimensionKey then (t, monitor)
  else
    let monitor := match t.mAlarms.lookup dimensionKey with
      | some old => (monitor.remove (some old)).1
      | none => monitor
    let alarm : InternalAlarm := ⟨ref, timestampSec⟩
    ({ t with mAlarms := t.mAlarms.insert dimensionKey alarm }, (monitor.add (some alarm)).1)

def stopAlarm (t : DurationAnomalyTracker K) (monitor : AlarmMonitor) (dimensionKey : K) (timestampNs : Int) :
    DurationAnomalyTracker K × AlarmMonitor × List (Declaration K) :=
  match t.mAlarms.lookup dimensionKey with
  | none => (t, monitor, [])
  | some alarm =>
    -- an alarm set in the past that has not fired yet is caught now
    let (t, declarations) :=
      if timestampNs ≥ NS_PER_SEC * alarm.timestampSec.toNat then
        let (t, declaration) := t.declareAlarm timestampNs dimensionKey alarm
        (t, [declaration])
      else (t, [])
    ({ t with mAlarms := t.mAlarms.erase dimensionKey }, (monitor.remove (some alarm)).1, declarations)

def cancelAllAlarms (t : DurationAnomalyTracker K) (monitor : AlarmMonitor) :
    DurationAnomalyTracker K × AlarmMonitor :=
  ({ t with mAlarms := ∅ }, t.mAlarms.entries.foldl (fun monitor kv => (monitor.remove (some kv.2)).1) monitor)

/-- The tracker, the set of fired alarms and the declarations of the second loop of `informAlarmsFired`. -/
structure Informed (K : Type) where
  tracker : DurationAnomalyTracker K
  firedAlarms : List InternalAlarm
  declarations : List (Declaration K)

/-- The body of the loop, at an alarm that has fired. -/
def Informed.fire (timestampNs : Int) (r : Informed K) (kv : Sigma fun _ : K => InternalAlarm) : Informed K :=
  let (tracker, declaration) := r.tracker.declareAlarm timestampNs kv.1 kv.2
  { tracker := { tracker with mAlarms := tracker.mAlarms.erase kv.1 }
    -- no one else can also own it
    firedAlarms := r.firedAlarms.filter (· ≠ kv.2)
    declarations := r.declarations ++ [declaration] }

def informAlarmsFired (t : DurationAnomalyTracker K) (timestampNs : Int) (firedAlarms : List InternalAlarm) :
    Informed K :=
  if firedAlarms.isEmpty || t.mAlarms.entries.isEmpty then ⟨t, firedAlarms, []⟩
  else
    let matchedAlarms := t.mAlarms.filterVal (· ∈ firedAlarms)
    matchedAlarms.entries.foldl (Informed.fire timestampNs) ⟨t, firedAlarms, []⟩

end

end DurationAnomalyTracker

/-! ## The queue of the monitor -/

namespace AlarmMonitor

variable {m : AlarmMonitor}

theorem remove_queue (h : AlarmQueue.WF m.mPq) (alarm : InternalAlarm) :
    AlarmQueue.WF (m.remove (some alarm)).1.mPq ∧ (m.remove (some alarm)).1.mPq.elems = m.mPq.elems \ {alarm} := by
  have hpq : (m.remove (some alarm)).1.mPq = (m.mPq.remove InternalAlarm.smallerTimestamp (some alarm)).2 := by
    unfold remove
    dsimp only
    split
    · rfl
    · split
      · rfl
      · split <;> rfl
  obtain ⟨hwf, hel, -⟩ := h.remove smallerTimestamp_strictWeak alarm
  rw [hpq]
  exact ⟨hwf, hel⟩

theorem add_queue (h : AlarmQueue.WF m.mPq) (alarm : InternalAlarm)
    (hpos : ¬ alarm.timestampSec < 1) :
    AlarmQueue.WF (m.add (some alarm)).1.mPq ∧ (m.add (some alarm)).1.mPq.elems = insert alarm m.mPq.elems := by
  have hpq : (m.add (some alarm)).1.mPq = m.mPq.push InternalAlarm.smallerTimestamp (some alarm) := by
    unfold add
    dsimp only
    rw [if_neg hpos]
    split <;> rfl
  rw [hpq]
  exact h.push smallerTimestamp_strictWeak alarm

theorem popSoonerThan_queue (h : AlarmQueue.WF m.mPq) (timestampSec : UInt32) :
    AlarmQueue.WF (m.popSoonerThan timestampSec).2.1.mPq ∧
      (∀ a, a ∈ (m.popSoonerThan timestampSec).2.1.mPq.elems ↔
        a ∈ m.mPq.elems ∧ a ∉ (m.popSoonerThan timestampSec).1) ∧
      ∀ a ∈ (m.popSoonerThan timestampSec).1, a ∈ m.mPq.elems := by
  have hpq : (m.popSoonerThan timestampSec).2.1.mPq = (popLoop timestampSec m.mPq.size m.mPq).2 := by
    unfold popSoonerThan
    dsimp only
    split
    · rfl
    · split <;> rfl
  have hold : (m.popSoonerThan timestampSec).1 = (popLoop timestampSec m.mPq.size m.mPq).1 := by
    unfold popSoonerThan
    dsimp only
    split
    · rfl
    · split <;> rfl
  obtain ⟨hwf, hel, hmem⟩ := popLoop_spec timestampSec m.mPq.size h (le_refl _)
  rw [hpq, hold]
  refine ⟨hwf, fun a => ?_, fun a ha => ((hmem a).1 ha).1⟩
  rw [hel, Set.mem_sep_iff, hmem, not_and]
  constructor
  · rintro ⟨ha, hlt⟩
    exact ⟨ha, fun _ => by omega⟩
  · rintro ⟨ha, hlt⟩
    exact ⟨ha, by have := hlt ha; omega⟩

theorem removeAll_queue (l : List InternalAlarm) (h : AlarmQueue.WF m.mPq) :
    AlarmQueue.WF (l.foldl (fun m a => (m.remove (some a)).1) m).mPq ∧
      ∀ a, a ∈ (l.foldl (fun m a => (m.remove (some a)).1) m).mPq.elems ↔ a ∈ m.mPq.elems ∧ a ∉ l := by
  induction l generalizing m with
  | nil => exact ⟨h, fun a => by simp⟩
  | cons b l ih =>
    obtain ⟨hwf, hel⟩ := remove_queue h b
    obtain ⟨hwf', hmem⟩ := ih hwf
    refine ⟨hwf', fun a => ?_⟩
    rw [List.foldl_cons, hmem, hel, Set.mem_sdiff, Set.mem_singleton_iff, List.mem_cons, not_or, and_assoc]

end AlarmMonitor

end Statsd.Anomaly
