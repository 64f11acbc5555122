/-
Periodic alarms (anomaly/AlarmTracker.{h,cpp}, and `initAlarms` of metrics_manager_util.cpp). A tracker keeps
the second of its next alarm, and moves it forward by whole periods when the alarm fires. Start, offset and
period are milliseconds, alarms are seconds.

The subscribers that an alarm triggers are left out. `int64_t` sums and products wrap.
-/
import Statsd.Anomaly.Refractory
import Statsd.Base.Grid

namespace Statsd.Anomaly

def MS_PER_SEC : Int := 1000

def toInt64 (x : Int) : Int := x.bmod (2 ^ 64)

structure Alarm where
  offset_millis : Int
  period_millis : Int

structure AlarmTracker where
  mAlarmConfig : Alarm
  /-- The current expected alarm time in seconds. -/
  mAlarmSec : Int
  mInternalAlarm : Option InternalAlarm

namespace AlarmTracker

def findNextAlarmSec (t : AlarmTracker) (currentTimeSec : Int) : Int :=
  if currentTimeSec < t.mAlarmSec then t.mAlarmSec
  else
    let elapsedMillis := toInt64 (toInt64 (currentTimeSec - t.mAlarmSec) * MS_PER_SEC)
    let periodsForward := toInt64 (elapsedMillis.tdiv t.mAlarmConfig.period_millis + 1)
    toInt64 (t.mAlarmSec + (toInt64 (periodsForward * t.mAlarmConfig.period_millis)).tdiv MS_PER_SEC)

/-- Sets the next alarm, where `ref` is its address, and adds it to the monitor. -/
def schedule (t : AlarmTracker) (mAlarmMonitor : Option AlarmMonitor) (ref : Nat) (currentTimeSec : Int) :
    AlarmTracker × Option AlarmMonitor :=
  let mAlarmSec := t.findNextAlarmSec currentTimeSec
  let alarm : InternalAlarm := ⟨ref, UInt32.ofNat (mAlarmSec % 2 ^ 32).toNat⟩
  ({ t with mAlarmSec, mInternalAlarm := some alarm }, mAlarmMonitor.map fun monitor => (monitor.add (some alarm)).1)

/-- The constructor. -/
def new (mAlarmMonitor : Option AlarmMonitor) (ref : Nat) (startMillis currentMillis : Int) (alarm : Alarm) :
    AlarmTracker × Option AlarmMonitor :=
  let t : AlarmTracker := ⟨alarm, (toInt64 (startMillis + alarm.offset_millis)).tdiv MS_PER_SEC, none⟩
  t.schedule mAlarmMonitor ref (currentMillis.tdiv MS_PER_SEC)

/-- The tracker, what is left of the fired alarms, and the monitor. -/
def informAlarmsFired (t : AlarmTracker) (mAlarmMonitor : Option AlarmMonitor) (ref : Nat) (timestampNs : Int)
    (firedAlarms : List InternalAlarm) : AlarmTracker × List InternalAlarm × Option AlarmMonitor :=
  match t.mInternalAlarm with
  | none => (t, firedAlarms, mAlarmMonitor)
  | some alarm =>
    if firedAlarms.isEmpty || alarm ∉ firedAlarms then (t, firedAlarms, mAlarmMonitor)
    else
      let (t, mAlarmMonitor) := t.schedule mAlarmMonitor ref ((timestampNs - 1).tdiv NS_PER_SEC + 1)
      (t, firedAlarms.filter (· ≠ alarm), mAlarmMonitor)

end AlarmTracker

/-- The loop of `initAlarms`: whether it ran to its end, the trackers and the monitor. -/
def initAlarmsLoop (startMillis currentTimeMillis : Int) : List Alarm → List AlarmTracker → Option AlarmMonitor →
    Bool × List AlarmTracker × Option AlarmMonitor
  | [], allAlarmTrackers, periodicAlarmMonitor => (true, allAlarmTrackers, periodicAlarmMonitor)
  | alarm :: alarms, allAlarmTrackers, periodicAlarmMonitor =>
    if alarm.offset_millis ≤ 0 then (false, allAlarmTrackers, periodicAlarmMonitor)
    else if alarm.period_millis ≤ 0 then (false, allAlarmTrackers, periodicAlarmMonitor)
    else
      let (t, periodicAlarmMonitor) :=
        AlarmTracker.new periodicAlarmMonitor allAlarmTrackers.length startMillis currentTimeMillis alarm
      initAlarmsLoop startMillis currentTimeMillis alarms (allAlarmTrackers ++ [t]) periodicAlarmMonitor

def initAlarms (alarms : List Alarm) (periodicAlarmMonitor : Option AlarmMonitor) (timeBaseNs currentTimeNs : Int) :
    Bool × List AlarmTracker × Option AlarmMonitor :=
  initAlarmsLoop ((timeBaseNs.tdiv 1000).tdiv 1000) ((currentTimeNs.tdiv 1000).tdiv 1000) alarms [] periodicAlarmMonitor

/-! ## The grid -/

/-- An alarm that `initAlarms` accepts. -/
structure Alarm.Accepted (alarm : Alarm) : Prop where
  offset : 0 < alarm.offset_millis
  period : 0 < alarm.period_millis

/-- The second of an alarm: so many periods after the first. -/
def Alarm.sec (alarm : Alarm) (startMillis : Int) (k : Nat) : Int :=
  (startMillis + alarm.offset_millis + k * alarm.period_millis) / 1000

/-- The first alarm later than a second. -/
structure Alarm.FirstAfter (alarm : Alarm) (startMillis currentSec sec : Int) : Prop where
  later : currentSec < sec
  grid : ∃ k, alarm.sec startMillis k = sec
  first : ∀ k, currentSec < alarm.sec startMillis k → sec ≤ alarm.sec startMillis k

/-- The alarm times after a second do not all exceed 32 bits. -/
def Alarm.Fits (alarm : Alarm) (startMillis currentSec : Int) : Prop :=
  ∃ k, currentSec < alarm.sec startMillis k ∧ alarm.sec startMillis k < 2 ^ 32

/-- A call of `informAlarmsFired`: the monitor of that time, the address of the next alarm, and the arguments. -/
structure Firing where
  mAlarmMonitor : Option AlarmMonitor
  ref : Nat
  timestampNs : Int
  firedAlarms : List InternalAlarm

namespace AlarmTracker

def fire (t : AlarmTracker) (f : Firing) : AlarmTracker :=
  (t.informAlarmsFired f.mAlarmMonitor f.ref f.timestampNs f.firedAlarms).1

/-- The registered alarm is the first one later than a second. -/
def Registered (t : AlarmTracker) (alarm : Alarm) (startMillis currentSec : Int) : Prop :=
  ∃ a, t.mInternalAlarm = some a ∧ alarm.FirstAfter startMillis currentSec a.timestampSec.toNat

/-- The times of the calls do not decrease, from a time after boot. -/
def InOrder : Int → List Firing → Prop
  | _, [] => True
  | now, f :: fs => now ≤ f.timestampNs ∧ 0 < f.timestampNs ∧ InOrder f.timestampNs fs

end AlarmTracker

theorem toInt64_eq {x : Int} (h : -2 ^ 63 ≤ x) (h' : x < 2 ^ 63) : toInt64 x = x :=
  Int.bmod_eq_of_le (by omega) (by omega)

/-! ## Periods of whole seconds -/

section

variable {alarm : Alarm} {startMillis periodSec : Int}

theorem Alarm.sec_whole (hperiod : alarm.period_millis = 1000 * periodSec) (k : Nat) :
    alarm.sec startMillis k = alarm.sec startMillis 0 + k * periodSec := by
  unfold Alarm.sec
  have hmul : startMillis + alarm.offset_millis + k * alarm.period_millis =
      startMillis + alarm.offset_millis + k * periodSec * 1000 := by
    rw [hperiod]; ring
  rw [hmul, Int.add_mul_ediv_right _ _ (by decide), Nat.cast_zero, zero_mul, add_zero]

theorem Alarm.sec_nonneg (hstart : 0 ≤ startMillis + alarm.offset_millis) (hpos : 0 < alarm.period_millis) (k : Nat) :
    0 ≤ alarm.sec startMillis k := by
  unfold Alarm.sec
  have := Int.mul_nonneg (Int.natCast_nonneg k) hpos.le
  exact Int.ediv_nonneg (by omega) (by decide)

theorem Alarm.firstAfter_of_near (hperiod : alarm.period_millis = 1000 * periodSec) (hpos : 0 < periodSec) {c sec : Int}
    (hgrid : ∃ k, alarm.sec startMillis k = sec) (hlater : c < sec) (hnear : sec - periodSec ≤ c) :
    alarm.FirstAfter startMillis c sec := by
  refine ⟨hlater, hgrid, fun j hj => ?_⟩
  obtain ⟨k, rfl⟩ := hgrid
  rw [Alarm.sec_whole hperiod k] at hnear ⊢
  rw [Alarm.sec_whole hperiod j] at hj ⊢
  have hlt : ((k : Int) - 1) * periodSec < j * periodSec := by
    rw [sub_mul, one_mul]
    omega
  have hle : (k : Int) ≤ j := by
    have := lt_of_mul_lt_mul_right hlt hpos.le
    omega
  have := Int.mul_le_mul_of_nonneg_right hle hpos.le
  omega

theorem Alarm.FirstAfter.mono {c c' sec : Int} (h : alarm.FirstAfter startMillis c sec) (hle : c ≤ c') (hlt : c' < sec) :
    alarm.FirstAfter startMillis c' sec :=
  ⟨hlt, h.grid, fun k hk => h.first k (by omega)⟩

theorem Alarm.FirstAfter.fits {c sec : Int} (h : alarm.FirstAfter startMillis c sec) (hfits : alarm.Fits startMillis c) :
    sec < 2 ^ 32 := by
  obtain ⟨k, hk, hlt⟩ := hfits
  exact lt_of_le_of_lt (h.first k hk) hlt

namespace AlarmTracker

variable {t : AlarmTracker}

theorem findNextAlarmSec_due (hstart : 0 ≤ startMillis + alarm.offset_millis)
    (hperiod : alarm.period_millis = 1000 * periodSec) (hpos : 0 < periodSec)
    (hconfig : t.mAlarmConfig = alarm) {k : Nat} (hk : alarm.sec startMillis k = t.mAlarmSec) {c : Int}
    (hdue : t.mAlarmSec ≤ c) (hfits : alarm.Fits startMillis c) :
    t.findNextAlarmSec c = t.mAlarmSec + Grid.stepsAfter periodSec t.mAlarmSec c * periodSec ∧
      alarm.FirstAfter startMillis c (t.mAlarmSec + Grid.stepsAfter periodSec t.mAlarmSec c * periodSec) := by
  obtain ⟨hsteps, hlow, hhigh⟩ := Grid.stepsAfter_bounds hpos hdue
  have hnonneg : 0 ≤ t.mAlarmSec := hk ▸ Alarm.sec_nonneg hstart (by omega) k
  have hstep : (Grid.stepsAfter periodSec t.mAlarmSec c - 1) * periodSec =
      Grid.stepsAfter periodSec t.mAlarmSec c * periodSec - periodSec := by ring
  have hfirst : alarm.FirstAfter startMillis c (t.mAlarmSec + Grid.stepsAfter periodSec t.mAlarmSec c * periodSec) := by
    refine Alarm.firstAfter_of_near hperiod hpos ⟨k + (Grid.stepsAfter periodSec t.mAlarmSec c).toNat, ?_⟩ hhigh (by omega)
    rw [Alarm.sec_whole hperiod, Nat.cast_add, Int.toNat_of_nonneg hsteps.le, add_mul, ← add_assoc, ← Alarm.sec_whole hperiod, hk]
  refine ⟨?_, hfirst⟩
  have hlt := hfirst.fits hfits
  have hdiv : ((c - t.mAlarmSec) * 1000).tdiv alarm.period_millis = Grid.stepsAfter periodSec t.mAlarmSec c - 1 := by
    rw [hperiod, mul_comm, Int.mul_tdiv_mul_of_pos _ _ (by decide), Grid.stepsAfter]
    ring
  have hmul : Grid.stepsAfter periodSec t.mAlarmSec c * alarm.period_millis =
      1000 * (Grid.stepsAfter periodSec t.mAlarmSec c * periodSec) := by
    rw [hperiod]; ring
  have hbound : Grid.stepsAfter periodSec t.mAlarmSec c ≤ Grid.stepsAfter periodSec t.mAlarmSec c * periodSec :=
    le_mul_of_one_le_right hsteps.le (by omega)
  unfold findNextAlarmSec MS_PER_SEC
  rw [if_neg (by omega), hconfig]
  generalize Grid.stepsAfter periodSec t.mAlarmSec c = steps at *
  dsimp only
  rw [toInt64_eq (x := c - t.mAlarmSec) (by omega) (by omega), toInt64_eq (x := (c - t.mAlarmSec) * 1000) (by omega) (by omega),
    hdiv, sub_add_cancel, toInt64_eq (x := steps) (by omega) (by omega), hmul,
    toInt64_eq (x := 1000 * (steps * periodSec)) (by omega) (by omega), Int.mul_tdiv_cancel_left _ (by decide),
    toInt64_eq (by omega) (by omega)]

/-- What the tracker's alarm is after the times up to a second. -/
structure OnGrid (alarm : Alarm) (startMillis c : Int) (t : AlarmTracker) : Prop where
  config : t.mAlarmConfig = alarm
  next : alarm.FirstAfter startMillis c t.mAlarmSec

theorem schedule_onGrid (hstart : 0 ≤ startMillis + alarm.offset_millis)
    (hperiod : alarm.period_millis = 1000 * periodSec) (hpos : 0 < periodSec)
    (hconfig : t.mAlarmConfig = alarm) (hgrid : ∃ k, alarm.sec startMillis k = t.mAlarmSec) {c : Int}
    (hnext : c < t.mAlarmSec → alarm.FirstAfter startMillis c t.mAlarmSec) (hfits : alarm.Fits startMillis c)
    (mAlarmMonitor : Option AlarmMonitor) (ref : Nat) :
    OnGrid alarm startMillis c (t.schedule mAlarmMonitor ref c).1 ∧
      (t.schedule mAlarmMonitor ref c).1.Registered alarm startMillis c := by
  have hfirst : alarm.FirstAfter startMillis c (t.findNextAlarmSec c) := by
    rcases lt_or_ge c t.mAlarmSec with hlt | hdue
    · rw [findNextAlarmSec, if_pos hlt]
      exact hnext hlt
    · obtain ⟨k, hk⟩ := hgrid
      obtain ⟨heq, hfirst⟩ := findNextAlarmSec_due hstart hperiod hpos hconfig hk hdue hfits
      rwa [heq]
  refine ⟨⟨hconfig, hfirst⟩, _, rfl, ?_⟩
  have hlt := hfirst.fits hfits
  have hnonneg : 0 ≤ t.findNextAlarmSec c := by
    obtain ⟨k, hk⟩ := hfirst.grid
    rw [← hk]
    exact Alarm.sec_nonneg hstart (by omega) k
  have hsize : (t.findNextAlarmSec c).toNat < UInt32.size := by
    change _ < 4294967296
    omega
  have hsec : ((UInt32.ofNat (t.findNextAlarmSec c % 2 ^ 32).toNat).toNat : Int) = t.findNextAlarmSec c := by
    rw [Int.emod_eq_of_lt hnonneg hlt, UInt32.toNat_ofNat_of_lt' hsize, Int.toNat_of_nonneg hnonneg]
  exact hsec.symm ▸ hfirst

theorem Registered.fits {c : Int} (h : t.Registered alarm startMillis c) : alarm.Fits startMillis c := by
  obtain ⟨a, -, hfirst⟩ := h
  obtain ⟨k, hk⟩ := hfirst.grid
  have hlt := a.timestampSec.toNat_lt
  exact ⟨k, hk ▸ hfirst.later, by omega⟩

theorem OnGrid.schedule (hstart : 0 ≤ startMillis + alarm.offset_millis)
    (hperiod : alarm.period_millis = 1000 * periodSec) (hpos : 0 < periodSec) {c c' : Int}
    (h : t.OnGrid alarm startMillis c) (hle : c ≤ c') (hfits : alarm.Fits startMillis c')
    (mAlarmMonitor : Option AlarmMonitor) (ref : Nat) :
    OnGrid alarm startMillis c' (t.schedule mAlarmMonitor ref c').1 ∧
      (t.schedule mAlarmMonitor ref c').1.Registered alarm startMillis c' :=
  schedule_onGrid hstart hperiod hpos h.config h.next.grid (h.next.mono hle) hfits mAlarmMonitor ref

theorem ceilSec_mono {a b : Int} (h : a ≤ b) : ceilSec a ≤ ceilSec b := by
  unfold ceilSec NS_PER_SEC
  omega

end AlarmTracker

end

/-! ## The alarms of a config -/

theorem initAlarmsLoop_accepted (startMillis currentTimeMillis : Int) (alarms : List Alarm)
    {allAlarmTrackers : List AlarmTracker} {monitor : Option AlarmMonitor}
    (h : ∀ t ∈ allAlarmTrackers, ∃ monitor ref alarm, Alarm.Accepted alarm ∧
      t = (AlarmTracker.new monitor ref startMillis currentTimeMillis alarm).1) :
    ∀ t ∈ (initAlarmsLoop startMillis currentTimeMillis alarms allAlarmTrackers monitor).2.1,
      ∃ monitor ref alarm, Alarm.Accepted alarm ∧ t = (AlarmTracker.new monitor ref startMillis currentTimeMillis alarm).1 := by
  induction alarms generalizing allAlarmTrackers monitor with
  | nil => exact h
  | cons alarm alarms ih =>
    unfold initAlarmsLoop
    by_cases hoffset : alarm.offset_millis ≤ 0
    · rw [if_pos hoffset]
      exact h
    by_cases hperiod : alarm.period_millis ≤ 0
    · rw [if_neg hoffset, if_pos hperiod]
      exact h
    rw [if_neg hoffset, if_neg hperiod]
    refine ih fun t ht => ?_
    rcases List.mem_append.1 ht with ht | ht
    · exact h t ht
    · rw [List.mem_singleton] at ht
      exact ⟨monitor, _, alarm, ⟨by omega, by omega⟩, ht⟩

/-- The trackers of a config are new ones for accepted alarms, with the config's time base as their start. -/
theorem initAlarms_accepted (alarms : List Alarm) (monitor : Option AlarmMonitor) (timeBaseNs currentTimeNs : Int) :
    ∀ t ∈ (initAlarms alarms monitor timeBaseNs currentTimeNs).2.1, ∃ monitor ref alarm, Alarm.Accepted alarm ∧
      t = (AlarmTracker.new monitor ref ((timeBaseNs.tdiv 1000).tdiv 1000) ((currentTimeNs.tdiv 1000).tdiv 1000) alarm).1 :=
  initAlarmsLoop_accepted _ _ alarms (by simp)

end Statsd.Anomaly
