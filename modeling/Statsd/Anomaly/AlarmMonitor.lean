/-
The alarm monitor (anomaly/AlarmMonitor.{h,cpp}) and the anomaly alarm of `StatsLogProcessor`. The
monitor keeps the queued alarms and the time it last registered; it registers and cancels through
two callbacks, collected here in the order it makes them. For the anomaly monitor `StatsService`
wires them to `setAnomalyAlarm` and `cancelAnomalyAlarm`, which do not look at the companion service.

Alarm times are seconds in a `uint32_t`; the monitor's comparisons wrap as the source's do.
-/
import Statsd.Anomaly.IndexedPriorityQueue
import Statsd.StatsLogUtil

namespace Statsd.Anomaly

/-- An alarm, by reference: two alarms of the same time are different unless they are one object. -/
structure InternalAlarm where
  ref : Nat
  timestampSec : UInt32
deriving DecidableEq

namespace InternalAlarm

def smallerTimestamp (a b : InternalAlarm) : Bool := decide (a.timestampSec < b.timestampSec)

end InternalAlarm

abbrev AlarmQueue := IndexedPriorityQueue InternalAlarm

structure AlarmMonitor where
  mRegisteredAlarmTimeSec : UInt32
  mPq : AlarmQueue
  mStatsCompanionService : Bool
  mMinUpdateTimeSec : UInt32

/-- A callback of the monitor. -/
inductive AlarmCall where
  | mUpdateAlarm (timeMillis : Int)
  | mCancelAlarm

namespace AlarmMonitor

open InternalAlarm

def new (minDiffToUpdateRegisteredAlarmTimeSec : UInt32) : AlarmMonitor :=
  ⟨0, .new, false, minDiffToUpdateRegisteredAlarmTimeSec⟩

def secToMs (timeSec : UInt32) : Int := timeSec.toNat * 1000

def updateRegisteredAlarmTime_l (m : AlarmMonitor) (timestampSec : UInt32) : AlarmMonitor × List AlarmCall :=
  ({ m with mRegisteredAlarmTimeSec := timestampSec }, [.mUpdateAlarm (secToMs timestampSec)])

def cancelRegisteredAlarmTime_l (m : AlarmMonitor) : AlarmMonitor × List AlarmCall :=
  ({ m with mRegisteredAlarmTimeSec := 0 }, [.mCancelAlarm])

def setStatsCompanionService (m : AlarmMonitor) (attached : Bool) : AlarmMonitor × List AlarmCall :=
  let m := { m with mStatsCompanionService := attached }
  if !attached then (m, [])
  else
    match m.mPq.top with
    | some top => m.updateRegisteredAlarmTime_l top.timestampSec
    | none => (m, [])

def add (m : AlarmMonitor) (alarm : Option InternalAlarm) : AlarmMonitor × List AlarmCall :=
  match alarm with
  | none => (m, [])
  | some alarm =>
    -- a timestamp 0 is used to indicate no alarm registered
    if alarm.timestampSec < 1 then (m, [])
    else
      let m := { m with mPq := m.mPq.push smallerTimestamp alarm }
      if m.mRegisteredAlarmTimeSec < 1 ∨ alarm.timestampSec + m.mMinUpdateTimeSec < m.mRegisteredAlarmTimeSec then
        m.updateRegisteredAlarmTime_l alarm.timestampSec
      else (m, [])

def remove (m : AlarmMonitor) (alarm : Option InternalAlarm) : AlarmMonitor × List AlarmCall :=
  match alarm with
  | none => (m, [])
  | some alarm =>
    let (wasPresent, pq) := m.mPq.remove smallerTimestamp alarm
    let m := { m with mPq := pq }
    if !wasPresent then (m, [])
    else
      match m.mPq.top with
      | none => m.cancelRegisteredAlarmTime_l
      | some soonest =>
        if soonest.timestampSec > m.mRegisteredAlarmTimeSec + m.mMinUpdateTimeSec then
          m.updateRegisteredAlarmTime_l soonest.timestampSec
        else (m, [])

/-- The loop of `popSoonerThan`, which takes an alarm off the queue on each round. -/
def popLoop (timestampSec : UInt32) : Nat → AlarmQueue → List InternalAlarm × AlarmQueue
  | 0, pq => ([], pq)
  | fuel + 1, pq =>
    match pq.top with
    | none => ([], pq)
    | some t =>
      if t.timestampSec ≤ timestampSec then
        let (oldAlarms, pq') := popLoop timestampSec fuel (pq.pop smallerTimestamp)
        (t :: oldAlarms, pq')
      else ([], pq)

/-- `popSoonerThan`: the alarms taken off, the monitor without them, and the callbacks. -/
def popSoonerThan (m : AlarmMonitor) (timestampSec : UInt32) :
    List InternalAlarm × AlarmMonitor × List AlarmCall :=
  let (oldAlarms, pq) := popLoop timestampSec m.mPq.size m.mPq
  let m := { m with mPq := pq }
  if oldAlarms.isEmpty then (oldAlarms, m, [])
  else
    match m.mPq.top with
    | none => (oldAlarms, m.cancelRegisteredAlarmTime_l)
    | some top => (oldAlarms, m.updateRegisteredAlarmTime_l top.timestampSec)

end AlarmMonitor

/-! ## The anomaly alarm of the log processor -/

/-- The anomaly monitor and the processor's next alarm time, in milliseconds; 0 for none. -/
structure AnomalyAlarm where
  mAnomalyAlarmMonitor : AlarmMonitor
  mNextAnomalyAlarmTime : Int

namespace AnomalyAlarm

def new (minDiffToUpdateRegisteredAlarmTimeSec : UInt32) : AnomalyAlarm :=
  ⟨.new minDiffToUpdateRegisteredAlarmTimeSec, 0⟩

def setAnomalyAlarm (s : AnomalyAlarm) (elapsedTimeMillis : Int) : AnomalyAlarm :=
  { s with mNextAnomalyAlarmTime := elapsedTimeMillis }

def cancelAnomalyAlarm (s : AnomalyAlarm) : AnomalyAlarm := { s with mNextAnomalyAlarmTime := 0 }

/-- The callbacks as `StatsService` wires them. -/
def callback (s : AnomalyAlarm) : AlarmCall → AnomalyAlarm
  | .mUpdateAlarm timeMillis => s.setAnomalyAlarm timeMillis
  | .mCancelAlarm => s.cancelAnomalyAlarm

/-- The state after an operation of the monitor and its callbacks. -/
def after (s : AnomalyAlarm) (r : AlarmMonitor × List AlarmCall) : AnomalyAlarm :=
  r.2.foldl callback { s with mAnomalyAlarmMonitor := r.1 }

/-- `static_cast<uint32_t>(elapsedTimeMillis / 1000)`. -/
def toAlarmSec (elapsedTimeMillis : Int) : UInt32 := UInt32.ofNat (elapsedTimeMillis.tdiv 1000 % 2 ^ 32).toNat

/-- The alarms handed to the metrics managers, and the state after. -/
def informAnomalyAlarmFiredLocked (s : AnomalyAlarm) (elapsedTimeMillis : Int) :
    List InternalAlarm × AnomalyAlarm :=
  let (alarmSet, r) := s.mAnomalyAlarmMonitor.popSoonerThan (toAlarmSec elapsedTimeMillis)
  (alarmSet, s.after r)

/-- The alarm is due at this time. -/
def isDue (s : AnomalyAlarm) (elapsedRealtimeNs : Int) : Bool :=
  decide (s.mNextAnomalyAlarmTime ≠ 0) && decide (MillisToNano s.mNextAnomalyAlarmTime ≤ elapsedRealtimeNs)

/-- The alarm part of `OnLogEvent`; events that are invalid or find no metrics manager return
before it. -/
def onLogEvent (s : AnomalyAlarm) (reached : Bool) (elapsedRealtimeNs : Int) : AnomalyAlarm :=
  if !reached then s
  else if s.isDue elapsedRealtimeNs then
    ({ s with mNextAnomalyAlarmTime := 0 }.informAnomalyAlarmFiredLocked (NanoToMillis elapsedRealtimeNs)).2
  else s

end AnomalyAlarm

end Statsd.Anomaly
