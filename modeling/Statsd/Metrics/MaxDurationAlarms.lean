/-
The alarm of a MAX tracker (startAnomalyAlarm and stopAnomalyAlarm of metrics/duration_helper/DurationTracker.h and
predictAnomalyTimestampNs of MaxDurationTracker.cpp). The functions that start and stop the alarm are given with an anomaly
tracker, its monitor and the addresses of the alarms, which the anomaly tracker is called with where MaxDurationTracker.lean
records the calls; on the tracker itself they are the functions there.
-/
import Statsd.Anomaly.DurationAnomalyTracker
import Statsd.Metrics.AnomalyPrediction
import Statsd.Metrics.MaxDurations

namespace Statsd.Metrics

open Anomaly
open OringDurationTracker (TrackerOp)

namespace MaxDurationTracker

/-- The loop body of the prediction. -/
def raiseElapsed (currentTimestamp maxElapsed : Int) (info : DurationInfo) : Int :=
  if info.state = .kStarted then
    let duration := info.lastDuration + (currentTimestamp - info.lastStartTime)
    if duration > maxElapsed then duration else maxElapsed
  else maxElapsed

def predictAnomalyTimestampNs (t : MaxDurationTracker) (anomalyTracker : AnomalyTracker MetricDimensionKey) (currentTimestamp : Int) :
    Int :=
  let maxElapsed := t.mInfos.entries.foldl (fun maxElapsed it => raiseElapsed currentTimestamp maxElapsed it.2) 0
  let anomalyTimeNs := currentTimestamp + anomalyTracker.getAnomalyThreshold - maxElapsed
  let refractoryEndNs := anomalyTracker.getRefractoryPeriodEndsSec t.mEventKey * NS_PER_SEC
  max anomalyTimeNs refractoryEndNs

end MaxDurationTracker

/-- A tracker with its anomaly tracker, the monitor of that one, the address of the next alarm, and what was declared. -/
structure MaxAlarms where
  tracker : MaxDurationTracker
  anomalyTracker : DurationAnomalyTracker MetricDimensionKey
  monitor : AlarmMonitor
  nextRef : Nat
  declarations : List (Declaration MetricDimensionKey)

namespace MaxAlarms

def update (x : MaxAlarms) (f : MaxDurationTracker → MaxDurationTracker) : MaxAlarms := { x with tracker := f x.tracker }

def startAnomalyAlarm (x : MaxAlarms) (eventTime : Int) : MaxAlarms :=
  let alarmTimestampNs := x.tracker.predictAnomalyTimestampNs x.anomalyTracker.toAnomalyTracker eventTime
  let x := x.update (·.startAnomalyAlarm eventTime)
  if alarmTimestampNs > 0 then
    let (anomalyTracker, monitor) := x.anomalyTracker.startAlarm x.monitor x.nextRef x.tracker.mEventKey alarmTimestampNs
    { x with anomalyTracker, monitor, nextRef := x.nextRef + 1 }
  else x

def stopAnomalyAlarm (x : MaxAlarms) (timestamp : Int) : MaxAlarms :=
  let (anomalyTracker, monitor, declarations) := x.anomalyTracker.stopAlarm x.monitor x.tracker.mEventKey timestamp
  { x.update (·.stopAnomalyAlarm timestamp) with anomalyTracker, monitor, declarations := x.declarations ++ declarations }

def restartAlarm (x : MaxAlarms) (eventTime : Int) : MaxAlarms :=
  if x.tracker.anyStarted then x.startAnomalyAlarm eventTime else x

def noteStart (x : MaxAlarms) (key : HashableDimensionKey) (condition : Bool) (eventTime : Int) (conditionKey : ConditionKey) :
    MaxAlarms :=
  if x.tracker.hitGuardRail key then x
  else
    let duration := UMap.getD x.tracker.mInfos key {}
    let duration := if x.tracker.mConditionSliced then { duration with conditionKeys := conditionKey } else duration
    match duration.state with
    | .kStarted | .kPaused => x.update (·.setInfo key { duration with startCount := duration.startCount + 1 })
    | .kStopped =>
      if !condition then x.update (·.setInfo key { duration with state := .kPaused, startCount := 1 })
      else
        (x.update (·.setInfo key { duration with
          state := .kStarted, lastStartTime := eventTime, startCount := 1 })).startAnomalyAlarm eventTime

def noteStop (x : MaxAlarms) (key : HashableDimensionKey) (eventTime : Int) (forceStop : Bool) : MaxAlarms :=
  match x.tracker.mInfos.lookup key with
  | none => x
  | some old =>
    let duration := x.tracker.stopDuration old eventTime forceStop
    let x' :=
      if old.state = .kStarted ∧ duration.state = .kStopped then
        ((x.stopAnomalyAlarm eventTime).update (·.setInfo key duration)).restartAlarm eventTime
      else x.update (·.setInfo key duration)
    let x' := x'.update (·.raise duration.lastDuration)
    if duration.state = .kStopped then x'.update fun t => { t with mInfos := t.mInfos.erase key } else x'

def noteStopAll (x : MaxAlarms) (eventTime : Int) : MaxAlarms :=
  x.tracker.mInfos.keys.foldl (fun x key => x.noteStop key eventTime true) x

def noteConditionChanged (x : MaxAlarms) (key : HashableDimensionKey) (conditionMet : Bool) (timestamp : Int) : MaxAlarms :=
  match x.tracker.mInfos.lookup key with
  | none => x
  | some duration =>
    match duration.state with
    | .kStarted =>
      if conditionMet then x
      else
        ((x.stopAnomalyAlarm timestamp).update (·.setInfo key { duration with
          state := .kPaused, lastDuration := duration.lastDuration + (timestamp - duration.lastStartTime) })).restartAlarm timestamp
    | .kStopped => x
    | .kPaused =>
      if conditionMet then
        (x.update (·.setInfo key { duration with state := .kStarted, lastStartTime := timestamp })).startAnomalyAlarm timestamp
      else x

def queryCondition (query : ConditionKey → ConditionState) (timestamp : Int) (x : MaxAlarms) (key : HashableDimensionKey) : MaxAlarms :=
  match x.tracker.mInfos.lookup key with
  | none => x
  | some duration =>
    if duration.state = .kStopped then x
    else x.noteConditionChanged key (decide (query duration.conditionKeys = .kTrue)) timestamp

def onSlicedConditionMayChange (x : MaxAlarms) (query : ConditionKey → ConditionState) (timestamp : Int) : MaxAlarms :=
  x.tracker.mInfos.keys.foldl (queryCondition query timestamp) x

def onConditionChanged (x : MaxAlarms) (condition : Bool) (timestamp : Int) : MaxAlarms :=
  x.tracker.mInfos.keys.foldl (fun x key => x.noteConditionChanged key condition timestamp) x

/-- A call on the tracker. A flush does not start or stop the alarm; its buckets are not kept here. -/
def apply (x : MaxAlarms) (time : Int) : TrackerOp → MaxAlarms
  | .noteStart key condition conditionKey => x.noteStart key condition time conditionKey
  | .noteStop key stopAll => x.noteStop key time stopAll
  | .noteStopAll => x.noteStopAll time
  | .onConditionChanged condition => x.onConditionChanged condition time
  | .onSlicedConditionMayChange query => x.onSlicedConditionMayChange query time
  | .onStateChanged _ _ => x
  | .flushIfNeeded => x.update fun t => (t.flushIfNeeded time ∅).1
  | .flushCurrentBucket => x.update fun t => (t.flushCurrentBucket time ∅).1

/-! ## The tracker is that of the recorded calls -/

variable (x : MaxAlarms)

@[simp] theorem update_tracker (f : MaxDurationTracker → MaxDurationTracker) : (x.update f).tracker = f x.tracker := rfl

@[simp] theorem startAnomalyAlarm_tracker (time : Int) :
    (x.startAnomalyAlarm time).tracker = x.tracker.startAnomalyAlarm time := by
  unfold startAnomalyAlarm
  dsimp only
  split <;> rfl

@[simp] theorem stopAnomalyAlarm_tracker (time : Int) :
    (x.stopAnomalyAlarm time).tracker = x.tracker.stopAnomalyAlarm time := rfl

@[simp] theorem restartAlarm_tracker (time : Int) : (x.restartAlarm time).tracker = x.tracker.restartAlarm time := by
  unfold restartAlarm MaxDurationTracker.restartAlarm
  split
  · exact x.startAnomalyAlarm_tracker time
  · rfl

theorem noteStart_tracker (key : HashableDimensionKey) (condition : Bool) (time : Int) (conditionKey : ConditionKey) :
    (x.noteStart key condition time conditionKey).tracker = x.tracker.noteStart key condition time conditionKey := by
  unfold noteStart MaxDurationTracker.noteStart
  split
  · rfl
  · dsimp only
    generalize (if x.tracker.mConditionSliced = true then
      { UMap.getD x.tracker.mInfos key {} with conditionKeys := conditionKey } else UMap.getD x.tracker.mInfos key {}) = d
    cases d.state with
    | kStarted => rfl
    | kPaused => rfl
    | kStopped =>
      dsimp only
      split
      · rfl
      · exact startAnomalyAlarm_tracker _ time

theorem noteStop_tracker (key : HashableDimensionKey) (time : Int) (forceStop : Bool) :
    (x.noteStop key time forceStop).tracker = x.tracker.noteStop key time forceStop := by
  unfold noteStop MaxDurationTracker.noteStop
  cases x.tracker.mInfos.lookup key with
  | none => rfl
  | some old =>
    dsimp only
    by_cases hends : old.state = .kStarted ∧ (x.tracker.stopDuration old time forceStop).state = .kStopped
    · simp only [hends, and_self, if_true, update_tracker, restartAlarm_tracker, stopAnomalyAlarm_tracker]
    · simp only [if_neg hends]
      split <;> rfl

theorem noteConditionChanged_tracker (key : HashableDimensionKey) (conditionMet : Bool) (time : Int) :
    (x.noteConditionChanged key conditionMet time).tracker = x.tracker.noteConditionChanged key conditionMet time := by
  unfold noteConditionChanged MaxDurationTracker.noteConditionChanged
  cases x.tracker.mInfos.lookup key with
  | none => rfl
  | some d =>
    dsimp only
    cases d.state with
    | kStopped => rfl
    | kStarted =>
      dsimp only
      split
      · rfl
      · exact restartAlarm_tracker _ time
    | kPaused =>
      dsimp only
      split
      · exact startAnomalyAlarm_tracker _ time
      · rfl

theorem queryCondition_tracker (query : ConditionKey → ConditionState) (time : Int) (x : MaxAlarms) (key : HashableDimensionKey) :
    (queryCondition query time x key).tracker = MaxDurationTracker.queryCondition query time x.tracker key := by
  unfold queryCondition MaxDurationTracker.queryCondition
  cases x.tracker.mInfos.lookup key with
  | none => rfl
  | some d =>
    dsimp only
    split
    · rfl
    · exact x.noteConditionChanged_tracker key _ time

theorem foldl_tracker {f : MaxAlarms → HashableDimensionKey → MaxAlarms} {g : MaxDurationTracker → HashableDimensionKey → MaxDurationTracker}
    (h : ∀ x key, (f x key).tracker = g x.tracker key) (keys : List HashableDimensionKey) (x : MaxAlarms) :
    (keys.foldl f x).tracker = keys.foldl g x.tracker := by
  induction keys generalizing x with
  | nil => rfl
  | cons key keys ih => rw [List.foldl_cons, List.foldl_cons, ih, h]

theorem apply_tracker (time : Int) (op : TrackerOp) : (x.apply time op).tracker = (x.tracker.apply ∅ time op).1 := by
  cases op with
  | noteStart key condition conditionKey => exact x.noteStart_tracker key condition time conditionKey
  | noteStop key stopAll => exact x.noteStop_tracker key time stopAll
  | noteStopAll => exact foldl_tracker (fun x key => x.noteStop_tracker key time true) _ x
  | onConditionChanged condition => exact foldl_tracker (fun x key => x.noteConditionChanged_tracker key condition time) _ x
  | onSlicedConditionMayChange query => exact foldl_tracker (queryCondition_tracker query time) _ x
  | onStateChanged _ _ => rfl
  | flushIfNeeded => rfl
  | flushCurrentBucket => rfl

end MaxAlarms

end Statsd.Metrics
