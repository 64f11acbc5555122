/-
The tracker of one state atom (state/StateTracker.{h,cpp}), with the primary key of an event
(filterPrimaryKey of HashableDimensionKey.cpp): the last state of every primary key, a count for nested
states, and the notifications of its changes. Every registered listener gets all notifications, so the
set of listeners is left out. The count is an unbounded integer; the sources use an `int`, whose overflow
is undefined.
-/
import Statsd.Base.UMap
import Statsd.HashableDimensionKey
import Statsd.Logd.LogEvent

namespace Statsd

open Logd (LogEvent)

/-- `isAttributionUidField(field, value)`. -/
def isAttributionUidField (value : FieldValue) : Bool :=
  decide (value.mField.mField &&& 0x00ff007f#32 = 0x00010001#32) && LogEvent.isInt value.mValue

/-- `filterPrimaryKey(values, output)`: the values annotated as primary, with their fields masked. -/
def filterPrimaryKey (values : List FieldValue) : HashableDimensionKey :=
  let simpleFieldMask := 0xff7f0000#32
  let attributionUidFieldMask := 0xff7f7f7f#32
  (values.filter (·.mAnnotations.primaryField)).map fun value =>
    let mask := if isAttributionUidField value then attributionUidFieldMask else simpleFieldMask
    (⟨value.mField.mTag, value.mField.mField &&& mask⟩, value.mValue)

/-- `int_value` of the union. -/
def Value.int_value : Value → Int
  | INT int_value => int_value
  | UNKNOWN | LONG _ | FLOAT _ | DOUBLE _ | STRING _ | STORAGE _ => 0

namespace State

def kStateUnknown : Int := -1

structure StateValueInfo where
  state : Int := kStateUnknown
  count : Int := 0
deriving DecidableEq

/-- A call of `onStateChanged`. -/
structure Notification where
  eventTimeNs : Int
  atomId : Int
  primaryKey : HashableDimensionKey
  oldState : FieldValue
  newState : FieldValue
deriving DecidableEq

structure StateTracker where
  mField : Field
  mStateMap : UMap HashableDimensionKey StateValueInfo

/-- `getStateFieldValueFromLogEvent`. The parser sets the index of a value it has read. -/
def getStateFieldValueFromLogEvent (event : LogEvent) : Option FieldValue :=
  if event.mExclusiveStateFieldIndex = -1 then none else event.mValues[event.mExclusiveStateFieldIndex.toNat]?

namespace StateTracker

/-- `StateTracker(atomId)`. -/
def new (atomId : Int) : StateTracker := ⟨⟨atomId, 0#32⟩, ∅⟩

/-- `getStateValue`: the value, and whether the key has an entry. -/
def getStateValue (t : StateTracker) (queryKey : HashableDimensionKey) : FieldValue × Bool :=
  match t.mStateMap.lookup queryKey with
  | some info => (⟨t.mField, .INT info.state, {}⟩, true)
  | none => (⟨t.mField, .INT kStateUnknown, {}⟩, false)

/-- `updateStateForPrimaryKey`, where `stateValueInfo` points into the entry of the key. The entry of a key
whose state becomes unknown is erased, and what is written to it after that is lost. -/
def updateStateForPrimaryKey (t : StateTracker) (eventTimeNs : Int) (primaryKey : HashableDimensionKey)
    (newState : FieldValue) (nested : Bool) (stateValueInfo : StateValueInfo) : StateTracker × List Notification :=
  let oldState : FieldValue := ⟨t.mField, .INT stateValueInfo.state, {}⟩
  let oldStateValue := stateValueInfo.state
  let newStateValue := newState.mValue.int_value
  let write := fun info : StateValueInfo => { t with
    mStateMap :=
      if kStateUnknown = newStateValue then t.mStateMap.erase primaryKey else t.mStateMap.insert primaryKey info }
  let notifyListeners := [⟨eventTimeNs, t.mField.mTag, primaryKey, oldState, newState⟩]
  if !nested then (write ⟨newStateValue, 1⟩, if oldStateValue ≠ newStateValue then notifyListeners else [])
  else if kStateUnknown = newStateValue then
    (write stateValueInfo, if kStateUnknown ≠ oldStateValue then notifyListeners else [])
  else if oldStateValue = kStateUnknown then (write ⟨newStateValue, 1⟩, notifyListeners)
  else if oldStateValue = newStateValue then (write { stateValueInfo with count := stateValueInfo.count + 1 }, [])
  else if stateValueInfo.count - 1 = 0 then (write ⟨newStateValue, 1⟩, notifyListeners)
  else (write { stateValueInfo with count := stateValueInfo.count - 1 }, [])

/-- The body of the loop of `handleReset`, at one entry of the map. -/
def resetEntry (eventTimeNs : Int) (newState : FieldValue) (acc : StateTracker × List Notification)
    (entry : Sigma fun _ : HashableDimensionKey => StateValueInfo) : StateTracker × List Notification :=
  let (t, sent) := acc.1.updateStateForPrimaryKey eventTimeNs entry.1 newState false entry.2
  (t, acc.2 ++ sent)

/-- `handleReset`: the loop visits every entry once, and writes only to the entry it is at. -/
def handleReset (t : StateTracker) (eventTimeNs : Int) (newState : FieldValue) : StateTracker × List Notification :=
  t.mStateMap.entries.foldl (resetEntry eventTimeNs newState) (t, [])

def clearStateForPrimaryKey (t : StateTracker) (eventTimeNs : Int) (primaryKey : HashableDimensionKey) :
    StateTracker × List Notification :=
  let state : FieldValue := ⟨t.mField, .INT kStateUnknown, {}⟩
  match t.mStateMap.lookup primaryKey with
  | some info => t.updateStateForPrimaryKey eventTimeNs primaryKey state false info
  | none => (t, [])

/-- The tracker after an event, and the notifications on the way. -/
def onLogEvent (t : StateTracker) (event : LogEvent) : StateTracker × List Notification :=
  let eventTimeNs := event.mElapsedTimestampNs
  let primaryKey := filterPrimaryKey event.mValues
  match getStateFieldValueFromLogEvent event with
  | none => t.clearStateForPrimaryKey eventTimeNs primaryKey
  | some newState =>
    let t := { t with mField := { t.mField with mField := newState.mField.mField } }
    if LogEvent.isInt newState.mValue = false then t.clearStateForPrimaryKey eventTimeNs primaryKey
    else if event.mResetState ≠ -1 then t.handleReset eventTimeNs ⟨t.mField, .INT event.mResetState, {}⟩
    else
      -- `mStateMap[primaryKey]` creates the entry that the pointer refers to
      let stateValueInfo := UMap.getD t.mStateMap primaryKey {}
      t.updateStateForPrimaryKey eventTimeNs primaryKey newState newState.mAnnotations.nested stateValueInfo

/-- The tracker after a sequence of events, and all notifications. -/
def run (t : StateTracker) (events : List LogEvent) : StateTracker × List Notification :=
  events.foldl (fun acc event =>
    let (t, sent) := acc.1.onLogEvent event
    (t, acc.2 ++ sent)) (t, [])

end StateTracker

end State

end Statsd
