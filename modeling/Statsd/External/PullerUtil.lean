/-
Isolated uids of events (external/puller_util.cpp and StatsLogProcessor::mapIsolatedUidToHostUidIfNecessaryLocked).
A pushed event has the uids of its attribution chain, or its uid field, replaced by those of their hosts. The events
of a pull are mapped all at once, then sorted and merged with their neighbours where they differ in additive
fields only.

A read outside the values of an event is nothing (`none`): `at` throws there. The sort is any that orders by
the comparison.
-/
import Statsd.Base.UMap
import Statsd.Logd.LogEvent
import Statsd.ValueOrder

namespace Statsd.External

open Logd (LogEvent)

/-! ## Uid fields -/

/-- `isAttributionUidField`. -/
def isAttributionUidField (v : FieldValue) : Bool :=
  decide (v.mField.mField &&& 0x00ff007f#32 = 0x00010001#32) && LogEvent.isInt v.mValue

/-- `hasAttributionChain`, with the range of indices. -/
def hasAttributionChain (event : LogEvent) : Option (Int × Int) :=
  if event.mAttributionChainStartIndex = -1 ∨ event.mAttributionChainEndIndex = -1 then none
  else some (event.mAttributionChainStartIndex, event.mAttributionChainEndIndex)

/-- `UidMap::getHostUidOrSelf`. -/
def getHostUidOrSelf (mIsolatedUidMap : UMap Int Int) (uid : Int) : Int := UMap.getD mIsolatedUidMap uid uid

/-- The value of a field at an index, if there is one. -/
def valueAt (values : List FieldValue) (i : Int) : Option FieldValue := if 0 ≤ i then values[i.toNat]? else none

section

variable (mIsolatedUidMap : UMap Int Int)

/-- `value.setInt(getHostUidOrSelf(value.int_value))`, for a value that is an int. -/
def toHostUid (v : FieldValue) : FieldValue :=
  match v.mValue with
  | .INT uid => { v with mValue := .INT (getHostUidOrSelf mIsolatedUidMap uid) }
  | _ => v

/-! ## Mapping -/

/-- The loop over the indices of an attribution chain. -/
def mapIndices : List Int → List FieldValue → Option (List FieldValue)
  | [], values => some values
  | i :: indices, values =>
    match valueAt values i with
    | none => none
    | some v =>
      mapIndices indices (if isAttributionUidField v then values.set i.toNat (toHostUid mIsolatedUidMap v) else values)

/-- The indices from the first to the last. -/
def indicesOf (range : Int × Int) : List Int :=
  (List.range (range.2 + 1 - range.1).toNat).map fun n : Nat => range.1 + (n : Int)

def mapAttributionChain (range : Int × Int) (event : LogEvent) : Option LogEvent :=
  (mapIndices mIsolatedUidMap (indicesOf range) event.mValues).map fun values => { event with mValues := values }

def mapUidField (event : LogEvent) : Option LogEvent :=
  if event.mUidFieldIndex ≠ -1 then
    match valueAt event.mValues event.mUidFieldIndex with
    | none => none
    | some v =>
      some { event with mValues := event.mValues.set event.mUidFieldIndex.toNat (toHostUid mIsolatedUidMap v) }
  else some event

def mapIsolatedUidToHostUidIfNecessaryLocked (event : LogEvent) : Option LogEvent :=
  match hasAttributionChain event with
  | some indexRange => mapAttributionChain mIsolatedUidMap indexRange event
  | none => mapUidField mIsolatedUidMap event

/-- What the mapping step of a pull comes to: the data to sort and merge, or the data the function returns with. -/
inductive Mapping where
  | mapped (data : List LogEvent)
  | returned (data : List LogEvent)

/-- The data as the mapping step leaves it. -/
def Mapping.data : Mapping → List LogEvent
  | mapped data => data
  | returned data => data

def Mapping.cons (event : LogEvent) : Mapping → Mapping
  | mapped data => mapped (event :: data)
  | returned data => returned (event :: data)

/-- One event of a pull, with the range of the first one. -/
def mapPulledEvent (attrIndexRange : Option (Int × Int)) (event : LogEvent) : Option LogEvent :=
  match attrIndexRange with
  | some range => mapAttributionChain mIsolatedUidMap range event
  | none => mapUidField mIsolatedUidMap event

def mapPulledEvents (attrIndexRange : Option (Int × Int)) (tagId : Int) : List LogEvent → Option Mapping
  | [] => some (.mapped [])
  | event :: data =>
    if event.mTagId ≠ tagId then some (.returned (event :: data))
    else
      match mapPulledEvent mIsolatedUidMap attrIndexRange event with
      | none => none
      | some event => (mapPulledEvents attrIndexRange tagId data).map (.cons event)

/-- Step 1 of `mapAndMergeIsolatedUidsToHostUid`. -/
def mapIsolatedUidsToHostUid (tagId : Int) (data : List LogEvent) : Option Mapping :=
  match data with
  | [] => none
  | first :: _ =>
    if (hasAttributionChain first).isNone && decide (first.mUidFieldIndex = -1) then some (.returned data)
    else mapPulledEvents mIsolatedUidMap (hasAttributionChain first) tagId data

end

/-! ## Sorting -/

/-- The first pair of values that differ decides. -/
def valuesLess : List FieldValue → List FieldValue → Bool
  | v :: lhs, w :: rhs => if v.ne w then v.lt w else valuesLess lhs rhs
  | _, _ => false

/-- The comparison of the sort. -/
def eventLess (lhs rhs : LogEvent) : Bool :=
  if lhs.mValues.length ≠ rhs.mValues.length then decide (lhs.mValues.length < rhs.mValues.length)
  else valuesLess lhs.mValues rhs.mValues

/-- No value of the event is NaN. -/
def NoNaN (event : LogEvent) : Prop := ∀ v ∈ event.mValues, v.mValue.NotNaN

/-- A sort: some order of the events in which none is less than one before it. On NaN the comparison is not an
order, and nothing is known of the result. -/
structure Sorting where
  sort : List LogEvent → List LogEvent
  perm : ∀ data, (sort data).Perm data
  sorted : ∀ data, (∀ event ∈ data, NoNaN event) → (sort data).Pairwise fun lhs rhs => eventLess rhs lhs = false

/-! ## Merging -/

section

variable (additiveFields : Finset Nat)

/-- The field is one of the additive ones. -/
def isAdditive (v : FieldValue) : Bool := decide (v.mField.getPosAtDepth 0 ∈ additiveFields)

/-- The values differ in additive fields only, by the fields of the first. -/
def needMerge : List FieldValue → List FieldValue → Bool
  | v :: lhs, w :: rhs => (!v.ne w || isAdditive additiveFields v) && needMerge lhs rhs
  | _, _ => true

/-- The values of the additive fields are added to those of the neighbour. -/
def addOnto : List FieldValue → List FieldValue → List FieldValue
  | v :: lhs, w :: rhs =>
    (if isAdditive additiveFields v then { w with mValue := w.mValue.add v.mValue } else w) :: addOnto lhs rhs
  | _, rhs => rhs

/-- The loop over the sorted data, from an event on. -/
def mergeFrom (event : LogEvent) : List LogEvent → List LogEvent
  | [] => [event]
  | next :: data =>
    if event.mValues.length ≠ next.mValues.length then event :: mergeFrom next data
    else if needMerge additiveFields event.mValues next.mValues then
      mergeFrom { next with mValues := addOnto additiveFields event.mValues next.mValues } data
    else event :: mergeFrom next data

/-- Step 3. -/
def mergeData : List LogEvent → List LogEvent
  | [] => []
  | event :: data => mergeFrom additiveFields event data

end

def mapAndMergeIsolatedUidsToHostUid (sorting : Sorting) (mIsolatedUidMap : UMap Int Int) (tagId : Int)
    (additiveFields : Finset Nat) (data : List LogEvent) : Option (List LogEvent) :=
  (mapIsolatedUidsToHostUid mIsolatedUidMap tagId data).map fun
    | .mapped data => mergeData additiveFields (sorting.sort data)
    | .returned data => data

end Statsd.External
