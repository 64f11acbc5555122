/-
The test of a simple matcher on an event (matchers/matcher_util.cpp). The values of an event are one list; a
field matcher looks at a range of it, narrows the range to the entries of its field and, with a position, to
some of the nodes there, and then tests the values or asks its sub-matchers about each range.

The uid map is a parameter: the uids of the named system users, and the normalised names of the packages of a uid.
-/
import Statsd.Config.StatsdConfig
import Statsd.State.StateTracker
import Statsd.ValueOrder

namespace Statsd

/-- `isLastPos`. -/
def Field.isLastPos (f : Field) (depth : Nat) : Bool :=
  decide ((f.mField &&& 0x00ffffff#32) &&& (0x80#32 <<< (8 * (kMaxLogDepth - depth))) ≠ 0#32)

namespace Matchers

open Config (SimpleAtomMatcher)

/-! ## Tests of a value -/

/-- What the test of a string asks of the uid map. -/
structure UidNames where
  sAidToUidMapping : List UInt8 → Option Int
  getAppNamesFromUid : Int → List (List UInt8)

/-- The value matchers that look at a value. -/
inductive ValueTest where
  | VALUE_MATCHER_NOT_SET
  | eq_bool (b : Bool)
  | eq_string (s : List UInt8)
  | neq_any_string (str_value : List (List UInt8))
  | eq_any_string (str_value : List (List UInt8))
  | eq_int (n : Int)
  | lt_int (n : Int)
  | gt_int (n : Int)
  | lt_float (x : BitVec 32)
  | gt_float (x : BitVec 32)
  | lte_int (n : Int)
  | gte_int (n : Int)

/-- A `float` that is not a number. -/
def floatIsNaN (x : BitVec 32) : Bool := decide (0x7f800000 < (x &&& 0x7fffffff#32).toNat)

/-- The magnitude with its sign: the order of the `float`s that are numbers. -/
def floatKey (x : BitVec 32) : Int :=
  let magnitude := (x &&& 0x7fffffff#32).toNat
  if x.msb then -magnitude else magnitude

/-- `x < y` of two `float`s. -/
def floatLess (x y : BitVec 32) : Bool := !floatIsNaN x && !floatIsNaN y && decide (floatKey x < floatKey y)

def tryMatchString (uidMap : UidNames) (fieldValue : FieldValue) (str_match : List UInt8) : Bool :=
  if isAttributionUidField fieldValue || fieldValue.mAnnotations.uidField then
    let uid := fieldValue.mValue.int_value
    match uidMap.sAidToUidMapping str_match with
    | some aid => decide (aid = uid)
    | none => (uidMap.getAppNamesFromUid uid).contains str_match
  else
    match fieldValue.mValue with
    | .STRING str_value => decide (str_value = str_match)
    | _ => false

/-- A test of an int, which covers both widths. -/
def intTest (test : Int → Bool) : Value → Bool
  | .INT int_value => test int_value
  | .LONG long_value => test long_value
  | _ => false

def floatTest (test : BitVec 32 → Bool) : Value → Bool
  | .FLOAT float_value => test float_value
  | _ => false

/-- The test of one value. -/
def ValueTest.holds (uidMap : UidNames) (v : FieldValue) : ValueTest → Bool
  | VALUE_MATCHER_NOT_SET => false
  | eq_bool b => intTest (fun n => decide (n ≠ 0) == b) v.mValue
  | eq_string s => tryMatchString uidMap v s
  | neq_any_string str_value => !str_value.any (tryMatchString uidMap v)
  | eq_any_string str_value => str_value.any (tryMatchString uidMap v)
  | eq_int n => intTest (fun value => decide (n = value)) v.mValue
  | lt_int n => intTest (fun value => decide (value < n)) v.mValue
  | gt_int n => intTest (fun value => decide (value > n)) v.mValue
  | lt_float x => floatTest (fun value => floatLess value x) v.mValue
  | gt_float x => floatTest (fun value => floatLess x value) v.mValue
  | lte_int n => intTest (fun value => decide (value ≤ n)) v.mValue
  | gte_int n => intTest (fun value => decide (value ≥ n)) v.mValue

/-! ## Narrowing a range -/

/-- The `FieldValueMatcher` message. -/
inductive FieldValueMatcher where
  | value (field : Int) (position : Option Position) (test : ValueTest)
  | matches_tuple (field : Int) (position : Option Position) (field_value_matcher : List FieldValueMatcher)

/-- The values from `start` up to `stop`. -/
def entries (values : List FieldValue) (start stop : Nat) : List FieldValue := (values.take stop).drop start

/-- The loop that finds the entries of a field, with the new start, if there is one, and the new end. -/
def filterField (depth : Nat) (field : Int) : Nat → List FieldValue → Option Nat × Nat → Option Nat × Nat
  | _, [], result => result
  | i, v :: vs, (newStart, newEnd) =>
    let pos : Int := v.mField.getPosAtDepth depth
    if pos = field then filterField depth field (i + 1) vs (newStart.or (some i), i + 1)
    -- the entries are sorted
    else if pos > field then (newStart, newEnd)
    else filterField depth field (i + 1) vs (newStart, newEnd)

/-- FIRST: the end of the entries at the first position. -/
def firstEnd (depth stop : Nat) : Nat → List FieldValue → Nat
  | _, [] => stop
  | i, v :: vs => if v.mField.getPosAtDepth depth ≠ 1 then i else firstEnd depth stop (i + 1) vs

/-- LAST: the first entry marked as the last of its level. -/
def lastStart (depth start : Nat) : Nat → List FieldValue → Nat
  | _, [] => start
  | i, v :: vs => if v.mField.isLastPos depth then i else lastStart depth start (i + 1) vs

/-- ANY: the ranges of the sub-trees. -/
def subTrees (depth stop : Nat) : Nat → List FieldValue → Nat → Nat → List (Nat × Nat)
  | _, [], newStart, _ => [(newStart, stop)]
  | i, v :: vs, newStart, currentPos =>
    let newPos := v.mField.getPosAtDepth depth
    if newPos ≠ currentPos then (newStart, i) :: subTrees depth stop (i + 1) vs i newPos
    else subTrees depth stop (i + 1) vs newStart currentPos

/-- The range a matcher is left with, its depth, and the ranges for its sub-matchers. -/
structure Narrowed where
  start : Nat
  stop : Nat
  depth : Nat
  ranges : List (Nat × Nat)

section

variable (uidMap : UidNames) (values : List FieldValue)

/-- `matchesSimple` up to the value matcher; none when it returns false before. -/
def narrow (field : Int) (position : Option Position) (start stop depth : Nat) : Option Narrowed :=
  if depth > 2 then none
  else if start ≥ stop then none
  else
    match filterField depth field start (entries values start stop) (none, stop) with
    | (none, _) => none
    | (some start, stop) =>
      match position with
      | none => some ⟨start, stop, depth, [(start, stop)]⟩
      | some position =>
        let depth := depth + 1
        if depth > 2 then none
        else
          let found := entries values start stop
          match position with
          | .FIRST =>
            let stop := firstEnd depth stop start found
            some ⟨start, stop, depth, [(start, stop)]⟩
          | .LAST =>
            let start := lastStart depth start start found
            some ⟨start, stop, depth, [(start, stop)]⟩
          | .ANY =>
            let currentPos := (values[start]?.map fun v => v.mField.getPosAtDepth depth).getD 0
            some ⟨start, stop, depth, subTrees depth stop start found start currentPos⟩
          -- not supported
          | .ALL => some ⟨start, stop, depth, []⟩
          | .POSITION_UNKNOWN => some ⟨start, stop, depth, []⟩

mutual

/-- `matchesSimple(uidMap, matcher, values, start, end, depth)`. -/
def matchesSimple : FieldValueMatcher → Nat → Nat → Nat → Bool
  | .value field position test, start, stop, depth =>
    match narrow values field position start stop depth with
    | none => false
    | some n => (entries values n.start n.stop).any fun v => test.holds uidMap v
  | .matches_tuple field position field_value_matcher, start, stop, depth =>
    match narrow values field position start stop depth with
    | none => false
    | some n => n.ranges.any fun range => matchesTuple field_value_matcher range.1 range.2 (n.depth + 1)

/-- All sub-matchers of a tuple match in a range. -/
def matchesTuple : List FieldValueMatcher → Nat → Nat → Nat → Bool
  | [], _, _, _ => true
  | m :: ms, start, stop, depth => matchesSimple m start stop depth && matchesTuple ms start stop depth

end

end

/-- `matchesSimple(uidMap, simpleMatcher, event)`. -/
def matchesSimpleAtom (uidMap : UidNames) (simpleMatcher : SimpleAtomMatcher (List FieldValueMatcher)) (event : Logd.LogEvent) : Bool :=
  if event.mTagId ≠ simpleMatcher.atom_id.getD 0 then false
  else simpleMatcher.field_value_matcher.all fun m => matchesSimple uidMap event.mValues m 0 event.mValues.length 0

end Matchers

end Statsd
