/-
The parser of log events (logd/LogEvent.{h,cpp}). An event arrives as a serialised atom: an object with
its number of elements, the timestamp, the atom id and the fields, each behind a byte with its type and
its number of annotations. The parser reads the buffer once, keeping the number of bytes that remain;
after an error it goes on with the event marked as invalid.

The buffer is an address in memory. `reads` records what the parser reads, for the bounds. Where a
length has its sign bit set the sources copy a negative number of bytes; this needs more than 2^31
remaining bytes, and the model copies the unsigned number.
-/
import Statsd.Base.Bytes
import Statsd.FieldValue

namespace Statsd.Logd

/-! ## Types and annotations on the wire -/

def INT32_TYPE : Nat := 0x00
def INT64_TYPE : Nat := 0x01
def STRING_TYPE : Nat := 0x02
def FLOAT_TYPE : Nat := 0x04
def BOOL_TYPE : Nat := 0x05
def BYTE_ARRAY_TYPE : Nat := 0x06
def OBJECT_TYPE : Nat := 0x07
def KEY_VALUE_PAIRS_TYPE : Nat := 0x08
def ATTRIBUTION_CHAIN_TYPE : Nat := 0x09
def ERROR_TYPE : Nat := 0x0F

def ANNOTATION_ID_IS_UID : Nat := 1
def ANNOTATION_ID_TRUNCATE_TIMESTAMP : Nat := 2
def ANNOTATION_ID_PRIMARY_FIELD : Nat := 3
def ANNOTATION_ID_EXCLUSIVE_STATE : Nat := 4
def ANNOTATION_ID_PRIMARY_FIELD_FIRST_UID : Nat := 5
def ANNOTATION_ID_TRIGGER_STATE_RESET : Nat := 7
def ANNOTATION_ID_STATE_NESTED : Nat := 8

def INT8_MAX : Nat := 127

def getTypeId (typeInfo : Nat) : Nat := typeInfo &&& 0x0F
def getNumAnnotations (typeInfo : Nat) : Nat := (typeInfo >>> 4) &&& 0x0F

/-- `size() - 1 > INT8_MAX`, where the difference of an empty vector wraps. -/
def indexTooLarge (size : Nat) : Bool := decide (size = 0) || decide (size - 1 > INT8_MAX)

/-! ## The event -/

/-- Bytes read at an address, with the number of bytes that remained. -/
structure Read where
  address : Nat
  size : Nat
  remaining : Nat
deriving DecidableEq

structure LogEvent where
  mBuf : Nat := 0
  mRemainingLen : Nat := 0
  mValid : Bool := true
  mValues : List FieldValue := []
  mElapsedTimestampNs : Int := 0
  mTagId : Int := 0
  mLogUid : Int := -1
  mLogPid : Int := -1
  mTruncateTimestamp : Bool := false
  mResetState : Int := -1
  mUidFieldIndex : Int := -1
  mAttributionChainStartIndex : Int := -1
  mAttributionChainEndIndex : Int := -1
  mExclusiveStateFieldIndex : Int := -1
  reads : List Read := []

namespace LogEvent

/-- `mValid = false`. -/
def invalid (ev : LogEvent) : LogEvent := { ev with mValid := false }

/-- The parser moves past `size` bytes. -/
def advance (ev : LogEvent) (size : Nat) : LogEvent :=
  { ev with
    mBuf := ev.mBuf + size
    mRemainingLen := ev.mRemainingLen - size
    reads := ev.reads ++ [⟨ev.mBuf, size, ev.mRemainingLen⟩] }

section

variable (mem : Memory)

/-- `readNextValue<T>` for a type of `size` bytes: the value is zero when too few bytes remain. -/
def readNextValue (size : Nat) (ev : LogEvent) : LogEvent × Nat :=
  if ev.mRemainingLen < size then (ev.invalid, 0) else (ev.advance size, ofLeBytes (mem.read ev.mBuf size))

end

/-- The value of an `int32_t` or `int64_t` of the given width. -/
def signed (width value : Nat) : Int := (BitVec.ofNat width value).toInt

def addToValues (ev : LogEvent) (pos : Nat → BitVec 32) (depth : Nat) (value : Value) (last : Nat → Bool) : LogEvent :=
  let f := Field.ofPos ev.mTagId pos depth
  -- the last position at depth 0 is not decorated
  let f := (List.range' 1 (depth - 1)).foldl (fun f i => if last i then f.decorateLastPos i else f) f
  { ev with mValues := ev.mValues ++ [⟨f, value, {}⟩] }

/-! ## Annotations -/

/-- The annotations of the value at an index are changed. -/
def annotate (ev : LogEvent) (i : Nat) (f : Annotations → Annotations) : LogEvent :=
  { ev with mValues := ev.mValues.modify i fun v => { v with mAnnotations := f v.mAnnotations } }

def checkPreviousValueType (ev : LogEvent) (expected : Value → Bool) : Bool :=
  (ev.mValues.getLast?).any fun v => expected v.mValue

def isInt : Value → Bool
  | .INT _ => true
  | _ => false

section

variable (mem : Memory)

def parseIsUidAnnotation (ev : LogEvent) (annotationType : Nat) : LogEvent :=
  if indexTooLarge ev.mValues.length || !ev.checkPreviousValueType isInt || decide (annotationType ≠ BOOL_TYPE) then ev.invalid
  else
    let (ev, value) := ev.readNextValue mem 1
    let isUid := decide (value ≠ 0)
    let ev := if isUid then { ev with mUidFieldIndex := (ev.mValues.length - 1 : Nat) } else ev
    ev.annotate (ev.mValues.length - 1) fun a => { a with uidField := isUid }

def parseTruncateTimestampAnnotation (ev : LogEvent) (annotationType : Nat) : LogEvent :=
  if !ev.mValues.isEmpty || decide (annotationType ≠ BOOL_TYPE) then ev.invalid
  else
    let (ev, value) := ev.readNextValue mem 1
    { ev with mTruncateTimestamp := decide (value ≠ 0) }

/-- A boolean annotation of the previous value. -/
def parseValueAnnotation (ev : LogEvent) (annotationType : Nat) (set : Bool → Annotations → Annotations) : LogEvent :=
  if ev.mValues.isEmpty || decide (annotationType ≠ BOOL_TYPE) then ev.invalid
  else
    let (ev, value) := ev.readNextValue mem 1
    ev.annotate (ev.mValues.length - 1) (set (decide (value ≠ 0)))

def parsePrimaryFieldAnnotation (ev : LogEvent) (annotationType : Nat) : LogEvent :=
  ev.parseValueAnnotation mem annotationType fun primaryField a => { a with primaryField := primaryField }

def parseStateNestedAnnotation (ev : LogEvent) (annotationType : Nat) : LogEvent :=
  ev.parseValueAnnotation mem annotationType fun nested a => { a with nested := nested }

def parsePrimaryFieldFirstUidAnnotation (ev : LogEvent) (annotationType : Nat) (firstUidInChainIndex : Option Nat) : LogEvent :=
  match firstUidInChainIndex with
  | none => ev.invalid
  | some i =>
    if ev.mValues.isEmpty || decide (annotationType ≠ BOOL_TYPE) then ev.invalid
    -- the chain is empty
    else if ev.mValues.length - 1 < i then ev.invalid
    else
      let (ev, value) := ev.readNextValue mem 1
      ev.annotate i fun a => { a with primaryField := decide (value ≠ 0) }

def parseExclusiveStateAnnotation (ev : LogEvent) (annotationType : Nat) : LogEvent :=
  if ev.mValues.isEmpty || decide (annotationType ≠ BOOL_TYPE) then ev.invalid
  else if ev.mValues.length - 1 > INT8_MAX then ev.invalid
  else
    let (ev, value) := ev.readNextValue mem 1
    { ev with mExclusiveStateFieldIndex := (ev.mValues.length - 1 : Nat) }.annotate (ev.mValues.length - 1)
      fun a => { a with exclusiveState := decide (value ≠ 0) }

def parseTriggerStateResetAnnotation (ev : LogEvent) (annotationType : Nat) : LogEvent :=
  if ev.mValues.isEmpty || decide (annotationType ≠ INT32_TYPE) then ev.invalid
  else
    let (ev, value) := ev.readNextValue mem 4
    { ev with mResetState := signed 32 value }

/-- The annotation with an id; none when the id is unknown. -/
def parseAnnotation (ev : LogEvent) (annotationId annotationType : Nat) (firstUidInChainIndex : Option Nat) : Option LogEvent :=
  if annotationId = ANNOTATION_ID_IS_UID then some (ev.parseIsUidAnnotation mem annotationType)
  else if annotationId = ANNOTATION_ID_TRUNCATE_TIMESTAMP then some (ev.parseTruncateTimestampAnnotation mem annotationType)
  else if annotationId = ANNOTATION_ID_PRIMARY_FIELD then some (ev.parsePrimaryFieldAnnotation mem annotationType)
  else if annotationId = ANNOTATION_ID_PRIMARY_FIELD_FIRST_UID then
    some (ev.parsePrimaryFieldFirstUidAnnotation mem annotationType firstUidInChainIndex)
  else if annotationId = ANNOTATION_ID_EXCLUSIVE_STATE then some (ev.parseExclusiveStateAnnotation mem annotationType)
  else if annotationId = ANNOTATION_ID_TRIGGER_STATE_RESET then some (ev.parseTriggerStateResetAnnotation mem annotationType)
  else if annotationId = ANNOTATION_ID_STATE_NESTED then some (ev.parseStateNestedAnnotation mem annotationType)
  else none

/-- `parseAnnotations`; the index is that of the first uid of an attribution chain. -/
def parseAnnotations (firstUidInChainIndex : Option Nat) : Nat → LogEvent → LogEvent
  | 0, ev => ev
  | numAnnotations + 1, ev =>
    let (ev, annotationId) := ev.readNextValue mem 1
    let (ev, annotationType) := ev.readNextValue mem 1
    match ev.parseAnnotation mem annotationId annotationType firstUidInChainIndex with
    | some ev => parseAnnotations firstUidInChainIndex numAnnotations ev
    | none => ev.invalid

/-! ## Values -/

variable (pos : Nat → BitVec 32) (depth : Nat) (last : Nat → Bool) (numAnnotations : Nat)

def parseInt32 (ev : LogEvent) : LogEvent :=
  let (ev, value) := ev.readNextValue mem 4
  (ev.addToValues pos depth (.INT (signed 32 value)) last).parseAnnotations mem none numAnnotations

def parseInt64 (ev : LogEvent) : LogEvent :=
  let (ev, value) := ev.readNextValue mem 8
  (ev.addToValues pos depth (.LONG (signed 64 value)) last).parseAnnotations mem none numAnnotations

def parseFloat (ev : LogEvent) : LogEvent :=
  let (ev, value) := ev.readNextValue mem 4
  (ev.addToValues pos depth (.FLOAT (BitVec.ofNat 32 value)) last).parseAnnotations mem none numAnnotations

/-- A bool is kept as an `int32_t`. -/
def parseBool (ev : LogEvent) : LogEvent :=
  let (ev, value) := ev.readNextValue mem 1
  (ev.addToValues pos depth (.INT value) last).parseAnnotations mem none numAnnotations

/-- A length and that many bytes. -/
def parseBytes (ev : LogEvent) (ofBytes : List UInt8 → Value) : LogEvent :=
  let (ev, numBytes) := ev.readNextValue mem 4
  if numBytes > ev.mRemainingLen then ev.invalid
  else
    ((ev.advance numBytes).addToValues pos depth (ofBytes (mem.read ev.mBuf numBytes)) last).parseAnnotations
      mem none numAnnotations

def parseString (ev : LogEvent) : LogEvent := ev.parseBytes mem pos depth last numAnnotations .STRING

def parseByteArray (ev : LogEvent) : LogEvent := ev.parseBytes mem pos depth last numAnnotations .STORAGE

end

/-- The array `pos`. -/
def posOf (field node leaf : Nat) : Nat → BitVec 32
  | 0 => BitVec.ofNat 32 field
  | 1 => BitVec.ofNat 32 node
  | _ => BitVec.ofNat 32 leaf

/-- The array `last`, of which only the entry at depth 1 is looked at. -/
def lastOf (lastNode : Bool) : Nat → Bool
  | 1 => lastNode
  | _ => false

section

variable (mem : Memory)

/-- The value of a key-value pair, whose position is that of its type. -/
def parsePairValue (ev : LogEvent) (field node : Nat) (last : Nat → Bool) : LogEvent :=
  let (ev, typeInfo) := ev.readNextValue mem 1
  let typeId := getTypeId typeInfo
  if typeId = INT32_TYPE then ev.parseInt32 mem (posOf field node 2) 2 last 0
  else if typeId = INT64_TYPE then ev.parseInt64 mem (posOf field node 3) 2 last 0
  else if typeId = STRING_TYPE then ev.parseString mem (posOf field node 4) 2 last 0
  else if typeId = FLOAT_TYPE then ev.parseFloat mem (posOf field node 5) 2 last 0
  else ev.invalid

/-- The loop over the pairs: `k` are left. -/
def parsePairs (field numPairs : Nat) : Nat → LogEvent → LogEvent
  | 0, ev => ev
  | k + 1, ev =>
    let last := lastOf (decide (k = 0))
    let ev := ev.parseInt32 mem (posOf field (numPairs - k) 1) 2 last 0
    parsePairs field numPairs k (ev.parsePairValue mem field (numPairs - k) last)

def parseKeyValuePairs (ev : LogEvent) (field numAnnotations : Nat) : LogEvent :=
  let (ev, numPairs) := ev.readNextValue mem 1
  (ev.parsePairs mem field numPairs numPairs).parseAnnotations mem none numAnnotations

/-- The loop over the nodes: `k` are left. -/
def parseNodes (field numNodes : Nat) : Nat → LogEvent → LogEvent
  | 0, ev => ev
  | k + 1, ev =>
    let last := lastOf (decide (k = 0))
    let ev := ev.parseInt32 mem (posOf field (numNodes - k) 1) 2 last 0
    parseNodes field numNodes k (ev.parseString mem (posOf field (numNodes - k) 2) 2 last 0)

def parseAttributionChain (ev : LogEvent) (field numAnnotations : Nat) : LogEvent :=
  let firstUidInChainIndex := ev.mValues.length
  let (ev, numNodes) := ev.readNextValue mem 1
  let ev := ev.parseNodes mem field numNodes numNodes
  let ev :=
    if indexTooLarge ev.mValues.length then ev.invalid
    else if ev.mValues.length - 1 > firstUidInChainIndex then
      { ev with
        mAttributionChainStartIndex := firstUidInChainIndex
        mAttributionChainEndIndex := (ev.mValues.length - 1 : Nat) }
    else ev
  if ev.mValid then ev.parseAnnotations mem (some firstUidInChainIndex) numAnnotations else ev

/-! ## The buffer -/

/-- The element at a position, behind its type byte. -/
def parseTyped (ev : LogEvent) (typeId numAnnotations field : Nat) : LogEvent :=
  let pos := posOf field 1 1
  let last := lastOf false
  if typeId = BOOL_TYPE then ev.parseBool mem pos 0 last numAnnotations
  else if typeId = INT32_TYPE then ev.parseInt32 mem pos 0 last numAnnotations
  else if typeId = INT64_TYPE then ev.parseInt64 mem pos 0 last numAnnotations
  else if typeId = FLOAT_TYPE then ev.parseFloat mem pos 0 last numAnnotations
  else if typeId = BYTE_ARRAY_TYPE then ev.parseByteArray mem pos 0 last numAnnotations
  else if typeId = STRING_TYPE then ev.parseString mem pos 0 last numAnnotations
  else if typeId = KEY_VALUE_PAIRS_TYPE then ev.parseKeyValuePairs mem field numAnnotations
  else if typeId = ATTRIBUTION_CHAIN_TYPE then ev.parseAttributionChain mem field numAnnotations
  else if typeId = ERROR_TYPE then (ev.readNextValue mem 4).1.invalid
  else ev.invalid

def parseElement (ev : LogEvent) (field : Nat) : LogEvent :=
  let (ev, typeInfo) := ev.readNextValue mem 1
  ev.parseTyped mem (getTypeId typeInfo) (getNumAnnotations typeInfo) field

/-- The loop over the elements: `k` are left, and it stops at the first error. -/
def parseElements (numElements : Nat) : Nat → LogEvent → LogEvent
  | 0, ev => ev
  | k + 1, ev => if ev.mValid then parseElements numElements k (ev.parseElement mem (numElements - k)) else ev

/-- The event is valid only if a check holds. -/
def check (ev : LogEvent) (c : Bool) : LogEvent := if c then ev else ev.invalid

/-- A byte that has to pass a check. -/
def readChecked (c : Nat → Bool) (ev : LogEvent) : LogEvent × Nat :=
  let (ev, value) := ev.readNextValue mem 1
  (ev.check (c value), value)

def readTimestamp (ev : LogEvent) : LogEvent :=
  let (ev, timestamp) := ev.readNextValue mem 8
  { ev with mElapsedTimestampNs := signed 64 timestamp }

def readTagId (ev : LogEvent) : LogEvent :=
  let (ev, tagId) := ev.readNextValue mem 4
  { ev with mTagId := signed 32 tagId }

/-- The object, the timestamp and the atom id, with the number of elements that follow. -/
def parseHeader (ev : LogEvent) : LogEvent × Nat :=
  let (ev, _) := ev.readChecked mem fun typeInfo => decide (getTypeId typeInfo = OBJECT_TYPE)
  let (ev, numElements) := ev.readChecked mem fun numElements => decide (2 ≤ numElements) && decide (numElements ≤ 127)
  let (ev, _) := ev.readChecked mem fun typeInfo => decide (getTypeId typeInfo = INT64_TYPE)
  let ev := ev.readTimestamp mem
  let (ev, typeInfo) := ev.readChecked mem fun typeInfo => decide (getTypeId typeInfo = INT32_TYPE)
  let ev := ev.readTagId mem
  -- the number of elements is a byte, which wraps
  (ev.parseAnnotations mem none (getNumAnnotations typeInfo), (numElements + 254) % 256)

def parseBuffer (ev : LogEvent) (buf len : Nat) : LogEvent × Bool :=
  let ev := { ev with mBuf := buf, mRemainingLen := len % 2 ^ 32 }
  let (ev, numElements) := ev.parseHeader mem
  let ev := ev.parseElements mem numElements numElements
  let ev := ev.check (decide (ev.mRemainingLen = 0))
  (ev, ev.mValid)

end

end LogEvent

end Statsd.Logd
