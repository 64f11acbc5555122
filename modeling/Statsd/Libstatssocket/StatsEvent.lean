/-
The event builder of libstatssocket (stats_event.c). An event is serialised as it is written: every
write appends a field, a type byte and the value, to a buffer that grows as needed, and an annotation is
appended to the last field, whose type byte counts its annotations. Errors are collected in a bitmask;
an event with errors is cut back to the timestamp and the atom id when it is built.

The buffer is the memory from its start on, of which `bufSize` bytes are allocated. Sizes are `size_t`,
counts `uint32_t`. A C string is a list of bytes up to its first zero.
-/
import Statsd.Base.Bytes

namespace Statsd.Libstatssocket

def LOGGER_ENTRY_MAX_PAYLOAD : Nat := 4068
def MAX_PUSH_EVENT_PAYLOAD : Nat := LOGGER_ENTRY_MAX_PAYLOAD - 4
def MAX_PULL_EVENT_PAYLOAD : Nat := 50 * 1024

def POS_NUM_ELEMENTS : Nat := 1
def POS_TIMESTAMP : Nat := POS_NUM_ELEMENTS + 1
def POS_ATOM_ID : Nat := POS_TIMESTAMP + 1 + 8

def MAX_ANNOTATION_COUNT : Nat := 15
def MAX_BYTE_VALUE : Nat := 127

def ERROR_NO_ATOM_ID : BitVec 32 := 0x2#32
def ERROR_OVERFLOW : BitVec 32 := 0x4#32
def ERROR_ATTRIBUTION_CHAIN_TOO_LONG : BitVec 32 := 0x8#32
def ERROR_ANNOTATION_DOES_NOT_FOLLOW_FIELD : BitVec 32 := 0x20#32
def ERROR_ANNOTATION_ID_TOO_LARGE : BitVec 32 := 0x80#32
def ERROR_TOO_MANY_ANNOTATIONS : BitVec 32 := 0x100#32
def ERROR_TOO_MANY_FIELDS : BitVec 32 := 0x200#32
def ERROR_STRING_NOT_NULL_TERMINATED : BitVec 32 := 0x800#32
def ERROR_ATOM_ID_INVALID_POSITION : BitVec 32 := 0x2000#32

def INT32_TYPE : Nat := 0x00
def INT64_TYPE : Nat := 0x01
def STRING_TYPE : Nat := 0x02
def FLOAT_TYPE : Nat := 0x04
def BOOL_TYPE : Nat := 0x05
def BYTE_ARRAY_TYPE : Nat := 0x06
def OBJECT_TYPE : Nat := 0x07
def ATTRIBUTION_CHAIN_TYPE : Nat := 0x09
def ERROR_TYPE : Nat := 0x0F

structure AStatsEvent where
  buf : Memory
  lastFieldPos : Nat
  numBytesWritten : Nat
  numElements : Nat
  atomId : BitVec 32
  errors : BitVec 32
  built : Bool
  bufSize : Nat

namespace AStatsEvent

/-- `errors |= e`. -/
def error (event : AStatsEvent) (e : BitVec 32) : AStatsEvent := { event with errors := event.errors ||| e }

/-! ## Appending -/

/-- The loop that doubles the buffer's size until it is larger than what is needed. -/
def grow (totalBytesNeeded bufSize : Nat) : Nat :=
  if 0 < bufSize ∧ 2 * bufSize ≤ totalBytesNeeded then grow totalBytesNeeded (2 * bufSize) else 2 * bufSize
termination_by totalBytesNeeded - bufSize

def overflows (event : AStatsEvent) (size : Nat) : AStatsEvent × Bool :=
  let totalBytesNeeded := (event.numBytesWritten + size) % 2 ^ 64
  if totalBytesNeeded > MAX_PULL_EVENT_PAYLOAD then (event.error ERROR_OVERFLOW, true)
  else if event.bufSize < MAX_PULL_EVENT_PAYLOAD ∧ totalBytesNeeded > event.bufSize then
    ({ event with bufSize := min (grow totalBytesNeeded event.bufSize) MAX_PULL_EVENT_PAYLOAD }, false)
  else (event, false)

/-- What every append function does with the bytes of its value. -/
def append (event : AStatsEvent) (bytes : List UInt8) : AStatsEvent :=
  let (event, overflow) := event.overflows bytes.length
  if overflow then event
  else
    { event with
      buf := event.buf.write event.numBytesWritten bytes
      numBytesWritten := (event.numBytesWritten + bytes.length) % 2 ^ 64 }

def append_byte (event : AStatsEvent) (value : Nat) : AStatsEvent := event.append [UInt8.ofNat value]
def append_bool (event : AStatsEvent) (value : Bool) : AStatsEvent := event.append_byte value.toNat
def append_int32 (event : AStatsEvent) (value : Nat) : AStatsEvent := event.append (leBytes 4 value)
def append_int64 (event : AStatsEvent) (value : Nat) : AStatsEvent := event.append (leBytes 8 value)
def append_float (event : AStatsEvent) (value : BitVec 32) : AStatsEvent := event.append (leBytes 4 value.toNat)
def append_byte_array (event : AStatsEvent) (buf : List UInt8) : AStatsEvent := event.append buf

/-- The bytes of a C string. -/
def cString (buf : List UInt8) : List UInt8 := buf.takeWhile (· ≠ 0)

def append_string (event : AStatsEvent) (buf : List UInt8) : AStatsEvent :=
  let size := min (cString buf).length MAX_PULL_EVENT_PAYLOAD
  if size = MAX_PULL_EVENT_PAYLOAD then event.error ERROR_STRING_NOT_NULL_TERMINATED
  else (event.append_int32 size).append_byte_array ((cString buf).take size)

def start_field (event : AStatsEvent) (typeId : Nat) : AStatsEvent :=
  let event := { event with lastFieldPos := event.numBytesWritten }.append_byte typeId
  { event with numElements := (event.numElements + 1) % 2 ^ 32 }

end AStatsEvent

open AStatsEvent

/-! ## Fields -/

def AStatsEvent_writeInt32 (event : AStatsEvent) (value : BitVec 32) : AStatsEvent :=
  (event.start_field INT32_TYPE).append_int32 value.toNat

def AStatsEvent_writeInt64 (event : AStatsEvent) (value : BitVec 64) : AStatsEvent :=
  (event.start_field INT64_TYPE).append_int64 value.toNat

def AStatsEvent_writeFloat (event : AStatsEvent) (value : BitVec 32) : AStatsEvent :=
  (event.start_field FLOAT_TYPE).append_float value

def AStatsEvent_writeBool (event : AStatsEvent) (value : Bool) : AStatsEvent :=
  (event.start_field BOOL_TYPE).append_bool value

/-- A null pointer stands for no bytes. -/
def AStatsEvent_writeByteArray (event : AStatsEvent) (buf : Option (List UInt8)) : AStatsEvent :=
  let bytes := buf.getD []
  let event := (event.start_field BYTE_ARRAY_TYPE).append_int32 bytes.length
  if bytes.length > 0 then event.append_byte_array bytes else event

def AStatsEvent_writeString (event : AStatsEvent) (value : Option (List UInt8)) : AStatsEvent :=
  (event.start_field STRING_TYPE).append_string (value.getD [])

def AStatsEvent_writeAttributionChain (event : AStatsEvent) (nodes : List (BitVec 32 × Option (List UInt8))) : AStatsEvent :=
  if nodes.length > MAX_BYTE_VALUE then event.error ERROR_ATTRIBUTION_CHAIN_TOO_LONG
  else
    nodes.foldl (fun event node => (event.append_int32 node.1.toNat).append_string (node.2.getD []))
      ((event.start_field ATTRIBUTION_CHAIN_TYPE).append_byte nodes.length)

def AStatsEvent_setAtomId (event : AStatsEvent) (atomId : BitVec 32) : AStatsEvent :=
  if event.atomId ≠ 0 then event
  else if event.numElements ≠ 1 then event.error ERROR_ATOM_ID_INVALID_POSITION
  else AStatsEvent_writeInt32 { event with atomId := atomId } atomId

/-! ## Annotations -/

def increment_annotation_count (event : AStatsEvent) : AStatsEvent :=
  let typeInfo := (event.buf event.lastFieldPos).toNat
  let fieldType := typeInfo &&& 0x0F
  let newAnnotationCount := ((typeInfo &&& 0xF0) >>> 4) + 1
  if newAnnotationCount > MAX_ANNOTATION_COUNT then event.error ERROR_TOO_MANY_ANNOTATIONS
  else
    { event with
      buf := event.buf.write event.lastFieldPos [UInt8.ofNat (((newAnnotationCount <<< 4) &&& 0xF0) ||| fieldType)] }

/-- What both annotation functions do around the value. -/
def addAnnotation (event : AStatsEvent) (annotationId : UInt8) (typeId : Nat)
    (append_value : AStatsEvent → AStatsEvent) : AStatsEvent :=
  if event.numElements < 2 then event.error ERROR_ANNOTATION_DOES_NOT_FOLLOW_FIELD
  else if annotationId.toNat > MAX_BYTE_VALUE then event.error ERROR_ANNOTATION_ID_TOO_LARGE
  else increment_annotation_count (append_value ((event.append_byte annotationId.toNat).append_byte typeId))

def AStatsEvent_addBoolAnnotation (event : AStatsEvent) (annotationId : UInt8) (value : Bool) : AStatsEvent :=
  addAnnotation event annotationId BOOL_TYPE fun event => event.append_bool value

def AStatsEvent_addInt32Annotation (event : AStatsEvent) (annotationId : UInt8) (value : BitVec 32) : AStatsEvent :=
  addAnnotation event annotationId INT32_TYPE fun event => event.append_int32 value.toNat

/-! ## Building -/

/-- The buffer is zeroed; the timestamp is the time of the call. -/
def AStatsEvent_obtain (elapsedRealtimeNs : BitVec 64) : AStatsEvent :=
  AStatsEvent_writeInt64
    { buf := Memory.write (fun _ => 0) 0 [UInt8.ofNat OBJECT_TYPE]
      lastFieldPos := 0
      numBytesWritten := 2
      numElements := 0
      atomId := 0
      errors := 0
      built := false
      bufSize := MAX_PUSH_EVENT_PAYLOAD }
    elapsedRealtimeNs

/-- The errors that `build_internal` adds. -/
def buildErrors (event : AStatsEvent) (push : Bool) : AStatsEvent :=
  let event := if event.numElements > MAX_BYTE_VALUE then event.error ERROR_TOO_MANY_FIELDS else event
  let event := if event.atomId = 0 then event.error ERROR_NO_ATOM_ID else event
  if push ∧ event.numBytesWritten > MAX_PUSH_EVENT_PAYLOAD then event.error ERROR_OVERFLOW else event

/-- The buffer of an event with errors: everything after the atom id is replaced by the errors. -/
def rewriteBuffer (event : AStatsEvent) : AStatsEvent :=
  let event :=
    { event with
      numElements := 2
      buf := event.buf.write POS_ATOM_ID [UInt8.ofNat INT32_TYPE]
      numBytesWritten := POS_ATOM_ID + 1 + 4 }
  let event := event.start_field ERROR_TYPE
  event.append_int32 event.errors.toNat

def build_internal (event : AStatsEvent) (push : Bool) : AStatsEvent :=
  let event := buildErrors event push
  let event := if event.errors ≠ 0 then rewriteBuffer event else event
  { event with buf := event.buf.write POS_NUM_ELEMENTS [UInt8.ofNat event.numElements] }

def AStatsEvent_build (event : AStatsEvent) : AStatsEvent :=
  if event.built then event else { build_internal event false with built := true }

end Statsd.Libstatssocket
