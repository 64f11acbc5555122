/-
The event builder of the framework (StatsEvent.java). Like the builder of libstatssocket it serialises an event as it
is written; it keeps the type and the position of the last field and the number of its annotations beside the buffer.
A pooled buffer comes with the bytes of the event before. What does not fit is left out, and the overflow noted.

`int` and `byte` values are bit vectors where they can wrap; array lengths are natural numbers. An access outside of
an array is an exception, which is `none`. A string is its UTF-8 bytes, and of a map only its pairs matter, in the
order of their keys. Null strings and maps are `none`.
-/
import Statsd.Libstatssocket.StatsEvent

namespace Statsd.Framework

def TYPE_INT : Nat := 0x00
def TYPE_LONG : Nat := 0x01
def TYPE_STRING : Nat := 0x02
def TYPE_FLOAT : Nat := 0x04
def TYPE_BOOLEAN : Nat := 0x05
def TYPE_BYTE_ARRAY : Nat := 0x06
def TYPE_OBJECT : Nat := 0x07
def TYPE_KEY_VALUE_PAIRS : Nat := 0x08
def TYPE_ATTRIBUTION_CHAIN : Nat := 0x09
def TYPE_ERRORS : Nat := 0x0F

def ERROR_NO_TIMESTAMP : BitVec 32 := 0x1#32
def ERROR_NO_ATOM_ID : BitVec 32 := 0x2#32
def ERROR_OVERFLOW : BitVec 32 := 0x4#32
def ERROR_ATTRIBUTION_CHAIN_TOO_LONG : BitVec 32 := 0x8#32
def ERROR_TOO_MANY_KEY_VALUE_PAIRS : BitVec 32 := 0x10#32
def ERROR_ANNOTATION_DOES_NOT_FOLLOW_FIELD : BitVec 32 := 0x20#32
def ERROR_TOO_MANY_ANNOTATIONS : BitVec 32 := 0x100#32
def ERROR_TOO_MANY_FIELDS : BitVec 32 := 0x200#32
def ERROR_ATTRIBUTION_UIDS_TAGS_SIZES_NOT_EQUAL : BitVec 32 := 0x1000#32
def ERROR_ATOM_ID_INVALID_POSITION : BitVec 32 := 0x2000#32

def MAX_ANNOTATION_COUNT : Nat := 15
def MAX_ATTRIBUTION_NODES : Int := 127
def MAX_NUM_ELEMENTS : Int := 127
def MAX_KEY_VALUE_PAIRS : Int := 127

def LOGGER_ENTRY_MAX_PAYLOAD : Nat := 4068
def MAX_PUSH_PAYLOAD_SIZE : Nat := LOGGER_ENTRY_MAX_PAYLOAD - 4
def MAX_PULL_PAYLOAD_SIZE : Nat := 50 * 1024

def POS_NUM_ELEMENTS : Nat := 1
def POS_TIMESTAMP_NS : Nat := POS_NUM_ELEMENTS + 1
def POS_ATOM_ID : Nat := POS_TIMESTAMP_NS + 1 + 8

/-! ## The buffer -/

/-- The array `mBytes` and its length. -/
structure Buffer where
  mBytes : Memory
  length : Nat
  mOverflow : Bool
  mMaxSize : Nat

/-- All values that are not a number have the same bits. -/
def floatToIntBits (value : BitVec 32) : BitVec 32 :=
  if value &&& 0x7fffffff#32 > 0x7f800000#32 then 0x7fc00000#32 else value

namespace Buffer

/-- A new buffer, or the one from the pool. -/
def obtain (stale : Memory) : Buffer := ⟨stale, MAX_PUSH_PAYLOAD_SIZE, false, MAX_PULL_PAYLOAD_SIZE⟩

def setMaxSize (b : Buffer) (maxSize numBytesWritten : Nat) : Buffer :=
  { b with mMaxSize := maxSize, mOverflow := b.mOverflow || decide (numBytesWritten > maxSize) }

/-- `Arrays.copyOf`: what is new is zero. -/
def copyOf (b : Buffer) (newSize : Nat) : Buffer :=
  { b with mBytes := fun i => if i < b.length then b.mBytes i else 0, length := newSize }

def hasEnoughSpace (b : Buffer) (index numBytes : Nat) : Buffer × Bool :=
  let totalBytesNeeded := (BitVec.ofNat 32 (index + numBytes)).toInt
  if totalBytesNeeded > b.mMaxSize then ({ b with mOverflow := true }, false)
  else if b.length < b.mMaxSize ∧ totalBytesNeeded > b.length then
    -- the size is doubled until it is larger than what is needed
    (b.copyOf (min (Libstatssocket.AStatsEvent.grow totalBytesNeeded.toNat b.length) b.mMaxSize), true)
  else (b, true)

/-- The bytes are stored from an index on. -/
def store (b : Buffer) (index : Nat) (bytes : List UInt8) : Option Buffer :=
  if index + bytes.length ≤ b.length then some { b with mBytes := b.mBytes.write index bytes } else none

/-- What every put method does with the bytes of its value; it returns the number of bytes written. -/
def put (b : Buffer) (index : Nat) (bytes : List UInt8) : Option (Buffer × Nat) :=
  let (b, enough) := b.hasEnoughSpace index bytes.length
  if enough then (b.store index bytes).map fun b => (b, bytes.length) else some (b, 0)

def putByte (b : Buffer) (index value : Nat) : Option (Buffer × Nat) := b.put index [UInt8.ofNat value]
def putBoolean (b : Buffer) (index : Nat) (value : Bool) : Option (Buffer × Nat) := b.putByte index value.toNat
def putInt (b : Buffer) (index : Nat) (value : BitVec 32) : Option (Buffer × Nat) := b.put index (leBytes 4 value.toNat)
def putLong (b : Buffer) (index : Nat) (value : BitVec 64) : Option (Buffer × Nat) := b.put index (leBytes 8 value.toNat)
def putFloat (b : Buffer) (index : Nat) (value : BitVec 32) : Option (Buffer × Nat) := b.putInt index (floatToIntBits value)
def putByteArray (b : Buffer) (index : Nat) (value : List UInt8) : Option (Buffer × Nat) := b.put index value

end Buffer

/-! ## The builder -/

structure Builder where
  mBuffer : Buffer
  mTimestampNs : BitVec 64
  mAtomId : BitVec 32
  mCurrentAnnotationCount : Nat
  mPos : Nat
  mPosLastField : Nat
  mLastType : Nat
  mNumElements : BitVec 32
  mErrorMask : BitVec 32
  mUsePooledBuffer : Bool

def stringToBytes (value : Option (List UInt8)) : List UInt8 := value.getD []

namespace Builder

/-- `mErrorMask |= e`. -/
def error (b : Builder) (e : BitVec 32) : Builder := { b with mErrorMask := b.mErrorMask ||| e }

/-- `mPos += mBuffer.put…(mPos, …)`. -/
def put (b : Builder) (f : Buffer → Nat → Option (Buffer × Nat)) : Option Builder :=
  (f b.mBuffer b.mPos).map fun r => { b with mBuffer := r.1, mPos := b.mPos + r.2 }

def writeTypeId (b : Builder) (typeId : Nat) : Option Builder :=
  { b with mPosLastField := b.mPos, mLastType := typeId, mCurrentAnnotationCount := 0 }.put (·.putByte · (typeId &&& 0x0F))

/-- `mNumElements++`. -/
def countElement (b : Builder) : Builder := { b with mNumElements := b.mNumElements + 1 }

/-! ### Fields -/

def writeBoolean (b : Builder) (value : Bool) : Option Builder := do
  let b ← b.writeTypeId TYPE_BOOLEAN
  let b ← b.put (·.putBoolean · value)
  return b.countElement

def writeInt (b : Builder) (value : BitVec 32) : Option Builder := do
  let b ← b.writeTypeId TYPE_INT
  let b ← b.put (·.putInt · value)
  return b.countElement

def writeLong (b : Builder) (value : BitVec 64) : Option Builder := do
  let b ← b.writeTypeId TYPE_LONG
  let b ← b.put (·.putLong · value)
  return b.countElement

def writeFloat (b : Builder) (value : BitVec 32) : Option Builder := do
  let b ← b.writeTypeId TYPE_FLOAT
  let b ← b.put (·.putFloat · value)
  return b.countElement

/-- `writeByteArray` with a type. -/
def writeTyped (b : Builder) (value : List UInt8) (typeId : Nat) : Option Builder := do
  let b ← b.writeTypeId typeId
  let b ← b.put (·.putInt · (BitVec.ofNat 32 value.length))
  let b ← b.put (·.putByteArray · value)
  return b.countElement

def writeString (b : Builder) (value : Option (List UInt8)) : Option Builder := b.writeTyped (stringToBytes value) TYPE_STRING

def writeByteArray (b : Builder) (value : List UInt8) : Option Builder := b.writeTyped value TYPE_BYTE_ARRAY

/-- One round of the loop over the nodes of a chain. -/
def writeNode (b : Builder) (node : BitVec 32 × Option (List UInt8)) : Option Builder := do
  let b ← b.put (·.putInt · node.1)
  let tagBytes := stringToBytes node.2
  let b ← b.put (·.putInt · (BitVec.ofNat 32 tagBytes.length))
  b.put (·.putByteArray · tagBytes)

def writeAttributionChain (b : Builder) (uids : List (BitVec 32)) (tags : List (Option (List UInt8))) : Option Builder :=
  let numUids := (BitVec.ofNat 8 uids.length).toInt
  let numTags := (BitVec.ofNat 8 tags.length).toInt
  if numUids ≠ numTags then some (b.error ERROR_ATTRIBUTION_UIDS_TAGS_SIZES_NOT_EQUAL)
  else if numUids > MAX_ATTRIBUTION_NODES then some (b.error ERROR_ATTRIBUTION_CHAIN_TOO_LONG)
  else do
    let b ← b.writeTypeId TYPE_ATTRIBUTION_CHAIN
    let b ← b.put (·.putByte · uids.length)
    -- a negative number of uids has no nodes
    let b ← ((uids.zip tags).take numUids.toNat).foldlM writeNode b
    return b.countElement

/-- The pairs of a map, of which null has none. -/
def writePairs {α : Type} (typeId : Nat) (putValue : Builder → α → Option Builder) (b : Builder)
    (map : Option (List (BitVec 32 × α))) : Option Builder :=
  (map.getD []).foldlM (fun b pair => do
    let b ← b.put (·.putInt · pair.1)
    let b ← b.writeTypeId typeId
    putValue b pair.2) b

def writeKeyValuePairs (b : Builder) (intMap : Option (List (BitVec 32 × BitVec 32))) (longMap : Option (List (BitVec 32 × BitVec 64)))
    (stringMap : Option (List (BitVec 32 × Option (List UInt8)))) (floatMap : Option (List (BitVec 32 × BitVec 32))) : Option Builder :=
  let numPairs := (intMap.getD []).length + (longMap.getD []).length + (stringMap.getD []).length + (floatMap.getD []).length
  let totalCount := (BitVec.ofNat 32 numPairs).toInt
  if totalCount > MAX_KEY_VALUE_PAIRS then some (b.error ERROR_TOO_MANY_KEY_VALUE_PAIRS)
  else do
    let b ← b.writeTypeId TYPE_KEY_VALUE_PAIRS
    let b ← b.put (·.putByte · numPairs)
    let b ← b.writePairs TYPE_INT (fun b value => b.put (·.putInt · value)) intMap
    let b ← b.writePairs TYPE_LONG (fun b value => b.put (·.putLong · value)) longMap
    let b ← b.writePairs TYPE_STRING (fun b value => do
      let valueBytes := stringToBytes value
      let b ← b.put (·.putInt · (BitVec.ofNat 32 valueBytes.length))
      b.put (·.putByteArray · valueBytes)) stringMap
    let b ← b.writePairs TYPE_FLOAT (fun b value => b.put (·.putFloat · value)) floatMap
    return b.countElement

/-- A second atom id is ignored, and one behind a field is an error. -/
def setAtomId (b : Builder) (atomId : BitVec 32) : Option Builder :=
  if b.mAtomId = 0 then
    let b := { b with mAtomId := atomId }
    if b.mNumElements = 1 then b.writeInt atomId else some (b.error ERROR_ATOM_ID_INVALID_POSITION)
  else some b

/-! ### Annotations -/

def writeAnnotationCount (b : Builder) : Option Builder :=
  (b.mBuffer.putByte b.mPosLastField ((b.mCurrentAnnotationCount <<< 4) ||| (b.mLastType &&& 0x0F))).map
    fun r => { b with mBuffer := r.1 }

/-- What both annotation methods do around the value. -/
def addAnnotation (b : Builder) (annotationId : UInt8) (typeId : Nat) (putValue : Buffer → Nat → Option (Buffer × Nat)) :
    Option Builder :=
  if b.mNumElements.toInt < 2 then some (b.error ERROR_ANNOTATION_DOES_NOT_FOLLOW_FIELD)
  else if b.mCurrentAnnotationCount ≥ MAX_ANNOTATION_COUNT then some (b.error ERROR_TOO_MANY_ANNOTATIONS)
  else do
    let b ← b.put (·.putByte · annotationId.toNat)
    let b ← b.put (·.putByte · typeId)
    let b ← b.put putValue
    { b with mCurrentAnnotationCount := b.mCurrentAnnotationCount + 1 }.writeAnnotationCount

def addBooleanAnnotation (b : Builder) (annotationId : UInt8) (value : Bool) : Option Builder :=
  b.addAnnotation annotationId TYPE_BOOLEAN (·.putBoolean · value)

def addIntAnnotation (b : Builder) (annotationId : UInt8) (value : BitVec 32) : Option Builder :=
  b.addAnnotation annotationId TYPE_INT (·.putInt · value)

/-! ### Building -/

/-- The constructor, at the time of the call. -/
def new (stale : Memory) (elapsedRealtimeNanos : BitVec 64) : Option Builder := do
  let b : Builder :=
    { mBuffer := Buffer.obtain stale
      mTimestampNs := elapsedRealtimeNanos
      mAtomId := 0
      mCurrentAnnotationCount := 0
      mPos := 0
      mPosLastField := 0
      mLastType := 0
      mNumElements := 0
      mErrorMask := 0
      mUsePooledBuffer := false }
  let b ← b.writeTypeId TYPE_OBJECT
  { b with mPos := POS_TIMESTAMP_NS }.writeLong elapsedRealtimeNanos

def usePooledBuffer (b : Builder) : Builder :=
  { b with mUsePooledBuffer := true, mBuffer := b.mBuffer.setMaxSize MAX_PUSH_PAYLOAD_SIZE b.mPos }

/-- The errors that `build` adds. -/
def buildErrors (b : Builder) : Builder :=
  let b := if b.mTimestampNs = 0 then b.error ERROR_NO_TIMESTAMP else b
  let b := if b.mAtomId = 0 then b.error ERROR_NO_ATOM_ID else b
  let b := if b.mBuffer.mOverflow then b.error ERROR_OVERFLOW else b
  if b.mNumElements.toInt > MAX_NUM_ELEMENTS then b.error ERROR_TOO_MANY_FIELDS else b

/-- The buffer of an event with errors: everything after the timestamp is replaced by the atom id and the errors. -/
def rewriteBuffer (b : Builder) : Option Builder := do
  let b ← { b with mPos := POS_ATOM_ID }.put (·.putByte · TYPE_INT)
  let b ← b.put (·.putInt · b.mAtomId)
  let b ← b.put (·.putByte · TYPE_ERRORS)
  b.put (·.putInt · b.mErrorMask)

end Builder

/-- A built event: its payload is the first `mNumBytes` bytes. -/
structure StatsEvent where
  mAtomId : BitVec 32
  mPayload : Memory
  mNumBytes : Nat

namespace Builder

def build (b : Builder) : Option StatsEvent := do
  let b := b.buildErrors
  let (b, numElements) ← if b.mErrorMask = 0 then some (b, b.mNumElements.toNat) else b.rewriteBuffer.map fun b => (b, 3)
  let (buffer, _) ← b.mBuffer.putByte POS_NUM_ELEMENTS numElements
  -- an event that is not pooled gets a copy of the bytes
  let payload := if b.mUsePooledBuffer then buffer.mBytes else fun i => if i < b.mPos then buffer.mBytes i else 0
  return ⟨b.mAtomId, payload, b.mPos⟩

end Builder

end Statsd.Framework
