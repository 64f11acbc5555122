/-
What a sequence of calls writes, the bytes it is serialised to, and what each call does to the buffer:
an append of bytes, a new last field, or an annotation of the last field.
-/
import Statsd.Libstatssocket.StatsEvent

namespace Statsd.Libstatssocket

open AStatsEvent

/-! ## Calls -/

/-- The calls between obtaining an event and building it. -/
inductive Call where
  | setAtomId (atomId : BitVec 32)
  | writeInt32 (value : BitVec 32)
  | writeInt64 (value : BitVec 64)
  | writeFloat (value : BitVec 32)
  | writeBool (value : Bool)
  | writeByteArray (buf : Option (List UInt8))
  | writeString (value : Option (List UInt8))
  | writeAttributionChain (nodes : List (BitVec 32 × Option (List UInt8)))
  | annotateBool (annotationId : UInt8) (value : Bool)
  | annotateInt32 (annotationId : UInt8) (value : BitVec 32)

def Call.run (event : AStatsEvent) : Call → AStatsEvent
  | .setAtomId atomId => AStatsEvent_setAtomId event atomId
  | .writeInt32 value => AStatsEvent_writeInt32 event value
  | .writeInt64 value => AStatsEvent_writeInt64 event value
  | .writeFloat value => AStatsEvent_writeFloat event value
  | .writeBool value => AStatsEvent_writeBool event value
  | .writeByteArray buf => AStatsEvent_writeByteArray event buf
  | .writeString value => AStatsEvent_writeString event value
  | .writeAttributionChain nodes => AStatsEvent_writeAttributionChain event nodes
  | .annotateBool annotationId value => AStatsEvent_addBoolAnnotation event annotationId value
  | .annotateInt32 annotationId value => AStatsEvent_addInt32Annotation event annotationId value

/-- Calls that a program can make: no array is longer than 2^63 - 1 bytes, the number of nodes of a chain
is a byte, and chains have a node. -/
def Call.Ok : Call → Prop
  | .writeByteArray buf => (buf.getD []).length < 2 ^ 63
  | .writeAttributionChain nodes => 0 < nodes.length ∧ nodes.length < 256
  | _ => True

/-- No array is longer than 2^63 - 1 bytes. -/
def Call.Fits : Call → Prop
  | .writeByteArray buf => (buf.getD []).length < 2 ^ 63
  | _ => True

theorem Call.Ok.fits {c : Call} (hok : c.Ok) : c.Fits := by
  cases c with
  | writeByteArray buf => exact hok
  | _ => trivial

/-! ## What is written -/

/-- The value of a field. -/
inductive Content where
  | int32 (value : BitVec 32)
  | int64 (value : BitVec 64)
  | float (value : BitVec 32)
  | bool (value : Bool)
  | byteArray (bytes : List UInt8)
  | string (bytes : List UInt8)
  | chain (nodes : List (BitVec 32 × List UInt8))

inductive Annotation where
  | bool (annotationId : UInt8) (value : Bool)
  | int32 (annotationId : UInt8) (value : BitVec 32)

/-- A field with its annotations. -/
structure Element where
  content : Content
  annotations : List Annotation := []

/-- The atom id, when it was set before any field, and the fields. -/
structure Written where
  atomId : Option (BitVec 32) := none
  atomAnnotations : List Annotation := []
  fields : List Element := []

namespace Written

def write (w : Written) (content : Content) : Written := { w with fields := w.fields ++ [⟨content, []⟩] }

/-- An annotation belongs to the last field, or to the atom when there is none yet. -/
def annotate (w : Written) (a : Annotation) : Written :=
  if w.fields = [] then (if w.atomId = none then w else { w with atomAnnotations := w.atomAnnotations ++ [a] })
  else { w with fields := w.fields.modify (w.fields.length - 1) fun e => { e with annotations := e.annotations ++ [a] } }

/-- A call as it is meant: an atom id counts before any field, and only the first one does. -/
def call (w : Written) : Call → Written
  | .setAtomId atomId => if w.atomId = none ∧ w.fields = [] then { w with atomId := some atomId } else w
  | .writeInt32 value => w.write (.int32 value)
  | .writeInt64 value => w.write (.int64 value)
  | .writeFloat value => w.write (.float value)
  | .writeBool value => w.write (.bool value)
  | .writeByteArray buf => w.write (.byteArray (buf.getD []))
  | .writeString value => w.write (.string (cString (value.getD [])))
  | .writeAttributionChain nodes =>
    if nodes.length > MAX_BYTE_VALUE then w
    else w.write (.chain (nodes.map fun node => (node.1, cString (node.2.getD []))))
  | .annotateBool annotationId value => w.annotate (.bool annotationId value)
  | .annotateInt32 annotationId value => w.annotate (.int32 annotationId value)

/-- The atom id as an element. -/
def atomElement (w : Written) : List Element :=
  match w.atomId with
  | some atomId => [⟨.int32 atomId, w.atomAnnotations⟩]
  | none => []

def elements (w : Written) : List Element := w.atomElement ++ w.fields

end Written

/-! ## The bytes -/

/-- A string behind its length. -/
def stringBytes (s : List UInt8) : List UInt8 := leBytes 4 s.length ++ s

namespace Content

def typeId : Content → Nat
  | int32 _ => INT32_TYPE
  | int64 _ => INT64_TYPE
  | float _ => FLOAT_TYPE
  | bool _ => BOOL_TYPE
  | byteArray _ => BYTE_ARRAY_TYPE
  | string _ => STRING_TYPE
  | chain _ => ATTRIBUTION_CHAIN_TYPE

def nodeBytes (node : BitVec 32 × List UInt8) : List UInt8 := leBytes 4 node.1.toNat ++ stringBytes node.2

def bytes : Content → List UInt8
  | int32 value => leBytes 4 value.toNat
  | int64 value => leBytes 8 value.toNat
  | float value => leBytes 4 value.toNat
  | bool value => [UInt8.ofNat value.toNat]
  | byteArray value => stringBytes value
  | string value => stringBytes value
  | chain nodes => UInt8.ofNat nodes.length :: nodes.flatMap nodeBytes

end Content

def Annotation.bytes : Annotation → List UInt8
  | .bool annotationId value => [annotationId, UInt8.ofNat BOOL_TYPE, UInt8.ofNat value.toNat]
  | .int32 annotationId value => [annotationId, UInt8.ofNat INT32_TYPE] ++ leBytes 4 value.toNat

def annotationBytes (annotations : List Annotation) : List UInt8 := annotations.flatMap Annotation.bytes

namespace Element

def typeInfo (e : Element) : Nat := e.content.typeId + 16 * e.annotations.length

def bytes (e : Element) : List UInt8 := UInt8.ofNat e.typeInfo :: (e.content.bytes ++ annotationBytes e.annotations)

end Element

/-- The serialised object up to its elements: the type, the number of elements, which is set last, and the timestamp. -/
def headerBytes (numElements : Nat) (timestamp : BitVec 64) : List UInt8 :=
  [UInt8.ofNat OBJECT_TYPE, UInt8.ofNat numElements] ++ Element.bytes ⟨.int64 timestamp, []⟩

/-! ## Appending -/

namespace AStatsEvent

/-- The valid bytes of the buffer. -/
def payload (event : AStatsEvent) : List UInt8 := event.buf.read 0 event.numBytesWritten

theorem length_payload (event : AStatsEvent) : event.payload.length = event.numBytesWritten := Memory.length_read _ _ _

/-- An append of `bs`: whatever happens, only bytes behind the valid ones change; without an error, `bs` is
what was added. -/
structure Appends (bs : List UInt8) (e e' : AStatsEvent) : Prop where
  le : e.numBytesWritten ≤ e'.numBytesWritten
  max : e'.numBytesWritten ≤ MAX_PULL_EVENT_PAYLOAD
  buf : ∀ i < e.numBytesWritten, e'.buf i = e.buf i
  last : e'.lastFieldPos = e.lastFieldPos
  count : e'.numElements = e.numElements
  atomId : e'.atomId = e.atomId
  built : e'.built = e.built
  errors : e'.errors = 0 → e.errors = 0
  payload : e'.errors = 0 → e'.payload = e.payload ++ bs

theorem Appends.trans {bs bs' : List UInt8} {e e' e'' : AStatsEvent} (h : Appends bs e e') (h' : Appends bs' e' e'') :
    Appends (bs ++ bs') e e'' where
  le := h.le.trans h'.le
  max := h'.max
  buf i hi := (h'.buf i (lt_of_lt_of_le hi h.le)).trans (h.buf i hi)
  last := h'.last.trans h.last
  count := h'.count.trans h.count
  atomId := h'.atomId.trans h.atomId
  built := h'.built.trans h.built
  errors h0 := h.errors (h'.errors h0)
  payload h0 := by rw [h'.payload h0, h.payload (h'.errors h0), List.append_assoc]

theorem error_ne_zero (e : AStatsEvent) {x : BitVec 32} (h : x ≠ 0) : (e.error x).errors ≠ 0 := by
  intro h0
  have hor : e.errors ||| x = 0#32 := h0
  rw [BitVec.or_eq_zero_iff] at hor
  exact h hor.2

theorem overflows_cases (e : AStatsEvent) (size : Nat) :
    ((e.numBytesWritten + size) % 2 ^ 64 > MAX_PULL_EVENT_PAYLOAD ∧ e.overflows size = (e.error ERROR_OVERFLOW, true)) ∨
    ((e.numBytesWritten + size) % 2 ^ 64 ≤ MAX_PULL_EVENT_PAYLOAD ∧
      ∃ bufSize, e.overflows size = ({ e with bufSize := bufSize }, false)) := by
  unfold overflows
  dsimp only
  split
  · exact .inl ⟨‹_›, rfl⟩
  · split
    · exact .inr ⟨not_lt.1 ‹_›, _, rfl⟩
    · exact .inr ⟨not_lt.1 ‹_›, e.bufSize, rfl⟩

theorem append_cases (e : AStatsEvent) (bs : List UInt8) (hsize : e.numBytesWritten ≤ MAX_PULL_EVENT_PAYLOAD)
    (hbs : bs.length < 2 ^ 63) :
    (e.numBytesWritten + bs.length > MAX_PULL_EVENT_PAYLOAD ∧ e.append bs = e.error ERROR_OVERFLOW) ∨
    (e.numBytesWritten + bs.length ≤ MAX_PULL_EVENT_PAYLOAD ∧ ∃ bufSize, e.append bs =
      { e with
        buf := e.buf.write e.numBytesWritten bs
        numBytesWritten := e.numBytesWritten + bs.length
        bufSize := bufSize }) := by
  have hmax : MAX_PULL_EVENT_PAYLOAD = 51200 := rfl
  have hmod : (e.numBytesWritten + bs.length) % 2 ^ 64 = e.numBytesWritten + bs.length := by omega
  unfold append
  rcases e.overflows_cases bs.length with ⟨h, heq⟩ | ⟨h, bufSize, heq⟩
  · rw [hmod] at h
    rw [heq]
    exact .inl ⟨h, rfl⟩
  · rw [hmod] at h
    rw [heq]
    refine .inr ⟨h, bufSize, ?_⟩
    simp only [Bool.false_eq_true, if_false, hmod]

variable {e : AStatsEvent}

theorem error_appends (hmax : e.numBytesWritten ≤ MAX_PULL_EVENT_PAYLOAD) {x : BitVec 32} (hx : x ≠ 0)
    (bs : List UInt8) : Appends bs e (e.error x) :=
  ⟨le_refl _, hmax, fun _ _ => rfl, rfl, rfl, rfl, rfl, fun h => absurd h (e.error_ne_zero hx),
    fun h => absurd h (e.error_ne_zero hx)⟩

theorem append_fits (bs : List UInt8) (h : e.numBytesWritten + bs.length ≤ MAX_PULL_EVENT_PAYLOAD) :
    (e.append bs).payload = e.payload ++ bs ∧ (e.append bs).numBytesWritten = e.numBytesWritten + bs.length ∧
      (e.append bs).errors = e.errors ∧ (e.append bs).numElements = e.numElements ∧ (e.append bs).atomId = e.atomId ∧
      (e.append bs).lastFieldPos = e.lastFieldPos ∧ (e.append bs).built = e.built := by
  have hpull : MAX_PULL_EVENT_PAYLOAD = 51200 := rfl
  rcases e.append_cases bs (by omega) (by omega) with ⟨h', -⟩ | ⟨-, bufSize, heq⟩
  · omega
  · rw [heq]
    refine ⟨?_, rfl, rfl, rfl, rfl, rfl, rfl⟩
    show (e.buf.write e.numBytesWritten bs).read 0 (e.numBytesWritten + bs.length) = _
    rw [Memory.read_add, Memory.read_write_before bs (by omega), Nat.zero_add, Memory.read_write]
    rfl

theorem append_appends {bs : List UInt8} (hmax : e.numBytesWritten ≤ MAX_PULL_EVENT_PAYLOAD)
    (hbs : bs.length < 2 ^ 63) : Appends bs e (e.append bs) := by
  rcases e.append_cases bs hmax hbs with ⟨-, heq⟩ | ⟨h, bufSize, heq⟩
  · rw [heq]
    exact error_appends hmax (by decide) bs
  · have hpay := (append_fits bs h).1
    rw [heq] at hpay ⊢
    exact ⟨Nat.le_add_right _ _, h, fun i hi => Memory.write_before bs hi, rfl, rfl, rfl, rfl, id, fun _ => hpay⟩

theorem append_int32_appends (n : Nat) (hmax : e.numBytesWritten ≤ MAX_PULL_EVENT_PAYLOAD) :
    Appends (leBytes 4 n) e (e.append_int32 n) :=
  append_appends hmax (by rw [length_leBytes]; decide)

theorem append_int64_appends (n : Nat) (hmax : e.numBytesWritten ≤ MAX_PULL_EVENT_PAYLOAD) :
    Appends (leBytes 8 n) e (e.append_int64 n) :=
  append_appends hmax (by rw [length_leBytes]; decide)

theorem append_byte_appends (n : Nat) (hmax : e.numBytesWritten ≤ MAX_PULL_EVENT_PAYLOAD) :
    Appends [UInt8.ofNat n] e (e.append_byte n) :=
  append_appends hmax (by show 1 < 2 ^ 63; decide)

theorem append_sized {bs : List UInt8} (hmax : e.numBytesWritten ≤ MAX_PULL_EVENT_PAYLOAD)
    (hbs : bs.length < 2 ^ 63) : Appends (stringBytes bs) e ((e.append_int32 bs.length).append bs) := by
  have h := append_int32_appends bs.length hmax
  exact h.trans (append_appends h.max hbs)

theorem append_string_appends (s : List UInt8) (hmax : e.numBytesWritten ≤ MAX_PULL_EVENT_PAYLOAD) :
    Appends (stringBytes (cString s)) e (e.append_string s) := by
  have hpull : MAX_PULL_EVENT_PAYLOAD = 51200 := rfl
  unfold append_string
  dsimp only
  split
  · exact error_appends hmax (by decide) _
  · have hmin : min (cString s).length MAX_PULL_EVENT_PAYLOAD = (cString s).length := by omega
    rw [hmin, List.take_length]
    exact append_sized hmax (by omega)

theorem append_nodes (nodes : List (BitVec 32 × Option (List UInt8))) {e e' : AStatsEvent} {bs : List UInt8}
    (h : Appends bs e e') :
    Appends (bs ++ (nodes.map fun node => (node.1, cString (node.2.getD []))).flatMap Content.nodeBytes) e
      (nodes.foldl (fun event node => (event.append_int32 node.1.toNat).append_string (node.2.getD [])) e') := by
  induction nodes generalizing e' bs with
  | nil => rw [List.map_nil, List.flatMap_nil, List.append_nil]; exact h
  | cons node nodes ih =>
    rw [List.map_cons, List.flatMap_cons, ← List.append_assoc, List.foldl_cons]
    have huid := append_int32_appends node.1.toNat h.max
    exact ih (h.trans (huid.trans (append_string_appends (node.2.getD []) huid.max)))

/-! ## Fields -/

/-- A field of bytes `bs` is written: as an append, with the field as the last one. -/
structure Writes (bs : List UInt8) (e e' : AStatsEvent) : Prop where
  le : e.numBytesWritten ≤ e'.numBytesWritten
  max : e'.numBytesWritten ≤ MAX_PULL_EVENT_PAYLOAD
  buf : ∀ i < e.numBytesWritten, e'.buf i = e.buf i
  last : e'.lastFieldPos = e.numBytesWritten
  count : e'.numElements = (e.numElements + 1) % 2 ^ 32
  atomId : e'.atomId = e.atomId
  built : e'.built = e.built
  errors : e'.errors = 0 → e.errors = 0
  payload : e'.errors = 0 → e'.payload = e.payload ++ bs

theorem start_field_writes (typeId : Nat) (hmax : e.numBytesWritten ≤ MAX_PULL_EVENT_PAYLOAD) :
    Writes [UInt8.ofNat typeId] e (e.start_field typeId) := by
  have h := append_byte_appends (e := { e with lastFieldPos := e.numBytesWritten }) typeId hmax
  refine ⟨h.le, h.max, h.buf, h.last, ?_, h.atomId, h.built, h.errors, h.payload⟩
  show (_ + 1) % 2 ^ 32 = _
  rw [h.count]

theorem Writes.append {bs bs' : List UInt8} {e e' e'' : AStatsEvent} (h : Writes bs e e') (h' : Appends bs' e' e'') :
    Writes (bs ++ bs') e e'' where
  le := h.le.trans h'.le
  max := h'.max
  buf i hi := (h'.buf i (lt_of_lt_of_le hi h.le)).trans (h.buf i hi)
  last := h'.last.trans h.last
  count := h'.count.trans h.count
  atomId := h'.atomId.trans h.atomId
  built := h'.built.trans h.built
  errors h0 := h.errors (h'.errors h0)
  payload h0 := by rw [h'.payload h0, h.payload (h'.errors h0), List.append_assoc]

end AStatsEvent

theorem Element.bytes_plain (c : Content) : Element.bytes ⟨c, []⟩ = [UInt8.ofNat c.typeId] ++ c.bytes := by
  simp [Element.bytes, Element.typeInfo, annotationBytes]

/-- The field that a call writes. -/
def Call.content : Call → Option Content
  | .writeInt32 value => some (.int32 value)
  | .writeInt64 value => some (.int64 value)
  | .writeFloat value => some (.float value)
  | .writeBool value => some (.bool value)
  | .writeByteArray buf => some (.byteArray (buf.getD []))
  | .writeString value => some (.string (cString (value.getD [])))
  | .writeAttributionChain nodes =>
    if nodes.length > MAX_BYTE_VALUE then none
    else some (.chain (nodes.map fun node => (node.1, cString (node.2.getD []))))
  | _ => none

theorem Call.call_content {c : Call} {x : Content} (h : c.content = some x) (w : Written) : w.call c = w.write x := by
  cases c with
  | writeAttributionChain nodes =>
    unfold Call.content at h
    unfold Written.call
    dsimp only at h ⊢
    split at h
    · cases h
    · rename_i hlen; cases h; rw [if_neg hlen]
  | _ => cases h <;> rfl

theorem writeInt32_writes {e : AStatsEvent} (value : BitVec 32) (hmax : e.numBytesWritten ≤ MAX_PULL_EVENT_PAYLOAD) :
    Writes (Element.bytes ⟨.int32 value, []⟩) e (AStatsEvent_writeInt32 e value) := by
  have h := start_field_writes INT32_TYPE hmax
  rw [Element.bytes_plain]
  exact h.append (append_int32_appends value.toNat h.max)

theorem Call.run_writes {c : Call} (hok : c.Fits) {x : Content} (h : c.content = some x) {e : AStatsEvent}
    (hmax : e.numBytesWritten ≤ MAX_PULL_EVENT_PAYLOAD) : Writes (Element.bytes ⟨x, []⟩) e (c.run e) := by
  have hstart := fun typeId => start_field_writes (e := e) typeId hmax
  cases c with
  | writeInt32 value => cases h; exact writeInt32_writes value hmax
  | writeInt64 value =>
    cases h
    rw [Element.bytes_plain]
    exact (hstart _).append (append_int64_appends value.toNat (hstart _).max)
  | writeFloat value =>
    cases h
    rw [Element.bytes_plain]
    exact (hstart _).append (append_int32_appends value.toNat (hstart _).max)
  | writeBool value =>
    cases h
    rw [Element.bytes_plain]
    exact (hstart _).append (append_byte_appends value.toNat (hstart _).max)
  | writeByteArray buf =>
    cases h
    rw [Element.bytes_plain]
    show Writes _ e (AStatsEvent_writeByteArray e buf)
    unfold AStatsEvent_writeByteArray
    dsimp only
    have hlen : (buf.getD []).length < 2 ^ 63 := hok
    generalize buf.getD [] = bytes at hlen
    split
    · exact (hstart _).append (append_sized (hstart _).max hlen)
    · have hnil : bytes = [] := List.length_eq_zero_iff.1 (by omega)
      subst hnil
      exact (hstart _).append (append_int32_appends 0 (hstart _).max)
  | writeString value =>
    cases h
    rw [Element.bytes_plain]
    exact (hstart _).append (append_string_appends _ (hstart _).max)
  | writeAttributionChain nodes =>
    unfold Call.content at h
    dsimp only at h
    split at h
    · cases h
    · rename_i hlen
      cases h
      rw [Element.bytes_plain]
      show Writes _ e (AStatsEvent_writeAttributionChain e nodes)
      unfold AStatsEvent_writeAttributionChain
      rw [if_neg hlen]
      have hnum := append_byte_appends nodes.length (hstart ATTRIBUTION_CHAIN_TYPE).max
      have hall := (hstart ATTRIBUTION_CHAIN_TYPE).append (append_nodes nodes hnum)
      simpa [Content.bytes, Content.typeId] using hall
  | _ => cases h

/-! ## Annotations -/

/-- The annotation that a call adds. -/
def Call.adds : Call → Option Annotation
  | .annotateBool annotationId value => some (.bool annotationId value)
  | .annotateInt32 annotationId value => some (.int32 annotationId value)
  | _ => none

theorem incremented_typeInfo {t n : Nat} (ht : t < 16) (hn : n < 15) :
    (((((t + 16 * n) &&& 0xF0) >>> 4) + 1) <<< 4 &&& 0xF0) ||| ((t + 16 * n) &&& 0x0F) = t + 16 * (n + 1) ∧
      (((t + 16 * n) &&& 0xF0) >>> 4) + 1 = n + 1 := by
  have hall : ∀ t < 16, ∀ n < 15,
      (((((t + 16 * n) &&& 0xF0) >>> 4) + 1) <<< 4 &&& 0xF0) ||| ((t + 16 * n) &&& 0x0F) = t + 16 * (n + 1) ∧
        (((t + 16 * n) &&& 0xF0) >>> 4) + 1 = n + 1 := by decide
  exact hall t ht n hn

theorem full_typeInfo {t : Nat} (ht : t < 16) : (((t + 16 * 15) &&& 0xF0) >>> 4) + 1 = 16 := by
  have hall : ∀ t < 16, (((t + 16 * 15) &&& 0xF0) >>> 4) + 1 = 16 := by decide
  exact hall t ht

theorem Content.typeId_lt (c : Content) : c.typeId < 16 := by
  cases c <;> exact of_decide_eq_true rfl

/-- What an annotation does: the bytes of the annotation are appended, and the type byte of the last field
is changed. -/
structure Annotates (a : Annotation) (e e' : AStatsEvent) : Prop where
  le : e.numBytesWritten ≤ e'.numBytesWritten
  max : e'.numBytesWritten ≤ MAX_PULL_EVENT_PAYLOAD
  buf : ∀ i < e.numBytesWritten, i ≠ e.lastFieldPos → e'.buf i = e.buf i
  last : e'.lastFieldPos = e.lastFieldPos
  count : e'.numElements = e.numElements
  atomId : e'.atomId = e.atomId
  built : e'.built = e.built
  errors : e'.errors = 0 → e.errors = 0
  payload : e'.errors = 0 → ∀ pre x, x.annotations.length ≤ 15 → e.payload = pre ++ Element.bytes x →
    e.lastFieldPos = pre.length →
    x.annotations.length < 15 ∧ e'.payload = pre ++ Element.bytes { x with annotations := x.annotations ++ [a] }

theorem increment_annotates {e e1 : AStatsEvent} {a : Annotation} (h : Appends a.bytes e e1) :
    Annotates a e (increment_annotation_count e1) := by
  unfold increment_annotation_count
  dsimp only
  split
  · -- an error
    have herr := error_appends h.max (e := e1) (x := ERROR_TOO_MANY_ANNOTATIONS) (by decide) []
    refine ⟨h.le, h.max, fun i hi _ => h.buf i hi, h.last, h.count, h.atomId, h.built, fun h0 => h.errors (herr.errors h0),
      fun h0 => ?_⟩
    exact absurd h0 (e1.error_ne_zero (by decide))
  · rename_i hle
    refine ⟨h.le, h.max, fun i hi hne => ?_, h.last, h.count, h.atomId, h.built, h.errors, fun h0 pre x hx hpay hlast => ?_⟩
    · rw [← h.buf i hi]
      rcases Nat.lt_or_gt_of_ne (h.last ▸ hne : i ≠ e1.lastFieldPos) with hlt | hgt
      · exact Memory.write_before _ hlt
      · exact Memory.write_after (by simpa using hgt)
    · have hpay1 : e1.buf.read 0 e1.numBytesWritten =
          pre ++ UInt8.ofNat x.typeInfo :: (x.content.bytes ++ annotationBytes x.annotations ++ a.bytes) := by
        show e1.payload = _
        rw [h.payload h0, hpay]
        simp only [Element.bytes, List.append_assoc, List.cons_append]
      obtain ⟨hb, hset⟩ := Memory.read_split hpay1
      rw [h.last, hlast, hb] at hle ⊢
      have ht := x.content.typeId_lt
      have hbyte : (UInt8.ofNat x.typeInfo).toNat = x.content.typeId + 16 * x.annotations.length :=
        UInt8.toNat_ofNat_of_lt (by show x.content.typeId + 16 * x.annotations.length < 256; omega)
      rw [hbyte] at hle ⊢
      have hlt : x.annotations.length < 15 := by
        rcases Nat.lt_or_eq_of_le hx with hlt | heq
        · exact hlt
        · rw [heq, full_typeInfo ht] at hle
          exact absurd hle (by decide)
      refine ⟨hlt, ?_⟩
      show Memory.read _ 0 e1.numBytesWritten = _
      rw [hset, (incremented_typeInfo ht hlt).1]
      simp [Element.bytes, Element.typeInfo, annotationBytes]

theorem Call.run_annotates {c : Call} {a : Annotation} (h : c.adds = some a) {e : AStatsEvent}
    (hmax : e.numBytesWritten ≤ MAX_PULL_EVENT_PAYLOAD) :
    (∃ x, x ≠ 0 ∧ c.run e = e.error x) ∨ 2 ≤ e.numElements ∧ Annotates a e (c.run e) := by
  have hgen : ∀ (annotationId : UInt8) (typeId : Nat) (append_value : AStatsEvent → AStatsEvent) (bs : List UInt8),
      (∀ e1 : AStatsEvent, e1.numBytesWritten ≤ MAX_PULL_EVENT_PAYLOAD → Appends bs e1 (append_value e1)) →
      a.bytes = [annotationId] ++ [UInt8.ofNat typeId] ++ bs →
      (∃ x, x ≠ 0 ∧ addAnnotation e annotationId typeId append_value = e.error x) ∨
        2 ≤ e.numElements ∧ Annotates a e ( addAnnotation e annotationId typeId append_value) := by
    intro annotationId typeId append_value bs happ hbytes
    unfold addAnnotation
    split
    · exact .inl ⟨_, by decide, rfl⟩
    · split
      · exact .inl ⟨_, by decide, rfl⟩
      · refine .inr ⟨by omega, increment_annotates ?_⟩
        have h1 := append_byte_appends annotationId.toNat hmax
        rw [UInt8.ofNat_toNat] at h1
        have h2 := h1.trans (append_byte_appends typeId h1.max)
        rw [hbytes]
        exact h2.trans (happ _ h2.max)
  cases c with
  | annotateBool annotationId value =>
    cases h
    exact hgen annotationId BOOL_TYPE (fun event => event.append_bool value) [UInt8.ofNat value.toNat]
      (fun e1 h1 => append_byte_appends value.toNat h1) rfl
  | annotateInt32 annotationId value =>
    cases h
    exact hgen annotationId INT32_TYPE (fun event => event.append_int32 value.toNat) (leBytes 4 value.toNat)
      (fun e1 h1 => append_int32_appends value.toNat h1) rfl
  | _ => cases h

end Statsd.Libstatssocket
