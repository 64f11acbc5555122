/-
The event builder and the parser of log events agree. An event built without an error, if the parser
accepts it, is read back as it was written: the timestamp, the atom id, the values with the fields of
their positions, and every annotation on the value it was attached to. An event with errors is rejected,
but its timestamp and atom id are read.

The proof follows the parser over the serialised elements: `At` says which bytes are left and what the
event holds, and every function of the parser takes the bytes of what it parses from the front.
-/
import Statsd.Libstatssocket.Encoding
import Statsd.Logd.ParseSafety

namespace Statsd.Libstatssocket

open AStatsEvent
open Logd

/-! ## What the event should hold -/

/-- The annotations of an event that are not kept with a value, and the place of its attribution chain. -/
structure Marks where
  truncateTimestamp : Bool := false
  resetState : Int := -1
  uidFieldIndex : Int := -1
  exclusiveStateFieldIndex : Int := -1
  attributionChainStartIndex : Int := -1
  attributionChainEndIndex : Int := -1

def annotateAt (i : Nat) (f : Annotations → Annotations) (leaves : List FieldValue) : List FieldValue :=
  leaves.modify i fun v => { v with mAnnotations := f v.mAnnotations }

/-- The effect of an annotation on the leaves of its field: on the last one, or on the first uid of a chain. -/
def Annotation.on (leaves : List FieldValue) : Annotation → List FieldValue
  | .bool annotationId value =>
    if annotationId.toNat = ANNOTATION_ID_IS_UID then annotateAt (leaves.length - 1) ({ · with uidField := value }) leaves
    else if annotationId.toNat = ANNOTATION_ID_PRIMARY_FIELD then
      annotateAt (leaves.length - 1) ({ · with primaryField := value }) leaves
    else if annotationId.toNat = ANNOTATION_ID_PRIMARY_FIELD_FIRST_UID then
      annotateAt 0 ({ · with primaryField := value }) leaves
    else if annotationId.toNat = ANNOTATION_ID_EXCLUSIVE_STATE then
      annotateAt (leaves.length - 1) ({ · with exclusiveState := value }) leaves
    else if annotationId.toNat = ANNOTATION_ID_STATE_NESTED then
      annotateAt (leaves.length - 1) ({ · with nested := value }) leaves
    else leaves
  | .int32 _ _ => leaves

/-- The effect of an annotation on the event, for a field whose last leaf is at an index. -/
def Annotation.mark (index : Nat) (m : Marks) : Annotation → Marks
  | .bool annotationId value =>
    if annotationId.toNat = ANNOTATION_ID_IS_UID then (if value then { m with uidFieldIndex := index } else m)
    else if annotationId.toNat = ANNOTATION_ID_TRUNCATE_TIMESTAMP then { m with truncateTimestamp := value }
    else if annotationId.toNat = ANNOTATION_ID_EXCLUSIVE_STATE then { m with exclusiveStateFieldIndex := index }
    else m
  | .int32 annotationId value =>
    if annotationId.toNat = ANNOTATION_ID_TRIGGER_STATE_RESET then { m with resetState := value.toInt } else m

/-- A top-level value at a position. -/
def leafAt (tag : Int) (field : Nat) (value : Value) : FieldValue := ⟨Field.ofPos tag (LogEvent.posOf field 1 1) 0, value, {}⟩

/-- A value of a node of a chain: the uid is at position 1 and the tag at position 2, and the last node is marked. -/
def nodeLeafAt (tag : Int) (field node leaf : Nat) (lastNode : Bool) (value : Value) : FieldValue :=
  let f := Field.ofPos tag (LogEvent.posOf field node leaf) 2
  ⟨if lastNode then f.decorateLastPos 1 else f, value, {}⟩

/-- The leaves of the nodes of a chain of `numNodes` from some node on. -/
def nodeLeaves (tag : Int) (field numNodes : Nat) : List (BitVec 32 × List UInt8) → List FieldValue
  | [] => []
  | node :: nodes =>
    nodeLeafAt tag field (numNodes - nodes.length) 1 (decide (nodes.length = 0)) (.INT node.1.toInt) ::
      nodeLeafAt tag field (numNodes - nodes.length) 2 (decide (nodes.length = 0)) (.STRING node.2) ::
      nodeLeaves tag field numNodes nodes

namespace Content

/-- The values of a field at a position. -/
def leaves (tag : Int) (field : Nat) : Content → List FieldValue
  | int32 value => [leafAt tag field (.INT value.toInt)]
  | int64 value => [leafAt tag field (.LONG value.toInt)]
  | float value => [leafAt tag field (.FLOAT value)]
  | bool value => [leafAt tag field (.INT value.toNat)]
  | byteArray value => [leafAt tag field (.STORAGE value)]
  | string value => [leafAt tag field (.STRING value)]
  | chain nodes => nodeLeaves tag field nodes.length nodes

/-- A chain is noted with the indices of its leaves, the first of which is `index`. -/
def mark (index : Nat) (m : Marks) : Content → Marks
  | chain nodes =>
    { m with attributionChainStartIndex := index, attributionChainEndIndex := (index + 2 * nodes.length - 1 : Nat) }
  | _ => m

end Content

namespace Element

def leaves (tag : Int) (field : Nat) (e : Element) : List FieldValue := e.annotations.foldl Annotation.on (e.content.leaves tag field)

end Element

/-- The values of the fields from a position on. -/
def valuesFrom (tag : Int) : Nat → List Element → List FieldValue
  | _, [] => []
  | field, e :: es => e.leaves tag field ++ valuesFrom tag (field + 1) es

/-- The marks of the fields from a position on, of which the first leaf is at `index`. -/
def marksFrom (tag : Int) : Nat → Nat → Marks → List Element → Marks
  | _, _, m, [] => m
  | field, index, m, e :: es =>
    let next := index + (e.leaves tag field).length
    marksFrom tag (field + 1) next (e.annotations.foldl ( Annotation.mark (next - 1)) (e.content.mark index m)) es

/-! ## The parser on serialised elements -/

/-- What an event holds. -/
structure View where
  timestamp : Int
  tag : Int
  values : List FieldValue
  marks : Marks

def viewOf (ev : LogEvent) : View :=
  ⟨ev.mElapsedTimestampNs, ev.mTagId, ev.mValues,
    ⟨ev.mTruncateTimestamp, ev.mResetState, ev.mUidFieldIndex, ev.mExclusiveStateFieldIndex, ev.mAttributionChainStartIndex,
      ev.mAttributionChainEndIndex⟩⟩

/-- The bytes the parser has left, and what the event holds so far. -/
structure At (mem : Memory) (ev : LogEvent) (rest : List UInt8) (v : View) : Prop where
  len : ev.mRemainingLen = rest.length
  small : rest.length < 2 ^ 32
  bytes : mem.read ev.mBuf rest.length = rest
  view : viewOf ev = v

section

variable {mem : Memory} {ev : LogEvent} {rest : List UInt8} {v : View}

theorem At.advance {bs : List UInt8} (h : At mem ev (bs ++ rest) v) :
    At mem (ev.advance bs.length) rest v ∧ mem.read ev.mBuf bs.length = bs := by
  have hb := h.bytes
  rw [List.length_append, Memory.read_add] at hb
  obtain ⟨h1, h2⟩ := List.append_inj hb (Memory.length_read _ _ _)
  have hsmall := h.small
  rw [List.length_append] at hsmall
  refine ⟨⟨?_, by omega, h2, h.view⟩, h1⟩
  show ev.mRemainingLen - bs.length = rest.length
  rw [h.len, List.length_append, Nat.add_sub_cancel_left]

variable {b : List UInt8}

theorem At.read {k : Nat} (h : At mem ev (b ++ rest) v) (hk : b.length = k) :
    ev.readNextValue mem k = (ev.advance k, ofLeBytes b) ∧ At mem (ev.advance k) rest v := by
  subst hk
  obtain ⟨h1, h2⟩ := h.advance
  unfold LogEvent.readNextValue
  rw [if_neg (by rw [h.len, List.length_append]; omega), h2]
  exact ⟨rfl, h1⟩

theorem ofLeBytes_singleton (b : UInt8) : ofLeBytes [b] = b.toNat := by simp [ofLeBytes]

theorem At.readByte {b : UInt8} (h : At mem ev (b :: rest) v) :
    ev.readNextValue mem 1 = (ev.advance 1, b.toNat) ∧ At mem (ev.advance 1) rest v := by
  have hread := At.read (k := 1) (show At mem ev ([b] ++ rest) v from h) rfl
  rw [ofLeBytes_singleton] at hread
  exact hread

theorem signed_leBytes32 (x : BitVec 32) : LogEvent.signed 32 (ofLeBytes (leBytes 4 x.toNat)) = x.toInt := by
  rw [ofLeBytes_leBytes_of_lt (by have := x.isLt; omega)]
  unfold LogEvent.signed
  rw [BitVec.ofNat_toNat, BitVec.setWidth_eq]

theorem signed_leBytes64 (x : BitVec 64) : LogEvent.signed 64 (ofLeBytes (leBytes 8 x.toNat)) = x.toInt := by
  rw [ofLeBytes_leBytes_of_lt (by have := x.isLt; omega)]
  unfold LogEvent.signed
  rw [BitVec.ofNat_toNat, BitVec.setWidth_eq]

theorem toNat_ofNat_bool (b : Bool) : (UInt8.ofNat b.toNat).toNat = b.toNat ∧ decide (b.toNat ≠ 0) = b := by
  cases b <;> decide

theorem At.readBool {value : Bool} (h : At mem ev ([UInt8.ofNat value.toNat] ++ rest) v) :
    ∃ n, ev.readNextValue mem 1 = (ev.advance 1, n) ∧ decide (n ≠ 0) = value ∧ At mem (ev.advance 1) rest v := by
  obtain ⟨h1, h2⟩ := h.read rfl
  refine ⟨_, h1, ?_, h2⟩
  rw [ofLeBytes_singleton, (toNat_ofNat_bool value).1, (toNat_ofNat_bool value).2]

variable {vs leaves : List FieldValue}

theorem annotate_last (hne : leaves ≠ []) (f : Annotations → Annotations) :
    (vs ++ leaves).modify ((vs ++ leaves).length - 1) (fun x => { x with mAnnotations := f x.mAnnotations }) =
      vs ++ annotateAt (leaves.length - 1) f leaves := by
  have hpos := List.length_pos_iff.2 hne
  rw [List.length_append, show vs.length + leaves.length - 1 = vs.length + (leaves.length - 1) by omega]
  exact modify_append_right _ _ _ _

theorem annotate_first (f : Annotations → Annotations) :
    (vs ++ leaves).modify vs.length (fun x => { x with mAnnotations := f x.mAnnotations }) = vs ++ annotateAt 0 f leaves :=
  modify_append_right _ _ 0 _

/-- The event after an annotation that was accepted. -/
def View.annotated (v : View) (vs leaves : List FieldValue) (a : Annotation) : View :=
  { v with values := vs ++ a.on leaves, marks := a.mark (v.values.length - 1) v.marks }

theorem At.annotate {i : Nat} {f : Annotations → Annotations} (h : At mem ev rest v) :
    At mem (ev.annotate i f) rest { v with values := v.values.modify i fun x => { x with mAnnotations := f x.mAnnotations } } :=
  ⟨h.len, h.small, h.bytes, by rw [← h.view]; rfl⟩

theorem At.values (h : At mem ev rest v) : ev.mValues = v.values := congrArg View.values h.view

section

variable {vs leaves : List FieldValue} {value : Bool} {ev' : LogEvent}

theorem At.parseValueAnnotation_at (h : At mem ev ([UInt8.ofNat value.toNat] ++ rest) v) (hv : v.values = vs ++ leaves)
    (hvs : leaves = [] → vs = []) (set : Bool → Annotations → Annotations)
    (hvalid : (ev.parseValueAnnotation mem Logd.BOOL_TYPE set).mValid = true) :
    At mem (ev.parseValueAnnotation mem Logd.BOOL_TYPE set) rest
      { v with values := vs ++ annotateAt (leaves.length - 1) (set value) leaves } := by
  unfold LogEvent.parseValueAnnotation at hvalid ⊢
  split at hvalid
  · cases hvalid
  · rename_i hcond
    rw [if_neg hcond]
    have hne : leaves ≠ [] := by
      intro hnil
      refine hcond ?_
      rw [h.values, hv, hvs hnil, hnil]
      rfl
    obtain ⟨n, h1, h2, h3⟩ := h.readBool
    rw [h1]
    dsimp only
    rw [h2, h3.values, ← annotate_last hne, ← hv]
    exact h3.annotate

theorem At.parseIsUidAnnotation_at (h : At mem ev ([UInt8.ofNat value.toNat] ++ rest) v) (hv : v.values = vs ++ leaves)
    (hvs : leaves = [] → vs = []) (hvalid : (ev.parseIsUidAnnotation mem Logd.BOOL_TYPE).mValid = true) :
    At mem (ev.parseIsUidAnnotation mem Logd.BOOL_TYPE) rest
      { v with
        values := vs ++ annotateAt (leaves.length - 1) ({ · with uidField := value }) leaves
        marks := if value then { v.marks with uidFieldIndex := (v.values.length - 1 : Nat) } else v.marks } := by
  unfold LogEvent.parseIsUidAnnotation at hvalid ⊢
  split at hvalid
  · cases hvalid
  · rename_i hcond
    rw [if_neg hcond]
    have hne : leaves ≠ [] := by
      intro hnil
      refine hcond ?_
      rw [h.values, hv, hvs hnil, hnil]
      rfl
    obtain ⟨n, h1, h2, h3⟩ := h.readBool
    rw [h1]
    dsimp only
    rw [h2, ← annotate_last hne, ← hv]
    cases value with
    | true =>
      simp only [if_true]
      have hlen : (ev.advance 1).mValues.length = v.values.length := by rw [h3.values]
      rw [hlen]
      exact ⟨h3.len, h3.small, h3.bytes, by rw [← h3.view]; rfl⟩
    | false =>
      simp only [Bool.false_eq_true, if_false]
      rw [h3.values]
      exact h3.annotate

theorem At.parseFirstUid_at (h : At mem ev ([UInt8.ofNat value.toNat] ++ rest) v) (hv : v.values = vs ++ leaves)
    {first : Option Nat} (hfirst : ∀ i, first = some i → i = vs.length)
    (hvalid : (ev.parsePrimaryFieldFirstUidAnnotation mem Logd.BOOL_TYPE first).mValid = true) :
    At mem (ev.parsePrimaryFieldFirstUidAnnotation mem Logd.BOOL_TYPE first) rest
      { v with values := vs ++ annotateAt 0 ({ · with primaryField := value }) leaves } := by
  unfold LogEvent.parsePrimaryFieldFirstUidAnnotation at hvalid ⊢
  cases first with
  | none => cases hvalid
  | some i =>
    dsimp only at hvalid ⊢
    split at hvalid
    · cases hvalid
    rename_i hcond
    rw [if_neg hcond]
    split at hvalid
    · cases hvalid
    rename_i hlen
    rw [if_neg hlen]
    obtain ⟨n, h1, h2, h3⟩ := h.readBool
    rw [h1]
    dsimp only
    rw [h2, hfirst i rfl, ← annotate_first, ← hv]
    exact h3.annotate

theorem At.parseExclusiveStateAnnotation_at (h : At mem ev ([UInt8.ofNat value.toNat] ++ rest) v) (hv : v.values = vs ++ leaves)
    (hvs : leaves = [] → vs = []) (hvalid : (ev.parseExclusiveStateAnnotation mem Logd.BOOL_TYPE).mValid = true) :
    At mem (ev.parseExclusiveStateAnnotation mem Logd.BOOL_TYPE) rest
      { v with
        values := vs ++ annotateAt (leaves.length - 1) ({ · with exclusiveState := value }) leaves
        marks := { v.marks with exclusiveStateFieldIndex := (v.values.length - 1 : Nat) } } := by
  unfold LogEvent.parseExclusiveStateAnnotation at hvalid ⊢
  split at hvalid
  · cases hvalid
  rename_i hcond
  rw [if_neg hcond]
  split at hvalid
  · cases hvalid
  rename_i hlen
  rw [if_neg hlen]
  have hne : leaves ≠ [] := by
    intro hnil
    refine hcond ?_
    rw [h.values, hv, hvs hnil, hnil]
    rfl
  obtain ⟨n, h1, h2, h3⟩ := h.readBool
  rw [h1]
  dsimp only
  have hlen : (ev.advance 1).mValues.length = v.values.length := by rw [h3.values]
  rw [h2, ← annotate_last hne, ← hv, hlen]
  exact ⟨h3.len, h3.small, h3.bytes, by rw [← h3.view]; rfl⟩

theorem At.parseTruncateTimestampAnnotation_at (h : At mem ev ([UInt8.ofNat value.toNat] ++ rest) v)
    (hvalid : (ev.parseTruncateTimestampAnnotation mem Logd.BOOL_TYPE).mValid = true) :
    At mem (ev.parseTruncateTimestampAnnotation mem Logd.BOOL_TYPE) rest
      { v with marks := { v.marks with truncateTimestamp := value } } := by
  unfold LogEvent.parseTruncateTimestampAnnotation at hvalid ⊢
  split at hvalid
  · cases hvalid
  rename_i hcond
  rw [if_neg hcond]
  obtain ⟨n, h1, h2, h3⟩ := h.readBool
  rw [h1]
  dsimp only
  rw [h2]
  exact ⟨h3.len, h3.small, h3.bytes, by rw [← h3.view]; rfl⟩

/-- A boolean annotation behind its id and type: if the event is still valid, it took effect on its field. -/
theorem At.parseAnnotation_bool (h : At mem ev ([UInt8.ofNat value.toNat] ++ rest) v) (hv : v.values = vs ++ leaves)
    (hvs : leaves = [] → vs = []) {first : Option Nat} {annotationId : UInt8}
    (hfirst : annotationId.toNat = ANNOTATION_ID_PRIMARY_FIELD_FIRST_UID → ∀ i, first = some i → i = vs.length)
    (hp : ev.parseAnnotation mem annotationId.toNat Logd.BOOL_TYPE first = some ev') (hvalid : ev'.mValid = true) :
    At mem ev' rest (v.annotated vs leaves (.bool annotationId value)) := by
  unfold LogEvent.parseAnnotation at hp
  unfold View.annotated Annotation.on Annotation.mark
  dsimp only
  generalize annotationId.toNat = id at hfirst hp ⊢
  split at hp
  · rename_i hid
    cases hp
    subst hid
    exact h.parseIsUidAnnotation_at hv hvs hvalid
  split at hp
  · rename_i hid
    cases hp
    subst hid
    have hat := h.parseTruncateTimestampAnnotation_at hvalid
    show At mem _ rest { v with values := vs ++ leaves, marks := { v.marks with truncateTimestamp := value } }
    rw [← hv]
    exact hat
  split at hp
  · rename_i hid
    cases hp
    subst hid
    exact h.parseValueAnnotation_at hv hvs (fun primaryField a => { a with primaryField := primaryField }) hvalid
  split at hp
  · rename_i hid
    cases hp
    subst hid
    exact h.parseFirstUid_at hv (hfirst rfl) hvalid
  split at hp
  · rename_i hid
    cases hp
    subst hid
    exact h.parseExclusiveStateAnnotation_at hv hvs hvalid
  split at hp
  · -- the reset state is an integer
    cases hp
    unfold LogEvent.parseTriggerStateResetAnnotation at hvalid
    rw [if_pos (by simp [Logd.BOOL_TYPE, Logd.INT32_TYPE])] at hvalid
    cases hvalid
  split at hp
  · rename_i hid
    cases hp
    subst hid
    exact h.parseValueAnnotation_at hv hvs (fun nested a => { a with nested := nested }) hvalid
  · cases hp

theorem At.parseAnnotation_int32 {value : BitVec 32} (h : At mem ev (leBytes 4 value.toNat ++ rest) v)
    (hv : v.values = vs ++ leaves) {first : Option Nat} {annotationId : UInt8}
    (hp : ev.parseAnnotation mem annotationId.toNat Logd.INT32_TYPE first = some ev') (hvalid : ev'.mValid = true) :
    At mem ev' rest (v.annotated vs leaves (.int32 annotationId value)) := by
  have hbool : decide (Logd.INT32_TYPE ≠ Logd.BOOL_TYPE) = true := by decide
  unfold LogEvent.parseAnnotation at hp
  unfold View.annotated Annotation.on Annotation.mark
  dsimp only
  generalize annotationId.toNat = id at hp ⊢
  split at hp
  · cases hp
    unfold LogEvent.parseIsUidAnnotation at hvalid
    rw [if_pos (by rw [hbool, Bool.or_true])] at hvalid
    cases hvalid
  split at hp
  · cases hp
    unfold LogEvent.parseTruncateTimestampAnnotation at hvalid
    rw [if_pos (by rw [hbool, Bool.or_true])] at hvalid
    cases hvalid
  split at hp
  · cases hp
    unfold LogEvent.parsePrimaryFieldAnnotation LogEvent.parseValueAnnotation at hvalid
    rw [if_pos (by rw [hbool, Bool.or_true])] at hvalid
    cases hvalid
  split at hp
  · cases hp
    unfold LogEvent.parsePrimaryFieldFirstUidAnnotation at hvalid
    cases first with
    | none => cases hvalid
    | some i =>
      dsimp only at hvalid
      rw [if_pos (by rw [hbool, Bool.or_true])] at hvalid
      cases hvalid
  split at hp
  · cases hp
    unfold LogEvent.parseExclusiveStateAnnotation at hvalid
    rw [if_pos (by rw [hbool, Bool.or_true])] at hvalid
    cases hvalid
  split at hp
  · rename_i hid
    cases hp
    subst hid
    unfold LogEvent.parseTriggerStateResetAnnotation at hvalid ⊢
    split at hvalid
    · cases hvalid
    · rename_i hcond
      rw [if_neg hcond]
      obtain ⟨h1, h2⟩ := h.read (length_leBytes 4 _)
      rw [h1]
      dsimp only
      rw [signed_leBytes32, ← hv]
      exact ⟨h2.len, h2.small, h2.bytes, by rw [← h2.view]; rfl⟩
  split at hp
  · cases hp
    unfold LogEvent.parseStateNestedAnnotation LogEvent.parseValueAnnotation at hvalid
    rw [if_pos (by rw [hbool, Bool.or_true])] at hvalid
    cases hvalid
  · cases hp

end

theorem Annotation.length_on (a : Annotation) {leaves : List FieldValue} :
    (a.on leaves).length = leaves.length := by
  cases a with
  | bool annotationId value =>
    unfold Annotation.on annotateAt
    dsimp only
    split_ifs <;> simp
  | int32 annotationId value => rfl

def Annotation.annotationId : Annotation → Nat
  | .bool annotationId _ => annotationId.toNat
  | .int32 annotationId _ => annotationId.toNat

theorem At.parseAnnotation_step (a : Annotation) {first : Option Nat}
    (hfirst : a.annotationId = ANNOTATION_ID_PRIMARY_FIELD_FIRST_UID → ∀ i, first = some i → i = vs.length) (h : At mem ev (a.bytes ++ rest) v) (hv : v.values = vs ++ leaves)
    (hvs : leaves = [] → vs = []) :
    ∃ (ev1 : LogEvent) (annotationId annotationType : Nat), (∀ k, ev.parseAnnotations mem first (k + 1) =
        match ev1.parseAnnotation mem annotationId annotationType first with
        | some ev' => ev'.parseAnnotations mem first k
        | none => ev1.invalid) ∧
      ∀ ev', ev1.parseAnnotation mem annotationId annotationType first = some ev' → ev'.mValid = true →
        At mem ev' rest (v.annotated vs leaves a) := by
  cases a with
  | bool annotationId value =>
    obtain ⟨h1, h2⟩ := h.readByte (b := annotationId)
    obtain ⟨h3, h4⟩ := h2.readByte (b := UInt8.ofNat BOOL_TYPE)
    refine ⟨(ev.advance 1).advance 1, annotationId.toNat, Logd.BOOL_TYPE, fun k => ?_, fun ev' hp hvalid => ?_⟩
    · rw [LogEvent.parseAnnotations, h1]
      dsimp only
      rw [h3]
      rfl
    · exact h4.parseAnnotation_bool hv hvs hfirst hp hvalid
  | int32 annotationId value =>
    obtain ⟨h1, h2⟩ := h.readByte (b := annotationId)
    obtain ⟨h3, h4⟩ := h2.readByte (b := UInt8.ofNat INT32_TYPE)
    refine ⟨(ev.advance 1).advance 1, annotationId.toNat, Logd.INT32_TYPE, fun k => ?_, fun ev' hp hvalid => ?_⟩
    · rw [LogEvent.parseAnnotations, h1]
      dsimp only
      rw [h3]
      rfl
    · exact h4.parseAnnotation_int32 hv hp hvalid

theorem At.parseAnnotations_at (as : List Annotation) (vs : List FieldValue) {leaves : List FieldValue} (first : Option Nat)
    (hfirst : ∀ a ∈ as, a.annotationId = ANNOTATION_ID_PRIMARY_FIELD_FIRST_UID → ∀ i, first = some i → i = vs.length)
    (h : At mem ev (annotationBytes as ++ rest) v) (hv : v.values = vs ++ leaves) (hvs : leaves = [] → vs = [])
    (hvalid : (ev.parseAnnotations mem first as.length).mValid = true) :
    At mem (ev.parseAnnotations mem first as.length) rest
      { v with
        values := vs ++ as.foldl Annotation.on leaves
        marks := as.foldl ( Annotation.mark (v.values.length - 1)) v.marks } := by
  induction as generalizing ev v leaves with
  | nil =>
    show At mem ev rest { v with values := vs ++ leaves, marks := v.marks }
    rw [← hv]
    exact h
  | cons a as ih =>
    rw [annotationBytes, List.flatMap_cons, List.append_assoc] at h
    obtain ⟨ev1, annotationId, annotationType, heq, hstep⟩ := h.parseAnnotation_step a (hfirst a List.mem_cons_self) hv hvs
    rw [List.length_cons, heq] at hvalid ⊢
    cases hp : ev1.parseAnnotation mem annotationId annotationType first with
    | none => rw [hp] at hvalid; cases hvalid
    | some ev' =>
      rw [hp] at hvalid
      dsimp only at hvalid ⊢
      have hat := hstep ev' hp ((LogEvent.steps_parseAnnotations mem first as.length ev').valid hvalid)
      have hlen : (v.annotated vs leaves a).values.length = v.values.length := by
        rw [hv]
        simp [View.annotated, a.length_on]
      have hnil : a.on leaves = [] → vs = [] := fun h0 =>
        hvs (List.length_eq_zero_iff.1 (by rw [← a.length_on, h0]; rfl))
      have hrest := ih (fun b hb => hfirst b (List.mem_cons_of_mem a hb)) hat rfl hnil hvalid
      rw [hlen] at hrest
      exact hrest

/-! ### Values -/

theorem At.add (h : At mem ev rest v) (field : Nat) (value : Value) :
    At mem (ev.addToValues (LogEvent.posOf field 1 1) 0 value (LogEvent.lastOf false)) rest
      { v with values := v.values ++ [leafAt v.tag field value] } :=
  ⟨h.len, h.small, h.bytes, by rw [← h.view]; rfl⟩

theorem At.addNode (h : At mem ev rest v) (field node leaf : Nat) (lastNode : Bool) (value : Value) :
    At mem (ev.addToValues (LogEvent.posOf field node leaf) 2 value (LogEvent.lastOf lastNode)) rest
      { v with values := v.values ++ [nodeLeafAt v.tag field node leaf lastNode value] } :=
  ⟨h.len, h.small, h.bytes, by rw [← h.view]; rfl⟩

theorem At.readBytes (h : At mem ev (stringBytes b ++ rest) v) :
    ev.readNextValue mem 4 = (ev.advance 4, b.length) ∧ ¬ b.length > (ev.advance 4).mRemainingLen ∧
      mem.read (ev.advance 4).mBuf b.length = b ∧ At mem ((ev.advance 4).advance b.length) rest v := by
  have hsmall := h.small
  rw [stringBytes, List.append_assoc] at h
  obtain ⟨h1, h2⟩ := h.read (length_leBytes 4 b.length)
  have hfit : b.length < 256 ^ 4 := by
    rw [stringBytes, List.append_assoc, List.length_append, List.length_append] at hsmall
    omega
  rw [ofLeBytes_leBytes_of_lt hfit] at h1
  obtain ⟨h3, h4⟩ := h2.advance
  refine ⟨h1, ?_, h4, h3⟩
  rw [h2.len, List.length_append]
  omega

theorem At.parseNodes_at (nodes : List (BitVec 32 × List UInt8)) (field numNodes : Nat)
    (h : At mem ev (nodes.flatMap Content.nodeBytes ++ rest) v) :
    At mem (ev.parseNodes mem field numNodes nodes.length) rest
      { v with values := v.values ++ nodeLeaves v.tag field numNodes nodes } ∧
      (ev.parseNodes mem field numNodes nodes.length).mValid = ev.mValid := by
  induction nodes generalizing ev v with
  | nil =>
    rw [nodeLeaves, List.append_nil]
    exact ⟨h, rfl⟩
  | cons node nodes ih =>
    rw [List.flatMap_cons, Content.nodeBytes, List.append_assoc, List.append_assoc] at h
    obtain ⟨h1, h2⟩ := h.read (length_leBytes 4 _)
    have h3 := h2.addNode field (numNodes - nodes.length) 1 (decide (nodes.length = 0)) (.INT node.1.toInt)
    obtain ⟨g1, g2, g3, g4⟩ := h3.readBytes
    have h4 := g4.addNode field (numNodes - nodes.length) 2 (decide (nodes.length = 0)) (.STRING node.2)
    obtain ⟨hrest, hvalid⟩ := ih h4
    rw [List.length_cons, LogEvent.parseNodes]
    have hint : ev.parseInt32 mem (LogEvent.posOf field (numNodes - nodes.length) 1) 2
        (LogEvent.lastOf (decide (nodes.length = 0))) 0 =
        (ev.advance 4).addToValues (LogEvent.posOf field (numNodes - nodes.length) 1) 2 (.INT node.1.toInt)
          (LogEvent.lastOf (decide (nodes.length = 0))) := by
      rw [LogEvent.parseInt32, h1]
      dsimp only
      rw [signed_leBytes32]
      rfl
    rw [hint, LogEvent.parseString, LogEvent.parseBytes, g1]
    dsimp only
    rw [if_neg g2, g3]
    rw [nodeLeaves]
    refine ⟨?_, hvalid⟩
    simpa [LogEvent.parseAnnotations] using hrest

/-! ### Elements -/

theorem length_foldl_on (as : List Annotation) (leaves : List FieldValue) : (as.foldl Annotation.on leaves).length = leaves.length := by
  induction as generalizing leaves with
  | nil => rfl
  | cons a as ih => rw [List.foldl_cons, ih, a.length_on]

theorem length_nodeLeaves (tag : Int) (field numNodes : Nat) (nodes : List (BitVec 32 × List UInt8)) :
    (nodeLeaves tag field numNodes nodes).length = 2 * nodes.length := by
  induction nodes with
  | nil => rfl
  | cons node nodes ih => rw [nodeLeaves, List.length_cons, List.length_cons, ih, List.length_cons]; omega

/-- The event after an element. -/
def View.decoded (v : View) (field : Nat) (e : Element) : View :=
  { v with
    values := v.values ++ e.leaves v.tag field
    marks := e.annotations.foldl ( Annotation.mark (v.values.length + (e.leaves v.tag field).length - 1))
      (e.content.mark v.values.length v.marks) }

theorem At.value_at {as : List Annotation} (h : At mem ev (annotationBytes as ++ rest) v) (field : Nat) (value : Value)
    (hvalid : ((ev.addToValues (LogEvent.posOf field 1 1) 0 value (LogEvent.lastOf false)).parseAnnotations mem none
      as.length).mValid = true) :
    At mem ((ev.addToValues (LogEvent.posOf field 1 1) 0 value (LogEvent.lastOf false)).parseAnnotations mem none as.length) rest
      { v with
        values := v.values ++ as.foldl Annotation.on [leafAt v.tag field value]
        marks := as.foldl ( Annotation.mark (v.values.length + (as.foldl Annotation.on [leafAt v.tag field value]).length - 1))
          v.marks } := by
  have hat := At.parseAnnotations_at as v.values none (fun _ _ _ i hi => by cases hi) (h.add field value) rfl
    (fun h0 => by cases h0) hvalid
  rw [length_foldl_on]
  rw [List.length_append] at hat
  exact hat

theorem typeInfo_spec {e : Element} (hlen : e.annotations.length ≤ 15) :
    getTypeId (UInt8.ofNat e.typeInfo).toNat = e.content.typeId ∧
      getNumAnnotations (UInt8.ofNat e.typeInfo).toNat = e.annotations.length := by
  have ht := e.content.typeId_lt
  have hbyte : (UInt8.ofNat e.typeInfo).toNat = e.content.typeId + 16 * e.annotations.length :=
    UInt8.toNat_ofNat_of_lt (by show e.content.typeId + 16 * e.annotations.length < 256; omega)
  rw [hbyte]
  have hall : ∀ t < 16, ∀ n ≤ 15, getTypeId (t + 16 * n) = t ∧ getNumAnnotations (t + 16 * n) = n := by decide
  exact hall _ ht _ hlen

/-- Chains that can be serialised and parsed. -/
def Element.Ok (e : Element) : Prop :=
  e.annotations.length ≤ 15 ∧ ∀ nodes, e.content = .chain nodes → 0 < nodes.length ∧ nodes.length ≤ 127

theorem At.parseAttributionChain_at {nodes : List (BitVec 32 × List UInt8)} {as : List Annotation} {field : Nat}
    (hpos : 0 < nodes.length) (hle : nodes.length ≤ 127)
    (h : At mem ev (UInt8.ofNat nodes.length :: nodes.flatMap Content.nodeBytes ++ (annotationBytes as ++ rest)) v)
    (hvalid : (ev.parseAttributionChain mem field as.length).mValid = true) :
    At mem (ev.parseAttributionChain mem field as.length) rest (v.decoded field ⟨.chain nodes, as⟩) := by
  obtain ⟨h1, h2⟩ := At.readByte h
  have hnum : (UInt8.ofNat nodes.length).toNat = nodes.length :=
    UInt8.toNat_ofNat_of_lt (by show nodes.length < 256; omega)
  rw [hnum] at h1
  have hnodes := (h2.parseNodes_at nodes field nodes.length).1
  unfold LogEvent.parseAttributionChain at hvalid ⊢
  rw [h1] at hvalid ⊢
  dsimp only at hvalid ⊢
  generalize (ev.advance 1).parseNodes mem field nodes.length nodes.length = ev1 at hvalid hnodes ⊢
  have hlen : ev1.mValues.length = v.values.length + 2 * nodes.length := by
    rw [hnodes.values, List.length_append, length_nodeLeaves]
  by_cases hbig : indexTooLarge ev1.mValues.length = true
  · rw [if_pos hbig] at hvalid
    cases hvalid
  · rw [if_neg hbig] at hvalid ⊢
    have hcond : ev1.mValues.length - 1 > ev.mValues.length := by
      rw [hlen, h.values]
      omega
    rw [if_pos hcond] at hvalid ⊢
    -- the chain is noted, and its annotations are parsed if the event is valid
    have hnoted : At mem { ev1 with
        mAttributionChainStartIndex := ev.mValues.length
        mAttributionChainEndIndex := (ev1.mValues.length - 1 : Nat) } (annotationBytes as ++ rest)
        { v with
          values := v.values ++ nodeLeaves v.tag field nodes.length nodes
          marks := Content.mark v.values.length v.marks (.chain nodes) } := by
      refine ⟨hnodes.len, hnodes.small, hnodes.bytes, ?_⟩
      show { viewOf ev1 with
        marks := { (viewOf ev1).marks with
          attributionChainStartIndex := ev.mValues.length
          attributionChainEndIndex := (ev1.mValues.length - 1 : Nat) } } = _
      rw [hnodes.view, hlen, h.values]
      rfl
    generalize ({ ev1 with
      mAttributionChainStartIndex := ev.mValues.length
      mAttributionChainEndIndex := (ev1.mValues.length - 1 : Nat) } : LogEvent) = ev2 at hvalid hnoted ⊢
    split at hvalid
    · rename_i hv
      rw [if_pos hv]
      have hat := At.parseAnnotations_at as v.values (some ev.mValues.length) (fun _ _ _ i hi => by cases hi; rw [h.values]) hnoted rfl
        (fun h0 => absurd (congrArg List.length h0) (by rw [length_nodeLeaves, List.length_nil]; omega)) hvalid
      unfold View.decoded Element.leaves
      rw [length_foldl_on]
      rw [List.length_append] at hat
      exact hat
    · rename_i hv
      exact absurd hvalid hv

theorem At.parseScalar_at {e : Element} (hlen : e.annotations.length ≤ 15) (hscalar : ∀ nodes, e.content ≠ .chain nodes)
    (field : Nat) (h : At mem ev (e.bytes ++ rest) v) :
    ∃ (ev2 : LogEvent) (value : Value), At mem ev2 (annotationBytes e.annotations ++ rest) v ∧ ev2.mValid = ev.mValid ∧
      ev.parseElement mem field = (ev2.addToValues (LogEvent.posOf field 1 1) 0 value (LogEvent.lastOf false)).parseAnnotations
        mem none e.annotations.length ∧
      e.content.leaves v.tag field = [leafAt v.tag field value] ∧ e.content.mark v.values.length v.marks = v.marks := by
  obtain ⟨content, as⟩ := e
  obtain ⟨ht, hn⟩ := typeInfo_spec hlen
  rw [Element.bytes, List.cons_append, List.append_assoc] at h
  obtain ⟨h1, h2⟩ := h.readByte
  unfold LogEvent.parseElement
  rw [h1]
  dsimp only at ht hn h2 ⊢
  rw [ht, hn]
  have hvalid : (ev.advance 1).mValid = ev.mValid := rfl
  rw [← hvalid]
  generalize ev.advance 1 = ev1 at h2 ⊢
  cases content with
  | int32 value =>
    obtain ⟨h3, h4⟩ := At.read (b := leBytes 4 value.toNat) h2 (length_leBytes 4 _)
    refine ⟨ev1.advance 4, .INT value.toInt, h4, rfl, ?_, rfl, rfl⟩
    change ev1.parseInt32 mem (LogEvent.posOf field 1 1) 0 (LogEvent.lastOf false) as.length = _
    rw [LogEvent.parseInt32, h3]
    dsimp only
    rw [signed_leBytes32]
  | int64 value =>
    obtain ⟨h3, h4⟩ := At.read (b := leBytes 8 value.toNat) h2 (length_leBytes 8 _)
    refine ⟨ev1.advance 8, .LONG value.toInt, h4, rfl, ?_, rfl, rfl⟩
    change ev1.parseInt64 mem (LogEvent.posOf field 1 1) 0 (LogEvent.lastOf false) as.length = _
    rw [LogEvent.parseInt64, h3]
    dsimp only
    rw [signed_leBytes64]
  | float value =>
    obtain ⟨h3, h4⟩ := At.read (b := leBytes 4 value.toNat) h2 (length_leBytes 4 _)
    refine ⟨ev1.advance 4, .FLOAT value, h4, rfl, ?_, rfl, rfl⟩
    change ev1.parseFloat mem (LogEvent.posOf field 1 1) 0 (LogEvent.lastOf false) as.length = _
    rw [LogEvent.parseFloat, h3]
    dsimp only
    rw [ofLeBytes_leBytes_of_lt (by have := value.isLt; omega), BitVec.ofNat_toNat, BitVec.setWidth_eq]
  | bool value =>
    obtain ⟨h3, h4⟩ := At.readByte (b := UInt8.ofNat value.toNat) h2
    refine ⟨ev1.advance 1, .INT value.toNat, h4, rfl, ?_, rfl, rfl⟩
    change ev1.parseBool mem (LogEvent.posOf field 1 1) 0 (LogEvent.lastOf false) as.length = _
    rw [LogEvent.parseBool, h3]
    dsimp only
    rw [(toNat_ofNat_bool value).1]
  | byteArray bytes =>
    obtain ⟨h3, h4, h5, h6⟩ := At.readBytes (b := bytes) h2
    refine ⟨(ev1.advance 4).advance bytes.length, .STORAGE bytes, h6, rfl, ?_, rfl, rfl⟩
    change ev1.parseByteArray mem (LogEvent.posOf field 1 1) 0 (LogEvent.lastOf false) as.length = _
    rw [LogEvent.parseByteArray, LogEvent.parseBytes, h3]
    dsimp only
    rw [if_neg h4, h5]
  | string bytes =>
    obtain ⟨h3, h4, h5, h6⟩ := At.readBytes (b := bytes) h2
    refine ⟨(ev1.advance 4).advance bytes.length, .STRING bytes, h6, rfl, ?_, rfl, rfl⟩
    change ev1.parseString mem (LogEvent.posOf field 1 1) 0 (LogEvent.lastOf false) as.length = _
    rw [LogEvent.parseString, LogEvent.parseBytes, h3]
    dsimp only
    rw [if_neg h4, h5]
  | chain nodes => exact absurd rfl (hscalar nodes)

theorem At.parseChainElement_at {nodes : List (BitVec 32 × List UInt8)} {as : List Annotation} (hlen : as.length ≤ 15)
    (field : Nat) (h : At mem ev (Element.bytes ⟨.chain nodes, as⟩ ++ rest) v) :
    ev.parseElement mem field = (ev.advance 1).parseAttributionChain mem field as.length ∧
      At mem (ev.advance 1) (UInt8.ofNat nodes.length :: nodes.flatMap Content.nodeBytes ++ (annotationBytes as ++ rest)) v := by
  obtain ⟨ht, hn⟩ := typeInfo_spec (e := ⟨.chain nodes, as⟩) hlen
  rw [Element.bytes, List.cons_append, List.append_assoc] at h
  obtain ⟨h1, h2⟩ := h.readByte
  unfold LogEvent.parseElement
  rw [h1]
  dsimp only
  rw [ht, hn]
  exact ⟨rfl, h2⟩

theorem At.parseElement_at {e : Element} (he : e.Ok) {field : Nat} (h : At mem ev (e.bytes ++ rest) v)
    (hvalid : (ev.parseElement mem field).mValid = true) : At mem (ev.parseElement mem field) rest (v.decoded field e) := by
  by_cases hchain : ∃ nodes, e.content = .chain nodes
  · obtain ⟨content, as⟩ := e
    obtain ⟨nodes, rfl⟩ := hchain
    obtain ⟨hpos, hle⟩ := he.2 nodes rfl
    obtain ⟨heq, hat⟩ := At.parseChainElement_at he.1 field h
    rw [heq] at hvalid ⊢
    exact At.parseAttributionChain_at hpos hle hat hvalid
  · obtain ⟨ev2, value, hat, -, heq, hleaves, hmark⟩ :=
      h.parseScalar_at he.1 (fun nodes hnodes => hchain ⟨nodes, hnodes⟩) field
    rw [heq] at hvalid ⊢
    unfold View.decoded Element.leaves
    rw [hleaves, hmark]
    exact hat.value_at field value hvalid

theorem At.parseElements_at (es : List Element) (hes : ∀ e ∈ es, e.Ok) (numElements : Nat) (hlen : es.length ≤ numElements)
    (h : At mem ev (es.flatMap Element.bytes ++ rest) v)
    (hvalid : (ev.parseElements mem numElements es.length).mValid = true) :
    At mem (ev.parseElements mem numElements es.length) rest
      { v with
        values := v.values ++ valuesFrom v.tag (numElements - es.length + 1) es
        marks := marksFrom v.tag (numElements - es.length + 1) v.values.length v.marks es } := by
  induction es generalizing ev v with
  | nil =>
    rw [valuesFrom, List.append_nil]
    exact h
  | cons e es ih =>
    rw [List.length_cons] at hvalid hlen ⊢
    unfold LogEvent.parseElements at hvalid ⊢
    split at hvalid
    · rename_i hv
      rw [if_pos hv]
      rw [List.flatMap_cons, List.append_assoc] at h
      have hstep := (LogEvent.steps_parseElements mem numElements es.length _).valid hvalid
      have hat := h.parseElement_at (hes e List.mem_cons_self) hstep
      have hrest := ih (fun e' he' => hes e' (List.mem_cons_of_mem e he')) (by omega) hat hvalid
      rw [valuesFrom, marksFrom, show numElements - (es.length + 1) + 1 = numElements - es.length by omega, ← List.append_assoc]
      unfold View.decoded at hrest
      dsimp only at hrest ⊢
      rw [List.length_append] at hrest
      exact hrest
    · rename_i hv
      exact absurd hvalid hv

theorem At.parseElements_error (h : At mem ev ([UInt8.ofNat ERROR_TYPE] ++ b) v) :
    (ev.parseElements mem 1 1).mValid = false ∧ viewOf (ev.parseElements mem 1 1) = v := by
  by_cases hv : ev.mValid = true
  · have hparse : ev.parseElements mem 1 1 = ev.parseElement mem 1 := if_pos hv
    obtain ⟨h1, h2⟩ := h.readByte
    rw [hparse, LogEvent.parseElement, h1]
    refine ⟨rfl, ?_⟩
    change viewOf ((ev.advance 1).readNextValue mem 4).1.invalid = v
    unfold LogEvent.readNextValue
    split <;> exact h2.view
  · rw [show ev.parseElements mem 1 1 = ev from if_neg hv]
    exact ⟨Bool.eq_false_iff.2 hv, h.view⟩

/-! ### The header -/

theorem At.readChecked_at {b : UInt8} {c : Nat → Bool} (h : At mem ev (b :: rest) v) (hc : c b.toNat = true) :
    ev.readChecked mem c = (ev.advance 1, b.toNat) ∧ At mem (ev.advance 1) rest v := by
  obtain ⟨h1, h2⟩ := h.readByte
  unfold LogEvent.readChecked LogEvent.check
  rw [h1]
  dsimp only
  rw [if_pos hc]
  exact ⟨rfl, h2⟩

theorem At.readTimestamp_at {timestamp : BitVec 64} (h : At mem ev (leBytes 8 timestamp.toNat ++ rest) v) :
    At mem (ev.readTimestamp mem) rest { v with timestamp := timestamp.toInt } ∧ (ev.readTimestamp mem).mValid = ev.mValid := by
  obtain ⟨h1, h2⟩ := h.read (length_leBytes 8 _)
  unfold LogEvent.readTimestamp
  rw [h1]
  dsimp only
  rw [signed_leBytes64]
  exact ⟨⟨h2.len, h2.small, h2.bytes, by rw [← h2.view]; rfl⟩, rfl⟩

theorem At.readTagId_at (hb : b.length = 4) (h : At mem ev (b ++ rest) v) :
    At mem (ev.readTagId mem) rest { v with tag := LogEvent.signed 32 (ofLeBytes b) } ∧ (ev.readTagId mem).mValid = ev.mValid := by
  obtain ⟨h1, h2⟩ := h.read hb
  unfold LogEvent.readTagId
  rw [h1]
  exact ⟨⟨h2.len, h2.small, h2.bytes, by rw [← h2.view]; rfl⟩, rfl⟩

/-- The header of an object of `n` elements and the atom id behind it, up to the annotations of the atom. -/
theorem At.parseHeader_at {n numAnnotations : Nat} {timestamp : BitVec 64} (hn : 2 ≤ n ∧ n ≤ 127)
    (hb : b.length = 4) (ha : numAnnotations ≤ 15)
    (h : At mem ev (headerBytes n timestamp ++ (UInt8.ofNat (INT32_TYPE + 16 * numAnnotations) :: (b ++ rest))) v) :
    ∃ ev', ev.parseHeader mem = (ev'.parseAnnotations mem none numAnnotations, n - 2) ∧ ev'.mValid = ev.mValid ∧
      At mem ev' rest { v with timestamp := timestamp.toInt, tag := LogEvent.signed 32 (ofLeBytes b) } := by
  have hbytes : headerBytes n timestamp ++ (UInt8.ofNat (INT32_TYPE + 16 * numAnnotations) :: (b ++ rest)) =
      UInt8.ofNat OBJECT_TYPE :: UInt8.ofNat n :: UInt8.ofNat INT64_TYPE ::
        (leBytes 8 timestamp.toNat ++ (UInt8.ofNat (INT32_TYPE + 16 * numAnnotations) :: (b ++ rest))) := by
    rw [headerBytes, Element.bytes_plain]
    simp [Content.bytes, Content.typeId]
  rw [hbytes] at h
  have hbyte : (UInt8.ofNat n).toNat = n := UInt8.toNat_ofNat_of_lt (by show n < 256; omega)
  have hinfo : ∀ m ≤ 15, getTypeId (UInt8.ofNat (INT32_TYPE + 16 * m)).toNat = Logd.INT32_TYPE ∧
      getNumAnnotations (UInt8.ofNat (INT32_TYPE + 16 * m)).toNat = m := by decide
  obtain ⟨ht, hm⟩ := hinfo numAnnotations ha
  unfold LogEvent.parseHeader
  obtain ⟨h1, h2⟩ := h.readChecked_at (c := fun typeInfo => decide (getTypeId typeInfo = Logd.OBJECT_TYPE)) (by decide)
  rw [h1]
  obtain ⟨h3, h4⟩ := h2.readChecked_at (c := fun numElements => decide (2 ≤ numElements) && decide (numElements ≤ 127))
    (by rw [hbyte, decide_eq_true hn.1, decide_eq_true hn.2]; rfl)
  dsimp only
  rw [h3]
  obtain ⟨h5, h6⟩ := h4.readChecked_at (c := fun typeInfo => decide (getTypeId typeInfo = Logd.INT64_TYPE)) (by decide)
  dsimp only
  rw [h5]
  dsimp only
  obtain ⟨h7, hv7⟩ := h6.readTimestamp_at
  obtain ⟨h8, h9⟩ := h7.readChecked_at (c := fun typeInfo => decide (getTypeId typeInfo = Logd.INT32_TYPE))
    (decide_eq_true ht)
  rw [h8]
  dsimp only
  obtain ⟨h10, hv10⟩ := h9.readTagId_at hb
  rw [hm, hbyte]
  exact ⟨_, by rw [show (n + 254) % 256 = n - 2 by omega], hv10.trans hv7, h10⟩

end

/-! ## The agreement -/

/-- The parse of the bytes of a built event, by an event with no values yet. -/
def parseBuilt (e : AStatsEvent) (uid pid : Int) : LogEvent × Bool :=
  LogEvent.parseBuffer e.buf { mLogUid := uid, mLogPid := pid } 0 e.numBytesWritten

theorem map_modify {α β : Type} {f : α → α} {g : α → β} (hfg : ∀ a, g (f a) = g a) (l : List α) (i : Nat) :
    (l.modify i f).map g = l.map g := by
  induction l generalizing i with
  | nil => rw [List.modify_nil]
  | cons a l ih =>
    cases i with
    | zero => rw [List.modify_zero_cons, List.map_cons, List.map_cons, hfg]
    | succ i => rw [List.modify_succ_cons, List.map_cons, List.map_cons, ih]

/-- A chain that can be serialised. -/
def Content.Ok : Content → Prop
  | .chain nodes => 0 < nodes.length ∧ nodes.length ≤ 127
  | _ => True

theorem Call.content_ok {c : Call} (hok : c.Ok) {x : Content} (h : c.content = some x) : x.Ok := by
  cases c with
  | writeAttributionChain nodes =>
    unfold Call.content at h
    dsimp only at h
    split at h
    · cases h
    · rename_i hlen
      cases h
      show 0 < (nodes.map _).length ∧ (nodes.map _).length ≤ 127
      rw [List.length_map]
      exact ⟨hok.1, not_lt.1 hlen⟩
  | _ => cases h <;> trivial

theorem written_forall {P : Content → Prop} (calls : List Call) (hcalls : ∀ c ∈ calls, ∀ x, c.content = some x → P x) {w : Written}
    (h : ∀ x ∈ w.fields.map Element.content, P x) : ∀ x ∈ (calls.foldl Written.call w).fields.map Element.content, P x := by
  induction calls generalizing w with
  | nil => exact h
  | cons c calls ih =>
    refine ih (fun d hd => hcalls d (List.mem_cons_of_mem c hd)) ?_
    have hann : ∀ a, ∀ x ∈ (w.annotate a).fields.map Element.content, P x := by
      intro a
      unfold Written.annotate
      split
      · split <;> exact h
      · dsimp only
        rw [map_modify (f := fun e : Element => { e with annotations := e.annotations ++ [a] }) (g := Element.content) fun _ => rfl]
        exact h
    cases hx : c.content with
    | some x =>
      rw [Call.call_content hx]
      intro y hy
      rw [Written.write, List.map_append, List.mem_append] at hy
      rcases hy with hy | hy
      · exact h y hy
      · rw [List.mem_singleton.1 hy]
        exact hcalls c List.mem_cons_self x hx
    | none =>
      cases c with
      | setAtomId atomId =>
        unfold Written.call
        dsimp only
        split <;> exact h
      | writeAttributionChain nodes =>
        unfold Call.content at hx
        dsimp only at hx
        split at hx
        · rename_i hlen
          rw [show w.call (.writeAttributionChain nodes) = w from if_pos hlen]
          exact h
        · cases hx
      | annotateBool annotationId value => exact hann _
      | annotateInt32 annotationId value => exact hann _
      | _ => cases hx

theorem written_ok (calls : List Call) (hok : ∀ c ∈ calls, c.Ok) :
    ∀ x ∈ (written calls).fields.map Element.content, x.Ok :=
  written_forall calls (fun c hc _ hx => Call.content_ok (hok c hc) hx) fun _ hx => absurd hx List.not_mem_nil

theorem at_start {e : AStatsEvent} {bytes : List UInt8} (hp : e.payload = bytes)
    (hmax : e.numBytesWritten ≤ MAX_PULL_EVENT_PAYLOAD) (uid pid : Int) :
    At e.buf { mLogUid := uid, mLogPid := pid, mBuf := 0, mRemainingLen := e.numBytesWritten % 2 ^ 32 } bytes ⟨0, 0, [], {}⟩ := by
  have hpull : MAX_PULL_EVENT_PAYLOAD = 51200 := rfl
  have hlen : bytes.length = e.numBytesWritten := by rw [← hp, length_payload]
  refine ⟨?_, by omega, ?_, rfl⟩
  · show e.numBytesWritten % 2 ^ 32 = bytes.length
    omega
  · rw [hlen]; exact hp

theorem parseBuilt_accepts {e : AStatsEvent} {timestamp : BitVec 64} {a : BitVec 32} {as : List Annotation} {fields : List Element}
    (hp : e.payload = headerBytes (1 + (1 + fields.length)) timestamp ++ (Element.bytes ⟨.int32 a, as⟩ ++ fields.flatMap Element.bytes))
    (hmax : e.numBytesWritten ≤ MAX_PULL_EVENT_PAYLOAD) (hcount : 1 + (1 + fields.length) ≤ 127) (has : as.length ≤ 15)
    (hfields : ∀ x ∈ fields, x.Ok) (uid pid : Int) (hvalid : (parseBuilt e uid pid).2 = true) :
    viewOf (parseBuilt e uid pid).1 = ⟨timestamp.toInt, a.toInt, valuesFrom a.toInt 1 fields,
      marksFrom a.toInt 1 0 (as.foldl ( Annotation.mark 0) {}) fields⟩ := by
  have hstart := at_start hp hmax uid pid
  unfold parseBuilt LogEvent.parseBuffer at hvalid ⊢
  dsimp only at hvalid ⊢
  generalize ({ mLogUid := uid, mLogPid := pid, mBuf := 0, mRemainingLen := e.numBytesWritten % 2 ^ 32 } : LogEvent) = ev0
    at hstart hvalid ⊢
  rw [Element.bytes, List.cons_append, List.append_assoc] at hstart
  obtain ⟨ev1, heq, -, hat1⟩ := At.parseHeader_at ⟨by omega, hcount⟩ (length_leBytes 4 a.toNat) has hstart
  rw [heq, show 1 + (1 + fields.length) - 2 = fields.length by omega] at hvalid ⊢
  dsimp only at hvalid ⊢
  -- the event is valid at the end, so it was all along
  have hvalid3 := (LogEvent.steps_check _ _).valid hvalid
  have hvalid2 := (LogEvent.steps_parseElements e.buf fields.length fields.length _).valid hvalid3
  have hat2 := At.parseAnnotations_at as [] none (fun _ _ _ i hi => by cases hi) hat1 rfl (fun _ => rfl) hvalid2
  generalize ev1.parseAnnotations e.buf none as.length = ev2 at hat2 hvalid3 hvalid ⊢
  rw [← List.append_nil (fields.flatMap Element.bytes)] at hat2
  have hat3 := At.parseElements_at fields hfields fields.length (le_refl _) hat2 hvalid3
  generalize ev2.parseElements e.buf fields.length fields.length = ev3 at hat3 ⊢
  have hon : as.foldl Annotation.on [] = [] := List.length_eq_zero_iff.1 (length_foldl_on as [])
  have hend : ev3.mRemainingLen = 0 := hat3.len
  rw [LogEvent.check, if_pos (decide_eq_true hend), hat3.view, signed_leBytes32, hon, Nat.sub_self, Nat.zero_add]
  rfl

theorem parseBuilt_rejects {e : AStatsEvent} {timestamp : BitVec 64} {b : List UInt8} {errors : BitVec 32}
    (hp : e.payload = errorBytes timestamp b errors) (hb : b.length = 4) (hmax : e.numBytesWritten ≤ MAX_PULL_EVENT_PAYLOAD)
    (uid pid : Int) :
    (parseBuilt e uid pid).2 = false ∧ (parseBuilt e uid pid).1.mElapsedTimestampNs = timestamp.toInt ∧
      (parseBuilt e uid pid).1.mTagId = LogEvent.signed 32 (ofLeBytes b) := by
  have hstart := at_start hp hmax uid pid
  unfold parseBuilt LogEvent.parseBuffer
  dsimp only
  generalize ({ mLogUid := uid, mLogPid := pid, mBuf := 0, mRemainingLen := e.numBytesWritten % 2 ^ 32 } : LogEvent) = ev0
    at hstart ⊢
  rw [errorBytes, List.append_assoc] at hstart
  obtain ⟨ev1, heq, -, hat1⟩ := At.parseHeader_at (n := 3) (by decide) hb (Nat.zero_le 15) hstart
  rw [heq]
  obtain ⟨hvalid, hview⟩ := hat1.parseElements_error
  have hbad : ∀ c, (((ev1.parseElements e.buf 1 1).check c)).mValid = false ∧
      viewOf ((ev1.parseElements e.buf 1 1).check c) = viewOf (ev1.parseElements e.buf 1 1) := by
    intro c
    cases c with
    | true => exact ⟨hvalid, rfl⟩
    | false => exact ⟨rfl, rfl⟩
  obtain ⟨hv, hw⟩ := hbad (decide ((ev1.parseElements e.buf 1 1).mRemainingLen = 0))
  have hview' := hw.trans hview
  exact ⟨hv, congrArg View.timestamp hview', congrArg View.tag hview'⟩

/-- What the builder writes the parser reads back. -/
theorem builder_parser_agree (timestamp : BitVec 64) (calls : List Call) (hok : ∀ c ∈ calls, c.Ok) (uid pid : Int) :
    let e := AStatsEvent_build (runCalls timestamp calls)
    let w := written calls
    let r := parseBuilt e uid pid
    (e.errors = 0 → r.2 = true → ∃ a, w.atomId = some a ∧
      viewOf r.1 = ⟨timestamp.toInt, a.toInt, valuesFrom a.toInt 1 w.fields,
        marksFrom a.toInt 1 0 (w.atomAnnotations.foldl ( Annotation.mark 0) {}) w.fields⟩) ∧
    (e.errors ≠ 0 → r.2 = false ∧ r.1.mElapsedTimestampNs = timestamp.toInt ∧ ∀ a, w.atomId = some a → r.1.mTagId = a.toInt) := by
  intro e w r
  have henc := fun h => Encodes.run calls (fun c hc => (hok c hc).fits) (encodes_obtain timestamp) h
  have hkeep := Keeps.run calls (fun c hc => (hok c hc).fits) (keeps_obtain timestamp)
  refine ⟨fun herr hvalid => ?_, fun herr => ?_⟩
  · obtain ⟨hp, hcount, hmax, ⟨a, ha⟩, hann⟩ := build_of_no_errors henc hkeep herr
    have helements : (calls.foldl Written.call {}).elements = ⟨.int32 a, w.atomAnnotations⟩ :: w.fields := by
      unfold Written.elements Written.atomElement
      rw [ha]
      rfl
    rw [helements, List.length_cons, Nat.add_comm w.fields.length 1] at hcount
    rw [helements, List.length_cons, Nat.add_comm w.fields.length 1, List.flatMap_cons] at hp
    rw [helements] at hann
    refine ⟨a, ha, parseBuilt_accepts hp hmax hcount (hann _ List.mem_cons_self) (fun x hx => ?_) uid pid hvalid⟩
    have hx_ok : x.content.Ok := written_ok calls hok _ (List.mem_map_of_mem hx)
    refine ⟨hann x (List.mem_cons_of_mem _ hx), fun nodes hnodes => ?_⟩
    rw [hnodes] at hx_ok
    exact hx_ok
  · obtain ⟨b, hp, hb, hnum, hid⟩ := build_of_errors hkeep herr
    obtain ⟨h1, h2, h3⟩ := parseBuilt_rejects hp hb (by rw [hnum]; decide) uid pid
    refine ⟨h1, h2, fun a ha => ?_⟩
    rw [← signed_leBytes32 a, ← hid a ha]
    exact h3

/-- An atom with a uid, a chain of two nodes and a string, and annotations on the atom, the uid and the chain. -/
def sampleCalls : List Call :=
  [.setAtomId 10, .annotateBool 2 true, .writeInt32 1000, .annotateBool 1 true,
    .writeAttributionChain [(1000, some [97]), (1001, none)], .annotateBool 5 true, .writeString (some [98, 99]),
    .annotateInt32 7 2]

theorem builder_parser_agree_sample :
    let e := AStatsEvent_build (runCalls 77 sampleCalls)
    (∀ c ∈ sampleCalls, c.Ok) ∧ e.errors = 0 ∧ (parseBuilt e 1 2).2 = true ∧
      viewOf (parseBuilt e 1 2).1 = ⟨77, 10, valuesFrom 10 1 (written sampleCalls).fields,
        marksFrom 10 1 0 ((written sampleCalls).atomAnnotations.foldl ( Annotation.mark 0) {}) (written sampleCalls).fields⟩ := by
  have hok : ∀ c ∈ sampleCalls, c.Ok := by simp [sampleCalls, Call.Ok]
  have herr : (AStatsEvent_build (runCalls 77 sampleCalls)).errors = 0 := by decide +kernel
  have hvalid : (parseBuilt (AStatsEvent_build (runCalls 77 sampleCalls)) 1 2).2 = true := by decide +kernel
  obtain ⟨a, ha, hview⟩ := (builder_parser_agree 77 sampleCalls hok 1 2).1 herr hvalid
  cases ha
  exact ⟨hok, herr, hvalid, hview⟩

end Statsd.Libstatssocket
