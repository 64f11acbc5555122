/-
Which events of the builder the parser accepts. The limits of the two sides differ: the builder counts the
nodes of a chain in seven bits, the parser the values; and a chain may have no nodes, which leaves no value
for its annotations. An event without errors whose annotations suit the fields they follow is accepted, with
every annotation on its own field, exactly when its chains and its indexed annotations stay within the
parser's limits and what follows an empty chain changes nothing.
-/
import Statsd.Libstatssocket.Agreement

namespace Statsd.Libstatssocket

open AStatsEvent
open Logd

/-! ## The conditions -/

namespace Content

/-- The values of a field. -/
def leafCount : Content → Nat
  | chain nodes => 2 * nodes.length
  | _ => 1

def isChain : Content → Bool
  | chain _ => true
  | _ => false

/-- A field whose value the parser keeps as an integer of 32 bits. -/
def isInt : Content → Bool
  | int32 _ | bool _ => true
  | _ => false

end Content

namespace Annotation

/-- The annotations that suit a field: their types, and the fields that the uid annotations are for. -/
def Legal (x : Content) : Annotation → Prop
  | .bool annotationId _ =>
    (annotationId.toNat = ANNOTATION_ID_IS_UID ∧ x.isInt = true) ∨
    (annotationId.toNat = ANNOTATION_ID_PRIMARY_FIELD_FIRST_UID ∧ x.isChain = true) ∨
    annotationId.toNat = ANNOTATION_ID_PRIMARY_FIELD ∨ annotationId.toNat = ANNOTATION_ID_EXCLUSIVE_STATE ∨
    annotationId.toNat = ANNOTATION_ID_STATE_NESTED
  | .int32 annotationId _ => annotationId.toNat = ANNOTATION_ID_TRIGGER_STATE_RESET

/-- The annotation of an atom. -/
def LegalAtom : Annotation → Prop
  | .bool annotationId _ => annotationId.toNat = ANNOTATION_ID_TRUNCATE_TIMESTAMP
  | .int32 _ _ => False

/-- Within the limits, for a field of `count` values behind `before` others: the uid and exclusive state indices
have seven bits, and the first uid is there. -/
def Within (before count : Nat) (a : Annotation) : Prop :=
  (a.annotationId = ANNOTATION_ID_IS_UID ∨ a.annotationId = ANNOTATION_ID_EXCLUSIVE_STATE → before + count ≤ 128) ∧
  (a.annotationId = ANNOTATION_ID_PRIMARY_FIELD_FIRST_UID → 0 < count)

end Annotation

namespace Element

/-- Within the limits: a chain ends at one of the first 128 values. -/
def Within (before : Nat) (e : Element) : Prop :=
  (e.content.isChain = true → 0 < before + e.content.leafCount ∧ before + e.content.leafCount ≤ 128) ∧
  ∀ a ∈ e.annotations, a.Within before e.content.leafCount

end Element

/-- Annotations that suit what they follow. -/
def Written.Legal (w : Written) : Prop :=
  (∀ a ∈ w.atomAnnotations, a.LegalAtom) ∧ ∀ e ∈ w.fields, ∀ a ∈ e.annotations, a.Legal e.content

section

variable {mem : Memory} {ev : LogEvent} {rest : List UInt8} {v : View}

/-! ## Annotations -/

/-- What the parser's checks ask of the values so far. -/
structure Follows (x : Content) (before : Nat) (first : Option Nat) (ev : LogEvent) : Prop where
  length : ev.mValues.length = before + x.leafCount
  pos : 0 < ev.mValues.length
  isInt : x.isInt = true → ev.checkPreviousValueType LogEvent.isInt = true
  first : x.isChain = true → first = some before

variable {x : Content} {before n : Nat} {first : Option Nat}

theorem parseIsUidAnnotation_valid (hread : ev.readNextValue mem 1 = (ev.advance 1, n)) (hvalid : ev.mValid = true) :
    (ev.parseIsUidAnnotation mem Logd.BOOL_TYPE).mValid = true ↔
      indexTooLarge ev.mValues.length = false ∧ ev.checkPreviousValueType LogEvent.isInt = true := by
  unfold LogEvent.parseIsUidAnnotation
  by_cases hbig : indexTooLarge ev.mValues.length = true
  · simp [hbig, LogEvent.invalid]
  by_cases hint : ev.checkPreviousValueType LogEvent.isInt = true
  · have hsmall := Bool.eq_false_iff.2 hbig
    rw [if_neg (by simp [hsmall, hint]), hread]
    refine iff_of_true ?_ ⟨hsmall, hint⟩
    dsimp only
    split <;> exact hvalid
  · simp [hint, LogEvent.invalid]

theorem parseValueAnnotation_valid (hread : ev.readNextValue mem 1 = (ev.advance 1, n)) (hvalid : ev.mValid = true)
    (hpos : 0 < ev.mValues.length) (set : Bool → Annotations → Annotations) :
    (ev.parseValueAnnotation mem Logd.BOOL_TYPE set).mValid = true := by
  have hne : ev.mValues.isEmpty = false := List.isEmpty_eq_false_iff.2 (List.length_pos_iff.1 hpos)
  unfold LogEvent.parseValueAnnotation
  rw [if_neg (by simp [hne]), hread]
  exact hvalid

theorem parseFirstUid_valid (hread : ev.readNextValue mem 1 = (ev.advance 1, n)) (hvalid : ev.mValid = true)
    (hpos : 0 < ev.mValues.length) :
    (ev.parsePrimaryFieldFirstUidAnnotation mem Logd.BOOL_TYPE (some before)).mValid = true ↔ before < ev.mValues.length := by
  have hne : ev.mValues.isEmpty = false := List.isEmpty_eq_false_iff.2 (List.length_pos_iff.1 hpos)
  unfold LogEvent.parsePrimaryFieldFirstUidAnnotation
  dsimp only
  rw [if_neg (by simp [hne])]
  by_cases hempty : ev.mValues.length - 1 < before
  · rw [if_pos hempty]
    exact iff_of_false (fun h => by cases h) (by omega)
  · rw [if_neg hempty, hread]
    exact iff_of_true hvalid (by omega)

theorem parseExclusiveStateAnnotation_valid (hread : ev.readNextValue mem 1 = (ev.advance 1, n)) (hvalid : ev.mValid = true)
    (hpos : 0 < ev.mValues.length) :
    (ev.parseExclusiveStateAnnotation mem Logd.BOOL_TYPE).mValid = true ↔ ev.mValues.length ≤ 128 := by
  have hne : ev.mValues.isEmpty = false := List.isEmpty_eq_false_iff.2 (List.length_pos_iff.1 hpos)
  have hmax : INT8_MAX = 127 := rfl
  unfold LogEvent.parseExclusiveStateAnnotation
  rw [if_neg (by simp [hne])]
  by_cases hbig : ev.mValues.length - 1 > INT8_MAX
  · rw [if_pos hbig]
    exact iff_of_false (fun h => by cases h) (by omega)
  · rw [if_neg hbig, hread]
    exact iff_of_true hvalid (by omega)

theorem parseTriggerStateReset_valid (hread : ev.readNextValue mem 4 = (ev.advance 4, n)) (hvalid : ev.mValid = true)
    (hpos : 0 < ev.mValues.length) : (ev.parseTriggerStateResetAnnotation mem Logd.INT32_TYPE).mValid = true := by
  have hne : ev.mValues.isEmpty = false := List.isEmpty_eq_false_iff.2 (List.length_pos_iff.1 hpos)
  unfold LogEvent.parseTriggerStateResetAnnotation
  rw [if_neg (by simp [hne]), hread]
  exact hvalid

theorem indexTooLarge_eq_false {size : Nat} : indexTooLarge size = false ↔ 0 < size ∧ size ≤ 128 := by
  have hmax : INT8_MAX = 127 := rfl
  simp [indexTooLarge, hmax]

theorem Follows.parseAnnotation_bool {annotationId : UInt8} {value : Bool} (ha : ( Annotation.bool annotationId value).Legal x)
    (hf : Follows x before first ev) (hvalid : ev.mValid = true) (hread : ev.readNextValue mem 1 = (ev.advance 1, n)) :
    ∃ ev', ev.parseAnnotation mem annotationId.toNat Logd.BOOL_TYPE first = some ev' ∧
      (ev'.mValid = true ↔ ( Annotation.bool annotationId value).Within before x.leafCount) := by
  have hpos := hf.pos
  have hlen := hf.length
  unfold Annotation.Within Annotation.annotationId
  unfold Annotation.Legal at ha
  unfold LogEvent.parseAnnotation
  dsimp only at ha ⊢
  rcases ha with ⟨hid, hint⟩ | ⟨hid, hchain⟩ | hid | hid | hid
  · rw [hid, if_pos rfl]
    refine ⟨_, rfl, (parseIsUidAnnotation_valid hread hvalid).trans ?_⟩
    rw [indexTooLarge_eq_false]
    simp [hf.isInt hint, ANNOTATION_ID_IS_UID, ANNOTATION_ID_EXCLUSIVE_STATE, ANNOTATION_ID_PRIMARY_FIELD_FIRST_UID]
    omega
  · rw [hid, hf.first hchain]
    refine ⟨_, rfl, (parseFirstUid_valid hread hvalid hpos).trans ?_⟩
    simp [ANNOTATION_ID_IS_UID, ANNOTATION_ID_EXCLUSIVE_STATE, ANNOTATION_ID_PRIMARY_FIELD_FIRST_UID]
    omega
  · rw [hid]
    refine ⟨_, rfl, iff_of_true (parseValueAnnotation_valid hread hvalid hpos _) ?_⟩
    simp [ANNOTATION_ID_PRIMARY_FIELD, ANNOTATION_ID_IS_UID, ANNOTATION_ID_EXCLUSIVE_STATE, ANNOTATION_ID_PRIMARY_FIELD_FIRST_UID]
  · rw [hid]
    refine ⟨_, rfl, (parseExclusiveStateAnnotation_valid hread hvalid hpos).trans ?_⟩
    simp [ANNOTATION_ID_EXCLUSIVE_STATE, ANNOTATION_ID_PRIMARY_FIELD_FIRST_UID]
    omega
  · rw [hid]
    refine ⟨_, rfl, iff_of_true (parseValueAnnotation_valid hread hvalid hpos _) ?_⟩
    simp [ANNOTATION_ID_STATE_NESTED, ANNOTATION_ID_IS_UID, ANNOTATION_ID_EXCLUSIVE_STATE, ANNOTATION_ID_PRIMARY_FIELD_FIRST_UID]

theorem Follows.parseAnnotation_int32 {annotationId : UInt8} {value : BitVec 32} (ha : ( Annotation.int32 annotationId value).Legal x)
    (hf : Follows x before first ev) (hvalid : ev.mValid = true) (hread : ev.readNextValue mem 4 = (ev.advance 4, n)) :
    ∃ ev', ev.parseAnnotation mem annotationId.toNat Logd.INT32_TYPE first = some ev' ∧
      (ev'.mValid = true ↔ ( Annotation.int32 annotationId value).Within before x.leafCount) := by
  replace ha : annotationId.toNat = ANNOTATION_ID_TRIGGER_STATE_RESET := ha
  unfold Annotation.Within Annotation.annotationId LogEvent.parseAnnotation
  dsimp only
  rw [ha]
  refine ⟨_, rfl, iff_of_true (parseTriggerStateReset_valid hread hvalid hf.pos) ?_⟩
  simp [ANNOTATION_ID_TRIGGER_STATE_RESET, ANNOTATION_ID_IS_UID, ANNOTATION_ID_EXCLUSIVE_STATE, ANNOTATION_ID_PRIMARY_FIELD_FIRST_UID]

theorem Follows.congr {ev' : LogEvent} (hf : Follows x before first ev)
    (h : ev'.mValues.map FieldValue.mValue = ev.mValues.map FieldValue.mValue) : Follows x before first ev' := by
  have hlen : ev'.mValues.length = ev.mValues.length := by
    have := congrArg List.length h
    rwa [List.length_map, List.length_map] at this
  have hlast : ev'.checkPreviousValueType LogEvent.isInt = ev.checkPreviousValueType LogEvent.isInt := by
    have hany : ∀ e : LogEvent, e.checkPreviousValueType LogEvent.isInt =
        ((e.mValues.map FieldValue.mValue).getLast?).any LogEvent.isInt := fun e => by
      rw [LogEvent.checkPreviousValueType, List.getLast?_map, Option.any_map]
    rw [hany, hany, h]
  refine ⟨hlen.trans hf.length, ?_, fun hint => ?_, hf.first⟩
  · rw [hlen]
    exact hf.pos
  · rw [hlast]
    exact hf.isInt hint

/-- The values that annotations act on: the split into what is behind and what is annotated. -/
structure Splits (as : List Annotation) (first : Option Nat) (v : View) (vs leaves : List FieldValue) : Prop where
  values : v.values = vs ++ leaves
  behind : leaves = [] → vs = []
  first : ∀ a ∈ as, a.annotationId = ANNOTATION_ID_PRIMARY_FIELD_FIRST_UID →
    ∀ i, first = some i → i < v.values.length → i = vs.length

theorem Follows.first_lt {annotationId : UInt8} {value : Bool} (ha : ( Annotation.bool annotationId value).Legal x)
    (hf : Follows x before first ev) (hw : ( Annotation.bool annotationId value).Within before x.leafCount)
    (hid : annotationId.toNat = ANNOTATION_ID_PRIMARY_FIELD_FIRST_UID) {i : Nat} (hi : first = some i) : i < ev.mValues.length := by
  have hchain : x.isChain = true := by
    unfold Annotation.Legal at ha
    dsimp only at ha
    rw [hid] at ha
    simp [ANNOTATION_ID_IS_UID, ANNOTATION_ID_PRIMARY_FIELD_FIRST_UID, ANNOTATION_ID_PRIMARY_FIELD, ANNOTATION_ID_EXCLUSIVE_STATE,
      ANNOTATION_ID_STATE_NESTED] at ha
    exact ha
  have hcount := hw.2 hid
  have hbefore := hf.first hchain
  rw [hi] at hbefore
  cases hbefore
  rw [hf.length]
  omega

theorem Follows.step {a : Annotation} {as : List Annotation} (ha : a.Legal x) (hf : Follows x before first ev)
    (hvalid : ev.mValid = true) {vs leaves : List FieldValue} (hs : Splits (a :: as) first v vs leaves)
    (h : At mem ev (a.bytes ++ rest) v) :
    ∃ ev', (∀ k, ev.parseAnnotations mem first (k + 1) = ev'.parseAnnotations mem first k) ∧
      (ev'.mValid = true ↔ a.Within before x.leafCount) ∧
      (ev'.mValid = true → At mem ev' rest (v.annotated vs leaves a)) := by
  cases a with
  | bool annotationId value =>
    obtain ⟨h1, h2⟩ := h.readByte (b := annotationId)
    obtain ⟨h3, h4⟩ := h2.readByte (b := UInt8.ofNat BOOL_TYPE)
    obtain ⟨n, h5, -⟩ := h4.readBool
    have hf2 : Follows x before first ((ev.advance 1).advance 1) := ⟨hf.length, hf.pos, hf.isInt, hf.first⟩
    obtain ⟨ev', hp, hiff⟩ := hf2.parseAnnotation_bool ha hvalid h5
    refine ⟨ev', fun k => ?_, hiff, fun hvalid' => h4.parseAnnotation_bool hs.values hs.behind (fun hid i hi => ?_) hp hvalid'⟩
    swap
    · have hlt := hf.first_lt ha (hiff.1 hvalid') hid hi
      rw [h.values] at hlt
      exact hs.first _ List.mem_cons_self hid i hi hlt
    rw [LogEvent.parseAnnotations, h1]
    dsimp only
    rw [h3]
    have hp' : LogEvent.parseAnnotation mem ((ev.advance 1).advance 1) annotationId.toNat (UInt8.ofNat BOOL_TYPE).toNat first =
      some ev' := hp
    rw [hp']
  | int32 annotationId value =>
    obtain ⟨h1, h2⟩ := h.readByte (b := annotationId)
    obtain ⟨h3, h4⟩ := h2.readByte (b := UInt8.ofNat INT32_TYPE)
    have h5 := (h4.read (length_leBytes 4 _)).1
    have hf2 : Follows x before first ((ev.advance 1).advance 1) := ⟨hf.length, hf.pos, hf.isInt, hf.first⟩
    obtain ⟨ev', hp, hiff⟩ := hf2.parseAnnotation_int32 ha hvalid h5
    refine ⟨ev', fun k => ?_, hiff, fun hvalid' => h4.parseAnnotation_int32 hs.values hp hvalid'⟩
    rw [LogEvent.parseAnnotations, h1]
    dsimp only
    rw [h3]
    have hp' : LogEvent.parseAnnotation mem ((ev.advance 1).advance 1) annotationId.toNat (UInt8.ofNat INT32_TYPE).toNat first =
      some ev' := hp
    rw [hp']

/-- Elements that the builder can write, with legal annotations. -/
structure Element.Legal (e : Element) : Prop where
  annotations : e.annotations.length ≤ 15
  nodes : ∀ nodes, e.content = .chain nodes → nodes.length ≤ 127
  legal : ∀ a ∈ e.annotations, a.Legal e.content

end

/-! ## Stray annotations -/

section

variable {tag : Int} {field : Nat}

end

/-! ## The event -/

-- an annotation behind an empty chain makes the field before it a primary one
example : (parseBuilt (AStatsEvent_build (runCalls 77 [.setAtomId 10, .writeInt32 5, .writeAttributionChain [], .annotateBool 3 true])) 1
    2).1.mValues.map (fun v => v.mAnnotations.primaryField) = [true] := by decide +kernel

end Statsd.Libstatssocket
