/-
What a buffer says, apart from what the parser makes of it. The elements of an event are decoded with their annotations,
without any check: lengths are not compared with the bytes that remain, and types not with what is allowed. A parse that
ends without an error has followed this decoding (`Consumes`): it stands at the same address, has added as many values,
and what it has recorded about uids and attribution chains is what the annotations and chains of the buffer give.
-/
import Statsd.Logd.ParseSafety

namespace Statsd.Logd

/-! ## Decoding -/

/-- An annotation, with the number behind its type. -/
structure WireAnnotation where
  id : Nat
  value : Nat

/-- The forms of an element: a value, a list of keys and values, or an attribution chain. -/
inductive Shape where
  | value
  | pairs (count : Nat)
  | chain (count : Nat)
deriving DecidableEq

namespace Shape

/-- The number of values. -/
def size : Shape → Nat
  | value => 1
  | pairs count => 2 * count
  | chain count => 2 * count

end Shape

structure WireElement where
  shape : Shape
  annotations : List WireAnnotation

section

variable (mem : Memory)

/-- The number at an address. -/
def numberAt (size addr : Nat) : Nat := ofLeBytes (mem.read addr size)

def annotationSize (annotationType : Nat) : Nat := if annotationType = INT32_TYPE then 4 else 1

/-- Some annotations, and the address behind them. -/
def decodeAnnotations : Nat → Nat → List WireAnnotation × Nat
  | 0, addr => ([], addr)
  | numAnnotations + 1, addr =>
    let size := annotationSize (numberAt mem 1 (addr + 1))
    let (annotations, addr') := decodeAnnotations numAnnotations (addr + 2 + size)
    (⟨numberAt mem 1 addr, numberAt mem size (addr + 2)⟩ :: annotations, addr')

/-- The address behind a length and that many bytes. -/
def skipBytes (addr : Nat) : Nat := addr + 4 + numberAt mem 4 addr

/-- The address behind the value of a pair, whose type is known. -/
def skipPairValue (typeId addr : Nat) : Nat :=
  if typeId = INT32_TYPE then addr + 4
  else if typeId = INT64_TYPE then addr + 8
  else if typeId = STRING_TYPE then skipBytes mem addr
  else addr + 4

def skipPairs : Nat → Nat → Nat
  | 0, addr => addr
  | k + 1, addr => skipPairs k (skipPairValue mem (getTypeId (numberAt mem 1 (addr + 4))) (addr + 5))

def skipNodes : Nat → Nat → Nat
  | 0, addr => addr
  | k + 1, addr => skipNodes k (skipBytes mem (addr + 4))

/-- The shape of an element of a type, and the address of its annotations. -/
def decodeShape (typeId addr : Nat) : Shape × Nat :=
  if typeId = BOOL_TYPE then (.value, addr + 1)
  else if typeId = INT32_TYPE then (.value, addr + 4)
  else if typeId = INT64_TYPE then (.value, addr + 8)
  else if typeId = FLOAT_TYPE then (.value, addr + 4)
  else if typeId = BYTE_ARRAY_TYPE then (.value, skipBytes mem addr)
  else if typeId = STRING_TYPE then (.value, skipBytes mem addr)
  else if typeId = KEY_VALUE_PAIRS_TYPE then (.pairs (numberAt mem 1 addr), skipPairs mem (numberAt mem 1 addr) (addr + 1))
  else (.chain (numberAt mem 1 addr), skipNodes mem (numberAt mem 1 addr) (addr + 1))

def decodeElement (addr : Nat) : WireElement × Nat :=
  let typeInfo := numberAt mem 1 addr
  let (shape, addr) := decodeShape mem (getTypeId typeInfo) (addr + 1)
  let (annotations, addr) := decodeAnnotations mem (getNumAnnotations typeInfo) addr
  (⟨shape, annotations⟩, addr)

def decodeElements : Nat → Nat → List WireElement
  | 0, _ => []
  | k + 1, addr => (decodeElement mem addr).1 :: decodeElements k (decodeElement mem addr).2

/-- The number of elements behind the header. -/
def elementCount (buf : Nat) : Nat := (numberAt mem 1 (buf + 1) + 254) % 256

/-- The address behind the header: two bytes, the timestamp and the atom id with their types, and the annotations of the atom. -/
def headerEnd (buf : Nat) : Nat := (decodeAnnotations mem (getNumAnnotations (numberAt mem 1 (buf + 11))) (buf + 16)).2

/-- The elements of a buffer. -/
def decodeBuffer (buf : Nat) : List WireElement := decodeElements mem (elementCount mem buf) (headerEnd mem buf)

end

/-! ## What annotations and chains record -/

/-- The uid annotations among some annotations of the value with an index, and whether they mark it. -/
def uidMarks (index : Nat) (annotations : List WireAnnotation) : List (Nat × Bool) :=
  (annotations.filter fun a => a.id = ANNOTATION_ID_IS_UID).map fun a => (index, decide (a.value ≠ 0))

/-- The uid annotations of some elements behind `k` values; annotations are for the last value so far. -/
def uidMarksFrom : Nat → List WireElement → List (Nat × Bool)
  | _, [] => []
  | k, e :: es => uidMarks (k + e.shape.size - 1) e.annotations ++ uidMarksFrom (k + e.shape.size) es

/-- The first and the last value of a chain behind `k` values. -/
def Shape.ranges (k : Nat) : Shape → List (Int × Int)
  | .chain (count + 1) => [(k, k + 2 * count + 1)]
  | _ => []

/-- The first and the last values of the chains. -/
def chainRanges : Nat → List WireElement → List (Int × Int)
  | _, [] => []
  | k, e :: es => e.shape.ranges k ++ chainRanges (k + e.shape.size) es

/-- The value that the last annotation with a true value marked, and whether it still is marked. -/
def markUid (u : Option (Nat × Bool)) (a : Nat × Bool) : Option (Nat × Bool) :=
  if a.2 then some a else u.map fun m => (m.1, m.2 && decide (m.1 ≠ a.1))

namespace LogEvent

/-- The uid field of an event: none, or an int with the annotation or without it. -/
def UidAt (ev : LogEvent) : Option (Nat × Bool) → Prop
  | none => ev.mUidFieldIndex = -1
  | some (i, marked) => ev.mUidFieldIndex = i ∧
    ∃ v : FieldValue, ev.mValues[i]? = some v ∧ isInt v.mValue = true ∧ v.mAnnotations.uidField = marked

/-- The field of the exclusive state: none, or a value. -/
def ExclusiveAt (ev : LogEvent) : Prop := ev.mExclusiveStateFieldIndex = -1 ∨ ∃ i : Nat, ev.mExclusiveStateFieldIndex = i ∧ i < ev.mValues.length

/-- The types of the values that the parser adds. -/
def isWritten : Value → Bool
  | .INT _ => true
  | .LONG _ => true
  | .FLOAT _ => true
  | .STRING _ => true
  | .STORAGE _ => true
  | _ => false

/-- The range of the attribution chain. -/
def chainRange (ev : LogEvent) : Int × Int := (ev.mAttributionChainStartIndex, ev.mAttributionChainEndIndex)

/-- The parser has come from one event to another: it stands at `addr`, and has added `added` values, met the uid annotations
`uids` and recorded the chains `ranges`. -/
structure Consumes (ev ev' : LogEvent) (addr added : Nat) (uids : List (Nat × Bool)) (ranges : List (Int × Int)) : Prop where
  address : ev'.mBuf = addr
  length : ev'.mValues.length = ev.mValues.length + added
  uid : ∀ u, UidAt ev u → UidAt ev' (uids.foldl markUid u)
  exclusive : ExclusiveAt ev → ExclusiveAt ev'
  range : ev'.chainRange = ranges.foldl (fun _ range => range) ev.chainRange
  written : (∀ v ∈ ev.mValues, isWritten v.mValue = true) → ∀ v ∈ ev'.mValues, isWritten v.mValue = true

theorem Consumes.trans {ev ev' ev'' : LogEvent} {addr addr' added added' : Nat} {uids uids' : List (Nat × Bool)}
    {ranges ranges' : List (Int × Int)} (h : Consumes ev ev' addr added uids ranges) (h' : Consumes ev' ev'' addr' added' uids' ranges') :
    Consumes ev ev'' addr' (added + added') (uids ++ uids') (ranges ++ ranges') where
  address := h'.address
  length := by rw [h'.length, h.length, Nat.add_assoc]
  uid u hu := by
    rw [List.foldl_append]
    exact h'.uid _ (h.uid u hu)
  exclusive hex := h'.exclusive (h.exclusive hex)
  range := by rw [h'.range, h.range, List.foldl_append]
  written hold := h'.written (h.written hold)

/-- A move that only reads. -/
abbrev Moves (ev ev' : LogEvent) (addr : Nat) : Prop := Consumes ev ev' addr 0 [] []

theorem Consumes.before {ev ev' ev'' : LogEvent} {addr addr' added : Nat} {uids : List (Nat × Bool)} {ranges : List (Int × Int)}
    (h : Moves ev ev' addr) (h' : Consumes ev' ev'' addr' added uids ranges) : Consumes ev ev'' addr' added uids ranges := by
  have hall := h.trans h'
  rwa [Nat.zero_add] at hall

theorem Consumes.same {ev ev' : LogEvent} (hvalues : ev'.mValues = ev.mValues) (huid : ev'.mUidFieldIndex = ev.mUidFieldIndex)
    (hexclusive : ev'.mExclusiveStateFieldIndex = ev.mExclusiveStateFieldIndex) (hrange : ev'.chainRange = ev.chainRange) :
    Moves ev ev' ev'.mBuf where
  address := rfl
  length := by rw [hvalues, Nat.add_zero]
  uid u hu := by
    cases u with
    | none => exact huid.trans hu
    | some m =>
      obtain ⟨hi, v, hv, hint, hmark⟩ := hu
      exact ⟨huid.trans hi, v, hvalues ▸ hv, hint, hmark⟩
  exclusive h := by
    unfold ExclusiveAt at h ⊢
    rwa [hexclusive, hvalues]
  range := hrange
  written hold := by rwa [hvalues]

variable {ev : LogEvent}

theorem mValue_annotate {i : Nat} {f : Annotations → Annotations} {v : FieldValue} (h : v ∈ (ev.annotate i f).mValues) :
    ∃ w ∈ ev.mValues, v.mValue = w.mValue := by
  unfold annotate at h
  dsimp only at h
  obtain ⟨j, hj⟩ := List.mem_iff_getElem?.1 h
  rw [List.getElem?_modify] at hj
  obtain ⟨w, hw, rfl⟩ := Option.map_eq_some_iff.1 hj
  refine ⟨w, List.mem_of_getElem? hw, ?_⟩
  split
  · rfl
  · rfl

theorem moves_annotate (ev : LogEvent) (i : Nat) {f : Annotations → Annotations} (hf : ∀ a, (f a).uidField = a.uidField) :
    Moves ev (ev.annotate i f) ev.mBuf where
  address := rfl
  length := by simp [annotate]
  uid u hu := by
    cases u with
    | none => exact hu
    | some m =>
      obtain ⟨hi, v, hv, hint, hmark⟩ := hu
      refine ⟨hi, if i = m.1 then { v with mAnnotations := f v.mAnnotations } else v, ?_, ?_⟩
      · unfold annotate
        dsimp only
        rw [List.getElem?_modify, hv]
        by_cases him : i = m.1
        · simp [him]
        · simp [him]
      · split
        · exact ⟨hint, (hf _).trans hmark⟩
        · exact ⟨hint, hmark⟩
  exclusive h := by
    unfold ExclusiveAt at h ⊢
    simpa [annotate] using h
  range := rfl
  written hold v hv := by
    obtain ⟨w, hw, hsame⟩ := mValue_annotate hv
    rw [hsame]
    exact hold w hw

theorem consumes_addToValues (ev : LogEvent) (pos : Nat → BitVec 32) (depth : Nat) {value : Value} (last : Nat → Bool)
    (hvalue : isWritten value = true) :
    Consumes ev (ev.addToValues pos depth value last) ev.mBuf 1 [] [] where
  address := rfl
  length := by simp [addToValues]
  uid u hu := by
    cases u with
    | none => exact hu
    | some m =>
      obtain ⟨hi, v, hv, hmark⟩ := hu
      refine ⟨hi, v, ?_, hmark⟩
      unfold addToValues
      dsimp only
      rw [List.getElem?_append_left (List.getElem?_eq_some_iff.1 hv).1]
      exact hv
  exclusive h := by
    refine h.imp_right ?_
    rintro ⟨i, hi, hlt⟩
    refine ⟨i, hi, ?_⟩
    simp only [addToValues, List.length_append]
    omega
  range := rfl
  written hold v hv := by
    rcases List.mem_append.1 hv with hv | hv
    · exact hold v hv
    · rw [List.mem_singleton.1 hv]
      exact hvalue

variable (mem : Memory)

theorem moves_readNextValue {size : Nat} (hvalid : (ev.readNextValue mem size).1.mValid = true) :
    Moves ev (ev.readNextValue mem size).1 (ev.mBuf + size) ∧ (ev.readNextValue mem size).2 = numberAt mem size ev.mBuf := by
  unfold readNextValue at hvalid ⊢
  split at hvalid
  · cases hvalid
  · rename_i hlen
    rw [if_neg hlen]
    exact ⟨Consumes.same rfl rfl rfl rfl, rfl⟩

/-! ## Annotations -/

section

variable {ev : LogEvent} {annotationType : Nat}

theorem consumes_parseIsUidAnnotation (hvalid : (ev.parseIsUidAnnotation mem annotationType).mValid = true) :
    annotationType = BOOL_TYPE ∧ Consumes ev (ev.parseIsUidAnnotation mem annotationType) (ev.mBuf + 1) 0
      [(ev.mValues.length - 1, decide (numberAt mem 1 ev.mBuf ≠ 0))] [] := by
  unfold parseIsUidAnnotation at hvalid ⊢
  split at hvalid
  · cases hvalid
  rename_i hc
  rw [if_neg hc]
  simp only [Bool.or_eq_true, not_or, Bool.not_eq_true', Bool.not_eq_false, decide_eq_true_eq, not_not] at hc
  obtain ⟨⟨-, hint⟩, htype⟩ := hc
  refine ⟨htype, ?_⟩
  dsimp only at hvalid ⊢
  have hread : (ev.readNextValue mem 1).1.mValid = true := by
    by_contra hfalse
    refine hfalse ?_
    revert hvalid
    unfold annotate
    dsimp only
    split
    · exact id
    · exact id
  obtain ⟨hmoves, hvalue⟩ := moves_readNextValue mem hread
  refine Consumes.before hmoves ?_
  have hvalues : (ev.readNextValue mem 1).1.mValues = ev.mValues := by
    unfold readNextValue
    split
    · rfl
    · rfl
  have haddress := hmoves.address
  rw [hvalue]
  generalize (ev.readNextValue mem 1).1 = ev1 at hvalues haddress ⊢
  -- the last value is an int
  obtain ⟨v, hlast, hint⟩ : ∃ v, ev1.mValues[ev.mValues.length - 1]? = some v ∧ isInt v.mValue = true := by
    unfold checkPreviousValueType at hint
    cases hlast : ev.mValues.getLast? with
    | none =>
      rw [hlast] at hint
      cases hint
    | some v =>
      rw [hlast] at hint
      exact ⟨v, by rw [hvalues, ← List.getLast?_eq_getElem?]; exact hlast, hint⟩
  generalize hmark : decide (numberAt mem 1 ev.mBuf ≠ 0) = mark
  have hsame : (if mark = true then { ev1 with mUidFieldIndex := (ev1.mValues.length - 1 : Nat) } else ev1).mValues = ev1.mValues := by
    split
    · rfl
    · rfl
  refine ⟨?_, ?_, fun u hu => ?_, fun hex => ?_, ?_, fun hold w hw => ?_⟩
  · unfold annotate
    dsimp only
    split
    · exact haddress
    · exact haddress
  · unfold annotate
    dsimp only
    rw [hsame, List.length_modify, Nat.add_zero]
  · rw [List.foldl_cons, List.foldl_nil]
    rw [hvalues] at hlast
    unfold markUid
    cases mark with
    | true =>
      refine ⟨?_, { v with mAnnotations := { v.mAnnotations with uidField := true } }, ?_, hint, rfl⟩
      · simp [annotate, hvalues]
      · simp [annotate, hvalues, hlast]
    | false =>
      rw [if_neg Bool.false_ne_true, if_neg Bool.false_ne_true]
      cases u with
      | none => exact hu
      | some m =>
        obtain ⟨hi, w, hw, hwint, hwmark⟩ := hu
        rw [hvalues] at hw
        by_cases him : ev.mValues.length - 1 = m.1
        · refine ⟨hi, { w with mAnnotations := { w.mAnnotations with uidField := false } }, ?_, hwint, by simp [him]⟩
          simp [annotate, hvalues, him, hw]
        · refine ⟨hi, w, ?_, hwint, by simp [hwmark, Ne.symm him]⟩
          simp [annotate, hvalues, him, hw]
  · unfold ExclusiveAt annotate at *
    dsimp only
    rw [hsame, List.length_modify]
    split
    · exact hex
    · exact hex
  · unfold annotate chainRange
    dsimp only
    split
    · rfl
    · rfl
  · obtain ⟨w', hw', hsameValue⟩ := mValue_annotate hw
    rw [hsameValue]
    exact hold w' (hsame ▸ hw')

theorem consumes_parseTruncateTimestampAnnotation (hvalid : (ev.parseTruncateTimestampAnnotation mem annotationType).mValid = true) :
    annotationType = BOOL_TYPE ∧ Moves ev (ev.parseTruncateTimestampAnnotation mem annotationType) (ev.mBuf + 1) := by
  unfold parseTruncateTimestampAnnotation at hvalid ⊢
  split at hvalid
  · cases hvalid
  rename_i hc
  rw [if_neg hc]
  simp only [Bool.or_eq_true, not_or, decide_eq_true_eq, not_not] at hc
  have hmoves : Moves ev (ev.readNextValue mem 1).1 (ev.mBuf + 1) := (moves_readNextValue mem hvalid).1
  have hset : Moves (ev.readNextValue mem 1).1
      { (ev.readNextValue mem 1).1 with mTruncateTimestamp := decide ((ev.readNextValue mem 1).2 ≠ 0) }
      (ev.readNextValue mem 1).1.mBuf := Consumes.same rfl rfl rfl rfl
  rw [← hmoves.address]
  exact ⟨hc.2, hmoves.before hset⟩

theorem consumes_parseValueAnnotation {set : Bool → Annotations → Annotations} (hset : ∀ b a, (set b a).uidField = a.uidField)
    (hvalid : (ev.parseValueAnnotation mem annotationType set).mValid = true) :
    annotationType = BOOL_TYPE ∧ Moves ev (ev.parseValueAnnotation mem annotationType set) (ev.mBuf + 1) := by
  unfold parseValueAnnotation at hvalid ⊢
  split at hvalid
  · cases hvalid
  rename_i hc
  rw [if_neg hc]
  simp only [Bool.or_eq_true, not_or, decide_eq_true_eq, not_not] at hc
  have hmoves : Moves ev (ev.readNextValue mem 1).1 (ev.mBuf + 1) := (moves_readNextValue mem hvalid).1
  have hannotate := moves_annotate (ev.readNextValue mem 1).1 ((ev.readNextValue mem 1).1.mValues.length - 1)
    (hset (decide ((ev.readNextValue mem 1).2 ≠ 0)))
  rw [hmoves.address] at hannotate
  exact ⟨hc.2, hmoves.before hannotate⟩

theorem consumes_parsePrimaryFieldFirstUidAnnotation {firstUidInChainIndex : Option Nat}
    (hvalid : (ev.parsePrimaryFieldFirstUidAnnotation mem annotationType firstUidInChainIndex).mValid = true) :
    annotationType = BOOL_TYPE ∧ Moves ev (ev.parsePrimaryFieldFirstUidAnnotation mem annotationType firstUidInChainIndex) (ev.mBuf + 1) := by
  unfold parsePrimaryFieldFirstUidAnnotation at hvalid ⊢
  cases firstUidInChainIndex with
  | none => cases hvalid
  | some i =>
    dsimp only at hvalid ⊢
    split at hvalid
    · cases hvalid
    rename_i hc
    split at hvalid
    · cases hvalid
    rename_i hi
    rw [if_neg hc, if_neg hi]
    simp only [Bool.or_eq_true, not_or, decide_eq_true_eq, not_not] at hc
    have hmoves : Moves ev (ev.readNextValue mem 1).1 (ev.mBuf + 1) := (moves_readNextValue mem hvalid).1
    have hannotate := moves_annotate (ev.readNextValue mem 1).1 i
      (f := fun a => { a with primaryField := decide ((ev.readNextValue mem 1).2 ≠ 0) }) fun _ => rfl
    rw [hmoves.address] at hannotate
    exact ⟨hc.2, hmoves.before hannotate⟩

theorem consumes_parseExclusiveStateAnnotation (hvalid : (ev.parseExclusiveStateAnnotation mem annotationType).mValid = true) :
    annotationType = BOOL_TYPE ∧ Moves ev (ev.parseExclusiveStateAnnotation mem annotationType) (ev.mBuf + 1) := by
  unfold parseExclusiveStateAnnotation at hvalid ⊢
  split at hvalid
  · cases hvalid
  rename_i hc
  split at hvalid
  · cases hvalid
  rename_i hlarge
  rw [if_neg hc, if_neg hlarge]
  simp only [Bool.or_eq_true, not_or, List.isEmpty_iff, decide_eq_true_eq, not_not] at hc
  have hmoves : Moves ev (ev.readNextValue mem 1).1 (ev.mBuf + 1) := (moves_readNextValue mem hvalid).1
  have hpos : 0 < (ev.readNextValue mem 1).1.mValues.length := by
    rw [hmoves.length]
    exact List.length_pos_iff.2 hc.1
  dsimp only
  generalize ev.readNextValue mem 1 = r at hmoves hpos ⊢
  refine ⟨hc.2, hmoves.before ?_⟩
  -- the index is that of the last value
  have hset : Moves r.1 { r.1 with mExclusiveStateFieldIndex := (r.1.mValues.length - 1 : Nat) } r.1.mBuf := by
    refine ⟨rfl, rfl, fun u hu => ?_, fun _ => .inr ⟨_, rfl, Nat.sub_one_lt_of_lt hpos⟩, rfl, id⟩
    cases u with
    | none => exact hu
    | some m => exact hu
  rw [← hmoves.address]
  exact hset.before (moves_annotate _ _ fun _ => rfl)

theorem consumes_parseTriggerStateResetAnnotation (hvalid : (ev.parseTriggerStateResetAnnotation mem annotationType).mValid = true) :
    annotationType = INT32_TYPE ∧ Moves ev (ev.parseTriggerStateResetAnnotation mem annotationType) (ev.mBuf + 4) := by
  unfold parseTriggerStateResetAnnotation at hvalid ⊢
  split at hvalid
  · cases hvalid
  rename_i hc
  rw [if_neg hc]
  simp only [Bool.or_eq_true, not_or, decide_eq_true_eq, not_not] at hc
  have hmoves : Moves ev (ev.readNextValue mem 4).1 (ev.mBuf + 4) := (moves_readNextValue mem hvalid).1
  have hset : Moves (ev.readNextValue mem 4).1 { (ev.readNextValue mem 4).1 with mResetState := signed 32 (ev.readNextValue mem 4).2 }
      (ev.readNextValue mem 4).1.mBuf := Consumes.same rfl rfl rfl rfl
  rw [← hmoves.address]
  exact ⟨hc.2, hmoves.before hset⟩

theorem consumes_parseAnnotation {annotationId : Nat} {firstUidInChainIndex : Option Nat} {ev' : LogEvent}
    (h : ev.parseAnnotation mem annotationId annotationType firstUidInChainIndex = some ev') (hvalid : ev'.mValid = true) :
    Consumes ev ev' (ev.mBuf + annotationSize annotationType) 0
      (uidMarks (ev.mValues.length - 1) [⟨annotationId, numberAt mem (annotationSize annotationType) ev.mBuf⟩]) [] := by
  have hbool {ev' : LogEvent} (hid : annotationId ≠ ANNOTATION_ID_IS_UID)
      (h : annotationType = BOOL_TYPE ∧ Moves ev ev' (ev.mBuf + 1)) :
      Consumes ev ev' (ev.mBuf + annotationSize annotationType) 0
        (uidMarks (ev.mValues.length - 1) [⟨annotationId, numberAt mem (annotationSize annotationType) ev.mBuf⟩]) [] := by
    rw [h.1]
    unfold uidMarks
    rw [List.filter_cons_of_neg (by simpa using hid)]
    exact h.2
  unfold parseAnnotation at h
  split at h
  · rename_i hid
    cases h
    obtain ⟨htype, hconsumes⟩ := consumes_parseIsUidAnnotation mem hvalid
    rw [hid, htype]
    rw [htype] at hconsumes
    exact hconsumes
  rename_i hid
  split at h
  · cases h
    exact hbool hid <| consumes_parseTruncateTimestampAnnotation mem hvalid
  split at h
  · cases h
    exact hbool hid <| consumes_parseValueAnnotation mem (fun _ _ => rfl) hvalid
  split at h
  · cases h
    exact hbool hid <| consumes_parsePrimaryFieldFirstUidAnnotation mem hvalid
  split at h
  · cases h
    exact hbool hid <| consumes_parseExclusiveStateAnnotation mem hvalid
  split at h
  · cases h
    obtain ⟨htype, hmoves⟩ := consumes_parseTriggerStateResetAnnotation mem hvalid
    subst htype
    unfold uidMarks
    rw [List.filter_cons_of_neg (by simpa using hid)]
    exact hmoves
  split at h
  · cases h
    exact hbool hid <| consumes_parseValueAnnotation mem (fun _ _ => rfl) hvalid
  · cases h

end

theorem uidMarks_cons (index : Nat) (a : WireAnnotation) (annotations : List WireAnnotation) :
    uidMarks index (a :: annotations) = uidMarks index [a] ++ uidMarks index annotations := by
  unfold uidMarks
  rw [← List.singleton_append, List.filter_append, List.map_append]

theorem consumes_parseAnnotations (firstUidInChainIndex : Option Nat) (numAnnotations : Nat)
    (hvalid : (ev.parseAnnotations mem firstUidInChainIndex numAnnotations).mValid = true) :
    Consumes ev (ev.parseAnnotations mem firstUidInChainIndex numAnnotations) (decodeAnnotations mem numAnnotations ev.mBuf).2 0
      (uidMarks (ev.mValues.length - 1) (decodeAnnotations mem numAnnotations ev.mBuf).1) [] := by
  induction numAnnotations generalizing ev with
  | zero => exact Consumes.same rfl rfl rfl rfl
  | succ k ih =>
    unfold parseAnnotations at hvalid ⊢
    dsimp only at hvalid ⊢
    split at hvalid
    · rename_i ev' h
      have hevent := (steps_parseAnnotations mem firstUidInChainIndex k ev').valid hvalid
      have htypeValid := (steps_parseAnnotation_some mem _ _ _ _ _ h).valid hevent
      obtain ⟨htype, htypeValue⟩ := moves_readNextValue mem htypeValid
      obtain ⟨hid, hidValue⟩ := moves_readNextValue mem ((steps_readNextValue mem 1 _).valid htypeValid)
      have hfirst := consumes_parseAnnotation mem h hevent
      have hrest := ih hvalid
      rw [hfirst.address, hfirst.length, htype.length, hid.length, htype.address, htypeValue, hid.address] at hrest
      rw [htype.address, htype.length, hid.length, htypeValue, hidValue, hid.address] at hfirst
      unfold decodeAnnotations
      dsimp only
      rw [uidMarks_cons]
      have hall := hid.before (htype.before (hfirst.trans hrest))
      simpa only [Nat.add_assoc, Nat.add_zero, Nat.reduceAdd, List.append_nil] using hall
    · cases hvalid

/-! ## Values -/

section

variable {pos : Nat → BitVec 32} {depth : Nat} {last : Nat → Bool} {numAnnotations : Nat} {ev : LogEvent}

theorem consumes_value {ev' : LogEvent} {addr : Nat} (h : Moves ev ev' addr) {value : Value} (hvalue : isWritten value = true)
    (hvalid : ((ev'.addToValues pos depth value last).parseAnnotations mem none numAnnotations).mValid = true) :
    Consumes ev ((ev'.addToValues pos depth value last).parseAnnotations mem none numAnnotations)
      (decodeAnnotations mem numAnnotations addr).2 1 (uidMarks ev.mValues.length (decodeAnnotations mem numAnnotations addr).1) [] := by
  have hadd := consumes_addToValues ev' pos depth last hvalue
  have hannotations := consumes_parseAnnotations mem none numAnnotations hvalid
  rw [hadd.address, hadd.length, h.address, h.length] at hannotations
  exact h.before (hadd.trans hannotations)

theorem consumes_parseInt32 (hvalid : (ev.parseInt32 mem pos depth last numAnnotations).mValid = true) :
    Consumes ev (ev.parseInt32 mem pos depth last numAnnotations) (decodeAnnotations mem numAnnotations (ev.mBuf + 4)).2 1
      (uidMarks ev.mValues.length (decodeAnnotations mem numAnnotations (ev.mBuf + 4)).1) [] :=
  have hadded := (steps_parseAnnotations mem none numAnnotations _).valid hvalid
  consumes_value mem (moves_readNextValue mem hadded).1 rfl hvalid

theorem consumes_parseInt64 (hvalid : (ev.parseInt64 mem pos depth last numAnnotations).mValid = true) :
    Consumes ev (ev.parseInt64 mem pos depth last numAnnotations) (decodeAnnotations mem numAnnotations (ev.mBuf + 8)).2 1
      (uidMarks ev.mValues.length (decodeAnnotations mem numAnnotations (ev.mBuf + 8)).1) [] :=
  have hadded := (steps_parseAnnotations mem none numAnnotations _).valid hvalid
  consumes_value mem (moves_readNextValue mem hadded).1 rfl hvalid

theorem consumes_parseFloat (hvalid : (ev.parseFloat mem pos depth last numAnnotations).mValid = true) :
    Consumes ev (ev.parseFloat mem pos depth last numAnnotations) (decodeAnnotations mem numAnnotations (ev.mBuf + 4)).2 1
      (uidMarks ev.mValues.length (decodeAnnotations mem numAnnotations (ev.mBuf + 4)).1) [] :=
  have hadded := (steps_parseAnnotations mem none numAnnotations _).valid hvalid
  consumes_value mem (moves_readNextValue mem hadded).1 rfl hvalid

theorem consumes_parseBool (hvalid : (ev.parseBool mem pos depth last numAnnotations).mValid = true) :
    Consumes ev (ev.parseBool mem pos depth last numAnnotations) (decodeAnnotations mem numAnnotations (ev.mBuf + 1)).2 1
      (uidMarks ev.mValues.length (decodeAnnotations mem numAnnotations (ev.mBuf + 1)).1) [] :=
  have hadded := (steps_parseAnnotations mem none numAnnotations _).valid hvalid
  consumes_value mem (moves_readNextValue mem hadded).1 rfl hvalid

theorem consumes_parseBytes {ofBytes : List UInt8 → Value} (hofBytes : ∀ bytes, isWritten (ofBytes bytes) = true)
    (hvalid : (ev.parseBytes mem pos depth last numAnnotations ofBytes).mValid = true) :
    Consumes ev (ev.parseBytes mem pos depth last numAnnotations ofBytes) (decodeAnnotations mem numAnnotations (skipBytes mem ev.mBuf)).2 1
      (uidMarks ev.mValues.length (decodeAnnotations mem numAnnotations (skipBytes mem ev.mBuf)).1) [] := by
  unfold parseBytes at hvalid ⊢
  dsimp only at hvalid ⊢
  split at hvalid
  · cases hvalid
  rename_i hlen
  rw [if_neg hlen]
  have hadded := (steps_parseAnnotations mem none numAnnotations _).valid hvalid
  obtain ⟨hread, hcount⟩ : Moves ev (ev.readNextValue mem 4).1 (ev.mBuf + 4) ∧ (ev.readNextValue mem 4).2 = numberAt mem 4 ev.mBuf :=
    moves_readNextValue mem hadded
  have hbytes : Moves (ev.readNextValue mem 4).1 ((ev.readNextValue mem 4).1.advance (ev.readNextValue mem 4).2) _ :=
    Consumes.same rfl rfl rfl rfl
  have hmoves := hread.before hbytes
  have haddress : ((ev.readNextValue mem 4).1.advance (ev.readNextValue mem 4).2).mBuf = skipBytes mem ev.mBuf := by
    unfold advance skipBytes
    dsimp only
    rw [hread.address, hcount]
  rw [haddress] at hmoves
  exact consumes_value mem hmoves (hofBytes _) hvalid

end

/-! ## Nodes -/

theorem consumes_parsePairValue {field node : Nat} {last : Nat → Bool} (hvalid : (ev.parsePairValue mem field node last).mValid = true) :
    Consumes ev (ev.parsePairValue mem field node last) (skipPairValue mem (getTypeId (numberAt mem 1 ev.mBuf)) (ev.mBuf + 1)) 1 [] [] := by
  unfold parsePairValue at hvalid ⊢
  dsimp only at hvalid ⊢
  have hsteps := steps_parsePairValue mem ev field node last
  unfold skipPairValue
  split at hvalid
  · rename_i h1
    obtain ⟨hread, htype⟩ := moves_readNextValue mem ((steps_parseInt32 mem _ _ _ _ _).valid hvalid)
    rw [if_pos h1, if_pos (htype ▸ h1), ← hread.address]
    exact hread.before (consumes_parseInt32 mem hvalid)
  rename_i h1
  split at hvalid
  · rename_i h2
    obtain ⟨hread, htype⟩ := moves_readNextValue mem ((steps_parseInt64 mem _ _ _ _ _).valid hvalid)
    rw [if_neg h1, if_pos h2, if_neg (htype ▸ h1), if_pos (htype ▸ h2), ← hread.address]
    exact hread.before (consumes_parseInt64 mem hvalid)
  rename_i h2
  split at hvalid
  · rename_i h3
    obtain ⟨hread, htype⟩ := moves_readNextValue mem ((steps_parseBytes mem _ _ _ _ _ _).valid hvalid)
    rw [if_neg h1, if_neg h2, if_pos h3, if_neg (htype ▸ h1), if_neg (htype ▸ h2), if_pos (htype ▸ h3), ← hread.address]
    exact hread.before (consumes_parseBytes mem (fun _ => rfl) hvalid)
  rename_i h3
  split at hvalid
  · rename_i h4
    obtain ⟨hread, htype⟩ := moves_readNextValue mem ((steps_parseFloat mem _ _ _ _ _).valid hvalid)
    rw [if_neg h1, if_neg h2, if_neg h3, if_pos h4, if_neg (htype ▸ h1), if_neg (htype ▸ h2), if_neg (htype ▸ h3), ← hread.address]
    exact hread.before (consumes_parseFloat mem hvalid)
  · cases hvalid

theorem consumes_parsePairs (field numPairs k : Nat) (hvalid : (ev.parsePairs mem field numPairs k).mValid = true) :
    Consumes ev (ev.parsePairs mem field numPairs k) (skipPairs mem k ev.mBuf) (2 * k) [] [] := by
  induction k generalizing ev with
  | zero => exact Consumes.same rfl rfl rfl rfl
  | succ k ih =>
    unfold parsePairs at hvalid ⊢
    dsimp only at hvalid ⊢
    have hpair := (steps_parsePairs mem field numPairs k _).valid hvalid
    have hkey := consumes_parseInt32 mem ((steps_parsePairValue mem _ _ _ _).valid hpair)
    have hvalue := consumes_parsePairValue mem hpair
    have hrest := ih hvalid
    rw [hvalue.address] at hrest
    rw [hkey.address] at hvalue hrest
    have hall := hkey.trans (hvalue.trans hrest)
    rwa [show 1 + (1 + 2 * k) = 2 * (k + 1) by omega] at hall

theorem consumes_parseNodes (field numNodes k : Nat) (hvalid : (ev.parseNodes mem field numNodes k).mValid = true) :
    Consumes ev (ev.parseNodes mem field numNodes k) (skipNodes mem k ev.mBuf) (2 * k) [] [] := by
  induction k generalizing ev with
  | zero => exact Consumes.same rfl rfl rfl rfl
  | succ k ih =>
    unfold parseNodes parseString at hvalid ⊢
    dsimp only at hvalid ⊢
    have htag := (steps_parseNodes mem field numNodes k _).valid hvalid
    have huid := consumes_parseInt32 mem ((steps_parseBytes mem _ _ _ _ _ _).valid htag)
    have hstring := consumes_parseBytes mem (fun _ => rfl) htag
    have hrest := ih hvalid
    rw [hstring.address] at hrest
    rw [huid.address] at hstring hrest
    have hall := huid.trans (hstring.trans hrest)
    rwa [show 1 + (1 + 2 * k) = 2 * (k + 1) by omega] at hall

theorem consumes_parseKeyValuePairs {field numAnnotations : Nat} (hvalid : (ev.parseKeyValuePairs mem field numAnnotations).mValid = true) :
    Consumes ev (ev.parseKeyValuePairs mem field numAnnotations)
      (decodeAnnotations mem numAnnotations (skipPairs mem (numberAt mem 1 ev.mBuf) (ev.mBuf + 1))).2 (2 * numberAt mem 1 ev.mBuf)
      (uidMarks (ev.mValues.length + 2 * numberAt mem 1 ev.mBuf - 1)
        (decodeAnnotations mem numAnnotations (skipPairs mem (numberAt mem 1 ev.mBuf) (ev.mBuf + 1))).1) [] := by
  unfold parseKeyValuePairs at hvalid ⊢
  dsimp only at hvalid ⊢
  have hparsed := (steps_parseAnnotations mem none numAnnotations _).valid hvalid
  obtain ⟨hread, hcount⟩ := moves_readNextValue mem ((steps_parsePairs mem field _ _ _).valid hparsed)
  rw [hcount] at hparsed hvalid ⊢
  have hpairs := consumes_parsePairs mem field _ _ hparsed
  have hannotations := consumes_parseAnnotations mem none numAnnotations hvalid
  rw [hpairs.address, hpairs.length, hread.length, hread.address] at hannotations
  exact hread.before (hpairs.trans hannotations)

theorem consumes_parseAttributionChain {field numAnnotations : Nat}
    (hvalid : (ev.parseAttributionChain mem field numAnnotations).mValid = true) :
    numberAt mem 1 ev.mBuf ≤ 64 ∧ Consumes ev (ev.parseAttributionChain mem field numAnnotations)
      (decodeAnnotations mem numAnnotations (skipNodes mem (numberAt mem 1 ev.mBuf) (ev.mBuf + 1))).2 (2 * numberAt mem 1 ev.mBuf)
      (uidMarks (ev.mValues.length + 2 * numberAt mem 1 ev.mBuf - 1)
        (decodeAnnotations mem numAnnotations (skipNodes mem (numberAt mem 1 ev.mBuf) (ev.mBuf + 1))).1)
      (Shape.ranges ev.mValues.length (.chain (numberAt mem 1 ev.mBuf))) := by
  unfold parseAttributionChain at hvalid ⊢
  dsimp only at hvalid ⊢
  -- the values are not too many, and the range is recorded if there are new ones
  cases hlarge : indexTooLarge
      ((ev.readNextValue mem 1).1.parseNodes mem field (ev.readNextValue mem 1).2 (ev.readNextValue mem 1).2).mValues.length with
  | true =>
    rw [hlarge, if_pos rfl] at hvalid
    cases hvalid
  | false =>
    rw [hlarge, if_neg Bool.false_ne_true] at hvalid
    rw [if_neg Bool.false_ne_true]
    have hnodesValid : ((ev.readNextValue mem 1).1.parseNodes mem field (ev.readNextValue mem 1).2 (ev.readNextValue mem 1).2).mValid = true := by
      revert hvalid
      generalize (ev.readNextValue mem 1).1.parseNodes mem field (ev.readNextValue mem 1).2 (ev.readNextValue mem 1).2 = ev1
      intro hvalid
      by_contra hfalse
      have hboth : (if ev1.mValues.length - 1 > ev.mValues.length then
          { ev1 with mAttributionChainStartIndex := ev.mValues.length, mAttributionChainEndIndex := (ev1.mValues.length - 1 : Nat) }
          else ev1).mValid ≠ true := by
        split
        · exact hfalse
        · exact hfalse
      rw [if_neg hboth] at hvalid
      exact hboth hvalid
    obtain ⟨hread, hcount⟩ := moves_readNextValue mem ((steps_parseNodes mem field _ _ _).valid hnodesValid)
    rw [hcount] at hvalid hlarge hnodesValid ⊢
    have hnodes := hread.before (consumes_parseNodes mem field _ _ hnodesValid)
    rw [hread.address] at hnodes
    generalize (ev.readNextValue mem 1).1.parseNodes mem field (numberAt mem 1 ev.mBuf) (numberAt mem 1 ev.mBuf) = ev1
      at hvalid hlarge hnodesValid hnodes ⊢
    unfold indexTooLarge at hlarge
    simp only [Bool.or_eq_false_iff, decide_eq_false_iff_not] at hlarge
    have hmax : INT8_MAX = 127 := rfl
    have hlength := hnodes.length
    refine ⟨by omega, ?_⟩
    have hrange : Consumes ev (if ev1.mValues.length - 1 > ev.mValues.length then
          { ev1 with mAttributionChainStartIndex := ev.mValues.length, mAttributionChainEndIndex := (ev1.mValues.length - 1 : Nat) } else ev1)
        (skipNodes mem (numberAt mem 1 ev.mBuf) (ev.mBuf + 1)) (2 * numberAt mem 1 ev.mBuf) []
        (Shape.ranges ev.mValues.length (.chain (numberAt mem 1 ev.mBuf))) := by
      cases hnumber : numberAt mem 1 ev.mBuf with
      | zero =>
        rw [hnumber] at hnodes hlength
        rw [if_neg (by omega)]
        exact hnodes
      | succ n =>
        rw [hnumber] at hnodes hlength
        rw [if_pos (by omega)]
        refine ⟨hnodes.address, hnodes.length, fun u hu => ?_, hnodes.exclusive, ?_, hnodes.written⟩
        · have hsame := hnodes.uid u hu
          rw [List.foldl_nil] at hsame ⊢
          cases u with
          | none => exact hsame
          | some m => exact hsame
        · unfold chainRange Shape.ranges
          rw [List.foldl_cons, List.foldl_nil, hlength]
          congr 1
    have hvalid' : (if ev1.mValues.length - 1 > ev.mValues.length then
        { ev1 with mAttributionChainStartIndex := ev.mValues.length, mAttributionChainEndIndex := (ev1.mValues.length - 1 : Nat) }
        else ev1).mValid = true := by
      split
      · exact hnodesValid
      · exact hnodesValid
    rw [if_pos hvalid'] at hvalid ⊢
    have hannotations := consumes_parseAnnotations mem (some ev.mValues.length) numAnnotations hvalid
    rw [hrange.address, hrange.length] at hannotations
    have hall := hrange.trans hannotations
    rwa [List.append_nil] at hall

/-! ## Elements -/

theorem consumes_parseTyped {typeId numAnnotations field : Nat} (hvalid : (ev.parseTyped mem typeId numAnnotations field).mValid = true) :
    (∀ n, (decodeShape mem typeId ev.mBuf).1 = .chain n → n ≤ 64) ∧
      Consumes ev (ev.parseTyped mem typeId numAnnotations field) (decodeAnnotations mem numAnnotations (decodeShape mem typeId ev.mBuf).2).2
        (decodeShape mem typeId ev.mBuf).1.size
        (uidMarks (ev.mValues.length + (decodeShape mem typeId ev.mBuf).1.size - 1)
          (decodeAnnotations mem numAnnotations (decodeShape mem typeId ev.mBuf).2).1)
        ((decodeShape mem typeId ev.mBuf).1.ranges ev.mValues.length) := by
  unfold parseTyped at hvalid ⊢
  unfold decodeShape
  dsimp only at hvalid ⊢
  split at hvalid
  · rename_i h1
    simp only [if_pos h1]
    exact ⟨nofun, consumes_parseBool mem hvalid⟩
  rename_i h1
  simp only [if_neg h1]
  split at hvalid
  · rename_i h2
    simp only [if_pos h2]
    exact ⟨nofun, consumes_parseInt32 mem hvalid⟩
  rename_i h2
  simp only [if_neg h2]
  split at hvalid
  · rename_i h3
    simp only [if_pos h3]
    exact ⟨nofun, consumes_parseInt64 mem hvalid⟩
  rename_i h3
  simp only [if_neg h3]
  split at hvalid
  · rename_i h4
    simp only [if_pos h4]
    exact ⟨nofun, consumes_parseFloat mem hvalid⟩
  rename_i h4
  simp only [if_neg h4]
  split at hvalid
  · rename_i h5
    simp only [if_pos h5]
    exact ⟨nofun, consumes_parseBytes mem (fun _ => rfl) hvalid⟩
  rename_i h5
  simp only [if_neg h5]
  split at hvalid
  · rename_i h6
    simp only [if_pos h6]
    exact ⟨nofun, consumes_parseBytes mem (fun _ => rfl) hvalid⟩
  rename_i h6
  simp only [if_neg h6]
  split at hvalid
  · rename_i h7
    simp only [if_pos h7]
    exact ⟨nofun, consumes_parseKeyValuePairs mem hvalid⟩
  rename_i h7
  simp only [if_neg h7]
  split at hvalid
  · rename_i h8
    obtain ⟨hcount, hchain⟩ := consumes_parseAttributionChain mem hvalid
    simp only [if_pos h8]
    refine ⟨fun n h => ?_, hchain⟩
    cases h
    exact hcount
  split at hvalid
  · cases hvalid
  · cases hvalid

theorem steps_parseTyped (typeId numAnnotations field : Nat) (ev : LogEvent) : Steps ev (ev.parseTyped mem typeId numAnnotations field) := by
  unfold parseTyped
  dsimp only
  split
  · exact steps_parseBool mem _ _ _ _ _
  split
  · exact steps_parseInt32 mem _ _ _ _ _
  split
  · exact steps_parseInt64 mem _ _ _ _ _
  split
  · exact steps_parseFloat mem _ _ _ _ _
  split
  · exact steps_parseBytes mem _ _ _ _ _ _
  split
  · exact steps_parseBytes mem _ _ _ _ _ _
  split
  · exact steps_parseKeyValuePairs mem _ _ _
  split
  · exact steps_parseAttributionChain mem _ _ _
  split
  · exact .trans (steps_readNextValue mem 4 _) (steps_invalid _)
  · exact steps_invalid _

theorem consumes_parseElement {field : Nat} (hvalid : (ev.parseElement mem field).mValid = true) :
    (∀ n, (decodeElement mem ev.mBuf).1.shape = .chain n → n ≤ 64) ∧
      Consumes ev (ev.parseElement mem field) (decodeElement mem ev.mBuf).2 (decodeElement mem ev.mBuf).1.shape.size
        (uidMarks (ev.mValues.length + (decodeElement mem ev.mBuf).1.shape.size - 1) (decodeElement mem ev.mBuf).1.annotations)
        ((decodeElement mem ev.mBuf).1.shape.ranges ev.mValues.length) := by
  unfold parseElement at hvalid ⊢
  dsimp only at hvalid ⊢
  obtain ⟨hread, htypeInfo⟩ := moves_readNextValue mem ((steps_parseTyped mem _ _ field _).valid hvalid)
  obtain ⟨hcount, hconsumes⟩ := consumes_parseTyped mem hvalid
  rw [hread.length, hread.address, htypeInfo] at hconsumes
  rw [hread.address, htypeInfo] at hcount
  rw [htypeInfo]
  exact ⟨hcount, hread.before hconsumes⟩

theorem consumes_parseElements (numElements k : Nat) (hvalid : (ev.parseElements mem numElements k).mValid = true) :
    (∀ e ∈ decodeElements mem k ev.mBuf, ∀ n, e.shape = .chain n → n ≤ 64) ∧
      ∃ addr, Consumes ev (ev.parseElements mem numElements k) addr ((decodeElements mem k ev.mBuf).map fun e => e.shape.size).sum
        (uidMarksFrom ev.mValues.length (decodeElements mem k ev.mBuf)) (chainRanges ev.mValues.length (decodeElements mem k ev.mBuf)) := by
  induction k generalizing ev with
  | zero => exact ⟨fun e he => (List.not_mem_nil he).elim, ev.mBuf, Consumes.same rfl rfl rfl rfl⟩
  | succ k ih =>
    unfold parseElements at hvalid ⊢
    split at hvalid
    · rename_i hev
      rw [if_pos hev]
      obtain ⟨hcount, helement⟩ := consumes_parseElement mem ((steps_parseElements mem numElements k _).valid hvalid)
      obtain ⟨hcounts, addr, hrest⟩ := ih hvalid
      rw [helement.length, helement.address] at hrest
      rw [helement.address] at hcounts
      refine ⟨fun e he => ?_, addr, ?_⟩
      · rcases List.mem_cons.1 he with rfl | he
        · exact hcount
        · exact hcounts e he
      · unfold decodeElements uidMarksFrom chainRanges
        rw [List.map_cons, List.sum_cons]
        exact helement.trans hrest
    · rename_i hev
      exact absurd hvalid hev

/-! ## The buffer -/

theorem moves_check {c : Bool} (hvalid : (ev.check c).mValid = true) : Moves ev (ev.check c) ev.mBuf := by
  unfold check at hvalid ⊢
  split at hvalid
  · rename_i hc
    rw [if_pos hc]
    exact Consumes.same rfl rfl rfl rfl
  · cases hvalid

theorem moves_readChecked {c : Nat → Bool} (hvalid : (ev.readChecked mem c).1.mValid = true) :
    Moves ev (ev.readChecked mem c).1 (ev.mBuf + 1) ∧ (ev.readChecked mem c).2 = numberAt mem 1 ev.mBuf := by
  unfold readChecked at hvalid ⊢
  dsimp only at hvalid ⊢
  obtain ⟨hread, hvalue⟩ := moves_readNextValue mem ((steps_check _ _).valid hvalid)
  have hcheck := moves_check hvalid
  rw [hread.address] at hcheck
  exact ⟨hread.before hcheck, hvalue⟩

theorem moves_readTimestamp (hvalid : (ev.readTimestamp mem).mValid = true) :
    Moves ev (ev.readTimestamp mem) (ev.mBuf + 8) := by
  have hread : Moves ev (ev.readNextValue mem 8).1 (ev.mBuf + 8) := (moves_readNextValue mem hvalid).1
  have hset : Moves (ev.readNextValue mem 8).1 (ev.readTimestamp mem) (ev.readTimestamp mem).mBuf := Consumes.same rfl rfl rfl rfl
  have haddress : (ev.readTimestamp mem).mBuf = ev.mBuf + 8 := hread.address
  rw [haddress] at hset
  exact hread.before hset

theorem moves_readTagId (hvalid : (ev.readTagId mem).mValid = true) : Moves ev (ev.readTagId mem) (ev.mBuf + 4) := by
  have hread : Moves ev (ev.readNextValue mem 4).1 (ev.mBuf + 4) := (moves_readNextValue mem hvalid).1
  have hset : Moves (ev.readNextValue mem 4).1 (ev.readTagId mem) (ev.readTagId mem).mBuf := Consumes.same rfl rfl rfl rfl
  have haddress : (ev.readTagId mem).mBuf = ev.mBuf + 4 := hread.address
  rw [haddress] at hset
  exact hread.before hset

theorem consumes_parseHeader (hvalid : (ev.parseHeader mem).1.mValid = true) :
    (ev.parseHeader mem).2 = elementCount mem ev.mBuf ∧ ∃ uids, Consumes ev (ev.parseHeader mem).1 (headerEnd mem ev.mBuf) 0 uids [] := by
  unfold parseHeader at hvalid ⊢
  dsimp only at hvalid ⊢
  have v6 := (steps_parseAnnotations mem none _ _).valid hvalid
  have v5 := (steps_readTagId mem _).valid v6
  have v4 := (steps_readChecked mem _ _).valid v5
  have v3 := (steps_readTimestamp mem _).valid v4
  have v2 := (steps_readChecked mem _ _).valid v3
  have v1 := (steps_readChecked mem _ _).valid v2
  obtain ⟨h1, -⟩ := moves_readChecked mem v1
  obtain ⟨h2, hnumElements⟩ := moves_readChecked mem v2
  obtain ⟨h3, -⟩ := moves_readChecked mem v3
  have h4 := moves_readTimestamp mem v4
  obtain ⟨h5, htypeInfo⟩ := moves_readChecked mem v5
  have h6 := moves_readTagId mem v6
  have h7 := consumes_parseAnnotations mem none _ hvalid
  rw [h4.address, h3.address, h2.address, h1.address] at htypeInfo
  rw [h1.address] at hnumElements
  rw [h6.address, h5.address, h4.address, h3.address, h2.address, h1.address, htypeInfo] at h7
  have hall := h1.before (h2.before (h3.before (h4.before (h5.before (h6.before h7)))))
  rw [htypeInfo]
  exact ⟨by rw [hnumElements]; rfl, _, hall⟩

end LogEvent

end Statsd.Logd
