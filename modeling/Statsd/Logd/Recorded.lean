/-
The places the parser records. Values are only added, and annotations never change them, so the index of the uid
field, once set, stays that of an int among the values, and the range of the attribution chain stays inside them.
Only ints are annotated as uids.
-/
import Statsd.Logd.LogEvent

namespace Statsd.Logd.LogEvent

/-- The recorded places are places of values; the uid field is an int. -/
structure Recorded (ev : LogEvent) : Prop where
  uid : ev.mUidFieldIndex = -1 ∨
    ∃ (i : Nat) (v : FieldValue), ev.mUidFieldIndex = i ∧ ev.mValues[i]? = some v ∧ isInt v.mValue = true
  chain : (ev.mAttributionChainStartIndex = -1 ∧ ev.mAttributionChainEndIndex = -1) ∨
    ∃ first last : Nat, ev.mAttributionChainStartIndex = first ∧ ev.mAttributionChainEndIndex = last ∧
      first < last ∧ last < ev.mValues.length
  annotated : ∀ (i : Nat) (v : FieldValue), ev.mValues[i]? = some v → v.mAnnotations.uidField = true → isInt v.mValue = true

/-- A step that records nothing and keeps every value, if with other annotations. -/
structure KeepsValues (ev ev' : LogEvent) : Prop where
  uid : ev'.mUidFieldIndex = ev.mUidFieldIndex
  first : ev'.mAttributionChainStartIndex = ev.mAttributionChainStartIndex
  last : ev'.mAttributionChainEndIndex = ev.mAttributionChainEndIndex
  length : ev.mValues.length ≤ ev'.mValues.length
  value : ∀ (i : Nat) (v : FieldValue), ev.mValues[i]? = some v → ∃ v' : FieldValue, ev'.mValues[i]? = some v' ∧ v'.mValue = v.mValue
  annotated : ∀ (i : Nat) (v' : FieldValue), ev'.mValues[i]? = some v' → v'.mAnnotations.uidField = true →
    ∃ v : FieldValue, ev.mValues[i]? = some v ∧ v.mAnnotations.uidField = true ∧ v'.mValue = v.mValue

theorem KeepsValues.recorded {ev ev' : LogEvent} (h : KeepsValues ev ev') (hr : Recorded ev) : Recorded ev' := by
  refine ⟨?_, ?_, ?_⟩
  · rw [h.uid]
    refine hr.uid.imp_right ?_
    rintro ⟨i, v, hi, hv, hint⟩
    obtain ⟨v', hv', hsame⟩ := h.value i v hv
    exact ⟨i, v', hi, hv', by rw [hsame]; exact hint⟩
  · rw [h.first, h.last]
    refine hr.chain.imp_right ?_
    rintro ⟨f, l, hf, hl, hlt, hlen⟩
    exact ⟨f, l, hf, hl, hlt, lt_of_lt_of_le hlen h.length⟩
  · intro i v' hv' huid
    obtain ⟨v, hv, huid, hsame⟩ := h.annotated i v' hv' huid
    rw [hsame]
    exact hr.annotated i v hv huid

theorem KeepsValues.of_eq {ev ev' : LogEvent} (hvalues : ev'.mValues = ev.mValues)
    (huid : ev'.mUidFieldIndex = ev.mUidFieldIndex)
    (hfirst : ev'.mAttributionChainStartIndex = ev.mAttributionChainStartIndex)
    (hlast : ev'.mAttributionChainEndIndex = ev.mAttributionChainEndIndex) : KeepsValues ev ev' :=
  ⟨huid, hfirst, hlast, by rw [hvalues], fun i v hv => ⟨v, by rw [hvalues]; exact hv, rfl⟩,
    fun i v hv hu => ⟨v, by rw [← hvalues]; exact hv, hu, rfl⟩⟩

theorem KeepsValues.refl (ev : LogEvent) : KeepsValues ev ev := .of_eq rfl rfl rfl rfl

theorem KeepsValues.trans {ev ev' ev'' : LogEvent} (h : KeepsValues ev ev') (h' : KeepsValues ev' ev'') : KeepsValues ev ev'' where
  uid := h'.uid.trans h.uid
  first := h'.first.trans h.first
  last := h'.last.trans h.last
  length := h.length.trans h'.length
  value i v hv := by
    obtain ⟨v', hv', hsame⟩ := h.value i v hv
    obtain ⟨v'', hv'', hsame'⟩ := h'.value i v' hv'
    exact ⟨v'', hv'', hsame'.trans hsame⟩
  annotated i v'' hv'' hu'' := by
    obtain ⟨v', hv', hu', hsame'⟩ := h'.annotated i v'' hv'' hu''
    obtain ⟨v, hv, hu, hsame⟩ := h.annotated i v' hv' hu'
    exact ⟨v, hv, hu, hsame'.trans hsame⟩

theorem keepsValues_invalid (ev : LogEvent) : KeepsValues ev ev.invalid := .of_eq rfl rfl rfl rfl

theorem keepsValues_check (ev : LogEvent) (c : Bool) : KeepsValues ev (ev.check c) := by
  unfold check
  split
  · exact .refl ev
  · exact keepsValues_invalid ev

theorem keepsValues_annotate (ev : LogEvent) (i : Nat) {f : Annotations → Annotations}
    (hf : ∀ a, (f a).uidField = a.uidField) : KeepsValues ev (ev.annotate i f) where
  uid := rfl
  first := rfl
  last := rfl
  length := by simp [annotate]
  value j v hv := by
    unfold annotate
    dsimp only
    rw [List.getElem?_modify, hv]
    by_cases hij : i = j
    · exact ⟨{ v with mAnnotations := f v.mAnnotations }, by simp [hij], rfl⟩
    · exact ⟨v, by simp [hij], rfl⟩
  annotated j v' hv' hu := by
    unfold annotate at hv'
    dsimp only at hv'
    rw [List.getElem?_modify] at hv'
    obtain ⟨v, hv, rfl⟩ := Option.map_eq_some_iff.1 hv'
    by_cases hij : i = j
    · rw [if_pos hij] at hu
      exact ⟨v, hv, (hf v.mAnnotations).symm.trans hu, by rw [if_pos hij]⟩
    · rw [if_neg hij] at hu
      exact ⟨v, hv, hu, by rw [if_neg hij]⟩

theorem keepsValues_addToValues (ev : LogEvent) (pos : Nat → BitVec 32) (depth : Nat) (value : Value) (last : Nat → Bool) :
    KeepsValues ev (ev.addToValues pos depth value last) where
  uid := rfl
  first := rfl
  last := rfl
  length := by simp [addToValues]
  value i v hv := by
    refine ⟨v, ?_, rfl⟩
    unfold addToValues
    dsimp only
    rw [List.getElem?_append_left (List.getElem?_eq_some_iff.1 hv).1]
    exact hv
  annotated i v hv hu := by
    unfold addToValues at hv
    dsimp only at hv
    by_cases hi : i < ev.mValues.length
    · rw [List.getElem?_append_left hi] at hv
      exact ⟨v, hv, hu, rfl⟩
    · -- a new value has no annotation
      rw [List.getElem?_append_right (by omega)] at hv
      cases hn : i - ev.mValues.length with
      | zero =>
        rw [hn] at hv
        cases hv
        cases hu
      | succ n =>
        rw [hn] at hv
        cases hv

theorem keepsValues_advance (ev : LogEvent) (size : Nat) : KeepsValues ev (ev.advance size) := .of_eq rfl rfl rfl rfl

variable (mem : Memory)

theorem keepsValues_readNextValue (size : Nat) (ev : LogEvent) : KeepsValues ev (ev.readNextValue mem size).1 := by
  unfold readNextValue
  split
  · exact keepsValues_invalid ev
  · exact .of_eq rfl rfl rfl rfl

theorem readNextValue_mValues (size : Nat) (ev : LogEvent) : (ev.readNextValue mem size).1.mValues = ev.mValues := by
  unfold readNextValue
  split <;> rfl

/-! ## Annotations -/

variable {ev : LogEvent}

theorem recorded_annotate_uid (h : Recorded ev) {i : Nat} {v : FieldValue} (hv : ev.mValues[i]? = some v)
    (hint : isInt v.mValue = true) (isUid : Bool) : Recorded (ev.annotate i fun a => { a with uidField := isUid }) := by
  have hget : ∀ j, (ev.annotate i fun a => { a with uidField := isUid }).mValues[j]? = ev.mValues[j]?.map fun v =>
      if i = j then { v with mAnnotations := { v.mAnnotations with uidField := isUid } } else v := by
    intro j
    unfold annotate
    dsimp only
    rw [List.getElem?_modify]
    split
    · rfl
    · simp
  refine ⟨h.uid.imp_right ?_, h.chain.imp_right ?_, fun j w hw hu => ?_⟩
  · rintro ⟨j, w, hj, hw, hwint⟩
    refine ⟨j, _, hj, by rw [hget, hw]; rfl, ?_⟩
    split
    · exact hwint
    · exact hwint
  · rintro ⟨f, l, hf, hl, hlt, hlen⟩
    exact ⟨f, l, hf, hl, hlt, by simpa [annotate] using hlen⟩
  · rw [hget] at hw
    obtain ⟨w', hw', rfl⟩ := Option.map_eq_some_iff.1 hw
    by_cases hij : i = j
    · subst hij
      rw [hv] at hw'
      cases hw'
      rw [if_pos rfl]
      exact hint
    · rw [if_neg hij] at hu ⊢
      exact h.annotated j w' hw' hu

theorem recorded_parseIsUidAnnotation (h : Recorded ev) (annotationType : Nat) :
    Recorded (ev.parseIsUidAnnotation mem annotationType) := by
  unfold parseIsUidAnnotation
  split
  · exact (keepsValues_invalid ev).recorded h
  · rename_i hc
    simp only [Bool.or_eq_true, not_or, Bool.not_eq_true', Bool.not_eq_false] at hc
    obtain ⟨⟨-, hint⟩, -⟩ := hc
    have hread := keepsValues_readNextValue mem 1 ev
    have hvalues := readNextValue_mValues mem 1 ev
    generalize (ev.readNextValue mem 1) = r at hread hvalues
    -- the last value is an int
    obtain ⟨v, hlast, hint⟩ : ∃ v, r.1.mValues[r.1.mValues.length - 1]? = some v ∧ isInt v.mValue = true := by
      unfold checkPreviousValueType at hint
      cases hlast : ev.mValues.getLast? with
      | none => rw [hlast] at hint; cases hint
      | some v =>
        rw [hlast] at hint
        exact ⟨v, by rw [hvalues, ← List.getLast?_eq_getElem?]; exact hlast, hint⟩
    have hr := hread.recorded h
    have hset : Recorded (if decide (r.2 ≠ 0) = true then
        { r.1 with mUidFieldIndex := (r.1.mValues.length - 1 : Nat) } else r.1) := by
      split
      · exact ⟨.inr ⟨_, v, rfl, hlast, hint⟩, hr.chain, hr.annotated⟩
      · exact hr
    have hsame : (if decide (r.2 ≠ 0) = true then
        { r.1 with mUidFieldIndex := (r.1.mValues.length - 1 : Nat) } else r.1).mValues = r.1.mValues := by
      split <;> rfl
    dsimp only
    generalize (if decide (r.2 ≠ 0) = true then
      { r.1 with mUidFieldIndex := (r.1.mValues.length - 1 : Nat) } else r.1) = ev1 at hset hsame
    rw [← hsame] at hlast
    exact recorded_annotate_uid hset hlast hint _

theorem keepsValues_parseTruncateTimestampAnnotation (ev : LogEvent) (annotationType : Nat) :
    KeepsValues ev (ev.parseTruncateTimestampAnnotation mem annotationType) := by
  unfold parseTruncateTimestampAnnotation
  split
  · exact keepsValues_invalid ev
  · exact (keepsValues_readNextValue mem 1 ev).trans (.of_eq rfl rfl rfl rfl)

theorem keepsValues_parseValueAnnotation (ev : LogEvent) (annotationType : Nat) {set : Bool → Annotations → Annotations}
    (hset : ∀ b a, (set b a).uidField = a.uidField) :
    KeepsValues ev (ev.parseValueAnnotation mem annotationType set) := by
  unfold parseValueAnnotation
  split
  · exact keepsValues_invalid ev
  · exact (keepsValues_readNextValue mem 1 ev).trans (keepsValues_annotate _ _ (hset _))

theorem keepsValues_parsePrimaryFieldAnnotation (ev : LogEvent) (annotationType : Nat) :
    KeepsValues ev (ev.parsePrimaryFieldAnnotation mem annotationType) :=
  keepsValues_parseValueAnnotation mem ev annotationType fun _ _ => rfl

theorem keepsValues_parseStateNestedAnnotation (ev : LogEvent) (annotationType : Nat) :
    KeepsValues ev (ev.parseStateNestedAnnotation mem annotationType) :=
  keepsValues_parseValueAnnotation mem ev annotationType fun _ _ => rfl

theorem keepsValues_parsePrimaryFieldFirstUidAnnotation (ev : LogEvent) (annotationType : Nat)
    (firstUidInChainIndex : Option Nat) :
    KeepsValues ev (ev.parsePrimaryFieldFirstUidAnnotation mem annotationType firstUidInChainIndex) := by
  unfold parsePrimaryFieldFirstUidAnnotation
  split
  · exact keepsValues_invalid ev
  · split
    · exact keepsValues_invalid ev
    split
    · exact keepsValues_invalid ev
    · exact (keepsValues_readNextValue mem 1 ev).trans (keepsValues_annotate _ _ fun _ => rfl)

theorem keepsValues_parseExclusiveStateAnnotation (ev : LogEvent) (annotationType : Nat) :
    KeepsValues ev (ev.parseExclusiveStateAnnotation mem annotationType) := by
  unfold parseExclusiveStateAnnotation
  split
  · exact keepsValues_invalid ev
  split
  · exact keepsValues_invalid ev
  · have hread := keepsValues_readNextValue mem 1 ev
    generalize ev.readNextValue mem 1 = r at hread
    have hset : KeepsValues r.1 { r.1 with mExclusiveStateFieldIndex := (r.1.mValues.length - 1 : Nat) } :=
      .of_eq rfl rfl rfl rfl
    exact hread.trans (hset.trans (keepsValues_annotate _ _ fun _ => rfl))

theorem keepsValues_parseTriggerStateResetAnnotation (ev : LogEvent) (annotationType : Nat) :
    KeepsValues ev (ev.parseTriggerStateResetAnnotation mem annotationType) := by
  unfold parseTriggerStateResetAnnotation
  split
  · exact keepsValues_invalid ev
  · exact (keepsValues_readNextValue mem 4 ev).trans (.of_eq rfl rfl rfl rfl)

theorem recorded_parseAnnotation (hr : Recorded ev) (annotationId annotationType : Nat)
    (firstUidInChainIndex : Option Nat) :
    ∀ ev', ev.parseAnnotation mem annotationId annotationType firstUidInChainIndex = some ev' → Recorded ev' := by
  intro ev' h
  unfold parseAnnotation at h
  split at h
  · cases h
    exact recorded_parseIsUidAnnotation mem hr _
  split at h
  · cases h
    refine KeepsValues.recorded ?_ hr
    exact keepsValues_parseTruncateTimestampAnnotation mem ev _
  split at h
  · cases h
    refine KeepsValues.recorded ?_ hr
    exact keepsValues_parsePrimaryFieldAnnotation mem ev _
  split at h
  · cases h
    refine KeepsValues.recorded ?_ hr
    exact keepsValues_parsePrimaryFieldFirstUidAnnotation mem ev _ _
  split at h
  · cases h
    refine KeepsValues.recorded ?_ hr
    exact keepsValues_parseExclusiveStateAnnotation mem ev _
  split at h
  · cases h
    refine KeepsValues.recorded ?_ hr
    exact keepsValues_parseTriggerStateResetAnnotation mem ev _
  split at h
  · cases h
    refine KeepsValues.recorded ?_ hr
    exact keepsValues_parseStateNestedAnnotation mem ev _
  · cases h

theorem recorded_parseAnnotations (firstUidInChainIndex : Option Nat) (numAnnotations : Nat) (h : Recorded ev) :
    Recorded (ev.parseAnnotations mem firstUidInChainIndex numAnnotations) := by
  induction numAnnotations generalizing ev with
  | zero => exact h
  | succ k ih =>
    unfold parseAnnotations
    dsimp only
    have hread := (keepsValues_readNextValue mem 1 _).recorded ((keepsValues_readNextValue mem 1 ev).recorded h)
    split
    · rename_i ev' h'
      have hnext := recorded_parseAnnotation mem hread _ _ _ ev' h'
      exact ih hnext
    · exact (keepsValues_invalid _).recorded hread

/-! ## Values -/

section

variable (pos : Nat → BitVec 32) (depth : Nat) (last : Nat → Bool) (numAnnotations : Nat)

variable {ev : LogEvent}

theorem recorded_value (h : Recorded ev) (value : Value) :
    Recorded ((ev.addToValues pos depth value last).parseAnnotations mem none numAnnotations) :=
  recorded_parseAnnotations mem none numAnnotations ((keepsValues_addToValues ev pos depth value last).recorded h)

theorem recorded_parseInt32 (h : Recorded ev) : Recorded (ev.parseInt32 mem pos depth last numAnnotations) :=
  recorded_value mem pos depth last numAnnotations ((keepsValues_readNextValue mem 4 ev).recorded h) _

theorem recorded_parseInt64 (h : Recorded ev) : Recorded (ev.parseInt64 mem pos depth last numAnnotations) :=
  recorded_value mem pos depth last numAnnotations ((keepsValues_readNextValue mem 8 ev).recorded h) _

theorem recorded_parseFloat (h : Recorded ev) : Recorded (ev.parseFloat mem pos depth last numAnnotations) :=
  recorded_value mem pos depth last numAnnotations ((keepsValues_readNextValue mem 4 ev).recorded h) _

theorem recorded_parseBool (h : Recorded ev) : Recorded (ev.parseBool mem pos depth last numAnnotations) :=
  recorded_value mem pos depth last numAnnotations ((keepsValues_readNextValue mem 1 ev).recorded h) _

theorem recorded_parseBytes (h : Recorded ev) (ofBytes : List UInt8 → Value) :
    Recorded (ev.parseBytes mem pos depth last numAnnotations ofBytes) := by
  have hread := (keepsValues_readNextValue mem 4 ev).recorded h
  unfold parseBytes
  dsimp only
  split
  · exact (keepsValues_invalid _).recorded hread
  · exact recorded_value mem pos depth last numAnnotations ((keepsValues_advance _ _).recorded hread) _

end

theorem recorded_parsePairValue (h : Recorded ev) (field node : Nat) (last : Nat → Bool) :
    Recorded (ev.parsePairValue mem field node last) := by
  have hread := (keepsValues_readNextValue mem 1 ev).recorded h
  unfold parsePairValue
  dsimp only
  split
  · exact recorded_parseInt32 mem _ _ _ _ hread
  split
  · exact recorded_parseInt64 mem _ _ _ _ hread
  split
  · exact recorded_parseBytes mem _ _ _ _ hread _
  split
  · exact recorded_parseFloat mem _ _ _ _ hread
  · exact (keepsValues_invalid _).recorded hread

theorem recorded_parsePairs (field numPairs k : Nat) (h : Recorded ev) :
    Recorded (ev.parsePairs mem field numPairs k) := by
  induction k generalizing ev with
  | zero => exact h
  | succ k ih => exact ih (recorded_parsePairValue mem (recorded_parseInt32 mem _ _ _ _ h) field _ _)

theorem recorded_parseKeyValuePairs (h : Recorded ev) (field numAnnotations : Nat) :
    Recorded (ev.parseKeyValuePairs mem field numAnnotations) :=
  recorded_parseAnnotations mem none _
    (recorded_parsePairs mem field _ _ ((keepsValues_readNextValue mem 1 ev).recorded h))

theorem recorded_parseNodes (field numNodes k : Nat) (h : Recorded ev) :
    Recorded (ev.parseNodes mem field numNodes k) := by
  induction k generalizing ev with
  | zero => exact h
  | succ k ih => exact ih (recorded_parseBytes mem _ _ _ _ (recorded_parseInt32 mem _ _ _ _ h) _)

theorem recorded_parseAttributionChain (h : Recorded ev) (field numAnnotations : Nat) :
    Recorded (ev.parseAttributionChain mem field numAnnotations) := by
  unfold parseAttributionChain
  dsimp only
  have hnodes := recorded_parseNodes mem field (ev.readNextValue mem 1).2 (ev.readNextValue mem 1).2
    ((keepsValues_readNextValue mem 1 ev).recorded h)
  generalize (ev.readNextValue mem 1).1.parseNodes mem field (ev.readNextValue mem 1).2 (ev.readNextValue mem 1).2 = ev1 at hnodes
  have hann : ∀ ev2 : LogEvent, Recorded ev2 → Recorded
      (if ev2.mValid = true then ev2.parseAnnotations mem (some ev.mValues.length) numAnnotations else ev2) := by
    intro ev2 h2
    split
    · exact recorded_parseAnnotations mem _ _ h2
    · exact h2
  refine hann _ ?_
  split
  · exact (keepsValues_invalid ev1).recorded hnodes
  split
  · rename_i hlt
    have hlast : ev1.mValues.length - 1 < ev1.mValues.length := by omega
    exact ⟨hnodes.uid, .inr ⟨ev.mValues.length, ev1.mValues.length - 1, rfl, rfl, hlt, hlast⟩, hnodes.annotated⟩
  · exact hnodes

/-! ## The buffer -/

theorem recorded_parseElement (h : Recorded ev) (field : Nat) : Recorded (ev.parseElement mem field) := by
  have hread := (keepsValues_readNextValue mem 1 ev).recorded h
  unfold parseElement parseTyped
  dsimp only
  split
  · exact recorded_parseBool mem _ _ _ _ hread
  split
  · exact recorded_parseInt32 mem _ _ _ _ hread
  split
  · exact recorded_parseInt64 mem _ _ _ _ hread
  split
  · exact recorded_parseFloat mem _ _ _ _ hread
  split
  · exact recorded_parseBytes mem _ _ _ _ hread _
  split
  · exact recorded_parseBytes mem _ _ _ _ hread _
  split
  · exact recorded_parseKeyValuePairs mem hread _ _
  split
  · exact recorded_parseAttributionChain mem hread _ _
  split
  · exact ((keepsValues_readNextValue mem 4 _).trans (keepsValues_invalid _)).recorded hread
  · exact (keepsValues_invalid _).recorded hread

theorem recorded_parseElements (numElements k : Nat) (h : Recorded ev) :
    Recorded (ev.parseElements mem numElements k) := by
  induction k generalizing ev with
  | zero => exact h
  | succ k ih =>
    unfold parseElements
    split
    · exact ih (recorded_parseElement mem h _)
    · exact h

theorem keepsValues_readChecked (c : Nat → Bool) (ev : LogEvent) : KeepsValues ev (ev.readChecked mem c).1 :=
  (keepsValues_readNextValue mem 1 ev).trans (keepsValues_check _ _)

theorem keepsValues_readTimestamp (ev : LogEvent) : KeepsValues ev (ev.readTimestamp mem) :=
  (keepsValues_readNextValue mem 8 ev).trans (.of_eq rfl rfl rfl rfl)

theorem keepsValues_readTagId (ev : LogEvent) : KeepsValues ev (ev.readTagId mem) :=
  (keepsValues_readNextValue mem 4 ev).trans (.of_eq rfl rfl rfl rfl)

theorem recorded_parseHeader (h : Recorded ev) : Recorded (ev.parseHeader mem).1 := by
  unfold parseHeader
  dsimp only
  refine recorded_parseAnnotations mem none _ ?_
  refine KeepsValues.recorded ?_ h
  refine .trans ?_ (keepsValues_readTagId mem _)
  refine .trans ?_ (keepsValues_readChecked mem _ _)
  refine .trans ?_ (keepsValues_readTimestamp mem _)
  refine .trans ?_ (keepsValues_readChecked mem _ _)
  refine .trans ?_ (keepsValues_readChecked mem _ _)
  exact keepsValues_readChecked mem _ ev

theorem recorded_parseBuffer (h : Recorded ev) (buf len : Nat) : Recorded (ev.parseBuffer mem buf len).1 := by
  have hstart : KeepsValues ev { ev with mBuf := buf, mRemainingLen := len % 2 ^ 32 } := .of_eq rfl rfl rfl rfl
  exact (keepsValues_check _ _).recorded
    (recorded_parseElements mem _ _ (recorded_parseHeader mem (hstart.recorded h)))

theorem recorded_new (uid pid : Int) : Recorded { mLogUid := uid, mLogPid := pid } :=
  ⟨.inl rfl, .inl ⟨rfl, rfl⟩, fun i v hv => by simp at hv⟩

end Statsd.Logd.LogEvent
