/-
What the parser reads. Every function of the parser is a sequence of two moves: it leaves the buffer
alone, or it advances over bytes that remain (`Steps`). So whatever the bytes are, the reads follow one
another from the start of the buffer, none goes past the bytes that remained, and an event that became
invalid stays so.
-/
import Statsd.Logd.LogEvent

namespace Statsd.Logd.LogEvent

/-- The moves of the parser. -/
inductive Steps : LogEvent → LogEvent → Prop where
  | same {ev ev' : LogEvent} (hbuf : ev'.mBuf = ev.mBuf) (hlen : ev'.mRemainingLen = ev.mRemainingLen)
      (hreads : ev'.reads = ev.reads) (hvalid : ev'.mValid = true → ev.mValid = true) : Steps ev ev'
  | advance (ev : LogEvent) (size : Nat) (h : size ≤ ev.mRemainingLen) : Steps ev (ev.advance size)
  | trans {ev ev' ev'' : LogEvent} (h : Steps ev ev') (h' : Steps ev' ev'') : Steps ev ev''

theorem Steps.refl (ev : LogEvent) : Steps ev ev := .same rfl rfl rfl id

theorem steps_invalid (ev : LogEvent) : Steps ev ev.invalid := .same rfl rfl rfl fun h => by cases h

theorem steps_check (ev : LogEvent) (c : Bool) : Steps ev (ev.check c) := by
  unfold check
  split
  · exact .refl ev
  · exact steps_invalid ev

theorem steps_annotate (ev : LogEvent) (i : Nat) (f : Annotations → Annotations) : Steps ev (ev.annotate i f) :=
  .same rfl rfl rfl id

theorem steps_addToValues (ev : LogEvent) (pos : Nat → BitVec 32) (depth : Nat) (value : Value) (last : Nat → Bool) :
    Steps ev (ev.addToValues pos depth value last) := .same rfl rfl rfl id

variable (mem : Memory)

theorem steps_readNextValue (size : Nat) (ev : LogEvent) : Steps ev (ev.readNextValue mem size).1 := by
  unfold readNextValue
  split
  · exact steps_invalid ev
  · exact .advance ev size (by omega)

/-! ## Annotations -/

theorem steps_parseIsUidAnnotation (ev : LogEvent) (annotationType : Nat) :
    Steps ev (ev.parseIsUidAnnotation mem annotationType) := by
  unfold parseIsUidAnnotation
  split
  · exact steps_invalid ev
  · refine .trans (steps_readNextValue mem 1 ev) (.trans ?_ (steps_annotate _ _ _))
    split
    · exact .same rfl rfl rfl id
    · exact .refl _

theorem steps_parseTruncateTimestampAnnotation (ev : LogEvent) (annotationType : Nat) :
    Steps ev (ev.parseTruncateTimestampAnnotation mem annotationType) := by
  unfold parseTruncateTimestampAnnotation
  split
  · exact steps_invalid ev
  · exact .trans (steps_readNextValue mem 1 ev) (.same rfl rfl rfl id)

theorem steps_parseValueAnnotation (ev : LogEvent) (annotationType : Nat) (set : Bool → Annotations → Annotations) :
    Steps ev (ev.parseValueAnnotation mem annotationType set) := by
  unfold parseValueAnnotation
  split
  · exact steps_invalid ev
  · exact .trans (steps_readNextValue mem 1 ev) (steps_annotate _ _ _)

theorem steps_parsePrimaryFieldFirstUidAnnotation (ev : LogEvent) (annotationType : Nat) (firstUidInChainIndex : Option Nat) :
    Steps ev (ev.parsePrimaryFieldFirstUidAnnotation mem annotationType firstUidInChainIndex) := by
  unfold parsePrimaryFieldFirstUidAnnotation
  split
  · exact steps_invalid ev
  · split
    · exact steps_invalid ev
    split
    · exact steps_invalid ev
    · exact .trans (steps_readNextValue mem 1 ev) (steps_annotate _ _ _)

theorem steps_parseExclusiveStateAnnotation (ev : LogEvent) (annotationType : Nat) :
    Steps ev (ev.parseExclusiveStateAnnotation mem annotationType) := by
  unfold parseExclusiveStateAnnotation
  split
  · exact steps_invalid ev
  split
  · exact steps_invalid ev
  · exact .trans (steps_readNextValue mem 1 ev) (.same rfl rfl rfl id)

theorem steps_parseTriggerStateResetAnnotation (ev : LogEvent) (annotationType : Nat) :
    Steps ev (ev.parseTriggerStateResetAnnotation mem annotationType) := by
  unfold parseTriggerStateResetAnnotation
  split
  · exact steps_invalid ev
  · exact .trans (steps_readNextValue mem 4 ev) (.same rfl rfl rfl id)

theorem steps_parseAnnotation_some (ev : LogEvent) (annotationId annotationType : Nat) (firstUidInChainIndex : Option Nat) :
    ∀ ev', ev.parseAnnotation mem annotationId annotationType firstUidInChainIndex = some ev' → Steps ev ev' := by
  intro ev' h
  unfold parseAnnotation at h
  split at h
  · cases h; exact steps_parseIsUidAnnotation mem ev _
  split at h
  · cases h; exact steps_parseTruncateTimestampAnnotation mem ev _
  split at h
  · cases h; exact steps_parseValueAnnotation mem ev _ _
  split at h
  · cases h; exact steps_parsePrimaryFieldFirstUidAnnotation mem ev _ _
  split at h
  · cases h; exact steps_parseExclusiveStateAnnotation mem ev _
  split at h
  · cases h; exact steps_parseTriggerStateResetAnnotation mem ev _
  split at h
  · cases h; exact steps_parseValueAnnotation mem ev _ _
  · cases h

theorem steps_parseAnnotations (firstUidInChainIndex : Option Nat) (numAnnotations : Nat) (ev : LogEvent) :
    Steps ev (ev.parseAnnotations mem firstUidInChainIndex numAnnotations) := by
  induction numAnnotations generalizing ev with
  | zero => exact .refl ev
  | succ k ih =>
    unfold parseAnnotations
    dsimp only
    refine .trans (steps_readNextValue mem 1 ev) (.trans (steps_readNextValue mem 1 _) ?_)
    split
    · rename_i ev' h; exact .trans (steps_parseAnnotation_some mem _ _ _ _ ev' h) (ih ev')
    · exact steps_invalid _

/-! ## Values -/

section

variable (pos : Nat → BitVec 32) (depth : Nat) (last : Nat → Bool) (numAnnotations : Nat)

theorem steps_value {ev ev' : LogEvent} (h : Steps ev ev') (value : Value) :
    Steps ev ((ev'.addToValues pos depth value last).parseAnnotations mem none numAnnotations) :=
  .trans h (.trans (steps_addToValues ev' pos depth value last) (steps_parseAnnotations mem none numAnnotations _))

theorem steps_parseInt32 (ev : LogEvent) : Steps ev (ev.parseInt32 mem pos depth last numAnnotations) :=
  steps_value mem pos depth last numAnnotations (steps_readNextValue mem 4 ev) _

theorem steps_parseInt64 (ev : LogEvent) : Steps ev (ev.parseInt64 mem pos depth last numAnnotations) :=
  steps_value mem pos depth last numAnnotations (steps_readNextValue mem 8 ev) _

theorem steps_parseFloat (ev : LogEvent) : Steps ev (ev.parseFloat mem pos depth last numAnnotations) :=
  steps_value mem pos depth last numAnnotations (steps_readNextValue mem 4 ev) _

theorem steps_parseBool (ev : LogEvent) : Steps ev (ev.parseBool mem pos depth last numAnnotations) :=
  steps_value mem pos depth last numAnnotations (steps_readNextValue mem 1 ev) _

theorem steps_parseBytes (ev : LogEvent) (ofBytes : List UInt8 → Value) :
    Steps ev (ev.parseBytes mem pos depth last numAnnotations ofBytes) := by
  unfold parseBytes
  dsimp only
  split
  · exact .trans (steps_readNextValue mem 4 ev) (steps_invalid _)
  · exact steps_value mem pos depth last numAnnotations
      (.trans (steps_readNextValue mem 4 ev) (.advance _ _ (not_lt.1 ‹_›))) _

end

theorem steps_parsePairValue (ev : LogEvent) (field node : Nat) (last : Nat → Bool) :
    Steps ev (ev.parsePairValue mem field node last) := by
  unfold parsePairValue
  dsimp only
  refine .trans (steps_readNextValue mem 1 ev) ?_
  split
  · exact steps_parseInt32 mem _ _ _ _ _
  split
  · exact steps_parseInt64 mem _ _ _ _ _
  split
  · exact steps_parseBytes mem _ _ _ _ _ _
  split
  · exact steps_parseFloat mem _ _ _ _ _
  · exact steps_invalid _

theorem steps_parsePairs (field numPairs k : Nat) (ev : LogEvent) : Steps ev (ev.parsePairs mem field numPairs k) := by
  induction k generalizing ev with
  | zero => exact .refl ev
  | succ k ih =>
    exact .trans (steps_parseInt32 mem _ _ _ _ ev) (.trans (steps_parsePairValue mem _ field _ _) (ih _))

theorem steps_parseKeyValuePairs (ev : LogEvent) (field numAnnotations : Nat) :
    Steps ev (ev.parseKeyValuePairs mem field numAnnotations) :=
  .trans (steps_readNextValue mem 1 ev) (.trans (steps_parsePairs mem field _ _ _) (steps_parseAnnotations mem none _ _))

theorem steps_parseNodes (field numNodes k : Nat) (ev : LogEvent) : Steps ev (ev.parseNodes mem field numNodes k) := by
  induction k generalizing ev with
  | zero => exact .refl ev
  | succ k ih =>
    exact .trans (steps_parseInt32 mem _ _ _ _ ev) (.trans (steps_parseBytes mem _ _ _ _ _ _) (ih _))

theorem steps_parseAttributionChain (ev : LogEvent) (field numAnnotations : Nat) :
    Steps ev (ev.parseAttributionChain mem field numAnnotations) := by
  unfold parseAttributionChain
  dsimp only
  have hnodes := Steps.trans (steps_readNextValue mem 1 ev)
    (steps_parseNodes mem field (ev.readNextValue mem 1).2 (ev.readNextValue mem 1).2 _)
  generalize (ev.readNextValue mem 1).1.parseNodes mem field (ev.readNextValue mem 1).2 (ev.readNextValue mem 1).2 = ev1 at hnodes
  refine .trans hnodes ?_
  have hrange : ∀ ev2 : LogEvent, Steps ev1 ev2 → Steps ev1
      (if ev2.mValid = true then ev2.parseAnnotations mem (some ev.mValues.length) numAnnotations else ev2) := by
    intro ev2 h
    split
    · exact .trans h (steps_parseAnnotations mem _ _ _)
    · exact h
  refine hrange _ ?_
  split
  · exact steps_invalid ev1
  split
  · exact .same rfl rfl rfl id
  · exact .refl ev1

/-! ## The buffer -/

theorem steps_parseElement (ev : LogEvent) (field : Nat) : Steps ev (ev.parseElement mem field) := by
  unfold parseElement parseTyped
  dsimp only
  refine .trans (steps_readNextValue mem 1 ev) ?_
  split
  · exact steps_parseBool mem _ _ _ _ _
  split
  · exact steps_parseInt32 mem _ _ _ _ _
  split
  · exact steps_parseInt64 mem _ _ _ _ _
  split
  · exact steps_parseFloat mem _ _ _ _ _
  split
  · exact steps_parseBytes mem _ _ _ _ _ _
  split
  · exact steps_parseBytes mem _ _ _ _ _ _
  split
  · exact steps_parseKeyValuePairs mem _ _ _
  split
  · exact steps_parseAttributionChain mem _ _ _
  split
  · exact .trans (steps_readNextValue mem 4 _) (steps_invalid _)
  · exact steps_invalid _

theorem steps_parseElements (numElements k : Nat) (ev : LogEvent) : Steps ev (ev.parseElements mem numElements k) := by
  induction k generalizing ev with
  | zero => exact .refl ev
  | succ k ih =>
    unfold parseElements
    split
    · exact .trans (steps_parseElement mem ev _) (ih _)
    · exact .refl ev

theorem steps_readChecked (c : Nat → Bool) (ev : LogEvent) : Steps ev (ev.readChecked mem c).1 :=
  .trans (steps_readNextValue mem 1 ev) (steps_check _ _)

theorem steps_readTimestamp (ev : LogEvent) : Steps ev (ev.readTimestamp mem) :=
  .trans (steps_readNextValue mem 8 ev) (.same rfl rfl rfl id)

theorem steps_readTagId (ev : LogEvent) : Steps ev (ev.readTagId mem) :=
  .trans (steps_readNextValue mem 4 ev) (.same rfl rfl rfl id)

theorem steps_parseHeader (ev : LogEvent) : Steps (ev.readNextValue mem 1).1 (ev.parseHeader mem).1 := by
  unfold parseHeader
  dsimp only
  refine .trans ?_ (steps_parseAnnotations mem none _ _)
  refine .trans ?_ (steps_readTagId mem _)
  refine .trans ?_ (steps_readChecked mem _ _)
  refine .trans ?_ (steps_readTimestamp mem _)
  refine .trans ?_ (steps_readChecked mem _ _)
  refine .trans ?_ (steps_readChecked mem _ _)
  exact steps_check _ _

theorem steps_parseBuffer (ev : LogEvent) (buf len : Nat) :
    Steps ({ ev with mBuf := buf, mRemainingLen := len % 2 ^ 32 }.readNextValue mem 1).1 (ev.parseBuffer mem buf len).1 :=
  .trans (steps_parseHeader mem _) (.trans (steps_parseElements mem _ _ _) (steps_check _ _))

/-! ## Reads -/

/-- The reads follow one another from `a`, where `len` bytes remain, to `b`, where `rest` remain. -/
def Consecutive : Nat → Nat → List Read → Nat → Nat → Prop
  | a, len, [], b, rest => a = b ∧ len = rest
  | a, len, r :: rs, b, rest =>
    r.address = a ∧ r.remaining = len ∧ r.size ≤ len ∧ Consecutive (a + r.size) (len - r.size) rs b rest

theorem Consecutive.append {a len b mid c rest : Nat} {rs rs' : List Read} (h : Consecutive a len rs b mid)
    (h' : Consecutive b mid rs' c rest) : Consecutive a len (rs ++ rs') c rest := by
  induction rs generalizing a len with
  | nil => obtain ⟨rfl, rfl⟩ := h; exact h'
  | cons r rs ih => exact ⟨h.1, h.2.1, h.2.2.1, ih h.2.2.2⟩

theorem Consecutive.bounds {a len b rest : Nat} {rs : List Read} (h : Consecutive a len rs b rest) :
    b + rest = a + len ∧ a ≤ b ∧ ∀ r ∈ rs, a ≤ r.address ∧ r.address + r.remaining = a + len ∧ r.size ≤ r.remaining := by
  induction rs generalizing a len with
  | nil => obtain ⟨rfl, rfl⟩ := h; exact ⟨rfl, le_refl _, fun r hr => by cases hr⟩
  | cons r rs ih =>
    obtain ⟨h1, h2, h3, h4⟩ := h
    obtain ⟨hend, hle, hrs⟩ := ih h4
    refine ⟨by omega, by omega, fun r' hr' => ?_⟩
    rcases List.mem_cons.1 hr' with rfl | hr'
    · exact ⟨by omega, by omega, by omega⟩
    · obtain ⟨g1, g2, g3⟩ := hrs r' hr'
      exact ⟨by omega, by omega, g3⟩

theorem Steps.reads {ev ev' : LogEvent} (h : Steps ev ev') :
    ∃ rs, ev'.reads = ev.reads ++ rs ∧ Consecutive ev.mBuf ev.mRemainingLen rs ev'.mBuf ev'.mRemainingLen := by
  induction h with
  | same hbuf hlen hreads _ => exact ⟨[], by rw [hreads, List.append_nil], hbuf.symm, hlen.symm⟩
  | advance ev size h => exact ⟨[⟨ev.mBuf, size, ev.mRemainingLen⟩], rfl, rfl, rfl, h, rfl, rfl⟩
  | trans _ _ ih ih' =>
    obtain ⟨rs, h1, h2⟩ := ih
    obtain ⟨rs', h3, h4⟩ := ih'
    exact ⟨rs ++ rs', by rw [h3, h1, List.append_assoc], h2.append h4⟩

theorem Steps.valid {ev ev' : LogEvent} (h : Steps ev ev') : ev'.mValid = true → ev.mValid = true := by
  induction h with
  | same _ _ _ hvalid => exact hvalid
  | advance ev size _ => exact id
  | trans _ _ ih ih' => exact fun h => ih (ih' h)

end Statsd.Logd.LogEvent
