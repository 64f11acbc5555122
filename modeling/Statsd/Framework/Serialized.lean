/-
The buffer over a run of calls. Without an error it holds exactly the bytes of what was written, with the annotations
of the last entry counted at its last type (`Encodes`); in any case its header stays in place (`Keeps`), so that an
event with errors can be cut back to it.
-/
import Statsd.Framework.Calls
import Statsd.Libstatssocket.Encoding

namespace Statsd.Framework

open Libstatssocket (Content Annotation Element annotationBytes headerBytes errorBytes modify_last)

/-! ## What is written -/

structure WrittenField where
  entry : Entry
  annotations : List Annotation := []

/-- The atom id, when it was set before any field, and the fields. -/
structure Written where
  atomId : Option (BitVec 32) := none
  atomAnnotations : List Annotation := []
  fields : List WrittenField := []

namespace Written

def write (w : Written) (entry : Entry) : Written := { w with fields := w.fields ++ [⟨entry, []⟩] }

/-- An annotation belongs to the last field, or to the atom when there is none yet. -/
def annotate (w : Written) (a : Annotation) : Written :=
  if w.fields = [] then (if w.atomId = none then w else { w with atomAnnotations := w.atomAnnotations ++ [a] })
  else { w with fields := w.fields.modify (w.fields.length - 1) fun f => { f with annotations := f.annotations ++ [a] } }

/-- A call as it is meant: an atom id counts before any field, and only the first one does. -/
def call (w : Written) (c : Call) : Written :=
  match c.entry, c.adds, c with
  | some e, _, _ => w.write e
  | _, some a, _ => w.annotate a
  | _, _, .setAtomId atomId => if w.atomId = none ∧ w.fields = [] then { w with atomId := some atomId } else w
  | _, _, _ => w

def atomElement (w : Written) : List WrittenField :=
  match w.atomId with
  | some atomId => [⟨.value (.int32 atomId), w.atomAnnotations⟩]
  | none => []

def elements (w : Written) : List WrittenField := w.atomElement ++ w.fields

end Written

def written (calls : List Call) : Written := calls.foldl Written.call {}

/-! ## The bytes -/

def Entry.wire (e : Entry) : Wire := (wireOf e.puts).getD ⟨[], 0, []⟩

def WrittenField.bytes (f : WrittenField) : List UInt8 := f.entry.wire.bytes f.annotations

theorem wireOf_typeId (t : Nat) (ps : List Put) : ∃ w, wireOf (.typeId t :: ps) = some w := by
  unfold wireOf
  cases wireOf ps with
  | none => exact ⟨_, rfl⟩
  | some w => exact ⟨_, rfl⟩

theorem Entry.wireOf_puts (e : Entry) : wireOf e.puts = some e.wire := by
  have hsome : ∃ w, wireOf e.puts = some w := by
    cases e with
    | value x => cases x <;> exact wireOf_typeId _ _
    | chain uids tags => exact wireOf_typeId _ _
    | pairs ps => exact wireOf_typeId _ _
  obtain ⟨w, hw⟩ := hsome
  rw [wire, hw]
  rfl

theorem typeId_of_wireOf {ps : List Put} {w : Wire} (h : wireOf ps = some w) : .typeId w.typeId ∈ ps := by
  induction ps generalizing w with
  | nil => cases h
  | cons p ps ih =>
    unfold wireOf at h
    split at h
    · rename_i w' hw
      cases h
      exact List.mem_cons_of_mem _ (ih (w := w') hw)
    · cases h
      exact List.mem_cons_self
    · cases h

theorem not_typeId_sizedPuts (t : Nat) (bytes : List UInt8) : .typeId t ∉ sizedPuts bytes := by simp [sizedPuts]

theorem Entry.typeId_lt {e : Entry} : e.wire.typeId < 16 := by
  have hmem := typeId_of_wireOf e.wireOf_puts
  generalize e.wire.typeId = t at hmem
  cases e with
  | value x =>
    cases x with
    | byteArray bytes =>
      rcases List.mem_cons.1 hmem with heq | hmem
      · cases heq
        decide
      · exact absurd hmem (not_typeId_sizedPuts _ _)
    | string bytes =>
      rcases List.mem_cons.1 hmem with heq | hmem
      · cases heq
        decide
      · exact absurd hmem (not_typeId_sizedPuts _ _)
    | _ =>
      simp only [puts, List.mem_cons, Put.typeId.injEq, reduceCtorEq, List.not_mem_nil, or_false] at hmem
      rw [hmem]
      exact Content.typeId_lt _
  | chain uids tags =>
    simp only [puts, List.mem_cons, Put.typeId.injEq, reduceCtorEq, false_or, List.mem_flatMap] at hmem
    rcases hmem with rfl | ⟨node, -, hmem⟩
    · decide
    · rcases List.mem_cons.1 hmem with heq | hmem
      · cases heq
      · exact absurd hmem (not_typeId_sizedPuts _ _)
  | pairs ps =>
    simp only [puts, List.mem_cons, Put.typeId.injEq, reduceCtorEq, false_or, List.mem_flatMap] at hmem
    rcases hmem with rfl | ⟨pair, -, hmem⟩
    · decide
    · simp only [pairPuts, List.mem_cons, Put.typeId.injEq, reduceCtorEq, false_or] at hmem
      rcases hmem with rfl | hmem
      · cases pair.2 <;> exact of_decide_eq_true rfl
      · cases hvalue : pair.2 with
        | string bytes =>
          rw [hvalue] at hmem
          exact absurd hmem (not_typeId_sizedPuts _ _)
        | _ =>
          rw [hvalue] at hmem
          simp [PairValue.puts] at hmem

theorem Entry.bytes_plain (e : Entry) : e.wire.bytes [] = putBytes e.puts := by
  have ht := e.typeId_lt
  have hand : ∀ t < 16, t &&& 0x0F = t := by decide
  rw [putBytes_eq e.wireOf_puts, hand _ ht]
  simp [Wire.bytes, annotationBytes]

theorem annotationCount_byte {t n : Nat} (ht : t < 16) (hn : n < 15) : ((n + 1) <<< 4) ||| (t &&& 0x0F) = t + 16 * (n + 1) := by
  have hall : ∀ t < 16, ∀ n < 15, ((n + 1) <<< 4) ||| (t &&& 0x0F) = t + 16 * (n + 1) := by decide
  exact hall t ht n hn

/-! ## One call -/

/-- Neither an error nor an overflow so far. -/
def Builder.Clean (b : Builder) : Prop := b.mErrorMask = 0 ∧ b.mBuffer.mOverflow = false

/-- No string or array of the call runs off the buffer's array. -/
def Call.Fits (b : Builder) (c : Call) : Prop := ∀ e, c.entry = some e → e.Checked → b.PutsFit e.puts

theorem Builder.error_ne_zero (b : Builder) {x : BitVec 32} (h : x ≠ 0) : (b.error x).mErrorMask ≠ 0 := by
  intro h0
  have hor : b.mErrorMask ||| x = 0#32 := h0
  rw [BitVec.or_eq_zero_iff] at hor
  exact h hor.2

/-- What a call does to a builder. -/
inductive Outcome (c : Call) (b : Builder) : Builder → Prop where
  | error (x : BitVec 32) (hx : x ≠ 0) (atomId : BitVec 32) : Outcome c b ({ b with mAtomId := atomId }.error x)
  | writes (e : Entry) (he : c.entry = some e) (hchecked : e.Checked) (b₁ : Builder) (h : b.Puts e.puts b₁) :
    Outcome c b b₁.countElement
  | annotates (a : Annotation) (ha : c.adds = some a) (htwo : 2 ≤ b.mNumElements.toInt) (hcount : b.mCurrentAnnotationCount < 15)
    (b' : Builder) (h : Annotated a b b') : Outcome c b b'
  | sets (atomId : BitVec 32) (hc : c = .setAtomId atomId) (hnew : b.mAtomId = 0) (hone : b.mNumElements = 1) (b₁ : Builder)
    (h : ({ b with mAtomId := atomId } : Builder).Puts ( Entry.value (.int32 atomId)).puts b₁) : Outcome c b b₁.countElement
  | ignored (atomId : BitVec 32) (hc : c = .setAtomId atomId) (hset : b.mAtomId ≠ 0) : Outcome c b b
  | pooled (hc : c = .usePooledBuffer) : Outcome c b b.usePooledBuffer

theorem Call.run_cases {c : Call} (hok : c.Ok) {b : Builder} (hb : b.Sized) :
    (c.run b = none ∧ ¬ c.Fits b) ∨ (∃ b', c.run b = some b' ∧ c.Fits b ∧ Outcome c b b') := by
  cases he : c.entry with
  | some e =>
    rcases c.run_entry he b with ⟨hchecked, hrun⟩ | ⟨hchecked, x, hx, hrun⟩
    · rw [hrun]
      rcases Builder.puts_cases e.puts (c.data_lt hok he) hb with ⟨hnone, hnot⟩ | ⟨b₁, hsome, hfit, hputs⟩
      · rw [hnone]
        exact .inl ⟨rfl, fun hall => hnot (hall e he hchecked)⟩
      · rw [hsome]
        refine .inr ⟨_, rfl, fun e' he' _ => ?_, .writes e he hchecked b₁ hputs⟩
        cases he.symm.trans he'
        exact hfit
    · refine .inr ⟨_, hrun, fun e' he' hchecked' => ?_, .error x hx b.mAtomId⟩
      cases he.symm.trans he'
      exact absurd hchecked' hchecked
  | none =>
    have hfits : c.Fits b := by
      intro e he'
      cases he.symm.trans he'
    cases ha : c.adds with
    | some a =>
      rcases c.run_annotates ha hb with ⟨x, hx, hrun⟩ | ⟨htwo, hcount, b', hrun, hann⟩
      · exact .inr ⟨_, hrun, hfits, .error x hx b.mAtomId⟩
      · exact .inr ⟨b', hrun, hfits, .annotates a ha htwo hcount b' hann⟩
    | none =>
      cases c with
      | setAtomId atomId =>
        change (b.setAtomId atomId = none ∧ _) ∨ ∃ b', b.setAtomId atomId = some b' ∧ _
        unfold Builder.setAtomId
        by_cases hnew : b.mAtomId = 0
        · rw [if_pos hnew]
          dsimp only
          by_cases hone : b.mNumElements = 1
          · rw [if_pos hone]
            have hrun := ({ b with mAtomId := atomId } : Builder).field_puts TYPE_INT (·.putInt · atomId) fun _ _ => rfl
            have hb₀ : ({ b with mAtomId := atomId } : Builder).Sized := ⟨hb.buffer, hb.pos, hb.last⟩
            have hdata : ∀ p ∈ ( Entry.value (.int32 atomId)).puts, p.data.length < 2 ^ 31 :=
              Call.data_lt (c := .writeInt atomId) True.intro rfl
            rcases Builder.puts_cases _ hdata hb₀ with ⟨-, hnot⟩ | ⟨b₁, hsome, -, hputs⟩
            · have hshort : ∀ p ∈ ( Entry.value (.int32 atomId)).puts, p.data.length ≤ 8 :=
                List.forall_mem_cons.2 ⟨show 1 ≤ 8 by decide, List.forall_mem_singleton.2 (by
                  rw [Put.data, Content.bytes, length_leBytes]
                  decide)⟩
              exact absurd (Builder.fits_of_short _ hshort hb₀) hnot
            · refine .inr ⟨b₁.countElement, ?_, hfits, .sets atomId rfl hnew hone b₁ hputs⟩
              exact hrun.trans (congrArg _ hsome)
          · rw [if_neg hone]
            exact .inr ⟨_, rfl, hfits, .error _ (by decide) atomId⟩
        · rw [if_neg hnew]
          exact .inr ⟨b, rfl, hfits, .ignored atomId rfl hnew⟩
      | usePooledBuffer => exact .inr ⟨_, rfl, hfits, .pooled rfl⟩
      | addBooleanAnnotation annotationId value => cases ha
      | addIntAnnotation annotationId value => cases ha
      | _ => cases he

/-! ## Any run -/

/-- The event keeps its header: what comes later is written behind it. -/
structure Keeps (m : Nat) (timestamp : BitVec 64) (b : Builder) : Prop where
  sized : b.Sized
  time : b.mTimestampNs = timestamp
  pos : 11 ≤ b.mPos
  last : 2 ≤ b.mNumElements.toInt → 11 ≤ b.mPosLastField
  header : b.mBuffer.mBytes.read 0 11 = headerBytes m timestamp

theorem Builder.Puts.last_le {b b' : Builder} {e : Entry} (h : b.Puts e.puts b') : b.mPos ≤ b'.mPosLastField := by
  rcases h.last with ⟨hnone, -⟩ | hle
  · rw [e.wireOf_puts] at hnone
    cases hnone
  · exact hle

theorem Keeps.puts {m : Nat} {timestamp : BitVec 64} {b b₁ : Builder} (h : Keeps m timestamp b) (atomId : BitVec 32) {e : Entry}
    (hputs : ({ b with mAtomId := atomId } : Builder).Puts e.puts b₁) : Keeps m timestamp b₁.countElement where
  sized := ⟨hputs.sized.buffer, hputs.sized.pos, hputs.sized.last⟩
  time := hputs.timestamp.trans h.time
  pos := h.pos.trans hputs.le
  last _ := h.pos.trans hputs.last_le
  header := by
    rw [← h.header]
    exact Memory.read_congr fun i _ hi => hputs.before i (lt_of_lt_of_le hi (by rw [Nat.zero_add]; exact h.pos))

theorem Keeps.step {m : Nat} {timestamp : BitVec 64} {b b' : Builder} {c : Call} (h : Keeps m timestamp b) (ho : Outcome c b b') :
    Keeps m timestamp b' ∧ (b'.Clean → b.Clean) := by
  cases ho with
  | error x hx atomId =>
    refine ⟨⟨⟨h.sized.buffer, h.sized.pos, h.sized.last⟩, h.time, h.pos, h.last, h.header⟩, fun hclean => ?_⟩
    exact absurd hclean.1 (Builder.error_ne_zero _ hx)
  | writes e he hchecked b₁ hputs =>
    exact ⟨h.puts b.mAtomId hputs, fun hclean => ⟨hputs.errors.symm.trans hclean.1, hputs.overflow hclean.2⟩⟩
  | annotates a ha htwo hcount b' hann =>
    have hlast := h.last htwo
    have hpos := h.pos
    refine ⟨⟨hann.sized, hann.timestamp.trans h.time, hpos.trans hann.le, fun _ => ?_, ?_⟩, fun hclean => ?_⟩
    · rcases hann.last with heq | hle
      · rw [heq]
        exact hlast
      · exact hpos.trans hle
    · rw [← h.header]
      exact Memory.read_congr fun i _ hi => hann.before i (by omega) (by omega)
    · exact ⟨hann.errors.symm.trans hclean.1, hann.overflow hclean.2⟩
  | sets atomId hc hnew hone b₁ hputs =>
    exact ⟨h.puts atomId hputs, fun hclean => ⟨hputs.errors.symm.trans hclean.1, hputs.overflow hclean.2⟩⟩
  | ignored atomId hc hset => exact ⟨h, id⟩
  | pooled hc =>
    refine ⟨⟨⟨⟨h.sized.buffer.min, h.sized.buffer.le, .inl rfl⟩, h.sized.pos, h.sized.last⟩, h.time, h.pos, h.last, h.header⟩,
      fun hclean => ⟨hclean.1, ?_⟩⟩
    exact (Bool.or_eq_false_iff.1 hclean.2).1

/-! ## A run without errors -/

/-- The builder holds what was written: the serialised elements, and the last field. -/
structure Encodes (m : Nat) (timestamp : BitVec 64) (b : Builder) (w : Written) : Prop where
  payload : b.payload = headerBytes m timestamp ++ w.elements.flatMap WrittenField.bytes
  count : b.mNumElements.toNat = 1 + w.elements.length
  last : ∀ pre x, w.elements = pre ++ [x] → b.lastField =
    ((headerBytes m timestamp ++ pre.flatMap WrittenField.bytes ++ x.entry.wire.front).length, x.entry.wire.typeId,
      x.annotations.length)
  annotations : ∀ x ∈ w.elements, x.annotations.length ≤ 15
  checked : ∀ x ∈ w.elements, x.entry.Checked
  atomId : b.mAtomId = w.atomId.getD 0
  fresh : w.atomId = none → w.atomAnnotations = []

section

variable {m : Nat} {timestamp : BitVec 64} {b b' : Builder} {w w' : Written}

theorem Encodes.length_le (h : Encodes m timestamp b w) (hb : b.Sized) : 11 + w.elements.length ≤ 51200 := by
  have hlen := congrArg List.length h.payload
  rw [Builder.length_payload, List.length_append, Libstatssocket.length_headerBytes] at hlen
  have hbytes : ∀ l : List WrittenField, l.length ≤ (l.flatMap WrittenField.bytes).length := by
    intro l
    induction l with
    | nil => exact le_refl _
    | cons x l ih =>
      rw [List.flatMap_cons, List.length_append, List.length_cons]
      have hone : 1 ≤ x.bytes.length := by
        rw [WrittenField.bytes, Wire.bytes, List.length_append, List.length_cons]
        omega
      omega
  have := hbytes w.elements
  have := hb.pos_le
  omega

theorem Encodes.puts (h : Encodes m timestamp b w) (hb : b.Sized) (atomId : BitVec 32) {e : Entry} {b₁ : Builder}
    (hputs : ({ b with mAtomId := atomId } : Builder).Puts e.puts b₁) (hover : b₁.mBuffer.mOverflow = false)
    (hchecked : e.Checked) (hel : w'.elements = w.elements ++ [⟨e, []⟩]) (hid : atomId = w'.atomId.getD 0)
    (hfresh : w'.atomId = none → w'.atomAnnotations = []) : Encodes m timestamp b₁.countElement w' where
  payload := by
    change b₁.payload = _
    rw [hputs.payload hover, hel, List.flatMap_append, List.flatMap_singleton, WrittenField.bytes, e.bytes_plain, ← List.append_assoc]
    exact congrArg (· ++ _) h.payload
  count := by
    have hlen := h.length_le hb
    have hcount := h.count
    change (b₁.mNumElements + 1).toNat = _
    rw [hputs.count, hel, List.length_append, List.length_singleton, BitVec.toNat_add]
    change (b.mNumElements.toNat + 1) % 2 ^ 32 = _
    omega
  last pre x hpre := by
    rw [hel] at hpre
    obtain ⟨rfl, hx⟩ := List.append_inj' hpre rfl
    obtain rfl := List.singleton_inj.1 hx
    have hmarked := hputs.marked hover
    rw [e.wireOf_puts] at hmarked
    refine hmarked.trans ?_
    change (b.mPos + _, _, _) = _
    rw [List.length_append, ← h.payload, Builder.length_payload]
    rfl
  annotations x hx := by
    rw [hel] at hx
    rcases List.mem_append.1 hx with hx | hx
    · exact h.annotations x hx
    · rw [List.mem_singleton.1 hx]
      exact Nat.zero_le _
  checked x hx := by
    rw [hel] at hx
    rcases List.mem_append.1 hx with hx | hx
    · exact h.checked x hx
    · rw [List.mem_singleton.1 hx]
      exact hchecked
  atomId := hputs.atomId.trans hid
  fresh := hfresh

theorem Encodes.annotates (h : Encodes m timestamp b w) {a : Annotation} (ha : Annotated a b b') (hover : b'.mBuffer.mOverflow = false)
    (hcount : b.mCurrentAnnotationCount < 15) {pre : List WrittenField} {x : WrittenField} (hel : w.elements = pre ++ [x])
    (hel' : w'.elements = pre ++ [{ x with annotations := x.annotations ++ [a] }]) (hid : w'.atomId = w.atomId)
    (hfresh : w'.atomId = none → w'.atomAnnotations = []) : Encodes m timestamp b' w' := by
  have hlast := h.last pre x hel
  unfold Builder.lastField at hlast
  simp only [Prod.mk.injEq] at hlast
  obtain ⟨hpos, htype, hnum⟩ := hlast
  rw [hnum] at hcount
  have hx : x ∈ w.elements := by
    rw [hel]
    exact List.mem_append_right _ (List.mem_singleton_self x)
  have hpay : b.payload = (headerBytes m timestamp ++ pre.flatMap WrittenField.bytes ++ x.entry.wire.front) ++
      UInt8.ofNat (x.entry.wire.typeId + 16 * x.annotations.length) :: (x.entry.wire.back ++ annotationBytes x.annotations) := by
    rw [h.payload, hel, List.flatMap_append, List.flatMap_singleton, WrittenField.bytes, Wire.bytes]
    simp only [List.append_assoc]
  have hpay' := ha.payload hover _ _ _ hpay hpos
  rw [htype, hnum, annotationCount_byte x.entry.typeId_lt hcount] at hpay'
  refine ⟨?_, ?_, fun pre' y hpre => ?_, fun y hy => ?_, fun y hy => ?_, ?_, hfresh⟩
  · rw [hpay', hel', List.flatMap_append, List.flatMap_singleton, WrittenField.bytes, Wire.bytes]
    simp [annotationBytes]
  · rw [ha.count, h.count, hel, hel', List.length_append, List.length_append]
    rfl
  · rw [hel'] at hpre
    obtain ⟨rfl, hy⟩ := List.append_inj' hpre rfl
    obtain rfl := List.singleton_inj.1 hy
    have hmore : (x.annotations ++ [a]).length = x.annotations.length + 1 := List.length_append
    rw [ha.field hover, hpos, htype, hnum, hmore]
  · rw [hel'] at hy
    rcases List.mem_append.1 hy with hy | hy
    · exact h.annotations y (by rw [hel]; exact List.mem_append_left _ hy)
    · rw [List.mem_singleton.1 hy, List.length_append, List.length_singleton]
      exact hcount
  · rw [hel'] at hy
    rcases List.mem_append.1 hy with hy | hy
    · exact h.checked y (by rw [hel]; exact List.mem_append_left _ hy)
    · rw [List.mem_singleton.1 hy]
      exact h.checked x hx
  · rw [ha.atomId, h.atomId, hid]

theorem Written.elements_annotate (a : Annotation) (hne : w.elements ≠ []) :
    ∃ pre x, w.elements = pre ++ [x] ∧ (w.annotate a).elements = pre ++ [{ x with annotations := x.annotations ++ [a] }] := by
  unfold Written.annotate
  by_cases hf : w.fields = []
  · rw [if_pos hf]
    cases hid : w.atomId with
    | none => exact absurd (by simp [Written.elements, Written.atomElement, hid, hf]) hne
    | some atomId =>
      refine ⟨[], ⟨.value (.int32 atomId), w.atomAnnotations⟩, ?_, ?_⟩
      · simp [Written.elements, Written.atomElement, hid, hf]
      · simp [Written.elements, Written.atomElement, hf]
  · rw [if_neg hf]
    have hlast := List.dropLast_append_getLast hf
    generalize w.fields.dropLast = fs, w.fields.getLast hf = x at hlast
    refine ⟨w.atomElement ++ fs, x, ?_, ?_⟩
    · rw [Written.elements, ← hlast, List.append_assoc]
    · rw [Written.elements]
      dsimp only
      rw [← hlast, modify_last, List.append_assoc]
      rfl

theorem Written.annotate_atomId (w : Written) (a : Annotation) :
    (w.annotate a).atomId = w.atomId ∧ (w.atomId = none → (w.annotate a).atomAnnotations = w.atomAnnotations) := by
  unfold Written.annotate
  split
  · split
    · exact ⟨rfl, fun _ => rfl⟩
    · rename_i h
      exact ⟨rfl, fun h' => absurd h' h⟩
  · exact ⟨rfl, fun _ => rfl⟩

theorem Written.call_entry {c : Call} {e : Entry} (h : c.entry = some e) : w.call c = w.write e := by
  unfold Written.call
  rw [h]

theorem Written.call_adds {c : Call} {a : Annotation} (h : c.adds = some a) : w.call c = w.annotate a := by
  cases c <;> cases h <;> rfl

theorem Encodes.step (h : Encodes m timestamp b w) (hb : b.Sized) {c : Call} (ho : Outcome c b b') (hclean : b'.Clean) :
    Encodes m timestamp b' (w.call c) := by
  cases ho with
  | error x hx atomId => exact absurd hclean.1 (Builder.error_ne_zero _ hx)
  | writes e he hchecked b₁ hputs =>
    rw [Written.call_entry he]
    exact h.puts hb b.mAtomId hputs hclean.2 hchecked (List.append_assoc _ _ _).symm h.atomId h.fresh
  | annotates a ha htwo hcount b' hann =>
    rw [Written.call_adds ha]
    have hne : w.elements ≠ [] := by
      intro hnil
      have hone := h.count
      rw [hnil, List.length_nil] at hone
      rw [BitVec.toInt_eq_toNat_cond] at htwo
      split at htwo <;> omega
    obtain ⟨pre, x, h₁, h₂⟩ := w.elements_annotate a hne
    obtain ⟨hid, hann'⟩ := w.annotate_atomId a
    refine h.annotates hann hclean.2 hcount h₁ h₂ hid fun hnone => ?_
    rw [hid] at hnone
    rw [hann' hnone]
    exact h.fresh hnone
  | sets atomId hc hnew hone b₁ hputs =>
    subst hc
    -- nothing is written yet
    have hnil : w.elements = [] := by
      have hcount := h.count
      rw [hone] at hcount
      exact List.length_eq_zero_iff.1 (by simpa using hcount)
    obtain ⟨hatom, hfields⟩ := List.append_eq_nil_iff.1 hnil
    have hid : w.atomId = none := by
      cases hid : w.atomId with
      | none => rfl
      | some a =>
        rw [Written.atomElement, hid] at hatom
        cases hatom
    have hcall : w.call (.setAtomId atomId) = { w with atomId := some atomId } := if_pos ⟨hid, hfields⟩
    rw [hcall]
    refine h.puts hb atomId hputs hclean.2 True.intro ?_ rfl fun h₀ => by cases h₀
    rw [hnil]
    simp [Written.elements, Written.atomElement, hfields, h.fresh hid]
  | ignored atomId hc hset =>
    subst hc
    have hnot : ¬ (w.atomId = none ∧ w.fields = []) := by
      intro hnew
      rw [h.atomId, hnew.1] at hset
      exact hset rfl
    have hcall : w.call (.setAtomId atomId) = w := if_neg hnot
    rw [hcall]
    exact h
  | pooled hc =>
    subst hc
    exact ⟨h.payload, h.count, h.last, h.annotations, h.checked, h.atomId, h.fresh⟩

end

end Statsd.Framework
