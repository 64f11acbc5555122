/-
The buffer over a run of calls. An event that was built without an error holds exactly the bytes of what
was written (`Encodes`); with an error, its timestamp and atom id are still in place (`Keeps`), since
every later write goes behind them or to the type byte of the last field.
-/
import Statsd.Libstatssocket.Written

namespace Statsd.Libstatssocket

open AStatsEvent

/-! ## An event without errors -/

/-- The event holds what was written: the serialised elements, and where the last one starts. -/
structure Encodes (timestamp : BitVec 64) (e : AStatsEvent) (w : Written) : Prop where
  payload : e.payload = headerBytes 0 timestamp ++ w.elements.flatMap Element.bytes
  max : e.numBytesWritten ≤ MAX_PULL_EVENT_PAYLOAD
  count : e.numElements = 1 + w.elements.length
  last : ∀ pre x, w.elements = pre ++ [x] → e.lastFieldPos = (headerBytes 0 timestamp ++ pre.flatMap Element.bytes).length
  annotations : ∀ x ∈ w.elements, x.annotations.length ≤ 15
  atomId : e.atomId = w.atomId.getD 0
  fresh : w.atomId = none → w.atomAnnotations = []

theorem length_headerBytes (n : Nat) (timestamp : BitVec 64) : (headerBytes n timestamp).length = 11 := by
  simp [headerBytes, Element.bytes, Content.bytes, annotationBytes]

theorem length_le_flatMap (l : List Element) : l.length ≤ (l.flatMap Element.bytes).length := by
  induction l with
  | nil => exact le_refl _
  | cons x l ih =>
    rw [List.flatMap_cons, List.length_append, List.length_cons]
    have : 1 ≤ (Element.bytes x).length := by rw [Element.bytes, List.length_cons]; omega
    omega

variable {timestamp : BitVec 64} {e : AStatsEvent} {w : Written}

theorem Encodes.length_le (h : Encodes timestamp e w) :
    11 + w.elements.length ≤ MAX_PULL_EVENT_PAYLOAD := by
  have hlen := congrArg List.length h.payload
  rw [length_payload, List.length_append, length_headerBytes] at hlen
  have := length_le_flatMap w.elements
  have := h.max
  omega

variable {e e' : AStatsEvent}

theorem Encodes.writes {w w' : Written} {x : Content} {atomId : BitVec 32}
    (h : Encodes timestamp e w) (hw : Writes (Element.bytes ⟨x, []⟩) { e with atomId := atomId } e') (herr : e'.errors = 0)
    (hel : w'.elements = w.elements ++ [⟨x, []⟩]) (hid : atomId = w'.atomId.getD 0)
    (hfresh : w'.atomId = none → w'.atomAnnotations = []) : Encodes timestamp e' w' where
  payload := by
    rw [show e'.payload = e.payload ++ Element.bytes ⟨x, []⟩ from hw.payload herr, h.payload, hel, List.flatMap_append, List.flatMap_singleton, List.append_assoc]
  max := hw.max
  count := by
    have := h.length_le
    have hpull : MAX_PULL_EVENT_PAYLOAD = 51200 := rfl
    rw [hw.count, h.count, hel, List.length_append, List.length_singleton]
    omega
  last pre y hpre := by
    rw [hel] at hpre
    obtain ⟨rfl, -⟩ := List.append_inj' hpre rfl
    rw [hw.last]
    show e.numBytesWritten = _
    rw [← length_payload, h.payload]
  annotations y hy := by
    rw [hel] at hy
    rcases List.mem_append.1 hy with hy | hy
    · exact h.annotations y hy
    · rw [List.mem_singleton.1 hy]; exact Nat.zero_le _
  atomId := hw.atomId.trans hid
  fresh := hfresh

theorem Encodes.annotates {w w' : Written} {a : Annotation} {pre : List Element}
    {x : Element} (h : Encodes timestamp e w) (ha : Annotates a e e') (herr : e'.errors = 0) (hel : w.elements = pre ++ [x])
    (hel' : w'.elements = pre ++ [{ x with annotations := x.annotations ++ [a] }]) (hid : w'.atomId = w.atomId)
    (hfresh : w'.atomId = none → w'.atomAnnotations = []) : Encodes timestamp e' w' := by
  have hlast := h.last pre x hel
  have hx := h.annotations x (by rw [hel]; exact List.mem_append_right _ (List.mem_singleton_self x))
  have hpay : e.payload = headerBytes 0 timestamp ++ pre.flatMap Element.bytes ++ Element.bytes x := by
    rw [h.payload, hel, List.flatMap_append, List.flatMap_singleton, List.append_assoc]
  obtain ⟨hlt, hpay'⟩ := ha.payload herr _ x hx hpay hlast
  refine ⟨?_, ha.max, ?_, fun pre' y hpre => ?_, fun y hy => ?_, ?_, hfresh⟩
  · rw [hpay', hel', List.flatMap_append, List.flatMap_singleton, List.append_assoc]
  · rw [ha.count, h.count, hel, hel', List.length_append, List.length_append]; rfl
  · rw [hel'] at hpre
    obtain ⟨rfl, -⟩ := List.append_inj' hpre rfl
    rw [ha.last, hlast]
  · rw [hel'] at hy
    rcases List.mem_append.1 hy with hy | hy
    · exact h.annotations y (by rw [hel]; exact List.mem_append_left _ hy)
    · rw [List.mem_singleton.1 hy, List.length_append, List.length_singleton]; omega
  · rw [ha.atomId, h.atomId, hid]

theorem modify_append_right {α : Type} (l l' : List α) (i : Nat) (f : α → α) :
    (l ++ l').modify (l.length + i) f = l ++ l'.modify i f := by
  induction l with
  | nil => rw [List.length_nil, Nat.zero_add, List.nil_append, List.nil_append]
  | cons a l ih =>
    rw [List.length_cons, List.cons_append, show l.length + 1 + i = l.length + i + 1 by omega, List.modify_succ_cons, ih]
    rfl

theorem modify_last {α : Type} (l : List α) (a : α) (f : α → α) : (l ++ [a]).modify ((l ++ [a]).length - 1) f = l ++ [f a] := by
  rw [List.length_append, List.length_singleton, Nat.add_sub_cancel]
  exact modify_append_right l [a] 0 f

theorem Written.elements_annotate (a : Annotation) (hne : w.elements ≠ []) :
    ∃ pre x, w.elements = pre ++ [x] ∧
      (w.annotate a).elements = pre ++ [{ x with annotations := x.annotations ++ [a] }] := by
  unfold Written.annotate
  by_cases hf : w.fields = []
  · rw [if_pos hf]
    cases hid : w.atomId with
    | none => exact absurd (by simp [Written.elements, Written.atomElement, hid, hf]) hne
    | some atomId =>
      refine ⟨[], ⟨.int32 atomId, w.atomAnnotations⟩, ?_, ?_⟩
      · simp [Written.elements, Written.atomElement, hid, hf]
      · simp [Written.elements, Written.atomElement, hf]
  · rw [if_neg hf]
    have hlast := List.dropLast_append_getLast hf
    generalize w.fields.dropLast = fs, w.fields.getLast hf = x at hlast
    refine ⟨w.atomElement ++ fs, x, ?_, ?_⟩
    · rw [Written.elements, ← hlast, List.append_assoc]
    · rw [Written.elements]
      dsimp only
      rw [← hlast, modify_last, List.append_assoc]
      rfl

theorem Written.annotate_atomId (w : Written) (a : Annotation) :
    (w.annotate a).atomId = w.atomId ∧ (w.atomId = none → (w.annotate a).atomAnnotations = w.atomAnnotations) := by
  unfold Written.annotate
  split
  · split
    · exact ⟨rfl, fun _ => rfl⟩
    · rename_i h; exact ⟨rfl, fun h' => absurd h' h⟩
  · exact ⟨rfl, fun _ => rfl⟩

theorem Encodes.setAtomId (h : Encodes timestamp e w)
    {atomId : BitVec 32} (herr : ( AStatsEvent_setAtomId e atomId).errors = 0) :
    Encodes timestamp ( AStatsEvent_setAtomId e atomId) (w.call (.setAtomId atomId)) := by
  unfold AStatsEvent_setAtomId at herr ⊢
  split at herr
  · -- the atom id was set before
    rename_i hset
    rw [if_pos hset]
    have hid : ¬ (w.atomId = none ∧ w.fields = []) := fun h0 => hset (by rw [h.atomId, h0.1]; rfl)
    rw [show w.call (.setAtomId atomId) = w from if_neg hid]
    exact h
  · rename_i hset
    rw [if_neg hset]
    split at herr
    · exact absurd herr (e.error_ne_zero (by decide))
    · rename_i hone
      rw [if_neg hone]
      -- nothing is written yet
      have hnil : w.elements = [] := by
        have := h.count
        exact List.length_eq_zero_iff.1 (by omega)
      have hnew : w.atomId = none ∧ w.fields = [] := by
        unfold Written.elements at hnil
        obtain ⟨h1, h2⟩ := List.append_eq_nil_iff.1 hnil
        refine ⟨?_, h2⟩
        cases hid : w.atomId with
        | none => rfl
        | some a => rw [Written.atomElement, hid] at h1; cases h1
      rw [show w.call (.setAtomId atomId) = { w with atomId := some atomId } from if_pos hnew]
      refine h.writes (writeInt32_writes atomId h.max) herr ?_ rfl fun h0 => by cases h0
      rw [hnil]
      simp [Written.elements, Written.atomElement, hnew.2, h.fresh hnew.1]

theorem Encodes.call (h : Encodes timestamp e w) {c : Call}
    (hok : c.Fits) (herr : (c.run e).errors = 0) : Encodes timestamp (c.run e) (w.call c) := by
  cases hx : c.content with
  | some x =>
    rw [Call.call_content hx]
    refine h.writes (c.run_writes hok hx h.max) herr ?_ h.atomId h.fresh
    exact (List.append_assoc _ _ _).symm
  | none =>
    cases ha : c.adds with
    | some a =>
      have hcall : w.call c = w.annotate a := by cases c <;> cases ha <;> rfl
      rcases Call.run_annotates ha h.max with ⟨x, hx, heq⟩ | ⟨htwo, hann⟩
      · rw [heq] at herr
        exact absurd herr (e.error_ne_zero hx)
      · have hne : w.elements ≠ [] := by
          intro hnil
          have := h.count
          rw [hnil, List.length_nil] at this
          omega
        obtain ⟨pre, x, h1, h2⟩ := w.elements_annotate a hne
        rw [hcall]
        refine h.annotates hann herr h1 h2 (w.annotate_atomId a).1 fun h0 => ?_
        rw [(w.annotate_atomId a).1] at h0
        rw [(w.annotate_atomId a).2 h0]
        exact h.fresh h0
    | none =>
      cases c with
      | setAtomId atomId => exact h.setAtomId herr
      | writeAttributionChain nodes =>
        -- a chain that is too long is an error
        unfold Call.content at hx
        dsimp only at hx
        split at hx
        · rename_i hlen
          have hrun : Call.run e (.writeAttributionChain nodes) = e.error ERROR_ATTRIBUTION_CHAIN_TOO_LONG := if_pos hlen
          rw [hrun] at herr
          exact absurd herr (e.error_ne_zero (by decide))
        · cases hx
      | annotateBool annotationId value => cases ha
      | annotateInt32 annotationId value => cases ha
      | _ => cases hx

/-! ## Whole runs -/

/-- What any call leaves in place: the valid bytes, but for the type byte of the last field. -/
structure Frame (e e' : AStatsEvent) : Prop where
  le : e.numBytesWritten ≤ e'.numBytesWritten
  max : e'.numBytesWritten ≤ MAX_PULL_EVENT_PAYLOAD
  buf : ∀ i < e.numBytesWritten, i ≠ e.lastFieldPos → e'.buf i = e.buf i
  last : e'.lastFieldPos = e.lastFieldPos ∨ e.numBytesWritten ≤ e'.lastFieldPos
  built : e'.built = e.built
  errors : e'.errors = 0 → e.errors = 0

theorem Frame.error (hmax : e.numBytesWritten ≤ MAX_PULL_EVENT_PAYLOAD) {x : BitVec 32} (hx : x ≠ 0) :
    Frame e (e.error x) :=
  ⟨le_refl _, hmax, fun _ _ _ => rfl, .inl rfl, rfl, fun h => absurd h (e.error_ne_zero hx)⟩

theorem AStatsEvent.Writes.frame {bs : List UInt8} (h : Writes bs e e') : Frame e e' :=
  ⟨h.le, h.max, fun i hi _ => h.buf i hi, .inr (le_of_eq h.last.symm), h.built, h.errors⟩

theorem Call.run_frame {c : Call} (hok : c.Fits) (hmax : e.numBytesWritten ≤ MAX_PULL_EVENT_PAYLOAD) :
    Frame e (c.run e) := by
  cases hx : c.content with
  | some x => exact (c.run_writes hok hx hmax).frame
  | none =>
    cases ha : c.adds with
    | some a =>
      rcases Call.run_annotates ha hmax with ⟨x, hx, heq⟩ | ⟨-, h⟩
      · rw [heq]; exact .error hmax hx
      · exact ⟨h.le, h.max, h.buf, .inl h.last, h.built, h.errors⟩
    | none =>
      cases c with
      | setAtomId atomId =>
        show Frame e (AStatsEvent_setAtomId e atomId)
        unfold AStatsEvent_setAtomId
        split
        · exact ⟨le_refl _, hmax, fun _ _ _ => rfl, .inl rfl, rfl, id⟩
        split
        · exact .error hmax (by decide)
        · have h := (writeInt32_writes (e := { e with atomId := atomId }) atomId hmax).frame
          exact ⟨h.le, h.max, h.buf, h.last, h.built, h.errors⟩
      | writeAttributionChain nodes =>
        unfold Call.content at hx
        dsimp only at hx
        split at hx
        · rename_i hlen
          rw [show Call.run e (.writeAttributionChain nodes) = e.error ERROR_ATTRIBUTION_CHAIN_TOO_LONG from if_pos hlen]
          exact .error hmax (by decide)
        · cases hx
      | annotateBool annotationId value => cases ha
      | annotateInt32 annotationId value => cases ha
      | _ => cases hx

/-- The event after a sequence of calls, and what they write. -/
def runCalls (timestamp : BitVec 64) (calls : List Call) : AStatsEvent := calls.foldl Call.run (AStatsEvent_obtain timestamp)

def written (calls : List Call) : Written := calls.foldl Written.call {}

theorem errors_of_run (calls : List Call) (hok : ∀ c ∈ calls, c.Fits)
    (hmax : e.numBytesWritten ≤ MAX_PULL_EVENT_PAYLOAD) (herr : (calls.foldl Call.run e).errors = 0) : e.errors = 0 := by
  induction calls generalizing e with
  | nil => exact herr
  | cons c calls ih =>
    have hframe := Call.run_frame (hok c List.mem_cons_self) hmax
    exact hframe.errors (ih (fun d hd => hok d (List.mem_cons_of_mem c hd)) hframe.max herr)

theorem Encodes.run (calls : List Call) (hok : ∀ c ∈ calls, c.Fits)
    (h : Encodes timestamp e w) (herr : (calls.foldl Call.run e).errors = 0) :
    Encodes timestamp (calls.foldl Call.run e) (calls.foldl Written.call w) := by
  induction calls generalizing e w with
  | nil => exact h
  | cons c calls ih =>
    have hc := hok c List.mem_cons_self
    have hrest := fun d hd => hok d (List.mem_cons_of_mem c hd)
    exact ih hrest (h.call hc (errors_of_run calls hrest (Call.run_frame hc h.max).max herr)) herr

/-! ## What fits is written -/

theorem start_field_fits (typeId : Nat) (h : e.numBytesWritten + 1 ≤ MAX_PULL_EVENT_PAYLOAD) :
    (e.start_field typeId).payload = e.payload ++ [UInt8.ofNat typeId] ∧
      (e.start_field typeId).numBytesWritten = e.numBytesWritten + 1 ∧ (e.start_field typeId).errors = e.errors ∧
      (e.start_field typeId).numElements = (e.numElements + 1) % 2 ^ 32 ∧ (e.start_field typeId).atomId = e.atomId ∧
      (e.start_field typeId).lastFieldPos = e.numBytesWritten ∧ (e.start_field typeId).built = e.built := by
  obtain ⟨h1, h2, h3, h4, h5, h6, h7⟩ :=
    append_fits (e := { e with lastFieldPos := e.numBytesWritten }) [UInt8.ofNat typeId] h
  refine ⟨h1, h2, h3, ?_, h5, h6, h7⟩
  show (_ + 1) % 2 ^ 32 = _
  unfold append_byte
  rw [h4]

theorem field_fits (typeId : Nat) (bs : List UInt8)
    (h : e.numBytesWritten + 1 + bs.length ≤ MAX_PULL_EVENT_PAYLOAD) :
    ((e.start_field typeId).append bs).payload = e.payload ++ [UInt8.ofNat typeId] ++ bs ∧
      ((e.start_field typeId).append bs).numBytesWritten = e.numBytesWritten + 1 + bs.length ∧
      ((e.start_field typeId).append bs).errors = e.errors ∧
      ((e.start_field typeId).append bs).numElements = (e.numElements + 1) % 2 ^ 32 ∧
      ((e.start_field typeId).append bs).atomId = e.atomId ∧
      ((e.start_field typeId).append bs).lastFieldPos = e.numBytesWritten ∧
      ((e.start_field typeId).append bs).built = e.built := by
  obtain ⟨h1, h2, h3, h4, h5, h6, h7⟩ := start_field_fits (e := e) typeId (by omega)
  obtain ⟨g1, g2, g3, g4, g5, g6, g7⟩ := append_fits (e := e.start_field typeId) bs (by omega)
  exact ⟨by rw [g1, h1], by rw [g2, h2], g3.trans h3, g4.trans h4, g5.trans h5, g6.trans h6, g7.trans h7⟩

theorem obtain_spec (timestamp : BitVec 64) :
    (AStatsEvent_obtain timestamp).payload = headerBytes 0 timestamp ∧ (AStatsEvent_obtain timestamp).numBytesWritten = 11 ∧
      (AStatsEvent_obtain timestamp).errors = 0 ∧ (AStatsEvent_obtain timestamp).numElements = 1 ∧
      (AStatsEvent_obtain timestamp).atomId = 0 ∧ (AStatsEvent_obtain timestamp).built = false := by
  unfold AStatsEvent_obtain AStatsEvent_writeInt64 append_int64
  obtain ⟨h1, h2, h3, h4, h5, -, h7⟩ := field_fits
    (e := { buf := Memory.write (fun _ => 0) 0 [UInt8.ofNat OBJECT_TYPE], lastFieldPos := 0, numBytesWritten := 2,
            numElements := 0, atomId := 0, errors := 0, built := false, bufSize := MAX_PUSH_EVENT_PAYLOAD })
    INT64_TYPE (leBytes 8 timestamp.toNat) (by rw [length_leBytes]; decide)
  refine ⟨?_, ?_, h3, h4, h5, h7⟩
  · rw [h1, headerBytes, Element.bytes_plain]
    rfl
  · rw [h2, length_leBytes]

theorem encodes_obtain (timestamp : BitVec 64) : Encodes timestamp (AStatsEvent_obtain timestamp) {} := by
  obtain ⟨h1, h2, -, h4, h5, -⟩ := obtain_spec timestamp
  refine ⟨?_, ?_, h4, fun pre x hpre => ?_, fun x hx => ?_, h5, fun _ => rfl⟩
  · rw [h1]; exact (List.append_nil _).symm
  · rw [h2]; decide
  · exact absurd hpre (by simp [Written.elements, Written.atomElement])
  · cases hx

/-! ## An event with errors -/

/-- Whether nothing was written yet. -/
def Written.Fresh (w : Written) : Prop := w.atomId = none ∧ w.fields = []

/-- The event keeps its header, and the atom id when it was set: what comes later is written behind them. -/
structure Keeps (timestamp : BitVec 64) (e : AStatsEvent) (w : Written) : Prop where
  max : e.numBytesWritten ≤ MAX_PULL_EVENT_PAYLOAD
  built : e.built = false
  fresh : w.Fresh → ∃ errors, e = { AStatsEvent_obtain timestamp with errors := errors }
  header : e.buf.read 0 11 = headerBytes 0 timestamp
  behind : ¬ w.Fresh → 11 ≤ e.numBytesWritten ∧ 11 ≤ e.lastFieldPos
  atomId : ∀ a, w.atomId = some a →
    16 ≤ e.numBytesWritten ∧ (e.lastFieldPos = 11 ∨ 16 ≤ e.lastFieldPos) ∧ e.buf.read 12 4 = leBytes 4 a.toNat

theorem Written.call_not_fresh (h : ¬ w.Fresh) (c : Call) : (w.call c).atomId = w.atomId ∧ ¬ (w.call c).Fresh := by
  have hwrite : ∀ x, (w.write x).atomId = w.atomId ∧ ¬ (w.write x).Fresh := fun x =>
    ⟨rfl, fun h0 => by have := h0.2; simp [Written.write] at this⟩
  have hann : ∀ a, (w.annotate a).atomId = w.atomId ∧ ¬ (w.annotate a).Fresh := by
    intro a
    refine ⟨(w.annotate_atomId a).1, fun h0 => h ⟨(w.annotate_atomId a).1 ▸ h0.1, ?_⟩⟩
    by_contra hf
    have h1 := h0.2
    rw [Written.annotate, if_neg hf] at h1
    exact hf (List.modify_eq_nil_iff.1 h1)
  cases hx : c.content with
  | some x => rw [Call.call_content hx]; exact hwrite x
  | none =>
    cases c with
    | setAtomId atomId => rw [show w.call (.setAtomId atomId) = w from if_neg h]; exact ⟨rfl, h⟩
    | writeAttributionChain nodes =>
      unfold Call.content at hx
      dsimp only at hx
      split at hx
      · rename_i hlen
        rw [show w.call (.writeAttributionChain nodes) = w from if_pos hlen]
        exact ⟨rfl, h⟩
      · cases hx
    | annotateBool annotationId value => exact hann _
    | annotateInt32 annotationId value => exact hann _
    | _ => cases hx

theorem Keeps.frame {w w' : Written} (h : Keeps timestamp e w) (hw : ¬ w.Fresh)
    (hf : Frame e e') (hid : w'.atomId = w.atomId) (hw' : ¬ w'.Fresh) : Keeps timestamp e' w' := by
  obtain ⟨hlen, hlast⟩ := h.behind hw
  refine ⟨hf.max, hf.built.trans h.built, fun h0 => absurd h0 hw', ?_, fun _ => ⟨hlen.trans hf.le, ?_⟩, fun a ha => ?_⟩
  · rw [← h.header]
    exact Memory.read_congr fun i _ hi => hf.buf i (by omega) (by omega)
  · rcases hf.last with heq | hle
    · rw [heq]; exact hlast
    · omega
  · obtain ⟨h1, h2, h3⟩ := h.atomId a (hid ▸ ha)
    refine ⟨h1.trans hf.le, ?_, ?_⟩
    · rcases hf.last with heq | hle
      · rw [heq]; exact h2
      · exact .inr (by omega)
    · rw [← h3]
      exact Memory.read_congr fun i hi hi' => hf.buf i (by omega) (by omega)

theorem header_of_obtain {errors : BitVec 32}
    (h : e = { AStatsEvent_obtain timestamp with errors := errors }) :
    e.buf.read 0 11 = headerBytes 0 timestamp ∧ e.numBytesWritten = 11 ∧ e.numElements = 1 ∧ e.atomId = 0 ∧ e.built = false := by
  obtain ⟨h1, h2, -, h4, h5, h6⟩ := obtain_spec timestamp
  subst h
  refine ⟨?_, h2, h4, h5, h6⟩
  rw [← h1, payload, h2]

theorem Keeps.first (h : Keeps timestamp e w) (hw : w.Fresh) {c : Call}
    (hok : c.Fits) : Keeps timestamp (c.run e) (w.call c) := by
  obtain ⟨errors, he⟩ := h.fresh hw
  obtain ⟨hhead, hnum, hcount, hid, hbuilt⟩ := header_of_obtain he
  -- an error leaves a new event new
  have herror : ∀ x, Keeps timestamp (e.error x) w := fun x =>
    ⟨h.max, h.built, fun _ => ⟨e.errors ||| x, by rw [he]; rfl⟩, h.header, fun h0 => absurd hw h0, h.atomId⟩
  cases hx : c.content with
  | some x =>
    have hwr := c.run_writes hok hx h.max
    have hnot : ¬ (w.write x).Fresh := fun h0 => by have := h0.2; simp [Written.write] at this
    rw [Call.call_content hx]
    refine ⟨hwr.max, hwr.built.trans hbuilt, fun h0 => absurd h0 hnot, ?_, fun _ => ?_, fun a ha => ?_⟩
    · rw [← hhead]
      exact Memory.read_congr fun i _ hi => hwr.buf i (by omega)
    · rw [hwr.last]
      have := hwr.le
      omega
    · rw [show (w.write x).atomId = w.atomId from rfl, hw.1] at ha
      cases ha
  | none =>
    cases c with
    | setAtomId atomId =>
      have hcall : w.call (.setAtomId atomId) = { w with atomId := some atomId } := if_pos hw
      have hrun : Call.run e (.setAtomId atomId) = AStatsEvent_writeInt32 { e with atomId := atomId } atomId := by
        show AStatsEvent_setAtomId e atomId = _
        unfold AStatsEvent_setAtomId
        rw [if_neg (by simp [hid]), if_neg (by simp [hcount])]
      have hnot : ¬ ({ w with atomId := some atomId } : Written).Fresh := fun h0 => by cases h0.1
      rw [hcall, hrun]
      unfold AStatsEvent_writeInt32 append_int32
      obtain ⟨h1, h2, -, -, -, h6, h7⟩ := field_fits (e := { e with atomId := atomId }) INT32_TYPE (leBytes 4 atomId.toNat)
        (by rw [length_leBytes]; show e.numBytesWritten + 1 + 4 ≤ 51200; omega)
      generalize AStatsEvent.append _ _ = e' at h1 h2 h6 h7
      have hnum' : e'.numBytesWritten = 16 := by
        rw [h2, length_leBytes]
        show e.numBytesWritten + 1 + 4 = 16
        omega
      have hpay : e'.buf.read 0 11 ++ (e'.buf.read 11 1 ++ e'.buf.read 12 4) =
          headerBytes 0 timestamp ++ ([UInt8.ofNat INT32_TYPE] ++ leBytes 4 atomId.toNat) := by
        rw [← Memory.read_add, ← Memory.read_add e'.buf 0 11 5]
        have hold : ({ e with atomId := atomId } : AStatsEvent).payload = headerBytes 0 timestamp := by
          show e.buf.read 0 e.numBytesWritten = _
          rw [hnum, hhead]
        rw [payload, hnum', hold, List.append_assoc] at h1
        exact h1
      obtain ⟨p1, p2⟩ := List.append_inj hpay (by rw [Memory.length_read, length_headerBytes])
      obtain ⟨-, p3⟩ := List.append_inj p2 (by rw [Memory.length_read]; rfl)
      refine ⟨by rw [hnum']; decide, h7.trans hbuilt, fun h0 => absurd h0 hnot, p1, fun _ => ?_, fun a ha => ?_⟩
      · rw [h6, hnum']
        exact ⟨by omega, le_of_eq hnum.symm⟩
      · cases ha
        exact ⟨by omega, .inl (h6.trans hnum), p3⟩
    | writeAttributionChain nodes =>
      unfold Call.content at hx
      dsimp only at hx
      split at hx
      · rename_i hlen
        rw [show Call.run e (.writeAttributionChain nodes) = e.error ERROR_ATTRIBUTION_CHAIN_TOO_LONG from if_pos hlen,
          show w.call (.writeAttributionChain nodes) = w from if_pos hlen]
        exact herror _
      · cases hx
    | annotateBool annotationId value =>
      rw [show w.call (.annotateBool annotationId value) = w by simp [Written.call, Written.annotate, hw.1, hw.2],
        show Call.run e (.annotateBool annotationId value) = e.error ERROR_ANNOTATION_DOES_NOT_FOLLOW_FIELD from
          if_pos (by omega)]
      exact herror _
    | annotateInt32 annotationId value =>
      rw [show w.call (.annotateInt32 annotationId value) = w by simp [Written.call, Written.annotate, hw.1, hw.2],
        show Call.run e (.annotateInt32 annotationId value) = e.error ERROR_ANNOTATION_DOES_NOT_FOLLOW_FIELD from
          if_pos (by omega)]
      exact herror _
    | _ => cases hx

theorem Keeps.call (h : Keeps timestamp e w) {c : Call} (hok : c.Fits) :
    Keeps timestamp (c.run e) (w.call c) := by
  by_cases hw : w.Fresh
  · exact h.first hw hok
  · obtain ⟨hid, hw'⟩ := Written.call_not_fresh hw c
    exact h.frame hw (Call.run_frame hok h.max) hid hw'

theorem Keeps.run (calls : List Call) (hok : ∀ c ∈ calls, c.Fits)
    (h : Keeps timestamp e w) : Keeps timestamp (calls.foldl Call.run e) (calls.foldl Written.call w) := by
  induction calls generalizing e w with
  | nil => exact h
  | cons c calls ih => exact ih (fun d hd => hok d (List.mem_cons_of_mem c hd)) (h.call (hok c List.mem_cons_self))

theorem keeps_obtain (timestamp : BitVec 64) : Keeps timestamp (AStatsEvent_obtain timestamp) {} := by
  obtain ⟨hhead, hnum, -, -, hbuilt⟩ := header_of_obtain (e := AStatsEvent_obtain timestamp) rfl
  refine ⟨by rw [hnum]; decide, hbuilt, fun _ => ⟨_, rfl⟩, hhead, fun h0 => absurd ⟨rfl, rfl⟩ h0, fun a ha => ?_⟩
  cases ha

/-! ## Built events -/

theorem buildErrors_cases (e : AStatsEvent) :
    (∃ errors, buildErrors e false = { e with errors := errors }) ∧
      ((buildErrors e false).errors = 0 → e.errors = 0 ∧ e.numElements ≤ MAX_BYTE_VALUE ∧ e.atomId ≠ 0) := by
  unfold buildErrors
  dsimp only
  by_cases hn : e.numElements > MAX_BYTE_VALUE
  · rw [if_pos hn]
    by_cases ha : e.atomId = 0
    · rw [if_pos (show (e.error ERROR_TOO_MANY_FIELDS).atomId = 0 from ha), if_neg (by simp)]
      exact ⟨⟨_, rfl⟩, fun h => absurd h (error_ne_zero _ (by decide))⟩
    · rw [if_neg (show ¬ (e.error ERROR_TOO_MANY_FIELDS).atomId = 0 from ha), if_neg (by simp)]
      exact ⟨⟨_, rfl⟩, fun h => absurd h (error_ne_zero _ (by decide))⟩
  · rw [if_neg hn]
    by_cases ha : e.atomId = 0
    · rw [if_pos ha, if_neg (by simp)]
      exact ⟨⟨_, rfl⟩, fun h => absurd h (error_ne_zero _ (by decide))⟩
    · rw [if_neg ha, if_neg (by simp)]
      exact ⟨⟨e.errors, rfl⟩, fun h => ⟨h, not_lt.1 hn, ha⟩⟩

theorem payload_count {m : Nat} {rest : List UInt8} (n : Nat)
    (h : e.payload = headerBytes m timestamp ++ rest) :
    ({ e with buf := e.buf.write POS_NUM_ELEMENTS [UInt8.ofNat n] } : AStatsEvent).payload = headerBytes n timestamp ++ rest := by
  have hsplit : e.buf.read 0 e.numBytesWritten =
      [UInt8.ofNat OBJECT_TYPE] ++ UInt8.ofNat m :: (Element.bytes ⟨.int64 timestamp, []⟩ ++ rest) := h
  exact (Memory.read_split hsplit).2 (UInt8.ofNat n)

/-- The bytes of an event that was cut back: the header, four bytes of atom id, and the errors. -/
def errorBytes (timestamp : BitVec 64) (atomId : List UInt8) (errors : BitVec 32) : List UInt8 :=
  headerBytes 3 timestamp ++ ([UInt8.ofNat INT32_TYPE] ++ atomId ++ ([UInt8.ofNat ERROR_TYPE] ++ leBytes 4 errors.toNat))

theorem rewriteBuffer_spec (h : e.buf.read 0 11 = headerBytes 0 timestamp) :
    (rewriteBuffer e).payload = headerBytes 0 timestamp ++
        ([UInt8.ofNat INT32_TYPE] ++ e.buf.read 12 4 ++ ([UInt8.ofNat ERROR_TYPE] ++ leBytes 4 e.errors.toNat)) ∧
      (rewriteBuffer e).errors = e.errors ∧ (rewriteBuffer e).numElements = 3 ∧ (rewriteBuffer e).numBytesWritten = 21 := by
  unfold rewriteBuffer
  dsimp only
  generalize hcut : ({ e with
    numElements := 2
    buf := e.buf.write POS_ATOM_ID [UInt8.ofNat INT32_TYPE]
    numBytesWritten := POS_ATOM_ID + 1 + 4 } : AStatsEvent) = cut
  have hnum : cut.numBytesWritten = 16 := by rw [← hcut]; rfl
  have herr : cut.errors = e.errors := by rw [← hcut]
  have hcount : cut.numElements = 2 := by rw [← hcut]
  have hpay : cut.payload = headerBytes 0 timestamp ++ ([UInt8.ofNat INT32_TYPE] ++ e.buf.read 12 4) := by
    have hbuf : cut.buf = e.buf.write 11 [UInt8.ofNat INT32_TYPE] := by rw [← hcut]; rfl
    rw [payload, hnum, hbuf, Memory.read_add _ 0 11 5, Memory.read_add _ (0 + 11) 1 4,
      Memory.read_write_before (b := 0) (k := 11) _ (by decide), h]
    congr 2
  obtain ⟨-, -, hstart, -⟩ := start_field_fits (e := cut) ERROR_TYPE (by rw [hnum]; decide)
  rw [hstart, herr]
  unfold append_int32
  obtain ⟨h1, h2, h3, h4, -⟩ := field_fits (e := cut) ERROR_TYPE (leBytes 4 e.errors.toNat) (by rw [length_leBytes, hnum]; decide)
  refine ⟨?_, h3.trans herr, ?_, ?_⟩
  · rw [h1, hpay]; simp only [List.append_assoc]
  · rw [h4, hcount]; rfl
  · rw [h2, hnum, length_leBytes]

theorem build_of_no_errors (h : e.errors = 0 → Encodes timestamp e w)
    (hkeep : Keeps timestamp e w) (herr : (AStatsEvent_build e).errors = 0) :
    (AStatsEvent_build e).payload = headerBytes (1 + w.elements.length) timestamp ++ w.elements.flatMap Element.bytes ∧
      1 + w.elements.length ≤ 127 ∧ (AStatsEvent_build e).numBytesWritten ≤ MAX_PULL_EVENT_PAYLOAD ∧
      (∃ a, w.atomId = some a) ∧ ∀ x ∈ w.elements, x.annotations.length ≤ 15 := by
  obtain ⟨⟨errors, heq⟩, hcases⟩ := buildErrors_cases e
  unfold AStatsEvent_build build_internal at herr ⊢
  rw [hkeep.built] at herr ⊢
  simp only [Bool.false_eq_true, if_false] at herr ⊢
  by_cases h0 : (buildErrors e false).errors = 0
  · rw [if_neg (not_not.2 h0)]
    obtain ⟨h1, h2, h3⟩ := hcases h0
    have henc := h h1
    rw [heq]
    refine ⟨?_, ?_, henc.max, ?_, henc.annotations⟩
    · rw [show 1 + w.elements.length = e.numElements from henc.count.symm]
      exact payload_count e.numElements henc.payload
    · rw [← henc.count]; exact h2
    · cases hid : w.atomId with
      | none => rw [henc.atomId, hid] at h3; exact absurd rfl h3
      | some a => exact ⟨a, rfl⟩
  · rw [if_pos h0] at herr
    have hhead : (buildErrors e false).buf.read 0 11 = headerBytes 0 timestamp := by rw [heq]; exact hkeep.header
    exact absurd ((rewriteBuffer_spec hhead).2.1.symm.trans herr) h0

theorem build_of_errors (hkeep : Keeps timestamp e w)
    (herr : (AStatsEvent_build e).errors ≠ 0) :
    ∃ atomId, (AStatsEvent_build e).payload = errorBytes timestamp atomId (AStatsEvent_build e).errors ∧ atomId.length = 4 ∧
      (AStatsEvent_build e).numBytesWritten = 21 ∧ ∀ a, w.atomId = some a → atomId = leBytes 4 a.toNat := by
  obtain ⟨⟨errors, heq⟩, -⟩ := buildErrors_cases e
  unfold AStatsEvent_build build_internal at herr ⊢
  rw [hkeep.built] at herr ⊢
  simp only [Bool.false_eq_true, if_false] at herr ⊢
  by_cases h0 : (buildErrors e false).errors = 0
  · rw [if_neg (not_not.2 h0)] at herr
    exact absurd h0 herr
  · rw [if_pos h0]
    rw [heq]
    obtain ⟨h1, h2, h3, h4⟩ := rewriteBuffer_spec (e := { e with errors := errors }) hkeep.header
    refine ⟨e.buf.read 12 4, ?_, Memory.length_read _ _ _, h4, fun a ha => (hkeep.atomId a ha).2.2⟩
    rw [h2, h3]
    exact payload_count 3 h1

end Statsd.Libstatssocket
