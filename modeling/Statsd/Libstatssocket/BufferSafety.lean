/-
Where the event builder reads and writes its buffer (stats_event.c). A call is a sequence of steps, each of which touches
the buffer at known places. The type byte of a field that starts at a full buffer is dropped, but its place is remembered
and an annotation patches it there; and the size needed for a byte array wraps.
-/
import Statsd.Libstatssocket.Encoding

namespace Statsd.Libstatssocket

open AStatsEvent

/-! ## Steps -/

/-- What the calls consist of. -/
inductive Step where
  | error (e : BitVec 32)
  | setAtomId (atomId : BitVec 32)
  | setBuilt
  | markField
  | append (bytes : List UInt8)
  | countElement
  | patchField
  | store (pos : Nat) (bytes : List UInt8)
  | rewind
  | send

def AStatsEvent_overwriteTimestamp (event : AStatsEvent) (timestampNs : BitVec 64) : AStatsEvent :=
  { event with buf := event.buf.write (POS_TIMESTAMP + 1) (leBytes 8 timestampNs.toNat) }

def Step.run (event : AStatsEvent) : Step → AStatsEvent
  | error e => event.error e
  | setAtomId atomId => { event with atomId := atomId }
  | setBuilt => { event with built := true }
  | markField => { event with lastFieldPos := event.numBytesWritten }
  | append bytes => event.append bytes
  | countElement => { event with numElements := (event.numElements + 1) % 2 ^ 32 }
  | patchField => increment_annotation_count event
  | store pos bytes => { event with buf := event.buf.write pos bytes }
  | rewind => { event with numElements := 2, numBytesWritten := POS_ATOM_ID + 1 + 4 }
  | send => event

/-- An access to bytes of the buffer while it has a size, or the loop that doubles the size. -/
inductive Touch where
  | access (pos size bufSize : Nat)
  | growth (totalBytesNeeded bufSize : Nat)

/-- The loop of `overflows`, if it ends after so many rounds. -/
def growLoop (totalBytesNeeded : Nat) : Nat → Nat → Option Nat
  | 0, _ => none
  | rounds + 1, bufSize =>
    let bufSize := bufSize * 2 % 2 ^ 64
    if bufSize ≤ totalBytesNeeded then growLoop totalBytesNeeded rounds bufSize else some bufSize

/-- Every index is inside the buffer, and the loop ends. -/
def Touch.Ok : Touch → Prop
  | access pos size bufSize => ∀ i, pos ≤ i → i < pos + size → i < bufSize
  | growth totalBytesNeeded bufSize => ∃ rounds bufSize', growLoop totalBytesNeeded rounds bufSize = some bufSize'

/-- What a step touches. -/
def Step.touches (event : AStatsEvent) : Step → List Touch
  | append bytes =>
    let totalBytesNeeded := (event.numBytesWritten + bytes.length) % 2 ^ 64
    if totalBytesNeeded > MAX_PULL_EVENT_PAYLOAD then []
    else
      (if event.bufSize < MAX_PULL_EVENT_PAYLOAD ∧ totalBytesNeeded > event.bufSize then
        [.growth totalBytesNeeded event.bufSize] else []) ++
        [.access event.numBytesWritten bytes.length (event.overflows bytes.length).1.bufSize]
  | patchField => [.access event.lastFieldPos 1 event.bufSize]
  | store pos bytes => [.access pos bytes.length event.bufSize]
  | send => [.access 0 event.numBytesWritten event.bufSize]
  | _ => []

/-- What steps touch one after the other. -/
def touchesOf (event : AStatsEvent) : List Step → List Touch
  | [] => []
  | step :: steps => step.touches event ++ touchesOf (step.run event) steps

/-! ## Calls -/

def fieldSteps (typeId : Nat) : List Step := [.markField, .append [UInt8.ofNat typeId], .countElement]

def stringSteps (buf : List UInt8) : List Step :=
  let size := min (cString buf).length MAX_PULL_EVENT_PAYLOAD
  if size = MAX_PULL_EVENT_PAYLOAD then [.error ERROR_STRING_NOT_NULL_TERMINATED]
  else [.append (leBytes 4 size), .append ((cString buf).take size)]

def annotationSteps (event : AStatsEvent) (annotationId : UInt8) (typeId : Nat) (value : List UInt8) : List Step :=
  if event.numElements < 2 then [.error ERROR_ANNOTATION_DOES_NOT_FOLLOW_FIELD]
  else if annotationId.toNat > MAX_BYTE_VALUE then [.error ERROR_ANNOTATION_ID_TOO_LARGE]
  else [.append [UInt8.ofNat annotationId.toNat], .append [UInt8.ofNat typeId], .append value, .patchField]

/-- The steps of a call on an event. -/
def Call.steps (event : AStatsEvent) : Call → List Step
  | .setAtomId atomId =>
    if event.atomId ≠ 0 then []
    else if event.numElements ≠ 1 then [.error ERROR_ATOM_ID_INVALID_POSITION]
    else .setAtomId atomId :: fieldSteps INT32_TYPE ++ [.append (leBytes 4 atomId.toNat)]
  | .writeInt32 value => fieldSteps INT32_TYPE ++ [.append (leBytes 4 value.toNat)]
  | .writeInt64 value => fieldSteps INT64_TYPE ++ [.append (leBytes 8 value.toNat)]
  | .writeFloat value => fieldSteps FLOAT_TYPE ++ [.append (leBytes 4 value.toNat)]
  | .writeBool value => fieldSteps BOOL_TYPE ++ [.append [UInt8.ofNat value.toNat]]
  | .writeByteArray buf =>
    let bytes := buf.getD []
    fieldSteps BYTE_ARRAY_TYPE ++ [.append (leBytes 4 bytes.length)] ++ if bytes.length > 0 then [.append bytes] else []
  | .writeString value => fieldSteps STRING_TYPE ++ stringSteps (value.getD [])
  | .writeAttributionChain nodes =>
    if nodes.length > MAX_BYTE_VALUE then [.error ERROR_ATTRIBUTION_CHAIN_TOO_LONG]
    else
      fieldSteps ATTRIBUTION_CHAIN_TYPE ++ [.append [UInt8.ofNat nodes.length]] ++
        nodes.flatMap fun node => .append (leBytes 4 node.1.toNat) :: stringSteps (node.2.getD [])
  | .annotateBool annotationId value => annotationSteps event annotationId BOOL_TYPE [UInt8.ofNat value.toNat]
  | .annotateInt32 annotationId value => annotationSteps event annotationId INT32_TYPE (leBytes 4 value.toNat)

/-- A call of the interface; an event may also be built or sent in between. -/
inductive ApiCall where
  | call (c : Call)
  | overwriteTimestamp (timestampNs : BitVec 64)
  | build
  | write

/-- The event after its atom id was reset to one without annotations. -/
def rewindBuffer (event : AStatsEvent) : AStatsEvent :=
  { event with
    numElements := 2
    buf := event.buf.write POS_ATOM_ID [UInt8.ofNat INT32_TYPE]
    numBytesWritten := POS_ATOM_ID + 1 + 4 }

/-- The steps of `build_internal`. -/
def buildSteps (event : AStatsEvent) (push : Bool) : List Step :=
  let errors := buildErrors event push
  (if event.numElements > MAX_BYTE_VALUE then [.error ERROR_TOO_MANY_FIELDS] else []) ++
    (if event.atomId = 0 then [.error ERROR_NO_ATOM_ID] else []) ++
    (if push ∧ event.numBytesWritten > MAX_PUSH_EVENT_PAYLOAD then [.error ERROR_OVERFLOW] else []) ++
    (if errors.errors ≠ 0 then
      .rewind :: .store POS_ATOM_ID [UInt8.ofNat INT32_TYPE] :: fieldSteps ERROR_TYPE ++
        [.append (leBytes 4 ((rewindBuffer errors).start_field ERROR_TYPE).errors.toNat)] else []) ++
    [.store POS_NUM_ELEMENTS [UInt8.ofNat (if errors.errors ≠ 0 then rewriteBuffer errors else errors).numElements]]

namespace ApiCall

def run (event : AStatsEvent) : ApiCall → AStatsEvent
  | call c => c.run event
  | overwriteTimestamp timestampNs => AStatsEvent_overwriteTimestamp event timestampNs
  | build => AStatsEvent_build event
  | write => build_internal event true

def steps (event : AStatsEvent) : ApiCall → List Step
  | call c => c.steps event
  | overwriteTimestamp timestampNs => [.store (POS_TIMESTAMP + 1) (leBytes 8 timestampNs.toNat)]
  | build => if event.built then [] else buildSteps event false ++ [.setBuilt]
  | write => buildSteps event true ++ [.send]

def touches (event : AStatsEvent) (c : ApiCall) : List Touch := touchesOf event (c.steps event)

end ApiCall

theorem run_stringSteps (event : AStatsEvent) (buf : List UInt8) :
    (stringSteps buf).foldl Step.run event = event.append_string buf := by
  unfold stringSteps append_string
  dsimp only
  split <;> rfl

theorem run_annotationSteps (event : AStatsEvent) (annotationId : UInt8) (typeId : Nat) (value : List UInt8) :
    (annotationSteps event annotationId typeId value).foldl Step.run event =
      addAnnotation event annotationId typeId (·.append value) := by
  unfold annotationSteps addAnnotation
  split
  · rfl
  · split <;> rfl

theorem run_nodeSteps (nodes : List (BitVec 32 × Option (List UInt8))) (event : AStatsEvent) :
    (nodes.flatMap fun node => Step.append (leBytes 4 node.1.toNat) :: stringSteps (node.2.getD [])).foldl Step.run event =
      nodes.foldl (fun event node => (event.append_int32 node.1.toNat).append_string (node.2.getD [])) event := by
  induction nodes generalizing event with
  | nil => rfl
  | cons node nodes ih =>
    rw [List.flatMap_cons, List.foldl_append, List.foldl_cons, run_stringSteps, List.foldl_cons]
    exact ih _

theorem Call.run_steps (event : AStatsEvent) (c : Call) : (c.steps event).foldl Step.run event = c.run event := by
  cases c with
  | setAtomId atomId =>
    simp only [Call.steps, Call.run, AStatsEvent_setAtomId]
    split
    · rfl
    · split <;> rfl
  | writeInt32 value => rfl
  | writeInt64 value => rfl
  | writeFloat value => rfl
  | writeBool value => rfl
  | writeByteArray buf =>
    simp only [Call.steps, Call.run, AStatsEvent_writeByteArray]
    split <;> rfl
  | writeString value =>
    rw [Call.steps, List.foldl_append, run_stringSteps]
    rfl
  | writeAttributionChain nodes =>
    simp only [Call.steps, Call.run, AStatsEvent_writeAttributionChain]
    split
    · rfl
    · rw [List.foldl_append, run_nodeSteps]
      rfl
  | annotateBool annotationId value => exact run_annotationSteps _ _ _ _
  | annotateInt32 annotationId value => exact run_annotationSteps _ _ _ _

theorem run_errorSteps (event : AStatsEvent) (push : Bool) :
    ((if event.numElements > MAX_BYTE_VALUE then [Step.error ERROR_TOO_MANY_FIELDS] else []) ++
      (if event.atomId = 0 then [Step.error ERROR_NO_ATOM_ID] else []) ++
      (if push ∧ event.numBytesWritten > MAX_PUSH_EVENT_PAYLOAD then [Step.error ERROR_OVERFLOW] else [])).foldl Step.run
        event = buildErrors event push := by
  rw [List.foldl_append, List.foldl_append]
  have hif : ∀ (p : Prop) [Decidable p] (e : AStatsEvent) (x : BitVec 32),
      (if p then [Step.error x] else []).foldl Step.run e = if p then e.error x else e := by
    intro p _ e x
    split <;> rfl
  simp only [hif, buildErrors]
  by_cases hn : event.numElements > MAX_BYTE_VALUE
  · by_cases ha : event.atomId = 0
    · simp only [hn, ha, if_true, error]
    · simp only [hn, ha, if_true, if_false, error]
  · by_cases ha : event.atomId = 0
    · simp only [hn, ha, if_true, if_false, error]
    · simp only [hn, ha, if_false]

theorem run_buildSteps (event : AStatsEvent) (push : Bool) :
    (buildSteps event push).foldl Step.run event = build_internal event push := by
  unfold buildSteps build_internal
  dsimp only
  rw [List.foldl_append, List.foldl_append, run_errorSteps]
  split <;> rfl

theorem ApiCall.run_steps (event : AStatsEvent) (c : ApiCall) : (c.steps event).foldl Step.run event = c.run event := by
  cases c with
  | call c => exact c.run_steps event
  | overwriteTimestamp timestampNs => rfl
  | build =>
    rw [ApiCall.steps, ApiCall.run, AStatsEvent_build]
    split
    · rfl
    · rw [List.foldl_append, run_buildSteps]
      rfl
  | write =>
    rw [ApiCall.steps, List.foldl_append, run_buildSteps]
    rfl

/-! ## One step -/

/-- The bytes written fit the buffer, whose size is between the two limits. -/
structure Sound (event : AStatsEvent) : Prop where
  written : event.numBytesWritten ≤ event.bufSize
  least : MAX_PUSH_EVENT_PAYLOAD ≤ event.bufSize
  most : event.bufSize ≤ MAX_PULL_EVENT_PAYLOAD

theorem growLoop_ends {totalBytesNeeded bufSize : Nat} (hpos : 0 < bufSize) (hle : bufSize ≤ totalBytesNeeded)
    (htotal : totalBytesNeeded < 2 ^ 63) : ∃ rounds bufSize', growLoop totalBytesNeeded rounds bufSize = some bufSize' := by
  induction hd : totalBytesNeeded - bufSize using Nat.strong_induction_on generalizing bufSize with
  | _ d ih =>
    have hmod : bufSize * 2 % 2 ^ 64 = bufSize * 2 := Nat.mod_eq_of_lt (by omega)
    by_cases hnext : bufSize * 2 ≤ totalBytesNeeded
    · obtain ⟨rounds, bufSize', h⟩ := ih (totalBytesNeeded - bufSize * 2) (by omega) (by omega) hnext rfl
      exact ⟨rounds + 1, bufSize', by rw [growLoop, hmod, if_pos hnext, h]⟩
    · exact ⟨1, bufSize * 2, by rw [growLoop, hmod, if_neg hnext]⟩

theorem lt_grow {totalBytesNeeded bufSize : Nat} (hpos : 0 < bufSize) : totalBytesNeeded < grow totalBytesNeeded bufSize := by
  induction hd : totalBytesNeeded - bufSize using Nat.strong_induction_on generalizing bufSize with
  | _ d ih =>
    rw [grow]
    split
    · rename_i h
      exact ih (totalBytesNeeded - 2 * bufSize) (by omega) (by omega) rfl
    · rename_i h
      omega

variable {event : AStatsEvent} {bytes : List UInt8}

theorem Sound.overflows (h : Sound event) {size : Nat} (hfits : event.numBytesWritten + size < 2 ^ 64) :
    (event.numBytesWritten + size > MAX_PULL_EVENT_PAYLOAD ∧ event.overflows size = (event.error ERROR_OVERFLOW, true)) ∨
      (event.numBytesWritten + size ≤ MAX_PULL_EVENT_PAYLOAD ∧
        ∃ bufSize, event.overflows size = ({ event with bufSize := bufSize }, false) ∧ event.numBytesWritten + size ≤ bufSize ∧
          event.bufSize ≤ bufSize ∧ bufSize ≤ MAX_PULL_EVENT_PAYLOAD) := by
  have hpush : MAX_PUSH_EVENT_PAYLOAD = 4064 := rfl
  have hpull : MAX_PULL_EVENT_PAYLOAD = 51200 := rfl
  obtain ⟨hwritten, hleast, hmost⟩ := h
  unfold AStatsEvent.overflows
  rw [Nat.mod_eq_of_lt hfits]
  dsimp only
  split
  · exact .inl ⟨‹_›, rfl⟩
  · split
    · have hlt : event.numBytesWritten + size < grow (event.numBytesWritten + size) event.bufSize := lt_grow (by omega)
      exact .inr ⟨by omega, _, rfl, by omega, by omega, by omega⟩
    · exact .inr ⟨by omega, event.bufSize, rfl, by omega, le_refl _, hmost⟩

/-- What an append does to the sizes. -/
structure Extends (event event' : AStatsEvent) : Prop where
  sound : Sound event'
  bufSize : event.bufSize ≤ event'.bufSize
  last : event'.lastFieldPos = event.lastFieldPos

theorem Sound.append (h : Sound event) (hfits : event.numBytesWritten + bytes.length < 2 ^ 64) :
    Extends event (event.append bytes) ∧
      (event.append bytes).numBytesWritten = (if event.numBytesWritten + bytes.length ≤ MAX_PULL_EVENT_PAYLOAD then
        event.numBytesWritten + bytes.length else event.numBytesWritten) := by
  unfold AStatsEvent.append
  rcases h.overflows hfits with ⟨hover, heq⟩ | ⟨hle, bufSize, heq, hsize, hgrown, hmost⟩
  · rw [heq, if_neg (not_le.2 hover)]
    exact ⟨⟨⟨h.written, h.least, h.most⟩, le_refl _, rfl⟩, rfl⟩
  · rw [heq, if_pos hle]
    refine ⟨⟨⟨?_, h.least.trans hgrown, hmost⟩, hgrown, rfl⟩, Nat.mod_eq_of_lt hfits⟩
    exact (Nat.mod_le _ _).trans hsize

theorem Sound.touches_append (h : Sound event)
    (hfits : event.numBytesWritten + bytes.length < 2 ^ 64) : ∀ t ∈ (Step.append bytes).touches event, t.Ok := by
  have hpull : MAX_PULL_EVENT_PAYLOAD = 51200 := rfl
  have hpush : MAX_PUSH_EVENT_PAYLOAD = 4064 := rfl
  have hleast := h.least
  simp only [Step.touches, Nat.mod_eq_of_lt hfits]
  rcases h.overflows hfits with ⟨hover, heq⟩ | ⟨hle, bufSize, heq, hsize, -, -⟩
  · rw [if_pos hover]
    exact List.forall_mem_nil _
  · rw [if_neg (not_lt.2 hle), heq, List.forall_mem_append, List.forall_mem_singleton]
    refine ⟨?_, fun i _ hi => hi.trans_le hsize⟩
    split
    · rename_i hgrow
      exact List.forall_mem_singleton.2 (growLoop_ends (by omega) hgrow.2.le (by omega))
    · exact List.forall_mem_nil _

theorem overflows_bufSize_le (h : event.bufSize ≤ MAX_PULL_EVENT_PAYLOAD) (size : Nat) :
    (event.overflows size).1.bufSize ≤ MAX_PULL_EVENT_PAYLOAD := by
  unfold AStatsEvent.overflows
  dsimp only
  split
  · exact h
  · split
    · exact min_le_right _ _
    · exact h

theorem Sound.touches_wrapped (h : Sound event) (hsize : bytes.length < 2 ^ 64)
    (hwraps : 2 ^ 64 ≤ event.numBytesWritten + bytes.length) : ¬ ∀ t ∈ (Step.append bytes).touches event, t.Ok := by
  have hpull : MAX_PULL_EVENT_PAYLOAD = 51200 := rfl
  have hwritten := h.written.trans h.most
  have hbuf := overflows_bufSize_le h.most bytes.length
  have hle : ¬ (event.numBytesWritten + bytes.length) % 2 ^ 64 > MAX_PULL_EVENT_PAYLOAD := by omega
  intro hok
  unfold Step.touches at hok
  dsimp only at hok
  rw [if_neg hle] at hok
  have haccess : (Touch.access event.numBytesWritten bytes.length (event.overflows bytes.length).1.bufSize).Ok :=
    hok _ (List.mem_append_right _ (List.mem_singleton.2 rfl))
  have hlast : event.numBytesWritten + bytes.length - 1 < (event.overflows bytes.length).1.bufSize :=
    haccess _ (by omega) (by omega)
  omega

/-! ## Steps of a call -/

/-- Besides the sizes: the last field starts inside the buffer, or at its limit. -/
structure Inv (event : AStatsEvent) : Prop where
  sound : Sound event
  last : event.lastFieldPos < event.bufSize ∨ event.lastFieldPos = MAX_PULL_EVENT_PAYLOAD

theorem Inv.extends {event event' : AStatsEvent} (h : Inv event) (h' : Extends event event') : Inv event' := by
  refine ⟨h'.sound, ?_⟩
  rw [h'.last]
  exact h.last.imp_left fun hlt => hlt.trans_le h'.bufSize

/-- A step that can go nowhere wrong. -/
def Step.Small : Step → Prop
  | append bytes => bytes.length ≤ MAX_PULL_EVENT_PAYLOAD
  | store pos bytes => pos + bytes.length ≤ MAX_PUSH_EVENT_PAYLOAD
  | markField => False
  | patchField => False
  | _ => True

theorem Sound.small (h : Sound event) {step : Step} (hsmall : step.Small) :
    Extends event (step.run event) ∧ ∀ t ∈ step.touches event, t.Ok := by
  have hpull : MAX_PULL_EVENT_PAYLOAD = 51200 := rfl
  have hwritten := h.written
  have hleast := h.least
  have hmost := h.most
  cases step with
  | error e => exact ⟨⟨⟨hwritten, hleast, hmost⟩, le_refl _, rfl⟩, List.forall_mem_nil _⟩
  | setAtomId atomId => exact ⟨⟨⟨hwritten, hleast, hmost⟩, le_refl _, rfl⟩, List.forall_mem_nil _⟩
  | setBuilt => exact ⟨⟨⟨hwritten, hleast, hmost⟩, le_refl _, rfl⟩, List.forall_mem_nil _⟩
  | countElement => exact ⟨⟨⟨hwritten, hleast, hmost⟩, le_refl _, rfl⟩, List.forall_mem_nil _⟩
  | rewind => exact ⟨⟨⟨le_trans (show POS_ATOM_ID + 1 + 4 ≤ MAX_PUSH_EVENT_PAYLOAD by decide) hleast, hleast, hmost⟩, le_refl _, rfl⟩, List.forall_mem_nil _⟩
  | markField => cases hsmall
  | patchField => cases hsmall
  | append bytes =>
    have hle : bytes.length ≤ MAX_PULL_EVENT_PAYLOAD := hsmall
    have hfits : event.numBytesWritten + bytes.length < 2 ^ 64 := by omega
    exact ⟨(h.append hfits).1, h.touches_append hfits⟩
  | store pos bytes =>
    have hle : pos + bytes.length ≤ MAX_PUSH_EVENT_PAYLOAD := hsmall
    exact ⟨⟨⟨hwritten, hleast, hmost⟩, le_refl _, rfl⟩,
      List.forall_mem_singleton.2 fun i _ hi => hi.trans_le (hle.trans hleast)⟩
  | send =>
    refine ⟨⟨⟨hwritten, hleast, hmost⟩, le_refl _, rfl⟩, List.forall_mem_singleton.2 fun i _ hi => ?_⟩
    rw [Nat.zero_add] at hi
    exact hi.trans_le hwritten

theorem touchesOf_append (event : AStatsEvent) (l l' : List Step) :
    touchesOf event (l ++ l') = touchesOf event l ++ touchesOf (l.foldl Step.run event) l' := by
  induction l generalizing event with
  | nil => rfl
  | cons step l ih => rw [List.cons_append, touchesOf, touchesOf, ih, List.append_assoc, List.foldl_cons]

/-- Steps that keep the invariant and touch only the buffer. -/
structure SafeSteps (event : AStatsEvent) (steps : List Step) : Prop where
  inv : Inv (steps.foldl Step.run event)
  touches : ∀ t ∈ touchesOf event steps, t.Ok

theorem SafeSteps.append {l l' : List Step} (h : SafeSteps event l)
    (h' : Inv (l.foldl Step.run event) → SafeSteps (l.foldl Step.run event) l') : SafeSteps event (l ++ l') := by
  obtain ⟨hinv, htouches⟩ := h' h.inv
  refine ⟨by rwa [List.foldl_append], ?_⟩
  rw [touchesOf_append, List.forall_mem_append]
  exact ⟨h.touches, htouches⟩

theorem Extends.trans {e e' e'' : AStatsEvent} (h : Extends e e') (h' : Extends e' e'') : Extends e e'' :=
  ⟨h'.sound, h.bufSize.trans h'.bufSize, h'.last.trans h.last⟩

theorem Sound.smalls (h : Sound event) {steps : List Step} (hsmall : ∀ step ∈ steps, step.Small) :
    Extends event (steps.foldl Step.run event) ∧ ∀ t ∈ touchesOf event steps, t.Ok := by
  induction steps generalizing event with
  | nil => exact ⟨⟨h, le_refl _, rfl⟩, List.forall_mem_nil _⟩
  | cons step steps ih =>
    obtain ⟨hstep, hsteps⟩ := List.forall_mem_cons.1 hsmall
    obtain ⟨hextends, htouches⟩ := h.small hstep
    obtain ⟨hrest, hrestTouches⟩ := ih hextends.sound hsteps
    exact ⟨hextends.trans hrest, List.forall_mem_append.2 ⟨htouches, hrestTouches⟩⟩

theorem Inv.small (h : Inv event) {steps : List Step} (hsmall : ∀ step ∈ steps, step.Small) :
    SafeSteps event steps :=
  ⟨h.extends (h.sound.smalls hsmall).1, (h.sound.smalls hsmall).2⟩

theorem Inv.field (h : Inv event) (typeId : Nat) : SafeSteps event (fieldSteps typeId) := by
  have hpull : MAX_PULL_EVENT_PAYLOAD = 51200 := rfl
  have hwritten := h.sound.written
  have hmost := h.sound.most
  have hmarked : Sound (Step.markField.run event) := ⟨hwritten, h.sound.least, hmost⟩
  have hfits : (Step.markField.run event).numBytesWritten + [UInt8.ofNat typeId].length < 2 ^ 64 := by
    change event.numBytesWritten + 1 < 2 ^ 64
    omega
  obtain ⟨hextends, hn⟩ := hmarked.append hfits
  have hlast : ((Step.markField.run event).append [UInt8.ofNat typeId]).lastFieldPos = event.numBytesWritten := hextends.last
  refine ⟨⟨⟨hextends.sound.written, hextends.sound.least, hextends.sound.most⟩, ?_⟩, ?_⟩
  · change ((Step.markField.run event).append [UInt8.ofNat typeId]).lastFieldPos <
      ((Step.markField.run event).append [UInt8.ofNat typeId]).bufSize ∨
      ((Step.markField.run event).append [UInt8.ofNat typeId]).lastFieldPos = MAX_PULL_EVENT_PAYLOAD
    have hsound := hextends.sound.written
    rw [hlast]
    rw [hn] at hsound
    change (if event.numBytesWritten + 1 ≤ MAX_PULL_EVENT_PAYLOAD then event.numBytesWritten + 1
      else event.numBytesWritten) ≤ _ at hsound
    split at hsound
    · exact .inl hsound
    · exact .inr (by omega)
  · have htouches := hmarked.touches_append hfits
    simpa [fieldSteps, touchesOf, Step.touches] using htouches

/-! ## Calls of the interface -/

/-- The bytes written once the type and the length of a byte array are, as far as they fit. -/
def headerEnd (event : AStatsEvent) : Nat :=
  let typeEnd := if event.numBytesWritten + 1 ≤ MAX_PULL_EVENT_PAYLOAD then event.numBytesWritten + 1 else event.numBytesWritten
  if typeEnd + 4 ≤ MAX_PULL_EVENT_PAYLOAD then typeEnd + 4 else typeEnd

namespace ApiCall

/-- The size of a byte array is a `size_t`. -/
def Representable : ApiCall → Prop
  | call (.writeByteArray buf) => (buf.getD []).length < 2 ^ 64
  | _ => True

/-- The size that a byte array needs does not wrap, and the field of an annotation that is added does not start at the
limit of the buffer. -/
def Fine (event : AStatsEvent) : ApiCall → Prop
  | call (.writeByteArray buf) => headerEnd event + (buf.getD []).length < 2 ^ 64
  | call (.annotateBool annotationId _) =>
    2 ≤ event.numElements → annotationId.toNat ≤ MAX_BYTE_VALUE → event.lastFieldPos < MAX_PULL_EVENT_PAYLOAD
  | call (.annotateInt32 annotationId _) =>
    2 ≤ event.numElements → annotationId.toNat ≤ MAX_BYTE_VALUE → event.lastFieldPos < MAX_PULL_EVENT_PAYLOAD
  | _ => True

end ApiCall

theorem small_stringSteps (buf : List UInt8) : ∀ step ∈ stringSteps buf, step.Small := by
  unfold stringSteps
  dsimp only
  split
  · exact List.forall_mem_singleton.2 trivial
  · refine List.forall_mem_cons.2 ⟨?_, List.forall_mem_singleton.2 ?_⟩
    · change (leBytes 4 _).length ≤ _
      rw [length_leBytes]
      decide
    · exact (List.length_take_le _ _).trans (min_le_right _ _)

theorem small_append (h : bytes.length ≤ 8) : (Step.append bytes).Small := h.trans (by decide)

theorem small_byte (b : UInt8) : (Step.append [b]).Small := by
  change 1 ≤ MAX_PULL_EVENT_PAYLOAD
  decide

theorem small_number (k value : Nat) (h : k ≤ 8) : (Step.append (leBytes k value)).Small :=
  small_append (by rwa [length_leBytes])

theorem Inv.fieldWith (h : Inv event) (typeId : Nat) {steps : List Step}
    (hsmall : ∀ step ∈ steps, step.Small) : SafeSteps event (fieldSteps typeId ++ steps) :=
  (h.field typeId).append fun hinv => hinv.small hsmall

theorem Inv.patch (h : Inv event) : Inv (Step.patchField.run event) := by
  change Inv (increment_annotation_count event)
  unfold increment_annotation_count
  dsimp only
  split
  · exact h.extends ⟨⟨h.sound.written, h.sound.least, h.sound.most⟩, le_refl _, rfl⟩
  · exact h.extends ⟨⟨h.sound.written, h.sound.least, h.sound.most⟩, le_refl _, rfl⟩

theorem Inv.written_header (h : Inv event) (typeId value : Nat) :
    ((fieldSteps typeId ++ [Step.append (leBytes 4 value)]).foldl Step.run event).numBytesWritten = headerEnd event := by
  have hpull : MAX_PULL_EVENT_PAYLOAD = 51200 := rfl
  have hwritten := h.sound.written
  have hmost := h.sound.most
  have hmarked : Sound (Step.markField.run event) := ⟨hwritten, h.sound.least, hmost⟩
  have htype : (Step.markField.run event).numBytesWritten + [UInt8.ofNat typeId].length < 2 ^ 64 := by
    change event.numBytesWritten + 1 < 2 ^ 64
    omega
  obtain ⟨hextends, hn⟩ := hmarked.append htype
  have hcounted : Sound (Step.countElement.run ((Step.markField.run event).append [UInt8.ofNat typeId])) :=
    ⟨hextends.sound.written, hextends.sound.least, hextends.sound.most⟩
  have hfits : (Step.countElement.run ((Step.markField.run event).append [UInt8.ofNat typeId])).numBytesWritten +
      (leBytes 4 value).length < 2 ^ 64 := by
    have hle := hcounted.written.trans hcounted.most
    rw [length_leBytes]
    omega
  have hvalue := (hcounted.append hfits).2
  rw [length_leBytes] at hvalue
  change _ = if _ then _ else _
  refine hvalue.trans ?_
  change (if ((Step.markField.run event).append [UInt8.ofNat typeId]).numBytesWritten + 4 ≤ MAX_PULL_EVENT_PAYLOAD then
    ((Step.markField.run event).append [UInt8.ofNat typeId]).numBytesWritten + 4 else
    ((Step.markField.run event).append [UInt8.ofNat typeId]).numBytesWritten) = _
  rw [hn]
  rfl

theorem not_ok_append {l : List Step} {step : Step} {rest : List Step}
    (hstep : ¬ ∀ t ∈ step.touches (l.foldl Step.run event), t.Ok) : ¬ ∀ t ∈ touchesOf event (l ++ step :: rest), t.Ok := by
  intro h
  rw [touchesOf_append, List.forall_mem_append] at h
  exact hstep (List.forall_mem_append.1 h.2).1

theorem Inv.byteArray (h : Inv event) (buf : Option (List UInt8))
    (hrep : (buf.getD []).length < 2 ^ 64) :
    (ApiCall.Fine event (.call (.writeByteArray buf)) → SafeSteps event ((Call.writeByteArray buf).steps event)) ∧
      (¬ ApiCall.Fine event (.call (.writeByteArray buf)) →
        ¬ ∀ t ∈ touchesOf event ((Call.writeByteArray buf).steps event), t.Ok) := by
  have hend := h.written_header BYTE_ARRAY_TYPE (buf.getD []).length
  have hheader := h.fieldWith BYTE_ARRAY_TYPE (List.forall_mem_singleton.2 (small_number 4 (buf.getD []).length (by decide)))
  have hwritten := hheader.inv.sound.written.trans hheader.inv.sound.most
  rw [hend] at hwritten
  have hpull : MAX_PULL_EVENT_PAYLOAD = 51200 := rfl
  constructor
  · intro hfine
    have hfits : headerEnd event + (buf.getD []).length < 2 ^ 64 := hfine
    refine hheader.append fun hinv => ?_
    split
    · refine ⟨hinv.extends (hinv.sound.append (hend ▸ hfits)).1, ?_⟩
      rw [touchesOf, touchesOf, List.append_nil]
      exact hinv.sound.touches_append (hend ▸ hfits)
    · exact hinv.small (List.forall_mem_nil _)
  · intro hnot
    have hwraps : 2 ^ 64 ≤ headerEnd event + (buf.getD []).length := not_lt.1 hnot
    have hpos : (buf.getD []).length > 0 := by omega
    simp only [Call.steps]
    rw [if_pos hpos]
    exact not_ok_append (hheader.inv.sound.touches_wrapped hrep (hend ▸ hwraps))

theorem Inv.annotation (h : Inv event) (annotationId : UInt8) (typeId : Nat) {value : List UInt8}
    (hvalue : value.length ≤ 8) :
    ((2 ≤ event.numElements → annotationId.toNat ≤ MAX_BYTE_VALUE → event.lastFieldPos < MAX_PULL_EVENT_PAYLOAD) →
        SafeSteps event (annotationSteps event annotationId typeId value)) ∧
      (¬ (2 ≤ event.numElements → annotationId.toNat ≤ MAX_BYTE_VALUE → event.lastFieldPos < MAX_PULL_EVENT_PAYLOAD) →
        ¬ ∀ t ∈ touchesOf event (annotationSteps event annotationId typeId value), t.Ok) := by
  unfold annotationSteps
  by_cases hcount : event.numElements < 2
  · rw [if_pos hcount]
    exact ⟨fun _ => h.small (List.forall_mem_singleton.2 trivial), fun hnot => absurd (fun h2 => absurd hcount (not_lt.2 h2)) hnot⟩
  by_cases hid : annotationId.toNat > MAX_BYTE_VALUE
  · rw [if_neg hcount, if_pos hid]
    exact ⟨fun _ => h.small (List.forall_mem_singleton.2 trivial),
      fun hnot => absurd (fun _ hle => absurd hid (not_lt.2 hle)) hnot⟩
  rw [if_neg hcount, if_neg hid]
  have hsmall : ∀ step ∈ [Step.append [UInt8.ofNat annotationId.toNat], .append [UInt8.ofNat typeId], .append value],
      step.Small :=
    List.forall_mem_cons.2 ⟨small_byte _, List.forall_mem_cons.2 ⟨small_byte _, List.forall_mem_singleton.2
      (small_append hvalue)⟩⟩
  obtain ⟨hextends, htouches⟩ := h.sound.smalls hsmall
  have hinv := h.extends hextends
  have hsteps : [Step.append [UInt8.ofNat annotationId.toNat], .append [UInt8.ofNat typeId], .append value, .patchField] =
      [Step.append [UInt8.ofNat annotationId.toNat], .append [UInt8.ofNat typeId], .append value] ++ [.patchField] := rfl
  rw [hsteps]
  constructor
  · intro hfine
    have hlt := hfine (not_lt.1 hcount) (not_lt.1 hid)
    rw [← hextends.last] at hlt
    refine SafeSteps.append ⟨hinv, htouches⟩ fun _ => ⟨hinv.patch, ?_⟩
    refine List.forall_mem_singleton.2 fun i hi hi' => ?_
    rcases hinv.last with hlast | hlast
    · omega
    · omega
  · intro hnot
    have hlast : event.lastFieldPos = MAX_PULL_EVENT_PAYLOAD := by
      have hmost := h.sound.most
      rcases h.last with hlast | hlast
      · exact absurd (fun _ _ => hlast.trans_le hmost) hnot
      · exact hlast
    refine not_ok_append fun hok => ?_
    have haccess := List.forall_mem_singleton.1 hok _ (le_refl _) (Nat.lt_succ_self _)
    have hmost := hextends.sound.most
    rw [hextends.last, hlast] at haccess
    exact absurd haccess (not_lt.2 hmost)

theorem small_of_if {p : Prop} [Decidable p] {x : BitVec 32} : ∀ step ∈ (if p then [Step.error x] else []), step.Small := by
  split
  · exact List.forall_mem_singleton.2 trivial
  · exact List.forall_mem_nil _

theorem Inv.build (h : Inv event) (push : Bool) : SafeSteps event (buildSteps event push) := by
  have hstore : ∀ (pos : Nat) (b : UInt8), pos < 12 → (Step.store pos [b]).Small := by
    intro pos b hpos
    change pos + 1 ≤ 4064
    omega
  unfold buildSteps
  dsimp only
  refine SafeSteps.append (SafeSteps.append (h.small ?_) fun hinv => ?_) fun hinv => ?_
  · exact List.forall_mem_append.2 ⟨List.forall_mem_append.2 ⟨small_of_if, small_of_if⟩, small_of_if⟩
  · by_cases herrors : (buildErrors event push).errors ≠ 0
    · rw [if_pos herrors]
      refine SafeSteps.append (l := [_, _]) (hinv.small ?_) fun hinv => hinv.fieldWith ERROR_TYPE ?_
      · exact List.forall_mem_cons.2 ⟨trivial, List.forall_mem_singleton.2 (hstore _ _ (by decide))⟩
      · exact List.forall_mem_singleton.2 (small_number 4 _ (by decide))
    · rw [if_neg herrors]
      exact hinv.small (List.forall_mem_nil _)
  · exact hinv.small (List.forall_mem_singleton.2 (hstore _ _ (by decide)))

theorem Inv.call (h : Inv event) {c : ApiCall} (hrep : c.Representable) :
    (c.Fine event → SafeSteps event (c.steps event)) ∧ (¬ c.Fine event → ¬ ∀ t ∈ c.touches event, t.Ok) := by
  have hsafe : ∀ {c : ApiCall}, c.Fine event → SafeSteps event (c.steps event) →
      (c.Fine event → SafeSteps event (c.steps event)) ∧ (¬ c.Fine event → ¬ ∀ t ∈ c.touches event, t.Ok) :=
    fun hfine hs => ⟨fun _ => hs, fun hnot => absurd hfine hnot⟩
  cases c with
  | overwriteTimestamp timestampNs =>
    refine hsafe trivial (h.small (List.forall_mem_singleton.2 ?_))
    change POS_TIMESTAMP + 1 + (leBytes 8 _).length ≤ _
    rw [length_leBytes]
    decide
  | build =>
    refine hsafe trivial ?_
    rw [ApiCall.steps]
    split
    · exact h.small (List.forall_mem_nil _)
    · exact (h.build false).append fun hinv => hinv.small (List.forall_mem_singleton.2 trivial)
  | write => exact hsafe trivial ((h.build true).append fun hinv => hinv.small (List.forall_mem_singleton.2 trivial))
  | call c =>
    cases c with
    | setAtomId atomId =>
      refine hsafe trivial ?_
      rw [ApiCall.steps, Call.steps]
      split
      · exact h.small (List.forall_mem_nil _)
      · split
        · exact h.small (List.forall_mem_singleton.2 trivial)
        · refine SafeSteps.append (l := [_]) (h.small (List.forall_mem_singleton.2 trivial)) fun hinv => ?_
          exact hinv.fieldWith _ (List.forall_mem_singleton.2 (small_number 4 _ (by decide)))
    | writeInt32 value => exact hsafe trivial (h.fieldWith _ (List.forall_mem_singleton.2 (small_number 4 _ (by decide))))
    | writeInt64 value => exact hsafe trivial (h.fieldWith _ (List.forall_mem_singleton.2 (small_number 8 _ (by decide))))
    | writeFloat value => exact hsafe trivial (h.fieldWith _ (List.forall_mem_singleton.2 (small_number 4 _ (by decide))))
    | writeBool value => exact hsafe trivial (h.fieldWith _ (List.forall_mem_singleton.2 (small_byte _)))
    | writeByteArray buf => exact h.byteArray buf hrep
    | writeString value => exact hsafe trivial (h.fieldWith _ (small_stringSteps _))
    | writeAttributionChain nodes =>
      refine hsafe trivial ?_
      rw [ApiCall.steps, Call.steps]
      split
      · exact h.small (List.forall_mem_singleton.2 trivial)
      · refine SafeSteps.append (h.fieldWith _ (List.forall_mem_singleton.2 (small_byte _))) fun hinv => ?_
        refine hinv.small fun step hstep => ?_
        obtain ⟨node, -, hstep⟩ := List.mem_flatMap.1 hstep
        rcases List.mem_cons.1 hstep with rfl | hstep
        · exact small_number 4 _ (by decide)
        · exact small_stringSteps _ step hstep
    | annotateBool annotationId value => exact h.annotation annotationId BOOL_TYPE (show 1 ≤ 8 by decide)
    | annotateInt32 annotationId value => exact h.annotation annotationId INT32_TYPE (by rw [length_leBytes]; decide)

/-! ## Whole runs -/

/-- A new event before its timestamp is written. -/
def newEvent : AStatsEvent where
  buf := Memory.write (fun _ => 0) 0 [UInt8.ofNat OBJECT_TYPE]
  lastFieldPos := 0
  numBytesWritten := 2
  numElements := 0
  atomId := 0
  errors := 0
  built := false
  bufSize := MAX_PUSH_EVENT_PAYLOAD

theorem inv_newEvent : Inv newEvent := ⟨⟨by decide, by decide, by decide⟩, .inl (by decide)⟩

/-- Each call touches only the buffer, which keeps to its sizes. -/
def RunSafe : AStatsEvent → List ApiCall → Prop
  | _, [] => True
  | event, c :: calls =>
    (∀ t ∈ c.touches event, t.Ok) ∧
      ((c.run event).numBytesWritten ≤ (c.run event).bufSize ∧ (c.run event).bufSize ≤ MAX_PULL_EVENT_PAYLOAD) ∧
      RunSafe (c.run event) calls

/-- Each call is fine where it is made. -/
def RunFine : AStatsEvent → List ApiCall → Prop
  | _, [] => True
  | event, c :: calls => c.Fine event ∧ RunFine (c.run event) calls

theorem Inv.run_iff (h : Inv event) {calls : List ApiCall} (hrep : ∀ c ∈ calls, c.Representable) :
    RunSafe event calls ↔ RunFine event calls := by
  induction calls generalizing event with
  | nil => exact Iff.rfl
  | cons c calls ih =>
    obtain ⟨hc, hcalls⟩ := List.forall_mem_cons.1 hrep
    obtain ⟨hsafe, hunsafe⟩ := h.call hc
    by_cases hfine : c.Fine event
    · obtain ⟨hinv, htouches⟩ := hsafe hfine
      rw [c.run_steps event] at hinv
      rw [RunSafe, RunFine, ih hinv hcalls]
      exact ⟨fun hrun => ⟨hfine, hrun.2.2⟩, fun hrun => ⟨htouches, ⟨hinv.sound.written, hinv.sound.most⟩, hrun.2⟩⟩
    · exact iff_of_false (fun hrun => hunsafe hfine hrun.1) fun hrun => hfine hrun.1

/-- A run of calls on a new event reads and writes only its buffer exactly when no byte array's size wraps and no
annotation is added to a field that starts at the limit of the buffer. -/
theorem builder_safe_iff (timestamp : BitVec 64) (calls : List ApiCall) (hrep : ∀ c ∈ calls, c.Representable) :
    RunSafe newEvent (.call (.writeInt64 timestamp) :: calls) ↔ RunFine (AStatsEvent_obtain timestamp) calls := by
  have hfirst : (ApiCall.call (.writeInt64 timestamp)).Representable := trivial
  exact (inv_newEvent.run_iff (List.forall_mem_cons.2 ⟨hfirst, hrep⟩)).trans (and_iff_right trivial)

/-- A run that is fine: a field with an annotation. -/
theorem builder_safe_sample :
    RunSafe newEvent [.call (.writeInt64 7), .call (.setAtomId 10), .call (.writeBool true), .call (.annotateBool 1 true)] := by
  refine (builder_safe_iff 7 _ ?_).2 ?_
  · simp [ApiCall.Representable]
  · refine ⟨trivial, trivial, fun _ _ => ?_, trivial⟩
    decide +kernel

/-- An array, and a field behind it with an annotation. -/
def fillingCalls (bytes : List UInt8) : List ApiCall :=
  [.call (.writeByteArray (some bytes)), .call (.writeBool true), .call (.annotateBool 1 true)]

theorem filling_not_fine (hlen : bytes.length = 51184) :
    ¬ RunFine (AStatsEvent_obtain 0) (fillingCalls bytes) := by
  rintro ⟨-, -, hfine, -⟩
  have hpull : MAX_PULL_EVENT_PAYLOAD = 51200 := rfl
  obtain ⟨-, hn0, -, hcount0, -⟩ := obtain_spec 0
  have hheader : (AStatsEvent_obtain 0).numBytesWritten + 1 + (leBytes 4 bytes.length).length ≤ MAX_PULL_EVENT_PAYLOAD := by
    rw [hn0, length_leBytes]
    decide
  obtain ⟨-, hn1, -, hcount1, -⟩ := field_fits BYTE_ARRAY_TYPE _ hheader
  rw [hn0, length_leBytes] at hn1
  have hfits : (((AStatsEvent_obtain 0).start_field BYTE_ARRAY_TYPE).append (leBytes 4 bytes.length)).numBytesWritten +
      bytes.length ≤ MAX_PULL_EVENT_PAYLOAD := by
    rw [hn1, hlen]
    decide
  obtain ⟨-, hn2, -, hcount2, -⟩ := append_fits bytes hfits
  rw [hcount1, hcount0] at hcount2
  have harray : (ApiCall.call (.writeByteArray (some bytes))).run (AStatsEvent_obtain 0) =
      (((AStatsEvent_obtain 0).start_field BYTE_ARRAY_TYPE).append (leBytes 4 bytes.length)).append bytes := by
    change AStatsEvent_writeByteArray _ _ = _
    rw [AStatsEvent_writeByteArray, Option.getD_some]
    exact if_pos (by omega)
  rw [harray] at hfine
  generalize (((AStatsEvent_obtain 0).start_field BYTE_ARRAY_TYPE).append (leBytes 4 bytes.length)).append bytes = e
    at hn2 hcount2 hfine
  have hfull : e.numBytesWritten = 51200 := by
    rw [hn2, hn1, hlen]
  have hmax : e.numBytesWritten ≤ MAX_PULL_EVENT_PAYLOAD := le_of_eq hfull
  have hwrites := @Call.run_writes (.writeBool true) trivial _ rfl e hmax
  have hcount : 2 ≤ ((Call.writeBool true).run e).numElements := by
    rw [hwrites.count, hcount2]
    decide
  have hlast := hfine hcount (by decide)
  change ((Call.writeBool true).run e).lastFieldPos < _ at hlast
  rw [hwrites.last, hfull] at hlast
  exact absurd hlast (lt_irrefl _)

/-- The annotation is counted in the byte behind the buffer. -/
theorem full_buffer_patched_outside :
    ¬ ∀ (timestamp : BitVec 64) (calls : List ApiCall), (∀ c ∈ calls, c.Representable) →
      RunSafe newEvent (.call (.writeInt64 timestamp) :: calls) := by
  intro h
  obtain ⟨bytes, hlen⟩ : ∃ bytes : List UInt8, bytes.length = 51184 := ⟨List.replicate 51184 0, List.length_replicate⟩
  have hrep : ∀ c ∈ fillingCalls bytes, c.Representable := by
    refine List.forall_mem_cons.2 ⟨?_, List.forall_mem_cons.2 ⟨trivial, List.forall_mem_singleton.2 trivial⟩⟩
    change bytes.length < 2 ^ 64
    omega
  exact filling_not_fine hlen ((builder_safe_iff 0 _ hrep).1 (h 0 _ hrep))

end Statsd.Libstatssocket
