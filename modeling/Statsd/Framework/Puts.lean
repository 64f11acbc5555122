/-
What the calls of the builder put into its buffer. Every field is a list of puts, the types of the field and of its
pairs among them; a put stores its bytes behind the valid ones, overflows, or runs off the array.
-/
import Statsd.Framework.StatsEvent
import Statsd.Libstatssocket.Written

namespace Statsd.Framework

open Libstatssocket (Content Annotation stringBytes annotationBytes)

/-! ## The buffer -/

theorem lt_grow (total : Nat) {size : Nat} (h : 0 < size) : total < Libstatssocket.AStatsEvent.grow total size := by
  induction size using Libstatssocket.AStatsEvent.grow.induct total with
  | case1 size hcond ih =>
    rw [Libstatssocket.AStatsEvent.grow, if_pos hcond]
    exact ih (by omega)
  | case2 size hcond =>
    rw [Libstatssocket.AStatsEvent.grow, if_neg hcond]
    omega

theorem toInt_ofNat {n : Nat} (h : n < 2 ^ 32) : (BitVec.ofNat 32 n).toInt = if n < 2 ^ 31 then (n : Int) else n - 2 ^ 32 := by
  rw [BitVec.toInt_eq_toNat_cond, BitVec.toNat_ofNat, Nat.mod_eq_of_lt h]
  split <;> split <;> omega

namespace Buffer

/-- The sizes that a buffer can have. -/
structure Sized (b : Buffer) : Prop where
  min : MAX_PUSH_PAYLOAD_SIZE ≤ b.length
  le : b.length ≤ MAX_PULL_PAYLOAD_SIZE
  max : b.mMaxSize = MAX_PUSH_PAYLOAD_SIZE ∨ b.mMaxSize = MAX_PULL_PAYLOAD_SIZE

/-- Bytes stored from an index on. -/
structure Stored (index : Nat) (bytes : List UInt8) (b b' : Buffer) : Prop where
  sized : b'.Sized
  length : b.length ≤ b'.length
  fits : index + bytes.length ≤ b'.length
  overflow : b'.mOverflow = b.mOverflow
  agree : ∀ i < b.length, b'.mBytes i = b.mBytes.write index bytes i
  stored : b'.mBytes.read index bytes.length = bytes

theorem store_stored {b : Buffer} (h : b.Sized) {index : Nat} {bytes : List UInt8} (hfits : index + bytes.length ≤ b.length) :
    ∃ b', b.store index bytes = some b' ∧ Stored index bytes b b' := by
  exact ⟨_, if_pos hfits, ⟨h.min, h.le, h.max⟩, le_refl _, hfits, rfl, fun _ _ => rfl, Memory.read_write _ _ _⟩

/-- A put of bytes behind which the index is an `int` stores them or overflows; any other is an exception. -/
theorem put_cases {b : Buffer} (h : b.Sized) {index : Nat} (hindex : index ≤ b.length) {bytes : List UInt8}
    (hbytes : bytes.length < 2 ^ 31) :
    (2 ^ 31 ≤ index + bytes.length ∧ b.put index bytes = none) ∨
    (index + bytes.length < 2 ^ 31 ∧ b.mMaxSize < index + bytes.length ∧ b.put index bytes = some ({ b with mOverflow := true }, 0)) ∨
    (index + bytes.length < 2 ^ 31 ∧ ∃ b', b.put index bytes = some (b', bytes.length) ∧ Stored index bytes b b') := by
  have hpush : MAX_PUSH_PAYLOAD_SIZE = 4064 := rfl
  have hpull : MAX_PULL_PAYLOAD_SIZE = 51200 := rfl
  have hmin := h.min
  have hle := h.le
  have hmax := h.max
  unfold put hasEnoughSpace
  rw [toInt_ofNat (by omega)]
  dsimp only
  by_cases hint : index + bytes.length < 2 ^ 31
  · rw [if_pos hint]
    by_cases hover : ((index + bytes.length : Nat) : Int) > b.mMaxSize
    · rw [if_pos hover]
      exact .inr (.inl ⟨hint, by omega, rfl⟩)
    · rw [if_neg hover]
      refine .inr (.inr ⟨hint, ?_⟩)
      by_cases hgrow : b.length < b.mMaxSize ∧ ((index + bytes.length : Nat) : Int) > b.length
      · rw [if_pos hgrow, Int.toNat_natCast]
        have hlt := lt_grow (index + bytes.length) (show 0 < b.length by omega)
        generalize Libstatssocket.AStatsEvent.grow (index + bytes.length) b.length = grown at hlt
        -- the grown buffer has the old bytes
        have hsized : (b.copyOf (Min.min grown b.mMaxSize)).Sized := by
          refine ⟨?_, ?_, h.max⟩
          · change MAX_PUSH_PAYLOAD_SIZE ≤ Min.min grown b.mMaxSize
            omega
          · change Min.min grown b.mMaxSize ≤ MAX_PULL_PAYLOAD_SIZE
            omega
        have hfits : index + bytes.length ≤ (b.copyOf (Min.min grown b.mMaxSize)).length := by
          change index + bytes.length ≤ Min.min grown b.mMaxSize
          omega
        obtain ⟨b', hstore, hstored⟩ := store_stored hsized hfits
        have hlength : b.length ≤ (b.copyOf (Min.min grown b.mMaxSize)).length := by
          change b.length ≤ Min.min grown b.mMaxSize
          omega
        simp only [if_true, hstore, Option.map_some]
        refine ⟨b', rfl, hstored.sized, hlength.trans hstored.length, hstored.fits, hstored.overflow, ?_, hstored.stored⟩
        intro i hi
        have hold : (b.copyOf (Min.min grown b.mMaxSize)).mBytes i = b.mBytes i := if_pos hi
        rw [hstored.agree i (by omega)]
        unfold Memory.write
        rw [hold]
      · rw [if_neg hgrow]
        have hfits : index + bytes.length ≤ b.length := by omega
        obtain ⟨b', hstore, hstored⟩ := store_stored h hfits
        simp only [if_true, hstore, Option.map_some]
        exact ⟨b', rfl, hstored⟩
  · -- the sum is negative
    have hover : ¬ ((index + bytes.length : Nat) : Int) - 2 ^ 32 > b.mMaxSize := by omega
    have hgrow : ¬ (b.length < b.mMaxSize ∧ ((index + bytes.length : Nat) : Int) - 2 ^ 32 > b.length) := by omega
    have hstore : b.store index bytes = none := if_neg (by omega)
    rw [if_neg hint, if_neg hover, if_neg hgrow]
    simp only [if_true, hstore, Option.map_none]
    exact .inl ⟨by omega, True.intro⟩

end Buffer

/-! ## Puts -/

/-- A put: the type of a field or of a pair, or bytes. -/
inductive Put where
  | typeId (typeId : Nat)
  | bytes (bytes : List UInt8)

namespace Put

def data : Put → List UInt8
  | typeId t => [UInt8.ofNat (t &&& 0x0F)]
  | bytes l => l

def run (b : Builder) : Put → Option Builder
  | typeId t => b.writeTypeId t
  | bytes l => b.put (·.put · l)

end Put

def putBytes (ps : List Put) : List UInt8 := ps.flatMap Put.data

/-- Puts around their last type. -/
structure Wire where
  front : List UInt8
  typeId : Nat
  back : List UInt8

def wireOf : List Put → Option Wire
  | [] => none
  | p :: ps =>
    match wireOf ps, p with
    | some w, p => some { w with front := p.data ++ w.front }
    | none, .typeId t => some ⟨[], t, putBytes ps⟩
    | none, .bytes _ => none

/-- The bytes with the annotations: the last type counts them, and they come last. -/
def Wire.bytes (w : Wire) (annotations : List Annotation) : List UInt8 :=
  w.front ++ UInt8.ofNat (w.typeId + 16 * annotations.length) :: (w.back ++ annotationBytes annotations)

theorem putBytes_cons (p : Put) (ps : List Put) : putBytes (p :: ps) = p.data ++ putBytes ps := List.flatMap_cons ..

theorem putBytes_eq {ps : List Put} {w : Wire} (h : wireOf ps = some w) :
    putBytes ps = w.front ++ UInt8.ofNat (w.typeId &&& 0x0F) :: w.back := by
  induction ps generalizing w with
  | nil => cases h
  | cons p ps ih =>
    unfold wireOf at h
    rw [putBytes_cons]
    split at h
    · rename_i w' hw
      cases h
      rw [ih hw, List.append_assoc]
    · cases h
      rfl
    · cases h

namespace Builder

/-- `puts` in order. -/
def puts (b : Builder) (ps : List Put) : Option Builder := ps.foldlM Put.run b

/-- No put runs off the array: the index behind its bytes is an `int`. -/
def PutsFit : Builder → List Put → Prop
  | _, [] => True
  | b, p :: ps => b.mPos + p.data.length < 2 ^ 31 ∧ ∀ b', p.run b = some b' → b'.PutsFit ps

def payload (b : Builder) : List UInt8 := b.mBuffer.mBytes.read 0 b.mPos

theorem length_payload (b : Builder) : b.payload.length = b.mPos := Memory.length_read _ _ _

structure Sized (b : Builder) : Prop where
  buffer : b.mBuffer.Sized
  pos : b.mPos ≤ b.mBuffer.length
  last : b.mPosLastField ≤ b.mPos

variable {b : Builder}

theorem Sized.pos_le (h : b.Sized) : b.mPos ≤ 51200 := h.pos.trans h.buffer.le

/-- The last field: where its type is, its type and the number of its annotations. -/
def lastField (b : Builder) : Nat × Nat × Nat := (b.mPosLastField, b.mLastType, b.mCurrentAnnotationCount)

/-- What puts leave: whatever happens, only bytes behind the valid ones change; without an overflow the bytes are
behind them, and the last type is that of the last field. -/
structure Puts (ps : List Put) (b b' : Builder) : Prop where
  sized : b'.Sized
  le : b.mPos ≤ b'.mPos
  before : ∀ i < b.mPos, b'.mBuffer.mBytes i = b.mBuffer.mBytes i
  timestamp : b'.mTimestampNs = b.mTimestampNs
  atomId : b'.mAtomId = b.mAtomId
  count : b'.mNumElements = b.mNumElements
  errors : b'.mErrorMask = b.mErrorMask
  overflow : b'.mBuffer.mOverflow = false → b.mBuffer.mOverflow = false
  last : (wireOf ps = none ∧ b'.mPosLastField = b.mPosLastField) ∨ b.mPos ≤ b'.mPosLastField
  payload : b'.mBuffer.mOverflow = false → b'.payload = b.payload ++ putBytes ps
  marked : b'.mBuffer.mOverflow = false → b'.lastField =
    match wireOf ps with
    | none => b.lastField
    | some w => (b.mPos + w.front.length, w.typeId, 0)

theorem put_cases (h : b.Sized) {bytes : List UInt8} (hbytes : bytes.length < 2 ^ 31) :
    (2 ^ 31 ≤ b.mPos + bytes.length ∧ b.put (·.put · bytes) = none) ∨
    (b.mPos + bytes.length < 2 ^ 31 ∧ ∃ b', b.put (·.put · bytes) = some b' ∧ Puts [.bytes bytes] b b') := by
  unfold put
  dsimp only
  rcases Buffer.put_cases h.buffer h.pos hbytes with ⟨hint, heq⟩ | ⟨hint, -, heq⟩ | ⟨hint, buffer, heq, hs⟩
  · rw [heq]
    exact .inl ⟨hint, rfl⟩
  · rw [heq]
    refine .inr ⟨hint, _, rfl, ⟨⟨h.buffer.min, h.buffer.le, h.buffer.max⟩, h.pos, h.last⟩, le_refl _, fun _ _ => rfl, rfl, rfl, rfl, rfl, ?_, .inl ⟨rfl, rfl⟩,
      ?_, ?_⟩
    · intro hover
      cases hover
    · intro hover
      cases hover
    · intro hover
      cases hover
  · rw [heq]
    have hpos := h.pos
    have hsame : ∀ i < b.mPos, buffer.mBytes i = b.mBuffer.mBytes i := fun i hi => (hs.agree i (by omega)).trans (Memory.write_before _ hi)
    refine .inr ⟨hint, _, rfl, ⟨hs.sized, hs.fits, h.last.trans (Nat.le_add_right _ _)⟩, Nat.le_add_right _ _, hsame, rfl, rfl, rfl, rfl, ?_, .inl ⟨rfl, rfl⟩, ?_, ?_⟩
    · intro hover
      exact hs.overflow.symm.trans hover
    · intro _
      change buffer.mBytes.read 0 (b.mPos + bytes.length) = b.payload ++ putBytes [.bytes bytes]
      rw [Memory.read_add, Nat.zero_add, hs.stored, putBytes_cons, payload, Memory.read_congr fun i _ hi => hsame i (by omega)]
      exact congrArg _ (List.append_nil bytes).symm
    · intro _
      rfl

theorem run_cases (h : b.Sized) {p : Put} (hp : p.data.length < 2 ^ 31) :
    (2 ^ 31 ≤ b.mPos + p.data.length ∧ p.run b = none) ∨
    (b.mPos + p.data.length < 2 ^ 31 ∧ ∃ b', p.run b = some b' ∧ Puts [p] b b') := by
  cases p with
  | bytes bytes => exact put_cases h hp
  | typeId t =>
    have hstart : ({ b with mPosLastField := b.mPos, mLastType := t, mCurrentAnnotationCount := 0 } : Builder).Sized :=
      ⟨h.buffer, h.pos, le_refl _⟩
    have hone : [UInt8.ofNat (t &&& 0x0F)].length < 2 ^ 31 := show 1 < 2 ^ 31 by decide
    rcases put_cases hstart hone with ⟨hint, -⟩ | ⟨hint, b', heq, hputs⟩
    · have := h.pos_le
      change 2 ^ 31 ≤ b.mPos + 1 at hint
      omega
    · refine .inr ⟨hint, b', heq, hputs.sized, hputs.le, hputs.before, hputs.timestamp, hputs.atomId, hputs.count, hputs.errors,
        hputs.overflow, ?_, hputs.payload, ?_⟩
      · rcases hputs.last with ⟨-, hlast⟩ | hlast
        · exact .inr (le_of_eq hlast.symm)
        · exact .inr hlast
      · intro hover
        exact hputs.marked hover

theorem puts_cases (ps : List Put) (hps : ∀ p ∈ ps, p.data.length < 2 ^ 31) (h : b.Sized) :
    (b.puts ps = none ∧ ¬ b.PutsFit ps) ∨ (∃ b', b.puts ps = some b' ∧ b.PutsFit ps ∧ Puts ps b b') := by
  induction ps generalizing b with
  | nil =>
    refine .inr ⟨b, rfl, True.intro, h, le_refl _, fun _ _ => rfl, rfl, rfl, rfl, rfl, id, .inl ⟨rfl, rfl⟩, ?_, fun _ => rfl⟩
    intro _
    exact (List.append_nil _).symm
  | cons p ps ih =>
    unfold puts
    rw [List.foldlM_cons]
    rcases run_cases h (hps p List.mem_cons_self) with ⟨hint, heq⟩ | ⟨hint, b₁, heq, hone⟩
    · rw [heq]
      exact .inl ⟨rfl, fun hfit => absurd hfit.1 (by omega)⟩
    · rw [heq]
      rcases ih (fun p' hp' => hps p' (List.mem_cons_of_mem p hp')) hone.sized with ⟨hnone, hnot⟩ | ⟨b', hsome, hfit, hrest⟩
      · exact .inl ⟨hnone, fun hall => hnot (hall.2 b₁ heq)⟩
      · refine .inr ⟨b', hsome, ⟨hint, fun b₂ h₂ => ?_⟩, hrest.sized, hone.le.trans hrest.le, ?_, hrest.timestamp.trans hone.timestamp,
          hrest.atomId.trans hone.atomId, hrest.count.trans hone.count, hrest.errors.trans hone.errors,
          fun hover => hone.overflow (hrest.overflow hover), ?_, ?_, ?_⟩
        · rw [heq] at h₂
          cases h₂
          exact hfit
        · intro i hi
          rw [hrest.before i (lt_of_lt_of_le hi hone.le), hone.before i hi]
        · rcases hrest.last with ⟨hw, hlast⟩ | hlast
          · rw [hlast]
            refine hone.last.imp_left fun h => ⟨?_, h.2⟩
            cases p with
            | typeId t => cases h.1
            | bytes bytes =>
              unfold wireOf
              rw [hw]
          · exact .inr (hone.le.trans hlast)
        · intro hover
          rw [hrest.payload hover, hone.payload (hrest.overflow hover), putBytes_cons, putBytes_cons, List.append_assoc,
            List.append_assoc]
          rfl
        · intro hover
          have hover₁ := hrest.overflow hover
          have hpos : b₁.mPos = b.mPos + p.data.length := by
            have hlen := congrArg List.length (hone.payload hover₁)
            rw [length_payload, List.length_append, length_payload] at hlen
            rw [hlen]
            simp [putBytes]
          have hmarked := hrest.marked hover
          have hmarked₁ := hone.marked hover₁
          rw [hmarked]
          cases hw : wireOf ps with
          | some w =>
            unfold wireOf
            rw [hw]
            dsimp only
            rw [hpos, List.length_append, Nat.add_assoc]
          | none =>
            unfold wireOf
            rw [hw]
            cases p with
            | typeId t => exact hmarked₁
            | bytes bytes => exact hmarked₁

theorem fits_of_short (ps : List Put) (hps : ∀ p ∈ ps, p.data.length ≤ 8) (h : b.Sized) : b.PutsFit ps := by
  induction ps generalizing b with
  | nil => exact True.intro
  | cons p ps ih =>
    have hp := hps p List.mem_cons_self
    have hpos := h.pos_le
    refine ⟨by omega, fun b' hrun => ?_⟩
    rcases run_cases h (show p.data.length < 2 ^ 31 by omega) with ⟨hint, -⟩ | ⟨-, b₁, heq, hone⟩
    · omega
    · rw [heq] at hrun
      cases hrun
      exact ih (fun p' hp' => hps p' (List.mem_cons_of_mem p hp')) hone.sized

theorem puts_append (b : Builder) (ps ps' : List Put) : b.puts (ps ++ ps') = (b.puts ps).bind fun b => b.puts ps' := List.foldlM_append

theorem foldlM_puts {α : Type} {f : Builder → α → Option Builder} {g : α → List Put} (hfg : ∀ b x, f b x = b.puts (g x)) (l : List α)
    (b : Builder) : l.foldlM f b = b.puts (l.flatMap g) := by
  induction l generalizing b with
  | nil => rfl
  | cons x l ih =>
    rw [List.foldlM_cons, List.flatMap_cons, puts_append, hfg]
    exact congrArg _ (funext ih)

end Builder

end Statsd.Framework
