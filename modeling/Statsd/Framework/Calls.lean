/-
The calls between a new builder and `build`, and what each does: it writes an entry, annotates the last one, sets the
atom id, or is an error. An entry is a field as the caller gives it; what of a chain is sent depends on the lengths
of its arrays, which the builder takes for signed bytes.
-/
import Statsd.Framework.Puts

namespace Statsd.Framework

open Libstatssocket (Content Annotation stringBytes annotationBytes)

/-! ## Calls -/

inductive Call where
  | setAtomId (atomId : BitVec 32)
  | writeBoolean (value : Bool)
  | writeInt (value : BitVec 32)
  | writeLong (value : BitVec 64)
  | writeFloat (value : BitVec 32)
  | writeString (value : Option (List UInt8))
  | writeByteArray (value : List UInt8)
  | writeAttributionChain (uids : List (BitVec 32)) (tags : List (Option (List UInt8)))
  | writeKeyValuePairs (intMap : Option (List (BitVec 32 × BitVec 32))) (longMap : Option (List (BitVec 32 × BitVec 64)))
      (stringMap : Option (List (BitVec 32 × Option (List UInt8)))) (floatMap : Option (List (BitVec 32 × BitVec 32)))
  | addBooleanAnnotation (annotationId : UInt8) (value : Bool)
  | addIntAnnotation (annotationId : UInt8) (value : BitVec 32)
  | usePooledBuffer

namespace Call

def run (b : Builder) : Call → Option Builder
  | setAtomId atomId => b.setAtomId atomId
  | writeBoolean value => b.writeBoolean value
  | writeInt value => b.writeInt value
  | writeLong value => b.writeLong value
  | writeFloat value => b.writeFloat value
  | writeString value => b.writeString value
  | writeByteArray value => b.writeByteArray value
  | writeAttributionChain uids tags => b.writeAttributionChain uids tags
  | writeKeyValuePairs intMap longMap stringMap floatMap => b.writeKeyValuePairs intMap longMap stringMap floatMap
  | addBooleanAnnotation annotationId value => b.addBooleanAnnotation annotationId value
  | addIntAnnotation annotationId value => b.addIntAnnotation annotationId value
  | usePooledBuffer => some b.usePooledBuffer

/-- The length of every array is an `int`. -/
def Ok : Call → Prop
  | writeString value => (stringToBytes value).length < 2 ^ 31
  | writeByteArray value => value.length < 2 ^ 31
  | writeAttributionChain _ tags => ∀ tag ∈ tags, (stringToBytes tag).length < 2 ^ 31
  | writeKeyValuePairs _ _ stringMap _ => ∀ pair ∈ stringMap.getD [], (stringToBytes pair.2).length < 2 ^ 31
  | _ => True

end Call

/-! ## Entries -/

/-- Bytes behind their length. -/
def sizedPuts (bytes : List UInt8) : List Put := [.bytes (leBytes 4 (BitVec.ofNat 32 bytes.length).toNat), .bytes bytes]

/-- The value of a key-value pair. -/
inductive PairValue where
  | int (value : BitVec 32)
  | long (value : BitVec 64)
  | string (bytes : List UInt8)
  | float (value : BitVec 32)

namespace PairValue

def typeId : PairValue → Nat
  | int _ => TYPE_INT
  | long _ => TYPE_LONG
  | string _ => TYPE_STRING
  | float _ => TYPE_FLOAT

def puts : PairValue → List Put
  | int value => [.bytes (leBytes 4 value.toNat)]
  | long value => [.bytes (leBytes 8 value.toNat)]
  | string bytes => sizedPuts bytes
  | float value => [.bytes (leBytes 4 value.toNat)]

end PairValue

/-- What a caller writes as one field. -/
inductive Entry where
  | value (content : Content)
  | chain (uids : List (BitVec 32)) (tags : List (List UInt8))
  | pairs (pairs : List (BitVec 32 × PairValue))

/-- The nodes of a chain that are sent. -/
def sentNodes (uids : List (BitVec 32)) (tags : List (List UInt8)) : List (BitVec 32 × List UInt8) :=
  (uids.zip tags).take (BitVec.ofNat 8 uids.length).toInt.toNat

def nodePuts (node : BitVec 32 × List UInt8) : List Put := .bytes (leBytes 4 node.1.toNat) :: sizedPuts node.2

def pairPuts (pair : BitVec 32 × PairValue) : List Put := .bytes (leBytes 4 pair.1.toNat) :: .typeId pair.2.typeId :: pair.2.puts

namespace Entry

def puts : Entry → List Put
  | value (.byteArray bytes) => .typeId TYPE_BYTE_ARRAY :: sizedPuts bytes
  | value (.string bytes) => .typeId TYPE_STRING :: sizedPuts bytes
  | value x => [.typeId x.typeId, .bytes x.bytes]
  | chain uids tags => .typeId TYPE_ATTRIBUTION_CHAIN :: .bytes [UInt8.ofNat uids.length] :: (sentNodes uids tags).flatMap nodePuts
  | pairs ps => .typeId TYPE_KEY_VALUE_PAIRS :: .bytes [UInt8.ofNat ps.length] :: ps.flatMap pairPuts

end Entry

/-- The pairs of all maps, in the order in which they are written. -/
def allPairs (intMap : Option (List (BitVec 32 × BitVec 32))) (longMap : Option (List (BitVec 32 × BitVec 64)))
    (stringMap : Option (List (BitVec 32 × Option (List UInt8)))) (floatMap : Option (List (BitVec 32 × BitVec 32))) :
    List (BitVec 32 × PairValue) :=
  (intMap.getD []).map (fun pair => (pair.1, .int pair.2)) ++ (longMap.getD []).map (fun pair => (pair.1, .long pair.2)) ++
    (stringMap.getD []).map (fun pair => (pair.1, .string (stringToBytes pair.2))) ++
    (floatMap.getD []).map fun pair => (pair.1, .float (floatToIntBits pair.2))

namespace Call

/-- The entry that a call is for. -/
def entry : Call → Option Entry
  | writeBoolean value => some (.value (.bool value))
  | writeInt value => some (.value (.int32 value))
  | writeLong value => some (.value (.int64 value))
  | writeFloat value => some (.value (.float (floatToIntBits value)))
  | writeString value => some (.value (.string (stringToBytes value)))
  | writeByteArray value => some (.value (.byteArray value))
  | writeAttributionChain uids tags => some (.chain uids (tags.map stringToBytes))
  | writeKeyValuePairs intMap longMap stringMap floatMap => some (.pairs (allPairs intMap longMap stringMap floatMap))
  | _ => none

/-- The annotation that a call is for. -/
def adds : Call → Option Annotation
  | addBooleanAnnotation annotationId value => some (.bool annotationId value)
  | addIntAnnotation annotationId value => some (.int32 annotationId value)
  | _ => none

end Call

/-- The lengths that the builder checks: those of the two arrays as bytes, and the number of pairs as an `int`. -/
def Entry.Checked : Entry → Prop
  | .value _ => True
  | .chain uids tags => BitVec.ofNat 8 uids.length = BitVec.ofNat 8 tags.length
  | .pairs ps => (BitVec.ofNat 32 ps.length).toInt ≤ MAX_KEY_VALUE_PAIRS

namespace Builder

theorem putByte_puts (b : Builder) (value : Nat) : b.put (·.putByte · value) = b.puts [.bytes [UInt8.ofNat value]] := by
  simp [puts, Put.run, Buffer.putByte]

theorem writeNode_puts (b : Builder) (node : BitVec 32 × Option (List UInt8)) :
    b.writeNode node = b.puts (nodePuts (node.1, stringToBytes node.2)) := by
  simp [writeNode, puts, nodePuts, sizedPuts, Put.run, Buffer.putInt, Buffer.putByteArray]

theorem writePairs_puts {α : Type} (typeId : Nat) (toValue : α → PairValue) {putValue : Builder → α → Option Builder}
    (htype : ∀ x, (toValue x).typeId = typeId) (hvalue : ∀ b x, putValue b x = b.puts (toValue x).puts) (b : Builder)
    (map : Option (List (BitVec 32 × α))) :
    b.writePairs typeId putValue map = b.puts (((map.getD []).map fun pair => (pair.1, toValue pair.2)).flatMap pairPuts) := by
  unfold writePairs
  rw [List.flatMap_map]
  refine foldlM_puts (fun b pair => ?_) _ b
  change ((b.put fun x i => x.putInt i pair.1).bind fun b => (b.writeTypeId typeId).bind fun b => putValue b pair.2) = _
  simp [pairPuts, puts, htype, hvalue, Put.run, Buffer.putInt]

theorem writeTyped_puts (b : Builder) (value : List UInt8) (typeId : Nat) :
    b.writeTyped value typeId = (b.puts (.typeId typeId :: sizedPuts value)).map countElement := by
  simp [writeTyped, puts, sizedPuts, Put.run, Buffer.putInt, Buffer.putByteArray, Option.map_eq_bind, Option.bind_assoc]

theorem field_puts (b : Builder) (typeId : Nat) (f : Buffer → Nat → Option (Buffer × Nat)) {bytes : List UInt8}
    (hf : ∀ buffer i, f buffer i = buffer.put i bytes) :
    (do let b ← b.writeTypeId typeId; let b ← b.put f; return b.countElement) =
      (b.puts [.typeId typeId, .bytes bytes]).map countElement := by
  obtain rfl : f = fun buffer i => buffer.put i bytes := funext fun buffer => funext fun i => hf buffer i
  simp [puts, Put.run, Option.map_eq_bind, Option.bind_assoc]

theorem writeAttributionChain_cases (b : Builder) (uids : List (BitVec 32)) (tags : List (Option (List UInt8))) :
    (( Entry.chain uids (tags.map stringToBytes)).Checked ∧
      b.writeAttributionChain uids tags = (b.puts ( Entry.chain uids (tags.map stringToBytes)).puts).map countElement) ∨
    (¬ ( Entry.chain uids (tags.map stringToBytes)).Checked ∧ ∃ x, x ≠ 0 ∧ b.writeAttributionChain uids tags = some (b.error x)) := by
  unfold writeAttributionChain Entry.Checked
  dsimp only
  rw [List.length_map]
  by_cases hsizes : BitVec.ofNat 8 uids.length = BitVec.ofNat 8 tags.length
  · rw [if_neg (not_not.2 (congrArg BitVec.toInt hsizes))]
    -- a byte is at most 127
    have hbyte : ¬ (BitVec.ofNat 8 uids.length).toInt > MAX_ATTRIBUTION_NODES := by
      have := BitVec.toInt_lt (x := BitVec.ofNat 8 uids.length)
      have hmax : MAX_ATTRIBUTION_NODES = 127 := rfl
      omega
    rw [if_neg hbyte]
    refine .inl ⟨hsizes, ?_⟩
    have hnodes : ∀ b : Builder, ((uids.zip tags).take (BitVec.ofNat 8 uids.length).toInt.toNat).foldlM writeNode b =
        b.puts ((sentNodes uids (tags.map stringToBytes)).flatMap nodePuts) := by
      intro b
      unfold sentNodes
      rw [List.zip_map_right, ← List.map_take, List.flatMap_map]
      exact foldlM_puts writeNode_puts _ b
    simp only [hnodes, putByte_puts]
    simp [Entry.puts, puts, Put.run, Option.map_eq_bind, Option.bind_assoc]
  · refine .inr ⟨hsizes, ERROR_ATTRIBUTION_UIDS_TAGS_SIZES_NOT_EQUAL, by decide, if_pos ?_⟩
    exact fun heq => hsizes (BitVec.eq_of_toInt_eq heq)

theorem length_allPairs (intMap : Option (List (BitVec 32 × BitVec 32))) (longMap : Option (List (BitVec 32 × BitVec 64)))
    (stringMap : Option (List (BitVec 32 × Option (List UInt8)))) (floatMap : Option (List (BitVec 32 × BitVec 32))) :
    (allPairs intMap longMap stringMap floatMap).length =
      (intMap.getD []).length + (longMap.getD []).length + (stringMap.getD []).length + (floatMap.getD []).length := by
  simp [allPairs, Nat.add_assoc]

theorem writeKeyValuePairs_cases (b : Builder) (intMap : Option (List (BitVec 32 × BitVec 32)))
    (longMap : Option (List (BitVec 32 × BitVec 64))) (stringMap : Option (List (BitVec 32 × Option (List UInt8))))
    (floatMap : Option (List (BitVec 32 × BitVec 32))) :
    let e : Entry := .pairs (allPairs intMap longMap stringMap floatMap)
    (e.Checked ∧ b.writeKeyValuePairs intMap longMap stringMap floatMap = (b.puts e.puts).map countElement) ∨
    (¬ e.Checked ∧ ∃ x, x ≠ 0 ∧ b.writeKeyValuePairs intMap longMap stringMap floatMap = some (b.error x)) := by
  intro e
  have hlen := length_allPairs intMap longMap stringMap floatMap
  unfold writeKeyValuePairs
  dsimp only
  rw [← hlen]
  by_cases hcount : (BitVec.ofNat 32 (allPairs intMap longMap stringMap floatMap).length).toInt > MAX_KEY_VALUE_PAIRS
  · exact .inr ⟨not_le.2 hcount, ERROR_TOO_MANY_KEY_VALUE_PAIRS, by decide, if_pos hcount⟩
  · rw [if_neg hcount]
    refine .inl ⟨not_lt.1 hcount, ?_⟩
    have hint : ∀ (b : Builder) x, b.put (·.putInt · x) = b.puts ( PairValue.int x).puts := fun b x => by
      simp [puts, PairValue.puts, Put.run, Buffer.putInt]
    have hlong : ∀ (b : Builder) x, b.put (·.putLong · x) = b.puts ( PairValue.long x).puts := fun b x => by
      simp [puts, PairValue.puts, Put.run, Buffer.putLong]
    have hstring : ∀ (b : Builder) x, (do
        let valueBytes := stringToBytes x
        let b ← b.put (·.putInt · (BitVec.ofNat 32 valueBytes.length))
        b.put (·.putByteArray · valueBytes)) = b.puts ( PairValue.string (stringToBytes x)).puts := fun b x => by
      simp [puts, PairValue.puts, sizedPuts, Put.run, Buffer.putInt, Buffer.putByteArray]
    have hfloat : ∀ (b : Builder) x, b.put (·.putFloat · x) = b.puts ( PairValue.float (floatToIntBits x)).puts := fun b x => by
      simp [puts, PairValue.puts, Put.run, Buffer.putFloat, Buffer.putInt]
    have hints := fun b => writePairs_puts TYPE_INT PairValue.int (fun _ => rfl) hint b intMap
    have hlongs := fun b => writePairs_puts TYPE_LONG PairValue.long (fun _ => rfl) hlong b longMap
    have hstrings := fun b => writePairs_puts TYPE_STRING (fun x => PairValue.string (stringToBytes x)) (fun _ => rfl) hstring b stringMap
    have hfloats := fun b => writePairs_puts TYPE_FLOAT (fun x => PairValue.float (floatToIntBits x)) (fun _ => rfl) hfloat b floatMap
    have hall : e.puts = .typeId TYPE_KEY_VALUE_PAIRS :: .bytes [UInt8.ofNat (allPairs intMap longMap stringMap floatMap).length] ::
        (allPairs intMap longMap stringMap floatMap).flatMap pairPuts := rfl
    simp only [hints, hlongs, hstrings, hfloats, putByte_puts, hall]
    simp [allPairs, puts, Put.run, Option.map_eq_bind, Option.bind_assoc, List.foldlM_append]

end Builder

open Builder

theorem Call.run_entry {c : Call} {e : Entry} (h : c.entry = some e) (b : Builder) :
    (e.Checked ∧ c.run b = (b.puts e.puts).map countElement) ∨ (¬ e.Checked ∧ ∃ x, x ≠ 0 ∧ c.run b = some (b.error x)) := by
  cases c with
  | writeBoolean value =>
    cases h
    exact .inl ⟨True.intro, field_puts b _ _ fun _ _ => rfl⟩
  | writeInt value =>
    cases h
    exact .inl ⟨True.intro, field_puts b _ _ fun _ _ => rfl⟩
  | writeLong value =>
    cases h
    exact .inl ⟨True.intro, field_puts b _ _ fun _ _ => rfl⟩
  | writeFloat value =>
    cases h
    exact .inl ⟨True.intro, field_puts b _ _ fun _ _ => rfl⟩
  | writeString value =>
    cases h
    exact .inl ⟨True.intro, b.writeTyped_puts _ _⟩
  | writeByteArray value =>
    cases h
    exact .inl ⟨True.intro, b.writeTyped_puts _ _⟩
  | writeAttributionChain uids tags =>
    cases h
    exact b.writeAttributionChain_cases uids tags
  | writeKeyValuePairs intMap longMap stringMap floatMap =>
    cases h
    exact b.writeKeyValuePairs_cases intMap longMap stringMap floatMap
  | _ => cases h

theorem data_sizedPuts {bytes : List UInt8} (h : bytes.length < 2 ^ 31) : ∀ p ∈ sizedPuts bytes, p.data.length < 2 ^ 31 := by
  intro p hp
  rcases List.mem_cons.1 hp with rfl | hp
  · rw [Put.data, length_leBytes]
    decide
  · rw [List.mem_singleton.1 hp]
    exact h

theorem Call.data_lt {c : Call} (hok : c.Ok) {e : Entry} (h : c.entry = some e) : ∀ p ∈ e.puts, p.data.length < 2 ^ 31 := by
  have htype : ∀ t, (Put.data (.typeId t)).length < 2 ^ 31 := fun t => show 1 < 2 ^ 31 by decide
  have hbyte : ∀ n, (Put.data (.bytes [UInt8.ofNat n])).length < 2 ^ 31 := fun t => show 1 < 2 ^ 31 by decide
  have hfour : ∀ n, (Put.data (.bytes (leBytes 4 n))).length < 2 ^ 31 := fun n => by rw [Put.data, length_leBytes]; decide
  have height : ∀ n, (Put.data (.bytes (leBytes 8 n))).length < 2 ^ 31 := fun n => by rw [Put.data, length_leBytes]; decide
  have htwo : ∀ {p₁ p₂ : Put}, p₁.data.length < 2 ^ 31 → p₂.data.length < 2 ^ 31 → ∀ p ∈ [p₁, p₂], p.data.length < 2 ^ 31 :=
    fun h₁ h₂ => List.forall_mem_cons.2 ⟨h₁, List.forall_mem_singleton.2 h₂⟩
  cases c with
  | writeBoolean value =>
    cases h
    exact htwo (htype _) (hbyte _)
  | writeInt value =>
    cases h
    exact htwo (htype _) (hfour _)
  | writeLong value =>
    cases h
    exact htwo (htype _) (height _)
  | writeFloat value =>
    cases h
    exact htwo (htype _) (hfour _)
  | writeString value =>
    cases h
    exact List.forall_mem_cons.2 ⟨htype _, data_sizedPuts hok⟩
  | writeByteArray value =>
    cases h
    exact List.forall_mem_cons.2 ⟨htype _, data_sizedPuts hok⟩
  | writeAttributionChain uids tags =>
    cases h
    refine List.forall_mem_cons.2 ⟨htype _, List.forall_mem_cons.2 ⟨hbyte _, fun p hp => ?_⟩⟩
    obtain ⟨node, hnode, hp⟩ := List.mem_flatMap.1 hp
    rcases List.mem_cons.1 hp with rfl | hp
    · exact hfour _
    · refine data_sizedPuts ?_ p hp
      obtain ⟨tag, htag, heq⟩ := List.mem_map.1 (List.of_mem_zip (List.mem_of_mem_take hnode)).2
      rw [← heq]
      exact hok tag htag
  | writeKeyValuePairs intMap longMap stringMap floatMap =>
    cases h
    refine List.forall_mem_cons.2 ⟨htype _, List.forall_mem_cons.2 ⟨hbyte _, fun p hp => ?_⟩⟩
    obtain ⟨pair, hpair, hp⟩ := List.mem_flatMap.1 hp
    rcases List.mem_cons.1 hp with rfl | hp
    · exact hfour _
    rcases List.mem_cons.1 hp with rfl | hp
    · exact htype _
    unfold allPairs at hpair
    simp only [List.mem_append, List.mem_map] at hpair
    rcases hpair with ((⟨x, -, rfl⟩ | ⟨x, -, rfl⟩) | ⟨x, hx, rfl⟩) | ⟨x, -, rfl⟩
    · rw [List.mem_singleton.1 hp]
      exact hfour _
    · rw [List.mem_singleton.1 hp]
      exact height _
    · exact data_sizedPuts (hok x hx) p hp
    · rw [List.mem_singleton.1 hp]
      exact hfour _
  | _ => cases h

/-! ## Annotations -/

/-- What an annotation leaves: its bytes behind the valid ones, and the type byte of the last field with one more. -/
structure Annotated (a : Annotation) (b b' : Builder) : Prop where
  sized : b'.Sized
  le : b.mPos ≤ b'.mPos
  before : ∀ i < b.mPos, i ≠ b.mPosLastField → b'.mBuffer.mBytes i = b.mBuffer.mBytes i
  timestamp : b'.mTimestampNs = b.mTimestampNs
  atomId : b'.mAtomId = b.mAtomId
  count : b'.mNumElements = b.mNumElements
  errors : b'.mErrorMask = b.mErrorMask
  overflow : b'.mBuffer.mOverflow = false → b.mBuffer.mOverflow = false
  last : b'.mPosLastField = b.mPosLastField ∨ b.mPos ≤ b'.mPosLastField
  field : b'.mBuffer.mOverflow = false → b'.lastField = (b.mPosLastField, b.mLastType, b.mCurrentAnnotationCount + 1)
  payload : b'.mBuffer.mOverflow = false → ∀ front c rest, b.payload = front ++ c :: rest → b.mPosLastField = front.length →
    b'.payload = front ++ UInt8.ofNat (((b.mCurrentAnnotationCount + 1) <<< 4) ||| (b.mLastType &&& 0x0F)) :: (rest ++ a.bytes)

theorem Builder.annotated_of_puts {b b₁ : Builder} {a : Annotation} {ps : List Put} (h : Puts ps b b₁) (hps : wireOf ps = none)
    (hbytes : putBytes ps = a.bytes) :
    ∃ b', ({ b₁ with mCurrentAnnotationCount := b₁.mCurrentAnnotationCount + 1 } : Builder).writeAnnotationCount = some b' ∧
      Annotated a b b' := by
  have hsized := h.sized
  have hlast := hsized.last
  have hpos := hsized.pos
  have hfield : b₁.mBuffer.mOverflow = false → b₁.lastField = b.lastField := by
    intro hover
    have hmarked := h.marked hover
    rw [hps] at hmarked
    exact hmarked
  have hout : ∀ i < b.mPos, i ≠ b.mPosLastField → i ≠ b₁.mPosLastField := by
    intro i hi hne
    rcases h.last with ⟨-, heq⟩ | hle
    · rw [heq]
      exact hne
    · omega
  unfold writeAnnotationCount Buffer.putByte
  dsimp only
  generalize hc : UInt8.ofNat (((b₁.mCurrentAnnotationCount + 1) <<< 4) ||| (b₁.mLastType &&& 0x0F)) = c
  have hone : [c].length < 2 ^ 31 := show 1 < 2 ^ 31 by decide
  rcases Buffer.put_cases hsized.buffer (hlast.trans hpos) hone with ⟨hint, -⟩ | ⟨-, -, heq⟩ | ⟨-, buffer, heq, hs⟩
  · have := hsized.pos_le
    change 2 ^ 31 ≤ b₁.mPosLastField + 1 at hint
    omega
  · rw [heq]
    refine ⟨_, rfl, ⟨⟨hsized.buffer.min, hsized.buffer.le, hsized.buffer.max⟩, hpos, hlast⟩, h.le, fun i hi _ => h.before i hi,
      h.timestamp, h.atomId, h.count, h.errors, ?_, h.last.imp_left And.right, ?_, ?_⟩
    · intro hover
      cases hover
    · intro hover
      cases hover
    · intro hover
      cases hover
  · rw [heq]
    refine ⟨_, rfl, ⟨hs.sized, hpos.trans hs.length, hlast⟩, h.le, ?_, h.timestamp, h.atomId, h.count, h.errors, ?_, h.last.imp_left And.right, ?_, ?_⟩
    · intro i hi hne
      have hle := h.le
      rw [← h.before i hi]
      refine (hs.agree i (by omega)).trans ?_
      rcases Nat.lt_or_gt_of_ne (hout i hi hne) with hlt | hgt
      · exact Memory.write_before _ hlt
      · exact Memory.write_after (by simpa using hgt)
    · intro hover
      exact h.overflow (hs.overflow.symm.trans hover)
    · intro hover
      have hsame := hfield (hs.overflow.symm.trans hover)
      unfold lastField at hsame ⊢
      simp only [Prod.mk.injEq] at hsame ⊢
      exact ⟨hsame.1, hsame.2.1, congrArg (· + 1) hsame.2.2⟩
    · intro hover front c' rest hpay hfront
      have hover₁ := hs.overflow.symm.trans hover
      have hsame := hfield hover₁
      unfold lastField at hsame
      simp only [Prod.mk.injEq] at hsame
      obtain ⟨hsame₁, hsame₂, hsame₃⟩ := hsame
      have hpay₁ : b₁.mBuffer.mBytes.read 0 b₁.mPos = front ++ c' :: (rest ++ a.bytes) := by
        have hall := h.payload hover₁
        rw [hpay, hbytes, List.append_assoc] at hall
        exact hall
      have hset := (Memory.read_split hpay₁).2 c
      change buffer.mBytes.read 0 b₁.mPos = _
      rw [← hsame₂, ← hsame₃, hc, ← hset, ← hfront, ← hsame₁]
      exact Memory.read_congr fun i _ hi => hs.agree i (by omega)

theorem Call.run_annotates {c : Call} {a : Annotation} (h : c.adds = some a) {b : Builder} (hb : b.Sized) :
    (∃ x, x ≠ 0 ∧ c.run b = some (b.error x)) ∨
    (2 ≤ b.mNumElements.toInt ∧ b.mCurrentAnnotationCount < 15 ∧ ∃ b', c.run b = some b' ∧ Annotated a b b') := by
  have hgen : ∀ (annotationId : UInt8) (typeId : Nat) (putValue : Buffer → Nat → Option (Buffer × Nat)) (bytes : List UInt8),
      (∀ buffer i, putValue buffer i = buffer.put i bytes) → bytes.length ≤ 4 →
      a.bytes = [UInt8.ofNat annotationId.toNat] ++ [UInt8.ofNat typeId] ++ bytes →
      (∃ x, x ≠ 0 ∧ b.addAnnotation annotationId typeId putValue = some (b.error x)) ∨
      (2 ≤ b.mNumElements.toInt ∧ b.mCurrentAnnotationCount < 15 ∧
        ∃ b', b.addAnnotation annotationId typeId putValue = some b' ∧ Annotated a b b') := by
    intro annotationId typeId putValue bytes hput hlen hbytes
    obtain rfl : putValue = fun buffer i => buffer.put i bytes := funext fun buffer => funext fun i => hput buffer i
    unfold addAnnotation
    split
    · exact .inl ⟨_, by decide, rfl⟩
    rename_i htwo
    split
    · exact .inl ⟨_, by decide, rfl⟩
    rename_i hcount
    refine .inr ⟨not_lt.1 htwo, not_le.1 hcount, ?_⟩
    let ps : List Put := [.bytes [UInt8.ofNat annotationId.toNat], .bytes [UInt8.ofNat typeId], .bytes bytes]
    have hps : ∀ p ∈ ps, p.data.length ≤ 8 := by
      simp only [ps, List.forall_mem_cons, List.not_mem_nil, IsEmpty.forall_iff, implies_true, and_true]
      exact ⟨show 1 ≤ 8 by decide, show 1 ≤ 8 by decide, hlen.trans (by decide)⟩
    rcases puts_cases ps (fun p hp => lt_of_le_of_lt (hps p hp) (by decide)) hb with ⟨-, hnot⟩ | ⟨b₁, hsome, -, hputs⟩
    · exact absurd (fits_of_short ps hps hb) hnot
    · obtain ⟨b', hrun, hann⟩ := annotated_of_puts (a := a) hputs rfl (by rw [hbytes]; simp [ps, putBytes, Put.data])
      refine ⟨b', ?_, hann⟩
      have hall : (do
          let b ← b.put (·.putByte · annotationId.toNat)
          let b ← b.put (·.putByte · typeId)
          let b ← b.put fun buffer i => buffer.put i bytes
          { b with mCurrentAnnotationCount := b.mCurrentAnnotationCount + 1 }.writeAnnotationCount) =
          (b.puts ps).bind fun b => ({ b with mCurrentAnnotationCount := b.mCurrentAnnotationCount + 1 } : Builder).writeAnnotationCount := by
        simp [ps, puts, Put.run, Buffer.putByte, Option.bind_assoc]
      rw [hall, hsome]
      exact hrun
  cases c with
  | addBooleanAnnotation annotationId value =>
    cases h
    refine hgen annotationId TYPE_BOOLEAN (·.putBoolean · value) [UInt8.ofNat value.toNat] (fun _ _ => rfl) (show 1 ≤ 4 by decide) ?_
    rw [UInt8.ofNat_toNat]
    rfl
  | addIntAnnotation annotationId value =>
    cases h
    refine hgen annotationId TYPE_INT (·.putInt · value) (leBytes 4 value.toNat) (fun _ _ => rfl) (by rw [length_leBytes]) ?_
    rw [UInt8.ofNat_toNat]
    rfl
  | _ => cases h

end Statsd.Framework
