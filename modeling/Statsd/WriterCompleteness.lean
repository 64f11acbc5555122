/-
What the writers of dimensions and events write. Every value of a key that was picked out of an accepted event is one leaf,
in the order of the key, and the nested forms show its positions. The values of an accepted event are written in order; every
node of an attribution chain and every pair of a list is one repeated message with its two values.
-/
import Mathlib.Data.List.TakeWhile
import Statsd.DimensionWriters
import Statsd.Logd.Representation

namespace Statsd

/-! ## Leaves of dimensions -/

namespace DimensionsValue

mutual

/-- The leaves of a value, with the fields on the way to them. -/
def leaves : DimensionsValue → List (List Int × Option LeafValue)
  | leaf field value => [([field], value)]
  | tuple field value_tuple => (leavesAll value_tuple).map fun l => (field :: l.1, l.2)

def leavesAll : List DimensionsValue → List (List Int × Option LeafValue)
  | [] => []
  | v :: vs => v.leaves ++ leavesAll vs

end

theorem leavesAll_append (vs vs' : List DimensionsValue) : leavesAll (vs ++ vs') = leavesAll vs ++ leavesAll vs' := by
  induction vs with
  | nil => rfl
  | cons v vs ih => rw [List.cons_append, leavesAll, leavesAll, ih, List.append_assoc]

end DimensionsValue

namespace StatsDimensionsValueParcel

mutual

/-- The leaves of a parcel, with the fields on the way to them. -/
def leaves : StatsDimensionsValueParcel → List (List Int × Int × Option LeafValue)
  | mk field valueType value tupleValue =>
    if valueType = STATS_DIMENSIONS_VALUE_TUPLE_TYPE then (leavesAll tupleValue).map fun l => (field :: l.1, l.2)
    else [([field], valueType, value)]

def leavesAll : List StatsDimensionsValueParcel → List (List Int × Int × Option LeafValue)
  | [] => []
  | p :: ps => p.leaves ++ leavesAll ps

end

theorem leavesAll_append (ps ps' : List StatsDimensionsValueParcel) : leavesAll (ps ++ ps') = leavesAll ps ++ leavesAll ps' := by
  induction ps with
  | nil => rfl
  | cons p ps ih => rw [List.cons_append, leavesAll, leavesAll, ih, List.append_assoc]

end StatsDimensionsValueParcel

/-- The positions of a field from a depth on to its own. -/
def positionsFrom (depth : Nat) (f : Field) : List Int :=
  (List.range' depth (f.getDepth.toNat + 1 - depth)).map fun d => (f.getPosAtDepth d : Int)

/-- The positions that are written where sub-trees go down to the depth of their values at once. -/
def leafPositions (depth : Nat) (f : Field) : List Int :=
  if f.getDepth = depth then [(f.getPosAtDepth depth : Int)] else [(f.getPosAtDepth depth : Int), (f.getPosAtDepth 2 : Int)]

section

variable (Hash64 : List UInt8 → BitVec 64) (hashed : Bool)

theorem supports_writeDimensionToProtoHelper : (writeDimensionToProtoHelper Hash64 hashed).Supports where
  supported _ _ _ h := decide_eq_false (not_lt.2 h)
  deeper _ h := h
  low _ _ := le_refl 2

theorem supports_writeDimensionLeafToProtoHelper (dimensionLeafField : Nat) :
    (writeDimensionLeafToProtoHelper Hash64 dimensionLeafField hashed).Supports where
  supported _ _ _ h := decide_eq_false (not_lt.2 h)
  deeper _ h := h
  low _ _ := le_refl 2

theorem supports_populateStatsDimensionsValueParcelChildren : populateStatsDimensionsValueParcelChildren.Supports where
  supported _ h _ _ := decide_eq_false (not_lt.2 h)
  deeper _ _ := Nat.lt_succ_self _
  low _ h := h

theorem supports_writeFieldValueTreeToStreamHelper : writeFieldValueTreeToStreamHelper.Supports where
  supported _ _ _ h := decide_eq_false (not_lt.2 h)
  deeper _ h := h
  low _ _ := le_refl 2

/-- The nested form, read as its leaves. -/
def dimensionReading : (writeDimensionToProtoHelper Hash64 hashed).Reading (List Int × Option LeafValue) where
  read := DimensionsValue.leavesAll
  level depth f l := ((f.getPosAtDepth depth : Int) :: l.1, l.2)
  item depth x := (leafPositions depth x.1, leafValue Hash64 hashed x.2)
  nil := rfl
  append := DimensionsValue.leavesAll_append
  leaf depth x h := by
    unfold leafPositions
    rw [if_pos h]
    rfl
  subTree depth f children := by
    show DimensionsValue.leaves (.tuple _ children) ++ [] = _
    rw [List.append_nil, DimensionsValue.leaves]
  item_level depth hdepth x h := by
    show ((x.1.getPosAtDepth depth : Int) :: leafPositions 2 x.1, leafValue Hash64 hashed x.2) = (leafPositions depth x.1, _)
    unfold leafPositions
    rw [if_pos (show x.1.getDepth = ((2 : Nat) : Int) from h), if_neg (show ¬ x.1.getDepth = depth by omega)]
  level_congr depth hdepth f g h := by rw [Field.getPosAtDepth_of_getPrefix (by omega) h]

/-- The leaves alone are what they are. -/
def dimensionLeafReading (dimensionLeafField : Nat) :
    (writeDimensionLeafToProtoHelper Hash64 dimensionLeafField hashed).Reading DimensionLeaf where
  read out := out
  level _ _ l := l
  item _ x := ⟨dimensionLeafField, leafValue Hash64 hashed x.2⟩
  nil := rfl
  append _ _ := rfl
  leaf _ _ _ := rfl
  subTree _ _ children := (List.map_id' children).symm
  item_level _ _ _ _ := rfl
  level_congr _ _ _ _ _ := rfl

/-- The parcel, read as its leaves. -/
def parcelReading : populateStatsDimensionsValueParcelChildren.Reading (List Int × Int × Option LeafValue) where
  read := StatsDimensionsValueParcel.leavesAll
  level depth f l := ((f.getPosAtDepth depth : Int) :: l.1, l.2)
  item depth x := (positionsFrom depth x.1, parcelValue x.2)
  nil := rfl
  append := StatsDimensionsValueParcel.leavesAll_append
  leaf depth x h := by
    have htype : (parcelValue x.2).1 ≠ STATS_DIMENSIONS_VALUE_TUPLE_TYPE := by
      cases x.2 <;>
        simp [parcelValue, STATS_DIMENSIONS_VALUE_INT_TYPE, STATS_DIMENSIONS_VALUE_LONG_TYPE, STATS_DIMENSIONS_VALUE_FLOAT_TYPE,
          STATS_DIMENSIONS_VALUE_STRING_TYPE, STATS_DIMENSIONS_VALUE_TUPLE_TYPE]
    have hone : positionsFrom depth x.1 = [(x.1.getPosAtDepth depth : Int)] := by
      unfold positionsFrom
      rw [h, show (depth : Int).toNat + 1 - depth = 1 by omega]
      rfl
    show StatsDimensionsValueParcel.leaves (.mk _ _ _ _) ++ [] = _
    rw [List.append_nil, StatsDimensionsValueParcel.leaves, if_neg htype, hone]
  subTree depth f children := by
    show StatsDimensionsValueParcel.leaves (.mk _ _ _ children) ++ [] = _
    rw [List.append_nil, StatsDimensionsValueParcel.leaves, if_pos rfl]
  item_level depth hdepth x h := by
    unfold positionsFrom
    dsimp only [populateStatsDimensionsValueParcelChildren]
    rw [h, show (2 : Int).toNat + 1 - depth = (2 : Int).toNat + 1 - (depth + 1) + 1 by simp; omega, List.range'_succ, List.map_cons]
  level_congr depth hdepth f g h := by rw [Field.getPosAtDepth_of_getPrefix (by omega) h]

end

/-! ## Keys -/

/-- What the writers make of a key, whatever fuel of at least three units more than it has values they have. -/
structure KeyWritten (key : HashableDimensionKey) : Prop where
  /-- One leaf for each value. -/
  leafNodes : ∀ Hash64 str_set dimensionLeafFieldId, ∀ fuel ≥ key.length + 3,
    writeDimensionLeafNodesToProto Hash64 fuel key dimensionLeafFieldId str_set =
      some (key.foldl (fun s x => insertString x.2 s) str_set, key.map fun x => ⟨dimensionLeafFieldId, leafValue Hash64 str_set.isSome x.2⟩)
  /-- One leaf for each value, with its positions at the top and in the node. -/
  toProto : ∀ Hash64 str_set, ∀ fuel ≥ key.length + 3, ∃ value_tuple,
    writeDimensionToProto Hash64 fuel key str_set =
      some (key.foldl (fun s x => insertString x.2 s) str_set, key.head?.map fun x => .tuple x.1.mTag value_tuple) ∧
    DimensionsValue.leavesAll value_tuple = key.map fun x => (leafPositions 0 x.1, leafValue Hash64 str_set.isSome x.2)
  /-- One leaf for each value, with all its positions. -/
  toParcel : ∀ fuel ≥ key.length + 3, ∃ tupleValue,
    toStatsDimensionsValueParcel fuel key =
      some ((key.head?.map fun x => .mk x.1.mTag STATS_DIMENSIONS_VALUE_TUPLE_TYPE none tupleValue).getD (.mk 0 0 none [])) ∧
    StatsDimensionsValueParcel.leavesAll tupleValue = key.map fun x => (positionsFrom 0 x.1, parcelValue x.2)

theorem walk_all {σ β γ : Type} {w : Writer σ β} (hw : w.Supports) (R : w.Reading γ) {fuel : Nat} (s : σ) {dims : List (Field × Value)}
    (hdims : ∀ x ∈ dims, AtDepths x) (hfuel : dims.length + 3 ≤ fuel) :
    ∃ out, w.walk fuel 0 0 s dims = some (dims.foldl (fun s x => w.visit x.2 s) s, out, []) ∧ R.read out = dims.map (R.item 0) := by
  obtain ⟨out, hwalk, hread⟩ := Writer.walk_run hw R fuel (Nat.zero_le 2) 0 s hdims hfuel
  have hall : ∀ x ∈ dims, decide (InSubTree 0 0 x) = true := by
    intro x hx
    refine decide_eq_true ⟨?_, rfl⟩
    rcases hdims x hx with h | h
    · rw [h]
      exact le_refl 0
    · rw [h]
      decide
  have htake : (dims.takeWhile fun x => InSubTree 0 0 x) = dims := List.takeWhile_eq_self_iff.2 hall
  have hdrop : (dims.dropWhile fun x => InSubTree 0 0 x) = [] := List.dropWhile_eq_nil_iff.2 hall
  rw [htake, hdrop] at hwalk
  rw [htake] at hread
  exact ⟨out, hwalk, hread⟩

theorem keyWritten {key : HashableDimensionKey} (hkey : ∀ x ∈ key, AtDepths x) : KeyWritten key := by
  refine ⟨fun Hash64 str_set id fuel hfuel => ?_, fun Hash64 str_set fuel hfuel => ?_, fun fuel hfuel => ?_⟩
  · cases key with
    | nil => rfl
    | cons x key =>
      obtain ⟨out, hwalk, hread⟩ := walk_all (supports_writeDimensionLeafToProtoHelper Hash64 str_set.isSome id)
        (dimensionLeafReading Hash64 str_set.isSome id) str_set hkey hfuel
      unfold writeDimensionLeafNodesToProto
      have hout : out = (x :: key).map fun x => ⟨id, leafValue Hash64 str_set.isSome x.2⟩ := hread
      simp only [Option.bind_eq_bind, hwalk, Option.bind_some, hout]
      rfl
  · cases key with
    | nil => exact ⟨[], rfl, rfl⟩
    | cons x key =>
      obtain ⟨out, hwalk, hread⟩ := walk_all (supports_writeDimensionToProtoHelper Hash64 str_set.isSome)
        (dimensionReading Hash64 str_set.isSome) str_set hkey hfuel
      refine ⟨out, ?_, hread⟩
      unfold writeDimensionToProto
      simp only [Option.bind_eq_bind, hwalk, Option.bind_some]
      rfl
  · cases key with
    | nil => exact ⟨[], rfl, rfl⟩
    | cons x key =>
      obtain ⟨out, hwalk, hread⟩ := walk_all supports_populateStatsDimensionsValueParcelChildren parcelReading () hkey hfuel
      refine ⟨out, ?_, hread⟩
      unfold toStatsDimensionsValueParcel
      simp only [Option.bind_eq_bind, hwalk, Option.bind_some]
      rfl

/-! ## Fields of accepted events -/

open Logd (EventElement EventNode WireElement SameSizes leavesOf PlacedNodes PlacedElements elementField nodeField)
open Matchers (getPosAtDepth_word byteOf_toNat elementField_pos)

theorem getDepth_word_zero (tag : Int) (b0 b1 b2 : BitVec 8) : Field.getDepth ⟨tag, word 0 b0 b1 b2⟩ = 0 := by
  have h := word_toNat 0 b0 b1 b2
  have h0 := b0.isLt
  have h1 := b1.isLt
  have h2 := b2.isLt
  rw [show (0 : BitVec 8).toNat = 0 from rfl] at h
  unfold Field.getDepth
  dsimp only
  rw [BitVec.toInt_sshiftRight, BitVec.toInt_eq_toNat_of_lt (by omega), Int.shiftRight_eq_div_pow, h]
  omega

theorem elementField_depth (tag : Int) {field : Nat} (h : field < 128) : (elementField tag field).getDepth = 0 := by
  rw [elementField_eq tag h, getDepth_word_zero]

/-- The prefix of the values of a node. -/
def nodePrefix (field node : Nat) (lastNode : Bool) : BitVec 32 :=
  word 0 (PathStep.byteOf field false) (PathStep.byteOf node lastNode) 0

section

variable (tag : Int) {field node number : Nat} (hfield : field < 128) (hnode : node < 256) (hnumber : number < 128) (lastNode : Bool)
include hfield hnode hnumber

theorem nodeField_depth : (nodeField tag field node number lastNode).getDepth = 2 := by
  rw [nodeField_eq tag hfield hnode hnumber, getDepth_word]

theorem nodeField_getPrefix : (nodeField tag field node number lastNode).getPrefix 2 = nodePrefix field node lastNode := by
  have hbyte (b : BitVec 8) : b &&& 0xff &&& 0xff = b := by
    rw [show b &&& (0xff : BitVec 8) = b from BitVec.and_allOnes]
    exact BitVec.and_allOnes
  rw [nodeField_eq tag hfield hnode hnumber]
  show (word 2 _ _ _ &&& 0x00ffffff#32) &&& (0xffffffff#32 <<< 8) = _
  rw [show (0x00ffffff#32) = word 0 0xff 0xff 0xff by decide +kernel, show (0xffffffff#32 <<< 8 : BitVec 32) = word 0xff 0xff 0xff 0 by decide +kernel,
    word_and, word_and, hbyte, hbyte]
  unfold nodePrefix
  rw [word_inj]
  exact ⟨by decide, rfl, rfl, by simp⟩

theorem nodeField_ends :
    (nodeField tag field node number lastNode).getPosAtDepth 0 = field ∧ (nodeField tag field node number lastNode).getPosAtDepth 2 = number := by
  rw [nodeField_eq tag hfield hnode hnumber]
  obtain ⟨h0, -, h2⟩ := getPosAtDepth_word tag 2 (PathStep.byteOf field false) (PathStep.byteOf node lastNode) (PathStep.byteOf number false)
  exact ⟨h0.trans (byteOf_toNat hfield false), h2.trans (byteOf_toNat hnumber false)⟩

end

theorem nodePrefix_succ (field : Nat) {node : Nat} (hnode : node + 1 < 256) (lastNode : Bool) :
    nodePrefix field (node + 1) lastNode ≠ nodePrefix field node false := by
  have hall : ∀ (i : Fin 255) (lastNode : Bool), PathStep.byteOf (i + 1) lastNode ≠ PathStep.byteOf i false := by decide +kernel
  intro h
  exact hall ⟨node, by omega⟩ lastNode (word_inj.1 h).2.2.1

/-- The values of an event that stand behind an element: they are at the top or in a node, at a later position. -/
theorem behind_element {tag : Int} {i : Nat} {es : List EventElement} (h : PlacedElements tag i es) (hi : i + es.length ≤ 128)
    (hlists : ∀ nodes, .list nodes ∈ es → nodes.length ≤ 255) :
    ∀ v ∈ leavesOf es, (v.mField.getDepth = 0 ∨ v.mField.getDepth = 2) ∧ i ≤ v.mField.getPosAtDepth 0 := by
  intro v hv
  obtain ⟨e, he, hv⟩ := List.mem_flatMap.1 hv
  obtain ⟨k, hk⟩ := List.mem_iff_getElem?.1 he
  have hlt := (List.getElem?_eq_some_iff.1 hk).1
  have hplaced := h.get hk
  cases e with
  | leaf value =>
    have hvalue : value.mField = elementField tag (i + k) := hplaced
    rw [List.mem_singleton.1 hv, hvalue, (elementField_pos tag (show i + k < 128 by omega)).1]
    exact ⟨.inl (elementField_depth tag (by omega)), Nat.le_add_right i k⟩
  | list nodes =>
    have hnodes : PlacedNodes tag (i + k) 1 nodes := hplaced
    have hlength := hlists nodes he
    obtain ⟨n, hn, hv⟩ := List.mem_flatMap.1 hv
    obtain ⟨j, hj⟩ := List.mem_iff_getElem?.1 hn
    have hj' := (List.getElem?_eq_some_iff.1 hj).1
    have hat := hnodes.get hj
    have hlow := hat.low
    have hhigh := hat.high
    rcases List.mem_pair.1 hv with rfl | rfl
    · rw [hat.first, nodeField_depth tag (by omega) (by omega) (by decide) _, (nodeField_ends tag (by omega) (by omega) (by decide) _).1]
      exact ⟨.inr rfl, Nat.le_add_right i k⟩
    · rw [hat.second, nodeField_depth tag (by omega) (by omega) (by omega) _, (nodeField_ends tag (by omega) (by omega) (by omega) _).1]
      exact ⟨.inr rfl, Nat.le_add_right i k⟩

/-! ## Keys of accepted events -/

theorem mask_of_translated {m : Matcher} {fm : FieldMatcher} (h : m ∈ fm.translateFieldMatcher) :
    m.mMask &&& 0xff000000#32 = 0xff000000#32 := by
  rw [FieldMatcher.translateFieldMatcher_eq] at h
  obtain ⟨path, -, rfl⟩ := List.mem_map.1 h
  show (getEncodedField _ _ false ||| 0xff000000#32) &&& 0xff000000#32 = 0xff000000#32
  generalize getEncodedField _ _ false = x
  ext i hi
  simp only [BitVec.getElem_and, BitVec.getElem_or]
  cases (0xff000000#32)[i] <;> simp

theorem getDepth_masked (f : Field) {mask : BitVec 32} (h : mask &&& 0xff000000#32 = 0xff000000#32) :
    Field.getDepth ⟨f.mTag, f.mField &&& mask⟩ = f.getDepth := by
  have hhigh : (0xff000000#32).sshiftRight 24 = BitVec.allOnes 32 := by decide +kernel
  have hmask : mask.sshiftRight 24 = BitVec.allOnes 32 := by
    have hshift : (mask &&& 0xff000000#32).sshiftRight 24 = (0xff000000#32).sshiftRight 24 := by rw [h]
    rwa [BitVec.sshiftRight_and_distrib, hhigh, BitVec.and_allOnes] at hshift
  unfold Field.getDepth
  dsimp only
  rw [BitVec.sshiftRight_and_distrib, hmask, BitVec.and_allOnes]

theorem atDepths_filterValues {matchers : List Matcher} (hmatchers : ∀ m ∈ matchers, ∃ fm : FieldMatcher, m ∈ fm.translateFieldMatcher)
    {values : List (Field × Value)} (hvalues : ∀ x ∈ values, AtDepths x) : ∀ x ∈ filterValues matchers values, AtDepths x := by
  intro x hx
  obtain ⟨y, hy, hx⟩ := List.mem_flatMap.1 hx
  obtain ⟨m, hm, rfl⟩ := List.mem_map.1 hx
  obtain ⟨fm, hfm⟩ := hmatchers m (List.mem_filter.1 hm).1
  unfold AtDepths
  dsimp only
  rw [getDepth_masked y.1 (mask_of_translated hfm)]
  exact hvalues y hy

/-! ## Events -/

/-- The message of a node. -/
def nodeMessage (field : Nat) (n : EventNode) : AtomField :=
  .message field true [.value 1 n.first.mValue, .value n.number n.second.mValue]

/-- The fields of some elements from a position on. -/
def atomFields : Nat → List EventElement → List AtomField
  | _, [] => []
  | field, .leaf v :: es => .value field v.mValue :: atomFields (field + 1) es
  | field, .list nodes :: es => nodes.map (nodeMessage field) ++ atomFields (field + 1) es

/-- The walk from the top writes some fields, with three units of fuel more than there are values. -/
def WritesFields (dims : List (Field × Value)) (out : List AtomField) : Prop :=
  ∀ fuel ≥ dims.length + 3, writeFieldValueTreeToStreamHelper.walk fuel 0 0 () dims = some ((), out, [])

theorem leaf_written (depth : Nat) (f : Field) {value : Value} (h : Logd.LogEvent.isWritten value = true) :
    writeFieldValueTreeToStreamHelper.leaf depth (f, value) = [.value (f.getPosAtDepth depth) value] := by
  cases value with
  | UNKNOWN => cases h
  | INT _ => rfl
  | LONG _ => rfl
  | FLOAT _ => rfl
  | DOUBLE _ => cases h
  | STRING _ => rfl
  | STORAGE _ => rfl

theorem writes_nil : WritesFields [] [] := by
  intro fuel hfuel
  cases fuel with
  | zero => exact absurd hfuel (by decide)
  | succ fuel => rfl

section

variable {f g : Field} {v v' : Value} {rest : List (Field × Value)} {out : List AtomField}

theorem writes_value (hf : f.getDepth = 0) (hv : Logd.LogEvent.isWritten v = true) (h : WritesFields rest out) :
    WritesFields ((f, v) :: rest) (.value (f.getPosAtDepth 0) v :: out) := by
  intro fuel hfuel
  rw [List.length_cons] at hfuel
  obtain ⟨fuel, rfl⟩ : ∃ k, fuel = k + 1 := ⟨fuel - 1, by omega⟩
  have hsupported : writeFieldValueTreeToStreamHelper.unsupported 0 f.getDepth = false :=
    supports_writeFieldValueTreeToStreamHelper.supported 0 (by decide) _ (by omega)
  unfold Writer.walk
  dsimp only
  rw [hsupported, if_neg Bool.false_ne_true, if_pos ⟨hf.symm, rfl⟩, leaf_written 0 f hv]
  show (writeFieldValueTreeToStreamHelper.walk fuel 0 0 () rest).bind _ = _
  rw [h fuel (by omega)]
  rfl

theorem walk_stops {expected : BitVec 32} (hrest : ∀ x ∈ rest.head?, AtDepths x ∧ ¬ InSubTree 2 expected x) (fuel : Nat) :
    writeFieldValueTreeToStreamHelper.walk (fuel + 1) 2 expected () rest = some ((), [], rest) := by
  cases rest with
  | nil => rfl
  | cons x rest =>
    obtain ⟨hx, hout⟩ := hrest x rfl
    have hsupported : writeFieldValueTreeToStreamHelper.unsupported 2 x.1.getDepth = false :=
      supports_writeFieldValueTreeToStreamHelper.supported 2 (le_refl 2) _ (by rcases hx with h | h <;> omega)
    have hleaf : ¬ (((2 : Nat) : Int) = x.1.getDepth ∧ x.1.getPrefix 2 = expected) := fun h => hout ⟨h.1.le, h.2⟩
    have htree : ¬ (x.1.getDepth > ((2 : Nat) : Int) ∧ x.1.getPrefix 2 = expected) := fun h => hout ⟨h.1.le, h.2⟩
    unfold Writer.walk
    dsimp only
    rw [hsupported, if_neg Bool.false_ne_true, if_neg hleaf, if_neg htree]

theorem walk_subTree_cons {expected : BitVec 32} (hf : f.getDepth = 2) (hsame : f.getPrefix 2 = expected)
    (hv : Logd.LogEvent.isWritten v = true) {fuel : Nat} {left : List (Field × Value)}
    (h : writeFieldValueTreeToStreamHelper.walk fuel 2 expected () rest = some ((), out, left)) :
    writeFieldValueTreeToStreamHelper.walk (fuel + 1) 2 expected () ((f, v) :: rest) = some ((), .value (f.getPosAtDepth 2) v :: out, left) := by
  have hsupported : writeFieldValueTreeToStreamHelper.unsupported 2 f.getDepth = false :=
    supports_writeFieldValueTreeToStreamHelper.supported 2 (le_refl 2) _ hf.le
  unfold Writer.walk
  dsimp only
  rw [hsupported, if_neg Bool.false_ne_true, if_pos ⟨hf.symm, hsame⟩, leaf_written 2 f hv]
  show (writeFieldValueTreeToStreamHelper.walk fuel 2 expected () rest).bind _ = _
  rw [h]
  rfl

theorem writes_node (hf : f.getDepth = 2) (hg : g.getDepth = 2) (hsame : g.getPrefix 2 = f.getPrefix 2)
    (hv : Logd.LogEvent.isWritten v = true) (hv' : Logd.LogEvent.isWritten v' = true)
    (hrest : ∀ x ∈ rest.head?, AtDepths x ∧ ¬ InSubTree 2 (f.getPrefix 2) x) (h : WritesFields rest out) :
    WritesFields ((f, v) :: (g, v') :: rest)
      (.message (f.getPosAtDepth 0) true [.value (f.getPosAtDepth 2) v, .value (g.getPosAtDepth 2) v'] :: out) := by
  intro fuel hfuel
  rw [List.length_cons, List.length_cons] at hfuel
  obtain ⟨fuel, rfl⟩ : ∃ k, fuel = k + 4 := ⟨fuel - 4, by omega⟩
  have hsupported : writeFieldValueTreeToStreamHelper.unsupported 0 f.getDepth = false :=
    supports_writeFieldValueTreeToStreamHelper.supported 0 (by decide) _ hf.le
  have hleaf : ¬ (((0 : Nat) : Int) = f.getDepth ∧ f.getPrefix 0 = 0) := by
    rintro ⟨h0, -⟩
    rw [hf] at h0
    cases h0
  have htree : f.getDepth > ((0 : Nat) : Int) ∧ f.getPrefix 0 = 0 := ⟨by rw [hf]; decide, rfl⟩
  have hchild : writeFieldValueTreeToStreamHelper.childDepth 0 f.getDepth = 2 := by
    rw [hf]
    rfl
  have hchildren := walk_subTree_cons hf rfl hv (walk_subTree_cons hg hsame hv' (walk_stops hrest fuel))
  have hmessage (children : List AtomField) :
      writeFieldValueTreeToStreamHelper.subTree 0 f children = [.message (f.getPosAtDepth 0) true children] := if_pos hf
  unfold Writer.walk
  dsimp only
  rw [hsupported, if_neg Bool.false_ne_true, if_neg hleaf, if_pos htree, hchild]
  show ((writeFieldValueTreeToStreamHelper.walk (fuel + 1 + 1 + 1) 2 (f.getPrefix 2) () ((f, v) :: (g, v') :: rest)).bind _) = _
  rw [hchildren]
  show (writeFieldValueTreeToStreamHelper.walk (fuel + 3) 0 0 () rest).bind _ = _
  rw [h (fuel + 3) (by omega), Option.bind_some, hmessage]
  rfl

end

section

variable {tag : Int} {field : Nat}

theorem writes_nodes (hfield : field < 128) {node : Nat} {ns : List EventNode} (h : PlacedNodes tag field node ns)
    (hns : node + ns.length ≤ 256) {rest : List FieldValue} {out : List AtomField}
    (hwritten : ∀ v ∈ ns.flatMap EventNode.leaves, Logd.LogEvent.isWritten v.mValue = true)
    (hrest : ∀ v ∈ rest, (v.mField.getDepth = 0 ∨ v.mField.getDepth = 2) ∧ field + 1 ≤ v.mField.getPosAtDepth 0)
    (hout : WritesFields (fieldsOf rest) out) :
    WritesFields (fieldsOf (ns.flatMap EventNode.leaves ++ rest)) (ns.map (nodeMessage field) ++ out) := by
  induction ns generalizing node with
  | nil => exact hout
  | cons n ns ih =>
    rw [List.length_cons] at hns
    have hat := h.1
    have hlow := hat.low
    have hhigh := hat.high
    have hnext := ih h.2 (by omega) fun v hv => hwritten v (List.mem_append_right _ hv)
    -- what stands behind the node has another prefix
    have hhead : ∀ x ∈ (fieldsOf (ns.flatMap EventNode.leaves ++ rest)).head?,
        AtDepths x ∧ ¬ InSubTree 2 (n.first.mField.getPrefix 2) x := by
      intro x hx
      rw [hat.first, nodeField_getPrefix tag hfield (by omega) (by decide)]
      cases ns with
      | nil =>
        cases rest with
        | nil => cases hx
        | cons v rest =>
          obtain rfl : x = (v.mField, v.mValue) := (Option.some.inj hx).symm
          obtain ⟨hdepth, hpos⟩ := hrest v List.mem_cons_self
          refine ⟨hdepth, fun hwithin => ?_⟩
          have hsame := hwithin.2.trans (nodeField_getPrefix tag hfield (show node < 256 by omega) (show 1 < 128 by decide) _).symm
          have hpos' := Field.getPosAtDepth_of_getPrefix (Nat.zero_le 2) (Field.getPrefix_one_of_two hsame)
          rw [(nodeField_ends tag hfield (by omega) (by decide) _).1] at hpos'
          dsimp only at hpos'
          omega
      | cons n' ns =>
        rw [List.length_cons] at hns
        obtain rfl : x = (n'.first.mField, n'.first.mValue) := (Option.some.inj hx).symm
        have hat' := h.2.1
        unfold AtDepths InSubTree
        dsimp only
        rw [hat'.first, nodeField_depth tag hfield (by omega) (by decide), nodeField_getPrefix tag hfield (by omega) (by decide)]
        exact ⟨.inr rfl, fun hwithin => nodePrefix_succ field (by omega) _ hwithin.2⟩
    have hfirst : n.first.mField.getDepth = 2 := by rw [hat.first, nodeField_depth tag hfield (by omega) (by decide)]
    have hsecond : n.second.mField.getDepth = 2 := by rw [hat.second, nodeField_depth tag hfield (by omega) (by omega)]
    have hsame : n.second.mField.getPrefix 2 = n.first.mField.getPrefix 2 := by
      rw [hat.first, hat.second, nodeField_getPrefix tag hfield (by omega) (by omega), nodeField_getPrefix tag hfield (by omega) (by decide)]
    have hnode := writes_node hfirst hsecond hsame (hwritten n.first List.mem_cons_self)
      (hwritten n.second (List.mem_cons_of_mem _ List.mem_cons_self)) hhead hnext
    have hfirstEnds := nodeField_ends tag hfield (show node < 256 by omega) (show 1 < 128 by decide) ns.isEmpty
    have hsecondEnds := nodeField_ends tag hfield (show node < 256 by omega) (show n.number < 128 by omega) ns.isEmpty
    rw [← hat.first] at hfirstEnds
    rw [← hat.second] at hsecondEnds
    rw [hfirstEnds.1, hfirstEnds.2, hsecondEnds.2] at hnode
    exact hnode

end

theorem writes_elements {tag : Int} {field : Nat} {es : List EventElement} (h : PlacedElements tag field es) (hes : field + es.length ≤ 128)
    (hlists : ∀ nodes, .list nodes ∈ es → nodes.length ≤ 255)
    (hwritten : ∀ v ∈ leavesOf es, Logd.LogEvent.isWritten v.mValue = true) :
    WritesFields (fieldsOf (leavesOf es)) (atomFields field es) := by
  induction es generalizing field with
  | nil => exact writes_nil
  | cons e es ih =>
    rw [List.length_cons] at hes
    have hleaves : leavesOf (e :: es) = e.leaves ++ leavesOf es := List.flatMap_cons
    rw [hleaves] at hwritten ⊢
    have hlists' : ∀ nodes, .list nodes ∈ es → nodes.length ≤ 255 := fun nodes hnodes => hlists nodes (List.mem_cons_of_mem e hnodes)
    have hrest := ih h.2 (by omega) hlists' fun v hv => hwritten v (List.mem_append_right _ hv)
    have hplaced := h.1
    cases e with
    | leaf value =>
      have hvalue : value.mField = elementField tag field := hplaced
      have hdepth : value.mField.getDepth = 0 := by rw [hvalue, elementField_depth tag (by omega)]
      have hpos : value.mField.getPosAtDepth 0 = field := by rw [hvalue, (elementField_pos tag (by omega)).1]
      have hfirst := writes_value hdepth (hwritten value List.mem_cons_self) hrest
      rw [hpos] at hfirst
      exact hfirst
    | list nodes =>
      have hnodes : PlacedNodes tag field 1 nodes := hplaced
      have hlength := hlists nodes List.mem_cons_self
      exact writes_nodes (by omega) hnodes (by omega) (fun v hv => hwritten v (List.mem_append_left _ hv))
        (behind_element h.2 (by omega) hlists') hrest

/-! ## Accepted events -/

theorem count_le (mem : Memory) (k addr : Nat) :
    ∀ e ∈ Logd.decodeElements mem k addr, ∀ n, e.shape = .pairs n ∨ e.shape = .chain n → n ≤ 255 := by
  have hbyte (addr : Nat) : Logd.numberAt mem 1 addr ≤ 255 := by
    have hlt := (mem addr).toNat_lt
    unfold Logd.numberAt
    simp only [Memory.read, ofLeBytes]
    omega
  induction k generalizing addr with
  | zero => exact fun e he => (List.not_mem_nil he).elim
  | succ k ih =>
    intro e he n hshape
    rcases List.mem_cons.1 he with rfl | he
    · have hdecode : (Logd.decodeElement mem addr).1.shape =
          (Logd.decodeShape mem (Logd.getTypeId (Logd.numberAt mem 1 addr)) (addr + 1)).1 := rfl
      rw [hdecode] at hshape
      unfold Logd.decodeShape at hshape
      split_ifs at hshape <;> rcases hshape with hshape | hshape <;> cases hshape
      · exact hbyte _
      · exact hbyte _
    · exact ih _ e he n hshape

/-- What the writer makes of an event: a field for each value at the top, and for each node of the elements in the buffer one
repeated message with its two values, in order. -/
def EventWritten (ws : List WireElement) (ev : Logd.LogEvent) : Prop :=
  ∃ es, ev.Views es ∧ SameSizes es ws ∧ ∀ fuel ≥ ev.mValues.length + 3,
    writeFieldValueTreeToStream fuel ev.mTagId ev.mValues = some (.message ev.mTagId false (atomFields 1 es))

/-- The types of values that dimensions have. -/
def isDimensionValue : Value → Bool
  | .INT _ => true
  | .LONG _ => true
  | .FLOAT _ => true
  | .STRING _ => true
  | _ => false

theorem leafValue_isSome (Hash64 : List UInt8 → BitVec 64) (hashed : Bool) {v : Value} (h : isDimensionValue v = true) :
    (leafValue Hash64 hashed v).isSome = true ∧ (parcelValue v).2.isSome = true := by
  cases v with
  | UNKNOWN => cases h
  | INT _ => exact ⟨rfl, rfl⟩
  | LONG _ => exact ⟨rfl, rfl⟩
  | FLOAT _ => exact ⟨rfl, rfl⟩
  | DOUBLE _ => cases h
  | STRING _ => exact ⟨rfl, rfl⟩
  | STORAGE _ => cases h

/-- For every event that the parser accepts: the writers terminate on every key that matchers of a config pick out of it and emit
exactly one leaf for each of its values, and every leaf has its value; the event is written whole. -/
theorem accepted_written (mem : Memory) (uid pid : Int) {buf len : Nat}
    (h : (({ mLogUid := uid, mLogPid := pid } : Logd.LogEvent).parseBuffer mem buf len).2 = true) :
    (∀ matchers : List Matcher, (∀ m ∈ matchers, ∃ fm : FieldMatcher, m ∈ fm.translateFieldMatcher) →
      ∀ key, key = filterValues matchers (fieldsOf (({ mLogUid := uid, mLogPid := pid } : Logd.LogEvent).parseBuffer mem buf len).1.mValues) →
        KeyWritten key ∧ ((∀ x ∈ key, isDimensionValue x.2 = true) → ∀ x ∈ key, (parcelValue x.2).2.isSome = true ∧
          ∀ Hash64 hashed, (leafValue Hash64 hashed x.2).isSome = true)) ∧
      EventWritten (Logd.decodeBuffer mem buf) (({ mLogUid := uid, mLogPid := pid } : Logd.LogEvent).parseBuffer mem buf len).1 := by
  obtain ⟨hchains, ⟨es, hlength, hframed⟩, -, -, -, -, hwritten⟩ := Logd.LogEvent.parseBuffer_consumes mem uid pid h
  generalize (({ mLogUid := uid, mLogPid := pid } : Logd.LogEvent).parseBuffer mem buf len).1 = ev at *
  obtain ⟨es', hviews, hsizes⟩ := hframed.views
  have hlength' : es'.length = es.length := by
    have hsame := congrArg List.length (hsizes.trans hframed.sizes.symm)
    rwa [List.length_map, List.length_map] at hsame
  have hlists := Logd.lists_bounded hsizes (count_le mem _ _)
  constructor
  · rintro matchers hmatchers key rfl
    have hvalues : ∀ x ∈ fieldsOf ev.mValues, AtDepths x := by
      intro x hx
      obtain ⟨v, hv, rfl⟩ := List.mem_map.1 hx
      rw [← hviews.leaves] at hv
      exact (behind_element hviews.placed (by omega) hlists v hv).1
    refine ⟨keyWritten (atDepths_filterValues hmatchers hvalues), fun htypes x hx => ?_⟩
    have hsome := fun Hash64 hashed => leafValue_isSome Hash64 hashed (htypes x hx)
    exact ⟨(hsome (fun _ => 0) false).2, fun Hash64 hashed => (hsome Hash64 hashed).1⟩
  · have hall := writes_elements hviews.placed (by omega) hlists (by rw [hviews.leaves]; exact hwritten)
    rw [hviews.leaves] at hall
    refine ⟨es', hviews, hsizes, fun fuel hfuel => ?_⟩
    unfold writeFieldValueTreeToStream
    have hwalk := hall fuel (by unfold fieldsOf; rw [List.length_map]; exact hfuel)
    simp only [Option.bind_eq_bind, hwalk, Option.bind_some]

/-- An event with one int and a key of that int. -/
theorem accepted_written_one :
    let bytes : List UInt8 := [0x07, 3, 0x01, 0, 0, 0, 0, 0, 0, 0, 0, 0x00, 10, 0, 0, 0, 0x00, 0xe8, 3, 0, 0]
    let mem := Memory.write (fun _ => 0) 0 bytes
    let event := (({ mLogUid := 1000, mLogPid := 7 } : Logd.LogEvent).parseBuffer mem 0 bytes.length).1
    KeyWritten (filterValues (FieldMatcher.translateFieldMatcher (.mk 10 none [.mk 1 none []])) (fieldsOf event.mValues)) ∧
      EventWritten (Logd.decodeBuffer mem 0) event :=
  have hwritten := accepted_written _ 1000 7 (by decide +kernel)
  ⟨(hwritten.1 _ (fun _ hm => ⟨_, hm⟩) _ rfl).1, hwritten.2⟩

end Statsd
