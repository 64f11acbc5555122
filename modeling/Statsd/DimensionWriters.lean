/-
The writers of dimensions and events (stats_log_util.cpp, and toStatsDimensionsValueParcel of HashableDimensionKey.cpp).
Four functions walk a vector of fields and values with an index that all their calls share: the values at a depth that
have the expected prefix are written, a deeper value begins a sub-tree, and the first value that does not belong to the
sub-tree ends it. They differ in what they write and in the depth to which a sub-tree goes down (`Writer`).

A stream is the list of what is written to it; a message between `start` and `end` is one item. Each call and each turn of
the loop takes fuel, and three units more than there are values are enough (`Writer.walk_run`).
-/
import Statsd.HashableDimensionKey
import Statsd.Matchers.MatcherUtil

namespace Statsd

/-! ## Prefixes -/

namespace Field

def getPath (f : Field) (depth : Nat) : BitVec 32 :=
  if depth > 2 then 0#32 else (f.mField &&& 0x00ffffff#32) &&& (0xffffffff#32 <<< (8 * (kMaxLogDepth - depth)))

def getPrefix (f : Field) (depth : Nat) : BitVec 32 := if depth = 0 then 0#32 else f.getPath (depth - 1)

theorem getPosAtDepth_getPath (f : Field) {depth : Nat} (h : depth ≤ 2) :
    f.getPosAtDepth depth =
      (((f.getPath depth &&& (0xff#32 <<< (8 * (kMaxLogDepth - depth)))) >>> (8 * (kMaxLogDepth - depth))) &&& 0x7f#32).toNat := by
  have hmask : (0xffffffff#32 <<< (8 * (kMaxLogDepth - depth))) &&& (0xff#32 <<< (8 * (kMaxLogDepth - depth))) =
      (0xff#32 <<< (8 * (kMaxLogDepth - depth)) : BitVec 32) := by
    interval_cases depth <;> decide +kernel
  unfold getPosAtDepth getRawPosAtDepth getPath
  rw [if_neg (by omega), BitVec.and_assoc _ (0xffffffff#32 <<< _), hmask]

theorem getPrefix_one_of_two {f g : Field} (h : f.getPrefix 2 = g.getPrefix 2) : f.getPrefix 1 = g.getPrefix 1 := by
  have hshort (f : Field) : f.getPrefix 1 = f.getPrefix 2 &&& 0xffff0000#32 := by
    unfold getPrefix getPath
    rw [if_neg (by decide), if_neg (by decide), if_neg (by decide), if_neg (by decide), BitVec.and_assoc _ (0xffffffff#32 <<< _)]
    congr 1
  rw [hshort, hshort, h]

theorem getPosAtDepth_of_getPrefix {f g : Field} {depth : Nat} (hdepth : depth ≤ 2) (h : f.getPrefix (depth + 1) = g.getPrefix (depth + 1)) :
    f.getPosAtDepth depth = g.getPosAtDepth depth := by
  have hpath : f.getPath depth = g.getPath depth := h
  rw [getPosAtDepth_getPath f hdepth, getPosAtDepth_getPath g hdepth, hpath]

end Field

/-! ## The walk -/

/-- What a writer does with a value of the depth that it looks for, and with a deeper one. -/
structure Writer (σ β : Type) where
  /-- The depths and the depths of values with which it stops. -/
  unsupported : Nat → Int → Bool
  /-- The depth of a sub-tree. -/
  childDepth : Nat → Int → Nat
  visit : Value → σ → σ
  leaf : Nat → Field × Value → List β
  subTree : Nat → Field → List β → List β

namespace Writer

variable {σ β : Type} (w : Writer σ β)

/-- The loop at a depth and a prefix: the state, what was written, and the values that are left. -/
def walk : Nat → Nat → BitVec 32 → σ → List (Field × Value) → Option (σ × List β × List (Field × Value))
  | 0, _, _, _, _ => none
  | _ + 1, _, _, s, [] => some (s, [], [])
  | fuel + 1, depth, expected, s, dim :: dims =>
    let valueDepth := dim.1.getDepth
    let valuePrefix := dim.1.getPrefix depth
    if w.unsupported depth valueDepth then some (s, [], dim :: dims)
    else if (depth : Int) = valueDepth ∧ valuePrefix = expected then do
      let (s, out, rest) ← walk fuel depth expected (w.visit dim.2 s) dims
      some (s, w.leaf depth dim ++ out, rest)
    else if valueDepth > depth ∧ valuePrefix = expected then do
      let childDepth := w.childDepth depth valueDepth
      let (s, children, rest) ← walk fuel childDepth (dim.1.getPrefix childDepth) s (dim :: dims)
      let (s, out, rest) ← walk fuel depth expected s rest
      some (s, w.subTree depth dim.1 children ++ out, rest)
    -- done with the sub-tree
    else some (s, [], dim :: dims)

end Writer

/-! ## Values of dimensions -/

/-- The value of a dimension in a message. -/
inductive LeafValue where
  | value_int (value : Int)
  | value_long (value : Int)
  | value_float (value : BitVec 32)
  | value_str (value : List UInt8)
  | value_str_hash (hash : BitVec 64)
deriving DecidableEq

/-- The strings that are written as hashes, if they are. -/
abbrev StrSet := Option (Finset (List UInt8))

/-- A string is noted before its hash is written. -/
def insertString (value : Value) (str_set : StrSet) : StrSet :=
  match value with
  | .STRING str_value => str_set.map (insert str_value)
  | _ => str_set

section

variable (Hash64 : List UInt8 → BitVec 64)

/-- The value that is written; other types are not. -/
def leafValue (hashed : Bool) : Value → Option LeafValue
  | .INT int_value => some (.value_int int_value)
  | .LONG long_value => some (.value_long long_value)
  | .FLOAT float_value => some (.value_float float_value)
  | .STRING str_value => some (if hashed then .value_str_hash (Hash64 str_value) else .value_str str_value)
  | _ => none

/-- The `DimensionsValue` message. -/
inductive DimensionsValue where
  | leaf (field : Int) (value : Option LeafValue)
  | tuple (field : Int) (value_tuple : List DimensionsValue)

/-- The leaves of a dimension, with their sub-trees as tuples. -/
def writeDimensionToProtoHelper (hashed : Bool) : Writer StrSet DimensionsValue where
  unsupported _ valueDepth := decide (valueDepth > 2)
  childDepth _ valueDepth := valueDepth.toNat
  visit := insertString
  leaf depth dim := [.leaf (dim.1.getPosAtDepth depth) (leafValue Hash64 hashed dim.2)]
  subTree depth f children := [.tuple (f.getPosAtDepth depth) children]

/-- `writeDimensionToProto`; nothing is written for an empty key. -/
def writeDimensionToProto (fuel : Nat) (dimension : HashableDimensionKey) (str_set : StrSet) : Option (StrSet × Option DimensionsValue) :=
  match dimension with
  | [] => some (str_set, none)
  | dim :: dims => do
    let (str_set, out, _) ← (writeDimensionToProtoHelper Hash64 str_set.isSome).walk fuel 0 0 str_set (dim :: dims)
    some (str_set, some (.tuple dim.1.mTag out))

/-- A leaf of a dimension, as a message with an id. -/
structure DimensionLeaf where
  dimensionLeafField : Nat
  value : Option LeafValue
deriving DecidableEq

/-- The leaves of a dimension alone. -/
def writeDimensionLeafToProtoHelper (dimensionLeafField : Nat) (hashed : Bool) : Writer StrSet DimensionLeaf where
  unsupported _ valueDepth := decide (valueDepth > 2)
  childDepth _ valueDepth := valueDepth.toNat
  visit := insertString
  leaf _ dim := [⟨dimensionLeafField, leafValue Hash64 hashed dim.2⟩]
  subTree _ _ children := children

def writeDimensionLeafNodesToProto (fuel : Nat) (dimension : HashableDimensionKey) (dimensionLeafFieldId : Nat) (str_set : StrSet) :
    Option (StrSet × List DimensionLeaf) :=
  match dimension with
  | [] => some (str_set, [])
  | dim :: dims => do
    let (str_set, out, _) ← (writeDimensionLeafToProtoHelper Hash64 dimensionLeafFieldId str_set.isSome).walk fuel 0 0 str_set (dim :: dims)
    some (str_set, out)

end

def STATS_DIMENSIONS_VALUE_STRING_TYPE : Int := 2
def STATS_DIMENSIONS_VALUE_INT_TYPE : Int := 3
def STATS_DIMENSIONS_VALUE_LONG_TYPE : Int := 4
def STATS_DIMENSIONS_VALUE_FLOAT_TYPE : Int := 6
def STATS_DIMENSIONS_VALUE_TUPLE_TYPE : Int := 7

inductive StatsDimensionsValueParcel where
  | mk (field valueType : Int) (value : Option LeafValue) (tupleValue : List StatsDimensionsValueParcel)

/-- The type and the value in a parcel; those of other types keep their defaults. -/
def parcelValue : Value → Int × Option LeafValue
  | .INT int_value => (STATS_DIMENSIONS_VALUE_INT_TYPE, some (.value_int int_value))
  | .LONG long_value => (STATS_DIMENSIONS_VALUE_LONG_TYPE, some (.value_long long_value))
  | .FLOAT float_value => (STATS_DIMENSIONS_VALUE_FLOAT_TYPE, some (.value_float float_value))
  | .STRING str_value => (STATS_DIMENSIONS_VALUE_STRING_TYPE, some (.value_str str_value))
  | _ => (0, none)

/-- The children go down one depth at a time. -/
def populateStatsDimensionsValueParcelChildren : Writer Unit StatsDimensionsValueParcel where
  unsupported depth _ := decide (depth > 2)
  childDepth depth _ := depth + 1
  visit _ s := s
  leaf depth dim := [.mk (dim.1.getPosAtDepth depth) (parcelValue dim.2).1 (parcelValue dim.2).2 []]
  subTree depth f children := [.mk (f.getPosAtDepth depth) STATS_DIMENSIONS_VALUE_TUPLE_TYPE none children]

def toStatsDimensionsValueParcel (fuel : Nat) (mValues : HashableDimensionKey) : Option StatsDimensionsValueParcel :=
  match mValues with
  | [] => some (.mk 0 0 none [])
  | dim :: dims => do
    let (_, out, _) ← populateStatsDimensionsValueParcelChildren.walk fuel 0 0 () (dim :: dims)
    some (.mk dim.1.mTag STATS_DIMENSIONS_VALUE_TUPLE_TYPE none out)

/-! ## Events -/

/-- A field of an atom: a value, or a message of fields. -/
inductive AtomField where
  | value (fieldNum : Int) (value : Value)
  | message (fieldNum : Int) (repeated : Bool) (fields : List AtomField)

/-- A sub-tree two depths down is a repeated message; the position in between is implied by its place. -/
def writeFieldValueTreeToStreamHelper : Writer Unit AtomField where
  unsupported _ valueDepth := decide (valueDepth > 2)
  childDepth _ valueDepth := valueDepth.toNat
  visit _ s := s
  leaf depth dim :=
    match dim.2 with
    | .INT _ => [.value (dim.1.getPosAtDepth depth) dim.2]
    | .LONG _ => [.value (dim.1.getPosAtDepth depth) dim.2]
    | .FLOAT _ => [.value (dim.1.getPosAtDepth depth) dim.2]
    | .STRING _ => [.value (dim.1.getPosAtDepth depth) dim.2]
    | .STORAGE _ => [.value (dim.1.getPosAtDepth depth) dim.2]
    | _ => []
  subTree depth f children :=
    if f.getDepth = depth + 2 then [.message (f.getPosAtDepth depth) true children]
    else if f.getDepth = depth + 1 then [.message (f.getPosAtDepth depth) false children]
    else children

def writeFieldValueTreeToStream (fuel : Nat) (tagId : Int) (values : List FieldValue) : Option AtomField := do
  let (_, out, _) ← writeFieldValueTreeToStreamHelper.walk fuel 0 0 () (fieldsOf values)
  some (.message tagId false out)

/-! ## What a walk writes -/

/-- The value stands at the depth or below it, in the sub-tree of a prefix. -/
def InSubTree (depth : Nat) (expected : BitVec 32) (x : Field × Value) : Prop := (depth : Int) ≤ x.1.getDepth ∧ x.1.getPrefix depth = expected

instance (depth : Nat) (expected : BitVec 32) : DecidablePred (InSubTree depth expected) := fun _ => inferInstanceAs (Decidable (_ ∧ _))

/-- The values of accepted events stand at the top or in a node. -/
def AtDepths (x : Field × Value) : Prop := x.1.getDepth = 0 ∨ x.1.getDepth = 2

namespace Writer

variable {σ β : Type}

/-- The writer supports the depths of accepted events, and every sub-tree is deeper. -/
structure Supports (w : Writer σ β) : Prop where
  supported : ∀ depth ≤ 2, ∀ valueDepth ≤ (2 : Int), w.unsupported depth valueDepth = false
  deeper : ∀ depth < 2, depth < w.childDepth depth 2
  low : ∀ depth < 2, w.childDepth depth 2 ≤ 2

/-- A way to read what a writer writes: one item for a value, to which each sub-tree adds its level. -/
structure Reading (w : Writer σ β) (γ : Type) where
  read : List β → List γ
  level : Nat → Field → γ → γ
  item : Nat → Field × Value → γ
  nil : read [] = []
  append : ∀ a b, read (a ++ b) = read a ++ read b
  leaf : ∀ (depth : Nat) (x : Field × Value), x.1.getDepth = depth → read (w.leaf depth x) = [item depth x]
  subTree : ∀ depth f children, read (w.subTree depth f children) = (read children).map (level depth f)
  item_level : ∀ depth < 2, ∀ x : Field × Value, x.1.getDepth = 2 → level depth x.1 (item (w.childDepth depth 2) x) = item depth x
  level_congr : ∀ depth < 2, ∀ f g : Field, f.getPrefix (depth + 1) = g.getPrefix (depth + 1) → level depth f = level depth g

theorem getPrefix_of_deeper {f g : Field} {depth depth' : Nat} (hlt : depth < depth') (hle : depth' ≤ 2)
    (h : f.getPrefix depth' = g.getPrefix depth') : f.getPrefix (depth + 1) = g.getPrefix (depth + 1) ∧ f.getPrefix depth = g.getPrefix depth := by
  have hcases : depth = 0 ∧ depth' = 1 ∨ depth = 0 ∧ depth' = 2 ∨ depth = 1 ∧ depth' = 2 := by omega
  rcases hcases with ⟨rfl, rfl⟩ | ⟨rfl, rfl⟩ | ⟨rfl, rfl⟩
  · exact ⟨h, rfl⟩
  · exact ⟨Field.getPrefix_one_of_two h, rfl⟩
  · exact ⟨h, Field.getPrefix_one_of_two h⟩

/-- The walk at a depth and a prefix takes the values of the sub-tree, and its output has one item for each of them. -/
theorem walk_run {w : Writer σ β} (hw : w.Supports) {γ : Type} (R : Reading w γ) (fuel : Nat) {depth : Nat} (hdepth : depth ≤ 2)
    (expected : BitVec 32) (s : σ) {dims : List (Field × Value)} (hdims : ∀ x ∈ dims, AtDepths x) (hfuel : dims.length + 3 ≤ fuel + depth) :
    ∃ out, w.walk fuel depth expected s dims =
        some ((dims.takeWhile fun x => InSubTree depth expected x).foldl (fun s x => w.visit x.2 s) s, out,
          dims.dropWhile fun x => InSubTree depth expected x) ∧
      R.read out = (dims.takeWhile fun x => InSubTree depth expected x).map (R.item depth) := by
  induction fuel generalizing depth expected s dims with
  | zero => omega
  | succ fuel ih =>
    cases dims with
    | nil => exact ⟨[], rfl, R.nil⟩
    | cons x dims =>
      rw [List.length_cons] at hfuel
      have hx : AtDepths x := hdims x List.mem_cons_self
      have hrest : ∀ y ∈ dims, AtDepths y := fun y hy => hdims y (List.mem_cons_of_mem x hy)
      have hsupported : w.unsupported depth x.1.getDepth = false := hw.supported depth hdepth _ (by rcases hx with h | h <;> omega)
      unfold walk
      dsimp only
      rw [hsupported, if_neg Bool.false_ne_true]
      by_cases hleaf : (depth : Int) = x.1.getDepth ∧ x.1.getPrefix depth = expected
      · -- a value at the depth
        have hin : InSubTree depth expected x := ⟨hleaf.1.le, hleaf.2⟩
        obtain ⟨out, hwalk, hread⟩ := ih hdepth expected (w.visit x.2 s) hrest (by omega)
        rw [if_pos hleaf, hwalk, List.takeWhile_cons, if_pos (decide_eq_true hin), List.dropWhile_cons, if_pos (decide_eq_true hin)]
        refine ⟨w.leaf depth x ++ out, rfl, ?_⟩
        rw [R.append, R.leaf depth x hleaf.1.symm, hread, List.map_cons, List.singleton_append]
      rw [if_neg hleaf]
      by_cases htree : x.1.getDepth > depth ∧ x.1.getPrefix depth = expected
      · -- the first value of a sub-tree
        have htwo : x.1.getDepth = 2 := by rcases hx with h | h <;> omega
        have hlt : depth < 2 := by omega
        have hdeeper := hw.deeper depth hlt
        have hlow := hw.low depth hlt
        rw [if_pos htree, htwo]
        obtain ⟨children, hchildren, hreadChildren⟩ := ih hlow (x.1.getPrefix (w.childDepth depth 2)) s hdims
          (by rw [List.length_cons]; omega)
        have hfirst : InSubTree (w.childDepth depth 2) (x.1.getPrefix (w.childDepth depth 2)) x := ⟨by omega, rfl⟩
        -- the values of the sub-tree
        generalize hrun : (x :: dims).takeWhile (fun y => InSubTree (w.childDepth depth 2) (x.1.getPrefix (w.childDepth depth 2)) y) = run
          at hchildren hreadChildren
        generalize hleft : (x :: dims).dropWhile (fun y => InSubTree (w.childDepth depth 2) (x.1.getPrefix (w.childDepth depth 2)) y) = left
          at hchildren
        have hsplit : x :: dims = run ++ left := by rw [← hrun, ← hleft, List.takeWhile_append_dropWhile]
        have hin : ∀ y ∈ run, InSubTree (w.childDepth depth 2) (x.1.getPrefix (w.childDepth depth 2)) y := fun y hy =>
          of_decide_eq_true (List.all_eq_true.1 List.all_takeWhile y (hrun ▸ hy))
        have hne : run ≠ [] := by
          rw [← hrun, List.takeWhile_cons, if_pos (decide_eq_true hfirst)]
          exact List.cons_ne_nil _ _
        have hpos := List.length_pos_iff.2 hne
        have hlength := congrArg List.length hsplit
        rw [List.length_cons, List.length_append] at hlength
        obtain ⟨out, hwalk, hread⟩ := ih hdepth expected (run.foldl (fun s x => w.visit x.2 s) s)
          (fun y hy => hdims y (hsplit ▸ List.mem_append_right run hy)) (by omega)
        have houter : ∀ y ∈ run, InSubTree depth expected y := by
          intro y hy
          obtain ⟨hy2, hyPrefix⟩ := hin y hy
          exact ⟨by omega, (getPrefix_of_deeper hdeeper hlow hyPrefix).2.trans htree.2⟩
        have hall : ∀ y ∈ run, (decide (InSubTree depth expected y)) = true := fun y hy => decide_eq_true (houter y hy)
        rw [hsplit, List.takeWhile_append_of_pos hall, List.dropWhile_append_of_pos hall, ← hsplit, hchildren]
        refine ⟨w.subTree depth x.1 children ++ out, ?_, ?_⟩
        · simp only [Option.bind_eq_bind, Option.bind_some, hwalk, List.foldl_append]
        · rw [R.append, R.subTree, hreadChildren, hread, List.map_append, List.map_map]
          congr 1
          refine List.map_congr_left fun y hy => ?_
          obtain ⟨hy2, hyPrefix⟩ := hin y hy
          have hyTwo : y.1.getDepth = 2 := by
            have hyDepth := hdims y (hsplit ▸ List.mem_append_left left hy)
            rcases hyDepth with h | h <;> omega
          dsimp only [Function.comp]
          rw [R.level_congr depth hlt x.1 y.1 (getPrefix_of_deeper hdeeper hlow hyPrefix).1.symm]
          exact R.item_level depth hlt y hyTwo
      · -- a value of another sub-tree
        have hout : ¬ InSubTree depth expected x := by
          rintro ⟨hle, heq⟩
          rcases hle.lt_or_eq with hlt | heq'
          · exact htree ⟨hlt, heq⟩
          · exact hleaf ⟨heq', heq⟩
        rw [if_neg htree, List.takeWhile_cons, if_neg (by simpa using hout), List.dropWhile_cons, if_neg (by simpa using hout)]
        exact ⟨[], rfl, R.nil⟩

end Writer

end Statsd
