/-
The paths of a field matcher (FieldValue.cpp). A field matcher is a tree; each of its leaves is reached by
a path of fields and positions below the atom. The translation writes positions and masks into two arrays
that all leaves share, but every leaf finds in them what its own path says, so it emits one matcher for
each path of at most three levels (`translateFieldMatcher_eq`).

A value of an event stands at a path of numbered levels. The matcher of a path matches the field of the
value if and only if the path agrees with the levels one by one, unless the path asks for the last value, or
for all values, of a node (`pathMatcher_matches_iff`): the last value of a node is not marked in its field,
and only nodes are masked when a matcher asks for all.
-/
import Statsd.Logd.EventTree

namespace Statsd

open Logd (Level EventElement EventNode Stands LogEvent elementField nodeField)

/-! ## Paths -/

/-- A level of a path: a field, or a position among repeated items. -/
inductive PathStep where
  | field (n : Int)
  | position (p : Position)
deriving DecidableEq

namespace PathStep

/-- The position and the mask of a level. -/
def code : PathStep → BitVec 32 × BitVec 32
  | field n => (BitVec.ofInt 32 n, 0x7f#32)
  | position p => FieldMatcher.positionCode p

/-- What a level of a path asks of an item. -/
def Agrees : PathStep → Level → Prop
  | field n, l => n = l.index
  | position .FIRST, l => l.index = 1
  | position .LAST, l => l.last = true
  | position .ANY, _ => True
  | position .ALL, _ => True
  | position .POSITION_UNKNOWN, _ => False

/-- Field numbers fit in seven bits, and positions are given. -/
def Valid : PathStep → Prop
  | field n => 1 ≤ n ∧ n ≤ 127
  | position p => p ≠ .POSITION_UNKNOWN

end PathStep

namespace FieldMatcher

mutual

/-- The paths from a matcher to its leaves. -/
def paths : FieldMatcher → List (List PathStep)
  | mk field position child =>
    let step := .field field :: (position.map .position).toList
    if child.isEmpty then [step] else (pathsAll child).map (step ++ ·)

def pathsAll : List FieldMatcher → List (List PathStep)
  | [] => []
  | m :: ms => paths m ++ pathsAll ms

end

/-- The paths below the root, whose field is the atom id. -/
def levelPaths (m : FieldMatcher) : List (List PathStep) := pathsAll m.child

/-- The positions and masks of a path; the arrays start with ones. -/
def codeOf (path : List PathStep) : PathCode :=
  ⟨fun i => (path.getD i (.field 1)).code.1, fun i => (path.getD i (.field 1)).code.2⟩

/-- The matcher of a path. -/
def pathMatcher (tag : Int) (path : List PathStep) : Matcher := (codeOf path).leaf tag (path.length - 1)

/-! ## The translation -/

/-- The arrays hold a path. -/
def Carries (path : List PathStep) (p : PathCode) : Prop :=
  ∀ i < path.length, p.pos i = (codeOf path).pos i ∧ p.mask i = (codeOf path).mask i

theorem Carries.shorter {path path' : List PathStep} {p : PathCode} (h : Carries (path ++ path') p) : Carries path p := by
  intro i hi
  obtain ⟨h1, h2⟩ := h i (by rw [List.length_append]; omega)
  have hget : (path ++ path').getD i (.field 1) = path.getD i (.field 1) := by
    rw [List.getD_eq_getElem?_getD, List.getD_eq_getElem?_getD, List.getElem?_append_left hi]
  unfold codeOf at *
  dsimp only at *
  rw [hget] at h1 h2
  exact ⟨h1, h2⟩

theorem Carries.set {path : List PathStep} {p : PathCode} (h : Carries path p) (s : PathStep) :
    Carries (path ++ [s]) (p.set path.length s.code) := by
  intro i hi
  rw [List.length_append, List.length_singleton] at hi
  unfold codeOf PathCode.set
  dsimp only
  by_cases hlast : i = path.length
  · subst hlast
    simp
  · have hlt : i < path.length := by omega
    obtain ⟨h1, h2⟩ := h i hlt
    rw [Function.update_of_ne hlast, Function.update_of_ne hlast, List.getD_eq_getElem?_getD, List.getElem?_append_left hlt,
      ← List.getD_eq_getElem?_getD]
    exact ⟨h1, h2⟩

theorem getEncodedField_congr {pos pos' : Nat → BitVec 32} {depth : Nat} (h : ∀ i ≤ depth, pos i = pos' i) (includeDepth : Bool) :
    getEncodedField pos depth includeDepth = getEncodedField pos' depth includeDepth := by
  have hfold : ∀ (l : List Nat) (field : BitVec 32), (∀ i ∈ l, i ≤ depth) →
      l.foldl (fun field i => field ||| (pos i <<< (8 * (kMaxLogDepth - i)))) field =
        l.foldl (fun field i => field ||| (pos' i <<< (8 * (kMaxLogDepth - i)))) field := by
    intro l
    induction l with
    | nil => exact fun _ _ => rfl
    | cons i l ih =>
      intro field hl
      rw [List.foldl_cons, List.foldl_cons, h i (hl i List.mem_cons_self)]
      exact ih _ fun j hj => hl j (List.mem_cons_of_mem i hj)
  unfold getEncodedField
  rw [hfold (List.range (depth + 1)) 0#32 fun i hi => Nat.lt_succ_iff.1 (List.mem_range.1 hi)]

theorem Carries.leaf {path : List PathStep} {p : PathCode} (h : Carries path p) (hpath : path ≠ []) (tag : Int) :
    p.leaf tag (path.length - 1) = pathMatcher tag path := by
  have hlen := List.length_pos_iff.2 hpath
  unfold pathMatcher PathCode.leaf Field.ofPos encodeMatcherMask
  rw [getEncodedField_congr fun i hi => (h i (by omega)).1, getEncodedField_congr fun i hi => (h i (by omega)).2]

theorem paths_length (m : FieldMatcher) {path : List PathStep} (h : path ∈ m.paths) :
    1 + m.position.toList.length ≤ path.length := by
  obtain ⟨field, position, child⟩ := m
  unfold paths at h
  dsimp only at h
  split at h
  · rw [List.mem_singleton.1 h]
    cases position <;> simp [FieldMatcher.position]
  · obtain ⟨q, -, rfl⟩ := List.mem_map.1 h
    cases position <;> simp [FieldMatcher.position]

/-- The matchers of the paths that fit below a prefix. -/
def emitted (tag : Int) (pre : List PathStep) (paths : List (List PathStep)) : List Matcher :=
  (paths.filter fun q => decide (pre.length + q.length ≤ 3)).map fun q => pathMatcher tag (pre ++ q)

theorem emitted_map (tag : Int) (pre step : List PathStep) (paths : List (List PathStep)) :
    emitted tag pre (paths.map (step ++ ·)) = emitted tag (pre ++ step) paths := by
  unfold emitted
  rw [List.filter_map, List.map_map]
  congr 1
  · funext q
    rw [Function.comp_apply, List.append_assoc]
  · congr 1
    funext q
    rw [Function.comp_apply, List.length_append, List.length_append, Nat.add_assoc]

theorem emitted_leaf {tag : Int} {pre step : List PathStep} {p : PathCode} (h : Carries (pre ++ step) p) (hstep : step ≠ [])
    (hfits : pre.length + step.length ≤ 3) : emitted tag pre [step] = [p.leaf tag (pre.length + step.length - 1)] := by
  have hleaf := h.leaf (List.append_ne_nil_of_right_ne_nil pre hstep) tag
  rw [List.length_append] at hleaf
  unfold emitted
  rw [List.filter_cons_of_pos (by simpa using hfits), List.filter_nil, List.map_singleton, hleaf]

theorem emitted_none {tag : Int} {pre : List PathStep} {paths : List (List PathStep)}
    (h : ∀ q ∈ paths, 3 < pre.length + q.length) : emitted tag pre paths = [] := by
  unfold emitted
  rw [List.filter_eq_nil_iff.2 fun q hq => by simpa using h q hq, List.map_nil]

mutual

theorem translate_eq (tag : Int) : ∀ (m : FieldMatcher) (pre : List PathStep) (p : PathCode) (output : List Matcher), Carries pre p →
    Carries pre (translate tag m pre.length p output).1 ∧
      (translate tag m pre.length p output).2 = output ++ emitted tag pre m.paths
  | mk field position child, pre, p, output, h => by
    unfold translate
    by_cases hdepth : pre.length > kMaxLogDepth
    · rw [if_pos hdepth, emitted_none fun q hq => ?_, List.append_nil]
      · exact ⟨h, rfl⟩
      · have := paths_length _ hq
        unfold kMaxLogDepth at hdepth
        omega
    rw [if_neg hdepth]
    have hfield : Carries (pre ++ [.field field]) (p.set pre.length (BitVec.ofInt 32 field, 0x7f#32)) := h.set (.field field)
    have hlen : (pre ++ [PathStep.field field]).length = pre.length + 1 := by rw [List.length_append]; rfl
    dsimp only
    cases position with
    | none =>
      -- the path goes on below the field
      dsimp only
      unfold paths
      dsimp only
      split
      · rw [show PathStep.field field :: (Option.map PathStep.position none).toList = [.field field] from rfl,
          emitted_leaf hfield (by simp) (by simp; unfold kMaxLogDepth at hdepth; omega)]
        exact ⟨hfield.shorter, rfl⟩
      · rw [emitted_map]
        obtain ⟨h1, h2⟩ := translateAll_eq tag child _ _ output hfield
        rw [hlen] at h1 h2
        exact ⟨h1.shorter, h2⟩
    | some position =>
      dsimp only
      by_cases hposition : pre.length + 1 > 2
      · rw [if_pos hposition, emitted_none fun q hq => ?_, List.append_nil]
        · exact ⟨hfield.shorter, rfl⟩
        · have hq := paths_length _ hq
          rw [show (mk field (some position) child).position.toList.length = 1 from rfl] at hq
          omega
      rw [if_neg hposition]
      have hpair := hfield.set (.position position)
      rw [hlen, List.append_assoc] at hpair
      unfold paths
      dsimp only
      split
      · rw [show PathStep.field field :: (Option.map PathStep.position (some position)).toList = [.field field] ++ [.position position] from rfl,
          emitted_leaf hpair (by simp) (by simp; omega)]
        exact ⟨hpair.shorter, rfl⟩
      · rw [emitted_map]
        obtain ⟨h1, h2⟩ := translateAll_eq tag child _ _ output hpair
        have hlen2 : (pre ++ ([PathStep.field field] ++ [PathStep.position position])).length = pre.length + 2 := by simp
        rw [hlen2] at h1 h2
        exact ⟨h1.shorter, h2⟩

theorem translateAll_eq (tag : Int) : ∀ (ms : List FieldMatcher) (pre : List PathStep) (p : PathCode) (output : List Matcher), Carries pre p →
    Carries pre (translateAll tag ms pre.length p output).1 ∧
      (translateAll tag ms pre.length p output).2 = output ++ emitted tag pre (pathsAll ms)
  | [], pre, p, output, h => ⟨h, by simp [translateAll, pathsAll, emitted]⟩
  | m :: ms, pre, p, output, h => by
    obtain ⟨h1, h2⟩ := translate_eq tag m pre p output h
    obtain ⟨h3, h4⟩ := translateAll_eq tag ms pre _ (translate tag m pre.length p output).2 h1
    unfold translateAll pathsAll
    refine ⟨h3, h4.trans ?_⟩
    rw [h2]
    unfold emitted
    rw [List.filter_append, List.map_append, List.append_assoc]

end

theorem translateFieldMatcher_eq (m : FieldMatcher) :
    translateFieldMatcher m = (m.levelPaths.filter fun path => decide (path.length ≤ 3)).map (pathMatcher m.field) := by
  have hall := (translateAll_eq m.field m.child [] ⟨fun _ => 1#32, fun _ => 0x7f#32⟩ [] (fun i hi => absurd hi (by simp))).2
  unfold translateFieldMatcher levelPaths
  rw [show (0 : Nat) = ([] : List PathStep).length from rfl, hall]
  unfold emitted
  simp

end FieldMatcher

/-! ## Words of four bytes -/

/-- The four bytes of a field or a mask. -/
def word (d b0 b1 b2 : BitVec 8) : BitVec 32 := d ++ b0 ++ b1 ++ b2

theorem word_eq (d b0 b1 b2 : BitVec 8) :
    word d b0 b1 b2 = (d.setWidth 32 <<< 24) ||| (b0.setWidth 32 <<< 16) ||| (b1.setWidth 32 <<< 8) ||| b2.setWidth 32 := by
  have h : (d ++ b0 ++ b1 ++ b2).setWidth 32 = (d.setWidth 32 <<< 24) ||| (b0.setWidth 32 <<< 16) ||| (b1.setWidth 32 <<< 8) |||
      b2.setWidth 32 := BitVec.setWidth_append_append_append_eq_shiftLeft_setWidth_or
  rw [← h]
  exact (BitVec.setWidth_eq _).symm

theorem word_and (d b0 b1 b2 e m0 m1 m2 : BitVec 8) :
    word d b0 b1 b2 &&& word e m0 m1 m2 = word (d &&& e) (b0 &&& m0) (b1 &&& m1) (b2 &&& m2) := by
  unfold word
  refine (BitVec.and_append (w := 24) (v := 8)).trans ?_
  rw [BitVec.and_append (w := 16) (v := 8), BitVec.and_append (w := 8) (v := 8)]

theorem word_or (d b0 b1 b2 e m0 m1 m2 : BitVec 8) :
    word d b0 b1 b2 ||| word e m0 m1 m2 = word (d ||| e) (b0 ||| m0) (b1 ||| m1) (b2 ||| m2) := by
  unfold word
  refine (BitVec.or_append (w := 24) (v := 8)).trans ?_
  rw [BitVec.or_append (w := 16) (v := 8), BitVec.or_append (w := 8) (v := 8)]

theorem append_byte_inj {w : Nat} {x y : BitVec w} {b c : BitVec 8} (h : x ++ b = y ++ c) : x = y ∧ b = c := by
  have hl := congrArg (BitVec.extractLsb' 8 w) h
  have hr := congrArg (BitVec.extractLsb' 0 8) h
  rw [BitVec.extractLsb'_append_eq_left, BitVec.extractLsb'_append_eq_left] at hl
  rw [BitVec.extractLsb'_append_eq_right, BitVec.extractLsb'_append_eq_right] at hr
  exact ⟨hl, hr⟩

theorem word_inj {d b0 b1 b2 e c0 c1 c2 : BitVec 8} :
    word d b0 b1 b2 = word e c0 c1 c2 ↔ d = e ∧ b0 = c0 ∧ b1 = c1 ∧ b2 = c2 := by
  constructor
  · intro h
    obtain ⟨h, h2⟩ := append_byte_inj h
    obtain ⟨h, h1⟩ := append_byte_inj h
    obtain ⟨hd, h0⟩ := append_byte_inj h
    exact ⟨hd, h0, h1, h2⟩
  · rintro ⟨rfl, rfl, rfl, rfl⟩
    rfl

theorem word_toNat (d b0 b1 b2 : BitVec 8) :
    (word d b0 b1 b2).toNat = ((d.toNat * 256 + b0.toNat) * 256 + b1.toNat) * 256 + b2.toNat := by
  have hstep {w : Nat} (x : BitVec w) (b : BitVec 8) : (x ++ b).toNat = x.toNat * 256 + b.toNat := by
    rw [BitVec.toNat_append, Nat.shiftLeft_eq, Nat.mul_comm, ← Nat.two_pow_add_eq_or_of_lt b.isLt]
  unfold word
  rw [hstep, hstep, hstep]

theorem or_rotate (a b c d : BitVec 32) : a ||| b ||| c ||| d = b ||| c ||| d ||| a := by
  rw [BitVec.or_assoc, BitVec.or_assoc, BitVec.or_comm, ← BitVec.or_assoc]

theorem getEncodedField_word (bytes : Nat → BitVec 8) {depth : Nat} (hdepth : depth ≤ 2) (includeDepth : Bool) :
    getEncodedField (fun i => (bytes i).setWidth 32) depth includeDepth =
      word (if includeDepth then BitVec.ofNat 8 depth else 0) (bytes 0) (if 1 ≤ depth then bytes 1 else 0)
        (if 2 ≤ depth then bytes 2 else 0) := by
  rw [word_eq, or_rotate]
  interval_cases depth <;> cases includeDepth <;> simp [getEncodedField, List.range_succ, kMaxLogDepth]

namespace PathStep

/-- The position and the mask of a level as bytes. -/
def bytes : PathStep → BitVec 8 × BitVec 8
  | field n => (BitVec.ofNat 8 n.toNat, 0x7f#8)
  | position .ALL => (0#8, 0x7f#8)
  | position .ANY => (0#8, 0#8)
  | position .FIRST => (1#8, 0x7f#8)
  | position .LAST => (0x80#8, 0x80#8)
  | position .POSITION_UNKNOWN => (0#8, 0#8)

theorem code_eq {s : PathStep} (h : s.Valid) : s.code = (s.bytes.1.setWidth 32, s.bytes.2.setWidth 32) := by
  cases s with
  | field n =>
    obtain ⟨h1, h2⟩ : 1 ≤ n ∧ n ≤ 127 := h
    have hn : BitVec.ofInt 32 n = (BitVec.ofNat 8 n.toNat).setWidth 32 := by
      apply BitVec.eq_of_toNat_eq
      simp only [BitVec.toNat_ofInt, BitVec.toNat_setWidth, BitVec.toNat_ofNat]
      omega
    simp [code, bytes, hn]
  | position p => cases p <;> simp [code, bytes, FieldMatcher.positionCode]

/-- The byte of a level in a field, with the mark of a last item. -/
def byteOf (index : Nat) (marked : Bool) : BitVec 8 := BitVec.ofNat 8 index ||| (if marked then 0x80#8 else 0#8)

theorem byteOf_low {index : Nat} (h : index < 128) (marked : Bool) : byteOf index marked &&& 0x7f#8 = BitVec.ofNat 8 index := by
  have hall : ∀ (i : Fin 128) (marked : Bool), byteOf i marked &&& 0x7f#8 = BitVec.ofNat 8 i := by decide +kernel
  exact hall ⟨index, h⟩ marked

theorem byteOf_high {index : Nat} (h : index < 128) (marked : Bool) :
    byteOf index marked &&& 0x80#8 = if marked then 0x80#8 else 0#8 := by
  have hall : ∀ (i : Fin 128) (marked : Bool), byteOf i marked &&& 0x80#8 = if marked then 0x80#8 else 0#8 := by decide +kernel
  exact hall ⟨index, h⟩ marked

theorem ofNat_byte_inj {m n : Nat} (hm : m < 128) (hn : n < 128) : BitVec.ofNat 8 m = BitVec.ofNat 8 n ↔ m = n := by
  constructor
  · intro h
    have h := congrArg BitVec.toNat h
    simp only [BitVec.toNat_ofNat] at h
    omega
  · rintro rfl
    rfl

/-- The masked byte of a level is the byte of the step. -/
def Hits (s : PathStep) (b : BitVec 8) : Prop := b &&& s.bytes.2 = s.bytes.1

theorem hits_iff {s : PathStep} (hs : s.Valid) {index : Nat} (h1 : 1 ≤ index) (h : index < 128) (marked : Bool) :
    s.Hits (byteOf index marked) ↔ s.Agrees ⟨index, marked⟩ ∧ s ≠ .position .ALL := by
  unfold Hits
  cases s with
  | field n =>
    obtain ⟨hn1, hn2⟩ : 1 ≤ n ∧ n ≤ 127 := hs
    show byteOf index marked &&& 0x7f#8 = BitVec.ofNat 8 n.toNat ↔ n = index ∧ _
    rw [byteOf_low h, ofNat_byte_inj h (by omega)]
    constructor
    · intro he
      exact ⟨by omega, by simp⟩
    · rintro ⟨he, -⟩
      omega
  | position p =>
    cases p with
    | POSITION_UNKNOWN => exact absurd rfl hs
    | FIRST =>
      show byteOf index marked &&& 0x7f#8 = BitVec.ofNat 8 1 ↔ index = 1 ∧ _
      rw [byteOf_low h, ofNat_byte_inj h (by omega)]
      simp
    | LAST =>
      show byteOf index marked &&& 0x80#8 = 0x80#8 ↔ marked = true ∧ _
      rw [byteOf_high h]
      cases marked <;> simp
    | ANY => simp [bytes, Agrees]
    | ALL =>
      show byteOf index marked &&& 0x7f#8 = BitVec.ofNat 8 0 ↔ _
      rw [byteOf_low h, ofNat_byte_inj h (by omega)]
      simp
      omega

end PathStep

/-! ## Fields and matchers as words -/

/-- The field of a value, at one level or at three. -/
inductive Encoded (tag : Int) : List Level → Field → Prop where
  | element {e : Level} (he : 1 ≤ e.index) (he' : e.index < 128) :
      Encoded tag [e] ⟨tag, word 0 (PathStep.byteOf e.index false) 0 0⟩
  | node {e n v : Level} (he : 1 ≤ e.index) (he' : e.index < 128) (hn : 1 ≤ n.index) (hn' : n.index < 128)
      (hv : 1 ≤ v.index) (hv' : v.index < 128) :
      Encoded tag [e, n, v] ⟨tag, word 2 (PathStep.byteOf e.index false) (PathStep.byteOf n.index n.last) (PathStep.byteOf v.index false)⟩

theorem Encoded.tag {tag : Int} {levels : List Level} {f : Field} (h : Encoded tag levels f) : f.mTag = tag := by
  cases h with
  | element => rfl
  | node => rfl

/-- The positions of a value as bytes. -/
def byteAt (field node number : Nat) : Nat → BitVec 8
  | 0 => BitVec.ofNat 8 field
  | 1 => BitVec.ofNat 8 node
  | _ => BitVec.ofNat 8 number

theorem posOf_eq {field node number : Nat} (hfield : field < 256) (hnode : node < 256) (hnumber : number < 256) :
    LogEvent.posOf field node number = fun i => (byteAt field node number i).setWidth 32 := by
  have hbyte {k : Nat} (hk : k < 256) : BitVec.ofNat 32 k = (BitVec.ofNat 8 k).setWidth 32 := by
    apply BitVec.eq_of_toNat_eq
    simp only [BitVec.toNat_setWidth, BitVec.toNat_ofNat]
    omega
  funext i
  match i with
  | 0 => exact hbyte hfield
  | 1 => exact hbyte hnode
  | i + 2 => exact hbyte hnumber

theorem byteOf_unmarked (index : Nat) : PathStep.byteOf index false = BitVec.ofNat 8 index := by simp [PathStep.byteOf]

theorem elementField_eq (tag : Int) {field : Nat} (h : field < 128) :
    elementField tag field = ⟨tag, word 0 (PathStep.byteOf field false) 0 0⟩ := by
  unfold elementField Field.ofPos
  rw [posOf_eq (by omega) (by decide) (by decide), getEncodedField_word _ (by decide), byteOf_unmarked]
  rfl

theorem nodeField_eq (tag : Int) {field node number : Nat} (hfield : field < 128) (hnode : node < 256) (hnumber : number < 128)
    (lastNode : Bool) :
    nodeField tag field node number lastNode =
      ⟨tag, word 2 (PathStep.byteOf field false) (PathStep.byteOf node lastNode) (PathStep.byteOf number false)⟩ := by
  have hplain : Field.ofPos tag (LogEvent.posOf field node number) 2 =
      ⟨tag, word 2 (BitVec.ofNat 8 field) (BitVec.ofNat 8 node) (BitVec.ofNat 8 number)⟩ := by
    unfold Field.ofPos
    rw [posOf_eq (by omega) hnode (by omega), getEncodedField_word _ (by decide)]
    rfl
  unfold nodeField
  dsimp only
  rw [hplain, byteOf_unmarked, byteOf_unmarked]
  cases lastNode with
  | false => rw [byteOf_unmarked]; rfl
  | true =>
    have hmark : (0x80#32 <<< (8 * (kMaxLogDepth - 1)) : BitVec 32) = word 0 0 0x80 0 := by decide +kernel
    simp only [if_true, Field.decorateLastPos]
    rw [hmark, word_or]
    simp [PathStep.byteOf]

/-- The elements of an accepted event, whose lists have at most 127 nodes. -/
structure TreeOf (event : LogEvent) (es : List EventElement) : Prop where
  views : event.Views es
  short : es.length ≤ 125
  lists : ∀ nodes, .list nodes ∈ es → nodes.length ≤ 127

theorem TreeOf.encoded {event : LogEvent} {es : List EventElement} (h : TreeOf event es) {levels : List Level} {v : FieldValue}
    (hv : Stands es levels v) : Encoded event.mTagId levels v.mField := by
  have hindex {i : Nat} {e : EventElement} (he : es[i]? = some e) : i < 125 :=
    lt_of_lt_of_le (List.getElem?_eq_some_iff.1 he).1 h.short
  have hnode {i j : Nat} {nodes : List EventNode} {n : EventNode} (he : es[i]? = some (.list nodes)) (hn : nodes[j]? = some n) :
      j < 127 := lt_of_lt_of_le (List.getElem?_eq_some_iff.1 hn).1 (h.lists nodes (List.mem_of_getElem? he))
  have hplaced {i j : Nat} {nodes : List EventNode} {n : EventNode} (he : es[i]? = some (.list nodes)) (hn : nodes[j]? = some n) :
      n.PlacedAt event.mTagId (i + 1) (j + 1) (decide (j + 1 = nodes.length)) := by
    have hlist : Logd.PlacedNodes event.mTagId (1 + i) 1 nodes := h.views.placed.get he
    have hn := hlist.get hn
    rwa [Nat.add_comm 1 i, Nat.add_comm 1 j] at hn
  cases hv with
  | @element i v he =>
    have hi := hindex he
    have hfield : v.mField = elementField event.mTagId (1 + i) := h.views.placed.get he
    rw [hfield, Nat.add_comm 1 i, elementField_eq _ (by omega)]
    have h1 : 1 ≤ i + 1 := by omega
    have h2 : i + 1 < 128 := by omega
    exact @Encoded.element event.mTagId ⟨i + 1, decide (i + 1 = es.length)⟩ h1 h2
  | @first i j nodes n he hn =>
    have hi := hindex he
    have hj := hnode he hn
    rw [(hplaced he hn).first, nodeField_eq _ (by omega) (by omega) (by decide)]
    have h1 : 1 ≤ i + 1 ∧ i + 1 < 128 := by omega
    have h2 : 1 ≤ j + 1 ∧ j + 1 < 128 := by omega
    have h3 : 1 ≤ 1 ∧ 1 < 128 := by omega
    exact @Encoded.node event.mTagId ⟨i + 1, decide (i + 1 = es.length)⟩ ⟨j + 1, decide (j + 1 = nodes.length)⟩ ⟨1, false⟩
      h1.1 h1.2 h2.1 h2.2 h3.1 h3.2
  | @second i j nodes n he hn =>
    have hi := hindex he
    have hj := hnode he hn
    have hlow := (hplaced he hn).low
    have hhigh := (hplaced he hn).high
    rw [(hplaced he hn).second, nodeField_eq _ (by omega) (by omega) (by omega)]
    have h1 : 1 ≤ i + 1 ∧ i + 1 < 128 := by omega
    have h2 : 1 ≤ j + 1 ∧ j + 1 < 128 := by omega
    have h3 : 1 ≤ n.number ∧ n.number < 128 := by omega
    exact @Encoded.node event.mTagId ⟨i + 1, decide (i + 1 = es.length)⟩ ⟨j + 1, decide (j + 1 = nodes.length)⟩ ⟨n.number, true⟩
      h1.1 h1.2 h2.1 h2.2 h3.1 h3.2

/-- The bytes of a path; levels it does not have are zero. -/
def stepByte (path : List PathStep) (i : Nat) : BitVec 8 × BitVec 8 := (path[i]?.map PathStep.bytes).getD (0, 0)

theorem pathMatcher_eq (tag : Int) {path : List PathStep} (hpath : path ≠ []) (hlen : path.length ≤ 3)
    (hvalid : ∀ s ∈ path, s.Valid) :
    FieldMatcher.pathMatcher tag path =
      ⟨⟨tag, word (BitVec.ofNat 8 (path.length - 1)) (stepByte path 0).1 (stepByte path 1).1 (stepByte path 2).1⟩,
        word 0xff (stepByte path 0).2 (stepByte path 1).2 (stepByte path 2).2⟩ := by
  have hpos := List.length_pos_iff.2 hpath
  have hcode : ∀ i ≤ path.length - 1, (path.getD i (.field 1)).code =
      ((stepByte path i).1.setWidth 32, (stepByte path i).2.setWidth 32) := by
    intro i hi
    have hlt : i < path.length := by omega
    have hget : path[i]? = some path[i] := List.getElem?_eq_getElem hlt
    rw [List.getD_eq_getElem?_getD, stepByte, hget]
    exact PathStep.code_eq (hvalid _ (List.getElem_mem hlt))
  have hnone : ∀ i, path.length ≤ i → stepByte path i = (0, 0) := by
    intro i hi
    rw [stepByte, List.getElem?_eq_none hi]
    rfl
  have hif (i : Nat) : (if i ≤ path.length - 1 then (stepByte path i).1 else 0) = (stepByte path i).1 ∧
      (if i ≤ path.length - 1 then (stepByte path i).2 else 0) = (stepByte path i).2 := by
    split
    · exact ⟨rfl, rfl⟩
    · rw [hnone i (by omega)]
      exact ⟨rfl, rfl⟩
  unfold FieldMatcher.pathMatcher FieldMatcher.PathCode.leaf Field.ofPos encodeMatcherMask FieldMatcher.codeOf
  dsimp only
  rw [FieldMatcher.getEncodedField_congr fun i hi => congrArg Prod.fst (hcode i hi),
    FieldMatcher.getEncodedField_congr fun i hi => congrArg Prod.snd (hcode i hi),
    getEncodedField_word (fun i => (stepByte path i).1) (by omega), getEncodedField_word (fun i => (stepByte path i).2) (by omega),
    show (0xff000000#32) = word 0xff 0 0 0 by decide +kernel, word_or, (hif 1).1, (hif 1).2, (hif 2).1, (hif 2).2]
  simp

/-! ## Matching -/

theorem getDepth_word (tag : Int) (b0 b1 b2 : BitVec 8) : Field.getDepth ⟨tag, word 2 b0 b1 b2⟩ = 2 := by
  have h := word_toNat 2 b0 b1 b2
  have h0 := b0.isLt
  have h1 := b1.isLt
  have h2 := b2.isLt
  rw [show (2 : BitVec 8).toNat = 2 from rfl] at h
  unfold Field.getDepth
  dsimp only
  rw [BitVec.toInt_sshiftRight, BitVec.toInt_eq_toNat_of_lt (by omega), Int.shiftRight_eq_div_pow, h]
  omega

theorem getRawMaskAtDepth_word (f : Field) (d m0 m1 m2 : BitVec 8) :
    Matcher.getRawMaskAtDepth ⟨f, word d m0 m1 m2⟩ 1 = 0x7f#32 ↔ m1 = 0x7f := by
  have hall : ∀ b : Fin 256, word 0 0 (BitVec.ofFin b) 0 >>> 8 = 0x7f#32 ↔ BitVec.ofFin b = 0x7f#8 := by decide +kernel
  show ((word d m0 m1 m2 &&& 0x00ffffff#32) &&& (0xff#32 <<< 8)) >>> 8 = 0x7f#32 ↔ m1 = 0x7f
  rw [show (0x00ffffff#32) = word 0 0xff 0xff 0xff by decide +kernel,
    show (0xff#32 <<< 8) = word 0 0 0xff 0 by decide +kernel, word_and, word_and]
  have hbyte : word (d &&& 0 &&& 0) (m0 &&& 0xff &&& 0) (m1 &&& 0xff &&& 0xff) (m2 &&& 0xff &&& 0) = word 0 0 m1 0 := by
    rw [word_inj]
    refine ⟨by simp, by simp, ?_, by simp⟩
    rw [BitVec.and_assoc, BitVec.and_self]
    exact BitVec.and_allOnes
  rw [hbyte]
  exact hall m1.toFin

theorem matches_word (tag tag' : Int) (d b0 b1 b2 e p0 p1 p2 m0 m1 m2 : BitVec 8) :
    Field.matches ⟨tag, word d b0 b1 b2⟩ ⟨⟨tag', word e p0 p1 p2⟩, word 0xff m0 m1 m2⟩ = true ↔
      tag = tag' ∧ d = e ∧ b0 &&& m0 = p0 ∧ b2 &&& m2 = p2 ∧
        (b1 &&& m1 = p1 ∨ Matcher.hasAllPositionMatcher ⟨⟨tag', word e p0 p1 p2⟩, word 0xff m0 m1 m2⟩ = true ∧ p1 = 0) := by
  have hd : d &&& 0xff#8 = d := BitVec.and_allOnes
  have hmask : word 0xff m0 m1 m2 &&& 0xffff00ff#32 = word 0xff m0 0 m2 := by
    rw [show (0xffff00ff#32) = word 0xff 0xff 0 0xff by decide +kernel, word_and, word_inj]
    exact ⟨by simp, BitVec.and_allOnes, by simp, BitVec.and_allOnes⟩
  have hzero : b1 &&& (0 : BitVec 8) = p1 ↔ p1 = 0 := by
    rw [show b1 &&& (0 : BitVec 8) = 0 by simp]
    exact eq_comm
  have hd' : d &&& (0xff : BitVec 8) = d := hd
  unfold Field.matches
  by_cases htag : tag = tag'
  · rw [if_neg (by simpa using htag)]
    dsimp only
    rw [hmask, word_and, word_and]
    split
    · rename_i h
      rw [word_inj, hd'] at h
      simp [htag, h.1, h.2.1, h.2.2.1, h.2.2.2]
    · rename_i h
      rw [word_inj, hd'] at h
      rw [Bool.and_eq_true, decide_eq_true_eq, word_inj, hd', hzero]
      constructor
      · rintro ⟨hall, h1, h2, h3, h4⟩
        exact ⟨htag, h1, h2, h4, .inr ⟨hall, h3⟩⟩
      · rintro ⟨-, h1, h2, h3, h4 | ⟨hall, h4⟩⟩
        · exact absurd ⟨h1, h2, h4, h3⟩ h
        · exact ⟨hall, h1, h2, h4, h3⟩
  · rw [if_pos (by simpa using htag)]
    simp [htag]

/-- The path asks for the last value of a node, or for all of them. -/
def AsksValues (path : List PathStep) : Prop := path[2]? = some (.position .LAST) ∨ path[2]? = some (.position .ALL)

instance (path : List PathStep) : Decidable (AsksValues path) := inferInstanceAs (Decidable (_ ∨ _))

/-- The matcher of a path matches the fields whose levels agree with it, unless it asks for the last value or for all. -/
theorem pathMatcher_matches_iff {tag tag' : Int} {path : List PathStep} (hhead : ∃ n rest, path = .field n :: rest)
    (hlen : path.length ≤ 3) (hvalid : ∀ s ∈ path, s.Valid) {levels : List Level} {f : Field} (hf : Encoded tag levels f) :
    f.matches (FieldMatcher.pathMatcher tag' path) = true ↔
      tag = tag' ∧ List.Forall₂ PathStep.Agrees path levels ∧ ¬AsksValues path := by
  obtain ⟨n, rest, rfl⟩ := hhead
  have hn : (PathStep.field n).Valid := hvalid _ List.mem_cons_self
  rw [pathMatcher_eq tag' (by simp) hlen hvalid]
  have hshort (k : Nat) (path : List PathStep) (h : path.length ≤ k) : stepByte path k = (0, 0) := by
    rw [stepByte, List.getElem?_eq_none h]
    rfl
  have hdepth {k : Nat} (hk : k ≤ 2) {d : Nat} (hd : d ≤ 2) : BitVec.ofNat 8 d = BitVec.ofNat 8 k ↔ d = k :=
    PathStep.ofNat_byte_inj (by omega) (by omega)
  have hlen' : rest.length ≤ 2 := Nat.le_of_succ_le_succ hlen
  cases hf with
  | @element e he he' =>
    rw [matches_word]
    match rest, hlen' with
    | [], _ =>
      have hfield := PathStep.hits_iff hn he he' false
      rw [hshort 1 [.field n] (by simp), hshort 2 [.field n] (by simp)]
      simp [PathStep.Hits, stepByte, AsksValues, PathStep.Agrees] at hfield ⊢
      rw [hfield]
      exact fun _ => Iff.rfl
    | s :: rest, hlen' =>
      have hd := hdepth (k := rest.length + 1) (by simpa using hlen') (d := 0) (by omega)
      constructor
      · rintro ⟨-, h, -⟩
        exact absurd (hd.1 h) (by omega)
      · rintro ⟨-, h, -⟩
        cases h with
        | cons _ h => cases h
  | @node e m v he he' hm hm' hv hv' =>
    rw [matches_word]
    by_cases hthree : rest.length = 2
    · obtain ⟨s, t, rfl⟩ := List.length_eq_two.1 hthree
      have hs : s.Valid := hvalid s (by simp)
      have ht : t.Valid := hvalid t (by simp)
      have h0 : PathStep.Hits (.field n) (PathStep.byteOf e.index false) ↔ PathStep.Agrees (.field n) e := by
        rw [PathStep.hits_iff hn he he' false]
        simp [PathStep.Agrees]
      have h1 := PathStep.hits_iff hs hm hm' m.last
      have h2 : PathStep.Hits t (PathStep.byteOf v.index false) ↔ t.Agrees v ∧ ¬AsksValues [.field n, s, t] := by
        rw [PathStep.hits_iff ht hv hv' false]
        match t, ht with
        | .field k, _ => simp [PathStep.Agrees, AsksValues]
        | .position .FIRST, _ => simp [PathStep.Agrees, AsksValues]
        | .position .LAST, _ => simp [PathStep.Agrees, AsksValues]
        | .position .ANY, _ => simp [PathStep.Agrees, AsksValues]
        | .position .ALL, _ => simp [PathStep.Agrees, AsksValues]
      -- the exception for all positions: the byte of the step is zero under a full mask
      have hall : (Matcher.hasAllPositionMatcher ⟨⟨tag', word 2 (PathStep.field n).bytes.1 s.bytes.1 t.bytes.1⟩,
          word 0xff (PathStep.field n).bytes.2 s.bytes.2 t.bytes.2⟩ = true ∧ s.bytes.1 = 0) ↔ s = .position .ALL := by
        unfold Matcher.hasAllPositionMatcher
        rw [Bool.and_eq_true, decide_eq_true_eq, decide_eq_true_eq, getDepth_word, getRawMaskAtDepth_word]
        match s, hs with
        | .field k, hk =>
          obtain ⟨hk1, hk2⟩ : 1 ≤ k ∧ k ≤ 127 := hk
          have hne : ¬BitVec.ofNat 8 k.toNat = BitVec.ofNat 8 0 := by
            rw [PathStep.ofNat_byte_inj (by omega) (by omega)]
            omega
          simpa [PathStep.bytes] using hne
        | .position .FIRST, _ => simp [PathStep.bytes]
        | .position .LAST, _ => simp [PathStep.bytes]
        | .position .ANY, _ => simp [PathStep.bytes]
        | .position .ALL, _ => simp [PathStep.bytes]
      have h1' : PathStep.Hits s (PathStep.byteOf m.index m.last) ∨ s = .position .ALL ↔ s.Agrees m := by
        rw [h1]
        by_cases hs : s = .position .ALL
        · simp [hs, PathStep.Agrees]
        · simp [hs]
      rw [show stepByte [.field n, s, t] 0 = (PathStep.field n).bytes from rfl, show stepByte [.field n, s, t] 1 = s.bytes from rfl,
        show stepByte [.field n, s, t] 2 = t.bytes from rfl, show BitVec.ofNat 8 ([PathStep.field n, s, t].length - 1) = 2 from rfl,
        hall]
      show tag = tag' ∧ 2 = 2 ∧ PathStep.Hits (.field n) _ ∧ PathStep.Hits t _ ∧ (PathStep.Hits s _ ∨ s = .position .ALL) ↔ _
      rw [h0, h1', h2]
      constructor
      · rintro ⟨htag, -, g0, ⟨g2, g⟩, g1⟩
        exact ⟨htag, .cons g0 (.cons g1 (.cons g2 .nil)), g⟩
      · rintro ⟨htag, hagree, g⟩
        simp only [List.forall₂_cons] at hagree
        exact ⟨htag, rfl, hagree.1, ⟨hagree.2.2.1, g⟩, hagree.2.1⟩
    · have hd := hdepth (k := rest.length) (by omega) (d := 2) (by omega)
      constructor
      · rintro ⟨-, h, -⟩
        exact absurd (hd.1 h).symm hthree
      · rintro ⟨-, h, -⟩
        exact absurd (Nat.succ.inj h.length_eq) hthree

/-! ## Field matchers and events -/

namespace FieldMatcher

mutual

theorem paths_head : ∀ (m : FieldMatcher), ∀ path ∈ m.paths, ∃ n rest, path = .field n :: rest
  | mk field position child, path, h => by
    unfold paths at h
    dsimp only at h
    split at h
    · exact ⟨field, _, List.mem_singleton.1 h⟩
    · obtain ⟨q, -, rfl⟩ := List.mem_map.1 h
      exact ⟨field, _, rfl⟩

theorem pathsAll_head : ∀ (ms : List FieldMatcher), ∀ path ∈ pathsAll ms, ∃ n rest, path = .field n :: rest
  | [], path, h => by simp [pathsAll] at h
  | m :: ms, path, h => by
    unfold pathsAll at h
    rcases List.mem_append.1 h with h | h
    · exact paths_head m path h
    · exact pathsAll_head ms path h

end

/-- All field numbers below the root fit in seven bits, and all positions are given. -/
def Valid (m : FieldMatcher) : Prop := ∀ path ∈ m.levelPaths, ∀ s ∈ path, s.Valid

/-- Some matcher of the translation matches the field if and only if the tags agree and some path agrees with
the levels of the field. -/
def Faithful (m : FieldMatcher) (levels : List Level) (f : Field) : Prop :=
  (∃ matcher ∈ translateFieldMatcher m, f.matches matcher = true) ↔
    m.field = f.mTag ∧ ∃ path ∈ m.levelPaths, List.Forall₂ PathStep.Agrees path levels

/-- The matchers match the fields whose levels agree with a path that does not ask for the last value of a node, or for
all of them. -/
theorem translateFieldMatcher_matches_iff {m : FieldMatcher} (hm : m.Valid) {tag : Int} {levels : List Level} {f : Field}
    (hf : Encoded tag levels f) :
    (∃ matcher ∈ translateFieldMatcher m, f.matches matcher = true) ↔
      m.field = tag ∧ ∃ path ∈ m.levelPaths, List.Forall₂ PathStep.Agrees path levels ∧ ¬AsksValues path := by
  have hlevels : levels.length ≤ 3 := by cases hf <;> simp
  rw [translateFieldMatcher_eq]
  constructor
  · rintro ⟨matcher, hmem, hmatch⟩
    obtain ⟨path, hpath, rfl⟩ := List.mem_map.1 hmem
    obtain ⟨hpath, hlen⟩ := List.mem_filter.1 hpath
    obtain ⟨htag, hagree⟩ :=
      (pathMatcher_matches_iff (pathsAll_head _ path hpath) (of_decide_eq_true hlen) (hm path hpath) hf).1 hmatch
    exact ⟨htag.symm, path, hpath, hagree⟩
  · rintro ⟨htag, path, hpath, hagree⟩
    have hlen : path.length ≤ 3 := by rw [hagree.1.length_eq]; exact hlevels
    refine ⟨_, List.mem_map.2 ⟨path, List.mem_filter.2 ⟨hpath, decide_eq_true hlen⟩, rfl⟩, ?_⟩
    exact (pathMatcher_matches_iff (pathsAll_head _ path hpath) hlen (hm path hpath) hf).2 ⟨htag.symm, hagree⟩

theorem masked_word {path : List PathStep} (hhead : ∃ n rest, path = .field n :: rest) (hlen : path.length ≤ 3)
    (hvalid : ∀ s ∈ path, s.Valid) (tag : Int) (d b0 b1 b2 : BitVec 8) :
    word d b0 b1 b2 &&& (pathMatcher tag path).mMask =
      word d (b0 &&& (stepByte path 0).2) (b1 &&& (stepByte path 1).2) (b2 &&& (stepByte path 2).2) := by
  obtain ⟨n, rest, rfl⟩ := hhead
  rw [pathMatcher_eq tag (by simp) hlen hvalid, word_and, show d &&& (0xff : BitVec 8) = d from BitVec.and_allOnes]

theorem masked_all {path : List PathStep} (hhead : ∃ n rest, path = .field n :: rest) (hlen : path.length ≤ 3)
    (hvalid : ∀ s ∈ path, s.Valid) (hall : path[1]? = some (.position .ALL)) (tag : Int) {tag' : Int} {e n u n' u' : Level} {f f' : Field}
    (hf : Encoded tag' [e, n, u] f) (hf' : Encoded tag' [e, n', u'] f') (hne : n.index ≠ n'.index) :
    f.mField &&& (pathMatcher tag path).mMask ≠ f'.mField &&& (pathMatcher tag path).mMask := by
  have hbyte : (stepByte path 1).2 = 0x7f#8 := by rw [stepByte, hall]; rfl
  cases hf with
  | node _ _ _ hn _ _ =>
    cases hf' with
    | node _ _ _ hn' _ _ =>
      dsimp only
      rw [masked_word hhead hlen hvalid, masked_word hhead hlen hvalid, hbyte, Ne, word_inj, PathStep.byteOf_low hn,
        PathStep.byteOf_low hn', PathStep.ofNat_byte_inj hn hn']
      exact fun h => hne h.2.2.1

theorem masked_any {path : List PathStep} (hhead : ∃ n rest, path = .field n :: rest) (hlen : path.length ≤ 3)
    (hvalid : ∀ s ∈ path, s.Valid) (hany : path[1]? = some (.position .ANY)) (tag : Int) {tag' : Int} {e n u n' u' : Level} {f f' : Field}
    (hf : Encoded tag' [e, n, u] f) (hf' : Encoded tag' [e, n', u'] f') (heq : u.index = u'.index) :
    f.mField &&& (pathMatcher tag path).mMask = f'.mField &&& (pathMatcher tag path).mMask := by
  have hbyte : (stepByte path 1).2 = 0#8 := by rw [stepByte, hany]; rfl
  cases hf with
  | node _ _ _ hn _ _ =>
    cases hf' with
    | node _ _ _ hn' _ _ =>
      dsimp only
      rw [masked_word hhead hlen hvalid, masked_word hhead hlen hvalid, hbyte, word_inj, heq]
      simp

/-- The encoding of field paths, for every event the parser accepts. A field matcher is faithful to a value unless the
paths that agree with the levels of the value all ask for the last value of a node, or for all of them; and nodes are kept
apart by all positions and not by any position. -/
theorem faithful_iff (mem : Memory) {ev : LogEvent} (hev : ev.mValues = []) {buf len : Nat}
    (haccepted : (ev.parseBuffer mem buf len).2 = true) :
    (∃ es, es.length ≤ 125 ∧ (ev.parseBuffer mem buf len).1.Views es) ∧
    ∀ es, TreeOf (ev.parseBuffer mem buf len).1 es →
      (∀ v ∈ (ev.parseBuffer mem buf len).1.mValues, ∃ levels, Stands es levels v) ∧
      ∀ m : FieldMatcher, m.Valid →
        (∀ levels v, Stands es levels v →
          (m.Faithful levels v.mField ↔
            (m.field = v.mField.mTag → (∃ path ∈ m.levelPaths, List.Forall₂ PathStep.Agrees path levels) →
              ∃ path ∈ m.levelPaths, List.Forall₂ PathStep.Agrees path levels ∧ ¬AsksValues path))) ∧
        ∀ path ∈ m.levelPaths, path.length ≤ 3 → pathMatcher m.field path ∈ translateFieldMatcher m ∧
          ∀ e n u n' u' v v', Stands es [e, n, u] v → Stands es [e, n', u'] v' →
            (path[1]? = some (.position .ALL) → n.index ≠ n'.index →
              v.mField.mField &&& (pathMatcher m.field path).mMask ≠ v'.mField.mField &&& (pathMatcher m.field path).mMask) ∧
            (path[1]? = some (.position .ANY) → u.index = u'.index →
              v.mField.mField &&& (pathMatcher m.field path).mMask = v'.mField.mField &&& (pathMatcher m.field path).mMask) := by
  refine ⟨LogEvent.parseBuffer_views mem hev haccepted, fun es htree => ⟨fun v hv => ?_, fun m hm => ⟨fun levels v hv => ?_, ?_⟩⟩⟩
  · rw [← htree.views.leaves] at hv
    exact (Logd.mem_leavesOf_iff es v).1 hv
  · have hf := htree.encoded hv
    have htag := hf.tag
    unfold Faithful
    rw [translateFieldMatcher_matches_iff hm hf, htag]
    constructor
    · intro h hroot hpath
      exact (h.2 ⟨hroot, hpath⟩).2
    · intro h
      constructor
      · rintro ⟨hroot, path, hpath, hagree, -⟩
        exact ⟨hroot, path, hpath, hagree⟩
      · rintro ⟨hroot, hpath⟩
        exact ⟨hroot, h hroot hpath⟩
  · intro path hpath hlen
    have hhead := pathsAll_head _ path hpath
    refine ⟨?_, fun e n u n' u' v v' hv hv' => ⟨fun hall hne => ?_, fun hany heq => ?_⟩⟩
    · rw [translateFieldMatcher_eq]
      exact List.mem_map.2 ⟨path, List.mem_filter.2 ⟨hpath, decide_eq_true hlen⟩, rfl⟩
    · exact masked_all hhead hlen (hm path hpath) hall m.field (htree.encoded hv) (htree.encoded hv') hne
    · exact masked_any hhead hlen (hm path hpath) hany m.field (htree.encoded hv) (htree.encoded hv') heq

/-! ## The tag of the only node -/

/-- An event of atom 100 with a chain of one node: uid 30 and an empty tag. -/
def oneNodeBytes : List UInt8 := [7, 3, 1, 0, 0, 0, 0, 0, 0, 0, 0, 0, 100, 0, 0, 0, 9, 1, 30, 0, 0, 0, 0, 0, 0, 0]

def parseOneNode : LogEvent × Bool := LogEvent.parseBuffer (fun address => oneNodeBytes.getD address 0) {} 0 oneNodeBytes.length

def onlyNode : EventNode := ⟨⟨⟨100, 0x02018101#32⟩, .INT 30, {}⟩, 2, ⟨⟨100, 0x02018102#32⟩, .STRING [], {}⟩⟩

def oneNode : List EventElement := [.list [onlyNode]]

theorem oneNode_tree : parseOneNode.2 = true ∧ TreeOf parseOneNode.1 oneNode := by
  have hvalues : parseOneNode.1.mTagId = 100 ∧ parseOneNode.1.mValues = Logd.leavesOf oneNode := by decide +kernel
  refine ⟨by decide +kernel, ⟨⟨?_, hvalues.2.symm⟩, by decide, ?_⟩⟩
  · rw [hvalues.1]
    exact ⟨⟨⟨by decide +kernel, by decide +kernel, by decide, by decide⟩, trivial⟩, trivial⟩
  · intro nodes h
    cases List.mem_singleton.1 h
    decide

/-- The path of the last value of a node. -/
def lastValue : FieldMatcher := .mk 100 none [.mk 1 none [.mk 1 (some .LAST) []]]

/-- The path of the uid of any node. -/
def anyUid : FieldMatcher := .mk 100 none [.mk 1 (some .ANY) [.mk 1 none []]]

theorem lastValue_valid : lastValue.Valid := by
  unfold Valid
  rw [show lastValue.levelPaths = [[.field 1, .field 1, .position .LAST]] from rfl]
  simp [PathStep.Valid]

theorem anyUid_valid : anyUid.Valid := by
  unfold Valid
  rw [show anyUid.levelPaths = [[.field 1, .position .ANY, .field 1]] from rfl]
  simp [PathStep.Valid]

/-- The uid of the only node is matched. -/
theorem anyUid_faithful : anyUid.Faithful [⟨1, true⟩, ⟨1, true⟩, ⟨1, false⟩] ⟨100, 0x02018101#32⟩ := by
  obtain ⟨-, h⟩ := @faithful_iff (fun address => oneNodeBytes.getD address 0) {} rfl 0 oneNodeBytes.length oneNode_tree.1
  have hv : Stands oneNode [⟨1, true⟩, ⟨1, true⟩, ⟨1, false⟩] ⟨⟨100, 0x02018101#32⟩, .INT 30, {}⟩ :=
    @Stands.first oneNode 0 0 [onlyNode] onlyNode rfl rfl
  refine (((h oneNode oneNode_tree.2).2 anyUid anyUid_valid).1 _ _ hv).2 ?_
  rintro - ⟨path, hpath, hagree⟩
  refine ⟨path, hpath, hagree, ?_⟩
  rw [show anyUid.levelPaths = [[.field 1, .position .ANY, .field 1]] from rfl] at hpath
  rw [List.mem_singleton.1 hpath]
  decide

/-- The tag is the last value of the node, and the path of the last value has no matcher that matches it. -/
theorem lastValue_unmatched : ¬∀ (mem : Memory) (ev : LogEvent) (buf len : Nat), ev.mValues = [] →
    (ev.parseBuffer mem buf len).2 = true → ∀ es, TreeOf (ev.parseBuffer mem buf len).1 es → ∀ m : FieldMatcher, m.Valid →
      ∀ levels v, Stands es levels v → m.Faithful levels v.mField := by
  intro h
  have hv : Stands oneNode [⟨1, true⟩, ⟨1, true⟩, ⟨2, true⟩] ⟨⟨100, 0x02018102#32⟩, .STRING [], {}⟩ :=
    @Stands.second oneNode 0 0 [onlyNode] onlyNode rfl rfl
  have hfaithful := h (fun address => oneNodeBytes.getD address 0) {} 0 oneNodeBytes.length rfl oneNode_tree.1 oneNode oneNode_tree.2
    lastValue lastValue_valid _ _ hv
  have hmatch := hfaithful.2 ⟨rfl, [.field 1, .field 1, .position .LAST], List.mem_singleton_self _,
    .cons rfl (.cons rfl (.cons rfl .nil))⟩
  revert hmatch
  decide +kernel

end FieldMatcher

end Statsd
