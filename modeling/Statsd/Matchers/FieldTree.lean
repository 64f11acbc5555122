/-
Positions, and the tree of an accepted event. A position of a repeated field narrows the range to the values of the
first or of the last node, or cuts it into those of each node: the sub-trees that it selects in the tree. So the test
of a simple matcher on an event that the parser accepted holds if and only if the matcher holds of the event's tree.
-/
import Statsd.FieldPaths
import Statsd.Matchers.ValueTree

namespace Statsd.Matchers

open Config (SimpleAtomMatcher)
open Logd (EventElement EventNode leavesOf)
open ValueTree (leaf node)

/-! ## Positions -/

/-- The nodes of a repeated field: they are numbered from 1, and the values of the last one are marked. -/
structure Repeated (depth : Nat) (children : List (Nat × ValueTree)) : Prop where
  first : children.head?.map Prod.fst = some 1
  last : ∀ init c, children = init ++ [c] →
    (∀ v ∈ ValueTree.leavesAll init, v.mField.isLastPos depth = false) ∧ ∀ v ∈ c.2.leaves, v.mField.isLastPos depth = true

section

variable {values : List FieldValue} {depth start stop : Nat} {children : List (Nat × ValueTree)}

theorem rangesFrom_children (hrange : RangeOf values start stop (ValueTree.leavesAll children))
    (hplaced : ∀ c ∈ children, Placed depth c.2) :
    List.Forall₂ (fun range tree => RangeOf values range.1 range.2 tree.leaves ∧ Placed depth tree) (rangesFrom start children)
      (children.map Prod.snd) := by
  induction children generalizing start with
  | nil => exact .nil
  | cons c children ih =>
    rw [leavesAll_cons] at hrange
    refine .cons ⟨hrange.left, hplaced c List.mem_cons_self⟩ ?_
    exact ih hrange.right fun c' hc' => hplaced c' (List.mem_cons_of_mem c hc')

theorem flatMap_leaves (children : List (Nat × ValueTree)) :
    (children.map Prod.snd).flatMap ValueTree.leaves = ValueTree.leavesAll children := by
  induction children with
  | nil => rfl
  | cons c children ih => rw [List.map_cons, List.flatMap_cons, ih, leavesAll_cons]

theorem selects_position (hplaced : Placed depth (.node children)) (hrepeated : Repeated depth children)
    (hrange : RangeOf values start stop (ValueTree.leavesAll children)) :
    Selects values ⟨start, firstEnd depth stop start (entries values start stop), depth,
      [(start, firstEnd depth stop start (entries values start stop))]⟩ depth ((node children).select (some .FIRST)) ∧
    Selects values ⟨lastStart depth start start (entries values start stop), stop, depth,
      [(lastStart depth start start (entries values start stop), stop)]⟩ depth ((node children).select (some .LAST)) ∧
    Selects values ⟨start, stop, depth, subTrees depth stop start (entries values start stop) start
      ((values[start]?.map fun v => v.mField.getPosAtDepth depth).getD 0)⟩ depth ((node children).select (some .ANY)) := by
  obtain ⟨c, rest, rfl⟩ : ∃ c rest, children = c :: rest := by
    cases children with
    | nil => exact absurd hrepeated.first (by simp)
    | cons c rest => exact ⟨c, rest, rfl⟩
  have hone : c.1 = 1 := by simpa using hrepeated.first
  cases hplaced with
  | node _ hsorted hleaves hchildren =>
    obtain ⟨hbelow, hsorted⟩ := List.pairwise_cons.1 hsorted
    obtain ⟨hne, hpos⟩ := hleaves c List.mem_cons_self
    have hleaves' := fun c' hc' => hleaves c' (List.mem_cons_of_mem c hc')
    have hentries : entries values start stop = ValueTree.leavesAll (c :: rest) := hrange.elements
    have hlen := hrange.length
    rw [hentries]
    refine ⟨?_, ?_, ?_⟩
    · -- the values of the first node
      have hrest : ∀ v ∈ ValueTree.leavesAll rest, v.mField.getPosAtDepth depth ≠ 1 := by
        intro v hv
        obtain ⟨c', hc', hv⟩ := mem_leavesAll.1 hv
        have hlt := hbelow c' hc'
        rw [(hleaves' c' hc').2 v hv]
        omega
      rw [leavesAll_cons] at hrange hlen ⊢
      rw [firstEnd_run (fun v hv => by rw [hpos v hv, hone]) hrest hlen]
      have hfound : entries values start (start + c.2.leaves.length) = c.2.leaves := hrange.left.elements
      exact ⟨rfl, by simpa [ValueTree.select, ValueTree.children] using hfound,
        .cons ⟨hrange.left, hchildren c List.mem_cons_self⟩ .nil⟩
    · -- the values of the last node
      obtain ⟨init, l, hinit⟩ : ∃ init l, c :: rest = init ++ [l] := ⟨_, _, (List.dropLast_append_getLast (by simp)).symm⟩
      obtain ⟨hbefore, hlast⟩ := hrepeated.last init l hinit
      have hmem : l ∈ c :: rest := by rw [hinit]; simp
      have hl : ValueTree.leavesAll [l] = l.2.leaves := by rw [leavesAll_cons]; simp [ValueTree.leavesAll]
      rw [hinit, leavesAll_append, hl] at hrange ⊢
      obtain ⟨v, vs, hvs⟩ := List.exists_cons_of_ne_nil (hleaves l hmem).1
      have hstart : lastStart depth start start (ValueTree.leavesAll init ++ l.2.leaves) = start + (ValueTree.leavesAll init).length := by
        rw [hvs]
        exact lastStart_run hbefore (hlast v (by rw [hvs]; exact List.mem_cons_self))
      rw [hstart]
      have hfound : entries values (start + (ValueTree.leavesAll init).length) stop = l.2.leaves := hrange.right.elements
      exact ⟨rfl, by simpa [ValueTree.select, ValueTree.children, hinit] using hfound,
        by simpa [ValueTree.select, ValueTree.children, hinit] using ⟨hrange.right, hchildren l hmem⟩⟩
    · -- the values of each node
      obtain ⟨v, vs, hvs⟩ := List.exists_cons_of_ne_nil hne
      have hget : values[start]? = some v := by
        rw [leavesAll_cons, hvs] at hrange
        exact hrange.head
      have hcurrent : (values[start]?.map fun v => v.mField.getPosAtDepth depth).getD 0 = c.1 := by
        rw [hget]
        exact hpos v (by rw [hvs]; exact List.mem_cons_self)
      rw [leavesAll_cons] at hlen
      rw [List.length_append, ← Nat.add_assoc] at hlen
      have hranges : subTrees depth stop start (ValueTree.leavesAll (c :: rest)) start c.1 = rangesFrom start (c :: rest) := by
        rw [leavesAll_cons, subTrees_run hpos, subTrees_children hsorted hbelow hleaves' start hlen]
        rfl
      rw [hcurrent, hranges]
      exact ⟨rfl, (hentries.trans (flatMap_leaves _).symm), rangesFrom_children hrange hchildren⟩

end

theorem narrow_position {values : List FieldValue} {start stop : Nat} {t : ValueTree} {field : Int} {position : Position}
    (hposition : position = .FIRST ∨ position = .LAST ∨ position = .ANY) (hplaced : Placed 0 t)
    (hrange : RangeOf values start stop t.leaves) (hfield : 1 ≤ field)
    (hrepeated : ∀ c ∈ t.children, (c.1 : Int) = field → ∃ children, c.2 = .node children ∧ Repeated 1 children) :
    (∃ (c : Nat × ValueTree) (n : Narrowed), c ∈ t.children ∧ (c.1 : Int) = field ∧ (∀ c' ∈ t.children, (c'.1 : Int) = field → c' = c) ∧
      narrow values field (some position) start stop 0 = some n ∧ Selects values n 1 (c.2.select (some position))) ∨
    (∀ c ∈ t.children, (c.1 : Int) ≠ field) ∧ narrow values field (some position) start stop 0 = none := by
  unfold narrow
  rw [if_neg (by decide)]
  rcases filterField_tree hplaced (by decide) hrange hfield with ⟨c, s, e, hmem, hc, hunique, hchild, hne, hne', hsub, hfilter⟩ | ⟨hnone, hfilter⟩
  · obtain ⟨children, hnode, hrep⟩ := hrepeated c hmem hc
    rw [if_neg (by have := hrange.lt hne'; omega), hfilter]
    rw [hnode] at hchild hsub
    obtain ⟨hfirst, hlast, hany⟩ := selects_position hchild hrep hsub
    refine .inl ⟨c, ?_⟩
    rw [hnode]
    rcases hposition with rfl | rfl | rfl
    · exact ⟨_, hmem, hc, hunique, rfl, hfirst⟩
    · exact ⟨_, hmem, hc, hunique, rfl, hlast⟩
    · exact ⟨_, hmem, hc, hunique, rfl, hany⟩
  · rw [hfilter]
    refine .inr ⟨hnone, ?_⟩
    split
    · rfl
    · rfl

/-! ## Positions of encoded fields -/

theorem getPosAtDepth_word (tag : Int) (d b0 b1 b2 : BitVec 8) :
    Field.getPosAtDepth ⟨tag, word d b0 b1 b2⟩ 0 = b0.toNat % 128 ∧ Field.getPosAtDepth ⟨tag, word d b0 b1 b2⟩ 1 = b1.toNat % 128 ∧
      Field.getPosAtDepth ⟨tag, word d b0 b1 b2⟩ 2 = b2.toNat % 128 := by
  have hlow (x : BitVec 32) : (x &&& 0x7f#32).toNat = x.toNat % 128 := by
    rw [BitVec.toNat_and]
    exact Nat.and_two_pow_sub_one_eq_mod x.toNat 7
  have hbyte (b : BitVec 8) : b &&& 0xff &&& 0xff = b := by
    rw [show b &&& (0xff : BitVec 8) = b from BitVec.and_allOnes]
    exact BitVec.and_allOnes
  have hmask : (0x00ffffff#32) = word 0 0xff 0xff 0xff := by decide +kernel
  have h0 := b0.isLt
  have h1 := b1.isLt
  have h2 := b2.isLt
  unfold Field.getPosAtDepth Field.getRawPosAtDepth
  refine ⟨?_, ?_, ?_⟩
  · show (((word d b0 b1 b2 &&& 0x00ffffff#32) &&& (0xff#32 <<< 16)) >>> 16 &&& 0x7f#32).toNat = b0.toNat % 128
    rw [hlow, hmask, show (0xff#32 <<< 16) = word 0 0xff 0 0 by decide +kernel, word_and, word_and, hbyte, BitVec.toNat_ushiftRight,
      word_toNat, Nat.shiftRight_eq_div_pow]
    simp
    omega
  · show (((word d b0 b1 b2 &&& 0x00ffffff#32) &&& (0xff#32 <<< 8)) >>> 8 &&& 0x7f#32).toNat = b1.toNat % 128
    rw [hlow, hmask, show (0xff#32 <<< 8) = word 0 0 0xff 0 by decide +kernel, word_and, word_and, hbyte, BitVec.toNat_ushiftRight,
      word_toNat, Nat.shiftRight_eq_div_pow]
    simp
  · show (((word d b0 b1 b2 &&& 0x00ffffff#32) &&& (0xff#32 <<< 0)) >>> 0 &&& 0x7f#32).toNat = b2.toNat % 128
    rw [hlow, hmask, show (0xff#32 <<< 0) = word 0 0 0 0xff by decide +kernel, word_and, word_and, hbyte, BitVec.toNat_ushiftRight,
      word_toNat, Nat.shiftRight_eq_div_pow]
    simp

theorem isLastPos_word (tag : Int) (d b0 b1 b2 : BitVec 8) :
    Field.isLastPos ⟨tag, word d b0 b1 b2⟩ 1 = decide (b1 &&& 0x80#8 ≠ 0#8) := by
  unfold Field.isLastPos
  rw [decide_eq_decide]
  show (word d b0 b1 b2 &&& 0x00ffffff#32) &&& (0x80#32 <<< 8) ≠ 0#32 ↔ _
  rw [show (0x00ffffff#32) = word 0 0xff 0xff 0xff by decide +kernel, show (0x80#32 <<< 8) = word 0 0 0x80 0 by decide +kernel,
    show (0#32) = word 0 0 0 0 by decide +kernel, word_and, word_and, Ne, word_inj,
    show b1 &&& (0xff : BitVec 8) = b1 from BitVec.and_allOnes]
  simp

theorem byteOf_toNat {index : Nat} (h : index < 128) (marked : Bool) : (PathStep.byteOf index marked).toNat % 128 = index := by
  have hlow := congrArg BitVec.toNat (PathStep.byteOf_low h marked)
  rw [BitVec.toNat_and, BitVec.toNat_ofNat] at hlow
  have hmod : (PathStep.byteOf index marked).toNat &&& 127 = (PathStep.byteOf index marked).toNat % 128 :=
    Nat.and_two_pow_sub_one_eq_mod _ 7
  rw [← hmod]
  exact hlow.trans (Nat.mod_eq_of_lt (by omega))

theorem elementField_pos (tag : Int) {field : Nat} (h : field < 128) :
    (Logd.elementField tag field).getPosAtDepth 0 = field ∧ (Logd.elementField tag field).getPosAtDepth 1 = 0 ∧
      (Logd.elementField tag field).getPosAtDepth 2 = 0 := by
  rw [elementField_eq tag h]
  obtain ⟨h0, h1, h2⟩ := getPosAtDepth_word tag 0 (PathStep.byteOf field false) 0 0
  exact ⟨h0.trans (byteOf_toNat h false), h1, h2⟩

theorem nodeField_pos (tag : Int) {field node number : Nat} (hfield : field < 128) (hnode : node < 128) (hnumber : number < 128)
    (lastNode : Bool) :
    (Logd.nodeField tag field node number lastNode).getPosAtDepth 0 = field ∧
      (Logd.nodeField tag field node number lastNode).getPosAtDepth 1 = node ∧
      (Logd.nodeField tag field node number lastNode).getPosAtDepth 2 = number ∧
      (Logd.nodeField tag field node number lastNode).isLastPos 1 = lastNode := by
  rw [nodeField_eq tag hfield (by omega) hnumber]
  obtain ⟨h0, h1, h2⟩ := getPosAtDepth_word tag 2 (PathStep.byteOf field false) (PathStep.byteOf node lastNode) (PathStep.byteOf number false)
  refine ⟨h0.trans (byteOf_toNat hfield false), h1.trans (byteOf_toNat hnode lastNode), h2.trans (byteOf_toNat hnumber false), ?_⟩
  rw [isLastPos_word, PathStep.byteOf_high hnode]
  cases lastNode <;> decide

/-! ## The tree of an accepted event -/

/-- A child stands at a depth: its values have its number there. -/
structure ChildAt (depth : Nat) (c : Nat × ValueTree) : Prop where
  nonempty : c.2.leaves ≠ []
  pos : ∀ v ∈ c.2.leaves, v.mField.getPosAtDepth depth = c.1
  placed : Placed (depth + 1) c.2

theorem placed_node {depth : Nat} {children : List (Nat × ValueTree)} (hdepth : depth ≤ 2)
    (hsorted : children.Pairwise fun c c' => c.1 < c'.1) (h : ∀ c ∈ children, ChildAt depth c) : Placed depth (.node children) :=
  .node hdepth hsorted (fun c hc => ⟨(h c hc).nonempty, (h c hc).pos⟩) fun c hc => (h c hc).placed

section

variable {tag : Int} {field : Nat} (hfield : field < 128)
include hfield

theorem nodeTree_at {i : Nat} {n : EventNode} {lastNode : Bool} (h : n.PlacedAt tag field i lastNode) (hi : i < 128) :
    ChildAt 1 (i, nodeTree n) ∧ (∀ v ∈ (nodeTree n).leaves, v.mField.getPosAtDepth 0 = field) ∧
      ∀ v ∈ (nodeTree n).leaves, v.mField.isLastPos 1 = lastNode := by
  have hlow := h.low
  have hhigh := h.high
  obtain ⟨f0, f1, f2, flast⟩ := nodeField_pos tag hfield hi (show 1 < 128 by decide) lastNode
  obtain ⟨s0, s1, s2, slast⟩ := nodeField_pos tag hfield hi (show n.number < 128 by omega) lastNode
  rw [← h.first] at f0 f1 f2 flast
  rw [← h.second] at s0 s1 s2 slast
  have hleaves : (nodeTree n).leaves = [n.first, n.second] := rfl
  have hboth {P : FieldValue → Prop} (h1 : P n.first) (h2 : P n.second) : ∀ v ∈ (nodeTree n).leaves, P v := by
    rw [hleaves]
    simpa using ⟨h1, h2⟩
  -- below the values there is nothing
  have hleaf (v : FieldValue) : Placed 3 (.leaf v) := .leaf fun k hk hk' => by omega
  refine ⟨⟨by rw [hleaves]; simp, hboth f1 s1, ?_⟩, hboth f0 s0, hboth flast slast⟩
  refine placed_node (le_refl _) (List.pairwise_pair.2 ?_) ?_
  · show 1 < n.number
    omega
  · intro c hc
    rcases List.mem_pair.1 hc with rfl | rfl
    · exact ⟨by simp [ValueTree.leaves], by simpa [ValueTree.leaves] using f2, hleaf _⟩
    · exact ⟨by simp [ValueTree.leaves], by simpa [ValueTree.leaves] using s2, hleaf _⟩

theorem nodeTrees_at {i : Nat} {ns : List EventNode} (h : Logd.PlacedNodes tag field i ns) (hi : i + ns.length ≤ 128) :
    (∀ c ∈ nodeTrees i ns, i ≤ c.1 ∧ ChildAt 1 c ∧ ∀ v ∈ c.2.leaves, v.mField.getPosAtDepth 0 = field) ∧
      (nodeTrees i ns).Pairwise fun c c' => c.1 < c'.1 := by
  induction ns generalizing i with
  | nil => exact ⟨fun c hc => (List.not_mem_nil hc).elim, .nil⟩
  | cons n ns ih =>
    rw [List.length_cons] at hi
    obtain ⟨hat, hpos, -⟩ := nodeTree_at hfield h.1 (by omega)
    obtain ⟨hrest, hsorted⟩ := ih h.2 (by omega)
    rw [nodeTrees]
    refine ⟨fun c hc => ?_, List.pairwise_cons.2 ⟨fun c hc => (hrest c hc).1, hsorted⟩⟩
    rcases List.mem_cons.1 hc with rfl | hc
    · exact ⟨le_refl _, hat, hpos⟩
    · obtain ⟨hle, h⟩ := hrest c hc
      exact ⟨by omega, h⟩

theorem nodeTrees_last {i : Nat} {ns : List EventNode} (h : Logd.PlacedNodes tag field i ns) (hi : i + ns.length ≤ 128)
    {init : List (Nat × ValueTree)} {c : Nat × ValueTree} (hinit : nodeTrees i ns = init ++ [c]) :
    (∀ v ∈ ValueTree.leavesAll init, v.mField.isLastPos 1 = false) ∧ ∀ v ∈ c.2.leaves, v.mField.isLastPos 1 = true := by
  induction ns generalizing i init with
  | nil => simp [nodeTrees] at hinit
  | cons n ns ih =>
    rw [List.length_cons] at hi
    obtain ⟨-, -, hlast⟩ := nodeTree_at hfield h.1 (by omega)
    rw [nodeTrees] at hinit
    cases init with
    | nil =>
      obtain ⟨rfl, hnil⟩ := List.cons.inj hinit
      have hempty : ns.isEmpty = true := by
        cases ns with
        | nil => rfl
        | cons _ _ => simp [nodeTrees] at hnil
      rw [hempty] at hlast
      exact ⟨by simp [ValueTree.leavesAll], hlast⟩
    | cons c' init =>
      obtain ⟨rfl, hrest⟩ := List.cons.inj hinit
      obtain ⟨hbefore, hc⟩ := ih h.2 (by omega) hrest
      have hempty : ns.isEmpty = false := by
        cases ns with
        | nil => simp [nodeTrees] at hrest
        | cons _ _ => rfl
      rw [hempty] at hlast
      refine ⟨fun v hv => ?_, hc⟩
      rw [leavesAll_cons] at hv
      rcases List.mem_append.1 hv with hv | hv
      · exact hlast v hv
      · exact hbefore v hv

end

theorem elementTrees_at {tag : Int} {i : Nat} {es : List EventElement} (h : Logd.PlacedElements tag i es) (hi : i + es.length ≤ 128)
    (hlists : ∀ nodes, .list nodes ∈ es → nodes.length ≤ 127) :
    (∀ c ∈ elementTrees i es, i ≤ c.1 ∧ ChildAt 0 c ∧
      ((∃ value, es[c.1 - i]? = some (.leaf value)) ∨ ∃ children, c.2 = .node children ∧ Repeated 1 children)) ∧
      (elementTrees i es).Pairwise fun c c' => c.1 < c'.1 := by
  induction es generalizing i with
  | nil => exact ⟨fun c hc => (List.not_mem_nil hc).elim, .nil⟩
  | cons e es ih =>
    rw [List.length_cons] at hi
    obtain ⟨hrest, hsorted⟩ := ih h.2 (by omega) fun nodes hnodes => hlists nodes (List.mem_cons_of_mem e hnodes)
    have hbehind : ∀ c ∈ elementTrees (i + 1) es, i < c.1 ∧ i ≤ c.1 ∧ ChildAt 0 c ∧
        ((∃ value, (e :: es)[c.1 - i]? = some (.leaf value)) ∨ ∃ children, c.2 = .node children ∧ Repeated 1 children) := by
      intro c hc
      obtain ⟨hle, hat, hkind⟩ := hrest c hc
      refine ⟨hle, by omega, hat, hkind.imp_left ?_⟩
      rintro ⟨value, hvalue⟩
      refine ⟨value, ?_⟩
      rw [show c.1 - i = (c.1 - (i + 1)) + 1 by omega]
      exact hvalue
    match e, h, hlists with
    | .leaf value, h, _ =>
      have hvalue : value.mField = Logd.elementField tag i := h.1
      obtain ⟨h0, h1, h2⟩ := elementField_pos tag (show i < 128 by omega)
      rw [← hvalue] at h0 h1 h2
      rw [elementTrees]
      refine ⟨fun c hc => ?_, List.pairwise_cons.2 ⟨fun c hc => (hbehind c hc).1, hsorted⟩⟩
      rcases List.mem_cons.1 hc with rfl | hc
      · refine ⟨le_refl _, ⟨by simp [ValueTree.leaves], by simpa [ValueTree.leaves] using h0, .leaf fun k hk hk' => ?_⟩,
          .inl ⟨value, by simp⟩⟩
        have hcases : k = 1 ∨ k = 2 := by omega
        rcases hcases with rfl | rfl
        · exact h1
        · exact h2
      · exact (hbehind c hc).2
    | .list [], _, _ =>
      rw [elementTrees]
      exact ⟨fun c hc => (hbehind c hc).2, hsorted⟩
    | .list (n :: ns), h, hlists =>
      have hplaced : Logd.PlacedNodes tag i 1 (n :: ns) := h.1
      have hlen : 1 + (n :: ns).length ≤ 128 := by
        have := hlists (n :: ns) List.mem_cons_self
        omega
      obtain ⟨hnodes, hnodesSorted⟩ := nodeTrees_at (show i < 128 by omega) hplaced hlen
      rw [elementTrees]
      refine ⟨fun c hc => ?_, List.pairwise_cons.2 ⟨fun c hc => (hbehind c hc).1, hsorted⟩⟩
      rcases List.mem_cons.1 hc with rfl | hc
      · have hleaves : (ValueTree.node (nodeTrees 1 (n :: ns))).leaves = ValueTree.leavesAll (nodeTrees 1 (n :: ns)) := rfl
        refine ⟨le_refl _, ⟨?_, ?_, placed_node (by decide) hnodesSorted fun c hc => (hnodes c hc).2.1⟩, .inr ⟨_, rfl, rfl, ?_⟩⟩
        · rw [hleaves, leavesAll_nodeTrees]
          simp [EventNode.leaves]
        · intro v hv
          rw [hleaves] at hv
          obtain ⟨c, hc, hv⟩ := mem_leavesAll.1 hv
          exact (hnodes c hc).2.2 v hv
        · intro init c hinit
          exact nodeTrees_last (show i < 128 by omega) hplaced hlen hinit
      · exact (hbehind c hc).2

/-! ## Matchers and events -/

/-- A position is that of the first, the last or any node, and the element of the field is not a single value. -/
def AtRepeated (es : List EventElement) (field : Int) : Option Position → Prop
  | none => True
  | some position => (position = .FIRST ∨ position = .LAST ∨ position = .ANY) ∧
      ∀ (i : Nat) (value : FieldValue), es[i]? = some (.leaf value) → (i + 1 : Int) ≠ field

/-- Field numbers are positive, and only top-level repeated fields have positions. -/
def WellPositioned (es : List EventElement) : FieldValueMatcher → Prop
  | .value field position _ => 1 ≤ field ∧ AtRepeated es field position
  | .matches_tuple field position field_value_matcher => 1 ≤ field ∧ AtRepeated es field position ∧ PlainAll field_value_matcher

section

variable {event : Logd.LogEvent} {es : List EventElement}

/-- The tree of an accepted event stands at the top, and the children that are no single values are repeated fields. -/
theorem placed_eventTree (h : TreeOf event es) :
    Placed 0 (eventTree es) ∧ (eventTree es).leaves = event.mValues ∧
      ∀ c ∈ (eventTree es).children, (∃ (i : Nat) (value : FieldValue), es[i]? = some (.leaf value) ∧ c.1 = i + 1) ∨
        ∃ children, c.2 = .node children ∧ Repeated 1 children := by
  have hlen : 1 + es.length ≤ 128 := by
    have := h.short
    omega
  obtain ⟨hat, hsorted⟩ := elementTrees_at h.views.placed hlen h.lists
  refine ⟨placed_node (by decide) hsorted fun c hc => (hat c hc).2.1, (leavesAll_elementTrees 1 es).trans h.views.leaves, fun c hc => ?_⟩
  obtain ⟨hle, -, hkind⟩ := hat c hc
  refine hkind.imp_left ?_
  rintro ⟨value, hvalue⟩
  exact ⟨c.1 - 1, value, hvalue, by omega⟩

theorem narrow_event (h : TreeOf event es) {field : Int} (hfield : 1 ≤ field) {position : Option Position}
    (hposition : AtRepeated es field position) :
    (∃ (c : Nat × ValueTree) (n : Narrowed) (depth : Nat), c ∈ (eventTree es).children ∧ (c.1 : Int) = field ∧
      (∀ c' ∈ (eventTree es).children, (c'.1 : Int) = field → c' = c) ∧
      narrow event.mValues field position 0 event.mValues.length 0 = some n ∧
      Selects event.mValues n depth (c.2.select position)) ∨
    (∀ c ∈ (eventTree es).children, (c.1 : Int) ≠ field) ∧ narrow event.mValues field position 0 event.mValues.length 0 = none := by
  obtain ⟨hplaced, hleaves, hchildren⟩ := placed_eventTree h
  have hrange : RangeOf event.mValues 0 event.mValues.length (eventTree es).leaves := by
    rw [hleaves]
    exact .whole _
  cases position with
  | none =>
    rcases narrow_none hplaced hrange hfield with ⟨c, n, hc⟩ | hnone
    · exact .inl ⟨c, n, 0, hc⟩
    · exact .inr hnone
  | some position =>
    obtain ⟨hkinds, hleaf⟩ := hposition
    have hrepeated : ∀ c ∈ (eventTree es).children, (c.1 : Int) = field → ∃ children, c.2 = .node children ∧ Repeated 1 children := by
      intro c hc hcfield
      rcases hchildren c hc with ⟨i, value, hvalue, hi⟩ | hrep
      · exact absurd (by rw [← hcfield, hi]; push_cast; ring) (hleaf i value hvalue)
      · exact hrep
    rcases narrow_position hkinds hplaced hrange hfield hrepeated with ⟨c, n, hc⟩ | hnone
    · exact .inl ⟨c, n, 1, hc⟩
    · exact .inr hnone

theorem matchesSimple_event (h : TreeOf event es) (uidMap : UidNames) {m : FieldValueMatcher} (hm : WellPositioned es m) :
    matchesSimple uidMap event.mValues m 0 event.mValues.length 0 = true ↔ Holds uidMap m (eventTree es) := by
  cases m with
  | value field position test =>
    obtain ⟨hfield, hposition⟩ := hm
    unfold matchesSimple Holds
    rcases narrow_event h hfield hposition with ⟨c, n, depth, hmem, hc, hunique, hnarrow, hselects⟩ | ⟨hnone, hnarrow⟩
    · rw [hnarrow, exists_child_iff hmem hc hunique fun c => ∃ s ∈ c.select position, ∃ v ∈ s.leaves, test.holds uidMap v = true]
      exact any_found uidMap hselects test
    · rw [hnarrow]
      have hno := not_exists_child hnone fun c => ∃ s ∈ c.select position, ∃ v ∈ s.leaves, test.holds uidMap v = true
      simp [hno]
  | matches_tuple field position field_value_matcher =>
    obtain ⟨hfield, hposition, hsubs⟩ := hm
    unfold matchesSimple Holds
    rcases narrow_event h hfield hposition with ⟨c, n, depth, hmem, hc, hunique, hnarrow, hselects⟩ | ⟨hnone, hnarrow⟩
    · rw [hnarrow, exists_child_iff hmem hc hunique fun c => ∃ s ∈ c.select position, HoldsAll uidMap field_value_matcher s]
      have hranges := hselects.ranges
      rw [← hselects.level] at hranges
      exact any_range uidMap hranges fun t start stop hplaced hrange => matchesTuple_plain uidMap field_value_matcher hsubs hplaced hrange
    · rw [hnarrow]
      have hno := not_exists_child hnone fun c => ∃ s ∈ c.select position, HoldsAll uidMap field_value_matcher s
      simp [hno]

end

/-- For every event the parser accepts, matchers agree with the tree of the event. -/
theorem matchesSimple_iff_holds (mem : Memory) {ev : Logd.LogEvent} (hev : ev.mValues = []) {buf len : Nat}
    (haccepted : (ev.parseBuffer mem buf len).2 = true) :
    (∃ es, es.length ≤ 125 ∧ (ev.parseBuffer mem buf len).1.Views es) ∧
    ∀ es, TreeOf (ev.parseBuffer mem buf len).1 es → ∀ uidMap : UidNames,
      (∀ m : FieldValueMatcher, WellPositioned es m →
        (matchesSimple uidMap (ev.parseBuffer mem buf len).1.mValues m 0 (ev.parseBuffer mem buf len).1.mValues.length 0 = true ↔
          Holds uidMap m (eventTree es))) ∧
      ∀ simpleMatcher : SimpleAtomMatcher (List FieldValueMatcher), (∀ m ∈ simpleMatcher.field_value_matcher, WellPositioned es m) →
        (matchesSimpleAtom uidMap simpleMatcher (ev.parseBuffer mem buf len).1 = true ↔
          (ev.parseBuffer mem buf len).1.mTagId = simpleMatcher.atom_id.getD 0 ∧
            ∀ m ∈ simpleMatcher.field_value_matcher, Holds uidMap m (eventTree es)) := by
  refine ⟨Logd.LogEvent.parseBuffer_views mem hev haccepted, fun es htree uidMap => ⟨fun m hm => matchesSimple_event htree uidMap hm, ?_⟩⟩
  intro simpleMatcher hmatchers
  unfold matchesSimpleAtom
  split
  · rename_i htag
    simp [htag]
  · rename_i htag
    rw [List.all_eq_true]
    constructor
    · intro hall
      exact ⟨not_not.1 htag, fun m hm => (matchesSimple_event htree uidMap (hmatchers m hm)).1 (hall m hm)⟩
    · rintro ⟨-, hall⟩ m hm
      exact (matchesSimple_event htree uidMap (hmatchers m hm)).2 (hall m hm)

/-- Uid 30 at some node of the chain: the matcher holds of the event with one node. -/
theorem oneNode_matches :
    matchesSimpleAtom ⟨fun _ => none, fun _ => []⟩ ⟨some 100, [.matches_tuple 1 (some .ANY) [.value 1 none (.eq_int 30)]]⟩
      FieldMatcher.parseOneNode.1 = true := by
  obtain ⟨haccepted, htree⟩ := FieldMatcher.oneNode_tree
  have hmatchers : ∀ m ∈ [FieldValueMatcher.matches_tuple 1 (some .ANY) [.value 1 none (.eq_int 30)]],
      WellPositioned FieldMatcher.oneNode m := by
    intro m hm
    rw [List.mem_singleton.1 hm]
    refine ⟨by decide, ⟨.inr (.inr rfl), fun i value hvalue => ?_⟩, ⟨by decide, rfl⟩, trivial⟩
    cases i with
    | zero => cases hvalue
    | succ i => cases hvalue
  obtain ⟨-, h⟩ := @matchesSimple_iff_holds (fun address => FieldMatcher.oneNodeBytes.getD address 0) {} rfl 0
    FieldMatcher.oneNodeBytes.length haccepted
  refine ((h FieldMatcher.oneNode htree ⟨fun _ => none, fun _ => []⟩).2 ⟨some 100, _⟩ hmatchers).2 ⟨by decide +kernel, ?_⟩
  intro m hm
  rw [List.mem_singleton.1 hm]
  refine ⟨1, _, List.mem_cons_self, rfl, nodeTree FieldMatcher.onlyNode, by simp [ValueTree.select, ValueTree.children, nodeTrees], ?_, trivial⟩
  exact ⟨1, .leaf FieldMatcher.onlyNode.first, List.mem_cons_self, rfl, _, List.mem_cons_self, FieldMatcher.onlyNode.first,
    List.mem_cons_self, by decide⟩

end Statsd.Matchers
