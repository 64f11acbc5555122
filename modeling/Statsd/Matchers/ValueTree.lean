/-
What a field matcher says about the tree of an event. The children of the atom are its elements, those of a list
its nodes, those of a node its two values, all numbered from 1; a list without nodes is not there. A matcher
holds of a tree if the child of its number is there and, among the sub-trees its position selects, one has a value
that passes the test, or satisfies all sub-matchers.

The test of the sources narrows ranges of the flat list of values. It agrees with the tree because the values are
read from left to right: the values of each child are a range, and their positions are the child's number.
-/
import Statsd.Base.Ranges
import Statsd.Logd.EventTree
import Statsd.Matchers.MatcherUtil

namespace Statsd.Matchers

open Logd (EventElement EventNode leavesOf)

/-! ## Trees -/

inductive ValueTree where
  | leaf (value : FieldValue)
  | node (children : List (Nat × ValueTree))

namespace ValueTree

mutual

/-- The values of a tree from left to right. -/
def leaves : ValueTree → List FieldValue
  | leaf value => [value]
  | node children => leavesAll children

def leavesAll : List (Nat × ValueTree) → List FieldValue
  | [] => []
  | (_, t) :: children => t.leaves ++ leavesAll children

end

def children : ValueTree → List (Nat × ValueTree)
  | leaf _ => []
  | node children => children

/-- The sub-trees of a child that a position selects. -/
def select (t : ValueTree) : Option Position → List ValueTree
  | none => [t]
  | some .FIRST => (t.children.head?.map Prod.snd).toList
  | some .LAST => (t.children.getLast?.map Prod.snd).toList
  | some .ANY => t.children.map Prod.snd
  | some .ALL => []
  | some .POSITION_UNKNOWN => []

end ValueTree

open ValueTree (leaf node)

section

variable (uidMap : UidNames)

mutual

/-- A matcher holds of a tree. -/
def Holds : FieldValueMatcher → ValueTree → Prop
  | .value field position test, t =>
    ∃ n c, (n, c) ∈ t.children ∧ (n : Int) = field ∧ ∃ s ∈ c.select position, ∃ v ∈ s.leaves, test.holds uidMap v = true
  | .matches_tuple field position field_value_matcher, t =>
    ∃ n c, (n, c) ∈ t.children ∧ (n : Int) = field ∧ ∃ s ∈ c.select position, HoldsAll field_value_matcher s

def HoldsAll : List FieldValueMatcher → ValueTree → Prop
  | [], _ => True
  | m :: ms, t => Holds m t ∧ HoldsAll ms t

end

end

/-! ## The tree of an event -/

def nodeTree (n : EventNode) : ValueTree := .node [(1, .leaf n.first), (n.number, .leaf n.second)]

def nodeTrees : Nat → List EventNode → List (Nat × ValueTree)
  | _, [] => []
  | i, n :: ns => (i, nodeTree n) :: nodeTrees (i + 1) ns

/-- The elements from some position on; a list without nodes is left out. -/
def elementTrees : Nat → List EventElement → List (Nat × ValueTree)
  | _, [] => []
  | i, .leaf value :: es => (i, .leaf value) :: elementTrees (i + 1) es
  | i, .list [] :: es => elementTrees (i + 1) es
  | i, .list (n :: ns) :: es => (i, .node (nodeTrees 1 (n :: ns))) :: elementTrees (i + 1) es

def eventTree (es : List EventElement) : ValueTree := .node (elementTrees 1 es)

theorem leavesAll_nodeTrees (i : Nat) (ns : List EventNode) :
    ValueTree.leavesAll (nodeTrees i ns) = ns.flatMap EventNode.leaves := by
  induction ns generalizing i with
  | nil => rfl
  | cons n ns ih =>
    rw [nodeTrees, ValueTree.leavesAll, ih]
    rfl

theorem leavesAll_elementTrees (i : Nat) (es : List EventElement) : ValueTree.leavesAll (elementTrees i es) = leavesOf es := by
  induction es generalizing i with
  | nil => rfl
  | cons e es ih =>
    match e with
    | .leaf value =>
      rw [elementTrees, ValueTree.leavesAll, ih]
      rfl
    | .list [] =>
      rw [elementTrees, ih]
      rfl
    | .list (n :: ns) =>
      rw [elementTrees, ValueTree.leavesAll, ih, ValueTree.leaves, leavesAll_nodeTrees]
      rfl

/-! ## Placed trees -/

/-- The tree stands at its depth: the values of a child have the child's number there, and the numbers of the children go up. -/
inductive Placed : Nat → ValueTree → Prop where
  | leaf {depth : Nat} {value : FieldValue} (h : ∀ k, depth ≤ k → k ≤ 2 → value.mField.getPosAtDepth k = 0) :
      Placed depth (.leaf value)
  | node {depth : Nat} {children : List (Nat × ValueTree)} (hdepth : depth ≤ 2)
      (hsorted : children.Pairwise fun c c' => c.1 < c'.1)
      (hleaves : ∀ c ∈ children, c.2.leaves ≠ [] ∧ ∀ v ∈ c.2.leaves, v.mField.getPosAtDepth depth = c.1)
      (h : ∀ c ∈ children, Placed (depth + 1) c.2) : Placed depth (.node children)

/-! ## The loops over a range -/

section

variable {depth i : Nat} {field : Int} {vs rest : List FieldValue}

theorem filterField_before (h : ∀ v ∈ vs, (v.mField.getPosAtDepth depth : Int) < field) (result : Option Nat × Nat) :
    filterField depth field i (vs ++ rest) result = filterField depth field (i + vs.length) rest result := by
  induction vs generalizing i with
  | nil => rfl
  | cons v vs ih =>
    have hv := h v List.mem_cons_self
    obtain ⟨newStart, newEnd⟩ := result
    rw [List.cons_append, filterField]
    rw [if_neg (by omega), if_neg (by omega), ih fun w hw => h w (List.mem_cons_of_mem v hw), List.length_cons, Nat.add_assoc,
      Nat.add_comm 1]

theorem filterField_after (h : ∀ v ∈ vs, field < (v.mField.getPosAtDepth depth : Int)) (result : Option Nat × Nat) :
    filterField depth field i vs result = result := by
  cases vs with
  | nil => rfl
  | cons v vs =>
    have hv := h v List.mem_cons_self
    obtain ⟨newStart, newEnd⟩ := result
    rw [filterField]
    rw [if_neg (by omega), if_pos (by omega)]

theorem filterField_run (h : ∀ v ∈ vs, (v.mField.getPosAtDepth depth : Int) = field) (start : Nat) :
    filterField depth field i (vs ++ rest) (some start, i) = filterField depth field (i + vs.length) rest (some start, i + vs.length) := by
  induction vs generalizing i with
  | nil => rfl
  | cons v vs ih =>
    rw [List.cons_append, filterField]
    rw [if_pos (h v List.mem_cons_self)]
    have hrest := ih (i := i + 1) fun w hw => h w (List.mem_cons_of_mem v hw)
    rw [List.length_cons, Nat.add_comm vs.length, ← Nat.add_assoc]
    exact hrest

theorem filterField_block (hne : vs ≠ []) (h : ∀ v ∈ vs, (v.mField.getPosAtDepth depth : Int) = field) (stop : Nat) :
    filterField depth field i (vs ++ rest) (none, stop) = filterField depth field (i + vs.length) rest (some i, i + vs.length) := by
  obtain ⟨v, vs, rfl⟩ := List.exists_cons_of_ne_nil hne
  rw [List.cons_append, filterField]
  rw [if_pos (h v List.mem_cons_self)]
  have hrest := @filterField_run depth (i + 1) field vs rest (fun w hw => h w (List.mem_cons_of_mem v hw)) i
  rw [List.length_cons, Nat.add_comm vs.length, ← Nat.add_assoc]
  exact hrest

theorem firstEnd_run {stop : Nat} (h : ∀ v ∈ vs, v.mField.getPosAtDepth depth = 1)
    (hrest : ∀ v ∈ rest, v.mField.getPosAtDepth depth ≠ 1) (hstop : i + (vs ++ rest).length = stop) :
    firstEnd depth stop i (vs ++ rest) = i + vs.length := by
  induction vs generalizing i with
  | nil =>
    cases rest with
    | nil => exact hstop.symm
    | cons v rest => simp [firstEnd, hrest v List.mem_cons_self]
  | cons v vs ih =>
    rw [List.cons_append, firstEnd, if_neg (by simpa using h v List.mem_cons_self),
      ih (fun w hw => h w (List.mem_cons_of_mem v hw)) (by rw [← hstop]; simp; omega), List.length_cons]
    omega

theorem lastStart_run {start : Nat} (h : ∀ v ∈ vs, v.mField.isLastPos depth = false) {w : FieldValue}
    (hw : w.mField.isLastPos depth = true) : lastStart depth start i (vs ++ w :: rest) = i + vs.length := by
  induction vs generalizing i with
  | nil => simp [lastStart, hw]
  | cons v vs ih =>
    rw [List.cons_append, lastStart, if_neg (by simp [h v List.mem_cons_self]), ih fun x hx => h x (List.mem_cons_of_mem v hx),
      List.length_cons]
    omega

theorem subTrees_run {stop current : Nat} (h : ∀ v ∈ vs, v.mField.getPosAtDepth depth = current) (newStart : Nat) :
    subTrees depth stop i (vs ++ rest) newStart current = subTrees depth stop (i + vs.length) rest newStart current := by
  induction vs generalizing i with
  | nil => rfl
  | cons v vs ih =>
    rw [List.cons_append, subTrees]
    rw [if_neg (by simpa using h v List.mem_cons_self), ih fun w hw => h w (List.mem_cons_of_mem v hw), List.length_cons,
      Nat.add_assoc, Nat.add_comm 1]

end

/-- The ranges of children that follow one another. -/
def rangesFrom : Nat → List (Nat × ValueTree) → List (Nat × Nat)
  | _, [] => []
  | i, c :: children => (i, i + c.2.leaves.length) :: rangesFrom (i + c.2.leaves.length) children

theorem leavesAll_cons (c : Nat × ValueTree) (children : List (Nat × ValueTree)) :
    ValueTree.leavesAll (c :: children) = c.2.leaves ++ ValueTree.leavesAll children := rfl

theorem leavesAll_append (children children' : List (Nat × ValueTree)) :
    ValueTree.leavesAll (children ++ children') = ValueTree.leavesAll children ++ ValueTree.leavesAll children' := by
  induction children with
  | nil => rfl
  | cons c children ih => rw [List.cons_append, leavesAll_cons, ih, leavesAll_cons, List.append_assoc]

variable {children : List (Nat × ValueTree)}

theorem mem_leavesAll {v : FieldValue} :
    v ∈ ValueTree.leavesAll children ↔ ∃ c ∈ children, v ∈ c.2.leaves := by
  induction children with
  | nil => simp [ValueTree.leavesAll]
  | cons c children ih => rw [leavesAll_cons, List.mem_append, ih]; simp

theorem subTrees_children {depth stop current : Nat}
    (hsorted : children.Pairwise fun c c' => c.1 < c'.1) (hcurrent : ∀ c ∈ children, current < c.1)
    (hleaves : ∀ c ∈ children, c.2.leaves ≠ [] ∧ ∀ v ∈ c.2.leaves, v.mField.getPosAtDepth depth = c.1)
    {i : Nat} (newStart : Nat) (hstop : i + (ValueTree.leavesAll children).length = stop) :
    subTrees depth stop i (ValueTree.leavesAll children) newStart current = (newStart, i) :: rangesFrom i children := by
  induction children generalizing i newStart current with
  | nil =>
    rw [← hstop]
    rfl
  | cons c children ih =>
    obtain ⟨hne, hpos⟩ := hleaves c List.mem_cons_self
    obtain ⟨hbelow, hsorted⟩ := List.pairwise_cons.1 hsorted
    have hlt := hcurrent c List.mem_cons_self
    have hrest := ih hsorted hbelow (fun c' hc' => hleaves c' (List.mem_cons_of_mem c hc')) i
      (i := i + c.2.leaves.length) (by rw [← hstop, leavesAll_cons, List.length_append, Nat.add_assoc])
    rw [leavesAll_cons, rangesFrom]
    obtain ⟨v, vs, hvs⟩ := List.exists_cons_of_ne_nil hne
    rw [hvs] at hpos hrest ⊢
    have hv := hpos v List.mem_cons_self
    rw [List.cons_append, subTrees]
    rw [if_pos (by omega), hv, subTrees_run fun w hw => hpos w (List.mem_cons_of_mem v hw)]
    have hlen : i + 1 + vs.length = i + (v :: vs).length := by rw [List.length_cons]; omega
    rw [hlen, hrest]

/-! ## The child of a field -/

theorem split_children {depth : Nat} (hsorted : children.Pairwise fun c c' => c.1 < c'.1)
    (hleaves : ∀ c ∈ children, c.2.leaves ≠ [] ∧ ∀ v ∈ c.2.leaves, v.mField.getPosAtDepth depth = c.1) (field : Int) :
    ∃ before here after, children = before ++ here ++ after ∧
      (∀ v ∈ ValueTree.leavesAll before, (v.mField.getPosAtDepth depth : Int) < field) ∧
      (∀ v ∈ ValueTree.leavesAll after, field < (v.mField.getPosAtDepth depth : Int)) ∧
      (here = [] ∧ (∀ c ∈ children, (c.1 : Int) ≠ field) ∨
        ∃ c, here = [c] ∧ (c.1 : Int) = field ∧ ∀ c' ∈ children, (c'.1 : Int) = field → c' = c) := by
  induction children with
  | nil => exact ⟨[], [], [], rfl, by simp [ValueTree.leavesAll], by simp [ValueTree.leavesAll], .inl ⟨rfl, by simp⟩⟩
  | cons c children ih =>
    obtain ⟨hne, hpos⟩ := hleaves c List.mem_cons_self
    obtain ⟨hbelow, hsorted⟩ := List.pairwise_cons.1 hsorted
    have hleaves' := fun c' hc' => hleaves c' (List.mem_cons_of_mem c hc')
    -- the children behind one whose number is not below the field are above it
    have hafter (hge : field ≤ c.1) : ∀ v ∈ ValueTree.leavesAll children, field < (v.mField.getPosAtDepth depth : Int) := by
      intro v hv
      obtain ⟨c', hc', hv⟩ := mem_leavesAll.1 hv
      have hlt := hbelow c' hc'
      rw [(hleaves' c' hc').2 v hv]
      omega
    rcases lt_trichotomy (c.1 : Int) field with hlt | heq | hgt
    · obtain ⟨before, here, after, hchildren, hbefore, hrest, hhere⟩ := ih hsorted hleaves'
      refine ⟨c :: before, here, after, by rw [hchildren]; rfl, ?_, hrest, ?_⟩
      · intro v hv
        rw [leavesAll_cons] at hv
        rcases List.mem_append.1 hv with hv | hv
        · rw [hpos v hv]
          exact hlt
        · exact hbefore v hv
      · rcases hhere with ⟨hhere, hnone⟩ | ⟨c', hhere, hfield, hunique⟩
        · refine .inl ⟨hhere, fun c' hc' => ?_⟩
          rcases List.mem_cons.1 hc' with rfl | hc'
          · exact ne_of_lt hlt
          · exact hnone c' hc'
        · refine .inr ⟨c', hhere, hfield, fun c'' hc'' heq => ?_⟩
          rcases List.mem_cons.1 hc'' with rfl | hc''
          · omega
          · exact hunique c'' hc'' heq
    · refine ⟨[], [c], children, rfl, by simp [ValueTree.leavesAll], hafter (by omega), .inr ⟨c, rfl, heq, fun c' hc' heq' => ?_⟩⟩
      rcases List.mem_cons.1 hc' with rfl | hc'
      · rfl
      · have := hbelow c' hc'
        omega
    · refine ⟨[], [], c :: children, rfl, by simp [ValueTree.leavesAll], ?_, .inl ⟨rfl, fun c' hc' => ?_⟩⟩
      · intro v hv
        rw [leavesAll_cons] at hv
        rcases List.mem_append.1 hv with hv | hv
        · rw [hpos v hv]
          exact hgt
        · exact hafter (by omega) v hv
      · rcases List.mem_cons.1 hc' with rfl | hc'
        · omega
        · have := hbelow c' hc'
          omega

section

variable {values : List FieldValue} {depth start stop : Nat} {t : ValueTree} {field : Int}

theorem filterField_tree (hplaced : Placed depth t) (hdepth : depth ≤ 2) (hrange : RangeOf values start stop t.leaves)
    (hfield : 1 ≤ field) :
    (∃ (c : Nat × ValueTree) (s e : Nat), c ∈ t.children ∧ (c.1 : Int) = field ∧ (∀ c' ∈ t.children, (c'.1 : Int) = field → c' = c) ∧
      Placed (depth + 1) c.2 ∧ c.2.leaves ≠ [] ∧ t.leaves ≠ [] ∧ RangeOf values s e c.2.leaves ∧
      filterField depth field start (entries values start stop) (none, stop) = (some s, e)) ∨
    (∀ c ∈ t.children, (c.1 : Int) ≠ field) ∧
      filterField depth field start (entries values start stop) (none, stop) = (none, stop) := by
  have hentries : entries values start stop = t.leaves := hrange.elements
  rw [hentries]
  cases hplaced with
  | leaf h =>
    refine .inr ⟨by simp [ValueTree.children], ?_⟩
    rw [ValueTree.leaves, ← List.append_nil [_], filterField_before]
    · rfl
    · intro v hv
      rw [List.mem_singleton.1 hv, h depth (le_refl _) hdepth]
      exact_mod_cast hfield
  | @node _ children hdepth hsorted hleaves h =>
    obtain ⟨before, here, after, rfl, hbefore, hafter, hhere⟩ := split_children hsorted hleaves field
    rw [ValueTree.leaves, leavesAll_append, leavesAll_append] at hrange ⊢
    rcases hhere with ⟨rfl, hnone⟩ | ⟨c, rfl, hc, hunique⟩
    · refine .inr ⟨hnone, ?_⟩
      rw [List.append_assoc, filterField_before hbefore]
      exact filterField_after hafter _
    · have hmem : c ∈ before ++ [c] ++ after := by simp
      obtain ⟨hne, hpos⟩ := hleaves c hmem
      have hone : ValueTree.leavesAll [c] = c.2.leaves := by rw [leavesAll_cons]; simp [ValueTree.leavesAll]
      rw [hone] at hrange ⊢
      refine .inl ⟨c, _, _, hmem, hc, hunique, h c hmem, hne, ?_, hrange.inner, ?_⟩
      · simp [hne]
      · rw [List.append_assoc, filterField_before hbefore, filterField_block hne fun v hv => by rw [hpos v hv]; exact hc]
        exact filterField_after hafter _

/-- What a matcher is left with are the sub-trees that its position selects. -/
structure Selects (values : List FieldValue) (n : Narrowed) (depth : Nat) (trees : List ValueTree) : Prop where
  level : n.depth = depth
  found : entries values n.start n.stop = trees.flatMap ValueTree.leaves
  ranges : List.Forall₂ (fun range tree => RangeOf values range.1 range.2 tree.leaves ∧ Placed (depth + 1) tree) n.ranges trees

theorem narrow_none (hplaced : Placed depth t) (hrange : RangeOf values start stop t.leaves) (hfield : 1 ≤ field) :
    (∃ (c : Nat × ValueTree) (n : Narrowed), c ∈ t.children ∧ (c.1 : Int) = field ∧ (∀ c' ∈ t.children, (c'.1 : Int) = field → c' = c) ∧
      narrow values field none start stop depth = some n ∧ Selects values n depth (c.2.select none)) ∨
    (∀ c ∈ t.children, (c.1 : Int) ≠ field) ∧ narrow values field none start stop depth = none := by
  unfold narrow
  by_cases hdepth : depth > 2
  · -- below the values of a node there is nothing
    rw [if_pos hdepth]
    cases hplaced with
    | leaf _ => exact .inr ⟨by simp [ValueTree.children], rfl⟩
    | node hle => omega
  rw [if_neg hdepth]
  rcases filterField_tree hplaced (by omega) hrange hfield with ⟨c, s, e, hmem, hc, hunique, hchild, hne, hne', hsub, hfilter⟩ | ⟨hnone, hfilter⟩
  · rw [if_neg (by have := hrange.lt hne'; omega), hfilter]
    have hfound : entries values s e = c.2.leaves := hsub.elements
    exact .inl ⟨c, _, hmem, hc, hunique, rfl, rfl, by simpa [ValueTree.select] using hfound, .cons ⟨hsub, hchild⟩ .nil⟩
  · rw [hfilter]
    refine .inr ⟨hnone, ?_⟩
    split
    · rfl
    · rfl

end

/-! ## Matchers without positions -/

mutual

/-- Field numbers are positive, and there are no positions. -/
def Plain : FieldValueMatcher → Prop
  | .value field position _ => 1 ≤ field ∧ position = none
  | .matches_tuple field position field_value_matcher => 1 ≤ field ∧ position = none ∧ PlainAll field_value_matcher

def PlainAll : List FieldValueMatcher → Prop
  | [] => True
  | m :: ms => Plain m ∧ PlainAll ms

end

section

variable (uidMap : UidNames) {values : List FieldValue}

theorem any_found {n : Narrowed} {depth : Nat} {trees : List ValueTree} (h : Selects values n depth trees) (test : ValueTest) :
    (entries values n.start n.stop).any (fun v => test.holds uidMap v) = true ↔
      ∃ s ∈ trees, ∃ v ∈ s.leaves, test.holds uidMap v = true := by
  rw [h.found, List.any_eq_true]
  constructor
  · rintro ⟨v, hv, htest⟩
    obtain ⟨s, hs, hv⟩ := List.mem_flatMap.1 hv
    exact ⟨s, hs, v, hv, htest⟩
  · rintro ⟨s, hs, v, hv, htest⟩
    exact ⟨v, List.mem_flatMap.2 ⟨s, hs, hv⟩, htest⟩

theorem any_range {ranges : List (Nat × Nat)} {trees : List ValueTree} {depth : Nat} {field_value_matcher : List FieldValueMatcher}
    (h : List.Forall₂ (fun range tree => RangeOf values range.1 range.2 tree.leaves ∧ Placed depth tree) ranges trees)
    (htuple : ∀ t start stop, Placed depth t → RangeOf values start stop t.leaves →
      (matchesTuple uidMap values field_value_matcher start stop depth = true ↔ HoldsAll uidMap field_value_matcher t)) :
    (ranges.any fun range => matchesTuple uidMap values field_value_matcher range.1 range.2 depth) = true ↔
      ∃ s ∈ trees, HoldsAll uidMap field_value_matcher s := by
  induction h with
  | nil => simp
  | cons hrange _ ih =>
    rw [List.any_cons, Bool.or_eq_true, htuple _ _ _ hrange.2 hrange.1, ih]
    simp

theorem exists_child_iff {t : ValueTree} {field : Int} {c : Nat × ValueTree} (hmem : c ∈ t.children) (hc : (c.1 : Int) = field)
    (hunique : ∀ c' ∈ t.children, (c'.1 : Int) = field → c' = c) (P : ValueTree → Prop) :
    (∃ n c', (n, c') ∈ t.children ∧ (n : Int) = field ∧ P c') ↔ P c.2 := by
  constructor
  · rintro ⟨n, c', hmem', hn, hP⟩
    have heq := hunique (n, c') hmem' hn
    rw [← heq]
    exact hP
  · intro hP
    exact ⟨c.1, c.2, hmem, hc, hP⟩

theorem not_exists_child {t : ValueTree} {field : Int} (hnone : ∀ c ∈ t.children, (c.1 : Int) ≠ field) (P : ValueTree → Prop) :
    ¬∃ n c', (n, c') ∈ t.children ∧ (n : Int) = field ∧ P c' := by
  rintro ⟨n, c', hmem, hn, -⟩
  exact hnone (n, c') hmem hn

mutual

theorem matchesSimple_plain : ∀ (m : FieldValueMatcher), Plain m → ∀ {depth start stop : Nat} {t : ValueTree}, Placed depth t →
    RangeOf values start stop t.leaves → (matchesSimple uidMap values m start stop depth = true ↔ Holds uidMap m t)
  | .value field position test, hm, depth, start, stop, t, hplaced, hrange => by
    obtain ⟨hfield, rfl⟩ := hm
    unfold matchesSimple Holds
    rcases narrow_none hplaced hrange hfield with ⟨c, n, hmem, hc, hunique, hnarrow, hselects⟩ | ⟨hnone, hnarrow⟩
    · rw [hnarrow, exists_child_iff hmem hc hunique fun c => ∃ s ∈ c.select none, ∃ v ∈ s.leaves, test.holds uidMap v = true]
      exact any_found uidMap hselects test
    · rw [hnarrow]
      have hno := not_exists_child hnone fun c => ∃ s ∈ c.select none, ∃ v ∈ s.leaves, test.holds uidMap v = true
      simp [hno]
  | .matches_tuple field position field_value_matcher, hm, depth, start, stop, t, hplaced, hrange => by
    obtain ⟨hfield, rfl, hsubs⟩ := hm
    unfold matchesSimple Holds
    rcases narrow_none hplaced hrange hfield with ⟨c, n, hmem, hc, hunique, hnarrow, hselects⟩ | ⟨hnone, hnarrow⟩
    · rw [hnarrow, exists_child_iff hmem hc hunique fun c => ∃ s ∈ c.select none, HoldsAll uidMap field_value_matcher s]
      have hranges := hselects.ranges
      rw [← hselects.level] at hranges
      exact any_range uidMap hranges fun t' start' stop' hplaced' hrange' => matchesTuple_plain field_value_matcher hsubs hplaced' hrange'
    · rw [hnarrow]
      have hno := not_exists_child hnone fun c => ∃ s ∈ c.select none, HoldsAll uidMap field_value_matcher s
      simp [hno]

theorem matchesTuple_plain : ∀ (ms : List FieldValueMatcher), PlainAll ms → ∀ {depth start stop : Nat} {t : ValueTree}, Placed depth t →
    RangeOf values start stop t.leaves → (matchesTuple uidMap values ms start stop depth = true ↔ HoldsAll uidMap ms t)
  | [], _, _, _, _, _, _, _ => by simp [matchesTuple, HoldsAll]
  | m :: ms, hms, depth, start, stop, t, hplaced, hrange => by
    unfold matchesTuple HoldsAll
    rw [Bool.and_eq_true, matchesSimple_plain m hms.1 hplaced hrange, matchesTuple_plain ms hms.2 hplaced hrange]

end

end

end Statsd.Matchers
