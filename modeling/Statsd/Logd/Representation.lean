/-
What holds of the values of an accepted event. The values stand in order, the last nodes of chains and of lists of keys and
values are marked, and the recorded places are those of the values that they are for. A position has seven bits, and lists
of keys and values can have up to 255 pairs: from the 128th pair on positions start again, with the mark of a last node.
An annotation that takes the mark of the uid field away leaves its recorded place as it is. The values of an accepted
event are as they should be exactly when the buffer has neither.
-/
import Statsd.Logd.Wire
import Statsd.Matchers.FieldTree

namespace Statsd.Logd

open Matchers (nodeField_pos elementField_pos)

/-! ## The invariant -/

/-- The positions at the three depths. -/
def positionOf (f : Field) : List Nat := [f.getPosAtDepth 0, f.getPosAtDepth 1, f.getPosAtDepth 2]

/-- Which of the values of some nodes are those of the last node. -/
def lastNodes : Nat → List Bool
  | 0 => []
  | k + 1 => decide (k = 0) :: decide (k = 0) :: lastNodes k

/-- Which of the values of an element are those of the last node of a list. -/
def Shape.lastLeaves : Shape → List Bool
  | value => [false]
  | pairs count => lastNodes count
  | chain count => lastNodes count

/-- The number of values of some elements. -/
def valueCount (es : List WireElement) : Nat := (es.map fun e => e.shape.size).sum

/-- The values of an event, as those of some elements. -/
structure Representation (es : List WireElement) (ev : LogEvent) : Prop where
  increasing : (ev.mValues.map fun v => positionOf v.mField).Pairwise (· < ·)
  last : (ev.mValues.map fun v => v.mField.isLastPos 1) = es.flatMap fun e => e.shape.lastLeaves
  uid : ev.mUidFieldIndex = -1 ∨ ∃ (i : Nat) (v : FieldValue), ev.mUidFieldIndex = i ∧ ev.mValues[i]? = some v ∧
    LogEvent.isInt v.mValue = true ∧ v.mAnnotations.uidField = true
  exclusive : ev.mExclusiveStateFieldIndex = -1 ∨ ∃ i : Nat, ev.mExclusiveStateFieldIndex = i ∧ i < ev.mValues.length
  attribution : ev.mAttributionChainStartIndex = -1 ∧ ev.mAttributionChainEndIndex = -1 ∨
    ∃ (before after : List WireElement) (e : WireElement) (count : Nat), es = before ++ e :: after ∧ e.shape = .chain count ∧ 0 < count ∧
      ev.mAttributionChainStartIndex = valueCount before ∧
      ev.mAttributionChainEndIndex = (valueCount before + 2 * count - 1 : Nat) ∧
      valueCount before + 2 * count - 1 < ev.mValues.length

/-- The last value that is marked as a uid keeps its mark. -/
def KeepsUid (marks : List (Nat × Bool)) : Prop :=
  ∀ before i after, marks = before ++ (i, true) :: after → (∀ a ∈ after, a.2 = false) → (i, false) ∉ after

/-- A list of pairs has no more pairs than a position can number. -/
def PairsNumbered (es : List WireElement) : Prop := ∀ e ∈ es, ∀ n, e.shape = .pairs n → n ≤ 127

/-! ## Positions -/

theorem positionOf_lt {f g : Field} : positionOf f < positionOf g ↔
    f.getPosAtDepth 0 < g.getPosAtDepth 0 ∨ f.getPosAtDepth 0 = g.getPosAtDepth 0 ∧
      (f.getPosAtDepth 1 < g.getPosAtDepth 1 ∨ f.getPosAtDepth 1 = g.getPosAtDepth 1 ∧ f.getPosAtDepth 2 < g.getPosAtDepth 2) := by
  unfold positionOf
  simp [List.cons_lt_cons_iff]

/-- The values stand in order. -/
def Increasing (vs : List FieldValue) : Prop := vs.Pairwise fun v w => positionOf v.mField < positionOf w.mField

section

variable {tag : Int} {field : Nat} (hfield : field < 128)
include hfield

theorem increasing_node {i : Nat} {n : EventNode} {lastNode : Bool} (h : n.PlacedAt tag field i lastNode) (hi : i < 128) :
    Increasing n.leaves ∧ (n.leaves.map fun v => v.mField.isLastPos 1) = [lastNode, lastNode] ∧
      ∀ v ∈ n.leaves, v.mField.getPosAtDepth 0 = field ∧ v.mField.getPosAtDepth 1 = i := by
  have hlow := h.low
  have hhigh := h.high
  obtain ⟨f0, f1, f2, flast⟩ := nodeField_pos tag hfield hi (show 1 < 128 by decide) lastNode
  obtain ⟨s0, s1, s2, slast⟩ := nodeField_pos tag hfield hi (show n.number < 128 by omega) lastNode
  rw [← h.first] at f0 f1 f2 flast
  rw [← h.second] at s0 s1 s2 slast
  refine ⟨List.pairwise_pair.2 (positionOf_lt.2 ?_), ?_, fun v hv => ?_⟩
  · rw [f0, s0, f1, s1, f2, s2]
    omega
  · simp [EventNode.leaves, flast, slast]
  · rcases List.mem_pair.1 hv with rfl | rfl
    · exact ⟨f0, f1⟩
    · exact ⟨s0, s1⟩

theorem increasing_nodes {i : Nat} {ns : List EventNode} (h : PlacedNodes tag field i ns) (hi : i + ns.length ≤ 128) :
    Increasing (ns.flatMap EventNode.leaves) ∧ ((ns.flatMap EventNode.leaves).map fun v => v.mField.isLastPos 1) = lastNodes ns.length ∧
      ∀ v ∈ ns.flatMap EventNode.leaves, v.mField.getPosAtDepth 0 = field ∧ i ≤ v.mField.getPosAtDepth 1 := by
  induction ns generalizing i with
  | nil => exact ⟨.nil, rfl, fun v hv => (List.not_mem_nil hv).elim⟩
  | cons n ns ih =>
    rw [List.length_cons] at hi
    obtain ⟨hnode, hlast, hpos⟩ := increasing_node hfield h.1 (by omega)
    obtain ⟨hrest, hlastRest, hposRest⟩ := ih h.2 (by omega)
    rw [List.flatMap_cons]
    refine ⟨List.pairwise_append.2 ⟨hnode, hrest, fun v hv w hw => positionOf_lt.2 ?_⟩, ?_, fun v hv => ?_⟩
    · obtain ⟨v0, v1⟩ := hpos v hv
      obtain ⟨w0, w1⟩ := hposRest w hw
      omega
    · have hempty : ns.isEmpty = decide (ns.length = 0) := by cases ns <;> simp
      rw [List.map_append, hlast, hlastRest, hempty]
      rfl
    · rcases List.mem_append.1 hv with hv | hv
      · obtain ⟨v0, v1⟩ := hpos v hv
        exact ⟨v0, v1.ge⟩
      · obtain ⟨v0, v1⟩ := hposRest v hv
        exact ⟨v0, by omega⟩

theorem not_increasing_nodes {ns : List EventNode} (h : PlacedNodes tag field 1 ns) (hlength : 128 ≤ ns.length) :
    ¬ Increasing (ns.flatMap EventNode.leaves) := by
  intro hincreasing
  have h127 := h.get (List.getElem?_eq_getElem (show 126 < ns.length by omega))
  have h128 := h.get (List.getElem?_eq_getElem (show 127 < ns.length by omega))
  have hpairs := List.pairwise_iff_getElem.1 (List.pairwise_flatMap.1 hincreasing).2 126 127 (by omega) (by omega) (by decide)
  have hlt := positionOf_lt.1 (hpairs _ List.mem_cons_self _ List.mem_cons_self)
  obtain ⟨f0, f1, -, -⟩ := nodeField_pos tag hfield (show 1 + 126 < 128 by decide) (show 1 < 128 by decide) (decide (126 + 1 = ns.length))
  -- the 128th position has only the mark
  have hwrap : ∀ (i : Fin 128) (lastNode : Bool), (nodeField tag i (1 + 127) 1 lastNode).getPosAtDepth 0 = i ∧
      (nodeField tag i (1 + 127) 1 lastNode).getPosAtDepth 1 = 0 := by
    have hzero : ∀ (i : Fin 128) (lastNode : Bool), (nodeField 0 i (1 + 127) 1 lastNode).getPosAtDepth 0 = i ∧
        (nodeField 0 i (1 + 127) 1 lastNode).getPosAtDepth 1 = 0 := by decide +kernel
    intro i lastNode
    have h := hzero i lastNode
    cases lastNode with
    | false => exact h
    | true => exact h
  obtain ⟨g0, g1⟩ := hwrap ⟨field, hfield⟩ (decide (127 + 1 = ns.length))
  rw [h127.first, h128.first, f0, f1, g0, g1] at hlt
  rcases hlt with hlt | ⟨-, hlt | ⟨heq, -⟩⟩
  · exact lt_irrefl _ hlt
  · exact Nat.not_lt_zero _ hlt
  · cases heq

end

theorem isLastPos_elementField (tag : Int) {field : Nat} (h : field < 128) : (elementField tag field).isLastPos 1 = false := by
  rw [elementField_eq tag h, Matchers.isLastPos_word]
  decide

/-! ## Elements and their shapes -/

/-- The elements have the numbers of values of some shapes. -/
def SameSizes (es : List EventElement) (ws : List WireElement) : Prop := es.map (fun e => e.leaves.length) = ws.map fun w => w.shape.size

theorem length_list (nodes : List EventNode) : (EventElement.list nodes).leaves.length = 2 * nodes.length := by
  unfold EventElement.leaves
  rw [List.length_flatMap, Nat.mul_comm]
  simp [EventNode.leaves]

theorem size_pairs_iff {e : EventElement} {n : Nat} : e.leaves.length = 2 * n ↔ ∃ nodes, e = .list nodes ∧ nodes.length = n := by
  cases e with
  | leaf value =>
    refine iff_of_false ?_ ?_
    · show 1 ≠ 2 * n
      omega
    · rintro ⟨nodes, h, -⟩
      cases h
  | list nodes =>
    rw [length_list]
    constructor
    · intro h
      exact ⟨nodes, rfl, by omega⟩
    · rintro ⟨nodes', h, rfl⟩
      cases h
      rfl

variable {es : List EventElement} {ws : List WireElement}

theorem lists_bounded {bound : Nat} (hsame : SameSizes es ws)
    (hcounts : ∀ w ∈ ws, ∀ n, w.shape = .pairs n ∨ w.shape = .chain n → n ≤ bound) :
    ∀ nodes, .list nodes ∈ es → nodes.length ≤ bound := by
  intro nodes hnodes
  have hsize : (EventElement.list nodes).leaves.length ∈ ws.map fun w => w.shape.size :=
    hsame ▸ List.mem_map_of_mem (f := fun e : EventElement => e.leaves.length) hnodes
  obtain ⟨w, hw, hsize⟩ := List.mem_map.1 hsize
  rw [length_list] at hsize
  cases hshape : w.shape with
  | value =>
    rw [hshape] at hsize
    have : 1 = 2 * nodes.length := hsize
    omega
  | pairs n =>
    rw [hshape] at hsize
    have hn := hcounts w hw n (.inl hshape)
    have : 2 * n = 2 * nodes.length := hsize
    omega
  | chain n =>
    rw [hshape] at hsize
    have hn := hcounts w hw n (.inr hshape)
    have : 2 * n = 2 * nodes.length := hsize
    omega

theorem increasing_elements {tag : Int} {i : Nat} (h : PlacedElements tag i es)
    (hsame : SameSizes es ws) (hi : i + es.length ≤ 128) (hlists : ∀ nodes, .list nodes ∈ es → nodes.length ≤ 127) :
    Increasing (leavesOf es) ∧ ((leavesOf es).map fun v => v.mField.isLastPos 1) = (ws.flatMap fun w => w.shape.lastLeaves) ∧
      ∀ v ∈ leavesOf es, i ≤ v.mField.getPosAtDepth 0 := by
  induction es generalizing i ws with
  | nil =>
    rw [List.map_eq_nil_iff.1 hsame.symm]
    exact ⟨.nil, rfl, fun v hv => (List.not_mem_nil hv).elim⟩
  | cons e es ih =>
    obtain ⟨w, ws, rfl⟩ : ∃ w ws', ws = w :: ws' := by
      cases ws with
      | nil => cases hsame
      | cons w ws => exact ⟨w, ws, rfl⟩
    obtain ⟨hsize, hsame⟩ := List.cons.inj hsame
    rw [List.length_cons] at hi
    obtain ⟨hrest, hlastRest, hposRest⟩ := ih h.2 hsame (by omega) fun nodes hnodes => hlists nodes (List.mem_cons_of_mem e hnodes)
    -- the first element
    obtain ⟨hfirst, hlast, hpos⟩ : Increasing e.leaves ∧ (e.leaves.map fun v => v.mField.isLastPos 1) = w.shape.lastLeaves ∧
        ∀ v ∈ e.leaves, v.mField.getPosAtDepth 0 = i := by
      have hplaced := h.1
      cases e with
      | leaf value =>
        have hvalue : value.mField = elementField tag i := hplaced
        refine ⟨List.pairwise_singleton _ _, ?_, fun v hv => ?_⟩
        · have hshape : w.shape = .value := by
            have hone : 1 = w.shape.size := hsize
            cases hshape : w.shape with
            | value => rfl
            | pairs n =>
              rw [hshape] at hone
              have : 1 = 2 * n := hone
              omega
            | chain n =>
              rw [hshape] at hone
              have : 1 = 2 * n := hone
              omega
          rw [hshape]
          simp [EventElement.leaves, Shape.lastLeaves, hvalue, isLastPos_elementField tag (show i < 128 by omega)]
        · rw [List.mem_singleton.1 hv, hvalue]
          exact (elementField_pos tag (by omega)).1
      | list nodes =>
        have hlength := hlists nodes List.mem_cons_self
        obtain ⟨hincreasing, hlast, hpos⟩ := increasing_nodes (show i < 128 by omega) hplaced (by omega)
        refine ⟨hincreasing, ?_, fun v hv => (hpos v hv).1⟩
        have hshape : w.shape.lastLeaves = lastNodes nodes.length := by
          have htwice : 2 * nodes.length = w.shape.size := (length_list nodes).symm.trans hsize
          cases hshape : w.shape with
          | value =>
            rw [hshape] at htwice
            have : 2 * nodes.length = 1 := htwice
            omega
          | pairs n =>
            rw [hshape] at htwice
            have : 2 * nodes.length = 2 * n := htwice
            rw [show nodes.length = n by omega]
            rfl
          | chain n =>
            rw [hshape] at htwice
            have : 2 * nodes.length = 2 * n := htwice
            rw [show nodes.length = n by omega]
            rfl
        exact hlast.trans hshape.symm
    have hleaves : leavesOf (e :: es) = e.leaves ++ leavesOf es := List.flatMap_cons
    rw [hleaves]
    refine ⟨List.pairwise_append.2 ⟨hfirst, hrest, fun v hv v' hv' => positionOf_lt.2 ?_⟩, ?_, fun v hv => ?_⟩
    · have h1 := hpos v hv
      have h2 := hposRest v' hv'
      omega
    · rw [List.map_append, hlast, hlastRest, List.flatMap_cons]
    · rcases List.mem_append.1 hv with hv | hv
      · exact (hpos v hv).ge
      · have := hposRest v hv
        omega

/-- The fields of an event are those of some elements, which have the sizes of some shapes. -/
structure Framed (ws : List WireElement) (ev : LogEvent) (es : List EventElement) : Prop where
  placed : PlacedElements ev.mTagId 1 es
  fields : ev.mValues.map (·.mField) = (leavesOf es).map (·.mField)
  sizes : SameSizes es ws

theorem Framed.map {ev : LogEvent} (h : Framed ws ev es) {β : Type} (f : Field → β) :
    (ev.mValues.map fun v => f v.mField) = (leavesOf es).map fun v => f v.mField := by
  have hmap := congrArg (List.map f) h.fields
  rwa [List.map_map, List.map_map] at hmap

theorem Framed.views {ev : LogEvent} (h : Framed ws ev es) :
    ∃ es', ev.Views es' ∧ SameSizes es' ws := by
  obtain ⟨es', hsizes, hplaced, hleaves⟩ := h.placed.refill h.fields
  exact ⟨es', ⟨hplaced, hleaves⟩, hsizes.trans h.sizes⟩

theorem Framed.pairsNumbered {ev : LogEvent} (h : Framed ws ev es)
    (hlength : es.length ≤ 125) (hincreasing : Increasing (leavesOf es)) : PairsNumbered ws := by
  intro w hw n hshape
  by_contra hn
  have hsize : 2 * n ∈ ws.map fun w => w.shape.size := List.mem_map.2 ⟨w, hw, by rw [hshape]; rfl⟩
  rw [← h.sizes] at hsize
  obtain ⟨e, he, hsize⟩ := List.mem_map.1 hsize
  obtain ⟨nodes, rfl, hnodes⟩ := size_pairs_iff.1 hsize
  obtain ⟨i, hi⟩ := List.mem_iff_getElem?.1 he
  have hlt := (List.getElem?_eq_some_iff.1 hi).1
  have hplaced : PlacedNodes ev.mTagId (1 + i) 1 nodes := h.placed.get hi
  have hleaves : Increasing (nodes.flatMap EventNode.leaves) := (List.pairwise_flatMap.1 hincreasing).1 _ he
  exact not_increasing_nodes (show 1 + i < 128 by omega) hplaced (by omega) hleaves

/-! ## Uid marks -/

theorem foldl_unmarks (i : Nat) (marked : Bool) {marks : List (Nat × Bool)} (h : ∀ a ∈ marks, a.2 = false) :
    marks.foldl markUid (some (i, marked)) = some (i, marked && decide ((i, false) ∉ marks)) := by
  induction marks generalizing marked with
  | nil => simp
  | cons a marks ih =>
    obtain ⟨j, mark⟩ := a
    have hmark : mark = false := h _ List.mem_cons_self
    subst hmark
    have hstep : markUid (some (i, marked)) (j, false) = some (i, marked && decide (i ≠ j)) := rfl
    rw [List.foldl_cons, hstep, ih _ fun a ha => h a (List.mem_cons_of_mem _ ha)]
    by_cases hij : i = j
    · simp [hij]
    · simp [hij]

theorem foldl_unmarks_none {marks : List (Nat × Bool)} (h : ∀ a ∈ marks, a.2 = false) : marks.foldl markUid none = none := by
  induction marks with
  | nil => rfl
  | cons a marks ih =>
    have hstep : markUid none a = none := by
      unfold markUid
      rw [h a List.mem_cons_self]
      rfl
    rw [List.foldl_cons, hstep]
    exact ih fun a ha => h a (List.mem_cons_of_mem _ ha)

theorem exists_last_mark (marks : List (Nat × Bool)) :
    (∀ a ∈ marks, a.2 = false) ∨ ∃ before i after, marks = before ++ (i, true) :: after ∧ ∀ a ∈ after, a.2 = false := by
  induction marks with
  | nil => exact .inl fun a ha => (List.not_mem_nil ha).elim
  | cons a marks ih =>
    rcases ih with hnone | ⟨before, i, after, rfl, hafter⟩
    · obtain ⟨i, mark⟩ := a
      cases mark with
      | true => exact .inr ⟨[], i, marks, rfl, hnone⟩
      | false =>
        refine .inl fun a ha => ?_
        rcases List.mem_cons.1 ha with rfl | ha
        · rfl
        · exact hnone a ha
    · exact .inr ⟨a :: before, i, after, rfl, hafter⟩

theorem foldl_last_mark (u : Option (Nat × Bool)) (before : List (Nat × Bool)) (i : Nat) {after : List (Nat × Bool)}
    (h : ∀ a ∈ after, a.2 = false) :
    (before ++ (i, true) :: after).foldl markUid u = some (i, decide ((i, false) ∉ after)) := by
  have hmark : ∀ u, markUid u (i, true) = some (i, true) := fun u => rfl
  rw [List.foldl_append, List.foldl_cons, hmark, foldl_unmarks i true h, Bool.true_and]

theorem keepsUid_iff (marks : List (Nat × Bool)) : KeepsUid marks ↔ ∀ i, marks.foldl markUid none ≠ some (i, false) := by
  constructor
  · intro hkeeps i hfold
    rcases exists_last_mark marks with hnone | ⟨before, j, after, rfl, hafter⟩
    · rw [foldl_unmarks_none hnone] at hfold
      cases hfold
    · rw [foldl_last_mark none before j hafter] at hfold
      have hnotMem := hkeeps before j after rfl hafter
      simp [hnotMem] at hfold
  · intro h before i after hmarks hafter hmem
    refine h i ?_
    rw [hmarks, foldl_last_mark none before i hafter]
    simp [hmem]

namespace LogEvent

theorem uidAt_marked_iff {ev : LogEvent} {u : Option (Nat × Bool)} (h : UidAt ev u) :
    (ev.mUidFieldIndex = -1 ∨ ∃ (i : Nat) (v : FieldValue), ev.mUidFieldIndex = i ∧ ev.mValues[i]? = some v ∧
      isInt v.mValue = true ∧ v.mAnnotations.uidField = true) ↔ ∀ i, u ≠ some (i, false) := by
  cases u with
  | none => exact iff_of_true (.inl h) nofun
  | some m =>
    obtain ⟨i, marked⟩ := m
    obtain ⟨hi, v, hv, hint, hmark⟩ := h
    cases marked with
    | true =>
      refine iff_of_true (.inr ⟨i, v, hi, hv, hint, hmark⟩) fun j hj => ?_
      cases hj
    | false =>
      refine iff_of_false ?_ fun hnot => hnot i rfl
      rintro (hnone | ⟨j, w, hj, hw, -, hmarked⟩)
      · rw [hi] at hnone
        exact absurd hnone (by omega)
      · have hij : i = j := by
          rw [hi] at hj
          exact Int.ofNat_inj.1 hj
        subst hij
        rw [hv] at hw
        cases hw
        rw [hmark] at hmarked
        cases hmarked

/-! ## Chains -/

theorem mem_chainRanges {k : Nat} {es : List WireElement} {range : Int × Int} (h : range ∈ chainRanges k es) :
    ∃ before after e count, es = before ++ e :: after ∧ e.shape = .chain count ∧ 0 < count ∧
      range = (((k + valueCount before : Nat) : Int), ((k + valueCount before + 2 * count - 1 : Nat) : Int)) := by
  induction es generalizing k with
  | nil => cases h
  | cons e es ih =>
    rcases List.mem_append.1 h with h | h
    · cases hshape : e.shape with
      | value =>
        rw [hshape] at h
        cases h
      | pairs n =>
        rw [hshape] at h
        cases h
      | chain n =>
        rw [hshape] at h
        cases n with
        | zero => cases h
        | succ n =>
          refine ⟨[], es, e, n + 1, rfl, hshape, Nat.succ_pos n, ?_⟩
          rw [List.mem_singleton.1 h]
          unfold valueCount
          simp
          omega
    · obtain ⟨before, after, e', count, rfl, hshape, hpos, hrange⟩ := ih h
      refine ⟨e :: before, after, e', count, rfl, hshape, hpos, ?_⟩
      have hcount : valueCount (e :: before) = e.shape.size + valueCount before := List.sum_cons
      rw [hrange, hcount, Nat.add_assoc k]

theorem foldl_last_mem {α : Type} (a : α) (l : List α) : l.foldl (fun _ b => b) a = a ∨ l.foldl (fun _ b => b) a ∈ l := by
  induction l generalizing a with
  | nil => exact .inl rfl
  | cons b l ih =>
    rw [List.foldl_cons]
    rcases ih b with h | h
    · rw [h]
      exact .inr List.mem_cons_self
    · exact .inr (List.mem_cons_of_mem b h)

variable (mem : Memory)

/-! ## The parse -/

/-- The loop over the elements, when it meets no error, leaves the fields of the elements that are decoded. -/
theorem frames_parseElements (numElements k : Nat) (hk : k ≤ numElements) {ev : LogEvent} {ws : List WireElement} {es : List EventElement}
    (h : Framed ws ev es) (hes : es.length = numElements - k) (hvalid : (ev.parseElements mem numElements k).mValid = true) :
    ∃ es', es'.length = numElements ∧ Framed (ws ++ decodeElements mem k ev.mBuf) (ev.parseElements mem numElements k) es' := by
  induction k generalizing ev ws es with
  | zero =>
    refine ⟨es, hes, ?_⟩
    unfold decodeElements
    rw [List.append_nil]
    exact h
  | succ k ih =>
    unfold parseElements at hvalid ⊢
    split at hvalid
    · rename_i hev
      rw [if_pos hev]
      have helement := (steps_parseElements mem numElements k _).valid hvalid
      obtain ⟨e, hplaced, hadds⟩ := adds_parseElement mem (numElements - k) ev helement
      obtain ⟨-, hconsumes⟩ := consumes_parseElement mem helement
      have hsize : e.leaves.length = (decodeElement mem ev.mBuf).1.shape.size := by
        have hlength := congrArg List.length hadds.fields
        rw [List.length_append, List.length_map, List.length_map, List.length_map, hconsumes.length] at hlength
        omega
      have hfield : numElements - k = 1 + es.length := by omega
      rw [hfield] at hplaced
      have hnext : Framed (ws ++ [(decodeElement mem ev.mBuf).1]) (ev.parseElement mem (numElements - k)) (es ++ [e]) := by
        refine ⟨?_, ?_, ?_⟩
        · rw [hadds.tag]
          exact h.placed.append hplaced
        · rw [hadds.fields, h.fields, leavesOf, leavesOf, List.flatMap_append, List.map_append]
          simp
        · have hsame := h.sizes
          unfold SameSizes at hsame ⊢
          rw [List.map_append, List.map_append, hsame, List.map_singleton, List.map_singleton, hsize]
      obtain ⟨es', hlength, hframed⟩ := ih (by omega) hnext (by rw [List.length_append, List.length_singleton]; omega) hvalid
      rw [hconsumes.address, List.append_assoc, List.singleton_append] at hframed
      exact ⟨es', hlength, hframed⟩
    · rename_i hev
      exact absurd hvalid hev

theorem parseBuffer_consumes (uid pid : Int) {buf len : Nat}
    (h : (({ mLogUid := uid, mLogPid := pid } : LogEvent).parseBuffer mem buf len).2 = true) :
    (∀ e ∈ decodeBuffer mem buf, ∀ n, e.shape = .chain n → n ≤ 64) ∧
      (∃ es, es.length ≤ 125 ∧ Framed (decodeBuffer mem buf) (({ mLogUid := uid, mLogPid := pid } : LogEvent).parseBuffer mem buf len).1 es) ∧
      UidAt (({ mLogUid := uid, mLogPid := pid } : LogEvent).parseBuffer mem buf len).1
        ((uidMarksFrom 0 (decodeBuffer mem buf)).foldl markUid none) ∧
      ExclusiveAt (({ mLogUid := uid, mLogPid := pid } : LogEvent).parseBuffer mem buf len).1 ∧
      (({ mLogUid := uid, mLogPid := pid } : LogEvent).parseBuffer mem buf len).1.chainRange =
        (chainRanges 0 (decodeBuffer mem buf)).foldl (fun _ range => range) (-1, -1) ∧
      (({ mLogUid := uid, mLogPid := pid } : LogEvent).parseBuffer mem buf len).1.mValues.length = valueCount (decodeBuffer mem buf) ∧
      ∀ v ∈ (({ mLogUid := uid, mLogPid := pid } : LogEvent).parseBuffer mem buf len).1.mValues, isWritten v.mValue = true := by
  unfold parseBuffer at h ⊢
  dsimp only at h ⊢
  generalize hstart : ({ mBuf := buf, mRemainingLen := len % 2 ^ 32, mLogUid := uid, mLogPid := pid } : LogEvent) = start at h ⊢
  have hempty : start.mValues = [] := by rw [← hstart]
  have hnoUid : UidAt start none := by
    rw [← hstart]
    rfl
  have hnoExclusive : ExclusiveAt start := by
    rw [← hstart]
    exact .inl rfl
  have hnoRange : start.chainRange = (-1, -1) := by
    rw [← hstart]
    rfl
  have haddress : start.mBuf = buf := by rw [← hstart]
  have hparsed := (steps_check _ _).valid h
  have hchecked : ((start.parseHeader mem).1.parseElements mem (start.parseHeader mem).2 (start.parseHeader mem).2).check
      (decide (((start.parseHeader mem).1.parseElements mem (start.parseHeader mem).2 (start.parseHeader mem).2).mRemainingLen = 0)) =
      (start.parseHeader mem).1.parseElements mem (start.parseHeader mem).2 (start.parseHeader mem).2 := by
    unfold check at h ⊢
    split at h
    · rename_i hc
      rw [if_pos hc]
    · cases h
  have hheaderValid := (steps_parseElements mem _ _ _).valid hparsed
  obtain ⟨hvalues, hcount⟩ := parseHeader_values mem hempty
  obtain ⟨hnumber, uids, hheader⟩ := consumes_parseHeader mem hheaderValid
  rw [hchecked]
  generalize start.parseHeader mem = r at hparsed hheaderValid hvalues hcount hnumber hheader ⊢
  -- no value, no mark
  have huid : UidAt r.1 none := by
    have hmark := hheader.uid none hnoUid
    cases hfold : uids.foldl markUid none with
    | none =>
      rw [hfold] at hmark
      exact hmark
    | some m =>
      rw [hfold] at hmark
      obtain ⟨-, v, hv, -⟩ := hmark
      rw [hvalues] at hv
      cases hv
  have hdecode : decodeBuffer mem buf = decodeElements mem r.2 r.1.mBuf := by
    unfold decodeBuffer
    rw [hheader.address, hnumber, haddress]
  rw [hdecode]
  obtain ⟨hchains, addr, hconsumes⟩ := consumes_parseElements mem r.2 r.2 hparsed
  have hnone : Framed [] r.1 [] := ⟨trivial, by rw [hvalues]; rfl, rfl⟩
  obtain ⟨es, hlength, hframed⟩ := frames_parseElements mem r.2 r.2 (le_refl _) hnone (Nat.sub_self _).symm hparsed
  rw [hvalues, List.length_nil] at hconsumes
  refine ⟨hchains, ⟨es, by rw [hlength]; exact hcount hheaderValid, hframed⟩, hconsumes.uid none huid,
    hconsumes.exclusive (hheader.exclusive hnoExclusive), ?_, ?_, hconsumes.written fun v hv => ?_⟩
  · rw [hconsumes.range, hheader.range, List.foldl_nil, hnoRange]
  · rw [hconsumes.length, hvalues, List.length_nil, Nat.zero_add]
    rfl
  · rw [hvalues] at hv
    cases hv

end LogEvent

/-- Every event that the parser accepts represents the elements of its buffer if and only if no list has more than 127 pairs and
the value that was marked last as a uid keeps its mark. -/
theorem accepted_representation_iff (mem : Memory) (uid pid : Int) {buf len : Nat}
    (h : (({ mLogUid := uid, mLogPid := pid } : LogEvent).parseBuffer mem buf len).2 = true) :
    Representation (decodeBuffer mem buf) (({ mLogUid := uid, mLogPid := pid } : LogEvent).parseBuffer mem buf len).1 ↔
      PairsNumbered (decodeBuffer mem buf) ∧ KeepsUid (uidMarksFrom 0 (decodeBuffer mem buf)) := by
  obtain ⟨hchains, ⟨es, hlength, hframed⟩, huid, hexclusive, hrange, hcount, -⟩ := LogEvent.parseBuffer_consumes mem uid pid h
  generalize (({ mLogUid := uid, mLogPid := pid } : LogEvent).parseBuffer mem buf len).1 = ev at *
  rw [keepsUid_iff, ← LogEvent.uidAt_marked_iff huid]
  constructor
  · intro hrep
    have hincreasing := hrep.increasing
    rw [hframed.map positionOf, List.pairwise_map] at hincreasing
    exact ⟨hframed.pairsNumbered hlength hincreasing, hrep.uid⟩
  · rintro ⟨hpairs, hmarked⟩
    have hcounts : ∀ w ∈ decodeBuffer mem buf, ∀ n, w.shape = .pairs n ∨ w.shape = .chain n → n ≤ 127 := by
      intro w hw n hshape
      rcases hshape with hshape | hshape
      · exact hpairs w hw n hshape
      · exact (hchains w hw n hshape).trans (by decide)
    obtain ⟨hincreasing, hlast, -⟩ := increasing_elements hframed.placed hframed.sizes (by omega)
      (lists_bounded hframed.sizes hcounts)
    refine ⟨?_, ?_, hmarked, hexclusive, ?_⟩
    · rw [hframed.map positionOf, List.pairwise_map]
      exact hincreasing
    · rw [hframed.map fun f => f.isLastPos 1]
      exact hlast
    · -- the range is the one before the first chain, or that of a chain
      rcases LogEvent.foldl_last_mem (-1, -1) (chainRanges 0 (decodeBuffer mem buf)) with hnone | hmem
      · rw [hnone] at hrange
        exact .inl ⟨congrArg Prod.fst hrange, congrArg Prod.snd hrange⟩
      · rw [← hrange] at hmem
        obtain ⟨before, after, e, count, hsplit, hshape, hpos, hends⟩ := LogEvent.mem_chainRanges hmem
        rw [Nat.zero_add] at hends
        refine .inr ⟨before, after, e, count, hsplit, hshape, hpos, congrArg Prod.fst hends, congrArg Prod.snd hends, ?_⟩
        have hsize : e.shape.size = 2 * count := by
          rw [hshape]
          rfl
        rw [hcount, hsplit]
        unfold valueCount
        rw [List.map_append, List.map_cons, List.sum_append, List.sum_cons, hsize]
        omega

/-- An event with one int, marked as a uid. -/
theorem accepted_representation_one :
    let bytes : List UInt8 := [0x07, 3, 0x01, 0, 0, 0, 0, 0, 0, 0, 0, 0x00, 10, 0, 0, 0, 0x10, 0xe8, 3, 0, 0, 1, 5, 1]
    let mem := Memory.write (fun _ => 0) 0 bytes
    Representation (decodeBuffer mem 0) (({ mLogUid := 1000, mLogPid := 7 } : LogEvent).parseBuffer mem 0 bytes.length).1 ↔
      PairsNumbered (decodeBuffer mem 0) ∧ KeepsUid (uidMarksFrom 0 (decodeBuffer mem 0)) :=
  accepted_representation_iff _ 1000 7 (by decide +kernel)

/-- A list of 128 pairs is accepted: its last pair has the position zero. -/
theorem pairs_out_of_order :
    let bytes : List UInt8 := [0x07, 3, 0x01, 0, 0, 0, 0, 0, 0, 0, 0, 0x00, 10, 0, 0, 0, 0x08, 128] ++
      (List.replicate 128 [1, 0, 0, 0, 0x00, 7, 0, 0, 0]).flatten
    let mem := Memory.write (fun _ => 0) 0 bytes
    (({ mLogUid := 1000, mLogPid := 7 } : LogEvent).parseBuffer mem 0 bytes.length).2 = true ∧
      ¬ Representation (decodeBuffer mem 0) (({ mLogUid := 1000, mLogPid := 7 } : LogEvent).parseBuffer mem 0 bytes.length).1 := by
  refine ⟨by decide +kernel, fun h => ?_⟩
  have hincreasing := h.increasing
  revert hincreasing
  decide +kernel

end Statsd.Logd
