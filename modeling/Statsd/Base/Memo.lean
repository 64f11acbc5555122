/-
Memoised evaluation of the nodes of a graph without cycles. A visit of a node returns at once when the node's
entry is done; otherwise it visits the children and computes the entry from theirs. Whatever the order of the
visits, an entry is either as it was at the start or the value of the plain recursion.
-/
import Mathlib.Logic.Function.Basic
import Mathlib.Tactic

namespace Statsd

/-- A graph whose nodes are computed from the entries of their children. -/
structure Memo (A : Type) where
  /-- The children of a node, read off its entry. -/
  children : Nat → A → List Nat
  done : A → Bool
  node : Nat → (Nat → A) → A

namespace Memo

variable {A : Type} (m : Memo A)

/-- A visit of a node, with fuel for its depth. -/
def visit : Nat → Nat → (Nat → A) → Nat → A
  | 0, _, s => s
  | fuel + 1, i, s =>
    if m.done (s i) then s
    else
      let s := (m.children i (s i)).foldl (fun s c => visit fuel c s) s
      Function.update s i (m.node i s)

/-- The plain recursion. -/
def spec (start : Nat → A) : Nat → Nat → A
  | 0, i => start i
  | fuel + 1, i => m.node i fun j => if j ∈ m.children i (start i) then spec start fuel j else start j

/-- The children are of a lower rank, nothing is done at the start, a node reads its own entry and those of its
children, and its result is done. -/
structure Lawful (rank : Nat → Nat) (start : Nat → A) : Prop where
  rank_lt : ∀ i, ∀ c ∈ m.children i (start i), rank c < rank i
  fresh : ∀ i, m.done (start i) = false
  reads : ∀ i s s', s i = start i → s' i = start i → (∀ c ∈ m.children i (start i), s c = s' c) →
    m.node i s = m.node i s'
  finished : ∀ i s, s i = start i → (∀ c ∈ m.children i (start i), m.done (s c) = true) → m.done (m.node i s) = true

/-- The value of a node. -/
def value (rank : Nat → Nat) (start : Nat → A) (i : Nat) : A := m.spec start (rank i + 1) i

/-- Every entry is untouched or the value. -/
def Memoised (rank : Nat → Nat) (start s : Nat → A) : Prop := ∀ i, s i = start i ∨ s i = m.value rank start i

variable {m} {rank : Nat → Nat} {start : Nat → A}

/-- What visits do: the entries stay memoised, and what has its value keeps it. -/
structure Visited (m : Memo A) (rank : Nat → Nat) (start s s' : Nat → A) : Prop where
  memoised : m.Memoised rank start s'
  keeps : ∀ j, s j = m.value rank start j → s' j = m.value rank start j

theorem Visited.refl {s : Nat → A} (hs : m.Memoised rank start s) : Visited m rank start s s := ⟨hs, fun _ h => h⟩

theorem Visited.trans {s s' s'' : Nat → A} (h : Visited m rank start s s') (h' : Visited m rank start s' s'') :
    Visited m rank start s s'' := ⟨h'.memoised, fun j hj => h'.keeps j (h.keeps j hj)⟩

namespace Lawful

variable (h : m.Lawful rank start)
include h

theorem not_mem_children (i : Nat) : i ∉ m.children i (start i) := fun hi => absurd (h.rank_lt i i hi) (lt_irrefl _)

theorem spec_fuel {fuel fuel' i : Nat} (hf : rank i < fuel) (hf' : rank i < fuel') :
    m.spec start fuel i = m.spec start fuel' i := by
  induction fuel generalizing fuel' i with
  | zero => omega
  | succ fuel ih =>
    cases fuel' with
    | zero => omega
    | succ fuel' =>
      unfold spec
      refine h.reads i _ _ (if_neg (h.not_mem_children i)) (if_neg (h.not_mem_children i)) fun c hc => ?_
      · have hlt := h.rank_lt i c hc
        rw [if_pos hc, if_pos hc]
        exact ih (by omega) (by omega)

theorem value_eq {i : Nat} {s : Nat → A} (hi : s i = start i) (hs : ∀ c ∈ m.children i (start i), s c = m.value rank start c) :
    m.value rank start i = m.node i s := by
  unfold value spec
  refine h.reads i _ _ (if_neg (h.not_mem_children i)) hi fun c hc => ?_
  · rw [if_pos hc, hs c hc]
    exact h.spec_fuel (h.rank_lt i c hc) (Nat.lt_succ_self _)

theorem value_done (i : Nat) : m.done (m.value rank start i) = true := by
  induction hr : rank i using Nat.strong_induction_on generalizing i with
  | _ r ih =>
    let s : Nat → A := fun j => if j ∈ m.children i (start i) then m.value rank start j else start j
    have hi : s i = start i := if_neg (h.not_mem_children i)
    have hs : ∀ c ∈ m.children i (start i), s c = m.value rank start c := fun c hc => if_pos hc
    rw [h.value_eq hi hs]
    refine h.finished i s hi fun c hc => ?_
    rw [hs c hc]
    exact ih (rank c) (hr ▸ h.rank_lt i c hc) c rfl

theorem update_value {s : Nat → A} (hs : m.Memoised rank start s) (i : Nat) :
    Visited m rank start s (Function.update s i (m.value rank start i)) := by
  have hother : ∀ j, s j = m.value rank start j →
      Function.update s i (m.value rank start i) j = m.value rank start j := by
    intro j hj
    by_cases hji : j = i
    · rw [hji, Function.update_self]
    · rw [Function.update_of_ne hji, hj]
  refine ⟨fun j => ?_, hother⟩
  by_cases hji : j = i
  · rw [hji, Function.update_self]
    exact .inr rfl
  · rw [Function.update_of_ne hji]
    exact hs j

/-- A visit with fuel above the rank leaves the value of the node and touches nothing else of its rank or above. -/
theorem visit_spec {fuel i : Nat} (hf : rank i < fuel) {s : Nat → A} (hs : m.Memoised rank start s) :
    Visited m rank start s (m.visit fuel i s) ∧ m.visit fuel i s i = m.value rank start i ∧
      ∀ j, j ≠ i → rank i ≤ rank j → m.visit fuel i s j = s j := by
  induction fuel generalizing i s with
  | zero => omega
  | succ fuel ih =>
    -- the children, one after the other
    have hchildren : ∀ (l : List Nat), (∀ c ∈ l, rank c < rank i) → ∀ s, m.Memoised rank start s →
        Visited m rank start s (l.foldl (fun s c => m.visit fuel c s) s) ∧
          (∀ c ∈ l, l.foldl (fun s c => m.visit fuel c s) s c = m.value rank start c) ∧
          ∀ j, rank i ≤ rank j → l.foldl (fun s c => m.visit fuel c s) s j = s j := by
      intro l
      induction l with
      | nil => exact fun _ s hs => ⟨.refl hs, fun c hc => (List.not_mem_nil hc).elim, fun _ _ => rfl⟩
      | cons c l ihl =>
        intro hl s hs
        have hc := hl c List.mem_cons_self
        obtain ⟨hvisited, hvalue, hframe⟩ := ih (by omega : rank c < fuel) hs
        obtain ⟨hvisited', hvalue', hframe'⟩ :=
          ihl (fun d hd => hl d (List.mem_cons_of_mem c hd)) _ hvisited.memoised
        rw [List.foldl_cons]
        refine ⟨hvisited.trans hvisited', fun d hd => ?_, fun j hj => ?_⟩
        · rcases List.mem_cons.1 hd with rfl | hd
          · exact hvisited'.keeps d hvalue
          · exact hvalue' d hd
        · rw [hframe' j hj]
          refine hframe j ?_ (by omega)
          rintro rfl
          omega
    unfold visit
    by_cases hdone : m.done (s i) = true
    · rw [if_pos hdone]
      refine ⟨.refl hs, ?_, fun _ _ _ => rfl⟩
      rcases hs i with hi | hi
      · rw [hi, h.fresh i] at hdone
        cases hdone
      · exact hi
    · rw [if_neg hdone]
      have hstart : s i = start i := by
        rcases hs i with hi | hi
        · exact hi
        · rw [hi, h.value_done i] at hdone
          exact absurd rfl hdone
      rw [hstart]
      obtain ⟨hvisited, hvalue, hframe⟩ := hchildren (m.children i (start i)) (h.rank_lt i) s hs
      generalize (m.children i (start i)).foldl (fun s c => m.visit fuel c s) s = s' at hvisited hvalue hframe
      dsimp only
      have hi : s' i = start i := (hframe i (le_refl _)).trans hstart
      rw [← h.value_eq hi hvalue]
      refine ⟨hvisited.trans (h.update_value hvisited.memoised i), Function.update_self .., fun j hji hj => ?_⟩
      rw [Function.update_of_ne hji]
      exact hframe j hj

theorem visitAll_spec (fuel : Nat) (l : List Nat) (hl : ∀ i ∈ l, rank i < fuel) {s : Nat → A}
    (hs : m.Memoised rank start s) :
    Visited m rank start s (l.foldl (fun s i => m.visit fuel i s) s) ∧
      (∀ i ∈ l, l.foldl (fun s i => m.visit fuel i s) s i = m.value rank start i) ∧
      ∀ j, (∀ i ∈ l, rank i < rank j) → l.foldl (fun s i => m.visit fuel i s) s j = s j := by
  induction l generalizing s with
  | nil => exact ⟨.refl hs, fun i hi => (List.not_mem_nil hi).elim, fun _ _ => rfl⟩
  | cons i l ih =>
    obtain ⟨hvisited, hvalue, hframe⟩ := h.visit_spec (hl i List.mem_cons_self) hs
    obtain ⟨hvisited', hvalue', hframe'⟩ := ih (fun j hj => hl j (List.mem_cons_of_mem i hj)) hvisited.memoised
    rw [List.foldl_cons]
    refine ⟨hvisited.trans hvisited', fun j hj => ?_, fun j hj => ?_⟩
    · rcases List.mem_cons.1 hj with rfl | hj
      · exact hvisited'.keeps j hvalue
      · exact hvalue' j hj
    · have hlt := hj i List.mem_cons_self
      rw [hframe' j fun k hk => hj k (List.mem_cons_of_mem _ hk)]
      refine hframe j ?_ (by omega)
      rintro rfl
      omega

end Lawful

theorem exists_rank_lt {children : Nat → List Nat} {rank : Nat → Nat} {n : Nat}
    (h : ∀ i < n, ∀ c ∈ children i, c < n ∧ rank c < rank i) :
    ∃ rank' : Nat → Nat, ∀ i < n, rank' i < n ∧ ∀ c ∈ children i, rank' c < rank' i := by
  refine ⟨fun i => {j ∈ Finset.range n | rank j < rank i}.card, fun i hi => ⟨?_, fun c hc => ?_⟩⟩
  · have hlt := Finset.card_lt_card (Finset.filter_ssubset.2
      ⟨i, Finset.mem_range.2 hi, lt_irrefl (rank i)⟩ : {j ∈ Finset.range n | rank j < rank i} ⊂ Finset.range n)
    rwa [Finset.card_range] at hlt
  · obtain ⟨hcn, hlt⟩ := h i hi c hc
    refine Finset.card_lt_card ((Finset.ssubset_iff_of_subset fun j hj => ?_).2 ⟨c, ?_, ?_⟩)
    · rw [Finset.mem_filter] at hj ⊢
      exact ⟨hj.1, hj.2.trans hlt⟩
    · exact Finset.mem_filter.2 ⟨Finset.mem_range.2 hcn, hlt⟩
    · rw [Finset.mem_filter]
      exact fun hj => lt_irrefl _ hj.2

end Memo

end Statsd
