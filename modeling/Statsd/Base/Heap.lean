/-
Binary min-heaps laid out from index 1: the heap order over a function from positions to values, and
what sifting one value up or down does to it. Nothing here knows how the positions are stored.
-/
import Mathlib.Tactic

namespace Statsd.Heap

universe u

variable {α : Type u} {lt : α → α → Prop}

/-- A strict weak order: no cycles of two, and incomparability is transitive. -/
structure StrictWeak (lt : α → α → Prop) : Prop where
  asymm : ∀ a b, lt a b → ¬ lt b a
  negtrans : ∀ a b c, ¬ lt a b → ¬ lt b c → ¬ lt a c

/-- No child among the positions `1..n` is before its parent. -/
def Ordered (lt : α → α → Prop) (f : Nat → α) (n : Nat) : Prop :=
  ∀ i, 2 ≤ i → i ≤ n → ¬ lt (f i) (f (i / 2))

/-- The pairs that do not touch `hole` are in order, and so are its children with its parent. -/
structure Except (lt : α → α → Prop) (f : Nat → α) (n hole : Nat) : Prop where
  off : ∀ i, 2 ≤ i → i ≤ n → i ≠ hole → i / 2 ≠ hole → ¬ lt (f i) (f (i / 2))
  grand : ∀ i, i ≤ n → i / 2 = hole → 2 ≤ hole → ¬ lt (f i) (f (hole / 2))

/-- The children of `hole` are not before it. -/
def Below (lt : α → α → Prop) (f : Nat → α) (n hole : Nat) : Prop :=
  ∀ i, 2 ≤ i → i ≤ n → i / 2 = hole → ¬ lt (f i) (f hole)

/-- `hole` is not before its parent. -/
def Above (lt : α → α → Prop) (f : Nat → α) (hole : Nat) : Prop :=
  2 ≤ hole → ¬ lt (f hole) (f (hole / 2))

/-- The values of two positions exchanged. -/
def swap (f : Nat → α) (i j : Nat) : Nat → α := fun k => if k = i then f j else if k = j then f i else f k

theorem swap_left (f : Nat → α) (i j : Nat) : swap f i j i = f j := by simp [swap]

theorem swap_right (f : Nat → α) (i j : Nat) : swap f i j j = f i := by
  unfold swap
  split
  · rename_i h; subst h; rfl
  · simp

theorem swap_ne (f : Nat → α) {i j k : Nat} (hi : k ≠ i) (hj : k ≠ j) : swap f i j k = f k := by
  simp [swap, hi, hj]

variable {f : Nat → α}

theorem Ordered.except {n : Nat} (sw : StrictWeak lt) (h : Ordered lt f n) (hole : Nat) :
    Except lt f n hole := by
  refine ⟨fun i h2 hn _ _ => h i h2 hn, fun i hn hi h2 => ?_⟩
  subst hi
  exact sw.negtrans _ _ _ (h i (by omega) hn) (h (i / 2) h2 (by omega))

theorem Ordered.below {n : Nat} (h : Ordered lt f n) (hole : Nat) : Below lt f n hole := by
  intro i h2 hn hi
  subst hi
  exact h i h2 hn

theorem Except.ordered {n hole : Nat} (h : Except lt f n hole) (hb : Below lt f n hole)
    (ha : Above lt f hole) : Ordered lt f n := by
  intro i h2 hn
  by_cases hi : i = hole
  · subst hi; exact ha h2
  by_cases hp : i / 2 = hole
  · rw [hp]; exact hb i h2 hn hp
  · exact h.off i h2 hn hi hp

theorem Except.below_of_lt {n hole : Nat} (sw : StrictWeak lt) (h : Except lt f n hole)
    (h2 : 2 ≤ hole) (hlt : lt (f hole) (f (hole / 2))) : Below lt f n hole := by
  intro i _ hn hi hbad
  have hup : ¬ lt (f (hole / 2)) (f i) := fun hh =>
    sw.negtrans _ _ _ (sw.asymm _ _ hbad) (sw.asymm _ _ hh) hlt
  exact sw.negtrans _ _ _ (h.grand i hn hi h2) (sw.asymm _ _ hlt) hbad

theorem Except.up {n hole : Nat} (sw : StrictWeak lt) (h : Except lt f n hole)
    (h2 : 2 ≤ hole) (hn : hole ≤ n) (hlt : lt (f hole) (f (hole / 2))) :
    Except lt (swap f hole (hole / 2)) n (hole / 2) ∧ Below lt (swap f hole (hole / 2)) n (hole / 2) := by
  have hne : hole / 2 ≠ hole := by omega
  have hpar : 2 ≤ hole / 2 → ¬ lt (f (hole / 2)) (f (hole / 2 / 2)) := fun hp =>
    h.off (hole / 2) hp (by omega) hne (by omega)
  refine ⟨⟨?_, ?_⟩, ?_⟩
  · intro i hi2 hin hi hip
    by_cases hih : i = hole
    · exact absurd (by rw [hih]) hip
    rw [swap_ne f hih hi]
    by_cases hp : i / 2 = hole
    · rw [hp, swap_left]; exact h.grand i hin hp h2
    · rw [swap_ne f hp hip]; exact h.off i hi2 hin hih hp
  · intro i hin hi hp2
    have hpp : hole / 2 / 2 ≠ hole := by omega
    rw [swap_ne f hpp (by omega)]
    by_cases hih : i = hole
    · rw [hih, swap_left]; exact hpar hp2
    · rw [swap_ne f hih (by omega)]
      have hoff : ¬ lt (f i) (f (i / 2)) := h.off i (by omega) hin hih (by omega)
      rw [hi] at hoff
      exact sw.negtrans _ _ _ hoff (hpar hp2)
  · intro i hi2 hin hi
    rw [swap_right]
    by_cases hih : i = hole
    · rw [hih, swap_left]; exact sw.asymm _ _ hlt
    · rw [swap_ne f hih (by omega)]
      have hoff : ¬ lt (f i) (f (i / 2)) := h.off i (by omega) hin hih (by omega)
      rw [hi] at hoff
      exact sw.negtrans _ _ _ hoff (sw.asymm _ _ hlt)

theorem Except.down {n hole c : Nat} (sw : StrictWeak lt) (h : Except lt f n hole)
    (h1 : 1 ≤ hole) (hc : c / 2 = hole) (hcn : c ≤ n)
    (hmin : ∀ i, 2 ≤ i → i ≤ n → i / 2 = hole → ¬ lt (f i) (f c)) (hlt : lt (f c) (f hole)) :
    Except lt (swap f c hole) n c ∧ Above lt (swap f c hole) c := by
  have hne : hole ≠ c := by omega
  refine ⟨⟨?_, ?_⟩, ?_⟩
  · intro i hi2 hin hi hip
    by_cases hih : i = hole
    · subst hih
      rw [swap_right, swap_ne f (by omega) (by omega)]
      exact h.grand c hcn hc hi2
    rw [swap_ne f hi hih]
    by_cases hp : i / 2 = hole
    · rw [hp, swap_right]; exact hmin i hi2 hin hp
    · rw [swap_ne f hip hp]; exact h.off i hi2 hin hih hp
  · intro i hin hi _
    rw [hc, swap_right, swap_ne f (by omega) (by omega), ← hi]
    exact h.off i (by omega) hin (by omega) (by omega)
  · intro _
    rw [hc, swap_left, swap_right]; exact sw.asymm _ _ hlt

theorem Ordered.top_min {n : Nat} (sw : StrictWeak lt) (h : Ordered lt f n) :
    ∀ i, 1 ≤ i → i ≤ n → ¬ lt (f i) (f 1) := by
  intro i
  induction i using Nat.strong_induction_on with
  | _ i ih =>
    intro h1 hn
    by_cases hi : i = 1
    · subst hi; exact fun hlt => sw.asymm _ _ hlt hlt
    · exact sw.negtrans _ _ _ (h i (by omega) hn) (ih (i / 2) (by omega) (by omega) (by omega))

end Statsd.Heap
