/-
Recursions over the nodes of a graph that mark the nodes on the path: every call marks one more node, so the
number of nodes that are not marked bounds the depth.
-/
import Mathlib.Data.Finset.Card
import Mathlib.Data.Finset.Range
import Mathlib.Logic.Function.Basic

namespace Statsd

/-- A function that returns whether it was successful; the model of a recursion may also lack the fuel. -/
inductive Outcome (α : Type) where
  | ok (a : α)
  | failure
  | outOfFuel

/-- The nodes below `n` that are not marked. -/
def unmarked (n : Nat) (marks : Nat → Bool) : Nat := {i ∈ Finset.range n | marks i = false}.card

theorem unmarked_none (n : Nat) : unmarked n (fun _ => false) = n := by
  simp [unmarked]

theorem unmarked_mark {n : Nat} {marks : Nat → Bool} {i : Nat} (hi : i < n) (hm : marks i = false) :
    unmarked n (Function.update marks i true) < unmarked n marks := by
  unfold unmarked
  refine Finset.card_lt_card ((Finset.ssubset_iff_of_subset fun j hj => ?_).2 ⟨i, ?_, ?_⟩)
  · rw [Finset.mem_filter] at hj ⊢
    refine ⟨hj.1, ?_⟩
    by_cases hji : j = i
    · rw [hji]
      exact hm
    · rw [Function.update_of_ne hji] at hj
      exact hj.2
  · exact Finset.mem_filter.2 ⟨Finset.mem_range.2 hi, hm⟩
  · simp

theorem update_update_of_unmarked {marks : Nat → Bool} {i : Nat} (hm : marks i = false) :
    Function.update (Function.update marks i true) i false = marks := by
  rw [Function.update_idem, ← hm, Function.update_eq_self]

end Statsd
