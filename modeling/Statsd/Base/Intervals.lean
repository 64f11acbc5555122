/-
Intervals of time closed one after another. When each starts where the one before has ended, or later, no two
of them overlap, whichever of them are kept and however the kept ones are handed out to keys.
-/
import Mathlib.Data.List.Basic
import Mathlib.Tactic

namespace Statsd

/-- A start and an end. -/
abbrev TimeInterval := Int × Int

/-- Neither has a moment inside the other. -/
def Apart (a b : TimeInterval) : Prop := a.2 ≤ b.1 ∨ b.2 ≤ a.1

instance (a b : TimeInterval) : Decidable (Apart a b) := inferInstanceAs (Decidable (_ ∨ _))

instance : Std.Symm Apart := ⟨fun _ _ => Or.symm⟩

/-- Closed in order, the last at `bound` or before. -/
structure ClosedInOrder (l : List TimeInterval) (bound : Int) : Prop where
  forward : ∀ i ∈ l, i.1 ≤ i.2
  bounded : ∀ i ∈ l, i.2 ≤ bound
  ordered : l.Pairwise fun a b => a.2 ≤ b.1

theorem ClosedInOrder.nil (bound : Int) : ClosedInOrder [] bound :=
  ⟨fun _ h => absurd h List.not_mem_nil, fun _ h => absurd h List.not_mem_nil, .nil⟩

theorem ClosedInOrder.cons {l : List TimeInterval} {i : TimeInterval} {bound : Int} (h : ClosedInOrder l bound)
    (hforward : i.1 ≤ i.2) (hbefore : ∀ j ∈ l, i.2 ≤ j.1) (hbound : i.2 ≤ bound) : ClosedInOrder (i :: l) bound := by
  refine ⟨?_, ?_, List.pairwise_cons.mpr ⟨hbefore, h.ordered⟩⟩
  · rintro j hj
    rcases List.mem_cons.mp hj with rfl | hj
    · exact hforward
    · exact h.forward j hj
  · rintro j hj
    rcases List.mem_cons.mp hj with rfl | hj
    · exact hbound
    · exact h.bounded j hj

theorem ClosedInOrder.snoc {l : List TimeInterval} {i : TimeInterval} {bound next : Int} (h : ClosedInOrder l bound)
    (hstart : bound ≤ i.1) (hforward : i.1 ≤ i.2) (hnext : i.2 ≤ next) : ClosedInOrder (l ++ [i]) next := by
  refine ⟨?_, ?_, List.pairwise_append.mpr ⟨h.ordered, List.pairwise_singleton _ _, ?_⟩⟩
  · rintro j hj
    rcases List.mem_append.mp hj with hj | hj
    · exact h.forward j hj
    · exact List.mem_singleton.mp hj ▸ hforward
  · rintro j hj
    rcases List.mem_append.mp hj with hj | hj
    · have := h.bounded j hj
      omega
    · exact List.mem_singleton.mp hj ▸ hnext
  · rintro a ha b hb
    have := h.bounded a ha
    rw [List.mem_singleton.mp hb]
    omega

/-- The closed intervals of keys, and those that no key keeps: each goes forward, and two of them overlap only
where two keys keep one interval. -/
structure NoOverlap {K : Type} (kept : K → List TimeInterval) (skipped : List TimeInterval) : Prop where
  keptForward : ∀ k, ∀ i ∈ kept k, i.1 ≤ i.2
  skippedForward : ∀ i ∈ skipped, i.1 ≤ i.2
  ofKey : ∀ k, (kept k).Pairwise Apart
  ofKeys : ∀ k k', ∀ i ∈ kept k, ∀ j ∈ kept k', i = j ∨ Apart i j
  ofSkipped : skipped.Pairwise Apart
  keptSkipped : ∀ k, ∀ i ∈ kept k, ∀ j ∈ skipped, Apart i j

end Statsd
