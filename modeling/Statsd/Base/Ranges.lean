/-
Ranges of a list: the elements from an index up to another, read as a list of their own. A range of a range
is a range.
-/
import Mathlib.Data.List.Basic
import Mathlib.Tactic

namespace Statsd

variable {α : Type}

/-- From `start` up to `stop` the list holds `part`. -/
def RangeOf (l : List α) (start stop : Nat) (part : List α) : Prop :=
  ∃ pre post, l = pre ++ part ++ post ∧ pre.length = start ∧ start + part.length = stop

namespace RangeOf

variable {l part : List α} {start stop : Nat}

theorem whole (l : List α) : RangeOf l 0 l.length l := ⟨[], [], by simp, rfl, Nat.zero_add _⟩

theorem elements (h : RangeOf l start stop part) : (l.take stop).drop start = part := by
  obtain ⟨pre, post, rfl, rfl, rfl⟩ := h
  rw [← List.length_append, List.take_left', List.drop_left]
  rfl

theorem length (h : RangeOf l start stop part) : start + part.length = stop := by
  obtain ⟨-, -, -, -, h⟩ := h
  exact h

theorem lt (h : RangeOf l start stop part) (hne : part ≠ []) : start < stop := by
  have hpos := List.length_pos_iff.2 hne
  have hlen := h.length
  omega

theorem inner {as bs cs : List α} (h : RangeOf l start stop (as ++ bs ++ cs)) :
    RangeOf l (start + as.length) (start + as.length + bs.length) bs := by
  obtain ⟨pre, post, rfl, rfl, -⟩ := h
  exact ⟨pre ++ as, cs ++ post, by simp only [List.append_assoc], List.length_append, rfl⟩

theorem left {as bs : List α} (h : RangeOf l start stop (as ++ bs)) : RangeOf l start (start + as.length) as :=
  @inner α l start stop [] as bs h

theorem right {as bs : List α} (h : RangeOf l start stop (as ++ bs)) : RangeOf l (start + as.length) stop bs := by
  have hlen := h.length
  rw [List.length_append, ← Nat.add_assoc] at hlen
  rw [← hlen]
  exact @inner α l start stop as bs [] (by rw [List.append_nil]; exact h)

theorem head {x : α} {xs : List α} (h : RangeOf l start stop (x :: xs)) : l[start]? = some x := by
  obtain ⟨pre, post, rfl, rfl, -⟩ := h
  rw [List.append_assoc, List.getElem?_append_right (le_refl _), Nat.sub_self]
  rfl

end RangeOf

end Statsd
