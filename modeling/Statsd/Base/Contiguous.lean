/-
Groups of neighbours. A list is contiguous when equal elements stand next to one another; then keeping one element
of each run (`destutter`) keeps each element once. A list sorted by one function has contiguous values of another
exactly when nothing of another group lies strictly between two elements of a group.
-/
import Mathlib.Data.List.Destutter
import Mathlib.Order.Defs.LinearOrder
import Mathlib.Tactic

namespace Statsd

section

variable {α : Type}

/-- Between two equal elements all are equal to them. -/
def Contiguous (l : List α) : Prop := ∀ x y, [x, y, x].Sublist l → y = x

theorem contiguous_singleton (a : α) : Contiguous [a] := by
  intro x y h
  have hlen := h.length_le
  simp at hlen

theorem contiguous_cons_self {a : α} {l : List α} : Contiguous (a :: a :: l) ↔ Contiguous (a :: l) := by
  constructor
  · intro h x y hsub
    exact h x y (hsub.cons a)
  · intro h x y hsub
    -- three elements of which the first is `a` have the other two behind it
    rcases List.sublist_cons_iff.1 hsub with hsub | ⟨r, heq, hsub⟩
    · exact h x y hsub
    · obtain ⟨rfl, rfl⟩ := List.cons.inj heq
      rcases List.sublist_cons_iff.1 hsub with hsub | ⟨r, heq, hsub⟩
      · exact h x y (hsub.cons_cons x)
      · exact (List.cons.inj heq).1

theorem contiguous_cons_ne {a b : α} {l : List α} (hne : a ≠ b) :
    Contiguous (a :: b :: l) ↔ a ∉ b :: l ∧ Contiguous (b :: l) := by
  constructor
  · intro h
    refine ⟨fun hmem => ?_, fun x y hsub => h x y (hsub.cons a)⟩
    have hmem : a ∈ l := (List.mem_cons.1 hmem).resolve_left hne
    have hsub : [a, b, a].Sublist (a :: b :: l) := ((List.singleton_sublist.2 hmem).cons_cons b).cons_cons a
    exact hne (h a b hsub).symm
  · rintro ⟨hmem, h⟩ x y hsub
    rcases List.sublist_cons_iff.1 hsub with hsub | ⟨r, heq, hsub⟩
    · exact h x y hsub
    · obtain ⟨rfl, rfl⟩ := List.cons.inj heq
      exact absurd (hsub.subset (by simp)) hmem

variable [DecidableEq α]

theorem mem_destutter'_ne {a x : α} {l : List α} : x ∈ l.destutter' (· ≠ ·) a ↔ x ∈ a :: l := by
  induction l generalizing a with
  | nil => simp
  | cons b l ih =>
    by_cases h : a = b
    · subst h
      rw [List.destutter'_cons_neg _ (by simp), ih]
      simp
    · rw [List.destutter'_cons_pos _ h, List.mem_cons, ih, List.mem_cons (a := x) (b := a)]

theorem nodup_destutter'_iff {a : α} {l : List α} : (l.destutter' (· ≠ ·) a).Nodup ↔ Contiguous (a :: l) := by
  induction l generalizing a with
  | nil => simp [contiguous_singleton]
  | cons b l ih =>
    by_cases h : a = b
    · subst h
      rw [List.destutter'_cons_neg _ (by simp), ih, contiguous_cons_self]
    · rw [List.destutter'_cons_pos _ h, List.nodup_cons, mem_destutter'_ne, ih, contiguous_cons_ne h]

end

/-! ## Sorted lists -/

section

variable {α β γ : Type} [LinearOrder β] {f : α → β} {l : List α}

theorem sublist_of_sorted (hs : l.Pairwise fun x y => f x ≤ f y) {a b c : α} (ha : a ∈ l) (hb : b ∈ l) (hc : c ∈ l)
    (hab : f a < f b) (hbc : f b < f c) : [a, b, c].Sublist l := by
  obtain ⟨s, t, rfl⟩ := List.append_of_mem ha
  obtain ⟨-, hst, hcross⟩ := List.pairwise_append.1 hs
  obtain ⟨-, hst⟩ := List.pairwise_cons.1 hst
  -- what is above `a` is not in front of it
  have habove : ∀ x, x ∈ s ++ a :: t → f a < f x → x ∈ t := by
    intro x hx hlt
    rcases List.mem_append.1 hx with hx | hx
    · exact absurd (hcross x hx a (List.mem_cons_self ..)) (not_le.2 hlt)
    · rcases List.mem_cons.1 hx with rfl | hx
      · exact absurd hlt (lt_irrefl _)
      · exact hx
  have hb := habove b hb hab
  have hc := habove c hc (hab.trans hbc)
  obtain ⟨s', t', rfl⟩ := List.append_of_mem hb
  obtain ⟨-, -, hcross'⟩ := List.pairwise_append.1 hst
  have hc : c ∈ t' := by
    rcases List.mem_append.1 hc with hc | hc
    · exact absurd (hcross' c hc b (List.mem_cons_self ..)) (not_le.2 hbc)
    · rcases List.mem_cons.1 hc with rfl | hc
      · exact absurd hbc (lt_irrefl _)
      · exact hc
  have htail : [b, c].Sublist (s' ++ b :: t') :=
    ((List.singleton_sublist.2 hc).cons_cons b).trans (List.sublist_append_right s' _)
  exact (htail.cons_cons a).trans (List.sublist_append_right s _)

/-- The groups of a sorted list are contiguous exactly when no element of another group lies strictly between two
elements of a group. -/
theorem contiguous_map_iff {key : α → γ} (hs : l.Pairwise fun x y => f x ≤ f y)
    (hkey : ∀ a ∈ l, ∀ b ∈ l, f a = f b → key a = key b) :
    Contiguous (l.map key) ↔
      ∀ a ∈ l, ∀ b ∈ l, ∀ c ∈ l, f a < f b → f b < f c → key a = key c → key b = key a := by
  constructor
  · intro h a ha b hb c hc hab hbc hac
    have hsub := (sublist_of_sorted hs ha hb hc hab hbc).map key
    refine h (key a) (key b) ?_
    simpa only [List.map_cons, List.map_nil, ← hac] using hsub
  · intro h x y hsub
    obtain ⟨l', hsub', hmap⟩ := List.sublist_map_iff.1 hsub
    obtain ⟨a, b, c, rfl⟩ : ∃ a b c, l' = [a, b, c] := by
      have hlen := congrArg List.length hmap
      rw [List.length_map] at hlen
      obtain ⟨a, b, c, h⟩ := List.length_eq_three.1 hlen.symm
      exact ⟨a, b, c, h⟩
    simp only [List.map_cons, List.map_nil, List.cons.injEq, and_true] at hmap
    obtain ⟨rfl, rfl, hac⟩ := hmap
    have hpair := hs.sublist hsub'
    simp only [List.pairwise_cons, List.mem_cons, List.not_mem_nil, or_false, forall_eq_or_imp, forall_eq] at hpair
    have ha : a ∈ l := hsub'.subset (by simp)
    have hb : b ∈ l := hsub'.subset (by simp)
    have hc : c ∈ l := hsub'.subset (by simp)
    -- with equal places the keys are equal; otherwise `b` lies strictly between
    rcases hpair.1.1.eq_or_lt with hab | hab
    · exact (hkey a ha b hb hab).symm
    · rcases hpair.2.1.eq_or_lt with hbc | hbc
      · rw [hkey b hb c hc hbc, hac]
      · exact h a ha b hb c hc hab hbc hac

end

end Statsd
