/-
The merge loop of `std::set_intersection`, on ranges that need not be sorted. With a sorted second range it
finds something exactly when some element of the first range is in the second and no element before it is
greater; for a sorted first range that is: when the ranges have a common element.
-/
import Mathlib.Data.List.Basic
import Mathlib.Order.Defs.LinearOrder
import Mathlib.Tactic

namespace Statsd

variable {α : Type} [LinearOrder α]

/-- `set_intersection(as, bs)`: the second range advances past what is less than the head of the first, an
element found in both is written, and both ranges advance. -/
def setIntersection : List α → List α → List α
  | [], _ => []
  | a :: as, bs =>
    match bs.dropWhile (· < a) with
    | [] => []
    | b :: bs => if a < b then setIntersection as (b :: bs) else a :: setIntersection as bs

/-- An element of both ranges, with no greater element before it in the first. -/
def Record (as bs : List α) : Prop := ∃ pre a post, as = pre ++ a :: post ∧ a ∈ bs ∧ ∀ x ∈ pre, x ≤ a

theorem record_cons {a : α} {as bs : List α} (ha : a ∉ bs) :
    Record (a :: as) bs ↔ Record as (bs.filter fun b => ¬ b < a) := by
  constructor
  · rintro ⟨pre, x, post, heq, hx, hpre⟩
    cases pre with
    | nil =>
      obtain ⟨rfl, -⟩ := List.cons.inj heq
      exact absurd hx ha
    | cons y pre =>
      obtain ⟨rfl, rfl⟩ := List.cons.inj heq
      refine ⟨pre, x, post, rfl, ?_, fun z hz => hpre z (List.mem_cons_of_mem _ hz)⟩
      have hle : a ≤ x := hpre a (List.mem_cons_self ..)
      exact List.mem_filter.2 ⟨hx, decide_eq_true (not_lt.2 hle)⟩
  · rintro ⟨pre, x, post, rfl, hx, hpre⟩
    obtain ⟨hx, hle⟩ := List.mem_filter.1 hx
    have hle : a ≤ x := not_lt.1 (of_decide_eq_true hle)
    refine ⟨a :: pre, x, post, rfl, hx, fun z hz => ?_⟩
    rcases List.mem_cons.1 hz with rfl | hz
    · exact hle
    · exact hpre z hz

theorem dropWhile_lt_eq_filter {bs : List α} (hb : bs.Pairwise (· < ·)) (a : α) :
    bs.dropWhile (· < a) = bs.filter fun b => ¬ b < a := by
  induction bs with
  | nil => rfl
  | cons b bs ih =>
    obtain ⟨hhead, htail⟩ := List.pairwise_cons.1 hb
    by_cases hba : b < a
    · rw [List.dropWhile_cons_of_pos (by simpa using hba), List.filter_cons_of_neg (by simpa using hba), ih htail]
    · rw [List.dropWhile_cons_of_neg (by simpa using hba), List.filter_cons_of_pos (by simpa using hba)]
      congr 1
      refine (List.filter_eq_self.2 fun c hc => ?_).symm
      have hbc := hhead c hc
      exact decide_eq_true fun hca => hba (hbc.trans hca)

theorem setIntersection_ne_nil_iff (as : List α) {bs : List α} (hb : bs.Pairwise (· < ·)) :
    setIntersection as bs ≠ [] ↔ Record as bs := by
  induction as generalizing bs with
  | nil =>
    refine iff_of_false (fun h => h rfl) ?_
    rintro ⟨pre, a, post, heq, -⟩
    exact absurd heq (by simp)
  | cons a as ih =>
    have hdrop := dropWhile_lt_eq_filter hb a
    have hsub : (bs.filter fun b => ¬ b < a).Pairwise (· < ·) := hb.sublist List.filter_sublist
    rw [setIntersection, hdrop]
    by_cases ha : a ∈ bs
    · -- the element itself is found, as the first that is not less than it
      have hmem : a ∈ bs.filter fun b => ¬ b < a := List.mem_filter.2 ⟨ha, decide_eq_true (lt_irrefl a)⟩
      refine iff_of_true ?_ ⟨[], a, as, rfl, ha, fun x hx => by cases hx⟩
      cases hrest : bs.filter fun b => ¬ b < a with
      | nil => rw [hrest] at hmem; cases hmem
      | cons b rest =>
        rw [hrest] at hmem hsub
        have hab : ¬ a < b := by
          rcases List.mem_cons.1 hmem with rfl | hin
          · exact lt_irrefl _
          · exact ((List.pairwise_cons.1 hsub).1 a hin).asymm
        simp only [hab, if_false]
        exact List.cons_ne_nil _ _
    · rw [record_cons ha]
      cases hrest : bs.filter fun b => ¬ b < a with
      | nil =>
        refine iff_of_false (fun h => h rfl) ?_
        rintro ⟨pre, x, post, -, hx, -⟩
        cases hx
      | cons b rest =>
        have hb' : b ∈ bs.filter fun b => ¬ b < a := hrest ▸ List.mem_cons_self ..
        obtain ⟨hbm, hle⟩ := List.mem_filter.1 hb'
        have hlt : a < b := lt_of_le_of_ne (not_lt.1 (of_decide_eq_true hle)) fun h => ha (h ▸ hbm)
        simp only [hlt, if_true]
        exact ih (hrest ▸ hsub)

theorem record_of_sorted {as bs : List α} (h : as.Pairwise (· < ·)) : Record as bs ↔ ∃ a ∈ as, a ∈ bs := by
  constructor
  · rintro ⟨pre, a, post, rfl, ha, -⟩
    exact ⟨a, by simp, ha⟩
  · rintro ⟨a, ha, hb⟩
    obtain ⟨pre, post, rfl⟩ := List.append_of_mem ha
    refine ⟨pre, a, post, rfl, hb, fun x hx => ?_⟩
    exact ((List.pairwise_append.1 h).2.2 x hx a (List.mem_cons_self ..)).le

end Statsd
