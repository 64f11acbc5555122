/-
Wholes that come in parts. A part is reported when it is over, and kept in an account until the whole it
belongs to is over too; then the account is handed over, under the number of the whole. What is handed
over matches what is reported when every account with data is handed over before its number is left.
-/
import Mathlib.Tactic

namespace Statsd.Handover

variable {M : Type} [AddCommMonoid M]

/-- The values under a number. -/
def valuesAt (n : Int) (l : List (Int × M)) : List M := (l.filter fun a => decide (a.1 = n)).map (·.2)

omit [AddCommMonoid M] in
@[simp] theorem valuesAt_append (n : Int) (l l' : List (Int × M)) : valuesAt n (l ++ l') = valuesAt n l ++ valuesAt n l' := by
  simp [valuesAt]

omit [AddCommMonoid M] in
@[simp] theorem valuesAt_tagged (n m : Int) (r : List M) : valuesAt n (r.map fun v => (m, v)) = if m = n then r else [] := by
  induction r with
  | nil => simp [valuesAt]
  | cons v r ih =>
    unfold valuesAt at ih ⊢
    rw [List.map_cons, List.filter_cons]
    by_cases h : m = n
    · rw [if_pos h] at ih ⊢
      rw [decide_eq_true h, if_pos rfl, List.map_cons, ih]
    · rw [if_neg h] at ih ⊢
      rw [decide_eq_false h, if_neg Bool.false_ne_true, ih]

/-- An account with one more part. -/
def join (a b : Option M) : Option M :=
  match a, b with
  | none, b => b
  | some a, none => some a
  | some a, some b => some (a + b)

theorem join_getD (a b : Option M) : (join a b).getD 0 = a.getD 0 + b.getD 0 := by
  cases a with
  | none => cases b <;> simp [join]
  | some a => cases b <;> simp [join]

theorem join_eq_none {a b : Option M} (h : join a b = none) : a = none ∧ b = none := by
  cases a with
  | none => exact ⟨rfl, h⟩
  | some a => cases b <;> cases h

/-- What is handed over matches what is reported, for the wholes before `num`, the current one. -/
structure Matches (reported handed : Int → List M) (num : Int) : Prop where
  value : ∀ n, ∀ v ∈ handed n, v = (reported n).sum
  once : ∀ n < num, reported n ≠ [] → (handed n).length = 1
  pending : ∀ n ≥ num, handed n = []

/-- The parts reported and the accounts handed over so far, and the account of the current whole. -/
structure Fed (parts handed : List (Int × M)) (account : Option M) (num : Int) : Prop where
  kept : account.getD 0 = (valuesAt num parts).sum
  noted : valuesAt num parts ≠ [] → account ≠ none
  matching : Matches (fun n => valuesAt n parts) (fun n => valuesAt n handed) num
  ahead : ∀ n > num, valuesAt n parts = []

/-- A part of the current whole: what is reported of it, and what goes to the account. -/
structure Part (r : List M) (o : Option M) : Prop where
  value : o.getD 0 = r.sum
  noted : r ≠ [] → o ≠ none

theorem Part.none : Part ([] : List M) none := ⟨rfl, fun h => absurd rfl h⟩

section

variable {parts handed : List (Int × M)} {account o : Option M} {num : Int} {r : List M}

theorem Fed.part (h : Fed parts handed account num) (hp : Part r o) :
    Fed (parts ++ r.map fun v => (num, v)) handed (join account o) num := by
  refine ⟨?_, fun hne hnone => ?_, ⟨fun n v hv => ?_, fun n hn hne => ?_, h.matching.pending⟩, fun n hn => ?_⟩
  · rw [join_getD, h.kept, hp.value]
    simp
  · obtain ⟨ha, ho⟩ := join_eq_none hnone
    have hparts : valuesAt num parts = [] := by
      by_contra hx
      exact h.noted hx ha
    have hr : r = [] := by
      by_contra hx
      exact hp.noted hx ho
    simp [hparts, hr] at hne
  · -- nothing of the current whole was handed over
    by_cases hn : num = n
    · subst hn
      rw [h.matching.pending num (le_refl num)] at hv
      cases hv
    · rw [valuesAt_append, valuesAt_tagged, if_neg hn, List.append_nil]
      exact h.matching.value n v hv
  · rw [valuesAt_append, valuesAt_tagged, if_neg (by omega), List.append_nil] at hne
    exact h.matching.once n hn hne
  · rw [valuesAt_append, valuesAt_tagged, if_neg (by omega), List.append_nil]
    exact h.ahead n hn

theorem Fed.whole (h : Fed parts handed account num) (hp : Part r o) {num' : Int} (hlt : num < num') :
    Fed (parts ++ r.map fun v => (num, v)) (handed ++ (join account o).toList.map fun v => (num, v)) none num' := by
  have hpart := h.part hp
  have hnone : valuesAt num' (parts ++ r.map fun v => (num, v)) = [] := hpart.ahead num' hlt
  refine ⟨by rw [hnone]; rfl, fun hne => absurd hnone hne, ⟨fun n v hv => ?_, fun n hn hne => ?_, fun n hn => ?_⟩, fun n hn =>
    hpart.ahead n (by omega)⟩
  · rw [valuesAt_append, valuesAt_tagged] at hv
    rcases List.mem_append.1 hv with hold | hnew
    · exact hpart.matching.value n v hold
    · by_cases hn : num = n
      · subst hn
        rw [if_pos rfl] at hnew
        rw [← hpart.kept, Option.mem_toList.1 hnew]
        rfl
      · rw [if_neg hn] at hnew
        cases hnew
  · rw [valuesAt_append, valuesAt_tagged]
    by_cases hx : num = n
    · subst hx
      rw [if_pos rfl, h.matching.pending num (le_refl num), List.nil_append]
      obtain ⟨v, hv⟩ := Option.ne_none_iff_exists'.1 (hpart.noted hne)
      rw [hv]
      rfl
    · rw [if_neg hx, List.append_nil]
      rcases lt_trichotomy n num with hlow | heq | hhigh
      · exact hpart.matching.once n hlow hne
      · exact absurd heq.symm hx
      · exact absurd (hpart.ahead n hhigh) hne
  · rw [valuesAt_append, valuesAt_tagged, if_neg (by omega), List.append_nil]
    exact h.matching.pending n (by omega)

theorem Fed.idle (h : Fed parts handed none num) {num' : Int} (hle : num ≤ num') : Fed parts handed none num' := by
  have hempty : valuesAt num parts = [] := by
    by_contra hx
    exact h.noted hx rfl
  have hahead : ∀ n ≥ num, valuesAt n parts = [] := by
    intro n hn
    rcases lt_or_eq_of_le hn with hlt | heq
    · exact h.ahead n hlt
    · exact heq ▸ hempty
  refine ⟨by rw [hahead num' hle]; rfl, fun hne => absurd (hahead num' hle) hne, ⟨h.matching.value, fun n hn hne => ?_, fun n hn =>
    h.matching.pending n (by omega)⟩, fun n hn => hahead n (by omega)⟩
  by_cases hx : n < num
  · exact h.matching.once n hx hne
  · exact absurd (hahead n (by omega)) hne

end

end Statsd.Handover
