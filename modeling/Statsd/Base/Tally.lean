/-
A counter that is reported in batches. An event is counted by adding one to the counter; a reporter takes
what the counter holds, and either delivers it or adds it back. Nothing is lost in the counter's own
arithmetic, and nothing at all while the values are exact.
-/
import Mathlib.Tactic

namespace Statsd

universe u v

/-- The events so far, the counter, and the batches that are held and that were delivered. -/
structure Tally (M : Type u) where
  events : Nat
  counter : M
  held : Multiset M
  delivered : Multiset M

namespace Tally

variable {M : Type u}

/-- What one step may do. -/
inductive Step [AddMonoidWithOne M] : Tally M → Tally M → Prop
  /-- An event is counted. -/
  | count (t : Tally M) : Step t { t with events := t.events + 1, counter := t.counter + 1 }
  /-- The counter is taken. -/
  | take (t : Tally M) : Step t { t with counter := 0, held := {t.counter} + t.held }
  /-- A held batch is delivered. -/
  | deliver (events : Nat) (counter c : M) (held delivered : Multiset M) :
    Step ⟨events, counter, {c} + held, delivered⟩ ⟨events, counter, held, {c} + delivered⟩
  /-- A held batch is added back. -/
  | putBack (events : Nat) (counter c : M) (held delivered : Multiset M) :
    Step ⟨events, counter, {c} + held, delivered⟩ ⟨events, counter + c, held, delivered⟩

/-! ## The counter's arithmetic -/

section Conserved

variable [AddCommMonoidWithOne M]

/-- Every event is in the counter, in a held batch or in a delivered one. -/
def Conserved (t : Tally M) : Prop := (t.events : M) = t.delivered.sum + t.held.sum + t.counter

theorem Step.conserved {t t' : Tally M} (h : Step t t') (ht : t.Conserved) : t'.Conserved := by
  unfold Conserved at *
  cases h with
  | count =>
    rw [Nat.cast_add_one, ht, add_assoc]
  | take =>
    rw [ht, Multiset.sum_add, Multiset.sum_singleton, add_zero, add_assoc, add_comm t.counter]
  | deliver events counter c held delivered =>
    simp only [Multiset.sum_add, Multiset.sum_singleton] at ht ⊢
    rw [ht, add_left_comm delivered.sum, add_assoc c, add_assoc c, add_assoc c]
  | putBack events counter c held delivered =>
    simp only [Multiset.sum_add, Multiset.sum_singleton] at ht ⊢
    rw [ht, add_assoc, add_assoc, add_assoc, add_comm c, add_assoc]

end Conserved

/-! ## Values -/

section Exact

variable (v : M → Int) (N : Int)

/-- The events that were not delivered are fewer than `N`. -/
def Bounded (t : Tally M) : Prop := (t.events : Int) < N + (t.delivered.map v).sum

/-- The events by the values of the counter and the batches. -/
structure Exact (t : Tally M) : Prop where
  events : (t.events : Int) = (t.delivered.map v).sum + (t.held.map v).sum + v t.counter
  counter : 0 ≤ v t.counter
  held : ∀ c ∈ t.held, 0 ≤ v c

variable {v N}

theorem sum_map_nonneg {held : Multiset M} (h : ∀ c ∈ held, 0 ≤ v c) : 0 ≤ (held.map v).sum := by
  refine Multiset.sum_nonneg fun x hx => ?_
  obtain ⟨c, hc, rfl⟩ := Multiset.mem_map.1 hx
  exact h c hc

theorem Step.exact [AddMonoidWithOne M] (hzero : v 0 = 0) (hone : v 1 = 1)
    (hadd : ∀ a b, 0 ≤ v a → 0 ≤ v b → v a + v b < N → v (a + b) = v a + v b) {t t' : Tally M} (h : Step t t')
    (ht : t.Exact v) (hbound : t'.Bounded v N) : t'.Exact v := by
  obtain ⟨hevents, hcounter, hheld⟩ := ht
  unfold Bounded at hbound
  cases h with
  | count =>
    dsimp only at hbound
    have hnonneg := sum_map_nonneg hheld
    have hsum := hadd t.counter 1 hcounter (by omega) (by push_cast at hbound; omega)
    refine ⟨?_, ?_, hheld⟩
    · push_cast
      rw [hsum, hone, hevents]
      ring
    · dsimp only
      omega
  | take =>
    refine ⟨?_, le_of_eq hzero.symm, fun c hc => ?_⟩
    · simp only [Multiset.map_add, Multiset.map_singleton, Multiset.sum_add, Multiset.sum_singleton]
      omega
    · rcases Multiset.mem_add.1 hc with hcounted | hold
      · rw [Multiset.mem_singleton.1 hcounted]
        exact hcounter
      · exact hheld c hold
  | deliver events counter c held delivered =>
    refine ⟨?_, hcounter, fun d hd => hheld d (Multiset.mem_add.2 (.inr hd))⟩
    simp only [Multiset.map_add, Multiset.map_singleton, Multiset.sum_add, Multiset.sum_singleton] at hevents ⊢
    omega
  | putBack events counter c held delivered =>
    replace hcounter : 0 ≤ v counter := hcounter
    have hc : 0 ≤ v c := hheld c (Multiset.mem_add.2 (.inl (Multiset.mem_singleton_self c)))
    have hrest : ∀ d ∈ held, 0 ≤ v d := fun d hd => hheld d (Multiset.mem_add.2 (.inr hd))
    have hnonneg := sum_map_nonneg hrest
    simp only [Multiset.map_add, Multiset.map_singleton, Multiset.sum_add, Multiset.sum_singleton] at hevents hbound
    have hsum := hadd counter c hcounter hc (by omega)
    refine ⟨?_, ?_, hrest⟩
    · dsimp only
      omega
    · dsimp only
      omega

end Exact

end Tally

/-! ## Sums over a list with one entry replaced -/

theorem sum_map_set {α : Type u} {M : Type v} [AddCommMonoid M] (f : α → M) {l : List α} {i : Nat} {a : α} (h : l[i]? = some a) :
    ∃ rest, (l.map f).sum = f a + rest ∧ ∀ b, ((l.set i b).map f).sum = f b + rest := by
  induction l generalizing i with
  | nil => cases h
  | cons a' l ih =>
    cases i with
    | zero =>
      cases h
      exact ⟨(l.map f).sum, rfl, fun b => rfl⟩
    | succ i =>
      obtain ⟨rest, hrest, hset⟩ := ih h
      refine ⟨f a' + rest, ?_, fun b => ?_⟩
      · rw [List.map_cons, List.sum_cons, hrest, add_left_comm]
      · rw [List.set_cons_succ, List.map_cons, List.sum_cons, hset, add_left_comm]

end Statsd
