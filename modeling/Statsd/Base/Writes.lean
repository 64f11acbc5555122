/-
Programs that may fail and that write to a state they never read: the result is a value apart from what is written, and
what was written before a failure stays. So the result of a program is the one of its parts, whatever the state.
-/
import Mathlib.Tactic

namespace Statsd

/-- A result, if the program did not fail, and what it did to the state. -/
structure StateWriter (σ α : Type) where
  result : Option α
  write : σ → σ

namespace StateWriter

variable {σ α β : Type}

def fail : StateWriter σ α := ⟨none, id⟩

/-- Writes to the state. -/
def tell (f : σ → σ) : StateWriter σ Unit := ⟨some (), f⟩

/-- A value that may be missing. -/
def ofOption (a : Option α) : StateWriter σ α := ⟨a, id⟩

/-- Fails unless the test passes. -/
def check (b : Bool) : StateWriter σ Unit := ⟨if b then some () else none, id⟩

/-- A program whose failure its caller handles. -/
def attempt (x : StateWriter σ α) : StateWriter σ (Option α) := ⟨some x.result, x.write⟩

instance : Monad (StateWriter σ) where
  pure a := ⟨some a, id⟩
  bind x f :=
    match x.result with
    | none => ⟨none, x.write⟩
    | some a => ⟨(f a).result, (f a).write ∘ x.write⟩

@[simp] theorem result_pure (a : α) : (pure a : StateWriter σ α).result = some a := rfl

theorem result_bind (x : StateWriter σ α) (f : α → StateWriter σ β) :
    (x >>= f).result = x.result.bind fun a => (f a).result := by
  cases h : x.result with
  | none =>
    change (match x.result with
      | none => (⟨none, x.write⟩ : StateWriter σ β)
      | some a => ⟨(f a).result, (f a).write ∘ x.write⟩).result = none
    rw [h]
  | some a =>
    change (match x.result with
      | none => (⟨none, x.write⟩ : StateWriter σ β)
      | some a => ⟨(f a).result, (f a).write ∘ x.write⟩).result = (f a).result
    rw [h]

@[simp] theorem result_fail : (fail : StateWriter σ α).result = none := rfl

@[simp] theorem result_tell_eq_some (f : σ → σ) (u : Unit) : (tell f).result = some u ↔ True := iff_of_true rfl trivial

@[simp] theorem result_ofOption (a : Option α) : (ofOption a : StateWriter σ α).result = a := rfl

@[simp] theorem result_attempt (x : StateWriter σ α) : x.attempt.result = some x.result := rfl

@[simp] theorem result_check_eq_some (b : Bool) (u : Unit) : (check b : StateWriter σ Unit).result = some u ↔ b = true := by
  unfold check
  cases b with
  | false => simp
  | true => simp

variable {f : α → StateWriter σ β}

theorem result_bind_eq_some {x : StateWriter σ α} {r : β} :
    (x >>= f).result = some r ↔ ∃ a, x.result = some a ∧ (f a).result = some r := by
  rw [result_bind, Option.bind_eq_some_iff]

theorem exists_result_bind_iff {x : StateWriter σ α} :
    (∃ r, (x >>= f).result = some r) ↔ ∃ a, x.result = some a ∧ ∃ r, (f a).result = some r := by
  simp only [result_bind_eq_some]
  constructor
  · rintro ⟨r, a, ha, hr⟩
    exact ⟨a, ha, r, hr⟩
  · rintro ⟨a, ha, r, hr⟩
    exact ⟨r, a, ha, hr⟩

theorem check_bind_eq_some {b : Bool} {x : StateWriter σ α} {r : α} :
    (check b >>= fun _ => x).result = some r ↔ b = true ∧ x.result = some r := by
  simp only [result_bind_eq_some, result_check_eq_some, exists_const]

theorem ofOption_bind_eq_some {a : Option α} {r : β} :
    (ofOption a >>= f).result = some r ↔ ∃ v, a = some v ∧ (f v).result = some r := result_bind_eq_some

end StateWriter

end Statsd
