/-
Runs of a step function, guarded by a condition on each step. An invariant kept by every step that
meets the condition holds in the state after the run and, since prefixes of guarded runs are guarded
runs, in every state on the way.
-/
import Mathlib.Tactic

namespace Statsd

universe u v

variable {S : Type u} {E : Type v} {step : S → E → S} {ok : S → E → Prop}

/-- Every step of the run of `es` from `s` meets `ok` in the state where it is taken. -/
def RunOk (step : S → E → S) (ok : S → E → Prop) : S → List E → Prop
  | _, [] => True
  | s, e :: es => ok s e ∧ RunOk step ok (step s e) es

variable {es : List E} {s : S} {I : S → Prop}

theorem RunOk.inv (hstep : ∀ s e, ok s e → I s → I (step s e))
    (h : RunOk step ok s es) (hs : I s) : I (es.foldl step s) := by
  induction es generalizing s with
  | nil => exact hs
  | cons e es ih => exact ih h.2 (hstep s e h.1 hs)

theorem RunOk.take (h : RunOk step ok s es) (n : Nat) : RunOk step ok s (es.take n) := by
  induction n generalizing s es with
  | zero => trivial
  | succ n ih =>
    cases es with
    | nil => trivial
    | cons e es => exact ⟨h.1, ih h.2⟩

theorem RunOk.append_iff {es es' : List E} :
    RunOk step ok s (es ++ es') ↔ RunOk step ok s es ∧ RunOk step ok (es.foldl step s) es' := by
  induction es generalizing s with
  | nil => simp [RunOk]
  | cons e es ih => simp [RunOk, ih, and_assoc]

theorem RunOk.at_step (h : RunOk step ok s es) {n : Nat} {e : E} (he : es[n]? = some e) :
    ok ((es.take n).foldl step s) e := by
  induction n generalizing s es with
  | zero =>
    cases es with
    | nil => cases he
    | cons e' es =>
      cases he
      exact h.1
  | succ n ih =>
    cases es with
    | nil => cases he
    | cons e' es => exact ih h.2 he

/-- A run is guarded exactly when each step meets the condition in the state that the steps before it lead to. -/
theorem RunOk.iff_at_step :
    RunOk step ok s es ↔ ∀ n e, es[n]? = some e → ok ((es.take n).foldl step s) e := by
  constructor
  · intro h n e he
    exact h.at_step he
  · intro h
    induction es generalizing s with
    | nil => trivial
    | cons e es ih => exact ⟨h 0 e rfl, ih fun n e' he' => h (n + 1) e' he'⟩

variable {ok' : S → E → Prop}

theorem RunOk.and (h : RunOk step ok s es) (h' : RunOk step ok' s es) :
    RunOk step (fun s e => ok s e ∧ ok' s e) s es := by
  induction es generalizing s with
  | nil => trivial
  | cons e es ih => exact ⟨⟨h.1, h'.1⟩, ih h.2 h'.2⟩

theorem RunOk.inv_take (hstep : ∀ s e, ok s e → I s → I (step s e))
    (h : RunOk step ok s es) (hs : I s) (n : Nat) : I ((es.take n).foldl step s) :=
  (h.take n).inv hstep hs

theorem RunOk.imp (hstep : ∀ s e, I s → ok s e → I (step s e) ∧ ok' s e) (h : RunOk step ok s es) (hs : I s) : RunOk step ok' s es := by
  induction es generalizing s with
  | nil => trivial
  | cons e es ih =>
    obtain ⟨hI, hok'⟩ := hstep s e hs h.1
    exact ⟨hok', ih h.2 hI⟩

/-- Where two conditions on a step are the same in the states of an invariant, which the steps that meet them keep,
they are the same for runs. -/
theorem RunOk.congr (hstep : ∀ s e, I s → ok s e → I (step s e))
    (hiff : ∀ s e, I s → (ok' s e ↔ ok s e)) (hs : I s) (es : List E) : RunOk step ok' s es ↔ RunOk step ok s es :=
  ⟨fun h => h.imp (fun s e hs h => ⟨hstep s e hs ((hiff s e hs).mp h), (hiff s e hs).mp h⟩) hs,
    fun h => h.imp (fun s e hs h => ⟨hstep s e hs h, (hiff s e hs).mpr h⟩) hs⟩

/-- A property of the run so far holds after every prefix exactly when every step meets the condition: steps
that meet it keep the property, and a step that does not breaks it. -/
theorem RunOk.iff_prefixes {P : List E → S → Prop}
    (hgood : ∀ pre s e, I s → P pre s → ok s e → I (step s e) ∧ P (pre ++ [e]) (step s e))
    (hbad : ∀ pre s e, I s → P pre s → ¬ ok s e → ¬ P (pre ++ [e]) (step s e)) (hI : I s) (hP : P [] s) (es : List E) :
    (∀ n, P (es.take n) ((es.take n).foldl step s)) ↔ RunOk step ok s es := by
  -- the run so far is generalized with the state it leads to
  have hpre : ∀ (es : List E) (pre : List E) (s : S), I s → P pre s →
      ((∀ n, P (pre ++ es.take n) ((es.take n).foldl step s)) ↔ RunOk step ok s es) := by
    intro es
    induction es with
    | nil =>
      intro pre s _ hP
      refine iff_of_true (fun n => ?_) trivial
      simpa using hP
    | cons e es ih =>
      intro pre s hI hP
      by_cases hok : ok s e
      · obtain ⟨hI', hP'⟩ := hgood pre s e hI hP hok
        have hih := ih (pre ++ [e]) (step s e) hI' hP'
        constructor
        · intro h
          refine ⟨hok, hih.1 fun n => ?_⟩
          simpa using h (n + 1)
        · rintro ⟨-, hrun⟩ n
          cases n with
          | zero => simpa using hP
          | succ n => simpa using hih.2 hrun n
      · refine iff_of_false (fun h => hbad pre s e hI hP hok ?_) fun h => hok h.1
        simpa using h 1
  simpa using hpre es [] s hI hP

end Statsd
