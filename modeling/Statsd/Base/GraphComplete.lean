/-
When the setup of a graph succeeds: when every node passes its check, its children exist, and the nodes can be ranked
with every node above its children. So the marks that a failure leaves behind, and the order of the nodes, play no
part.
-/
import Statsd.Base.GraphInit

namespace Statsd.Setup

variable {N : Type} {g : Setup N}

/-- Nodes that pass their checks, with children of a lower rank. -/
def Grounded (g : Setup N) (nodes₀ : Nat → N) (n : Nat) (rank : Nat → Nat) : Prop :=
  ∀ i < n, g.ready (nodes₀ i) = false →
    ∃ m, ∃ cs : List Nat, g.check i (nodes₀ i) = some (m, cs.map some) ∧ ∀ c ∈ cs, c < n ∧ rank c < rank i

theorem initChildren_ne_failure {P : Graph N → Prop} (init : Nat → Graph N → Outcome (Graph N)) {i : Nat} (cs : List Nat)
    (hinit : ∀ c ∈ cs, ∀ s, P s → s.stack c = false ∧ init c s ≠ .failure)
    (hstep : ∀ c ∈ cs, ∀ s s', P s → init c s = .ok s' →
      P { s' with nodes := Function.update s'.nodes i (g.add (s'.nodes i) c (s'.nodes c)) })
    {s : Graph N} (hs : P s) : g.initChildren init i (cs.map some) s ≠ .failure := by
  induction cs generalizing s with
  | nil => simp [initChildren]
  | cons c cs ih =>
    obtain ⟨hm, hne⟩ := hinit c List.mem_cons_self s hs
    rw [List.map_cons, initChildren, if_neg (by rw [hm]; exact Bool.false_ne_true)]
    cases hc : init c s with
    | failure => exact absurd hc hne
    | outOfFuel => simp
    | ok s' =>
      refine ih (fun d hd => hinit d (List.mem_cons_of_mem _ hd)) (fun d hd => hstep d (List.mem_cons_of_mem _ hd)) ?_
      exact hstep c List.mem_cons_self s s' hs hc

namespace Lawful

variable (h : g.Lawful) {nodes₀ : Nat → N} {n : Nat} {rank : Nat → Nat} (hgrounded : g.Grounded nodes₀ n rank)
include h hgrounded

theorem init_ne_failure (fuel i : Nat) {s : Graph N} (hinv : g.Inv nodes₀ s) (hi : i < n)
    (hpath : ∀ j, s.stack j = true → rank i < rank j) : g.init fuel i s ≠ .failure := by
  induction fuel generalizing i s with
  | zero => simp [init]
  | succ fuel ih =>
    have hm : s.stack i = false := by
      by_contra hm
      exact lt_irrefl _ (hpath i (by simpa using hm))
    rw [init]
    by_cases hr : g.ready (s.nodes i) = true
    · rw [if_pos hr]
      simp
    · have hr' : g.ready (s.nodes i) = false := by simpa using hr
      have hnode := hinv.fresh i hm hr'
      obtain ⟨m, cs, hcheck, hcs⟩ := hgrounded i hi (hnode ▸ hr')
      rw [← hnode] at hcheck
      rw [if_neg hr, hcheck]
      dsimp only
      have hmarked := h.marks hinv hr' (h.check_ready hr' hcheck)
      -- the path of a child is the path of the node and the node itself
      have hchild : ∀ c ∈ cs, ∀ j, Function.update s.stack i true j = true → rank c < rank j := by
        intro c hc j hj
        have hlt := (hcs c hc).2
        by_cases hji : j = i
        · rw [hji]
          exact hlt
        · rw [Function.update_of_ne hji] at hj
          exact hlt.trans (hpath j hj)
      have hunmarked : ∀ c ∈ cs, Function.update s.stack i true c = false := by
        intro c hc
        by_contra hm'
        exact lt_irrefl _ (hchild c hc c (by simpa using hm'))
      have hne := initChildren_ne_failure (g := g)
        (P := fun q => g.Marked nodes₀ i q ∧ q.stack = Function.update s.stack i true) (g.init fuel) cs
        (fun c hc q hq => by
          refine ⟨?_, ih c hq.1.inv (hcs c hc).1 ?_⟩
          · rw [hq.2]
            exact hunmarked c hc
          · rw [hq.2]
            exact hchild c hc)
        (fun c hc q q' hq hok => by
          obtain ⟨hadds, hstack⟩ := h.adds hq.1 (by rw [hq.2]; exact hunmarked c hc) hok
          exact ⟨hadds, hstack.trans hq.2⟩)
        ⟨hmarked, rfl⟩
      split
      · rename_i hfail
        exact absurd hfail hne
      · simp
      · simp

theorem initAll_ne_failure (fuel : Nat) (l : List Nat) (hl : ∀ i ∈ l, i < n) {s : Graph N} (hinv : g.Inv nodes₀ s)
    (hs : s.stack = fun _ => false) : g.initAll fuel l s ≠ .failure := by
  induction l generalizing s with
  | nil => simp [initAll]
  | cons i l ih =>
    have hne := h.init_ne_failure hgrounded fuel i hinv (hl i List.mem_cons_self) fun j hj => by
      rw [hs] at hj
      cases hj
    rw [initAll]
    cases hc : g.init fuel i s with
    | failure => exact absurd hc hne
    | outOfFuel => simp
    | ok s' =>
      obtain ⟨hinv', hframe, -⟩ := h.init_spec fuel i hinv (by rw [hs]) hc
      exact ih (fun j hj => hl j (List.mem_cons_of_mem _ hj)) hinv' (hframe.stack.trans hs)

theorem initAll_succeeds (hbelow : g.Below n) {fuel : Nat} (hfuel : n < fuel) (l : List Nat) (hl : ∀ i ∈ l, i < n)
    {s : Graph N} (hinv : g.Inv nodes₀ s) (hs : s.stack = fun _ => false) : ∃ s', g.initAll fuel l s = .ok s' := by
  have hne := h.initAll_ne_failure hgrounded fuel l hl hinv hs
  have hterm := initAll_terminates hbelow hfuel l hl hs
  cases hall : g.initAll fuel l s with
  | failure => exact absurd hall hne
  | outOfFuel => exact absurd hall hterm
  | ok s' => exact ⟨s', rfl⟩

end Lawful

end Statsd.Setup
