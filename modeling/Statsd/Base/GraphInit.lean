/-
Setting up the nodes of a graph from their children, depth first: a node is checked, its children are set up
and added to it one by one, and then it is closed and ready. The nodes on the path are marked in a stack, and a
child that is marked makes the setup fail.

When the setup succeeds, every node that was not ready before is made of its children as they are in the end,
and the children of ready nodes are ready and ranked below them, so the graph has no cycle.
-/
import Mathlib.Tactic
import Statsd.Base.Marks

namespace Statsd

/-- How nodes are set up. -/
structure Setup (N : Type) where
  ready : N → Bool
  /-- The children added so far. -/
  children : N → List Nat
  /-- The checks of a node before its children, which then are looked up by their indices. -/
  check : Nat → N → Option (N × List (Option Nat))
  add : N → Nat → N → N
  close : (Nat → N) → N → N

/-- The nodes and the marks. -/
structure Graph (N : Type) where
  nodes : Nat → N
  stack : Nat → Bool

namespace Setup

variable {N : Type} (g : Setup N)

def initChildren (init : Nat → Graph N → Outcome (Graph N)) (i : Nat) : List (Option Nat) → Graph N → Outcome (Graph N)
  | [], s => .ok s
  | none :: _, _ => .failure
  | some c :: children, s =>
    if s.stack c then .failure
    else
      match init c s with
      | .failure => .failure
      | .outOfFuel => .outOfFuel
      | .ok s =>
        initChildren init i children { s with nodes := Function.update s.nodes i (g.add (s.nodes i) c (s.nodes c)) }

/-- The setup of a node, with fuel for its depth. -/
def init : Nat → Nat → Graph N → Outcome (Graph N)
  | 0, _, _ => .outOfFuel
  | fuel + 1, i, s =>
    if g.ready (s.nodes i) then .ok s
    else
      match g.check i (s.nodes i) with
      | none => .failure
      | some (n, children) =>
        match g.initChildren (init fuel) i children ⟨Function.update s.nodes i n, Function.update s.stack i true⟩ with
        | .failure => .failure
        | .outOfFuel => .outOfFuel
        | .ok s => .ok ⟨Function.update s.nodes i (g.close s.nodes (s.nodes i)), Function.update s.stack i false⟩

/-- The setup of several nodes, one after the other. -/
def initAll (fuel : Nat) : List Nat → Graph N → Outcome (Graph N)
  | [], s => .ok s
  | i :: l, s =>
    match g.init fuel i s with
    | .failure => .failure
    | .outOfFuel => .outOfFuel
    | .ok s => initAll fuel l s

/-- A node with some children added to it. -/
def assembled (nodes : Nat → N) (n : N) (cs : List Nat) : N := cs.foldl (fun n c => g.add n c (nodes c)) n

/-- A node is ready only when it is closed, its children are those added to it, and closing a node reads the
children added to it only. -/
structure Lawful : Prop where
  check_ready {i : Nat} {n n' : N} {cs : List (Option Nat)} :
    g.ready n = false → g.check i n = some (n', cs) → g.ready n' = false
  check_children {i : Nat} {n n' : N} {cs : List (Option Nat)} : g.check i n = some (n', cs) → g.children n' = []
  add_ready (n : N) (c : Nat) (m : N) : g.ready (g.add n c m) = g.ready n
  add_children (n : N) (c : Nat) (m : N) : g.children (g.add n c m) = g.children n ++ [c]
  close_ready {s : Nat → N} {i : Nat} {n₀ n : N} {cs : List (Option Nat)} {l : List Nat} :
    g.check i n₀ = some (n, cs) → g.ready (g.close s (g.assembled s n l)) = true
  close_children (s : Nat → N) (n : N) : g.children (g.close s n) = g.children n
  close_congr {s s' : Nat → N} {i : Nat} {n₀ n : N} {cs : List (Option Nat)} {l : List Nat} :
    g.check i n₀ = some (n, cs) → (∀ c ∈ l, s c = s' c) → g.close s (g.assembled s n l) = g.close s' (g.assembled s n l)

/-- The node is made of its children. -/
def Built (nodes₀ nodes : Nat → N) (i : Nat) : Prop :=
  ∃ n cs, g.check i (nodes₀ i) = some (n, cs.map some) ∧ nodes i = g.close nodes (g.assembled nodes n cs)

/-- Ready nodes have ready children of a lower rank. -/
def Ranked (nodes : Nat → N) : Prop :=
  ∃ rank : Nat → Nat, ∀ i, g.ready (nodes i) = true → ∀ c ∈ g.children (nodes i),
    g.ready (nodes c) = true ∧ rank c < rank i

/-- What holds at any time of the setup of some nodes. -/
structure Inv (nodes₀ : Nat → N) (s : Graph N) : Prop where
  fresh : ∀ i, s.stack i = false → g.ready (s.nodes i) = false → s.nodes i = nodes₀ i
  kept : ∀ i, g.ready (nodes₀ i) = true → s.nodes i = nodes₀ i
  built : ∀ i, g.ready (s.nodes i) = true → g.ready (nodes₀ i) = true ∨ g.Built nodes₀ s.nodes i
  ranked : g.Ranked s.nodes

/-- What the setup of a node leaves alone: the marks, the ready nodes and the marked ones. -/
structure Frame (s s' : Graph N) : Prop where
  stack : s'.stack = s.stack
  ready : ∀ j, g.ready (s.nodes j) = true → s'.nodes j = s.nodes j
  marked : ∀ j, s.stack j = true → s'.nodes j = s.nodes j

/-- A marked node that is being set up. -/
structure Marked (nodes₀ : Nat → N) (i : Nat) (s : Graph N) : Prop where
  inv : g.Inv nodes₀ s
  marked : s.stack i = true
  not_ready : g.ready (s.nodes i) = false

variable {g}

theorem Frame.refl (s : Graph N) : g.Frame s s := ⟨rfl, fun _ _ => rfl, fun _ _ => rfl⟩

namespace Lawful

variable (h : g.Lawful)
include h

theorem assembled_ready (nodes : Nat → N) (n : N) (cs : List Nat) : g.ready (g.assembled nodes n cs) = g.ready n := by
  unfold assembled
  induction cs generalizing n with
  | nil => rfl
  | cons c cs ih => rw [List.foldl_cons, ih, h.add_ready]

theorem assembled_children (nodes : Nat → N) (n : N) (cs : List Nat) :
    g.children (g.assembled nodes n cs) = g.children n ++ cs := by
  unfold assembled
  induction cs generalizing n with
  | nil => simp
  | cons c cs ih => rw [List.foldl_cons, ih, h.add_children, List.append_assoc, List.singleton_append]

omit h in
theorem assembled_congr {nodes nodes' : Nat → N} (n : N) {cs : List Nat} (hcs : ∀ c ∈ cs, nodes c = nodes' c) :
    g.assembled nodes n cs = g.assembled nodes' n cs := by
  unfold assembled
  induction cs generalizing n with
  | nil => rfl
  | cons c cs ih =>
    rw [List.foldl_cons, List.foldl_cons, hcs c List.mem_cons_self]
    exact ih _ fun d hd => hcs d (List.mem_cons_of_mem _ hd)

variable {i : Nat} {s s' : Graph N}

theorem built_children {nodes : Nat → N} {n n₀ : N} {cs : List Nat}
    (hcheck : g.check i n₀ = some (n, cs.map some)) (hi : nodes i = g.close nodes (g.assembled nodes n cs)) :
    g.children (nodes i) = cs := by
  rw [hi, h.close_children, h.assembled_children, h.check_children hcheck, List.nil_append]

theorem built_congr {nodes₀ nodes nodes' : Nat → N} (hb : g.Built nodes₀ nodes i)
    (hi : nodes' i = nodes i) (hcs : ∀ c ∈ g.children (nodes i), nodes' c = nodes c) : g.Built nodes₀ nodes' i := by
  obtain ⟨n, cs, hcheck, heq⟩ := hb
  rw [h.built_children hcheck heq] at hcs
  have hcs' : ∀ c ∈ cs, nodes c = nodes' c := fun c hc => (hcs c hc).symm
  refine ⟨n, cs, hcheck, ?_⟩
  rw [hi, heq, ← assembled_congr n hcs']
  exact h.close_congr hcheck hcs'

variable {nodes₀ : Nat → N}

theorem write {s : Graph N} (hinv : g.Inv nodes₀ s) {n : N}
    (hi : g.ready (s.nodes i) = false) (hn : g.ready n = false) (stack : Nat → Bool)
    (hstack : ∀ j, stack j = false → j ≠ i ∧ s.stack j = false) :
    g.Inv nodes₀ ⟨Function.update s.nodes i n, stack⟩ := by
  have hne : ∀ j, g.ready (s.nodes j) = true → j ≠ i := by
    rintro j hj rfl
    rw [hi] at hj
    cases hj
  have hother : ∀ j, g.ready (Function.update s.nodes i n j) = true → j ≠ i ∧ g.ready (s.nodes j) = true := by
    intro j hj
    by_cases hji : j = i
    · rw [hji, Function.update_self, hn] at hj
      cases hj
    · rw [Function.update_of_ne hji] at hj
      exact ⟨hji, hj⟩
  obtain ⟨rank, hrank⟩ := hinv.ranked
  refine ⟨fun j hj hr => ?_, fun j hj => ?_, fun j hj => ?_, rank, fun j hj c hc => ?_⟩
  · obtain ⟨hji, hs⟩ := hstack j hj
    dsimp only at hr ⊢
    rw [Function.update_of_ne hji] at hr ⊢
    exact hinv.fresh j hs hr
  · refine (Function.update_of_ne ?_ _ _).trans (hinv.kept j hj)
    rintro rfl
    rw [hinv.kept j hj, hj] at hi
    cases hi
  · obtain ⟨hji, hr⟩ := hother j hj
    refine (hinv.built j hr).imp_right fun hb => h.built_congr hb (Function.update_of_ne hji _ _) fun c hc => ?_
    exact Function.update_of_ne (hne c (hrank j hr c hc).1) _ _
  · obtain ⟨hji, hr⟩ := hother j hj
    dsimp only at hc ⊢
    rw [Function.update_of_ne hji] at hc
    obtain ⟨hcr, hlt⟩ := hrank j hr c hc
    rw [Function.update_of_ne (hne c hcr)]
    exact ⟨hcr, hlt⟩

theorem closes {s : Graph N} (hinv : g.Inv nodes₀ s) (hi : g.ready (s.nodes i) = false)
    {n : N} {cs : List Nat} (hcheck : g.check i (nodes₀ i) = some (n, cs.map some))
    (heq : s.nodes i = g.assembled s.nodes n cs) (hcs : ∀ c ∈ cs, g.ready (s.nodes c) = true) :
    g.Inv nodes₀ ⟨Function.update s.nodes i (g.close s.nodes (s.nodes i)), Function.update s.stack i false⟩ := by
  have hne : ∀ j, g.ready (s.nodes j) = true → j ≠ i := by
    rintro j hj rfl
    rw [hi] at hj
    cases hj
  have hchildren : g.children (s.nodes i) = cs := by
    rw [heq, h.assembled_children, h.check_children hcheck, List.nil_append]
  have hready : g.ready (g.close s.nodes (s.nodes i)) = true := by
    rw [heq]
    exact h.close_ready hcheck
  obtain ⟨rank, hrank⟩ := hinv.ranked
  refine ⟨fun j hj hr => ?_, fun j hj => ?_, fun j hj => ?_,
    Function.update rank i ((cs.map rank).sum + 1), fun j hj c hc => ?_⟩
  · dsimp only at hj hr ⊢
    by_cases hji : j = i
    · rw [hji, Function.update_self, hready] at hr
      cases hr
    · rw [Function.update_of_ne hji] at hj hr ⊢
      exact hinv.fresh j hj hr
  · refine (Function.update_of_ne ?_ _ _).trans (hinv.kept j hj)
    rintro rfl
    rw [hinv.kept j hj, hj] at hi
    cases hi
  · by_cases hji : j = i
    · subst hji
      refine .inr ⟨n, cs, hcheck, ?_⟩
      have hsame : ∀ c ∈ cs, s.nodes c = Function.update s.nodes j (g.close s.nodes (s.nodes j)) c :=
        fun c hc => (Function.update_of_ne (hne c (hcs c hc)) _ _).symm
      dsimp only
      rw [Function.update_self, ← assembled_congr n hsame]
      exact (congrArg (g.close s.nodes) heq).trans (h.close_congr hcheck hsame)
    · dsimp only at hj ⊢
      rw [Function.update_of_ne hji] at hj
      refine (hinv.built j hj).imp_right fun hb => h.built_congr hb (Function.update_of_ne hji _ _) fun c hc => ?_
      exact Function.update_of_ne (hne c (hrank j hj c hc).1) _ _
  · dsimp only at hj hc ⊢
    by_cases hji : j = i
    · subst hji
      rw [Function.update_self, h.close_children, hchildren] at hc
      rw [Function.update_self, Function.update_of_ne (hne c (hcs c hc)), Function.update_of_ne (hne c (hcs c hc))]
      have := List.single_le_sum (fun _ _ => Nat.zero_le _) _ (List.mem_map_of_mem (f := rank) hc)
      exact ⟨hcs c hc, by omega⟩
    · rw [Function.update_of_ne hji] at hj hc
      obtain ⟨hcr, hlt⟩ := hrank j hj c hc
      rw [Function.update_of_ne (hne c hcr), Function.update_of_ne (hne c hcr), Function.update_of_ne hji]
      exact ⟨hcr, hlt⟩

theorem initChildren_spec {init : Nat → Graph N → Outcome (Graph N)}
    (hinit : ∀ c s s', g.Inv nodes₀ s → s.stack c = false → init c s = .ok s' →
      g.Inv nodes₀ s' ∧ g.Frame s s' ∧ g.ready (s'.nodes c) = true) {n : N} (hn : g.ready n = false) (children : List (Option Nat)) (pre : List Nat)
    (hinv : g.Inv nodes₀ s) (hi : s.stack i = true) (heq : s.nodes i = g.assembled s.nodes n pre)
    (hpre : ∀ c ∈ pre, g.ready (s.nodes c) = true) (hok : g.initChildren init i children s = .ok s') :
    g.Inv nodes₀ s' ∧ s'.stack = s.stack ∧ (∀ j, g.ready (s.nodes j) = true → s'.nodes j = s.nodes j) ∧
      (∀ j, j ≠ i → s.stack j = true → s'.nodes j = s.nodes j) ∧
      ∃ cs, children = cs.map some ∧ s'.nodes i = g.assembled s'.nodes n (pre ++ cs) ∧
        ∀ c ∈ pre ++ cs, g.ready (s'.nodes c) = true := by
  induction children generalizing pre s with
  | nil =>
    cases hok
    refine ⟨hinv, rfl, fun _ _ => rfl, fun _ _ _ => rfl, [], rfl, ?_, ?_⟩
    · rw [List.append_nil]
      exact heq
    · rw [List.append_nil]
      exact hpre
  | cons c children ih =>
    cases c with
    | none => cases hok
    | some c =>
      rw [initChildren] at hok
      by_cases hm : s.stack c = true
      · rw [if_pos hm] at hok
        cases hok
      · rw [if_neg hm] at hok
        cases hc : init c s with
        | failure => rw [hc] at hok; cases hok
        | outOfFuel => rw [hc] at hok; cases hok
        | ok s₁ =>
          rw [hc] at hok
          dsimp only at hok
          obtain ⟨hinv₁, hframe, hready⟩ := hinit c s s₁ hinv (by simpa using hm) hc
          have hsame := hframe.marked i hi
          have hpre₁ : ∀ d ∈ pre, s₁.nodes d = s.nodes d := fun d hd => hframe.ready d (hpre d hd)
          have heq₁ : s₁.nodes i = g.assembled s₁.nodes n pre := by
            rw [hsame, heq]
            exact assembled_congr n fun d hd => (hpre₁ d hd).symm
          have hiready : g.ready (s₁.nodes i) = false := by rw [heq₁, h.assembled_ready, hn]
          have hne : ∀ d, g.ready (s₁.nodes d) = true → d ≠ i := by
            rintro d hd rfl
            rw [hiready] at hd
            cases hd
          -- the node with the child added
          have hinv₂ := h.write hinv₁ hiready (n := g.add (s₁.nodes i) c (s₁.nodes c))
            (by rw [h.add_ready, hiready]) s₁.stack fun j hj => by
              refine ⟨?_, hj⟩
              rintro rfl
              rw [hframe.stack, hi] at hj
              cases hj
          have hother : ∀ d, g.ready (s₁.nodes d) = true →
              Function.update s₁.nodes i (g.add (s₁.nodes i) c (s₁.nodes c)) d = s₁.nodes d :=
            fun d hd => Function.update_of_ne (hne d hd) _ _
          have hpre₂ : ∀ d ∈ pre ++ [c], g.ready (s₁.nodes d) = true := by
            intro d hd
            rcases List.mem_append.1 hd with hd | hd
            · rw [hpre₁ d hd]
              exact hpre d hd
            · rw [List.mem_singleton.1 hd]
              exact hready
          obtain ⟨hinv', hstack', hready', hmarked', cs, hcs, heq', hall⟩ := ih (pre ++ [c]) hinv₂ (by
            rw [hframe.stack]
            exact hi) (by
            dsimp only
            rw [Function.update_self, ← assembled_congr n fun d hd => (hother d (hpre₂ d hd)).symm]
            unfold assembled at heq₁ ⊢
            rw [List.foldl_append, ← heq₁]
            rfl) (fun d hd => by
            dsimp only
            rw [hother d (hpre₂ d hd)]
            exact hpre₂ d hd) hok
          refine ⟨hinv', hstack'.trans hframe.stack, fun j hj => ?_, fun j hji hj => ?_, c :: cs, ?_, ?_, ?_⟩
          · have hj₁ : g.ready (s₁.nodes j) = true := by rwa [hframe.ready j hj]
            rw [hready' j (by dsimp only; rwa [hother j hj₁])]
            exact (hother j hj₁).trans (hframe.ready j hj)
          · rw [hmarked' j hji (by dsimp only; rwa [hframe.stack])]
            exact (Function.update_of_ne hji _ _).trans (hframe.marked j hj)
          · rw [hcs, List.map_cons]
          · rw [heq', List.append_assoc, List.singleton_append]
          · rwa [List.append_assoc, List.singleton_append] at hall

theorem marks {s : Graph N} (hinv : g.Inv nodes₀ s) {n : N}
    (hi : g.ready (s.nodes i) = false) (hn : g.ready n = false) :
    g.Marked nodes₀ i ⟨Function.update s.nodes i n, Function.update s.stack i true⟩ := by
  refine ⟨h.write hinv hi hn _ fun j hj => ?_, Function.update_self .., ?_⟩
  · by_cases hji : j = i
    · rw [hji, Function.update_self] at hj
      cases hj
    · rw [Function.update_of_ne hji] at hj
      exact ⟨hji, hj⟩
  · dsimp only
    rw [Function.update_self]
    exact hn

theorem init_spec (fuel i : Nat) (hinv : g.Inv nodes₀ s) (hi : s.stack i = false)
    (hok : g.init fuel i s = .ok s') : g.Inv nodes₀ s' ∧ g.Frame s s' ∧ g.ready (s'.nodes i) = true := by
  induction fuel generalizing i s s' with
  | zero => cases hok
  | succ fuel ih =>
    rw [init] at hok
    by_cases hr : g.ready (s.nodes i) = true
    · rw [if_pos hr] at hok
      cases hok
      exact ⟨hinv, .refl s, hr⟩
    · rw [if_neg hr] at hok
      have hr' : g.ready (s.nodes i) = false := by simpa using hr
      cases hcheck : g.check i (s.nodes i) with
      | none => rw [hcheck] at hok; cases hok
      | some r =>
        obtain ⟨n, children⟩ := r
        rw [hcheck] at hok
        dsimp only at hok
        have hn := h.check_ready hr' hcheck
        have hinv₁ := (h.marks hinv hr' hn).inv
        cases hc : g.initChildren (g.init fuel) i children
            ⟨Function.update s.nodes i n, Function.update s.stack i true⟩ with
        | failure => rw [hc] at hok; cases hok
        | outOfFuel => rw [hc] at hok; cases hok
        | ok q =>
          rw [hc] at hok
          cases hok
          obtain ⟨hinv₂, hstack, hready, hmarked, cs, hcs, heq, hall⟩ := h.initChildren_spec
            (fun c s s' hs hc hok => ih c hs hc hok) hn children [] hinv₁ (Function.update_self ..)
            (Function.update_self ..) (fun c hc => (List.not_mem_nil hc).elim) hc
          rw [List.nil_append] at heq hall
          rw [hinv.fresh i hi hr', hcs] at hcheck
          have hiready : g.ready (q.nodes i) = false := by rw [heq, h.assembled_ready, hn]
          refine ⟨h.closes hinv₂ hiready hcheck heq hall, ⟨?_, fun j hj => ?_, fun j hj => ?_⟩, ?_⟩
          · dsimp only
            rw [hstack]
            exact update_update_of_unmarked hi
          · have hji : j ≠ i := by
              rintro rfl
              exact hr hj
            refine (Function.update_of_ne hji _ _).trans ((hready j ?_).trans (Function.update_of_ne hji _ _))
            dsimp only
            rwa [Function.update_of_ne hji]
          · have hji : j ≠ i := by
              rintro rfl
              rw [hi] at hj
              cases hj
            refine (Function.update_of_ne hji _ _).trans ((hmarked j hji ?_).trans (Function.update_of_ne hji _ _))
            dsimp only
            rwa [Function.update_of_ne hji]
          · dsimp only
            rw [Function.update_self, heq]
            exact h.close_ready hcheck

theorem adds {fuel i c : Nat} (hs : g.Marked nodes₀ i s) (hc : s.stack c = false)
    (hok : g.init fuel c s = .ok s') :
    g.Marked nodes₀ i ⟨Function.update s'.nodes i (g.add (s'.nodes i) c (s'.nodes c)), s'.stack⟩ ∧
      s'.stack = s.stack := by
  obtain ⟨hinv, hframe, -⟩ := h.init_spec fuel c hs.inv hc hok
  have hm : s'.stack i = true := by rw [hframe.stack, hs.marked]
  have hnr : g.ready (s'.nodes i) = false := by rw [hframe.marked i hs.marked, hs.not_ready]
  have hadd : g.ready (g.add (s'.nodes i) c (s'.nodes c)) = false := by rw [h.add_ready, hnr]
  refine ⟨⟨h.write hinv hnr hadd s'.stack fun j hj => ⟨?_, hj⟩, hm, ?_⟩, hframe.stack⟩
  · rintro rfl
    rw [hm] at hj
    cases hj
  · dsimp only
    rw [Function.update_self, hadd]

theorem initAll_spec (fuel : Nat) (l : List Nat) (hinv : g.Inv nodes₀ s)
    (hs : s.stack = fun _ => false) (hok : g.initAll fuel l s = .ok s') :
    g.Inv nodes₀ s' ∧ (s'.stack = fun _ => false) ∧ (∀ j, g.ready (s.nodes j) = true → s'.nodes j = s.nodes j) ∧
      ∀ i ∈ l, g.ready (s'.nodes i) = true := by
  induction l generalizing s with
  | nil =>
    cases hok
    exact ⟨hinv, hs, fun _ _ => rfl, fun i hi => (List.not_mem_nil hi).elim⟩
  | cons i l ih =>
    rw [initAll] at hok
    cases hc : g.init fuel i s with
    | failure => rw [hc] at hok; cases hok
    | outOfFuel => rw [hc] at hok; cases hok
    | ok s₁ =>
      rw [hc] at hok
      obtain ⟨hinv₁, hframe, hready⟩ := h.init_spec fuel i hinv (by rw [hs]) hc
      obtain ⟨hinv', hstack, hkeeps, hall⟩ := ih hinv₁ (hframe.stack.trans hs) hok
      refine ⟨hinv', hstack, fun j hj => ?_, fun j hj => ?_⟩
      · rw [hkeeps j (by rwa [hframe.ready j hj]), hframe.ready j hj]
      · rcases List.mem_cons.1 hj with rfl | hj
        · rwa [hkeeps j hready]
        · exact hall j hj

omit h in
theorem inv_start (hranked : g.Ranked nodes₀) : g.Inv nodes₀ ⟨nodes₀, fun _ => false⟩ where
  fresh _ _ _ := rfl
  kept _ _ := rfl
  built _ hi := .inl hi
  ranked := hranked

end Lawful

/-- Two recursions that agree as long as the setup can come to a node make the same loop over the children. -/
theorem initChildren_congr {P : Graph N → Prop} (init init' : Nat → Graph N → Outcome (Graph N)) {i : Nat}
    (hcongr : ∀ c s, P s → s.stack c = false → init c s = init' c s)
    (hstep : ∀ c s s', P s → s.stack c = false → init' c s = .ok s' →
      P { s' with nodes := Function.update s'.nodes i (g.add (s'.nodes i) c (s'.nodes c)) })
    (children : List (Option Nat)) {s : Graph N} (hs : P s) :
    g.initChildren init i children s = g.initChildren init' i children s := by
  induction children generalizing s with
  | nil => rfl
  | cons c children ih =>
    cases c with
    | none => rfl
    | some c =>
      rw [initChildren, initChildren]
      by_cases hm : s.stack c = true
      · rw [if_pos hm, if_pos hm]
      · have hm' : s.stack c = false := by simpa using hm
        rw [if_neg hm, if_neg hm, hcongr c s hs hm']
        cases hc : init' c s with
        | failure => rfl
        | outOfFuel => rfl
        | ok s₁ => exact ih (hstep c s s₁ hs hm' hc)

/-! ## The setup terminates -/

/-- The children that the checks find are nodes below `n`. -/
def Below (g : Setup N) (n : Nat) : Prop :=
  ∀ i m m' cs, g.check i m = some (m', cs) → ∀ c, some c ∈ cs → c < n

theorem initChildren_terminates {n : Nat} (fuel : Nat) (init : Nat → Graph N → Outcome (Graph N)) (i : Nat)
    (children : List (Option Nat))
    (hinit : ∀ c, some c ∈ children → ∀ s, s.stack c = false → unmarked n s.stack < fuel →
      init c s ≠ .outOfFuel ∧ ∀ s', init c s = .ok s' → s'.stack = s.stack)
    {s : Graph N} (hs : unmarked n s.stack < fuel) :
    g.initChildren init i children s ≠ .outOfFuel ∧
      ∀ s', g.initChildren init i children s = .ok s' → s'.stack = s.stack := by
  induction children generalizing s with
  | nil => exact ⟨nofun, fun s' h => by cases h; rfl⟩
  | cons c children ih =>
    cases c with
    | none => exact ⟨nofun, nofun⟩
    | some c =>
      rw [initChildren]
      by_cases hm : s.stack c = true
      · rw [if_pos hm]
        exact ⟨nofun, nofun⟩
      · rw [if_neg hm]
        obtain ⟨hne, hstack⟩ := hinit c List.mem_cons_self s (by simpa using hm) hs
        cases hc : init c s with
        | failure => exact ⟨nofun, nofun⟩
        | outOfFuel => exact absurd hc hne
        | ok s₁ =>
          have h₁ := hstack s₁ hc
          obtain ⟨hne', hstack'⟩ := ih (fun d hd => hinit d (List.mem_cons_of_mem _ hd))
            (s := { s₁ with nodes := Function.update s₁.nodes i (g.add (s₁.nodes i) c (s₁.nodes c)) }) (by rwa [h₁])
          exact ⟨hne', fun s' h' => (hstack' s' h').trans h₁⟩

theorem init_terminates {n : Nat} (hbelow : g.Below n) (fuel i : Nat) {s : Graph N} (hi : i < n)
    (hm : s.stack i = false) (hs : unmarked n s.stack < fuel) :
    g.init fuel i s ≠ .outOfFuel ∧ ∀ s', g.init fuel i s = .ok s' → s'.stack = s.stack := by
  induction fuel generalizing i s with
  | zero => omega
  | succ fuel ih =>
    rw [init]
    split
    · exact ⟨nofun, fun s' h => by cases h; rfl⟩
    · cases hcheck : g.check i (s.nodes i) with
      | none => exact ⟨nofun, nofun⟩
      | some r =>
        obtain ⟨m, children⟩ := r
        have hlt := unmarked_mark hi hm
        obtain ⟨hne, hstack⟩ := initChildren_terminates (g := g) (n := n) fuel (g.init fuel) i children
          (s := ⟨Function.update s.nodes i m, Function.update s.stack i true⟩)
          (fun c hc q hq hu => ih c (hbelow i _ m children hcheck c hc) hq hu) (by
          dsimp only
          omega)
        dsimp only
        cases hc : g.initChildren (g.init fuel) i children
            ⟨Function.update s.nodes i m, Function.update s.stack i true⟩ with
        | failure => exact ⟨nofun, nofun⟩
        | outOfFuel => exact absurd hc hne
        | ok q =>
          refine ⟨nofun, fun s' h => ?_⟩
          cases h
          dsimp only
          rw [hstack q hc]
          exact update_update_of_unmarked hm

theorem initAll_terminates {n : Nat} (hbelow : g.Below n) {fuel : Nat} (hfuel : n < fuel) (l : List Nat)
    (hl : ∀ i ∈ l, i < n) {s : Graph N} (hs : s.stack = fun _ => false) : g.initAll fuel l s ≠ .outOfFuel := by
  induction l generalizing s with
  | nil => exact nofun
  | cons i l ih =>
    rw [initAll]
    obtain ⟨hne, hstack⟩ := init_terminates hbelow fuel i (hl i List.mem_cons_self) (s := s) (by rw [hs]) (by
      rw [hs, unmarked_none]
      exact hfuel)
    cases hc : g.init fuel i s with
    | failure => exact nofun
    | outOfFuel => exact absurd hc hne
    | ok s₁ => exact ih (fun j hj => hl j (List.mem_cons_of_mem _ hj)) ((hstack s₁ hc).trans hs)

end Setup

end Statsd
