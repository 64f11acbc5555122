/-
The conditions of an accepted config are made as the config says. The initialisation of conditions that were never
initialised before is a depth-first setup: what `init` does again for an initialised condition changes nothing.
-/
import Statsd.Condition.ConditionTracker
import Statsd.Condition.SlicedSimulation

namespace Statsd.Condition

open ConditionState

/-! ## Values that are evaluated -/

theorem or_ne {l r : ConditionState} (hl : l ≠ kNotEvaluated) : l.or r ≠ kNotEvaluated := by
  cases l
  · exact absurd rfl hl
  all_goals cases r <;> decide

theorem kNotEvaluated_or_ne {r : ConditionState} (hr : r ≠ kNotEvaluated) : kNotEvaluated.or r ≠ kNotEvaluated := by
  cases r
  · exact absurd rfl hr
  all_goals decide

theorem foldl_slices_ne (key : HashableDimensionKey) (l : List (Sigma fun _ : HashableDimensionKey => Int))
    {state : ConditionState} (h : state ≠ kNotEvaluated) :
    l.foldl (fun state slice => if slice.1.contains key then state.or (SimpleConditionTracker.sliceState slice.2) else state)
      state ≠ kNotEvaluated := by
  induction l generalizing state with
  | nil => exact h
  | cons slice l ih =>
    rw [List.foldl_cons]
    refine ih ?_
    split
    · exact or_ne h
    · exact h

theorem simple_isConditionMet_ne {t : SimpleConditionTracker} (ht : t.mInitialValue ≠ kNotEvaluated)
    (conditionParameter : Option HashableDimensionKey) (isPartialLink : Bool) (conditionCache : ConditionState) :
    t.isConditionMet conditionParameter isPartialLink conditionCache ≠ kNotEvaluated := by
  have hinitial := kNotEvaluated_or_ne ht
  unfold SimpleConditionTracker.isConditionMet
  split
  · assumption
  · dsimp only
    split
    · split
      · exact hinitial
      · split
        · exact or_ne hinitial
        · exact hinitial
    · split
      · exact foldl_slices_ne _ _ hinitial
      · split
        · exact or_ne hinitial
        · exact hinitial

theorem evaluateCombinationCondition_ne (children : List Nat) (operation : LogicalOperation)
    (conditionCache : Nat → ConditionState) :
    evaluateCombinationCondition children operation conditionCache ≠ kNotEvaluated := by
  unfold evaluateCombinationCondition
  dsimp only
  split
  · exact nofun
  · split
    · split <;> exact nofun
    · split <;> exact nofun
    · split
      · exact nofun
      · split <;> exact nofun
    · split <;> exact nofun
    · split <;> exact nofun
    · exact nofun

theorem evaluateCombinationCondition_congr {children : List Nat} (operation : LogicalOperation)
    {conditionCache conditionCache' : Nat → ConditionState} (h : ∀ c ∈ children, conditionCache c = conditionCache' c) :
    evaluateCombinationCondition children operation conditionCache =
      evaluateCombinationCondition children operation conditionCache' := by
  have hany : ∀ v : ConditionState, (children.any fun c => decide (conditionCache c = v)) =
      children.any fun c => decide (conditionCache' c = v) := by
    intro v
    rw [Bool.eq_iff_iff, List.any_eq_true, List.any_eq_true]
    exact exists_congr fun c => and_congr_right fun hc => by rw [h c hc]
  unfold evaluateCombinationCondition
  rw [hany, hany, hany]
  cases operation with
  | NOT =>
    cases children with
    | nil => rfl
    | cons c children =>
      dsimp only
      rw [h c List.mem_cons_self]
  | LOGICAL_OPERATION_UNSPECIFIED => rfl
  | AND => rfl
  | OR => rfl
  | NAND => rfl
  | NOR => rfl

/-! ## The setup of conditions -/

/-- An entry without children. -/
def bare (e : Entry) : Entry :=
  { e with tracker := { e.tracker with mChildren := [], mUnSlicedChildren := [], mSlicedChildren := [] } }

/-- The initialisation of conditions that were never initialised before. -/
def setup (allConditionConfig : List Config.Predicate) (conditionIdIndexMap : UMap Int Nat) : Setup Entry where
  ready e :=
    match e.tracker.kind with
    | .simple _ => decide (e.conditionCache ≠ kNotEvaluated)
    | .combination _ => e.tracker.mInitialized
  children e := e.tracker.mChildren
  check i e :=
    match e.tracker.kind with
    | .simple t => if t.mInitialValue = kNotEvaluated then none else some (bare e, [])
    | .combination _ =>
      match startCombination allConditionConfig conditionIdIndexMap i with
      | none => none
      | some (operation, children) => some (bare (setOperation operation e), children)
  add := addChild
  close entries e :=
    match e.tracker.kind with
    | .simple t => initSimple t e
    | .combination operation => initCombination operation entries e

section

variable {config : List Config.Predicate} {map : UMap Int Nat}

theorem check_cases {i : Nat} {e e' : Entry} {cs : List (Option Nat)} (h : (setup config map).check i e = some (e', cs)) :
    (∃ t, e.tracker.kind = .simple t ∧ t.mInitialValue ≠ kNotEvaluated ∧ e' = bare e ∧ cs = []) ∨
      ∃ operation₀ operation, e.tracker.kind = .combination operation₀ ∧
        startCombination config map i = some (operation, cs) ∧ e' = bare (setOperation operation e) := by
  unfold setup at h
  dsimp only at h
  split at h
  · rename_i t hkind
    split at h
    · cases h
    · rename_i hne
      cases h
      exact .inl ⟨t, hkind, hne, rfl, rfl⟩
  · rename_i operation₀ hkind
    split at h
    · cases h
    · rename_i operation children hstart
      cases h
      exact .inr ⟨operation₀, operation, hkind, hstart, rfl⟩

variable (config map) in
theorem assembled_eq (entries : Nat → Entry) (e : Entry) (l : List Nat) :
    ∃ sliced unslicedChildren slicedChildren trackerIndex,
      (setup config map).assembled entries e l =
        { e with
          tracker := { e.tracker with
            mSliced := sliced
            mUnSlicedChildren := unslicedChildren
            mSlicedChildren := slicedChildren
            mChildren := e.tracker.mChildren ++ l
            mTrackerIndex := trackerIndex } } ∧
      (sliced = true ↔ e.tracker.mSliced = true ∨ ∃ c ∈ l, (entries c).tracker.mSliced = true) ∧
      (∀ c ∈ unslicedChildren, c ∈ e.tracker.mUnSlicedChildren ∨ c ∈ l) ∧
      ((∀ c ∈ l, (entries c).tracker.mSliced = false) → unslicedChildren = e.tracker.mUnSlicedChildren ++ l) ∧
      ∀ k, k ∈ trackerIndex ↔ k ∈ e.tracker.mTrackerIndex ∨ ∃ c ∈ l, k ∈ (entries c).tracker.mTrackerIndex := by
  unfold Setup.assembled
  induction l generalizing e with
  | nil =>
    refine ⟨e.tracker.mSliced, e.tracker.mUnSlicedChildren, e.tracker.mSlicedChildren, e.tracker.mTrackerIndex, ?_,
      by simp, fun c hc => .inl hc, fun _ => (List.append_nil _).symm, by simp⟩
    rw [List.append_nil]
    rfl
  | cons c l ih =>
    obtain ⟨sliced, us, ss, ids, heq, hsliced, hus, hall, hids⟩ := ih (addChild e c (entries c))
    refine ⟨sliced, us, ss, ids, ?_, ?_, fun d hd => ?_, fun h => ?_, fun k => ?_⟩
    · rw [List.foldl_cons]
      refine heq.trans ?_
      dsimp only [addChild]
      rw [List.append_assoc, List.singleton_append]
    · rw [hsliced]
      simp [addChild, or_assoc]
    · rcases hus d hd with hd | hd
      · dsimp only [addChild] at hd
        split at hd
        · exact .inl hd
        · rcases List.mem_append.1 hd with hd | hd
          · exact .inl hd
          · rw [List.mem_singleton.1 hd]
            exact .inr List.mem_cons_self
      · exact .inr (List.mem_cons_of_mem _ hd)
    · rw [hall fun d hd => h d (List.mem_cons_of_mem _ hd)]
      have hc := h c List.mem_cons_self
      simp [addChild, hc]
    · rw [hids]
      simp [addChild, or_assoc]

theorem setup_lawful : (setup config map).Lawful where
  check_ready := by
    intro i e e' cs hr h
    rcases check_cases h with ⟨t, hkind, -, rfl, -⟩ | ⟨operation₀, operation, hkind, -, rfl⟩
    · exact hr
    · unfold setup at hr ⊢
      dsimp only [bare, setOperation] at hr ⊢
      rwa [hkind] at hr
  check_children := by
    intro i e e' cs h
    rcases check_cases h with ⟨t, -, -, rfl, -⟩ | ⟨operation₀, operation, -, -, rfl⟩
    · rfl
    · rfl
  add_ready _ _ _ := rfl
  add_children _ _ _ := rfl
  close_ready := by
    intro entries i e₀ e cs l h
    obtain ⟨sliced, us, ss, ids, heq, -⟩ := assembled_eq config map entries e l
    rw [heq]
    rcases check_cases h with ⟨t, hkind, hne, rfl, -⟩ | ⟨operation₀, operation, hkind, -, rfl⟩
    · unfold setup
      dsimp only [bare, initSimple]
      rw [hkind]
      exact decide_eq_true (simple_isConditionMet_ne hne _ _ _)
    · rfl
  close_children := by
    intro entries e
    unfold setup
    dsimp only
    split
    · rfl
    · rfl
  close_congr := by
    intro entries entries' i e₀ e cs l h hl
    obtain ⟨sliced, us, ss, ids, heq, -, hus, -⟩ := assembled_eq config map entries e l
    rw [heq]
    rcases check_cases h with ⟨t, hkind, -, rfl, -⟩ | ⟨operation₀, operation, hkind, -, rfl⟩
    · unfold setup
      dsimp only [bare]
      rw [hkind]
    · have hcache : ∀ c ∈ l, cacheOf entries c = cacheOf entries' c := fun c hc => congrArg Entry.conditionCache (hl c hc)
      unfold setup
      dsimp only [bare, setOperation, initCombination, cacheCombination, List.nil_append]
      have hunsliced : ∀ c ∈ us, cacheOf entries c = cacheOf entries' c := by
        intro c hc
        rcases hus c hc with hc | hc
        · exact (List.not_mem_nil hc).elim
        · exact hcache c hc
      rw [evaluateCombinationCondition_congr operation hcache, evaluateCombinationCondition_congr operation hunsliced]

/-! ## The initialisation is the setup -/

/-- A condition that was just created. -/
structure Fresh (e : Entry) : Prop where
  conditionCache : e.conditionCache = kNotEvaluated
  bare : bare e = e
  kind : match e.tracker.kind with
    | .simple t => e.tracker.mInitialized = true ∧ t.mInitialValue ≠ kNotEvaluated
    | .combination _ => e.tracker.mInitialized = false

theorem Fresh.not_ready {e : Entry} (h : Fresh e) : (setup config map).ready e = false := by
  have hkind := h.kind
  unfold setup
  dsimp only
  split
  · exact decide_eq_false (not_not.2 h.conditionCache)
  · rename_i operation hk
    rw [hk] at hkind
    exact hkind

theorem built_cases {nodes₀ nodes : Nat → Entry} {i : Nat} (hfresh : Fresh (nodes₀ i))
    (h : (setup config map).Built nodes₀ nodes i) :
    (∃ t, (nodes₀ i).tracker.kind = .simple t ∧ (nodes₀ i).tracker.mInitialized = true ∧
        nodes i = initSimple t (nodes₀ i)) ∨
      ∃ operation cs, startCombination config map i = some (operation, cs.map some) ∧
        ∃ e, e = (setup config map).assembled nodes (setOperation operation (nodes₀ i)) cs ∧
          nodes i = initCombination operation nodes e := by
  obtain ⟨e, cs, hcheck, hnode⟩ := h
  have hkind := hfresh.kind
  rcases check_cases hcheck with ⟨t, hk, -, rfl, hcs⟩ | ⟨operation₀, operation, hk, hstart, rfl⟩
  · rw [hk] at hkind
    rw [List.map_eq_nil_iff] at hcs
    rw [hfresh.bare, hcs] at hnode
    refine .inl ⟨t, hk, hkind.1, ?_⟩
    rw [hnode]
    unfold setup
    dsimp only [Setup.assembled, List.foldl_nil]
    rw [hk]
  · have hbare : bare (setOperation operation (nodes₀ i)) = setOperation operation (nodes₀ i) :=
      congrArg (setOperation operation) hfresh.bare
    rw [hbare] at hnode
    refine .inr ⟨operation, cs, hstart, _, rfl, ?_⟩
    obtain ⟨sliced, us, ss, ids, heq, -⟩ := assembled_eq config map nodes
      (setOperation operation (nodes₀ i)) cs
    rw [heq] at hnode ⊢
    exact hnode

theorem cached_of_ready {nodes₀ : Nat → Entry} (hfresh : ∀ i, Fresh (nodes₀ i)) {s : Graph Entry}
    (hinv : (setup config map).Inv nodes₀ s) {i : Nat} (hi : (setup config map).ready (s.nodes i) = true) :
    cacheOf s.nodes i ≠ kNotEvaluated := by
  rcases hinv.built i hi with hr | hb
  · rw [(hfresh i).not_ready] at hr
    cases hr
  · have hkind := (hfresh i).kind
    unfold cacheOf
    rcases built_cases (hfresh i) hb with ⟨t, hk, -, hnode⟩ | ⟨operation, cs, -, e, -, hnode⟩
    · rw [hk] at hkind
      rw [hnode]
      exact simple_isConditionMet_ne hkind.2 _ _ _
    · rw [hnode]
      exact evaluateCombinationCondition_ne _ _ _

theorem initAgain_of_cached {init : Nat → Graph Entry → Outcome (Graph Entry)} {s : Graph Entry} (children : List Nat)
    (h : ∀ c ∈ children, cacheOf s.nodes c ≠ kNotEvaluated) : initAgain init children s = .ok s := by
  induction children with
  | nil => rfl
  | cons c children ih =>
    rw [initAgain, if_neg (h c List.mem_cons_self)]
    exact ih fun d hd => h d (List.mem_cons_of_mem _ hd)

variable (config map) in
theorem initChildren_eq (init : Nat → Graph Entry → Outcome (Graph Entry)) (i : Nat) (children : List (Option Nat))
    (s : Graph Entry) : initChildren init i children s = (setup config map).initChildren init i children s := by
  induction children generalizing s with
  | nil => rfl
  | cons c children ih =>
    cases c with
    | none => rfl
    | some c =>
      rw [initChildren, Setup.initChildren]
      split
      · rfl
      · cases init c s with
        | failure => rfl
        | outOfFuel => rfl
        | ok s₁ => exact ih _

theorem init_eq {nodes₀ : Nat → Entry} (hfresh : ∀ i, Fresh (nodes₀ i)) (fuel i : Nat) {s : Graph Entry}
    (hinv : (setup config map).Inv nodes₀ s) (hi : s.stack i = false) :
    init config map fuel i s = (setup config map).init fuel i s := by
  have hlawful : (setup config map).Lawful := setup_lawful
  induction fuel generalizing i s with
  | zero => rfl
  | succ fuel ih =>
    rw [init, Setup.init]
    by_cases hr : (setup config map).ready (s.nodes i) = true
    · rw [if_pos hr]
      have hcached := cached_of_ready hfresh hinv hr
      rcases hinv.built i hr with hr₀ | hb
      · rw [(hfresh i).not_ready] at hr₀
        cases hr₀
      · rcases built_cases (hfresh i) hb with ⟨t, hk, hinitialized, hnode⟩ | ⟨operation, cs, -, e, he, hnode⟩
        · have hkind : (s.nodes i).tracker.kind = .simple t := by
            rw [hnode]
            exact hk
          have hsame : initSimple t (s.nodes i) = s.nodes i := by
            unfold cacheOf at hcached
            unfold initSimple SimpleConditionTracker.isConditionMet
            rw [if_pos hcached]
          rw [hkind]
          dsimp only
          rw [hsame, Function.update_eq_self, hnode]
          exact if_pos hinitialized
        · -- the children are evaluated, and the value comes out again
          obtain ⟨sliced, us, ss, ids, heq, -⟩ := assembled_eq config map s.nodes
            (setOperation operation (nodes₀ i)) cs
          rw [heq] at he
          have hkind : (s.nodes i).tracker.kind = .combination operation := by
            rw [hnode, he]
            rfl
          have hsame : cacheCombination operation s.nodes (s.nodes i) = s.nodes i := by
            rw [hnode]
            rfl
          have hinitialized : (s.nodes i).tracker.mInitialized = true := by
            rw [hnode]
            rfl
          obtain ⟨rank, hrank⟩ := hinv.ranked
          rw [hkind]
          dsimp only
          rw [if_pos hinitialized, initAgain_of_cached (s.nodes i).tracker.mChildren fun c hc =>
            cached_of_ready hfresh hinv (hrank i hr c hc).1]
          dsimp only
          rw [hsame, Function.update_eq_self]
    · have hr' : (setup config map).ready (s.nodes i) = false := by simpa using hr
      have hnode := hinv.fresh i hi hr'
      have hkind := (hfresh i).kind
      rw [if_neg hr]
      cases hk : (nodes₀ i).tracker.kind with
      | simple t =>
        rw [hk] at hkind
        have hcheck : (setup config map).check i (nodes₀ i) = some (nodes₀ i, []) := by
          unfold setup
          dsimp only
          rw [hk]
          dsimp only
          rw [if_neg hkind.2, (hfresh i).bare]
        have hclose : ∀ entries, (setup config map).close entries (nodes₀ i) = initSimple t (nodes₀ i) := by
          intro entries
          unfold setup
          dsimp only
          rw [hk]
        rw [hnode, hk, hcheck]
        dsimp only [Setup.initChildren]
        rw [if_pos hkind.1, Function.update_self, hclose, Function.update_idem, update_update_of_unmarked hi]
      | combination operation₀ =>
        rw [hk] at hkind
        have hcheck : (setup config map).check i (nodes₀ i) =
            match startCombination config map i with
            | none => none
            | some (operation, children) => some (bare (setOperation operation (nodes₀ i)), children) := by
          unfold setup
          dsimp only
          rw [hk]
        rw [hnode, hk, hcheck]
        dsimp only
        rw [if_neg (by rw [hkind]; exact Bool.false_ne_true)]
        cases hstart : startCombination config map i with
        | none => rfl
        | some r =>
          obtain ⟨operation, children⟩ := r
          have hbare : bare (setOperation operation (nodes₀ i)) = setOperation operation (nodes₀ i) :=
            congrArg (setOperation operation) (hfresh i).bare
          have hready : (setup config map).ready (setOperation operation (nodes₀ i)) = false := hkind
          have hmarked := hlawful.marks hinv hr' hready
          -- the loop comes to states of the setup in which the condition is marked
          have hloop := (setup config map).initChildren_congr (i := i) (init config map fuel) ((setup config map).init fuel)
            (P := (setup config map).Marked nodes₀ i)
            (fun c q hq hc => ih c hq.inv hc)
            (fun c q q' hq hc hok => (hlawful.adds hq hc hok).1)
            children hmarked
          dsimp only
          rw [hbare, initChildren_eq config map, hloop]
          cases hc : (setup config map).initChildren ((setup config map).init fuel) i children
              ⟨Function.update s.nodes i (setOperation operation (nodes₀ i)), Function.update s.stack i true⟩ with
          | failure => rfl
          | outOfFuel => rfl
          | ok q =>
            obtain ⟨-, -, -, -, cs, -, hq, -⟩ := hlawful.initChildren_spec
              (fun c s s' hs hc hok => hlawful.init_spec fuel c hs hc hok) hready children [] hmarked.inv
              (Function.update_self ..) (Function.update_self ..) (fun c hc => (List.not_mem_nil hc).elim) hc
            obtain ⟨sliced, us, ss, ids, heq, -⟩ := assembled_eq config map q.nodes
              (setOperation operation (nodes₀ i)) ([] ++ cs)
            have hclose : (setup config map).close q.nodes (q.nodes i) = initCombination operation q.nodes (q.nodes i) := by
              rw [hq, heq]
              rfl
            dsimp only
            rw [hclose]

end

end Statsd.Condition
