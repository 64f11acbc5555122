/-
The conditions after a config update (`onConfigUpdated` of condition/*ConditionTracker.cpp, updateConditions of
config_update_utils.cpp). The conditions of unchanged predicates are kept and look up the indices of their matchers and
children again, the others are made anew; then all are initialised.

Neither `onConfigUpdated` of a combination nor `init` touches the matcher indices of a simple condition.
-/
import Statsd.Condition.ConditionSound
import Statsd.Config.UpdateStatus

namespace Statsd.Condition

open ConditionState Config UpdateStatus

/-! ## The update -/

/-- `simple_predicate()`, which sets nothing when the contents are something else. -/
def simple_predicate : PredicateContents → Config.SimplePredicate
  | .simple_predicate predicate => predicate
  | .combination _ _ => ⟨none, none, true, none, .UNKNOWN, none⟩
  | .CONTENTS_NOT_SET => ⟨none, none, true, none, .UNKNOWN, none⟩

/-- `setMatcherIndices` of a tracker that has indices already. -/
def resetMatcherIndices (simplePredicate : Config.SimplePredicate) (atomMatchingTrackerMap : UMap Int Nat)
    (t : SimpleConditionTracker) (tracker : ConditionTracker) : ConditionTracker :=
  let indices := setMatcherIndices simplePredicate atomMatchingTrackerMap
    ⟨t.mStartLogMatcherIndex, t.mStopLogMatcherIndex, t.mStopAllLogMatcherIndex, tracker.mTrackerIndex⟩
  { tracker with
    mTrackerIndex := indices.mTrackerIndex
    kind := .simple { t with
      mStartLogMatcherIndex := indices.mStartLogMatcherIndex
      mStopLogMatcherIndex := indices.mStopLogMatcherIndex
      mStopAllLogMatcherIndex := indices.mStopAllLogMatcherIndex } }

/-- A child of a combination, once it is updated. -/
def addUpdatedChild (t : ConditionTracker) (childIndex : Nat) (child : ConditionTracker) : ConditionTracker :=
  { t with
    mSlicedChildren := if child.mSliced then t.mSlicedChildren ++ [childIndex] else t.mSlicedChildren
    mUnSlicedChildren := if child.mSliced then t.mUnSlicedChildren else t.mUnSlicedChildren ++ [childIndex]
    mChildren := t.mChildren ++ [childIndex]
    mTrackerIndex := t.mTrackerIndex ∪ child.mTrackerIndex }

/-- The loop over the children of a combination. -/
def updateChildren (update : Nat → (Nat → ConditionTracker) → Outcome (Nat → ConditionTracker)) (i : Nat) :
    List (Option Nat) → (Nat → ConditionTracker) → Outcome (Nat → ConditionTracker)
  | [], trackers => .ok trackers
  | none :: _, _ => .failure
  | some c :: children, trackers =>
    match update c trackers with
    | .failure => .failure
    | .outOfFuel => .outOfFuel
    | .ok trackers =>
      updateChildren update i children (Function.update trackers i (addUpdatedChild (trackers i) c (trackers c)))

/-- `onConfigUpdated` of the condition at an index, with fuel for the depth. -/
def onConfigUpdated (allConditionProtos : List Predicate) (atomMatchingTrackerMap conditionTrackerMap : UMap Int Nat) :
    Nat → Nat → (Nat → ConditionTracker) → Outcome (Nat → ConditionTracker)
  | 0, _, _ => .outOfFuel
  | fuel + 1, i, trackers =>
    match allConditionProtos[i]? with
    | none => .failure
    | some predicate =>
      match (trackers i).kind with
      | .simple t =>
        .ok (Function.update trackers i (resetMatcherIndices (simple_predicate predicate.contents) atomMatchingTrackerMap t
          { trackers i with mIndex := i }))
      | .combination _ =>
        updateChildren (onConfigUpdated allConditionProtos atomMatchingTrackerMap conditionTrackerMap fuel) i
          (predicate.contents.children.map conditionTrackerMap.lookup)
          (Function.update trackers i { trackers i with
            mIndex := i
            mTrackerIndex := ∅
            mChildren := []
            mUnSlicedChildren := []
            mSlicedChildren := [] })

/-- The calls of `onConfigUpdated` for the preserved conditions. -/
def updateAll (update : Nat → (Nat → ConditionTracker) → Outcome (Nat → ConditionTracker)) :
    List Nat → (Nat → ConditionTracker) → Outcome (Nat → ConditionTracker)
  | [], trackers => .ok trackers
  | i :: order, trackers =>
    match update i trackers with
    | .failure => .failure
    | .outOfFuel => .outOfFuel
    | .ok trackers => updateAll update order trackers

/-- The condition of a predicate after an update, by the status of the predicate, before the preserved ones look up
their indices. -/
def updateTracker (protoHash : Predicate → Option UInt64) (atomMatchingTrackerMap : UMap Int Nat)
    (uninitialized : Nat → MatcherIndices) (old : Conditions) (conditionsToUpdate : Nat → UpdateStatus) (i : Nat)
    (predicate : Predicate) : Option ConditionTracker :=
  match conditionsToUpdate i with
  | UPDATE_PRESERVE =>
    match old.conditionTrackerMap.lookup predicate.id with
    | none => none
    | some oldIndex => old.mAllConditionTrackers[oldIndex]?
  | UPDATE_REPLACE => createConditionTracker protoHash atomMatchingTrackerMap uninitialized i predicate
  | UPDATE_NEW => createConditionTracker protoHash atomMatchingTrackerMap uninitialized i predicate
  | UPDATE_UNKNOWN => none

/-- `updateConditions`: the conditions and the condition cache, with fuel for the depth of the recursions. -/
def updateConditions {F : Type} (protoHash : Predicate → Option UInt64) (atomMatchingTrackerMap : UMap Int Nat)
    (uninitialized : Nat → MatcherIndices) (replacedMatchers : Finset Int) (fuel : Nat) (old : Conditions)
    (config : StatsdConfig F) : Outcome (Conditions × List ConditionState) :=
  let conditionProtos := config.predicate
  let newConditionTrackerMap := UMap.indexMap (conditionProtos.map (·.id))
  let order := List.range conditionProtos.length
  if ¬ (conditionProtos.map (·.id)).Nodup then .failure
  else
    match determineAll (determineConditionUpdateStatus config protoHash old.conditionTrackerMap
      (old.mAllConditionTrackers.map (·.mProtoHash)) newConditionTrackerMap replacedMatchers fuel) order .new with
    | .failure => .failure
    | .outOfFuel => .outOfFuel
    | .ok p =>
      match makeTrackers (updateTracker protoHash atomMatchingTrackerMap uninitialized old p.toUpdate) 0 conditionProtos with
      | none => .failure
      | some trackers =>
        match updateAll (onConfigUpdated conditionProtos atomMatchingTrackerMap newConditionTrackerMap fuel)
          (order.filter fun i => p.toUpdate i = UPDATE_PRESERVE) (trackerAt trackers) with
        | .failure => .failure
        | .outOfFuel => .outOfFuel
        | .ok trackers =>
          match initAll conditionProtos newConditionTrackerMap fuel order
            ⟨fun i => ⟨trackers i, kNotEvaluated, false⟩, fun _ => false⟩ with
          | .failure => .failure
          | .outOfFuel => .outOfFuel
          | .ok s =>
            let trackers := order.map fun i => (s.nodes i).tracker
            .ok (⟨newConditionTrackerMap, trackers, trackerToConditionMap trackers⟩, order.map (cacheOf s.nodes))

/-! ## What stays the same in a simple condition -/

/-- The simple conditions are the same. -/
def Leaves (s s' : Graph Entry) : Prop :=
  ∀ j t, (s'.nodes j).tracker.kind = .simple t → (s.nodes j).tracker.kind = .simple t

theorem Leaves.refl (s : Graph Entry) : Leaves s s := fun _ _ h => h

theorem Leaves.trans {s₁ s₂ s₃ : Graph Entry} (h : Leaves s₁ s₂) (h' : Leaves s₂ s₃) : Leaves s₁ s₃ :=
  fun j t ht => h j t (h' j t ht)

theorem Leaves.write {s : Graph Entry} {i : Nat} {e : Entry} {stack : Nat → Bool}
    (h : ∀ t, e.tracker.kind = .simple t → (s.nodes i).tracker.kind = .simple t) :
    Leaves s ⟨Function.update s.nodes i e, stack⟩ := by
  intro j t ht
  dsimp only at ht
  by_cases hji : j = i
  · subst hji
    rw [Function.update_self] at ht
    exact h t ht
  · rwa [Function.update_of_ne hji] at ht

section

variable {config : List Predicate} {map : UMap Int Nat}

variable {s s' : Graph Entry}

theorem initChildren_leaves {init : Nat → Graph Entry → Outcome (Graph Entry)}
    (hinit : ∀ c s s', init c s = .ok s' → Leaves s s') {i : Nat} (children : List (Option Nat))
    (hok : initChildren init i children s = .ok s') : Leaves s s' := by
  induction children generalizing s with
  | nil =>
    cases hok
    exact .refl _
  | cons c children ih =>
    cases c with
    | none => cases hok
    | some c =>
      rw [initChildren] at hok
      split at hok
      · cases hok
      · split at hok
        · cases hok
        · cases hok
        · rename_i s₁ hc
          have hadd : Leaves s₁ ⟨Function.update s₁.nodes i (addChild (s₁.nodes i) c (s₁.nodes c)), s₁.stack⟩ :=
            .write fun t ht => ht
          exact (hinit c s s₁ hc).trans (hadd.trans (ih hok))

theorem initAgain_leaves {init : Nat → Graph Entry → Outcome (Graph Entry)}
    (hinit : ∀ c s s', init c s = .ok s' → Leaves s s') (children : List Nat) (hok : initAgain init children s = .ok s') : Leaves s s' := by
  induction children generalizing s with
  | nil =>
    cases hok
    exact .refl _
  | cons c children ih =>
    rw [initAgain] at hok
    split at hok
    · split at hok
      · rename_i s₁ hc
        exact (hinit c s s₁ hc).trans (ih hok)
      · cases hok
      · cases hok
    · exact ih hok

theorem init_leaves (fuel i : Nat) (hok : init config map fuel i s = .ok s') : Leaves s s' := by
  induction fuel generalizing i s s' with
  | zero => cases hok
  | succ fuel ih =>
    have hinit : ∀ c s s', init config map fuel c s = .ok s' → Leaves s s' := fun c s s' h => ih c h
    rw [init] at hok
    cases hk : (s.nodes i).tracker.kind with
    | simple t =>
      rw [hk] at hok
      dsimp only at hok
      split at hok
      · cases hok
        exact Leaves.write fun t' ht' => ht'
      · cases hok
    | combination operation =>
      rw [hk] at hok
      dsimp only at hok
      split at hok
      · split at hok
        · rename_i q hq
          cases hok
          exact (initAgain_leaves hinit _ hq).trans (Leaves.write fun t' ht' => ht')
        · cases hok
        · cases hok
      · split at hok
        · cases hok
        · split at hok
          · cases hok
          · cases hok
          · rename_i q hq
            cases hok
            -- a combination stays one
            refine Leaves.trans (.write fun t' ht' => ?_) ((initChildren_leaves hinit _ hq).trans (.write fun t' ht' => ht'))
            cases ht'

theorem initAll_leaves (fuel : Nat) (order : List Nat) (hok : initAll config map fuel order s = .ok s') :
    Leaves s s' := by
  induction order generalizing s with
  | nil =>
    cases hok
    exact .refl _
  | cons i order ih =>
    rw [initAll] at hok
    split at hok
    · cases hok
    · cases hok
    · rename_i s₁ hc
      exact (init_leaves fuel i hc).trans (ih hok)

end

end Statsd.Condition
