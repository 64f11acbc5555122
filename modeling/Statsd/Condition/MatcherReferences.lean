/-
The matchers that simple predicates name (`setMatcherIndices` of SimpleConditionTracker.cpp, which the constructor and
`onConfigUpdated` call; initStatsdConfig of metrics_manager_util.cpp and updateStatsdConfig of
config_update_utils.cpp). A name that no matcher has is logged and the indices from there on stay as they are, but the
config is accepted all the same. So the indices of an accepted config are those of the matchers its predicates name
exactly when every name is one of a matcher.
-/
import Statsd.Condition.ConditionAcceptance
import Statsd.Condition.ConditionUpdate
import Statsd.Matchers.MatcherUpdate

namespace Statsd.Condition

open ConditionState Config UpdateStatus

variable {F : Type}

/-! ## Configs -/

/-- The matchers and the conditions of a metrics manager, and the condition cache its metrics start from. -/
structure ConfigState (F : Type) where
  matchers : Matchers.Trackers F
  conditions : Conditions
  conditionCache : List ConditionState

section

variable (matcherHash : AtomMatcher F → Option UInt64) (predicateHash : Predicate → Option UInt64)
  (uninitialized : Nat → MatcherIndices) (later : ConfigState F → Bool)

/-- `initStatsdConfig`. The states, metrics, alerts and alarms come later and leave the conditions as they are. -/
def initStatsdConfig (config : StatsdConfig F) : Outcome (ConfigState F) :=
  match Matchers.initAtomMatchingTrackers matcherHash config with
  | .failure => .failure
  | .outOfFuel => .outOfFuel
  | .ok matchers =>
    match initConditions predicateHash matchers.atomMatchingTrackerMap uninitialized config.predicate with
    | .failure => .failure
    | .outOfFuel => .outOfFuel
    | .ok (conditions, conditionCache) =>
      if later ⟨matchers, conditions, conditionCache⟩ then .ok ⟨matchers, conditions, conditionCache⟩ else .failure

/-- The matchers that `updateAtomMatchingTrackers` replaces. -/
def replacedByUpdate (old : Matchers.Trackers F) (config : StatsdConfig F) : Finset Int :=
  match determineAll (determineMatcherUpdateStatus config matcherHash old.atomMatchingTrackerMap
    (old.allAtomMatchingTrackers.map (·.mProtoHash)) (UMap.indexMap (config.atom_matcher.map (·.id)))
    (config.atom_matcher.length + 1)) (List.range config.atom_matcher.length) .new with
  | .ok p => replacedMatchers config p
  | .failure => ∅
  | .outOfFuel => ∅

/-- `updateStatsdConfig`, with fuel for the depth of the recursions over the conditions. -/
def updateStatsdConfig (fuel : Nat) (old : ConfigState F) (config : StatsdConfig F) : Outcome (ConfigState F) :=
  match Matchers.updateAtomMatchingTrackers matcherHash config old.matchers with
  | .failure => .failure
  | .outOfFuel => .outOfFuel
  | .ok matchers =>
    match updateConditions predicateHash matchers.atomMatchingTrackerMap uninitialized
      (replacedByUpdate matcherHash old.matchers config) fuel old.conditions config with
    | .failure => .failure
    | .outOfFuel => .outOfFuel
    | .ok (conditions, conditionCache) =>
      if later ⟨matchers, conditions, conditionCache⟩ then .ok ⟨matchers, conditions, conditionCache⟩ else .failure

end

/-! ## Names and indices -/

/-- The start, stop and stop-all of every simple predicate are matchers of the config. -/
def AllNamed (config : StatsdConfig F) : Prop :=
  ∀ m ∈ config.predicate, ∀ c ∈ m.contents.matchers, c ∈ config.atom_matcher.map (·.id)

/-- The index is that of the matcher named, and there is none where none is named. -/
def IndexOf (config : StatsdConfig F) : Option Int → Option Nat → Prop
  | none, index => index = none
  | some id, index => ∃ k, index = some k ∧ (config.atom_matcher[k]?).map (·.id) = some id

/-- The indices are those of the matchers that a simple predicate names. -/
structure Indexes (config : StatsdConfig F) (p : Config.SimplePredicate) (start stop stop_all : Option Nat) : Prop where
  start : IndexOf config p.start start
  stop : IndexOf config p.stop stop
  stop_all : IndexOf config p.stop_all stop_all

/-- A simple condition has the indices of the predicate at its place. -/
def RightAt (config : StatsdConfig F) (trackers : Nat → ConditionTracker) (i : Nat) : Prop :=
  ∀ m, config.predicate[i]? = some m → ∀ t, (trackers i).kind = .simple t →
    Indexes config (simple_predicate m.contents) t.mStartLogMatcherIndex t.mStopLogMatcherIndex t.mStopAllLogMatcherIndex

section

variable {config : StatsdConfig F} {map : UMap Int Nat}

theorem AllNamed.resolved (h : AllNamed config) (hunique : (config.atom_matcher.map (·.id)).Nodup)
    (hmap : map = UMap.indexMap (config.atom_matcher.map (·.id))) : Resolved map config.predicate := by
  intro m hm c hc
  obtain ⟨k, -, hk⟩ := exists_lookup hunique (h m hm c hc)
  exact ⟨k, by rw [hmap, hk]⟩

theorem indexOf_bind (hunique : (config.atom_matcher.map (·.id)).Nodup)
    (hmap : map = UMap.indexMap (config.atom_matcher.map (·.id))) {matcher : Option Int}
    (h : ∀ c ∈ matcher.toList, ∃ k, map.lookup c = some k) : IndexOf config matcher (matcher.bind map.lookup) := by
  cases matcher with
  | none => rfl
  | some c =>
    obtain ⟨k, hk⟩ := h c (by simp)
    refine ⟨k, hk, ?_⟩
    rw [hmap, UMap.lookup_indexMap hunique, List.getElem?_map] at hk
    exact hk

theorem matchers_simple_predicate (contents : PredicateContents) :
    (simple_predicate contents).matchers = contents.matchers := by
  cases contents with
  | CONTENTS_NOT_SET => rfl
  | simple_predicate predicate => rfl
  | combination operation predicate => rfl

theorem setMatcherIndices_indexes (hunique : (config.atom_matcher.map (·.id)).Nodup)
    (hmap : map = UMap.indexMap (config.atom_matcher.map (·.id))) (hnamed : AllNamed config) {m : Predicate}
    (hm : m ∈ config.predicate) (t : MatcherIndices) :
    Indexes config (simple_predicate m.contents)
      (setMatcherIndices (simple_predicate m.contents) map t).mStartLogMatcherIndex
      (setMatcherIndices (simple_predicate m.contents) map t).mStopLogMatcherIndex
      (setMatcherIndices (simple_predicate m.contents) map t).mStopAllLogMatcherIndex := by
  have hfound : ∀ c ∈ (simple_predicate m.contents).matchers, ∃ k, map.lookup c = some k := by
    rw [matchers_simple_predicate]
    exact hnamed.resolved hunique hmap m hm
  rw [setMatcherIndices_eq hfound]
  unfold SimplePredicate.matchers at hfound
  refine ⟨indexOf_bind hunique hmap fun c hc => ?_, indexOf_bind hunique hmap fun c hc => ?_,
    indexOf_bind hunique hmap fun c hc => ?_⟩
  · exact hfound c (List.mem_append_left _ (List.mem_append_left _ hc))
  · exact hfound c (List.mem_append_left _ (List.mem_append_right _ hc))
  · exact hfound c (List.mem_append_right _ hc)

/-! ## What sets the indices -/

theorem RightAt.write {trackers : Nat → ConditionTracker} {i : Nat} {t : ConditionTracker}
    (ht : ∀ s, t.kind = .simple s → (trackers i).kind = .simple s) {j : Nat} (h : RightAt config trackers j) :
    RightAt config (Function.update trackers i t) j := by
  intro m hm s hs
  by_cases hji : j = i
  · subst hji
    rw [Function.update_self] at hs
    exact h m hm s (ht s hs)
  · rw [Function.update_of_ne hji] at hs
    exact h m hm s hs

variable {trackers trackers' : Nat → ConditionTracker} {predicateHash : Predicate → Option UInt64} {uninitialized : Nat → MatcherIndices} {conditionMap : UMap Int Nat}

theorem updateChildren_right {update : Nat → (Nat → ConditionTracker) → Outcome (Nat → ConditionTracker)}
    (hupdate : ∀ c trackers trackers', update c trackers = .ok trackers' →
      ∀ j, RightAt config trackers j → RightAt config trackers' j)
    {i : Nat} (children : List (Option Nat))
    (hok : updateChildren update i children trackers = .ok trackers') {j : Nat} (h : RightAt config trackers j) :
    RightAt config trackers' j := by
  induction children generalizing trackers with
  | nil =>
    cases hok
    exact h
  | cons c children ih =>
    cases c with
    | none => cases hok
    | some c =>
      rw [updateChildren] at hok
      split at hok
      · cases hok
      · cases hok
      · rename_i trackers₁ hc
        refine ih hok (RightAt.write ?_ (hupdate c _ _ hc j h))
        exact fun s hs => hs

variable (hunique : (config.atom_matcher.map (·.id)).Nodup) (hmap : map = UMap.indexMap (config.atom_matcher.map (·.id)))
  (hnamed : AllNamed config)
include hunique hmap hnamed

theorem createConditionTracker_right {trackers : Nat → ConditionTracker} {i : Nat} {m : Predicate} (hm : config.predicate[i]? = some m)
    (hnew : createConditionTracker predicateHash map uninitialized i m = some (trackers i)) :
    RightAt config trackers i := by
  intro m' hm' t ht
  obtain rfl := Option.some.inj (hm.symm.trans hm')
  have hindexes := setMatcherIndices_indexes hunique hmap hnamed (List.mem_of_getElem? hm) (uninitialized i)
  unfold createConditionTracker at hnew
  split at hnew
  · cases hnew
  · cases hcontents : m.contents with
    | CONTENTS_NOT_SET =>
      rw [hcontents] at hnew
      cases hnew
    | simple_predicate p =>
      rw [hcontents] at hnew hindexes
      rw [← Option.some.inj hnew] at ht
      cases ht
      exact hindexes
    | combination operation predicate =>
      rw [hcontents] at hnew
      rw [← Option.some.inj hnew] at ht
      cases ht

theorem onConfigUpdated_right (fuel i : Nat)
    (hok : onConfigUpdated config.predicate map conditionMap fuel i trackers = .ok trackers') :
    (∀ j, RightAt config trackers j → RightAt config trackers' j) ∧ RightAt config trackers' i := by
  induction fuel generalizing i trackers trackers' with
  | zero => cases hok
  | succ fuel ih =>
    rw [onConfigUpdated] at hok
    split at hok
    · cases hok
    · rename_i predicate hpredicate
      cases hk : (trackers i).kind with
      | simple t =>
        rw [hk] at hok
        cases hok
        have hi : RightAt config (Function.update trackers i (resetMatcherIndices (simple_predicate predicate.contents)
            map t { trackers i with mIndex := i })) i := by
          intro m hm s hs
          obtain rfl := Option.some.inj (hpredicate.symm.trans hm)
          rw [Function.update_self] at hs
          cases hs
          exact setMatcherIndices_indexes hunique hmap hnamed (List.mem_of_getElem? hm) _
        refine ⟨fun j hj => ?_, hi⟩
        by_cases hji : j = i
        · rw [hji]
          exact hi
        · intro m hm s hs
          rw [Function.update_of_ne hji] at hs
          exact hj m hm s hs
      | combination operation =>
        rw [hk] at hok
        have hchildren := fun j => updateChildren_right (fun c t t' h => (ih c h).1) _ hok (j := j)
        refine ⟨fun j hj => hchildren j (RightAt.write ?_ hj), hchildren i (RightAt.write ?_ fun m hm s hs => ?_)⟩
        · exact fun s hs => hs
        · exact fun s hs => hs
        · -- a combination has no indices
          rw [hk] at hs
          cases hs

theorem updateAll_right (fuel : Nat) (order : List Nat)
    (hok : updateAll (onConfigUpdated config.predicate map conditionMap fuel) order trackers = .ok trackers') :
    (∀ j, RightAt config trackers j → RightAt config trackers' j) ∧ ∀ i ∈ order, RightAt config trackers' i := by
  induction order generalizing trackers with
  | nil =>
    cases hok
    exact ⟨fun _ h => h, nofun⟩
  | cons i order ih =>
    rw [updateAll] at hok
    split at hok
    · cases hok
    · cases hok
    · rename_i trackers₁ hi
      obtain ⟨hkept, hright⟩ := onConfigUpdated_right hunique hmap hnamed fuel i hi
      obtain ⟨hkept', hright'⟩ := ih hok
      refine ⟨fun j hj => hkept' j (hkept j hj), fun j hj => ?_⟩
      rcases List.mem_cons.1 hj with rfl | hj
      · exact hkept' j hright
      · exact hright' j hj

omit hunique hmap hnamed in
theorem initAll_right {trackers : Nat → ConditionTracker} {fuel n : Nat} {q : Graph Entry}
    (hn : n = config.predicate.length)
    (hok : initAll config.predicate conditionMap fuel (List.range n)
      ⟨fun i => ⟨trackers i, kNotEvaluated, false⟩, fun _ => false⟩ = .ok q)
    (h : ∀ i < config.predicate.length, RightAt config trackers i) (i : Nat) :
    RightAt config (trackerAt ((List.range n).map fun i => (q.nodes i).tracker)) i := by
  intro m hm t ht
  have hi : i < config.predicate.length := (List.getElem?_eq_some_iff.1 hm).1
  rw [trackerAt_of_get (t := (q.nodes i).tracker) (by
    rw [List.getElem?_map, List.getElem?_range (hn ▸ hi)]
    rfl)] at ht
  exact h i hi m hm t (initAll_leaves fuel _ hok i t ht)

theorem initConditions_right {s : Conditions} {conditionCache : List ConditionState}
    (hok : initConditions predicateHash map uninitialized config.predicate = .ok (s, conditionCache)) (i : Nat) :
    RightAt config (trackerAt s.mAllConditionTrackers) i := by
  unfold initConditions at hok
  split at hok
  · cases hok
  · rename_i trackers hmake
    have hcreated := created_of_makeTrackers hmake
    split at hok
    · split at hok
      · cases hok
      · cases hok
      · rename_i q hq
        cases hok
        refine initAll_right hcreated.length hq (fun j hj => ?_) i
        exact createConditionTracker_right hunique hmap hnamed (List.getElem?_eq_getElem hj)
          (hcreated.get j _ (List.getElem?_eq_getElem hj))
    · cases hok

theorem updateConditions_right {replaced : Finset Int} {fuel : Nat} {old s : Conditions} {conditionCache : List ConditionState}
    (hok : updateConditions predicateHash map uninitialized replaced fuel old config = .ok (s, conditionCache)) (i : Nat) :
    RightAt config (trackerAt s.mAllConditionTrackers) i := by
  unfold updateConditions at hok
  dsimp only at hok
  split at hok
  · cases hok
  · split at hok
    · cases hok
    · cases hok
    · rename_i p hp
      split at hok
      · cases hok
      · rename_i trackers hmake
        split at hok
        · cases hok
        · cases hok
        · rename_i trackers' hupdate
          split at hok
          · cases hok
          · cases hok
          · rename_i q hq
            cases hok
            obtain ⟨hkept, hright⟩ := updateAll_right hunique hmap hnamed fuel _ hupdate
            refine initAll_right rfl hq (fun j hj => ?_) i
            by_cases hpreserved : p.toUpdate j = UPDATE_PRESERVE
            · exact hright j (List.mem_filter.2 ⟨List.mem_range.2 hj, decide_eq_true hpreserved⟩)
            · -- a condition that is not preserved is made anew
              have hm := List.getElem?_eq_getElem hj
              obtain ⟨t, ht, hnew⟩ := (makeTrackers_get hmake).2 j _ hm
              rw [Nat.zero_add, ← trackerAt_of_get ht] at hnew
              have hcreated : createConditionTracker predicateHash map uninitialized j config.predicate[j] =
                  some (trackerAt trackers j) := by
                unfold updateTracker at hnew
                split at hnew
                · rename_i hp'
                  exact absurd hp' hpreserved
                · exact hnew
                · exact hnew
                · cases hnew
              exact hkept j (createConditionTracker_right hunique hmap hnamed hm hcreated)

end

/-! ## The configs that are accepted -/

/-- For every config that `initStatsdConfig` accepts, and every one that `updateStatsdConfig` accepts on whatever state
there was: every matcher named by a simple predicate exists and every simple condition has the indices of the matchers
named, exactly when the config has a matcher of every name. -/
theorem accepted_indices_iff (matcherHash : AtomMatcher F → Option UInt64) (predicateHash : Predicate → Option UInt64)
    (uninitialized : Nat → MatcherIndices) (later : ConfigState F → Bool) (config : StatsdConfig F) :
    (∀ s, initStatsdConfig matcherHash predicateHash uninitialized later config = .ok s →
      ((AllNamed config ∧ ∀ i, RightAt config (trackerAt s.conditions.mAllConditionTrackers) i) ↔ AllNamed config)) ∧
    ∀ fuel old s, updateStatsdConfig matcherHash predicateHash uninitialized later fuel old config = .ok s →
      ((AllNamed config ∧ ∀ i, RightAt config (trackerAt s.conditions.mAllConditionTrackers) i) ↔ AllNamed config) := by
  refine ⟨fun s hok => and_iff_left_of_imp fun hnamed => ?_, fun fuel old s hok => and_iff_left_of_imp fun hnamed => ?_⟩
  · unfold initStatsdConfig at hok
    split at hok
    · cases hok
    · cases hok
    · rename_i matchers hmatchers
      have hsound := Matchers.initAtomMatchingTrackers_sound hmatchers
      split at hok
      · cases hok
      · cases hok
      · rename_i conditions conditionCache hconditions
        split at hok
        · cases hok
          exact initConditions_right hsound.nodup hsound.map_eq hnamed hconditions
        · cases hok
  · unfold updateStatsdConfig at hok
    split at hok
    · cases hok
    · cases hok
    · rename_i matchers hmatchers
      obtain ⟨hunique, hmap⟩ := Matchers.updateAtomMatchingTrackers_indices hmatchers
      split at hok
      · cases hok
      · cases hok
      · rename_i conditions conditionCache hconditions
        split at hok
        · cases hok
          exact updateConditions_right hunique hmap hnamed hconditions
        · cases hok

/-- A predicate whose start is no matcher is accepted, and its index is whatever was there: garbage in a new condition,
and after an update the index of a matcher that is gone. -/
theorem unnamed_start_accepted :
    let config : StatsdConfig Unit := ⟨[atomMatcher 1 10], [startedBy 5 2]⟩
    let before : StatsdConfig Unit := ⟨[atomMatcher 1 10, atomMatcher 2 11], [startedBy 5 2]⟩
    let garbage : Nat → MatcherIndices := fun _ => ⟨some 3, none, none, ∅⟩
    ¬ AllNamed config ∧
      (∃ s t, initStatsdConfig (fun _ => some 0) (fun _ => some 0) garbage (fun _ => true) config = .ok s ∧
        (trackerAt s.conditions.mAllConditionTrackers 0).kind = .simple t ∧ t.mStartLogMatcherIndex = some 3) ∧
      ∃ old s t, initStatsdConfig (fun _ => some 0) (fun _ => some 0) garbage (fun _ => true) before = .ok old ∧
        updateStatsdConfig (fun _ => some 0) (fun _ => some 0) garbage (fun _ => true) 3 old config = .ok s ∧
        (trackerAt s.conditions.mAllConditionTrackers 0).kind = .simple t ∧ t.mStartLogMatcherIndex = some 1 := by
  refine ⟨fun h => ?_, ⟨_, _, rfl, rfl, rfl⟩, _, _, _, rfl, rfl, rfl, rfl⟩
  have := h (startedBy 5 2) (by simp) 2 (by simp [startedBy, PredicateContents.matchers, SimplePredicate.matchers])
  simp [atomMatcher] at this

end Statsd.Condition
