/-
The condition trackers of a config (condition/CombinationConditionTracker.cpp, condition_util.cpp, ConditionWizard.cpp,
createConditionTracker and initConditions of metrics_manager_util.cpp, the condition loop of
MetricsManager::onLogEvent). A combination is initialised after its children and keeps the value of its unsliced
part; an event evaluates the conditions one of whose matchers matched, and their children before them.

The vectors indexed by condition (trackers, condition cache, changed cache) are one function to entries.
-/
import Statsd.Base.GraphInit
import Statsd.Config.StatsdConfig

namespace Statsd.Condition

open ConditionState

/-- `evaluateCombinationCondition`. -/
def evaluateCombinationCondition (children : List Nat) (operation : LogicalOperation)
    (conditionCache : Nat → ConditionState) : ConditionState :=
  let hasFalse := children.any fun c => decide (conditionCache c = kFalse)
  let hasTrue := children.any fun c => decide (conditionCache c = kTrue)
  -- if any child condition is unknown, the condition is unknown too
  if children.any fun c => decide (conditionCache c = kUnknown) then kUnknown
  else
    match operation with
    | .AND => if hasFalse then kFalse else kTrue
    | .OR => if hasTrue then kTrue else kFalse
    | .NOT =>
      match children with
      | [] => kUnknown
      | c :: _ => if conditionCache c = kFalse then kTrue else kFalse
    | .NAND => if hasFalse then kTrue else kFalse
    | .NOR => if hasTrue then kFalse else kTrue
    | .LOGICAL_OPERATION_UNSPECIFIED => kFalse

inductive ConditionKind where
  | simple (tracker : SimpleConditionTracker)
  | combination (mLogicalOperation : LogicalOperation)

/-- A `ConditionTracker`. A simple one has no children. -/
structure ConditionTracker where
  mConditionId : Int
  mIndex : Nat
  mInitialized : Bool
  mTrackerIndex : Finset Nat
  mUnSlicedPartCondition : ConditionState
  mSliced : Bool
  mProtoHash : UInt64
  kind : ConditionKind
  mChildren : List Nat
  mUnSlicedChildren : List Nat
  mSlicedChildren : List Nat

instance : Inhabited ConditionTracker :=
  ⟨⟨0, 0, false, ∅, kUnknown, false, 0, .combination .LOGICAL_OPERATION_UNSPECIFIED, [], [], []⟩⟩

/-- The matcher indices of a simple condition; no index is -1. -/
structure MatcherIndices where
  mStartLogMatcherIndex : Option Nat
  mStopLogMatcherIndex : Option Nat
  mStopAllLogMatcherIndex : Option Nat
  mTrackerIndex : Finset Nat

/-- The index of a matcher that may be set, or nothing when it is set to an id the config does not have. -/
def matcherIndex (matcher : Option Int) (atomMatchingTrackerMap : UMap Int Nat) : Option (Option Nat) :=
  match matcher with
  | none => some none
  | some id => (atomMatchingTrackerMap.lookup id).map some

/-- `setMatcherIndices`, which leaves the indices as they are from the first matcher on that is not found. -/
def setMatcherIndices (simplePredicate : Config.SimplePredicate) (atomMatchingTrackerMap : UMap Int Nat)
    (t : MatcherIndices) : MatcherIndices :=
  match matcherIndex simplePredicate.start atomMatchingTrackerMap with
  | none => { t with mTrackerIndex := ∅ }
  | some start =>
    match matcherIndex simplePredicate.stop atomMatchingTrackerMap with
    | none => { t with mStartLogMatcherIndex := start, mTrackerIndex := start.toFinset }
    | some stop =>
      match matcherIndex simplePredicate.stop_all atomMatchingTrackerMap with
      | none =>
        { t with
          mStartLogMatcherIndex := start
          mStopLogMatcherIndex := stop
          mTrackerIndex := start.toFinset ∪ stop.toFinset }
      | some stop_all => ⟨start, stop, stop_all, start.toFinset ∪ stop.toFinset ∪ stop_all.toFinset⟩

/-- A simple predicate with its matchers by their indices. -/
def MatcherIndices.resolve (indices : MatcherIndices) (p : Config.SimplePredicate) : SimplePredicate :=
  ⟨indices.mStartLogMatcherIndex, indices.mStopLogMatcherIndex, indices.mStopAllLogMatcherIndex, p.count_nesting,
    p.initial_value, p.dimensions⟩

/-- `createConditionTracker`. The matcher indices are not initialised before they are set. -/
def createConditionTracker (protoHash : Config.Predicate → Option UInt64) (atomMatchingTrackerMap : UMap Int Nat)
    (uninitialized : Nat → MatcherIndices) (index : Nat) (predicate : Config.Predicate) : Option ConditionTracker :=
  match protoHash predicate with
  | none => none
  | some hash =>
    match predicate.contents with
    | .simple_predicate p =>
      let indices := setMatcherIndices p atomMatchingTrackerMap (uninitialized index)
      let tracker := SimpleConditionTracker.new (indices.resolve p)
      some ⟨predicate.id, index, true, indices.mTrackerIndex, kUnknown, tracker.mSliced, hash, .simple tracker, [], [], []⟩
    | .combination _ _ =>
      some ⟨predicate.id, index, false, ∅, kUnknown, false, hash, .combination .LOGICAL_OPERATION_UNSPECIFIED, [], [], []⟩
    | .CONTENTS_NOT_SET => none

/-- A tracker with its entries of the condition cache and the changed cache. -/
structure Entry where
  tracker : ConditionTracker
  conditionCache : ConditionState
  changedCache : Bool

/-- The condition cache. -/
def cacheOf (entries : Nat → Entry) (i : Nat) : ConditionState := (entries i).conditionCache

/-! ## Initialisation -/

/-- `init` of a simple condition: the initial value goes to the cache. -/
def initSimple (t : SimpleConditionTracker) (e : Entry) : Entry :=
  { e with
    conditionCache := t.isConditionMet (if t.mSliced then some DEFAULT_DIMENSION_KEY else none) t.mSliced e.conditionCache }

def setOperation (operation : LogicalOperation) (e : Entry) : Entry :=
  { e with tracker := { e.tracker with kind := .combination operation } }

/-- A child that a combination has initialised. -/
def addChild (e : Entry) (childIndex : Nat) (child : Entry) : Entry :=
  { e with
    tracker := { e.tracker with
      mSliced := e.tracker.mSliced || child.tracker.mSliced
      mSlicedChildren :=
        if child.tracker.mSliced then e.tracker.mSlicedChildren ++ [childIndex] else e.tracker.mSlicedChildren
      mUnSlicedChildren :=
        if child.tracker.mSliced then e.tracker.mUnSlicedChildren else e.tracker.mUnSlicedChildren ++ [childIndex]
      mChildren := e.tracker.mChildren ++ [childIndex]
      mTrackerIndex := e.tracker.mTrackerIndex ∪ child.tracker.mTrackerIndex } }

/-- The value of a combination goes to the cache. -/
def cacheCombination (operation : LogicalOperation) (entries : Nat → Entry) (e : Entry) : Entry :=
  { e with conditionCache := evaluateCombinationCondition e.tracker.mChildren operation (cacheOf entries) }

/-- The end of `init` of a combination. -/
def initCombination (operation : LogicalOperation) (entries : Nat → Entry) (e : Entry) : Entry :=
  cacheCombination operation entries { e with
    tracker := { e.tracker with
      mUnSlicedPartCondition := evaluateCombinationCondition e.tracker.mUnSlicedChildren operation (cacheOf entries)
      mInitialized := true } }

/-- The operation and the children of a combination, by the config. -/
def startCombination (allConditionConfig : List Config.Predicate) (conditionIdIndexMap : UMap Int Nat) (i : Nat) :
    Option (LogicalOperation × List (Option Nat)) :=
  match allConditionConfig[i]?.map Config.Predicate.contents with
  | some (.combination (some operation) predicate) =>
    if operation = .NOT ∧ predicate.length ≠ 1 then none
    else some (operation, predicate.map conditionIdIndexMap.lookup)
  | _ => none

/-- The loop over the children of a combination that is being initialised. -/
def initChildren (init : Nat → Graph Entry → Outcome (Graph Entry)) (i : Nat) :
    List (Option Nat) → Graph Entry → Outcome (Graph Entry)
  | [], s => .ok s
  | none :: _, _ => .failure
  | some c :: children, s =>
    if s.stack c then .failure
    else
      match init c s with
      | .failure => .failure
      | .outOfFuel => .outOfFuel
      | .ok s =>
        initChildren init i children { s with nodes := Function.update s.nodes i (addChild (s.nodes i) c (s.nodes c)) }

/-- The children of an initialised combination whose condition is not in the cache. -/
def initAgain (init : Nat → Graph Entry → Outcome (Graph Entry)) : List Nat → Graph Entry → Outcome (Graph Entry)
  | [], s => .ok s
  | c :: children, s =>
    if cacheOf s.nodes c = kNotEvaluated then
      match init c s with
      | .ok s => initAgain init children s
      | .failure => .failure
      | .outOfFuel => .outOfFuel
    else initAgain init children s

/-- `init` of the condition at an index, with fuel for the depth. -/
def init (allConditionConfig : List Config.Predicate) (conditionIdIndexMap : UMap Int Nat) :
    Nat → Nat → Graph Entry → Outcome (Graph Entry)
  | 0, _, _ => .outOfFuel
  | fuel + 1, i, s =>
    match (s.nodes i).tracker.kind with
    | .simple t =>
      if (s.nodes i).tracker.mInitialized then
        .ok { s with nodes := Function.update s.nodes i (initSimple t (s.nodes i)) }
      else .failure
    | .combination operation =>
      if (s.nodes i).tracker.mInitialized then
        match initAgain (init allConditionConfig conditionIdIndexMap fuel) (s.nodes i).tracker.mChildren s with
        | .ok s => .ok { s with nodes := Function.update s.nodes i (cacheCombination operation s.nodes (s.nodes i)) }
        | .failure => .failure
        | .outOfFuel => .outOfFuel
      else
        match startCombination allConditionConfig conditionIdIndexMap i with
        | none => .failure
        | some (operation, children) =>
          match initChildren (init allConditionConfig conditionIdIndexMap fuel) i children
            ⟨Function.update s.nodes i (setOperation operation (s.nodes i)), Function.update s.stack i true⟩ with
          | .failure => .failure
          | .outOfFuel => .outOfFuel
          | .ok s =>
            .ok ⟨Function.update s.nodes i (initCombination operation s.nodes (s.nodes i)), Function.update s.stack i false⟩

/-- The calls of `init` for all conditions. -/
def initAll (allConditionConfig : List Config.Predicate) (conditionIdIndexMap : UMap Int Nat) (fuel : Nat) :
    List Nat → Graph Entry → Outcome (Graph Entry)
  | [], s => .ok s
  | i :: order, s =>
    match init allConditionConfig conditionIdIndexMap fuel i s with
    | .failure => .failure
    | .outOfFuel => .outOfFuel
    | .ok s => initAll allConditionConfig conditionIdIndexMap fuel order s

/-- The conditions of a metrics manager. -/
structure Conditions where
  conditionTrackerMap : UMap Int Nat
  mAllConditionTrackers : List ConditionTracker
  mTrackerToConditionMap : UMap Nat (List Nat)

/-- `allConditionTrackers[i]`. -/
def trackerAt (trackers : List ConditionTracker) (i : Nat) : ConditionTracker := trackers.getD i default

/-- The conditions by the matchers they use. -/
def trackerToConditionMap (trackers : List ConditionTracker) : UMap Nat (List Nat) :=
  (List.range trackers.length).foldl
    (fun map i => ((trackerAt trackers i).mTrackerIndex.sort (· ≤ ·)).foldl (fun map k => map.push k i) map) ∅

/-- `initConditions`: the conditions and the initial condition cache. -/
def initConditions (protoHash : Config.Predicate → Option UInt64) (atomMatchingTrackerMap : UMap Int Nat)
    (uninitialized : Nat → MatcherIndices) (predicates : List Config.Predicate) :
    Outcome (Conditions × List ConditionState) :=
  match Config.makeTrackers (createConditionTracker protoHash atomMatchingTrackerMap uninitialized) 0 predicates with
  | none => .failure
  | some trackers =>
    if (predicates.map (·.id)).Nodup then
      match initAll predicates (UMap.indexMap (predicates.map (·.id))) (trackers.length + 1) (List.range trackers.length)
        ⟨fun i => ⟨trackerAt trackers i, kNotEvaluated, false⟩, fun _ => false⟩ with
      | .failure => .failure
      | .outOfFuel => .outOfFuel
      | .ok s =>
        let trackers := (List.range trackers.length).map fun i => (s.nodes i).tracker
        .ok (⟨UMap.indexMap (predicates.map (·.id)), trackers, trackerToConditionMap trackers⟩,
          (List.range trackers.length).map (cacheOf s.nodes))
    else .failure

/-! ## Events and queries -/

def evaluateSimple (event : MatchedEvent) (t : SimpleConditionTracker) (e : Entry) : Entry :=
  let r := t.evaluateCondition event e.conditionCache e.changedCache
  ⟨{ e.tracker with kind := .simple r.tracker }, r.conditionCache, r.changedCache⟩

/-- What `evaluateCondition` of a combination does once its children are evaluated. -/
def evaluateCombination (operation : LogicalOperation) (entries : Nat → Entry) (e : Entry) : Entry :=
  let newCondition := evaluateCombinationCondition e.tracker.mChildren operation (cacheOf entries)
  if !e.tracker.mSliced then
    ⟨{ e.tracker with mUnSlicedPartCondition := newCondition }, newCondition,
      decide (e.tracker.mUnSlicedPartCondition ≠ newCondition)⟩
  else
    ⟨{ e.tracker with
        mUnSlicedPartCondition := evaluateCombinationCondition e.tracker.mUnSlicedChildren operation (cacheOf entries) },
      newCondition,
      if e.tracker.mChildren.any fun c => (entries c).changedCache then true else e.changedCache⟩

/-- `evaluateCondition` of the condition at an index, with fuel for the depth. -/
def evaluateCondition (event : MatchedEvent) : Nat → Nat → (Nat → Entry) → Nat → Entry
  | 0, _, entries => entries
  | fuel + 1, i, entries =>
    if (entries i).conditionCache ≠ kNotEvaluated then entries
    else
      match (entries i).tracker.kind with
      | .simple t => Function.update entries i (evaluateSimple event t (entries i))
      | .combination operation =>
        let entries := (entries i).tracker.mChildren.foldl
          (fun entries c =>
            if (entries c).conditionCache = kNotEvaluated then evaluateCondition event fuel c entries else entries)
          entries
        Function.update entries i (evaluateCombination operation entries (entries i))

/-- One of the condition's matchers matched. -/
def conditionToBeEvaluated (s : Conditions) (matcherCache : Nat → MatchingState) (i : Nat) : Bool :=
  s.mTrackerToConditionMap.entries.any fun pair => decide (matcherCache pair.1 = .kMatched) && decide (i ∈ pair.2)

/-- The condition loop of `onLogEvent`. -/
def evaluateConditions (s : Conditions) (event : MatchedEvent) : Nat → Entry :=
  (List.range s.mAllConditionTrackers.length).foldl
    (fun entries i =>
      if conditionToBeEvaluated s event.eventMatcherValues i then
        evaluateCondition event s.mAllConditionTrackers.length i entries
      else entries)
    fun i => ⟨trackerAt s.mAllConditionTrackers i, kNotEvaluated, false⟩

/-- The conditions after an event. -/
def Conditions.step (s : Conditions) (event : MatchedEvent) : Conditions :=
  { s with
    mAllConditionTrackers :=
      (List.range s.mAllConditionTrackers.length).map fun i => (evaluateConditions s event i).tracker }

/-- `isConditionMet` of the condition at an index, with fuel for the depth. -/
def isConditionMet (trackers : Nat → ConditionTracker) (conditionParameters : Int → Option HashableDimensionKey)
    (isPartialLink : Bool) : Nat → Nat → (Nat → ConditionState) → Nat → ConditionState
  | 0, _, conditionCache => conditionCache
  | fuel + 1, i, conditionCache =>
    match (trackers i).kind with
    | .simple t =>
      Function.update conditionCache i
        (t.isConditionMet (conditionParameters (trackers i).mConditionId) isPartialLink (conditionCache i))
    | .combination operation =>
      let conditionCache := (trackers i).mChildren.foldl
        (fun conditionCache c =>
          if conditionCache c = kNotEvaluated then
            isConditionMet trackers conditionParameters isPartialLink fuel c conditionCache
          else conditionCache)
        conditionCache
      Function.update conditionCache i (evaluateCombinationCondition (trackers i).mChildren operation conditionCache)

/-- `ConditionWizard::query`. -/
def query (s : Conditions) (index : Nat) (parameters : Int → Option HashableDimensionKey) (isPartialLink : Bool) :
    ConditionState :=
  isConditionMet (trackerAt s.mAllConditionTrackers) parameters isPartialLink s.mAllConditionTrackers.length index
    (fun _ => kNotEvaluated) index

end Statsd.Condition
