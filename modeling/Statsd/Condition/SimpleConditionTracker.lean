/-
Simple condition trackers (condition/SimpleConditionTracker.{h,cpp}): a predicate that starts, stops
and stops for all keys on matched events. A sliced tracker counts the starts of every output
dimension key in one map; an unsliced one uses the default key only.
-/
import Statsd.Base.UMap
import Statsd.HashableDimensionKey
import Statsd.Matchers.AtomMatchingTracker

namespace Statsd

/-! ## Condition states -/

inductive ConditionState where
  | kNotEvaluated | kUnknown | kFalse | kTrue
deriving DecidableEq

namespace ConditionState

/-- The value of the enumerator, by which states are ordered. -/
def rank : ConditionState → Int
  | kNotEvaluated => -2
  | kUnknown => -1
  | kFalse => 0
  | kTrue => 1

/-- `operator|`. -/
def or (l r : ConditionState) : ConditionState := if l.rank ≥ r.rank then l else r

/-- `c ? kTrue : kFalse`. -/
def ofBool (c : Bool) : ConditionState := if c then kTrue else kFalse

end ConditionState

/-- The limits of `StatsdStats` on the number of dimension keys. -/
def kDimensionKeySizeSoftLimit : Nat := 500
def kDimensionKeySizeHardLimit : Nat := 800

namespace Condition

open ConditionState

inductive InitialValue where
  | UNKNOWN | FALSE
deriving DecidableEq

/-- The `SimplePredicate` message, its matchers by their indices in the config. -/
structure SimplePredicate where
  start : Option Nat
  stop : Option Nat
  stop_all : Option Nat
  count_nesting : Bool
  initial_value : InitialValue
  dimensions : Option FieldMatcher

structure SimpleConditionTracker where
  mStartLogMatcherIndex : Option Nat
  mStopLogMatcherIndex : Option Nat
  mStopAllLogMatcherIndex : Option Nat
  mCountNesting : Bool
  mInitialValue : ConditionState
  mOutputDimensions : List Matcher
  mContainANYPositionInInternalDimensions : Bool
  mSliced : Bool
  mLastChangedToTrueDimensions : Finset HashableDimensionKey
  mLastChangedToFalseDimensions : Finset HashableDimensionKey
  mSlicedConditionState : UMap HashableDimensionKey Int

/-- The part of an event a condition reads: its values and the results of the atom matchers. -/
structure MatchedEvent where
  values : List (Field × Value)
  eventMatcherValues : Nat → MatchingState

/-- An event matches at an optional matcher index. -/
def MatchedEvent.matched (event : MatchedEvent) (index : Option Nat) : Bool :=
  match index with
  | some i => decide (event.eventMatcherValues i = .kMatched)
  | none => false

namespace SimpleConditionTracker

/-- The constructor. -/
def new (p : SimplePredicate) : SimpleConditionTracker :=
  let mOutputDimensions := match p.dimensions with
    | some d => d.translateFieldMatcher
    | none => []
  { mStartLogMatcherIndex := p.start
    mStopLogMatcherIndex := p.stop
    mStopAllLogMatcherIndex := p.stop_all
    mCountNesting := p.count_nesting
    mInitialValue := if p.initial_value = .FALSE then kFalse else kUnknown
    mOutputDimensions
    mContainANYPositionInInternalDimensions := match p.dimensions with
      | some d => d.HasPositionANY
      | none => false
    mSliced := !mOutputDimensions.isEmpty
    mLastChangedToTrueDimensions := ∅
    mLastChangedToFalseDimensions := ∅
    mSlicedConditionState := ∅ }

/-- The tracker with its own entries of the condition cache and the changed cache. -/
structure Evaluation where
  tracker : SimpleConditionTracker
  conditionCache : ConditionState
  changedCache : Bool

def handleStopAll (t : SimpleConditionTracker) : Evaluation where
  tracker := { t with
    mLastChangedToFalseDimensions := t.mSlicedConditionState.entries.foldl
      (fun s cond => if cond.2 > 0 then insert cond.1 s else s) t.mLastChangedToFalseDimensions
    -- after a stop-all everything has stopped: from now on the default condition is false
    mInitialValue := kFalse
    mSlicedConditionState := ∅ }
  conditionCache := kFalse
  changedCache := !(decide (t.mInitialValue = kFalse) && t.mSlicedConditionState.entries.isEmpty)

def hitGuardRail (t : SimpleConditionTracker) (newKey : HashableDimensionKey) : Bool :=
  if !t.mSliced || (t.mSlicedConditionState.lookup newKey).isSome then false
  else if t.mSlicedConditionState.entries.length > kDimensionKeySizeSoftLimit - 1 then
    decide (t.mSlicedConditionState.entries.length + 1 > kDimensionKeySizeHardLimit)
  else false

/-- The branch of `handleConditionEvent` for a new output key. -/
def handleNewKey (t : SimpleConditionTracker) (outputKey : HashableDimensionKey) (matchStart : Bool) : Evaluation :=
  let newCondition := ofBool matchStart
  if matchStart && decide (t.mInitialValue ≠ kTrue) then
    { tracker := { t with
        mSlicedConditionState := t.mSlicedConditionState.insert outputKey 1
        mLastChangedToTrueDimensions := insert outputKey t.mLastChangedToTrueDimensions }
      conditionCache := newCondition
      changedCache := true }
  else if t.mInitialValue ≠ kFalse then
    -- a stop without history is valuable when the default condition is not false
    { tracker := { t with
        mSlicedConditionState := t.mSlicedConditionState.insert outputKey 0
        mLastChangedToFalseDimensions := insert outputKey t.mLastChangedToFalseDimensions }
      conditionCache := newCondition
      changedCache := true }
  else { tracker := t, conditionCache := newCondition, changedCache := false }

/-- The branch for a start of a key with history. -/
def handleStart (t : SimpleConditionTracker) (outputKey : HashableDimensionKey) (startedCount : Int) : Evaluation where
  tracker := { t with
    mSlicedConditionState := t.mSlicedConditionState.insert outputKey (startedCount + 1)
    mLastChangedToTrueDimensions :=
      if startedCount = 0 then insert outputKey t.mLastChangedToTrueDimensions else t.mLastChangedToTrueDimensions }
  conditionCache := kTrue
  changedCache := decide (startedCount = 0)

/-- The count after a stop: one less when nesting is counted, otherwise none. -/
def countAfterStop (countNesting : Bool) (startedCount : Int) : Int :=
  if startedCount > 0 then (if countNesting then startedCount - 1 else 0) else startedCount

/-- The branch for a stop of a key with history. -/
def handleStop (t : SimpleConditionTracker) (outputKey : HashableDimensionKey) (startedCount : Int) : Evaluation :=
  let newCount := countAfterStop t.mCountNesting startedCount
  -- everything has stopped for this key: true to false
  let changed := decide (startedCount > 0) && decide (newCount = 0)
  { tracker := { t with
      mSlicedConditionState :=
        if t.mInitialValue = kFalse ∧ newCount = 0 then t.mSlicedConditionState.erase outputKey
        else t.mSlicedConditionState.insert outputKey newCount
      mLastChangedToFalseDimensions :=
        if changed then insert outputKey t.mLastChangedToFalseDimensions else t.mLastChangedToFalseDimensions }
    conditionCache := if changed then kFalse else ofBool (startedCount > 0)
    changedCache := changed }

def handleConditionEvent (t : SimpleConditionTracker) (outputKey : HashableDimensionKey) (matchStart : Bool) :
    Evaluation :=
  if t.hitGuardRail outputKey then { tracker := t, conditionCache := kUnknown, changedCache := false }
  else
    match t.mSlicedConditionState.lookup outputKey with
    | none => t.handleNewKey outputKey matchStart
    | some startedCount =>
      if matchStart then t.handleStart outputKey startedCount else t.handleStop outputKey startedCount

/-- The start or stop an event is for the tracker; a stop overrides a start. -/
def matchedState (t : SimpleConditionTracker) (event : MatchedEvent) : Option Bool :=
  if event.matched t.mStopLogMatcherIndex then some false
  else if event.matched t.mStartLogMatcherIndex then some true
  else none

/-- The overall condition reported for an event that matches nothing of the predicate. -/
def overallCondition (t : SimpleConditionTracker) : ConditionState :=
  if t.mSliced then
    if t.mSlicedConditionState.entries.any (fun c => decide (c.2 > 0)) then kTrue else t.mInitialValue
  else
    match t.mSlicedConditionState.lookup DEFAULT_DIMENSION_KEY with
    | none => t.mInitialValue
    | some c => ofBool (c > 0)

/-- The tracker with the changed sets emptied, as every event starts. -/
def cleared (t : SimpleConditionTracker) : SimpleConditionTracker :=
  { t with mLastChangedToTrueDimensions := ∅, mLastChangedToFalseDimensions := ∅ }

def evaluateCondition (t : SimpleConditionTracker) (event : MatchedEvent) (conditionCache : ConditionState)
    (changedCache : Bool) : Evaluation :=
  if conditionCache ≠ kNotEvaluated then ⟨t, conditionCache, changedCache⟩
  else
    let t := t.cleared
    if event.matched t.mStopAllLogMatcherIndex then t.handleStopAll
    else
      match t.matchedState event with
      | none => ⟨t, t.overallCondition, false⟩
      | some matchStart =>
        if t.mOutputDimensions.isEmpty then t.handleConditionEvent DEFAULT_DIMENSION_KEY matchStart
        else if !t.mContainANYPositionInInternalDimensions then
          t.handleConditionEvent (filterValues t.mOutputDimensions event.values) matchStart
        else
          -- the condition tracker should not be sliced by an ANY position matcher
          ⟨t, t.mInitialValue, false⟩

/-- The value of a slice entry. -/
def sliceState (startedCount : Int) : ConditionState := ofBool (startedCount > 0)

/-- `isConditionMet` for the key the query has for this condition, if any. -/
def isConditionMet (t : SimpleConditionTracker) (conditionParameter : Option HashableDimensionKey)
    (isPartialLink : Bool) (conditionCache : ConditionState) : ConditionState :=
  if conditionCache ≠ kNotEvaluated then conditionCache
  else
    let conditionState := kNotEvaluated.or t.mInitialValue
    match conditionParameter with
    | none =>
      if t.mSliced then conditionState
      else
        match t.mSlicedConditionState.lookup DEFAULT_DIMENSION_KEY with
        | some startedCount => conditionState.or (sliceState startedCount)
        | none => conditionState
    | some key =>
      if isPartialLink then
        t.mSlicedConditionState.entries.foldl
          (fun state slice => if slice.1.contains key then state.or (sliceState slice.2) else state) conditionState
      else
        match t.mSlicedConditionState.lookup key with
        | some startedCount => conditionState.or (sliceState startedCount)
        | none => conditionState

def getChangedToTrueDimensions (t : SimpleConditionTracker) : Option (Finset HashableDimensionKey) :=
  if t.mSliced then some t.mLastChangedToTrueDimensions else none

def getChangedToFalseDimensions (t : SimpleConditionTracker) : Option (Finset HashableDimensionKey) :=
  if t.mSliced then some t.mLastChangedToFalseDimensions else none

end SimpleConditionTracker

end Condition

end Statsd
