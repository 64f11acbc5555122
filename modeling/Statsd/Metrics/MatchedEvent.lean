/-
What a metric producer makes of a matched event (onMatchedLogEventLocked of metrics/MetricProducer.cpp,
with getDimensionForState of HashableDimensionKey.cpp): the dimensions in what, the values of the states
the metric is sliced by, the keys of its linked conditions and whether its condition is met. A key in what
belongs to a primary key of a state when it has its values in the linked fields.

The answers of the condition wizard and of the state manager at the time of the event are part of the
call.
-/
import Statsd.Metrics.OringDurationTracker

namespace Statsd

/-- The link between a metric's what event and a state. -/
structure Metric2State where
  stateAtomId : Int
  metricFields : List Matcher
  stateFields : List Matcher

/-- `linked`: a link of the state atom has the two fields at one place. -/
def linked (stateLinks : List Metric2State) (stateAtomId : Int) (stateField metricField : Field) : Bool :=
  stateLinks.any fun stateLink => decide (stateLink.stateAtomId = stateAtomId) &&
    (stateLink.stateFields.zip stateLink.metricFields).any fun fields =>
      decide (fields.1.mMatcher = stateField) && decide (fields.2.mMatcher = metricField)

/-- `containsLinkedStateValues`: each value of the primary key is that of a linked field of the key in what. -/
def containsLinkedStateValues (whatKey primaryKey : HashableDimensionKey) (stateLinks : List Metric2State) (stateAtomId : Int) : Bool :=
  if whatKey.length < primaryKey.length then false
  else primaryKey.all fun primaryValue => whatKey.any fun whatValue =>
    linked stateLinks stateAtomId primaryValue.1 whatValue.1 && decide (primaryValue.2 = whatValue.2)

/-- `filterValues` into a key that may have values already: the found values go to the end of the key, but
their masked fields are written over the fields at its beginning. -/
def filterValuesInto (matcherFields : List Matcher) (values : List (Field × Value)) (output : HashableDimensionKey) :
    HashableDimensionKey :=
  let found := values.flatMap fun value =>
    (matcherFields.filter (value.1.matches ·)).map fun matcher =>
      (value, (⟨value.1.mTag, value.1.mField &&& matcher.mMask⟩ : Field))
  let all := output ++ found.map (·.1)
  found.zipWith (fun f v => (f.2, v.2)) all ++ all.drop found.length

/-- `getDimensionForCondition` and `getDimensionForState` into the key of the link's condition or state. -/
def getDimensionForLink (eventValues : List (Field × Value)) (metricFields linkedFields : List Matcher)
    (output : HashableDimensionKey) : HashableDimensionKey :=
  let dimension := filterValuesInto metricFields eventValues output
  if dimension.length ≠ linkedFields.length then dimension
  else dimension.zipWith (fun v matcher => (matcher.mMatcher, v.2)) linkedFields

namespace Metrics

/-- `StateTracker::kStateUnknown`. -/
def kStateUnknown : Int := -1

/-- How a metric slices its events. -/
structure EventSlicing where
  mDimensionsInWhat : List Matcher
  mConditionSliced : Bool
  mMetric2ConditionLinks : List Metric2Condition
  mMetric2StateLinks : List Metric2State
  mSlicedStateAtoms : List Int
  mStateGroupMap : UMap Int (UMap Int Int)

/-- What is known outside the metric when an event arrives: the answer of the condition wizard to a
condition key, and the field and the state, if known, of a state atom and primary key. -/
structure Outside where
  query : ConditionKey → ConditionState
  getStateValue : Int → HashableDimensionKey → Field × Option Int

/-- An event that matched the metric's what. -/
structure MatchedEvent where
  elapsedTimestampNs : Int
  values : List (Field × Value)
  outside : Outside

namespace EventSlicing

variable (m : EventSlicing)

def queryStateValue (outside : Outside) (atomId : Int) (queryKey : HashableDimensionKey) : Field × Value :=
  match outside.getStateValue atomId queryKey with
  | (field, some state) => (field, .INT state)
  | (field, none) => ({ field with mTag := atomId }, .INT kStateUnknown)

/-- The state value is replaced by its group when the state has groups. -/
def mapStateValue (atomId : Int) (value : Field × Value) : Field × Value :=
  match m.mStateGroupMap.lookup atomId, value.2 with
  | some groups, .INT state =>
    match groups.lookup state with
    | none => (value.1, .INT kStateUnknown)
    | some group => (value.1, .LONG group)
  | _, _ => value

/-- The primary key of each linked state. -/
def statePrimaryKeys (event : MatchedEvent) : UMap Int HashableDimensionKey :=
  m.mMetric2StateLinks.foldl (fun keys stateLink =>
    keys.insert stateLink.stateAtomId (getDimensionForLink event.values stateLink.metricFields stateLink.stateFields
      (UMap.getD keys stateLink.stateAtomId []))) ∅

def stateValuesKey (event : MatchedEvent) : HashableDimensionKey :=
  m.mSlicedStateAtoms.map fun atomId =>
    m.mapStateValue atomId (queryStateValue event.outside atomId
      (UMap.getD (m.statePrimaryKeys event) atomId DEFAULT_DIMENSION_KEY))

def metricKey (event : MatchedEvent) : MetricDimensionKey :=
  ⟨filterValues m.mDimensionsInWhat event.values, m.stateValuesKey event⟩

def conditionKey (event : MatchedEvent) : ConditionKey :=
  m.mMetric2ConditionLinks.foldl (fun keys link =>
    keys.insert link.conditionId (getDimensionForLink event.values link.metricFields link.conditionFields
      (UMap.getD keys link.conditionId []))) ∅

/-- Whether the condition is met: the wizard's answer when it is sliced, the metric's own otherwise. -/
def conditionMet (mCondition : ConditionState) (event : MatchedEvent) : Bool :=
  if m.mConditionSliced then decide (event.outside.query (m.conditionKey event) = .kTrue)
  else decide (mCondition = .kTrue)

end EventSlicing

end Metrics

end Statsd
