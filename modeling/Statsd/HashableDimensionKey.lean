/-
Dimension keys (HashableDimensionKey.{h,cpp}): the values of an event picked out by matchers, with
their fields masked. Keys are compared by field and value only, so a key is a list of such pairs.
-/
import Statsd.FieldValue

namespace Statsd

abbrev HashableDimensionKey := List (Field × Value)

def DEFAULT_DIMENSION_KEY : HashableDimensionKey := []

/-- A dimension key together with the state values the metric is sliced by. -/
structure MetricDimensionKey where
  mDimensionKeyInWhat : HashableDimensionKey
  mStateValuesKey : HashableDimensionKey
deriving DecidableEq

/-- The link between a metric's what event and a condition. -/
structure Metric2Condition where
  conditionId : Int
  metricFields : List Matcher
  conditionFields : List Matcher

/-- `filterValues(matcherFields, values, output)`: one entry for each value and each matcher it
matches, with the field masked. -/
def filterValues (matcherFields : List Matcher) (values : List (Field × Value)) : HashableDimensionKey :=
  values.flatMap fun value =>
    (matcherFields.filter (value.1.matches ·)).map fun matcher =>
      (⟨value.1.mTag, value.1.mField &&& matcher.mMask⟩, value.2)

/-- The fields and values of an event. -/
def fieldsOf (values : List FieldValue) : List (Field × Value) := values.map fun v => (v.mField, v.mValue)

/-- `getDimensionForCondition`: the linked values of the event under the condition's fields, or under
their own when the counts differ. -/
def getDimensionForCondition (eventValues : List (Field × Value)) (links : Metric2Condition) :
    HashableDimensionKey :=
  let conditionDimension := filterValues links.metricFields eventValues
  if conditionDimension.length ≠ links.conditionFields.length then conditionDimension
  else conditionDimension.zipWith (fun v matcher => (matcher.mMatcher, v.2)) links.conditionFields

/-- `contains`: equal when of the same length, otherwise every value of `that` occurs in `this`. -/
def HashableDimensionKey.contains (this that : HashableDimensionKey) : Bool :=
  if this.length < that.length then false
  else if this.length = that.length then decide (this = that)
  else that.all fun value => decide (value ∈ this)

end Statsd
