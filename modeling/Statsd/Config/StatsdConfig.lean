/-
The matchers and predicates of a config (the messages AtomMatcher and Predicate of statsd_config.proto).
What a simple matcher asks of the fields of an atom is a type of its own: it is only read by the test of
the matcher on an event and by the hash of the message.
-/
import Statsd.Condition.SimpleConditionTracker

namespace Statsd.Config

open Condition (InitialValue)

/-- `SimpleAtomMatcher`. -/
structure SimpleAtomMatcher (F : Type) where
  atom_id : Option Int
  field_value_matcher : F

/-- The `contents` of an `AtomMatcher`. -/
inductive MatcherContents (F : Type) where
  | CONTENTS_NOT_SET
  | simple_atom_matcher (matcher : SimpleAtomMatcher F)
  | combination (operation : Option LogicalOperation) (matcher : List Int)

structure AtomMatcher (F : Type) where
  id : Int
  contents : MatcherContents F

/-- The matchers a matcher is made of. -/
def MatcherContents.children {F : Type} : MatcherContents F → List Int
  | CONTENTS_NOT_SET => []
  | simple_atom_matcher _ => []
  | combination _ matcher => matcher

/-- `SimplePredicate`, with the ids of its matchers. -/
structure SimplePredicate where
  start : Option Int
  stop : Option Int
  count_nesting : Bool
  stop_all : Option Int
  initial_value : InitialValue
  dimensions : Option FieldMatcher

/-- The matchers a simple predicate names. -/
def SimplePredicate.matchers (p : SimplePredicate) : List Int :=
  p.start.toList ++ p.stop.toList ++ p.stop_all.toList

/-- The `contents` of a `Predicate`. -/
inductive PredicateContents where
  | CONTENTS_NOT_SET
  | simple_predicate (predicate : SimplePredicate)
  | combination (operation : Option LogicalOperation) (predicate : List Int)

structure Predicate where
  id : Int
  contents : PredicateContents

namespace PredicateContents

/-- The predicates a predicate is made of. -/
def children : PredicateContents → List Int
  | CONTENTS_NOT_SET => []
  | simple_predicate _ => []
  | combination _ predicate => predicate

/-- The matchers a predicate names. -/
def matchers : PredicateContents → List Int
  | CONTENTS_NOT_SET => []
  | simple_predicate predicate => predicate.matchers
  | combination _ _ => []

end PredicateContents

structure StatsdConfig (F : Type) where
  atom_matcher : List (AtomMatcher F)
  predicate : List Predicate

/-- A tracker for every message of a list that starts at an index, unless one cannot be made. -/
def makeTrackers {M T : Type} (make : Nat → M → Option T) : Nat → List M → Option (List T)
  | _, [] => some []
  | i, m :: l =>
    match make i m with
    | none => none
    | some t => (makeTrackers make (i + 1) l).map (t :: ·)

theorem makeTrackers_get {M T : Type} {make : Nat → M → Option T} {i : Nat} {l : List M} {trackers : List T}
    (h : makeTrackers make i l = some trackers) :
    trackers.length = l.length ∧ ∀ j m, l[j]? = some m → ∃ t, trackers[j]? = some t ∧ make (i + j) m = some t := by
  induction l generalizing i trackers with
  | nil =>
    cases h
    exact ⟨rfl, fun j m hm => by cases hm⟩
  | cons m l ih =>
    rw [makeTrackers] at h
    cases ht : make i m with
    | none => rw [ht] at h; cases h
    | some t =>
      rw [ht] at h
      obtain ⟨ts, hts, rfl⟩ := Option.map_eq_some_iff.1 h
      obtain ⟨hlen, hget⟩ := ih hts
      refine ⟨congrArg (· + 1) hlen, fun j m' hm' => ?_⟩
      cases j with
      | zero =>
        cases hm'
        exact ⟨t, rfl, ht⟩
      | succ j =>
        obtain ⟨t', ht', hmake⟩ := hget j m' hm'
        exact ⟨t', ht', by rwa [Nat.add_assoc, Nat.add_comm 1 j] at hmake⟩

end Statsd.Config
