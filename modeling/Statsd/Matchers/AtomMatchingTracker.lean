/-
Atom matching trackers (matchers/*AtomMatchingTracker.cpp, matcher_util.cpp). A tracker only looks at
events of its own atom ids; a combination evaluates its children first, and every result is kept in a
cache for the event, so that each tracker is evaluated once whatever the order of the calls.

The test of a simple matcher on an event of its atom is a parameter of the tracker.
-/
import Statsd.FieldValue

namespace Statsd

inductive MatchingState where
  | kNotComputed | kNotMatched | kMatched
deriving DecidableEq

inductive LogicalOperation where
  | LOGICAL_OPERATION_UNSPECIFIED | AND | OR | NOT | NAND | NOR
deriving DecidableEq

/-- The operation on the results of the children. -/
def LogicalOperation.eval : LogicalOperation → List Bool → Bool
  | .AND, l => l.all id
  | .OR, l => l.any id
  | .NOT, [] => false
  | .NOT, b :: _ => !b
  | .NAND, l => !l.all id
  | .NOR, l => !l.any id
  | .LOGICAL_OPERATION_UNSPECIFIED, _ => false

namespace Matchers

/-- The event as matchers and metrics see it. -/
structure LogEvent where
  tagId : Int
  elapsedTimestampNs : Int
  values : List FieldValue

inductive MatcherKind where
  | simple (matchesSimple : LogEvent → Bool)
  | combination (mLogicalOperation : LogicalOperation) (mChildren : List Nat)

structure AtomMatchingTracker where
  mAtomIds : Finset Int
  kind : MatcherKind

/-- The results of the trackers for one event, by index. -/
abbrev MatcherCache := Nat → MatchingState

def combinationMatch (children : List Nat) (operation : LogicalOperation) (matcherResults : MatcherCache) : Bool :=
  match operation with
  | .AND => children.all fun c => decide (matcherResults c = .kMatched)
  | .OR => children.any fun c => decide (matcherResults c = .kMatched)
  | .NOT => decide (matcherResults (children.headD 0) = .kNotMatched)
  | .NAND => children.any fun c => decide (matcherResults c ≠ .kMatched)
  | .NOR => !children.any fun c => decide (matcherResults c = .kMatched)
  | .LOGICAL_OPERATION_UNSPECIFIED => false

/-- `matched ? kMatched : kNotMatched`. -/
def matchingState (matched : Bool) : MatchingState := if matched then .kMatched else .kNotMatched

/-- `onLogEvent` of the tracker at an index. The children of a combination are below it in a graph
without cycles, so the number of trackers bounds the depth. -/
def onLogEvent (trackers : List AtomMatchingTracker) (event : LogEvent) : Nat → Nat → MatcherCache → MatcherCache
  | 0, _, cache => cache
  | fuel + 1, mIndex, cache =>
    match trackers[mIndex]? with
    | none => cache
    | some t =>
      if cache mIndex ≠ .kNotComputed then cache
      else if event.tagId ∉ t.mAtomIds then Function.update cache mIndex .kNotMatched
      else
        match t.kind with
        | .simple matchesSimple => Function.update cache mIndex (matchingState (matchesSimple event))
        | .combination operation children =>
          let cache := children.foldl
            (fun cache child => if cache child = .kNotComputed then onLogEvent trackers event fuel child cache else cache)
            cache
          Function.update cache mIndex (matchingState (combinationMatch children operation cache))

/-- The loop of the metrics manager over all trackers, from an empty cache. -/
def matcherCache (trackers : List AtomMatchingTracker) (event : LogEvent) : MatcherCache :=
  (List.range trackers.length).foldl (fun cache i => onLogEvent trackers event trackers.length i cache)
    fun _ => .kNotComputed

/-- What is matched is an event of the tracker's atoms. -/
def OfAtoms (trackers : List AtomMatchingTracker) (event : LogEvent) (cache : MatcherCache) : Prop :=
  ∀ i, cache i = .kMatched → ∃ t, trackers[i]? = some t ∧ event.tagId ∈ t.mAtomIds

theorem OfAtoms.update {trackers : List AtomMatchingTracker} {event : LogEvent} {cache : MatcherCache}
    (h : OfAtoms trackers event cache) {i : Nat} {t : AtomMatchingTracker} (ht : trackers[i]? = some t)
    (hm : event.tagId ∈ t.mAtomIds) (s : MatchingState) : OfAtoms trackers event (Function.update cache i s) := by
  intro j hj
  by_cases hji : j = i
  · subst hji; exact ⟨t, ht, hm⟩
  · rw [Function.update_of_ne hji] at hj; exact h j hj

theorem OfAtoms.foldl {trackers : List AtomMatchingTracker} {event : LogEvent} {α : Type}
    {f : MatcherCache → α → MatcherCache}
    (hf : ∀ cache a, OfAtoms trackers event cache → OfAtoms trackers event (f cache a)) :
    ∀ (l : List α) {cache : MatcherCache}, OfAtoms trackers event cache → OfAtoms trackers event (l.foldl f cache)
  | [], _, h => h
  | a :: l, _, h => OfAtoms.foldl hf l (hf _ a h)

theorem onLogEvent_ofAtoms (trackers : List AtomMatchingTracker) (event : LogEvent) :
    ∀ (fuel mIndex : Nat) (cache : MatcherCache), OfAtoms trackers event cache →
      OfAtoms trackers event (onLogEvent trackers event fuel mIndex cache)
  | 0, _, _, h => h
  | fuel + 1, mIndex, cache, h => by
    unfold onLogEvent
    cases ht : trackers[mIndex]? with
    | none => exact h
    | some t =>
      dsimp only
      split
      · exact h
      split
      · intro j hj
        by_cases hji : j = mIndex
        · subst hji; rw [Function.update_self] at hj; cases hj
        · rw [Function.update_of_ne hji] at hj; exact h j hj
      · rename_i hm
        have hm : event.tagId ∈ t.mAtomIds := by simpa using hm
        cases t.kind with
        | simple matchesSimple => exact h.update ht hm _
        | combination operation children =>
          refine OfAtoms.update ?_ ht hm _
          refine OfAtoms.foldl (fun cache child hc => ?_) children h
          split
          · exact onLogEvent_ofAtoms trackers event fuel child cache hc
          · exact hc

theorem matcherCache_ofAtoms (trackers : List AtomMatchingTracker) (event : LogEvent) :
    OfAtoms trackers event (matcherCache trackers event) := by
  refine OfAtoms.foldl (fun cache i h => onLogEvent_ofAtoms trackers event _ i cache h) _ ?_
  intro i hi
  cases hi

end Matchers

end Statsd
