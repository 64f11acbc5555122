/-
The cache of a puller (external/StatsPuller.{h,cpp}). A pull for the event time of the last one, or within the cool-down of it, is
answered from the cache; any other calls `PullInternal`. Whether there is good data, when the last pull was and for which event are
kept in three members; to clear the cache resets the two times only, to 0.

`PullInternal` and the clock are outside: a call has the outcome and the readings. So is the uid map, which may change between calls.
A merge that reads outside the values of an event does not return (`none`).
-/
import Statsd.Base.Run
import Statsd.External.MergeGroups
import Statsd.StatsLogUtil

namespace Statsd.External

open Logd (LogEvent)

structure StatsPuller where
  mTagId : Int
  mCoolDownNs : Int
  mPullTimeoutNs : Int
  mAdditiveFields : Finset Nat
  mHasGoodData : Bool := false
  mLastPullTimeNs : Int := 0
  mLastEventTimeNs : Int := 0
  mCachedData : List LogEvent := []

/-- A call of `Pull`: the clock before it, the outcome of `PullInternal` and the clock after that, if it is called. -/
structure PullCall where
  eventTimeNs : Int
  elapsedTimeNs : Int
  success : Bool
  data : List LogEvent
  elapsedAfterNs : Int
  mIsolatedUidMap : UMap Int Int

namespace StatsPuller

variable (sorting : Sorting)

def shouldUseCache (p : StatsPuller) (c : PullCall) : Bool :=
  decide (p.mLastEventTimeNs = c.eventTimeNs) || decide (c.elapsedTimeNs - p.mLastPullTimeNs < p.mCoolDownNs)

/-- The data with the isolated uids merged; there is nothing to merge in no data. -/
def mergedData (p : StatsPuller) (c : PullCall) : Option (List LogEvent) :=
  if c.data.length > 0 then mapAndMergeIsolatedUidsToHostUid sorting c.mIsolatedUidMap p.mTagId p.mAdditiveFields c.data
  else some c.data

/-- The call of `PullInternal` is over in time. -/
def inTime (p : StatsPuller) (c : PullCall) : Bool := decide (c.elapsedAfterNs - c.elapsedTimeNs ≤ p.mPullTimeoutNs)

/-- `Pull`: the data, if it returns true. -/
def Pull (p : StatsPuller) (c : PullCall) : Option (StatsPuller × Option (List LogEvent)) :=
  if p.shouldUseCache c then some (p, if p.mHasGoodData then some p.mCachedData else none)
  else
    let p := { p with mLastPullTimeNs := c.elapsedTimeNs, mLastEventTimeNs := c.eventTimeNs }
    -- what a failed pull left stays in the cache
    if !c.success then some ({ p with mCachedData := c.data, mHasGoodData := false }, none)
    else if !p.inTime c then some ({ p with mCachedData := [], mHasGoodData := false }, none)
    else (p.mergedData sorting c).map fun data => ({ p with mCachedData := data, mHasGoodData := true }, some data)

/-- `clearCacheLocked`, with the number of events that were in the cache. -/
def clearCacheLocked (p : StatsPuller) : StatsPuller × Nat :=
  ({ p with mCachedData := [], mLastPullTimeNs := 0, mLastEventTimeNs := 0 }, p.mCachedData.length)

def ForceClearCache (p : StatsPuller) : StatsPuller × Nat := p.clearCacheLocked

def ClearCacheIfNecessary (p : StatsPuller) (timestampNs : Int) : StatsPuller × Nat :=
  if timestampNs - p.mLastPullTimeNs > p.mCoolDownNs then p.clearCacheLocked else (p, 0)

end StatsPuller

/-! ## Calls, and what was last pulled -/

inductive PullerCall where
  | Pull (c : PullCall)
  | ForceClearCache
  | ClearCacheIfNecessary (timestampNs : Int)

/-- A call of `PullInternal`: its event, its time, and the merged data if it succeeded in time. -/
structure InternalPull where
  eventTimeNs : Int
  elapsedTimeNs : Int
  good : Option (List LogEvent)

/-- A puller, the last call of `PullInternal`, whether the cache was cleared since, and what the last call of `Pull` was and
returned. -/
structure ObservedPuller where
  puller : StatsPuller
  last : Option InternalPull := none
  cleared : Bool := false
  returned : Option (PullCall × Option (List LogEvent)) := none

namespace ObservedPuller

variable (sorting : Sorting)

def pulled (x : ObservedPuller) (c : PullCall) : Option ObservedPuller :=
  (x.puller.Pull sorting c).map fun r =>
    if x.puller.shouldUseCache c then { x with puller := r.1, returned := some (c, r.2) }
    else ⟨r.1, some ⟨c.eventTimeNs, c.elapsedTimeNs, r.2⟩, false, some (c, r.2)⟩

def step (x : ObservedPuller) : PullerCall → Option ObservedPuller
  | .Pull c => x.pulled sorting c
  | .ForceClearCache => some { x with puller := x.puller.ForceClearCache.1, cleared := true, returned := none }
  | .ClearCacheIfNecessary timestampNs =>
    some { x with
      puller := (x.puller.ClearCacheIfNecessary timestampNs).1
      cleared := x.cleared || decide (timestampNs - x.puller.mLastPullTimeNs > x.puller.mCoolDownNs)
      returned := none }

/-- What the last call of `Pull` returned is good, fresh data. -/
def Served (x : ObservedPuller) : Prop :=
  ∀ c data, x.returned = some (c, some data) → ∃ l, x.last = some l ∧ l.good = some data ∧ x.cleared = false ∧
    (l.eventTimeNs = c.eventTimeNs ∨ c.elapsedTimeNs - l.elapsedTimeNs < x.puller.mCoolDownNs)

/-- The call is no pull from a cleared cache that is still marked as good, for an event at time 0 or within the cool-down of time 0. -/
def MissesCleared (x : ObservedPuller) : PullerCall → Prop
  | .Pull c => x.cleared = true → x.puller.mHasGoodData = true → c.eventTimeNs ≠ 0 ∧ x.puller.mCoolDownNs ≤ c.elapsedTimeNs
  | _ => True

/-! ## The invariant -/

/-- What the members of the puller say of the last call of `PullInternal`. -/
structure Inv (x : ObservedPuller) : Prop where
  good : x.puller.mHasGoodData = (x.last.bind (·.good)).isSome
  kept : x.cleared = false → ∀ l, x.last = some l →
    x.puller.mLastEventTimeNs = l.eventTimeNs ∧ x.puller.mLastPullTimeNs = l.elapsedTimeNs ∧
      ∀ data, l.good = some data → x.puller.mCachedData = data
  reset : x.cleared = true → x.puller.mLastEventTimeNs = 0 ∧ x.puller.mLastPullTimeNs = 0

section

variable {sorting : Sorting} {x y : ObservedPuller}

theorem Inv.clear (h : x.Inv) : ObservedPuller.Inv { x with puller := x.puller.clearCacheLocked.1, cleared := true, returned := none } where
  good := h.good
  kept hc := by cases hc
  reset _ := ⟨rfl, rfl⟩

theorem pulled_cached (sorting : Sorting) {c : PullCall} (hcache : x.puller.shouldUseCache c = true) :
    x.pulled sorting c = some { x with returned := some (c, if x.puller.mHasGoodData then some x.puller.mCachedData else none) } := by
  unfold pulled StatsPuller.Pull
  rw [if_pos hcache, Option.map_some, if_pos hcache]

theorem Inv.pulled_internal {c : PullCall} (hcache : x.puller.shouldUseCache c = false) (h : x.pulled sorting c = some y) :
    y.Inv ∧ y.Served := by
  have hno : ¬ x.puller.shouldUseCache c = true := by rw [hcache]; exact Bool.noConfusion
  unfold pulled at h
  obtain ⟨⟨p, data⟩, hpull, hy⟩ := Option.map_eq_some_iff.1 h
  rw [if_neg hno] at hy
  subst hy
  -- the members are those of this pull
  have hp : p.mHasGoodData = data.isSome ∧ p.mLastEventTimeNs = c.eventTimeNs ∧ p.mLastPullTimeNs = c.elapsedTimeNs ∧
      ∀ d, data = some d → p.mCachedData = d := by
    unfold StatsPuller.Pull at hpull
    rw [if_neg hno] at hpull
    dsimp only at hpull
    split at hpull
    · cases hpull
      exact ⟨rfl, rfl, rfl, fun d hd => (by cases hd)⟩
    · split at hpull
      · cases hpull
        exact ⟨rfl, rfl, rfl, fun d hd => (by cases hd)⟩
      · obtain ⟨merged, -, hmerged⟩ := Option.map_eq_some_iff.1 hpull
        cases hmerged
        refine ⟨rfl, rfl, rfl, fun d hd => ?_⟩
        cases hd
        rfl
  obtain ⟨hgood, hevent, htime, hdata⟩ := hp
  refine ⟨⟨hgood, fun _ l hl => ?_, fun hc => by cases hc⟩, fun c' d hret => ?_⟩
  · cases hl
    exact ⟨hevent, htime, hdata⟩
  · cases hret
    exact ⟨_, rfl, rfl, rfl, .inl rfl⟩

theorem Inv.step (h : x.Inv) {call : PullerCall} (hok : x.MissesCleared call) (hy : x.step sorting call = some y) : y.Inv ∧ y.Served := by
  cases call with
  | Pull c =>
    cases hcache : x.puller.shouldUseCache c with
    | false => exact Inv.pulled_internal hcache hy
    | true =>
      have hy' := (pulled_cached sorting hcache).symm.trans hy
      cases hy'
      refine ⟨⟨h.good, h.kept, h.reset⟩, fun c' data hret => ?_⟩
      obtain ⟨hc, hdata⟩ := Prod.mk.inj (Option.some.inj hret)
      subst hc
      split at hdata
      · rename_i hgood
        cases hdata
        unfold StatsPuller.shouldUseCache at hcache
        rw [Bool.or_eq_true, decide_eq_true_iff, decide_eq_true_iff] at hcache
        have hclear : x.cleared = false := by
          by_contra hne
          have hcleared := Bool.of_not_eq_false hne
          obtain ⟨hevent, hcool⟩ := hok hcleared hgood
          obtain ⟨hzero, hzero'⟩ := h.reset hcleared
          rw [hzero, hzero'] at hcache
          rcases hcache with heq | hlt
          · exact hevent heq.symm
          · omega
        have hlast := h.good
        rw [hgood] at hlast
        obtain ⟨d, hd⟩ := Option.isSome_iff_exists.1 hlast.symm
        obtain ⟨l, hl, hld⟩ := Option.bind_eq_some_iff.1 hd
        obtain ⟨hevent, htime, hcached⟩ := h.kept hclear l hl
        refine ⟨l, hl, ?_, hclear, ?_⟩
        · rw [hcached d hld]
          exact hld
        · rw [← hevent, ← htime]
          exact hcache
      · cases hdata
  | ForceClearCache =>
    cases hy
    exact ⟨h.clear, fun c data hret => by cases hret⟩
  | ClearCacheIfNecessary timestampNs =>
    cases hy
    refine ⟨?_, fun c data hret => by cases hret⟩
    unfold StatsPuller.ClearCacheIfNecessary
    by_cases hlong : timestampNs - x.puller.mLastPullTimeNs > x.puller.mCoolDownNs
    · rw [if_pos hlong, decide_eq_true hlong, Bool.or_true]
      exact h.clear
    · rw [if_neg hlong, decide_eq_false hlong, Bool.or_false]
      exact ⟨h.good, h.kept, h.reset⟩

end

/-! ## Runs -/

/-- A puller as the constructor leaves it. -/
def new (mTagId mCoolDownNs mPullTimeoutNs : Int) (mAdditiveFields : Finset Nat) : ObservedPuller where
  puller := { mTagId, mCoolDownNs, mPullTimeoutNs, mAdditiveFields }

/-- A call after calls that returned. -/
def next (x : Option ObservedPuller) (call : PullerCall) : Option ObservedPuller := x.bind (·.step sorting call)

end ObservedPuller

end Statsd.External
