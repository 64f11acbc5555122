/-
The trackers of all state atoms (state/StateManager.{h,cpp}). A tracker is there while it has listeners, and hears
the events of its atom that come from the system or from a package that may log states. The listeners are taken to
be alive: the sources hold weak references, and skip those that are gone.

What becomes of the tracker of an atom depends on the calls about that atom only: it is a fresh tracker that has heard
the atom's events since it got its first listener.
-/
import Statsd.Packages.UidMap
import Statsd.State.StateTracker

namespace Statsd

/-- `UidMap::getAppUid(package)`. -/
def Packages.UidMap.getAppUid (m : UidMap) (package : String) : Finset Int :=
  ((m.mMap.entries.filter fun kv => decide (kv.1.2 = package) && !kv.2.deleted).map fun kv => kv.1.1).toFinset

namespace State

open Logd (LogEvent)
open Packages (UidMap)

def AID_ROOT : Int := 0

structure StateManager (Listener : Type) where
  mStateTrackers : UMap Int (StateTracker × Finset Listener)
  mAllowedPkg : Finset String
  mAllowedLogSources : Finset Int

/-- The calls a state manager gets. -/
inductive StateManager.Call (Listener : Type) where
  | registerListener (atomId : Int) (listener : Listener)
  | unregisterListener (atomId : Int) (listener : Listener)
  | logEvent (event : LogEvent)
  | updateLogSources (uidMap : UidMap)
  | notifyAppChanged (apk : String) (uidMap : UidMap)
  | clear

namespace StateManager

variable {Listener : Type} [DecidableEq Listener]

def new : StateManager Listener := ⟨∅, {"com.android.systemui"}, ∅⟩

/-- Whether the state events of a uid are heard, given the uids of the allowed packages. -/
def hears (mAllowedLogSources : Finset Int) (uid : Int) : Bool :=
  decide (uid = AID_ROOT) || (decide (uid ≥ 1000) && decide (uid < 2000)) || decide (uid ∈ mAllowedLogSources)

/-- The manager after an event, and the notifications with the listeners that get them. -/
def onLogEvent (s : StateManager Listener) (event : LogEvent) :
    StateManager Listener × List (Notification × Finset Listener) :=
  if hears s.mAllowedLogSources event.mLogUid then
    match s.mStateTrackers.lookup event.mTagId with
    | some (tracker, listeners) =>
      let (tracker, sent) := tracker.onLogEvent event
      ({ s with mStateTrackers := s.mStateTrackers.insert event.mTagId (tracker, listeners) }, sent.map (·, listeners))
    | none => (s, [])
  else (s, [])

def registerListener (s : StateManager Listener) (atomId : Int) (listener : Listener) : StateManager Listener :=
  let (tracker, listeners) := UMap.getD s.mStateTrackers atomId (StateTracker.new atomId, ∅)
  { s with mStateTrackers := s.mStateTrackers.insert atomId (tracker, insert listener listeners) }

def unregisterListener (s : StateManager Listener) (atomId : Int) (listener : Listener) : StateManager Listener :=
  match s.mStateTrackers.lookup atomId with
  | some (tracker, listeners) =>
    let listeners := listeners.erase listener
    if listeners.card = 0 then { s with mStateTrackers := s.mStateTrackers.erase atomId }
    else { s with mStateTrackers := s.mStateTrackers.insert atomId (tracker, listeners) }
  | none => s

/-- The value, if the atom has a tracker. -/
def getStateValue (s : StateManager Listener) (atomId : Int) (key : HashableDimensionKey) : Option (FieldValue × Bool) :=
  (s.mStateTrackers.lookup atomId).map fun it => it.1.getStateValue key

def updateLogSources (s : StateManager Listener) (uidMap : UidMap) : StateManager Listener :=
  { s with mAllowedLogSources := s.mAllowedPkg.biUnion uidMap.getAppUid }

def notifyAppChanged (s : StateManager Listener) (apk : String) (uidMap : UidMap) : StateManager Listener :=
  if apk ∈ s.mAllowedPkg then s.updateLogSources uidMap else s

def clear (s : StateManager Listener) : StateManager Listener := { s with mStateTrackers := ∅ }

def call (s : StateManager Listener) : Call Listener → StateManager Listener
  | .registerListener atomId listener => s.registerListener atomId listener
  | .unregisterListener atomId listener => s.unregisterListener atomId listener
  | .logEvent event => (s.onLogEvent event).1
  | .updateLogSources uidMap => s.updateLogSources uidMap
  | .notifyAppChanged apk uidMap => s.notifyAppChanged apk uidMap
  | .clear => s.clear

/-! ## One atom -/

/-- The listeners of an atom, and the events that its tracker heard since it got the first of them. -/
structure Subscription (Listener : Type) where
  listeners : Finset Listener
  heard : List LogEvent

/-- The tracker that the atom should have: none without listeners. -/
def Subscription.tracker (atomId : Int) (v : Subscription Listener) : Option (StateTracker × Finset Listener) :=
  if v.listeners = ∅ then none else some (((StateTracker.new atomId).run v.heard).1, v.listeners)

/-- What a call means for an atom, given whose events are heard. -/
def Subscription.follow (atomId : Int) (sources : Finset Int) (v : Subscription Listener) : Call Listener → Subscription Listener
  | .registerListener id listener => if id = atomId then { v with listeners := insert listener v.listeners } else v
  | .unregisterListener id listener =>
    if id = atomId then ⟨v.listeners.erase listener, if v.listeners.erase listener = ∅ then [] else v.heard⟩ else v
  | .logEvent event =>
    if event.mTagId = atomId ∧ hears sources event.mLogUid = true ∧ v.listeners ≠ ∅ then { v with heard := v.heard ++ [event] }
    else v
  | .updateLogSources _ | .notifyAppChanged _ _ => v
  | .clear => ⟨∅, []⟩

/-- The manager has the right tracker for the atom, and an atom without listeners has heard nothing. -/
def Tracks (atomId : Int) (s : StateManager Listener) (v : Subscription Listener) : Prop :=
  s.mStateTrackers.lookup atomId = v.tracker atomId ∧ (v.listeners = ∅ → v.heard = [])

theorem run_append (t : StateTracker) (events : List LogEvent) (event : LogEvent) :
    (t.run (events ++ [event])).1 = ((t.run events).1.onLogEvent event).1 := by
  simp [StateTracker.run, List.foldl_append]

variable {atomId : Int} {s : StateManager Listener} {v : Subscription Listener}

theorem Tracks.register (h : Tracks atomId s v) (id : Int) (listener : Listener) :
    Tracks atomId (s.registerListener id listener) (v.follow atomId s.mAllowedLogSources (.registerListener id listener)) := by
  obtain ⟨hlookup, hidle⟩ := h
  simp only [registerListener, Subscription.follow, Tracks]
  rw [UMap.lookup_insert']
  by_cases hid : id = atomId
  · subst hid
    unfold UMap.getD
    rw [if_pos rfl, if_pos rfl, hlookup]
    unfold Subscription.tracker
    by_cases hempty : v.listeners = ∅
    · simp [hempty, hidle hempty, StateTracker.run]
    · simp [hempty]
  · rw [if_neg (Ne.symm hid), if_neg hid]
    exact ⟨hlookup, hidle⟩

theorem Tracks.unregister (h : Tracks atomId s v) (id : Int) (listener : Listener) :
    Tracks atomId (s.unregisterListener id listener) (v.follow atomId s.mAllowedLogSources (.unregisterListener id listener)) := by
  obtain ⟨hlookup, hidle⟩ := h
  simp only [unregisterListener, Subscription.follow, Tracks]
  by_cases hid : id = atomId
  · subst hid
    rw [if_pos rfl, hlookup]
    unfold Subscription.tracker
    by_cases hempty : v.listeners = ∅
    · simp only [hempty, if_true, Finset.erase_empty]
      exact ⟨by rw [hlookup, Subscription.tracker, if_pos hempty], fun _ => trivial⟩
    · by_cases hlast : v.listeners.erase listener = ∅
      · simp [hempty, hlast]
      · simp [hempty, hlast]
  · rw [if_neg hid]
    refine ⟨?_, hidle⟩
    cases s.mStateTrackers.lookup id with
    | none => exact hlookup
    | some it =>
      dsimp only
      split
      · rw [UMap.lookup_erase', if_neg (Ne.symm hid)]
        exact hlookup
      · rw [UMap.lookup_insert', if_neg (Ne.symm hid)]
        exact hlookup

theorem Tracks.logEvent (h : Tracks atomId s v) (event : LogEvent) :
    Tracks atomId (s.onLogEvent event).1 (v.follow atomId s.mAllowedLogSources (.logEvent event)) := by
  obtain ⟨hlookup, hidle⟩ := h
  simp only [onLogEvent, Subscription.follow, Tracks]
  cases hhears : hears s.mAllowedLogSources event.mLogUid with
  | false => simpa using ⟨hlookup, hidle⟩
  | true =>
    by_cases htag : event.mTagId = atomId
    · rw [htag, hlookup]
      unfold Subscription.tracker
      by_cases hempty : v.listeners = ∅
      · simp [hempty, hidle hempty, hlookup, Subscription.tracker]
      · simp [hempty, run_append]
    · simp only [htag, false_and, if_false, if_true]
      refine ⟨?_, hidle⟩
      cases s.mStateTrackers.lookup event.mTagId with
      | none => exact hlookup
      | some it =>
        dsimp only
        rw [UMap.lookup_insert', if_neg (Ne.symm htag)]
        exact hlookup

theorem Tracks.call (h : Tracks atomId s v) (c : Call Listener) :
    Tracks atomId (s.call c) (v.follow atomId s.mAllowedLogSources c) := by
  cases c with
  | registerListener id listener => exact h.register id listener
  | unregisterListener id listener => exact h.unregister id listener
  | logEvent event => exact h.logEvent event
  | updateLogSources uidMap => exact h
  | notifyAppChanged apk uidMap =>
    unfold StateManager.call notifyAppChanged
    dsimp only
    split
    · exact h
    · exact h
  | clear => exact ⟨rfl, fun _ => rfl⟩

end StateManager

end State

end Statsd
