/-
What a listener of a state tracker sees: for each primary key a chain of notifications that ends at the
state the tracker answers, an event that changes its own key only, a reset that changes every tracked key,
and for nested states one event with another state for each event with the state, counted from the event
that entered it or from the last reset.

Everything is read off the effect of an event on the entry of one key.
-/
import Statsd.State.StateTracker

namespace Statsd.State

open Logd (LogEvent)

/-! ## The entry of a key -/

/-- The state an entry stands for. -/
def value (entry : Option StateValueInfo) : Int := (entry.map (·.state)).getD kStateUnknown

@[simp] theorem value_none : value none = kStateUnknown := rfl

@[simp] theorem value_some (info : StateValueInfo) : value (some info) = info.state := rfl

/-- The entry after a state of its key was seen. -/
def StateValueInfo.next (info : StateValueInfo) (state : Int) (nested : Bool) : Option StateValueInfo :=
  if state = kStateUnknown then none
  else if nested = false ∨ info.state = kStateUnknown then some ⟨state, 1⟩
  else if info.state = state then some { info with count := info.count + 1 }
  else if info.count = 1 then some ⟨state, 1⟩
  else some { info with count := info.count - 1 }

theorem value_next_other {info : StateValueInfo} {state : Int} {nested : Bool}
    (h : value (info.next state nested) ≠ info.state) : value (info.next state nested) = state := by
  unfold StateValueInfo.next at h ⊢
  split at h
  · rename_i hs; rw [if_pos hs, value_none, hs]
  · rename_i hs
    rw [if_neg hs]
    split at h
    · rename_i hn; rw [if_pos hn, value_some]
    · rename_i hn
      rw [if_neg hn]
      split at h
      · exact absurd rfl h
      · rename_i hsame
        rw [if_neg hsame]
        split at h
        · rename_i hone; rw [if_pos hone, value_some]
        · exact absurd rfl h

/-- The notifications of a key. -/
def notificationsOf (key : HashableDimensionKey) (sent : List Notification) : List Notification :=
  sent.filter (·.primaryKey = key)

@[simp] theorem notificationsOf_nil (key : HashableDimensionKey) : notificationsOf key [] = [] := rfl

@[simp] theorem notificationsOf_append (key : HashableDimensionKey) (sent sent' : List Notification) :
    notificationsOf key (sent ++ sent') = notificationsOf key sent ++ notificationsOf key sent' :=
  List.filter_append ..

/-! ## Chains -/

/-- The notifications lead from one state to another: each starts from the state the one before it ended at,
and ends at another state. -/
inductive Chain : Int → List Notification → Int → Prop
  | nil {v : Int} : Chain v [] v
  | cons {v w v' : Int} {n : Notification} {sent : List Notification} : n.oldState.mValue = .INT v →
      n.newState.mValue = .INT w → w ≠ v → Chain w sent v' → Chain v (n :: sent) v'

theorem Chain.append {v w v' : Int} {sent sent' : List Notification} (h : Chain v sent w) (h' : Chain w sent' v') :
    Chain v (sent ++ sent') v' := by
  induction h with
  | nil => exact h'
  | cons hold hnew hne _ ih => exact .cons hold hnew hne (ih h')

theorem Chain.last {v v' : Int} {sent : List Notification} (h : Chain v sent v') :
    (sent.getLast?.map (·.newState.mValue)).getD (.INT v) = .INT v' := by
  induction h with
  | nil => rfl
  | @cons v w v' n sent _ hnew _ _ ih =>
    cases sent with
    | nil => simpa [hnew] using ih
    | cons n' sent =>
      rw [List.getLast?_cons_cons]
      rw [List.getLast?_cons] at ih ⊢
      exact ih

/-! ## One update -/

namespace StateTracker

theorem updateStateForPrimaryKey_entry (t : StateTracker) (eventTimeNs : Int) (primaryKey key : HashableDimensionKey)
    (newState : FieldValue) (nested : Bool) (info : StateValueInfo) :
    (t.updateStateForPrimaryKey eventTimeNs primaryKey newState nested info).1.mStateMap.lookup key =
      if key = primaryKey then info.next newState.mValue.int_value nested else t.mStateMap.lookup key := by
  unfold updateStateForPrimaryKey StateValueInfo.next
  cases nested with
  | false =>
    by_cases hun : newState.mValue.int_value = kStateUnknown
    · simp [hun, UMap.lookup_erase']
    · simp [hun, Ne.symm hun, UMap.lookup_insert']
  | true =>
    by_cases hun : newState.mValue.int_value = kStateUnknown
    · simp [hun, UMap.lookup_erase']
    · by_cases hold : info.state = kStateUnknown
      · simp [hun, Ne.symm hun, hold, UMap.lookup_insert']
      · by_cases hsame : info.state = newState.mValue.int_value
        · simp [hun, Ne.symm hun, hsame, UMap.lookup_insert']
        · by_cases hone : info.count = 1
          · simp [hun, Ne.symm hun, hold, hsame, hone, UMap.lookup_insert']
          · have hone' : ¬ info.count - 1 = 0 := by omega
            simp [hun, Ne.symm hun, hold, hsame, hone, hone', UMap.lookup_insert']

theorem updateStateForPrimaryKey_sent (t : StateTracker) (eventTimeNs : Int) (primaryKey : HashableDimensionKey)
    (newState : FieldValue) (nested : Bool) (info : StateValueInfo) :
    (t.updateStateForPrimaryKey eventTimeNs primaryKey newState nested info).2 =
      if value (info.next newState.mValue.int_value nested) ≠ info.state then
        [⟨eventTimeNs, t.mField.mTag, primaryKey, ⟨t.mField, .INT info.state, {}⟩, newState⟩] else [] := by
  unfold updateStateForPrimaryKey StateValueInfo.next
  cases nested with
  | false =>
    by_cases hun : newState.mValue.int_value = kStateUnknown
    · simp [hun, eq_comm]
    · simp [hun, eq_comm]
  | true =>
    by_cases hun : newState.mValue.int_value = kStateUnknown
    · simp [hun]
    · by_cases hold : info.state = kStateUnknown
      · simp [hun, Ne.symm hun, hold]
      · by_cases hsame : info.state = newState.mValue.int_value
        · simp [hun, Ne.symm hun, hsame]
        · by_cases hone : info.count = 1
          · simp [hun, Ne.symm hun, hold, hsame, Ne.symm hsame, hone]
          · have hone' : ¬ info.count - 1 = 0 := by omega
            simp [hun, Ne.symm hun, hold, hsame, hone, hone']

theorem updateStateForPrimaryKey_other (t : StateTracker) (eventTimeNs : Int)
    {primaryKey key : HashableDimensionKey} (newState : FieldValue) (nested : Bool) (info : StateValueInfo)
    (hkey : key ≠ primaryKey) :
    notificationsOf key (t.updateStateForPrimaryKey eventTimeNs primaryKey newState nested info).2 = [] := by
  rw [updateStateForPrimaryKey_sent]
  split
  · exact List.filter_cons_of_neg (by simpa using Ne.symm hkey)
  · rfl

theorem updateStateForPrimaryKey_chain (t : StateTracker) (eventTimeNs : Int) (primaryKey : HashableDimensionKey)
    (newState : FieldValue) (hint : newState.mValue = .INT newState.mValue.int_value) (nested : Bool)
    (info : StateValueInfo) (key : HashableDimensionKey) :
    if key = primaryKey then
      Chain info.state
        (notificationsOf key (t.updateStateForPrimaryKey eventTimeNs primaryKey newState nested info).2)
        (value (info.next newState.mValue.int_value nested))
    else notificationsOf key (t.updateStateForPrimaryKey eventTimeNs primaryKey newState nested info).2 = [] := by
  split
  · rename_i hkey
    rw [updateStateForPrimaryKey_sent]
    split
    · rename_i hne
      rw [show notificationsOf key [_] = [_] from List.filter_cons_of_pos (decide_eq_true hkey.symm)]
      have hstate := value_next_other hne
      refine .cons rfl hint (hstate ▸ hne) ?_
      rw [hstate]
      exact .nil
    · rename_i hne
      rw [not_not.1 hne]
      exact .nil
  · rename_i hkey
    exact t.updateStateForPrimaryKey_other eventTimeNs newState nested info hkey

/-- The loop of a reset over some of the entries: each of them gets the state, and the notifications of its
key lead there. -/
theorem foldl_resetEntry (eventTimeNs : Int) (newState : FieldValue)
    (hint : newState.mValue = .INT newState.mValue.int_value) (hknown : newState.mValue.int_value ≠ kStateUnknown)
    (key : HashableDimensionKey) (l : List (Sigma fun _ : HashableDimensionKey => StateValueInfo)) (hl : l.NodupKeys)
    (acc : StateTracker × List Notification) :
    ∃ sent, notificationsOf key (l.foldl (resetEntry eventTimeNs newState) acc).2 = notificationsOf key acc.2 ++ sent ∧
      match l.dlookup key with
      | none => sent = [] ∧
          (l.foldl (resetEntry eventTimeNs newState) acc).1.mStateMap.lookup key = acc.1.mStateMap.lookup key
      | some info => Chain info.state sent newState.mValue.int_value ∧
          (l.foldl (resetEntry eventTimeNs newState) acc).1.mStateMap.lookup key =
            some ⟨newState.mValue.int_value, 1⟩ := by
  induction l generalizing acc with
  | nil => exact ⟨[], by simp, rfl, rfl⟩
  | cons it l ih =>
    rw [List.nodupKeys_cons] at hl
    obtain ⟨sent, hsent, hrest⟩ := ih hl.2 (resetEntry eventTimeNs newState acc it)
    have hchain := acc.1.updateStateForPrimaryKey_chain eventTimeNs it.1 newState hint false it.2 key
    have hentry := acc.1.updateStateForPrimaryKey_entry eventTimeNs it.1 key newState false it.2
    have hnext : it.2.next newState.mValue.int_value false = some ⟨newState.mValue.int_value, 1⟩ := by
      unfold StateValueInfo.next
      rw [if_neg hknown, if_pos (Or.inl rfl)]
    rw [List.foldl_cons, hsent]
    unfold resetEntry at hrest ⊢
    rw [notificationsOf_append, List.append_assoc]
    refine ⟨_, rfl, ?_⟩
    by_cases hk : key = it.1
    · rw [if_pos hk, hnext] at hchain
      rw [if_pos hk, hnext] at hentry
      have hnone : l.dlookup key = none := by
        rw [hk]
        exact List.dlookup_eq_none.2 hl.1
      have hsome : (it :: l).dlookup key = some it.2 := by
        rw [hk]
        exact List.dlookup_cons_eq ..
      rw [hnone] at hrest
      rw [hsome]
      refine ⟨?_, hrest.2.trans hentry⟩
      rw [hrest.1, List.append_nil]
      exact hchain
    · rw [if_neg hk] at hchain hentry
      rw [hchain, List.nil_append, List.dlookup_cons_ne _ _ hk]
      cases hlook : l.dlookup key with
      | none =>
        rw [hlook] at hrest
        exact ⟨hrest.1, hrest.2.trans hentry⟩
      | some info =>
        rw [hlook] at hrest
        exact hrest

end StateTracker

/-! ## One event -/

/-- What an event does: clear the state of its key, reset every tracked key, or report a state of its key. -/
inductive Effect where
  | clear (primaryKey : HashableDimensionKey)
  | reset (state : Int)
  | observe (primaryKey : HashableDimensionKey) (state : Int) (nested : Bool)
deriving DecidableEq

def effect (event : LogEvent) : Effect :=
  match getStateFieldValueFromLogEvent event with
  | none => .clear (filterPrimaryKey event.mValues)
  | some newState =>
    if LogEvent.isInt newState.mValue = false then .clear (filterPrimaryKey event.mValues)
    else if event.mResetState ≠ -1 then .reset event.mResetState
    else .observe (filterPrimaryKey event.mValues) newState.mValue.int_value newState.mAnnotations.nested

/-- The entry of a key after an effect. -/
def Effect.on (key : HashableDimensionKey) (entry : Option StateValueInfo) : Effect → Option StateValueInfo
  | clear primaryKey => if key = primaryKey then none else entry
  | reset state => entry.map fun _ => ⟨state, 1⟩
  | observe primaryKey state nested => if key = primaryKey then (entry.getD {}).next state nested else entry

namespace StateTracker

theorem isInt_int_value {v : Value} (h : LogEvent.isInt v ≠ false) : v = .INT v.int_value := by
  cases v <;> first | rfl | exact absurd rfl h

theorem clearStateForPrimaryKey_spec (t : StateTracker) (eventTimeNs : Int) (primaryKey key : HashableDimensionKey) :
    (t.clearStateForPrimaryKey eventTimeNs primaryKey).1.mStateMap.lookup key =
        (Effect.clear primaryKey).on key (t.mStateMap.lookup key) ∧
      Chain (value (t.mStateMap.lookup key))
        (notificationsOf key (t.clearStateForPrimaryKey eventTimeNs primaryKey).2)
        (value ((Effect.clear primaryKey).on key (t.mStateMap.lookup key))) := by
  rw [Effect.on]
  unfold clearStateForPrimaryKey
  cases hlook : t.mStateMap.lookup primaryKey with
  | none =>
    by_cases hk : key = primaryKey
    · rw [if_pos hk, hk]
      exact ⟨hlook, by rw [hlook]; exact .nil⟩
    · rw [if_neg hk]
      exact ⟨rfl, .nil⟩
  | some info =>
    have hentry := t.updateStateForPrimaryKey_entry eventTimeNs primaryKey key ⟨t.mField, .INT kStateUnknown, {}⟩ false
      info
    have hchain := t.updateStateForPrimaryKey_chain eventTimeNs primaryKey ⟨t.mField, .INT kStateUnknown, {}⟩ rfl false
      info key
    have hnext : info.next kStateUnknown false = none := by simp [StateValueInfo.next]
    dsimp only [Value.int_value] at hentry hchain ⊢
    rw [hnext] at hentry hchain
    refine ⟨hentry, ?_⟩
    by_cases hk : key = primaryKey
    · rw [if_pos hk] at hchain ⊢
      rw [show t.mStateMap.lookup key = some info by rw [hk]; exact hlook]
      exact hchain
    · rw [if_neg hk] at hchain ⊢
      rw [hchain]
      exact .nil

/-- An event has its effect on the entry of every key, and the notifications of the key lead from the state
before the event to the state after it. -/
theorem onLogEvent_spec (t : StateTracker) (event : LogEvent) (key : HashableDimensionKey) :
    (t.onLogEvent event).1.mStateMap.lookup key = (effect event).on key (t.mStateMap.lookup key) ∧
      Chain (value (t.mStateMap.lookup key)) (notificationsOf key (t.onLogEvent event).2)
        (value ((t.onLogEvent event).1.mStateMap.lookup key)) := by
  suffices h : (t.onLogEvent event).1.mStateMap.lookup key = (effect event).on key (t.mStateMap.lookup key) ∧
      Chain (value (t.mStateMap.lookup key)) (notificationsOf key (t.onLogEvent event).2)
        (value ((effect event).on key (t.mStateMap.lookup key))) by
    rw [h.1]
    exact ⟨rfl, h.2⟩
  unfold onLogEvent effect
  cases hstate : getStateFieldValueFromLogEvent event with
  | none => exact t.clearStateForPrimaryKey_spec _ _ key
  | some newState =>
    dsimp only
    by_cases hint : LogEvent.isInt newState.mValue = false
    · rw [if_pos hint, if_pos hint]
      exact clearStateForPrimaryKey_spec ⟨_, t.mStateMap⟩ _ _ key
    · rw [if_neg hint, if_neg hint]
      by_cases hreset : event.mResetState ≠ -1
      · rw [if_pos hreset, if_pos hreset]
        obtain ⟨sent, hsent, hrest⟩ := foldl_resetEntry event.mElapsedTimestampNs
          ⟨⟨t.mField.mTag, newState.mField.mField⟩, .INT event.mResetState, {}⟩ rfl hreset key t.mStateMap.entries
          t.mStateMap.nodupKeys (⟨⟨t.mField.mTag, newState.mField.mField⟩, t.mStateMap⟩, [])
        unfold handleReset Effect.on
        dsimp only at hsent hrest ⊢
        rw [hsent, notificationsOf_nil, List.nil_append]
        cases hlook : t.mStateMap.lookup key with
        | none =>
          rw [show t.mStateMap.entries.dlookup key = none from hlook] at hrest
          rw [hrest.1, hrest.2, hlook]
          exact ⟨rfl, .nil⟩
        | some info =>
          rw [show t.mStateMap.entries.dlookup key = some info from hlook] at hrest
          exact ⟨hrest.2, hrest.1⟩
      · rw [if_neg hreset, if_neg hreset]
        have hentry := updateStateForPrimaryKey_entry ⟨⟨t.mField.mTag, newState.mField.mField⟩, t.mStateMap⟩
          event.mElapsedTimestampNs (filterPrimaryKey event.mValues) key newState newState.mAnnotations.nested
          (UMap.getD t.mStateMap (filterPrimaryKey event.mValues) {})
        have hchain := updateStateForPrimaryKey_chain ⟨⟨t.mField.mTag, newState.mField.mField⟩, t.mStateMap⟩
          event.mElapsedTimestampNs (filterPrimaryKey event.mValues) newState (isInt_int_value hint)
          newState.mAnnotations.nested (UMap.getD t.mStateMap (filterPrimaryKey event.mValues) {}) key
        unfold Effect.on
        dsimp only at hentry hchain ⊢
        by_cases hk : key = filterPrimaryKey event.mValues
        · rw [if_pos hk] at hentry hchain ⊢
          rw [← hk] at hentry hchain ⊢
          refine ⟨hentry, ?_⟩
          have hstate : value (t.mStateMap.lookup key) = (UMap.getD t.mStateMap key {}).state := by
            unfold UMap.getD value
            cases t.mStateMap.lookup key <;> rfl
          rw [hstate]
          exact hchain
        · rw [if_neg hk] at hentry hchain ⊢
          rw [hchain]
          exact ⟨hentry, .nil⟩

end StateTracker

/-! ## A run -/

/-- The state of a key after a sequence of events, as the tracker answers it. -/
def stateAfter (atomId : Int) (key : HashableDimensionKey) (events : List LogEvent) : Int :=
  (((StateTracker.new atomId).run events).1.getStateValue key).1.mValue.int_value

/-- The entry of a key after a sequence of events. -/
def entryAfter (key : HashableDimensionKey) (events : List LogEvent) : Option StateValueInfo :=
  events.foldl (fun entry event => (effect event).on key entry) none

theorem entryAfter_append (key : HashableDimensionKey) (events : List LogEvent) (event : LogEvent) :
    entryAfter key (events ++ [event]) = (effect event).on key (entryAfter key events) := by
  simp [entryAfter]

namespace StateTracker

theorem getStateValue_value (t : StateTracker) (key : HashableDimensionKey) :
    (t.getStateValue key).1.mValue = .INT (value (t.mStateMap.lookup key)) := by
  unfold getStateValue
  cases t.mStateMap.lookup key <;> rfl

theorem run_append (t : StateTracker) (events : List LogEvent) (event : LogEvent) :
    t.run (events ++ [event]) =
      (((t.run events).1.onLogEvent event).1, (t.run events).2 ++ ((t.run events).1.onLogEvent event).2) := by
  simp [run]

theorem run_spec (atomId : Int) (events : List LogEvent) (key : HashableDimensionKey) :
    ((new atomId).run events).1.mStateMap.lookup key = entryAfter key events ∧
      Chain kStateUnknown (notificationsOf key ((new atomId).run events).2) (value (entryAfter key events)) := by
  induction events using List.reverseRecOn with
  | nil => exact ⟨rfl, .nil⟩
  | append_singleton events event ih =>
    obtain ⟨hentry, hchain⟩ := ((new atomId).run events).1.onLogEvent_spec event key
    rw [ih.1] at hentry hchain
    rw [run_append, entryAfter_append, notificationsOf_append]
    rw [hentry] at hchain
    exact ⟨hentry, ih.2.append hchain⟩

end StateTracker

theorem stateAfter_eq (atomId : Int) (key : HashableDimensionKey) (events : List LogEvent) :
    stateAfter atomId key events = value (entryAfter key events) := by
  unfold stateAfter
  rw [StateTracker.getStateValue_value, (StateTracker.run_spec atomId events key).1]
  rfl

/-! ## Nested states -/

/-- The state an event reports, if it has a state field with an integer. -/
def reported (event : LogEvent) : Option Int :=
  (getStateFieldValueFromLogEvent event).bind fun newState =>
    if LogEvent.isInt newState.mValue then some newState.mValue.int_value else none

/-- A reset atom: it carries a state to reset to, and reports one of its own. -/
def isReset (event : LogEvent) : Bool := decide (event.mResetState ≠ -1) && (reported event).isSome

/-- The event reports a state of the key. -/
def seen (key : HashableDimensionKey) (state : Int) (event : LogEvent) : Bool :=
  !isReset event && decide (filterPrimaryKey event.mValues = key) && decide (reported event = some state)

/-- The event reports another state of the key. -/
def seenOther (key : HashableDimensionKey) (state : Int) (event : LogEvent) : Bool :=
  !isReset event && decide (filterPrimaryKey event.mValues = key) && (reported event).any (decide <| · ≠ state)

/-- The event clears the state of the key: it reports the unknown state, or none. -/
def clears (key : HashableDimensionKey) (event : LogEvent) : Bool :=
  !isReset event && decide (filterPrimaryKey event.mValues = key) && (reported event).all (decide <| · = kStateUnknown)

/-- The states that the events of a key report are nested. -/
def Nested (key : HashableDimensionKey) (event : LogEvent) : Prop :=
  filterPrimaryKey event.mValues = key →
    ∀ newState, getStateFieldValueFromLogEvent event = some newState → newState.mAnnotations.nested = true

/-- A key is put into a state by an event, which is the first to lead there or a reset, and stays in the state
through some more events, none of which is a reset. -/
structure Stay (atomId : Int) (key : HashableDimensionKey) (state : Int) (pre : List LogEvent) (enter : LogEvent)
    (post : List LogEvent) : Prop where
  known : state ≠ kStateUnknown
  enters : stateAfter atomId key pre ≠ state ∨ isReset enter = true
  stays : ∀ mid, mid <+: post → stateAfter atomId key (pre ++ enter :: mid) = state
  noReset : ∀ event ∈ post, isReset event = false

variable {event : LogEvent}

theorem effect_of_isReset (h : isReset event = true) : effect event = .reset event.mResetState := by
  unfold isReset reported at h
  unfold effect
  cases hstate : getStateFieldValueFromLogEvent event with
  | none => simp [hstate] at h
  | some newState =>
    rw [hstate] at h
    by_cases hint : LogEvent.isInt newState.mValue
    · have hreset : event.mResetState ≠ -1 := by simpa [hint] using h
      simp [hint, hreset]
    · simp [hint] at h

theorem effect_of_reported_none (h : reported event = none) :
    effect event = .clear (filterPrimaryKey event.mValues) := by
  unfold reported at h
  unfold effect
  cases hstate : getStateFieldValueFromLogEvent event with
  | none => rfl
  | some newState =>
    rw [hstate] at h
    have hint : LogEvent.isInt newState.mValue = false := by simpa using h
    exact if_pos hint

theorem effect_of_reported_some (hreset : isReset event = false) {state : Int}
    (h : reported event = some state) :
    ∃ newState, getStateFieldValueFromLogEvent event = some newState ∧
      effect event = .observe (filterPrimaryKey event.mValues) state newState.mAnnotations.nested := by
  unfold isReset at hreset
  rw [h] at hreset
  unfold reported at h
  unfold effect
  cases hstate : getStateFieldValueFromLogEvent event with
  | none => simp [hstate] at h
  | some newState =>
    rw [hstate] at h
    by_cases hint : LogEvent.isInt newState.mValue
    · have hvalue : newState.mValue.int_value = state := by simpa [hint] using h
      have hno : event.mResetState = -1 := by simpa using hreset
      exact ⟨newState, rfl, by simp [hint, hno, hvalue]⟩
    · simp [hint] at h

/-- What an event with nested states does to the entry of a key. -/
inductive Acts (key : HashableDimensionKey) (event : LogEvent) (entry : Option StateValueInfo) : Prop
  | reset (_ : isReset event = true) (_ : (effect event).on key entry = entry.map fun _ => ⟨event.mResetState, 1⟩)
  | clear (_ : isReset event = false) (_ : clears key event = true) (_ : (effect event).on key entry = none)
  | other (_ : isReset event = false) (_ : filterPrimaryKey event.mValues ≠ key)
      (_ : (effect event).on key entry = entry)
  | state (v : Int) (_ : isReset event = false) (_ : filterPrimaryKey event.mValues = key)
      (_ : reported event = some v) (_ : v ≠ kStateUnknown)
      (_ : (effect event).on key entry = (entry.getD {}).next v true)

theorem acts {key : HashableDimensionKey} (hnested : Nested key event)
    (entry : Option StateValueInfo) : Acts key event entry := by
  cases hreset : isReset event with
  | true => exact .reset hreset (by rw [effect_of_isReset hreset, Effect.on])
  | false =>
    by_cases hkey : filterPrimaryKey event.mValues = key
    · cases hrep : reported event with
      | none =>
        refine .clear hreset (by simp [clears, hreset, hkey, hrep]) ?_
        rw [effect_of_reported_none hrep, Effect.on, if_pos hkey.symm]
      | some v =>
        obtain ⟨newState, hstate, heff⟩ := effect_of_reported_some hreset hrep
        have hon : (effect event).on key entry = (entry.getD {}).next v true := by
          rw [heff, Effect.on, if_pos hkey.symm, hnested hkey newState hstate]
        by_cases hv : v = kStateUnknown
        · refine .clear hreset (by simp [clears, hreset, hkey, hrep, hv]) ?_
          rw [hon, StateValueInfo.next, if_pos hv]
        · exact .state v hreset hkey hrep hv hon
    · refine .other hreset hkey ?_
      cases hrep : reported event with
      | none => rw [effect_of_reported_none hrep, Effect.on, if_neg (Ne.symm hkey)]
      | some v =>
        obtain ⟨newState, -, heff⟩ := effect_of_reported_some hreset hrep
        rw [heff, Effect.on, if_neg (Ne.symm hkey)]

section

variable {atomId : Int} {key : HashableDimensionKey} {state : Int} {pre post : List LogEvent} {enter event : LogEvent}

theorem Stay.init (h : Stay atomId key state pre enter (post ++ [event])) : Stay atomId key state pre enter post where
  known := h.known
  enters := h.enters
  stays mid hmid := h.stays mid (hmid.trans (List.prefix_append post [event]))
  noReset e he := h.noReset e (List.mem_append_left _ he)

theorem Stay.entry_enter (h : Stay atomId key state pre enter []) (hnested : Nested key enter) :
    entryAfter key (pre ++ [enter]) = some ⟨state, 1⟩ := by
  have hafter := h.stays [] (List.prefix_refl [])
  have hbefore := h.enters
  rw [stateAfter_eq, entryAfter_append] at hafter
  rw [stateAfter_eq] at hbefore
  rw [entryAfter_append]
  cases acts hnested (entryAfter key pre) with
  | reset _ hon =>
    rw [hon] at hafter ⊢
    cases hentry : entryAfter key pre with
    | none =>
      rw [hentry] at hafter
      exact absurd hafter.symm h.known
    | some info =>
      rw [hentry] at hafter
      rw [← hafter]
      rfl
  | clear _ _ hon =>
    rw [hon] at hafter
    exact absurd hafter.symm h.known
  | other hreset _ hon =>
    rw [hon] at hafter
    rw [hreset] at hbefore
    exact absurd hafter (hbefore.resolve_right (by decide))
  | state v hreset _ _ hv hon =>
    rw [hreset] at hbefore
    have hne := hbefore.resolve_right (by decide)
    have hold : ((entryAfter key pre).getD {}).state ≠ state := by
      intro hold
      apply hne
      rw [← hold]
      cases entryAfter key pre <;> rfl
    rw [hon] at hafter ⊢
    have hvs : v = state := by
      rw [← hafter]
      exact (value_next_other (by rw [hafter]; exact Ne.symm hold)).symm
    subst hvs
    unfold StateValueInfo.next at hafter ⊢
    rw [if_neg hv] at hafter ⊢
    by_cases hfresh : ((entryAfter key pre).getD {}).state = kStateUnknown
    · rw [if_pos (Or.inr hfresh)]
    · have hno : ¬ (true = false ∨ ((entryAfter key pre).getD {}).state = kStateUnknown) := by simp [hfresh]
      rw [if_neg hno, if_neg hold] at hafter ⊢
      by_cases hone : ((entryAfter key pre).getD {}).count = 1
      · rw [if_pos hone]
      · rw [if_neg hone] at hafter
        exact absurd hafter hold

/-- The count of a state the key stays in: one for the event that entered it and one for each event with the
state, less one for each event with another. -/
theorem Stay.entry (h : Stay atomId key state pre enter post) (henter : Nested key enter)
    (hnested : ∀ event ∈ post, Nested key event) :
    ∃ count : Int, 1 ≤ count ∧ entryAfter key (pre ++ enter :: post) = some ⟨state, count⟩ ∧
      count + (post.countP (seenOther key state) : Nat) = 1 + (post.countP (seen key state) : Nat) := by
  induction post using List.reverseRecOn with
  | nil => exact ⟨1, le_refl _, h.entry_enter henter, rfl⟩
  | append_singleton post event ih =>
    obtain ⟨count, hpos, hentry, hcount⟩ := ih h.init fun e he => hnested e (List.mem_append_left _ he)
    have hreset := h.noReset event (List.mem_append_right _ (List.mem_singleton_self _))
    have hafter := h.stays (post ++ [event]) (List.prefix_refl _)
    have happend : pre ++ enter :: (post ++ [event]) = (pre ++ enter :: post) ++ [event] := by simp
    rw [stateAfter_eq, happend, entryAfter_append] at hafter
    rw [happend, entryAfter_append, List.countP_append, List.countP_append, List.countP_singleton,
      List.countP_singleton]
    cases acts (hnested event (List.mem_append_right _ (List.mem_singleton_self _))) (entryAfter key (pre ++ enter :: post)) with
    | reset hr _ =>
      rw [hreset] at hr
      cases hr
    | clear _ _ hon =>
      rw [hon] at hafter
      exact absurd hafter.symm h.known
    | other _ hkey hon =>
      rw [hon]
      exact ⟨count, hpos, hentry, by simpa [seen, seenOther, hkey] using hcount⟩
    | state v _ hkey hrep hv hon =>
      rw [hon, hentry, Option.getD_some, StateValueInfo.next, if_neg hv, if_neg (by simp [h.known])] at hafter ⊢
      by_cases hsame : state = v
      · refine ⟨count + 1, by omega, by simp [hsame], ?_⟩
        simp only [seen, seenOther, hreset, hkey, hrep, hsame]
        simp [hsame] at hcount ⊢
        omega
      · rw [if_neg hsame] at hafter ⊢
        by_cases hone : count = 1
        · rw [if_pos hone] at hafter
          exact absurd hafter.symm hsame
        · refine ⟨count - 1, by omega, if_neg hone, ?_⟩
          have hs : seen key state event = false := by simp [seen, hrep, Ne.symm hsame]
          have ho : seenOther key state event = true := by simp [seenOther, hreset, hkey, hrep, Ne.symm hsame]
          simp only [hs, ho, Bool.false_eq_true, if_false, if_true]
          push_cast
          omega

/-- A key leaves the state it stays in by a reset to another state, by an unknown or missing state, or when as
many events with other states as with this one have come since it was entered or last reset. -/
theorem Stay.leaves_iff (h : Stay atomId key state pre enter post) (henter : Nested key enter)
    (hnested : ∀ event ∈ post, Nested key event) (hevent : Nested key event) :
    stateAfter atomId key (pre ++ enter :: post ++ [event]) ≠ state ↔
      isReset event = true ∧ event.mResetState ≠ state ∨ clears key event = true ∨
        (post ++ [event]).countP (seenOther key state) = 1 + (post ++ [event]).countP (seen key state) := by
  obtain ⟨count, hpos, hentry, hcount⟩ := h.entry henter hnested
  rw [stateAfter_eq, entryAfter_append, List.countP_append, List.countP_append, List.countP_singleton,
    List.countP_singleton]
  -- the count leaves room for another event with another state
  have hroom : post.countP (seenOther key state) ≤ post.countP (seen key state) := by omega
  cases acts hevent (entryAfter key (pre ++ enter :: post)) with
  | reset hr hon =>
    have hc : clears key event = false := by simp [clears, hr]
    have hs : seen key state event = false := by simp [seen, hr]
    have ho : seenOther key state event = false := by simp [seenOther, hr]
    rw [hon, hentry]
    simp only [hr, hc, hs, ho, Option.map_some, value_some, true_and, Bool.false_eq_true, false_or, if_false, Nat.add_zero]
    constructor
    · exact fun hne => .inl hne
    · rintro (hne | hbal)
      · exact hne
      · omega
  | clear _ hc hon =>
    rw [hon]
    exact iff_of_true h.known.symm (.inr (.inl hc))
  | other hr hkey hon =>
    have hc : clears key event = false := by simp [clears, hkey]
    have hs : seen key state event = false := by simp [seen, hkey]
    have ho : seenOther key state event = false := by simp [seenOther, hkey]
    rw [hon, hentry]
    refine iff_of_false (fun hne => hne rfl) ?_
    rintro (⟨hr', -⟩ | hc' | hbal)
    · rw [hr] at hr'; cases hr'
    · rw [hc] at hc'; cases hc'
    · simp only [hs, ho, Bool.false_eq_true, if_false] at hbal
      omega
  | state v hr hkey hrep hv hon =>
    have hc : clears key event = false := by simp [clears, hrep, hv]
    rw [hon, hentry, Option.getD_some, StateValueInfo.next, if_neg hv, if_neg (by simp [h.known])]
    simp only [hr, hc, Bool.false_eq_true, false_and, false_or]
    by_cases hsame : state = v
    · have hs : seen key state event = true := by simp [seen, hr, hkey, hrep, hsame]
      have ho : seenOther key state event = false := by simp [seenOther, hrep, hsame]
      simp only [hsame, if_true, value_some, ne_eq, not_true_eq_false, false_iff]
      rw [← hsame]
      simp only [hs, ho, Bool.false_eq_true, if_true, if_false]
      omega
    · have hs : seen key state event = false := by simp [seen, hrep, Ne.symm hsame]
      have ho : seenOther key state event = true := by simp [seenOther, hr, hkey, hrep, Ne.symm hsame]
      rw [if_neg hsame]
      simp only [hs, ho, Bool.false_eq_true, if_false, if_true]
      by_cases hone : count = 1
      · rw [if_pos hone]
        refine iff_of_true (Ne.symm hsame) ?_
        omega
      · rw [if_neg hone]
        refine iff_of_false (fun hne => hne rfl) ?_
        omega

theorem exists_stay {events : List LogEvent} (hstate : stateAfter atomId key events = state)
    (hknown : state ≠ kStateUnknown) :
    ∃ pre enter post, events = pre ++ enter :: post ∧ Stay atomId key state pre enter post := by
  induction events using List.reverseRecOn with
  | nil =>
    rw [stateAfter_eq] at hstate
    exact absurd hstate.symm hknown
  | append_singleton events event ih =>
    by_cases henters : stateAfter atomId key events ≠ state ∨ isReset event = true
    · refine ⟨events, event, [], rfl, hknown, henters, ?_, fun _ h => by cases h⟩
      intro mid hmid
      rw [List.prefix_nil.1 hmid]
      exact hstate
    · rw [not_or, not_not] at henters
      obtain ⟨pre, enter, post, rfl, hstay⟩ := ih henters.1
      refine ⟨pre, enter, post ++ [event], by simp, hknown, hstay.enters, ?_, ?_⟩
      · intro mid hmid
        rcases List.prefix_concat_iff.1 hmid with rfl | hmid
        · simpa using hstate
        · exact hstay.stays mid hmid
      · intro e he
        rcases List.mem_append.1 he with he | he
        · exact hstay.noReset e he
        · rw [List.mem_singleton.1 he]
          simpa using henters.2

end

/-! ## Other keys -/

namespace StateTracker

theorem clearStateForPrimaryKey_other (t : StateTracker) (eventTimeNs : Int)
    {primaryKey key : HashableDimensionKey} (hkey : key ≠ primaryKey) :
    notificationsOf key (t.clearStateForPrimaryKey eventTimeNs primaryKey).2 = [] := by
  unfold clearStateForPrimaryKey
  cases t.mStateMap.lookup primaryKey with
  | none => rfl
  | some info => exact t.updateStateForPrimaryKey_other eventTimeNs _ false info hkey

theorem onLogEvent_other (t : StateTracker) {event : LogEvent} (hreset : isReset event = false)
    {key : HashableDimensionKey} (hkey : key ≠ filterPrimaryKey event.mValues) :
    (t.onLogEvent event).1.mStateMap.lookup key = t.mStateMap.lookup key ∧
      notificationsOf key (t.onLogEvent event).2 = [] := by
  constructor
  · rw [(t.onLogEvent_spec event key).1]
    cases hrep : reported event with
    | none => rw [effect_of_reported_none hrep, Effect.on, if_neg hkey]
    | some v =>
      obtain ⟨newState, -, heff⟩ := effect_of_reported_some hreset hrep
      rw [heff, Effect.on, if_neg hkey]
  · unfold isReset reported at hreset
    unfold onLogEvent
    cases hstate : getStateFieldValueFromLogEvent event with
    | none => exact t.clearStateForPrimaryKey_other _ hkey
    | some newState =>
      rw [hstate] at hreset
      dsimp only
      by_cases hint : LogEvent.isInt newState.mValue
      · have hno : ¬ event.mResetState ≠ -1 := by simpa [hint] using hreset
        rw [if_neg (by simp [hint]), if_neg hno]
        exact updateStateForPrimaryKey_other _ _ _ _ _ hkey
      · rw [if_pos (by simpa using hint)]
        exact clearStateForPrimaryKey_other _ _ hkey

theorem onLogEvent_reset (t : StateTracker) {event : LogEvent} (hreset : isReset event = true)
    {key : HashableDimensionKey} (hkey : key ∈ t.mStateMap) :
    ((t.onLogEvent event).1.getStateValue key).1.mValue = .INT event.mResetState := by
  rw [getStateValue_value, (t.onLogEvent_spec event key).1, effect_of_isReset hreset, Effect.on]
  obtain ⟨info, hinfo⟩ := Option.isSome_iff_exists.1 (AList.lookup_isSome.2 hkey)
  rw [hinfo]
  rfl

end StateTracker

/-! ## The tracker -/

/-- After every sequence of events, for every primary key the notifications form a chain from the unknown state
to the state the tracker answers, which is the new state of the last one. A key whose events are all nested is
in a state that some event entered, and leaves it with the next event exactly when that is a reset to another
state, clears the state, or is the event with which as many events with other states as with this one have come
since the state was entered or last reset, counting that event. The next event, if it is not a reset atom,
leaves the other keys alone; after a reset atom every tracked key has the state it carries. -/
theorem state_chain (atomId : Int) (events : List LogEvent) :
    (∀ key, Chain kStateUnknown (notificationsOf key ((StateTracker.new atomId).run events).2)
        (stateAfter atomId key events) ∧
      (((StateTracker.new atomId).run events).1.getStateValue key).1.mValue =
        ((notificationsOf key ((StateTracker.new atomId).run events).2).getLast?.map (·.newState.mValue)).getD
          (.INT kStateUnknown)) ∧
    (∀ key, (∀ event ∈ events, Nested key event) → ∀ state, stateAfter atomId key events = state →
      state ≠ kStateUnknown →
      (∃ pre enter post, events = pre ++ enter :: post ∧ Stay atomId key state pre enter post) ∧
      ∀ pre enter post, events = pre ++ enter :: post → Stay atomId key state pre enter post →
        ∀ event, Nested key event → (stateAfter atomId key (events ++ [event]) ≠ state ↔
          isReset event = true ∧ event.mResetState ≠ state ∨ clears key event = true ∨
            (post ++ [event]).countP (seenOther key state) = 1 + (post ++ [event]).countP (seen key state))) ∧
    ∀ event,
      (isReset event = false → ∀ key, key ≠ filterPrimaryKey event.mValues →
        (((StateTracker.new atomId).run events).1.onLogEvent event).1.mStateMap.lookup key =
            ((StateTracker.new atomId).run events).1.mStateMap.lookup key ∧
          notificationsOf key (((StateTracker.new atomId).run events).1.onLogEvent event).2 = []) ∧
      (isReset event = true → ∀ key ∈ ((StateTracker.new atomId).run events).1.mStateMap,
        ((((StateTracker.new atomId).run events).1.onLogEvent event).1.getStateValue key).1.mValue =
          .INT event.mResetState) := by
  refine ⟨fun key => ?_, fun key hnested state hstate hknown => ⟨exists_stay hstate hknown, ?_⟩, fun event => ⟨?_, ?_⟩⟩
  · obtain ⟨hentry, hchain⟩ := StateTracker.run_spec atomId events key
    rw [stateAfter_eq, StateTracker.getStateValue_value, hentry]
    exact ⟨hchain, hchain.last.symm⟩
  · rintro pre enter post rfl hstay event hevent
    refine hstay.leaves_iff (hnested _ (by simp)) (fun e he => hnested e ?_) hevent
    exact List.mem_append_right _ (List.mem_cons_of_mem _ he)
  · intro hreset key hkey
    exact StateTracker.onLogEvent_other _ hreset hkey
  · intro hreset key hkey
    exact StateTracker.onLogEvent_reset _ hreset hkey

/-- An atom with a uid as its primary key and a nested state. -/
def uidAtom (uid state resetState : Int) : LogEvent where
  mTagId := 10
  mValues := [⟨⟨10, 0x00010000#32⟩, .INT uid, { primaryField := true }⟩,
    ⟨⟨10, 0x00020000#32⟩, .INT state, { exclusiveState := true }⟩]
  mExclusiveStateFieldIndex := 1
  mResetState := resetState

/-- A state seen twice is left with one event with another state when a reset to the same state came before
that event. And an atom with a reset state but no valid state of its own resets no key. -/
theorem reset_restarts_count :
    filterPrimaryKey (uidAtom 1 1 (-1)).mValues = [(⟨10, 0x00010000#32⟩, .INT 1)] ∧
    stateAfter 10 [(⟨10, 0x00010000#32⟩, .INT 1)] [] ≠ 1 ∧
    stateAfter 10 [(⟨10, 0x00010000#32⟩, .INT 1)] [uidAtom 1 1 (-1)] = 1 ∧
    stateAfter 10 [(⟨10, 0x00010000#32⟩, .INT 1)] [uidAtom 1 1 (-1), uidAtom 1 1 (-1)] = 1 ∧
    stateAfter 10 [(⟨10, 0x00010000#32⟩, .INT 1)] [uidAtom 1 1 (-1), uidAtom 1 1 (-1), uidAtom 1 2 1] = 1 ∧
    stateAfter 10 [(⟨10, 0x00010000#32⟩, .INT 1)]
      [uidAtom 1 1 (-1), uidAtom 1 1 (-1), uidAtom 1 2 1, uidAtom 1 0 (-1)] = 0 ∧
    isReset (uidAtom 1 0 (-1)) = false ∧ clears [(⟨10, 0x00010000#32⟩, .INT 1)] (uidAtom 1 0 (-1)) = false ∧
    [uidAtom 1 1 (-1), uidAtom 1 1 (-1), uidAtom 1 2 1, uidAtom 1 0 (-1)].countP
      (seen [(⟨10, 0x00010000#32⟩, .INT 1)] 1) = 2 ∧
    [uidAtom 1 1 (-1), uidAtom 1 1 (-1), uidAtom 1 2 1, uidAtom 1 0 (-1)].countP
      (seenOther [(⟨10, 0x00010000#32⟩, .INT 1)] 1) = 1 ∧
    stateAfter 10 [(⟨10, 0x00010000#32⟩, .INT 1)]
      [uidAtom 1 1 (-1), { uidAtom 2 1 0 with mExclusiveStateFieldIndex := -1 }] = 1 := by
  decide +kernel

end Statsd.State
