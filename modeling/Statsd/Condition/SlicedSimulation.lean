/-
A sliced simple condition is one unsliced condition for every key. The map of a sliced tracker holds,
under each output key, what the unsliced tracker of the same predicate holds after the starts and
stops of that key and all stop-alls; and the changed sets of an event name the keys whose value moved.

Events are the calls of `evaluateCondition` with a fresh cache entry, as the metrics manager makes them.
-/
import Statsd.Base.Run
import Statsd.Condition.SimpleConditionTracker

namespace Statsd.Condition

open ConditionState

/-- The same predicate without dimensions. -/
def SimplePredicate.unsliced (p : SimplePredicate) : SimplePredicate := { p with dimensions := none }

namespace SimpleConditionTracker

/-- One event, with the tracker's cache entries fresh. -/
def evaluate (t : SimpleConditionTracker) (event : MatchedEvent) : Evaluation :=
  t.evaluateCondition event kNotEvaluated false

def step (t : SimpleConditionTracker) (event : MatchedEvent) : SimpleConditionTracker := (t.evaluate event).tracker

/-- The output key of an event. -/
def outputKey (t : SimpleConditionTracker) (event : MatchedEvent) : HashableDimensionKey :=
  if t.mOutputDimensions.isEmpty then DEFAULT_DIMENSION_KEY else filterValues t.mOutputDimensions event.values

/-- The condition of a full key, and of an unsliced tracker. -/
def valueOf (t : SimpleConditionTracker) (key : HashableDimensionKey) : ConditionState :=
  t.isConditionMet (some key) false kNotEvaluated

def unslicedValue (t : SimpleConditionTracker) : ConditionState := t.isConditionMet none false kNotEvaluated

/-- The event is a start or stop that the guardrail drops. -/
def dropped (t : SimpleConditionTracker) (event : MatchedEvent) : Bool :=
  !event.matched t.mStopAllLogMatcherIndex && (t.matchedState event).isSome && t.hitGuardRail (t.outputKey event)

/-! ## One entry of the map -/

/-- What a start or stop does to the entry of its key. -/
def entryAfter (countNesting : Bool) (initial : ConditionState) (entry : Option Int) (matchStart : Bool) : Option Int :=
  match entry with
  | none => if matchStart && decide (initial ≠ kTrue) then some 1 else if initial ≠ kFalse then some 0 else none
  | some c =>
    if matchStart then some (c + 1)
    else if initial = kFalse ∧ countAfterStop countNesting c = 0 then none
    else some (countAfterStop countNesting c)

/-- The value an entry gives its key. -/
def entryValue (initial : ConditionState) (entry : Option Int) : ConditionState :=
  match entry with
  | some c => (kNotEvaluated.or initial).or (sliceState c)
  | none => kNotEvaluated.or initial

theorem valueOf_eq (t : SimpleConditionTracker) (key : HashableDimensionKey) :
    t.valueOf key = entryValue t.mInitialValue (t.mSlicedConditionState.lookup key) := by
  cases hl : t.mSlicedConditionState.lookup key with
  | none => simp [valueOf, isConditionMet, entryValue, hl]
  | some c => simp [valueOf, isConditionMet, entryValue, hl]

theorem unslicedValue_eq (t : SimpleConditionTracker) (h : t.mSliced = false) :
    t.unslicedValue = entryValue t.mInitialValue (t.mSlicedConditionState.lookup DEFAULT_DIMENSION_KEY) := by
  cases hl : t.mSlicedConditionState.lookup DEFAULT_DIMENSION_KEY with
  | none => simp [unslicedValue, isConditionMet, entryValue, h, hl]
  | some c => simp [unslicedValue, isConditionMet, entryValue, h, hl]

/-- The parts of a tracker its predicate fixes. -/
structure Configured (p : SimplePredicate) (t : SimpleConditionTracker) : Prop where
  start : t.mStartLogMatcherIndex = p.start
  stop : t.mStopLogMatcherIndex = p.stop
  stop_all : t.mStopAllLogMatcherIndex = p.stop_all
  nesting : t.mCountNesting = p.count_nesting
  dimensions : t.mOutputDimensions = (new p).mOutputDimensions
  any : t.mContainANYPositionInInternalDimensions = (new p).mContainANYPositionInInternalDimensions
  sliced : t.mSliced = (new p).mSliced

theorem configured_new (p : SimplePredicate) : Configured p (new p) := ⟨rfl, rfl, rfl, rfl, rfl, rfl, rfl⟩

/-- What handling a start or stop of a key does to the tracker. -/
structure EventSpec (t : SimpleConditionTracker) (key : HashableDimensionKey) (matchStart : Bool)
    (r : Evaluation) : Prop where
  configured : ∀ p, Configured p t → Configured p r.tracker
  initial : r.tracker.mInitialValue = t.mInitialValue
  lookup : ∀ k, r.tracker.mSlicedConditionState.lookup k =
    if k = key then entryAfter t.mCountNesting t.mInitialValue (t.mSlicedConditionState.lookup key) matchStart
    else t.mSlicedConditionState.lookup k

theorem handleNewKey_spec (t : SimpleConditionTracker) (key : HashableDimensionKey) (matchStart : Bool)
    (hl : t.mSlicedConditionState.lookup key = none) : EventSpec t key matchStart (t.handleNewKey key matchStart) := by
  unfold handleNewKey
  dsimp only
  split
  · rename_i h
    refine ⟨fun p hp => ⟨hp.1, hp.2, hp.3, hp.4, hp.5, hp.6, hp.7⟩, rfl, fun k => ?_⟩
    rw [UMap.lookup_insert', hl]
    simp only [entryAfter, h, if_true]
  · rename_i h
    split
    · rename_i h'
      refine ⟨fun p hp => ⟨hp.1, hp.2, hp.3, hp.4, hp.5, hp.6, hp.7⟩, rfl, fun k => ?_⟩
      rw [UMap.lookup_insert', hl]
      simp only [entryAfter, h, if_pos h', Bool.false_eq_true, if_false]
    · rename_i h'
      refine ⟨fun p hp => hp, rfl, fun k => ?_⟩
      split
      · rename_i hk
        subst hk
        rw [hl]
        simp only [entryAfter, h, h', if_false]
        rfl
      · rfl

theorem handleStart_spec (t : SimpleConditionTracker) (key : HashableDimensionKey) {c : Int}
    (hl : t.mSlicedConditionState.lookup key = some c) : EventSpec t key true (t.handleStart key c) := by
  refine ⟨fun p hp => ⟨hp.1, hp.2, hp.3, hp.4, hp.5, hp.6, hp.7⟩, rfl, fun k => ?_⟩
  unfold handleStart
  rw [UMap.lookup_insert', hl]
  rfl

theorem handleStop_spec (t : SimpleConditionTracker) (key : HashableDimensionKey) {c : Int}
    (hl : t.mSlicedConditionState.lookup key = some c) : EventSpec t key false (t.handleStop key c) := by
  refine ⟨fun p hp => ⟨hp.1, hp.2, hp.3, hp.4, hp.5, hp.6, hp.7⟩, rfl, fun k => ?_⟩
  unfold handleStop
  rw [hl]
  simp only [entryAfter, Bool.false_eq_true, if_false]
  split
  · exact UMap.lookup_erase' _ _ _
  · exact UMap.lookup_insert' _ _ _ _

theorem handleConditionEvent_spec (t : SimpleConditionTracker) (key : HashableDimensionKey) (matchStart : Bool)
    (hg : t.hitGuardRail key = false) : EventSpec t key matchStart (t.handleConditionEvent key matchStart) := by
  unfold handleConditionEvent
  rw [hg]
  simp only [Bool.false_eq_true, if_false]
  cases hl : t.mSlicedConditionState.lookup key with
  | none => exact handleNewKey_spec t key matchStart hl
  | some c =>
    cases matchStart
    · exact handleStop_spec t key hl
    · exact handleStart_spec t key hl

/-! ## One event -/

theorem evaluate_cases (t : SimpleConditionTracker) (event : MatchedEvent)
    (hany : t.mContainANYPositionInInternalDimensions = false) :
    (event.matched t.mStopAllLogMatcherIndex = true ∧ t.evaluate event = t.cleared.handleStopAll) ∨
    (event.matched t.mStopAllLogMatcherIndex = false ∧ t.matchedState event = none ∧
      t.evaluate event = ⟨t.cleared, t.cleared.overallCondition, false⟩) ∨
    ∃ matchStart, event.matched t.mStopAllLogMatcherIndex = false ∧ t.matchedState event = some matchStart ∧
      t.evaluate event = t.cleared.handleConditionEvent (t.outputKey event) matchStart := by
  unfold evaluate evaluateCondition outputKey
  simp only [ne_eq, not_true_eq_false, if_false]
  have hm : t.cleared.matchedState event = t.matchedState event := rfl
  have hc : t.cleared.mContainANYPositionInInternalDimensions = false := hany
  have hst : t.cleared.mStopAllLogMatcherIndex = t.mStopAllLogMatcherIndex := rfl
  rw [hst, hm, hc]
  cases hall : event.matched t.mStopAllLogMatcherIndex with
  | true => exact .inl ⟨rfl, rfl⟩
  | false =>
    refine .inr ?_
    cases hs : t.matchedState event with
    | none => exact .inl ⟨rfl, rfl, rfl⟩
    | some matchStart =>
      refine .inr ⟨matchStart, rfl, rfl, ?_⟩
      have hd : t.cleared.mOutputDimensions = t.mOutputDimensions := rfl
      simp only [Bool.false_eq_true, if_false, Bool.not_false, if_true, hd]
      split <;> rfl

variable {t : SimpleConditionTracker} {p : SimplePredicate} {event : MatchedEvent} {key : HashableDimensionKey}

theorem handleStopAll_configured (h : Configured p t) :
    Configured p t.handleStopAll.tracker := ⟨h.1, h.2, h.3, h.4, h.5, h.6, h.7⟩

theorem cleared_configured (h : Configured p t) :
    Configured p t.cleared := ⟨h.1, h.2, h.3, h.4, h.5, h.6, h.7⟩

theorem event_spec {matchStart : Bool}
    (hd : t.dropped event = false) (hall : event.matched t.mStopAllLogMatcherIndex = false)
    (hs : t.matchedState event = some matchStart) :
    EventSpec t.cleared (t.outputKey event) matchStart
      (t.cleared.handleConditionEvent (t.outputKey event) matchStart) := by
  refine handleConditionEvent_spec t.cleared _ matchStart ?_
  simp only [dropped, hall, hs, Bool.not_false, Option.isSome_some, Bool.and_self, Bool.true_and] at hd
  exact hd

theorem step_configured (h : Configured p t)
    (hany : (new p).mContainANYPositionInInternalDimensions = false) (hd : t.dropped event = false) : Configured p (t.step event) := by
  unfold step
  rcases evaluate_cases t event (h.any.trans hany) with ⟨-, he⟩ | ⟨-, -, he⟩ | ⟨matchStart, hall, hs, he⟩
  · rw [he]; exact handleStopAll_configured (cleared_configured h)
  · rw [he]; exact cleared_configured h
  · rw [he]; exact (event_spec hd hall hs).configured p (cleared_configured h)

/-! ## The simulation -/

/-- The event counts for the reference condition of a key: a stop-all, or a start or stop of the key. -/
def relevant (p : SimplePredicate) (key : HashableDimensionKey) (event : MatchedEvent) : Bool :=
  event.matched p.stop_all ||
    ((event.matched p.start || event.matched p.stop) && decide ((new p).outputKey event = key))

/-- The entry of a key in the sliced tracker is the entry of the unsliced one. -/
structure Simulates (t r : SimpleConditionTracker) (key : HashableDimensionKey) : Prop where
  initial : t.mInitialValue = r.mInitialValue
  entry : t.mSlicedConditionState.lookup key = r.mSlicedConditionState.lookup DEFAULT_DIMENSION_KEY

variable {t r : SimpleConditionTracker}

theorem Simulates.value (h : Simulates t r key)
    (hr : r.mSliced = false) : t.valueOf key = r.unslicedValue := by
  rw [valueOf_eq, unslicedValue_eq r hr, h.initial, h.entry]

theorem Configured.matchedState_eq (h : Configured p t)
    (event : MatchedEvent) : t.matchedState event = (new p).matchedState event := by
  unfold matchedState; rw [h.stop, h.start]; rfl

theorem Configured.outputKey_eq (h : Configured p t)
    (event : MatchedEvent) : t.outputKey event = (new p).outputKey event := by
  unfold outputKey; rw [h.dimensions]

theorem matchedState_isSome (p : SimplePredicate) (event : MatchedEvent) :
    ((new p).matchedState event).isSome = (event.matched p.start || event.matched p.stop) := by
  unfold matchedState new
  dsimp only
  cases event.matched p.stop <;> cases event.matched p.start <;> rfl

theorem unsliced_not_dropped {r : SimpleConditionTracker} (h : Configured p.unsliced r)
    (event : MatchedEvent) : r.dropped event = false := by
  have hs : r.mSliced = false := h.sliced
  unfold dropped hitGuardRail
  simp [hs]

theorem unsliced_outputKey {r : SimpleConditionTracker} (h : Configured p.unsliced r)
    (event : MatchedEvent) : r.outputKey event = DEFAULT_DIMENSION_KEY := by
  rw [h.outputKey_eq]; rfl

theorem Simulates.step (h : Simulates t r key) (ht : Configured p t) (hr : Configured p.unsliced r)
    (hany : (new p).mContainANYPositionInInternalDimensions = false) (hd : t.dropped event = false) :
    Simulates (t.step event) (if relevant p key event then r.step event else r) key := by
  have hrel := matchedState_isSome p event
  have htm := ht.matchedState_eq event
  have hrm : r.matchedState event = t.matchedState event := by rw [htm, hr.matchedState_eq event]; rfl
  have htk := ht.outputKey_eq event
  have hrall : event.matched r.mStopAllLogMatcherIndex = event.matched t.mStopAllLogMatcherIndex := by
    rw [hr.stop_all, ht.stop_all]; rfl
  have hpall : event.matched p.stop_all = event.matched t.mStopAllLogMatcherIndex := by rw [ht.stop_all]
  have hrany : r.mContainANYPositionInInternalDimensions = false := hr.any
  unfold SimpleConditionTracker.step
  rcases evaluate_cases t event (ht.any.trans hany) with ⟨hall, he⟩ | ⟨hall, hs, he⟩ | ⟨matchStart, hall, hs, he⟩
  · -- a stop-all empties both maps
    have hre : r.evaluate event = r.cleared.handleStopAll := by
      rcases evaluate_cases r event hrany with ⟨-, hre⟩ | ⟨hno, -⟩ | ⟨_, hno, -⟩
      · exact hre
      · rw [hrall, hall] at hno; cases hno
      · rw [hrall, hall] at hno; cases hno
    simp only [relevant, hpall, hall, Bool.true_or, if_true]
    rw [he, hre]
    exact ⟨rfl, rfl⟩
  · rw [htm] at hs
    rw [hs] at hrel
    have hno : (event.matched p.start || event.matched p.stop) = false := hrel.symm
    simp only [relevant, hpall, hall, hno, Bool.false_and, Bool.or_self, Bool.false_eq_true, if_false]
    rw [he]
    exact ⟨h.initial, h.entry⟩
  · have hyes : (event.matched p.start || event.matched p.stop) = true := by
      rw [← hrel, ← htm, hs]; rfl
    have hspec := event_spec hd hall hs
    rw [he]
    by_cases hk : (new p).outputKey event = key
    · -- an event of the key does to its entry what it does to the unsliced one
      simp only [relevant, hpall, hall, hyes, hk, decide_true, Bool.and_self, Bool.or_true, if_true]
      have hrspec := event_spec (unsliced_not_dropped hr event) (hrall.trans hall) (hrm.trans hs)
      have hre : r.evaluate event = r.cleared.handleConditionEvent (r.outputKey event) matchStart := by
        rcases evaluate_cases r event hrany with ⟨hno, -⟩ | ⟨-, hno, -⟩ | ⟨m, -, hm, hre⟩
        · rw [hrall, hall] at hno; cases hno
        · rw [hrm, hs] at hno; cases hno
        · rw [hrm, hs] at hm; cases hm; exact hre
      rw [hre]
      refine ⟨?_, ?_⟩
      · rw [hspec.initial, hrspec.initial]; exact h.initial
      · rw [hspec.lookup, hrspec.lookup, htk, hk, unsliced_outputKey hr, if_pos rfl, if_pos rfl]
        have h1 : t.cleared.mCountNesting = r.cleared.mCountNesting := ht.nesting.trans hr.nesting.symm
        have h2 : t.cleared.mInitialValue = r.cleared.mInitialValue := h.initial
        have h3 : t.cleared.mSlicedConditionState.lookup key =
          r.cleared.mSlicedConditionState.lookup DEFAULT_DIMENSION_KEY := h.entry
        rw [h1, h2, h3]
    · simp only [relevant, hpall, hall, hyes, hk, decide_false, Bool.and_false, Bool.or_self, Bool.false_eq_true,
        if_false]
      refine ⟨?_, ?_⟩
      · rw [hspec.initial]; exact h.initial
      · rw [hspec.lookup, htk, if_neg (fun hkey => hk hkey.symm)]
        exact h.entry

/-- A run that drops no event. -/
abbrev RunBelow (t : SimpleConditionTracker) (events : List MatchedEvent) : Prop :=
  RunOk step (fun t e => t.dropped e = false) t events

theorem Simulates.run (hany : (new p).mContainANYPositionInInternalDimensions = false)
    (h : Simulates t r key) (ht : Configured p t) (hr : Configured p.unsliced r) {events : List MatchedEvent}
    (hok : RunBelow t events) :
    Simulates (events.foldl SimpleConditionTracker.step t)
      ((events.filter (relevant p key)).foldl SimpleConditionTracker.step r) key ∧
    Configured p (events.foldl SimpleConditionTracker.step t) ∧
    Configured p.unsliced ((events.filter (relevant p key)).foldl SimpleConditionTracker.step r) := by
  induction events generalizing t r with
  | nil => exact ⟨h, ht, hr⟩
  | cons e events ih =>
    have hstep := h.step ht hr hany hok.1
    have htc := step_configured ht hany hok.1
    have hrc : Configured p.unsliced (r.step e) := step_configured hr rfl (unsliced_not_dropped hr e)
    rw [List.filter_cons]
    cases hrel : relevant p key e with
    | true =>
      rw [hrel, if_pos rfl] at hstep
      exact ih hstep htc hrc hok.2
    | false =>
      rw [hrel, if_neg Bool.false_ne_true] at hstep
      exact ih hstep htc hr hok.2

/-! ## The changed sets -/

/-- The default is unknown or false, and counts are not negative. -/
structure Sane (t : SimpleConditionTracker) : Prop where
  initial : t.mInitialValue = kUnknown ∨ t.mInitialValue = kFalse
  counts : ∀ k c, t.mSlicedConditionState.lookup k = some c → 0 ≤ c

theorem sane_new (p : SimplePredicate) : Sane (new p) := by
  refine ⟨?_, ?_⟩
  · unfold new
    dsimp only
    split
    · exact .inr rfl
    · exact .inl rfl
  · intro k c h
    simp [new] at h

theorem entryAfter_nonneg {nesting : Bool} {initial : ConditionState} {entry : Option Int} {matchStart : Bool}
    (h : ∀ c, entry = some c → 0 ≤ c) : ∀ c, entryAfter nesting initial entry matchStart = some c → 0 ≤ c := by
  intro c hc
  cases entry with
  | none =>
    simp only [entryAfter] at hc
    split at hc
    · cases hc; omega
    · split at hc
      · cases hc; omega
      · cases hc
  | some d =>
    have hd := h d rfl
    have hstop : 0 ≤ countAfterStop nesting d := by
      unfold countAfterStop
      split
      · split <;> omega
      · exact hd
    simp only [entryAfter] at hc
    split at hc
    · cases hc; omega
    · split at hc
      · cases hc
      · cases hc; exact hstop

theorem Sane.step (h : Sane t)
    (hany : t.mContainANYPositionInInternalDimensions = false) (hd : t.dropped event = false) :
    Sane (t.step event) := by
  unfold SimpleConditionTracker.step
  rcases evaluate_cases t event hany with ⟨-, he⟩ | ⟨-, -, he⟩ | ⟨matchStart, hall, hs, he⟩
  · rw [he]
    exact ⟨.inr rfl, fun k c hc => by simp [handleStopAll] at hc⟩
  · rw [he]; exact ⟨h.initial, h.counts⟩
  · rw [he]
    have hspec := event_spec hd hall hs
    refine ⟨by rw [hspec.initial]; exact h.initial, fun k c hc => ?_⟩
    rw [hspec.lookup] at hc
    split at hc
    · exact entryAfter_nonneg (fun c hc => h.counts _ c hc) c hc
    · exact h.counts k c hc

/-- What a start or stop of a key records as changed. -/
structure ChangeSpec (t : SimpleConditionTracker) (key : HashableDimensionKey) (r : Evaluation) : Prop where
  toTrue : ∀ k, k ∈ r.tracker.mLastChangedToTrueDimensions ↔ k ∈ t.mLastChangedToTrueDimensions ∨
    k = key ∧ t.valueOf key ≠ kTrue ∧ r.tracker.valueOf key = kTrue
  toFalse : ∀ k, k ∈ r.tracker.mLastChangedToFalseDimensions ↔ k ∈ t.mLastChangedToFalseDimensions ∨
    k = key ∧ t.valueOf key ≠ kFalse ∧ r.tracker.valueOf key = kFalse
  changed : r.tracker.valueOf key ≠ t.valueOf key → r.changedCache = true

theorem entryValue_unknown (entry : Option Int) : entryValue kUnknown entry =
    match entry with
    | none => kUnknown
    | some c => ofBool (c > 0) := by
  cases entry with
  | none => rfl
  | some c =>
    simp only [entryValue, sliceState]
    cases decide (c > 0) <;> rfl

theorem entryValue_false (entry : Option Int) : entryValue kFalse entry =
    match entry with
    | none => kFalse
    | some c => ofBool (c > 0) := by
  cases entry with
  | none => rfl
  | some c =>
    simp only [entryValue, sliceState]
    cases decide (c > 0) <;> rfl

theorem handleNewKey_change (h : Sane t) (key : HashableDimensionKey)
    (matchStart : Bool) (hl : t.mSlicedConditionState.lookup key = none) :
    ChangeSpec t key (t.handleNewKey key matchStart) := by
  have hspec := handleNewKey_spec t key matchStart hl
  have hnew := valueOf_eq (t.handleNewKey key matchStart).tracker key
  have hold := valueOf_eq t key
  rw [hspec.initial, hspec.lookup, if_pos rfl, hl] at hnew
  rw [hl] at hold
  rcases h.initial with hi | hi
  · rw [hi, entryValue_unknown] at hnew hold
    cases matchStart
    · simp only [entryAfter, Bool.false_and, Bool.false_eq_true, if_false, ne_eq, reduceCtorEq,
        not_false_eq_true, if_true] at hnew
      refine ⟨fun k => ?_, fun k => ?_, fun _ => ?_⟩
      · rw [hnew]; simp [handleNewKey, hi, ofBool]
      · rw [hnew, hold]; simp [handleNewKey, hi, ofBool, or_comm]
      · simp [handleNewKey, hi]
    · simp only [entryAfter, ne_eq, reduceCtorEq, not_false_eq_true, decide_true, Bool.and_self, if_true] at hnew
      refine ⟨fun k => ?_, fun k => ?_, fun _ => ?_⟩
      · rw [hnew, hold]; simp [handleNewKey, hi, ofBool, or_comm]
      · rw [hnew]; simp [handleNewKey, hi, ofBool]
      · simp [handleNewKey, hi]
  · rw [hi, entryValue_false] at hnew hold
    cases matchStart
    · simp only [entryAfter, Bool.false_and, Bool.false_eq_true, if_false, ne_eq, not_true_eq_false] at hnew
      refine ⟨fun k => ?_, fun k => ?_, fun hne => ?_⟩
      · rw [hnew]; simp [handleNewKey, hi]
      · rw [hold]; simp [handleNewKey, hi]
      · exact absurd (hnew.trans hold.symm) hne
    · simp only [entryAfter, ne_eq, reduceCtorEq, not_false_eq_true, decide_true, Bool.and_self, if_true] at hnew
      refine ⟨fun k => ?_, fun k => ?_, fun _ => ?_⟩
      · rw [hnew, hold]; simp [handleNewKey, hi, ofBool, or_comm]
      · rw [hnew]; simp [handleNewKey, hi, ofBool]
      · simp [handleNewKey, hi]

theorem valueOf_some (h : Sane t) {c : Int}
    (hl : t.mSlicedConditionState.lookup key = some c) : t.valueOf key = ofBool (c > 0) := by
  rw [valueOf_eq, hl]
  rcases h.initial with hi | hi
  · rw [hi, entryValue_unknown]
  · rw [hi, entryValue_false]

theorem handleStart_change (h : Sane t) (key : HashableDimensionKey) {c : Int}
    (hl : t.mSlicedConditionState.lookup key = some c) : ChangeSpec t key (t.handleStart key c) := by
  have hc := h.counts key c hl
  have hspec := handleStart_spec t key hl
  have hold := valueOf_some h hl
  have hnew : (t.handleStart key c).tracker.valueOf key = kTrue := by
    have hs : Sane (t.handleStart key c).tracker := by
      refine ⟨h.initial, fun k d hd => ?_⟩
      rw [hspec.lookup] at hd
      split at hd
      · exact entryAfter_nonneg (fun c hc => h.counts _ c hc) d hd
      · exact h.counts k d hd
    have hl' : (t.handleStart key c).tracker.mSlicedConditionState.lookup key = some (c + 1) := by
      rw [hspec.lookup, if_pos rfl, hl]; rfl
    rw [valueOf_some hs hl', ofBool, if_pos (by simp; omega)]
  by_cases h0 : c = 0
  · subst h0
    have hold : t.valueOf key = kFalse := hold
    refine ⟨fun k => ?_, fun k => ?_, fun _ => rfl⟩
    · rw [hnew, hold]; simp [handleStart, or_comm]
    · rw [hnew]; simp [handleStart]
  · have hold : t.valueOf key = kTrue := by rw [hold, ofBool, if_pos (by simp; omega)]
    refine ⟨fun k => ?_, fun k => ?_, fun hne => ?_⟩
    · rw [hold]; simp [handleStart, h0]
    · rw [hnew]; simp [handleStart]
    · exact absurd (hnew.trans hold.symm) hne

theorem handleStop_change (h : Sane t) (key : HashableDimensionKey) {c : Int}
    (hl : t.mSlicedConditionState.lookup key = some c) : ChangeSpec t key (t.handleStop key c) := by
  have hc := h.counts key c hl
  have hspec := handleStop_spec t key hl
  have hold := valueOf_some h hl
  have hn0 : 0 ≤ countAfterStop t.mCountNesting c := by
    unfold countAfterStop
    split
    · split <;> omega
    · exact hc
  have hzero : c = 0 → countAfterStop t.mCountNesting c = 0 := by
    rintro rfl; rfl
  have hnew : (t.handleStop key c).tracker.valueOf key = ofBool (countAfterStop t.mCountNesting c > 0) := by
    rw [valueOf_eq, hspec.initial, hspec.lookup, if_pos rfl, hl]
    simp only [entryAfter, Bool.false_eq_true, if_false]
    rcases h.initial with hi | hi
    · rw [hi, if_neg (by simp), entryValue_unknown]
    · rw [hi]
      split
      · rename_i h0
        rw [entryValue_false, h0.2]; rfl
      · rw [entryValue_false]
  generalize hm : countAfterStop t.mCountNesting c = m at *
  by_cases hpos : c > 0
  · have hold : t.valueOf key = kTrue := by rw [hold]; simp [ofBool, hpos]
    by_cases h0 : m = 0
    · have hnew : (t.handleStop key c).tracker.valueOf key = kFalse := by rw [hnew, h0]; rfl
      refine ⟨fun k => ?_, fun k => ?_, fun _ => ?_⟩
      · rw [hold]; simp [handleStop]
      · rw [hnew, hold]; simp [handleStop, hm, hpos, h0, or_comm]
      · simp [handleStop, hm, hpos, h0]
    · have hnew : (t.handleStop key c).tracker.valueOf key = kTrue := by
        rw [hnew, ofBool, if_pos (by simp; omega)]
      refine ⟨fun k => ?_, fun k => ?_, fun hne => ?_⟩
      · rw [hold]; simp [handleStop]
      · rw [hnew]; simp [handleStop, hm, h0]
      · exact absurd (hnew.trans hold.symm) hne
  · -- a stop of a key that is not started changes nothing
    have h0 : c = 0 := by omega
    have hm0 := hzero h0
    have hold : t.valueOf key = kFalse := by rw [hold, h0]; rfl
    have hnew : (t.handleStop key c).tracker.valueOf key = kFalse := by rw [hnew, hm0]; rfl
    refine ⟨fun k => ?_, fun k => ?_, fun hne => ?_⟩
    · rw [hnew]; simp [handleStop]
    · rw [hold]; simp [handleStop, hpos]
    · exact absurd (hnew.trans hold.symm) hne

theorem handleConditionEvent_change (h : Sane t) (key : HashableDimensionKey)
    (matchStart : Bool) (hg : t.hitGuardRail key = false) :
    ChangeSpec t key (t.handleConditionEvent key matchStart) := by
  unfold handleConditionEvent
  rw [hg]
  simp only [Bool.false_eq_true, if_false]
  cases hl : t.mSlicedConditionState.lookup key with
  | none => exact handleNewKey_change h key matchStart hl
  | some c =>
    cases matchStart
    · exact handleStop_change h key hl
    · exact handleStart_change h key hl

theorem mem_foldl_started (l : List (Sigma fun _ : HashableDimensionKey => Int)) (s : Finset HashableDimensionKey)
    (k : HashableDimensionKey) :
    k ∈ l.foldl (fun s cond => if cond.2 > 0 then insert cond.1 s else s) s ↔
      k ∈ s ∨ ∃ c, (⟨k, c⟩ : Sigma fun _ : HashableDimensionKey => Int) ∈ l ∧ c > 0 := by
  induction l generalizing s with
  | nil => simp
  | cons e l ih =>
    obtain ⟨key, v⟩ := e
    rw [List.foldl_cons, ih]
    constructor
    · rintro (hs | ⟨c, hm, hc⟩)
      · split at hs
        · rename_i hv
          rcases Finset.mem_insert.1 hs with rfl | hs
          · exact .inr ⟨v, List.mem_cons_self .., hv⟩
          · exact .inl hs
        · exact .inl hs
      · exact .inr ⟨c, List.mem_cons_of_mem _ hm, hc⟩
    · rintro (hs | ⟨c, hm, hc⟩)
      · refine .inl ?_
        split
        · exact Finset.mem_insert_of_mem hs
        · exact hs
      · rcases List.mem_cons.1 hm with heq | hm
        · cases heq
          exact .inl (by rw [if_pos hc]; exact Finset.mem_insert_self _ _)
        · exact .inr ⟨c, hm, hc⟩

theorem mem_handleStopAll_toFalse (t : SimpleConditionTracker) (k : HashableDimensionKey) :
    k ∈ t.handleStopAll.tracker.mLastChangedToFalseDimensions ↔
      k ∈ t.mLastChangedToFalseDimensions ∨ ∃ c, t.mSlicedConditionState.lookup k = some c ∧ c > 0 := by
  unfold handleStopAll
  rw [mem_foldl_started]
  refine or_congr_right (exists_congr fun c => and_congr_left fun _ => ?_)
  exact AList.mem_lookup_iff.symm

theorem handleStopAll_value (t : SimpleConditionTracker) (k : HashableDimensionKey) :
    t.handleStopAll.tracker.valueOf k = kFalse := by
  rw [valueOf_eq]; rfl

theorem ofBool_eq_true (b : Bool) : ofBool b = kTrue ↔ b = true := by cases b <;> simp [ofBool]

/-- What an event changes, exactly: the keys that became true, the keys that became false (all of
those that were true), and the changed flag. -/
structure Changes (t : SimpleConditionTracker) (r : Evaluation) : Prop where
  toTrue : ∀ k, k ∈ r.tracker.mLastChangedToTrueDimensions ↔ t.valueOf k ≠ kTrue ∧ r.tracker.valueOf k = kTrue
  toFalse : ∀ k, t.valueOf k = kTrue → r.tracker.valueOf k = kFalse → k ∈ r.tracker.mLastChangedToFalseDimensions
  ofToFalse : ∀ k ∈ r.tracker.mLastChangedToFalseDimensions, t.valueOf k ≠ kFalse ∧ r.tracker.valueOf k = kFalse
  changed : (∃ k, r.tracker.valueOf k ≠ t.valueOf k) → r.changedCache = true

theorem Sane.changes (h : Sane t)
    (hany : t.mContainANYPositionInInternalDimensions = false) (hd : t.dropped event = false) :
    Changes t (t.evaluate event) := by
  rcases evaluate_cases t event hany with ⟨-, he⟩ | ⟨-, -, he⟩ | ⟨matchStart, hall, hs, he⟩
  · -- a stop-all: everything is false afterwards, and exactly the started keys were true
    rw [he]
    refine ⟨fun k => ?_, fun k hk _ => ?_, fun k hk => ?_, ?_⟩
    · rw [handleStopAll_value]
      simp [handleStopAll, cleared]
    · rw [mem_handleStopAll_toFalse]
      refine .inr ?_
      rw [valueOf_eq] at hk
      cases hl : t.mSlicedConditionState.lookup k with
      | none =>
        rw [hl] at hk
        rcases h.initial with hi | hi
        · rw [hi] at hk; cases hk
        · rw [hi] at hk; cases hk
      | some c =>
        have hv := valueOf_some h hl
        rw [valueOf_eq, hk, eq_comm, ofBool_eq_true, decide_eq_true_eq] at hv
        exact ⟨c, hl, hv⟩
    · rw [mem_handleStopAll_toFalse] at hk
      refine ⟨?_, handleStopAll_value _ k⟩
      rcases hk with hk | ⟨c, hl, hc⟩
      · simp [cleared] at hk
      · have hv := valueOf_some h hl
        rw [hv]
        simp [ofBool, hc]
    · rintro ⟨k, hk⟩
      rw [handleStopAll_value, valueOf_eq] at hk
      simp only [handleStopAll, cleared, Bool.not_eq_true', Bool.and_eq_false_imp]
      intro hi
      have hi := of_decide_eq_true hi
      cases hl : t.mSlicedConditionState.lookup k with
      | none =>
        rw [hl, hi] at hk
        exact absurd rfl hk
      | some c =>
        have hm := AList.mem_lookup_iff.1 (Option.mem_def.2 hl)
        rw [List.isEmpty_eq_false_iff]
        exact List.ne_nil_of_mem hm
  · rw [he]
    refine ⟨fun k => ?_, fun k hk hk' => ?_, fun k hk => ?_, ?_⟩
    · have : t.cleared.valueOf k = t.valueOf k := rfl
      simp only [this]
      simp [cleared]
    · have hsame : t.cleared.valueOf k = t.valueOf k := rfl
      rw [hsame, hk] at hk'
      cases hk'
    · simp [cleared] at hk
    · rintro ⟨k, hk⟩
      exact absurd rfl hk
  · have hspec := event_spec hd hall hs
    have hsane : Sane t.cleared := ⟨h.initial, h.counts⟩
    have hg : t.cleared.hitGuardRail (t.outputKey event) = false := by
      simp only [dropped, hall, hs, Bool.not_false, Option.isSome_some, Bool.and_self, Bool.true_and] at hd
      exact hd
    have hch := handleConditionEvent_change hsane (t.outputKey event) matchStart hg
    rw [he]
    have hcl : ∀ k, t.cleared.valueOf k = t.valueOf k := fun _ => rfl
    have hother : ∀ k, k ≠ t.outputKey event →
        (t.cleared.handleConditionEvent (t.outputKey event) matchStart).tracker.valueOf k = t.valueOf k := by
      intro k hk
      rw [valueOf_eq, hspec.initial, hspec.lookup, if_neg hk, ← valueOf_eq, hcl]
    refine ⟨fun k => ?_, fun k hk hk' => ?_, fun k hk => ?_, ?_⟩
    · rw [hch.toTrue]
      constructor
      · rintro (hk | ⟨rfl, hk⟩)
        · simp [cleared] at hk
        · exact hk
      · intro hk
        by_cases hkey : k = t.outputKey event
        · subst hkey; exact .inr ⟨rfl, hk⟩
        · exact absurd (hother k hkey ▸ hk.2) hk.1
    · rw [hch.toFalse]
      by_cases hkey : k = t.outputKey event
      · subst hkey
        exact .inr ⟨rfl, by rw [hcl, hk]; simp, hk'⟩
      · rw [hother k hkey, hk] at hk'; cases hk'
    · rw [hch.toFalse] at hk
      rcases hk with hk | ⟨rfl, hk⟩
      · simp [cleared] at hk
      · exact hk
    · rintro ⟨k, hk⟩
      by_cases hkey : k = t.outputKey event
      · subst hkey; exact hch.changed hk
      · exact absurd (hother k hkey) hk

theorem run_sane (hany : (new p).mContainANYPositionInInternalDimensions = false)
    {events : List MatchedEvent} (hok : RunBelow (new p) events) :
    Sane (events.foldl SimpleConditionTracker.step (new p)) ∧
      Configured p (events.foldl SimpleConditionTracker.step (new p)) := by
  refine RunOk.inv (I := fun t => Sane t ∧ Configured p t) ?_ hok ⟨sane_new p, configured_new p⟩
  rintro t e hd ⟨hs, hc⟩
  exact ⟨hs.step (hc.any.trans hany) hd, step_configured hc hany hd⟩

/-- Without ANY positions, a sliced condition answers for every full key what the unsliced condition
answers after the stop-alls and the key's own starts and stops; and every further event that is not
dropped sets the changed flag and the changed sets as `Changes` says. -/
theorem sliced_condition_simulates (p : SimplePredicate) (hsliced : (new p).mSliced = true)
    (hany : (new p).mContainANYPositionInInternalDimensions = false) (events : List MatchedEvent)
    (hok : RunBelow (new p) events) :
    let t := events.foldl SimpleConditionTracker.step (new p)
    (∀ k, t.isConditionMet (some k) false kNotEvaluated =
      ((events.filter (relevant p k)).foldl SimpleConditionTracker.step (new p.unsliced)).isConditionMet
        none false kNotEvaluated) ∧
    (∀ k, (∀ e ∈ events, relevant p k e = false) →
      t.isConditionMet (some k) false kNotEvaluated = (new p).mInitialValue) ∧
    ∀ e, t.dropped e = false →
      ∃ toTrue toFalse, (t.step e).getChangedToTrueDimensions = some toTrue ∧
        (t.step e).getChangedToFalseDimensions = some toFalse ∧
        (∀ k, k ∈ toTrue ↔ t.valueOf k ≠ kTrue ∧ (t.step e).valueOf k = kTrue) ∧
        (∀ k, t.valueOf k = kTrue → (t.step e).valueOf k = kFalse → k ∈ toFalse) ∧
        (∀ k ∈ toFalse, t.valueOf k ≠ kFalse ∧ (t.step e).valueOf k = kFalse) ∧
        ((∃ k, (t.step e).valueOf k ≠ t.valueOf k) → (t.evaluate e).changedCache = true) := by
  intro t
  have hval : ∀ k, t.valueOf k =
      ((events.filter (relevant p k)).foldl SimpleConditionTracker.step (new p.unsliced)).unslicedValue := by
    intro k
    have h0 : Simulates (new p) (new p.unsliced) k := ⟨rfl, rfl⟩
    obtain ⟨hsim, -, hr⟩ := h0.run hany (configured_new p) (configured_new p.unsliced) hok
    exact hsim.value hr.sliced
  obtain ⟨hsane, hconf⟩ := run_sane hany hok
  refine ⟨hval, ?_, ?_⟩
  · intro k hk
    have hnil : events.filter (relevant p k) = [] := by
      rw [List.filter_eq_nil_iff]
      intro e he
      rw [hk e he]; exact Bool.false_ne_true
    rw [show t.isConditionMet (some k) false kNotEvaluated = _ from hval k, hnil]
    rw [List.foldl_nil, unslicedValue_eq _ rfl]
    rcases (sane_new p).initial with hi | hi
    · rw [show (new p.unsliced).mInitialValue = (new p).mInitialValue from rfl, hi]; rfl
    · rw [show (new p.unsliced).mInitialValue = (new p).mInitialValue from rfl, hi]; rfl
  · intro e hd
    have hch := hsane.changes (hconf.any.trans hany) hd
    have hs : (t.step e).mSliced = true := ((step_configured hconf hany hd).sliced).trans hsliced
    exact ⟨_, _, if_pos hs, if_pos hs, hch.toTrue, hch.toFalse, hch.ofToFalse, hch.changed⟩

/-- A predicate on field 1 of atom 10 and a start of the key 5: the key is true, and it is the one
that became true. -/
theorem sliced_condition_simulates_start :
    let p : SimplePredicate := ⟨some 0, some 1, none, false, .UNKNOWN, some (.mk 10 none [.mk 1 none []])⟩
    let e : MatchedEvent := ⟨[(⟨10, 0x00010000#32⟩, .INT 5)], fun i => if i = 0 then .kMatched else .kNotMatched⟩
    let k : HashableDimensionKey := [(⟨10, 0x00010000#32⟩, .INT 5)]
    ((new p).step e).valueOf k = kTrue ∧
      ∃ toTrue, ((new p).step e).getChangedToTrueDimensions = some toTrue ∧ k ∈ toTrue := by
  intro p e k
  have hok : RunBelow (new p) [e] := ⟨by decide +kernel, trivial⟩
  have hval := (sliced_condition_simulates p (by decide +kernel) (by decide +kernel) [e] hok).1 k
  have hnext := (sliced_condition_simulates p (by decide +kernel) (by decide +kernel) [] trivial).2.2 e hok.1
  obtain ⟨toTrue, -, htrue, -, hmem, -⟩ := hnext
  have hk : ((new p).step e).valueOf k = kTrue := by
    rw [show ((new p).step e).valueOf k = _ from hval]; decide +kernel
  exact ⟨hk, toTrue, htrue, (hmem k).2 ⟨by decide +kernel, hk⟩⟩

/-- A predicate sliced by an ANY position does not track its keys: after a start of a key the sliced
condition still answers the initial value, the unsliced one true. -/
theorem any_position_not_tracked :
    let p : SimplePredicate := ⟨some 0, some 1, none, false, .UNKNOWN,
      some (.mk 10 none [.mk 1 (some .ANY) [.mk 1 none []]])⟩
    let e : MatchedEvent := ⟨[(⟨10, 0x02010101#32⟩, .INT 5)], fun i => if i = 0 then .kMatched else .kNotMatched⟩
    let k := (new p).outputKey e
    (new p).mSliced = true ∧ RunBelow (new p) [e] ∧ relevant p k e = true ∧
      ((new p).step e).isConditionMet (some k) false kNotEvaluated = kUnknown ∧
      ((new p.unsliced).step e).isConditionMet none false kNotEvaluated = kTrue := by
  refine ⟨by decide +kernel, ⟨by decide +kernel, trivial⟩, by decide +kernel, by decide +kernel, by decide +kernel⟩

end SimpleConditionTracker

end Statsd.Condition
