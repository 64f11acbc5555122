/-
The overall value of a sliced simple condition. For an event of none of its matchers the tracker
reports true when some key runs; for a start or a stop it reports the state of the one key it
touched, so a stop hides the other keys that still run.
-/
import Statsd.Condition.SlicedSimulation

namespace Statsd.Condition

open ConditionState

namespace SimpleConditionTracker

/-- The starts counted for a key. -/
def countOf (t : SimpleConditionTracker) (key : HashableDimensionKey) : Int := UMap.getD t.mSlicedConditionState key 0

/-- Some key's count is positive. -/
def AnyTrue (t : SimpleConditionTracker) : Prop := ∃ k, 0 < t.countOf k

/-- The reported value is the disjunction over the keys, the initial value or false without a running key. -/
def Disjunction (r : Evaluation) : Prop :=
  (r.conditionCache = kTrue ↔ r.tracker.AnyTrue) ∧
    (¬ r.tracker.AnyTrue → r.conditionCache = r.tracker.mInitialValue ∨ r.conditionCache = kFalse)

/-- The event is a start or stop that the guardrail drops, or a stop after which its key does not run. -/
def LeavesIdle (t : SimpleConditionTracker) (event : MatchedEvent) : Prop :=
  ∃ matchStart, t.matchedState event = some matchStart ∧
    (t.hitGuardRail (t.outputKey event) = true ∨
      matchStart = false ∧ countAfterStop t.mCountNesting (t.countOf (t.outputKey event)) = 0)

/-- The event leaves its key idle while another key runs. -/
def Masked (t : SimpleConditionTracker) (event : MatchedEvent) : Prop :=
  t.LeavesIdle event ∧ ∃ k, k ≠ t.outputKey event ∧ 0 < t.countOf k

/-- A tracker together with the value a metric without links was last pushed. -/
structure Watched where
  tracker : SimpleConditionTracker
  pushed : ConditionState

/-- One event: a changed condition is pushed to the metric. -/
def Watched.step (s : Watched) (event : MatchedEvent) : Watched where
  tracker := (s.tracker.evaluate event).tracker
  pushed := if (s.tracker.evaluate event).changedCache then (s.tracker.evaluate event).conditionCache else s.pushed

/-! ## Counts of the entries -/

theorem countOf_eq (t : SimpleConditionTracker) (key : HashableDimensionKey) :
    t.countOf key = (t.mSlicedConditionState.lookup key).getD 0 := rfl

variable {t : SimpleConditionTracker} {p : SimplePredicate} {key : HashableDimensionKey}

theorem Sane.countOf_nonneg (h : Sane t) (key : HashableDimensionKey) :
    0 ≤ t.countOf key := by
  rw [countOf_eq]
  cases hl : t.mSlicedConditionState.lookup key with
  | none => exact le_refl _
  | some c => exact h.counts key c hl

theorem Sane.initial_ne_true (h : Sane t) : t.mInitialValue ≠ kTrue := by
  rcases h.initial with hi | hi
  · rw [hi]; decide
  · rw [hi]; decide

theorem countAfterStop_nonneg (nesting : Bool) {c : Int} (h : 0 ≤ c) : 0 ≤ countAfterStop nesting c := by
  unfold countAfterStop
  split
  · split <;> omega
  · exact h

theorem entryAfter_running {nesting : Bool} {initial : ConditionState} {entry : Option Int} {matchStart : Bool}
    (hi : initial ≠ kTrue) (h : ∀ c, entry = some c → 0 ≤ c) :
    0 < (entryAfter nesting initial entry matchStart).getD 0 ↔
      matchStart = true ∨ 0 < countAfterStop nesting (entry.getD 0) := by
  cases entry with
  | none =>
    cases matchStart with
    | true => simp [entryAfter, hi]
    | false =>
      simp only [entryAfter, Bool.false_and, Bool.false_eq_true, if_false, false_or, Option.getD_none]
      split <;> simp [countAfterStop]
  | some c =>
    have hc := h c rfl
    cases matchStart with
    | true =>
      simp only [entryAfter, if_true, Option.getD_some, true_or, iff_true]
      omega
    | false =>
      simp only [entryAfter, Bool.false_eq_true, if_false, Option.getD_some, false_or]
      split
      · rename_i hz
        simp [hz.2]
      · rfl

theorem entryAfter_positive {nesting : Bool} {entry : Option Int} {matchStart : Bool}
    (h : ∀ c, entry = some c → 0 < c) : ∀ c, entryAfter nesting kFalse entry matchStart = some c → 0 < c := by
  intro c hc
  cases entry with
  | none =>
    cases matchStart with
    | true => simp [entryAfter] at hc; omega
    | false => simp [entryAfter] at hc
  | some d =>
    have hd := h d rfl
    have hnn := countAfterStop_nonneg nesting hd.le
    cases matchStart with
    | true => simp [entryAfter] at hc; omega
    | false =>
      simp only [entryAfter, Bool.false_eq_true, if_false, true_and] at hc
      split at hc
      · cases hc
      · cases hc
        omega

/-! ## A start or stop of one key -/

/-- What a start or stop that is not dropped does to the counts, and what it reports. -/
structure Touches (t : SimpleConditionTracker) (key : HashableDimensionKey) (matchStart : Bool)
    (r : Evaluation) : Prop where
  other : ∀ k, k ≠ key → r.tracker.countOf k = t.countOf k
  running : 0 < r.tracker.countOf key ↔ matchStart = true ∨ 0 < countAfterStop t.mCountNesting (t.countOf key)
  cache : r.conditionCache = ofBool (decide (0 < r.tracker.countOf key))
  same : r.changedCache = false → (0 < r.tracker.countOf key ↔ 0 < t.countOf key)

theorem EventSpec.counts (h : Sane t) {matchStart : Bool}
    {r : Evaluation} (hspec : EventSpec t key matchStart r) :
    (∀ k, k ≠ key → r.tracker.countOf k = t.countOf k) ∧
      (0 < r.tracker.countOf key ↔ matchStart = true ∨ 0 < countAfterStop t.mCountNesting (t.countOf key)) := by
  constructor
  · intro k hk
    rw [countOf_eq, hspec.lookup, if_neg hk, countOf_eq]
  · rw [countOf_eq, hspec.lookup, if_pos rfl, countOf_eq]
    exact entryAfter_running h.initial_ne_true fun c hc => h.counts key c hc

theorem handleNewKey_touches (h : Sane t) (key : HashableDimensionKey)
    (matchStart : Bool) (hl : t.mSlicedConditionState.lookup key = none) :
    Touches t key matchStart (t.handleNewKey key matchStart) := by
  have hc : t.countOf key = 0 := by rw [countOf_eq, hl]; rfl
  obtain ⟨hother, hrun⟩ := EventSpec.counts h (handleNewKey_spec t key matchStart hl)
  have hstart : 0 < (t.handleNewKey key matchStart).tracker.countOf key ↔ matchStart = true := by
    rw [hrun, hc]
    simp [countAfterStop]
  refine ⟨hother, hrun, ?_, ?_⟩
  · simp only [hstart, Bool.decide_eq_true]
    unfold handleNewKey
    dsimp only
    split
    · rfl
    · split <;> rfl
  · intro hch
    rw [hstart, hc]
    cases matchStart with
    | true => simp [handleNewKey, h.initial_ne_true] at hch
    | false => simp

theorem handleStart_touches (h : Sane t) (key : HashableDimensionKey) {c : Int}
    (hl : t.mSlicedConditionState.lookup key = some c) : Touches t key true (t.handleStart key c) := by
  have hc : t.countOf key = c := by rw [countOf_eq, hl]; rfl
  have hnn := h.counts key c hl
  obtain ⟨hother, hrun⟩ := EventSpec.counts h (handleStart_spec t key hl)
  have hpos : 0 < (t.handleStart key c).tracker.countOf key := hrun.2 (.inl rfl)
  refine ⟨hother, hrun, ?_, ?_⟩
  · rw [decide_eq_true hpos]; rfl
  · intro hch
    have hne : c ≠ 0 := of_decide_eq_false hch
    exact iff_of_true hpos (by omega)

theorem handleStop_touches (h : Sane t) (key : HashableDimensionKey) {c : Int}
    (hl : t.mSlicedConditionState.lookup key = some c) : Touches t key false (t.handleStop key c) := by
  have hc : t.countOf key = c := by rw [countOf_eq, hl]; rfl
  have hnn := h.counts key c hl
  have hafter := countAfterStop_nonneg t.mCountNesting hnn
  obtain ⟨hother, hrun⟩ := EventSpec.counts h (handleStop_spec t key hl)
  have hrun' : 0 < (t.handleStop key c).tracker.countOf key ↔ 0 < countAfterStop t.mCountNesting c := by
    rw [hrun, hc]; simp
  -- a key that does not run stays as it is
  have hidle : ¬ c > 0 → countAfterStop t.mCountNesting c = c := fun hc => if_neg hc
  refine ⟨hother, hrun, ?_, ?_⟩
  · simp only [hrun']
    unfold handleStop
    by_cases hpos : c > 0
    · by_cases hz : countAfterStop t.mCountNesting c = 0
      · simp [hpos, hz, ofBool]
      · have : 0 < countAfterStop t.mCountNesting c := by omega
        simp [hpos, hz, this]
    · simp [hpos, hidle hpos]
  · intro hch
    rw [hrun', hc]
    by_cases hpos : c > 0
    · have hz : countAfterStop t.mCountNesting c ≠ 0 := by simpa [handleStop, hpos] using hch
      exact iff_of_true (by omega) hpos
    · rw [hidle hpos]

theorem handleConditionEvent_touches (h : Sane t) (key : HashableDimensionKey)
    (matchStart : Bool) (hg : t.hitGuardRail key = false) :
    Touches t key matchStart (t.handleConditionEvent key matchStart) := by
  unfold handleConditionEvent
  rw [hg]
  simp only [Bool.false_eq_true, if_false]
  cases hl : t.mSlicedConditionState.lookup key with
  | none => exact handleNewKey_touches h key matchStart hl
  | some c =>
    cases matchStart
    · exact handleStop_touches h key hl
    · exact handleStart_touches h key hl

/-! ## One event of a sliced tracker -/

/-- The states of a sliced tracker without stop-all: with the default false every entry is a running key,
and a tracker sliced by an ANY position has no entries. -/
structure Live (p : SimplePredicate) (t : SimpleConditionTracker) : Prop where
  sane : Sane t
  configured : Configured p t
  positive : t.mInitialValue = kFalse → ∀ k c, t.mSlicedConditionState.lookup k = some c → 0 < c
  untracked : t.mContainANYPositionInInternalDimensions = true → t.mSlicedConditionState = ∅

theorem live_new (p : SimplePredicate) : Live p (new p) := by
  refine ⟨sane_new p, configured_new p, fun _ k c h => ?_, fun _ => rfl⟩
  simp [new] at h

theorem Live.cleared (h : Live p t) : Live p t.cleared :=
  ⟨⟨h.sane.initial, h.sane.counts⟩, cleared_configured h.configured, h.positive, h.untracked⟩

/-- An event is nothing to the tracker, or a start or stop: of no key under an ANY position, dropped at the
guardrail, or of its output key. -/
theorem Live.evaluate_cases (h : Live p t)
    (hsliced : (new p).mSliced = true) (hall : p.stop_all = none) (event : MatchedEvent) :
    (t.matchedState event = none ∧ t.evaluate event = ⟨t.cleared, t.cleared.overallCondition, false⟩) ∨
    ∃ matchStart, t.matchedState event = some matchStart ∧
      ((t.mContainANYPositionInInternalDimensions = true ∧ t.evaluate event = ⟨t.cleared, t.mInitialValue, false⟩) ∨
        (t.hitGuardRail (t.outputKey event) = true ∧ t.evaluate event = ⟨t.cleared, kUnknown, false⟩) ∨
        (t.mContainANYPositionInInternalDimensions = false ∧ t.hitGuardRail (t.outputKey event) = false ∧
          t.evaluate event = t.cleared.handleConditionEvent (t.outputKey event) matchStart)) := by
  have hst : t.cleared.mStopAllLogMatcherIndex = none := h.configured.stop_all.trans hall
  have hm : t.cleared.matchedState event = t.matchedState event := rfl
  have hd : t.cleared.mOutputDimensions = t.mOutputDimensions := rfl
  have ha : t.cleared.mContainANYPositionInInternalDimensions = t.mContainANYPositionInInternalDimensions := rfl
  have hne : t.mOutputDimensions.isEmpty = false := by
    rw [h.configured.dimensions]
    simpa [new] using hsliced
  have hkey : t.outputKey event = filterValues t.mOutputDimensions event.values := by simp [outputKey, hne]
  cases hs : t.matchedState event with
  | none =>
    refine .inl ⟨rfl, ?_⟩
    unfold evaluate evaluateCondition
    simp [hst, hm, hs, MatchedEvent.matched]
  | some matchStart =>
    refine .inr ⟨matchStart, rfl, ?_⟩
    have heval : t.evaluate event =
        if !t.mContainANYPositionInInternalDimensions then
          t.cleared.handleConditionEvent (t.outputKey event) matchStart
        else ⟨t.cleared, t.mInitialValue, false⟩ := by
      rw [hkey]
      unfold evaluate evaluateCondition
      simp only [hst, hm, hs, hd, ha, hne, MatchedEvent.matched]
      rfl
    cases hany : t.mContainANYPositionInInternalDimensions with
    | true => exact .inl ⟨rfl, by rw [heval, hany]; rfl⟩
    | false =>
      rw [heval, hany]
      have hcg : t.cleared.hitGuardRail (t.outputKey event) = t.hitGuardRail (t.outputKey event) := rfl
      cases hg : t.hitGuardRail (t.outputKey event) with
      | true =>
        refine .inr (.inl ⟨rfl, ?_⟩)
        simp only [Bool.not_false, if_true]
        unfold handleConditionEvent
        rw [hcg, hg, if_pos rfl]
      | false => exact .inr (.inr ⟨rfl, rfl, rfl⟩)

theorem Live.step (h : Live p t)
    (hsliced : (new p).mSliced = true) (hall : p.stop_all = none) (event : MatchedEvent) :
    Live p (t.step event) := by
  unfold SimpleConditionTracker.step
  rcases h.evaluate_cases hsliced hall event with ⟨-, he⟩ | ⟨matchStart, -, ⟨-, he⟩ | ⟨-, he⟩ | ⟨hany, hg, he⟩⟩
  · rw [he]; exact h.cleared
  · rw [he]; exact h.cleared
  · rw [he]; exact h.cleared
  · rw [he]
    have hspec := handleConditionEvent_spec t.cleared (t.outputKey event) matchStart hg
    refine ⟨⟨by rw [hspec.initial]; exact h.sane.initial, fun k c hc => ?_⟩,
      hspec.configured p h.cleared.configured, fun hi k c hc => ?_, fun ha => ?_⟩
    · rw [hspec.lookup] at hc
      split at hc
      · exact entryAfter_nonneg (fun c hc => h.sane.counts _ c hc) c hc
      · exact h.sane.counts k c hc
    · rw [hspec.initial] at hi
      have hpos := h.positive hi
      rw [hspec.lookup] at hc
      split at hc
      · rw [hi] at hc
        exact entryAfter_positive (fun c hc => hpos _ c hc) c hc
      · exact hpos k c hc
    · have hconf := hspec.configured p h.cleared.configured
      rw [hconf.any, ← h.configured.any, hany] at ha
      cases ha

theorem Live.anyTrue_of_full (h : Live p t)
    (hi : t.mInitialValue = kFalse) (hg : t.hitGuardRail key = true) : t.AnyTrue := by
  have hne : t.mSlicedConditionState.entries ≠ [] := by
    intro hnil
    simp [hitGuardRail, hnil, kDimensionKeySizeSoftLimit] at hg
  obtain ⟨e, he⟩ := List.exists_mem_of_ne_nil _ hne
  have hl : t.mSlicedConditionState.lookup e.1 = some e.2 := AList.mem_lookup_iff.2 he
  refine ⟨e.1, ?_⟩
  rw [countOf_eq, hl]
  exact h.positive hi e.1 e.2 hl

theorem overallCondition_true (t : SimpleConditionTracker) (hs : t.mSliced = true) :
    t.overallCondition = if t.mSlicedConditionState.entries.any (fun c => decide (c.2 > 0)) then kTrue
      else t.mInitialValue := if_pos hs

theorem any_iff_anyTrue (t : SimpleConditionTracker) :
    t.mSlicedConditionState.entries.any (fun c => decide (c.2 > 0)) = true ↔ t.AnyTrue := by
  rw [List.any_eq_true]
  constructor
  · rintro ⟨e, he, hpos⟩
    refine ⟨e.1, ?_⟩
    rw [countOf_eq, AList.mem_lookup_iff.2 he]
    exact of_decide_eq_true hpos
  · rintro ⟨k, hk⟩
    rw [countOf_eq] at hk
    cases hl : t.mSlicedConditionState.lookup k with
    | none => rw [hl] at hk; exact absurd hk (lt_irrefl _)
    | some c =>
      rw [hl] at hk
      exact ⟨⟨k, c⟩, AList.mem_lookup_iff.1 hl, decide_eq_true hk⟩

theorem anyTrue_iff_other (h : ¬ 0 < t.countOf key) :
    t.AnyTrue ↔ ∃ k, k ≠ key ∧ 0 < t.countOf k := by
  constructor
  · rintro ⟨k, hk⟩
    refine ⟨k, ?_, hk⟩
    rintro rfl
    exact h hk
  · rintro ⟨k, -, hk⟩
    exact ⟨k, hk⟩

theorem hitGuardRail_idle (hg : t.hitGuardRail key = true) :
    t.countOf key = 0 := by
  rw [countOf_eq]
  cases hl : t.mSlicedConditionState.lookup key with
  | none => rfl
  | some c => simp [hitGuardRail, hl] at hg

/-- The value reported for an event is the disjunction over the keys exactly when the event is not masked. -/
theorem Live.disjunction_iff (h : Live p t)
    (hsliced : (new p).mSliced = true) (hall : p.stop_all = none) (event : MatchedEvent) :
    Disjunction (t.evaluate event) ↔ ¬ t.Masked event := by
  have hi := h.sane.initial_ne_true
  rcases h.evaluate_cases hsliced hall event with ⟨hm, he⟩ | ⟨matchStart, hm, ⟨hany, he⟩ | ⟨hg, he⟩ | ⟨-, hg, he⟩⟩
  · -- no start or stop
    refine iff_of_true ?_ fun hmask => ?_
    swap
    · obtain ⟨⟨ms, hms, -⟩, -⟩ := hmask
      rw [hm] at hms; cases hms
    have hover := overallCondition_true t.cleared (h.configured.sliced.trans hsliced)
    rw [he]
    unfold Disjunction
    dsimp only
    rw [hover]
    by_cases hat : t.cleared.AnyTrue
    · rw [if_pos ((any_iff_anyTrue _).2 hat)]
      exact ⟨iff_of_true rfl hat, fun hn => absurd hat hn⟩
    · rw [if_neg fun ha => hat ((any_iff_anyTrue _).1 ha)]
      exact ⟨iff_of_false hi hat, fun _ => .inl rfl⟩
  · -- an ANY position: the tracker has no keys
    have hnone : ∀ k, ¬ 0 < t.countOf k := by
      intro k hk
      rw [countOf_eq, h.untracked hany] at hk
      exact absurd hk (lt_irrefl _)
    refine iff_of_true ?_ fun hm => hm.2.elim fun k hk => hnone k hk.2
    rw [he]
    exact ⟨iff_of_false hi fun ⟨k, hk⟩ => hnone k hk, fun _ => .inl rfl⟩
  · -- dropped: unknown is reported, which is right only if nothing runs
    rw [he]
    have hidle : ¬ 0 < t.countOf (t.outputKey event) := by
      rw [hitGuardRail_idle hg]
      exact lt_irrefl _
    have hmask : t.Masked event ↔ t.AnyTrue := by
      rw [anyTrue_iff_other hidle]
      exact ⟨fun hm => hm.2, fun hk => ⟨⟨matchStart, hm, .inl hg⟩, hk⟩⟩
    have hunknown : kUnknown ≠ kTrue := by decide
    rw [hmask]
    constructor
    · rintro ⟨htrue, -⟩ hat
      exact hunknown (htrue.2 hat)
    · intro hn
      refine ⟨iff_of_false hunknown hn, fun _ => .inl ?_⟩
      rcases h.sane.initial with hu | hf
      · exact hu.symm
      · exact absurd (h.anyTrue_of_full hf hg) hn
  · have htouch := handleConditionEvent_touches h.cleared.sane (t.outputKey event) matchStart hg
    rw [he]
    generalize t.cleared.handleConditionEvent (t.outputKey event) matchStart = r at htouch
    have hcl : ∀ k, t.cleared.countOf k = t.countOf k := fun _ => rfl
    have hother : (∃ k, k ≠ t.outputKey event ∧ 0 < r.tracker.countOf k) ↔
        ∃ k, k ≠ t.outputKey event ∧ 0 < t.countOf k := by
      refine exists_congr fun k => and_congr_right fun hk => ?_
      rw [htouch.other k hk, hcl]
    have hafter : 0 ≤ countAfterStop t.mCountNesting (t.countOf (t.outputKey event)) :=
      countAfterStop_nonneg _ (h.sane.countOf_nonneg _)
    have hidle : t.LeavesIdle event ↔ ¬ 0 < r.tracker.countOf (t.outputKey event) := by
      rw [htouch.running]
      constructor
      · rintro ⟨ms, hms, hgr | ⟨hf, hz⟩⟩
        · rw [hg] at hgr; cases hgr
        · rw [hm] at hms
          cases hms
          rintro (hs | hpos)
          · rw [hf] at hs; cases hs
          · exact absurd hpos (by rw [hcl]; exact hz ▸ lt_irrefl _)
      · intro hn
        refine ⟨matchStart, hm, .inr ⟨?_, ?_⟩⟩
        · cases matchStart
          · rfl
          · exact absurd (.inl rfl) hn
        · have : ¬ 0 < countAfterStop t.mCountNesting (t.countOf (t.outputKey event)) := fun hpos => hn (.inr hpos)
          omega
    unfold Masked Disjunction
    rw [hidle, ← hother, htouch.cache]
    by_cases hrun : 0 < r.tracker.countOf (t.outputKey event)
    · have hat : r.tracker.AnyTrue := ⟨_, hrun⟩
      refine iff_of_true ⟨iff_of_true ?_ hat, fun hn => absurd hat hn⟩ fun hm => hm.1 hrun
      rw [decide_eq_true hrun]; rfl
    · rw [decide_eq_false hrun, anyTrue_iff_other hrun]
      constructor
      · rintro ⟨hiff, -⟩ ⟨-, hk⟩
        exact absurd (hiff.2 hk) (by decide)
      · intro hn
        have hnk : ¬ ∃ k, k ≠ t.outputKey event ∧ 0 < r.tracker.countOf k := fun hk => hn ⟨hrun, hk⟩
        exact ⟨iff_of_false (by decide) hnk, fun _ => .inr rfl⟩

/-! ## Runs -/

theorem live_run (hsliced : (new p).mSliced = true) (hall : p.stop_all = none)
    (events : List MatchedEvent) : Live p (events.foldl SimpleConditionTracker.step (new p)) := by
  have hrun : ∀ (es : List MatchedEvent) (t : SimpleConditionTracker), Live p t →
      Live p (es.foldl SimpleConditionTracker.step t) := by
    intro es
    induction es with
    | nil => exact fun _ h => h
    | cons e es ih => exact fun t h => ih _ (h.step hsliced hall e)
  exact hrun events (new p) (live_new p)

theorem Live.anyTrue_unchanged (h : Live p t)
    (hsliced : (new p).mSliced = true) (hall : p.stop_all = none) {event : MatchedEvent}
    (hch : (t.evaluate event).changedCache = false) : (t.evaluate event).tracker.AnyTrue ↔ t.AnyTrue := by
  rcases h.evaluate_cases hsliced hall event with ⟨-, he⟩ | ⟨matchStart, -, ⟨-, he⟩ | ⟨-, he⟩ | ⟨-, hg, he⟩⟩
  · rw [he]; exact Iff.rfl
  · rw [he]; exact Iff.rfl
  · rw [he]; exact Iff.rfl
  · have htouch := handleConditionEvent_touches h.cleared.sane (t.outputKey event) matchStart hg
    rw [he] at hch ⊢
    refine exists_congr fun k => ?_
    by_cases hk : k = t.outputKey event
    · rw [hk]; exact htouch.same hch
    · rw [htouch.other k hk]; rfl

theorem Watched.step_pushed {s : Watched} (h : Live p s.tracker)
    (hsliced : (new p).mSliced = true) (hall : p.stop_all = none) {event : MatchedEvent}
    (hmask : ¬ s.tracker.Masked event) (hs : s.pushed = kTrue ↔ s.tracker.AnyTrue) :
    ((s.step event).pushed = kTrue ↔ (s.step event).tracker.AnyTrue) := by
  have hdis := (h.disjunction_iff hsliced hall event).2 hmask
  unfold Watched.step
  dsimp only
  cases hch : (s.tracker.evaluate event).changedCache with
  | true => exact hdis.1
  | false => exact hs.trans (h.anyTrue_unchanged hsliced hall hch).symm

/-- For every sliced predicate without stop-all, after every run of events, the value reported for the next
event is the disjunction over the keys exactly when the event is not masked; and in a run without masked
events a metric without links was last pushed true exactly when some key runs. -/
theorem overall_condition_disjunction (p : SimplePredicate) (hsliced : (new p).mSliced = true)
    (hall : p.stop_all = none) (events : List MatchedEvent) :
    (∀ event, Disjunction ((events.foldl SimpleConditionTracker.step (new p)).evaluate event) ↔
      ¬ (events.foldl SimpleConditionTracker.step (new p)).Masked event) ∧
    (RunOk Watched.step (fun s event => ¬ s.tracker.Masked event) ⟨new p, (new p).mInitialValue⟩ events →
      ((events.foldl Watched.step ⟨new p, (new p).mInitialValue⟩).pushed = kTrue ↔
        (events.foldl Watched.step ⟨new p, (new p).mInitialValue⟩).tracker.AnyTrue)) := by
  refine ⟨fun event => (live_run hsliced hall events).disjunction_iff hsliced hall event, fun hok => ?_⟩
  have hinv := hok.inv (I := fun s => Live p s.tracker ∧ (s.pushed = kTrue ↔ s.tracker.AnyTrue))
    (fun s e hmask ⟨hl, hp⟩ => ⟨hl.step hsliced hall e, Watched.step_pushed hl hsliced hall hmask hp⟩)
    ⟨live_new p, iff_of_false (sane_new p).initial_ne_true fun ⟨k, hk⟩ => by simp [countOf_eq, new] at hk⟩
  exact hinv.2

/-- A predicate on field 1 of atom 10, and its start of a key. -/
def slicedExample : SimplePredicate := ⟨some 0, some 1, none, true, .FALSE, some (.mk 10 none [.mk 1 none []])⟩

def keyEvent (matcher : Nat) (key : Int) : MatchedEvent :=
  ⟨[(⟨10, 0x00010000#32⟩, .INT key)], fun i => if i = matcher then .kMatched else .kNotMatched⟩

theorem not_masked_new (p : SimplePredicate) (event : MatchedEvent) : ¬ (new p).Masked event := by
  rintro ⟨-, k, -, hk⟩
  simp [countOf_eq, new] at hk

/-- The start of key 5 is pushed as true, and the value reported for it is the disjunction. -/
theorem overall_condition_disjunction_start :
    ([keyEvent 0 5].foldl Watched.step ⟨new slicedExample, (new slicedExample).mInitialValue⟩).tracker.AnyTrue ∧
      Disjunction ((new slicedExample).evaluate (keyEvent 0 5)) := by
  have hsliced : (new slicedExample).mSliced = true := by decide +kernel
  have hrun := (overall_condition_disjunction slicedExample hsliced rfl [keyEvent 0 5]).2
    ⟨not_masked_new _ _, True.intro⟩
  have hone := (overall_condition_disjunction slicedExample hsliced rfl []).1 (keyEvent 0 5)
  exact ⟨hrun.1 (by decide +kernel), hone.2 (not_masked_new _ _)⟩

/-- Keys 5 and 6 are started and 6 is stopped: false is reported and pushed, though 5 still runs. -/
theorem overall_condition_hides_running_key :
    ¬ ∀ p : SimplePredicate, (new p).mSliced = true → p.stop_all = none → ∀ (events : List MatchedEvent)
      (event : MatchedEvent), Disjunction ((events.foldl SimpleConditionTracker.step (new p)).evaluate event) := by
  intro h
  have hdis := h slicedExample (by decide +kernel) rfl [keyEvent 0 5, keyEvent 0 6] (keyEvent 1 6)
  have htrue : (([keyEvent 0 5, keyEvent 0 6].foldl SimpleConditionTracker.step (new slicedExample)).evaluate
      (keyEvent 1 6)).conditionCache = kTrue :=
    hdis.1.2 ⟨[(⟨10, 0x00010000#32⟩, .INT 5)], by decide +kernel⟩
  exact absurd htrue (by decide +kernel)

end SimpleConditionTracker

end Statsd.Condition
