/-
What an event does to an unsliced simple condition: the condition it reports is the one the tracker holds afterwards,
and it reports a change when that is not the one it held before. But a stop-all of a condition that was started and
stopped is a change from false to false, unless the predicate's initial value is known to be false.
-/
import Statsd.Condition.ConditionSound

namespace Statsd.Condition

open ConditionState

/-- A stop-all comes to a simple condition that was started and stopped, when its initial value is not known. -/
def StoppedAgain (t : SimpleConditionTracker) (event : MatchedEvent) : Prop :=
  event.matched t.mStopAllLogMatcherIndex = true ∧ t.mInitialValue = kUnknown ∧
    t.mSlicedConditionState.lookup DEFAULT_DIMENSION_KEY = some 0

/-- What an event does to an unsliced simple condition. -/
structure LeafStep (t : SimpleConditionTracker) (event : MatchedEvent) (r : SimpleConditionTracker.Evaluation) : Prop where
  ok : LeafOk r.tracker
  cache : r.conditionCache = leafState r.tracker
  changed : r.changedCache = true ↔ leafState r.tracker ≠ leafState t ∨ StoppedAgain t event

variable {t : SimpleConditionTracker} {event : MatchedEvent}

theorem LeafOk.entries_isEmpty (h : LeafOk t) :
    t.mSlicedConditionState.entries.isEmpty = true ↔
      t.mSlicedConditionState.lookup DEFAULT_DIMENSION_KEY = none := by
  constructor
  · intro he
    rw [List.isEmpty_iff] at he
    rw [AList.lookup_eq_none, AList.mem_keys, AList.keys, he]
    exact List.not_mem_nil
  · intro hl
    rw [List.isEmpty_iff, List.eq_nil_iff_forall_not_mem]
    rintro ⟨k, c⟩ hk
    have hkc := AList.mem_lookup_iff.2 hk
    by_cases hd : k = DEFAULT_DIMENSION_KEY
    · rw [hd, hl] at hkc
      cases hkc
    · rw [h.only k hd] at hkc
      cases hkc

theorem leafState_none (h : t.mSlicedConditionState.lookup DEFAULT_DIMENSION_KEY = none) :
    leafState t = t.mInitialValue := by
  unfold leafState
  rw [h]

theorem leafState_some {c : Int}
    (h : t.mSlicedConditionState.lookup DEFAULT_DIMENSION_KEY = some c) :
    leafState t = if c > 0 then kTrue else kFalse := by
  unfold leafState
  rw [h]

theorem leafOk_insert {t t' : SimpleConditionTracker} (h : LeafOk t) {c : Int}
    (hmap : t'.mSlicedConditionState = t.mSlicedConditionState.insert DEFAULT_DIMENSION_KEY c)
    (hinitial : t'.mInitialValue = t.mInitialValue) (hc : 0 ≤ c ∧ (t.mInitialValue = kFalse → 0 < c)) : LeafOk t' := by
  refine ⟨by rw [hinitial]; exact h.initial, fun k hk => ?_, fun c' hc' => ?_⟩
  · rw [hmap, AList.lookup_insert_ne hk]
    exact h.only k hk
  · rw [hmap, AList.lookup_insert] at hc'
    obtain rfl := Option.some.inj hc'
    rw [hinitial]
    exact hc

theorem handleStopAll_step (h : LeafOk t)
    (hm : event.matched t.mStopAllLogMatcherIndex = true) : LeafStep t event t.handleStopAll := by
  refine ⟨⟨.inr rfl, fun _ _ => rfl, nofun⟩, rfl, ?_⟩
  have hafter : leafState t.handleStopAll.tracker = kFalse := rfl
  have hempty := h.entries_isEmpty
  rw [hafter]
  unfold SimpleConditionTracker.handleStopAll StoppedAgain
  dsimp only
  cases hl : t.mSlicedConditionState.lookup DEFAULT_DIMENSION_KEY with
  | none =>
    rw [leafState_none hl, hempty.2 hl]
    rcases h.initial with hi | hi <;> simp [hi]
  | some c =>
    have hne : t.mSlicedConditionState.entries.isEmpty = false := by
      rw [Bool.eq_false_iff, ne_eq, hempty, hl]
      exact nofun
    obtain ⟨hnonneg, hpos⟩ := h.count c hl
    rw [leafState_some hl, hne]
    by_cases hc : c > 0
    · simp [hc]
    · have hz : c = 0 := by omega
      rcases h.initial with hi | hi
      · simp [hi, hz, hm]
      · exact absurd (hpos hi) hc

theorem handleNewKey_step (h : LeafOk t) (matchStart : Bool)
    (hm : event.matched t.mStopAllLogMatcherIndex = false)
    (hl : t.mSlicedConditionState.lookup DEFAULT_DIMENSION_KEY = none) :
    LeafStep t event (t.handleNewKey DEFAULT_DIMENSION_KEY matchStart) := by
  have hno : ¬ StoppedAgain t event := by
    rintro ⟨hall, -⟩
    rw [hm] at hall
    cases hall
  have hbefore := leafState_none hl
  unfold SimpleConditionTracker.handleNewKey
  dsimp only
  cases matchStart with
  | true =>
    have hne : t.mInitialValue ≠ kTrue := by
      rcases h.initial with hi | hi <;> rw [hi] <;> exact nofun
    rw [if_pos (by rw [Bool.true_and]; exact decide_eq_true hne)]
    have hafter := leafState_some (t := { t with
        mSlicedConditionState := t.mSlicedConditionState.insert DEFAULT_DIMENSION_KEY 1
        mLastChangedToTrueDimensions := insert DEFAULT_DIMENSION_KEY t.mLastChangedToTrueDimensions })
      (AList.lookup_insert _)
    refine ⟨leafOk_insert h rfl rfl ⟨by omega, fun _ => by omega⟩, ?_, ?_⟩
    · rw [hafter]
      rfl
    · rw [hafter, hbefore]
      exact iff_of_true rfl (.inl fun he => hne he.symm)
  | false =>
    rw [Bool.false_and, if_neg Bool.false_ne_true]
    rcases h.initial with hi | hi
    · rw [if_pos (by rw [hi]; exact nofun)]
      have hafter := leafState_some (t := { t with
          mSlicedConditionState := t.mSlicedConditionState.insert DEFAULT_DIMENSION_KEY 0
          mLastChangedToFalseDimensions := insert DEFAULT_DIMENSION_KEY t.mLastChangedToFalseDimensions })
        (AList.lookup_insert _)
      refine ⟨leafOk_insert h rfl rfl ⟨le_refl _, fun hf => by rw [hi] at hf; cases hf⟩, ?_, ?_⟩
      · rw [hafter]
        rfl
      · rw [hafter, hbefore, hi]
        exact iff_of_true rfl (.inl nofun)
    · rw [if_neg (not_not.2 hi)]
      refine ⟨h, ?_, ?_⟩
      · rw [hbefore, hi]
        rfl
      · exact iff_of_false nofun fun hor => hor.elim (fun hne => hne rfl) hno

theorem handleStart_step (h : LeafOk t) (hm : event.matched t.mStopAllLogMatcherIndex = false) {c : Int}
    (hl : t.mSlicedConditionState.lookup DEFAULT_DIMENSION_KEY = some c) :
    LeafStep t event (t.handleStart DEFAULT_DIMENSION_KEY c) := by
  obtain ⟨hnonneg, -⟩ := h.count c hl
  have hafter : leafState (t.handleStart DEFAULT_DIMENSION_KEY c).tracker = kTrue := by
    rw [leafState_some (c := c + 1) (AList.lookup_insert _), if_pos (by omega)]
  refine ⟨leafOk_insert h rfl rfl ⟨by omega, fun _ => by omega⟩, hafter.symm, ?_⟩
  rw [hafter, leafState_some hl]
  unfold SimpleConditionTracker.handleStart StoppedAgain
  by_cases hc : c > 0
  · have hz : c ≠ 0 := by omega
    simp [hc, hz, hm]
  · have hz : c = 0 := by omega
    simp [hz]

theorem handleStop_step (h : LeafOk t) (hm : event.matched t.mStopAllLogMatcherIndex = false) {c : Int}
    (hl : t.mSlicedConditionState.lookup DEFAULT_DIMENSION_KEY = some c) :
    LeafStep t event (t.handleStop DEFAULT_DIMENSION_KEY c) := by
  obtain ⟨hnonneg, hpos⟩ := h.count c hl
  have hcount : 0 ≤ SimpleConditionTracker.countAfterStop t.mCountNesting c := by
    unfold SimpleConditionTracker.countAfterStop
    split
    · split <;> omega
    · exact hnonneg
  have hzero : c = 0 → SimpleConditionTracker.countAfterStop t.mCountNesting c = 0 := by
    rintro rfl
    rfl
  have hno : ¬ StoppedAgain t event := by
    rintro ⟨hall, -⟩
    rw [hm] at hall
    cases hall
  unfold SimpleConditionTracker.handleStop
  dsimp only
  generalize SimpleConditionTracker.countAfterStop t.mCountNesting c = newCount at hcount hzero
  -- the state after the stop goes by the new count
  have hafter : ∀ t' : SimpleConditionTracker, t'.mInitialValue = t.mInitialValue →
      t'.mSlicedConditionState = (if t.mInitialValue = kFalse ∧ newCount = 0 then
        t.mSlicedConditionState.erase DEFAULT_DIMENSION_KEY
        else t.mSlicedConditionState.insert DEFAULT_DIMENSION_KEY newCount) →
      LeafOk t' ∧ leafState t' = if newCount > 0 then kTrue else kFalse := by
    intro t' hi hmap
    by_cases he : t.mInitialValue = kFalse ∧ newCount = 0
    · rw [if_pos he] at hmap
      have hnone : t'.mSlicedConditionState.lookup DEFAULT_DIMENSION_KEY = none := by
        rw [hmap]
        exact AList.lookup_erase _ _
      refine ⟨⟨by rw [hi]; exact h.initial, fun k hk => ?_, fun c' hc' => ?_⟩, ?_⟩
      · rw [hmap, AList.lookup_erase_ne hk]
        exact h.only k hk
      · rw [hnone] at hc'
        cases hc'
      · rw [leafState_none hnone, hi, he.1, if_neg (by omega)]
    · rw [if_neg he] at hmap
      have hsome : t'.mSlicedConditionState.lookup DEFAULT_DIMENSION_KEY = some newCount := by
        rw [hmap]
        exact AList.lookup_insert _
      refine ⟨leafOk_insert h hmap hi ⟨hcount, fun hf => ?_⟩, leafState_some hsome⟩
      rcases lt_or_eq_of_le hcount with hlt | heq
      · exact hlt
      · exact absurd ⟨hf, heq.symm⟩ he
  obtain ⟨hok, hstate⟩ := hafter { t with
      mSlicedConditionState := if t.mInitialValue = kFalse ∧ newCount = 0 then
        t.mSlicedConditionState.erase DEFAULT_DIMENSION_KEY
        else t.mSlicedConditionState.insert DEFAULT_DIMENSION_KEY newCount
      mLastChangedToFalseDimensions := if (decide (c > 0) && decide (newCount = 0)) = true then
        insert DEFAULT_DIMENSION_KEY t.mLastChangedToFalseDimensions else t.mLastChangedToFalseDimensions } rfl rfl
  refine ⟨hok, ?_, ?_⟩
  · rw [hstate]
    by_cases hc : c > 0
    · by_cases hn : newCount = 0
      · simp [hc, hn]
      · have : newCount > 0 := by omega
        simp [hc, hn, this, ofBool]
    · have hn := hzero (by omega)
      simp [hc, hn, ofBool]
  · rw [hstate, leafState_some hl]
    by_cases hc : c > 0
    · by_cases hn : newCount = 0
      · simp [hc, hn]
      · have : newCount > 0 := by omega
        simp [hc, hn, this, hno]
    · have hn := hzero (by omega)
      simp [hc, hn, hno]

/-- A tracker without dimensions. -/
structure Unsliced (t : SimpleConditionTracker) : Prop where
  sliced : t.mSliced = false
  dimensions : t.mOutputDimensions = []
  any : t.mContainANYPositionInInternalDimensions = false

theorem unsliced_of_configured {p : SimplePredicate} (hp : p.dimensions = none)
    (h : SimpleConditionTracker.Configured p t) : Unsliced t := by
  have hnew : Unsliced (SimpleConditionTracker.new p) := by
    unfold SimpleConditionTracker.new
    dsimp only
    rw [hp]
    exact ⟨rfl, rfl, rfl⟩
  exact ⟨h.sliced.trans hnew.sliced, h.dimensions.trans hnew.dimensions, h.any.trans hnew.any⟩

theorem LeafOk.cleared (h : LeafOk t) : LeafOk t.cleared := ⟨h.initial, h.only, h.count⟩

theorem evaluate_step (h : LeafOk t) (hu : Unsliced t) (event : MatchedEvent) :
    LeafStep t event (t.evaluate event) := by
  -- the changed sets do not matter
  have hcleared : ∀ r, LeafStep t.cleared event r → LeafStep t event r := fun r hr => ⟨hr.ok, hr.cache, hr.changed⟩
  rcases SimpleConditionTracker.evaluate_cases t event hu.any with ⟨hm, he⟩ | ⟨hm, -, he⟩ | ⟨matchStart, hm, -, he⟩
  · rw [he]
    exact hcleared _ (handleStopAll_step h.cleared hm)
  · rw [he]
    refine ⟨h.cleared, ?_, ?_⟩
    · unfold SimpleConditionTracker.overallCondition leafState
      have hsliced : t.cleared.mSliced = false := hu.sliced
      rw [hsliced, if_neg Bool.false_ne_true]
      cases t.cleared.mSlicedConditionState.lookup DEFAULT_DIMENSION_KEY with
      | none => rfl
      | some c =>
        by_cases hc : c > 0 <;> simp [ofBool, hc]
    · refine iff_of_false Bool.false_ne_true fun hor => hor.elim (fun hne => hne rfl) ?_
      rintro ⟨hall, -⟩
      rw [hm] at hall
      cases hall
  · have hkey : t.outputKey event = DEFAULT_DIMENSION_KEY := by
      unfold SimpleConditionTracker.outputKey
      rw [hu.dimensions]
      rfl
    have hg : t.cleared.hitGuardRail DEFAULT_DIMENSION_KEY = false := by
      unfold SimpleConditionTracker.hitGuardRail
      have hsliced : t.cleared.mSliced = false := hu.sliced
      rw [hsliced]
      rfl
    rw [he, hkey]
    refine hcleared _ ?_
    unfold SimpleConditionTracker.handleConditionEvent
    rw [hg, if_neg Bool.false_ne_true]
    cases hl : t.cleared.mSlicedConditionState.lookup DEFAULT_DIMENSION_KEY with
    | none => exact handleNewKey_step h.cleared matchStart hm hl
    | some c =>
      cases matchStart with
      | true => exact handleStart_step h.cleared hm hl
      | false => exact handleStop_step h.cleared hm hl

theorem evaluate_unmatched (hu : Unsliced t)
    (hstart : event.matched t.mStartLogMatcherIndex = false) (hstop : event.matched t.mStopLogMatcherIndex = false)
    (hall : event.matched t.mStopAllLogMatcherIndex = false) : (t.evaluate event).tracker = t.cleared := by
  have hnone : t.matchedState event = none := by
    unfold SimpleConditionTracker.matchedState
    rw [hstart, hstop]
    rfl
  rcases SimpleConditionTracker.evaluate_cases t event hu.any with ⟨hm, -⟩ | ⟨-, -, he⟩ | ⟨matchStart, -, hm, -⟩
  · rw [hall] at hm
    cases hm
  · rw [he]
  · rw [hnone] at hm
    cases hm

/-- What an event does to any simple condition. -/
structure Evaluates (t : SimpleConditionTracker) (r : SimpleConditionTracker.Evaluation) : Prop where
  configured : ∀ p, SimpleConditionTracker.Configured p t → SimpleConditionTracker.Configured p r.tracker
  initial : r.tracker.mInitialValue = t.mInitialValue ∨ r.tracker.mInitialValue = kFalse
  changed : r.changedCache = true → r.conditionCache ≠ kUnknown
  evaluated : t.mInitialValue ≠ kNotEvaluated → r.conditionCache ≠ kNotEvaluated

theorem ofBool_ne (b : Bool) : ofBool b ≠ kUnknown ∧ ofBool b ≠ kNotEvaluated := by
  cases b <;> exact ⟨nofun, nofun⟩

theorem handleConditionEvent_evaluates (t : SimpleConditionTracker) (key : HashableDimensionKey) (matchStart : Bool) :
    Evaluates t (t.handleConditionEvent key matchStart) := by
  cases hg : t.hitGuardRail key with
  | true =>
    unfold SimpleConditionTracker.handleConditionEvent
    rw [hg, if_pos rfl]
    exact ⟨fun _ h => h, .inl rfl, nofun, fun _ => nofun⟩
  | false =>
    have hspec := SimpleConditionTracker.handleConditionEvent_spec t key matchStart hg
    have hcache : ∃ b, (t.handleConditionEvent key matchStart).conditionCache = ofBool b := by
      unfold SimpleConditionTracker.handleConditionEvent
      rw [hg, if_neg Bool.false_ne_true]
      split
      · unfold SimpleConditionTracker.handleNewKey
        dsimp only
        split
        · exact ⟨_, rfl⟩
        · split
          · exact ⟨_, rfl⟩
          · exact ⟨_, rfl⟩
      · split
        · exact ⟨true, rfl⟩
        · unfold SimpleConditionTracker.handleStop
          dsimp only
          split
          · exact ⟨false, rfl⟩
          · exact ⟨_, rfl⟩
    obtain ⟨b, hb⟩ := hcache
    exact ⟨hspec.configured, .inl hspec.initial, fun _ => hb ▸ (ofBool_ne b).1, fun _ => hb ▸ (ofBool_ne b).2⟩

theorem overallCondition_ne (h : t.mInitialValue ≠ kNotEvaluated) :
    t.overallCondition ≠ kNotEvaluated := by
  unfold SimpleConditionTracker.overallCondition
  split
  · split
    · exact nofun
    · exact h
  · split
    · exact h
    · exact (ofBool_ne _).2

theorem evaluate_spec (t : SimpleConditionTracker) (event : MatchedEvent) : Evaluates t (t.evaluate event) := by
  -- the changed sets do not matter
  have hcleared : ∀ r, Evaluates t.cleared r → Evaluates t r := fun r hr =>
    ⟨fun p hp => hr.configured p (SimpleConditionTracker.cleared_configured hp), hr.initial, hr.changed, hr.evaluated⟩
  refine hcleared _ ?_
  unfold SimpleConditionTracker.evaluate SimpleConditionTracker.evaluateCondition
  rw [if_neg (not_not.2 rfl)]
  dsimp only
  split
  · exact ⟨fun _ h => SimpleConditionTracker.handleStopAll_configured h, .inr rfl, fun _ => nofun, fun _ => nofun⟩
  · split
    · exact ⟨fun _ h => h, .inl rfl, nofun, overallCondition_ne⟩
    · split
      · exact handleConditionEvent_evaluates _ _ _
      · split
        · exact handleConditionEvent_evaluates _ _ _
        · exact ⟨fun _ h => h, .inl rfl, nofun, fun h => h⟩

end Statsd.Condition
