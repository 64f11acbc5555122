/-
The push of changed conditions to metrics (the condition loop of MetricsManager::onLogEvent, with onConditionChanged and
onSlicedConditionMayChange of the producers). The value in the condition cache goes through a parameter of type bool, and the
enumerator of an unknown condition is not zero. A metric without links takes an unknown condition for true whenever a sliced
combination is pushed that has an unknown condition below it; the timer of a value metric takes any late change for true.

The metric is in any state when an event comes, so that whatever else happens to it between the events is covered.
-/
import Statsd.Condition.ConditionChange
import Statsd.Condition.ConditionRun
import Statsd.Metrics.CountMetricProducer
import Statsd.Metrics.ZeroDefaultBase

namespace Statsd

/-- An enumerator as a bool. -/
def ConditionState.toBool (c : ConditionState) : Bool := decide (c.rank ≠ 0)

namespace Metrics

open Condition

/-- The kinds of metrics of which only the condition is kept here: the flushes and pulls after a change, and what the trackers
of durations are told, do not touch it. -/
inductive OtherMetric where
  | DURATION | EVENT | GAUGE
deriving DecidableEq

inductive Metric (V : Type) where
  | count (producer : CountMetricProducer)
  | value (producer : ValueMetricProducer V)
  | other (kind : OtherMetric) (mConditionSliced : Bool) (mCondition : ConditionState)

variable {V : Type}

namespace Metric

def isConditionSliced : Metric V → Bool
  | count p => p.mConditionSliced
  | value p => p.mConditionSliced
  | other _ mConditionSliced _ => mConditionSliced

def mCondition : Metric V → ConditionState
  | count p => p.mCondition
  | value p => p.mCondition
  | other _ _ mCondition => mCondition

def onConditionChanged [MetricValue V] (m : Metric V) (condition : Bool) (eventTimeNs : Int) (pull : Pull V) : Metric V :=
  match m with
  | count p => count (p.onConditionChangedLocked condition)
  | value p => value (p.onConditionChangedLocked condition eventTimeNs pull)
  | other kind mConditionSliced _ => other kind mConditionSliced (.ofBool condition)

/-- Gauge metrics take the overall condition for their own. -/
def onSlicedConditionMayChange (m : Metric V) (overallCondition : Bool) : Metric V :=
  match m with
  | other .GAUGE mConditionSliced _ => other .GAUGE mConditionSliced (.ofBool overallCondition)
  | m => m

/-- The loop body for a metric whose condition has changed. -/
def pushCondition [MetricValue V] (m : Metric V) (conditionCache : ConditionState) (eventTimeNs : Int) (pull : Pull V) : Metric V :=
  if !m.isConditionSliced then m.onConditionChanged conditionCache.toBool eventTimeNs pull
  else m.onSlicedConditionMayChange conditionCache.toBool

end Metric

variable [MetricValue V]

/-- An event from the log with the metric as it finds it, and the outcome of a pull. -/
structure LogEvent (V : Type) where
  event : Condition.MatchedEvent
  eventTimeNs : Int
  pull : Pull V
  metric : Metric V

namespace LogEvent

/-- The event changes the condition of the metric, so that its value is pushed. -/
def Pushes (i : Nat) (s : Conditions) (e : LogEvent V) : Prop := (evaluateConditions s e.event i).changedCache = true

/-- The metric after the push. -/
def pushed (i : Nat) (s : Conditions) (e : LogEvent V) : Metric V :=
  e.metric.pushCondition (cacheOf (evaluateConditions s e.event) i) e.eventTimeNs e.pull

/-- Only a true condition makes that of the metric true, and that of the timer of a value metric; the timer of an inactive one
is not told. -/
structure TrueForTrue (i : Nat) (s : Conditions) (e : LogEvent V) : Prop where
  condition : (e.pushed i s).mCondition = .kTrue → cacheOf (evaluateConditions s e.event) i = .kTrue
  timer : ∀ p p', e.metric = .value p → e.pushed i s = .value p' → p.mIsActive = true → p'.mConditionTimer.mCondition = true →
    cacheOf (evaluateConditions s e.event) i = .kTrue

/-- A value metric that is pushed a change of an earlier bucket takes it for true when it is active, whatever the value;
otherwise a value is taken for true when a simple condition below it is unknown. -/
def TakenForTrue (i : Nat) (s : Conditions) (e : LogEvent V) : Prop :=
  match e.metric with
  | .value p =>
    if e.eventTimeNs < p.mCurrentBucketStartTimeNs then p.mIsActive = true ∧ ¬ ValueFor s e.event i .kTrue
    else LeavesUnknown s e.event i
  | _ => LeavesUnknown s e.event i

/-- The conditions after the event. -/
def step (s : Conditions) (e : LogEvent V) : Conditions := s.step e.event

end LogEvent

/-! ## Pushes -/

theorem ofBool_toBool {c : ConditionState} (hevaluated : c ≠ .kNotEvaluated) :
    (ConditionState.ofBool c.toBool = .kTrue ↔ c ≠ .kFalse) ∧ (c.toBool = true ↔ c ≠ .kFalse) ∧
      ((c ≠ .kFalse → c = .kTrue) ↔ c ≠ .kUnknown) := by
  cases c with
  | kNotEvaluated => exact absurd rfl hevaluated
  | kUnknown => decide
  | kFalse => decide
  | kTrue => decide

theorem ConditionTimer.onConditionChanged_condition (timer : ConditionTimer) (newCondition : Bool) (timestampNs : Int) :
    (timer.onConditionChanged newCondition timestampNs).mCondition = newCondition := by
  unfold ConditionTimer.onConditionChanged
  split
  · rename_i h
    exact h.symm
  · split
    · rename_i h
      exact h.symm
    · rename_i h
      simpa using h

open ValueMetricProducer in
theorem onConditionChangedLocked_state (p : ValueMetricProducer V) (condition : Bool) (t : Int) (pull : Pull V) :
    (p.onConditionChangedLocked condition t pull).mCondition =
        (if t < p.mCurrentBucketStartTimeNs then .kUnknown else .ofBool condition) ∧
      (p.mIsActive = true → (p.onConditionChangedLocked condition t pull).mConditionTimer.mCondition =
        (decide (t < p.mCurrentBucketStartTimeNs) || condition)) := by
  unfold onConditionChangedLocked
  dsimp only
  cases hactive : p.mIsActive with
  | false =>
    refine ⟨?_, fun h => absurd h Bool.false_ne_true⟩
    by_cases hlate : t < p.mCurrentBucketStartTimeNs
    · simp [hlate]
    · simp [hlate]
  | true =>
    simp only [Bool.not_true, Bool.false_eq_true, if_false]
    by_cases hlate : t < p.mCurrentBucketStartTimeNs
    · rw [decide_eq_true hlate, if_pos rfl, if_pos hlate]
      exact ⟨rfl, fun _ => ConditionTimer.onConditionChanged_condition _ true t⟩
    · rw [decide_eq_false hlate, if_neg Bool.false_ne_true, if_neg hlate]
      refine ⟨?_, fun _ => ConditionTimer.onConditionChanged_condition _ condition t⟩
      exact (KeepsState.flush _).state.1

namespace LogEvent

variable {i : Nat} {s : Conditions} {e : LogEvent V}

theorem trueForTrue_iff {indices : Nat → Config.SimplePredicate → MatcherIndices} {predicates : List Config.Predicate}
    (h : Kept indices predicates s) (hlinks : e.metric.isConditionSliced = false) (hpushes : e.Pushes i s) :
    e.TrueForTrue i s ↔ ¬ e.TakenForTrue i s := by
  obtain ⟨-, hvalue, hunknown, hevaluated⟩ := h.reported e.event hpushes
  have hpushed : e.pushed i s = e.metric.onConditionChanged (cacheOf (evaluateConditions s e.event) i).toBool e.eventTimeNs e.pull := by
    unfold pushed Metric.pushCondition
    rw [hlinks]
    rfl
  obtain ⟨hbool, htoBool, htrue⟩ := ofBool_toBool hevaluated
  -- away from late changes a push is right when the value is not unknown
  have hknown : (cacheOf (evaluateConditions s e.event) i ≠ .kFalse → cacheOf (evaluateConditions s e.event) i = .kTrue) ↔
      ¬ LeavesUnknown s e.event i := htrue.trans (not_congr hunknown)
  have hplain : (∀ p, e.metric ≠ .value p) → (e.pushed i s).mCondition = .ofBool (cacheOf (evaluateConditions s e.event) i).toBool →
      (e.TrueForTrue i s ↔ ¬ LeavesUnknown s e.event i) := by
    intro hkind hcondition
    rw [← hknown]
    constructor
    · intro hright hne
      exact hright.condition (by rw [hcondition]; exact hbool.2 hne)
    · intro himp
      refine ⟨fun hc => himp ?_, fun p _ hp => absurd hp (hkind p)⟩
      rw [hcondition] at hc
      exact hbool.1 hc
  unfold TakenForTrue
  cases hm : e.metric with
  | count p =>
    refine hplain (fun p' hp => by rw [hm] at hp; cases hp) ?_
    rw [hpushed, hm]
    rfl
  | other kind sliced condition =>
    refine hplain (fun p' hp => by rw [hm] at hp; cases hp) ?_
    rw [hpushed, hm]
    rfl
  | value p =>
    dsimp only
    obtain ⟨hcondition, htimer⟩ := onConditionChangedLocked_state p (cacheOf (evaluateConditions s e.event) i).toBool e.eventTimeNs e.pull
    rw [hm] at hpushed
    have hvalueFor : ValueFor s e.event i .kTrue ↔ cacheOf (evaluateConditions s e.event) i = .kTrue := by
      constructor
      · exact fun h => hvalue.unique h
      · intro h
        rw [← h]
        exact hvalue
    by_cases hlate : e.eventTimeNs < p.mCurrentBucketStartTimeNs
    · rw [if_pos hlate, hvalueFor, not_and_not_right]
      rw [if_pos hlate] at hcondition
      constructor
      · intro hright hactive
        exact hright.timer p _ hm hpushed hactive (by rw [htimer hactive, decide_eq_true hlate]; rfl)
      · intro himp
        refine ⟨fun hc => ?_, fun p' _ hp _ hactive _ => ?_⟩
        · rw [hpushed] at hc
          have hc' := hcondition.symm.trans hc
          cases hc'
        · rw [hm] at hp
          cases hp
          exact himp hactive
    · rw [if_neg hlate, ← hknown]
      rw [if_neg hlate] at hcondition
      constructor
      · intro hright hne
        refine hright.condition ?_
        rw [hpushed]
        exact hcondition.trans (hbool.2 hne)
      · intro himp
        refine ⟨fun hc => himp ?_, fun p' q hp hq hactive htrue => himp ?_⟩
        · rw [hpushed] at hc
          exact hbool.1 (hcondition.symm.trans hc)
        · rw [hm] at hp
          cases hp
          rw [hpushed] at hq
          cases hq
          rw [htimer hactive, decide_eq_false hlate, Bool.false_or] at htrue
          exact htoBool.1 htrue

end LogEvent

/-- In every run of events from the conditions of an accepted config, the pushes to metrics without links make only true conditions
true exactly when no push comes with a simple condition below left unknown, and none comes late to an active value metric
but with a true condition. -/
theorem pushes_right_iff {protoHash : Config.Predicate → Option UInt64} {matcherMap : UMap Int Nat}
    {uninitialized : Nat → MatcherIndices} {predicates : List Config.Predicate} {s : Conditions}
    {initialConditionCache : List ConditionState}
    (hok : initConditions protoHash matcherMap uninitialized predicates = .ok (s, initialConditionCache)) (i : Nat)
    (es : List (LogEvent V)) (hlinks : ∀ e ∈ es, e.metric.isConditionSliced = false) :
    RunOk LogEvent.step (fun s e => e.Pushes i s → e.TrueForTrue i s) s es ↔
      RunOk LogEvent.step (fun s e => e.Pushes i s → ¬ e.TakenForTrue i s) s es := by
  have hkept := initConditions_kept hok
  clear hok
  induction es generalizing s with
  | nil => exact Iff.rfl
  | cons e es ih =>
    have hhead : (e.Pushes i s → e.TrueForTrue i s) ↔ (e.Pushes i s → ¬ e.TakenForTrue i s) :=
      forall_congr' fun hpushes => e.trueForTrue_iff hkept (hlinks e List.mem_cons_self) hpushes
    exact and_congr hhead (ih (fun e' he' => hlinks e' (List.mem_cons_of_mem _ he')) (hkept.step e.event))

/-- The conjunction of a predicate that is sliced by the first field of an atom and one that is not. -/
def slicedConjunction : List Config.Predicate :=
  [⟨3, .combination (some .AND) [1, 2]⟩,
    ⟨1, .simple_predicate ⟨some 10, some 12, true, none, .UNKNOWN, some (.mk 10 none [.mk 1 none []])⟩⟩,
    ⟨2, .simple_predicate ⟨some 11, some 12, true, none, .UNKNOWN, none⟩⟩]

def initSlicedConjunction : Outcome (Conditions × List ConditionState) :=
  initConditions (fun m => some (UInt64.ofInt m.id)) (UMap.indexMap [10, 11, 12]) (fun _ => ⟨none, none, none, ∅⟩) slicedConjunction

/-- An event that the matcher at an index matches, when a metric with buckets of 60 has begun a bucket at `startNs`. -/
def matchedDuring (index : Nat) (eventTimeNs startNs : Int) : LogEvent Int :=
  ⟨⟨[(⟨10, 0x10000#32⟩, .INT 7)], fun i => if i = index then .kMatched else .kNotMatched⟩, eventTimeNs, ⟨true, eventTimeNs, []⟩,
    .value (.new (ValueMetricProducer.pushedMetric 60) startNs .kFalse true)⟩

/-- The start of the sliced predicate pushes an unknown conjunction; a stop that is pushed after a split at 20 starts the timer. -/
theorem pushes_not_right :
    (∃ s initialConditionCache, initSlicedConjunction = .ok (s, initialConditionCache) ∧
      ¬ RunOk LogEvent.step (fun s e => e.Pushes 0 s → e.TrueForTrue 0 s) s [matchedDuring 0 10 0]) ∧
    ∃ s initialConditionCache, initStartedAndStopped = .ok (s, initialConditionCache) ∧
      ¬ RunOk LogEvent.step (fun s e => e.Pushes 1 s → e.TrueForTrue 1 s) s [matchedDuring 1 15 20] := by
  constructor
  · obtain ⟨s, cache, hok, hk, hs, hchildren, ⟨t₁, ht₁, hchanged⟩, ⟨t₂, ht₂, hunknown⟩, hindex⟩ : ∃ s initialConditionCache,
        initSlicedConjunction = .ok (s, initialConditionCache) ∧
        (trackerAt s.mAllConditionTrackers 0).kind = .combination .AND ∧ (trackerAt s.mAllConditionTrackers 0).mSliced = true ∧
        (trackerAt s.mAllConditionTrackers 0).mChildren = [1, 2] ∧
        (∃ t, (trackerAt s.mAllConditionTrackers 1).kind = .simple t ∧ (t.evaluate (matchedDuring 0 10 0).event).changedCache = true) ∧
        (∃ t, (trackerAt s.mAllConditionTrackers 2).kind = .simple t ∧ (t.evaluate (matchedDuring 0 10 0).event).conditionCache = .kUnknown) ∧
        0 ∈ (trackerAt s.mAllConditionTrackers 0).mTrackerIndex := by
      refine ⟨_, _, rfl, rfl, rfl, rfl, ⟨_, rfl, by decide +kernel⟩, ⟨_, rfl, by decide +kernel⟩, by decide +kernel⟩
    have hkept := initConditions_kept hok
    have hchanges : Changes s (matchedDuring 0 10 0).event 0 := .sliced hk hs (by rw [hchildren]; decide) (.simple ht₁ hchanged)
    have hleaves : LeavesUnknown s (matchedDuring 0 10 0).event 0 := .combination hk (by rw [hchildren]; decide) (.simple ht₂ hunknown)
    have hpushes := hkept.changedCache_of_changes _ (by decide) hindex rfl hchanges
    refine ⟨s, cache, hok, fun hrun => ?_⟩
    exact ((matchedDuring 0 10 0).trueForTrue_iff hkept rfl hpushes).1 (hrun.1 hpushes) hleaves
  · obtain ⟨s, cache, hok, t, ht, hchanged, hfalse, hindex⟩ : ∃ s initialConditionCache,
        initStartedAndStopped = .ok (s, initialConditionCache) ∧ ∃ t, (trackerAt s.mAllConditionTrackers 1).kind = .simple t ∧
        (t.evaluate (matchedDuring 1 15 20).event).changedCache = true ∧
        (t.evaluate (matchedDuring 1 15 20).event).conditionCache = .kFalse ∧
        1 ∈ (trackerAt s.mAllConditionTrackers 1).mTrackerIndex := by
      refine ⟨_, _, rfl, _, rfl, by decide +kernel, by decide +kernel, by decide +kernel⟩
    have hkept := initConditions_kept hok
    have hpushes := hkept.changedCache_of_changes _ (by decide) hindex rfl (.simple ht hchanged)
    refine ⟨s, cache, hok, fun hrun => ?_⟩
    refine ((matchedDuring 1 15 20).trueForTrue_iff hkept rfl hpushes).1 (hrun.1 hpushes) ⟨by decide +kernel, fun htrue => ?_⟩
    have heq := htrue.unique (.simple ht)
    rw [hfalse] at heq
    cases heq

/-- A start that is pushed in time. -/
theorem pushes_right_startedAndStopped : ∃ s initialConditionCache, initStartedAndStopped = .ok (s, initialConditionCache) ∧
    RunOk LogEvent.step (fun s e => e.Pushes 1 s → e.TrueForTrue 1 s) s [matchedDuring 0 25 20] := by
  obtain ⟨s, cache, hok, t, ht, htrue⟩ : ∃ s initialConditionCache, initStartedAndStopped = .ok (s, initialConditionCache) ∧
      ∃ t, (trackerAt s.mAllConditionTrackers 1).kind = .simple t ∧
      (t.evaluate (matchedDuring 0 25 20).event).conditionCache = .kTrue := by
    refine ⟨_, _, rfl, _, rfl, by decide +kernel⟩
  refine ⟨s, cache, hok, (pushes_right_iff hok 1 _ ?_).2 ⟨fun _ htaken => ?_, trivial⟩⟩
  · intro e he
    cases List.mem_singleton.1 he
    rfl
  · have hleaves : LeavesUnknown s (matchedDuring 0 25 20).event 1 := htaken
    cases hleaves with
    | simple ht' hunknown =>
      rw [ht] at ht'
      cases ht'
      rw [htrue] at hunknown
      cases hunknown
    | combination hk =>
      rw [ht] at hk
      cases hk

end Metrics

end Statsd
