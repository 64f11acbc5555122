/-
The states that pushed values are reported under. A producer keeps, for each dimension in what, the state values of the
last event, which is what a pulled diff belongs to; a pushed value is aggregated under them too, before they are set to
those of its own event. So the values of a bucket are grouped by the states of the event before, and the report is
right exactly when these groups have the same sums as those of the events' own states.
-/
import Statsd.Base.Run
import Statsd.Metrics.ValueClosing

namespace Statsd.Metrics

variable {V : Type}

/-- The sum of values, if there are any. -/
def total [MetricValue V] : List V → Option V
  | [] => none
  | v :: values => some (values.foldl MetricValue.add v)

/-- An event with the state values that were remembered when it came. -/
abbrev StateEvent (V : Type) := HashableDimensionKey × ValueEvent V

/-- The values of a field of the events with a dimension in what, for which the state values are `s`. -/
def valuesUnder (states : StateEvent V → HashableDimensionKey) (events : List (StateEvent V)) (w s : HashableDimensionKey) (i : Nat) :
    List V :=
  events.filterMap fun e =>
    if e.2.eventKey.mDimensionKeyInWhat = w ∧ states e = s then fieldValue e.2.values i else none

/-- The states that were remembered, and those at the time of the event. -/
def remembered (e : StateEvent V) : HashableDimensionKey := e.1
def current (e : StateEvent V) : HashableDimensionKey := e.2.eventKey.mStateValuesKey

/-- A closed bucket: the events that came in it, and what was reported for each key. -/
structure StateBucket (V : Type) where
  events : List (StateEvent V)
  reported : MetricDimensionKey → List (ValueBucket V)

namespace StateBucket

def Reported (c : StateBucket V) : Prop := ∃ k, c.reported k ≠ []

/-- The value reported for a field of a key. -/
def value (c : StateBucket V) (k : MetricDimensionKey) (i : Nat) : Option V := (c.reported k).head?.bind (·.valueAt i)

/-- Under every key is the sum of the values of the events with that dimension whose state at their time it is. -/
def Right [MetricValue V] (c : StateBucket V) : Prop :=
  ∀ (w s : HashableDimensionKey) (i : Nat), c.value ⟨w, s⟩ i = total (valuesUnder current c.events w s i)

end StateBucket

theorem valuesUnder_append (states : StateEvent V → HashableDimensionKey) (l l' : List (StateEvent V))
    (w s : HashableDimensionKey) (i : Nat) :
    valuesUnder states (l ++ l') w s i = valuesUnder states l w s i ++ valuesUnder states l' w s i :=
  List.filterMap_append

theorem total_append [MetricValue V] (l : List V) (v : V) :
    total (l ++ [v]) = some (match total l with
      | none => v
      | some sum => MetricValue.add sum v) := by
  cases l with
  | nil => rfl
  | cons u l => simp [total]

namespace ValueMetricProducer

variable [MetricValue V]

/-! ## Runs -/

/-- Whether a call under a true condition closes the current bucket. -/
def closesBucket (p : ValueMetricProducer V) (t : Int) : Call V → Bool
  | .matchedLogEvent _ => decide (p.getCurrentBucketEndTimeNs ≤ t)
  | .stateChanged _ _ oldState newState _ => decide (oldState ≠ newState) && decide (p.getCurrentBucketEndTimeNs ≤ t)
  | .dumpReport include_current_partial_bucket _ _ _ => include_current_partial_bucket
  | _ => false

/-- A history with the state values of the last event of each dimension, the events of the current bucket, and the
closed buckets. -/
structure StateHistory (V : Type) where
  history : History V
  last : HashableDimensionKey → HashableDimensionKey
  opened : List (StateEvent V)
  closed : List (StateBucket V)

namespace StateHistory

def new (metric : ValueMetric) (startTimeNs : Int) : StateHistory V :=
  ⟨.new metric startTimeNs .kTrue true, fun _ => metric.unknownStateKey, [], []⟩

/-- The current bucket is closed when the call closes it: what the past buckets gain is reported for it. -/
def close (x : StateHistory V) (e : Int × Call V) : StateHistory V :=
  if x.history.producer.closesBucket e.1 e.2 then
    { x with
      opened := []
      closed := x.closed ++ [⟨x.opened, fun k => ((x.history.step e).past k).drop (x.history.past k).length⟩] }
  else x

def step (x : StateHistory V) (e : Int × Call V) : StateHistory V :=
  let x := { x.close e with history := x.history.step e }
  match e.2 with
  | .matchedLogEvent event =>
    let w := event.eventKey.mDimensionKeyInWhat
    { x with
      last := Function.update x.last w event.eventKey.mStateValuesKey
      opened := x.opened ++ [(x.last w, { event with elapsedTimestampNs := e.1 })] }
  | _ => x

/-- A matched event under a true condition and below the guardrail, with an answer for each field matcher, a state change,
or a report, no earlier than the call before. -/
def Ok (x : StateHistory V) (e : Int × Call V) : Prop :=
  x.history.now ≤ e.1 ∧ match e.2 with
    | .matchedLogEvent event =>
      (x.history.producer.mConditionSliced = true → event.slicedCondition = true) ∧
        event.values.length = x.history.producer.fieldCount ∧
        -- no atom has the id 0
        event.statePrimaryKeys.lookup 0 = none ∧
        x.history.producer.mCurrentSlicedBucket.entries.length < x.history.producer.mDimensionHardLimit
    | .stateChanged _ _ _ _ _ => True
    | .dumpReport _ _ _ _ => True
    | _ => False

end StateHistory

/-! ## The fields of an event -/

theorem updateIntervals_values {p : ValueMetricProducer V} (hdiff : p.mUseDiff = false) (stateKey : HashableDimensionKey)
    (values : List (Option V)) (i : Nat) (bs : List (BaseInfo V)) (ints : List (Interval V)) (hb : bs.length = values.length)
    (hi : ints.length = values.length) (j : Nat) : (p.updateIntervals stateKey i values bs ints).2.1[j]?.bind (·.value) =
      p.addDiff (ints[j]?.bind (·.value)) (fieldValue values j) := by
  have hfield := p.updateIntervals_field stateKey values i bs ints j
  have hkept := fieldValue_kept hb hi (j := j)
  have hupdate : ∀ (b : BaseInfo V) (int : Interval V) (v : V),
      p.updateInterval b int v = (b, p.aggregate { int with seenNewData := true } v, true) := by
    intro b int v
    unfold updateInterval
    simp [hdiff]
  generalize bs[j]? = b₀, ints[j]? = int₀, (p.updateIntervals stateKey i values bs ints).1[j]? = b',
    (p.updateIntervals stateKey i values bs ints).2.1[j]? = int' at hfield hkept ⊢
  cases hfield with
  | kept h => simp [hkept h, addDiff]
  | reached h => simp [h, addDiff]
  | updated h =>
    rw [h, hupdate]
    rfl

/-! ## What is pending -/

/-- A pushed metric that sums values without diffs. -/
structure PushedSum (metric : ValueMetric) : Prop where
  pushed : metric.mIsPulled = false
  noDiff : metric.mUseDiff = false
  sum : metric.mAggregationType = .SUM
  fields : 0 < metric.fieldCount

/-- A producer under a true condition: the sums of the open bucket are pending under the remembered states. -/
structure Groups (p : ValueMetricProducer V) (last : HashableDimensionKey → HashableDimensionKey) (opened : List (StateEvent V)) :
    Prop where
  pushedSum : PushedSum p.toValueMetric
  condition : p.mCondition = .kTrue
  active : p.mIsActive = true
  noChange : p.mStateChangePrimaryKey = (0, DEFAULT_DIMENSION_KEY)
  sized : Sized p
  indexed : Indexed p
  drops : DropsLogged p
  states : ∀ w, p.stateKeyOf w = last w
  pending : ∀ w s i, p.pendingAt ⟨w, s⟩ i = total (valuesUnder remembered opened w s i)

section

variable {p : ValueMetricProducer V} {last : HashableDimensionKey → HashableDimensionKey} {opened : List (StateEvent V)}

theorem Groups.flush (h : Groups p last opened) (t next : Int) :
    Groups (p.flushCurrentBucketLocked t next) last [] ∧
      ∃ add : MetricDimensionKey → List (ValueBucket V),
        (∀ k, UMap.getD (p.flushCurrentBucketLocked t next).mPastBuckets k [] = UMap.getD p.mPastBuckets k [] ++ add k) ∧
        ((∃ k, add k ≠ []) → ∀ w s i, (add ⟨w, s⟩).head?.bind (·.valueAt i) = total (valuesUnder remembered opened w s i)) := by
  obtain ⟨skipped, hspec⟩ := p.flushCurrentBucketLocked_spec t next
  have hclosing := p.flushCurrentBucketLocked_closing t next h.drops
  have hflushed := hclosing.toFlushed
  generalize p.flushCurrentBucketLocked t next = q at *
  have hcount : q.fieldCount = p.fieldCount := by rw [hspec.metric]
  refine ⟨⟨by rw [hspec.metric]; exact h.pushedSum, hflushed.state.1.trans h.condition, hflushed.state.2.1.trans h.active,
    hflushed.state.2.2.trans h.noChange, hflushed.sized hcount h.sized, hflushed.indexed,
    ⟨fun hskip => ?_, fun d hd => ?_⟩, fun w => ?_, fun w s i => hflushed.pendingAt _ i⟩, ?_⟩
  · rw [hflushed.opened.1] at hskip
    cases hskip
  · rw [hflushed.opened.2] at hd
    cases hd
  · rw [← h.states w]
    unfold stateKeyOf basesOf
    rw [hflushed.bases.1, hspec.metric]
  · obtain ⟨duration, hpast⟩ := hclosing.past
    refine ⟨_, hpast, fun hreported w s i => ?_⟩
    -- a bucket is reported, so the closed one is valid
    have hvalid : p.invalidAt t next = false := by
      by_contra hinvalid
      obtain ⟨k, hk⟩ := hreported
      rw [if_pos (by simpa using hinvalid)] at hk
      exact hk rfl
    have hsum : p.mAggregationType ≠ .AVG := by rw [h.pushedSum.sum]; decide
    have hshown : ∀ pending : Option V, p.shown pending = pending := by
      intro pending
      unfold shown
      rw [h.pushedSum.noDiff]
      cases pending <;> simp
    rw [if_neg (by simp [hvalid]), ← h.pending]
    rcases keptOf_shown h.indexed hsum (p.closesAt t next) duration ⟨w, s⟩ with ⟨hnil, hnone⟩ | ⟨b, hb, -, hvalue⟩
    · rw [hnil, ← hshown (p.pendingAt _ i), hnone i]
      rfl
    · rw [hb, ← hshown (p.pendingAt _ i), ← hvalue i]
      rfl

theorem Groups.accumulate (h : Groups p last opened) (event : ValueEvent V) (hlength : event.values.length = p.fieldCount) :
    Groups (p.accumulate event)
      (Function.update last event.eventKey.mDimensionKeyInWhat event.eventKey.mStateValuesKey)
      (opened ++ [(last event.eventKey.mDimensionKeyInWhat, event)]) := by
  have honly := p.accumulate_dataOnly event
  have hindexed := h.indexed.accumulate event
  obtain ⟨hbase, hsliced, -⟩ := p.accumulate_data event
  generalize hw : event.eventKey.mDimensionKeyInWhat = w at *
  have hbs := h.sized.length_basesOf w
  have hints := h.sized.length_intervalsOf w
  have h4 := updateIntervals_values h.pushedSum.noDiff event.eventKey.mStateValuesKey event.values 0 (p.basesOf w)
    (p.intervalsOf w) (hbs.trans hlength.symm) (hints.trans hlength.symm)
  obtain ⟨h1, h2⟩ := p.updateIntervals_length event.eventKey.mStateValuesKey event.values 0 (p.basesOf w) (p.intervalsOf w)
  have hmetric : (p.accumulate event).toValueMetric = p.toValueMetric := honly.congr (·.toValueMetric) fun _ _ _ _ _ => rfl
  refine ⟨by rw [hmetric]; exact h.pushedSum, (honly.congr (·.mCondition) fun _ _ _ _ _ => rfl).trans h.condition,
    (honly.congr (·.mIsActive) fun _ _ _ _ _ => rfl).trans h.active,
    (honly.congr (·.mStateChangePrimaryKey) fun _ _ _ _ _ => rfl).trans h.noChange, ⟨fun w' => ?_, fun k => ?_⟩, hindexed,
    ⟨?_, ?_⟩, fun w' => ?_, fun w' s i => ?_⟩
  · rw [hbase, hmetric, UMap.getD_insert]
    split
    · rw [h1, hbs]
    · exact h.sized.base w'
  · rw [hsliced, hmetric, UMap.getD_insert]
    split
    · rw [h2, hints]
    · exact h.sized.sliced k
  · rw [honly.congr (·.mCurrentBucketIsSkipped) fun _ _ _ _ _ => rfl, honly.congr (·.dropEvents) fun _ _ _ _ _ => rfl]
    exact h.drops.logged
  · rw [honly.congr (·.dropEvents) fun _ _ _ _ _ => rfl]
    exact h.drops.reason
  · have hstates : p.stateKeyOf = last := funext h.states
    rw [stateKeyOf_accumulate_eq h.sized h.pushedSum.fields event hlength, hw, hstates]
  · rw [valuesUnder_append]
    unfold pendingAt
    rw [hsliced, UMap.getD_insert]
    have hold := h.pending w' s i
    by_cases hk : (⟨w', s⟩ : MetricDimensionKey) = ⟨w, p.stateKeyOf w⟩
    · obtain ⟨rfl, rfl⟩ := MetricDimensionKey.mk.inj hk
      rw [if_pos rfl, h4 i, p.intervalsOf_get w' i, hold]
      have hlast : valuesUnder remembered [(last w', event)] w' (p.stateKeyOf w') i = (fieldValue event.values i).toList := by
        rw [h.states w']
        unfold valuesUnder remembered
        simp only [List.filterMap_cons, List.filterMap_nil, hw, and_self, if_true]
        cases fieldValue event.values i <;> rfl
      rw [hlast]
      cases fieldValue event.values i with
      | none => simp [addDiff]
      | some v =>
        rw [Option.toList_some, total_append]
        unfold addDiff aggregate
        rw [h.pushedSum.sum]
        cases total (valuesUnder remembered opened w' (p.stateKeyOf w') i) <;> rfl
    · have hother : valuesUnder remembered [(last w, event)] w' s i = [] := by
        unfold valuesUnder remembered
        rw [← h.states w]
        simp only [List.filterMap_cons, List.filterMap_nil, hw]
        rw [if_neg]
        rintro ⟨rfl, rfl⟩
        exact hk rfl
      rw [if_neg hk, hother, List.append_nil]
      exact hold

theorem Groups.flushIfNeeded (h : Groups p last opened) (t : Int) :
    Groups (p.flushIfNeededLocked t) last (if p.getCurrentBucketEndTimeNs ≤ t then [] else opened) ∧
      ∃ add : MetricDimensionKey → List (ValueBucket V),
        (∀ k, UMap.getD (p.flushIfNeededLocked t).mPastBuckets k [] = UMap.getD p.mPastBuckets k [] ++ add k) ∧
        (t < p.getCurrentBucketEndTimeNs → ∀ k, add k = []) ∧
        ((∃ k, add k ≠ []) → ∀ w s i, (add ⟨w, s⟩).head?.bind (·.valueAt i) = total (valuesUnder remembered opened w s i)) := by
  unfold flushIfNeededLocked
  by_cases ht : t < p.getCurrentBucketEndTimeNs
  · rw [if_pos ht, if_neg (not_le.2 ht)]
    exact ⟨h, fun _ => [], fun k => (List.append_nil _).symm, fun _ _ => rfl, fun ⟨k, hk⟩ => absurd rfl hk⟩
  · rw [if_neg ht, if_pos (not_lt.1 ht)]
    obtain ⟨hgroups, add, hadd, hvalue⟩ := h.flush t (p.getCurrentBucketEndTimeNs + (p.calcBucketsForwardCount t - 1) * p.mBucketSizeNs)
    exact ⟨hgroups, add, hadd, fun hlt => absurd hlt ht, hvalue⟩

theorem Groups.matchedKeys (h : Groups p last opened) (keys : Finset HashableDimensionKey) :
    Groups { p with mMatchedMetricDimensionKeys := keys } last opened :=
  ⟨h.pushedSum, h.condition, h.active, h.noChange, ⟨h.sized.base, h.sized.sliced⟩, h.indexed, ⟨h.drops.logged, h.drops.reason⟩, h.states,
    h.pending⟩

/-! ## Calls -/

theorem hitGuardRailLocked_flushIfNeeded (hguard : p.mCurrentSlicedBucket.entries.length < p.mDimensionHardLimit) (t : Int)
    (newKey : MetricDimensionKey) : (p.flushIfNeededLocked t).hitGuardRailLocked newKey = false := by
  have hlength : (p.flushIfNeededLocked t).mCurrentSlicedBucket.entries.length ≤ p.mCurrentSlicedBucket.entries.length ∧
      (p.flushIfNeededLocked t).mDimensionHardLimit = p.mDimensionHardLimit := by
    unfold flushIfNeededLocked
    split
    · exact ⟨le_refl _, rfl⟩
    · obtain ⟨_, hspec⟩ := p.flushCurrentBucketLocked_spec t
        (p.getCurrentBucketEndTimeNs + (p.calcBucketsForwardCount t - 1) * p.mBucketSizeNs)
      rw [(p.flushCurrentBucketLocked_flushed t _).sliced, hspec.metric]
      refine ⟨?_, rfl⟩
      unfold UMap.mapVal UMap.filterVal
      rw [List.length_map]
      exact List.length_filter_le _ _
  unfold hitGuardRailLocked hasReachedGuardRailLimit
  rw [hlength.2]
  split
  · rfl
  · split
    · exact decide_eq_false (by omega)
    · rfl

theorem matched_eq (h : Groups p last opened) {t : Int} (hbase : p.mTimeBaseNs ≤ t) (hlate : p.mCurrentBucketStartTimeNs ≤ t)
    {event : ValueEvent V} (hcondition : p.mConditionSliced = true → event.slicedCondition = true)
    (hatom : event.statePrimaryKeys.lookup 0 = none)
    (hguard : p.mCurrentSlicedBucket.entries.length < p.mDimensionHardLimit) :
    ∀ p1 : ValueMetricProducer V, p1 = { p with
      mMatchedMetricDimensionKeys := insert event.eventKey.mDimensionKeyInWhat p.mMatchedMetricDimensionKeys } →
    p.onMatchedLogEventLocked { event with elapsedTimestampNs := t } =
      (p1.flushIfNeededLocked t).accumulate { event with elapsedTimestampNs := t } := by
  intro p1 hp1
  have hflush : (p1.flushIfNeededLocked t).mIsPulled = false := by
    subst hp1
    exact ((h.matchedKeys _).flushIfNeeded t).1.pushedSum.pushed
  have hkeys : (p1.flushIfNeededLocked t).hitGuardRailLocked event.eventKey = false := by
    exact hitGuardRailLocked_flushIfNeeded (p := p1) (by rw [hp1]; exact hguard) t event.eventKey
  have htrue : (if p.mConditionSliced = true then event.slicedCondition else decide (p.mCondition = .kTrue)) = true := by
    split
    · rename_i hsliced
      exact hcondition hsliced
    · exact decide_eq_true h.condition
  unfold onMatchedLogEventLocked
  rw [if_neg (by simp [h.active]), if_neg (not_lt.2 hbase)]
  dsimp only
  rw [htrue]
  unfold onMatchedLogEventInternalLocked
  have hprimary : ((event.statePrimaryKeys.lookup p.mStateChangePrimaryKey.1).any
      fun key => decide (key ≠ p.mStateChangePrimaryKey.2)) = false := by
    rw [h.noChange]
    dsimp only
    rw [hatom]
    rfl
  rw [hprimary, if_neg Bool.false_ne_true, if_neg (not_lt.2 hlate)]
  dsimp only
  generalize hq : (if p.mIsPulled = true then _ else _ : ValueMetricProducer V) = q
  rw [← hp1, if_neg (by simp [hp1, h.pushedSum.pushed])] at hq
  rw [← hq, hflush, hkeys]
  rfl

theorem stateChanged_eq (h : Groups p last opened) {t : Int} (hlate : p.mCurrentBucketStartTimeNs ≤ t) (atomId : Int)
    (primaryKey : HashableDimensionKey) (oldState newState : Value) (pull : Pull V) :
    p.onStateChanged t atomId primaryKey oldState newState pull = if oldState = newState then p else p.flushIfNeededLocked t := by
  unfold onStateChanged
  split
  · rfl
  · rw [if_neg (by simp [h.condition, h.active]), if_neg (not_lt.2 hlate)]
    dsimp only
    rw [if_neg (by simp [h.pushedSum.pushed])]
    have hsame : ({ p with mStateChangePrimaryKey := (0, DEFAULT_DIMENSION_KEY) } : ValueMetricProducer V) = p := by
      rw [← h.noChange]
    dsimp only
    rw [hsame]

theorem dumpReport_eq (h : Groups p last opened) (t : Int) (include_current_partial_bucket : Bool) (dumpLatency : DumpLatency)
    (pull : Pull V) :
    p.prepareDump t include_current_partial_bucket dumpLatency pull =
      if include_current_partial_bucket then p.flushCurrentBucketLocked t t else p := by
  unfold prepareDump
  cases include_current_partial_bucket with
  | false => rfl
  | true => simp [h.pushedSum.pushed]

end

theorem History.past_step (x : History V) (e : Int × Call V) (k : MetricDimensionKey) :
    (x.step e).past k = x.erasedPast k ++ UMap.getD (x.producer.call e.1 e.2).mPastBuckets k [] := by
  unfold History.step
  dsimp only
  split
  · show _ ++ UMap.getD ∅ k [] = _
    rw [UMap.getD_empty, List.append_nil]
    rfl
  · rfl

theorem History.producer_step (x : History V) (e : Int × Call V) {last : HashableDimensionKey → HashableDimensionKey}
    {opened : List (StateEvent V)} (h : Groups (x.producer.call e.1 e.2) last opened) : Groups (x.step e).producer last opened := by
  unfold History.step
  dsimp only
  split
  · exact ⟨h.pushedSum, h.condition, h.active, h.noChange, ⟨h.sized.base, h.sized.sliced⟩, h.indexed, ⟨h.drops.logged, h.drops.reason⟩,
      h.states, h.pending⟩
  · exact h

/-! ## Runs -/

namespace StateHistory

/-- What a closed bucket reports under a key is the sum of the values for which the key's states were remembered. -/
structure Inv (metric : ValueMetric) (startTimeNs : Int) (x : StateHistory V) : Prop where
  history : x.history.Inv metric startTimeNs
  base : metric.mTimeBaseNs ≤ x.history.now
  groups : Groups x.history.producer x.last x.opened
  closed : ∀ c ∈ x.closed, c.Reported → ∀ w s i, c.value ⟨w, s⟩ i = total (valuesUnder remembered c.events w s i)

variable {metric : ValueMetric} {startTimeNs : Int} {x : StateHistory V} {e : Int × Call V}

theorem step_history (x : StateHistory V) (e : Int × Call V) : (x.step e).history = x.history.step e := by
  unfold step
  dsimp only
  split <;> rfl

theorem step_closed (x : StateHistory V) (e : Int × Call V) : (x.step e).closed = (x.close e).closed := by
  unfold step
  dsimp only
  split <;> rfl

/-- A call keeps the invariant when its producer has the groups of the step, and what it closes was pending. -/
theorem Inv.of_call (h : x.Inv metric startTimeNs) (htime : x.history.now ≤ e.1)
    (hgroups : Groups (x.history.producer.call e.1 e.2) (x.step e).last (x.step e).opened)
    (add : MetricDimensionKey → List (ValueBucket V))
    (hadd : ∀ k, UMap.getD (x.history.producer.call e.1 e.2).mPastBuckets k [] =
      UMap.getD x.history.producer.mPastBuckets k [] ++ add k)
    (hvalue : (∃ k, add k ≠ []) → ∀ w s i, (add ⟨w, s⟩).head?.bind (·.valueAt i) = total (valuesUnder remembered x.opened w s i)) :
    (x.step e).Inv metric startTimeNs := by
  have hdrop : ∀ k, ((x.history.step e).past k).drop (x.history.past k).length = add k := by
    intro k
    rw [x.history.past_step, hadd, ← List.append_assoc]
    exact List.drop_left
  have hnow : (x.history.step e).now = e.1 := by
    unfold History.step
    dsimp only
    split <;> rfl
  refine ⟨?_, ?_, ?_, fun c hc hreported => ?_⟩
  · rw [step_history]
    exact h.history.step e htime
  · rw [step_history, hnow]
    exact h.base.trans htime
  · rw [step_history]
    exact x.history.producer_step e hgroups
  · rw [step_closed] at hc
    unfold close at hc
    split at hc
    · rcases List.mem_append.1 hc with hc | hc
      · exact h.closed c hc hreported
      · rw [List.mem_singleton] at hc
        subst hc
        obtain ⟨k, hk⟩ := hreported
        dsimp only at hk
        intro w s i
        unfold StateBucket.value
        dsimp only
        rw [hdrop]
        rw [hdrop] at hk
        exact hvalue ⟨k, hk⟩ w s i
    · exact h.closed c hc hreported

theorem close_last (x : StateHistory V) (e : Int × Call V) : (x.close e).last = x.last := by
  unfold close
  split <;> rfl

theorem close_opened (x : StateHistory V) (e : Int × Call V) :
    (x.close e).opened = if x.history.producer.closesBucket e.1 e.2 then [] else x.opened := by
  unfold close
  split <;> rfl

theorem Inv.step (h : x.Inv metric startTimeNs) (hok : x.Ok e) : (x.step e).Inv metric startTimeNs := by
  obtain ⟨htime, hcall⟩ := hok
  have hlate : x.history.producer.mCurrentBucketStartTimeNs ≤ e.1 := h.history.now.trans htime
  have hbase : x.history.producer.mTimeBaseNs ≤ e.1 := by rw [h.history.metric]; exact h.base.trans htime
  have hopened := x.close_opened e
  obtain ⟨t, c⟩ := e
  cases c with
  | matchedLogEvent event =>
    obtain ⟨hcondition, hlength, hatom, hguard⟩ := hcall
    have hmatched := matched_eq h.groups hbase hlate hcondition hatom hguard _ rfl
    have hsame := h.groups.matchedKeys (insert event.eventKey.mDimensionKeyInWhat x.history.producer.mMatchedMetricDimensionKeys)
    generalize hp1 : ({ x.history.producer with
      mMatchedMetricDimensionKeys := insert event.eventKey.mDimensionKeyInWhat x.history.producer.mMatchedMetricDimensionKeys }
      : ValueMetricProducer V) = p1 at hmatched hsame
    have hend : p1.getCurrentBucketEndTimeNs = x.history.producer.getCurrentBucketEndTimeNs := by rw [← hp1]; rfl
    have hpast : p1.mPastBuckets = x.history.producer.mPastBuckets := by rw [← hp1]
    have hmetric : p1.toValueMetric = x.history.producer.toValueMetric := by rw [← hp1]
    obtain ⟨hflush, add, hadd, -, hvalue⟩ := hsame.flushIfNeeded t
    have hcount : (p1.flushIfNeededLocked t).fieldCount = x.history.producer.fieldCount := by
      rw [← hmetric]
      unfold flushIfNeededLocked
      split
      · rfl
      · obtain ⟨_, hspec⟩ := p1.flushCurrentBucketLocked_spec t _
        rw [hspec.metric]
    have hgroups := hflush.accumulate { event with elapsedTimestampNs := t } (hlength.trans hcount.symm)
    refine h.of_call htime ?_ add (fun k => ?_) hvalue
    · show Groups (onMatchedLogEventLocked _ _) (Function.update (x.close (t, .matchedLogEvent event)).last _ _)
        ((x.close (t, .matchedLogEvent event)).opened ++ [((x.close (t, .matchedLogEvent event)).last _, _)])
      rw [hmatched, hopened, x.close_last]
      unfold closesBucket
      simp only [decide_eq_true_eq, ← hend]
      exact hgroups
    · show UMap.getD (onMatchedLogEventLocked _ _).mPastBuckets k [] = _
      rw [hmatched, (offClock_accumulate _ _).past, hadd, hpast]
  | stateChanged atomId primaryKey oldState newState pull =>
    have hchanged := stateChanged_eq h.groups hlate atomId primaryKey oldState newState pull
    unfold closesBucket at hopened
    by_cases hsame : oldState = newState
    · rw [if_pos hsame] at hchanged
      refine h.of_call htime ?_ (fun _ => []) (fun k => ?_) (fun ⟨k, hk⟩ => absurd rfl hk)
      · show Groups (onStateChanged _ _ _ _ _ _ _) (x.close _).last (x.close _).opened
        rw [hchanged, hopened, x.close_last, if_neg (by simp [hsame])]
        exact h.groups
      · show UMap.getD (onStateChanged _ _ _ _ _ _ _).mPastBuckets k [] = _
        rw [hchanged, List.append_nil]
    · rw [if_neg hsame] at hchanged
      obtain ⟨hflush, add, hadd, -, hvalue⟩ := h.groups.flushIfNeeded t
      refine h.of_call htime ?_ add (fun k => ?_) hvalue
      · show Groups (onStateChanged _ _ _ _ _ _ _) (x.close _).last (x.close _).opened
        rw [hchanged, hopened, x.close_last]
        simp only [ne_eq, hsame, not_false_eq_true, decide_true, Bool.true_and, decide_eq_true_eq]
        exact hflush
      · show UMap.getD (onStateChanged _ _ _ _ _ _ _).mPastBuckets k [] = _
        rw [hchanged]
        exact hadd k
  | dumpReport include_current_partial_bucket erase_data dumpLatency pull =>
    have hdump := dumpReport_eq h.groups t include_current_partial_bucket dumpLatency pull
    cases include_current_partial_bucket with
    | false =>
      refine h.of_call htime ?_ (fun _ => []) (fun k => ?_) (fun ⟨k, hk⟩ => absurd rfl hk)
      · show Groups (prepareDump _ _ _ _ _) (x.close _).last (x.close _).opened
        rw [hdump, hopened, x.close_last]
        exact h.groups
      · show UMap.getD (prepareDump _ _ _ _ _).mPastBuckets k [] = _
        rw [hdump, List.append_nil]
        rfl
    | true =>
      obtain ⟨hflush, add, hadd, hvalue⟩ := h.groups.flush t t
      refine h.of_call htime ?_ add (fun k => ?_) hvalue
      · show Groups (prepareDump _ _ _ _ _) (x.close _).last (x.close _).opened
        rw [hdump, hopened, x.close_last]
        exact hflush
      · show UMap.getD (prepareDump _ _ _ _ _).mPastBuckets k [] = _
        rw [hdump]
        exact hadd k
  | _ => exact hcall.elim

theorem inv_new (hsum : PushedSum metric) (hsize : 0 < metric.mBucketSizeNs) (hstart : metric.mTimeBaseNs ≤ startTimeNs) :
    (new metric startTimeNs : StateHistory V).Inv metric startTimeNs := by
  have hproducer : (new metric startTimeNs : StateHistory V).history.producer = _ :=
    startAt_eq (p := initial metric .kTrue true) hsize startTimeNs
  refine ⟨History.inv_new hsize hstart .kTrue true, hstart, ?_, fun c hc => ?_⟩
  · rw [hproducer]
    refine ⟨hsum, rfl, rfl, rfl, ⟨fun w => ?_, fun k => ?_⟩, fun k i int hget => ?_, ⟨fun hskip => ?_, fun d hd => ?_⟩, fun w => ?_,
      fun w s i => ?_⟩
    · exact (congrArg List.length (UMap.getD_empty w [])).trans_le (Nat.zero_le _)
    · exact (congrArg List.length (UMap.getD_empty k [])).trans_le (Nat.zero_le _)
    · simp [initial] at hget
    · cases hskip
    · cases hd
    · unfold stateKeyOf basesOf
      obtain ⟨n, hn⟩ := Nat.exists_eq_add_one_of_ne_zero hsum.fields.ne'
      simp [initial, resize, hn, new, List.replicate_succ]
    · unfold pendingAt
      simp [initial, new, valuesUnder, total]
  · cases hc

end StateHistory

end ValueMetricProducer

open ValueMetricProducer

/-- In every run of matched events, state changes and reports under a true condition and below the guardrail, a reported
bucket has under every key the sum of the values of the events with that dimension in what that came in that state exactly
when, for every dimension, the values have the same sums by the states of the events before as by the events' own. -/
theorem pushed_states_right_iff [MetricValue V] {metric : ValueMetric} (hsum : PushedSum metric) (hsize : 0 < metric.mBucketSizeNs)
    {startTimeNs : Int} (hstart : metric.mTimeBaseNs ≤ startTimeNs) (es : List (Int × Call V))
    (hrun : RunOk StateHistory.step StateHistory.Ok (.new metric startTimeNs) es) :
    ∀ c ∈ (es.foldl StateHistory.step (.new metric startTimeNs)).closed, c.Reported →
      (c.Right ↔ ∀ w s i, total (valuesUnder remembered c.events w s i) = total (valuesUnder current c.events w s i)) := by
  intro c hc hreported
  have hinv := hrun.inv (fun x e hok h => StateHistory.Inv.step h hok) (StateHistory.inv_new hsum hsize hstart)
  have hvalue := hinv.closed c hc hreported
  constructor
  · intro hright w s i
    exact (hvalue w s i).symm.trans (hright w s i)
  · intro hsame w s i
    exact (hvalue w s i).trans (hsame w s i)

/-- The state values of a metric sliced by one state of atom 27. -/
def screenState (state : Int) : HashableDimensionKey := [(⟨27, 0x00010000#32⟩, .INT state)]

/-- Values of one dimension, under states. -/
def screenMetric : ValueMetric := { pushedMetric 60 with unknownStateKey := screenState (-1) }

def screenEvent (state v : Int) : ValueEvent Int := ⟨0, ⟨[], screenState state⟩, true, ∅, [some v]⟩

theorem screenMetric_pushedSum : PushedSum screenMetric := ⟨rfl, rfl, rfl, by decide⟩

/-- The state is not known at any event: the report is right. -/
theorem pushed_states_right_unknown :
    let es : List (Int × Call Int) := [(10, .matchedLogEvent (screenEvent (-1) 5)), (20, .matchedLogEvent (screenEvent (-1) 7)),
      (30, .dumpReport true true .FAST ⟨true, 0, []⟩)]
    ∃ c ∈ (es.foldl StateHistory.step (.new screenMetric 0)).closed, c.Reported ∧ c.Right ∧ c.value ⟨[], screenState (-1)⟩ 0 = some 12 := by
  intro es
  have hrun : RunOk StateHistory.step StateHistory.Ok (.new screenMetric 0) es :=
    ⟨⟨by decide +kernel, fun _ => rfl, rfl, rfl, by decide +kernel⟩, ⟨by decide +kernel, fun _ => rfl, by decide +kernel, rfl, by decide +kernel⟩,
      ⟨by decide +kernel, True.intro⟩, True.intro⟩
  have hclosed := pushed_states_right_iff screenMetric_pushedSum (by decide) (by decide) es hrun
  obtain ⟨c, hc, hevents, hreported, hvalue⟩ : ∃ c ∈ (es.foldl StateHistory.step (.new screenMetric 0)).closed,
      (∀ e ∈ c.events, remembered e = current e) ∧ c.reported ⟨[], screenState (-1)⟩ ≠ [] ∧ c.value ⟨[], screenState (-1)⟩ 0 = some 12 :=
    ⟨_, List.mem_singleton_self _, by decide +kernel, by decide +kernel, by decide +kernel⟩
  refine ⟨c, hc, ⟨_, hreported⟩, (hclosed c hc ⟨_, hreported⟩).2 fun w s i => ?_, hvalue⟩
  unfold valuesUnder
  rw [List.filterMap_congr fun e he => by rw [hevents e he]]

/-- The first event comes in state 2, and its value is reported under the unknown state. -/
theorem pushed_value_under_old_state :
    ¬ ∀ (metric : ValueMetric), PushedSum metric → 0 < metric.mBucketSizeNs →
      ∀ startTimeNs, metric.mTimeBaseNs ≤ startTimeNs → ∀ es : List (Int × Call Int),
      RunOk StateHistory.step StateHistory.Ok (.new metric startTimeNs) es →
      ∀ c ∈ (es.foldl StateHistory.step (.new metric startTimeNs)).closed, c.Reported → c.Right := by
  intro h
  have hrun : RunOk StateHistory.step StateHistory.Ok (.new screenMetric 0) [(5, (.stateChanged 27 [] (.INT (-1)) (.INT 2) ⟨true, 0, []⟩ : Call Int)),
      (10, .matchedLogEvent (screenEvent 2 5)), (30, .dumpReport true true .FAST ⟨true, 0, []⟩)] :=
    ⟨⟨by decide +kernel, True.intro⟩, ⟨by decide +kernel, fun _ => rfl, by decide +kernel, rfl, by decide +kernel⟩,
      ⟨by decide +kernel, True.intro⟩, True.intro⟩
  have hright := h screenMetric screenMetric_pushedSum (by decide) 0 (by decide) _ hrun _ (List.mem_singleton_self _)
    ⟨⟨[], screenState (-1)⟩, by decide +kernel⟩
  exact absurd (hright [] (screenState 2) 0) (by decide +kernel)

end Statsd.Metrics
