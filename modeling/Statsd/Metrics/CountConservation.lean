/-
Count conservation and placement. Over the whole life of a count metric, reports and erasures included,
the counted events are split among the closed buckets and the current one, in the order they came: the
bucket of a key counts the events of its part, which came between its start and its end, and the buckets
follow one another, each in one bucket of the metric's grid.
-/
import Statsd.Base.Grid
import Statsd.Base.Run
import Statsd.Metrics.CountMetricProducer

namespace Statsd.Metrics.CountMetricProducer

/-! ## Counted events and closed buckets -/

/-- An event that was counted: its time and its key. -/
abbrev Counted := Int × MetricDimensionKey

def countOf (k : MetricDimensionKey) (l : List Counted) : Nat := l.countP fun e => decide (e.2 = k)

theorem countOf_append (k : MetricDimensionKey) (l l' : List Counted) : countOf k (l ++ l') = countOf k l + countOf k l' :=
  List.countP_append

theorem countOf_singleton (k : MetricDimensionKey) (e : Counted) : countOf k [e] = if k = e.2 then 1 else 0 := by
  unfold countOf
  by_cases h : k = e.2
  · simp [h]
  · simp [h, Ne.symm h]

/-- A closed bucket: the number of its full bucket, its interval and the events counted in it. -/
structure Closed where
  num : Int
  start : Int
  stop : Int
  events : List Counted

/-- The bucket emitted for a key: none when no event of the key was counted. -/
def Closed.bucketOf (k : MetricDimensionKey) (c : Closed) : Option CountBucket :=
  if countOf k c.events = 0 then none else some ⟨c.start, c.stop, countOf k c.events⟩

/-- Each event came in the interval of its bucket, and before its end when the bucket lasted to the end
of its full bucket. -/
structure Closed.WellPlaced (m : CountMetric) (c : Closed) : Prop where
  inCell : Grid.InCell m.mTimeBaseNs m.mBucketSizeNs c.num c.start
  interval : c.start ≤ c.stop
  stop : c.stop ≤ m.mTimeBaseNs + (c.num + 1) * m.mBucketSizeNs
  events : ∀ e ∈ c.events, c.start ≤ e.1 ∧ e.1 ≤ c.stop ∧
    (c.stop = m.mTimeBaseNs + (c.num + 1) * m.mBucketSizeNs → e.1 < c.stop)

/-- The events are split among the closed buckets and the current one; `erased` are the past buckets that
were erased. -/
structure Split (p : CountMetricProducer) (erased : MetricDimensionKey → List CountBucket) (now : Int) (closed : List Closed)
    (opened : List Counted) : Prop where
  inCell : Grid.InCell p.mTimeBaseNs p.mBucketSizeNs p.mCurrentBucketNum p.mCurrentBucketStartTimeNs
  began : p.mCurrentBucketStartTimeNs ≤ now
  counter : ∀ k, p.mCurrentSlicedCounter.lookup k = if countOf k opened = 0 then none else some (countOf k opened : Int)
  past : ∀ k, erased k ++ UMap.getD p.mPastBuckets k [] = closed.filterMap (Closed.bucketOf k)
  inOpened : ∀ e ∈ opened, p.mCurrentBucketStartTimeNs ≤ e.1 ∧ e.1 ≤ now ∧ e.1 < p.getCurrentBucketEndTimeNs
  wellPlaced : ∀ c ∈ closed, c.WellPlaced p.toCountMetric ∧ c.stop ≤ p.mCurrentBucketStartTimeNs ∧ c.num ≤ p.mCurrentBucketNum
  ordered : closed.Pairwise fun b c => b.stop ≤ c.start

/-- All events counted so far are split. -/
def SplitAll (p : CountMetricProducer) (erased : MetricDimensionKey → List CountBucket) (now : Int) (events : List Counted) : Prop :=
  ∃ closed opened, Split p erased now closed opened ∧ closed.flatMap (·.events) ++ opened = events

section

variable {p : CountMetricProducer} {erased : MetricDimensionKey → List CountBucket} {now : Int} {events : List Counted}

theorem SplitAll.tick (h : SplitAll p erased now events) {now' : Int} (hle : now ≤ now') : SplitAll p erased now' events := by
  obtain ⟨closed, opened, hs, heq⟩ := h
  refine ⟨closed, opened, { hs with began := hs.began.trans hle, inOpened := fun e he => ?_ }, heq⟩
  obtain ⟨h1, h2, h3⟩ := hs.inOpened e he
  exact ⟨h1, h2.trans hle, h3⟩

/-! ## Flushes -/

theorem feedAnomalyTrackers_frame (p : CountMetricProducer) (e : Int) :
    (p.feedAnomalyTrackers e).toCountMetric = p.toCountMetric ∧ (p.feedAnomalyTrackers e).mPastBuckets = p.mPastBuckets ∧
      (p.feedAnomalyTrackers e).mCurrentBucketNum = p.mCurrentBucketNum := by
  unfold feedAnomalyTrackers
  split
  · split
    · exact ⟨rfl, rfl, rfl⟩
    · exact ⟨rfl, rfl, rfl⟩
  · exact ⟨rfl, rfl, rfl⟩

theorem flushCurrentBucketLocked_metric (p : CountMetricProducer) (e next : Int) :
    (p.flushCurrentBucketLocked e next).toCountMetric = p.toCountMetric := (feedAnomalyTrackers_frame _ e).1

theorem flushCurrentBucketLocked_num (p : CountMetricProducer) (e next : Int) :
    (p.flushCurrentBucketLocked e next).mCurrentBucketNum = p.mCurrentBucketNum := (feedAnomalyTrackers_frame _ e).2.2

/-- The end of the bucket that a flush closes. -/
def closesAt (p : CountMetricProducer) (e : Int) : Int := if e < p.getCurrentBucketEndTimeNs then e else p.getCurrentBucketEndTimeNs

theorem flushCurrentBucketLocked_past (p : CountMetricProducer) (e next : Int) (k : MetricDimensionKey) :
    UMap.getD (p.flushCurrentBucketLocked e next).mPastBuckets k [] = UMap.getD p.mPastBuckets k [] ++
      match p.mCurrentSlicedCounter.lookup k with
      | none => []
      | some n => [⟨p.mCurrentBucketStartTimeNs, p.closesAt e, n⟩] := by
  unfold flushCurrentBucketLocked
  dsimp only
  rw [(feedAnomalyTrackers_frame _ e).2.1]
  dsimp only
  have hfold := UMap.getD_foldl_insert (fun (l : List CountBucket) n => l ++ [⟨p.mCurrentBucketStartTimeNs, p.closesAt e, n⟩]) []
    p.mCurrentSlicedCounter.entries p.mCurrentSlicedCounter.nodupKeys p.mPastBuckets k
  refine Eq.trans hfold ?_
  unfold AList.lookup
  cases p.mCurrentSlicedCounter.entries.dlookup k with
  | none => exact (List.append_nil _).symm
  | some n => rfl

theorem Split.flush {closed : List Closed} {opened : List Counted} (h : Split p erased now closed opened) {next num : Int}
    (hnext : p.closesAt now ≤ next) (hnow : next ≤ now) (hcell : Grid.InCell p.mTimeBaseNs p.mBucketSizeNs num next)
    (hnum : p.mCurrentBucketNum ≤ num) :
    Split { p.flushCurrentBucketLocked now next with mCurrentBucketNum := num } erased now
      (closed ++ [⟨p.mCurrentBucketNum, p.mCurrentBucketStartTimeNs, p.closesAt now, opened⟩]) [] := by
  have hmetric := p.flushCurrentBucketLocked_metric now next
  have hstart : p.mCurrentBucketStartTimeNs ≤ p.closesAt now := by
    unfold closesAt
    split
    · exact h.began
    · exact le_of_lt h.inCell.upper
  have hclosed : Closed.WellPlaced p.toCountMetric ⟨p.mCurrentBucketNum, p.mCurrentBucketStartTimeNs, p.closesAt now, opened⟩ := by
    refine ⟨h.inCell, hstart, ?_, fun e he => ?_⟩
    · show p.closesAt now ≤ p.getCurrentBucketEndTimeNs
      unfold closesAt
      split <;> omega
    · obtain ⟨h1, h2, h3⟩ := h.inOpened e he
      have hle : e.1 ≤ p.closesAt now := by
        unfold closesAt
        split <;> omega
      exact ⟨h1, hle, fun hend => hend ▸ h3⟩
  refine ⟨?_, hnow, fun k => by simp [flushCurrentBucketLocked, countOf], fun k => ?_, fun e he => (List.not_mem_nil he).elim,
    fun c hc => ?_, ?_⟩
  · rw [hmetric]
    exact hcell
  · rw [List.filterMap_append, ← h.past k]
    show erased k ++ UMap.getD (p.flushCurrentBucketLocked now next).mPastBuckets k [] = _
    rw [flushCurrentBucketLocked_past, h.counter k, ← List.append_assoc]
    congr 1
    unfold Closed.bucketOf
    by_cases h0 : countOf k opened = 0
    · simp [h0]
    · simp [h0]
  · rcases List.mem_append.1 hc with hc | hc
    · obtain ⟨h1, h2, h3⟩ := h.wellPlaced c hc
      exact ⟨hmetric ▸ h1, (h2.trans hstart).trans hnext, h3.trans hnum⟩
    · rw [List.mem_singleton] at hc
      subst hc
      exact ⟨hmetric ▸ hclosed, hnext, hnum⟩
  · refine List.pairwise_append.2 ⟨h.ordered, List.pairwise_singleton _ _, fun b hb c hc => ?_⟩
    rw [List.mem_singleton] at hc
    subst hc
    exact (h.wellPlaced b hb).2.1

theorem SplitAll.flush (h : SplitAll p erased now events) {next num : Int}
    (hnext : p.closesAt now ≤ next) (hnow : next ≤ now) (hcell : Grid.InCell p.mTimeBaseNs p.mBucketSizeNs num next)
    (hnum : p.mCurrentBucketNum ≤ num) :
    SplitAll { p.flushCurrentBucketLocked now next with mCurrentBucketNum := num } erased now events := by
  obtain ⟨closed, opened, hs, heq⟩ := h
  refine ⟨_, [], hs.flush hnext hnow hcell hnum, ?_⟩
  rw [List.flatMap_append, List.append_nil, ← heq]
  simp

/-- A flush if needed: the bucket is not over, or the next one starts in the bucket of the time. -/
inductive FlushedIfNeeded (p : CountMetricProducer) (t : Int) : CountMetricProducer → Prop where
  | early (h : t < p.getCurrentBucketEndTimeNs) : FlushedIfNeeded p t p
  | overdue {next num : Int} (hend : p.getCurrentBucketEndTimeNs ≤ next) (hnext : next ≤ t) (hnum : p.mCurrentBucketNum < num)
    (hnow : Grid.InCell p.mTimeBaseNs p.mBucketSizeNs num t) (hcell : Grid.InCell p.mTimeBaseNs p.mBucketSizeNs num next) :
    FlushedIfNeeded p t { p.flushCurrentBucketLocked t next with mCurrentBucketNum := num }

theorem flushIfNeededLocked_spec (hsize : 0 < p.mBucketSizeNs) (t : Int) : FlushedIfNeeded p t (p.flushIfNeededLocked t) := by
  unfold flushIfNeededLocked
  dsimp only
  split
  · rename_i hlt
    exact .early hlt
  · rename_i hlt
    have hge : p.getCurrentBucketEndTimeNs ≤ t := not_lt.1 hlt
    obtain ⟨hpos, hle, -⟩ := Grid.stepsAfter_bounds hsize hge
    obtain ⟨hnow, hcell⟩ := Grid.inCell_stepsAfter hsize hge
    change 0 < 1 + (t - p.getCurrentBucketEndTimeNs).tdiv p.mBucketSizeNs at hpos
    have hsteps : 0 ≤ (1 + (t - p.getCurrentBucketEndTimeNs).tdiv p.mBucketSizeNs - 1) * p.mBucketSizeNs :=
      mul_nonneg (by omega) (le_of_lt hsize)
    rw [flushCurrentBucketLocked_num]
    exact .overdue (by omega) hle (by omega) hnow hcell

theorem FlushedIfNeeded.lt_end {q : CountMetricProducer} {t : Int} (h : FlushedIfNeeded p t q) : t < q.getCurrentBucketEndTimeNs := by
  cases h with
  | early h => exact h
  | overdue _ _ _ hnow _ =>
    unfold getCurrentBucketEndTimeNs
    dsimp only
    rw [flushCurrentBucketLocked_metric]
    exact hnow.upper

theorem SplitAll.flushIfNeeded (hsize : 0 < p.mBucketSizeNs) (h : SplitAll p erased now events) :
    SplitAll (p.flushIfNeededLocked now) erased now events ∧ now < (p.flushIfNeededLocked now).getCurrentBucketEndTimeNs := by
  have hspec := flushIfNeededLocked_spec hsize now
  refine ⟨?_, hspec.lt_end⟩
  generalize p.flushIfNeededLocked now = q at hspec
  cases hspec with
  | early _ => exact h
  | overdue hend hnext hnum hnow hcell =>
    have hcloses : p.closesAt now = p.getCurrentBucketEndTimeNs := if_neg (not_lt.2 (hend.trans hnext))
    exact h.flush (hcloses ▸ hend) hnext hcell (le_of_lt hnum)

theorem SplitAll.split (h : SplitAll p erased now events) (hlt : now < p.getCurrentBucketEndTimeNs) :
    SplitAll (p.flushCurrentBucketLocked now now) erased now events := by
  have hnum := p.flushCurrentBucketLocked_num now now
  have hcell : Grid.InCell p.mTimeBaseNs p.mBucketSizeNs p.mCurrentBucketNum now := by
    obtain ⟨closed, opened, hs, -⟩ := h
    exact ⟨hs.inCell.lower.trans hs.began, hlt⟩
  have hflush := h.flush (by unfold closesAt; rw [if_pos hlt]) (le_refl now) hcell (le_refl _)
  rw [← hnum] at hflush
  exact hflush

theorem SplitAll.flushLocked (hsize : 0 < p.mBucketSizeNs) (h : SplitAll p erased now events) :
    SplitAll (p.flushLocked now) erased now events := by
  obtain ⟨h1, h2⟩ := h.flushIfNeeded hsize
  exact h1.split h2

/-! ## Counting -/

theorem SplitAll.count (h : SplitAll p erased now events) (hlt : now < p.getCurrentBucketEndTimeNs) (k : MetricDimensionKey)
    {value : Int} (hvalue : value = UMap.getD p.mCurrentSlicedCounter k 0 + 1) :
    SplitAll (p.count now k value) erased now (events ++ [(now, k)]) := by
  obtain ⟨closed, opened, hs, heq⟩ := h
  refine ⟨closed, opened ++ [(now, k)], { hs with counter := fun k' => ?_, inOpened := fun e he => ?_ }, ?_⟩
  · have hold : UMap.getD p.mCurrentSlicedCounter k 0 = (countOf k opened : Int) := by
      unfold UMap.getD
      rw [hs.counter k]
      split
      · rename_i h0; rw [h0]; rfl
      · rfl
    show (p.mCurrentSlicedCounter.insert k value).lookup k' = _
    rw [UMap.lookup_insert', countOf_append, countOf_singleton]
    by_cases hk : k' = k
    · subst hk
      rw [if_pos rfl, if_pos rfl, if_neg (Nat.succ_ne_zero _), hvalue, hold]
      rfl
    · rw [if_neg hk, if_neg hk, add_zero]
      exact hs.counter k'
  · rcases List.mem_append.1 he with he | he
    · exact hs.inOpened e he
    · rw [List.mem_singleton] at he
      subst he
      exact ⟨hs.began, le_refl now, hlt⟩
  · rw [← List.append_assoc, heq]

theorem SplitAll.congr (h : SplitAll p erased now events) {q : CountMetricProducer} (hm : q.toCountMetric = p.toCountMetric)
    (hnum : q.mCurrentBucketNum = p.mCurrentBucketNum) (hstart : q.mCurrentBucketStartTimeNs = p.mCurrentBucketStartTimeNs)
    (hcounter : q.mCurrentSlicedCounter = p.mCurrentSlicedCounter) (hpast : q.mPastBuckets = p.mPastBuckets) :
    SplitAll q erased now events := by
  obtain ⟨closed, opened, hs, heq⟩ := h
  refine ⟨closed, opened, ⟨?_, ?_, ?_, ?_, ?_, fun c hc => ?_, hs.ordered⟩, heq⟩
  · rw [hm, hnum, hstart]; exact hs.inCell
  · rw [hstart]; exact hs.began
  · rw [hcounter]; exact hs.counter
  · rw [hpast]; exact hs.past
  · unfold getCurrentBucketEndTimeNs
    rw [hm, hnum, hstart]
    exact hs.inOpened
  · obtain ⟨h1, h2, h3⟩ := hs.wellPlaced c hc
    rw [hstart, hnum, hm]
    exact ⟨h1, h2, h3⟩

end

/-! ## Calls -/

/-- The calls a producer gets. -/
inductive Call where
  | matchedLogEvent (values : List (Field × Value)) (outside : Outside)
  | conditionChanged (condition : Bool)
  | slicedConditionMayChange (overallCondition : Bool)
  | stateChanged (atomId : Int) (primaryKey : HashableDimensionKey) (oldState newState : Value)
  | flushIfExpire
  | activate (activationTrackerIndex : Nat)
  | cancelEventActivation (deactivationTrackerIndex : Nat)
  | loadActiveMetric (activeMetric : List ActiveEventActivation)
  | appUpgrade
  | statsdInitCompleted
  | dumpReport (include_current_partial_bucket erase_data : Bool)

/-- The call at time `t`. A count metric only logs state changes and changes of sliced conditions. -/
def call (p : CountMetricProducer) (t : Int) : Call → CountMetricProducer
  | .matchedLogEvent values outside => p.onMatchedLogEventLocked ⟨t, values, outside⟩
  | .conditionChanged condition => p.onConditionChangedLocked condition
  | .slicedConditionMayChange _ => p
  | .stateChanged _ _ _ _ => p
  | .flushIfExpire => p.flushIfExpire t
  | .activate activationTrackerIndex => p.activateLocked activationTrackerIndex t
  | .cancelEventActivation deactivationTrackerIndex => p.cancelEventActivationLocked deactivationTrackerIndex
  | .loadActiveMetric activeMetric => p.loadActiveMetricLocked activeMetric t
  | .appUpgrade => p.notifyAppUpgrade t
  | .statsdInitCompleted => p.onStatsdInitCompleted t
  | .dumpReport include_current_partial_bucket erase_data =>
    (p.onDumpReportLocked t include_current_partial_bucket erase_data).1

/-- The past buckets that a call erases. -/
def erasedBy (p : CountMetricProducer) (t : Int) : Call → UMap MetricDimensionKey (List CountBucket)
  | .dumpReport include_current_partial_bucket true =>
    (p.onDumpReportLocked t include_current_partial_bucket false).1.mPastBuckets
  | _ => ∅

/-- The events a call counts: a matched event that comes while the metric is active and its condition met. -/
def counted (p : CountMetricProducer) (t : Int) : Call → List Counted
  | .matchedLogEvent values outside =>
    if p.activation.mIsActive && p.conditionMet p.mCondition ⟨t, values, outside⟩ then
      [(t, p.metricKey ⟨t, values, outside⟩)]
    else []
  | _ => []

/-- No event to be counted runs into the dimension guardrail. -/
def BelowGuardRail (p : CountMetricProducer) (t : Int) (c : Call) : Prop :=
  ∀ e ∈ p.counted t c, (p.flushIfNeededLocked t).hitGuardRailLocked e.2 = false

theorem flushIfNeededLocked_metric (p : CountMetricProducer) (t : Int) : (p.flushIfNeededLocked t).toCountMetric = p.toCountMetric := by
  unfold flushIfNeededLocked
  dsimp only
  split
  · rfl
  · exact (feedAnomalyTrackers_frame _ t).1

/-- Whether a call at time `t` flushes a full bucket that is over. -/
def flushes (p : CountMetricProducer) (t : Int) : Call → Bool
  | .matchedLogEvent _ _ => p.activation.mIsActive && decide (p.mTimeBaseNs ≤ t)
  | .flushIfExpire => p.activation.mIsActive && !(p.activation.flushIfExpire t).mIsActive
  | .appUpgrade | .statsdInitCompleted | .dumpReport _ _ => true
  | _ => false

/-- A call splits the current bucket at its time. -/
def Splits (p : CountMetricProducer) (t : Int) : Call → Bool
  | .flushIfExpire => p.activation.mIsActive && !(p.activation.flushIfExpire t).mIsActive
  | .appUpgrade => true
  | .statsdInitCompleted => true
  | .dumpReport include_current_partial_bucket _ => include_current_partial_bucket
  | _ => false

/-- What a call at time `t` does: whether it flushes or splits the bucket, what it counts and what it erases. -/
inductive Does (t : Int) (p : CountMetricProducer) :
    Bool → Bool → List Counted → UMap MetricDimensionKey (List CountBucket) → CountMetricProducer → Prop where
  | nothing (activation : MetricProducer) (mCondition : ConditionState) :
    Does t p false false [] ∅ { p with activation := activation, mCondition := mCondition }
  | flushes : Does t p true false [] ∅ (p.flushIfNeededLocked t)
  | counts (k : MetricDimensionKey) : Does t p true false [(t, k)] ∅
    ((p.flushIfNeededLocked t).count t k (UMap.getD (p.flushIfNeededLocked t).mCurrentSlicedCounter k 0 + 1))
  | splits (activation : MetricProducer) : Does t p true true [] ∅ ({ p with activation := activation }.flushLocked t)
  | erases (early : Bool) (q : CountMetricProducer) (hq : q = if early then p.flushLocked t else p.flushIfNeededLocked t) :
    Does t p true early [] q.mPastBuckets { q with mPastBuckets := ∅ }

theorem call_does (p : CountMetricProducer) (t : Int) (c : Call) :
    ∃ l, Does t p (p.flushes t c) (p.Splits t c) l (p.erasedBy t c) (p.call t c) ∧
      (p.mTimeBaseNs ≤ t → p.BelowGuardRail t c → p.counted t c = l) := by
  cases c with
  | matchedLogEvent values outside =>
    unfold call flushes Splits erasedBy BelowGuardRail counted onMatchedLogEventLocked
    dsimp only
    cases hactive : p.activation.mIsActive with
    | false => exact ⟨[], .nothing p.activation p.mCondition, fun _ _ => rfl⟩
    | true =>
      simp only [Bool.not_true, Bool.false_eq_true, if_false, Bool.true_and]
      by_cases hbase : t < p.mTimeBaseNs
      · rw [if_pos hbase, decide_eq_false (not_le.2 hbase)]
        exact ⟨[], .nothing p.activation p.mCondition, fun h => absurd h (not_le.2 hbase)⟩
      rw [if_neg hbase, decide_eq_true (not_lt.1 hbase)]
      unfold onMatchedLogEventInternalLocked
      dsimp only
      cases p.conditionMet p.mCondition ⟨t, values, outside⟩ with
      | false => exact ⟨[], .flushes, fun _ _ => rfl⟩
      | true =>
        simp only [Bool.not_true, Bool.false_eq_true, if_false, if_true, List.forall_mem_singleton]
        have hcounts := Does.counts (t := t) (p := p) (p.metricKey ⟨t, values, outside⟩)
        generalize p.metricKey ⟨t, values, outside⟩ = k at hcounts ⊢
        cases hlook : (p.flushIfNeededLocked t).mCurrentSlicedCounter.lookup k with
        | none =>
          rw [UMap.getD_of_lookup_none hlook] at hcounts
          dsimp only
          cases (p.flushIfNeededLocked t).hitGuardRailLocked k with
          | true => exact ⟨[], .flushes, fun _ hguard => absurd hguard.symm Bool.false_ne_true⟩
          | false => exact ⟨_, hcounts, fun _ _ => rfl⟩
        | some value =>
          rw [UMap.getD_of_lookup_some hlook] at hcounts
          exact ⟨_, hcounts, fun _ _ => rfl⟩
  | conditionChanged condition => exact ⟨[], .nothing _ _, fun _ _ => rfl⟩
  | flushIfExpire =>
    refine ⟨[], ?_, fun _ _ => rfl⟩
    unfold call flushes Splits erasedBy flushIfExpire onActiveStateChangedLocked
    dsimp only
    cases p.activation.mIsActive with
    | false => exact .nothing _ _
    | true =>
      cases hafter : (p.activation.flushIfExpire t).mIsActive with
      | true => simpa [hafter] using Does.nothing (t := t) (p := p) (p.activation.flushIfExpire t) p.mCondition
      | false => simpa [hafter] using Does.splits (t := t) (p := p) (p.activation.flushIfExpire t)
  | activate i =>
    -- becoming active does not flush
    have hsame : p.activateLocked i t = { p with activation := p.activation.activateLocked i t } := by
      unfold activateLocked onActiveStateChangedLocked
      cases hafter : (p.activation.activateLocked i t).mIsActive with
      | true => simp [hafter]
      | false => simp [hafter]
    refine ⟨[], ?_, fun _ _ => rfl⟩
    change Does t p false false [] ∅ (p.activateLocked i t)
    rw [hsame]
    exact .nothing _ _
  | appUpgrade => exact ⟨[], .splits p.activation, fun _ _ => rfl⟩
  | statsdInitCompleted => exact ⟨[], .splits p.activation, fun _ _ => rfl⟩
  | dumpReport include_current_partial_bucket erase_data =>
    refine ⟨[], ?_, fun _ _ => rfl⟩
    cases erase_data with
    | true => exact .erases include_current_partial_bucket _ rfl
    | false =>
      cases include_current_partial_bucket with
      | true => exact .splits p.activation
      | false => exact .flushes
  | _ => exact ⟨[], .nothing _ _, fun _ _ => rfl⟩

section

variable {p : CountMetricProducer} {erased : MetricDimensionKey → List CountBucket} {t : Int} {events : List Counted}

theorem SplitAll.set (h : SplitAll p erased t events) (activation : MetricProducer) (mCondition : ConditionState) :
    SplitAll { p with activation := activation, mCondition := mCondition } erased t events := h.congr rfl rfl rfl rfl rfl

theorem SplitAll.erase (h : SplitAll p erased t events) :
    SplitAll { p with mPastBuckets := ∅ } (fun k => erased k ++ UMap.getD p.mPastBuckets k []) t events := by
  obtain ⟨closed, opened, hs, heq⟩ := h
  refine ⟨closed, opened, { hs with past := fun k => ?_ }, heq⟩
  rw [UMap.getD_empty, List.append_nil]
  exact hs.past k

theorem SplitAll.call (hsize : 0 < p.mBucketSizeNs) (hbase : p.mTimeBaseNs ≤ t) (h : SplitAll p erased t events) (c : Call)
    (hguard : p.BelowGuardRail t c) :
    SplitAll (p.call t c) (fun k => erased k ++ UMap.getD (p.erasedBy t c) k []) t (events ++ p.counted t c) := by
  obtain ⟨l, hdoes, hcounted⟩ := p.call_does t c
  rw [hcounted hbase hguard]
  generalize p.flushes t c = flushes, p.Splits t c = splits, p.erasedBy t c = gone, p.call t c = q at hdoes ⊢
  obtain ⟨hflush, hlt⟩ := h.flushIfNeeded hsize
  cases hdoes with
  | nothing activation mCondition => simpa using h.set activation mCondition
  | flushes => simpa using hflush
  | counts k => simpa using hflush.count hlt k rfl
  | splits activation => simpa using SplitAll.flushLocked (p := { p with activation := activation }) hsize (h.set activation p.mCondition)
  | erases _ q hq =>
    have hq' : SplitAll q erased t events := by
      rw [hq]
      cases splits with
      | true => exact h.flushLocked hsize
      | false => exact hflush
    simpa using hq'.erase

end

/-! ## Runs -/

/-- A producer with the past buckets that were erased, and the time of its last call. -/
structure History where
  producer : CountMetricProducer
  erased : MetricDimensionKey → List CountBucket
  now : Int

namespace History

def new (metric : CountMetric) (activations : EventActivations) (initialCondition : ConditionState) (startTimeNs : Int) : History :=
  ⟨CountMetricProducer.new metric activations initialCondition startTimeNs, fun _ => [], startTimeNs⟩

/-- All buckets ever emitted for a key. -/
def past (x : History) (k : MetricDimensionKey) : List CountBucket := x.erased k ++ UMap.getD x.producer.mPastBuckets k []

def step (x : History) (e : Int × Call) : History where
  producer := x.producer.call e.1 e.2
  erased := fun k => x.erased k ++ UMap.getD (x.producer.erasedBy e.1 e.2) k []
  now := e.1

/-- Time does not go back, and no event to be counted runs into the guardrail. -/
def Ok (x : History) (e : Int × Call) : Prop := x.now ≤ e.1 ∧ x.producer.BelowGuardRail e.1 e.2

/-- The events counted in a run. -/
def counted : History → List (Int × Call) → List Counted
  | _, [] => []
  | x, e :: es => x.producer.counted e.1 e.2 ++ counted (x.step e) es

end History

/-- A metric without dimensions, states, conditions and activations. -/
def plainMetric (mBucketSizeNs : Int) : CountMetric :=
  ⟨⟨[], false, [], [], [], ∅⟩, 0, mBucketSizeNs⟩

end Statsd.Metrics.CountMetricProducer
