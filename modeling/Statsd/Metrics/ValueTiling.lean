/-
The buckets of a value metric tile time. Over the whole life of a producer, reports and erasures
included, the intervals of the closed buckets (kept or skipped) and of the recorded gaps follow one
another without gap or overlap from the start of the metric to the start of the current bucket, which
always lies in the aligned bucket of its number.

Every operation is a sequence of three moves on the buckets: leave them alone, flush if the bucket is
over, or split it (`Advances`); a move that flushes closes one tile and perhaps records a gap.
-/
import Statsd.Base.Grid
import Statsd.Base.Run
import Statsd.Metrics.ValueFlush

namespace Statsd.Metrics

/-! ## Tiles -/

/-- A closed interval of time: a kept bucket, or a skipped one. -/
structure Tile where
  start : Int
  stop : Int
  skipped : Bool

/-- The interval of a tile, of a skipped bucket and of a kept one. -/
def Tile.interval (t : Tile) : Int × Int := (t.start, t.stop)
def SkippedBucket.interval (b : SkippedBucket) : Int × Int := (b.bucketStartTimeNs, b.bucketEndTimeNs)
def ValueBucket.interval {V : Type} (b : ValueBucket V) : Int × Int := (b.mBucketStartNs, b.mBucketEndNs)

/-- The tiles follow one another from `a` to `b`. -/
def Tiles : Int → List Tile → Int → Prop
  | a, [], b => a = b
  | a, t :: l, b => t.start = a ∧ t.start ≤ t.stop ∧ Tiles t.stop l b

theorem Tiles.append {a b c : Int} {l l' : List Tile} (h : Tiles a l b) (h' : Tiles b l' c) : Tiles a (l ++ l') c := by
  induction l generalizing a with
  | nil => cases h; exact h'
  | cons t l ih => exact ⟨h.1, h.2.1, ih h.2.2⟩

/-- The tile of a closed bucket, and of the gap after it if there is one. -/
def closedTiles (start stop next : Int) (skipped : Bool) : List Tile :=
  ⟨start, stop, skipped⟩ :: if stop < next then [⟨stop, next, true⟩] else []

theorem tiles_closed {start stop next : Int} (h1 : start ≤ stop) (h2 : stop ≤ next) (skipped : Bool) :
    Tiles start (closedTiles start stop next skipped) next := by
  refine ⟨rfl, h1, ?_⟩
  split
  · rename_i h; exact ⟨rfl, le_of_lt h, rfl⟩
  · exact le_antisymm h2 (not_lt.1 ‹_›)

theorem closedTiles_kept {start stop next : Int} {skipped : Bool} {t : Tile} (h : t ∈ closedTiles start stop next skipped)
    (ht : t.skipped = false) : t = ⟨start, stop, false⟩ ∧ skipped = false := by
  rcases List.mem_cons.1 h with rfl | h
  · exact ⟨by rw [← ht], ht⟩
  · split at h
    · rw [List.mem_singleton.1 h] at ht; cases ht
    · cases h

theorem closedTiles_filter (start stop next : Int) :
    (closedTiles start stop next false).filter (!·.skipped) = [⟨start, stop, false⟩] := by
  unfold closedTiles
  split <;> rfl

namespace ValueMetricProducer

variable {V : Type}

/-! ## The buckets and the stopwatch -/

/-- The parts of a producer its buckets depend on. -/
structure SameBuckets (p p' : ValueMetricProducer V) : Prop where
  metric : p'.toValueMetric = p.toValueMetric
  start : p'.mCurrentBucketStartTimeNs = p.mCurrentBucketStartTimeNs
  num : p'.mCurrentBucketNum = p.mCurrentBucketNum
  past : p'.mPastBuckets = p.mPastBuckets
  skipped : p'.mSkippedBuckets = p.mSkippedBuckets

variable (p : ValueMetricProducer V)

theorem SameBuckets.refl : SameBuckets p p := ⟨rfl, rfl, rfl, rfl, rfl⟩

theorem SameBuckets.trans {p p' p'' : ValueMetricProducer V} (h : SameBuckets p p') (h' : SameBuckets p' p'') :
    SameBuckets p p'' :=
  ⟨h'.1.trans h.1, h'.2.trans h.2, h'.3.trans h.3, h'.4.trans h.4, h'.5.trans h.5⟩

theorem invalidateCurrentBucket_same (t : Int) (r : BucketDropReason) :
    SameBuckets p (p.invalidateCurrentBucket t r) := ⟨rfl, rfl, rfl, rfl, rfl⟩

theorem resetBase_same : SameBuckets p p.resetBase := ⟨rfl, rfl, rfl, rfl, rfl⟩

/-- The buckets, the stopwatch, the condition and the activity stay. -/
structure OffClock (p p' : ValueMetricProducer V) : Prop extends SameBuckets p p' where
  timer : p'.mConditionTimer = p.mConditionTimer
  condition : p'.mCondition = p.mCondition
  active : p'.mIsActive = p.mIsActive

theorem OffClock.refl : OffClock p p := ⟨.refl p, rfl, rfl, rfl⟩

theorem OffClock.trans {p p' p'' : ValueMetricProducer V} (h : OffClock p p') (h' : OffClock p' p'') : OffClock p p'' :=
  ⟨h.toSameBuckets.trans h'.toSameBuckets, h'.timer.trans h.timer, h'.condition.trans h.condition, h'.active.trans h.active⟩

theorem OffClock.foldl {α : Type} {f : ValueMetricProducer V → α → ValueMetricProducer V}
    (hf : ∀ p a, OffClock p (f p a)) (l : List α) (p : ValueMetricProducer V) : OffClock p (l.foldl f p) := by
  induction l generalizing p with
  | nil => exact .refl p
  | cons a l ih => exact (hf p a).trans (ih _)

theorem offClock_invalidate (t : Int) (r : BucketDropReason) : OffClock p (p.invalidateCurrentBucket t r) :=
  ⟨invalidateCurrentBucket_same p t r, rfl, rfl, rfl⟩

theorem offClock_resetBase : OffClock p p.resetBase := ⟨resetBase_same p, rfl, rfl, rfl⟩

theorem offClock_resetMissing : OffClock p p.resetMissing := by
  refine OffClock.foldl (fun p slice => ?_) _ p
  dsimp only
  split
  · split
    · exact .refl p
    · exact ⟨⟨rfl, rfl, rfl, rfl, rfl⟩, rfl, rfl, rfl⟩
  · exact .refl p

/-! ## What a flush does to the buckets -/

variable [MetricValue V]

/-- A bucket of the past buckets with the interval of the closed one, or none. -/
def AtMostOne (start stop : Int) (l : List (ValueBucket V)) : Prop :=
  l = [] ∨ ∃ b, l = [b] ∧ b.interval = (start, stop)

/-- What a flush does: it closes the current bucket at `stop`, kept or skipped, and records the gap up
to the next one. -/
structure FlushSpec (p p' : ValueMetricProducer V) (stop next num : Int) (skipped : Bool) : Prop where
  metric : p'.toValueMetric = p.toValueMetric
  start : p'.mCurrentBucketStartTimeNs = next
  num : p'.mCurrentBucketNum = num
  skippedBuckets : p'.mSkippedBuckets.map SkippedBucket.interval = p.mSkippedBuckets.map SkippedBucket.interval ++
    ((closedTiles p.mCurrentBucketStartTimeNs stop next skipped).filter (·.skipped)).map Tile.interval
  past : ∃ add : MetricDimensionKey → List (ValueBucket V),
    (∀ k, UMap.getD p'.mPastBuckets k [] = UMap.getD p.mPastBuckets k [] ++ add k) ∧
    (∀ k, AtMostOne p.mCurrentBucketStartTimeNs stop (add k)) ∧
    (if skipped then ∀ k, add k = [] else ∃ k, add k ≠ [])

theorem keptOf_atMostOne (stop duration : Int) (k : MetricDimensionKey) :
    AtMostOne p.mCurrentBucketStartTimeNs stop (p.keptOf stop duration k) := by
  refine (p.keptOf_cases stop duration k).imp_right ?_
  rintro ⟨b, hb, hstart, hstop, -⟩
  exact ⟨b, hb, Prod.ext hstart hstop⟩

theorem flushCurrentBucketLocked_spec (e next : Int) :
    ∃ skipped, FlushSpec p (p.flushCurrentBucketLocked e next) (p.closesAt e next) next
      (p.mCurrentBucketNum + p.calcBucketsForwardCount e) skipped := by
  obtain ⟨skipped, drops, h⟩ := p.flushCurrentBucketLocked_flush e next
  refine ⟨skipped, h.metric, h.start, h.num, ?_, _, h.past, fun k => ?_, ?_⟩
  · rw [h.skippedBuckets]
    unfold closedTiles
    cases skipped <;> by_cases hlt : p.closesAt e next < next <;> simp [hlt, Tile.interval, SkippedBucket.interval]
  · cases skipped with
    | true => exact .inl rfl
    | false => exact p.keptOf_atMostOne _ _ k
  · cases skipped with
    | true => exact fun k => rfl
    | false =>
      cases hi : p.invalidAt e next with
      | true => exact absurd (h.invalid hi).1 Bool.false_ne_true
      | false => exact (h.data hi).1 rfl

/-! ## The bucket of the producer -/

/-- The current bucket starts inside the aligned bucket of its number. -/
structure InBucket (p : ValueMetricProducer V) : Prop where
  size : 0 < p.mBucketSizeNs
  lower : p.mTimeBaseNs + p.mCurrentBucketNum * p.mBucketSizeNs ≤ p.mCurrentBucketStartTimeNs
  upper : p.mCurrentBucketStartTimeNs < p.getCurrentBucketEndTimeNs

omit [MetricValue V] in
theorem calcBucketsForwardCount_early {p : ValueMetricProducer V} {e : Int} (he : e < p.getCurrentBucketEndTimeNs) :
    p.calcBucketsForwardCount e = 0 := if_pos he

omit [MetricValue V] in
theorem calcBucketsForwardCount_bounds {p : ValueMetricProducer V} (hsize : 0 < p.mBucketSizeNs) {e : Int}
    (he : ¬ e < p.getCurrentBucketEndTimeNs) :
    0 < p.calcBucketsForwardCount e ∧
      p.getCurrentBucketEndTimeNs + (p.calcBucketsForwardCount e - 1) * p.mBucketSizeNs ≤ e ∧
      e < p.getCurrentBucketEndTimeNs + p.calcBucketsForwardCount e * p.mBucketSizeNs := by
  unfold calcBucketsForwardCount
  rw [if_neg he]
  exact Grid.stepsAfter_bounds hsize (not_lt.1 he)

/-- The start of the next bucket is in the aligned bucket of an event at `e`, no later than `e`. -/
def NextStart (p : ValueMetricProducer V) (e next : Int) : Prop :=
  p.mTimeBaseNs + (p.mCurrentBucketNum + p.calcBucketsForwardCount e) * p.mBucketSizeNs ≤ next ∧ next ≤ e ∧
    p.mCurrentBucketStartTimeNs ≤ p.closesAt e next ∧ p.closesAt e next ≤ next

omit [MetricValue V] in
theorem aligned_after (e : Int) :
    p.mTimeBaseNs + (p.mCurrentBucketNum + p.calcBucketsForwardCount e) * p.mBucketSizeNs =
      p.getCurrentBucketEndTimeNs + (p.calcBucketsForwardCount e - 1) * p.mBucketSizeNs := by
  unfold getCurrentBucketEndTimeNs; ring

omit [MetricValue V] in
theorem nextStart_flush {p : ValueMetricProducer V} (h : p.InBucket) {e : Int} (he : ¬ e < p.getCurrentBucketEndTimeNs) :
    p.NextStart e (p.getCurrentBucketEndTimeNs + (p.calcBucketsForwardCount e - 1) * p.mBucketSizeNs) := by
  obtain ⟨h0, h1, -⟩ := calcBucketsForwardCount_bounds h.size he
  have hpos : 0 ≤ (p.calcBucketsForwardCount e - 1) * p.mBucketSizeNs := mul_nonneg (by omega) (le_of_lt h.size)
  have hup := h.upper
  refine ⟨le_of_eq (p.aligned_after e), h1, ?_, ?_⟩
  · unfold closesAt
    rw [if_neg he]
    split <;> omega
  · unfold closesAt
    rw [if_neg he]
    split <;> omega

omit [MetricValue V] in
theorem nextStart_split {p : ValueMetricProducer V} (h : p.InBucket) {e : Int} (hpast : p.mCurrentBucketStartTimeNs ≤ e) :
    p.NextStart e e := by
  have hup := h.upper
  by_cases he : e < p.getCurrentBucketEndTimeNs
  · have hc : p.closesAt e e = e := by
      unfold closesAt
      rw [if_pos he]
      split <;> rfl
    refine ⟨?_, le_refl _, ?_, ?_⟩
    · rw [calcBucketsForwardCount_early he, add_zero]; exact h.lower.trans hpast
    · rw [hc]; exact hpast
    · rw [hc]
  · obtain ⟨-, h1, -⟩ := calcBucketsForwardCount_bounds h.size he
    refine ⟨?_, le_refl _, ?_, ?_⟩
    · rw [p.aligned_after e]; exact h1
    · unfold closesAt
      rw [if_neg he]
      split
      · exact hpast
      · exact le_of_lt hup
    · unfold closesAt
      rw [if_neg he]
      split
      · exact le_refl _
      · exact not_lt.1 he

omit [MetricValue V] in
theorem lt_end_after {p : ValueMetricProducer V} (hsize : 0 < p.mBucketSizeNs) (e : Int) :
    e < p.mTimeBaseNs + (p.mCurrentBucketNum + p.calcBucketsForwardCount e + 1) * p.mBucketSizeNs := by
  have hE : p.getCurrentBucketEndTimeNs = p.mTimeBaseNs + (p.mCurrentBucketNum + 1) * p.mBucketSizeNs := rfl
  by_cases he : e < p.getCurrentBucketEndTimeNs
  · rw [calcBucketsForwardCount_early he, add_zero]; exact he
  · obtain ⟨-, -, h2⟩ := calcBucketsForwardCount_bounds hsize he
    calc e < p.getCurrentBucketEndTimeNs + p.calcBucketsForwardCount e * p.mBucketSizeNs := h2
      _ = p.mTimeBaseNs + (p.mCurrentBucketNum + p.calcBucketsForwardCount e + 1) * p.mBucketSizeNs := by rw [hE]; ring

omit [MetricValue V] in
theorem FlushSpec.inBucket {p p' : ValueMetricProducer V} {e next : Int} {skipped : Bool} (h : p.InBucket)
    (hn : p.NextStart e next)
    (hf : FlushSpec p p' (p.closesAt e next) next (p.mCurrentBucketNum + p.calcBucketsForwardCount e) skipped) :
    p'.InBucket := by
  refine ⟨?_, ?_, ?_⟩
  · rw [hf.metric]; exact h.size
  · rw [hf.metric, hf.num, hf.start]; exact hn.1
  · unfold getCurrentBucketEndTimeNs
    rw [hf.metric, hf.num, hf.start]
    exact lt_of_le_of_lt hn.2.1 (lt_end_after h.size e)

theorem startAt_eq {p : ValueMetricProducer V} (hsize : 0 < p.mBucketSizeNs) (t : Int) :
    p.startAt t = { p with
      mCurrentBucketNum := p.mCurrentBucketNum + p.calcBucketsForwardCount t
      mCurrentBucketStartTimeNs := t
      mConditionTimer := (p.mConditionTimer.newBucketStart t).1.onConditionChanged (p.mIsActive && decide (p.mCondition = .kTrue)) t } := by
  have hnone : flushIfNeededLocked { p with mCurrentBucketNum := p.mCurrentBucketNum + p.calcBucketsForwardCount t } t =
      { p with mCurrentBucketNum := p.mCurrentBucketNum + p.calcBucketsForwardCount t } := if_pos (lt_end_after hsize t)
  unfold startAt
  dsimp only
  rw [hnone]

theorem startAt_spec {p : ValueMetricProducer V} (h : p.InBucket) {t : Int} (ht : p.mCurrentBucketStartTimeNs ≤ t) :
    (p.startAt t).InBucket ∧ (p.startAt t).toValueMetric = p.toValueMetric ∧ (p.startAt t).mCurrentBucketStartTimeNs = t ∧
      (p.startAt t).mPastBuckets = p.mPastBuckets ∧ (p.startAt t).mSkippedBuckets = p.mSkippedBuckets := by
  have hlow := (nextStart_split h ht).1
  have hup := lt_end_after h.size t
  rw [startAt_eq h.size]
  exact ⟨⟨h.size, hlow, hup⟩, rfl, rfl, rfl, rfl⟩

/-! ## What an operation does to the buckets -/

theorem offClock_accumulate (event : ValueEvent V) : OffClock p (p.accumulate event) := by
  unfold accumulate
  dsimp only
  split
  · exact ⟨⟨rfl, rfl, rfl, rfl, rfl⟩, rfl, rfl, rfl⟩
  · exact ⟨⟨rfl, rfl, rfl, rfl, rfl⟩, rfl, rfl, rfl⟩

/-- The moves of an operation at time `t`: it leaves the buckets alone, flushes a bucket that is over or
splits the current one. -/
inductive Advances (t : Int) : ValueMetricProducer V → ValueMetricProducer V → Prop where
  | same {p p' : ValueMetricProducer V} (h : SameBuckets p p') : Advances t p p'
  | flush (p : ValueMetricProducer V) : Advances t p (p.flushIfNeededLocked t)
  | split (p : ValueMetricProducer V) : Advances t p (p.flushCurrentBucketLocked t t)
  | trans {p p' p'' : ValueMetricProducer V} (h : Advances t p p') (h' : Advances t p' p'') : Advances t p p''

theorem Advances.refl (t : Int) (p : ValueMetricProducer V) : Advances t p p := .same (.refl p)

/-- The moves of a call at time `t` that changes neither the condition nor the activity. -/
inductive KeepsState (t : Int) : ValueMetricProducer V → ValueMetricProducer V → Prop where
  | off {p p' : ValueMetricProducer V} (h : OffClock p p') : KeepsState t p p'
  | flush (p : ValueMetricProducer V) : KeepsState t p (p.flushIfNeededLocked t)
  | split (p : ValueMetricProducer V) : KeepsState t p (p.flushCurrentBucketLocked t t)
  | trans {p p' p'' : ValueMetricProducer V} (h : KeepsState t p p') (h' : KeepsState t p' p'') : KeepsState t p p''

theorem KeepsState.refl (t : Int) (p : ValueMetricProducer V) : KeepsState t p p := .off (.refl p)

theorem KeepsState.flushLocked (t : Int) : KeepsState t p (p.flushLocked t) := .trans (.flush p) (.split _)

theorem KeepsState.advances {t : Int} {p q : ValueMetricProducer V} (h : KeepsState t p q) : Advances t p q := by
  induction h with
  | off h => exact .same h.toSameBuckets
  | flush p => exact .flush p
  | split p => exact .split p
  | trans _ _ ih1 ih2 => exact ih1.trans ih2

theorem quiet_matched (event : ValueEvent V) :
    KeepsState event.elapsedTimestampNs p (p.onMatchedLogEventLocked event) ∧
      (p.mIsPulled = true → OffClock p (p.onMatchedLogEventLocked event)) := by
  unfold onMatchedLogEventLocked onMatchedLogEventInternalLocked
  split
  · exact ⟨.refl _ p, fun _ => .refl p⟩
  split
  · exact ⟨.refl _ p, fun _ => .refl p⟩
  dsimp only
  generalize (if p.mConditionSliced = true then event.slicedCondition else decide (p.mCondition = .kTrue)) = condition
  split
  · exact ⟨.refl _ p, fun _ => .refl p⟩
  split
  · exact ⟨.refl _ p, fun _ => .refl p⟩
  have hflush : ∀ q : ValueMetricProducer V, OffClock p q →
      KeepsState event.elapsedTimestampNs p (if p.mIsPulled = true then q else q.flushIfNeededLocked event.elapsedTimestampNs) ∧
      (p.mIsPulled = true → OffClock p (if p.mIsPulled = true then q else q.flushIfNeededLocked event.elapsedTimestampNs)) := by
    intro q hq
    split
    · exact ⟨.off hq, fun _ => hq⟩
    · rename_i h
      exact ⟨.trans (.off hq) (.flush q), fun h' => absurd h' h⟩
  have hr := hflush { p with
    mMatchedMetricDimensionKeys := insert event.eventKey.mDimensionKeyInWhat p.mMatchedMetricDimensionKeys }
    ⟨⟨rfl, rfl, rfl, rfl, rfl⟩, rfl, rfl, rfl⟩
  generalize (if p.mIsPulled = true then _ else _ : ValueMetricProducer V) = r at hr
  split
  · exact hr
  split
  · exact hr
  · exact ⟨.trans hr.1 (.off (r.offClock_accumulate event)), fun hp => (hr.2 hp).trans (r.offClock_accumulate event)⟩

theorem offClock_accumulateEvents (hp : p.mIsPulled = true) (pull : Pull V) (t e : Int) :
    OffClock p (p.accumulateEvents pull t e) := by
  unfold accumulateEvents
  split
  · exact offClock_invalidate _ _ _
  split
  · exact offClock_invalidate _ _ _
  dsimp only
  have hdata : ∀ (l : List (ValueEvent V)) (q : ValueMetricProducer V), OffClock p q →
      OffClock p (l.foldl (fun p data => p.onMatchedLogEventLocked { data with elapsedTimestampNs := e }) q) := by
    intro l
    induction l with
    | nil => exact fun q h => h
    | cons data l ih =>
      intro q h
      have hq : q.mIsPulled = true := by rw [h.metric]; exact hp
      exact ih _ (h.trans ((q.quiet_matched { data with elapsedTimestampNs := e }).2 hq))
  have hall := hdata pull.allData { p with mMatchedMetricDimensionKeys := ∅ } ⟨⟨rfl, rfl, rfl, rfl, rfl⟩, rfl, rfl, rfl⟩
  generalize pull.allData.foldl
    (fun p data => p.onMatchedLogEventLocked { data with elapsedTimestampNs := e })
    { p with mMatchedMetricDimensionKeys := ∅ } = q at hall
  have hreset := hall.trans (offClock_resetMissing q)
  generalize q.resetMissing = r at hreset
  split
  · exact hreset.trans ⟨⟨rfl, rfl, rfl, rfl, rfl⟩, rfl, rfl, rfl⟩
  · exact hreset.trans ⟨⟨rfl, rfl, rfl, rfl, rfl⟩, rfl, rfl, rfl⟩

theorem offClock_pullAndMatchEventsLocked (hp : p.mIsPulled = true) (pull : Pull V) (t : Int) :
    OffClock p (p.pullAndMatchEventsLocked pull t) := by
  unfold pullAndMatchEventsLocked
  split
  · exact offClock_invalidate _ _ _
  · exact p.offClock_accumulateEvents hp pull t t

theorem offClock_pull (c : Bool) (pull : Pull V) (t : Int) :
    OffClock p (if p.mIsPulled && c then p.pullAndMatchEventsLocked pull t else p) := by
  split
  · rename_i h
    exact p.offClock_pullAndMatchEventsLocked (Bool.and_eq_true_iff.1 h).1 pull t
  · exact .refl p

theorem quiet_dataPulled (hp : p.mIsPulled = true) (pull : Pull V) (t : Int) :
    KeepsState t p (p.onDataPulled pull t) := by
  unfold onDataPulled
  refine .trans (.off ?_) (.flush _)
  split
  · split
    · exact offClock_invalidate _ _ _
    split
    · exact p.offClock_accumulateEvents hp pull _ _
    · exact p.offClock_accumulateEvents hp pull _ _
  · exact .refl p

theorem quiet_stateChanged (t atomId : Int) (primaryKey : HashableDimensionKey) (oldState newState : Value)
    (pull : Pull V) : KeepsState t p (p.onStateChanged t atomId primaryKey oldState newState pull) := by
  unfold onStateChanged
  split
  · exact .refl t p
  split
  · exact .refl t p
  split
  · exact .off (offClock_invalidate _ _ _)
  · dsimp only
    refine .trans (.off ?_) (.flush _)
    have hpull := offClock_pull { p with mStateChangePrimaryKey := (atomId, primaryKey) } true pull t
    rw [Bool.and_true] at hpull
    exact ⟨⟨hpull.metric, hpull.start, hpull.num, hpull.past, hpull.skipped⟩, hpull.timer, hpull.condition, hpull.active⟩

theorem quiet_prepareDump (t : Int) (include_current_partial_bucket : Bool) (dumpLatency : DumpLatency)
    (pull : Pull V) : KeepsState t p (p.prepareDump t include_current_partial_bucket dumpLatency pull) := by
  unfold prepareDump
  split
  · exact .refl t p
  · dsimp only
    refine .trans (.off ?_) (.split _)
    cases dumpLatency with
    | FAST =>
      dsimp only
      split
      · exact offClock_invalidate _ _ _
      · exact .refl p
    | NO_TIME_CONSTRAINTS => exact p.offClock_pull _ pull t

theorem advances_conditionChanged (condition : Bool) (t : Int) (pull : Pull V) :
    Advances t p (p.onConditionChangedLocked condition t pull) := by
  unfold onConditionChangedLocked
  dsimp only
  split
  · exact .same ⟨rfl, rfl, rfl, rfl, rfl⟩
  split
  · exact .same ⟨rfl, rfl, rfl, rfl, rfl⟩
  generalize hq : (if p.mCondition = .kUnknown then p.invalidateCurrentBucket t .CONDITION_UNKNOWN else p) = q
  have hknown : SameBuckets p q := by
    subst hq
    split
    · exact invalidateCurrentBucket_same _ _ _
    · exact .refl p
  have hpull := (q.offClock_pull (decide (ConditionState.ofBool condition = .kTrue) || decide (q.mCondition = .kTrue)) pull t).toSameBuckets
  generalize (if q.mIsPulled && (decide (ConditionState.ofBool condition = .kTrue) || decide (q.mCondition = .kTrue)) then
    q.pullAndMatchEventsLocked pull t else q) = r at hpull
  refine .trans (.same (hknown.trans hpull)) (.trans (.same ?_) (.trans (.flush _) (.same ⟨rfl, rfl, rfl, rfl, rfl⟩)))
  split
  · exact ⟨rfl, rfl, rfl, rfl, rfl⟩
  · exact ⟨rfl, rfl, rfl, rfl, rfl⟩

theorem advances_activeStateChanged (t : Int) (pull : Pull V) :
    Advances t p (p.onActiveStateChangedLocked t pull) := by
  unfold onActiveStateChangedLocked
  dsimp only
  generalize decide (t < p.mCurrentBucketStartTimeNs) = isEventTooLate
  generalize hq : (if isEventTooLate = true then p.invalidateCurrentBucket t .EVENT_IN_WRONG_BUCKET else p) = q
  have hlate : SameBuckets p q := by
    subst hq
    split
    · exact invalidateCurrentBucket_same _ _ _
    · exact .refl p
  generalize hr : (if (!q.mIsActive) = true then q.flushLocked t else q) = r
  have hflush : Advances t q r := by
    subst hr
    split
    · exact .trans (.flush q) (.split _)
    · exact .refl t q
  refine .trans (.same hlate) (.trans hflush ?_)
  split
  · exact .refl t r
  · refine .trans (.same ?_) (.trans (.flush _) (.same ⟨rfl, rfl, rfl, rfl, rfl⟩))
    split
    · exact .refl r
    · have hpull := (r.offClock_pull true pull t).toSameBuckets
      rw [Bool.and_true] at hpull
      generalize (if r.mIsPulled = true then r.pullAndMatchEventsLocked pull t else r) = r' at hpull
      split
      · exact hpull.trans (resetBase_same _)
      · exact hpull

theorem advances_setActive (isActive : Bool) (t : Int) (pull : Pull V) :
    Advances t p (p.setActive isActive t pull) := by
  unfold setActive
  split
  · exact .refl t p
  · have hset : SameBuckets p { p with mIsActive := isActive } := ⟨rfl, rfl, rfl, rfl, rfl⟩
    exact .trans (.same hset) (advances_activeStateChanged _ t pull)

/-! ## Histories -/

/-- The calls a producer gets. -/
inductive Call (V : Type) where
  | matchedLogEvent (event : ValueEvent V)
  | conditionChanged (condition : Bool) (pull : Pull V)
  | activeStateChanged (isActive : Bool) (pull : Pull V)
  | appUpgrade (pull : Pull V)
  | statsdInitCompleted (pull : Pull V)
  | dataPulled (pull : Pull V)
  | stateChanged (atomId : Int) (primaryKey : HashableDimensionKey) (oldState newState : Value) (pull : Pull V)
  | prepareFirstBucket (pull : Pull V)
  | dumpReport (include_current_partial_bucket erase_data : Bool) (dumpLatency : DumpLatency) (pull : Pull V)
  | dropData

/-- The call at time `t`, up to the erasure of the past buckets. A scheduled pull reaches only pulled
metrics, which registered for it; a matched event comes with its own time. -/
def call (p : ValueMetricProducer V) (t : Int) : Call V → ValueMetricProducer V
  | .matchedLogEvent event => p.onMatchedLogEventLocked { event with elapsedTimestampNs := t }
  | .conditionChanged condition pull => p.onConditionChangedLocked condition t pull
  | .activeStateChanged isActive pull => p.setActive isActive t pull
  | .appUpgrade pull => p.notifyAppUpgrade t pull
  | .statsdInitCompleted pull => p.onStatsdInitCompleted t pull
  | .dataPulled pull => if p.mIsPulled then p.onDataPulled pull t else p
  | .stateChanged atomId primaryKey oldState newState pull => p.onStateChanged t atomId primaryKey oldState newState pull
  | .prepareFirstBucket pull => p.prepareFirstBucketLocked pull
  | .dumpReport include_current_partial_bucket _ dumpLatency pull =>
    p.prepareDump t include_current_partial_bucket dumpLatency pull
  | .dropData => p.flushIfNeededLocked t

/-- Whether the call erases the past buckets at its end. -/
def Call.erases : Call V → Bool
  | .dumpReport _ erase_data _ _ => erase_data
  | .dropData => true
  | _ => false

/-- The call tells of a change of the condition or of the activity. -/
def Call.switches : Call V → Bool
  | .conditionChanged _ _ => true
  | .activeStateChanged _ _ => true
  | _ => false

theorem keepsState_call (t : Int) {c : Call V} (hc : c.switches = false) : KeepsState t p (p.call t c) := by
  cases c with
  | matchedLogEvent event => exact (p.quiet_matched { event with elapsedTimestampNs := t }).1
  | conditionChanged condition pull => cases hc
  | activeStateChanged isActive pull => cases hc
  | appUpgrade pull =>
    show KeepsState t p (p.notifyAppUpgrade t pull)
    unfold notifyAppUpgrade
    split
    · exact .refl t p
    · exact .trans (.off (p.offClock_pull _ pull t)) (.split _)
  | statsdInitCompleted pull => exact .trans (.off (p.offClock_pull _ pull t)) (.split _)
  | dataPulled pull =>
    show KeepsState t p (if p.mIsPulled then p.onDataPulled pull t else p)
    split
    · rename_i h
      exact p.quiet_dataPulled h pull t
    · exact .refl t p
  | stateChanged atomId primaryKey oldState newState pull => exact p.quiet_stateChanged t atomId primaryKey oldState newState pull
  | prepareFirstBucket pull =>
    show KeepsState t p (p.prepareFirstBucketLocked pull)
    unfold prepareFirstBucketLocked
    split
    · rename_i h
      simp only [Bool.and_eq_true] at h
      have hpull := p.offClock_pull true pull p.mCurrentBucketStartTimeNs
      rw [h.1.1.2] at hpull
      exact .off hpull
    · exact .refl t p
  | dumpReport partialBucket erase dumpLatency pull => exact p.quiet_prepareDump t partialBucket dumpLatency pull
  | dropData => exact .flush p

theorem advances_call (t : Int) (c : Call V) : Advances t p (p.call t c) := by
  cases hc : c.switches with
  | false => exact (p.keepsState_call t hc).advances
  | true =>
    cases c with
    | conditionChanged condition pull => exact p.advances_conditionChanged condition t pull
    | activeStateChanged isActive pull => exact p.advances_setActive isActive t pull
    | _ => cases hc

/-- A producer with all the buckets it ever closed: those erased so far are kept aside. -/
structure History (V : Type) where
  producer : ValueMetricProducer V
  erasedPast : MetricDimensionKey → List (ValueBucket V)
  erasedSkipped : List SkippedBucket
  now : Int

namespace History

/-- All buckets of a key, and all skipped ones, in the order they were closed. -/
def past (x : History V) (k : MetricDimensionKey) : List (ValueBucket V) :=
  x.erasedPast k ++ UMap.getD x.producer.mPastBuckets k []

def skipped (x : History V) : List SkippedBucket := x.erasedSkipped ++ x.producer.mSkippedBuckets

def new (metric : ValueMetric) (startTimeNs : Int) (initialCondition : ConditionState) (isActive : Bool) : History V :=
  ⟨ValueMetricProducer.new metric startTimeNs initialCondition isActive, fun _ => [], [], startTimeNs⟩

def erase (x : History V) : History V :=
  ⟨x.producer.clearPastBucketsLocked, x.past, x.skipped, x.now⟩

/-- A call at a time. -/
def step (x : History V) (e : Int × Call V) : History V :=
  let x := { x with producer := x.producer.call e.1 e.2, now := e.1 }
  if e.2.erases then x.erase else x

/-- Time does not go back. -/
def Ok (x : History V) (e : Int × Call V) : Prop := x.now ≤ e.1

instance (x : History V) (e : Int × Call V) : Decidable (x.Ok e) := inferInstanceAs (Decidable (x.now ≤ e.1))

/-- The tiles of a history: the skipped ones are the skipped buckets, the others are buckets of some
key, and the buckets of a key are among them, in order and each once. -/
structure TiledBy (x : History V) (startTimeNs : Int) (tiles : List Tile) : Prop where
  tile : Tiles startTimeNs tiles x.producer.mCurrentBucketStartTimeNs
  skipped : x.skipped.map SkippedBucket.interval = (tiles.filter (·.skipped)).map Tile.interval
  kept : ∀ t ∈ tiles, t.skipped = false → ∃ k, ∃ b ∈ x.past k, b.interval = t.interval
  past : ∀ k, ((x.past k).map ValueBucket.interval).Sublist ((tiles.filter (!·.skipped)).map Tile.interval)

/-- The invariant of a history. -/
structure Inv (metric : ValueMetric) (startTimeNs : Int) (x : History V) : Prop where
  metric : x.producer.toValueMetric = metric
  inBucket : x.producer.InBucket
  now : x.producer.mCurrentBucketStartTimeNs ≤ x.now
  tiled : ∃ tiles, x.TiledBy startTimeNs tiles

variable {metric : ValueMetric} {startTimeNs : Int}

omit [MetricValue V] in
theorem Inv.congr {x y : History V} (h : x.Inv metric startTimeNs)
    (hm : y.producer.toValueMetric = x.producer.toValueMetric)
    (hs : y.producer.mCurrentBucketStartTimeNs = x.producer.mCurrentBucketStartTimeNs)
    (hn : y.producer.mCurrentBucketNum = x.producer.mCurrentBucketNum) (hp : y.past = x.past) (hk : y.skipped = x.skipped)
    (hnow : x.now ≤ y.now) : y.Inv metric startTimeNs := by
  refine ⟨hm.trans h.metric, ⟨?_, ?_, ?_⟩, ?_, ?_⟩
  · rw [hm]; exact h.inBucket.size
  · rw [hm, hs, hn]; exact h.inBucket.lower
  · unfold getCurrentBucketEndTimeNs; rw [hm, hs, hn]; exact h.inBucket.upper
  · rw [hs]; exact h.now.trans hnow
  · obtain ⟨tiles, ht⟩ := h.tiled
    exact ⟨tiles, hs ▸ ht.tile, hk ▸ ht.skipped, hp ▸ ht.kept, hp ▸ ht.past⟩

omit [MetricValue V] in
theorem atMostOne_sublist {a b : Int} {l : List (ValueBucket V)} (h : AtMostOne a b l) :
    (l.map ValueBucket.interval).Sublist [(a, b)] := by
  rcases h with rfl | ⟨c, rfl, hc⟩
  · exact List.nil_sublist _
  · rw [List.map_singleton, hc]

omit [MetricValue V] in
theorem Inv.flush {startTimeNs e next : Int} {x : History V} {p : ValueMetricProducer V} {skipped : Bool}
    (h : x.Inv metric startTimeNs) (hn : x.producer.NextStart e next) (he : e ≤ x.now)
    (hf : FlushSpec x.producer p (x.producer.closesAt e next) next
      (x.producer.mCurrentBucketNum + x.producer.calcBucketsForwardCount e) skipped) :
    Inv metric startTimeNs { x with producer := p } := by
  obtain ⟨tiles, ht⟩ := h.tiled
  obtain ⟨add, hadd, hone, hdata⟩ := hf.past
  have hin := hf.inBucket h.inBucket hn
  unfold NextStart at hn
  generalize x.producer.closesAt e next = stop at *
  have hp : ∀ k, past { x with producer := p } k = x.past k ++ add k := fun k => by
    unfold past; rw [hadd, List.append_assoc]
  refine ⟨hf.metric.trans h.metric, hin, ?_, tiles ++ closedTiles x.producer.mCurrentBucketStartTimeNs stop next skipped, ?_, ?_, fun t ht' hk => ?_,
    fun k => ?_⟩
  · exact hf.start.trans_le (hn.2.1.trans he)
  · exact ht.tile.append (hf.start ▸ tiles_closed hn.2.2.1 hn.2.2.2 skipped)
  · show (x.erasedSkipped ++ p.mSkippedBuckets).map _ = _
    have hold := ht.skipped
    unfold History.skipped at hold
    rw [List.map_append] at hold
    rw [List.map_append, hf.skippedBuckets, ← List.append_assoc, hold, List.filter_append, List.map_append]
  · rcases List.mem_append.1 ht' with hmem | hmem
    · obtain ⟨k, b, hb, hi⟩ := ht.kept t hmem hk
      exact ⟨k, b, by rw [hp]; exact List.mem_append_left _ hb, hi⟩
    · obtain ⟨rfl, rfl⟩ := closedTiles_kept hmem hk
      obtain ⟨k, hne⟩ := hdata
      rcases hone k with hnil | ⟨b, hb, hi⟩
      · exact absurd hnil hne
      · exact ⟨k, b, by rw [hp, hb]; exact List.mem_append_right _ (List.mem_singleton_self b), hi⟩
  · rw [hp, List.map_append, List.filter_append, List.map_append]
    refine (ht.past k).append ?_
    cases skipped with
    | true => rw [show add k = [] from hdata k]; exact List.nil_sublist _
    | false => rw [closedTiles_filter]; exact atMostOne_sublist (hone k)

theorem Inv.advances {startTimeNs t : Int} {p q : ValueMetricProducer V} (ha : Advances t p q) {x : History V}
    (h : x.Inv metric startTimeNs) (hp : x.producer = p) (ht : x.now = t) : Inv metric startTimeNs { x with producer := q } := by
  induction ha generalizing x with
  | same hsame =>
    subst hp
    refine h.congr hsame.metric hsame.start hsame.num (funext fun k => ?_) ?_ (le_refl _)
    · unfold past; rw [hsame.past]
    · unfold History.skipped; rw [hsame.skipped]
  | flush p =>
    subst hp
    unfold flushIfNeededLocked
    split
    · exact h
    · rename_i he
      obtain ⟨skipped, hf⟩ := x.producer.flushCurrentBucketLocked_spec t _
      exact h.flush (nextStart_flush h.inBucket he) (le_of_eq ht.symm) hf
  | split p =>
    subst hp
    obtain ⟨skipped, hf⟩ := x.producer.flushCurrentBucketLocked_spec t t
    exact h.flush (nextStart_split h.inBucket (ht ▸ h.now)) (le_of_eq ht.symm) hf
  | @trans _ p' _ _ _ ih1 ih2 => exact ih2 (x := { x with producer := p' }) (ih1 h hp ht) rfl ht

omit [MetricValue V] in
theorem Inv.erase {x : History V} (h : x.Inv metric startTimeNs) : x.erase.Inv metric startTimeNs := by
  refine h.congr rfl rfl rfl (funext fun k => ?_) ?_ (le_refl _)
  · show x.past k ++ UMap.getD ∅ k [] = x.past k
    simp
  · exact List.append_nil _

theorem Inv.step {x : History V} (e : Int × Call V) (hok : x.Ok e) (h : x.Inv metric startTimeNs) :
    (x.step e).Inv metric startTimeNs := by
  have htick : Inv metric startTimeNs { x with now := e.1 } := h.congr rfl rfl rfl rfl rfl hok
  have hcall := Inv.advances (x.producer.advances_call e.1 e.2) htick rfl rfl
  unfold History.step
  dsimp only
  split
  · exact hcall.erase
  · exact hcall

theorem inv_new (hsize : 0 < metric.mBucketSizeNs)
    (hstart : metric.mTimeBaseNs ≤ startTimeNs) (initialCondition : ConditionState) (isActive : Bool) :
    (new metric startTimeNs initialCondition isActive : History V).Inv metric startTimeNs := by
  have hzero : (initial metric initialCondition isActive : ValueMetricProducer V).InBucket := by
    refine ⟨hsize, ?_, ?_⟩
    · simp [initial]
    · simp [initial, getCurrentBucketEndTimeNs, hsize]
  obtain ⟨hin, hmetric, hs, hpast, hskip⟩ := startAt_spec hzero hstart
  have hp : ∀ k, past (new metric startTimeNs initialCondition isActive : History V) k = [] := fun k => by
    unfold past new ValueMetricProducer.new
    dsimp only
    rw [hpast]
    simp [initial]
  refine ⟨hmetric, hin, le_of_eq hs, [], hs.symm, ?_, fun t ht => ?_, fun k => ?_⟩
  · unfold History.skipped new ValueMetricProducer.new
    dsimp only
    rw [hskip]
    rfl
  · cases ht
  · rw [hp]; exact List.nil_sublist _

end History

/-- Value-metric bucket tiling: for a metric with a positive bucket size that starts no earlier than its
time base and any run of calls at non-decreasing times, the closed buckets and the recorded gaps tile
the time from the start to the current bucket, which starts in the aligned bucket of its number. -/
theorem buckets_tile (metric : ValueMetric) (startTimeNs : Int) (hsize : 0 < metric.mBucketSizeNs)
    (hstart : metric.mTimeBaseNs ≤ startTimeNs) (initialCondition : ConditionState) (isActive : Bool)
    (es : List (Int × Call V)) (hrun : RunOk History.step History.Ok (.new metric startTimeNs initialCondition isActive) es) :
    let x : History V := es.foldl History.step (.new metric startTimeNs initialCondition isActive)
    (∃ tiles, Tiles startTimeNs tiles x.producer.mCurrentBucketStartTimeNs ∧
      x.skipped.map SkippedBucket.interval = (tiles.filter (·.skipped)).map Tile.interval ∧
      (∀ t ∈ tiles, t.skipped = false → ∃ k, ∃ b ∈ x.past k, b.interval = t.interval) ∧
      ∀ k, ((x.past k).map ValueBucket.interval).Sublist ((tiles.filter (!·.skipped)).map Tile.interval)) ∧
    metric.mTimeBaseNs + x.producer.mCurrentBucketNum * metric.mBucketSizeNs ≤ x.producer.mCurrentBucketStartTimeNs ∧
    x.producer.mCurrentBucketStartTimeNs < metric.mTimeBaseNs + (x.producer.mCurrentBucketNum + 1) * metric.mBucketSizeNs := by
  intro x
  have hinv : x.Inv metric startTimeNs :=
    hrun.inv (fun x e hok h => h.step e hok) (History.inv_new hsize hstart initialCondition isActive)
  obtain ⟨tiles, ht⟩ := hinv.tiled
  have hlow := hinv.inBucket.lower
  have hup := hinv.inBucket.upper
  unfold getCurrentBucketEndTimeNs at hup
  rw [hinv.metric] at hlow hup
  exact ⟨⟨tiles, ht.tile, ht.skipped, ht.kept, ht.past⟩, hlow, hup⟩

/-- A pushed metric with buckets of `sizeNs`, for the cases below. -/
def pushedMetric (sizeNs : Int) : ValueMetric :=
  { mTimeBaseNs := 0, mBucketSizeNs := sizeNs, mIsPulled := false, mMinBucketSizeNs := 0, mDimensionSoftLimit := 500,
    mDimensionHardLimit := 800, mUseAbsoluteValueOnReset := false, mAggregationType := .SUM, mUseDiff := false,
    mValueDirection := .INCREASING, mSkipZeroDiffOutput := false, mUseZeroDefaultBase := false,
    mMaxPullDelayNs := 30000000000, mSplitBucketForAppUpgrade := true, mConditionSliced := false, fieldCount := 1,
    unknownStateKey := [] }

/-- A value in the first bucket, one two buckets later, and an upgrade: a kept bucket, a gap and another
kept bucket. -/
theorem buckets_tile_gap :
    let es : List (Int × Call Int) :=
      [(10, .matchedLogEvent ⟨10, ⟨[], []⟩, true, ∅, [some 3]⟩), (130, .matchedLogEvent ⟨130, ⟨[], []⟩, true, ∅, [some 4]⟩),
        (140, .appUpgrade ⟨true, 0, []⟩)]
    let x : History Int := es.foldl History.step (.new (pushedMetric 60) 5 .kTrue true)
    ((x.past ⟨[], []⟩).map ValueBucket.interval = [(5, 60), (120, 140)] ∧
      x.skipped.map SkippedBucket.interval = [(60, 120)] ∧ x.producer.mCurrentBucketNum = 2) ∧
    0 + x.producer.mCurrentBucketNum * 60 ≤ x.producer.mCurrentBucketStartTimeNs := by
  intro es x
  refine ⟨by decide +kernel, ?_⟩
  exact (buckets_tile (pushedMetric 60) 5 (by decide) (by decide) .kTrue true es
    ⟨by decide +kernel, by decide +kernel, by decide +kernel, trivial⟩).2.1

/-- With the bucket size of an unspecified time unit, which is negative, the current bucket does not lie
in the aligned bucket of its number. -/
theorem unspecified_time_unit_out_of_bucket :
    let metric := pushedMetric (bucketSizeNs 1000 .TIME_UNIT_UNSPECIFIED)
    let es : List (Int × Call Int) := [(10, .appUpgrade ⟨true, 0, []⟩)]
    let x : History Int := es.foldl History.step (.new metric 0 .kTrue true)
    (metric.mTimeBaseNs ≤ 0 ∧ RunOk History.step History.Ok (.new metric 0 .kTrue true : History Int) es) ∧
    ¬ (metric.mTimeBaseNs + x.producer.mCurrentBucketNum * metric.mBucketSizeNs ≤ x.producer.mCurrentBucketStartTimeNs ∧
      x.producer.mCurrentBucketStartTimeNs <
        metric.mTimeBaseNs + (x.producer.mCurrentBucketNum + 1) * metric.mBucketSizeNs) := by
  refine ⟨⟨by decide, by decide +kernel, trivial⟩, ?_⟩
  decide +kernel

end ValueMetricProducer

end Statsd.Metrics
