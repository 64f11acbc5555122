/-
Late times and the current bucket of value and count metrics. Events, changes of the condition and state changes that
come before the start of the current bucket leave the buckets alone, but a forced split (an app upgrade or removal,
the end of the initialisation, a deactivation, a dump with the partial bucket) closes the bucket at its time and starts the
next one there, whatever the time is. So the buckets go forward exactly in the runs in which no split comes
before the start of the current bucket.
-/
import Statsd.Base.Intervals
import Statsd.Metrics.CountConservation
import Statsd.Metrics.ValueTiling

namespace Statsd

namespace Metrics

/-! ## Value metrics -/

namespace ValueMetricProducer

variable {V : Type}

/-- A call splits the current bucket at its time. -/
def Splits (p : ValueMetricProducer V) : Call V → Bool
  | .activeStateChanged isActive _ => p.mIsActive && !isActive
  | .appUpgrade _ => p.mSplitBucketForAppUpgrade
  | .statsdInitCompleted _ => true
  | .dumpReport include_current_partial_bucket _ _ _ => include_current_partial_bucket
  | _ => false

variable [MetricValue V]

variable {t : Int}

variable {p : ValueMetricProducer V}

omit [MetricValue V] in
theorem InBucket.before_end (h : p.InBucket) (ht : t < p.mCurrentBucketStartTimeNs) :
    t < p.getCurrentBucketEndTimeNs := ht.trans h.upper

theorem flushIfNeededLocked_before_end (ht : t < p.getCurrentBucketEndTimeNs) :
    p.flushIfNeededLocked t = p := if_pos ht

theorem SameBuckets.before_end {p q : ValueMetricProducer V} (h : SameBuckets p q) (ht : t < p.getCurrentBucketEndTimeNs) :
    t < q.getCurrentBucketEndTimeNs := by
  unfold getCurrentBucketEndTimeNs at *
  rw [h.metric, h.num]
  exact ht

/-- A split starts the next bucket at its time; before the end of the bucket it stays in its aligned bucket. -/
theorem split_before_end (ht : t < p.getCurrentBucketEndTimeNs) :
    (p.flushCurrentBucketLocked t t).mCurrentBucketStartTimeNs = t ∧
      t < (p.flushCurrentBucketLocked t t).getCurrentBucketEndTimeNs := by
  obtain ⟨_, hflush⟩ := p.flushCurrentBucketLocked_spec t t
  refine ⟨hflush.start, ?_⟩
  have hnum := hflush.num
  rw [calcBucketsForwardCount_early ht, add_zero] at hnum
  unfold getCurrentBucketEndTimeNs at *
  rw [hflush.metric, hnum]
  exact ht

theorem late_activeStateChanged (p : ValueMetricProducer V) (pull : Pull V) (hbucket : p.InBucket)
    (ht : t < p.mCurrentBucketStartTimeNs) :
    (p.mIsActive = true → SameBuckets p (p.onActiveStateChangedLocked t pull)) ∧
      (p.mIsActive = false → (p.onActiveStateChangedLocked t pull).mCurrentBucketStartTimeNs = t) := by
  have hend := hbucket.before_end ht
  unfold onActiveStateChangedLocked
  simp only [decide_eq_true ht, if_true]
  have hlate : SameBuckets p (p.invalidateCurrentBucket t .EVENT_IN_WRONG_BUCKET) := invalidateCurrentBucket_same _ _ _
  have hactive : (p.invalidateCurrentBucket t .EVENT_IN_WRONG_BUCKET).mIsActive = p.mIsActive := rfl
  generalize p.invalidateCurrentBucket t .EVENT_IN_WRONG_BUCKET = q at hlate hactive
  -- what follows the flush finds nothing over
  have hrest : ∀ r : ValueMetricProducer V, t < r.getCurrentBucketEndTimeNs →
      SameBuckets r (if r.mCondition ≠ .kTrue then r else
        { r.flushIfNeededLocked t with
          mConditionTimer := (r.flushIfNeededLocked t).mConditionTimer.onConditionChanged (r.flushIfNeededLocked t).mIsActive t }) := by
    intro r hr
    rw [flushIfNeededLocked_before_end hr]
    split
    · exact .refl r
    · exact ⟨rfl, rfl, rfl, rfl, rfl⟩
  constructor
  · intro h
    simp only [hactive, h, Bool.not_true, Bool.false_eq_true, if_false]
    exact hlate.trans (hrest q (hlate.before_end hend))
  · intro h
    simp only [hactive, h, Bool.not_false, if_true]
    unfold flushLocked
    rw [flushIfNeededLocked_before_end (hlate.before_end hend)]
    obtain ⟨hstart, hbefore⟩ := split_before_end (hlate.before_end hend)
    exact (hrest _ hbefore).start.trans hstart

theorem late_same (p : ValueMetricProducer V) {c : Call V} (hbucket : p.InBucket) (ht : t < p.mCurrentBucketStartTimeNs)
    (hc : p.Splits c = false) : SameBuckets p (p.call t c) := by
  have hend := hbucket.before_end ht
  cases c with
  | matchedLogEvent event =>
    show SameBuckets p (p.onMatchedLogEventLocked { event with elapsedTimestampNs := t })
    unfold onMatchedLogEventLocked onMatchedLogEventInternalLocked
    split
    · exact .refl p
    split
    · exact .refl p
    dsimp only
    split
    · exact .refl p
    · exact .refl p
  | conditionChanged condition pull =>
    show SameBuckets p (p.onConditionChangedLocked condition t pull)
    unfold onConditionChangedLocked
    simp only [decide_eq_true ht, if_true]
    split
    · exact ⟨rfl, rfl, rfl, rfl, rfl⟩
    · exact ⟨rfl, rfl, rfl, rfl, rfl⟩
  | activeStateChanged isActive pull =>
    show SameBuckets p (p.setActive isActive t pull)
    unfold setActive
    split
    · exact .refl p
    · rename_i hchange
      have hactive : isActive = true := by
        change (p.mIsActive && !isActive) = false at hc
        cases isActive with
        | true => rfl
        | false =>
          cases h : p.mIsActive with
          | true => simp [h] at hc
          | false => exact absurd h.symm hchange
      have hset : SameBuckets p { p with mIsActive := isActive } := ⟨rfl, rfl, rfl, rfl, rfl⟩
      exact hset.trans ((late_activeStateChanged { p with mIsActive := isActive } pull ⟨hbucket.size, hbucket.lower, hbucket.upper⟩ ht).1 hactive)
  | appUpgrade pull =>
    show SameBuckets p (p.notifyAppUpgrade t pull)
    change p.mSplitBucketForAppUpgrade = false at hc
    unfold notifyAppUpgrade
    rw [hc]
    exact .refl p
  | statsdInitCompleted pull => cases hc
  | dataPulled pull =>
    show SameBuckets p (if p.mIsPulled then p.onDataPulled pull t else p)
    split
    · rename_i hpulled
      unfold onDataPulled
      have hpull : SameBuckets p (if p.mCondition = .kTrue then
          if !pull.success then p.invalidateCurrentBucket t .PULL_FAILED
          else if t < p.getCurrentBucketEndTimeNs then p.accumulateEvents pull t t
          else p.accumulateEvents pull t (p.calcPreviousBucketEndTime t - 1)
        else p) := by
        split
        · split
          · exact invalidateCurrentBucket_same _ _ _
          · exact (p.offClock_accumulateEvents hpulled pull _ _).toSameBuckets
        · exact .refl p
      dsimp only
      rw [flushIfNeededLocked_before_end (hpull.before_end hend)]
      exact hpull
    · exact .refl p
  | stateChanged atomId primaryKey oldState newState pull =>
    show SameBuckets p (p.onStateChanged t atomId primaryKey oldState newState pull)
    unfold onStateChanged
    rw [if_pos ht]
    split
    · exact .refl p
    split
    · exact .refl p
    · exact invalidateCurrentBucket_same _ _ _
  | prepareFirstBucket pull =>
    show SameBuckets p (p.prepareFirstBucketLocked pull)
    unfold prepareFirstBucketLocked
    split
    · rename_i h
      simp only [Bool.and_eq_true] at h
      exact (p.offClock_pullAndMatchEventsLocked h.1.1.2 pull _).toSameBuckets
    · exact .refl p
  | dumpReport include_current_partial_bucket erase dumpLatency pull =>
    show SameBuckets p (p.prepareDump t include_current_partial_bucket dumpLatency pull)
    change include_current_partial_bucket = false at hc
    unfold prepareDump
    rw [hc]
    exact .refl p
  | dropData =>
    show SameBuckets p (p.flushIfNeededLocked t)
    rw [flushIfNeededLocked_before_end hend]
    exact .refl p

theorem late_back (p : ValueMetricProducer V) {c : Call V} (hbucket : p.InBucket) (ht : t < p.mCurrentBucketStartTimeNs)
    (hc : p.Splits c = true) : (p.call t c).mCurrentBucketStartTimeNs = t := by
  cases c with
  | activeStateChanged isActive pull =>
    change (p.mIsActive && !isActive) = true at hc
    obtain ⟨hactive, hoff⟩ := Bool.and_eq_true_iff.mp hc
    have hoff : isActive = false := by simpa using hoff
    show (p.setActive isActive t pull).mCurrentBucketStartTimeNs = t
    unfold setActive
    rw [if_neg (by rw [hactive, hoff]; decide)]
    exact (late_activeStateChanged { p with mIsActive := isActive } pull ⟨hbucket.size, hbucket.lower, hbucket.upper⟩ ht).2 hoff
  | appUpgrade pull =>
    show (p.notifyAppUpgrade t pull).mCurrentBucketStartTimeNs = t
    change p.mSplitBucketForAppUpgrade = true at hc
    unfold notifyAppUpgrade
    rw [hc]
    rfl
  | statsdInitCompleted pull => rfl
  | dumpReport include_current_partial_bucket erase dumpLatency pull =>
    show (p.prepareDump t include_current_partial_bucket dumpLatency pull).mCurrentBucketStartTimeNs = t
    change include_current_partial_bucket = true at hc
    unfold prepareDump
    rw [hc]
    rfl
  | matchedLogEvent event => cases hc
  | conditionChanged condition pull => cases hc
  | dataPulled pull => cases hc
  | stateChanged atomId primaryKey oldState newState pull => cases hc
  | prepareFirstBucket pull => cases hc
  | dropData => cases hc

namespace History

/-- The step moves the start of the current bucket forward, if at all, and what has been closed goes forward without
overlap. -/
structure GoesForward (x : History V) (e : Int × Call V) : Prop where
  start : x.producer.mCurrentBucketStartTimeNs ≤ (x.step e).producer.mCurrentBucketStartTimeNs
  closed : NoOverlap (fun k => ((x.step e).past k).map ValueBucket.interval) ((x.step e).skipped.map SkippedBucket.interval)

/-- A split does not come before the start of the current bucket. -/
def SplitInTime (x : History V) (e : Int × Call V) : Prop :=
  x.producer.Splits e.2 = true → x.producer.mCurrentBucketStartTimeNs ≤ e.1

/-- The invariant of a history without its time. -/
structure Tiled (metric : ValueMetric) (startTimeNs : Int) (x : History V) : Prop where
  metric : x.producer.toValueMetric = metric
  inBucket : x.producer.InBucket
  tiled : ∃ tiles, x.TiledBy startTimeNs tiles

variable {metric : ValueMetric} {startTimeNs : Int} {x : History V}

omit [MetricValue V] in
theorem Tiled.inv (h : x.Tiled metric startTimeNs) {t : Int}
    (ht : x.producer.mCurrentBucketStartTimeNs ≤ t) : Inv metric startTimeNs { x with now := t } := by
  obtain ⟨tiles, htiles⟩ := h.tiled
  exact ⟨h.metric, h.inBucket, ht, tiles, ⟨htiles.tile, htiles.skipped, htiles.kept, htiles.past⟩⟩

omit [MetricValue V] in
theorem Tiled.at (t : Int) (h : x.Tiled metric startTimeNs) :
    Tiled metric startTimeNs { x with now := t } := by
  obtain ⟨tiles, htiles⟩ := h.tiled
  exact ⟨h.metric, h.inBucket, tiles, ⟨htiles.tile, htiles.skipped, htiles.kept, htiles.past⟩⟩

omit [MetricValue V] in
theorem Inv.tiles (h : x.Inv metric startTimeNs) : x.Tiled metric startTimeNs :=
  ⟨h.metric, h.inBucket, h.tiled⟩

theorem Advances.start_le {t : Int} {p q : ValueMetricProducer V} (h : Advances t p q) (hbucket : p.InBucket)
    (ht : p.mCurrentBucketStartTimeNs ≤ t) :
    p.mCurrentBucketStartTimeNs ≤ q.mCurrentBucketStartTimeNs ∧ q.mCurrentBucketStartTimeNs ≤ t ∧ q.InBucket := by
  have hflush : ∀ {p q : ValueMetricProducer V} {next : Int} {skipped : Bool}, p.InBucket → p.NextStart t next →
      FlushSpec p q (p.closesAt t next) next (p.mCurrentBucketNum + p.calcBucketsForwardCount t) skipped →
      p.mCurrentBucketStartTimeNs ≤ q.mCurrentBucketStartTimeNs ∧ q.mCurrentBucketStartTimeNs ≤ t ∧ q.InBucket := by
    intro p q next skipped hbucket hnext hspec
    have hin := hspec.inBucket hbucket hnext
    unfold NextStart at hnext
    rw [hspec.start]
    exact ⟨hnext.2.2.1.trans hnext.2.2.2, hnext.2.1, hin⟩
  induction h with
  | @same p q h =>
    refine ⟨le_of_eq h.start.symm, h.start.trans_le ht, ?_, ?_, ?_⟩
    · rw [h.metric]
      exact hbucket.size
    · rw [h.metric, h.start, h.num]
      exact hbucket.lower
    · unfold getCurrentBucketEndTimeNs
      rw [h.metric, h.start, h.num]
      exact hbucket.upper
  | flush p =>
    unfold flushIfNeededLocked
    split
    · exact ⟨le_refl _, ht, hbucket⟩
    · rename_i he
      obtain ⟨_, hspec⟩ := p.flushCurrentBucketLocked_spec t _
      exact hflush hbucket (nextStart_flush hbucket he) hspec
  | split p =>
    obtain ⟨_, hspec⟩ := p.flushCurrentBucketLocked_spec t t
    exact hflush hbucket (nextStart_split hbucket ht) hspec
  | trans _ _ ih1 ih2 =>
    obtain ⟨h1, ht1, hbucket1⟩ := ih1 hbucket ht
    obtain ⟨h2, ht2, hbucket2⟩ := ih2 hbucket1 ht1
    exact ⟨h1.trans h2, ht2, hbucket2⟩

theorem step_start (x : History V) (e : Int × Call V) :
    (x.step e).producer.mCurrentBucketStartTimeNs = (x.producer.call e.1 e.2).mCurrentBucketStartTimeNs := by
  unfold step
  dsimp only
  split
  · rfl
  · rfl

omit [MetricValue V] in
theorem Tiled.same (h : x.Tiled metric startTimeNs)
    {p : ValueMetricProducer V} (hsame : SameBuckets x.producer p) (t : Int) : Tiled metric startTimeNs { x with producer := p, now := t } := by
  have hinv := h.inv (le_refl x.producer.mCurrentBucketStartTimeNs)
  refine Tiled.at t (hinv.congr (y := { x with producer := p, now := x.producer.mCurrentBucketStartTimeNs }) hsame.metric hsame.start hsame.num
    (funext fun k => ?_) ?_ (le_refl _)).tiles
  · show x.erasedPast k ++ UMap.getD p.mPastBuckets k [] = _
    rw [hsame.past]
    rfl
  · show x.erasedSkipped ++ p.mSkippedBuckets = _
    rw [hsame.skipped]
    rfl

omit [MetricValue V] in
theorem Tiled.erase (h : x.Tiled metric startTimeNs) :
    x.erase.Tiled metric startTimeNs :=
  (h.inv (le_refl x.producer.mCurrentBucketStartTimeNs)).erase.tiles.at x.now

theorem Tiled.step (h : x.Tiled metric startTimeNs) (e : Int × Call V)
    (he : x.SplitInTime e) : (x.step e).Tiled metric startTimeNs ∧
      x.producer.mCurrentBucketStartTimeNs ≤ (x.step e).producer.mCurrentBucketStartTimeNs := by
  rw [step_start]
  by_cases hlate : e.1 < x.producer.mCurrentBucketStartTimeNs
  · have hsplits : x.producer.Splits e.2 = false := by
      by_contra hsplits
      exact absurd (he (by simpa using hsplits)) (not_le.mpr hlate)
    have hsame := late_same x.producer h.inBucket hlate hsplits
    have hcall := h.same hsame e.1
    refine ⟨?_, le_of_eq hsame.start.symm⟩
    unfold History.step
    dsimp only
    split
    · exact hcall.erase
    · exact hcall
  · have hinv := h.inv (not_lt.mp hlate)
    exact ⟨(Inv.step (x := { x with now := e.1 }) e (le_refl e.1) hinv).tiles,
      (Advances.start_le (x.producer.advances_call e.1 e.2) h.inBucket (not_lt.mp hlate)).1⟩

theorem Tiled.late (h : x.Tiled metric startTimeNs) {e : Int × Call V}
    (he : ¬ x.SplitInTime e) : ¬ x.GoesForward e := by
  unfold SplitInTime at he
  push Not at he
  intro hforward
  have hstart := hforward.start
  rw [step_start, late_back x.producer h.inBucket he.2 he.1] at hstart
  omega

end History

end ValueMetricProducer

/-! ## Count metrics -/

def CountBucket.interval (b : CountBucket) : TimeInterval := (b.mBucketStartNs, b.mBucketEndNs)

namespace CountMetricProducer

/-- The current bucket starts inside the aligned bucket of its number, and the closed ones, of which the keys have
theirs, go forward up to it. -/
structure Closings (p : CountMetricProducer) (erased : MetricDimensionKey → List CountBucket) : Prop where
  size : 0 < p.mBucketSizeNs
  inCell : Grid.InCell p.mTimeBaseNs p.mBucketSizeNs p.mCurrentBucketNum p.mCurrentBucketStartTimeNs
  closed : ∃ closed, ClosedInOrder closed p.mCurrentBucketStartTimeNs ∧
    ∀ k, ((erased k ++ UMap.getD p.mPastBuckets k []).map CountBucket.interval).Sublist closed

section

variable {p : CountMetricProducer} {erased : MetricDimensionKey → List CountBucket} {t : Int}

theorem Closings.congr (h : Closings p erased) {q : CountMetricProducer} (hm : q.toCountMetric = p.toCountMetric)
    (hnum : q.mCurrentBucketNum = p.mCurrentBucketNum) (hstart : q.mCurrentBucketStartTimeNs = p.mCurrentBucketStartTimeNs)
    (hpast : q.mPastBuckets = p.mPastBuckets) : Closings q erased := by
  refine ⟨?_, ?_, ?_⟩
  · rw [hm]
    exact h.size
  · rw [hm, hnum, hstart]
    exact h.inCell
  · rw [hstart, hpast]
    exact h.closed

theorem Closings.erase (h : Closings p erased) :
    Closings { p with mPastBuckets := ∅ } (fun k => erased k ++ UMap.getD p.mPastBuckets k []) := by
  refine ⟨h.size, h.inCell, ?_⟩
  obtain ⟨closed, hclosed, hkeys⟩ := h.closed
  exact ⟨closed, hclosed, fun k => by simpa using hkeys k⟩

theorem Closings.flush (h : Closings p erased) {next num : Int} (hstart : p.mCurrentBucketStartTimeNs ≤ p.closesAt t)
    (hnext : p.closesAt t ≤ next) (hcell : Grid.InCell p.mTimeBaseNs p.mBucketSizeNs num next) :
    Closings { p.flushCurrentBucketLocked t next with mCurrentBucketNum := num } erased := by
  have hmetric := p.flushCurrentBucketLocked_metric t next
  obtain ⟨closed, hclosed, hkeys⟩ := h.closed
  refine ⟨?_, ?_, closed ++ [(p.mCurrentBucketStartTimeNs, p.closesAt t)], hclosed.snoc (le_refl _) hstart hnext, fun k => ?_⟩
  · rw [hmetric]
    exact h.size
  · rw [hmetric]
    exact hcell
  · show ((erased k ++ UMap.getD (p.flushCurrentBucketLocked t next).mPastBuckets k []).map CountBucket.interval).Sublist _
    rw [flushCurrentBucketLocked_past, ← List.append_assoc, List.map_append]
    refine (hkeys k).append ?_
    cases p.mCurrentSlicedCounter.lookup k with
    | none => exact List.nil_sublist _
    | some n => exact .refl _

theorem Closings.flushIfNeeded (h : Closings p erased) (t : Int) :
    Closings (p.flushIfNeededLocked t) erased ∧ t < (p.flushIfNeededLocked t).getCurrentBucketEndTimeNs ∧
      p.mCurrentBucketStartTimeNs ≤ (p.flushIfNeededLocked t).mCurrentBucketStartTimeNs ∧
      (p.mCurrentBucketStartTimeNs ≤ t → (p.flushIfNeededLocked t).mCurrentBucketStartTimeNs ≤ t) := by
  have hspec := flushIfNeededLocked_spec h.size t
  refine and_left_comm.1 ⟨hspec.lt_end, ?_⟩
  generalize p.flushIfNeededLocked t = q at hspec
  cases hspec with
  | early _ => exact ⟨h, le_refl _, id⟩
  | overdue hend hnext _ _ hcell =>
    have hcloses : p.closesAt t = p.getCurrentBucketEndTimeNs := if_neg (not_lt.2 (hend.trans hnext))
    have hupper : p.mCurrentBucketStartTimeNs < p.getCurrentBucketEndTimeNs := h.inCell.upper
    exact ⟨h.flush (hcloses ▸ hupper.le) (hcloses ▸ hend) hcell, hupper.le.trans hend, fun _ => hnext⟩

theorem Closings.flushLocked (h : Closings p erased) (ht : p.mCurrentBucketStartTimeNs ≤ t) :
    Closings (p.flushLocked t) erased ∧ p.mCurrentBucketStartTimeNs ≤ (p.flushLocked t).mCurrentBucketStartTimeNs := by
  obtain ⟨hflush, hlt, hle, hbefore⟩ := h.flushIfNeeded t
  refine ⟨?_, ht⟩
  unfold CountMetricProducer.flushLocked
  generalize p.flushIfNeededLocked t = q at *
  have hcloses : q.closesAt t = t := if_pos hlt
  have hnum := q.flushCurrentBucketLocked_num t t
  have hsplit := hflush.flush (t := t) (by rw [hcloses]; exact hbefore ht) (le_of_eq hcloses)
    ⟨hflush.inCell.lower.trans (hbefore ht), hlt⟩
  rw [← hnum] at hsplit
  exact hsplit

theorem Closings.call (h : Closings p erased) {c : Call} (he : p.Splits t c = true → p.mCurrentBucketStartTimeNs ≤ t) :
    Closings (p.call t c) (fun k => erased k ++ UMap.getD (p.erasedBy t c) k []) ∧
      p.mCurrentBucketStartTimeNs ≤ (p.call t c).mCurrentBucketStartTimeNs := by
  obtain ⟨l, hdoes, -⟩ := p.call_does t c
  generalize p.flushes t c = flushes, p.Splits t c = splits, p.erasedBy t c = gone, p.call t c = q at hdoes he ⊢
  obtain ⟨hflush, -, hle, -⟩ := h.flushIfNeeded t
  have hset : ∀ activation mCondition, Closings { p with activation := activation, mCondition := mCondition } erased :=
    fun _ _ => h.congr rfl rfl rfl rfl
  cases hdoes with
  | nothing activation mCondition => exact ⟨by simpa using hset activation mCondition, le_refl _⟩
  | flushes => exact ⟨by simpa using hflush, hle⟩
  | counts k =>
    have hcount : ∀ value, Closings ((p.flushIfNeededLocked t).count t k value) erased := fun _ => hflush.congr rfl rfl rfl rfl
    exact ⟨by simpa using hcount _, hle⟩
  | splits activation => simpa using (hset activation p.mCondition).flushLocked (he rfl)
  | erases _ q hq =>
    have hq' : Closings q erased ∧ p.mCurrentBucketStartTimeNs ≤ q.mCurrentBucketStartTimeNs := by
      rw [hq]
      cases splits with
      | true => exact h.flushLocked (he rfl)
      | false => exact ⟨hflush, hle⟩
    exact ⟨hq'.1.erase, hq'.2⟩

end

namespace History

/-- The step moves the start of the current bucket forward, if at all, and what has been closed goes forward without
overlap. -/
structure GoesForward (x : History) (e : Int × Call) : Prop where
  start : x.producer.mCurrentBucketStartTimeNs ≤ (x.step e).producer.mCurrentBucketStartTimeNs
  closed : NoOverlap (fun k => ((x.step e).past k).map CountBucket.interval) []

/-- A split does not come before the start of the current bucket. -/
def SplitInTime (x : History) (e : Int × Call) : Prop :=
  x.producer.Splits e.1 e.2 = true → x.producer.mCurrentBucketStartTimeNs ≤ e.1

end History

end CountMetricProducer

end Metrics

end Statsd
