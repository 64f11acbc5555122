/-
The condition-true time of the buckets of a value metric. The stopwatch runs while the metric is active and its
condition true; a flush reads it at the end of the bucket and starts it anew with the next one. Calls either leave the stopwatch
to the flushes they make, or change the condition or the activity after the last flush, so that the change is
measured in the bucket it falls in.
-/
import Statsd.Base.OnTime
import Statsd.Metrics.ValueClosing

namespace Statsd.Metrics

open SignalLog

namespace ValueMetricProducer

variable {V : Type}

variable [MetricValue V]

/-! ## What a flush does to the stopwatch -/

theorem flushCurrentBucketLocked_time (p : ValueMetricProducer V) (e next : Int) :
    (p.flushCurrentBucketLocked e next).mConditionTimer =
        ((p.mConditionTimer.newBucketStart (p.closesAt e next)).1.newBucketStart next).1 ∧
      ∀ k, ∀ b ∈ UMap.getD (p.flushCurrentBucketLocked e next).mPastBuckets k [], b ∈ UMap.getD p.mPastBuckets k [] ∨
        (b.interval = (p.mCurrentBucketStartTimeNs, p.closesAt e next) ∧
          b.mConditionTrueNs = (p.mConditionTimer.newBucketStart (p.closesAt e next)).2) := by
  obtain ⟨skipped, _, h⟩ := p.flushCurrentBucketLocked_flush e next
  refine ⟨h.timer, fun k b hb => ?_⟩
  rw [h.past k] at hb
  rcases List.mem_append.1 hb with hb | hb
  · exact .inl hb
  · cases skipped with
    | true => cases hb
    | false =>
      rcases p.keptOf_cases (p.closesAt e next) (p.mConditionTimer.newBucketStart (p.closesAt e next)).2 k with
        hnil | ⟨b', hb', hstart, hstop, htime⟩
      · rw [if_neg Bool.false_ne_true, hnil] at hb
        cases hb
      · rw [if_neg Bool.false_ne_true, hb', List.mem_singleton] at hb
        rw [hb]
        exact .inr ⟨Prod.ext hstart hstop, htime⟩

/-! ## The invariant -/

/-- The stopwatch runs when the signal of the log is on, and shows its time in the current bucket up to its last change;
each closed bucket has its time in the bucket. -/
structure Clock (p : ValueMetricProducer V) (erased : MetricDimensionKey → List (ValueBucket V)) (log : SignalLog) (on : Bool) (now : Int) :
    Prop where
  inBucket : p.InBucket
  started : p.mCurrentBucketStartTimeNs ≤ now
  running : p.mConditionTimer.mCondition = on
  since : ∃ time, p.mCurrentBucketStartTimeNs ≤ time ∧ time ≤ now ∧ time < p.getCurrentBucketEndTimeNs ∧
    (∀ later, time ≤ later → log.isOn later = on) ∧
    p.mConditionTimer.mTimerNs + (if on then time - p.mConditionTimer.mLastConditionTrueTimestampNs else 0) =
      log.onTime p.mCurrentBucketStartTimeNs time
  past : ∀ k, ∀ b ∈ erased k ++ UMap.getD p.mPastBuckets k [],
    b.mConditionTrueNs = log.onTime b.mBucketStartNs b.mBucketEndNs ∧ b.mBucketStartNs ≤ b.mBucketEndNs ∧
      b.mBucketEndNs ≤ p.mCurrentBucketStartTimeNs

section

variable {p q : ValueMetricProducer V} {erased : MetricDimensionKey → List (ValueBucket V)} {log : SignalLog} {on : Bool} {now : Int}

omit [MetricValue V] in
theorem Clock.tick (h : Clock p erased log on now) {later : Int} (hle : now ≤ later) : Clock p erased log on later := by
  obtain ⟨time, h1, h2, h3⟩ := h.since
  exact { h with started := h.started.trans hle, since := ⟨time, h1, h2.trans hle, h3⟩ }

omit [MetricValue V] in
theorem Clock.congr (h : Clock p erased log on now) (hsame : SameBuckets p q) (htimer : q.mConditionTimer = p.mConditionTimer) :
    Clock q erased log on now := by
  have hend : q.getCurrentBucketEndTimeNs = p.getCurrentBucketEndTimeNs := by
    unfold getCurrentBucketEndTimeNs
    rw [hsame.metric, hsame.num]
  refine ⟨⟨?_, ?_, ?_⟩, ?_, ?_, ?_, ?_⟩
  · rw [hsame.metric]
    exact h.inBucket.size
  · rw [hsame.metric, hsame.start, hsame.num]
    exact h.inBucket.lower
  · rw [hsame.start, hend]
    exact h.inBucket.upper
  · rw [hsame.start]
    exact h.started
  · rw [htimer]
    exact h.running
  · rw [hsame.start, hend, htimer]
    exact h.since
  · rw [hsame.past, hsame.start]
    exact h.past

omit [MetricValue V] in
theorem Clock.reading (h : Clock p erased log on now) {stop : Int} (hstop : ∀ time, time ≤ now → time < p.getCurrentBucketEndTimeNs → time ≤ stop) :
    (p.mConditionTimer.newBucketStart stop).2 = log.onTime p.mCurrentBucketStartTimeNs stop := by
  obtain ⟨time, h1, h2, h3, hconst, hshown⟩ := h.since
  have hle := hstop time h2 h3
  rw [onTime_add log h1 hle, onTime_const (fun later hlater => hconst later hlater) hle, ← hshown]
  unfold ConditionTimer.newBucketStart
  rw [h.running]
  cases on with
  | true =>
    simp only [if_true]
    omega
  | false => simp

theorem Clock.flush (h : Clock p erased log on now) {next : Int} (hnext : p.NextStart now next) :
    Clock (p.flushCurrentBucketLocked now next) erased log on now := by
  obtain ⟨skipped, hspec⟩ := p.flushCurrentBucketLocked_spec now next
  obtain ⟨htimer, hpast⟩ := p.flushCurrentBucketLocked_time now next
  have hin := hspec.inBucket h.inBucket hnext
  obtain ⟨haligned, hnow, hforward, hclosed⟩ := hnext
  -- the last change is not after the end of the bucket
  have hstop : ∀ time, time ≤ now → time < p.getCurrentBucketEndTimeNs → time ≤ p.closesAt now next := by
    intro time h1 h2
    unfold closesAt at hclosed ⊢
    split_ifs at hclosed ⊢ with hskip hearly
    · have hcount : 1 < p.calcBucketsForwardCount now := by
        unfold multipleBucketsSkipped at hskip
        exact of_decide_eq_true (Bool.and_eq_true_iff.1 hskip).1
      have hover := mul_le_mul_of_nonneg_right (show p.mCurrentBucketNum + 1 ≤ p.mCurrentBucketNum + p.calcBucketsForwardCount now by omega)
        (le_of_lt h.inBucket.size)
      unfold getCurrentBucketEndTimeNs at h2
      omega
    · exact h1
    · exact le_of_lt h2
  have hreading := h.reading hstop
  have hrunning : (p.flushCurrentBucketLocked now next).mConditionTimer =
      ⟨0, if on then next else p.mConditionTimer.mLastConditionTrueTimestampNs, on⟩ := by
    rw [htimer]
    unfold ConditionTimer.newBucketStart
    rw [h.running]
    cases on with
    | true => rfl
    | false =>
      simp only [Bool.false_eq_true, if_false, h.running]
  refine ⟨hin, hspec.start.trans_le hnow, by rw [hrunning], ⟨next, ?_⟩, fun k b hb => ?_⟩
  · obtain ⟨time, h1, h2, h3, hconst, -⟩ := h.since
    rw [hspec.start, hrunning, onTime_self]
    refine ⟨le_refl _, hnow, hspec.start ▸ hin.upper, fun later hlater => ?_, ?_⟩
    · exact hconst later (((hstop time h2 h3).trans hclosed).trans hlater)
    · cases on <;> simp
  · rw [hspec.start]
    rcases List.mem_append.1 hb with hb | hb
    · obtain ⟨h1, h2, h3⟩ := h.past k b (List.mem_append_left _ hb)
      exact ⟨h1, h2, h3.trans (hforward.trans hclosed)⟩
    · rcases hpast k b hb with hb | ⟨hinterval, htime⟩
      · obtain ⟨h1, h2, h3⟩ := h.past k b (List.mem_append_right _ hb)
        exact ⟨h1, h2, h3.trans (hforward.trans hclosed)⟩
      · obtain ⟨hstart, hend⟩ := Prod.mk.inj hinterval
        rw [htime, hstart, hend]
        exact ⟨hreading, hforward, hclosed⟩

theorem Clock.flushIfNeeded (h : Clock p erased log on now) :
    Clock (p.flushIfNeededLocked now) erased log on now ∧ now < (p.flushIfNeededLocked now).getCurrentBucketEndTimeNs := by
  unfold flushIfNeededLocked
  split
  · rename_i hlt
    exact ⟨h, hlt⟩
  · rename_i hlt
    have hnext := nextStart_flush h.inBucket hlt
    refine ⟨h.flush hnext, ?_⟩
    obtain ⟨skipped, hspec⟩ := p.flushCurrentBucketLocked_spec now
      (p.getCurrentBucketEndTimeNs + (p.calcBucketsForwardCount now - 1) * p.mBucketSizeNs)
    have hend := lt_end_after h.inBucket.size now
    unfold getCurrentBucketEndTimeNs at hspec ⊢
    rw [hspec.metric, hspec.num]
    exact hend

theorem Clock.quiet (hq : KeepsState now p q) (h : Clock p erased log on now) : Clock q erased log on now := by
  induction hq with
  | off hoff => exact h.congr hoff.toSameBuckets hoff.timer
  | flush p => exact h.flushIfNeeded.1
  | split p => exact h.flush (nextStart_split h.inBucket h.started)
  | trans _ _ ih1 ih2 => exact ih2 (ih1 h)

omit [MetricValue V] in
theorem Clock.logged (h : Clock p erased log on now) : Clock p erased (log ++ [(now, on)]) on now := by
  obtain ⟨time, h1, h2, h3, hconst, hshown⟩ := h.since
  refine { h with since := ⟨time, h1, h2, h3, fun later hlater => ?_, ?_⟩, past := fun k b hb => ?_ }
  · rw [isOn_append]
    split
    · rfl
    · exact hconst later hlater
  · rw [onTime_append log h2]
    exact hshown
  · obtain ⟨htime, hforward, hclosed⟩ := h.past k b hb
    rw [onTime_append log (hclosed.trans h.started)]
    exact ⟨htime, hforward, hclosed⟩

omit [MetricValue V] in
theorem Clock.changed (h : Clock p erased log on now) (hend : now < p.getCurrentBucketEndTimeNs) (newOn : Bool) :
    Clock { p with mConditionTimer := p.mConditionTimer.onConditionChanged newOn now } erased (log ++ [(now, newOn)]) newOn now := by
  by_cases hsame : newOn = on
  · subst hsame
    refine h.logged.congr ⟨rfl, rfl, rfl, rfl, rfl⟩ ?_
    show p.mConditionTimer.onConditionChanged newOn now = p.mConditionTimer
    unfold ConditionTimer.onConditionChanged
    rw [if_pos h.running.symm]
  · have hnow : ∀ time, time ≤ now → time < p.getCurrentBucketEndTimeNs → time ≤ now := fun _ hle _ => hle
    have hreading := h.reading hnow
    have hnew : p.mConditionTimer.onConditionChanged newOn now =
        ⟨(p.mConditionTimer.newBucketStart now).2, if newOn then now else p.mConditionTimer.mLastConditionTrueTimestampNs, newOn⟩ := by
      unfold ConditionTimer.onConditionChanged ConditionTimer.newBucketStart
      rw [h.running, if_neg hsame]
      cases newOn with
      | true =>
        cases on with
        | true => exact absurd rfl hsame
        | false => rfl
      | false =>
        cases on with
        | true => rfl
        | false => exact absurd rfl hsame
    refine ⟨⟨h.inBucket.size, h.inBucket.lower, h.inBucket.upper⟩, h.started, by rw [hnew], ⟨now, h.started, le_refl _, hend, fun later hlater => ?_, ?_⟩, fun k b hb => ?_⟩
    · rw [isOn_append, if_pos hlater]
    · rw [onTime_append log (le_refl now), ← hreading, hnew]
      cases newOn <;> simp
    · obtain ⟨htime, hforward, hclosed⟩ := h.past k b hb
      rw [onTime_append log (hclosed.trans h.started)]
      exact ⟨htime, hforward, hclosed⟩

omit [MetricValue V] in
theorem Clock.erase (h : Clock p erased log on now) :
    Clock p.clearPastBucketsLocked (fun k => erased k ++ UMap.getD p.mPastBuckets k []) log on now := by
  refine ⟨⟨h.inBucket.size, h.inBucket.lower, h.inBucket.upper⟩, h.started, h.running, h.since, fun k b hb => ?_⟩
  have hnone : UMap.getD p.clearPastBucketsLocked.mPastBuckets k [] = [] := UMap.getD_empty _ _
  rw [hnone, List.append_nil] at hb
  exact h.past k b hb

end

/-! ## Calls -/

/-- What the calls have told of the metric: whether it is active, and its condition. -/
structure Situation where
  active : Bool
  condition : ConditionState

namespace Situation

def on (s : Situation) : Bool := s.active && decide (s.condition = .kTrue)

def after (s : Situation) : Call V → Situation
  | .conditionChanged condition _ => { s with condition := .ofBool condition }
  | .activeStateChanged isActive _ => { s with active := isActive }
  | _ => s

/-- The signal after each call of a run. -/
def signal : Situation → List (Int × Call V) → SignalLog
  | _, [] => []
  | s, e :: es => (e.1, (s.after e.2).on) :: signal (s.after e.2) es

omit [MetricValue V] in
theorem after_unchanged (s : Situation) {c : Call V} (hc : c.switches = false) : s.after c = s := by
  cases c with
  | conditionChanged condition pull => cases hc
  | activeStateChanged isActive pull => cases hc
  | _ => rfl

end Situation

/-- The producer has heard of the situation, and its stopwatch shows the signal of the log. -/
structure Timed (p : ValueMetricProducer V) (erased : MetricDimensionKey → List (ValueBucket V)) (log : SignalLog) (s : Situation) (now : Int) :
    Prop where
  clock : Clock p erased log s.on now
  active : p.mIsActive = s.active
  condition : p.mCondition = s.condition

section

variable {p : ValueMetricProducer V} {erased : MetricDimensionKey → List (ValueBucket V)} {log : SignalLog} {s : Situation} {t : Int}

theorem Timed.conditionChanged (h : Timed p erased log s t) (condition : Bool) (pull : Pull V) :
    Timed (p.onConditionChangedLocked condition t pull) erased
      (log ++ [(t, ({ s with condition := .ofBool condition } : Situation).on)]) { s with condition := .ofBool condition } t := by
  unfold onConditionChangedLocked
  simp only [decide_eq_false (not_lt.2 h.clock.started), Bool.false_eq_true, if_false]
  have hcondition : decide (ConditionState.ofBool condition = .kTrue) = condition := by cases condition <;> rfl
  cases hactive : p.mIsActive with
  | false =>
    have hoff : s.active = false := h.active.symm.trans hactive
    have hon : ({ s with condition := .ofBool condition } : Situation).on = s.on := by
      unfold Situation.on
      rw [hoff]
      rfl
    simp only [Bool.not_false, if_true]
    refine ⟨?_, hoff.symm, rfl⟩
    rw [hon]
    exact h.clock.logged.congr ⟨rfl, rfl, rfl, rfl, rfl⟩ rfl
  | true =>
    have hon : ({ s with condition := .ofBool condition } : Situation).on = condition := by
      unfold Situation.on
      dsimp only
      rw [← h.active, hactive, hcondition]
      rfl
    simp only [Bool.not_true, Bool.false_eq_true, if_false]
    have hprepared : ∀ q, (if p.mCondition = .kUnknown then p.invalidateCurrentBucket t .CONDITION_UNKNOWN else p) = q → OffClock p q := by
      rintro q rfl
      split
      · exact offClock_invalidate _ _ _
      · exact .refl p
    generalize hq : (if p.mCondition = .kUnknown then p.invalidateCurrentBucket t .CONDITION_UNKNOWN else p) = q
    have hpull := (hprepared q hq).trans
      (q.offClock_pull (decide (ConditionState.ofBool condition = .kTrue) || decide (q.mCondition = .kTrue)) pull t)
    generalize (if q.mIsPulled && (decide (ConditionState.ofBool condition = .kTrue) || decide (q.mCondition = .kTrue)) then
      q.pullAndMatchEventsLocked pull t else q) = r at hpull
    have hreset : ∀ r', (if r.mUseDiff && (decide (r.mCondition = .kTrue) && decide (ConditionState.ofBool condition = .kFalse)) then
        r.resetBase else r) = r' → OffClock p r' := by
      rintro r' rfl
      split
      · exact hpull.trans (offClock_resetBase r)
      · exact hpull
    generalize hr' : (if r.mUseDiff && (decide (r.mCondition = .kTrue) && decide (ConditionState.ofBool condition = .kFalse)) then
      r.resetBase else r) = r'
    have hoff := hreset r' hr'
    have hclock : Clock { r' with mCondition := .ofBool condition } erased log s.on t :=
      (h.clock.congr hoff.toSameBuckets hoff.timer).congr ⟨rfl, rfl, rfl, rfl, rfl⟩ rfl
    obtain ⟨hflushed, hend⟩ := hclock.flushIfNeeded
    have hstate := (KeepsState.flush { r' with mCondition := .ofBool condition } (t := t)).state
    refine ⟨?_, ?_, ?_⟩
    · rw [hon]
      exact hflushed.changed hend condition
    · exact hstate.2.trans (hoff.active.trans h.active)
    · exact hstate.1

/-- An activation or deactivation flushes first, and then reaches the stopwatch when the condition is true. -/
theorem Timed.setActive (h : Timed p erased log s t) (isActive : Bool) (pull : Pull V) :
    Timed (p.setActive isActive t pull) erased (log ++ [(t, ({ s with active := isActive } : Situation).on)]) { s with active := isActive } t := by
  unfold ValueMetricProducer.setActive
  by_cases hsame : isActive = p.mIsActive
  · have hs : ({ s with active := isActive } : Situation) = s := by rw [hsame, h.active]
    rw [if_pos hsame, hs]
    exact ⟨h.clock.logged, h.active, h.condition⟩
  rw [if_neg hsame]
  have hset : Clock { p with mIsActive := isActive } erased log s.on t := h.clock.congr ⟨rfl, rfl, rfl, rfl, rfl⟩ rfl
  have hstarted := hset.started
  have hactive : ({ p with mIsActive := isActive } : ValueMetricProducer V).mIsActive = isActive := rfl
  have hcondition : ({ p with mIsActive := isActive } : ValueMetricProducer V).mCondition = s.condition := h.condition
  generalize ({ p with mIsActive := isActive } : ValueMetricProducer V) = p1 at hset hstarted hactive hcondition
  unfold onActiveStateChangedLocked
  simp only [decide_eq_false (not_lt.2 hstarted), Bool.false_eq_true, if_false]
  have hflush : ∀ q, (if !p1.mIsActive then p1.flushLocked t else p1) = q → KeepsState t p1 q := by
    rintro q rfl
    split
    · exact .flushLocked p1 t
    · exact .refl t p1
  generalize hq : (if !p1.mIsActive then p1.flushLocked t else p1) = q
  have hquiet := hflush q hq
  by_cases htrue : q.mCondition = .kTrue
  · rw [if_neg (not_not.2 htrue)]
    have hpull := q.offClock_pull true pull t
    rw [Bool.and_true] at hpull
    generalize (if q.mIsPulled = true then q.pullAndMatchEventsLocked pull t else q) = r at hpull
    have hreset : ∀ r', (if r.mUseDiff && !r.mIsActive then r.resetBase else r) = r' → OffClock q r' := by
      rintro r' rfl
      split
      · exact hpull.trans (offClock_resetBase r)
      · exact hpull
    generalize hr' : (if r.mUseDiff && !r.mIsActive then r.resetBase else r) = r'
    have hall : KeepsState t p1 r' := hquiet.trans (.off (hreset r' hr'))
    obtain ⟨hflushed, hend⟩ := (hset.quiet hall).flushIfNeeded
    have hstate := (hall.trans (.flush r')).state
    have hon : ({ s with active := isActive } : Situation).on = (r'.flushIfNeededLocked t).mIsActive := by
      unfold Situation.on
      dsimp only
      rw [hstate.2, hactive, ← hcondition, ← hquiet.state.1, htrue]
      simp
    refine ⟨?_, hstate.2.trans hactive, hstate.1.trans hcondition⟩
    rw [hon]
    exact hflushed.changed hend _
  · rw [if_pos htrue]
    have hon : ({ s with active := isActive } : Situation).on = s.on := by
      have hno : decide (s.condition = .kTrue) = false := by
        rw [← hcondition, ← hquiet.state.1]
        exact decide_eq_false htrue
      unfold Situation.on
      dsimp only
      rw [hno, Bool.and_false, Bool.and_false]
    refine ⟨?_, hquiet.state.2.trans hactive, hquiet.state.1.trans hcondition⟩
    rw [hon]
    exact (hset.quiet hquiet).logged

theorem Timed.call (h : Timed p erased log s t) (c : Call V) :
    Timed (p.call t c) erased (log ++ [(t, (s.after c).on)]) (s.after c) t := by
  cases hc : c.switches with
  | false =>
    rw [s.after_unchanged hc]
    have hquiet := p.keepsState_call t hc
    exact ⟨(h.clock.quiet hquiet).logged, hquiet.state.2.trans h.active, hquiet.state.1.trans h.condition⟩
  | true =>
    cases c with
    | conditionChanged condition pull => exact h.conditionChanged condition pull
    | activeStateChanged isActive pull => exact h.setActive isActive pull
    | _ => cases hc

end

/-! ## Runs -/

namespace History

theorem timed_new {metric : ValueMetric} {startTimeNs : Int} (hsize : 0 < metric.mBucketSizeNs) (hstart : metric.mTimeBaseNs ≤ startTimeNs)
    (initialCondition : ConditionState) (isActive : Bool) :
    let x : History V := .new metric startTimeNs initialCondition isActive
    Timed x.producer x.erasedPast [(startTimeNs, (⟨isActive, initialCondition⟩ : Situation).on)] ⟨isActive, initialCondition⟩ x.now := by
  intro x
  have hinv : x.Inv metric startTimeNs := inv_new hsize hstart initialCondition isActive
  have heq : x.producer = { (initial metric initialCondition isActive : ValueMetricProducer V) with
      mCurrentBucketNum := (initial metric initialCondition isActive : ValueMetricProducer V).mCurrentBucketNum +
        (initial metric initialCondition isActive : ValueMetricProducer V).calcBucketsForwardCount startTimeNs
      mCurrentBucketStartTimeNs := startTimeNs
      mConditionTimer := (ConditionTimer.new false metric.mTimeBaseNs |>.newBucketStart startTimeNs).1.onConditionChanged
        (isActive && decide (initialCondition = .kTrue)) startTimeNs } := startAt_eq hsize startTimeNs
  have hstarted : x.producer.mCurrentBucketStartTimeNs = startTimeNs := by rw [heq]
  have htimer : x.producer.mConditionTimer = ⟨0, if isActive && decide (initialCondition = .kTrue) then startTimeNs else 0,
      isActive && decide (initialCondition = .kTrue)⟩ := by
    rw [heq]
    dsimp only
    cases isActive && decide (initialCondition = .kTrue) <;> rfl
  refine ⟨⟨hinv.inBucket, le_of_eq hstarted, by rw [htimer]; rfl, ⟨startTimeNs, le_of_eq hstarted, le_refl _, ?_, fun later hlater => ?_, ?_⟩,
    fun k b hb => ?_⟩, by rw [heq]; rfl, by rw [heq]; rfl⟩
  · exact hstarted ▸ hinv.inBucket.upper
  · exact (isOn_append [] _ later).trans (if_pos hlater)
  · rw [hstarted, htimer, onTime_self]
    unfold Situation.on
    cases isActive && decide (initialCondition = .kTrue) <;> simp
  · rw [heq] at hb
    cases hb

theorem timed_run (es : List (Int × Call V)) {x : History V} {log : SignalLog} {s : Situation}
    (h : Timed x.producer x.erasedPast log s x.now) (hrun : RunOk History.step History.Ok x es) :
    ∃ s', Timed (es.foldl History.step x).producer (es.foldl History.step x).erasedPast (log ++ s.signal es) s'
      (es.foldl History.step x).now := by
  induction es generalizing x log s with
  | nil => exact ⟨s, by simpa [Situation.signal] using h⟩
  | cons e es ih =>
    obtain ⟨hle, hrest⟩ := hrun
    have hcall : Timed (x.producer.call e.1 e.2) x.erasedPast (log ++ [(e.1, (s.after e.2).on)]) (s.after e.2) e.1 :=
      Timed.call ⟨h.clock.tick hle, h.active, h.condition⟩ e.2
    have hstep : Timed (x.step e).producer (x.step e).erasedPast (log ++ [(e.1, (s.after e.2).on)]) (s.after e.2) (x.step e).now := by
      unfold History.step
      dsimp only
      split
      · exact ⟨hcall.clock.erase, hcall.active, hcall.condition⟩
      · exact hcall
    have := ih hstep hrest
    rwa [List.append_assoc] at this

end History

/-- The condition-true time of each kept bucket is the time inside the bucket for which the metric was active and its
condition true, by the calls it got, so it is not negative and no longer than the bucket: for a metric with a positive
bucket size that starts no earlier than its time base, and any run of calls at non-decreasing times. -/
theorem conditionTrue_exact (metric : ValueMetric) (startTimeNs : Int) (hsize : 0 < metric.mBucketSizeNs)
    (hstart : metric.mTimeBaseNs ≤ startTimeNs) (initialCondition : ConditionState) (isActive : Bool)
    (es : List (Int × Call V)) (hrun : RunOk History.step History.Ok (.new metric startTimeNs initialCondition isActive) es) :
    let x : History V := es.foldl History.step (.new metric startTimeNs initialCondition isActive)
    let s : Situation := ⟨isActive, initialCondition⟩
    ∀ k, ∀ b ∈ x.past k,
      b.mConditionTrueNs = onTime ((startTimeNs, s.on) :: s.signal es) b.mBucketStartNs b.mBucketEndNs ∧
        0 ≤ b.mConditionTrueNs ∧ b.mConditionTrueNs ≤ b.mBucketEndNs - b.mBucketStartNs := by
  intro x s k b hb
  obtain ⟨_, htimed⟩ := History.timed_run es (History.timed_new hsize hstart initialCondition isActive) hrun
  obtain ⟨htime, hforward, -⟩ := htimed.clock.past k b hb
  refine ⟨htime, ?_, ?_⟩
  · rw [htime]
    exact onTime_nonneg _ _ _
  · rw [htime]
    exact onTime_le _ hforward

/-- A condition that becomes true and false again, an upgrade in between, and an inactive time. -/
theorem conditionTrue_sample :
    let event : ValueEvent Int := ⟨0, ⟨[], []⟩, true, ∅, [some 3]⟩
    let pull : Pull Int := ⟨true, 0, []⟩
    let es : List (Int × Call Int) :=
      [(10, .conditionChanged true pull), (15, .matchedLogEvent event), (20, .appUpgrade pull), (25, .matchedLogEvent event),
        (30, .conditionChanged false pull), (70, .conditionChanged true pull)]
    let x : History Int := es.foldl History.step (.new (pushedMetric 60) 5 .kFalse true)
    (x.past ⟨[], []⟩).map (fun b => (b.interval, b.mConditionTrueNs)) = [((5, 20), 10), ((20, 60), 10)] ∧
      ∀ b ∈ x.past ⟨[], []⟩, 0 ≤ b.mConditionTrueNs ∧ b.mConditionTrueNs ≤ b.mBucketEndNs - b.mBucketStartNs := by
  intro event pull es x
  refine ⟨by decide +kernel, fun b hb => ?_⟩
  exact (conditionTrue_exact (pushedMetric 60) 5 (by decide) (by decide) .kFalse true es
    ⟨by decide +kernel, by decide +kernel, by decide +kernel, by decide +kernel, by decide +kernel, by decide +kernel, trivial⟩
    ⟨[], []⟩ b hb).2

end ValueMetricProducer

end Statsd.Metrics
