/-
Value metrics with activations. When a metric becomes inactive, the producer first clears its active flag
and flushes, and then pulls: the events of that pull are dropped because the metric is not active any more,
so what the counters gained since the last pull is lost. A scheduled pull of an inactive metric drops its
events too, but marks the producer as having a global base, which a zero default base then trusts when the
metric becomes active again. In every run without these two, what is reported when the metric is inactive is
what the counters gained in its active periods.
-/
import Statsd.Metrics.ValueTelescope

namespace Statsd.Metrics.ValueMetricProducer

/-! ## Flushes and reports -/

section

variable {K : Finset HashableDimensionKey} {m : Meter}

theorem Weighs.report {x : History Int} (h : Weighs x.producer K m) (hd : x.producer.toValueMetric.Diffed) (t next : Int) :
    ∀ y : History Int, y = { x with producer := x.producer.flushCurrentBucketLocked t next } →
    Weighs y.producer K m.flush ∧ ((∃ s ∈ y.skipped, SkippedInvalid s) ∨
      m.invalid = false ∧ ∀ w ∈ K, ∀ i < x.producer.fieldCount, y.reported w i = x.reported w i + pendingSum m.pending w i) := by
  rintro y rfl
  obtain ⟨-, hemits⟩ := emits_flush (y := { x with producer := x.producer.flushCurrentBucketLocked t next }) h hd (.refl x.producer) rfl rfl
  exact ⟨h.flush t next, hemits.reported⟩

/-- A flush of a bucket that is over: the reports and what is pending add up to the same, unless a bucket is
skipped as invalid. -/
theorem Weighs.reportIfOver {x : History Int} (h : Weighs x.producer K m) (hd : x.producer.toValueMetric.Diffed) (t : Int) :
    ∀ y : History Int, y = { x with producer := x.producer.flushIfNeededLocked t } →
    ∃ m', (m' = m ∧ y = x ∨ m' = m.flush ∧ ∃ next, y = { x with producer := x.producer.flushCurrentBucketLocked t next }) ∧
      Weighs y.producer K m' ∧
      ((∃ s ∈ y.skipped, SkippedInvalid s) ∨ (m.invalid = true → m'.invalid = true) ∧
        ∀ w ∈ K, ∀ i < x.producer.fieldCount, y.reported w i + pendingSum m'.pending w i = x.reported w i + pendingSum m.pending w i) := by
  rintro y rfl
  unfold flushIfNeededLocked
  split
  · exact ⟨m, .inl ⟨rfl, rfl⟩, h, .inr ⟨id, fun w _ i _ => rfl⟩⟩
  · generalize x.producer.getCurrentBucketEndTimeNs + (x.producer.calcBucketsForwardCount t - 1) * x.producer.mBucketSizeNs = next
    obtain ⟨hflush, hrep⟩ := h.report hd t next _ rfl
    refine ⟨m.flush, .inr ⟨rfl, next, rfl⟩, hflush, ?_⟩
    rcases hrep with hskip | ⟨hvalid, hrep⟩
    · exact .inl hskip
    · refine .inr ⟨fun hinv => absurd (hinv.symm.trans hvalid) Bool.false_ne_true.symm, fun w hw i hi => ?_⟩
      rw [hrep w hw i hi]
      exact add_zero _

theorem flushIfNeededLocked_active {p : ValueMetricProducer Int} (h : DropsLogged p) (t : Int) :
    (p.flushIfNeededLocked t).mIsActive = p.mIsActive := by
  unfold flushIfNeededLocked
  split
  · rfl
  · exact (p.flushCurrentBucketLocked_closing t _ h).state.2.1

/-- A producer without a base and without pending values has them neither after a pull whose events are
dropped. -/
theorem Weighs.dropped {p q : ValueMetricProducer Int} {invalid : Bool} (h : Weighs p K ⟨.kTrue, none, none, invalid⟩)
    (hm : q.toValueMetric = p.toValueMetric) (hq : Dropped p q K) : Weighs q K ⟨.kTrue, none, none, q.mCurrentBucketIsSkipped⟩ := by
  refine ⟨⟨hq.keyed, fun w hw i hi => ?_, fun w hw i hi => ?_⟩, hq.condition.trans h.condition, rfl, hq.drops⟩
  · rw [hm] at hi
    rcases hq.base w i with hnone | hsame
    · exact hnone
    · exact hsame.trans (h.metered.base w hw i hi)
  · rw [hm] at hi
    exact hq.pending _ _ (h.metered.pending w hw i hi)

end

/-! ## Activations -/

theorem onActiveStateChangedLocked_active {p : ValueMetricProducer Int} {t : Int} {pull : Pull Int} (hactive : p.mIsActive = true)
    (hcond : p.mCondition = .kTrue) (ht : p.mCurrentBucketStartTimeNs ≤ t) (hpulled : p.mIsPulled = true)
    (hq : (p.pullAndMatchEventsLocked pull t).mIsActive = true) :
    ∃ timer, p.onActiveStateChangedLocked t pull =
      { (p.pullAndMatchEventsLocked pull t).flushIfNeededLocked t with mConditionTimer := timer } := by
  have hlate : decide (t < p.mCurrentBucketStartTimeNs) = false := decide_eq_false (not_lt.2 ht)
  unfold onActiveStateChangedLocked
  simp only [hlate, hactive, hcond, hpulled, hq, Bool.false_eq_true, if_false, if_true, Bool.not_true, Bool.and_false, ne_eq,
    not_true_eq_false]
  exact ⟨_, rfl⟩

theorem onActiveStateChangedLocked_inactive {p : ValueMetricProducer Int} {t : Int} {pull : Pull Int} (hactive : p.mIsActive = false)
    (ht : p.mCurrentBucketStartTimeNs ≤ t) (hcond : (p.flushLocked t).mCondition = .kTrue) (hpulled : (p.flushLocked t).mIsPulled = true)
    (hq : ((p.flushLocked t).pullAndMatchEventsLocked pull t).mIsActive = false)
    (hdiff : ((p.flushLocked t).pullAndMatchEventsLocked pull t).mUseDiff = true) :
    ∃ timer, p.onActiveStateChangedLocked t pull =
      { ((p.flushLocked t).pullAndMatchEventsLocked pull t).resetBase.flushIfNeededLocked t with mConditionTimer := timer } := by
  have hlate : decide (t < p.mCurrentBucketStartTimeNs) = false := decide_eq_false (not_lt.2 ht)
  unfold onActiveStateChangedLocked
  simp only [hlate, hactive, hcond, hpulled, hq, hdiff, Bool.false_eq_true, if_false, if_true, Bool.not_false, Bool.and_true, ne_eq,
    not_true_eq_false]
  exact ⟨_, rfl⟩

/-- The change of an activation call. -/
def Call.activation : Call Int → Option Bool
  | .activeStateChanged isActive _ => some isActive
  | _ => none

/-- Whether a call reaches the producer: an activation does when it changes the state. -/
def Call.reaches (p : ValueMetricProducer Int) : Call Int → Bool
  | .activeStateChanged isActive _ => decide (isActive ≠ p.mIsActive)
  | _ => true

/-- The pull of an activation or a bucket end returns all keys in time. -/
def Call.Pulls (metric : ValueMetric) (K : Finset HashableDimensionKey) (t : Int) (v : Values) : Call Int → Prop
  | .activeStateChanged _ pull | .dataPulled pull => pull.Returns metric K t v
  | _ => False

namespace Measured

/-- An inactive producer whose condition is true. -/
def idle (metric : ValueMetric) (startTimeNs : Int) : Measured where
  history := .new metric startTimeNs .kTrue false
  segments := ⟨false, none, fun _ _ => 0⟩

/-- A call at a time, with the values of its pull. The segments are the active periods. -/
def act (x : Measured) (e : Int × Call Int × Values) : Measured where
  history := x.history.step (e.1, e.2.1)
  segments := if e.2.1.reaches x.history.producer then x.segments.step e.2.1.activation e.2.2 else x.segments

/-- Time does not go back, the call is an activation, a deactivation or a bucket end, and its pull succeeds
in time and returns every key with values that are not below those of the last pull of the period. -/
structure Acts (K : Finset HashableDimensionKey) (x : Measured) (e : Int × Call Int × Values) : Prop where
  time : x.history.now ≤ e.1
  pulls : e.2.1.reaches x.history.producer = true → e.2.1.Pulls x.history.producer.toValueMetric K e.1 e.2.2
  increasing : e.2.1.reaches x.history.producer = true → ∀ o, x.segments.opened = some o →
    ∀ w ∈ K, ∀ i < x.history.producer.fieldCount, o.2 w i ≤ e.2.2 w i

/-- Nothing is lost at the step: a deactivation finds the values of the last pull, and an activation does not
take the zero default base for values that are not zero. -/
structure Settled (K : Finset HashableDimensionKey) (x : Measured) (e : Int × Call Int × Values) : Prop where
  deactivation : e.2.1.activation = some false → ∀ o, x.segments.opened = some o →
    ∀ w ∈ K, ∀ i < x.history.producer.fieldCount, e.2.2 w i = o.2 w i
  activation : e.2.1.activation = some true → x.history.producer.mIsActive = false →
    x.history.producer.mUseZeroDefaultBase = true → x.history.producer.mHasGlobalBase = true →
    ∀ w ∈ K, ∀ i < x.history.producer.fieldCount, e.2.2 w i = 0

/-- An active producer: unless its bucket is invalid, it is in an active period with the values of the last
pull as base. -/
structure Running (K : Finset HashableDimensionKey) (x : Measured) (m : Meter) : Prop where
  meters : Meters x.history.producer K m
  condition : m.condition = .kTrue
  active : x.segments.condition = true
  base : m.base = none ∨ m.base = x.segments.opened.map (·.2)
  period : m.invalid = true ∨ m.base = x.segments.opened.map (·.2) ∧
    ∀ w ∈ K, ∀ i < x.history.producer.fieldCount, x.history.reported w i + pendingSum m.pending w i = x.segments.sum w i

/-- An inactive producer has no base and nothing pending. -/
structure Resting (K : Finset HashableDimensionKey) (x : Measured) : Prop where
  weighs : Weighs x.history.producer K ⟨.kTrue, none, none, x.history.producer.mCurrentBucketIsSkipped⟩
  inactive : x.history.producer.mIsActive = false
  segments : x.segments.condition = false ∧ x.segments.opened = none
  reported : ∀ w ∈ K, ∀ i < x.history.producer.fieldCount, x.history.reported w i = x.segments.sum w i

structure Lossless (metric : ValueMetric) (K : Finset HashableDimensionKey) (x : Measured) : Prop where
  timely : x.history.Timely metric
  state : (∃ s ∈ x.history.skipped, SkippedInvalid s) ∨ (∃ m, x.Running K m) ∨ x.Resting K

variable {metric : ValueMetric} {K : Finset HashableDimensionKey} {x : Measured} {t : Int} {v : Values} {pull : Pull Int}

theorem gives_of_returns (hret : pull.Returns metric K t v) : pull.Gives metric K t (some v) ∨ pull.Gives metric K t none := by
  rcases lt_or_ge K.card metric.mDimensionHardLimit with hlimit | hlimit
  · exact .inl (.returns hret hlimit)
  · exact .inr (.tooMany hret hlimit)

theorem Running.dataPulled {m : Meter} (h : x.Running K m) (hd : metric.Diffed) (htimely : x.history.Timely metric)
    (hok : x.Acts K (t, .dataPulled pull, v)) :
    (∃ s ∈ (x.act (t, .dataPulled pull, v)).history.skipped, SkippedInvalid s) ∨ ∃ m', (x.act (t, .dataPulled pull, v)).Running K m' := by
  have hmetric := htimely.constants
  have hret : pull.Returns x.history.producer.toValueMetric K t v := hok.pulls rfl
  have hmeasures : m.measures none = true := by simp [Meter.measures, h.condition]
  have hknown : m.condition ≠ .kUnknown := by rw [h.condition]; decide
  have hgives : ∃ r, (r = some v ∨ r = none) ∧ Readable x.history.producer t (.dataPulled pull) K m r := by
    have hup : ∀ v' b, some v = some v' → m.base = some b → ∀ w ∈ K, ∀ i < x.history.producer.fieldCount, b w i ≤ v' w i := by
      intro v' b hv' hb w hw i hi
      cases hv'
      rcases h.base with hnone | hbase
      · rw [hnone] at hb
        cases hb
      · rw [hbase] at hb
        obtain ⟨o, ho, rfl⟩ := Option.map_eq_some_iff.1 hb
        exact hok.increasing rfl o ho w hw i hi
    rcases gives_of_returns hret with hg | hg
    · exact ⟨some v, .inl rfl, fun _ => ⟨hg, hup⟩⟩
    · exact ⟨none, .inr rfl, fun _ => ⟨hg, fun v' b hv' => by cases hv'⟩⟩
  obtain ⟨r, hr, hread⟩ := hgives
  obtain ⟨r', hsteps, hr'⟩ := h.meters.steps (by rw [hmetric]; exact hd) (by rw [hmetric]; exact htimely.base)
    (htimely.now.trans hok.time) rfl rfl hread
  have hr'' : r' = some v ∨ r' = none := hr'.elim (fun heq => heq ▸ hr) fun hno => .inr hno.1
  have hstep : x.act (t, .dataPulled pull, v) = ⟨x.history.step (t, .dataPulled pull), x.segments.pulled v⟩ := by
    have hmeasures' : x.segments.measures none = true := by simp [Segments.measures, h.active]
    show (⟨_, if true = true then x.segments.step none v else x.segments⟩ : Measured) = _
    rw [if_pos rfl]
    unfold Segments.step
    rw [if_pos hmeasures']
  rw [hstep]
  -- the meter before the flush
  have hprep : (m.prepare none r').condition = .kTrue ∧
      ((m.prepare none r').base = none ∨ (m.prepare none r').base = (x.segments.pulled v).opened.map (·.2)) ∧
      ((m.prepare none r').invalid = true ∨ (m.prepare none r').base = (x.segments.pulled v).opened.map (·.2) ∧
        ∀ w ∈ K, ∀ i < x.history.producer.fieldCount,
          x.history.reported w i + pendingSum (m.prepare none r').pending w i = (x.segments.pulled v).sum w i) := by
    rcases hr'' with rfl | rfl
    · rw [Meter.prepare_read hknown hmeasures]
      refine ⟨h.condition, .inr rfl, ?_⟩
      rcases h.period with hinv | ⟨hbase, hsum⟩
      · exact .inl hinv
      · refine .inr ⟨rfl, fun w hw i hi => ?_⟩
        have h1 := hsum w hw i hi
        have h2 := sum_pulled hbase v w i
        unfold Meter.read at h2
        dsimp only at h2 ⊢
        omega
    · rw [Meter.prepare_missed hknown hmeasures]
      exact ⟨h.condition, .inl rfl, .inl rfl⟩
  obtain ⟨hcondition, hbase, hperiod⟩ := hprep
  dsimp only [Call.change] at hsteps
  generalize m.prepare none r' = m' at hsteps hcondition hbase hperiod
  have hmetric' : (x.history.step (t, .dataPulled pull)).producer.toValueMetric = metric := (htimely.step (e := (t, .dataPulled pull)) hok.time).constants
  have hcount : (x.history.step (t, .dataPulled pull)).producer.fieldCount = x.history.producer.fieldCount := by rw [hmetric', hmetric]
  cases hc : Call.closes x.history.producer t (.dataPulled pull) with
  | false =>
    rw [hc] at hsteps
    refine .inr ⟨m', hsteps.meters, hcondition, h.active, hbase, hperiod.imp id fun hp => ⟨hp.1, fun w hw i hi => ?_⟩⟩
    rw [hcount] at hi
    rw [← hp.2 w hw i hi]
    unfold History.reported
    rw [hsteps.stays rfl]
  | true =>
    rw [hc] at hsteps
    rcases (hsteps.closes rfl).reported with hskip | ⟨hvalid, hrep⟩
    · exact .inl hskip
    · refine .inr ⟨m'.flush, hsteps.meters, hcondition, h.active, hbase, ?_⟩
      rcases hperiod with hinv | ⟨hb, hsum⟩
      · exact absurd (hinv.symm.trans hvalid) Bool.false_ne_true.symm
      · refine .inr ⟨hb, fun w hw i hi => ?_⟩
        rw [hcount] at hi
        rw [← hsum w hw i hi, hrep w hw i hi]
        exact add_zero _

theorem Resting.flushIfNeeded {y z : History Int} {invalid : Bool} {segments : Segments} (hw : Weighs y.producer K ⟨.kTrue, none, none, invalid⟩)
    (hd : y.producer.toValueMetric.Diffed) (hinactive : y.producer.mIsActive = false)
    (hsegments : segments.condition = false ∧ segments.opened = none)
    (hreported : ∀ w ∈ K, ∀ i < y.producer.fieldCount, y.reported w i = segments.sum w i)
    (hz : z = { y with producer := y.producer.flushIfNeededLocked t }) :
    (∃ s ∈ z.skipped, SkippedInvalid s) ∨ Resting K ⟨z, segments⟩ := by
  obtain ⟨m', hm', hw', hrep⟩ := hw.reportIfOver hd t z hz
  have hmetric : z.producer.toValueMetric = y.producer.toValueMetric := by
    rcases hm' with ⟨-, rfl⟩ | ⟨-, next, rfl⟩
    · rfl
    · obtain ⟨skipped, hf⟩ := y.producer.flushCurrentBucketLocked_spec t next
      exact hf.metric
  have hempty : m'.condition = .kTrue ∧ m'.base = none ∧ m'.pending = none := by
    rcases hm' with ⟨rfl, -⟩ | ⟨rfl, -⟩
    · exact ⟨rfl, rfl, rfl⟩
    · exact ⟨rfl, rfl, rfl⟩
  obtain ⟨hc, hb, hp⟩ := hempty
  rcases hrep with hskip | ⟨-, hrep⟩
  · exact .inl hskip
  · have hmet := hw'.metered
    rw [hb, hp] at hmet
    refine .inr ⟨⟨hmet, hw'.condition.trans hc, rfl, hw'.drops⟩, ?_, hsegments, fun w hwK i hi => ?_⟩
    · rw [hz]
      exact (flushIfNeededLocked_active hw.drops t).trans hinactive
    · have hi : i < y.producer.fieldCount := by rw [← hmetric]; exact hi
      have h1 := hrep w hwK i hi
      rw [hp] at h1
      have h2 := hreported w hwK i hi
      unfold pendingSum at h1
      dsimp only [Option.elim] at h1 ⊢
      omega

theorem Resting.dataPulled (h : x.Resting K) (hd : metric.Diffed) (htimely : x.history.Timely metric) (pull : Pull Int) (v : Values) :
    (∃ s ∈ (x.act (t, .dataPulled pull, v)).history.skipped, SkippedInvalid s) ∨ (x.act (t, .dataPulled pull, v)).Resting K := by
  have hmetric := htimely.constants
  have hpulled : x.history.producer.mIsPulled = true := by rw [hmetric]; exact hd.pulled
  have hcall : x.history.producer.call t (.dataPulled pull) = x.history.producer.onDataPulled pull t := if_pos hpulled
  unfold onDataPulled at hcall
  dsimp only at hcall
  rw [if_pos h.weighs.condition] at hcall
  have hdropped : ∃ q, x.history.producer.call t (.dataPulled pull) = q.flushIfNeededLocked t ∧ Dropped x.history.producer q K ∧
      SameBuckets x.history.producer q := by
    refine ⟨_, hcall, ?_, ?_⟩
    · split
      · exact dropped_invalidate h.weighs.metered.keyed h.weighs.drops t (by decide)
      · split
        · exact dropped_accumulateEvents h.weighs.metered.keyed h.inactive h.weighs.drops pull t _
        · exact dropped_accumulateEvents h.weighs.metered.keyed h.inactive h.weighs.drops pull t _
    · split
      · exact invalidateCurrentBucket_same _ _ _
      · split
        · exact (offClock_accumulateEvents _ hpulled pull _ _).toSameBuckets
        · exact (offClock_accumulateEvents _ hpulled pull _ _).toSameBuckets
  obtain ⟨q, hq, hdrop, hsame⟩ := hdropped
  have hstep : x.act (t, .dataPulled pull, v) = ⟨{ x.history with producer := q.flushIfNeededLocked t, now := t }, x.segments⟩ := by
    have hmeasures : x.segments.measures none = false := by simp [Segments.measures, h.segments.1]
    show (⟨{ x.history with producer := _, now := t }, if true = true then x.segments.step none v else x.segments⟩ : Measured) = _
    rw [if_pos rfl, hq]
    unfold Segments.step
    rw [hmeasures]
    rfl
  rw [hstep]
  refine Resting.flushIfNeeded (y := { x.history with producer := q, now := t }) (h.weighs.dropped hsame.metric hdrop)
    (by rw [show ({ x.history with producer := q, now := t } : History Int).producer = q from rfl, hsame.metric, hmetric]; exact hd)
    (hdrop.active.trans h.inactive) h.segments (fun w hw i hi => ?_) rfl
  have hi : i < x.history.producer.fieldCount := by
    rw [show x.history.producer.fieldCount = q.fieldCount by rw [hsame.metric]]
    exact hi
  rw [← h.reported w hw i hi]
  unfold History.reported History.past
  dsimp only
  rw [hsame.past]

theorem Resting.activated (h : x.Resting K) (hd : metric.Diffed) (htimely : x.history.Timely metric) (ht : x.history.now ≤ t)
    (hret : pull.Returns metric K t v)
    (hzero : x.history.producer.mUseZeroDefaultBase = true → x.history.producer.mHasGlobalBase = true →
      ∀ w ∈ K, ∀ i < x.history.producer.fieldCount, v w i = 0) :
    ∃ m, Meters ({ x.history.producer with mIsActive := true }.pullAndMatchEventsLocked pull t) K m ∧ m.condition = .kTrue ∧
      (m.base = none ∨ m.base = some v) ∧
      (m.invalid = true ∨ m.base = some v ∧ ∀ w ∈ K, ∀ i < x.history.producer.fieldCount, pendingSum m.pending w i = 0) := by
  have hmetric := htimely.constants
  let p0 : ValueMetricProducer Int := { x.history.producer with mIsActive := true }
  have hp0 : Metered p0 K none none := h.weighs.metered.congr rfl rfl rfl
  have hstart : p0.mCurrentBucketStartTimeNs ≤ t := htimely.now.trans ht
  have hbase : p0.mTimeBaseNs ≤ t := by
    show x.history.producer.mTimeBaseNs ≤ t
    rw [hmetric]
    exact htimely.base.trans hstart
  have hd0 : p0.toValueMetric.Diffed := by
    show x.history.producer.toValueMetric.Diffed
    rw [hmetric]
    exact hd
  have hret0 : pull.Returns p0.toValueMetric K t v := by
    show pull.Returns x.history.producer.toValueMetric K t v
    rw [hmetric]
    exact hret
  have hpull : p0.pullAndMatchEventsLocked pull t = p0.accumulateEvents pull t t := if_neg (by simp [hret.success])
  show ∃ m, Meters (p0.pullAndMatchEventsLocked pull t) K m ∧ _
  rw [hpull]
  rcases lt_or_ge K.card p0.mDimensionHardLimit with hlimit | hlimit
  · -- a zero default base is only taken for zeros
    have hnone : ∀ b, p0.baseOrZero none = some b → (∀ w i, b w i = 0) ∧ ∀ w ∈ K, ∀ i < p0.fieldCount, v w i = 0 := by
      intro b hb
      unfold baseOrZero at hb
      rw [Option.none_or] at hb
      split at hb
      · rename_i hglobal
        obtain ⟨hg, hz⟩ := Bool.and_eq_true_iff.1 hglobal
        cases hb
        exact ⟨fun _ _ => rfl, hzero hz hg⟩
      · cases hb
    obtain ⟨hm, honly⟩ := hp0.pull hlimit hd0 rfl hret0 hbase hstart fun b hb w hw i hi => by
      rw [(hnone b hb).1 w i, (hnone b hb).2 w hw i hi]
    generalize p0.accumulateEvents pull t t = q at hm honly
    have hskip : q.mCurrentBucketIsSkipped = x.history.producer.mCurrentBucketIsSkipped :=
      honly.congr (·.mCurrentBucketIsSkipped) fun _ _ _ _ _ => rfl
    have hdrop : q.dropEvents = x.history.producer.dropEvents := honly.congr (·.dropEvents) fun _ _ _ _ _ => rfl
    have hm' : q.toValueMetric = p0.toValueMetric := honly.congr (·.toValueMetric) fun _ _ _ _ _ => rfl
    refine ⟨⟨.kTrue, some v, pendAdd (p0.baseOrZero none) none v, q.mCurrentBucketIsSkipped⟩, ⟨⟨hm, ?_, rfl, ⟨?_, ?_⟩⟩, ?_, ?_, fun hover => ?_⟩,
      rfl, .inr rfl, .inr ⟨rfl, fun w hw i hi => ?_⟩⟩
    · exact (honly.congr (·.mCondition) fun _ _ _ _ _ => rfl).trans h.weighs.condition
    · rw [hskip, hdrop]; exact h.weighs.drops.logged
    · rw [hdrop]; exact h.weighs.drops.reason
    · exact honly.congr (·.mIsActive) fun _ _ _ _ _ => rfl
    · exact honly.congr (·.mHasGlobalBase) fun _ _ _ _ _ => rfl
    · rw [hm'] at hover
      exact absurd hlimit (not_lt.2 hover)
    · dsimp only
      rw [pendingSum_pendAdd]
      cases hb : p0.baseOrZero none with
      | none => rfl
      | some b =>
        show (0 : Int) + (v w i - b w i) = 0
        rw [(hnone b hb).1 w i, (hnone b hb).2 w hw i hi]
        rfl
  · obtain ⟨hm, honly⟩ := hp0.pull_over hlimit hd0 rfl hret0 hbase hstart
    have hlogged : DropsLogged p0 := ⟨h.weighs.drops.logged, h.weighs.drops.reason⟩
    have hinv := hlogged.skip t (r := .DIMENSION_GUARDRAIL_REACHED) (by decide)
    generalize p0.accumulateEvents pull t t = q at hm honly
    have hskip := honly.congr (·.mCurrentBucketIsSkipped) fun _ _ _ _ _ => rfl
    have hdrop := honly.congr (·.dropEvents) fun _ _ _ _ _ => rfl
    refine ⟨⟨.kTrue, none, none, true⟩, ⟨⟨hm, ?_, hskip, ⟨?_, ?_⟩⟩, ?_, ?_, fun _ => ⟨rfl, rfl⟩⟩, rfl, .inl rfl, .inl rfl⟩
    · exact (honly.congr (·.mCondition) fun _ _ _ _ _ => rfl).trans h.weighs.condition
    · rw [hskip, hdrop]; exact hinv.logged
    · rw [hdrop]; exact hinv.reason
    · exact honly.congr (·.mIsActive) fun _ _ _ _ _ => rfl
    · exact honly.congr (·.mHasGlobalBase) fun _ _ _ _ _ => rfl

theorem Resting.activate (h : x.Resting K) (hd : metric.Diffed) (htimely : x.history.Timely metric)
    (hok : x.Acts K (t, .activeStateChanged true pull, v)) (hsettled : x.Settled K (t, .activeStateChanged true pull, v)) :
    (∃ s ∈ (x.act (t, .activeStateChanged true pull, v)).history.skipped, SkippedInvalid s) ∨
      ∃ m, (x.act (t, .activeStateChanged true pull, v)).Running K m := by
  have hmetric := htimely.constants
  have hreaches : Call.reaches x.history.producer (.activeStateChanged true pull) = true := by simp [Call.reaches, h.inactive]
  have hret : pull.Returns metric K t v := by
    rw [← hmetric]
    exact hok.pulls hreaches
  obtain ⟨m, hm, hcond, hbase, hperiod⟩ := h.activated hd htimely hok.time hret (hsettled.activation rfl h.inactive)
  have hsame : SameBuckets x.history.producer ({ x.history.producer with mIsActive := true }.pullAndMatchEventsLocked pull t) := by
    have hset : SameBuckets x.history.producer { x.history.producer with mIsActive := true } := ⟨rfl, rfl, rfl, rfl, rfl⟩
    exact hset.trans (offClock_pullAndMatchEventsLocked _ (by rw [hset.metric, hmetric]; exact hd.pulled) pull t).toSameBuckets
  have hcall : ∃ timer, x.history.producer.call t (.activeStateChanged true pull) =
      { ({ x.history.producer with mIsActive := true }.pullAndMatchEventsLocked pull t).flushIfNeededLocked t with
        mConditionTimer := timer } := by
    have hpulled : x.history.producer.mIsPulled = true := by rw [hmetric]; exact hd.pulled
    have hset : x.history.producer.call t (.activeStateChanged true pull) =
        { x.history.producer with mIsActive := true }.onActiveStateChangedLocked t pull := if_neg (by simp [h.inactive])
    rw [hset]
    exact onActiveStateChangedLocked_active rfl h.weighs.condition (htimely.now.trans hok.time) hpulled hm.active
  generalize ({ x.history.producer with mIsActive := true }.pullAndMatchEventsLocked pull t) = q at hm hsame hcall
  obtain ⟨timer, hcall⟩ := hcall
  have hstep : x.act (t, .activeStateChanged true pull, v) =
      ⟨{ x.history with producer := { q.flushIfNeededLocked t with mConditionTimer := timer }, now := t },
        { x.segments.pulled v with condition := true }⟩ := by
    show (⟨{ x.history with producer := _, now := t }, if Call.reaches x.history.producer (.activeStateChanged true pull) = true then
      x.segments.step (some true) v else x.segments⟩ : Measured) = _
    rw [if_pos hreaches, hcall]
    unfold Segments.step
    rw [if_pos (by simp [Segments.measures])]
  rw [hstep]
  -- the producer before the flush
  let y : History Int := { x.history with producer := q, now := t }
  have hdy : y.producer.toValueMetric.Diffed := by
    show q.toValueMetric.Diffed
    rw [hsame.metric, hmetric]
    exact hd
  have hcount : q.fieldCount = x.history.producer.fieldCount := by rw [hsame.metric]
  have hsum : ∀ w ∈ K, ∀ i < x.history.producer.fieldCount, y.reported w i =
      Segments.sum { x.segments.pulled v with condition := true } w i := by
    intro w hw i hi
    have hrep : y.reported w i = x.history.reported w i := by
      unfold History.reported History.past
      dsimp only [y]
      rw [hsame.past]
    rw [hrep, h.reported w hw i hi]
    unfold Segments.pulled Segments.sum
    rw [h.segments.2]
    simp
  obtain ⟨m', hm', hw', hrep⟩ := hm.toWeighs.reportIfOver (x := y) hdy t _ rfl
  have hmeters : Meters (q.flushIfNeededLocked t) K m' ∧ m'.condition = .kTrue ∧ m'.base = m.base := by
    rcases hm' with ⟨rfl, heq⟩ | ⟨rfl, next, heq⟩
    · have hq : q.flushIfNeededLocked t = q := congrArg (·.producer) heq
      rw [hq]
      exact ⟨hm, hcond, rfl⟩
    · have hq : q.flushIfNeededLocked t = q.flushCurrentBucketLocked t next := congrArg (·.producer) heq
      rw [hq]
      exact ⟨hm.flush t next, hcond, rfl⟩
  obtain ⟨hmet, hc', hb'⟩ := hmeters
  have hopened : some v = ({ x.segments.pulled v with condition := true } : Segments).opened.map (·.2) := rfl
  rcases hrep with hskip | ⟨hinvalid, hrep⟩
  · exact .inl hskip
  · refine .inr ⟨m', hmet.congr rfl rfl rfl rfl rfl rfl rfl rfl, hc', rfl, ?_, ?_⟩
    · rw [hb', ← hopened]
      exact hbase
    · rcases hperiod with hinv | ⟨hb, hpend⟩
      · exact .inl (hinvalid hinv)
      · refine .inr ⟨hb'.trans (hb.trans hopened), fun w hw i hi => ?_⟩
        have hi : i < x.history.producer.fieldCount := by
          have hf : (q.flushIfNeededLocked t).toValueMetric = q.toValueMetric :=
            ((Advances.flush q).timely (t := t) (by rw [hsame.metric, hmetric, hsame.start]; exact htimely.base)
              (by rw [hsame.start]; exact htimely.now.trans hok.time)).1
          rw [← hcount, ← show (q.flushIfNeededLocked t).fieldCount = q.fieldCount by rw [hf]]
          exact hi
        have h1 := hrep w hw i (by show i < q.fieldCount; rw [hcount]; exact hi)
        rw [hpend w hw i hi, add_zero, hsum w hw i hi] at h1
        exact h1

/-- The flushes of a deactivation: an invalid bucket is skipped, and what was pending in a valid one is
reported. -/
theorem Running.flushed {m : Meter} (h : x.Running K m) (hd : metric.Diffed) (htimely : x.history.Timely metric) (ht : x.history.now ≤ t)
    {y : History Int} (hy : y = { x.history with
      producer := ({ x.history.producer with mIsActive := false } : ValueMetricProducer Int).flushLocked t, now := t }) :
    y.producer.toValueMetric = metric ∧ y.producer.mCurrentBucketStartTimeNs = t ∧ y.producer.mIsActive = false ∧
      Weighs y.producer K ⟨.kTrue, m.base, none, false⟩ ∧
      ((∃ s ∈ y.skipped, SkippedInvalid s) ∨ ∀ w ∈ K, ∀ i < metric.fieldCount, y.reported w i = x.segments.sum w i) := by
  have hmetric := htimely.constants
  let x0 : History Int := { x.history with producer := { x.history.producer with mIsActive := false }, now := t }
  have hw0 : Weighs x0.producer K m :=
    ⟨h.meters.metered.congr rfl rfl rfl, h.meters.condition, h.meters.invalid, ⟨h.meters.drops.logged, h.meters.drops.reason⟩⟩
  have hd0 : x0.producer.toValueMetric.Diffed := by
    show x.history.producer.toValueMetric.Diffed
    rw [hmetric]
    exact hd
  let x1 : History Int := { x0 with producer := x0.producer.flushIfNeededLocked t }
  obtain ⟨m1, hm1, hw1, hrep1⟩ := hw0.reportIfOver hd0 t x1 rfl
  obtain ⟨hc1, hs1, ht1⟩ := (Advances.flush x0.producer).timely (t := t)
    (by show x.history.producer.mTimeBaseNs ≤ _; rw [hmetric]; exact htimely.base) (htimely.now.trans ht)
  have hmetric1 : x1.producer.toValueMetric = metric := hc1.trans hmetric
  have ha1 : x1.producer.mIsActive = false := flushIfNeededLocked_active hw0.drops t
  have hm1' : m1.condition = .kTrue ∧ m1.base = m.base := by
    rcases hm1 with ⟨rfl, -⟩ | ⟨rfl, -⟩
    · exact ⟨h.condition, rfl⟩
    · exact ⟨h.condition, rfl⟩
  have hy' : y = { x1 with producer := x1.producer.flushCurrentBucketLocked t t } := hy
  obtain ⟨hw2, hrep2⟩ := hw1.report (by rw [hmetric1]; exact hd) t t y hy'
  obtain ⟨skipped, hf⟩ := x1.producer.flushCurrentBucketLocked_spec t t
  have hclosing := x1.producer.flushCurrentBucketLocked_closing t t hw1.drops
  have hgrows : ∀ s ∈ x1.skipped, s ∈ y.skipped := by
    intro s hs
    obtain ⟨l, hl⟩ := x1.producer.flushCurrentBucketLocked_skipped t t
    rw [hy']
    show s ∈ x1.erasedSkipped ++ (x1.producer.flushCurrentBucketLocked t t).mSkippedBuckets
    rw [hl, ← List.append_assoc]
    exact List.mem_append_left l hs
  refine ⟨?_, ?_, ?_, ?_, ?_⟩
  · rw [hy']; exact hf.metric.trans hmetric1
  · rw [hy']; exact hf.start
  · rw [hy']; exact hclosing.state.2.1.trans ha1
  · have hflush : m1.flush = ⟨.kTrue, m.base, none, false⟩ := by
      unfold Meter.flush
      rw [hm1'.1, hm1'.2]
    rw [← hflush]
    exact hw2
  · rcases hrep1 with ⟨s, hs, hinv⟩ | ⟨hinvalid, hrep1⟩
    · exact .inl ⟨s, hgrows s hs, hinv⟩
    rcases hrep2 with hskip | ⟨hvalid, hrep2⟩
    · exact .inl hskip
    refine .inr fun w hw i hi => ?_
    rcases h.period with hinv | ⟨-, hsum⟩
    · exact absurd ((hinvalid hinv).symm.trans hvalid) Bool.false_ne_true.symm
    · have h2 := hrep2 w hw i (by rw [hmetric1]; exact hi)
      have h1 := hrep1 w hw i (by show i < x.history.producer.fieldCount; rw [hmetric]; exact hi)
      have h0 := hsum w hw i (by rw [hmetric]; exact hi)
      rw [h2, h1]
      exact h0

theorem Running.deactivate {m : Meter} (h : x.Running K m) (hd : metric.Diffed) (htimely : x.history.Timely metric)
    (hok : x.Acts K (t, .activeStateChanged false pull, v)) (hsettled : x.Settled K (t, .activeStateChanged false pull, v)) :
    (∃ s ∈ (x.act (t, .activeStateChanged false pull, v)).history.skipped, SkippedInvalid s) ∨
      (x.act (t, .activeStateChanged false pull, v)).Resting K := by
  have hmetric := htimely.constants
  let p0 : ValueMetricProducer Int := { x.history.producer with mIsActive := false }
  let y : History Int := { x.history with producer := p0.flushLocked t, now := t }
  obtain ⟨hym, hys, hya, hyw, hyrep⟩ := h.flushed hd htimely hok.time (y := y) rfl
  have hpulled : y.producer.mIsPulled = true := by rw [hym]; exact hd.pulled
  have hdropped := dropped_pull hyw.metered.keyed hya hyw.drops pull t
  have hsame := (offClock_pullAndMatchEventsLocked y.producer hpulled pull t).toSameBuckets
  have hreaches : Call.reaches x.history.producer (.activeStateChanged false pull) = true := by simp [Call.reaches, h.meters.active]
  have hcall : ∃ timer, x.history.producer.call t (.activeStateChanged false pull) =
      { (y.producer.pullAndMatchEventsLocked pull t).resetBase.flushIfNeededLocked t with mConditionTimer := timer } := by
    have hset : x.history.producer.call t (.activeStateChanged false pull) = p0.onActiveStateChangedLocked t pull :=
      if_neg (by simp [h.meters.active])
    rw [hset]
    exact onActiveStateChangedLocked_inactive rfl (htimely.now.trans hok.time) hyw.condition hpulled (hdropped.active.trans hya)
      (by rw [hsame.metric, hym]; exact hd.diff)
  obtain ⟨timer, hcall⟩ := hcall
  generalize y.producer.pullAndMatchEventsLocked pull t = q at hdropped hsame hcall
  have hstep : x.act (t, .activeStateChanged false pull, v) =
      ⟨{ x.history with producer := { q.resetBase.flushIfNeededLocked t with mConditionTimer := timer }, now := t },
        { (x.segments.pulled v).close with condition := false }⟩ := by
    show (⟨{ x.history with producer := _, now := t }, if Call.reaches x.history.producer (.activeStateChanged false pull) = true then
      x.segments.step (some false) v else x.segments⟩ : Measured) = _
    rw [if_pos hreaches, hcall]
    unfold Segments.step
    rw [if_pos (by simp [Segments.measures, h.active])]
  rw [hstep]
  let z : History Int := { x.history with producer := q.resetBase, now := t }
  let z' : History Int := { z with producer := q.resetBase.flushIfNeededLocked t }
  have hzm : z.producer.toValueMetric = metric := by
    show q.toValueMetric = metric
    rw [hsame.metric, hym]
  -- the skipped buckets of the flush are still there
  have hgrows : ∀ s ∈ y.skipped, s ∈ z'.skipped := by
    intro s hs
    obtain ⟨l, hl⟩ := (Advances.flush q.resetBase).skipped (t := t)
    show s ∈ x.history.erasedSkipped ++ (q.resetBase.flushIfNeededLocked t).mSkippedBuckets
    rw [hl, ← List.append_assoc]
    refine List.mem_append_left l ?_
    rw [show q.resetBase.mSkippedBuckets = y.producer.mSkippedBuckets from hsame.skipped]
    exact hs
  rcases hyrep with ⟨s, hs, hinv⟩ | hyrep
  · exact .inl ⟨s, hgrows s hs, hinv⟩
  have hweighs : Weighs z.producer K ⟨.kTrue, none, none, z.producer.mCurrentBucketIsSkipped⟩ := by
    refine ⟨⟨hdropped.keyed.resetBase, fun w _ i _ => baseAt_resetBase q w i, fun w hw i hi => ?_⟩, hdropped.condition.trans hyw.condition, rfl,
      ⟨hdropped.drops.logged, hdropped.drops.reason⟩⟩
    refine hdropped.pending _ _ (hyw.metered.pending w hw i ?_)
    rw [hzm] at hi
    rw [hym]
    exact hi
  have hsum : ∀ w ∈ K, ∀ i < z.producer.fieldCount, z.reported w i =
      Segments.sum { (x.segments.pulled v).close with condition := false } w i := by
    intro w hw i hi
    rw [hzm] at hi
    have hrep : z.reported w i = y.reported w i := by
      unfold History.reported History.past
      rw [show z.producer.mPastBuckets = y.producer.mPastBuckets from hsame.past]
    show _ = (x.segments.pulled v).close.sum w i
    rw [hrep, hyrep w hw i hi, sum_close]
    have hlast := fun o ho => hsettled.deactivation rfl o ho w hw i (by rw [hmetric]; exact hi)
    unfold Segments.pulled Segments.sum
    dsimp only at hlast ⊢
    cases ho : x.segments.opened with
    | none => simp
    | some o => simp [hlast o ho]
  rcases Resting.flushIfNeeded (t := t) hweighs (by rw [hzm]; exact hd) (hdropped.active.trans hya) ⟨rfl, rfl⟩ hsum
    (z := z') rfl with hskip | hrest
  · exact .inl hskip
  · exact .inr ⟨⟨hrest.weighs.metered.congr rfl rfl rfl, hrest.weighs.condition, rfl, ⟨hrest.weighs.drops.logged, hrest.weighs.drops.reason⟩⟩,
      hrest.inactive, hrest.segments, hrest.reported⟩

theorem Lossless.step (hd : metric.Diffed) {e : Int × Call Int × Values} (hok : x.Acts K e) (hsettled : x.Settled K e)
    (h : x.Lossless metric K) : (x.act e).Lossless metric K := by
  obtain ⟨t, c, v⟩ := e
  refine ⟨h.timely.step (e := (t, c)) hok.time, ?_⟩
  rcases h.state with ⟨s, hs, hinvalid⟩ | hstate
  · exact .inl ⟨s, History.mem_skipped_step (t, c) hs, hinvalid⟩
  cases hreaches : c.reaches x.history.producer with
  | false =>
    -- an activation that changes nothing
    cases c with
    | activeStateChanged isActive pull =>
      have hsame : x.history.producer.mIsActive = isActive := by
        have := of_decide_eq_false hreaches
        exact (not_not.1 this).symm
      have hcall : x.history.producer.call t (.activeStateChanged isActive pull) = x.history.producer := if_pos hsame.symm
      have hstep : x.act (t, .activeStateChanged isActive pull, v) = ⟨{ x.history with now := t }, x.segments⟩ := by
        show (⟨{ x.history with producer := x.history.producer.call t (.activeStateChanged isActive pull), now := t },
          if Call.reaches x.history.producer (.activeStateChanged isActive pull) = true then _ else x.segments⟩ : Measured) = _
        rw [if_neg (by rw [hreaches]; exact Bool.false_ne_true), hcall]
      rw [hstep]
      rcases hstate with ⟨m, hm⟩ | hrest
      · exact .inr (.inl ⟨m, hm.meters, hm.condition, hm.active, hm.base, hm.period⟩)
      · exact .inr (.inr ⟨hrest.weighs, hrest.inactive, hrest.segments, hrest.reported⟩)
    | _ => cases hreaches
  | true =>
    have hpulls := hok.pulls hreaches
    cases c with
    | dataPulled pull =>
      rcases hstate with ⟨m, hm⟩ | hrest
      · exact (hm.dataPulled hd h.timely hok).imp id .inl
      · exact (hrest.dataPulled hd h.timely pull v).imp id .inr
    | activeStateChanged isActive pull =>
      rcases hstate with ⟨m, hm⟩ | hrest
      · have hoff : isActive = false := by
          have hne := of_decide_eq_true hreaches
          rw [hm.meters.active] at hne
          exact Bool.eq_false_iff.2 hne
        subst hoff
        exact (hm.deactivate hd h.timely hok hsettled).imp id .inr
      · have hon : isActive = true := by
          have hne := of_decide_eq_true hreaches
          rw [hrest.inactive] at hne
          exact Bool.eq_true_of_not_eq_false hne
        subst hon
        exact (hrest.activate hd h.timely hok hsettled).imp id .inl
    | _ => exact absurd hpulls id

theorem lossless_idle (hstates : metric.unknownStateKey = []) (K : Finset HashableDimensionKey) {startTimeNs : Int}
    (hstart : metric.mTimeBaseNs ≤ startTimeNs) : (idle metric startTimeNs).Lossless metric K := by
  have hfresh := fresh_new hstates K startTimeNs .kTrue false
  refine ⟨History.new_timely hstates hstart .kTrue false, .inr (.inr ⟨?_, hfresh.active, ⟨rfl, rfl⟩, fun w hw i hi => ?_⟩)⟩
  · exact ⟨hfresh.weighs.metered, hfresh.weighs.condition, rfl, hfresh.weighs.drops⟩
  · have hpast : (idle metric startTimeNs).history.past ⟨w, []⟩ = [] := hfresh.past _
    unfold History.reported
    rw [hpast]
    rfl

end Measured

/-- What deactivations keep: for a metric with activations that sums diffs without states, whose condition is
true, and any run of activations, deactivations and bucket ends whose pulls return every key with values that
do not decrease, where a deactivation finds the values of the last pull and no zero default base stands for
other values: when the metric is inactive and no bucket was skipped as invalid, what was reported for a key is
the sum over its active periods of the value at the deactivation less the value at the activation. -/
theorem inactive_reports_periods (metric : ValueMetric) (hd : metric.Diffed) (hstates : metric.unknownStateKey = [])
    (K : Finset HashableDimensionKey) (startTimeNs : Int) (hstart : metric.mTimeBaseNs ≤ startTimeNs) (es : List (Int × Call Int × Values))
    (hrun : RunOk Measured.act (fun x e => x.Acts K e ∧ x.Settled K e) (.idle metric startTimeNs) es) :
    let x : Measured := es.foldl Measured.act (.idle metric startTimeNs)
    x.history.producer.mIsActive = false → (∀ s ∈ x.history.skipped, ¬ SkippedInvalid s) →
      ∀ w ∈ K, ∀ i < metric.fieldCount, x.history.reported w i = x.segments.sum w i := by
  intro x hinactive hvalid w hw i hi
  have hinv : x.Lossless metric K :=
    hrun.inv (fun x e hok h => h.step hd hok.1 hok.2) (Measured.lossless_idle hstates K hstart)
  rcases hinv.state with ⟨s, hs, hinvalid⟩ | ⟨m, hm⟩ | hrest
  · exact absurd hinvalid (hvalid s hs)
  · exact absurd (hm.meters.active.symm.trans hinactive) Bool.false_ne_true.symm
  · exact hrest.reported w hw i (by rw [hinv.timely.constants]; exact hi)

/-- The deactivation comes right after the pull at a bucket end, and finds its values. -/
theorem inactive_reports_periods_settled :
    let es : List (Int × Call Int × Values) :=
      [(10, .activeStateChanged true (pullOf 10 5), fun _ _ => 5), (60, .dataPulled (pullOf 60 8), fun _ _ => 8),
        (60, .activeStateChanged false (pullOf 60 8), fun _ _ => 8)]
    let x : Measured := es.foldl Measured.act (.idle (pulledMetric 60) 0)
    (x.history.reported [] 0 = 3 ∧ x.segments.sum [] 0 = 3) ∧ x.history.reported [] 0 = x.segments.sum [] 0 := by
  intro es x
  refine ⟨by decide +kernel, ?_⟩
  refine inactive_reports_periods (pulledMetric 60) ⟨rfl, rfl, rfl, .inl rfl⟩ rfl {[]} 0 (by decide) es
    ⟨⟨⟨?_, ?_, ?_⟩, ⟨?_, ?_⟩⟩, ⟨⟨?_, ?_, ?_⟩, ⟨?_, ?_⟩⟩, ⟨⟨?_, ?_, ?_⟩, ⟨?_, ?_⟩⟩, trivial⟩ (by decide +kernel) (by decide +kernel) [] (by decide)
    0 (by decide)
  · decide +kernel
  · exact fun _ => pullOf_returns 60 10 5
  · exact fun _ o ho => by cases ho
  · exact fun h => by cases h
  · exact fun _ _ hzero => by cases hzero
  · decide +kernel
  · exact fun _ => pullOf_returns 60 60 8
  · intro _ o ho w _ i _
    cases ho
    exact (by decide : (5 : Int) ≤ 8)
  · exact fun h => by cases h
  · exact fun h => by cases h
  · decide +kernel
  · exact fun _ => pullOf_returns 60 60 8
  · intro _ o ho w _ i _
    cases ho
    exact (by decide : (8 : Int) ≤ 8)
  · intro _ o ho w _ i _
    cases ho
    rfl
  · exact fun h => by cases h

/-- The tail of an active period is lost: three more at the deactivation than at the activation, and nothing
is reported. -/
theorem deactivation_loses_tail :
    let es : List (Int × Call Int × Values) :=
      [(10, .activeStateChanged true (pullOf 10 5), fun _ _ => 5), (20, .activeStateChanged false (pullOf 20 8), fun _ _ => 8)]
    let x : Measured := es.foldl Measured.act (.idle (pulledMetric 60) 0)
    (RunOk Measured.act (Measured.Acts {[]}) (.idle (pulledMetric 60) 0) es ∧ x.history.producer.mIsActive = false ∧
      (∀ s ∈ x.history.skipped, ¬ SkippedInvalid s) ∧ x.history.reported [] 0 = 0 ∧ x.segments.sum [] 0 = 3) ∧
    ¬ x.history.reported [] 0 = x.segments.sum [] 0 := by
  intro es x
  refine ⟨⟨⟨⟨?_, ?_, ?_⟩, ⟨?_, ?_, ?_⟩, trivial⟩, by decide +kernel, by decide +kernel, by decide +kernel, by decide +kernel⟩, by decide +kernel⟩
  · decide +kernel
  · exact fun _ => pullOf_returns 60 10 5
  · exact fun _ o ho => by cases ho
  · decide +kernel
  · exact fun _ => pullOf_returns 60 20 8
  · intro _ o ho w _ i _
    cases ho
    exact (by decide : (5 : Int) ≤ 8)

end Statsd.Metrics.ValueMetricProducer
