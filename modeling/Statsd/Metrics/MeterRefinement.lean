/-
The abstract meter of a pulled metric that sums diffs, and its refinement. A meter has a base and pending
values for all keys together, the condition it was told, and a mark on the current bucket when data is
missing. Every call of an active producer without states is one step of the meter: it takes a reading
when the condition is or becomes true, drops the base when it becomes false, and reports what is pending
when the call closes the bucket.
-/
import Statsd.Metrics.ValueMeter

namespace Statsd.Metrics

/-! ## The meter -/

structure Meter where
  condition : ConditionState
  base : Option Values
  pending : Option Values
  invalid : Bool

namespace Meter

def invalidate (m : Meter) : Meter := { m with base := none, invalid := true }

/-- A reading: none when the pull fails or comes too late. -/
def read (m : Meter) : Option Values → Meter
  | none => m.invalidate
  | some v => { m with base := some v, pending := pendAdd m.base m.pending v }

/-- Whether a step takes a reading: the condition is true, or becomes true. -/
def measures (m : Meter) (change : Option Bool) : Bool := decide (m.condition = .kTrue) || decide (change = some true)

/-- A step up to the flush, with the change of the condition if there is one. -/
def prepare (m : Meter) (change : Option Bool) (reading : Option Values) : Meter :=
  let m := if change.isSome && decide (m.condition = .kUnknown) then m.invalidate else m
  let m := if m.measures change then m.read reading else m
  let m := if decide (m.condition = .kTrue) && decide (change = some false) then { m with base := none } else m
  { m with condition := (change.map ConditionState.ofBool).getD m.condition }

def flush (m : Meter) : Meter := { m with pending := none, invalid := false }

def step (m : Meter) (change : Option Bool) (reading : Option Values) (closes : Bool) : Meter :=
  if closes then (m.prepare change reading).flush else m.prepare change reading

section

variable {m : Meter} (h : m.condition ≠ .kUnknown) {change : Option Bool}

include h

theorem prepare_read (hm : m.measures change = true) (v : Values) :
    m.prepare change (some v) = ⟨(change.map ConditionState.ofBool).getD m.condition, if change = some false then none else some v,
      pendAdd m.base m.pending v, m.invalid⟩ := by
  unfold prepare
  rw [if_neg (by simp [h])]
  dsimp only
  rw [if_pos hm]
  by_cases hc : change = some false
  · have htrue : m.condition = .kTrue := by simpa [measures, hc] using hm
    rw [if_pos (by simp [hc, read, htrue]), if_pos hc]
    rfl
  · rw [if_neg (by simp [hc]), if_neg hc]
    rfl

theorem prepare_missed (hm : m.measures change = true) :
    m.prepare change none = ⟨(change.map ConditionState.ofBool).getD m.condition, none, m.pending, true⟩ := by
  unfold prepare
  rw [if_neg (by simp [h])]
  dsimp only
  rw [if_pos hm]
  split <;> rfl

theorem prepare_idle (hm : m.measures change = false) (r : Option Values) :
    m.prepare change r = { m with condition := (change.map ConditionState.ofBool).getD m.condition } := by
  have hfalse : m.condition ≠ .kTrue := by
    intro htrue
    simp [measures, htrue] at hm
  unfold prepare
  rw [if_neg (by simp [h])]
  dsimp only
  rw [hm, if_neg Bool.false_ne_true, if_neg (by simp [hfalse])]

end

theorem prepare_lost {m : Meter} {change : Option Bool} (h : (m.prepare change none).invalid = false) (r : Option Values) :
    m.prepare change none = m.prepare change r := by
  unfold prepare at h ⊢
  dsimp only at h ⊢
  generalize (if change.isSome && decide (m.condition = .kUnknown) then m.invalidate else m) = m1 at h ⊢
  cases hm : m1.measures change with
  | false => rfl
  | true =>
    rw [hm, if_pos rfl] at h
    have hinvalid : (m1.read none).invalid = true := rfl
    split at h
    · exact absurd (hinvalid.symm.trans h) Bool.false_ne_true.symm
    · exact absurd (hinvalid.symm.trans h) Bool.false_ne_true.symm

end Meter

/-- What a pull gives for the keys: its values, or nothing when it fails, comes too late or has more keys
than the guardrail allows. -/
inductive Pull.Gives (m : ValueMetric) (K : Finset HashableDimensionKey) (pull : Pull Int) (t : Int) : Option Values → Prop where
  | returns {v : Values} (h : pull.Returns m K t v) (hlimit : K.card < m.mDimensionHardLimit) : Gives m K pull t (some v)
  | tooMany {v : Values} (h : pull.Returns m K t v) (hlimit : m.mDimensionHardLimit ≤ K.card) : Gives m K pull t none
  | fails (h : pull.success = false) : Gives m K pull t none
  | late (h : m.mMaxPullDelayNs < pull.elapsedRealtimeNs - t) : Gives m K pull t none

namespace ValueMetricProducer

/-- The data of the producer are those of the meter. -/
structure Weighs (p : ValueMetricProducer Int) (K : Finset HashableDimensionKey) (m : Meter) : Prop where
  metered : Metered p K m.base m.pending
  condition : p.mCondition = m.condition
  invalid : p.mCurrentBucketIsSkipped = m.invalid
  drops : DropsLogged p

/-- The producer refines the meter. -/
structure Meters (p : ValueMetricProducer Int) (K : Finset HashableDimensionKey) (m : Meter) : Prop extends Weighs p K m where
  active : p.mIsActive = true
  hasBase : p.mHasGlobalBase = m.base.isSome
  crowded : p.mDimensionHardLimit ≤ K.card → m.base = none ∧ m.pending = none

section

variable {p : ValueMetricProducer Int} {K : Finset HashableDimensionKey} {m : Meter}

theorem Meters.baseOrZero (h : Meters p K m) : p.baseOrZero m.base = m.base := by
  unfold ValueMetricProducer.baseOrZero
  rw [h.hasBase]
  cases m.base with
  | none => rfl
  | some b => rfl

/-! ## The parts of a step -/

theorem Meters.invalidate (h : Meters p K m) (t : Int) {r : BucketDropReason} (hr : r ≠ .NO_DATA) :
    Meters (p.invalidateCurrentBucket t r) K m.invalidate := by
  have hdrops := h.drops.skip t hr
  exact ⟨⟨h.metered.invalidate t r, h.condition, rfl, ⟨hdrops.logged, hdrops.reason⟩⟩, h.active, rfl,
    fun hlimit => ⟨rfl, (h.crowded hlimit).2⟩⟩

theorem Meters.resetBase (h : Meters p K m) : Meters p.resetBase K { m with base := none } :=
  ⟨⟨h.metered.resetBase, h.condition, h.invalid, ⟨h.drops.logged, h.drops.reason⟩⟩, h.active, rfl, fun hlimit => ⟨rfl, (h.crowded hlimit).2⟩⟩

variable {r : Option Values} {q : ValueMetricProducer Int} {t : Int} {c : Call Int} {metric : ValueMetric}

theorem Meters.read (h : Meters p K m) (hd : p.toValueMetric.Diffed) {pull : Pull Int} {t e : Int}
    (hgives : pull.Gives p.toValueMetric K t r) (hbase : p.mTimeBaseNs ≤ e) (hstart : p.mCurrentBucketStartTimeNs ≤ e)
    (hup : ∀ v b, r = some v → m.base = some b → ∀ w ∈ K, ∀ i < p.fieldCount, b w i ≤ v w i) (t' : Int) :
    Meters (if !pull.success then p.invalidateCurrentBucket t' .PULL_FAILED else p.accumulateEvents pull t e) K (m.read r) := by
  cases hgives with
  | @returns v hret hlimit =>
    rw [if_neg (by simp [hret.success])]
    obtain ⟨hm, honly⟩ := h.metered.pull hlimit hd h.active hret hbase hstart fun b hb => hup v b rfl (by rw [← hb, h.baseOrZero])
    rw [h.baseOrZero] at hm
    generalize p.accumulateEvents pull t e = q at hm honly
    have hskip : q.mCurrentBucketIsSkipped = p.mCurrentBucketIsSkipped :=
      honly.congr (·.mCurrentBucketIsSkipped) fun _ _ _ _ _ => rfl
    have hdrop : q.dropEvents = p.dropEvents := honly.congr (·.dropEvents) fun _ _ _ _ _ => rfl
    have hmetric : q.toValueMetric = p.toValueMetric := honly.congr (·.toValueMetric) fun _ _ _ _ _ => rfl
    refine ⟨⟨hm, ?_, hskip.trans h.invalid, ⟨?_, ?_⟩⟩, ?_, ?_, fun hover => ?_⟩
    · exact (honly.congr (·.mCondition) fun _ _ _ _ _ => rfl).trans h.condition
    · rw [hskip, hdrop]; exact h.drops.logged
    · rw [hdrop]; exact h.drops.reason
    · exact (honly.congr (·.mIsActive) fun _ _ _ _ _ => rfl).trans h.active
    · exact honly.congr (·.mHasGlobalBase) fun _ _ _ _ _ => rfl
    · rw [hmetric] at hover
      exact absurd hlimit (not_lt.2 hover)
  | tooMany hret hlimit =>
    rw [if_neg (by simp [hret.success])]
    obtain ⟨hb, hp⟩ := h.crowded hlimit
    have hm := h.metered
    rw [hb, hp] at hm
    obtain ⟨hm', honly⟩ := hm.pull_over hlimit hd h.active hret hbase hstart
    have hinv := h.invalidate e (r := .DIMENSION_GUARDRAIL_REACHED) (by decide)
    have hread : m.read none = ⟨m.condition, none, none, true⟩ := by
      unfold Meter.read Meter.invalidate
      rw [hp]
    rw [hread]
    generalize p.accumulateEvents pull t e = q at hm' honly
    have hskip := honly.congr (·.mCurrentBucketIsSkipped) fun _ _ _ _ _ => rfl
    have hdrop := honly.congr (·.dropEvents) fun _ _ _ _ _ => rfl
    refine ⟨⟨hm', ?_, hskip, ⟨?_, ?_⟩⟩, ?_, ?_, fun _ => ⟨rfl, rfl⟩⟩
    · exact (honly.congr (·.mCondition) fun _ _ _ _ _ => rfl).trans h.condition
    · rw [hskip, hdrop]; exact hinv.drops.logged
    · rw [hdrop]; exact hinv.drops.reason
    · exact (honly.congr (·.mIsActive) fun _ _ _ _ _ => rfl).trans h.active
    · exact honly.congr (·.mHasGlobalBase) fun _ _ _ _ _ => rfl
  | fails hfail =>
    rw [if_pos (by simp [hfail])]
    exact h.invalidate t' (by decide)
  | late hlate =>
    split
    · exact h.invalidate t' (by decide)
    · unfold accumulateEvents
      rw [if_neg (not_lt.2 hstart), if_pos hlate]
      exact h.invalidate e (by decide)

theorem Meters.pull (h : Meters p K m) (hd : p.toValueMetric.Diffed) {pull : Pull Int}
    (hgives : pull.Gives p.toValueMetric K t r) (hbase : p.mTimeBaseNs ≤ t) (hstart : p.mCurrentBucketStartTimeNs ≤ t)
    (hup : ∀ v b, r = some v → m.base = some b → ∀ w ∈ K, ∀ i < p.fieldCount, b w i ≤ v w i) :
    Meters (p.pullAndMatchEventsLocked pull t) K (m.read r) := h.read hd hgives hbase hstart hup t

theorem Weighs.flush (h : Weighs p K m) (e next : Int) : Weighs (p.flushCurrentBucketLocked e next) K m.flush := by
  have hc := p.flushCurrentBucketLocked_closing e next h.drops
  obtain ⟨skipped, hf⟩ := p.flushCurrentBucketLocked_spec e next
  refine ⟨h.metered.flush hf.metric hc, hc.state.1.trans h.condition, hc.opened.1, ⟨?_, ?_⟩⟩
  · intro hs
    rw [hc.opened.1] at hs
    cases hs
  · rw [hc.opened.2]
    simp

theorem Meters.flush (h : Meters p K m) (e next : Int) : Meters (p.flushCurrentBucketLocked e next) K m.flush := by
  have hc := p.flushCurrentBucketLocked_closing e next h.drops
  obtain ⟨skipped, hf⟩ := p.flushCurrentBucketLocked_spec e next
  refine ⟨h.toWeighs.flush e next, hc.state.2.1.trans h.active, hc.bases.2.trans h.hasBase, fun hover => ?_⟩
  rw [hf.metric] at hover
  exact ⟨(h.crowded hover).1, rfl⟩

/-! ## Calls -/

/-- The calls of a metric without states that stays active. -/
def Call.steady : Call Int → Bool
  | .conditionChanged _ _ | .appUpgrade _ | .statsdInitCompleted _ | .dataPulled _ | .dumpReport _ _ _ _ => true
  | _ => false

def Call.change : Call Int → Option Bool
  | .conditionChanged condition _ => some condition
  | _ => none

/-- Whether the call looks at the meter at all. -/
def Call.asks (metric : ValueMetric) : Call Int → Bool
  | .appUpgrade _ => metric.mSplitBucketForAppUpgrade
  | .dumpReport include_current_partial_bucket _ _ _ => include_current_partial_bucket
  | _ => true

/-- Whether the call closes the current bucket: a split always does, another call when the bucket is over. -/
def Call.closes (p : ValueMetricProducer Int) (t : Int) : Call Int → Bool
  | .conditionChanged _ _ | .dataPulled _ => decide (p.getCurrentBucketEndTimeNs ≤ t)
  | _ => true

/-- What the pull of a call gives; a fast dump does without one. -/
def Call.Gives (metric : ValueMetric) (K : Finset HashableDimensionKey) (t : Int) (r : Option Values) : Call Int → Prop
  | .conditionChanged _ pull | .appUpgrade pull | .statsdInitCompleted pull | .dataPulled pull
  | .dumpReport _ _ .NO_TIME_CONSTRAINTS pull => pull.Gives metric K t r
  | .dumpReport _ _ .FAST _ => r = none
  | _ => False

/-- Nothing but the stopwatch differs. -/
def TimerOnly (p q : ValueMetricProducer Int) : Prop := { q with mConditionTimer := p.mConditionTimer } = p

/-- A call up to the flush: the producer refines the prepared meter, its buckets are as before, and the
rest of the call is the flush. -/
structure Prepared (p q : ValueMetricProducer Int) (t : Int) (c : Call Int) (K : Finset HashableDimensionKey) (m : Meter) :
    Prop where
  meters : Meters q K m
  same : SameBuckets p q
  stays : c.closes p t = false → TimerOnly q (p.call t c)
  closes : c.closes p t = true → ∃ next, TimerOnly (q.flushCurrentBucketLocked t next) (p.call t c)

/-- When the pull of a call is read: it can be compared with the base, and comes with the values it gives. -/
def Readable (p : ValueMetricProducer Int) (t : Int) (c : Call Int) (K : Finset HashableDimensionKey) (m : Meter) (r : Option Values) :
    Prop :=
  m.measures c.change = true → c.Gives p.toValueMetric K t r ∧
    ∀ v b, r = some v → m.base = some b → ∀ w ∈ K, ∀ i < p.fieldCount, b w i ≤ v w i

theorem prepared_split (h : Meters p K m)
    (hc : c.change = none) (hcloses : c.closes p t = true) (hq : p.call t c = q.flushCurrentBucketLocked t t)
    (hsame : SameBuckets p q) (hread : m.condition = .kTrue → Meters q K (m.read r)) (hidle : m.condition ≠ .kTrue → q = p) :
    Prepared p q t c K (m.prepare c.change r) := by
  have hm : Meters q K (m.prepare c.change r) := by
    unfold Meter.prepare Meter.measures
    simp only [hc, Option.isSome_none, Bool.false_and, Bool.false_eq_true, if_false, reduceCtorEq, decide_false, Bool.or_false,
      Bool.and_false, Option.map_none, Option.getD_none, decide_eq_true_eq]
    by_cases htrue : m.condition = .kTrue
    · rw [if_pos htrue]
      exact hread htrue
    · rw [if_neg htrue, hidle htrue]
      exact h
  refine ⟨hm, hsame, fun hno => ?_, fun _ => ⟨t, ?_⟩⟩
  · rw [hcloses] at hno
    cases hno
  · rw [hq]
    rfl

theorem pullIfTrue_meters (h : Meters p K m) (hd : p.toValueMetric.Diffed) (hbase : p.mTimeBaseNs ≤ p.mCurrentBucketStartTimeNs) (ht : p.mCurrentBucketStartTimeNs ≤ t) {pull : Pull Int} (hr : m.condition = .kTrue → pull.Gives p.toValueMetric K t r ∧
      ∀ v b, r = some v → m.base = some b → ∀ w ∈ K, ∀ i < p.fieldCount, b w i ≤ v w i) :
    (m.condition = .kTrue → Meters (p.pullIfTrue t pull) K (m.read r)) ∧ (m.condition ≠ .kTrue → p.pullIfTrue t pull = p) := by
  unfold pullIfTrue
  rw [h.condition, hd.pulled, Bool.true_and]
  refine ⟨fun htrue => ?_, fun hfalse => ?_⟩
  · rw [if_pos (decide_eq_true htrue)]
    exact h.pull hd (hr htrue).1 (hbase.trans ht) ht (hr htrue).2
  · rw [if_neg (by simpa using hfalse)]

theorem prepared_flush {m' : Meter} (hm : Meters q K m') (hsame : SameBuckets p q)
    (hcloses : c.closes p t = decide (p.getCurrentBucketEndTimeNs ≤ t)) (hcall : TimerOnly (q.flushIfNeededLocked t) (p.call t c)) :
    Prepared p q t c K m' := by
  have hend : q.getCurrentBucketEndTimeNs = p.getCurrentBucketEndTimeNs := by
    unfold getCurrentBucketEndTimeNs
    rw [hsame.metric, hsame.num]
  unfold flushIfNeededLocked at hcall
  rw [hend] at hcall
  refine ⟨hm, hsame, fun hno => ?_, fun hyes => ?_⟩
  · rw [hcloses, decide_eq_false_iff_not, not_le] at hno
    rw [if_pos hno] at hcall
    exact hcall
  · rw [hcloses, decide_eq_true_eq] at hyes
    rw [if_neg (not_lt.2 hyes)] at hcall
    exact ⟨_, hcall⟩

theorem prepared_dataPulled (h : Meters p K m) (hd : p.toValueMetric.Diffed)
    (hbase : p.mTimeBaseNs ≤ p.mCurrentBucketStartTimeNs) (ht : p.mCurrentBucketStartTimeNs ≤ t) {pull : Pull Int} (hr : Readable p t (.dataPulled pull) K m r) :
    ∃ q r', Prepared p q t (.dataPulled pull) K (m.prepare none r') ∧
      (r' = r ∨ r' = none ∧ Call.closes p t (.dataPulled pull) = true) := by
  have hcall : p.call t (.dataPulled pull) = p.onDataPulled pull t := if_pos hd.pulled
  unfold onDataPulled at hcall
  dsimp only at hcall
  by_cases htrue : m.condition = .kTrue
  · obtain ⟨hgives, hup⟩ := hr (by simp [Meter.measures, htrue])
    rw [h.condition, if_pos htrue] at hcall
    have hprep : ∀ r', m.prepare none r' = m.read r' := by
      intro r'
      unfold Meter.prepare Meter.measures
      simp [htrue]
    have hread : ∃ q r', p.call t (.dataPulled pull) = q.flushIfNeededLocked t ∧ Meters q K (m.read r') ∧ SameBuckets p q ∧
        (r' = r ∨ r' = none ∧ p.getCurrentBucketEndTimeNs ≤ t) := by
      by_cases hlate : t < p.getCurrentBucketEndTimeNs
      · rw [if_pos hlate] at hcall
        refine ⟨_, r, hcall, h.read hd hgives (hbase.trans ht) ht hup t, ?_, .inl rfl⟩
        split
        · exact invalidateCurrentBucket_same _ _ _
        · exact (p.offClock_accumulateEvents hd.pulled pull _ _).toSameBuckets
      · rw [if_neg hlate] at hcall
        have hsame : SameBuckets p (if !pull.success then p.invalidateCurrentBucket t .PULL_FAILED
            else p.accumulateEvents pull t (p.calcPreviousBucketEndTime t - 1)) := by
          split
          · exact invalidateCurrentBucket_same _ _ _
          · exact (p.offClock_accumulateEvents hd.pulled pull _ _).toSameBuckets
        by_cases hs : p.mCurrentBucketStartTimeNs ≤ p.calcPreviousBucketEndTime t - 1
        · exact ⟨_, r, hcall, h.read hd hgives (hbase.trans hs) hs hup t, hsame, .inl rfl⟩
        · -- the end that the pull counts for is before the bucket, which is invalidated
          refine ⟨_, none, hcall, ?_, hsame, .inr ⟨rfl, not_lt.1 hlate⟩⟩
          split
          · exact h.invalidate t (by decide)
          · unfold accumulateEvents
            rw [if_pos (not_le.1 hs)]
            exact h.invalidate _ (by decide)
    obtain ⟨q, r', hq, hm, hsame, hr'⟩ := hread
    refine ⟨q, r', prepared_flush (by rw [hprep]; exact hm) hsame rfl (by rw [hq]; rfl), ?_⟩
    rcases hr' with heq | ⟨hnone, hover⟩
    · exact .inl heq
    · exact .inr ⟨hnone, decide_eq_true hover⟩
  · rw [h.condition, if_neg htrue] at hcall
    have hprep : m.prepare none r = m := by
      unfold Meter.prepare Meter.measures
      simp [htrue]
    refine ⟨p, r, prepared_flush (by rw [hprep]; exact h) (.refl p) rfl (by rw [hcall]; rfl), .inl rfl⟩

theorem prepared_conditionChanged (h : Meters p K m) (hd : p.toValueMetric.Diffed)
    (hbase : p.mTimeBaseNs ≤ p.mCurrentBucketStartTimeNs) (ht : p.mCurrentBucketStartTimeNs ≤ t) {condition : Bool}
    {pull : Pull Int} (hr : Readable p t (.conditionChanged condition pull) K m r) :
    ∃ q, Prepared p q t (.conditionChanged condition pull) K (m.prepare (some condition) r) := by
  have hcall : p.call t (.conditionChanged condition pull) = p.onConditionChangedLocked condition t pull := rfl
  unfold onConditionChangedLocked at hcall
  dsimp only at hcall
  rw [if_neg (by simp [h.active]), if_neg (by simpa using ht)] at hcall
  unfold Meter.prepare
  dsimp only
  -- a bucket with an unknown condition is invalid
  have h1 : ∃ p1 m1, (if p.mCondition = .kUnknown then p.invalidateCurrentBucket t .CONDITION_UNKNOWN else p) = p1 ∧
      (if (some condition).isSome && decide (m.condition = .kUnknown) then m.invalidate else m) = m1 ∧ Meters p1 K m1 ∧
      SameBuckets p p1 ∧ m1.condition = m.condition ∧ (m1.base = none ∨ m1.base = m.base) := by
    refine ⟨_, _, rfl, rfl, ?_⟩
    rw [h.condition, Option.isSome_some, Bool.true_and]
    by_cases hu : m.condition = .kUnknown
    · rw [if_pos hu, if_pos (decide_eq_true hu)]
      exact ⟨h.invalidate t (by decide), invalidateCurrentBucket_same _ _ _, rfl, .inl rfl⟩
    · rw [if_neg hu, if_neg (by simpa using hu)]
      exact ⟨h, .refl p, rfl, .inr rfl⟩
  obtain ⟨p1, m1, hp1, hm1, hmeters1, hsame1, hcond1, hbase1⟩ := h1
  rw [hp1] at hcall
  rw [hm1]
  -- the pull
  have h2 : ∃ p2 m2, (if p1.mIsPulled && (decide (ConditionState.ofBool condition = .kTrue) || decide (p1.mCondition = .kTrue)) then
        p1.pullAndMatchEventsLocked pull t else p1) = p2 ∧
      (if m1.measures (some condition) then m1.read r else m1) = m2 ∧ Meters p2 K m2 ∧ SameBuckets p p2 := by
    refine ⟨_, _, rfl, rfl, ?_, hsame1.trans (p1.offClock_pull _ pull t).toSameBuckets⟩
    have hpulled : p1.mIsPulled = true := by rw [hsame1.metric]; exact hd.pulled
    have htest : (p1.mIsPulled && (decide (ConditionState.ofBool condition = .kTrue) || decide (p1.mCondition = .kTrue))) =
        m1.measures (some condition) := by
      unfold Meter.measures
      rw [hpulled, hmeters1.condition]
      cases condition <;> simp [ConditionState.ofBool, Bool.or_comm]
    rw [htest]
    split
    · rename_i hmeasures
      obtain ⟨hgives, hup⟩ := hr (by rw [← hmeasures]; unfold Meter.measures; rw [hcond1]; rfl)
      have hle : p1.mCurrentBucketStartTimeNs ≤ t := by rw [hsame1.start]; exact ht
      have htb : p1.mTimeBaseNs ≤ t := by rw [hsame1.metric]; exact hbase.trans ht
      refine hmeters1.pull (by rw [hsame1.metric]; exact hd) (by rw [hsame1.metric]; exact hgives) htb hle fun v b hv hb => ?_
      rw [hsame1.metric]
      rcases hbase1 with hnone | heq
      · rw [hnone] at hb; cases hb
      · exact hup v b hv (heq ▸ hb)
    · exact hmeters1
  obtain ⟨p2, m2, hp2, hm2, hmeters2, hsame2⟩ := h2
  rw [hp2] at hcall
  rw [hm2]
  -- the base is dropped when the condition becomes false
  have h3 : ∃ p3 m3, (if p2.mUseDiff && (decide (p2.mCondition = .kTrue) && decide (ConditionState.ofBool condition = .kFalse)) then
        p2.resetBase else p2) = p3 ∧
      (if decide (m2.condition = .kTrue) && decide (some condition = some false) then { m2 with base := none } else m2) = m3 ∧
      Meters p3 K m3 ∧ SameBuckets p p3 := by
    refine ⟨_, _, rfl, rfl, ?_⟩
    have hdiff : p2.mUseDiff = true := by rw [hsame2.metric]; exact hd.diff
    have htest : (p2.mUseDiff && (decide (p2.mCondition = .kTrue) && decide (ConditionState.ofBool condition = .kFalse))) =
        (decide (m2.condition = .kTrue) && decide (some condition = some false)) := by
      rw [hdiff, hmeters2.condition]
      cases condition <;> simp [ConditionState.ofBool]
    rw [htest]
    split
    · exact ⟨hmeters2.resetBase, hsame2.trans (resetBase_same p2)⟩
    · exact ⟨hmeters2, hsame2⟩
  obtain ⟨p3, m3, hp3, hm3, hmeters3, hsame3⟩ := h3
  rw [hp3] at hcall
  rw [hm3]
  have hmeters : Meters { p3 with mCondition := ConditionState.ofBool condition } K
      { m3 with condition := ((some condition).map ConditionState.ofBool).getD m3.condition } :=
    ⟨⟨hmeters3.metered.congr rfl rfl rfl, rfl, hmeters3.invalid, ⟨hmeters3.drops.logged, hmeters3.drops.reason⟩⟩, hmeters3.active,
      hmeters3.hasBase, hmeters3.crowded⟩
  exact ⟨_, prepared_flush hmeters (hsame3.trans ⟨rfl, rfl, rfl, rfl, rfl⟩) rfl (by rw [hcall]; rfl)⟩

/-- Every call of an active producer is a step of the meter. Its reading is lost when the pull counts for a
time before the bucket, which the call then closes. -/
theorem prepared_call (h : Meters p K m) (hd : p.toValueMetric.Diffed)
    (hbase : p.mTimeBaseNs ≤ p.mCurrentBucketStartTimeNs) (ht : p.mCurrentBucketStartTimeNs ≤ t)
    (hsteady : c.steady = true) (hasks : c.asks p.toValueMetric = true) (hr : Readable p t c K m r) :
    ∃ q r', Prepared p q t c K (m.prepare c.change r') ∧ (r' = r ∨ r' = none ∧ c.closes p t = true) := by
  have hmeasures : c.change = none → m.condition = .kTrue → m.measures c.change = true := fun _ htrue => by
    simp [Meter.measures, htrue]
  cases c with
  | conditionChanged condition pull =>
    obtain ⟨q, hq⟩ := prepared_conditionChanged h hd hbase ht hr
    exact ⟨q, r, hq, .inl rfl⟩
  | dataPulled pull => exact prepared_dataPulled h hd hbase ht hr
  | appUpgrade pull =>
    obtain ⟨hread, hidle⟩ := pullIfTrue_meters h hd hbase ht fun htrue => hr (hmeasures rfl htrue)
    refine ⟨_, r, prepared_split h rfl rfl ?_ (p.offClock_pull _ pull t).toSameBuckets hread hidle, .inl rfl⟩
    exact if_neg (by simpa [Call.asks] using hasks)
  | statsdInitCompleted pull =>
    obtain ⟨hread, hidle⟩ := pullIfTrue_meters h hd hbase ht fun htrue => hr (hmeasures rfl htrue)
    exact ⟨_, r, prepared_split h rfl rfl rfl (p.offClock_pull _ pull t).toSameBuckets hread hidle, .inl rfl⟩
  | dumpReport include_current_partial_bucket erase_data dumpLatency pull =>
    have hincluded : include_current_partial_bucket = true := hasks
    have hcall : p.call t (.dumpReport include_current_partial_bucket erase_data dumpLatency pull) =
      p.prepareDump t include_current_partial_bucket dumpLatency pull := rfl
    unfold prepareDump at hcall
    rw [if_neg (by simp [hincluded])] at hcall
    cases dumpLatency with
    | NO_TIME_CONSTRAINTS =>
      obtain ⟨hread, hidle⟩ := pullIfTrue_meters h hd hbase ht fun htrue => hr (hmeasures rfl htrue)
      exact ⟨_, r, prepared_split h rfl rfl hcall (p.offClock_pull _ pull t).toSameBuckets hread hidle, .inl rfl⟩
    | FAST =>
      dsimp only at hcall
      rw [h.condition, hd.pulled, Bool.true_and] at hcall
      refine ⟨_, r, prepared_split h rfl rfl hcall ?_ (fun htrue => ?_) fun hfalse => ?_, .inl rfl⟩
      · split
        · exact invalidateCurrentBucket_same _ _ _
        · exact .refl p
      · obtain ⟨hgives, -⟩ := hr (hmeasures rfl htrue)
        have hnone : r = none := hgives
        rw [hnone, if_pos (decide_eq_true htrue)]
        exact h.invalidate t (by decide)
      · rw [if_neg (by simpa using hfalse)]
  | matchedLogEvent event => cases hsteady
  | activeStateChanged isActive pull => cases hsteady
  | stateChanged atomId primaryKey oldState newState pull => cases hsteady
  | prepareFirstBucket pull => cases hsteady
  | dropData => cases hsteady

theorem call_unasked (hasks : c.asks p.toValueMetric = false) : p.call t c = p := by
  cases c with
  | appUpgrade pull => exact if_pos (by simpa [Call.asks] using hasks)
  | dumpReport include_current_partial_bucket erase_data dumpLatency pull => exact if_pos (by simpa [Call.asks] using hasks)
  | _ => cases hasks

/-! ## Histories -/

/-- A bucket that is closed at `t`, with what the prepared meter has pending: it is kept for the keys, or
skipped as invalid. -/
inductive Emits (x y : History Int) (K : Finset HashableDimensionKey) (t : Int) (m : Meter) : Prop where
  | kept (hvalid : m.invalid = false) (hknown : m.condition ≠ .kUnknown)
    (h : ∀ w ∈ K, (y.past ⟨w, []⟩ = x.past ⟨w, []⟩ ∧ ∀ i < x.producer.fieldCount, x.producer.shown (m.pending.map (· w i)) = none) ∨
      ∃ b, y.past ⟨w, []⟩ = x.past ⟨w, []⟩ ++ [b] ∧
        b.interval = (x.producer.mCurrentBucketStartTimeNs, min t x.producer.getCurrentBucketEndTimeNs) ∧
        ∀ i < x.producer.fieldCount, b.valueAt i = x.producer.shown (m.pending.map (· w i)))
  | skipped (hskip : ∃ s ∈ y.skipped, SkippedInvalid s) (h : ∀ k, y.past k = x.past k)

/-- What a call at `t` does to a history whose producer refines the meter `m` before the flush. -/
structure Steps (x y : History Int) (K : Finset HashableDimensionKey) (t : Int) (m : Meter) (closes : Bool) : Prop where
  meters : Meters y.producer K (if closes then m.flush else m)
  skipped : ∃ l, y.skipped = x.skipped ++ l
  stays : closes = false → ∀ k, y.past k = x.past k
  closes : closes = true → Emits x y K t m

theorem emits_flush {x y : History Int} {t next : Int} (hm : Weighs q K m)
    (hd : q.toValueMetric.Diffed) (hsame : SameBuckets x.producer q)
    (hpast : y.past = fun k => x.erasedPast k ++ UMap.getD (q.flushCurrentBucketLocked t next).mPastBuckets k [])
    (hskipped : y.skipped = x.erasedSkipped ++ (q.flushCurrentBucketLocked t next).mSkippedBuckets) :
    (∃ l, y.skipped = x.skipped ++ l) ∧ Emits x y K t m := by
  have hc := q.flushCurrentBucketLocked_closing t next hm.drops
  obtain ⟨l, hl, hinvalid⟩ := hc.skipped
  obtain ⟨duration, hkept⟩ := hc.past
  have hs : y.skipped = x.skipped ++ l := by
    rw [hskipped, hl, hsame.skipped]
    unfold History.skipped
    rw [List.append_assoc]
  refine ⟨⟨l, hs⟩, ?_⟩
  have hp : ∀ k, y.past k = x.past k ++ if q.invalidAt t next then [] else q.keptOf (q.closesAt t next) duration k := by
    intro k
    rw [hpast]
    dsimp only
    rw [hkept, hsame.past]
    unfold History.past
    rw [List.append_assoc]
  have hend : q.getCurrentBucketEndTimeNs = x.producer.getCurrentBucketEndTimeNs := by
    unfold getCurrentBucketEndTimeNs
    rw [hsame.metric, hsame.num]
  cases hi : q.invalidAt t next with
  | true =>
    obtain ⟨s, hmem, hs', -⟩ := hinvalid hi
    refine .skipped ⟨s, by rw [hs]; exact List.mem_append_right _ hmem, hs'⟩ fun k => ?_
    rw [hp, hi, if_pos rfl, List.append_nil]
  | false =>
    have hi' := hi
    unfold invalidAt at hi'
    simp only [Bool.or_eq_false_iff, decide_eq_false_iff_not] at hi'
    have hclose : q.closesAt t next = min t x.producer.getCurrentBucketEndTimeNs := by
      unfold closesAt
      rw [if_neg (by rw [hi'.1.2]; exact Bool.false_ne_true), hend]
      split
      · rename_i hlt; exact (min_eq_left (le_of_lt hlt)).symm
      · rename_i hge; exact (min_eq_right (not_lt.1 hge)).symm
    refine .kept (hm.invalid ▸ hi'.1.1.1) (hm.condition ▸ hi'.1.1.2) fun w hw => ?_
    have hshown : ∀ i < x.producer.fieldCount, q.shown (q.pendingAt ⟨w, []⟩ i) = x.producer.shown (m.pending.map (· w i)) := by
      intro i hi
      rw [hm.metered.pending w hw i (by rw [hsame.metric]; exact hi)]
      unfold shown
      rw [hsame.metric]
    have havg : q.mAggregationType ≠ .AVG := by rw [hd.sum]; decide
    rcases keptOf_shown hm.metered.keyed.indexed havg (q.closesAt t next) duration ⟨w, []⟩ with ⟨hnil, hnone⟩ | ⟨b, hb, hint, hval⟩
    · refine .inl ⟨?_, fun i hi => ?_⟩
      · rw [hp, hi, if_neg Bool.false_ne_true, hnil, List.append_nil]
      · rw [← hshown i hi, hnone]
    · refine .inr ⟨b, ?_, ?_, fun i hi => ?_⟩
      · rw [hp, hi, if_neg Bool.false_ne_true, hb]
      · rw [hint, hsame.start, hclose]
      · rw [hval, hshown i hi]

theorem History.step_call (x : History Int) (t : Int) (c : Call Int) :
    (x.step (t, c)).past = (fun k => x.erasedPast k ++ UMap.getD (x.producer.call t c).mPastBuckets k []) ∧
      (x.step (t, c)).skipped = x.erasedSkipped ++ (x.producer.call t c).mSkippedBuckets ∧
      ∃ past skipped, (x.step (t, c)).producer = { x.producer.call t c with mPastBuckets := past, mSkippedBuckets := skipped } := by
  unfold History.step
  dsimp only
  split
  · refine ⟨funext fun k => ?_, ?_, _, _, rfl⟩
    · show _ ++ UMap.getD ∅ k [] = _
      rw [UMap.getD_empty, List.append_nil]
      rfl
    · exact List.append_nil _
  · exact ⟨rfl, rfl, _, _, rfl⟩

theorem Meters.congr (h : Meters p K m) (hm : q.toValueMetric = p.toValueMetric)
    (hb : q.mCurrentBaseInfo = p.mCurrentBaseInfo) (hs : q.mCurrentSlicedBucket = p.mCurrentSlicedBucket)
    (hc : q.mCondition = p.mCondition) (hk : q.mCurrentBucketIsSkipped = p.mCurrentBucketIsSkipped) (hd : q.dropEvents = p.dropEvents)
    (ha : q.mIsActive = p.mIsActive) (hg : q.mHasGlobalBase = p.mHasGlobalBase) : Meters q K m := by
  refine ⟨⟨h.metered.congr hm hb hs, hc.trans h.condition, hk.trans h.invalid, ⟨?_, ?_⟩⟩, ha.trans h.active, hg.trans h.hasBase, ?_⟩
  · rw [hk, hd]; exact h.drops.logged
  · rw [hd]; exact h.drops.reason
  · rw [hm]; exact h.crowded

theorem Meters.unasked {x : History Int} (h : Meters x.producer K m)
    (hasks : c.asks x.producer.toValueMetric = false) : Meters (x.step (t, c)).producer K m ∧ (x.step (t, c)).past = x.past := by
  obtain ⟨hpast, -, past, skipped, hproducer⟩ := x.step_call t c
  rw [call_unasked hasks] at hpast hproducer
  refine ⟨?_, hpast⟩
  rw [hproducer]
  exact h.congr rfl rfl rfl rfl rfl rfl rfl rfl

theorem Meters.steps {x : History Int} (h : Meters x.producer K m) (hd : x.producer.toValueMetric.Diffed)
    (hbase : x.producer.mTimeBaseNs ≤ x.producer.mCurrentBucketStartTimeNs) (ht : x.producer.mCurrentBucketStartTimeNs ≤ t) (hsteady : c.steady = true) (hasks : c.asks x.producer.toValueMetric = true) (hr : Readable x.producer t c K m r) :
    ∃ r', Steps x (x.step (t, c)) K t (m.prepare c.change r') (c.closes x.producer t) ∧
      (r' = r ∨ r' = none ∧ c.closes x.producer t = true) := by
  obtain ⟨hpast, hskipped, past, skipped, hproducer⟩ := x.step_call t c
  obtain ⟨q, r', hq, hr'⟩ := prepared_call h hd hbase ht hsteady hasks hr
  refine ⟨r', ?_, hr'⟩
  generalize m.prepare c.change r' = m' at hq
  -- the producer after the call, up to the stopwatch and the past buckets
  have hafter : ∀ q' : ValueMetricProducer Int, TimerOnly q' (x.producer.call t c) → ∀ {m'' : Meter}, Meters q' K m'' →
      Meters (x.step (t, c)).producer K m'' ∧ (x.producer.call t c).mPastBuckets = q'.mPastBuckets ∧
        (x.producer.call t c).mSkippedBuckets = q'.mSkippedBuckets := by
    intro q' honly m'' hm
    unfold TimerOnly at honly
    refine ⟨?_, congrArg (·.mPastBuckets) honly, congrArg (·.mSkippedBuckets) honly⟩
    rw [hproducer]
    exact hm.congr (congrArg (·.toValueMetric) honly) (congrArg (·.mCurrentBaseInfo) honly) (congrArg (·.mCurrentSlicedBucket) honly)
      (congrArg (·.mCondition) honly) (congrArg (·.mCurrentBucketIsSkipped) honly) (congrArg (·.dropEvents) honly)
      (congrArg (·.mIsActive) honly) (congrArg (·.mHasGlobalBase) honly)
  cases hc : c.closes x.producer t with
  | false =>
    obtain ⟨hm, hp, hs⟩ := hafter q (hq.stays hc) hq.meters
    have hsk : (x.step (t, c)).skipped = x.skipped := by
      rw [hskipped, hs, hq.same.skipped]
      rfl
    refine ⟨hm, ⟨[], by rw [hsk, List.append_nil]⟩, fun _ k => ?_, fun hyes => absurd hyes Bool.false_ne_true⟩
    rw [hpast]
    dsimp only
    rw [hp, hq.same.past]
    rfl
  | true =>
    obtain ⟨next, hnext⟩ := hq.closes hc
    obtain ⟨hm, hp, hs⟩ := hafter _ hnext (hq.meters.flush t next)
    rw [hp] at hpast
    rw [hs] at hskipped
    obtain ⟨hgrows, hemits⟩ := emits_flush hq.meters.toWeighs
      (by rw [hq.same.metric]; exact hd) hq.same hpast hskipped
    exact ⟨hm, hgrows, fun hno => absurd hno.symm Bool.false_ne_true, fun _ => hemits⟩

/-! ## Time -/

/-- The start of the bucket that an event leads to is on the grid, after the time base and not after the
event, whatever the size of the buckets. -/
theorem next_bounds (hbase : p.mTimeBaseNs ≤ t) (hover : ¬ t < p.getCurrentBucketEndTimeNs) :
    p.mTimeBaseNs ≤ p.getCurrentBucketEndTimeNs + (p.calcBucketsForwardCount t - 1) * p.mBucketSizeNs ∧
      p.getCurrentBucketEndTimeNs + (p.calcBucketsForwardCount t - 1) * p.mBucketSizeNs ≤ t := by
  have hforward : p.calcBucketsForwardCount t - 1 = (t - p.getCurrentBucketEndTimeNs).tdiv p.mBucketSizeNs := by
    unfold calcBucketsForwardCount
    rw [if_neg hover]
    omega
  have hE : p.getCurrentBucketEndTimeNs = p.mTimeBaseNs + (p.mCurrentBucketNum + 1) * p.mBucketSizeNs := rfl
  have hnonneg : 0 ≤ t - p.getCurrentBucketEndTimeNs := by omega
  have hdiv := Int.tdiv_mul_add_tmod (t - p.getCurrentBucketEndTimeNs) p.mBucketSizeNs
  have hmod := Int.tmod_nonneg p.mBucketSizeNs hnonneg
  rw [hforward]
  generalize hq : (t - p.getCurrentBucketEndTimeNs).tdiv p.mBucketSizeNs = q at hdiv
  refine ⟨?_, by omega⟩
  have hgrid : p.getCurrentBucketEndTimeNs + q * p.mBucketSizeNs = p.mTimeBaseNs + (p.mCurrentBucketNum + 1 + q) * p.mBucketSizeNs := by
    rw [hE]; ring
  by_contra hlt
  rw [not_le] at hlt
  -- the start would be at least a whole bucket before the time base, and the event with it
  have hne : p.mBucketSizeNs ≠ 0 := by
    intro hzero
    rw [hgrid, hzero, mul_zero, add_zero] at hlt
    exact lt_irrefl _ hlt
  rcases lt_or_gt_of_ne hne with hneg | hpos
  · have hj : 1 ≤ p.mCurrentBucketNum + 1 + q := by
      by_contra hj
      have := mul_nonneg_of_nonpos_of_nonpos (show p.mCurrentBucketNum + 1 + q ≤ 0 by omega) (le_of_lt hneg)
      omega
    have hmul := mul_le_mul_of_nonpos_right hj (le_of_lt hneg)
    have hrem : (t - p.getCurrentBucketEndTimeNs).tmod p.mBucketSizeNs < - p.mBucketSizeNs := by
      rw [← Int.tmod_neg]
      exact Int.tmod_lt_of_pos _ (by omega)
    omega
  · have hj : p.mCurrentBucketNum + 1 + q ≤ -1 := by
      by_contra hj
      have := mul_nonneg (show 0 ≤ p.mCurrentBucketNum + 1 + q by omega) (le_of_lt hpos)
      omega
    have hmul := mul_le_mul_of_nonneg_right hj (le_of_lt hpos)
    have hrem := Int.tmod_lt_of_pos (t - p.getCurrentBucketEndTimeNs) hpos
    omega

theorem Advances.timely (ha : Advances t p q)
    (hbase : p.mTimeBaseNs ≤ p.mCurrentBucketStartTimeNs) (ht : p.mCurrentBucketStartTimeNs ≤ t) :
    q.toValueMetric = p.toValueMetric ∧ q.mTimeBaseNs ≤ q.mCurrentBucketStartTimeNs ∧ q.mCurrentBucketStartTimeNs ≤ t := by
  induction ha with
  | @same p q hsame => exact ⟨hsame.metric, by rw [hsame.metric, hsame.start]; exact hbase, by rw [hsame.start]; exact ht⟩
  | flush p =>
    unfold flushIfNeededLocked
    split
    · exact ⟨rfl, hbase, ht⟩
    · rename_i hover
      obtain ⟨skipped, hf⟩ := p.flushCurrentBucketLocked_spec t
        (p.getCurrentBucketEndTimeNs + (p.calcBucketsForwardCount t - 1) * p.mBucketSizeNs)
      obtain ⟨hlow, hup⟩ := next_bounds (hbase.trans ht) hover
      exact ⟨hf.metric, by rw [hf.metric, hf.start]; exact hlow, by rw [hf.start]; exact hup⟩
  | split p =>
    obtain ⟨skipped, hf⟩ := p.flushCurrentBucketLocked_spec t t
    exact ⟨hf.metric, by rw [hf.metric, hf.start]; exact hbase.trans ht, by rw [hf.start]⟩
  | @trans p p' p'' _ _ ih1 ih2 =>
    obtain ⟨hm1, hb1, ht1⟩ := ih1 hbase ht
    obtain ⟨hm2, hb2, ht2⟩ := ih2 hb1 ht1
    exact ⟨hm2.trans hm1, hb2, ht2⟩

/-- The time of a history. -/
structure History.Timely (metric : ValueMetric) (x : History Int) : Prop where
  constants : x.producer.toValueMetric = metric
  base : metric.mTimeBaseNs ≤ x.producer.mCurrentBucketStartTimeNs
  now : x.producer.mCurrentBucketStartTimeNs ≤ x.now

theorem History.Timely.step {x : History Int} (h : x.Timely metric) {e : Int × Call Int} (hok : x.Ok e) :
    (x.step e).Timely metric := by
  obtain ⟨hm, hb, ht⟩ := (x.producer.advances_call e.1 e.2).timely (by rw [h.constants]; exact h.base) (h.now.trans hok)
  have hnow : (x.step e).now = e.1 := by
    unfold History.step
    dsimp only
    split <;> rfl
  obtain ⟨-, -, past, skipped, hp⟩ := x.step_call e.1 e.2
  rw [show (e.1, e.2) = e from rfl] at hp
  refine ⟨?_, ?_, ?_⟩
  · rw [hp]; exact hm.trans h.constants
  · rw [hp, ← h.constants, ← hm]; exact hb
  · rw [hp, hnow]; exact ht

/-! ## The first bucket -/

/-- The meter of a new producer, with the reading of the first bucket. -/
def firstMeter (initialCondition : ConditionState) (r : Option Values) : Meter :=
  let m : Meter := ⟨initialCondition, none, none, false⟩
  if initialCondition = .kTrue then m.read r else m

/-- A producer that is created and prepares its first bucket. -/
def History.started (metric : ValueMetric) (startTimeNs : Int) (initialCondition : ConditionState) (pull : Pull Int) : History Int :=
  (History.new metric startTimeNs initialCondition true).step (startTimeNs, .prepareFirstBucket pull)

/-- A new producer has no data. -/
structure Fresh (p : ValueMetricProducer Int) (metric : ValueMetric) (K : Finset HashableDimensionKey) (initialCondition : ConditionState)
    (isActive : Bool) : Prop where
  weighs : Weighs p K ⟨initialCondition, none, none, false⟩
  metric : p.toValueMetric = metric
  active : p.mIsActive = isActive
  noBase : p.mHasGlobalBase = false
  past : ∀ k, UMap.getD p.mPastBuckets k [] = []

theorem fresh_new (hstates : metric.unknownStateKey = []) (K : Finset HashableDimensionKey) (startTimeNs : Int)
    (initialCondition : ConditionState) (isActive : Bool) :
    Fresh (new metric startTimeNs initialCondition isActive) metric K initialCondition isActive := by
  let p0 : ValueMetricProducer Int := initial metric initialCondition isActive
  let p1 : ValueMetricProducer Int := { p0 with mCurrentBucketNum := p0.mCurrentBucketNum + p0.calcBucketsForwardCount startTimeNs }
  have hp1 : Weighs p1 K ⟨initialCondition, none, none, false⟩ := by
    refine ⟨⟨⟨⟨fun w => ?_, fun k => ?_⟩, fun k i int hint => ?_, ⟨hstates, fun w b hb => ?_⟩, fun k hk => ?_⟩,
      fun w hw i hi => ?_, fun w hw i hi => ?_⟩, rfl, rfl, ⟨fun h => ?_, fun d hd => ?_⟩⟩
    · simp [p1, p0, initial]
    · simp [p1, p0, initial]
    · simp [p1, p0, initial] at hint
    · simp [p1, p0, initial] at hb
    · simp [p1, p0, initial] at hk
    · simp [baseAt, p1, p0, initial]
    · simp [pendingAt, p1, p0, initial]
    · cases h
    · cases hd
  have hflush : Fresh (p1.flushIfNeededLocked startTimeNs) metric K initialCondition isActive := by
    unfold flushIfNeededLocked
    split
    · exact ⟨hp1, rfl, rfl, rfl, fun k => by simp [p1, p0, initial]⟩
    · generalize p1.getCurrentBucketEndTimeNs + (p1.calcBucketsForwardCount startTimeNs - 1) * p1.mBucketSizeNs = next
      obtain ⟨skipped, hf⟩ := p1.flushCurrentBucketLocked_spec startTimeNs next
      have hc := p1.flushCurrentBucketLocked_closing startTimeNs next hp1.drops
      refine ⟨hp1.flush startTimeNs next, hf.metric, hc.state.2.1, hc.bases.2, fun k => ?_⟩
      obtain ⟨duration, hpast⟩ := hc.past
      rw [hpast]
      simp [p1, p0, initial, keptOf]
  exact ⟨⟨hflush.weighs.metered.congr rfl rfl rfl, hflush.weighs.condition, hflush.weighs.invalid,
    ⟨hflush.weighs.drops.logged, hflush.weighs.drops.reason⟩⟩, hflush.metric, hflush.active, hflush.noBase, hflush.past⟩

theorem History.new_timely (hstates : metric.unknownStateKey = []) {startTimeNs : Int}
    (hstart : metric.mTimeBaseNs ≤ startTimeNs) (initialCondition : ConditionState) (isActive : Bool) :
    (History.new metric startTimeNs initialCondition isActive : History Int).Timely metric :=
  ⟨(fresh_new hstates ∅ startTimeNs initialCondition isActive).metric, hstart, le_refl _⟩

theorem History.started_meters (hd : metric.Diffed) (hstates : metric.unknownStateKey = [])
    {startTimeNs : Int} (hstart : metric.mTimeBaseNs ≤ startTimeNs) {initialCondition : ConditionState} {pull : Pull Int}
    (hr : initialCondition = .kTrue → pull.Gives metric K startTimeNs r) :
    Meters (History.started metric startTimeNs initialCondition pull).producer K (firstMeter initialCondition r) ∧
      (History.started metric startTimeNs initialCondition pull).Timely metric ∧
      ∀ k, (History.started metric startTimeNs initialCondition pull).past k = [] := by
  have hfresh := fresh_new hstates K startTimeNs initialCondition true
  have hmetric := hfresh.metric
  have hm : Meters (ValueMetricProducer.new metric startTimeNs initialCondition true) K ⟨initialCondition, none, none, false⟩ :=
    ⟨hfresh.weighs, hfresh.active, hfresh.noBase, fun _ => ⟨rfl, rfl⟩⟩
  have htimely := History.new_timely hstates hstart initialCondition true
  refine ⟨?_, htimely.step (e := (startTimeNs, .prepareFirstBucket pull)) (le_refl startTimeNs), fun k => ?_⟩
  · show Meters ((ValueMetricProducer.new metric startTimeNs initialCondition true : ValueMetricProducer Int).prepareFirstBucketLocked pull) K _
    unfold prepareFirstBucketLocked firstMeter
    have hpulled : (ValueMetricProducer.new metric startTimeNs initialCondition true : ValueMetricProducer Int).mIsPulled = true := by
      rw [hmetric]; exact hd.pulled
    have hdiff : (ValueMetricProducer.new metric startTimeNs initialCondition true : ValueMetricProducer Int).mUseDiff = true := by
      rw [hmetric]; exact hd.diff
    rw [hm.active, hm.condition, hpulled, hdiff, Bool.true_and, Bool.true_and, Bool.and_true]
    dsimp only
    by_cases htrue : initialCondition = .kTrue
    · rw [if_pos (decide_eq_true htrue), if_pos htrue]
      refine hm.pull (by rw [hmetric]; exact hd) (by rw [hmetric]; exact hr htrue) (by rw [hmetric]; exact hstart) (le_refl _) ?_
      intro v b _ hb
      cases hb
    · rw [if_neg (by simpa using htrue), if_neg htrue]
      exact hm
  · show [] ++ UMap.getD ((ValueMetricProducer.new metric startTimeNs initialCondition true : ValueMetricProducer Int).prepareFirstBucketLocked pull).mPastBuckets k [] = []
    have hsame : SameBuckets (ValueMetricProducer.new metric startTimeNs initialCondition true : ValueMetricProducer Int)
        ((ValueMetricProducer.new metric startTimeNs initialCondition true : ValueMetricProducer Int).prepareFirstBucketLocked pull) := by
      unfold prepareFirstBucketLocked
      split
      · rename_i h
        simp only [Bool.and_eq_true] at h
        exact (offClock_pullAndMatchEventsLocked _ h.1.1.2 pull _).toSameBuckets
      · exact .refl _
    rw [hsame.past, hfresh.past]
    rfl

end

end ValueMetricProducer

end Statsd.Metrics
