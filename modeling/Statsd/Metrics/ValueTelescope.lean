/-
The values of a pulled metric telescope. While the condition is true the producer takes diffs from pull to
pull, across bucket ends and splits, and drops its base when the condition becomes false. So what it
reported and what is pending add up to the differences between the first and the last pull of each
stretch of time in which the condition was true.
-/
import Statsd.Base.Run
import Statsd.Metrics.MeterRefinement

namespace Statsd.Metrics

/-! ## Segments -/

/-- The stretches of time in which the condition is true: the values of the first and the last pull of the
open one, and the sum of the differences over those that are over. -/
structure Segments where
  condition : Bool
  opened : Option (Values × Values)
  total : Values

namespace Segments

/-- The sum over all segments of the value at the last pull less the value at the first. -/
def sum (s : Segments) (w : HashableDimensionKey) (i : Nat) : Int :=
  s.total w i + s.opened.elim 0 fun o => o.2 w i - o.1 w i

/-- A pull opens a segment, or is the last one of the open one. -/
def pulled (s : Segments) (v : Values) : Segments := { s with opened := some (s.opened.elim v (·.1), v) }

def close (s : Segments) : Segments := { s with opened := none, total := s.sum }

/-- Whether a call pulls: the condition is true, or becomes true. -/
def measures (s : Segments) (change : Option Bool) : Bool := s.condition || decide (change = some true)

/-- A call with the change of the condition if there is one, and the values of its pull. -/
def step (s : Segments) (change : Option Bool) (v : Values) : Segments :=
  let s := if s.measures change then s.pulled v else s
  match change with
  | none => s
  | some true => { s with condition := true }
  | some false => { s.close with condition := false }

end Segments

namespace ValueMetricProducer

/-- What was reported for a field of a key. -/
def History.reported (x : History Int) (w : HashableDimensionKey) (i : Nat) : Int :=
  ((x.past ⟨w, []⟩).map fun b => (b.valueAt i).getD 0).sum

/-- A producer and the segments of its condition. -/
structure Measured where
  history : History Int
  segments : Segments

namespace Measured

/-- A call at a time, with the values of its pull if it makes one. -/
def step (x : Measured) (e : Int × Call Int × Values) : Measured where
  history := x.history.step (e.1, e.2.1)
  segments := if e.2.1.asks x.history.producer.toValueMetric then x.segments.step e.2.1.change e.2.2 else x.segments

/-- Time does not go back, and a pull that is made succeeds in time, returns every key, and its values are
not below those of the last pull of the segment. -/
structure Ok (K : Finset HashableDimensionKey) (x : Measured) (e : Int × Call Int × Values) : Prop where
  time : x.history.now ≤ e.1
  steady : e.2.1.steady = true
  gives : e.2.1.asks x.history.producer.toValueMetric = true → x.segments.measures e.2.1.change = true →
    e.2.1.Gives x.history.producer.toValueMetric K e.1 (some e.2.2)
  increasing : e.2.1.asks x.history.producer.toValueMetric = true → x.segments.measures e.2.1.change = true →
    ∀ o, x.segments.opened = some o → ∀ w ∈ K, ∀ i < x.history.producer.fieldCount, o.2 w i ≤ e.2.2 w i

/-- A producer at its start: the pull of the first bucket opens a segment when the condition is true. -/
def started (metric : ValueMetric) (startTimeNs : Int) (initialCondition : ConditionState) (pull : Pull Int) (v : Values) : Measured where
  history := .started metric startTimeNs initialCondition pull
  segments := ⟨decide (initialCondition = .kTrue), if initialCondition = .kTrue then some (v, v) else none, fun _ _ => 0⟩

end Measured

/-! ## The meter measures the segments -/

/-- The meter is in the open segment, with the values of its last pull as base. -/
structure InSegment (m : Meter) (s : Segments) : Prop where
  condition : m.condition = .ofBool s.condition
  base : m.base = s.opened.map (·.2)
  closed : s.condition = false → s.opened = none
  valid : m.invalid = false

/-- What is pending for a field of a key. -/
def pendingSum (pending : Option Values) (w : HashableDimensionKey) (i : Nat) : Int := pending.elim 0 (· w i)

theorem pendingSum_pendAdd (base pending : Option Values) (v : Values) (w : HashableDimensionKey) (i : Nat) :
    pendingSum (pendAdd base pending v) w i = pendingSum pending w i + base.elim 0 fun b => v w i - b w i := by
  unfold pendAdd pendingSum
  cases base with
  | none => simp
  | some b => rfl

theorem InSegment.measures {m : Meter} {s : Segments} (h : InSegment m s) (change : Option Bool) :
    m.measures change = s.measures change := by
  unfold Meter.measures Segments.measures
  rw [h.condition]
  cases s.condition <;> rfl

theorem sum_pulled {m : Meter} {s : Segments} (hbase : m.base = s.opened.map (·.2)) (v : Values) (w : HashableDimensionKey) (i : Nat) :
    pendingSum (m.read (some v)).pending w i - pendingSum m.pending w i = (s.pulled v).sum w i - s.sum w i := by
  unfold Meter.read Segments.pulled Segments.sum
  dsimp only
  rw [pendingSum_pendAdd, hbase]
  cases s.opened with
  | none => simp
  | some o => simp

theorem sum_close (s : Segments) : s.close.sum = s.sum := by
  funext w i
  unfold Segments.close Segments.sum
  simp

theorem InSegment.prepare {m : Meter} {s : Segments} (h : InSegment m s) (change : Option Bool) (v : Values) :
    InSegment (m.prepare change (some v)) (s.step change v) ∧
      ∀ w i, pendingSum (m.prepare change (some v)).pending w i - pendingSum m.pending w i = (s.step change v).sum w i - s.sum w i := by
  have hknown : m.condition ≠ .kUnknown := by
    rw [h.condition]
    cases s.condition <;> exact ConditionState.noConfusion
  have hmeasures := h.measures change
  unfold Meter.prepare Segments.step
  rw [if_neg (by simp [hknown])]
  dsimp only
  rw [hmeasures]
  cases hm : s.measures change with
  | false =>
    -- no pull: the condition is false, and stays so
    have hf : s.condition = false := by
      unfold Segments.measures at hm
      exact (Bool.or_eq_false_iff.1 hm).1
    have hcond : m.condition = .kFalse := by rw [h.condition, hf]; rfl
    have hnone : s.opened = none := h.closed hf
    rw [if_neg Bool.false_ne_true, if_neg Bool.false_ne_true, if_neg (by simp [hcond])]
    cases change with
    | none => exact ⟨⟨h.condition, h.base, h.closed, h.valid⟩, fun w i => by ring⟩
    | some c =>
      cases c with
      | true => simp [Segments.measures] at hm
      | false =>
        refine ⟨⟨rfl, ?_, fun _ => rfl, h.valid⟩, fun w i => ?_⟩
        · rw [h.base, hnone]
          rfl
        · show _ = s.close.sum w i - s.sum w i
          rw [sum_close]
          ring
  | true =>
    rw [if_pos rfl, if_pos rfl]
    have hcond : (m.read (some v)).condition = .ofBool s.condition := h.condition
    cases change with
    | none =>
      have ht : s.condition = true := by simpa [Segments.measures] using hm
      rw [if_neg (by simp)]
      refine ⟨⟨h.condition, rfl, fun hf => ?_, h.valid⟩, sum_pulled h.base v⟩
      rw [show (s.pulled v).condition = s.condition from rfl, ht] at hf
      cases hf
    | some c =>
      cases c with
      | true =>
        rw [if_neg (by simp)]
        exact ⟨⟨rfl, rfl, fun hf => (Bool.noConfusion hf), h.valid⟩, sum_pulled h.base v⟩
      | false =>
        have ht : s.condition = true := by simpa [Segments.measures] using hm
        rw [if_pos (by rw [hcond, ht]; rfl)]
        refine ⟨⟨rfl, rfl, fun _ => rfl, h.valid⟩, fun w i => ?_⟩
        show _ = (s.pulled v).close.sum w i - s.sum w i
        rw [sum_close]
        exact sum_pulled h.base v w i

/-! ## Histories -/

theorem shown_getD (p : ValueMetricProducer Int) (x : Option Int) : (p.shown x).getD 0 = x.getD 0 := by
  unfold shown
  cases x with
  | none => rfl
  | some v =>
    rw [Option.filter_some]
    split
    · rfl
    · rename_i hz
      have hzero : MetricValue.isZero v = true := by
        simp only [Bool.not_eq_true, Bool.not_eq_false', Bool.and_eq_true] at hz
        exact hz.2
      have hv : v = 0 := by simpa [MetricValue.isZero] using hzero
      exact hv.symm

theorem Emits.reported {x y : History Int} {K : Finset HashableDimensionKey} {t : Int} {m : Meter} (h : Emits x y K t m) :
    (∃ s ∈ y.skipped, SkippedInvalid s) ∨ m.invalid = false ∧
      ∀ w ∈ K, ∀ i < x.producer.fieldCount, y.reported w i = x.reported w i + pendingSum m.pending w i := by
  cases h with
  | skipped hskip h => exact .inl hskip
  | kept hvalid hknown h =>
    refine .inr ⟨hvalid, fun w hw i hi => ?_⟩
    have hpending : pendingSum m.pending w i = (m.pending.map (· w i)).getD 0 := by
      unfold pendingSum
      cases m.pending with
      | none => rfl
      | some v => rfl
    unfold History.reported
    rcases h w hw with ⟨hsame, hnone⟩ | ⟨b, hb, -, hval⟩
    · have hzero := shown_getD x.producer (m.pending.map (· w i))
      rw [hnone i hi] at hzero
      rw [hsame, hpending, ← hzero]
      simp
    · rw [hb, hpending, List.map_append, List.sum_append, List.map_singleton, List.sum_singleton, hval i hi, shown_getD]

namespace Measured

/-- The invariant of a run: unless a bucket was skipped as invalid, what was reported and what is pending
add up to the segments. -/
structure Inv (metric : ValueMetric) (K : Finset HashableDimensionKey) (x : Measured) : Prop where
  timely : x.history.Timely metric
  sum : (∃ s ∈ x.history.skipped, SkippedInvalid s) ∨ ∃ m, Meters x.history.producer K m ∧ InSegment m x.segments ∧
    ∀ w ∈ K, ∀ i < metric.fieldCount, x.history.reported w i + pendingSum m.pending w i = x.segments.sum w i

theorem Inv.step {metric : ValueMetric} (hd : metric.Diffed) {K : Finset HashableDimensionKey} {x : Measured}
    {e : Int × Call Int × Values} (hok : x.Ok K e) (h : x.Inv metric K) : (x.step e).Inv metric K := by
  obtain ⟨t, c, v⟩ := e
  refine ⟨h.timely.step (e := (t, c)) hok.time, ?_⟩
  rcases h.sum with ⟨s, hs, hinvalid⟩ | ⟨m, hm, hseg, hsum⟩
  · exact .inl ⟨s, History.mem_skipped_step (t, c) hs, hinvalid⟩
  have hmetric := h.timely.constants
  cases hasks : c.asks x.history.producer.toValueMetric with
  | false =>
    obtain ⟨hm', hpast⟩ := hm.unasked (t := t) hasks
    have hsegments : (x.step (t, c, v)).segments = x.segments := if_neg (by rw [hasks]; exact Bool.false_ne_true)
    rw [hsegments]
    refine .inr ⟨m, hm', hseg, fun w hw i hi => ?_⟩
    rw [← hsum w hw i hi]
    show ((x.history.step (t, c)).reported w i) + _ = _
    unfold History.reported
    rw [hpast]
  | true =>
    have hread : Readable x.history.producer t c K m (some v) := by
      intro hmeasures
      rw [hseg.measures] at hmeasures
      refine ⟨hok.gives hasks hmeasures, fun v' b hv' hb => ?_⟩
      cases hv'
      rw [hseg.base] at hb
      obtain ⟨o, ho, rfl⟩ := Option.map_eq_some_iff.1 hb
      exact hok.increasing hasks hmeasures o ho
    obtain ⟨r', hsteps, hr'⟩ := hm.steps (by rw [hmetric]; exact hd) (by rw [hmetric]; exact h.timely.base) (h.timely.now.trans hok.time)
      hok.steady hasks hread
    obtain ⟨hseg', hpend⟩ := hseg.prepare c.change v
    have hstep : x.step (t, c, v) = ⟨x.history.step (t, c), x.segments.step c.change v⟩ := by
      unfold Measured.step
      dsimp only
      rw [if_pos hasks]
    rw [hstep]
    dsimp only at hsteps hr' ⊢
    cases hc : c.closes x.history.producer t with
    | false =>
      -- the bucket stays open
      obtain rfl : r' = some v := hr'.elim id fun hno => absurd (hno.2.symm.trans hc) Bool.false_ne_true.symm
      rw [hc] at hsteps
      refine .inr ⟨_, hsteps.meters, hseg', fun w hw i hi => ?_⟩
      have hrep : (x.history.step (t, c)).reported w i = x.history.reported w i := by
        unfold History.reported
        rw [hsteps.stays rfl]
      have h1 := hsum w hw i hi
      have h2 := hpend w i
      rw [hrep, if_neg Bool.false_ne_true]
      omega
    | true =>
      rw [hc] at hsteps
      rcases (hsteps.closes rfl).reported with hskip | ⟨hvalid, hrep⟩
      · exact .inl hskip
      · -- what was pending is reported
        have hprep : m.prepare c.change r' = m.prepare c.change (some v) := by
          rcases hr' with rfl | ⟨rfl, -⟩
          · rfl
          · exact Meter.prepare_lost hvalid _
        rw [hprep] at hsteps hrep
        refine .inr ⟨_, hsteps.meters, ⟨hseg'.condition, hseg'.base, hseg'.closed, rfl⟩, fun w hw i hi => ?_⟩
        have h1 := hsum w hw i hi
        have h2 := hpend w i
        rw [hrep w hw i (by rw [hmetric]; exact hi)]
        show _ + 0 = _
        omega

theorem inv_started {metric : ValueMetric} (hd : metric.Diffed) (hstates : metric.unknownStateKey = []) {K : Finset HashableDimensionKey}
    (hlimit : K.card < metric.mDimensionHardLimit) {startTimeNs : Int} (hstart : metric.mTimeBaseNs ≤ startTimeNs)
    {initialCondition : ConditionState} (hknown : initialCondition = .kTrue ∨ initialCondition = .kFalse) {pull : Pull Int} {v : Values}
    (hfirst : initialCondition = .kTrue → pull.Returns metric K startTimeNs v) :
    (started metric startTimeNs initialCondition pull v).Inv metric K := by
  obtain ⟨hm, htimely, hpast⟩ := History.started_meters (K := K) (r := some v) hd hstates hstart fun htrue => .returns (hfirst htrue) hlimit
  have hreported : ∀ w i, (started metric startTimeNs initialCondition pull v).history.reported w i = 0 := by
    intro w i
    show ((History.past (.started metric startTimeNs initialCondition pull) ⟨w, []⟩).map _).sum = 0
    rw [hpast]
    rfl
  refine ⟨htimely, .inr ⟨_, hm, ?_, fun w hw i hi => ?_⟩⟩
  · rcases hknown with rfl | rfl
    · exact ⟨rfl, rfl, fun hf => Bool.noConfusion hf, rfl⟩
    · exact ⟨rfl, rfl, fun _ => rfl, rfl⟩
  · rw [hreported]
    rcases hknown with rfl | rfl
    · show 0 + pendingSum (pendAdd none none v) w i = 0 + (v w i - v w i)
      simp [pendAdd, pendingSum]
    · rfl

end Measured

/-- Pulled diffs telescope: for a metric that sums diffs without states, with a known initial condition and
fewer keys than the guardrail, and any run of calls whose pulls succeed in time and return every key with
values that do not decrease, what was reported for a key and what is pending for it add up, when no bucket
was skipped as invalid, to the sum over the condition's true segments of the value at the last pull less
the value at the first. -/
theorem values_telescope (metric : ValueMetric) (hd : metric.Diffed) (hstates : metric.unknownStateKey = [])
    (K : Finset HashableDimensionKey) (hlimit : K.card < metric.mDimensionHardLimit) (startTimeNs : Int)
    (hstart : metric.mTimeBaseNs ≤ startTimeNs) (initialCondition : ConditionState)
    (hknown : initialCondition = .kTrue ∨ initialCondition = .kFalse) (pull : Pull Int) (v : Values)
    (hfirst : initialCondition = .kTrue → pull.Returns metric K startTimeNs v) (es : List (Int × Call Int × Values))
    (hrun : RunOk Measured.step (Measured.Ok K) (.started metric startTimeNs initialCondition pull v) es) :
    let x : Measured := es.foldl Measured.step (.started metric startTimeNs initialCondition pull v)
    (∀ s ∈ x.history.skipped, ¬ SkippedInvalid s) → ∀ w ∈ K, ∀ i < metric.fieldCount,
      x.history.reported w i + (x.history.producer.pendingAt ⟨w, []⟩ i).getD 0 = x.segments.sum w i := by
  intro x hvalid w hw i hi
  have hinv : x.Inv metric K :=
    hrun.inv (fun x e hok h => h.step hd hok) (Measured.inv_started hd hstates hlimit hstart hknown hfirst)
  rcases hinv.sum with ⟨s, hs, hinvalid⟩ | ⟨m, hm, -, hsum⟩
  · exact absurd hinvalid (hvalid s hs)
  · rw [← hsum w hw i hi, hm.metered.pending w hw i (by rw [hinv.timely.constants]; exact hi)]
    unfold pendingSum
    cases m.pending with
    | none => rfl
    | some x => rfl

/-- A pulled metric that sums increasing diffs, for the cases below. -/
def pulledMetric (sizeNs : Int) : ValueMetric := { pushedMetric sizeNs with mIsPulled := true, mUseDiff := true }

/-- A pull in time of one key with one value. -/
def pullOf (t x : Int) : Pull Int := ⟨true, t, [⟨t, ⟨[], []⟩, true, ∅, [some x]⟩]⟩

theorem pullOf_returns (sizeNs t x : Int) : (pullOf t x).Returns (pulledMetric sizeNs) {[]} t fun _ _ => x := by
  refine ⟨rfl, ?_, by simp [pullOf], fun w => by simp [pullOf], fun ev hev => ?_⟩
  · simp [pullOf, pulledMetric, pushedMetric]
  · simp only [pullOf, List.mem_singleton] at hev
    subst hev
    exact ⟨rfl, rfl, rfl⟩

instance (s : SkippedBucket) : Decidable (SkippedInvalid s) := inferInstanceAs (Decidable (∃ d ∈ s.dropEvents, d.reason ≠ .NO_DATA))

/-- A bucket end and a condition that becomes false: seven are reported and two are pending of the nine
between the first pull and the last. -/
theorem values_telescope_bucket_end :
    let es : List (Int × Call Int × Values) :=
      [(60, .dataPulled (pullOf 60 10), fun _ _ => 10), (70, .conditionChanged false (pullOf 70 12), fun _ _ => 12)]
    let x : Measured := es.foldl Measured.step (.started (pulledMetric 60) 5 .kTrue (pullOf 5 3) fun _ _ => 3)
    (x.history.reported [] 0 = 7 ∧ x.segments.sum [] 0 = 9) ∧
      x.history.reported [] 0 + (x.history.producer.pendingAt ⟨[], []⟩ 0).getD 0 = x.segments.sum [] 0 := by
  intro es x
  refine ⟨by decide +kernel, ?_⟩
  refine values_telescope (pulledMetric 60) ⟨rfl, rfl, rfl, .inl rfl⟩ rfl {[]} (by decide) 5 (by decide) .kTrue (.inl rfl) (pullOf 5 3)
    (fun _ _ => 3) (fun _ => pullOf_returns 60 5 3) es ⟨?_, ?_, trivial⟩ (by decide +kernel) [] (by decide) 0 (by decide)
  · refine ⟨by decide +kernel, rfl, fun _ _ => .returns (pullOf_returns 60 60 10) (by decide), fun _ _ o ho w _ i _ => ?_⟩
    cases ho
    exact (by decide : (3 : Int) ≤ 10)
  · refine ⟨by decide +kernel, rfl, fun _ _ => ?_, fun _ _ o ho w _ i _ => ?_⟩
    · exact .returns (pullOf_returns 60 70 12) (by decide +kernel)
    · cases ho
      exact (by decide : (10 : Int) ≤ 12)

end ValueMetricProducer

end Statsd.Metrics
