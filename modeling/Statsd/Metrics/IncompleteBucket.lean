/-
Failed pulls and the buckets they reach. A pull that fails or comes too late invalidates the current bucket
and drops the base. When the same call closes that bucket, the next one starts without a base although the
condition is true, and it is not invalid: a later pull inside it sets a base, and what the counters gained
before that pull is missing from the report. In every run where no pull finds a base in such a bucket, each
reported value is what the counter gained over the condition's true time in its bucket.
-/
import Statsd.Base.Run
import Statsd.Metrics.ValueTelescope

namespace Statsd.Metrics

/-! ## What the counters gain -/

/-- A closed bucket with what the counters gained in it while the condition was true. -/
structure Gained where
  start : Int
  stop : Int
  gain : Values

/-- The counters at the last call, what they gained in the current bucket, and the closed buckets. A bucket
is incomplete when it starts without a base while the condition is true. -/
structure Watch where
  condition : Bool
  counter : Values
  gain : Values
  incomplete : Bool
  closed : List Gained

/-- A call that finds the counters at `v`, up to the end of the bucket if it closes one. -/
def Watch.see (o : Watch) (change : Option Bool) (v : Values) : Watch :=
  { o with
    condition := change.getD o.condition
    counter := v
    gain := if o.condition then fun w i => o.gain w i + (v w i - o.counter w i) else o.gain }

def Watch.close (o : Watch) (start stop : Int) (incomplete : Bool) : Watch :=
  { o with gain := fun _ _ => 0, incomplete := incomplete, closed := o.closed ++ [⟨start, stop, o.gain⟩] }

namespace ValueMetricProducer

/-- A producer and what the counters gain. -/
structure Watched where
  history : History Int
  watch : Watch

namespace Watched

/-- The current bucket of a producer starts without a base while the condition is true. -/
def startsIncomplete (p : ValueMetricProducer Int) : Bool := decide (p.mCondition = .kTrue) && !p.mHasGlobalBase

/-- A call at a time, which finds the counters at some values. -/
def step (x : Watched) (e : Int × Call Int × Values) : Watched :=
  let p := x.history.producer
  let y := x.history.step (e.1, e.2.1)
  if e.2.1.asks p.toValueMetric then
    let watch := x.watch.see e.2.1.change e.2.2
    if e.2.1.closes p e.1 then
      ⟨y, watch.close p.mCurrentBucketStartTimeNs (min e.1 p.getCurrentBucketEndTimeNs) (startsIncomplete y.producer)⟩
    else ⟨y, watch⟩
  else ⟨y, x.watch⟩

/-- Whether a call pulls. -/
def pulls (x : Watched) (c : Call Int) : Bool :=
  c.asks x.history.producer.toValueMetric && (x.watch.condition || decide (c.change = some true))

/-- Time does not go back, the counters do not go down, and a pull gives the counters of all keys, or
nothing. -/
structure Ok (K : Finset HashableDimensionKey) (x : Watched) (e : Int × Call Int × Values) : Prop where
  time : x.history.now ≤ e.1
  steady : e.2.1.steady = true
  gives : x.pulls e.2.1 = true → e.2.1.Gives x.history.producer.toValueMetric K e.1 (some e.2.2) ∨
    e.2.1.Gives x.history.producer.toValueMetric K e.1 none
  increasing : ∀ w ∈ K, ∀ i < x.history.producer.fieldCount, x.watch.counter w i ≤ e.2.2 w i

/-- No successful pull finds a base in a bucket that started without one while the condition was true. -/
def NoLateBase (K : Finset HashableDimensionKey) (x : Watched) (e : Int × Call Int × Values) : Prop :=
  x.watch.incomplete = true → x.history.producer.mCurrentBucketIsSkipped = false → x.pulls e.2.1 = true →
    e.2.1.Gives x.history.producer.toValueMetric K e.1 (some e.2.2) → x.history.producer.mHasGlobalBase = false

/-- A producer at its start, with the pull of the first bucket. -/
def started (metric : ValueMetric) (startTimeNs : Int) (initialCondition : ConditionState) (pull : Pull Int) (v : Values) : Watched where
  history := .started metric startTimeNs initialCondition pull
  watch := ⟨decide (initialCondition = .kTrue), v, fun _ _ => 0, false, []⟩

end Watched

/-! ## The meter and the gains -/

/-- What is pending is the gain, unless the bucket is invalid or reports nothing. -/
structure Tracks (m : Meter) (o : Watch) : Prop where
  condition : decide (m.condition = .kTrue) = o.condition
  base : m.base = none ∨ m.base = some o.counter
  idle : o.condition = false → m.base = none
  gain : m.invalid = true ∨ m.condition = .kUnknown ∨ (o.incomplete = true ∧ m.pending = none) ∨
    (∀ w i, pendingSum m.pending w i = o.gain w i) ∧ (o.condition = true → m.base ≠ none)

theorem Tracks.prepare_unknown {m : Meter} {o : Watch} (h : Tracks m o) (hunknown : m.condition = .kUnknown) (change : Option Bool)
    (v : Values) {r : Option Values} (hr : r = some v ∨ r = none) : Tracks (m.prepare change r) (o.see change v) := by
  have hoff : o.condition = false := by rw [← h.condition, hunknown]; rfl
  have hbase := h.idle hoff
  cases change with
  | none =>
    have hsame : m.prepare none r = m := by
      unfold Meter.prepare Meter.measures
      simp [hunknown]
      rw [← hunknown]
    rw [hsame]
    exact ⟨h.condition, .inl hbase, fun _ => hbase, .inr (.inl hunknown)⟩
  | some c =>
    have hprep : m.prepare (some c) r = { if c then m.invalidate.read r else m.invalidate with condition := .ofBool c } := by
      unfold Meter.prepare Meter.measures Meter.invalidate
      have hcond : ∀ m' : Meter, m'.condition = .kUnknown → (m'.read r).condition = .kUnknown := by
        intro m' hm'
        cases r <;> exact hm'
      cases c with
      | false => simp [hunknown]
      | true => simp [hunknown, hcond]
    have hinvalid : (m.prepare (some c) r).invalid = true := by
      rw [hprep]
      cases c with
      | false => rfl
      | true => cases r <;> rfl
    refine ⟨?_, ?_, fun hf => ?_, .inl hinvalid⟩
    · rw [hprep]
      cases c <;> rfl
    · rw [hprep]
      cases c with
      | false => exact .inl rfl
      | true =>
        rcases hr with rfl | rfl
        · exact .inr rfl
        · exact .inl rfl
    · have hc : c = false := hf
      rw [hprep, hc]
      rfl

theorem Tracks.prepare {m : Meter} {o : Watch} (h : Tracks m o) (change : Option Bool) (v : Values) {r : Option Values}
    (hr : r = some v ∨ r = none)
    (hlate : r = some v → o.incomplete = true → m.invalid = false → m.measures change = true → m.base = none) :
    Tracks (m.prepare change r) (o.see change v) := by
  by_cases hunknown : m.condition = .kUnknown
  · exact h.prepare_unknown hunknown change v hr
  have hmeasures : m.measures change = (o.condition || decide (change = some true)) := by
    unfold Meter.measures
    rw [h.condition]
  have hcondition : decide ((change.map ConditionState.ofBool).getD m.condition = .kTrue) = change.getD o.condition := by
    cases change with
    | none => exact h.condition
    | some c => cases c <;> rfl
  cases hm : m.measures change with
  | false =>
    rw [hm] at hmeasures
    obtain ⟨hoff, hchange⟩ := Bool.or_eq_false_iff.1 hmeasures.symm
    have hbase := h.idle hoff
    rw [Meter.prepare_idle hunknown hm]
    refine ⟨hcondition, .inl hbase, fun _ => hbase, ?_⟩
    rcases h.gain with hinv | hunk | hinc | ⟨hgain, -⟩
    · exact .inl hinv
    · exact absurd hunk hunknown
    · exact .inr (.inr (.inl hinc))
    · refine .inr (.inr (.inr ⟨fun w i => ?_, fun hon => ?_⟩))
      · unfold Watch.see
        rw [hoff]
        exact hgain w i
      · have hon : change.getD o.condition = true := hon
        rw [hoff] at hon
        cases change with
        | none => cases hon
        | some c =>
          rw [show c = true from hon] at hchange
          simp at hchange
  | true =>
    rw [hm] at hmeasures
    rcases hr with rfl | rfl
    · rw [Meter.prepare_read hunknown hm]
      refine ⟨hcondition, ?_, fun hoff => ?_, ?_⟩
      · dsimp only
        split
        · exact .inl rfl
        · exact .inr rfl
      · -- the condition is false after a reading when it becomes false
        have hoff : change.getD o.condition = false := hoff
        refine if_pos ?_
        cases change with
        | none =>
          rw [show o.condition = false from hoff] at hmeasures
          simp at hmeasures
        | some c => rw [show c = false from hoff]
      · rcases h.gain with hinv | hunk | ⟨hinc, hpending⟩ | ⟨hgain, hbase⟩
        · exact .inl hinv
        · exact absurd hunk hunknown
        · -- no base is found in an incomplete bucket, so nothing is added
          cases hinv : m.invalid with
          | true => exact .inl rfl
          | false =>
            refine .inr (.inr (.inl ⟨hinc, ?_⟩))
            dsimp only
            rw [hlate rfl hinc hinv hm, hpending]
            rfl
        · refine .inr (.inr (.inr ⟨fun w i => ?_, fun hon => ?_⟩))
          · dsimp only
            rw [pendingSum_pendAdd, hgain]
            unfold Watch.see
            cases hc : o.condition with
            | false =>
              rw [h.idle hc]
              simp
            | true =>
              obtain hb := h.base.resolve_left (hbase hc)
              rw [hb]
              rfl
          · have hon : change.getD o.condition = true := hon
            have hne : change ≠ some false := by
              rintro rfl
              cases hon
            dsimp only
            rw [if_neg hne]
            exact Option.some_ne_none v
    · rw [Meter.prepare_missed hunknown hm]
      exact ⟨hcondition, .inl rfl, fun _ => rfl, .inl rfl⟩

theorem Tracks.flush {m : Meter} {o : Watch} (h : Tracks m o) (start stop : Int) :
    Tracks m.flush (o.close start stop (decide (m.condition = .kTrue) && !m.base.isSome)) := by
  refine ⟨h.condition, h.base, h.idle, ?_⟩
  cases hinc : decide (m.condition = .kTrue) && !m.base.isSome with
  | true => exact .inr (.inr (.inl ⟨rfl, rfl⟩))
  | false =>
    refine .inr (.inr (.inr ⟨fun w i => rfl, fun hon hbase => ?_⟩))
    have hon : o.condition = true := hon
    have hbase : m.base = none := hbase
    rw [h.condition, hon, hbase] at hinc
    cases hinc

/-! ## Runs -/

namespace Watched

/-- The buckets of a key that were reported are closed ones, in order, with the values they gained. -/
def Reports (x : Watched) (w : HashableDimensionKey) (n : Nat) : Prop :=
  ∃ gs, gs.Sublist x.watch.closed ∧ List.Forall₂ (fun b g => b.interval = (g.start, g.stop) ∧
    ∀ i < n, ∀ value, b.valueAt i = some value → value = g.gain w i) (x.history.past ⟨w, []⟩) gs

structure Inv (metric : ValueMetric) (K : Finset HashableDimensionKey) (x : Watched) : Prop where
  timely : x.history.Timely metric
  tracks : ∃ m, Meters x.history.producer K m ∧ Tracks m x.watch
  reports : ∀ w ∈ K, x.Reports w metric.fieldCount

theorem Tracks.value_eq {m : Meter} {o : Watch} (h : Tracks m o) (hvalid : m.invalid = false) (hknown : m.condition ≠ .kUnknown)
    {p : ValueMetricProducer Int} {w : HashableDimensionKey} {i : Nat} {value : Int}
    (hshown : p.shown (m.pending.map (· w i)) = some value) : value = o.gain w i := by
  have hpending : m.pending.map (· w i) = some value := (Option.filter_eq_some_iff.1 hshown).1
  rcases h.gain with hinv | hunk | ⟨-, hnone⟩ | ⟨hgain, -⟩
  · exact absurd (hinv.symm.trans hvalid) Bool.false_ne_true.symm
  · exact absurd hunk hknown
  · rw [hnone] at hpending
    cases hpending
  · rw [← hgain]
    obtain ⟨pending, hp, hv⟩ := Option.map_eq_some_iff.1 hpending
    rw [hp, ← hv]
    rfl

variable {K : Finset HashableDimensionKey}

theorem Reports.close {x : Watched} {y : History Int} {t : Int} {m : Meter} {o : Watch}
    (htracks : Tracks m o) (hclosed : o.closed = x.watch.closed) (hemits : Emits x.history y K t m) {w : HashableDimensionKey} (hw : w ∈ K)
    (h : x.Reports w x.history.producer.fieldCount) (incomplete : Bool) :
    Reports ⟨y, o.close x.history.producer.mCurrentBucketStartTimeNs (min t x.history.producer.getCurrentBucketEndTimeNs) incomplete⟩ w
      x.history.producer.fieldCount := by
  obtain ⟨gs, hsub, hall⟩ := h
  unfold Reports Watch.close
  dsimp only
  rw [hclosed]
  have hmissing : y.past ⟨w, []⟩ = x.history.past ⟨w, []⟩ → ∃ gs', gs'.Sublist (x.watch.closed ++
      [⟨x.history.producer.mCurrentBucketStartTimeNs, min t x.history.producer.getCurrentBucketEndTimeNs, o.gain⟩]) ∧
      List.Forall₂ (fun b g => b.interval = (g.start, g.stop) ∧ ∀ i < x.history.producer.fieldCount, ∀ value,
        b.valueAt i = some value → value = g.gain w i) (y.past ⟨w, []⟩) gs' := by
    intro hsame
    rw [hsame]
    exact ⟨gs, hsub.trans (List.sublist_append_left _ _), hall⟩
  cases hemits with
  | skipped _ hpast => exact hmissing (hpast _)
  | kept hvalid hknown hkept =>
    rcases hkept w hw with ⟨hpast, -⟩ | ⟨b, hpast, hint, hval⟩
    · exact hmissing hpast
    · rw [hpast]
      refine ⟨gs ++ [_], hsub.append (List.Sublist.refl _), List.rel_append hall (.cons ⟨hint, fun i hi value hv => ?_⟩ .nil)⟩
      rw [hval i hi] at hv
      exact Tracks.value_eq htracks hvalid hknown hv

theorem Inv.step {metric : ValueMetric} (hd : metric.Diffed) {x : Watched}
    {e : Int × Call Int × Values} (hok : x.Ok K e) (hlate : x.NoLateBase K e) (h : x.Inv metric K) : (x.step e).Inv metric K := by
  obtain ⟨t, c, v⟩ := e
  have hmetric := h.timely.constants
  have htimely := h.timely.step (e := (t, c)) hok.time
  obtain ⟨m, hm, htracks⟩ := h.tracks
  cases hasks : c.asks x.history.producer.toValueMetric with
  | false =>
    have hstep : x.step (t, c, v) = ⟨x.history.step (t, c), x.watch⟩ := by
      unfold Watched.step
      dsimp only
      rw [if_neg (by rw [hasks]; exact Bool.false_ne_true)]
    obtain ⟨hm', hpast⟩ := hm.unasked (t := t) hasks
    rw [hstep]
    refine ⟨htimely, ⟨m, hm', htracks⟩, fun w hw => ?_⟩
    unfold Reports
    dsimp only
    rw [hpast]
    exact h.reports w hw
  | true =>
    have hpulls : x.pulls c = m.measures c.change := by
      unfold Watched.pulls Meter.measures
      rw [hasks, Bool.true_and, htracks.condition]
    -- what the pull of the call gives, if it makes one
    have hgives : ∃ r, (r = some v ∨ r = none) ∧ (m.measures c.change = true → c.Gives x.history.producer.toValueMetric K t r) := by
      cases hmeasures : m.measures c.change with
      | false => exact ⟨none, .inr rfl, fun hno => absurd hno Bool.false_ne_true⟩
      | true =>
        rcases hok.gives (hpulls.trans hmeasures) with hg | hg
        · exact ⟨some v, .inl rfl, fun _ => hg⟩
        · exact ⟨none, .inr rfl, fun _ => hg⟩
    obtain ⟨r, hr, hg⟩ := hgives
    have hread : Readable x.history.producer t c K m r := by
      refine fun hmeasures => ⟨hg hmeasures, fun v' b hv' hb w hw i hi => ?_⟩
      have hvv : v' = v := by
        rcases hr with rfl | rfl
        · exact (Option.some.inj hv').symm
        · cases hv'
      rcases htracks.base with hnone | hcounter
      · rw [hnone] at hb
        cases hb
      · rw [hcounter] at hb
        rw [hvv, ← Option.some.inj hb]
        exact hok.increasing w hw i hi
    obtain ⟨r', hsteps, hr'⟩ := hm.steps (by rw [hmetric]; exact hd) (by rw [hmetric]; exact h.timely.base) (h.timely.now.trans hok.time)
      hok.steady hasks hread
    dsimp only at hsteps hr'
    have hr'' : r' = some v ∨ r' = none := hr'.elim (fun heq => heq ▸ hr) fun hno => .inr hno.1
    have htracks' : Tracks (m.prepare c.change r') (x.watch.see c.change v) := by
      refine htracks.prepare c.change v hr'' fun hsome hinc hvalid hmeasures => ?_
      have hrv : r = some v := by
        rcases hr' with heq | hno
        · exact heq ▸ hsome
        · rw [hno.1] at hsome
          cases hsome
      have hbase := hlate hinc (hm.invalid.trans hvalid) (hpulls.trans hmeasures) (hrv ▸ hg hmeasures)
      rw [hm.hasBase] at hbase
      exact Option.isSome_eq_false_iff.1 hbase |> Option.isNone_iff_eq_none.1
    cases hc : c.closes x.history.producer t with
    | false =>
      have hstep : x.step (t, c, v) = ⟨x.history.step (t, c), x.watch.see c.change v⟩ := by
        unfold Watched.step
        dsimp only
        rw [if_pos hasks, if_neg (by rw [hc]; exact Bool.false_ne_true)]
      rw [hc] at hsteps
      rw [hstep]
      refine ⟨htimely, ⟨_, hsteps.meters, htracks'⟩, fun w hw => ?_⟩
      unfold Reports
      dsimp only
      rw [hsteps.stays rfl]
      exact h.reports w hw
    | true =>
      rw [hc] at hsteps
      have hmeters := hsteps.meters
      rw [if_pos rfl] at hmeters
      have hstarts : startsIncomplete (x.history.step (t, c)).producer =
          (decide ((m.prepare c.change r').condition = .kTrue) && !(m.prepare c.change r').base.isSome) := by
        unfold startsIncomplete
        rw [hmeters.condition, hmeters.hasBase]
        rfl
      have hstep : x.step (t, c, v) = ⟨x.history.step (t, c), (x.watch.see c.change v).close
          x.history.producer.mCurrentBucketStartTimeNs (min t x.history.producer.getCurrentBucketEndTimeNs)
          (startsIncomplete (x.history.step (t, c)).producer)⟩ := by
        unfold Watched.step
        dsimp only
        rw [if_pos hasks, if_pos hc]
      rw [hstep]
      refine ⟨htimely, ⟨_, hmeters, ?_⟩, fun w hw => ?_⟩
      · rw [hstarts]
        exact htracks'.flush _ _
      · have hrep := h.reports w hw
        rw [← hmetric] at hrep ⊢
        exact Reports.close htracks' rfl (hsteps.closes rfl) hw hrep _

theorem inv_started {metric : ValueMetric} (hd : metric.Diffed) (hstates : metric.unknownStateKey = [])
    {startTimeNs : Int} (hstart : metric.mTimeBaseNs ≤ startTimeNs) {initialCondition : ConditionState} {pull : Pull Int} {v : Values}
    (hfirst : initialCondition = .kTrue → pull.Gives metric K startTimeNs (some v) ∨ pull.Gives metric K startTimeNs none) :
    (started metric startTimeNs initialCondition pull v).Inv metric K := by
  have hgives : ∃ r, (r = some v ∨ r = none) ∧ (initialCondition = .kTrue → pull.Gives metric K startTimeNs r) := by
    by_cases htrue : initialCondition = .kTrue
    · rcases hfirst htrue with hg | hg
      · exact ⟨some v, .inl rfl, fun _ => hg⟩
      · exact ⟨none, .inr rfl, fun _ => hg⟩
    · exact ⟨none, .inr rfl, fun h => absurd h htrue⟩
  obtain ⟨r, hr, hg⟩ := hgives
  obtain ⟨hm, htimely, hpast⟩ := History.started_meters hd hstates hstart hg
  have hclosed : (started metric startTimeNs initialCondition pull v).watch.closed = [] := rfl
  refine ⟨htimely, ⟨_, hm, ?_⟩, fun w hw => ⟨[], List.nil_sublist _, ?_⟩⟩
  · unfold firstMeter
    dsimp only
    by_cases htrue : initialCondition = .kTrue
    · rw [if_pos htrue]
      rcases hr with rfl | rfl
      · refine ⟨rfl, .inr rfl, fun hoff => ?_, .inr (.inr (.inr ⟨fun w i => rfl, fun _ => Option.some_ne_none v⟩))⟩
        exact absurd htrue (of_decide_eq_false hoff)
      · exact ⟨rfl, .inl rfl, fun _ => rfl, .inl rfl⟩
    · rw [if_neg htrue]
      refine ⟨rfl, .inl rfl, fun _ => rfl, .inr (.inr (.inr ⟨fun w i => rfl, fun hon => ?_⟩))⟩
      exact absurd (of_decide_eq_true hon) htrue
  · rw [show (started metric startTimeNs initialCondition pull v).history.past ⟨w, []⟩ = [] from hpast _]
    exact .nil

end Watched

/-- What failed pulls do to the reports: for a metric that sums diffs without states and any run of calls
whose pulls give all keys or nothing, where no pull finds a base in a bucket that started without one while
the condition was true, the reported buckets of each key are closed buckets, and their values are what the
counters gained in them while the condition was true. -/
theorem reports_gain (metric : ValueMetric) (hd : metric.Diffed) (hstates : metric.unknownStateKey = [])
    (K : Finset HashableDimensionKey) (startTimeNs : Int) (hstart : metric.mTimeBaseNs ≤ startTimeNs)
    (initialCondition : ConditionState) (pull : Pull Int) (v : Values)
    (hfirst : initialCondition = .kTrue → pull.Gives metric K startTimeNs (some v) ∨ pull.Gives metric K startTimeNs none)
    (es : List (Int × Call Int × Values))
    (hrun : RunOk Watched.step (fun x e => x.Ok K e ∧ x.NoLateBase K e) (.started metric startTimeNs initialCondition pull v) es) :
    let x : Watched := es.foldl Watched.step (.started metric startTimeNs initialCondition pull v)
    ∀ w ∈ K, x.Reports w metric.fieldCount := by
  intro x
  have hinv : x.Inv metric K :=
    hrun.inv (fun x e hok h => h.step hd hok.1 hok.2) (Watched.inv_started hd hstates hstart hfirst)
  exact hinv.reports

/-- A pull that fails. -/
def failedPull : Pull Int := ⟨false, 0, []⟩

/-- The pull at the end of the first bucket fails and the next bucket has no base until its end: it is
skipped, and the bucket after it reports its gain. -/
theorem reports_gain_skipped :
    let es : List (Int × Call Int × Values) :=
      [(60, .dataPulled failedPull, fun _ _ => 110), (120, .dataPulled (pullOf 120 125), fun _ _ => 125),
        (180, .dataPulled (pullOf 180 131), fun _ _ => 131)]
    let x : Watched := es.foldl Watched.step (.started (pulledMetric 60) 0 .kTrue (pullOf 0 100) fun _ _ => 100)
    (x.history.past ⟨[], []⟩).map (·.valueAt 0) = [some 6] ∧ x.Reports [] 1 := by
  intro es x
  refine ⟨by decide +kernel, ?_⟩
  refine reports_gain (pulledMetric 60) ⟨rfl, rfl, rfl, .inl rfl⟩ rfl {[]} 0 (by decide) .kTrue (pullOf 0 100) (fun _ _ => 100)
    (fun _ => .inl (.returns (pullOf_returns 60 0 100) (by decide))) es ⟨⟨⟨?_, rfl, ?_, ?_⟩, ?_⟩, ⟨⟨?_, rfl, ?_, ?_⟩, ?_⟩,
      ⟨⟨?_, rfl, ?_, ?_⟩, ?_⟩, trivial⟩ [] (by decide)
  · decide +kernel
  · exact fun _ => .inr (.fails rfl)
  · exact fun w hw i hi => (by decide : (100 : Int) ≤ 110)
  · exact fun hinc => by cases hinc
  · decide +kernel
  · exact fun _ => .inl (.returns (pullOf_returns 60 120 125) (by decide +kernel))
  · exact fun w hw i hi => (by decide : (110 : Int) ≤ 125)
  · exact fun _ _ _ _ => by decide +kernel
  · decide +kernel
  · exact fun _ => .inl (.returns (pullOf_returns 60 180 131) (by decide +kernel))
  · exact fun w hw i hi => (by decide : (125 : Int) ≤ 131)
  · exact fun hinc => absurd hinc (by decide +kernel)

/-- The pull at the end of the first bucket fails, and in the next one the condition becomes false and true
again: five are reported of the twelve that the counter gained. -/
theorem under_report_after_failed_pull :
    let es : List (Int × Call Int × Values) :=
      [(60, .dataPulled failedPull, fun _ _ => 110), (80, .conditionChanged false (pullOf 80 117), fun _ _ => 117),
        (90, .conditionChanged true (pullOf 90 120), fun _ _ => 120), (120, .dataPulled (pullOf 120 125), fun _ _ => 125)]
    let x : Watched := es.foldl Watched.step (.started (pulledMetric 60) 0 .kTrue (pullOf 0 100) fun _ _ => 100)
    (RunOk Watched.step (Watched.Ok {[]}) (.started (pulledMetric 60) 0 .kTrue (pullOf 0 100) fun _ _ => 100) es ∧
      (x.history.past ⟨[], []⟩).map (fun b => (b.interval, b.valueAt 0)) = [((60, 120), some 5)] ∧
      x.watch.closed.map (fun g => (g.start, g.stop, g.gain [] 0)) = [(0, 60, 10), (60, 120, 12)]) ∧
    ¬ x.Reports [] 1 := by
  intro es x
  have hpast : (x.history.past ⟨[], []⟩).map (fun b => (b.interval, b.valueAt 0)) = [((60, 120), some 5)] := by decide +kernel
  have hclosed : x.watch.closed.map (fun g => (g.start, g.stop, g.gain [] 0)) = [(0, 60, 10), (60, 120, 12)] := by decide +kernel
  refine ⟨⟨⟨⟨?_, rfl, ?_, ?_⟩, ⟨?_, rfl, ?_, ?_⟩, ⟨?_, rfl, ?_, ?_⟩, ⟨?_, rfl, ?_, ?_⟩, trivial⟩, hpast, hclosed⟩, ?_⟩
  · decide +kernel
  · exact fun _ => .inr (.fails rfl)
  · exact fun w hw i hi => (by decide : (100 : Int) ≤ 110)
  · decide +kernel
  · exact fun _ => .inl (.returns (pullOf_returns 60 80 117) (by decide +kernel))
  · exact fun w hw i hi => (by decide : (110 : Int) ≤ 117)
  · decide +kernel
  · exact fun _ => .inl (.returns (pullOf_returns 60 90 120) (by decide +kernel))
  · exact fun w hw i hi => (by decide : (117 : Int) ≤ 120)
  · decide +kernel
  · exact fun _ => .inl (.returns (pullOf_returns 60 120 125) (by decide +kernel))
  · exact fun w hw i hi => (by decide : (120 : Int) ≤ 125)
  · rintro ⟨gs, hsub, hall⟩
    have hgain : ∀ g ∈ x.watch.closed, g.gain [] 0 ≠ 5 := by decide +kernel
    obtain ⟨b, hb⟩ : ∃ b, x.history.past ⟨[], []⟩ = [b] := List.length_eq_one_iff.1 (by
      have := congrArg List.length hpast
      rwa [List.length_map] at this)
    rw [hb] at hall hpast
    cases hall with
    | @cons _ g _ gs' hg _ =>
      have hvalue : b.valueAt 0 = some 5 := congrArg (·.2) (List.cons.inj hpast).1
      exact hgain g (hsub.subset List.mem_cons_self) (hg.2 0 (by decide) 5 hvalue).symm

end ValueMetricProducer

end Statsd.Metrics
