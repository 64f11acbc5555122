/-
Metrics without a bucket: their bucket size is the largest `int64_t`, so that the first bucket never ends. The
arithmetic on buckets is followed value by value, in the producers of counts and durations and in the duration
trackers, each of which has a bucket of its own: over a whole run no value leaves `int64_t`, and the first bucket
stays the current one, if and only if the time base is 0.

The producers and trackers compute with exact integers; up to the first value outside `int64_t` that is what the
source computes.
-/
import Statsd.Metrics.CountConservation
import Statsd.Metrics.OringConservation
import Statsd.Metrics.MaxDurations
import Statsd.Metrics.BucketArithmetic

namespace Statsd.Metrics

def LLONG_MAX : Int := 2 ^ 63 - 1

/-- The bucket size that the constructors take from a config. -/
def configBucketSizeNs (uid : Int) (bucket : Option TimeUnit) : Int :=
  match bucket with
  | some unit => bucketSizeNs uid unit
  | none => LLONG_MAX

/-- The value fits an `int64_t`. -/
def InInt64 (x : Int) : Prop := -2 ^ 63 ≤ x ∧ x ≤ LLONG_MAX

def AllInInt64 (l : List Int) : Prop := ∀ x ∈ l, InInt64 x

/-! ## Values -/

/-- What the arithmetic of a producer or tracker knows of its buckets. -/
structure BucketClock where
  base : Int
  size : Int
  num : Int

namespace BucketClock

def endNs (b : BucketClock) : Int := b.base + (b.num + 1) * b.size

/-- The values of `getCurrentBucketEndTimeNs`. -/
def endValues (b : BucketClock) : List Int := [b.num + 1, (b.num + 1) * b.size, b.endNs]

def forward (b : BucketClock) (t : Int) : Int := 1 + (t - b.endNs).tdiv b.size

/-- The values of `numBucketsForward`. -/
def forwardValues (b : BucketClock) (t : Int) : List Int := [t - b.endNs, (t - b.endNs).tdiv b.size, b.forward t]

/-- The values of the start of the next bucket, and of its number. -/
def nextValues (b : BucketClock) (t : Int) : List Int :=
  [b.forward t - 1, (b.forward t - 1) * b.size, b.endNs + (b.forward t - 1) * b.size, b.num + b.forward t]

/-- The values of `flushIfNeededLocked`, where `flush` is those of `flushCurrentBucketLocked`. -/
def flushIfNeededValues (b : BucketClock) (t : Int) (flush : List Int) : List Int :=
  b.endValues ++ if t < b.endNs then [] else b.forwardValues t ++ b.nextValues t ++ flush

end BucketClock

/-- The bucket of a duration tracker, with the values of its flush and of the predictions of its anomaly alarm. -/
class BucketTracker (T : Type) [DurationTracker T] where
  clock : T → BucketClock
  flushValues : T → (eventTimeNs : Int) → List Int
  predictValues : T → (anomalyTimestampNs : Int) → (numOfPastBuckets : Nat) → List Int
  clock_new : ∀ eventKey nesting currentBucketStartNs currentBucketNum startTimeNs bucketSizeNs conditionSliced,
    clock (DurationTracker.new eventKey nesting currentBucketStartNs currentBucketNum startTimeNs bucketSizeNs conditionSliced : T) =
      ⟨startTimeNs, bucketSizeNs, currentBucketNum⟩
  clock_noteStart : ∀ (t : T) key condition eventTime conditionKey,
    clock (DurationTracker.noteStart t key condition eventTime conditionKey) = clock t
  clock_noteStop : ∀ (t : T) key eventTime stopAll, clock (DurationTracker.noteStop t key eventTime stopAll) = clock t
  clock_noteStopAll : ∀ (t : T) eventTime, clock (DurationTracker.noteStopAll t eventTime) = clock t
  clock_onSlicedConditionMayChange : ∀ (t : T) query timestamp,
    clock (DurationTracker.onSlicedConditionMayChange t query timestamp) = clock t
  clock_onConditionChanged : ∀ (t : T) condition timestamp, clock (DurationTracker.onConditionChanged t condition timestamp) = clock t
  clock_onStateChanged : ∀ (t : T) timestamp atomId newState, clock (DurationTracker.onStateChanged t timestamp atomId newState) = clock t
  clock_flush : ∀ (t : T) eventTimeNs output, eventTimeNs < (clock t).endNs →
    clock (DurationTracker.flushCurrentBucket t eventTimeNs output).1 = clock t
  flushValues_early : ∀ (t : T) eventTimeNs, eventTimeNs < (clock t).endNs → flushValues t eventTimeNs = (clock t).endValues
  predictValues_early : ∀ (t : T) anomalyTimestampNs numOfPastBuckets, anomalyTimestampNs ≤ (clock t).endNs →
    ∀ x ∈ predictValues t anomalyTimestampNs numOfPastBuckets, x ∈ (clock t).endValues

namespace OringDurationTracker

def clock (t : OringDurationTracker) : BucketClock := ⟨t.mStartTimeNs, t.mBucketSizeNs, t.mCurrentBucketNum⟩

/-- The values for the `i`-th skipped bucket. -/
def fillValues (b : BucketClock) (i : Nat) : List Int :=
  [(i : Int) - 1, b.size * ((i : Int) - 1), b.endNs + b.size * ((i : Int) - 1), b.endNs + b.size * ((i : Int) - 1) + b.size, b.num + i]

/-- The values of the skipped buckets. -/
def skippedValues (t : OringDurationTracker) (n : Int) : List Int :=
  if t.mStarted.entries.isEmpty then
    if n ≥ 2 then [t.mCurrentBucketNum + n, t.mCurrentBucketNum + n - 1] else []
  else (List.range' 1 (n - 1).toNat).flatMap (fillValues t.clock)

/-- The values of `flushCurrentBucket` on buckets. -/
def flushValues (t : OringDurationTracker) (eventTimeNs : Int) : List Int :=
  t.clock.flushIfNeededValues eventTimeNs (t.skippedValues (t.clock.forward eventTimeNs))

/-- The values of `predictAnomalyTimestampNs` on buckets, for the first candidate, with all rounds of its loop. -/
def predictValues (t : OringDurationTracker) (anomalyTimestampNs : Int) (numOfPastBuckets : Nat) : List Int :=
  t.clock.endValues ++
    if anomalyTimestampNs ≤ t.clock.endNs then []
    else (List.range' 1 (numOfPastBuckets + 1)).flatMap fun i =>
      [(i : Int) * t.mBucketSizeNs, t.clock.endNs + i * t.mBucketSizeNs, t.clock.endNs + i * t.mBucketSizeNs - t.mBucketSizeNs]

theorem SameBucket.clock_eq {t t' : OringDurationTracker} (h : SameBucket t t') : t'.clock = t.clock := by
  unfold clock
  rw [h.start, h.size, h.num]

end OringDurationTracker

namespace MaxDurationTracker

def clock (t : MaxDurationTracker) : BucketClock := ⟨t.mStartTimeNs, t.mBucketSizeNs, t.mCurrentBucketNum⟩

def flushValues (t : MaxDurationTracker) (eventTimeNs : Int) : List Int := t.clock.flushIfNeededValues eventTimeNs []

theorem SameBucket.clock_eq {t t' : MaxDurationTracker} (h : SameBucket t t') : t'.clock = t.clock := by
  unfold clock
  rw [h.base, h.size, h.num]

theorem clock_flushCurrentBucket {t : MaxDurationTracker} {eventTimeNs : Int} (h : eventTimeNs < t.clock.endNs)
    (output : PastBuckets) : (t.flushCurrentBucket eventTimeNs output).1.clock = t.clock := by
  have hearly : ¬ eventTimeNs ≥ t.getCurrentBucketEndTimeNs := not_le.2 h
  unfold flushCurrentBucket
  dsimp only
  rw [if_neg hearly, if_neg (lt_irrefl _)]
  rfl

end MaxDurationTracker

theorem BucketClock.flushIfNeededValues_early {b : BucketClock} {t : Int} (h : t < b.endNs) (flush : List Int) :
    b.flushIfNeededValues t flush = b.endValues := by
  unfold flushIfNeededValues
  rw [if_pos h, List.append_nil]

theorem BucketTracker.unmoved {T : Type} [DurationTracker T] [BucketTracker T] :
    DurationMetricProducer.Unmoved (BucketTracker.clock : T → BucketClock) where
  noteStart := BucketTracker.clock_noteStart
  noteStop := BucketTracker.clock_noteStop
  noteStopAll := BucketTracker.clock_noteStopAll
  onSlicedConditionMayChange := BucketTracker.clock_onSlicedConditionMayChange
  onConditionChanged := BucketTracker.clock_onConditionChanged
  onStateChanged := BucketTracker.clock_onStateChanged

instance : BucketTracker OringDurationTracker where
  clock := OringDurationTracker.clock
  flushValues := OringDurationTracker.flushValues
  predictValues := OringDurationTracker.predictValues
  clock_new _ _ _ _ _ _ _ := rfl
  clock_noteStart t key condition eventTime conditionKey := (t.noteStart_spec key condition eventTime conditionKey).bucket.clock_eq
  clock_noteStop t key eventTime stopAll := (t.noteStop_spec key eventTime stopAll).bucket.clock_eq
  clock_noteStopAll t eventTime := (t.noteStopAll_spec eventTime).bucket.clock_eq
  clock_onSlicedConditionMayChange t query timestamp := (t.onSlicedConditionMayChange_spec query timestamp).bucket.clock_eq
  clock_onConditionChanged t condition timestamp := (t.onConditionChanged_spec condition timestamp).bucket.clock_eq
  clock_onStateChanged t timestamp atomId newState := (t.onStateChanged_spec timestamp atomId newState).bucket.clock_eq
  clock_flush t eventTimeNs output h := by
    have hspec := t.flushCurrentBucket_spec eventTimeNs output
    have hforward : t.bucketsForward eventTimeNs = 0 := if_neg (not_le.2 h)
    have hnum := hspec.num
    rw [hforward, if_neg (lt_irrefl _)] at hnum
    change (t.flushCurrentBucket eventTimeNs output).1.clock = t.clock
    unfold OringDurationTracker.clock
    rw [hspec.startTime, hspec.size, hnum]
  flushValues_early t _ h := BucketClock.flushIfNeededValues_early h _
  predictValues_early t a n h x hx := by
    unfold OringDurationTracker.predictValues at hx
    rwa [if_pos h, List.append_nil] at hx

instance : BucketTracker MaxDurationTracker where
  clock := MaxDurationTracker.clock
  flushValues := MaxDurationTracker.flushValues
  predictValues _ _ _ := []
  clock_new _ _ _ _ _ _ _ := rfl
  clock_noteStart t key condition eventTime conditionKey := (t.sameBucket_noteStart key condition eventTime conditionKey).clock_eq
  clock_noteStop t key eventTime stopAll := (t.sameBucket_noteStop key eventTime stopAll).clock_eq
  clock_noteStopAll t eventTime := (t.sameBucket_noteStopAll eventTime).clock_eq
  clock_onSlicedConditionMayChange t query timestamp := (t.onSlicedConditionMayChange_spec query timestamp).2.2.clock_eq
  clock_onConditionChanged t condition timestamp := (t.onConditionChanged_spec condition timestamp).2.2.clock_eq
  clock_onStateChanged _ _ _ _ := rfl
  clock_flush _ _ output h := MaxDurationTracker.clock_flushCurrentBucket h output
  flushValues_early t _ h := BucketClock.flushIfNeededValues_early h _
  predictValues_early _ _ _ _ _ h := absurd h List.not_mem_nil

/-! ## The values of the producers -/

namespace CountMetricProducer

def clock (p : CountMetricProducer) : BucketClock := ⟨p.mTimeBaseNs, p.mBucketSizeNs, p.mCurrentBucketNum⟩

/-- `flushCurrentBucketLocked` computes the end of the bucket once more. -/
def flushIfNeededValues (p : CountMetricProducer) (t : Int) : List Int := p.clock.flushIfNeededValues t p.clock.endValues

def flushLockedValues (p : CountMetricProducer) (t : Int) : List Int :=
  p.flushIfNeededValues t ++ (p.flushIfNeededLocked t).clock.endValues

def activeStateChangedValues (p : CountMetricProducer) (t : Int) : List Int :=
  if !p.activation.mIsActive then p.flushLockedValues t else []

/-- The values on buckets of a call at time `t`. -/
def callValues (p : CountMetricProducer) (t : Int) : Call → List Int
  | .matchedLogEvent _ _ =>
    if !p.activation.mIsActive then [] else if t < p.mTimeBaseNs then [] else p.flushIfNeededValues t
  | .flushIfExpire =>
    if !p.activation.mIsActive then []
    else { p with activation := p.activation.flushIfExpire t }.activeStateChangedValues t
  | .activate activationTrackerIndex =>
    let oldActiveState := p.activation.mIsActive
    let p := { p with activation := p.activation.activateLocked activationTrackerIndex t }
    if !oldActiveState && p.activation.mIsActive then p.activeStateChangedValues t else []
  | .appUpgrade | .statsdInitCompleted => p.flushLockedValues t
  | .dumpReport include_current_partial_bucket _ =>
    if include_current_partial_bucket then p.flushLockedValues t else p.flushIfNeededValues t
  | .conditionChanged _ | .slicedConditionMayChange _ | .stateChanged _ _ _ _ | .cancelEventActivation _
  | .loadActiveMetric _ => []

/-- The run stays in the first bucket, and its values on buckets fit. -/
def StaysInFirst : CountMetricProducer → List (Int × Call) → Prop
  | p, [] => p.mCurrentBucketNum = 0
  | p, (t, c) :: calls => p.mCurrentBucketNum = 0 ∧ AllInInt64 (p.callValues t c) ∧ StaysInFirst (p.call t c) calls

end CountMetricProducer

namespace DurationMetricProducer

variable {T : Type} [DurationTracker T] [BucketTracker T]

def clock (p : DurationMetricProducer T) : BucketClock := ⟨p.mTimeBaseNs, p.mBucketSizeNs, p.mCurrentBucketNum⟩

/-- The values of `flushCurrentBucketLocked`, those of all trackers. -/
def flushCurrentBucketValues (p : DurationMetricProducer T) (t : Int) : List Int :=
  p.mCurrentSlicedDurationTrackerMap.entries.flatMap fun it => BucketTracker.flushValues it.2 t

def flushIfNeededValues (p : DurationMetricProducer T) (t : Int) : List Int :=
  p.clock.flushIfNeededValues t (p.flushCurrentBucketValues t)

def flushLockedValues (p : DurationMetricProducer T) (t : Int) : List Int :=
  p.flushIfNeededValues t ++ (p.flushIfNeededLocked t).flushCurrentBucketValues t

def activeStateChangedValues (p : DurationMetricProducer T) (t : Int) : List Int :=
  let flushed := if !p.mIsActive then p.flushLocked t else p
  (if !p.mIsActive then p.flushLockedValues t else []) ++
    if flushed.mIsActive ∧ (flushed.mConditionSliced ∨ flushed.mCondition = .kTrue) then flushed.flushIfNeededValues t else []

/-- The values on buckets of a call at time `t`, without those of the predictions. -/
def callValues (p : DurationMetricProducer T) (t : Int) : Call → List Int
  | .matchedLogEvent _ _ _ => if t < p.mTimeBaseNs then [] else if p.mIsActive then p.flushIfNeededValues t else []
  | .conditionChanged _ | .slicedConditionMayChange _ => if !p.mIsActive then [] else p.flushIfNeededValues t
  | .stateChanged _ _ _ => p.flushIfNeededValues t
  | .flushIfExpire _ =>
    if !p.mIsActive then []
    else
      let p := { p with activation := p.activation.flushIfExpire t }
      if !p.mIsActive then p.activeStateChangedValues t else []
  | .activate _ activationTrackerIndex =>
    let oldActiveState := p.mIsActive
    let p := { p with activation := p.activation.activateLocked activationTrackerIndex t }
    if !oldActiveState && p.mIsActive then p.activeStateChangedValues t else []
  | .cancelEventActivation _ => []
  | .appUpgrade => p.flushLockedValues t
  | .dumpReport include_current_partial_bucket _ =>
    if include_current_partial_bucket then p.flushLockedValues t else p.flushIfNeededValues t

/-- The first bucket is the current one, of the producer and of every tracker. -/
def InFirst (p : DurationMetricProducer T) : Prop :=
  p.mCurrentBucketNum = 0 ∧
    ∀ k tracker, p.mCurrentSlicedDurationTrackerMap.lookup k = some tracker → (BucketTracker.clock tracker).num = 0

/-- Whatever its trackers predict, the values on buckets fit. -/
def PredictionsFit (p : DurationMetricProducer T) : Prop :=
  ∀ k tracker, p.mCurrentSlicedDurationTrackerMap.lookup k = some tracker → ∀ anomalyTimestampNs numOfPastBuckets,
    InInt64 anomalyTimestampNs → AllInInt64 (BucketTracker.predictValues tracker anomalyTimestampNs numOfPastBuckets)

/-- The run stays in the first bucket, and its values on buckets fit. -/
def StaysInFirst : DurationMetricProducer T → List (Int × Call) → Prop
  | p, [] => p.InFirst
  | p, (t, c) :: calls =>
    p.InFirst ∧ AllInInt64 (p.callValues t c) ∧ (p.call t c).PredictionsFit ∧ StaysInFirst (p.call t c) calls

end DurationMetricProducer

/-! ## A bucket that never ends -/

/-- The first bucket of a metric without a bucket whose time base is 0. -/
def BucketClock.never : BucketClock := ⟨0, LLONG_MAX, 0⟩

theorem BucketClock.never_endNs : BucketClock.never.endNs = LLONG_MAX := by decide

theorem BucketClock.never_endValues : AllInInt64 BucketClock.never.endValues := by
  unfold AllInInt64 InInt64 endValues
  decide

theorem BucketClock.lt_never {t : Int} (h : t < 2 ^ 62) : t < BucketClock.never.endNs := by
  rw [never_endNs, LLONG_MAX]
  omega

theorem BucketClock.never_flushIfNeededValues {t : Int} (h : t < 2 ^ 62) (flush : List Int) :
    AllInInt64 (BucketClock.never.flushIfNeededValues t flush) := by
  rw [flushIfNeededValues_early (lt_never h)]
  exact never_endValues

theorem AllInInt64.nil : AllInInt64 [] := fun _ h => absurd h List.not_mem_nil

theorem AllInInt64.append {l l' : List Int} (h : AllInInt64 l) (h' : AllInInt64 l') : AllInInt64 (l ++ l') :=
  fun x hx => (List.mem_append.1 hx).elim (h x) (h' x)

theorem base_eq_zero {base t : Int} (hbase : 0 ≤ base) {flush : List Int}
    (h : AllInInt64 (BucketClock.flushIfNeededValues ⟨base, LLONG_MAX, 0⟩ t flush)) : base = 0 := by
  have hend := h (base + (0 + 1) * LLONG_MAX) (List.mem_append_left _ (by simp [BucketClock.endValues, BucketClock.endNs]))
  have := hend.2
  omega

namespace CountMetricProducer

variable {p : CountMetricProducer}

theorem flushIfNeededLocked_never (h : p.clock = .never) {t : Int} (ht : t < 2 ^ 62) :
    p.flushIfNeededLocked t = p := by
  have hend : t < p.clock.endNs := h ▸ BucketClock.lt_never ht
  exact if_pos hend

theorem clock_flushCurrentBucketLocked (p : CountMetricProducer) (t next : Int) :
    (p.flushCurrentBucketLocked t next).clock = p.clock := by
  unfold clock
  rw [p.flushCurrentBucketLocked_metric, p.flushCurrentBucketLocked_num]

theorem flushLocked_never (h : p.clock = .never) {t : Int} (ht : t < 2 ^ 62) :
    (p.flushLocked t).clock = .never := by
  unfold flushLocked
  rw [flushIfNeededLocked_never h ht, clock_flushCurrentBucketLocked, h]

theorem flushIfNeededValues_never (h : p.clock = .never) {t : Int} (ht : t < 2 ^ 62) :
    AllInInt64 (p.flushIfNeededValues t) := by
  unfold flushIfNeededValues
  rw [h]
  exact BucketClock.never_flushIfNeededValues ht _

theorem flushLockedValues_never (h : p.clock = .never) {t : Int} (ht : t < 2 ^ 62) :
    AllInInt64 (p.flushLockedValues t) := by
  unfold flushLockedValues
  rw [flushIfNeededLocked_never h ht, h]
  exact (flushIfNeededValues_never h ht).append BucketClock.never_endValues

theorem activeStateChangedValues_never (h : p.clock = .never) {t : Int} (ht : t < 2 ^ 62) :
    AllInInt64 (p.activeStateChangedValues t) := by
  unfold activeStateChangedValues
  split
  · exact flushLockedValues_never h ht
  · exact .nil

theorem callValues_never (h : p.clock = .never) {t : Int} (ht : t < 2 ^ 62) (c : Call) : AllInInt64 (p.callValues t c) := by
  unfold callValues
  cases c with
  | matchedLogEvent values outside =>
    dsimp only
    split
    · exact .nil
    split
    · exact .nil
    · exact flushIfNeededValues_never h ht
  | flushIfExpire =>
    dsimp only
    split
    · exact .nil
    · exact @activeStateChangedValues_never { p with activation := p.activation.flushIfExpire t } h t ht
  | activate activationTrackerIndex =>
    dsimp only
    split
    · exact @activeStateChangedValues_never { p with activation := p.activation.activateLocked activationTrackerIndex t } h t ht
    · exact .nil
  | appUpgrade => exact flushLockedValues_never h ht
  | statsdInitCompleted => exact flushLockedValues_never h ht
  | dumpReport include_current_partial_bucket erase_data =>
    dsimp only
    split
    · exact flushLockedValues_never h ht
    · exact flushIfNeededValues_never h ht
  | _ => exact .nil

theorem call_never (h : p.clock = .never) {t : Int} (ht : t < 2 ^ 62) (c : Call) : (p.call t c).clock = .never := by
  obtain ⟨l, hdoes, -⟩ := p.call_does t c
  generalize p.flushes t c = flushes, p.Splits t c = splits, p.erasedBy t c = gone, p.call t c = q at hdoes ⊢
  have hsame := flushIfNeededLocked_never h ht
  cases hdoes with
  | nothing activation mCondition => exact h
  | flushes => rwa [hsame]
  | counts k =>
    rw [hsame]
    exact h
  | splits activation => exact @flushLocked_never { p with activation := activation } h t ht
  | erases _ q hq =>
    change q.clock = .never
    rw [hq]
    split
    · exact flushLocked_never h ht
    · rwa [hsame]

theorem staysInFirst_never (calls : List (Int × Call)) (h : p.clock = .never)
    (ht : ∀ c ∈ calls, c.1 < 2 ^ 62) : p.StaysInFirst calls := by
  have hnum : p.mCurrentBucketNum = 0 := congrArg BucketClock.num h
  induction calls generalizing p with
  | nil => exact hnum
  | cons c calls ih =>
    obtain ⟨htime, htimes⟩ := List.forall_mem_cons.1 ht
    have hclock := call_never h htime c.2
    exact ⟨hnum, callValues_never h htime c.2, ih hclock htimes (congrArg BucketClock.num hclock)⟩

/-- The values of the constructor, before which there are no buckets. -/
def newValues (metric : CountMetric) (startTimeNs : Int) : List Int :=
  BucketClock.flushIfNeededValues ⟨metric.mTimeBaseNs, metric.mBucketSizeNs, 0⟩ startTimeNs
    (BucketClock.endValues ⟨metric.mTimeBaseNs, metric.mBucketSizeNs, 0⟩)

/-- The constructor and the calls after it stay in the first bucket, and their values on buckets fit. -/
def NeverMoves (metric : CountMetric) (activations : EventActivations) (initialCondition : ConditionState) (startTimeNs : Int)
    (calls : List (Int × Call)) : Prop :=
  AllInInt64 (newValues metric startTimeNs) ∧ (new metric activations initialCondition startTimeNs).StaysInFirst calls

theorem neverMoves_iff {metric : CountMetric} (hsize : metric.mBucketSizeNs = LLONG_MAX) (hbase : 0 ≤ metric.mTimeBaseNs)
    (activations : EventActivations) (initialCondition : ConditionState) {startTimeNs : Int} (hstart : startTimeNs < 2 ^ 62)
    {calls : List (Int × Call)} (ht : ∀ c ∈ calls, c.1 < 2 ^ 62) :
    NeverMoves metric activations initialCondition startTimeNs calls ↔ metric.mTimeBaseNs = 0 := by
  unfold NeverMoves newValues
  rw [hsize]
  constructor
  · rintro ⟨hnew, -⟩
    exact base_eq_zero hbase hnew
  · intro hzero
    rw [hzero]
    refine ⟨BucketClock.never_flushIfNeededValues hstart _, staysInFirst_never calls ?_ ht⟩
    unfold new
    dsimp only
    rw [flushIfNeededLocked_never ?_ hstart]
    all_goals
      unfold clock
      dsimp only
      rw [hzero, hsize]
      rfl

end CountMetricProducer

namespace DurationMetricProducer

variable {T : Type} [DurationTracker T] [BucketTracker T]

/-- The first bucket of the producer and of its trackers never ends. -/
structure Never (p : DurationMetricProducer T) : Prop where
  producer : p.clock = .never
  trackers : ∀ k tracker, p.mCurrentSlicedDurationTrackerMap.lookup k = some tracker → BucketTracker.clock tracker = .never

section

variable {p : DurationMetricProducer T} {t : Int}

theorem Never.inFirst (h : p.Never) : p.InFirst :=
  ⟨congrArg BucketClock.num h.producer, fun k tracker hk => congrArg BucketClock.num (h.trackers k tracker hk)⟩

theorem Never.predictionsFit (h : p.Never) : p.PredictionsFit := by
  intro k tracker hk anomalyTimestampNs numOfPastBuckets hfits x hx
  have hclock := h.trackers k tracker hk
  have hend : anomalyTimestampNs ≤ (BucketTracker.clock tracker).endNs := by
    rw [hclock, BucketClock.never_endNs]
    exact hfits.2
  have hmem := BucketTracker.predictValues_early tracker anomalyTimestampNs numOfPastBuckets hend x hx
  rw [hclock] at hmem
  exact BucketClock.never_endValues x hmem

theorem Never.flushIfNeededLocked (h : p.Never) (ht : t < 2 ^ 62) : p.flushIfNeededLocked t = p := by
  have hend : t < p.clock.endNs := h.producer ▸ BucketClock.lt_never ht
  exact if_pos hend

theorem Never.flushCurrentBucketLocked (h : p.Never) (ht : t < 2 ^ 62) (next : Int) : (p.flushCurrentBucketLocked t next).Never := by
  obtain ⟨hsame, hlook⟩ := p.flushCurrentBucketLocked_spec t next
  have hnum : (p.flushCurrentBucketLocked t next).mCurrentBucketNum = p.mCurrentBucketNum :=
    foldl_flushTracker_num t p.mCurrentSlicedDurationTrackerMap.keys p
  refine ⟨?_, fun k tracker hk => ?_⟩
  · rw [← h.producer]
    unfold clock
    rw [hsame.metric, hnum]
  · have hflush := hlook k
    rw [hk] at hflush
    generalize hold : p.mCurrentSlicedDurationTrackerMap.lookup k = old at hflush
    cases hflush with
    | kept tracker output _ =>
      have hclock := h.trackers k tracker hold
      rw [BucketTracker.clock_flush tracker t output (hclock ▸ BucketClock.lt_never ht), hclock]

theorem Never.flushLocked (h : p.Never) (ht : t < 2 ^ 62) : (p.flushLocked t).Never := by
  unfold DurationMetricProducer.flushLocked
  rw [h.flushIfNeededLocked ht]
  exact h.flushCurrentBucketLocked ht t

theorem Never.follows (h : p.Never) {q : DurationMetricProducer T} (hq : Follows BucketTracker.clock p q) : q.Never := by
  constructor
  · rw [← h.producer]
    unfold clock
    rw [hq.metric, hq.bucketNum]
  · intro k tracker hk
    cases hold : p.mCurrentSlicedDurationTrackerMap.lookup k with
    | none =>
      obtain ⟨eventKey, hpart⟩ := hq.created k tracker hold hk
      rw [hpart]
      exact (BucketTracker.clock_new ..).trans h.producer
    | some old =>
      obtain ⟨tracker', hk', hpart⟩ := hq.kept k old hold
      rw [hk] at hk'
      cases hk'
      rw [hpart, h.trackers k old hold]

/-! ## Values of the calls -/

theorem Never.flushCurrentBucketValues (h : p.Never) (ht : t < 2 ^ 62) : AllInInt64 (p.flushCurrentBucketValues t) := by
  intro x hx
  obtain ⟨it, hit, hx⟩ := List.mem_flatMap.1 hx
  have hclock := h.trackers it.1 it.2 (AList.mem_lookup_iff.2 hit)
  rw [BucketTracker.flushValues_early it.2 t (hclock ▸ BucketClock.lt_never ht), hclock] at hx
  exact BucketClock.never_endValues x hx

theorem Never.flushIfNeededValues (h : p.Never) (ht : t < 2 ^ 62) : AllInInt64 (p.flushIfNeededValues t) := by
  unfold DurationMetricProducer.flushIfNeededValues
  rw [h.producer]
  exact BucketClock.never_flushIfNeededValues ht _

theorem Never.flushLockedValues (h : p.Never) (ht : t < 2 ^ 62) : AllInInt64 (p.flushLockedValues t) := by
  unfold DurationMetricProducer.flushLockedValues
  rw [h.flushIfNeededLocked ht]
  exact (h.flushIfNeededValues ht).append (h.flushCurrentBucketValues ht)

theorem Never.activeStateChangedValues (h : p.Never) (ht : t < 2 ^ 62) : AllInInt64 (p.activeStateChangedValues t) := by
  unfold DurationMetricProducer.activeStateChangedValues
  dsimp only
  have hflushed : (if !p.mIsActive then p.flushLocked t else p).Never := by
    split
    · exact h.flushLocked ht
    · exact h
  generalize (if !p.mIsActive then p.flushLocked t else p) = q at hflushed
  refine AllInInt64.append ?_ ?_
  · split
    · exact h.flushLockedValues ht
    · exact .nil
  · split
    · exact hflushed.flushIfNeededValues ht
    · exact .nil

theorem Never.callValues (h : p.Never) (ht : t < 2 ^ 62) (c : Call) : AllInInt64 (p.callValues t c) := by
  unfold DurationMetricProducer.callValues
  cases c with
  | matchedLogEvent matcherIndex values outside =>
    dsimp only
    split
    · exact .nil
    split
    · exact h.flushIfNeededValues ht
    · exact .nil
  | conditionChanged conditionMet =>
    dsimp only
    split
    · exact .nil
    · exact h.flushIfNeededValues ht
  | slicedConditionMayChange wizard =>
    dsimp only
    split
    · exact .nil
    · exact h.flushIfNeededValues ht
  | stateChanged atomId primaryKey newState => exact h.flushIfNeededValues ht
  | flushIfExpire wizard =>
    have hexpired : Never { p with activation := p.activation.flushIfExpire t } := ⟨h.producer, h.trackers⟩
    dsimp only
    split
    · exact .nil
    split
    · exact hexpired.activeStateChangedValues ht
    · exact .nil
  | activate wizard activationTrackerIndex =>
    have hactivated : Never { p with activation := p.activation.activateLocked activationTrackerIndex t } :=
      ⟨h.producer, h.trackers⟩
    dsimp only
    split
    · exact hactivated.activeStateChangedValues ht
    · exact .nil
  | cancelEventActivation deactivationTrackerIndex => exact .nil
  | appUpgrade => exact h.flushLockedValues ht
  | dumpReport include_current_partial_bucket erase_data =>
    dsimp only
    split
    · exact h.flushLockedValues ht
    · exact h.flushIfNeededValues ht

theorem Never.call (h : p.Never) (ht : t < 2 ^ 62) (c : Call) : (p.call t c).Never := by
  obtain ⟨activation, mCondition, hfollows⟩ := follows_call .exact BucketTracker.unmoved p t c
  have hset : Never { p with activation := activation, mCondition := mCondition } := ⟨h.producer, h.trackers⟩
  rw [Arithmetic.exact_call] at hfollows
  refine Never.follows ?_ hfollows
  cases p.flushKind t c with
  | nothing => exact hset
  | ifNeeded =>
    change (DurationMetricProducer.flushIfNeededLocked _ t).Never
    rw [hset.flushIfNeededLocked ht]
    exact hset
  | forced => exact hset.flushLocked ht

theorem Never.staysInFirst (calls : List (Int × Call)) (h : p.Never) (ht : ∀ c ∈ calls, c.1 < 2 ^ 62) : p.StaysInFirst calls := by
  induction calls generalizing p with
  | nil => exact h.inFirst
  | cons c calls ih =>
    obtain ⟨htime, htimes⟩ := List.forall_mem_cons.1 ht
    have hcall := h.call htime c.2
    exact ⟨h.inFirst, h.callValues htime c.2, hcall.predictionsFit, ih hcall htimes⟩

/-- The values of the constructor, before which there are neither buckets nor trackers. -/
def newValues (metric : DurationMetric) (startTimeNs : Int) : List Int :=
  BucketClock.flushIfNeededValues ⟨metric.mTimeBaseNs, metric.mBucketSizeNs, 0⟩ startTimeNs []

end

/-- The constructor and the calls after it stay in the first bucket, and their values on buckets fit; `T` is the type
of the trackers. -/
def NeverMoves (T : Type) [DurationTracker T] [BucketTracker T] (metric : DurationMetric) (activations : EventActivations)
    (initialCondition : ConditionState) (equalOutputDimensions : List Matcher → Bool) (startTimeNs : Int)
    (calls : List (Int × Call)) : Prop :=
  AllInInt64 (newValues metric startTimeNs) ∧
    (new metric activations initialCondition equalOutputDimensions startTimeNs : DurationMetricProducer T).StaysInFirst calls

theorem neverMoves_iff {metric : DurationMetric} (hsize : metric.mBucketSizeNs = LLONG_MAX) (hbase : 0 ≤ metric.mTimeBaseNs)
    (activations : EventActivations) (initialCondition : ConditionState) (equalOutputDimensions : List Matcher → Bool)
    {startTimeNs : Int} (hstart : startTimeNs < 2 ^ 62) {calls : List (Int × Call)} (ht : ∀ c ∈ calls, c.1 < 2 ^ 62) :
    NeverMoves T metric activations initialCondition equalOutputDimensions startTimeNs calls ↔ metric.mTimeBaseNs = 0 := by
  unfold NeverMoves newValues
  rw [hsize]
  constructor
  · rintro ⟨hnew, -⟩
    exact base_eq_zero hbase hnew
  · intro hzero
    rw [hzero]
    refine ⟨BucketClock.never_flushIfNeededValues hstart _, Never.staysInFirst calls ?_ ht⟩
    unfold new
    dsimp only
    rw [Never.flushIfNeededLocked ?_ hstart]
    all_goals
      refine ⟨?_, fun k tracker hk => ?_⟩
      · unfold clock
        dsimp only
        rw [hzero, hsize]
        rfl
      · cases hk

end DurationMetricProducer

/-- In every run at times below 2^62, a metric without a bucket stays in its first bucket, and all values on buckets
fit an `int64_t`, if and only if its time base is 0. -/
theorem bucketless_iff (uid : Int) {mTimeBaseNs startTimeNs : Int} (hbase : 0 ≤ mTimeBaseNs) (hstart : startTimeNs < 2 ^ 62)
    (activations : EventActivations) (initialCondition : ConditionState) :
    (∀ metric : CountMetric, metric.mTimeBaseNs = mTimeBaseNs → metric.mBucketSizeNs = configBucketSizeNs uid none →
      ∀ calls : List (Int × CountMetricProducer.Call), (∀ c ∈ calls, c.1 < 2 ^ 62) →
        (CountMetricProducer.NeverMoves metric activations initialCondition startTimeNs calls ↔ mTimeBaseNs = 0)) ∧
    ∀ metric : DurationMetric, metric.mTimeBaseNs = mTimeBaseNs → metric.mBucketSizeNs = configBucketSizeNs uid none →
      ∀ equalOutputDimensions, ∀ calls : List (Int × DurationMetricProducer.Call), (∀ c ∈ calls, c.1 < 2 ^ 62) →
        (DurationMetricProducer.NeverMoves OringDurationTracker metric activations initialCondition equalOutputDimensions
          startTimeNs calls ↔ mTimeBaseNs = 0) ∧
        (DurationMetricProducer.NeverMoves MaxDurationTracker metric activations initialCondition equalOutputDimensions
          startTimeNs calls ↔ mTimeBaseNs = 0) := by
  constructor
  · rintro metric rfl hsize calls ht
    exact CountMetricProducer.neverMoves_iff hsize hbase activations initialCondition hstart ht
  · rintro metric rfl hsize equalOutputDimensions calls ht
    exact ⟨DurationMetricProducer.neverMoves_iff hsize hbase activations initialCondition equalOutputDimensions hstart ht,
      DurationMetricProducer.neverMoves_iff hsize hbase activations initialCondition equalOutputDimensions hstart ht⟩

/-- A count metric with the time base 0, told of an upgrade. -/
theorem bucketless_iff_zero :
    CountMetricProducer.NeverMoves (CountMetricProducer.plainMetric LLONG_MAX) ⟨[], ∅, ∅⟩ .kTrue 5 [(7, .appUpgrade)] :=
  ((bucketless_iff 1000 le_rfl (by decide) ⟨[], ∅, ∅⟩ .kTrue).1 (CountMetricProducer.plainMetric LLONG_MAX) rfl rfl
    [(7, .appUpgrade)] (by simp)).2 rfl

/-- With the time base 1, the constructor computes the end of the first bucket as 2^63. -/
theorem first_end_overflows :
    ¬ ∀ (uid : Int) (metric : CountMetric) (startTimeNs : Int), 0 ≤ metric.mTimeBaseNs → metric.mTimeBaseNs ≤ startTimeNs →
      startTimeNs < 2 ^ 62 → metric.mBucketSizeNs = configBucketSizeNs uid none →
      CountMetricProducer.NeverMoves metric ⟨[], ∅, ∅⟩ .kTrue startTimeNs [] := by
  intro h
  have hmoves := h 1000 { CountMetricProducer.plainMetric LLONG_MAX with mTimeBaseNs := 1 } 1 (by decide) le_rfl (by decide) rfl
  exact absurd (base_eq_zero (by decide) hmoves.1) (by decide)

end Statsd.Metrics
