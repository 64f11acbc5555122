/-
OR-duration conservation. At any moment of a run the emitted, pending and running time of a state key
add up to the time during which a key was started while that state was current, and the buckets of a
state key follow one another, each inside one bucket of the metric and no longer than its interval.
-/
import Statsd.Base.Grid
import Statsd.Base.Run
import Statsd.StatsLogUtil
import Statsd.Metrics.OringAccounting

namespace Statsd.Metrics.OringDurationTracker

/-! ## The invariant -/

/-- A bucket lies inside one aligned bucket of the metric and is not longer than its interval. -/
def WellPlaced (t : OringDurationTracker) (b : DurationBucket) : Prop :=
  (∃ n : Int, t.mStartTimeNs + n * t.mBucketSizeNs ≤ b.mBucketStartNs ∧
    b.mBucketEndNs ≤ t.mStartTimeNs + (n + 1) * t.mBucketSizeNs) ∧
  0 < b.mDuration ∧ b.mDuration ≤ b.mBucketEndNs - b.mBucketStartNs

/-- The tracker's current bucket starts inside the aligned bucket of its number. -/
structure InBucket (t : OringDurationTracker) : Prop where
  size : 0 < t.mBucketSizeNs
  lower : t.mStartTimeNs + t.mCurrentBucketNum * t.mBucketSizeNs ≤ t.mCurrentBucketStartTimeNs
  upper : t.mCurrentBucketStartTimeNs < t.getCurrentBucketEndTimeNs

structure Inv (t : OringDurationTracker) (output : PastBuckets) (now : Int) : Prop where
  inBucket : t.InBucket
  past : t.mCurrentBucketStartTimeNs ≤ now
  nonneg : ∀ s, 0 ≤ t.pending s
  idle : t.started = false → ∀ s, t.mCurrentBucketStartTimeNs + t.pending s ≤ now ∧
    t.mCurrentBucketStartTimeNs + t.pending s ≤ t.getCurrentBucketEndTimeNs
  clock : t.started = true → t.mLastStartTime ≤ now ∧ t.mLastStartTime ≤ t.getCurrentBucketEndTimeNs ∧
    ∀ s, t.mCurrentBucketStartTimeNs + t.pending s ≤ t.mLastStartTime
  ordered : ∀ s, (t.bucketsOf output s).Pairwise fun b c => b.mBucketEndNs ≤ c.mBucketStartNs
  placed : ∀ s, ∀ b ∈ t.bucketsOf output s, t.WellPlaced b ∧ b.mBucketEndNs ≤ t.mCurrentBucketStartTimeNs

variable {t : OringDurationTracker} {time : Int}

theorem Inv.tick {output : PastBuckets} {now now' : Int} (h : Inv t output now) (hle : now ≤ now') :
    Inv t output now' := by
  refine ⟨h.inBucket, h.past.trans hle, h.nonneg, fun hs s => ?_, fun hs => ?_, h.ordered, h.placed⟩
  · exact ⟨(h.idle hs s).1.trans hle, (h.idle hs s).2⟩
  · obtain ⟨h1, h2, h3⟩ := h.clock hs
    exact ⟨h1.trans hle, h2, h3⟩

/-- Nothing outside the current bucket is running, so the tracker may be flushed later. -/
def UpToDate (t : OringDurationTracker) (now : Int) : Prop := now < t.getCurrentBucketEndTimeNs

variable {t t' : OringDurationTracker} {output output' : PastBuckets} {e : Int} {x : Tracked}

theorem SameBucket.endTime (h : SameBucket t t') :
    t'.getCurrentBucketEndTimeNs = t.getCurrentBucketEndTimeNs := by
  unfold getCurrentBucketEndTimeNs; rw [h.start, h.num, h.size]

theorem SameBucket.bucketsOf (h : SameBucket t t') (output : PastBuckets)
    (s : HashableDimensionKey) : t'.bucketsOf output s = t.bucketsOf output s := by
  unfold OringDurationTracker.bucketsOf; rw [h.what]

theorem SameBucket.wellPlaced (h : SameBucket t t') {b : DurationBucket}
    (hb : t.WellPlaced b) : t'.WellPlaced b := by
  unfold WellPlaced; rw [h.start, h.size]; exact hb

theorem Inv.op {output : PastBuckets} {now : Int} (h : Inv t output now) (hop : OpSpec t t' now)
    (hok : t.UpToDate now ∨ t.started = false ∧ t'.started = false) : Inv t' output now := by
  obtain ⟨hb, htime⟩ := hop
  have hend := hb.endTime
  refine ⟨⟨?_, ?_, ?_⟩, ?_, ?_, ?_, ?_, fun s => ?_, fun s b hmem => ?_⟩
  · rw [hb.size]; exact h.inBucket.size
  · rw [hb.start, hb.num, hb.size, hb.bucketStart]; exact h.inBucket.lower
  · rw [hb.bucketStart, hend]; exact h.inBucket.upper
  · rw [hb.bucketStart]; exact h.past
  · intro s
    cases htime with
    | idle _ _ hp => rw [hp]; exact h.nonneg s
    | opened _ _ _ hp => rw [hp]; exact h.nonneg s
    | kept _ _ _ _ hp => rw [hp]; exact h.nonneg s
    | closed hs _ hp =>
      rw [hp]
      have := h.nonneg s
      have := (h.clock hs).1
      split <;> omega
  · intro hoff s
    rw [hb.bucketStart, hend]
    cases htime with
    | idle hs _ hp => rw [hp]; exact h.idle hs s
    | opened _ hon => rw [hon] at hoff; cases hoff
    | kept _ hon => rw [hon] at hoff; cases hoff
    | closed hs _ hp =>
      have hnow : now < t.getCurrentBucketEndTimeNs := by
        rcases hok with hok | ⟨hs', -⟩
        · exact hok
        · rw [hs] at hs'; cases hs'
      obtain ⟨h1, h2, h3⟩ := h.clock hs
      have := h3 s
      rw [hp]
      split <;> omega
  · intro hon
    have hnow : now < t.getCurrentBucketEndTimeNs := by
      rcases hok with hok | ⟨-, hoff⟩
      · exact hok
      · rw [hon] at hoff; cases hoff
    rw [hb.bucketStart, hend]
    cases htime with
    | idle _ hoff => rw [hon] at hoff; cases hoff
    | opened hs _ hl hp =>
      rw [hl]
      exact ⟨le_refl _, le_of_lt hnow, fun s => by rw [hp]; exact (h.idle hs s).1⟩
    | kept hs _ hl _ hp =>
      obtain ⟨h1, h2, h3⟩ := h.clock hs
      rw [hl]
      exact ⟨h1, h2, fun s => by rw [hp]; exact h3 s⟩
    | closed hs hl hp =>
      obtain ⟨h1, h2, h3⟩ := h.clock hs
      rw [hl hon]
      refine ⟨le_refl _, le_of_lt hnow, fun s => ?_⟩
      have := h3 s
      rw [hp]
      split <;> omega
  · rw [hb.bucketsOf]; exact h.ordered s
  · rw [hb.bucketsOf] at hmem
    rw [hb.bucketStart]
    exact ⟨hb.wellPlaced (h.placed s b hmem).1, (h.placed s b hmem).2⟩

/-! ## Flushes -/

theorem bucketsForward_bounds (hsize : 0 < t.mBucketSizeNs) (he : e ≥ t.getCurrentBucketEndTimeNs) :
    0 < t.bucketsForward e ∧ t.getCurrentBucketEndTimeNs + (t.bucketsForward e - 1) * t.mBucketSizeNs ≤ e ∧
      e < t.getCurrentBucketEndTimeNs + t.bucketsForward e * t.mBucketSizeNs := by
  unfold bucketsForward
  rw [if_pos he]
  exact Grid.stepsAfter_bounds hsize he

theorem bucketsForward_early (he : ¬ e ≥ t.getCurrentBucketEndTimeNs) :
    t.bucketsForward e = 0 := if_neg he

theorem FlushSpec.inBucket (h : FlushSpec t t' e output output') (ht : t.InBucket) (hpast : t.mCurrentBucketStartTimeNs ≤ e) :
    t'.InBucket ∧ t'.mCurrentBucketStartTimeNs ≤ e ∧ t'.UpToDate e ∧
      t.closesAt e ≤ t'.mCurrentBucketStartTimeNs := by
  have hendEq : t'.getCurrentBucketEndTimeNs = t.mStartTimeNs + (t'.mCurrentBucketNum + 1) * t.mBucketSizeNs := by
    unfold getCurrentBucketEndTimeNs; rw [h.startTime, h.size]
  have hE : t.getCurrentBucketEndTimeNs = t.mStartTimeNs + (t.mCurrentBucketNum + 1) * t.mBucketSizeNs := rfl
  unfold UpToDate closesAt
  by_cases he : e ≥ t.getCurrentBucketEndTimeNs
  · obtain ⟨hn, h1, h2⟩ := bucketsForward_bounds ht.size he
    have hstart := h.start
    have hnum := h.num
    rw [if_pos hn] at hstart hnum
    rw [if_pos he]
    have hlow : t.mStartTimeNs + (t.mCurrentBucketNum + t.bucketsForward e) * t.mBucketSizeNs =
        t.getCurrentBucketEndTimeNs + (t.bucketsForward e - 1) * t.mBucketSizeNs := by rw [hE]; ring
    have hup : t.mStartTimeNs + (t.mCurrentBucketNum + t.bucketsForward e + 1) * t.mBucketSizeNs =
        t.getCurrentBucketEndTimeNs + t.bucketsForward e * t.mBucketSizeNs := by rw [hE]; ring
    have hpos : 0 ≤ (t.bucketsForward e - 1) * t.mBucketSizeNs :=
      mul_nonneg (by omega) (le_of_lt ht.size)
    refine ⟨⟨?_, ?_, ?_⟩, ?_, ?_, ?_⟩
    · rw [h.size]; exact ht.size
    · rw [h.startTime, h.size, hnum, hstart, hlow]
    · rw [hendEq, hnum, hstart, hup]; omega
    · rw [hstart]; exact h1
    · rw [hendEq, hnum, hup]; exact h2
    · rw [hstart]; omega
  · have hn := bucketsForward_early he
    have hstart := h.start
    have hnum := h.num
    rw [hn, if_neg (by omega)] at hstart hnum
    rw [if_neg he]
    have hlt : e < t.getCurrentBucketEndTimeNs := by omega
    refine ⟨⟨?_, ?_, ?_⟩, le_of_eq hstart, ?_, le_of_eq hstart.symm⟩
    · rw [h.size]; exact ht.size
    · rw [h.startTime, h.size, hnum, hstart]; exact ht.lower.trans hpast
    · rw [hendEq, hnum, hstart, ← hE]; exact hlt
    · rw [hendEq, hnum, ← hE]; exact hlt

theorem Inv.due {output : PastBuckets} (h : Inv t output e) (s : HashableDimensionKey) :
    0 ≤ t.pending s + t.running (t.closesAt e) s ∧
      t.mCurrentBucketStartTimeNs + (t.pending s + t.running (t.closesAt e) s) ≤ t.closesAt e := by
  have h0 := h.nonneg s
  unfold running closesAt
  cases hs : t.started with
  | false =>
    have := h.idle hs s
    simp only [Bool.false_eq_true, false_and, if_false]
    split <;> omega
  | true =>
    obtain ⟨h1, h2, h3⟩ := h.clock hs
    have := h3 s
    simp only [true_and]
    split <;> split <;> omega

/-- The buckets a flush adds for a state key. -/
def added (t : OringDurationTracker) (e : Int) (s : HashableDimensionKey) : List DurationBucket :=
  partOf t.mCurrentBucketStartTimeNs (t.closesAt e) (t.pending s + t.running (t.closesAt e) s) ++
    if t.started = true ∧ s = t.stateKey then
      (List.range' 1 (t.bucketsForward e - 1).toNat).map (t.filled t.getCurrentBucketEndTimeNs) else []

theorem filled_spec (ht : t.InBucket) {i : Nat}
    (hi : i ∈ List.range' 1 (t.bucketsForward e - 1).toNat) :
    t.WellPlaced (t.filled t.getCurrentBucketEndTimeNs i) ∧
      t.closesAt e ≤ (t.filled t.getCurrentBucketEndTimeNs i).mBucketStartNs ∧
      (t.filled t.getCurrentBucketEndTimeNs i).mBucketEndNs ≤
        t.getCurrentBucketEndTimeNs + (t.bucketsForward e - 1) * t.mBucketSizeNs := by
  rw [List.mem_range'_1] at hi
  have hE : t.getCurrentBucketEndTimeNs = t.mStartTimeNs + (t.mCurrentBucketNum + 1) * t.mBucketSizeNs := rfl
  have he : e ≥ t.getCurrentBucketEndTimeNs := by
    by_contra he
    have := bucketsForward_early he
    omega
  have hsize := ht.size
  have hi1 : (1 : Int) ≤ i := by omega
  have hin : (i : Int) ≤ t.bucketsForward e - 1 := by omega
  have hlo : 0 ≤ t.mBucketSizeNs * ((i : Int) - 1) := mul_nonneg (le_of_lt hsize) (by omega)
  have hhi : t.mBucketSizeNs * (i : Int) ≤ t.mBucketSizeNs * (t.bucketsForward e - 1) :=
    mul_le_mul_of_nonneg_left hin (le_of_lt hsize)
  have hmul : t.mBucketSizeNs * ((i : Int) - 1) + t.mBucketSizeNs = t.mBucketSizeNs * i := by ring
  have hcomm : (t.bucketsForward e - 1) * t.mBucketSizeNs = t.mBucketSizeNs * (t.bucketsForward e - 1) := by ring
  unfold filled closesAt
  dsimp only
  rw [if_pos he, hcomm]
  refine ⟨⟨⟨t.mCurrentBucketNum + i, ?_, ?_⟩, hsize, ?_⟩, ?_, ?_⟩
  · dsimp only; rw [hE]; apply le_of_eq; ring
  · dsimp only; rw [hE]; apply le_of_eq; ring
  · dsimp only; omega
  · omega
  · omega

theorem partOf_spec {start stop p : Int} {b : DurationBucket} (h : b ∈ partOf start stop p) :
    0 < p ∧ b = ⟨start, stop, p⟩ := by
  unfold partOf at h
  split at h
  · rename_i hp; exact ⟨hp, List.mem_singleton.1 h⟩
  · cases h

theorem Inv.added (h : Inv t output e)
    (hf : FlushSpec t t' e output output') (s : HashableDimensionKey) :
    ((t.added e s).Pairwise fun b c => b.mBucketEndNs ≤ c.mBucketStartNs) ∧
    ∀ b ∈ t.added e s, t.WellPlaced b ∧ t.mCurrentBucketStartTimeNs ≤ b.mBucketStartNs ∧
      b.mBucketEndNs ≤ t'.mCurrentBucketStartTimeNs := by
  obtain ⟨hdue0, hdue⟩ := h.due s
  obtain ⟨hin', hpast', -, hclose⟩ := hf.inBucket h.inBucket h.past
  have hstart : t.mCurrentBucketStartTimeNs ≤ t.closesAt e := by omega
  have hpart : ∀ b ∈ partOf t.mCurrentBucketStartTimeNs (t.closesAt e) (t.pending s + t.running (t.closesAt e) s),
      t.WellPlaced b ∧ b.mBucketStartNs = t.mCurrentBucketStartTimeNs ∧ b.mBucketEndNs = t.closesAt e := by
    intro b hb
    obtain ⟨hp, rfl⟩ := partOf_spec hb
    refine ⟨⟨⟨t.mCurrentBucketNum, h.inBucket.lower, ?_⟩, hp, by dsimp only; omega⟩, rfl, rfl⟩
    show t.closesAt e ≤ t.getCurrentBucketEndTimeNs
    unfold closesAt
    split <;> omega
  have hfill : ∀ i ∈ List.range' 1 (t.bucketsForward e - 1).toNat,
      (t.filled t.getCurrentBucketEndTimeNs i).mBucketEndNs ≤ t'.mCurrentBucketStartTimeNs := by
    intro i hi
    have hn : t.bucketsForward e > 0 := by
      rw [List.mem_range'_1] at hi
      omega
    have hs := hf.start
    rw [if_pos hn] at hs
    rw [hs]
    exact (filled_spec h.inBucket hi).2.2
  unfold OringDurationTracker.added
  constructor
  · refine List.pairwise_append.2 ⟨?_, ?_, ?_⟩
    · unfold partOf
      split
      · exact List.pairwise_singleton _ _
      · exact List.Pairwise.nil
    · split
      · rw [List.pairwise_map]
        refine List.Pairwise.imp_of_mem ?_ (List.pairwise_lt_range' ..)
        intro i j _ _ hij
        unfold filled
        dsimp only
        have hij' : (i : Int) ≤ (j : Int) - 1 := by omega
        have := mul_le_mul_of_nonneg_left hij' (le_of_lt h.inBucket.size)
        have hmul : t.mBucketSizeNs * ((i : Int) - 1) + t.mBucketSizeNs = t.mBucketSizeNs * i := by ring
        omega
      · exact List.Pairwise.nil
    · intro b hb c hc
      rw [(hpart b hb).2.2]
      split at hc
      · obtain ⟨i, hi, rfl⟩ := List.mem_map.1 hc
        exact (filled_spec h.inBucket hi).2.1
      · cases hc
  · intro b hb
    rcases List.mem_append.1 hb with hb | hb
    · obtain ⟨h1, h2, h3⟩ := hpart b hb
      exact ⟨h1, le_of_eq h2.symm, h3 ▸ hclose⟩
    · split at hb
      · obtain ⟨i, hi, rfl⟩ := List.mem_map.1 hb
        obtain ⟨h1, h2, -⟩ := filled_spec h.inBucket hi
        exact ⟨h1, hstart.trans h2, hfill i hi⟩
      · cases hb

theorem FlushSpec.bucketsOf (h : FlushSpec t t' e output output') (s : HashableDimensionKey) :
    t'.bucketsOf output' s = t.bucketsOf output s ++ t.added e s := by
  have hwhat : t'.bucketsOf output' s = t.bucketsOf output' s := by
    unfold OringDurationTracker.bucketsOf; rw [h.key]
  rw [hwhat, h.buckets, List.append_assoc]
  rfl

theorem FlushSpec.started_eq (h : FlushSpec t t' e output output') : t'.started = t.started := by
  unfold OringDurationTracker.started; rw [h.started]

theorem Inv.flush (h : Inv t output e)
    (hf : FlushSpec t t' e output output') : Inv t' output' e ∧ t'.UpToDate e := by
  obtain ⟨hin, hpast, hup, hclose⟩ := hf.inBucket h.inBucket h.past
  have hupper := hin.upper
  refine ⟨⟨hin, hpast, fun s => by rw [hf.pending], fun _ s => ?_, fun _ => ?_, fun s => ?_, fun s b hb => ?_⟩, hup⟩
  · rw [hf.pending]; omega
  · rw [hf.last]
    exact ⟨hpast, le_of_lt hupper, fun s => by rw [hf.pending]; omega⟩
  · rw [hf.bucketsOf]
    obtain ⟨hpw, hb⟩ := h.added hf s
    refine List.pairwise_append.2 ⟨h.ordered s, hpw, fun b hb' c hc => ?_⟩
    exact (h.placed s b hb').2.trans (hb c hc).2.1
  · have hplaced : ∀ b, t.WellPlaced b → t'.WellPlaced b := by
      intro b hb
      unfold WellPlaced; rw [hf.startTime, hf.size]; exact hb
    rw [hf.bucketsOf] at hb
    have hle : t.mCurrentBucketStartTimeNs ≤ t'.mCurrentBucketStartTimeNs := by
      have := h.due s
      omega
    rcases List.mem_append.1 hb with hb | hb
    · exact ⟨hplaced b (h.placed s b hb).1, (h.placed s b hb).2.trans hle⟩
    · obtain ⟨h1, -, h3⟩ := (h.added hf s).2 b hb
      exact ⟨hplaced b h1, h3⟩

/-! ## Conservation -/

/-- The time accounted to a state key: emitted, pending and running. -/
def account (t : OringDurationTracker) (output : PastBuckets) (now : Int) (s : HashableDimensionKey) : Int :=
  ((t.bucketsOf output s).map (·.mDuration)).sum + t.pending s + t.running now s

theorem sum_partOf {start stop p : Int} (h : 0 ≤ p) : ((partOf start stop p).map (·.mDuration)).sum = p := by
  unfold partOf
  split
  · simp
  · simp; omega

theorem sum_filled (t : OringDurationTracker) (E : Int) (l : List Nat) :
    ((l.map (t.filled E)).map (·.mDuration)).sum = l.length * t.mBucketSizeNs := by
  induction l with
  | nil => simp
  | cons i l ih =>
    rw [List.map_cons, List.map_cons, List.sum_cons, ih]
    simp only [filled, List.length_cons]
    push_cast
    ring

theorem Inv.flush_conserves (h : Inv t output e)
    (hf : FlushSpec t t' e output output') (s : HashableDimensionKey) :
    t'.account output' e s = t.account output e s := by
  have hdue := (h.due s).1
  have hkey : t'.stateKey = t.stateKey := by unfold stateKey; rw [hf.key]
  unfold account
  rw [hf.bucketsOf, hf.pending, List.map_append, List.sum_append]
  unfold OringDurationTracker.added
  rw [List.map_append, List.sum_append, sum_partOf hdue]
  unfold running
  rw [hf.started_eq, hkey, hf.last]
  by_cases hon : t.started = true ∧ s = t.stateKey
  · simp only [if_pos hon]
    rw [sum_filled, List.length_range', hf.start]
    unfold closesAt
    by_cases he : e ≥ t.getCurrentBucketEndTimeNs
    · obtain ⟨hn, -, -⟩ := bucketsForward_bounds h.inBucket.size he
      rw [if_pos he, if_pos hn, Int.toNat_of_nonneg (by omega)]
      ring
    · rw [if_neg he, bucketsForward_early he, if_neg (by omega)]
      simp
      ring
  · simp only [if_neg hon]
    simp

theorem OpSpec.conserves {now : Int} (h : OpSpec t t' now) (output : PastBuckets)
    (s : HashableDimensionKey) : t'.account output now s = t.account output now s := by
  unfold account
  rw [h.bucket.bucketsOf, add_assoc, add_assoc, h.time.conserves s]

/-- The calls of a metric producer on a tracker. -/
inductive TrackerOp where
  | noteStart (key : HashableDimensionKey) (condition : Bool) (conditionKey : ConditionKey)
  | noteStop (key : HashableDimensionKey) (stopAll : Bool)
  | noteStopAll
  | onConditionChanged (condition : Bool)
  | onSlicedConditionMayChange (query : ConditionKey → ConditionState)
  | onStateChanged (atomId : Int) (newState : Value)
  | flushIfNeeded
  | flushCurrentBucket

/-- Starts with a false condition and stops never start the clock. -/
def TrackerOp.neverStarts : TrackerOp → Bool
  | .noteStart _ condition _ => !condition
  | .noteStop _ _ => true
  | .noteStopAll => true
  | _ => false

/-- A call at a time. The producer flushes first, except for the starts and stops it sees while the
metric is inactive. -/
structure TrackerEvent where
  time : Int
  flushed : Bool
  op : TrackerOp

/-- A tracker with the buckets it has emitted and the time of its last call. -/
structure Tracked where
  tracker : OringDurationTracker
  output : PastBuckets
  now : Int

namespace Tracked

def flushIfNeeded (x : Tracked) (time : Int) : Tracked :=
  let r := x.tracker.flushIfNeeded time x.output
  ⟨r.1, r.2.1, time⟩

def apply (x : Tracked) (time : Int) : TrackerOp → Tracked
  | .noteStart key condition conditionKey => ⟨x.tracker.noteStart key condition time conditionKey, x.output, time⟩
  | .noteStop key stopAll => ⟨x.tracker.noteStop key time stopAll, x.output, time⟩
  | .noteStopAll => ⟨x.tracker.noteStopAll time, x.output, time⟩
  | .onConditionChanged condition => ⟨x.tracker.onConditionChanged condition time, x.output, time⟩
  | .onSlicedConditionMayChange query => ⟨x.tracker.onSlicedConditionMayChange query time, x.output, time⟩
  | .onStateChanged atomId newState => ⟨x.tracker.onStateChanged time atomId newState, x.output, time⟩
  | .flushIfNeeded => x.flushIfNeeded time
  | .flushCurrentBucket =>
    let r := x.tracker.flushCurrentBucket time x.output
    ⟨r.1, r.2.1, time⟩

def step (x : Tracked) (e : TrackerEvent) : Tracked :=
  (if e.flushed then x.flushIfNeeded e.time else { x with now := e.time }).apply e.time e.op

/-- Times do not decrease, and a call without a flush comes while nothing is started and starts nothing. -/
def Ok (x : Tracked) (e : TrackerEvent) : Prop :=
  x.now ≤ e.time ∧ (e.flushed = true ∨ x.tracker.started = false ∧ e.op.neverStarts = true)

end Tracked

/-- What the calls at one time do together: the invariant holds and no time is lost. -/
structure Moves (x y : Tracked) (time : Int) : Prop where
  now : y.now = time
  inv : Inv y.tracker y.output time
  conserves : ∀ s, y.tracker.account y.output time s = x.tracker.account x.output time s
  what : y.tracker.mEventKey.mDimensionKeyInWhat = x.tracker.mEventKey.mDimensionKeyInWhat
  size : y.tracker.mBucketSizeNs = x.tracker.mBucketSizeNs
  start : y.tracker.mStartTimeNs = x.tracker.mStartTimeNs

theorem Moves.trans {x y z : Tracked} (h : Moves x y time) (h' : Moves y z time) : Moves x z time :=
  ⟨h'.now, h'.inv, fun s => (h'.conserves s).trans (h.conserves s), h'.what.trans h.what, h'.size.trans h.size,
    h'.start.trans h.start⟩

theorem moves_flush (h : Inv x.tracker x.output time) :
    Moves x ⟨(x.tracker.flushCurrentBucket time x.output).1, (x.tracker.flushCurrentBucket time x.output).2.1, time⟩ time ∧
      (x.tracker.flushCurrentBucket time x.output).1.UpToDate time := by
  have hf := x.tracker.flushCurrentBucket_spec time x.output
  obtain ⟨hinv, hup⟩ := h.flush hf
  exact ⟨⟨rfl, hinv, h.flush_conserves hf, congrArg _ hf.key, hf.size, hf.startTime⟩, hup⟩

theorem moves_flushIfNeeded (h : Inv x.tracker x.output time) :
    Moves x (x.flushIfNeeded time) time ∧ (x.flushIfNeeded time).tracker.UpToDate time := by
  unfold Tracked.flushIfNeeded OringDurationTracker.flushIfNeeded
  split
  · rename_i hlt
    exact ⟨⟨rfl, h, fun _ => rfl, rfl, rfl, rfl⟩, hlt⟩
  · exact moves_flush h

/-- The bucket of a duration metric producer, which the producer hands to its new trackers. -/
structure ProducerBucket where
  mTimeBaseNs : Int
  mBucketSizeNs : Int
  mCurrentBucketNum : Int
  mCurrentBucketStartTimeNs : Int

namespace ProducerBucket

def getCurrentBucketEndTimeNs (p : ProducerBucket) : Int := p.mTimeBaseNs + (p.mCurrentBucketNum + 1) * p.mBucketSizeNs

def flushIfNeededLocked (p : ProducerBucket) (eventTimeNs : Int) : ProducerBucket :=
  if p.getCurrentBucketEndTimeNs > eventTimeNs then p
  else
    let numBucketsForward := 1 + (eventTimeNs - p.getCurrentBucketEndTimeNs).tdiv p.mBucketSizeNs
    { p with
      mCurrentBucketStartTimeNs := p.getCurrentBucketEndTimeNs + (numBucketsForward - 1) * p.mBucketSizeNs
      mCurrentBucketNum := p.mCurrentBucketNum + numBucketsForward }

/-- `flushLocked`: the partial bucket is closed at the event. -/
def flushLocked (p : ProducerBucket) (eventTimeNs : Int) : ProducerBucket :=
  { p.flushIfNeededLocked eventTimeNs with mCurrentBucketStartTimeNs := eventTimeNs }

/-- The constructor. -/
def new (timeBaseNs startTimeNs bucketSizeNs : Int) : ProducerBucket :=
  { flushIfNeededLocked ⟨timeBaseNs, bucketSizeNs, 0, timeBaseNs⟩ startTimeNs with mCurrentBucketStartTimeNs := startTimeNs }

/-- `createDurationTracker` of a SUM metric. -/
def createDurationTracker (p : ProducerBucket) (eventKey : MetricDimensionKey) (nesting conditionSliced : Bool) :
    OringDurationTracker :=
  OringDurationTracker.new eventKey nesting p.mCurrentBucketStartTimeNs p.mCurrentBucketNum p.mTimeBaseNs p.mBucketSizeNs
    conditionSliced

/-- The bucket starts inside the aligned bucket of its number. -/
def InBucket (p : ProducerBucket) : Prop := (p.createDurationTracker ⟨[], []⟩ false false).InBucket

variable {p : ProducerBucket}

theorem InBucket.create (h : p.InBucket) (eventKey : MetricDimensionKey) (nesting conditionSliced : Bool) :
    (p.createDurationTracker eventKey nesting conditionSliced).InBucket :=
  ⟨h.size, h.lower, h.upper⟩

theorem InBucket.flushIfNeededLocked (h : p.InBucket) (e : Int) :
    (p.flushIfNeededLocked e).InBucket ∧ e < (p.flushIfNeededLocked e).getCurrentBucketEndTimeNs ∧
      (p.mCurrentBucketStartTimeNs ≤ e → (p.flushIfNeededLocked e).mCurrentBucketStartTimeNs ≤ e) := by
  unfold ProducerBucket.flushIfNeededLocked
  by_cases he : p.getCurrentBucketEndTimeNs > e
  · rw [if_pos he]; exact ⟨h, he, id⟩
  · rw [if_neg he]
    have he' : e ≥ (p.createDurationTracker ⟨[], []⟩ false false).getCurrentBucketEndTimeNs := not_lt.1 he
    obtain ⟨-, h1, h2⟩ := bucketsForward_bounds h.size he'
    have hsize : 0 < p.mBucketSizeNs := h.size
    unfold bucketsForward at h1 h2
    rw [if_pos he'] at h1 h2
    change p.getCurrentBucketEndTimeNs + (1 + (e - p.getCurrentBucketEndTimeNs).tdiv p.mBucketSizeNs - 1) * p.mBucketSizeNs ≤ e at h1
    change e < p.getCurrentBucketEndTimeNs + (1 + (e - p.getCurrentBucketEndTimeNs).tdiv p.mBucketSizeNs) * p.mBucketSizeNs at h2
    generalize 1 + (e - p.getCurrentBucketEndTimeNs).tdiv p.mBucketSizeNs = n at h1 h2
    have hE : p.getCurrentBucketEndTimeNs = p.mTimeBaseNs + (p.mCurrentBucketNum + 1) * p.mBucketSizeNs := rfl
    have hlow : p.mTimeBaseNs + (p.mCurrentBucketNum + n) * p.mBucketSizeNs =
        p.getCurrentBucketEndTimeNs + (n - 1) * p.mBucketSizeNs := by rw [hE]; ring
    have hup : p.mTimeBaseNs + (p.mCurrentBucketNum + n + 1) * p.mBucketSizeNs =
        p.getCurrentBucketEndTimeNs + n * p.mBucketSizeNs := by rw [hE]; ring
    have hnext : p.getCurrentBucketEndTimeNs + (n - 1) * p.mBucketSizeNs + p.mBucketSizeNs =
        p.getCurrentBucketEndTimeNs + n * p.mBucketSizeNs := by ring
    refine ⟨⟨hsize, le_of_eq hlow, ?_⟩, ?_, fun _ => h1⟩
    · show _ < p.mTimeBaseNs + (p.mCurrentBucketNum + n + 1) * p.mBucketSizeNs
      dsimp only [createDurationTracker, OringDurationTracker.new]
      omega
    · show e < p.mTimeBaseNs + (p.mCurrentBucketNum + n + 1) * p.mBucketSizeNs
      omega

theorem InBucket.flushLocked (h : p.InBucket) {e : Int} (he : p.mCurrentBucketStartTimeNs ≤ e) :
    (p.flushLocked e).InBucket := by
  obtain ⟨hin, hlt, hle⟩ := h.flushIfNeededLocked e
  exact ⟨hin.size, le_trans hin.lower (hle he), hlt⟩

theorem inBucket_new {timeBaseNs startTimeNs bucketSizeNs : Int} (hsize : 0 < bucketSizeNs) (hstart : timeBaseNs ≤ startTimeNs) :
    (new timeBaseNs startTimeNs bucketSizeNs).InBucket := by
  have h0 : InBucket ⟨timeBaseNs, bucketSizeNs, 0, timeBaseNs⟩ := by
    refine ⟨hsize, ?_, ?_⟩
    · simp [createDurationTracker, OringDurationTracker.new]
    · simp [createDurationTracker, OringDurationTracker.new, OringDurationTracker.getCurrentBucketEndTimeNs, hsize]
  exact h0.flushLocked hstart

/-- The buckets a producer goes through: it starts no earlier than its time base, and closes partial
buckets at times after their start. -/
inductive Reachable : ProducerBucket → Prop where
  | new (timeBaseNs startTimeNs bucketSizeNs : Int) (h : timeBaseNs ≤ startTimeNs) :
      Reachable (new timeBaseNs startTimeNs bucketSizeNs)
  | flushIfNeededLocked (p : ProducerBucket) (e : Int) (h : Reachable p) : Reachable (p.flushIfNeededLocked e)
  | flushLocked (p : ProducerBucket) (e : Int) (h : Reachable p) (he : p.mCurrentBucketStartTimeNs ≤ e) :
      Reachable (p.flushLocked e)

theorem flushIfNeededLocked_size (p : ProducerBucket) (e : Int) : (p.flushIfNeededLocked e).mBucketSizeNs = p.mBucketSizeNs := by
  unfold flushIfNeededLocked; split <;> rfl

theorem Reachable.inBucket (h : p.Reachable) (hsize : 0 < p.mBucketSizeNs) : p.InBucket := by
  induction h with
  | new timeBaseNs startTimeNs bucketSizeNs h =>
    refine inBucket_new ?_ h
    rwa [show (ProducerBucket.new timeBaseNs startTimeNs bucketSizeNs).mBucketSizeNs = bucketSizeNs from
      flushIfNeededLocked_size _ _] at hsize
  | flushIfNeededLocked p e _ ih =>
    rw [flushIfNeededLocked_size] at hsize
    exact ((ih hsize).flushIfNeededLocked e).1
  | flushLocked p e _ he ih =>
    rw [show (p.flushLocked e).mBucketSizeNs = p.mBucketSizeNs from flushIfNeededLocked_size p e] at hsize
    exact (ih hsize).flushLocked he

end ProducerBucket

end Statsd.Metrics.OringDurationTracker
