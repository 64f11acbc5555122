/-
Duration trackers and the bucket of their producer. The producer and each of its trackers move a bucket of their own, with the same
arithmetic but not on the same conditions: when a bucket has ended the producer moves by the counted buckets in any case, the trackers only
if the count is positive, and otherwise they take the time of the flush for the start of a partial bucket.

What moves the buckets of a producer is followed on the buckets alone. The trackers stay in the bucket of the producer as long as each flush
that they live through finds a positive count. The count is an `int`; it is not positive when 2^31 buckets are skipped at once, or when
the size of the buckets is negative.
-/
import Statsd.Base.Run
import Statsd.StatsLogUtil
import Statsd.Metrics.BucketArithmetic
import Statsd.Metrics.MaxDurations
import Statsd.Metrics.OringAccounting

namespace Statsd.Metrics

/-- The current bucket of a producer or tracker, on the grid of the metric. -/
structure CurrentBucket where
  base : Int
  size : Int
  num : Int
  start : Int

namespace CurrentBucket

/-- The grids are the same. -/
def SameGrid (b b' : CurrentBucket) : Prop := b.base = b'.base ∧ b.size = b'.size

/-- The buckets are the same. -/
def InStep (b b' : CurrentBucket) : Prop := b.num = b'.num ∧ b.start = b'.start

theorem eq_of_inStep {b b' : CurrentBucket} (hgrid : b.SameGrid b') (h : b.InStep b') : b = b' := by
  obtain ⟨base, size, num, start⟩ := b
  obtain ⟨rfl, rfl⟩ := hgrid
  obtain ⟨rfl, rfl⟩ := h
  rfl

section

variable (a : Arithmetic) (b : CurrentBucket) (t : Int)

def endNs : Int := a.toInt64 (b.base + (b.num + 1) * b.size)

/-- How many buckets forward a time at or after the bucket's end is. -/
def forward : Int := a.toInt (1 + (a.toInt64 (t - b.endNs a)).tdiv b.size)

/-- The bucket that is `n` buckets forward. -/
def moved (n : Int) : CurrentBucket :=
  { b with num := a.toInt64 (b.num + n), start := a.toInt64 (b.endNs a + a.toInt (n - 1) * b.size) }

/-- The bucket of the producer after a flush if needed. -/
def expired : CurrentBucket := if b.endNs a > t then b else b.moved a (b.forward a t)

/-- The bucket of a tracker after its flush. -/
def flushed : CurrentBucket := if b.endNs a ≤ t ∧ 0 < b.forward a t then b.moved a (b.forward a t) else { b with start := t }

end

variable {a : Arithmetic} {b : CurrentBucket} {t : Int}

theorem flushed_of_not_pos (h : ¬ 0 < b.forward a t) : b.flushed a t = { b with start := t } := if_neg fun hmoves => h hmoves.2

theorem flushed_of_lt (h : t < b.endNs a) : b.flushed a t = { b with start := t } := if_neg fun hmoves => not_lt.2 hmoves.1 h

theorem flushed_of_pos (hend : b.endNs a ≤ t) (h : 0 < b.forward a t) : b.flushed a t = b.moved a (b.forward a t) := if_pos ⟨hend, h⟩

theorem flushed_eq (n : Int) (hn : n = if t ≥ b.endNs a then b.forward a t else 0) :
    b.flushed a t = { b with
      num := if n > 0 then a.toInt64 (b.num + n) else b.num
      start := if n > 0 then a.toInt64 (b.endNs a + a.toInt (n - 1) * b.size) else t } := by
  subst hn
  by_cases hend : b.endNs a ≤ t
  · by_cases hpos : 0 < b.forward a t
    · simp [flushed_of_pos hend hpos, moved, hend, hpos]
    · simp [flushed_of_not_pos hpos, hend, hpos]
  · simp [flushed_of_lt (not_le.1 hend), hend]

theorem expired_of_lt (h : t < b.endNs a) : b.expired a t = b := if_pos h

theorem expired_of_le (h : b.endNs a ≤ t) : b.expired a t = b.moved a (b.forward a t) := if_neg (not_lt.2 h)

theorem flushed_sameGrid : (b.flushed a t).SameGrid b := by
  unfold flushed
  split
  · exact ⟨rfl, rfl⟩
  · exact ⟨rfl, rfl⟩

theorem expired_sameGrid : (b.expired a t).SameGrid b := by
  unfold expired
  split
  · exact ⟨rfl, rfl⟩
  · exact ⟨rfl, rfl⟩

theorem moved_num_iff (hnum : a.toInt64 b.num = b.num) : (b.moved a (b.forward a t)).num = b.num ↔ b.forward a t = 0 := by
  constructor
  · intro h
    exact a.toInt_eq_zero b.num _ hnum h
  · intro h
    simp [moved, h, hnum]

theorem moved_toInt64 (n : Int) : a.toInt64 (b.moved a n).num = (b.moved a n).num := a.toInt64_toInt64 _

theorem expired_toInt64 (hnum : a.toInt64 b.num = b.num) : a.toInt64 (b.expired a t).num = (b.expired a t).num := by
  unfold expired
  split
  · exact hnum
  · exact moved_toInt64 _

end CurrentBucket

/-- What keeps a tracker with the bucket `b` in the bucket of its producer, when that is `b` too. After a flush if needed the tracker has
moved or need not move; after a forced one it has moved once, or no bucket has ended. -/
def CurrentBucket.KeepsUp (a : Arithmetic) (b : CurrentBucket) (t : Int) : FlushKind → Prop
  | .nothing => True
  | .ifNeeded => b.endNs a ≤ t → 0 < b.forward a t ∨ b.forward a t = 0 ∧ t = (b.moved a 0).start
  | .forced => b.endNs a ≤ t → b.forward a t = 0 ∨ 0 < b.forward a t ∧
      ((b.moved a (b.forward a t)).endNs a ≤ t → (b.moved a (b.forward a t)).forward a t ≤ 0)

namespace CurrentBucket

variable {a : Arithmetic} {b : CurrentBucket} {t : Int}

theorem inStep_ifNeeded (hnum : a.toInt64 b.num = b.num) (hend : b.endNs a ≤ t) :
    (b.flushed a t).InStep (b.moved a (b.forward a t)) ↔ b.KeepsUp a t .ifNeeded := by
  unfold KeepsUp
  by_cases hpos : 0 < b.forward a t
  · rw [flushed_of_pos hend hpos]
    exact iff_of_true ⟨rfl, rfl⟩ fun _ => .inl hpos
  · rw [flushed_of_not_pos hpos]
    constructor
    · rintro ⟨hmoved, hstart⟩ -
      have hzero := (moved_num_iff hnum).1 hmoved.symm
      rw [hzero] at hstart
      exact .inr ⟨hzero, hstart⟩
    · intro h
      rcases h hend with h | ⟨hzero, hstart⟩
      · exact absurd h hpos
      · refine ⟨((moved_num_iff hnum).2 hzero).symm, ?_⟩
        rw [hzero]
        exact hstart

theorem inStep_forced (hnum : a.toInt64 b.num = b.num) (hend : b.endNs a ≤ t) :
    ((b.flushed a t).flushed a t).InStep { b.moved a (b.forward a t) with start := t } ↔ b.KeepsUp a t .forced := by
  unfold KeepsUp
  by_cases hpos : 0 < b.forward a t
  · rw [flushed_of_pos hend hpos]
    have hnum' := moved_toInt64 (a := a) (b := b) (b.forward a t)
    have hzero : b.forward a t ≠ 0 := ne_of_gt hpos
    generalize b.moved a (b.forward a t) = next at hnum' ⊢
    by_cases hmoves : next.endNs a ≤ t ∧ 0 < next.forward a t
    · rw [flushed_of_pos hmoves.1 hmoves.2]
      refine iff_of_false (fun h => ?_) fun h => ?_
      · exact ne_of_gt hmoves.2 ((moved_num_iff hnum').1 h.1)
      · rcases h hend with h | ⟨-, h⟩
        · exact hzero h
        · exact not_lt.2 (h hmoves.1) hmoves.2
    · have hflushed : next.flushed a t = { next with start := t } := if_neg hmoves
      rw [hflushed]
      refine iff_of_true ⟨rfl, rfl⟩ fun _ => .inr ⟨hpos, fun hend' => ?_⟩
      exact not_lt.1 fun h => hmoves ⟨hend', h⟩
  · -- the tracker stays where it is, in both flushes
    have hpartial : ¬ 0 < CurrentBucket.forward a { b with start := t } t := hpos
    rw [flushed_of_not_pos hpos, flushed_of_not_pos hpartial]
    constructor
    · rintro ⟨hmoved, -⟩ -
      exact .inl ((moved_num_iff hnum).1 hmoved.symm)
    · intro h
      rcases h hend with hzero | ⟨h, -⟩
      · exact ⟨((moved_num_iff hnum).2 hzero).symm, rfl⟩
      · exact absurd h hpos

/-! ### Ordinary buckets -/

/-- A bucket of a positive size that is not too far behind keeps up, whatever the arithmetic, when the bucket of the time ends later. -/
theorem keepsUp_of_pos (hpos : b.endNs a ≤ t → 0 < b.forward a t)
    (hnext : b.endNs a ≤ t → t < (b.moved a (b.forward a t)).endNs a) (kind : FlushKind) : b.KeepsUp a t kind := by
  cases kind with
  | nothing => trivial
  | ifNeeded => exact fun hend => .inl (hpos hend)
  | forced => exact fun hend => .inr ⟨hpos hend, fun hend' => absurd (hnext hend) (not_lt.2 hend')⟩

theorem lt_of_forward {size d : Int} (hsize : 0 < size) (hd : 0 ≤ d) : 0 < 1 + d.tdiv size ∧ d < (1 + d.tdiv size) * size := by
  rw [Int.tdiv_eq_ediv_of_nonneg hd]
  have hnonneg := Int.ediv_nonneg hd hsize.le
  have hlt := Int.lt_ediv_add_one_mul_self d hsize
  constructor
  · omega
  · rwa [add_comm 1]

theorem keepsUp_exact (hsize : 0 < b.size) (kind : FlushKind) : b.KeepsUp .exact t kind := by
  have hforward : b.endNs .exact ≤ t → 0 < b.forward .exact t ∧ t - b.endNs .exact < b.forward .exact t * b.size := fun hend =>
    lt_of_forward hsize (sub_nonneg.2 hend)
  refine keepsUp_of_pos (fun hend => (hforward hend).1) (fun hend => ?_) kind
  have hend' : (b.moved .exact (b.forward .exact t)).endNs .exact = b.endNs .exact + b.forward .exact t * b.size := by
    simp only [moved, endNs, Arithmetic.exact, id]
    ring
  rw [hend']
  exact sub_lt_iff_lt_add'.1 (hforward hend).2

theorem bmod_of_fits {x : Int} (hlow : 0 ≤ x) (hhigh : x < 2 ^ 63) : x.bmod (2 ^ 64) = x := by
  apply Int.bmod_eq_of_le
  · omega
  · omega

theorem bmod_grid (base x size : Int) :
    (base + (x.bmod (2 ^ 64) + 1) * size).bmod (2 ^ 64) = (base + (x + 1) * size).bmod (2 ^ 64) := by
  obtain ⟨k, hk⟩ := Int.dvd_bmod_sub_self (x := x) (m := 2 ^ 64)
  have hsum : base + (x.bmod (2 ^ 64) + 1) * size = base + (x + 1) * size + ((2 ^ 64 : Nat) : Int) * (k * size) := by
    rw [sub_eq_iff_eq_add.1 hk]
    ring
  rw [hsum, Int.add_mul_bmod_self_left]

theorem forward_exact : b.forward .exact t = 1 + (t - b.endNs .exact).tdiv b.size := rfl

theorem forward_machine : b.forward .machine t = (1 + ((t - b.endNs .machine).bmod (2 ^ 64)).tdiv b.size).bmod (2 ^ 32) := rfl

/-- Nor does rounding matter as long as the times fit an `int64_t` and fewer than 2^31 buckets have passed. -/
theorem keepsUp_machine (hsize : 0 < b.size) (hlow : 0 ≤ b.endNs .exact) (hhigh : b.endNs .exact < 2 ^ 63)
    (hfits : t + b.size < 2 ^ 63) (hfew : t - b.endNs .exact < (2 ^ 31 - 1) * b.size) (kind : FlushKind) :
    b.KeepsUp .machine t kind := by
  have hend : b.endNs .machine = b.endNs .exact := bmod_of_fits hlow hhigh
  have hexact : b.endNs .exact ≤ t → 0 < b.forward .exact t ∧ t - b.endNs .exact < b.forward .exact t * b.size := fun hend =>
    lt_of_forward hsize (sub_nonneg.2 hend)
  have hforward : b.endNs .exact ≤ t → b.forward .machine t = b.forward .exact t := by
    intro hle
    have hd : (t - b.endNs .exact).bmod (2 ^ 64) = t - b.endNs .exact := bmod_of_fits (by omega) (by omega)
    have hquotient : (t - b.endNs .exact).tdiv b.size < 2 ^ 31 - 1 := by
      rw [Int.tdiv_eq_ediv_of_nonneg (sub_nonneg.2 hle)]
      exact Int.ediv_lt_of_lt_mul hsize hfew
    have hpos := (hexact hle).1
    rw [forward_exact] at hpos
    rw [forward_machine, forward_exact, hend, hd]
    apply Int.bmod_eq_of_le
    · omega
    · omega
  have hmoved : b.endNs .exact ≤ t → (b.moved .machine (b.forward .exact t)).endNs .machine =
      b.endNs .exact + b.forward .exact t * b.size := by
    intro hle
    have hnext := (hexact hle).2
    have hlast : (b.forward .exact t - 1) * b.size ≤ t - b.endNs .exact := by
      rw [forward_exact, add_sub_cancel_left, Int.tdiv_eq_ediv_of_nonneg (sub_nonneg.2 hle)]
      exact Int.ediv_mul_le _ hsize.ne'
    rw [sub_mul, one_mul] at hlast
    rw [← bmod_of_fits (x := b.endNs .exact + b.forward .exact t * b.size) (by omega) (by omega)]
    refine (bmod_grid b.base (b.num + b.forward .exact t) b.size).trans (congrArg (Int.bmod · _) ?_)
    simp only [endNs, Arithmetic.exact, id]
    ring
  apply keepsUp_of_pos
  · intro hle
    rw [hend] at hle
    rw [hforward hle]
    exact (hexact hle).1
  · intro hle
    rw [hend] at hle
    rw [hforward hle, hmoved hle]
    exact sub_lt_iff_lt_add'.1 (hexact hle).2

end CurrentBucket

/-! ## The buckets of a producer and its trackers -/

/-- The buckets of a producer and of its trackers, and whether a tracker lives on after a flush. -/
structure CurrentBuckets where
  producer : CurrentBucket
  trackers : HashableDimensionKey → Option (CurrentBucket × Bool)

namespace CurrentBuckets

/-- The trackers are in the bucket of the producer. -/
def InStep (v : CurrentBuckets) : Prop := ∀ k it, v.trackers k = some it → it.1.InStep v.producer

/-- The buckets are on one grid, and the number of the producer's is stored. -/
structure Inv (a : Arithmetic) (v : CurrentBuckets) : Prop where
  grid : ∀ k it, v.trackers k = some it → it.1.SameGrid v.producer
  num : a.toInt64 v.producer.num = v.producer.num

/-- Some tracker lives on after a flush. -/
def AnyPending (v : CurrentBuckets) : Prop := ∃ k b, v.trackers k = some (b, true)

section

variable (a : Arithmetic) (v : CurrentBuckets) (t : Int)

def flushTrackers : HashableDimensionKey → Option (CurrentBucket × Bool) :=
  fun k => (v.trackers k).bind fun it => if it.2 then some (it.1.flushed a t, true) else none

/-- `flushCurrentBucketLocked`. -/
def flushCurrent (nextBucketStartTimeNs : Int) : CurrentBuckets :=
  ⟨{ v.producer with start := nextBucketStartTimeNs }, v.flushTrackers a t⟩

/-- `flushIfNeededLocked`. -/
def flushIfNeeded : CurrentBuckets :=
  if v.producer.endNs a > t then v else ⟨v.producer.expired a t, v.flushTrackers a t⟩

def flush : FlushKind → CurrentBuckets
  | .nothing => v
  | .ifNeeded => v.flushIfNeeded a t
  | .forced => (v.flushIfNeeded a t).flushCurrent a t t

end

variable {a : Arithmetic} {v : CurrentBuckets} {t : Int}

theorem flushTrackers_eq_some {k : HashableDimensionKey} {it : CurrentBucket × Bool} :
    v.flushTrackers a t k = some it ↔ ∃ b, v.trackers k = some (b, true) ∧ it = (b.flushed a t, true) := by
  unfold flushTrackers
  constructor
  · intro h
    obtain ⟨⟨b, pending⟩, hk, h⟩ := Option.bind_eq_some_iff.1 h
    cases pending with
    | true => exact ⟨b, hk, by simpa using h.symm⟩
    | false => simp at h
  · rintro ⟨b, hk, rfl⟩
    simp [hk]

theorem flushIfNeeded_none (b : CurrentBucket) :
    flushIfNeeded a ⟨b, fun _ => none⟩ t = ⟨b.expired a t, fun _ => none⟩ := by
  unfold flushIfNeeded
  by_cases hend : b.endNs a > t
  · rw [if_pos hend, CurrentBucket.expired_of_lt hend]
  · rw [if_neg hend]
    rfl

theorem Inv.flushTrackers (h : v.Inv a) {b : CurrentBucket} (hgrid : b.SameGrid v.producer) (hnum : a.toInt64 b.num = b.num) :
    (⟨b, v.flushTrackers a t⟩ : CurrentBuckets).Inv a := by
  refine ⟨fun k it hk => ?_, hnum⟩
  obtain ⟨b', hb', rfl⟩ := flushTrackers_eq_some.1 hk
  obtain ⟨hbase, hsize⟩ := CurrentBucket.flushed_sameGrid (a := a) (b := b') (t := t)
  obtain ⟨hbase', hsize'⟩ := h.grid k _ hb'
  exact ⟨(hbase.trans hbase').trans hgrid.1.symm, (hsize.trans hsize').trans hgrid.2.symm⟩

theorem Inv.flush (h : v.Inv a) (kind : FlushKind) : (v.flush a t kind).Inv a := by
  have hneeded : (v.flushIfNeeded a t).Inv a := by
    unfold flushIfNeeded
    split
    · exact h
    · exact h.flushTrackers CurrentBucket.expired_sameGrid (CurrentBucket.expired_toInt64 h.num)
  cases kind with
  | nothing => exact h
  | ifNeeded => exact hneeded
  | forced => exact hneeded.flushTrackers ⟨rfl, rfl⟩ hneeded.num

/-- Where the trackers were in the bucket of the producer, those that live on are all in the same bucket. -/
theorem inStep_iff_of_trackers {w : CurrentBuckets} {f : CurrentBucket → CurrentBucket} (hinv : v.Inv a) (hstep : v.InStep)
    (hw : ∀ k it, w.trackers k = some it ↔ ∃ b, v.trackers k = some (b, true) ∧ it = (f b, true)) :
    w.InStep ↔ (v.AnyPending → (f v.producer).InStep w.producer) := by
  have heq : ∀ {k b pending}, v.trackers k = some (b, pending) → b = v.producer := fun hk =>
    CurrentBucket.eq_of_inStep (hinv.grid _ _ hk) (hstep _ _ hk)
  constructor
  · rintro h ⟨k, b, hk⟩
    obtain rfl := heq hk
    exact h k _ ((hw k _).2 ⟨_, hk, rfl⟩)
  · intro h k it hk
    obtain ⟨b, hb, rfl⟩ := (hw k it).1 hk
    obtain rfl := heq hb
    exact h ⟨k, _, hb⟩

theorem flushTrackers_twice {b : CurrentBucket} {k : HashableDimensionKey} {it : CurrentBucket × Bool} :
    flushTrackers a ⟨b, v.flushTrackers a t⟩ t k = some it ↔
      ∃ b, v.trackers k = some (b, true) ∧ it = ((b.flushed a t).flushed a t, true) := by
  rw [flushTrackers_eq_some]
  constructor
  · rintro ⟨_, hb, rfl⟩
    obtain ⟨b, hk, heq⟩ := flushTrackers_eq_some.1 hb
    cases heq
    exact ⟨b, hk, rfl⟩
  · rintro ⟨b, hk, rfl⟩
    exact ⟨b.flushed a t, flushTrackers_eq_some.2 ⟨b, hk, rfl⟩, rfl⟩

theorem inStep_flush (hinv : v.Inv a) (hstep : v.InStep) (kind : FlushKind) :
    (v.flush a t kind).InStep ↔ (v.AnyPending → v.producer.KeepsUp a t kind) := by
  cases kind with
  | nothing => exact iff_of_true hstep fun _ => trivial
  | ifNeeded =>
    unfold flush flushIfNeeded
    by_cases hend : v.producer.endNs a > t
    · rw [if_pos hend]
      exact iff_of_true hstep fun _ h => absurd hend (not_lt.2 h)
    · rw [if_neg hend, inStep_iff_of_trackers hinv hstep fun _ _ => flushTrackers_eq_some,
        CurrentBucket.expired_of_le (not_lt.1 hend), CurrentBucket.inStep_ifNeeded hinv.num (not_lt.1 hend)]
  | forced =>
    unfold flush flushIfNeeded
    by_cases hend : v.producer.endNs a > t
    · rw [if_pos hend]
      refine iff_of_true ?_ fun _ h => absurd hend (not_lt.2 h)
      refine (inStep_iff_of_trackers hinv hstep fun _ _ => flushTrackers_eq_some).2 fun _ => ?_
      rw [CurrentBucket.flushed_of_lt hend]
      exact ⟨rfl, rfl⟩
    · rw [if_neg hend, inStep_iff_of_trackers hinv hstep fun _ _ => flushTrackers_twice,
        CurrentBucket.expired_of_le (not_lt.1 hend)]
      unfold flushCurrent
      rw [CurrentBucket.inStep_forced hinv.num (not_lt.1 hend)]

end CurrentBuckets

/-! ## Trackers -/

open DurationTracker

/-- The bucket of a tracker, and whether a flush finds a key of it pending. -/
class BucketedTracker (T : Type) (a : outParam Arithmetic) [DurationTracker T] where
  currentBucket : T → CurrentBucket
  pending : T → Bool
  currentBucket_new : ∀ eventKey nesting currentBucketStartNs currentBucketNum startTimeNs bucketSizeNs conditionSliced,
    currentBucket (new eventKey nesting currentBucketStartNs currentBucketNum startTimeNs bucketSizeNs conditionSliced) =
      ⟨startTimeNs, bucketSizeNs, currentBucketNum, currentBucketStartNs⟩
  unmoved : DurationMetricProducer.Unmoved currentBucket
  currentBucket_flush : ∀ (t : T) eventTimeNs output,
    currentBucket (flushCurrentBucket t eventTimeNs output).1 = (currentBucket t).flushed a eventTimeNs
  pending_flush : ∀ (t : T) eventTimeNs output, pending (flushCurrentBucket t eventTimeNs output).1 = pending t
  done_flush : ∀ (t : T) eventTimeNs output, (flushCurrentBucket t eventTimeNs output).2.2 = !pending t

namespace OringDurationTracker

def currentBucket (t : OringDurationTracker) : CurrentBucket :=
  ⟨t.mStartTimeNs, t.mBucketSizeNs, t.mCurrentBucketNum, t.mCurrentBucketStartTimeNs⟩

/-- Some key is started or paused. -/
def anyPending (t : OringDurationTracker) : Bool := !(t.mStarted.entries.isEmpty && t.mPaused.entries.isEmpty)

theorem SameBucket.currentBucket_eq {t t' : OringDurationTracker} (h : SameBucket t t') : t'.currentBucket = t.currentBucket := by
  unfold currentBucket
  rw [h.start, h.size, h.num, h.bucketStart]

theorem unmoved (a : Arithmetic) :
    DurationMetricProducer.Unmoved (T := Rounded a OringDurationTracker) OringDurationTracker.currentBucket where
  noteStart t key condition eventTime conditionKey := (noteStart_spec t key condition eventTime conditionKey).bucket.currentBucket_eq
  noteStop t key eventTime stopAll := (noteStop_spec t key eventTime stopAll).bucket.currentBucket_eq
  noteStopAll t eventTime := (noteStopAll_spec t eventTime).bucket.currentBucket_eq
  onSlicedConditionMayChange t query timestamp := (onSlicedConditionMayChange_spec t query timestamp).bucket.currentBucket_eq
  onConditionChanged t condition timestamp := (onConditionChanged_spec t condition timestamp).bucket.currentBucket_eq
  onStateChanged t timestamp atomId newState := (onStateChanged_spec t timestamp atomId newState).bucket.currentBucket_eq

theorem FlushFrame.refl (t : OringDurationTracker) : FlushFrame t t := ⟨⟨rfl, rfl, rfl, rfl, rfl⟩, rfl, rfl, rfl, rfl⟩

/-- What a flush does before it moves the bucket, when that is `n` buckets forward. -/
def flushLoops (t : OringDurationTracker) (e fullBucketEnd stop n : Int) (output : PastBuckets) : Flushing :=
  let t := if t.mStarted.entries.isEmpty then t else t.recordDuration stop
  let s := t.mStateKeyDurationMap.keys.foldl (flushStateKey e fullBucketEnd stop) (t, output)
  if s.1.mStarted.entries.isEmpty then
    if n ≥ 2 then (s.1.call (.addPastBucket s.1.mEventKey 0 (s.1.mCurrentBucketNum + n - 1)), s.2) else s
  else (List.range' 1 (n - 1).toNat).foldl (fillBucket fullBucketEnd) s

theorem flushLoops_frame (t : OringDurationTracker) (e fullBucketEnd stop n : Int) (output : PastBuckets) :
    FlushFrame t (t.flushLoops e fullBucketEnd stop n output).1 := by
  unfold flushLoops
  dsimp only
  have hrunning : FlushFrame t (if t.mStarted.entries.isEmpty then t else t.recordDuration stop) := by
    split
    · exact .refl t
    · exact ⟨⟨rfl, rfl, rfl, rfl, rfl⟩, rfl, rfl, rfl, rfl⟩
  generalize (if t.mStarted.entries.isEmpty then t else t.recordDuration stop) = t1 at hrunning
  have hkeys := (foldl_flushStateKey e fullBucketEnd stop t1.mStateKeyDurationMap.keys t1.mStateKeyDurationMap.keys_nodup
    (t1, output)).1
  generalize t1.mStateKeyDurationMap.keys.foldl (flushStateKey e fullBucketEnd stop) (t1, output) = s at hkeys
  have hs : FlushFrame t s.1 := hrunning.trans hkeys
  split
  · split
    · exact hs.trans (.call s.1 _)
    · exact hs
  · exact hs.trans (foldl_fillBucket fullBucketEnd _ s).1

theorem flushCurrentBucketIn_eq (a : Arithmetic) (t : OringDurationTracker) (e : Int) (output : PastBuckets) :
    ∃ stop, t.flushCurrentBucketIn a e output =
      let E := t.currentBucket.endNs a
      let n := if e ≥ E then t.currentBucket.forward a e else 0
      let s := t.flushLoops e E stop n output
      let start := if n > 0 then a.toInt64 (E + a.toInt (n - 1) * s.1.mBucketSizeNs) else e
      let num := if n > 0 then a.toInt64 (s.1.mCurrentBucketNum + n) else s.1.mCurrentBucketNum
      ({ s.1 with mCurrentBucketStartTimeNs := start, mCurrentBucketNum := num, mLastStartTime := start }, s.2,
        s.1.mStarted.entries.isEmpty && s.1.mPaused.entries.isEmpty) := ⟨_, rfl⟩

theorem flushCurrentBucketIn_spec (a : Arithmetic) (t : OringDurationTracker) (e : Int) (output : PastBuckets) :
    (t.flushCurrentBucketIn a e output).1.currentBucket = t.currentBucket.flushed a e ∧
    (t.flushCurrentBucketIn a e output).1.anyPending = t.anyPending ∧
    (t.flushCurrentBucketIn a e output).2.2 = !t.anyPending := by
  obtain ⟨stop, heq⟩ := t.flushCurrentBucketIn_eq a e output
  rw [heq, CurrentBucket.flushed_eq _ rfl]
  dsimp only
  generalize (if e ≥ t.currentBucket.endNs a then t.currentBucket.forward a e else 0) = n
  have hframe := t.flushLoops_frame e (t.currentBucket.endNs a) stop n output
  generalize t.flushLoops e (t.currentBucket.endNs a) stop n output = s at hframe
  simp only [currentBucket, anyPending, hframe.bucket.size, hframe.bucket.num, hframe.bucket.start, hframe.started, hframe.paused]
  simp

instance (a : Arithmetic) : BucketedTracker (Rounded a OringDurationTracker) a where
  currentBucket := OringDurationTracker.currentBucket
  pending := OringDurationTracker.anyPending
  currentBucket_new _ _ _ _ _ _ _ := rfl
  unmoved := OringDurationTracker.unmoved a
  currentBucket_flush t eventTimeNs output := (flushCurrentBucketIn_spec a t eventTimeNs output).1
  pending_flush t eventTimeNs output := (flushCurrentBucketIn_spec a t eventTimeNs output).2.1
  done_flush t eventTimeNs output := (flushCurrentBucketIn_spec a t eventTimeNs output).2.2

end OringDurationTracker

namespace MaxDurationTracker

def currentBucket (t : MaxDurationTracker) : CurrentBucket :=
  ⟨t.mStartTimeNs, t.mBucketSizeNs, t.mCurrentBucketNum, t.mCurrentBucketStartTimeNs⟩

/-- Some key is started or paused. -/
def anyPending (t : MaxDurationTracker) : Bool := t.mInfos.entries.any fun it => decide (it.2.state ≠ .kStopped)

theorem SameBucket.currentBucket_eq {t t' : MaxDurationTracker} (h : SameBucket t t') : t'.currentBucket = t.currentBucket := by
  unfold currentBucket
  rw [h.base, h.size, h.num, h.start]

theorem unmoved (a : Arithmetic) :
    DurationMetricProducer.Unmoved (T := Rounded a MaxDurationTracker) MaxDurationTracker.currentBucket where
  noteStart t key condition eventTime conditionKey := (sameBucket_noteStart t key condition eventTime conditionKey).currentBucket_eq
  noteStop t key eventTime stopAll := (sameBucket_noteStop t key eventTime stopAll).currentBucket_eq
  noteStopAll t eventTime := (sameBucket_noteStopAll t eventTime).currentBucket_eq
  onSlicedConditionMayChange t query timestamp := (onSlicedConditionMayChange_spec t query timestamp).2.2.currentBucket_eq
  onConditionChanged t condition timestamp := (onConditionChanged_spec t condition timestamp).2.2.currentBucket_eq
  onStateChanged _ _ _ _ := rfl

theorem flushCurrentBucketIn_eq (a : Arithmetic) (t : MaxDurationTracker) (e : Int) (output : PastBuckets) :
    ∃ output', t.flushCurrentBucketIn a e output =
      let E := t.currentBucket.endNs a
      let n := if e ≥ E then t.currentBucket.forward a e else 0
      let pending := t.mInfos.filterVal fun duration => decide (duration.state ≠ .kStopped)
      let t' := if n > 0 then
          { t with mCurrentBucketStartTimeNs := a.toInt64 (E + a.toInt (n - 1) * t.mBucketSizeNs)
                   mCurrentBucketNum := a.toInt64 (t.mCurrentBucketNum + n) }
        else { t with mCurrentBucketStartTimeNs := e }
      ({ t' with mInfos := pending, mDuration := 0 }, output', pending.entries.isEmpty) := ⟨_, rfl⟩

theorem flushCurrentBucketIn_spec (a : Arithmetic) (t : MaxDurationTracker) (e : Int) (output : PastBuckets) :
    (t.flushCurrentBucketIn a e output).1.currentBucket = t.currentBucket.flushed a e ∧
    (t.flushCurrentBucketIn a e output).1.anyPending = t.anyPending ∧
    (t.flushCurrentBucketIn a e output).2.2 = !t.anyPending := by
  obtain ⟨output', heq⟩ := t.flushCurrentBucketIn_eq a e output
  rw [heq, CurrentBucket.flushed_eq _ rfl]
  dsimp only
  generalize (if e ≥ t.currentBucket.endNs a then t.currentBucket.forward a e else 0) = n
  refine ⟨?_, ?_, ?_⟩
  · by_cases hpos : n > 0
    · simp [currentBucket, hpos]
    · simp [currentBucket, hpos]
  · simp [anyPending, UMap.filterVal, List.any_filter]
  · rw [Bool.eq_iff_iff]
    simp [anyPending, UMap.filterVal]

instance (a : Arithmetic) : BucketedTracker (Rounded a MaxDurationTracker) a where
  currentBucket := MaxDurationTracker.currentBucket
  pending := MaxDurationTracker.anyPending
  currentBucket_new _ _ _ _ _ _ _ := rfl
  unmoved := MaxDurationTracker.unmoved a
  currentBucket_flush t eventTimeNs output := (flushCurrentBucketIn_spec a t eventTimeNs output).1
  pending_flush t eventTimeNs output := (flushCurrentBucketIn_spec a t eventTimeNs output).2.1
  done_flush t eventTimeNs output := (flushCurrentBucketIn_spec a t eventTimeNs output).2.2

end MaxDurationTracker

/-! ## The producer -/

namespace DurationMetricProducer

variable {T : Type} {a : Arithmetic} [DurationTracker T] [BucketedTracker T a]

def currentBucket (p : DurationMetricProducer T) : CurrentBucket :=
  ⟨p.mTimeBaseNs, p.mBucketSizeNs, p.mCurrentBucketNum, p.mCurrentBucketStartTimeNs⟩

/-- The buckets alone. -/
def currentBuckets (p : DurationMetricProducer T) : CurrentBuckets where
  producer := p.currentBucket
  trackers := fun whatKey => (p.mCurrentSlicedDurationTrackerMap.lookup whatKey).map fun tracker =>
    (BucketedTracker.currentBucket tracker, BucketedTracker.pending tracker)

/-- Every tracker is in the bucket of the producer. -/
def TrackersInStep (p : DurationMetricProducer T) : Prop :=
  ∀ whatKey tracker, p.mCurrentSlicedDurationTrackerMap.lookup whatKey = some tracker →
    (BucketedTracker.currentBucket tracker).num = p.mCurrentBucketNum ∧
    (BucketedTracker.currentBucket tracker).start = p.mCurrentBucketStartTimeNs

/-- If some tracker has a key that is started or paused, the bucket that it shares with the producer keeps up with the flushes of
the call. -/
def TrackersKeepUp (a : Arithmetic) [BucketedTracker T a] (p : DurationMetricProducer T) (e : Int × Call) : Prop :=
  (∃ whatKey tracker, p.mCurrentSlicedDurationTrackerMap.lookup whatKey = some tracker ∧ BucketedTracker.pending tracker = true) →
    p.currentBucket.KeepsUp a e.1 (p.flushKind e.1 e.2)

theorem currentBuckets_some {p : DurationMetricProducer T} {whatKey : HashableDimensionKey} {it : CurrentBucket × Bool} :
    p.currentBuckets.trackers whatKey = some it ↔ ∃ tracker, p.mCurrentSlicedDurationTrackerMap.lookup whatKey = some tracker ∧
      (BucketedTracker.currentBucket tracker, BucketedTracker.pending tracker) = it := Option.map_eq_some_iff

theorem trackersInStep_iff {p : DurationMetricProducer T} : p.TrackersInStep ↔ p.currentBuckets.InStep := by
  constructor
  · intro h k it hk
    obtain ⟨tracker, hlookup, rfl⟩ := currentBuckets_some.1 hk
    exact h k tracker hlookup
  · intro h k tracker hk
    exact h k _ (currentBuckets_some.2 ⟨tracker, hk, rfl⟩)

theorem anyPending_iff {p : DurationMetricProducer T} : p.currentBuckets.AnyPending ↔ ∃ whatKey tracker,
    p.mCurrentSlicedDurationTrackerMap.lookup whatKey = some tracker ∧ BucketedTracker.pending tracker = true := by
  constructor
  · rintro ⟨k, b, hk⟩
    obtain ⟨tracker, hlookup, heq⟩ := currentBuckets_some.1 hk
    exact ⟨k, tracker, hlookup, congrArg Prod.snd heq⟩
  · rintro ⟨k, tracker, hlookup, hpending⟩
    exact ⟨k, _, currentBuckets_some.2 ⟨tracker, hlookup, by rw [hpending]⟩⟩

/-! ### Flushes -/

variable (p : DurationMetricProducer T)

theorem currentBuckets_flushCurrentBucketLocked (t next : Int) :
    (p.flushCurrentBucketLocked t next).currentBuckets = p.currentBuckets.flushCurrent a t next := by
  obtain ⟨hsame, hlook⟩ := p.flushCurrentBucketLocked_spec t next
  have hnum : (p.flushCurrentBucketLocked t next).mCurrentBucketNum = p.mCurrentBucketNum :=
    foldl_flushTracker_num t p.mCurrentSlicedDurationTrackerMap.keys p
  have hstart : (p.flushCurrentBucketLocked t next).mCurrentBucketStartTimeNs = next := rfl
  unfold currentBuckets CurrentBuckets.flushCurrent currentBucket
  rw [hsame.metric, hnum, hstart]
  congr 1
  funext k
  have hflush := hlook k
  unfold CurrentBuckets.flushTrackers
  dsimp only
  generalize p.mCurrentSlicedDurationTrackerMap.lookup k = old at hflush ⊢
  generalize (p.flushCurrentBucketLocked t next).mCurrentSlicedDurationTrackerMap.lookup k = new at hflush ⊢
  cases hflush with
  | none => rfl
  | done tracker output hdone =>
    rw [BucketedTracker.done_flush, Bool.not_eq_true'] at hdone
    simp [hdone]
  | kept tracker output hkept =>
    rw [BucketedTracker.done_flush, Bool.not_eq_false'] at hkept
    simp [hkept, BucketedTracker.currentBucket_flush, BucketedTracker.pending_flush]

theorem currentBuckets_moveNum (num : Int) :
    { p with mCurrentBucketNum := num }.currentBuckets =
      ⟨{ p.currentBuckets.producer with num := num }, p.currentBuckets.trackers⟩ := rfl

theorem currentBuckets_flushIfNeededLocked (t : Int) :
    (a.flushIfNeededLocked p t).currentBuckets = p.currentBuckets.flush a t .ifNeeded := by
  have hend : a.toInt64 p.getCurrentBucketEndTimeNs = p.currentBuckets.producer.endNs a := rfl
  unfold Arithmetic.flushIfNeededLocked CurrentBuckets.flush CurrentBuckets.flushIfNeeded
  dsimp only
  rw [hend]
  by_cases hearly : p.currentBuckets.producer.endNs a > t
  · rw [if_pos hearly, if_pos hearly]
  · rw [if_neg hearly, if_neg hearly, CurrentBucket.expired_of_le (not_lt.1 hearly)]
    refine (currentBuckets_moveNum _ _).trans ?_
    rw [currentBuckets_flushCurrentBucketLocked]
    have hnum : ∀ next, (p.flushCurrentBucketLocked t next).mCurrentBucketNum = p.mCurrentBucketNum := fun _ =>
      foldl_flushTracker_num t p.mCurrentSlicedDurationTrackerMap.keys p
    rw [hnum]
    rfl

theorem currentBuckets_flushLocked (t : Int) :
    (a.flushLocked p t).currentBuckets = p.currentBuckets.flush a t .forced := by
  unfold Arithmetic.flushLocked
  rw [currentBuckets_flushCurrentBucketLocked, currentBuckets_flushIfNeededLocked]
  rfl

theorem currentBuckets_flush (t : Int) (kind : FlushKind) : (a.flush p t kind).currentBuckets = p.currentBuckets.flush a t kind := by
  cases kind with
  | nothing => rfl
  | ifNeeded => exact currentBuckets_flushIfNeededLocked p t
  | forced => exact currentBuckets_flushLocked p t

/-! ### Calls -/

variable {p q : DurationMetricProducer T}

theorem Follows.currentBucket_eq (h : Follows BucketedTracker.currentBucket p q) :
    q.currentBucket = p.currentBucket := by
  unfold currentBucket
  rw [h.metric, h.bucketNum, h.bucketStart]

theorem Follows.forall_trackers (h : Follows BucketedTracker.currentBucket p q)
    {P : CurrentBucket → Prop} (hP : P p.currentBucket) :
    (∀ k it, q.currentBuckets.trackers k = some it → P it.1) ↔ ∀ k it, p.currentBuckets.trackers k = some it → P it.1 := by
  constructor
  · intro hq k it hk
    obtain ⟨tracker, hlookup, rfl⟩ := currentBuckets_some.1 hk
    obtain ⟨tracker', hlookup', hbucket⟩ := h.kept k tracker hlookup
    have hq' := hq k _ (currentBuckets_some.2 ⟨tracker', hlookup', rfl⟩)
    dsimp only at hq' ⊢
    rwa [hbucket] at hq'
  · intro hp k it hk
    obtain ⟨tracker', hlookup', rfl⟩ := currentBuckets_some.1 hk
    cases hlookup : p.mCurrentSlicedDurationTrackerMap.lookup k with
    | none =>
      obtain ⟨eventKey, hbucket⟩ := h.created k tracker' hlookup hlookup'
      rw [hbucket]
      unfold createDurationTracker
      rw [BucketedTracker.currentBucket_new]
      exact hP
    | some tracker =>
      obtain ⟨tracker'', hlookup'', hbucket⟩ := h.kept k tracker hlookup
      rw [hlookup'] at hlookup''
      cases hlookup''
      have hp' := hp k _ (currentBuckets_some.2 ⟨tracker, hlookup, rfl⟩)
      dsimp only at hp' ⊢
      rwa [hbucket]

theorem Follows.inStep_iff (h : Follows BucketedTracker.currentBucket p q) :
    q.currentBuckets.InStep ↔ p.currentBuckets.InStep := by
  have hproducer : q.currentBuckets.producer = p.currentBuckets.producer := h.currentBucket_eq
  unfold CurrentBuckets.InStep
  rw [hproducer]
  exact h.forall_trackers (P := fun b => b.InStep p.currentBuckets.producer) ⟨rfl, rfl⟩

theorem Follows.inv (h : Follows BucketedTracker.currentBucket p q) (hinv : p.currentBuckets.Inv a) :
    q.currentBuckets.Inv a := by
  have hproducer : q.currentBuckets.producer = p.currentBuckets.producer := h.currentBucket_eq
  constructor
  · rw [hproducer]
    exact (h.forall_trackers (P := fun b => b.SameGrid p.currentBuckets.producer) ⟨rfl, rfl⟩).2 hinv.grid
  · rw [hproducer]
    exact hinv.num

theorem follows_flushed (t : Int) (c : Call) : ∃ q : DurationMetricProducer T,
    q.currentBuckets = p.currentBuckets.flush a t (p.flushKind t c) ∧ Follows BucketedTracker.currentBucket q (a.call p t c) := by
  obtain ⟨activation, mCondition, h⟩ := follows_call a BucketedTracker.unmoved p t c
  exact ⟨_, currentBuckets_flush { p with activation := activation, mCondition := mCondition } t _, h⟩

/-! ### Runs -/

def step (a : Arithmetic) (p : DurationMetricProducer T) (e : Int × Call) : DurationMetricProducer T := a.call p e.1 e.2

theorem currentBuckets_restart (start : Int) :
    { p with mCurrentBucketStartTimeNs := start }.currentBuckets =
      ⟨{ p.currentBuckets.producer with start := start }, p.currentBuckets.trackers⟩ := rfl

theorem currentBuckets_new (metric : DurationMetric) (activations : EventActivations) (initialCondition : ConditionState)
    (equalOutputDimensions : List Matcher → Bool) (startTimeNs : Int) :
    ∃ b, a.toInt64 b.num = b.num ∧
      (a.new metric activations initialCondition equalOutputDimensions startTimeNs : DurationMetricProducer T).currentBuckets =
        ⟨b, fun _ => none⟩ := by
  unfold Arithmetic.new
  dsimp only
  rw [currentBuckets_restart, currentBuckets_flushIfNeededLocked]
  have hempty : (⟨metric, .new activations, initialCondition, metric.hasLinksToAllConditionDimensions equalOutputDimensions, .kUnknown,
      metric.mTimeBaseNs, 0, ∅, ∅⟩ : DurationMetricProducer T).currentBuckets =
        ⟨⟨metric.mTimeBaseNs, metric.mBucketSizeNs, 0, metric.mTimeBaseNs⟩, fun _ => none⟩ := rfl
  rw [hempty, CurrentBuckets.flush, CurrentBuckets.flushIfNeeded_none]
  refine ⟨_, ?_, rfl⟩
  exact CurrentBucket.expired_toInt64 a.toInt64_zero

/-- In a run from a new producer the trackers are in the bucket of the producer after each call if and only if, at each call, they
keep up with its flushes. -/
theorem inStep_run_iff (metric : DurationMetric) (activations : EventActivations) (initialCondition : ConditionState)
    (equalOutputDimensions : List Matcher → Bool) (startTimeNs : Int) (calls : List (Int × Call)) :
    (∀ n, TrackersInStep ((calls.take n).foldl (step a)
      (a.new metric activations initialCondition equalOutputDimensions startTimeNs : DurationMetricProducer T))) ↔
    RunOk (step a) (TrackersKeepUp a)
      (a.new metric activations initialCondition equalOutputDimensions startTimeNs : DurationMetricProducer T) calls := by
  obtain ⟨b, hnum, hnew⟩ := currentBuckets_new (T := T) (a := a) metric activations initialCondition equalOutputDimensions startTimeNs
  have hiff : ∀ (p : DurationMetricProducer T) (e : Int × Call), p.currentBuckets.Inv a → p.TrackersInStep →
      ((step a p e).TrackersInStep ↔ p.TrackersKeepUp a e) := by
    intro p e hinv hstep
    rw [trackersInStep_iff] at hstep ⊢
    obtain ⟨q, hq, hfollows⟩ := follows_flushed (a := a) (p := p) e.1 e.2
    refine hfollows.inStep_iff.trans ?_
    rw [hq, CurrentBuckets.inStep_flush hinv hstep, anyPending_iff]
    rfl
  refine RunOk.iff_prefixes (I := fun p => (currentBuckets p).Inv a) (P := fun _ p => TrackersInStep p) ?_ ?_ ?_ ?_ calls
  · intro _ p e hinv hstep hok
    obtain ⟨q, hq, hfollows⟩ := follows_flushed (a := a) (p := p) e.1 e.2
    exact ⟨hfollows.inv (hq ▸ hinv.flush _), (hiff p e hinv hstep).2 hok⟩
  · intro _ p e hinv hstep hok h
    exact hok ((hiff p e hinv hstep).1 h)
  · rw [hnew]
    exact ⟨fun _ _ hk => (Option.some_ne_none _ hk.symm).elim, hnum⟩
  · rw [trackersInStep_iff, hnew]
    exact fun _ _ hk => (Option.some_ne_none _ hk.symm).elim

/-- The trackers of SUM and of MAX_SPARSE metrics are in the bucket of the producer after each call of a run if and only if they keep
up with the flushes of each call. -/
theorem trackers_in_step_iff (metric : DurationMetric) (activations : EventActivations) (initialCondition : ConditionState)
    (equalOutputDimensions : List Matcher → Bool) (startTimeNs : Int) (calls : List (Int × Call)) :
    let sum : DurationMetricProducer (Rounded .machine OringDurationTracker) :=
      Arithmetic.machine.new metric activations initialCondition equalOutputDimensions startTimeNs
    let max : DurationMetricProducer (Rounded .machine MaxDurationTracker) :=
      Arithmetic.machine.new metric activations initialCondition equalOutputDimensions startTimeNs
    ((∀ n, ((calls.take n).foldl (step .machine) sum).TrackersInStep) ↔ RunOk (step .machine) (TrackersKeepUp .machine) sum calls) ∧
    ((∀ n, ((calls.take n).foldl (step .machine) max).TrackersInStep) ↔ RunOk (step .machine) (TrackersKeepUp .machine) max calls) :=
  ⟨inStep_run_iff metric activations initialCondition equalOutputDimensions startTimeNs calls,
    inStep_run_iff metric activations initialCondition equalOutputDimensions startTimeNs calls⟩

/-! ### Too many buckets at once -/

namespace SkippedBuckets

/-- A metric without dimensions and conditions, with buckets of one second. -/
def metric : DurationMetric where
  mDimensionsInWhat := []
  mConditionSliced := false
  mMetric2ConditionLinks := []
  mMetric2StateLinks := []
  mSlicedStateAtoms := []
  mStateGroupMap := ∅
  mStartIndex := 0
  mStopIndex := 1
  mStopAllIndex := -1
  mNested := true
  mInternalDimensions := []
  mTimeBaseNs := 0
  mBucketSizeNs := bucketSizeNs 1000 .CTS

def start : Call := .matchedLogEvent 0 [] ⟨fun _ => .kTrue, fun _ _ => (⟨0, 0#32⟩, none)⟩

/-- The second start comes 2^31 buckets after the end of the first bucket. -/
def calls : List (Int × Call) := [(0, start), ((2 ^ 31 + 1) * NS_PER_SEC, start)]

end SkippedBuckets

theorem not_trackersInStep {p : DurationMetricProducer T} (whatKey : HashableDimensionKey) {n : Int}
    (htracker : (p.mCurrentSlicedDurationTrackerMap.lookup whatKey).map (fun tracker => (BucketedTracker.currentBucket tracker).num) = some n)
    (hnum : n ≠ p.mCurrentBucketNum) : ¬ p.TrackersInStep := by
  intro h
  obtain ⟨tracker, hlookup, rfl⟩ := Option.map_eq_some_iff.1 htracker
  exact hnum (h whatKey tracker hlookup).1

/-- The count of the skipped buckets turns negative; the producer goes back by it, and the trackers stay. -/
theorem skipped_buckets_overflow :
    (¬ ∀ n, ((SkippedBuckets.calls.take n).foldl (step .machine) (Arithmetic.machine.new SkippedBuckets.metric ⟨[], ∅, ∅⟩ .kTrue
      (fun _ => false) 0 : DurationMetricProducer (Rounded .machine OringDurationTracker))).TrackersInStep) ∧
    ¬ ∀ n, ((SkippedBuckets.calls.take n).foldl (step .machine) (Arithmetic.machine.new SkippedBuckets.metric ⟨[], ∅, ∅⟩ .kTrue
      (fun _ => false) 0 : DurationMetricProducer (Rounded .machine MaxDurationTracker))).TrackersInStep := by
  constructor
  · intro h
    exact not_trackersInStep [] (n := 0) (by decide +kernel) (by decide +kernel) (h 2)
  · intro h
    exact not_trackersInStep [] (n := 0) (by decide +kernel) (by decide +kernel) (h 2)

end DurationMetricProducer

end Statsd.Metrics
