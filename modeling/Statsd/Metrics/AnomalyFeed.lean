/-
The anomaly feed over whole runs. Within one call a value metric may pull, flush the bucket that is over
and split; the flush of a full bucket that is over is the first one of its call, and the later ones close
parts. The feed of both producers matches their reports after every run without a flush at exactly the end
of a full bucket.
-/
import Statsd.Metrics.ValueFeed

namespace Statsd.Metrics

open Statsd.Handover

namespace ValueMetricProducer

/-! ## The keys of the full bucket -/

theorem pendingAt_accumulate (p : ValueMetricProducer Int) (ev : ValueEvent Int) {k : MetricDimensionKey}
    (hk : k ≠ ⟨ev.eventKey.mDimensionKeyInWhat, p.stateKeyOf ev.eventKey.mDimensionKeyInWhat⟩) (i : Nat) :
    (p.accumulate ev).pendingAt k i = p.pendingAt k i := by
  obtain ⟨-, hsliced, -⟩ := p.accumulate_data ev
  unfold pendingAt
  rw [hsliced, UMap.getD_insert, if_neg hk]

/-- The keys `K` have room for the values of the full bucket, with those of the events `evs` to come. -/
structure Room (p : ValueMetricProducer Int) (evs : List (ValueEvent Int)) (K : Finset MetricDimensionKey) : Prop where
  keys : ∀ k, p.pendingAt k 0 ≠ none ∨ p.mCurrentFullBucket.lookup k ≠ none → k ∈ K
  tracked : ∀ ev ∈ evs, ⟨ev.eventKey.mDimensionKeyInWhat, p.stateKeyOf ev.eventKey.mDimensionKeyInWhat⟩ ∈ K
  states : evs.Pairwise fun ev' ev => ev.eventKey.mDimensionKeyInWhat = ev'.eventKey.mDimensionKeyInWhat →
    ⟨ev.eventKey.mDimensionKeyInWhat, ev'.eventKey.mStateValuesKey⟩ ∈ K
  limit : K.card ≤ p.mDimensionHardLimit

section

variable {p q : ValueMetricProducer Int} {evs : List (ValueEvent Int)} {K : Finset MetricDimensionKey}

theorem Room.fits (h : Room p evs K) : p.FullBucketFits := ⟨K, h.keys, h.limit⟩

theorem Room.nil (h : Room p evs K) : Room p [] K := ⟨h.keys, fun _ hev => absurd hev List.not_mem_nil, .nil, h.limit⟩

theorem Room.congr (h : Room p evs K) (hmetric : q.toValueMetric = p.toValueMetric) (hsliced : q.mCurrentSlicedBucket = p.mCurrentSlicedBucket)
    (hfull : q.mCurrentFullBucket = p.mCurrentFullBucket) (hstate : ∀ w, q.stateKeyOf w = p.stateKeyOf w) : Room q evs K := by
  refine ⟨fun k hk => h.keys k ?_, fun ev hev => ?_, h.states, by rw [hmetric]; exact h.limit⟩
  · unfold pendingAt at hk ⊢
    rw [hsliced, hfull] at hk
    exact hk
  · rw [hstate]
    exact h.tracked ev hev

theorem stateKeyOf_resetBase (p : ValueMetricProducer Int) (w : HashableDimensionKey) : p.resetBase.stateKeyOf w = p.stateKeyOf w := by
  rw [stateKeyOf_eq, stateKeyOf_eq, getD_resetBase]
  cases UMap.getD p.mCurrentBaseInfo w [] with
  | nil => rfl
  | cons b l => rfl

theorem Room.resetBase (h : Room p evs K) : Room p.resetBase evs K := h.congr rfl rfl rfl p.stateKeyOf_resetBase

theorem Room.invalidate (h : Room p evs K) (t : Int) (r : BucketDropReason) : Room (p.invalidateCurrentBucket t r) evs K :=
  h.congr rfl rfl rfl (stateKeyOf_resetBase _)

theorem Room.accumulate {ev : ValueEvent Int} (h : Room p (ev :: evs) K) {e : Int} :
    Room (p.accumulate { ev with elapsedTimestampNs := e }) evs K := by
  have honly := p.accumulate_dataOnly { ev with elapsedTimestampNs := e }
  have hfull : (p.accumulate { ev with elapsedTimestampNs := e }).mCurrentFullBucket = p.mCurrentFullBucket :=
    honly.congr (·.mCurrentFullBucket) fun _ _ _ _ _ => rfl
  have hlimit : (p.accumulate { ev with elapsedTimestampNs := e }).mDimensionHardLimit = p.mDimensionHardLimit :=
    honly.congr (·.mDimensionHardLimit) fun _ _ _ _ _ => rfl
  have hpairs := List.pairwise_cons.1 h.states
  refine ⟨fun k hk => ?_, fun ev' hev => ?_, hpairs.2, by rw [hlimit]; exact h.limit⟩
  · rw [hfull] at hk
    by_cases hkey : k = ⟨ev.eventKey.mDimensionKeyInWhat, p.stateKeyOf ev.eventKey.mDimensionKeyInWhat⟩
    · rw [hkey]
      exact h.tracked ev List.mem_cons_self
    · rw [pendingAt_accumulate p { ev with elapsedTimestampNs := e } hkey] at hk
      exact h.keys k hk
  · rcases stateKeyOf_accumulate p { ev with elapsedTimestampNs := e } ev'.eventKey.mDimensionKeyInWhat with
      ⟨hsame, -⟩ | ⟨hw, hnew⟩
    · rw [hsame]
      exact h.tracked ev' (List.mem_cons_of_mem _ hev)
    · rw [hnew]
      exact hpairs.1 ev' hev hw

theorem Room.tail {ev : ValueEvent Int} (h : Room p (ev :: evs) K) : Room p evs K :=
  ⟨h.keys, fun ev' hev => h.tracked ev' (List.mem_cons_of_mem _ hev), (List.pairwise_cons.1 h.states).2, h.limit⟩

/-! ## What is not fed -/

/-- Nothing is fed and no bucket is closed. -/
structure Quiet (p q : ValueMetricProducer Int) : Prop extends SameBuckets p q where
  full : q.mCurrentFullBucket = p.mCurrentFullBucket
  calls : ∀ k, handedTo k q.anomalyCalls = handedTo k p.anomalyCalls
  indexed : Indexed p → Indexed q

theorem Quiet.refl (p : ValueMetricProducer Int) : Quiet p p := ⟨.refl p, rfl, fun _ => rfl, fun h => h⟩

theorem Quiet.trans {r : ValueMetricProducer Int} (h : Quiet p q) (h' : Quiet q r) : Quiet p r :=
  ⟨h.toSameBuckets.trans h'.toSameBuckets, h'.full.trans h.full, fun k => (h'.calls k).trans (h.calls k), fun hp => h'.indexed (h.indexed hp)⟩

theorem Quiet.invalidate (p : ValueMetricProducer Int) (t : Int) (r : BucketDropReason) : Quiet p (p.invalidateCurrentBucket t r) :=
  ⟨invalidateCurrentBucket_same p t r, rfl, fun _ => rfl, fun h => h⟩

theorem Quiet.accumulate (p : ValueMetricProducer Int) (ev : ValueEvent Int) : Quiet p (p.accumulate ev) := by
  refine ⟨(p.offClock_accumulate ev).toSameBuckets, (p.accumulate_dataOnly ev).congr (·.mCurrentFullBucket) fun _ _ _ _ _ => rfl, fun k => ?_,
    fun h => h.accumulate ev⟩
  unfold ValueMetricProducer.accumulate
  dsimp only
  split
  · rw [handedTo_append]
    exact List.append_nil _
  · rfl

theorem pulled_event (hp : p.mIsPulled = true) (ev : ValueEvent Int) :
    ∀ p1 : ValueMetricProducer Int, p1 = { p with
      mMatchedMetricDimensionKeys := insert ev.eventKey.mDimensionKeyInWhat p.mMatchedMetricDimensionKeys } →
    p.onMatchedLogEventLocked ev = p ∨ p.onMatchedLogEventLocked ev = p1 ∨ p.onMatchedLogEventLocked ev = p1.accumulate ev := by
  rintro p1 rfl
  unfold onMatchedLogEventLocked
  split
  · exact .inl rfl
  split
  · exact .inl rfl
  dsimp only
  generalize (if p.mConditionSliced then ev.slicedCondition else decide (p.mCondition = .kTrue)) = condition
  unfold onMatchedLogEventInternalLocked
  split
  · exact .inl rfl
  split
  · exact .inl rfl
  simp only [hp, if_true]
  split
  · exact .inr (.inl rfl)
  split
  · exact .inr (.inl rfl)
  · exact .inr (.inr rfl)

theorem Quiet.event (hp : p.mIsPulled = true) (ev : ValueEvent Int) : Quiet p (p.onMatchedLogEventLocked ev) := by
  have hnoted : Quiet p { p with
      mMatchedMetricDimensionKeys := insert ev.eventKey.mDimensionKeyInWhat p.mMatchedMetricDimensionKeys } :=
    ⟨⟨rfl, rfl, rfl, rfl, rfl⟩, rfl, fun _ => rfl, fun h => h⟩
  rcases pulled_event hp ev _ rfl with h | h | h
  · rw [h]
    exact .refl p
  · rw [h]
    exact hnoted
  · rw [h]
    exact hnoted.trans (.accumulate _ ev)

theorem Room.event {ev : ValueEvent Int} (h : Room p (ev :: evs) K) (hp : p.mIsPulled = true) {e : Int} :
    Room (p.onMatchedLogEventLocked { ev with elapsedTimestampNs := e }) evs K := by
  have hnoted : Room { p with
      mMatchedMetricDimensionKeys := insert ev.eventKey.mDimensionKeyInWhat p.mMatchedMetricDimensionKeys } (ev :: evs) K :=
    h.congr rfl rfl rfl fun _ => rfl
  rcases pulled_event hp { ev with elapsedTimestampNs := e } _ rfl with h' | h' | h'
  · rw [h']
    exact h.tail
  · rw [h']
    exact hnoted.tail
  · rw [h']
    exact hnoted.accumulate

theorem Quiet.events (hp : p.mIsPulled = true) (l : List (ValueEvent Int)) (e : Int) :
    Quiet p (l.foldl (fun p data => p.onMatchedLogEventLocked { data with elapsedTimestampNs := e }) p) ∧
      (Room p l K → Room (l.foldl (fun p data => p.onMatchedLogEventLocked { data with elapsedTimestampNs := e }) p) [] K) := by
  induction l generalizing p with
  | nil => exact ⟨.refl p, fun h => h⟩
  | cons ev l ih =>
    have hev := Quiet.event hp { ev with elapsedTimestampNs := e }
    obtain ⟨hquiet, hroom⟩ := ih (p := p.onMatchedLogEventLocked { ev with elapsedTimestampNs := e }) (by rw [hev.metric]; exact hp)
    exact ⟨hev.trans hquiet, fun h => hroom (h.event hp)⟩

theorem Quiet.accumulateEvents (hp : p.mIsPulled = true) (pull : Pull Int) (t e : Int) :
    Quiet p (p.accumulateEvents pull t e) ∧ (Room p pull.allData K → Room (p.accumulateEvents pull t e) [] K) := by
  unfold ValueMetricProducer.accumulateEvents
  split
  · exact ⟨.invalidate p _ _, fun h => (h.invalidate _ _).nil⟩
  split
  · exact ⟨.invalidate p _ _, fun h => (h.invalidate _ _).nil⟩
  dsimp only
  have hstart : Quiet p { p with mMatchedMetricDimensionKeys := ∅ } := ⟨⟨rfl, rfl, rfl, rfl, rfl⟩, rfl, fun _ => rfl, fun h => h⟩
  obtain ⟨hevents, hroom⟩ := Quiet.events (p := { p with mMatchedMetricDimensionKeys := ∅ }) (K := K) hp pull.allData e
  have hall := hstart.trans hevents
  have hroom : Room p pull.allData K → Room _ [] K := fun h => hroom (h.congr rfl rfl rfl fun _ => rfl)
  generalize pull.allData.foldl (fun p data => p.onMatchedLogEventLocked { data with elapsedTimestampNs := e })
    { p with mMatchedMetricDimensionKeys := ∅ } = q at hall hroom
  -- the bases of missing keys do not matter
  have honly := q.resetMissing_only.1
  have hsliced : q.resetMissing.mCurrentSlicedBucket = q.mCurrentSlicedBucket := congrArg (·.mCurrentSlicedBucket) honly
  have hfull : q.resetMissing.mCurrentFullBucket = q.mCurrentFullBucket := congrArg (·.mCurrentFullBucket) honly
  have hcalls : q.resetMissing.anomalyCalls = q.anomalyCalls := congrArg (·.anomalyCalls) honly
  have hreset : Quiet q q.resetMissing := by
    refine ⟨(offClock_resetMissing q).toSameBuckets, hfull, fun k => by rw [hcalls], fun h => ?_⟩
    unfold Indexed at h ⊢
    rw [hsliced]
    exact h
  have hkeys : Room q [] K → Room q.resetMissing [] K := by
    intro h
    refine ⟨fun k hk => h.keys k ?_, fun _ hev => absurd hev List.not_mem_nil, .nil, by rw [hreset.metric]; exact h.limit⟩
    unfold pendingAt at hk ⊢
    rw [hsliced, hfull] at hk
    exact hk
  generalize q.resetMissing = r at hreset hkeys
  have hr := hall.trans hreset
  split
  · refine ⟨⟨⟨hr.metric, hr.start, hr.num, hr.past, hr.skipped⟩, hr.full, hr.calls, fun _ k i int hget => ?_⟩, fun h => ?_⟩
    · rw [UMap.getD_empty] at hget
      cases hget
    · have h := hkeys (hroom h)
      refine ⟨fun k hk => h.keys k (hk.imp_left fun hpend => absurd ?_ hpend), fun _ hev => absurd hev List.not_mem_nil, .nil, h.limit⟩
      unfold pendingAt
      rw [UMap.getD_empty]
      rfl
  · refine ⟨⟨⟨hr.metric, hr.start, hr.num, hr.past, hr.skipped⟩, hr.full, hr.calls, hr.indexed⟩, fun h => ?_⟩
    have h := hkeys (hroom h)
    exact ⟨h.keys, fun _ hev => absurd hev List.not_mem_nil, .nil, h.limit⟩

theorem Quiet.pull (hp : p.mIsPulled = true) (pull : Pull Int) (t : Int) :
    Quiet p (p.pullAndMatchEventsLocked pull t) ∧ (Room p pull.allData K → Room (p.pullAndMatchEventsLocked pull t) [] K) := by
  unfold pullAndMatchEventsLocked
  split
  · exact ⟨.invalidate p _ _, fun h => (h.invalidate _ _).nil⟩
  · exact Quiet.accumulateEvents hp pull t t

theorem Quiet.pullIf (p : ValueMetricProducer Int) (c : Bool) (pull : Pull Int) (t : Int) :
    Quiet p (if p.mIsPulled && c then p.pullAndMatchEventsLocked pull t else p) ∧
      (Room p (if p.mIsPulled then pull.allData else []) K →
        Room (if p.mIsPulled && c then p.pullAndMatchEventsLocked pull t else p) [] K) := by
  split
  · rename_i h
    have hp := (Bool.and_eq_true_iff.1 h).1
    rw [if_pos hp]
    exact Quiet.pull hp pull t
  · exact ⟨.refl p, fun h => h.nil⟩

end

/-! ## The invariant -/

/-- The feed so far; `erased` are the past buckets that were erased. -/
structure Feeding (p : ValueMetricProducer Int) (erased : MetricDimensionKey → List (ValueBucket Int)) (now : Int) : Prop where
  inBucket : p.InBucket
  began : p.mCurrentBucketStartTimeNs ≤ now
  indexed : Indexed p
  sum : p.mAggregationType = .SUM
  fed : ∀ k, Fed (partsOf p.toValueMetric (erased k ++ UMap.getD p.mPastBuckets k [])) (handedTo k p.anomalyCalls)
    (p.mCurrentFullBucket.lookup k) p.mCurrentBucketNum
  placed : ∀ k, ∀ b ∈ erased k ++ UMap.getD p.mPastBuckets k [],
    b.mBucketEndNs ≤ p.mTimeBaseNs + (Grid.cellOf p.mTimeBaseNs p.mBucketSizeNs b.mBucketStartNs + 1) * p.mBucketSizeNs

theorem partsOf_append (m : ValueMetric) (l l' : List (ValueBucket Int)) : partsOf m (l ++ l') = partsOf m l ++ partsOf m l' :=
  List.filterMap_append

theorem part_shown (p : ValueMetricProducer Int) (pending : Option Int) : Part (p.shown pending).toList pending := by
  cases pending with
  | none => exact .none
  | some v =>
    refine ⟨?_, fun _ h => by cases h⟩
    unfold shown
    rw [Option.filter_some]
    split
    · simp
    · rename_i hzero
      simp only [Bool.not_eq_true', Bool.not_eq_false, Bool.and_eq_true] at hzero
      exact of_decide_eq_true hzero.2

section

variable {p q : ValueMetricProducer Int} {erased : MetricDimensionKey → List (ValueBucket Int)} {now : Int}

theorem Feeding.tick (h : Feeding p erased now) {now' : Int} (hle : now ≤ now') : Feeding p erased now' :=
  { h with began := h.began.trans hle }

theorem Feeding.cell (h : Feeding p erased now) :
    Grid.cellOf p.mTimeBaseNs p.mBucketSizeNs p.mCurrentBucketStartTimeNs = p.mCurrentBucketNum :=
  (Grid.inCell_iff h.inBucket.size).1 ⟨h.inBucket.lower, h.inBucket.upper⟩

theorem Feeding.quiet (h : Feeding p erased now) (hq : Quiet p q) : Feeding q erased now := by
  refine ⟨⟨?_, ?_, ?_⟩, ?_, hq.indexed h.indexed, ?_, fun k => ?_, fun k b hb => ?_⟩
  · rw [hq.metric]; exact h.inBucket.size
  · rw [hq.metric, hq.num, hq.start]; exact h.inBucket.lower
  · unfold getCurrentBucketEndTimeNs; rw [hq.metric, hq.num, hq.start]; exact h.inBucket.upper
  · rw [hq.start]; exact h.began
  · rw [hq.metric]; exact h.sum
  · rw [hq.metric, hq.past, hq.calls, hq.full, hq.num]; exact h.fed k
  · rw [hq.metric]
    rw [hq.past] at hb
    exact h.placed k b hb

theorem Feeding.partsOf_keptOf (h : Feeding p erased now) (stop duration : Int) (k : MetricDimensionKey) :
    partsOf p.toValueMetric (p.keptOf stop duration k) = (p.shown (p.pendingAt k 0)).toList.map fun v => (p.mCurrentBucketNum, v) := by
  have hsum : p.mAggregationType ≠ .AVG := by rw [h.sum]; decide
  rcases keptOf_shown h.indexed hsum stop duration k with ⟨hnil, hshown⟩ | ⟨b, hb, hinterval, hshown⟩
  · rw [hnil, hshown 0]
    rfl
  · have hstart : b.mBucketStartNs = p.mCurrentBucketStartTimeNs := congrArg Prod.fst hinterval
    rw [hb, ← hshown 0]
    unfold partsOf
    cases hv : b.valueAt 0 with
    | none =>
      rw [List.filterMap_cons_none (by rw [hv]; rfl)]
      rfl
    | some v =>
      rw [List.filterMap_cons_some (b := (p.mCurrentBucketNum, v)) (by rw [hv, hstart, h.cell]; rfl)]
      rfl

theorem Feeding.placed_keptOf (h : Feeding p erased now) {stop : Int} (hstop : stop ≤ p.getCurrentBucketEndTimeNs) (duration : Int)
    (k : MetricDimensionKey) {b : ValueBucket Int} (hb : b ∈ p.keptOf stop duration k) :
    b.mBucketEndNs ≤ p.mTimeBaseNs + (Grid.cellOf p.mTimeBaseNs p.mBucketSizeNs b.mBucketStartNs + 1) * p.mBucketSizeNs := by
  have hsum : p.mAggregationType ≠ .AVG := by rw [h.sum]; decide
  rcases keptOf_shown h.indexed hsum stop duration k with ⟨hnil, -⟩ | ⟨b', hb', hinterval, -⟩
  · rw [hnil] at hb
    cases hb
  · rw [hb', List.mem_singleton] at hb
    rw [hb]
    have hstart : b'.mBucketStartNs = p.mCurrentBucketStartTimeNs := congrArg Prod.fst hinterval
    have hend : b'.mBucketEndNs = stop := congrArg Prod.snd hinterval
    rw [hstart, hend, h.cell]
    exact hstop

/-- A flush off the end of the full bucket keeps the feed, unless it skips the last bucket of a full one. -/
theorem Feeding.flush (h : Feeding p erased now) {next : Int} (hn : p.NextStart now next)
    (hdue : p.getCurrentBucketEndTimeNs ≤ now → p.getCurrentBucketEndTimeNs < now ∧ p.FullBucketFits) :
    ∃ l, (p.flushCurrentBucketLocked now next).mSkippedBuckets = p.mSkippedBuckets ++ l ∧
      (Feeding (p.flushCurrentBucketLocked now next) erased now ∨
        p.getCurrentBucketEndTimeNs < now ∧ ∃ s ∈ l, s.bucketStartTimeNs = p.mCurrentBucketStartTimeNs) := by
  obtain ⟨skipped, hflush⟩ := p.flushCurrentBucketLocked_flushes now next
  obtain ⟨_, hspec⟩ := p.flushCurrentBucketLocked_spec now next
  have hindexed := (p.flushCurrentBucketLocked_flushed now next).indexed
  have hin := hspec.inBucket h.inBucket hn
  generalize p.flushCurrentBucketLocked now next = q at *
  obtain ⟨l, hl, hskips⟩ := hflush.skips
  obtain ⟨duration, hpast⟩ := hflush.past
  refine ⟨l, hl, ?_⟩
  have hbegan : q.mCurrentBucketStartTimeNs ≤ now := by rw [hspec.start]; exact hn.2.1
  have hsum : q.mAggregationType = .SUM := by rw [hspec.metric]; exact h.sum
  cases skipped with
  | true =>
    by_cases hlt : now < p.getCurrentBucketEndTimeNs
    · -- a part is lost, and neither reported nor fed
      refine .inl ⟨hin, hbegan, hindexed, hsum, fun k => ?_, fun k b hb => ?_⟩
      · obtain ⟨hcalls, hfull⟩ := hflush.idle rfl (le_of_lt hlt) k
        have hk := hpast k
        rw [if_pos rfl, List.append_nil] at hk
        rw [hspec.metric, hspec.num, calcBucketsForwardCount_early hlt, add_zero, hcalls, hfull, hk]
        exact h.fed k
      · have hk := hpast k
        rw [if_pos rfl, List.append_nil] at hk
        rw [hk] at hb
        rw [hspec.metric]
        exact h.placed k b hb
    · exact .inr ⟨(hdue (not_lt.1 hlt)).1, hskips rfl⟩
  | false =>
    refine .inl ⟨hin, hbegan, hindexed, hsum, fun k => ?_, fun k b hb => ?_⟩
    · have hk := hpast k
      rw [if_neg Bool.false_ne_true] at hk
      rw [hspec.metric, hk, ← List.append_assoc, partsOf_append, h.partsOf_keptOf, hspec.num]
      have hfeeds := hflush.feeds rfl (fun hover => (hdue (le_of_lt hover)).2) k
      by_cases hlt : now < p.getCurrentBucketEndTimeNs
      · obtain ⟨hcalls, hfull⟩ := hfeeds.part (decide_eq_false (not_lt.2 (le_of_lt hlt)))
        rw [hcalls, hfull, calcBucketsForwardCount_early hlt, add_zero]
        exact (h.fed k).part (p.part_shown _)
      · obtain ⟨hcalls, hfull⟩ := hfeeds.whole (decide_eq_true (hdue (not_lt.1 hlt)).1)
        obtain ⟨hpos, -, -⟩ := calcBucketsForwardCount_bounds h.inBucket.size hlt
        rw [hcalls, hfull]
        exact (h.fed k).whole (p.part_shown _) (by omega)
    · have hk := hpast k
      rw [if_neg Bool.false_ne_true] at hk
      rw [hk, ← List.append_assoc] at hb
      rw [hspec.metric]
      rcases List.mem_append.1 hb with hb | hb
      · exact h.placed k b hb
      · refine h.placed_keptOf ?_ duration k hb
        unfold closesAt
        rw [if_neg (by rw [hflush.single rfl]; exact Bool.false_ne_true)]
        split
        · exact le_of_lt ‹_›
        · exact le_refl _

theorem lt_end_flush (h : p.InBucket) (next : Int) : now < (p.flushCurrentBucketLocked now next).getCurrentBucketEndTimeNs := by
  obtain ⟨_, hspec⟩ := p.flushCurrentBucketLocked_spec now next
  unfold getCurrentBucketEndTimeNs
  rw [hspec.metric, hspec.num]
  exact lt_end_after h.size now

end

/-! ## The moves of a call -/

/-- What a call finds: its time, the start of the current bucket, the skipped buckets, the past buckets
erased before, and keys with room for the values of the full bucket. -/
structure Found where
  now : Int
  start : Int
  skipped : List SkippedBucket
  erased : MetricDimensionKey → List (ValueBucket Int)
  keys : Finset MetricDimensionKey

/-- Within a call: the feed is right, and while the full bucket is over but not flushed there is room for
its values, with those of the events to come. -/
structure Live (c : Found) (evs : List (ValueEvent Int)) (p : ValueMetricProducer Int) : Prop extends Feeding p c.erased c.now where
  due : p.getCurrentBucketEndTimeNs ≤ c.now → p.getCurrentBucketEndTimeNs < c.now ∧ p.mCurrentBucketStartTimeNs = c.start ∧ Room p evs c.keys

/-- Within a call, in which the bucket that was found may be skipped. -/
def Stage (c : Found) (evs : List (ValueEvent Int)) (p : ValueMetricProducer Int) : Prop :=
  ∃ l, p.mSkippedBuckets = c.skipped ++ l ∧ (Live c evs p ∨ ∃ s ∈ l, s.bucketStartTimeNs = c.start)

section

variable {c : Found} {evs : List (ValueEvent Int)} {p q : ValueMetricProducer Int}

theorem Stage.quiet (h : Stage c evs p) (hq : Quiet p q) {evs' : List (ValueEvent Int)} (hroom : Room p evs c.keys → Room q evs' c.keys) :
    Stage c evs' q := by
  obtain ⟨l, hl, hlive | hbad⟩ := h
  · refine ⟨l, hq.skipped.trans hl, .inl ⟨hlive.toFeeding.quiet hq, fun hdue => ?_⟩⟩
    unfold getCurrentBucketEndTimeNs at hdue ⊢
    rw [hq.metric, hq.num] at hdue ⊢
    obtain ⟨h1, h2, h3⟩ := hlive.due hdue
    exact ⟨h1, hq.start.trans h2, hroom h3⟩
  · exact ⟨l, hq.skipped.trans hl, .inr hbad⟩

theorem Stage.flush (h : Stage c evs p) {next : Int} (hn : p.InBucket → p.mCurrentBucketStartTimeNs ≤ c.now → p.NextStart c.now next)
    (evs' : List (ValueEvent Int)) : Stage c evs' (p.flushCurrentBucketLocked c.now next) := by
  obtain ⟨l, hl, hlive | hbad⟩ := h
  · obtain ⟨l', hl', hfeed⟩ := hlive.toFeeding.flush (hn hlive.inBucket hlive.began) fun hdue =>
      ⟨(hlive.due hdue).1, (hlive.due hdue).2.2.fits⟩
    refine ⟨l ++ l', by rw [hl', hl, List.append_assoc], ?_⟩
    rcases hfeed with hfeed | ⟨hover, s, hs, hstart⟩
    · exact .inl ⟨hfeed, fun hdue => absurd (lt_end_flush hlive.inBucket next) (not_lt.2 hdue)⟩
    · exact .inr ⟨s, List.mem_append_right l hs, hstart.trans (hlive.due (le_of_lt hover)).2.1⟩
  · obtain ⟨skipped, hflush⟩ := p.flushCurrentBucketLocked_flushes c.now next
    obtain ⟨l', hl', -⟩ := hflush.skips
    obtain ⟨s, hs, hstart⟩ := hbad
    exact ⟨l ++ l', by rw [hl', hl, List.append_assoc], .inr ⟨s, List.mem_append_left l' hs, hstart⟩⟩

theorem Stage.split (h : Stage c evs p) (evs' : List (ValueEvent Int)) : Stage c evs' (p.flushCurrentBucketLocked c.now c.now) :=
  h.flush (fun hin hbegan => nextStart_split hin hbegan) evs'

theorem Stage.flushIfNeeded (h : Stage c evs p) (evs' : List (ValueEvent Int)) : Stage c evs' (p.flushIfNeededLocked c.now) := by
  unfold flushIfNeededLocked
  split
  · rename_i hlt
    obtain ⟨l, hl, hlive | hbad⟩ := h
    · exact ⟨l, hl, .inl ⟨hlive.toFeeding, fun hdue => absurd hlt (not_lt.2 hdue)⟩⟩
    · exact ⟨l, hl, .inr hbad⟩
  · rename_i hlt
    exact h.flush (fun hin _ => nextStart_flush hin hlt) evs'

theorem Stage.flushLocked (h : Stage c evs p) (evs' : List (ValueEvent Int)) : Stage c evs' (p.flushLocked c.now) :=
  (h.flushIfNeeded evs').split evs'

end

/-! ## Calls -/

/-- Whether a call at time `t` flushes a full bucket that is over. -/
def flushes (p : ValueMetricProducer Int) (t : Int) : Call Int → Bool
  | .matchedLogEvent event => !p.mIsPulled && p.considers t event
  | .conditionChanged _ _ => p.mIsActive
  | .activeStateChanged isActive _ => decide (isActive ≠ p.mIsActive) && (!isActive || decide (p.mCondition = .kTrue))
  | .appUpgrade _ => p.mSplitBucketForAppUpgrade
  | .statsdInitCompleted _ => true
  | .dataPulled _ => p.mIsPulled
  | .stateChanged _ _ oldState newState _ => decide (oldState ≠ newState) && (decide (p.mCondition = .kTrue) && p.mIsActive)
  | .prepareFirstBucket _ => false
  | .dumpReport include_current_partial_bucket _ _ _ => include_current_partial_bucket
  | .dropData => true

/-- The events that a pulled metric aggregates in a call before it flushes. -/
def eventsToCome (p : ValueMetricProducer Int) (c : Call Int) : List (ValueEvent Int) :=
  if p.mIsPulled then
    match c with
    | .conditionChanged _ pull | .activeStateChanged true pull | .appUpgrade pull | .statsdInitCompleted pull | .dataPulled pull
    | .stateChanged _ _ _ _ pull | .dumpReport _ _ _ pull => pull.allData
    | _ => []
  else []

section

variable {p : ValueMetricProducer Int} {t : Int}

end

section

variable {c : Found} {p : ValueMetricProducer Int}

theorem Stage.congr {evs : List (ValueEvent Int)} (h : Stage c evs p) {q : ValueMetricProducer Int} (hsame : SameBuckets p q)
    (hfull : q.mCurrentFullBucket = p.mCurrentFullBucket) (hcalls : q.anomalyCalls = p.anomalyCalls)
    (hsliced : q.mCurrentSlicedBucket = p.mCurrentSlicedBucket) (hstate : ∀ w, q.stateKeyOf w = p.stateKeyOf w) : Stage c evs q := by
  refine h.quiet ⟨hsame, hfull, fun k => by rw [hcalls], fun hp => ?_⟩ fun hroom => hroom.congr hsame.metric hsliced hfull hstate
  unfold Indexed at hp ⊢
  rw [hsliced]
  exact hp

theorem Stage.pullIf (pull : Pull Int) {evs : List (ValueEvent Int)} (h : Stage c evs p)
    (hevs : evs = if p.mIsPulled then pull.allData else []) (b : Bool) :
    Stage c [] (if p.mIsPulled && b then p.pullAndMatchEventsLocked pull c.now else p) := by
  subst hevs
  exact h.quiet (Quiet.pullIf (K := c.keys) p b pull c.now).1 (Quiet.pullIf p b pull c.now).2

theorem Stage.matched (h : Stage c [] p) (hp : p.mIsPulled = false) (event : ValueEvent Int) :
    Stage c [] (p.onMatchedLogEventLocked { event with elapsedTimestampNs := c.now }) := by
  unfold onMatchedLogEventLocked
  split
  · exact h
  split
  · exact h
  dsimp only
  generalize (if p.mConditionSliced then event.slicedCondition else decide (p.mCondition = .kTrue)) = condition
  unfold onMatchedLogEventInternalLocked
  split
  · exact h
  split
  · exact h
  have hnoted : Stage c [] { p with
      mMatchedMetricDimensionKeys := insert event.eventKey.mDimensionKeyInWhat p.mMatchedMetricDimensionKeys } :=
    h.congr ⟨rfl, rfl, rfl, rfl, rfl⟩ rfl rfl rfl fun _ => rfl
  have hflush := hnoted.flushIfNeeded [event]
  simp only [hp, Bool.false_eq_true, if_false]
  generalize (flushIfNeededLocked (_ : ValueMetricProducer Int) c.now) = q at hflush ⊢
  split
  · exact hflush.quiet (.refl q) fun hroom => hroom.nil
  split
  · exact hflush.quiet (.refl q) fun hroom => hroom.nil
  · exact hflush.quiet (.accumulate q _) fun hroom => hroom.accumulate

theorem Stage.conditionChanged (condition : Bool) (pull : Pull Int) (hactive : p.mIsActive = true) (hbegan : p.mCurrentBucketStartTimeNs ≤ c.now)
    (h : Stage c (if p.mIsPulled then pull.allData else []) p) : Stage c [] (p.onConditionChangedLocked condition c.now pull) := by
  unfold onConditionChangedLocked
  dsimp only
  rw [if_neg (by rw [hactive]; exact Bool.false_ne_true), decide_eq_false (not_lt.2 hbegan), if_neg Bool.false_ne_true]
  obtain ⟨q, hq, hmetric, hknown⟩ : ∃ q, (if p.mCondition = .kUnknown then p.invalidateCurrentBucket c.now .CONDITION_UNKNOWN else p) = q ∧
      q.toValueMetric = p.toValueMetric ∧ Stage c (if p.mIsPulled then pull.allData else []) q := by
    split
    · exact ⟨_, rfl, rfl, h.quiet (.invalidate p _ _) fun hroom => hroom.invalidate _ _⟩
    · exact ⟨p, rfl, rfl, h⟩
  rw [hq]
  have hpull := hknown.pullIf pull (by rw [hmetric])
    (decide (ConditionState.ofBool condition = .kTrue) || decide (q.mCondition = .kTrue))
  generalize (if q.mIsPulled && (decide (ConditionState.ofBool condition = .kTrue) || decide (q.mCondition = .kTrue)) then
    q.pullAndMatchEventsLocked pull c.now else q) = r at hpull
  obtain ⟨r', hr', hreset⟩ : ∃ r', (if r.mUseDiff && (decide (r.mCondition = .kTrue) && decide (ConditionState.ofBool condition = .kFalse)) then
      r.resetBase else r) = r' ∧ Stage c [] r' := by
    split
    · exact ⟨_, rfl, hpull.congr (resetBase_same r) rfl rfl rfl r.stateKeyOf_resetBase⟩
    · exact ⟨r, rfl, hpull⟩
  rw [hr']
  have hcond : Stage c [] { r' with mCondition := ConditionState.ofBool condition } :=
    hreset.congr ⟨rfl, rfl, rfl, rfl, rfl⟩ rfl rfl rfl fun _ => rfl
  exact (hcond.flushIfNeeded []).congr ⟨rfl, rfl, rfl, rfl, rfl⟩ rfl rfl rfl fun _ => rfl

theorem Stage.activeStateChanged (pull : Pull Int) (hbegan : p.mCurrentBucketStartTimeNs ≤ c.now)
    (h : Stage c (if p.mIsPulled && p.mIsActive then pull.allData else []) p) : Stage c [] (p.onActiveStateChangedLocked c.now pull) := by
  unfold onActiveStateChangedLocked
  dsimp only
  rw [decide_eq_false (not_lt.2 hbegan), if_neg Bool.false_ne_true]
  -- a deactivation flushes before the pull
  obtain ⟨q, hq, hmetric, hflush⟩ : ∃ q, (if (!p.mIsActive) = true then p.flushLocked c.now else p) = q ∧
      q.toValueMetric = p.toValueMetric ∧ Stage c (if p.mIsPulled then pull.allData else []) q := by
    cases hactive : p.mIsActive with
    | false =>
      refine ⟨_, rfl, ?_, h.flushLocked _⟩
      obtain ⟨_, hspec⟩ := (p.flushIfNeededLocked c.now).flushCurrentBucketLocked_spec c.now c.now
      refine hspec.metric.trans ?_
      unfold flushIfNeededLocked
      split
      · rfl
      · obtain ⟨_, hspec⟩ := p.flushCurrentBucketLocked_spec c.now
          (p.getCurrentBucketEndTimeNs + (p.calcBucketsForwardCount c.now - 1) * p.mBucketSizeNs)
        exact hspec.metric
    | true =>
      rw [hactive, Bool.and_true] at h
      exact ⟨p, rfl, rfl, h⟩
  rw [hq]
  split
  · exact hflush.quiet (.refl q) fun hroom => hroom.nil
  · rw [if_neg Bool.false_ne_true]
    have hpull := hflush.pullIf pull (by rw [hmetric]) true
    rw [Bool.and_true] at hpull
    generalize (if q.mIsPulled = true then q.pullAndMatchEventsLocked pull c.now else q) = r at hpull
    obtain ⟨r', hr', hreset⟩ : ∃ r', (if (r.mUseDiff && !r.mIsActive) = true then r.resetBase else r) = r' ∧ Stage c [] r' := by
      split
      · exact ⟨_, rfl, hpull.congr (resetBase_same r) rfl rfl rfl r.stateKeyOf_resetBase⟩
      · exact ⟨r, rfl, hpull⟩
    rw [hr']
    exact (hreset.flushIfNeeded []).congr ⟨rfl, rfl, rfl, rfl, rfl⟩ rfl rfl rfl fun _ => rfl

theorem Stage.dataPulled (pull : Pull Int) (hp : p.mIsPulled = true) (h : Stage c pull.allData p) :
    Stage c [] (p.onDataPulled pull c.now) := by
  unfold onDataPulled
  refine (?_ : Stage c [] _).flushIfNeeded []
  split
  · split
    · exact h.quiet (.invalidate p _ _) fun hroom => (hroom.invalidate _ _).nil
    split
    · exact h.quiet (Quiet.accumulateEvents (K := c.keys) hp pull _ _).1 (Quiet.accumulateEvents hp pull _ _).2
    · exact h.quiet (Quiet.accumulateEvents (K := c.keys) hp pull _ _).1 (Quiet.accumulateEvents hp pull _ _).2
  · exact h.quiet (.refl p) fun hroom => hroom.nil

theorem Stage.stateChanged (atomId : Int) (primaryKey : HashableDimensionKey) (oldState newState : Value) (pull : Pull Int)
    (hbegan : p.mCurrentBucketStartTimeNs ≤ c.now) (h : Stage c (if p.mIsPulled then pull.allData else []) p) :
    Stage c [] (p.onStateChanged c.now atomId primaryKey oldState newState pull) := by
  have hnil : Stage c [] p := h.quiet (.refl p) fun hroom => hroom.nil
  unfold onStateChanged
  split
  · exact hnil
  split
  · exact hnil
  rw [if_neg (not_lt.2 hbegan)]
  have hkey : Stage c (if p.mIsPulled then pull.allData else []) { p with mStateChangePrimaryKey := (atomId, primaryKey) } :=
    h.congr ⟨rfl, rfl, rfl, rfl, rfl⟩ rfl rfl rfl fun _ => rfl
  have hpull := hkey.pullIf pull rfl true
  rw [Bool.and_true] at hpull
  refine (?_ : Stage c [] _).flushIfNeeded []
  exact hpull.congr ⟨rfl, rfl, rfl, rfl, rfl⟩ rfl rfl rfl fun _ => rfl

theorem Stage.dump (include_current_partial_bucket : Bool) (dumpLatency : DumpLatency) (pull : Pull Int)
    (h : Stage c (if p.mIsPulled then pull.allData else []) p) :
    Stage c [] (p.prepareDump c.now include_current_partial_bucket dumpLatency pull) := by
  unfold prepareDump
  split
  · exact h.quiet (.refl p) fun hroom => hroom.nil
  dsimp only
  refine (?_ : Stage c [] _).split []
  cases dumpLatency with
  | FAST =>
    dsimp only
    split
    · exact h.quiet (.invalidate p _ _) fun hroom => (hroom.invalidate _ _).nil
    · exact h.quiet (.refl p) fun hroom => hroom.nil
  | NO_TIME_CONSTRAINTS => exact h.pullIf pull rfl _

theorem Stage.call {call : Call Int} (hbegan : p.mCurrentBucketStartTimeNs ≤ c.now) (hflushes : p.flushes c.now call = true)
    (h : Stage c (p.eventsToCome call) p) : Stage c [] (p.call c.now call) := by
  cases call with
  | matchedLogEvent event =>
    have hflushes : (!p.mIsPulled && p.considers c.now event) = true := hflushes
    have hp : p.mIsPulled = false := by simpa using (Bool.and_eq_true_iff.1 hflushes).1
    unfold eventsToCome at h
    rw [hp, if_neg Bool.false_ne_true] at h
    exact h.matched hp event
  | conditionChanged condition pull => exact h.conditionChanged condition pull hflushes hbegan
  | activeStateChanged isActive pull =>
    show Stage c [] (p.setActive isActive c.now pull)
    have hevs : p.eventsToCome (.activeStateChanged isActive pull) = if p.mIsPulled && isActive then pull.allData else [] := by
      unfold eventsToCome
      cases p.mIsPulled <;> cases isActive <;> rfl
    rw [hevs] at h
    unfold setActive
    split
    · exact h.quiet (.refl p) fun hroom => hroom.nil
    · have hset : Stage c (if p.mIsPulled && isActive then pull.allData else []) { p with mIsActive := isActive } :=
        h.congr ⟨rfl, rfl, rfl, rfl, rfl⟩ rfl rfl rfl fun _ => rfl
      exact hset.activeStateChanged pull hbegan
  | appUpgrade pull =>
    show Stage c [] (p.notifyAppUpgrade c.now pull)
    unfold notifyAppUpgrade
    split
    · exact h.quiet (.refl p) fun hroom => hroom.nil
    · exact (h.pullIf pull rfl _).split []
  | statsdInitCompleted pull => exact (h.pullIf pull rfl _).split []
  | dataPulled pull =>
    have hp : p.mIsPulled = true := hflushes
    show Stage c [] (if p.mIsPulled then p.onDataPulled pull c.now else p)
    unfold eventsToCome at h
    rw [hp, if_pos rfl] at h
    rw [hp, if_pos rfl]
    exact h.dataPulled pull hp
  | stateChanged atomId primaryKey oldState newState pull => exact h.stateChanged atomId primaryKey oldState newState pull hbegan
  | prepareFirstBucket pull => cases hflushes
  | dumpReport include_current_partial_bucket erase_data dumpLatency pull => exact h.dump include_current_partial_bucket dumpLatency pull
  | dropData => exact h.flushIfNeeded []

end

theorem Feeding.reported {p : ValueMetricProducer Int} {erased : MetricDimensionKey → List (ValueBucket Int)} {now : Int}
    (h : Feeding p erased now) (k : MetricDimensionKey) (n : Int) :
    valuesAt n (partsOf p.toValueMetric (erased k ++ UMap.getD p.mPastBuckets k [])) =
      ((erased k ++ UMap.getD p.mPastBuckets k []).filter fun b => decide (Within p.toValueMetric n b)).filterMap (·.valueAt 0) := by
  have hplaced := h.placed k
  generalize erased k ++ UMap.getD p.mPastBuckets k [] = l at hplaced
  induction l with
  | nil => rfl
  | cons b l ih =>
    have ih := ih fun b' hb' => hplaced b' (List.mem_cons_of_mem b hb')
    have hiff : Within p.toValueMetric n b ↔ Grid.cellOf p.mTimeBaseNs p.mBucketSizeNs b.mBucketStartNs = n := by
      refine ⟨fun hw => (Grid.inCell_iff h.inBucket.size).1 ⟨hw.1, hw.2.1⟩, fun hcell => ?_⟩
      obtain ⟨h1, h2⟩ := (Grid.inCell_iff h.inBucket.size).2 hcell
      have hb := hplaced b List.mem_cons_self
      rw [hcell] at hb
      exact ⟨h1, h2, hb⟩
    have hcons : valuesAt n (partsOf p.toValueMetric (b :: l)) =
        (if Grid.cellOf p.mTimeBaseNs p.mBucketSizeNs b.mBucketStartNs = n then (b.valueAt 0).toList else []) ++
          valuesAt n (partsOf p.toValueMetric l) := by
      unfold partsOf
      cases hv : b.valueAt 0 with
      | none =>
        rw [List.filterMap_cons_none (by rw [hv]; rfl)]
        simp
      | some v =>
        rw [List.filterMap_cons_some (b := (Grid.cellOf p.mTimeBaseNs p.mBucketSizeNs b.mBucketStartNs, v)) (by rw [hv]; rfl)]
        exact (valuesAt_append n [_] _).trans (congrArg (· ++ _) (valuesAt_tagged n _ [v]))
    rw [hcons, ih, List.filter_cons]
    by_cases hcell : Grid.cellOf p.mTimeBaseNs p.mBucketSizeNs b.mBucketStartNs = n
    · rw [if_pos hcell, if_pos (decide_eq_true (hiff.2 hcell))]
      cases hv : b.valueAt 0 with
      | none => exact (List.filterMap_cons_none (f := fun b : ValueBucket Int => b.valueAt 0) hv).symm
      | some v => exact (List.filterMap_cons_some (f := fun b : ValueBucket Int => b.valueAt 0) hv).symm
    · rw [if_neg hcell, if_neg (by rw [decide_eq_false fun hw => hcell (hiff.1 hw)]; exact Bool.false_ne_true), List.nil_append]

namespace History

end History

end ValueMetricProducer

open CountMetricProducer (plainMetric)
open ValueMetricProducer (pushedMetric)

end Statsd.Metrics
