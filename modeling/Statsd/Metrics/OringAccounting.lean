/-
The accounting of an OR-duration tracker, operation by operation. Every operation does one of four
things to the clock: leave it stopped, start it, leave it running, or take the time that has run
(`Accounted`); a flush moves the time taken so far into buckets (`FlushSpec`).
-/
import Statsd.Metrics.OringDurationTracker

namespace Statsd

namespace UMap

variable {K V : Type} [DecidableEq K]

theorem isEmpty_insert (m : UMap K V) (k : K) (v : V) : (m.insert k v).entries.isEmpty = false := by
  simp [AList.insert, List.kinsert]

theorem isEmpty_emplace (m : UMap K V) (k : K) (v : V) : (m.emplace k v).entries.isEmpty = false := by
  unfold emplace
  split
  · rename_i h
    rw [List.isEmpty_eq_false_iff]
    exact fun h0 => by simp [AList.mem_keys, AList.keys, h0] at h
  · exact isEmpty_insert m k v

theorem isEmpty_insertAll (m : UMap K V) (l : List (Sigma fun _ : K => V)) :
    (m.insertAll l).entries.isEmpty = (m.entries.isEmpty && l.isEmpty) := by
  unfold insertAll
  induction l generalizing m with
  | nil => simp
  | cons it l ih => rw [List.foldl_cons, ih, isEmpty_emplace]; simp

theorem eraseAll_empty (l : List (Sigma fun _ : K => V)) : (∅ : UMap K V).eraseAll l = ∅ := by
  unfold eraseAll
  induction l with
  | nil => rfl
  | cons it l ih =>
    rw [List.foldl_cons]
    have : AList.erase it.1 (∅ : UMap K V) = ∅ := rfl
    rw [this, ih]

omit [DecidableEq K] in
theorem eq_empty_of_isEmpty {m : UMap K V} (h : m.entries.isEmpty = true) : m = ∅ :=
  AList.ext (List.isEmpty_iff.1 h)

end UMap

namespace Metrics.OringDurationTracker

/-! ## What a tracker has accounted for -/

/-- Some internal key is started and not paused. -/
def started (t : OringDurationTracker) : Bool := !t.mStarted.entries.isEmpty

/-- The time of a state key in the current bucket that is taken but not emitted. -/
def pending (t : OringDurationTracker) (s : HashableDimensionKey) : Int := (UMap.getD t.mStateKeyDurationMap s {}).mDuration

/-- The time of a state key since the clock was last started. -/
def running (t : OringDurationTracker) (now : Int) (s : HashableDimensionKey) : Int :=
  if t.started = true ∧ s = t.stateKey then now - t.mLastStartTime else 0

/-- The duration of all emitted buckets of a key. -/
def emitted (output : PastBuckets) (key : MetricDimensionKey) : Int := ((UMap.getD output key []).map (·.mDuration)).sum

/-- The operation leaves the tracker's bucket and its what-dimension alone. -/
structure SameBucket (t t' : OringDurationTracker) : Prop where
  what : t'.mEventKey.mDimensionKeyInWhat = t.mEventKey.mDimensionKeyInWhat
  size : t'.mBucketSizeNs = t.mBucketSizeNs
  start : t'.mStartTimeNs = t.mStartTimeNs
  num : t'.mCurrentBucketNum = t.mCurrentBucketNum
  bucketStart : t'.mCurrentBucketStartTimeNs = t.mCurrentBucketStartTimeNs

/-- What an operation at `now` does to the clock. -/
inductive Accounted (t t' : OringDurationTracker) (now : Int) : Prop where
  | idle (h : t.started = false) (h' : t'.started = false) (hp : ∀ s, t'.pending s = t.pending s)
  | opened (h : t.started = false) (h' : t'.started = true) (hl : t'.mLastStartTime = now)
      (hp : ∀ s, t'.pending s = t.pending s)
  | kept (h : t.started = true) (h' : t'.started = true) (hl : t'.mLastStartTime = t.mLastStartTime)
      (hk : t'.stateKey = t.stateKey) (hp : ∀ s, t'.pending s = t.pending s)
  | closed (h : t.started = true) (hl : t'.started = true → t'.mLastStartTime = now)
      (hp : ∀ s, t'.pending s = t.pending s + if s = t.stateKey then now - t.mLastStartTime else 0)

/-- What is known of an operation at `now`. -/
structure OpSpec (t t' : OringDurationTracker) (now : Int) : Prop where
  bucket : SameBucket t t'
  time : Accounted t t' now

theorem Accounted.conserves {t t' : OringDurationTracker} {now : Int} (h : Accounted t t' now) (s : HashableDimensionKey) :
    t'.pending s + t'.running now s = t.pending s + t.running now s := by
  unfold running
  cases h with
  | idle h h' hp => simp [h, h', hp]
  | opened h h' hl hp => simp [h, h', hl, hp]
  | kept h h' hl hk hp => simp [h, h', hl, hk, hp]
  | closed h hl hp =>
    rw [hp, h]
    cases h' : t'.started with
    | false => simp
    | true => simp [hl h']

/-! ## The parts of the operations -/

variable (t : OringDurationTracker)

theorem recordDuration_pending (now : Int) (s : HashableDimensionKey) :
    (t.recordDuration now).pending s = t.pending s + if s = t.stateKey then now - t.mLastStartTime else 0 := by
  unfold recordDuration addDuration pending
  dsimp only
  rw [UMap.getD_insert]
  split
  · rename_i hs; rw [hs]
  · simp

theorem recordDuration_bucket (now : Int) : SameBucket t (t.recordDuration now) :=
  ⟨rfl, rfl, rfl, rfl, rfl⟩

/-- Nothing that matters to the clock differs. -/
structure SameClock (t t' : OringDurationTracker) : Prop where
  bucket : SameBucket t t'
  started : t'.started = t.started
  last : t'.mLastStartTime = t.mLastStartTime
  stateKey : t'.stateKey = t.stateKey
  pending : ∀ s, t'.pending s = t.pending s

theorem SameBucket.trans {t t' t'' : OringDurationTracker} (h : SameBucket t t') (h' : SameBucket t' t'') :
    SameBucket t t'' :=
  ⟨h'.1.trans h.1, h'.2.trans h.2, h'.3.trans h.3, h'.4.trans h.4, h'.5.trans h.5⟩

theorem SameClock.spec {t t' : OringDurationTracker} (h : SameClock t t') (now : Int) : OpSpec t t' now := by
  refine ⟨h.bucket, ?_⟩
  cases hs : t.started with
  | false => exact .idle hs (h.started.trans hs) h.pending
  | true => exact .kept hs (h.started.trans hs) h.last h.stateKey h.pending

theorem OpSpec.andThen {t t' t'' : OringDurationTracker} {now : Int} (h : OpSpec t t' now) (h' : SameClock t' t'') :
    OpSpec t t'' now := by
  refine ⟨h.bucket.trans h'.bucket, ?_⟩
  have hp : ∀ s, t''.pending s = t'.pending s := h'.pending
  cases h.time with
  | idle h1 h2 h3 => exact .idle h1 (h'.started.trans h2) fun s => (hp s).trans (h3 s)
  | opened h1 h2 hl h3 => exact .opened h1 (h'.started.trans h2) (h'.last.trans hl) fun s => (hp s).trans (h3 s)
  | kept h1 h2 hl hk h3 =>
    exact .kept h1 (h'.started.trans h2) (h'.last.trans hl) (h'.stateKey.trans hk) fun s => (hp s).trans (h3 s)
  | closed h1 hl h3 =>
    exact .closed h1 (fun hon => h'.last.trans (hl (h'.started.symm.trans hon))) fun s => (hp s).trans (h3 s)

theorem OpSpec.trans {t t' t'' : OringDurationTracker} {now : Int} (h : OpSpec t t' now) (h' : OpSpec t' t'' now) :
    OpSpec t t'' now := by
  refine ⟨h.bucket.trans h'.bucket, ?_⟩
  cases h.time with
  | idle h1 h2 hp =>
    cases h'.time with
    | idle g1 g2 gp => exact .idle h1 g2 fun s => (gp s).trans (hp s)
    | opened g1 g2 gl gp => exact .opened h1 g2 gl fun s => (gp s).trans (hp s)
    | kept g1 g2 gl gk gp => rw [h2] at g1; cases g1
    | closed g1 gl gp => rw [h2] at g1; cases g1
  | opened h1 h2 hl hp =>
    cases h'.time with
    | idle g1 g2 gp => rw [h2] at g1; cases g1
    | opened g1 g2 gl gp => rw [h2] at g1; cases g1
    | kept g1 g2 gl gk gp => exact .opened h1 g2 (gl.trans hl) fun s => (gp s).trans (hp s)
    | closed g1 gl gp =>
      -- no time has passed since the clock was started
      have gp' : ∀ s, t''.pending s = t.pending s := fun s => by rw [gp, hp, hl]; simp
      cases hon : t''.started with
      | false => exact .idle h1 hon gp'
      | true => exact .opened h1 hon (gl hon) gp'
  | kept h1 h2 hl hk hp =>
    cases h'.time with
    | idle g1 g2 gp => rw [h2] at g1; cases g1
    | opened g1 g2 gl gp => rw [h2] at g1; cases g1
    | kept g1 g2 gl gk gp => exact .kept h1 g2 (gl.trans hl) (gk.trans hk) fun s => (gp s).trans (hp s)
    | closed g1 gl gp => exact .closed h1 gl fun s => by rw [gp, hp, hk, hl]
  | closed h1 hl hp =>
    cases h'.time with
    | idle g1 g2 gp => exact .closed h1 (fun hon => by rw [g2] at hon; cases hon) fun s => (gp s).trans (hp s)
    | opened g1 g2 gl gp => exact .closed h1 (fun _ => gl) fun s => (gp s).trans (hp s)
    | kept g1 g2 gl gk gp => exact .closed h1 (fun _ => gl.trans (hl g1)) fun s => (gp s).trans (hp s)
    | closed g1 gl gp => exact .closed h1 gl fun s => by rw [gp, hp, hl g1]; simp

theorem SameClock.refl : SameClock t t := ⟨⟨rfl, rfl, rfl, rfl, rfl⟩, rfl, rfl, rfl, fun _ => rfl⟩

theorem SameClock.trans {t t' t'' : OringDurationTracker} (h : SameClock t t') (h' : SameClock t' t'') : SameClock t t'' :=
  ⟨h.bucket.trans h'.bucket, h'.started.trans h.started, h'.last.trans h.last, h'.stateKey.trans h.stateKey,
    fun s => (h'.pending s).trans (h.pending s)⟩

theorem call_sameClock (c : AnomalyCall) : SameClock t (t.call c) :=
  ⟨⟨rfl, rfl, rfl, rfl, rfl⟩, rfl, rfl, rfl, fun _ => rfl⟩

theorem setPaused_sameClock (paused : UMap HashableDimensionKey Int) :
    SameClock t { t with mPaused := paused } :=
  ⟨⟨rfl, rfl, rfl, rfl, rfl⟩, rfl, rfl, rfl, fun _ => rfl⟩

theorem stopAlarmIfStopped_sameClock (now : Int) : SameClock t (t.stopAlarmIfStopped now) := by
  unfold stopAlarmIfStopped
  split
  · exact call_sameClock t _
  · exact .refl t

theorem dropConditionKey_sameClock (key : HashableDimensionKey) (gone : Bool) :
    SameClock t (t.dropConditionKey key gone) := by
  cases gone
  · exact .refl t
  · exact ⟨⟨rfl, rfl, rfl, rfl, rfl⟩, rfl, rfl, rfl, fun _ => rfl⟩

theorem started_eq_false {t : OringDurationTracker} : t.started = false ↔ t.mStarted.entries.isEmpty = true := by
  unfold started; cases t.mStarted.entries.isEmpty <;> simp

theorem started_eq_true {t : OringDurationTracker} : t.started = true ↔ t.mStarted.entries.isEmpty = false := by
  unfold started; cases t.mStarted.entries.isEmpty <;> simp

theorem recordDuration_spec {t t' : OringDurationTracker} {now : Int} (hon : t.started = true) (hb : SameBucket t t')
    (hl : t'.mLastStartTime = t.mLastStartTime) (hk : t'.stateKey = t.stateKey) (hp : ∀ s, t'.pending s = t.pending s)
    (hoff : t'.started = false) : OpSpec t (t'.recordDuration now) now := by
  refine ⟨hb.trans (recordDuration_bucket t' now), .closed hon (fun hon' => ?_) fun s => ?_⟩
  · have : t'.started = true := hon'
    rw [hoff] at this; cases this
  · rw [recordDuration_pending, hp, hk, hl]

/-! ## The operations -/

theorem noteStart_spec (key : HashableDimensionKey) (condition : Bool) (now : Int)
    (conditionKey : ConditionKey) : OpSpec t (t.noteStart key condition now conditionKey) now := by
  have hkey : ∀ t' : OringDurationTracker, SameClock t' (if t'.mConditionSliced && (t'.mConditionKeyMap.lookup key).isNone then
      { t' with mConditionKeyMap := t'.mConditionKeyMap.insert key conditionKey } else t') := by
    intro t'
    split
    · exact ⟨⟨rfl, rfl, rfl, rfl, rfl⟩, rfl, rfl, rfl, fun _ => rfl⟩
    · exact .refl t'
  unfold noteStart
  split
  · exact (SameClock.refl t).spec now
  · refine OpSpec.andThen ?_ (hkey _)
    cases condition with
    | false =>
      simp only [Bool.false_eq_true, if_false]
      exact (setPaused_sameClock t _).spec now
    | true =>
      simp only [if_true]
      have hon : ∀ m : UMap HashableDimensionKey Int, (increment m key).entries.isEmpty = false :=
        fun m => UMap.isEmpty_insert _ _ _
      split
      · rename_i hempty
        exact ⟨⟨rfl, rfl, rfl, rfl, rfl⟩,
          .opened (started_eq_false.2 hempty) (started_eq_true.2 (hon _)) rfl fun _ => rfl⟩
      · rename_i hempty
        exact ⟨⟨rfl, rfl, rfl, rfl, rfl⟩,
          .kept (started_eq_true.2 (by simpa using hempty)) (started_eq_true.2 (hon _)) rfl rfl fun _ => rfl⟩

theorem stopStarted_spec (key : HashableDimensionKey) (now : Int) (stopAll : Bool) :
    OpSpec t (t.stopStarted key now stopAll) now := by
  unfold stopStarted
  cases hl : t.mStarted.lookup key with
  | none => exact (SameClock.refl t).spec now
  | some count =>
    have hwas : t.started = true := by
      rw [started_eq_true]
      by_contra he
      have hnone : t.mStarted = ∅ := UMap.eq_empty_of_isEmpty (by simpa using he)
      rw [hnone] at hl
      simp at hl
    dsimp only
    generalize decrement t.mNested stopAll t.mStarted key count = r
    have hdrop := dropConditionKey_sameClock { t with mStarted := r.1 } key r.2
    generalize { t with mStarted := r.1 }.dropConditionKey key r.2 = t' at hdrop
    have hb : SameBucket t t' := ⟨hdrop.bucket.1, hdrop.bucket.2, hdrop.bucket.3, hdrop.bucket.4, hdrop.bucket.5⟩
    split
    · rename_i hempty
      refine OpSpec.andThen ?_ (call_sameClock _ _)
      exact recordDuration_spec hwas hb hdrop.last hdrop.stateKey hdrop.pending (started_eq_false.2 hempty)
    · rename_i hempty
      exact ⟨hb, .kept hwas (started_eq_true.2 (by simpa using hempty)) hdrop.last hdrop.stateKey hdrop.pending⟩

theorem stopPaused_sameClock (key : HashableDimensionKey) (stopAll : Bool) :
    SameClock t (t.stopPaused key stopAll) := by
  unfold stopPaused
  cases t.mPaused.lookup key with
  | none => exact .refl t
  | some count => exact (setPaused_sameClock t _).trans (dropConditionKey_sameClock _ key _)

theorem noteStop_spec (key : HashableDimensionKey) (now : Int) (stopAll : Bool) :
    OpSpec t (t.noteStop key now stopAll) now :=
  ((t.stopStarted_spec key now stopAll).andThen (stopPaused_sameClock _ key stopAll)).andThen
    (stopAlarmIfStopped_sameClock _ now)

theorem noteStopAll_spec (now : Int) : OpSpec t (t.noteStopAll now) now := by
  unfold noteStopAll
  have hoff : ∀ t' : OringDurationTracker, ({ t'.stopAnomalyAlarm now with
      mStarted := ∅, mPaused := ∅, mConditionKeyMap := ∅ } : OringDurationTracker).started = false := fun _ => rfl
  cases hs : t.mStarted.entries.isEmpty with
  | true =>
    simp only [Bool.not_true, Bool.false_eq_true, if_false]
    exact ⟨⟨rfl, rfl, rfl, rfl, rfl⟩, .idle (started_eq_false.2 hs) (hoff t) fun _ => rfl⟩
  | false =>
    simp only [Bool.not_false, if_true]
    exact ⟨⟨rfl, rfl, rfl, rfl, rfl⟩, .closed (started_eq_true.2 hs) (fun hon => by rw [hoff] at hon; cases hon)
      (recordDuration_pending t now)⟩

theorem onConditionChanged_spec (condition : Bool) (now : Int) :
    OpSpec t (t.onConditionChanged condition now) now := by
  unfold onConditionChanged
  refine OpSpec.andThen ?_ (stopAlarmIfStopped_sameClock _ now)
  cases condition with
  | true =>
    simp only [if_true]
    cases hp : t.mPaused.entries.isEmpty with
    | true => simp only [if_true]; exact (SameClock.refl t).spec now
    | false =>
      simp only [Bool.false_eq_true, if_false]
      have hon : ∀ m : UMap HashableDimensionKey Int, (m.insertAll t.mPaused.entries).entries.isEmpty = false := by
        intro m; rw [UMap.isEmpty_insertAll, hp, Bool.and_false]
      split
      · rename_i hempty
        exact ⟨⟨rfl, rfl, rfl, rfl, rfl⟩,
          .opened (started_eq_false.2 hempty) (started_eq_true.2 (hon _)) rfl fun _ => rfl⟩
      · rename_i hempty
        exact ⟨⟨rfl, rfl, rfl, rfl, rfl⟩,
          .kept (started_eq_true.2 (by simpa using hempty)) (started_eq_true.2 (hon _)) rfl rfl fun _ => rfl⟩
  | false =>
    simp only [Bool.false_eq_true, if_false]
    cases hs : t.mStarted.entries.isEmpty with
    | true => simp only [if_true]; exact (SameClock.refl t).spec now
    | false =>
      simp only [Bool.false_eq_true, if_false]
      refine ⟨⟨rfl, rfl, rfl, rfl, rfl⟩, .closed (started_eq_true.2 hs) (fun hon => ?_) (recordDuration_pending t now)⟩
      cases hon

theorem onStateChanged_spec (now atomId : Int) (newState : Value) :
    OpSpec t (t.onStateChanged now atomId newState) now := by
  unfold onStateChanged
  cases hs : t.mStarted.entries.isEmpty with
  | true =>
    simp only [if_true]
    exact ⟨⟨rfl, rfl, rfl, rfl, rfl⟩, .idle (started_eq_false.2 hs) (started_eq_false.2 hs) fun _ => rfl⟩
  | false =>
    simp only [Bool.false_eq_true, if_false]
    exact ⟨⟨rfl, rfl, rfl, rfl, rfl⟩, .closed (started_eq_true.2 hs) (fun _ => rfl) (recordDuration_pending t now)⟩

theorem pauseKeys_spec (l : List (Sigma fun _ : HashableDimensionKey => Int)) (now : Int) :
    OpSpec t (t.pauseKeys l now) now := by
  unfold pauseKeys
  dsimp only
  cases hs : t.mStarted.entries.isEmpty with
  | true =>
    simp only [Bool.not_true, Bool.false_and, Bool.false_eq_true, if_false]
    refine ⟨⟨rfl, rfl, rfl, rfl, rfl⟩, .idle (started_eq_false.2 hs) (started_eq_false.2 ?_) fun _ => rfl⟩
    rw [UMap.eq_empty_of_isEmpty hs, UMap.eraseAll_empty]
    rfl
  | false =>
    simp only [Bool.not_false, Bool.true_and]
    split
    · rename_i he
      refine OpSpec.andThen ?_ (call_sameClock _ _)
      exact recordDuration_spec (started_eq_true.2 hs) ⟨rfl, rfl, rfl, rfl, rfl⟩ rfl rfl (fun _ => rfl) (started_eq_false.2 he)
    · rename_i he
      exact ⟨⟨rfl, rfl, rfl, rfl, rfl⟩,
        .kept (started_eq_true.2 hs) (started_eq_true.2 (by simpa using he)) rfl rfl fun _ => rfl⟩

theorem resumeKeys_spec (l l' : List (Sigma fun _ : HashableDimensionKey => Int)) (now : Int) :
    OpSpec t { t.resumeKeys l now with
      mStarted := (t.resumeKeys l now).mStarted.insertAll l, mPaused := (t.resumeKeys l now).mPaused.insertAll l' } now := by
  have hkeys : (t.resumeKeys l now).mStarted = t.mStarted := by
    unfold resumeKeys; dsimp only; split <;> rfl
  have hstarted : started { t.resumeKeys l now with
      mStarted := (t.resumeKeys l now).mStarted.insertAll l
      mPaused := (t.resumeKeys l now).mPaused.insertAll l' } = (t.started || !l.isEmpty) := by
    unfold started
    dsimp only
    rw [hkeys, UMap.isEmpty_insertAll, Bool.not_and]
  unfold resumeKeys at hstarted ⊢
  dsimp only at hstarted ⊢
  cases hs : t.mStarted.entries.isEmpty with
  | true =>
    rw [started_eq_false.2 hs, Bool.false_or] at hstarted
    simp only [hs, Bool.true_and] at hstarted ⊢
    cases hl : l.isEmpty with
    | true =>
      simp only [hl, Bool.not_true, Bool.false_eq_true, if_false] at hstarted ⊢
      exact ⟨⟨rfl, rfl, rfl, rfl, rfl⟩, .idle (started_eq_false.2 hs) hstarted fun _ => rfl⟩
    | false =>
      simp only [hl, Bool.not_false, if_true] at hstarted ⊢
      exact ⟨⟨rfl, rfl, rfl, rfl, rfl⟩, .opened (started_eq_false.2 hs) hstarted rfl fun _ => rfl⟩
  | false =>
    rw [started_eq_true.2 hs, Bool.true_or] at hstarted
    simp only [hs, Bool.false_and, Bool.false_eq_true, if_false] at hstarted ⊢
    exact ⟨⟨rfl, rfl, rfl, rfl, rfl⟩, .kept (started_eq_true.2 hs) hstarted rfl rfl fun _ => rfl⟩

theorem onSlicedConditionMayChange_spec (query : ConditionKey → ConditionState) (now : Int) :
    OpSpec t (t.onSlicedConditionMayChange query now) now :=
  ((t.pauseKeys_spec _ now).trans (resumeKeys_spec _ _ _ now)).andThen (stopAlarmIfStopped_sameClock _ now)

/-! ## Flushing -/

/-- The buckets emitted so far for a state key. -/
def bucketsOf (t : OringDurationTracker) (output : PastBuckets) (s : HashableDimensionKey) : List DurationBucket :=
  UMap.getD output ⟨t.mEventKey.mDimensionKeyInWhat, s⟩ []

/-- The parts of a tracker that the loops of a flush leave alone. -/
structure FlushFrame (t t' : OringDurationTracker) : Prop where
  bucket : SameBucket t t'
  key : t'.mEventKey = t.mEventKey
  started : t'.mStarted = t.mStarted
  paused : t'.mPaused = t.mPaused
  last : t'.mLastStartTime = t.mLastStartTime

theorem FlushFrame.trans {t t' t'' : OringDurationTracker} (h : FlushFrame t t') (h' : FlushFrame t' t'') : FlushFrame t t'' :=
  ⟨h.bucket.trans h'.bucket, h'.key.trans h.key, h'.started.trans h.started, h'.paused.trans h.paused, h'.last.trans h.last⟩

theorem FlushFrame.call (c : AnomalyCall) : FlushFrame t (t.call c) :=
  ⟨⟨rfl, rfl, rfl, rfl, rfl⟩, rfl, rfl, rfl, rfl⟩

theorem FlushFrame.setValues (s : HashableDimensionKey) (v : DurationValues) :
    FlushFrame t (t.setValues s v) :=
  ⟨⟨rfl, rfl, rfl, rfl, rfl⟩, rfl, rfl, rfl, rfl⟩

theorem getD_push (output : PastBuckets) (key key' : MetricDimensionKey) (b : DurationBucket) :
    UMap.getD (UMap.push output key b) key' [] = UMap.getD output key' [] ++ if key' = key then [b] else [] := by
  unfold UMap.push
  rw [UMap.getD_insert]
  split
  · rename_i h; rw [h]
  · simp

/-- The bucket a state key's pending time goes to, if there is any. -/
def partOf (start stop pending : Int) : List DurationBucket := if pending > 0 then [⟨start, stop, pending⟩] else []

theorem flushStateKey_spec (e E stop : Int) (x : Flushing) (k : HashableDimensionKey) :
    FlushFrame x.1 (flushStateKey e E stop x k).1 ∧
    (∀ s, (flushStateKey e E stop x k).1.pending s = if s = k then 0 else x.1.pending s) ∧
    ∀ s, x.1.bucketsOf (flushStateKey e E stop x k).2 s = x.1.bucketsOf x.2 s ++
      if s = k then partOf x.1.mCurrentBucketStartTimeNs stop (x.1.pending k) else [] := by
  obtain ⟨t, output⟩ := x
  have hset : ∀ (t : OringDurationTracker) (v : DurationValues) s,
      (t.setValues k v).pending s = if s = k then v.mDuration else t.pending s := by
    intro t v s
    unfold setValues pending
    dsimp only
    rw [UMap.getD_insert]
    split <;> rfl
  unfold flushStateKey
  dsimp only
  -- the first branch: emit what is pending
  have hemit : ∃ t1 output1, (if t.pending k > 0 then
      (t.setValues k { UMap.getD t.mStateKeyDurationMap k {} with
          mDurationFullBucket := (UMap.getD t.mStateKeyDurationMap k {}).mDurationFullBucket + t.pending k },
        UMap.push output ⟨t.mEventKey.mDimensionKeyInWhat, k⟩ ⟨t.mCurrentBucketStartTimeNs, stop, t.pending k⟩)
      else (t, output)) = (t1, output1) ∧ FlushFrame t t1 ∧ (∀ s, t1.pending s = t.pending s) ∧
      ∀ s, t.bucketsOf output1 s = t.bucketsOf output s ++
        if s = k then partOf t.mCurrentBucketStartTimeNs stop (t.pending k) else [] := by
    unfold partOf
    split
    · refine ⟨_, _, rfl, FlushFrame.setValues _ _ _, fun s => ?_, fun s => ?_⟩
      · rw [hset]
        split
        · rename_i hs; rw [hs]; rfl
        · rfl
      · unfold bucketsOf
        rw [getD_push]
        simp only [MetricDimensionKey.mk.injEq, true_and]
    · exact ⟨_, _, rfl, ⟨⟨rfl, rfl, rfl, rfl, rfl⟩, rfl, rfl, rfl, rfl⟩, fun _ => rfl, fun s => by simp⟩
  obtain ⟨t1, output1, heq, hf1, hp1, ho1⟩ := hemit
  unfold pending at heq
  rw [heq]
  dsimp only
  refine ⟨?_, fun s => ?_, ho1⟩
  · refine FlushFrame.trans (hf1.trans ?_) (FlushFrame.setValues _ _ _)
    split
    · exact (FlushFrame.call _ _).trans (FlushFrame.setValues _ _ _)
    · exact ⟨⟨rfl, rfl, rfl, rfl, rfl⟩, rfl, rfl, rfl, rfl⟩
  · rw [hset]
    split
    · rfl
    · rename_i hs
      split
      · rw [hset, if_neg hs]; exact hp1 s
      · exact hp1 s

theorem foldl_flushStateKey (e E stop : Int) (l : List HashableDimensionKey) (hl : l.Nodup) (x : Flushing) :
    FlushFrame x.1 (l.foldl (flushStateKey e E stop) x).1 ∧
    (∀ s, (l.foldl (flushStateKey e E stop) x).1.pending s = if s ∈ l then 0 else x.1.pending s) ∧
    ∀ s, x.1.bucketsOf (l.foldl (flushStateKey e E stop) x).2 s = x.1.bucketsOf x.2 s ++
      if s ∈ l then partOf x.1.mCurrentBucketStartTimeNs stop (x.1.pending s) else [] := by
  induction l generalizing x with
  | nil => exact ⟨⟨⟨rfl, rfl, rfl, rfl, rfl⟩, rfl, rfl, rfl, rfl⟩, fun s => by simp, fun s => by simp⟩
  | cons k l ih =>
    rw [List.nodup_cons] at hl
    obtain ⟨hf, hp, ho⟩ := flushStateKey_spec e E stop x k
    obtain ⟨hf', hp', ho'⟩ := ih hl.2 (flushStateKey e E stop x k)
    rw [List.foldl_cons]
    generalize flushStateKey e E stop x k = y at *
    refine ⟨hf.trans hf', fun s => ?_, fun s => ?_⟩
    · rw [hp', hp]
      by_cases hs : s = k
      · simp [hs]
      · simp [hs]
    · have hsame : ∀ out, y.1.bucketsOf out s = x.1.bucketsOf out s := fun out => by
        unfold bucketsOf; rw [hf.bucket.what]
      have := ho' s
      rw [hsame, hsame, ho, hp, hf.bucket.bucketStart] at this
      rw [this]
      by_cases hs : s = k
      · subst hs; simp [hl.1]
      · simp [hs]

/-- The `i`-th skipped bucket. -/
def filled (t : OringDurationTracker) (E : Int) (i : Nat) : DurationBucket :=
  ⟨E + t.mBucketSizeNs * ((i : Int) - 1), E + t.mBucketSizeNs * ((i : Int) - 1) + t.mBucketSizeNs, t.mBucketSizeNs⟩

theorem foldl_fillBucket (E : Int) (l : List Nat) (x : Flushing) :
    FlushFrame x.1 (l.foldl (fillBucket E) x).1 ∧ (∀ s, (l.foldl (fillBucket E) x).1.pending s = x.1.pending s) ∧
    ∀ s, x.1.bucketsOf (l.foldl (fillBucket E) x).2 s = x.1.bucketsOf x.2 s ++
      if s = x.1.stateKey then l.map (x.1.filled E) else [] := by
  induction l generalizing x with
  | nil => exact ⟨⟨⟨rfl, rfl, rfl, rfl, rfl⟩, rfl, rfl, rfl, rfl⟩, fun s => rfl, fun s => by simp⟩
  | cons i l ih =>
    obtain ⟨hf, hp, ho⟩ := ih (fillBucket E x i)
    rw [List.foldl_cons]
    refine ⟨(FlushFrame.call x.1 _).trans hf, fun s => (hp s).trans rfl, fun s => ?_⟩
    have hstep : x.1.bucketsOf (fillBucket E x i).2 s = x.1.bucketsOf x.2 s ++
        if s = x.1.stateKey then [x.1.filled E i] else [] := by
      unfold fillBucket bucketsOf
      rw [getD_push]
      congr 1
      have hiff : ((⟨x.1.mEventKey.mDimensionKeyInWhat, s⟩ : MetricDimensionKey) = x.1.mEventKey) ↔ s = x.1.stateKey :=
        ⟨fun h => congrArg MetricDimensionKey.mStateValuesKey h, fun h => by rw [h]; rfl⟩
      simp only [hiff]
      rfl
    refine (ho s).trans ?_
    have hsame : (fillBucket E x i).1.bucketsOf (fillBucket E x i).2 s = x.1.bucketsOf (fillBucket E x i).2 s := rfl
    have hkey : (fillBucket E x i).1.stateKey = x.1.stateKey := rfl
    have hfill : (fillBucket E x i).1.filled E = x.1.filled E := rfl
    rw [hsame, hstep, hkey, hfill]
    by_cases hs : s = x.1.stateKey
    · simp [hs]
    · simp [hs]

/-- The end of the bucket that a flush at `e` closes. -/
def closesAt (t : OringDurationTracker) (e : Int) : Int :=
  if e ≥ t.getCurrentBucketEndTimeNs then t.getCurrentBucketEndTimeNs else e

/-- A flush first takes the running time, up to the end of the bucket it closes. -/
def takeRunning (t : OringDurationTracker) (e : Int) : OringDurationTracker :=
  if t.mStarted.entries.isEmpty then t else t.recordDuration (t.closesAt e)

/-- It then goes over the state keys. -/
def flushStateKeys (t : OringDurationTracker) (e : Int) (output : PastBuckets) : Flushing :=
  (t.takeRunning e).mStateKeyDurationMap.keys.foldl (flushStateKey e t.getCurrentBucketEndTimeNs (t.closesAt e))
    (t.takeRunning e, output)

/-- The skipped buckets come last. -/
def flushSkipped (t : OringDurationTracker) (e : Int) (x : Flushing) : Flushing :=
  if x.1.mStarted.entries.isEmpty then
    if t.bucketsForward e ≥ 2 then
      (x.1.call (.addPastBucket x.1.mEventKey 0 (x.1.mCurrentBucketNum + t.bucketsForward e - 1)), x.2)
    else x
  else (List.range' 1 (t.bucketsForward e - 1).toNat).foldl (fillBucket t.getCurrentBucketEndTimeNs) x

/-- The flushed tracker starts its next bucket. -/
def startNext (t : OringDurationTracker) (e : Int) (x : OringDurationTracker) : OringDurationTracker :=
  let start := if t.bucketsForward e > 0 then t.getCurrentBucketEndTimeNs + (t.bucketsForward e - 1) * x.mBucketSizeNs else e
  let num := if t.bucketsForward e > 0 then x.mCurrentBucketNum + t.bucketsForward e else x.mCurrentBucketNum
  { x with mCurrentBucketStartTimeNs := start, mCurrentBucketNum := num, mLastStartTime := start }

theorem flushCurrentBucket_stages (e : Int) (output : PastBuckets) :
    t.flushCurrentBucket e output =
      let x := t.flushSkipped e (t.flushStateKeys e output)
      (t.startNext e x.1, x.2, x.1.mStarted.entries.isEmpty && x.1.mPaused.entries.isEmpty) := rfl

theorem takeRunning_frame (e : Int) : FlushFrame t (t.takeRunning e) := by
  unfold takeRunning
  split <;> exact ⟨⟨rfl, rfl, rfl, rfl, rfl⟩, rfl, rfl, rfl, rfl⟩

theorem takeRunning_pending (e : Int) (s : HashableDimensionKey) :
    (t.takeRunning e).pending s = t.pending s + t.running (t.closesAt e) s := by
  unfold takeRunning running
  split
  · rename_i hs
    simp [started_eq_false.2 hs]
  · rename_i hs
    rw [recordDuration_pending]
    simp [started_eq_true.2 (by simpa using hs)]

/-- What a flush at `e` does. -/
structure FlushSpec (t t' : OringDurationTracker) (e : Int) (output output' : PastBuckets) : Prop where
  key : t'.mEventKey = t.mEventKey
  size : t'.mBucketSizeNs = t.mBucketSizeNs
  startTime : t'.mStartTimeNs = t.mStartTimeNs
  started : t'.mStarted = t.mStarted
  start : t'.mCurrentBucketStartTimeNs = if t.bucketsForward e > 0 then
    t.getCurrentBucketEndTimeNs + (t.bucketsForward e - 1) * t.mBucketSizeNs else e
  num : t'.mCurrentBucketNum = if t.bucketsForward e > 0 then t.mCurrentBucketNum + t.bucketsForward e else t.mCurrentBucketNum
  last : t'.mLastStartTime = t'.mCurrentBucketStartTimeNs
  pending : ∀ s, t'.pending s = 0
  buckets : ∀ s, t.bucketsOf output' s = t.bucketsOf output s ++
    partOf t.mCurrentBucketStartTimeNs (t.closesAt e) (t.pending s + t.running (t.closesAt e) s) ++
    if t.started = true ∧ s = t.stateKey then
      (List.range' 1 (t.bucketsForward e - 1).toNat).map (t.filled t.getCurrentBucketEndTimeNs) else []

theorem pending_of_notMem {t : OringDurationTracker} {s : HashableDimensionKey} (h : s ∉ t.mStateKeyDurationMap.keys) :
    t.pending s = 0 := by
  unfold pending
  rw [UMap.getD_of_lookup_none (AList.lookup_eq_none.2 fun hs => h (AList.mem_keys.1 hs))]

theorem flushStateKeys_spec (e : Int) (output : PastBuckets) :
    FlushFrame t (t.flushStateKeys e output).1 ∧ (∀ s, (t.flushStateKeys e output).1.pending s = 0) ∧
      ∀ s, t.bucketsOf (t.flushStateKeys e output).2 s = t.bucketsOf output s ++
        partOf t.mCurrentBucketStartTimeNs (t.closesAt e) (t.pending s + t.running (t.closesAt e) s) := by
  have hf1 := t.takeRunning_frame e
  obtain ⟨hf2, hp2, ho2⟩ := foldl_flushStateKey e t.getCurrentBucketEndTimeNs (t.closesAt e)
    (t.takeRunning e).mStateKeyDurationMap.keys (t.takeRunning e).mStateKeyDurationMap.keys_nodup (t.takeRunning e, output)
  refine ⟨hf1.trans hf2, fun s => ?_, fun s => ?_⟩
  · refine (hp2 s).trans ?_
    split
    · rfl
    · rename_i hs
      exact pending_of_notMem hs
  · have hsame : ∀ out, (t.takeRunning e).bucketsOf out s = t.bucketsOf out s := fun out => by
      unfold bucketsOf; rw [hf1.bucket.what]
    have h := ho2 s
    dsimp only at h
    rw [hsame, hsame, hf1.bucket.bucketStart] at h
    refine h.trans ?_
    rw [← t.takeRunning_pending e s]
    congr 1
    split
    · rfl
    · rename_i hs
      rw [pending_of_notMem hs]
      rfl

theorem flushSkipped_spec {t : OringDurationTracker} (e : Int) {x : Flushing} (hf : FlushFrame t x.1) :
    FlushFrame t (t.flushSkipped e x).1 ∧ (∀ s, (t.flushSkipped e x).1.pending s = x.1.pending s) ∧
      ∀ s, t.bucketsOf (t.flushSkipped e x).2 s = t.bucketsOf x.2 s ++
        if t.started = true ∧ s = t.stateKey then
          (List.range' 1 (t.bucketsForward e - 1).toNat).map (t.filled t.getCurrentBucketEndTimeNs) else [] := by
  unfold flushSkipped
  rw [hf.started]
  cases hs : t.mStarted.entries.isEmpty with
  | true =>
    simp only [if_true, started_eq_false.2 hs, Bool.false_eq_true, false_and, if_false, List.append_nil]
    split
    · exact ⟨hf.trans (FlushFrame.call _ _), fun _ => rfl, fun _ => rfl⟩
    · exact ⟨hf, fun _ => rfl, fun _ => rfl⟩
  | false =>
    simp only [Bool.false_eq_true, if_false]
    obtain ⟨hf3, hp3, ho3⟩ := foldl_fillBucket t.getCurrentBucketEndTimeNs
      (List.range' 1 (t.bucketsForward e - 1).toNat) x
    refine ⟨hf.trans hf3, hp3, fun s => ?_⟩
    have hsame : ∀ out, x.1.bucketsOf out s = t.bucketsOf out s := fun out => by
      unfold bucketsOf; rw [hf.bucket.what]
    have hkey : x.1.stateKey = t.stateKey := by unfold stateKey; rw [hf.key]
    have hfilled : x.1.filled t.getCurrentBucketEndTimeNs = t.filled t.getCurrentBucketEndTimeNs := by
      funext i; unfold filled; rw [hf.bucket.size]
    have h := ho3 s
    rw [hsame, hsame, hkey, hfilled] at h
    rw [h]
    simp [started_eq_true.2 hs]

theorem flushCurrentBucket_spec (e : Int) (output : PastBuckets) :
    FlushSpec t (t.flushCurrentBucket e output).1 e output (t.flushCurrentBucket e output).2.1 := by
  rw [flushCurrentBucket_stages]
  dsimp only
  obtain ⟨hf, hpending, hbuckets⟩ := t.flushStateKeys_spec e output
  obtain ⟨hfy, hpy, hoy⟩ := flushSkipped_spec e hf
  refine ⟨hfy.key, hfy.bucket.size, hfy.bucket.start, hfy.started, ?_, ?_, rfl, fun s => (hpy s).trans (hpending s), fun s => ?_⟩
  · unfold startNext
    simp only [hfy.bucket.size]
  · unfold startNext
    simp only [hfy.bucket.num]
  · rw [hoy, hbuckets]

end Metrics.OringDurationTracker

end Statsd
