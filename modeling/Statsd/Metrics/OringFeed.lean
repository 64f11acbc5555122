/-
What an OR-duration tracker tells its anomaly trackers. At the end of a full bucket the tracker hands over,
for each of its state keys, a total of that bucket; it keeps the part emitted so far beside the pending
time. The total it hands over is always that of the current state key, and a flush at the very end of a
full bucket hands over nothing and keeps the old total.

In every run without flushes at the very end of a full bucket, and in which a full bucket that ends has no
time of another state key, the totals are those of the emitted buckets.
-/
import Statsd.Metrics.OringConservation

namespace Statsd.Metrics.OringDurationTracker

/-! ## The part emitted and the values handed over -/

/-- `mDurationFullBucket` of a state key. -/
def full (t : OringDurationTracker) (s : HashableDimensionKey) : Int := (UMap.getD t.mStateKeyDurationMap s {}).mDurationFullBucket

/-- A value handed over for a key and a full bucket. -/
structure Handover where
  key : MetricDimensionKey
  bucketValue : Int
  bucketNum : Int
deriving DecidableEq

def AnomalyCall.handover : AnomalyCall → Option Handover
  | .addPastBucket eventKey bucketValue bucketNum => some ⟨eventKey, bucketValue, bucketNum⟩
  | _ => none

def handed (t : OringDurationTracker) : List Handover := t.anomalyCalls.filterMap AnomalyCall.handover

/-- The operation emits and hands over nothing. -/
structure SameFeed (t t' : OringDurationTracker) : Prop where
  full : ∀ s, t'.full s = t.full s
  handed : t'.handed = t.handed

variable {output : PastBuckets} {e : Int} (t : OringDurationTracker)

theorem SameFeed.refl : SameFeed t t := ⟨fun _ => rfl, rfl⟩

theorem SameFeed.trans {t t' t'' : OringDurationTracker} (h : SameFeed t t') (h' : SameFeed t' t'') : SameFeed t t'' :=
  ⟨fun s => (h'.full s).trans (h.full s), h'.handed.trans h.handed⟩

theorem handed_call (c : AnomalyCall) : (t.call c).handed = t.handed ++ (AnomalyCall.handover c).toList := by
  unfold handed call
  rw [List.filterMap_append]
  cases hc : AnomalyCall.handover c with
  | none => simp [hc]
  | some h => simp [hc]

theorem call_sameFeed {c : AnomalyCall} (hc : AnomalyCall.handover c = none) : SameFeed t (t.call c) := by
  refine ⟨fun _ => rfl, ?_⟩
  rw [handed_call, hc]
  exact List.append_nil _

theorem recordDuration_sameFeed (now : Int) : SameFeed t (t.recordDuration now) := by
  refine ⟨fun s => ?_, rfl⟩
  unfold recordDuration addDuration OringDurationTracker.full
  dsimp only
  rw [UMap.getD_insert]
  split
  · rename_i hs; rw [hs]
  · rfl

theorem recordAndDetect_sameFeed (now : Int) :
    SameFeed t ((t.recordDuration now).detectAndDeclareAnomaly now) :=
  (recordDuration_sameFeed t now).trans (call_sameFeed _ rfl)

theorem stopAlarmIfStopped_sameFeed (now : Int) : SameFeed t (t.stopAlarmIfStopped now) := by
  unfold stopAlarmIfStopped
  split
  · exact call_sameFeed t rfl
  · exact .refl t

theorem dropConditionKey_sameFeed (key : HashableDimensionKey) (gone : Bool) :
    SameFeed t (t.dropConditionKey key gone) := by
  cases gone
  · exact .refl t
  · exact ⟨fun _ => rfl, rfl⟩

theorem noteStart_sameFeed (key : HashableDimensionKey) (condition : Bool) (now : Int)
    (conditionKey : ConditionKey) : SameFeed t (t.noteStart key condition now conditionKey) := by
  have hkey : ∀ t' : OringDurationTracker, SameFeed t' (if t'.mConditionSliced && (t'.mConditionKeyMap.lookup key).isNone then
      { t' with mConditionKeyMap := t'.mConditionKeyMap.insert key conditionKey } else t') := by
    intro t'
    split
    · exact ⟨fun _ => rfl, rfl⟩
    · exact .refl t'
  unfold noteStart
  split
  · exact .refl t
  · refine SameFeed.trans ?_ (hkey _)
    cases condition with
    | false => exact ⟨fun _ => rfl, rfl⟩
    | true =>
      simp only [if_true]
      split
      · have h := call_sameFeed { t with mLastStartTime := now } (c := .startAlarm t.mEventKey now) rfl
        exact ⟨h.full, h.handed⟩
      · exact ⟨fun _ => rfl, rfl⟩

theorem noteStop_sameFeed (key : HashableDimensionKey) (now : Int) (stopAll : Bool) :
    SameFeed t (t.noteStop key now stopAll) := by
  have hstarted : SameFeed t (t.stopStarted key now stopAll) := by
    unfold stopStarted
    cases t.mStarted.lookup key with
    | none => exact .refl t
    | some count =>
      dsimp only
      have hdrop := dropConditionKey_sameFeed { t with mStarted := (decrement t.mNested stopAll t.mStarted key count).1 } key
        (decrement t.mNested stopAll t.mStarted key count).2
      have hdrop : SameFeed t _ := ⟨hdrop.full, hdrop.handed⟩
      split
      · exact hdrop.trans (recordAndDetect_sameFeed _ now)
      · exact hdrop
  have hpaused : ∀ t' : OringDurationTracker, SameFeed t' (t'.stopPaused key stopAll) := by
    intro t'
    unfold stopPaused
    cases t'.mPaused.lookup key with
    | none => exact .refl t'
    | some count =>
      have hdrop := dropConditionKey_sameFeed { t' with mPaused := (decrement t'.mNested stopAll t'.mPaused key count).1 } key
        (decrement t'.mNested stopAll t'.mPaused key count).2
      exact ⟨hdrop.full, hdrop.handed⟩
  exact (hstarted.trans (hpaused _)).trans (stopAlarmIfStopped_sameFeed _ now)

theorem noteStopAll_sameFeed (now : Int) : SameFeed t (t.noteStopAll now) := by
  unfold noteStopAll
  dsimp only
  have hstop : ∀ t' : OringDurationTracker, SameFeed t' { t'.stopAnomalyAlarm now with
      mStarted := ∅, mPaused := ∅, mConditionKeyMap := ∅ } := by
    intro t'
    have h := call_sameFeed t' (c := .stopAlarm t'.mEventKey now) rfl
    exact ⟨h.full, h.handed⟩
  split
  · exact (recordAndDetect_sameFeed t now).trans (hstop _)
  · exact hstop t

theorem onConditionChanged_sameFeed (condition : Bool) (now : Int) :
    SameFeed t (t.onConditionChanged condition now) := by
  unfold onConditionChanged
  refine SameFeed.trans ?_ (stopAlarmIfStopped_sameFeed _ now)
  cases condition with
  | true =>
    simp only [if_true]
    split
    · exact .refl t
    · split
      · have h := call_sameFeed { t with mLastStartTime := now } (c := .startAlarm t.mEventKey now) rfl
        exact ⟨h.full, h.handed⟩
      · exact ⟨fun _ => rfl, rfl⟩
  | false =>
    simp only [Bool.false_eq_true, if_false]
    split
    · exact .refl t
    · have h := recordDuration_sameFeed t now
      have hpaused : SameFeed t { t.recordDuration now with
          mPaused := t.mPaused.insertAll t.mStarted.entries, mStarted := ∅ } := ⟨h.full, h.handed⟩
      exact hpaused.trans (call_sameFeed _ rfl)

theorem onSlicedConditionMayChange_sameFeed (query : ConditionKey → ConditionState) (now : Int) :
    SameFeed t (t.onSlicedConditionMayChange query now) := by
  have hpause : ∀ l, SameFeed t (t.pauseKeys l now) := by
    intro l
    unfold pauseKeys
    dsimp only
    split
    · have h := recordAndDetect_sameFeed { t with mStarted := t.mStarted.eraseAll l } now
      exact ⟨h.full, h.handed⟩
    · exact ⟨fun _ => rfl, rfl⟩
  have hresume : ∀ (t' : OringDurationTracker) l, SameFeed t' (t'.resumeKeys l now) := by
    intro t' l
    unfold resumeKeys
    dsimp only
    split
    · have h := call_sameFeed { t' with mPaused := t'.mPaused.eraseAll l, mLastStartTime := now }
        (c := .startAlarm t'.mEventKey now) rfl
      exact ⟨h.full, h.handed⟩
    · exact ⟨fun _ => rfl, rfl⟩
  unfold onSlicedConditionMayChange
  dsimp only
  refine SameFeed.trans ?_ (stopAlarmIfStopped_sameFeed _ now)
  have h := (hpause (t.answered t.mStarted fun k => decide (query k ≠ .kTrue))).trans
    (hresume _ (t.answered t.mPaused fun k => decide (query k = .kTrue)))
  exact ⟨h.full, h.handed⟩

theorem onStateChanged_sameFeed (now atomId : Int) (newState : Value) :
    SameFeed t (t.onStateChanged now atomId newState) := by
  unfold onStateChanged
  split
  · exact ⟨fun _ => rfl, rfl⟩
  · have h := recordDuration_sameFeed t now
    exact ⟨h.full, h.handed⟩

/-! ## Flushes -/

theorem full_setValues (k s : HashableDimensionKey) (v : DurationValues) :
    (t.setValues k v).full s = if s = k then v.mDurationFullBucket else t.full s := by
  unfold setValues full
  dsimp only
  rw [UMap.getD_insert]
  split <;> rfl

/-- The duration of a state key in the full bucket after its pending time is emitted. -/
def due (t : OringDurationTracker) (s : HashableDimensionKey) : Int := t.full s + max (t.pending s) 0

/-- What one state key of a flush does to the feed. -/
structure KeyFeed (x y : Flushing) (k : HashableDimensionKey) (ended : Prop) [Decidable ended] : Prop where
  full : ∀ s, y.1.full s = if s = k then (if ended then 0 else x.1.due k) else x.1.full s
  pending : ∀ s, y.1.pending s = if s = k then 0 else x.1.pending s
  handed : y.1.handed = x.1.handed ++ if ended then
    [⟨⟨x.1.mEventKey.mDimensionKeyInWhat, k⟩, if x.1.stateKey = k then x.1.due k else x.1.full x.1.stateKey, x.1.mCurrentBucketNum⟩]
    else []
  frame : FlushFrame x.1 y.1

/-- The pending time of a state key joins the part emitted; at the end of the full bucket the part of the
current state key is handed over and the key's own one is cleared. -/
theorem flushStateKey_feed (e E stop : Int) (x : Flushing) (k : HashableDimensionKey) :
    KeyFeed x (flushStateKey e E stop x k) k (e > E) := by
  obtain ⟨hframe, hpending, -⟩ := flushStateKey_spec e E stop x k
  suffices h : (∀ s, (flushStateKey e E stop x k).1.full s =
      if s = k then (if e > E then 0 else x.1.due k) else x.1.full s) ∧
      (flushStateKey e E stop x k).1.handed = x.1.handed ++ if e > E then
        [⟨⟨x.1.mEventKey.mDimensionKeyInWhat, k⟩, if x.1.stateKey = k then x.1.due k else x.1.full x.1.stateKey,
          x.1.mCurrentBucketNum⟩] else [] from ⟨h.1, hpending, h.2, hframe⟩
  obtain ⟨t, output⟩ := x
  unfold flushStateKey
  dsimp only
  -- the first branch: emit what is pending
  have hemit : ∃ t1 output1, (if t.pending k > 0 then
      (t.setValues k { UMap.getD t.mStateKeyDurationMap k {} with
          mDurationFullBucket := (UMap.getD t.mStateKeyDurationMap k {}).mDurationFullBucket + t.pending k },
        UMap.push output ⟨t.mEventKey.mDimensionKeyInWhat, k⟩ ⟨t.mCurrentBucketStartTimeNs, stop, t.pending k⟩)
      else (t, output)) = (t1, output1) ∧ (∀ s, t1.full s = if s = k then t.due k else t.full s) ∧
      t1.handed = t.handed ∧ t1.mEventKey = t.mEventKey ∧ t1.mCurrentBucketNum = t.mCurrentBucketNum := by
    unfold due
    split
    · rename_i hpos
      refine ⟨_, _, rfl, fun s => ?_, rfl, rfl, rfl⟩
      rw [full_setValues]
      dsimp only
      rw [max_eq_left (le_of_lt hpos)]
      rfl
    · rename_i hpos
      refine ⟨_, _, rfl, fun s => ?_, rfl, rfl, rfl⟩
      rw [max_eq_right (not_lt.1 hpos), add_zero]
      split
      · rename_i hs; rw [hs]
      · rfl
  obtain ⟨t1, output1, heq, hfull, hhanded, hkey, hnum⟩ := hemit
  unfold pending at heq
  rw [heq]
  dsimp only
  split
  · -- the end of the full bucket
    have hcurrent : t1.getCurrentStateKeyFullBucketDuration =
        if t.stateKey = k then t.due k else t.full t.stateKey := by
      have hsame : t1.stateKey = t.stateKey := by unfold stateKey; rw [hkey]
      have := hfull t.stateKey
      rw [← hsame] at this
      rw [← hsame]
      exact this
    refine ⟨fun s => ?_, ?_⟩
    · rw [full_setValues]
      split
      · show (UMap.getD (setValues _ k _).mStateKeyDurationMap k {}).mDurationFullBucket = 0
        unfold setValues
        rw [UMap.getD_insert, if_pos rfl]
      · rename_i hs
        rw [full_setValues, if_neg hs]
        show t1.full s = t.full s
        rw [hfull, if_neg hs]
    · show (t1.call _).handed = _
      rw [handed_call, hhanded, hcurrent, hnum]
      rfl
  · refine ⟨fun s => ?_, ?_⟩
    · rw [full_setValues]
      split
      · rename_i hs
        show t1.full k = t.due k
        rw [hfull, if_pos rfl]
      · rename_i hs
        rw [hfull, if_neg hs]
    · rw [List.append_nil]
      exact hhanded

theorem foldl_flushStateKey_partial {e E : Int} (he : ¬ e > E) (stop : Int) (l : List HashableDimensionKey) (hl : l.Nodup)
    (x : Flushing) :
    (∀ s, (l.foldl (flushStateKey e E stop) x).1.full s = if s ∈ l then x.1.due s else x.1.full s) ∧
      (l.foldl (flushStateKey e E stop) x).1.handed = x.1.handed := by
  induction l generalizing x with
  | nil => exact ⟨fun s => by simp, rfl⟩
  | cons k l ih =>
    rw [List.nodup_cons] at hl
    have hk := flushStateKey_feed e E stop x k
    obtain ⟨hfull, hhanded⟩ := ih hl.2 (flushStateKey e E stop x k)
    rw [List.foldl_cons]
    refine ⟨fun s => ?_, ?_⟩
    · rw [hfull]
      unfold due
      rw [hk.full, hk.pending, if_neg he]
      by_cases hs : s = k
      · subst hs
        rw [if_neg hl.1, if_pos rfl, if_pos List.mem_cons_self]
        rfl
      · simp only [hs, if_false, List.mem_cons, false_or]
    · rw [hhanded, hk.handed, if_neg he, List.append_nil]

/-- No state key but the current one has a part in the full bucket that ends, and if there is another key
the current one had none emitted before. -/
def OnlyCurrent (t : OringDurationTracker) (l : List HashableDimensionKey) : Prop :=
  ∀ s ∈ l, s ≠ t.stateKey → t.due s = 0 ∧ t.full t.stateKey = 0

theorem foldl_flushStateKey_ended {e E : Int} (he : e > E) (stop : Int) (l : List HashableDimensionKey) (hl : l.Nodup)
    (x : Flushing) (hok : x.1.OnlyCurrent l) :
    (∀ s, (l.foldl (flushStateKey e E stop) x).1.full s = if s ∈ l then 0 else x.1.full s) ∧
      (l.foldl (flushStateKey e E stop) x).1.handed = x.1.handed ++
        l.map fun s => ⟨⟨x.1.mEventKey.mDimensionKeyInWhat, s⟩, x.1.due s, x.1.mCurrentBucketNum⟩ := by
  induction l generalizing x with
  | nil => exact ⟨fun s => by simp, by simp⟩
  | cons k l ih =>
    rw [List.nodup_cons] at hl
    have hk := flushStateKey_feed e E stop x k
    rw [List.foldl_cons]
    generalize flushStateKey e E stop x k = y at hk ⊢
    have hdue : ∀ s ∈ l, y.1.due s = x.1.due s := by
      intro s hs
      have hne : s ≠ k := fun h => hl.1 (h ▸ hs)
      unfold due
      rw [hk.full, hk.pending, if_neg hne, if_neg hne]
    have hkey : y.1.stateKey = x.1.stateKey := by unfold stateKey; rw [hk.frame.key]
    have hok' : y.1.OnlyCurrent l := by
      intro s hs hne
      rw [hkey] at hne ⊢
      obtain ⟨h1, h2⟩ := hok s (List.mem_cons_of_mem k hs) hne
      refine ⟨(hdue s hs).trans h1, ?_⟩
      rw [hk.full, if_pos he]
      split
      · rfl
      · exact h2
    obtain ⟨hfull, hhanded⟩ := ih hl.2 y hok'
    -- the value handed over for the key is its own
    have hvalue : (if x.1.stateKey = k then x.1.due k else x.1.full x.1.stateKey) = x.1.due k := by
      split
      · rfl
      · rename_i hne
        obtain ⟨h1, h2⟩ := hok k List.mem_cons_self (Ne.symm hne)
        rw [h1, h2]
    refine ⟨fun s => ?_, ?_⟩
    · rw [hfull, hk.full, if_pos he]
      by_cases hs : s = k
      · simp [hs]
      · simp [hs]
    · rw [hhanded, hk.handed, if_pos he, hvalue, List.append_assoc, List.map_cons, hk.frame.key, hk.frame.bucket.num]
      have hrest : (l.map fun s => (⟨⟨x.1.mEventKey.mDimensionKeyInWhat, s⟩, y.1.due s, x.1.mCurrentBucketNum⟩ : Handover)) =
          l.map fun s => ⟨⟨x.1.mEventKey.mDimensionKeyInWhat, s⟩, x.1.due s, x.1.mCurrentBucketNum⟩ :=
        List.map_congr_left fun s hs => by rw [hdue s hs]
      rw [hrest]
      rfl

theorem foldl_fillBucket_feed (E : Int) (l : List Nat) (x : Flushing) :
    (∀ s, (l.foldl (fillBucket E) x).1.full s = x.1.full s) ∧
      (l.foldl (fillBucket E) x).1.handed = x.1.handed ++
        l.map fun i : Nat => ⟨x.1.mEventKey, x.1.mBucketSizeNs, x.1.mCurrentBucketNum + (i : Int)⟩ := by
  induction l generalizing x with
  | nil => exact ⟨fun _ => rfl, by simp⟩
  | cons i l ih =>
    obtain ⟨hfull, hhanded⟩ := ih (fillBucket E x i)
    rw [List.foldl_cons]
    refine ⟨fun s => (hfull s).trans rfl, ?_⟩
    rw [hhanded, List.map_cons]
    have hstep : (fillBucket E x i).1.handed = x.1.handed ++ [⟨x.1.mEventKey, x.1.mBucketSizeNs, x.1.mCurrentBucketNum + (i : Int)⟩] :=
      handed_call _ _
    rw [hstep, List.append_assoc]
    rfl

/-- The time of a state key that a flush at `e` finds. -/
def found (t : OringDurationTracker) (e : Int) (s : HashableDimensionKey) : Int := t.pending s + t.running (t.closesAt e) s

/-- What the end of a full bucket hands over for the buckets that were skipped. -/
def skipped (t : OringDurationTracker) (e : Int) : List Handover :=
  if t.started then
    (List.range' 1 (t.bucketsForward e - 1).toNat).map fun i : Nat => ⟨t.mEventKey, t.mBucketSizeNs, t.mCurrentBucketNum + (i : Int)⟩
  else if t.bucketsForward e ≥ 2 then [⟨t.mEventKey, 0, t.mCurrentBucketNum + t.bucketsForward e - 1⟩]
  else []

/-- What a flush does to the feed: before the end of the full bucket the time it finds joins the part
emitted; past the end the part of every key is handed over and cleared. -/
structure FlushFeed (t t' : OringDurationTracker) (e : Int) : Prop where
  early : e < t.getCurrentBucketEndTimeNs → (∀ s, t'.full s = t.full s + t.found e s) ∧ t'.handed = t.handed
  late : e > t.getCurrentBucketEndTimeNs → (∀ s, t'.full s = 0) ∧ ∃ keys : List HashableDimensionKey,
    (∀ s, s ∉ keys → t.full s + t.found e s = 0) ∧
    t'.handed = t.handed ++
      (keys.map fun s => ⟨⟨t.mEventKey.mDimensionKeyInWhat, s⟩, t.full s + t.found e s, t.mCurrentBucketNum⟩) ++ t.skipped e

variable {t : OringDurationTracker} {output output' : PastBuckets} {s : HashableDimensionKey}

theorem due_of_notMem (h : s ∉ t.mStateKeyDurationMap.keys) :
    t.full s = 0 := by
  unfold full
  rw [UMap.getD_of_lookup_none (AList.lookup_eq_none.2 fun hs => h (AList.mem_keys.1 hs))]

theorem takeRunning_sameFeed (e : Int) : SameFeed t (t.takeRunning e) := by
  unfold takeRunning
  split
  · exact .refl t
  · exact recordDuration_sameFeed t _

theorem mem_keys_takeRunning
    (hs : s ∈ (t.takeRunning e).mStateKeyDurationMap.keys) (hne : s ≠ t.stateKey) : s ∈ t.mStateKeyDurationMap.keys := by
  unfold takeRunning at hs
  split at hs
  · exact hs
  · have hs : s ∈ (t.mStateKeyDurationMap.insert t.stateKey _) := AList.mem_keys.2 hs
    rcases AList.mem_insert _ |>.1 hs with h | h
    · exact absurd h hne
    · exact AList.mem_keys.1 h

theorem due_takeRunning (hfound : ∀ s, 0 ≤ t.found e s) (s : HashableDimensionKey) :
    (t.takeRunning e).due s = t.full s + t.found e s := by
  unfold due
  rw [(t.takeRunning_sameFeed e).full, t.takeRunning_pending]
  exact congrArg (t.full s + ·) (max_eq_left (hfound s))

theorem found_of_notMem (hs : s ∉ (t.takeRunning e).mStateKeyDurationMap.keys) : t.full s + t.found e s = 0 := by
  have hfull := due_of_notMem hs
  rw [(t.takeRunning_sameFeed e).full] at hfull
  have hfound := (t.takeRunning_pending e s).symm.trans (pending_of_notMem hs)
  unfold found
  rw [hfull, hfound]
  rfl

theorem OnlyCurrent.takeRunning (hfound : ∀ s, 0 ≤ t.found e s)
    (h : t.OnlyCurrent t.mStateKeyDurationMap.keys) : (t.takeRunning e).OnlyCurrent (t.takeRunning e).mStateKeyDurationMap.keys := by
  have hkey : (t.takeRunning e).stateKey = t.stateKey := by unfold stateKey; rw [(t.takeRunning_frame e).key]
  intro s hs hne
  rw [hkey] at hne ⊢
  obtain ⟨hdue, hfull⟩ := h s (mem_keys_takeRunning hs hne) hne
  have hpending : t.found e s = t.pending s := by
    unfold found
    rw [show t.running (t.closesAt e) s = 0 from if_neg fun h => hne h.2, add_zero]
  refine ⟨?_, ((t.takeRunning_sameFeed e).full _).trans hfull⟩
  rw [due_takeRunning hfound, hpending]
  unfold due at hdue
  rwa [max_eq_left (hpending ▸ hfound s)] at hdue

theorem flushSkipped_early (he : e < t.getCurrentBucketEndTimeNs) (x : Flushing) :
    t.flushSkipped e x = x := by
  unfold flushSkipped
  rw [bucketsForward_early (not_le.2 he)]
  split
  · exact if_neg (by decide)
  · rfl

theorem flushSkipped_feed (e : Int) {x : Flushing} (hx : FlushFrame t x.1) :
    (∀ s, (t.flushSkipped e x).1.full s = x.1.full s) ∧ (t.flushSkipped e x).1.handed = x.1.handed ++ t.skipped e := by
  unfold flushSkipped skipped started
  rw [hx.started]
  cases hs : t.mStarted.entries.isEmpty with
  | true =>
    simp only [if_true, Bool.not_true, Bool.false_eq_true, if_false]
    split
    · refine ⟨fun _ => rfl, ?_⟩
      rw [handed_call, hx.key, hx.bucket.num]
      rfl
    · exact ⟨fun _ => rfl, (List.append_nil _).symm⟩
  | false =>
    simp only [Bool.false_eq_true, if_false, Bool.not_false, if_true]
    obtain ⟨hfull, hhanded⟩ := foldl_fillBucket_feed t.getCurrentBucketEndTimeNs (List.range' 1 (t.bucketsForward e - 1).toNat) x
    refine ⟨hfull, ?_⟩
    rw [hhanded, hx.key, hx.bucket.size, hx.bucket.num]

theorem flushCurrentBucket_feed (e : Int) (output : PastBuckets) (hfound : ∀ s, 0 ≤ t.found e s)
    (hok : e > t.getCurrentBucketEndTimeNs → t.OnlyCurrent t.mStateKeyDurationMap.keys) :
    FlushFeed t (t.flushCurrentBucket e output).1 e := by
  have hnodup := (t.takeRunning e).mStateKeyDurationMap.keys_nodup
  have hfeed := t.takeRunning_sameFeed e
  have hframe := t.takeRunning_frame e
  rw [flushCurrentBucket_stages]
  refine ⟨fun he => ?_, fun he => ?_⟩
  · -- before the end: no bucket is skipped
    rw [flushSkipped_early he]
    obtain ⟨hfull, hhanded⟩ := foldl_flushStateKey_partial (by omega : ¬ e > t.getCurrentBucketEndTimeNs) (t.closesAt e)
      (t.takeRunning e).mStateKeyDurationMap.keys hnodup (t.takeRunning e, output)
    refine ⟨fun s => ?_, hhanded.trans hfeed.handed⟩
    refine (hfull s).trans ?_
    split
    · exact due_takeRunning hfound s
    · rename_i hs
      exact (due_of_notMem hs).trans (found_of_notMem hs).symm
  · obtain ⟨hfull, hhanded⟩ := foldl_flushStateKey_ended he (t.closesAt e) (t.takeRunning e).mStateKeyDurationMap.keys hnodup
      (t.takeRunning e, output) (OnlyCurrent.takeRunning hfound (hok he))
    obtain ⟨hskippedFull, hskipped⟩ := flushSkipped_feed e (t.flushStateKeys_spec e output).1
    refine ⟨fun s => ?_, (t.takeRunning e).mStateKeyDurationMap.keys, fun s hs => found_of_notMem hs, ?_⟩
    · refine ((hskippedFull s).trans (hfull s)).trans ?_
      split
      · rfl
      · rename_i hs
        exact due_of_notMem hs
    · refine hskipped.trans (congrArg (· ++ t.skipped e) (hhanded.trans ?_))
      dsimp only
      rw [hfeed.handed, hframe.key, hframe.bucket.num]
      exact congrArg _ (List.map_congr_left fun s _ => by rw [due_takeRunning hfound])

/-! ## Totals of full buckets -/

/-- The bucket lies in the full bucket of a number. -/
def inFull (t : OringDurationTracker) (n : Int) (b : DurationBucket) : Bool :=
  decide (t.mStartTimeNs + n * t.mBucketSizeNs ≤ b.mBucketStartNs) &&
    decide (b.mBucketEndNs ≤ t.mStartTimeNs + (n + 1) * t.mBucketSizeNs)

/-- The time of the buckets that lie in a full bucket. -/
def totalIn (t : OringDurationTracker) (n : Int) (l : List DurationBucket) : Int := ((l.filter (t.inFull n)).map (·.mDuration)).sum

/-- The time emitted for a state key in a full bucket. -/
def fullTotal (t : OringDurationTracker) (output : PastBuckets) (s : HashableDimensionKey) (n : Int) : Int :=
  t.totalIn n (t.bucketsOf output s)

theorem totalIn_append (n : Int) (l l' : List DurationBucket) :
    t.totalIn n (l ++ l') = t.totalIn n l + t.totalIn n l' := by
  unfold totalIn
  rw [List.filter_append, List.map_append, List.sum_append]

theorem inFull_iff (hsize : 0 < t.mBucketSizeNs) {m : Int} {b : DurationBucket}
    (hlo : t.mStartTimeNs + m * t.mBucketSizeNs ≤ b.mBucketStartNs)
    (hhi : b.mBucketEndNs ≤ t.mStartTimeNs + (m + 1) * t.mBucketSizeNs) (hpos : b.mBucketStartNs < b.mBucketEndNs) (n : Int) :
    t.inFull n b = true ↔ n = m := by
  unfold inFull
  rw [Bool.and_eq_true, decide_eq_true_eq, decide_eq_true_eq]
  constructor
  · rintro ⟨h1, h2⟩
    have hlt : n * t.mBucketSizeNs < (m + 1) * t.mBucketSizeNs := by omega
    have hgt : m * t.mBucketSizeNs < (n + 1) * t.mBucketSizeNs := by omega
    have h3 := lt_of_mul_lt_mul_right hlt (le_of_lt hsize)
    have h4 := lt_of_mul_lt_mul_right hgt (le_of_lt hsize)
    omega
  · rintro rfl
    exact ⟨hlo, hhi⟩

theorem totalIn_singleton {n m : Int} {b : DurationBucket} (h : t.inFull n b = true ↔ n = m) :
    t.totalIn n [b] = if n = m then b.mDuration else 0 := by
  unfold totalIn
  by_cases hn : n = m
  · rw [if_pos hn, List.filter_cons_of_pos (h.2 hn)]
    simp
  · have hf : t.inFull n b = false := by
      rw [Bool.eq_false_iff]
      exact fun hb => hn (h.1 hb)
    rw [if_neg hn, List.filter_cons_of_neg (by simp [hf])]
    rfl

theorem totalIn_partOf (h : Inv t output e) (s : HashableDimensionKey)
    (n : Int) : t.totalIn n (partOf t.mCurrentBucketStartTimeNs (t.closesAt e) (t.found e s)) =
      if n = t.mCurrentBucketNum then t.found e s else 0 := by
  obtain ⟨h0, h1⟩ := h.due s
  change 0 ≤ t.found e s at h0
  change t.mCurrentBucketStartTimeNs + t.found e s ≤ t.closesAt e at h1
  unfold partOf
  split
  · rename_i hpos
    refine totalIn_singleton (inFull_iff h.inBucket.size h.inBucket.lower ?_ (by dsimp only; omega) n)
    show t.closesAt e ≤ t.getCurrentBucketEndTimeNs
    unfold closesAt
    split <;> omega
  · have hz : t.found e s = 0 := by omega
    rw [hz]
    split <;> rfl

theorem totalIn_filled (hsize : 0 < t.mBucketSizeNs) (l : List Nat) (hl : l.Nodup) (n : Int) :
    (t.totalIn n (l.map (t.filled t.getCurrentBucketEndTimeNs)) = t.mBucketSizeNs ∧ ∃ i ∈ l, n = t.mCurrentBucketNum + (i : Nat)) ∨
      (t.totalIn n (l.map (t.filled t.getCurrentBucketEndTimeNs)) = 0 ∧ ∀ i ∈ l, n ≠ t.mCurrentBucketNum + (i : Nat)) := by
  induction l with
  | nil => exact .inr ⟨rfl, fun i hi => absurd hi List.not_mem_nil⟩
  | cons i l ih =>
    rw [List.nodup_cons] at hl
    have hone : t.totalIn n [t.filled t.getCurrentBucketEndTimeNs i] = if n = t.mCurrentBucketNum + (i : Int) then t.mBucketSizeNs else 0 := by
      refine totalIn_singleton (inFull_iff hsize ?_ ?_ ?_ n)
      · unfold filled getCurrentBucketEndTimeNs
        dsimp only
        apply le_of_eq
        ring
      · unfold filled getCurrentBucketEndTimeNs
        dsimp only
        apply le_of_eq
        ring
      · unfold filled
        dsimp only
        omega
    have hcons : t.totalIn n ((i :: l).map (t.filled t.getCurrentBucketEndTimeNs)) =
        (if n = t.mCurrentBucketNum + (i : Int) then t.mBucketSizeNs else 0) +
          t.totalIn n (l.map (t.filled t.getCurrentBucketEndTimeNs)) := by
      rw [List.map_cons, ← List.singleton_append, totalIn_append, hone]
    rw [hcons]
    by_cases hn : n = t.mCurrentBucketNum + (i : Int)
    · rcases ih hl.2 with ⟨-, j, hj, hnj⟩ | ⟨h0, -⟩
      · have hij : i = j := by omega
        exact absurd (hij ▸ hj) hl.1
      · rw [if_pos hn, h0, add_zero]
        exact .inl ⟨rfl, i, List.mem_cons_self, hn⟩
    · rw [if_neg hn, zero_add]
      rcases ih hl.2 with ⟨h1, j, hj, hnj⟩ | ⟨h0, hnone⟩
      · exact .inl ⟨h1, j, List.mem_cons_of_mem i hj, hnj⟩
      · refine .inr ⟨h0, fun j hj => ?_⟩
        rcases List.mem_cons.1 hj with rfl | hj
        · exact hn
        · exact hnone j hj

theorem Inv.fullTotal_after {now : Int} (h : Inv t output now)
    (s : HashableDimensionKey) {n : Int} (hn : t.mCurrentBucketStartTimeNs ≤ t.mStartTimeNs + n * t.mBucketSizeNs) :
    t.fullTotal output s n = 0 := by
  unfold fullTotal totalIn
  have hnone : (t.bucketsOf output s).filter (t.inFull n) = [] := by
    rw [List.filter_eq_nil_iff]
    intro b hb hin
    obtain ⟨⟨-, hpos, hlen⟩, hend⟩ := h.placed s b hb
    unfold inFull at hin
    rw [Bool.and_eq_true, decide_eq_true_eq] at hin
    omega
  rw [hnone]
  rfl

/-! ## The feed -/

/-- The part kept for a state key is what was emitted in the current full bucket; what was handed over for a
key and a full bucket is what was emitted there, and every full bucket that is over and has some was handed
over. -/
structure Feed (t : OringDurationTracker) (output : PastBuckets) : Prop where
  full : ∀ s, t.full s = t.fullTotal output s t.mCurrentBucketNum
  handed : ∀ h ∈ t.handed, h.key.mDimensionKeyInWhat = t.mEventKey.mDimensionKeyInWhat ∧
    h.bucketNum < t.mCurrentBucketNum ∧ h.bucketValue = t.fullTotal output h.key.mStateValuesKey h.bucketNum
  complete : ∀ s n, n < t.mCurrentBucketNum → t.fullTotal output s n ≠ 0 →
    ⟨⟨t.mEventKey.mDimensionKeyInWhat, s⟩, t.fullTotal output s n, n⟩ ∈ t.handed

theorem SameBucket.fullTotal {t t' : OringDurationTracker} (h : SameBucket t t') (output : PastBuckets)
    (s : HashableDimensionKey) (n : Int) : t'.fullTotal output s n = t.fullTotal output s n := by
  unfold OringDurationTracker.fullTotal totalIn inFull
  rw [h.bucketsOf, h.start, h.size]

theorem Feed.op {t t' : OringDurationTracker} (h : Feed t output) (hb : SameBucket t t')
    (hsame : SameFeed t t') : Feed t' output := by
  refine ⟨fun s => ?_, fun k hk => ?_, fun s n hn hne => ?_⟩
  · rw [hsame.full, hb.fullTotal, hb.num]
    exact h.full s
  · rw [hsame.handed] at hk
    rw [hb.what, hb.num, hb.fullTotal]
    exact h.handed k hk
  · rw [hb.num] at hn
    rw [hb.fullTotal] at hne ⊢
    rw [hsame.handed, hb.what]
    exact h.complete s n hn hne

/-- What a flush adds to a full bucket: the time it finds to the current one, and all of a skipped one
for the state key whose clock runs. -/
theorem totalIn_added (h : Inv t output e) (s : HashableDimensionKey)
    (n : Int) : t.totalIn n (t.added e s) = (if n = t.mCurrentBucketNum then t.found e s else 0) +
      if (t.started = true ∧ s = t.stateKey) ∧ t.mCurrentBucketNum < n ∧ n < t.mCurrentBucketNum + t.bucketsForward e
      then t.mBucketSizeNs else 0 := by
  unfold added
  have hpart := totalIn_partOf h s n
  unfold found at hpart
  rw [totalIn_append, hpart]
  unfold found
  congr 1
  by_cases hon : t.started = true ∧ s = t.stateKey
  · rw [if_pos hon]
    have hmem : ∀ i : Nat, i ∈ List.range' 1 (t.bucketsForward e - 1).toNat ↔ 1 ≤ i ∧ (i : Int) < t.bucketsForward e := by
      intro i
      rw [List.mem_range'_1]
      omega
    rcases totalIn_filled h.inBucket.size (List.range' 1 (t.bucketsForward e - 1).toNat) List.nodup_range' n with
      ⟨htotal, i, hi, hn⟩ | ⟨htotal, hnone⟩
    · rw [hmem] at hi
      rw [htotal, if_pos ⟨hon, by omega, by omega⟩]
    · rw [htotal, if_neg]
      rintro ⟨-, hlo, hhi⟩
      refine hnone (n - t.mCurrentBucketNum).toNat ?_ ?_
      · rw [hmem]
        omega
      · omega
  · rw [if_neg hon, if_neg fun h => hon h.1]
    rfl

theorem FlushSpec.fullTotal {t t' : OringDurationTracker} (h : FlushSpec t t' e output output') (s : HashableDimensionKey) (n : Int) :
    t'.fullTotal output' s n = t.fullTotal output s n + t.totalIn n (t.added e s) := by
  unfold OringDurationTracker.fullTotal
  rw [h.bucketsOf, ← totalIn_append]
  unfold totalIn inFull
  rw [h.startTime, h.size]

theorem Inv.fullTotal_later {now : Int} (h : Inv t output now)
    (s : HashableDimensionKey) {n : Int} (hn : t.mCurrentBucketNum < n) : t.fullTotal output s n = 0 := by
  refine h.fullTotal_after s (le_trans (le_of_lt h.inBucket.upper) ?_)
  have := mul_le_mul_of_nonneg_right (show t.mCurrentBucketNum + 1 ≤ n by omega) (le_of_lt h.inBucket.size)
  show t.mStartTimeNs + (t.mCurrentBucketNum + 1) * t.mBucketSizeNs ≤ _
  omega

theorem Feed.flush_early {t t' : OringDurationTracker} (h : Feed t output)
    (hinv : Inv t output e) (hf : FlushSpec t t' e output output') (hfeed : FlushFeed t t' e)
    (he : e < t.getCurrentBucketEndTimeNs) : Feed t' output' := by
  obtain ⟨hfull, hhanded⟩ := hfeed.early he
  have hn : t.bucketsForward e = 0 := bucketsForward_early (by omega)
  have hnum : t'.mCurrentBucketNum = t.mCurrentBucketNum := by
    rw [hf.num, hn, if_neg (by omega)]
  have hpast : ∀ s n, n < t.mCurrentBucketNum → t'.fullTotal output' s n = t.fullTotal output s n := by
    intro s n hlt
    rw [hf.fullTotal, totalIn_added hinv, if_neg (by omega), if_neg (by omega), add_zero, add_zero]
  refine ⟨fun s => ?_, fun k hk => ?_, fun s n hlt hne => ?_⟩
  · rw [hfull, hnum, hf.fullTotal, totalIn_added hinv, if_pos rfl, if_neg (by omega), add_zero, h.full]
  · rw [hhanded] at hk
    obtain ⟨h1, h2, h3⟩ := h.handed k hk
    rw [hf.key, hnum, hpast _ _ h2]
    exact ⟨h1, h2, h3⟩
  · rw [hnum] at hlt
    rw [hpast s n hlt] at hne ⊢
    rw [hhanded, hf.key]
    exact h.complete s n hlt hne

theorem Feed.flush_late {t t' : OringDurationTracker} (h : Feed t output)
    (hinv : Inv t output e) (hf : FlushSpec t t' e output output') (hfeed : FlushFeed t t' e)
    (he : e > t.getCurrentBucketEndTimeNs) : Feed t' output' := by
  obtain ⟨hfull, keys, hkeys, hhanded⟩ := hfeed.late he
  obtain ⟨hn, -, -⟩ := bucketsForward_bounds hinv.inBucket.size (le_of_lt he)
  have hnum : t'.mCurrentBucketNum = t.mCurrentBucketNum + t.bucketsForward e := by rw [hf.num, if_pos hn]
  have hpast : ∀ s n, n < t.mCurrentBucketNum → t'.fullTotal output' s n = t.fullTotal output s n := by
    intro s n hlt
    rw [hf.fullTotal, totalIn_added hinv, if_neg (by omega), if_neg (by omega), add_zero, add_zero]
  have hcurrent : ∀ s, t'.fullTotal output' s t.mCurrentBucketNum = t.full s + t.found e s := by
    intro s
    rw [hf.fullTotal, totalIn_added hinv, if_pos rfl, if_neg (by omega), add_zero, h.full]
  have hskipped : ∀ s n, t.mCurrentBucketNum < n → n < t.mCurrentBucketNum + t.bucketsForward e →
      t'.fullTotal output' s n = if t.started = true ∧ s = t.stateKey then t.mBucketSizeNs else 0 := by
    intro s n hlo hhi
    rw [hf.fullTotal, totalIn_added hinv, hinv.fullTotal_later s hlo, if_neg (by omega), zero_add, zero_add]
    by_cases hon : t.started = true ∧ s = t.stateKey
    · rw [if_pos hon, if_pos ⟨hon, hlo, hhi⟩]
    · rw [if_neg hon, if_neg fun h => hon h.1]
  have hlater : ∀ s, t'.fullTotal output' s t'.mCurrentBucketNum = 0 := by
    intro s
    rw [hnum, hf.fullTotal, totalIn_added hinv, hinv.fullTotal_later s (by omega), if_neg (by omega), if_neg (by omega)]
    rfl
  refine ⟨fun s => ?_, fun k hk => ?_, fun s n hlt hne => ?_⟩
  · rw [hfull, hlater]
  · rw [hhanded, List.mem_append, List.mem_append] at hk
    rw [hf.key, hnum]
    rcases hk with (hk | hk) | hk
    · obtain ⟨h1, h2, h3⟩ := h.handed k hk
      rw [hpast _ _ h2]
      exact ⟨h1, by omega, h3⟩
    · obtain ⟨s, -, rfl⟩ := List.mem_map.1 hk
      exact ⟨rfl, by dsimp only; omega, (hcurrent s).symm⟩
    · unfold skipped at hk
      split at hk
      · rename_i hon
        obtain ⟨i, hi, rfl⟩ := List.mem_map.1 hk
        rw [List.mem_range'_1] at hi
        dsimp only
        refine ⟨rfl, by omega, ?_⟩
        rw [hskipped _ _ (by omega) (by omega), if_pos ⟨hon, rfl⟩]
      · rename_i hoff
        split at hk
        · rw [List.mem_singleton] at hk
          subst hk
          dsimp only
          refine ⟨rfl, by omega, ?_⟩
          rw [hskipped _ _ (by omega) (by omega), if_neg fun h => hoff h.1]
        · cases hk
  · rw [hnum] at hlt
    rw [hhanded, hf.key, List.mem_append, List.mem_append]
    rcases lt_trichotomy n t.mCurrentBucketNum with hn' | hn' | hn'
    · rw [hpast s n hn'] at hne ⊢
      exact .inl (.inl (h.complete s n hn' hne))
    · subst hn'
      rw [hcurrent] at hne ⊢
      refine .inl (.inr (List.mem_map.2 ⟨s, ?_, rfl⟩))
      by_contra hs
      exact hne (hkeys s hs)
    · rw [hskipped s n hn' hlt] at hne ⊢
      split at hne
      · rename_i hon
        rw [if_pos hon, hon.2]
        refine .inr ?_
        unfold skipped
        rw [if_pos hon.1, List.mem_map]
        refine ⟨(n - t.mCurrentBucketNum).toNat, ?_, ?_⟩
        · rw [List.mem_range'_1]
          omega
        · rw [Int.toNat_of_nonneg (by omega)]
          congr 1
          omega
      · exact absurd rfl hne

/-! ## Runs -/

namespace Tracked

/-- No flush comes at the very end of the full bucket, and when one comes past it no state key but the
current one has time in that bucket. -/
def FeedOk (x : Tracked) (e : TrackerEvent) : Prop :=
  x.Ok e ∧ (e.flushed = true → e.time ≠ x.tracker.getCurrentBucketEndTimeNs ∧
    (e.time > x.tracker.getCurrentBucketEndTimeNs → x.tracker.OnlyCurrent x.tracker.mStateKeyDurationMap.keys))

end Tracked

theorem Feed.flushCurrentBucket (h : Feed t output)
    (hinv : Inv t output e) (hne : e ≠ t.getCurrentBucketEndTimeNs)
    (hok : e > t.getCurrentBucketEndTimeNs → t.OnlyCurrent t.mStateKeyDurationMap.keys) :
    Feed (t.flushCurrentBucket e output).1 (t.flushCurrentBucket e output).2.1 := by
  have hf := t.flushCurrentBucket_spec e output
  have hfeed := flushCurrentBucket_feed e output (fun s => (hinv.due s).1) hok
  rcases lt_or_gt_of_ne hne with he | he
  · exact h.flush_early hinv hf hfeed he
  · exact h.flush_late hinv hf hfeed he

theorem Feed.flushIfNeeded {x : Tracked} {time : Int} (h : Feed x.tracker x.output) (hinv : Inv x.tracker x.output time)
    (hne : time ≠ x.tracker.getCurrentBucketEndTimeNs)
    (hok : time > x.tracker.getCurrentBucketEndTimeNs → x.tracker.OnlyCurrent x.tracker.mStateKeyDurationMap.keys) :
    Feed (x.flushIfNeeded time).tracker (x.flushIfNeeded time).output := by
  unfold Tracked.flushIfNeeded OringDurationTracker.flushIfNeeded
  split
  · exact h
  · exact h.flushCurrentBucket hinv hne hok

theorem Feed.apply {x : Tracked} {time : Int} (h : Feed x.tracker x.output) (hinv : Inv x.tracker x.output time) (op : TrackerOp)
    (hok : x.tracker.UpToDate time ∨ op.neverStarts = true) : Feed (x.apply time op).tracker (x.apply time op).output := by
  cases op with
  | noteStart key condition conditionKey => exact h.op (noteStart_spec _ _ _ _ _).bucket (noteStart_sameFeed _ _ _ _ _)
  | noteStop key stopAll => exact h.op (noteStop_spec _ _ _ _).bucket (noteStop_sameFeed _ _ _ _)
  | noteStopAll => exact h.op (noteStopAll_spec _ _).bucket (noteStopAll_sameFeed _ _)
  | onConditionChanged condition => exact h.op (onConditionChanged_spec _ _ _).bucket (onConditionChanged_sameFeed _ _ _)
  | onSlicedConditionMayChange query =>
    exact h.op (onSlicedConditionMayChange_spec _ _ _).bucket (onSlicedConditionMayChange_sameFeed _ _ _)
  | onStateChanged atomId newState => exact h.op (onStateChanged_spec _ _ _ _).bucket (onStateChanged_sameFeed _ _ _ _)
  | flushIfNeeded =>
    have hup : x.tracker.UpToDate time := hok.resolve_right (by decide)
    exact h.flushIfNeeded hinv (ne_of_lt hup) fun hgt => absurd hup (not_lt.2 (le_of_lt hgt))
  | flushCurrentBucket =>
    have hup : x.tracker.UpToDate time := hok.resolve_right (by decide)
    exact h.flushCurrentBucket hinv (ne_of_lt hup) fun hgt => absurd hup (not_lt.2 (le_of_lt hgt))

theorem Feed.step {x : Tracked} (h : Feed x.tracker x.output) (hinv : Inv x.tracker x.output x.now) {e : TrackerEvent}
    (hok : x.FeedOk e) : Feed (x.step e).tracker (x.step e).output := by
  obtain ⟨⟨hle, hstep⟩, hflush⟩ := hok
  have htick : Inv x.tracker x.output e.time := hinv.tick hle
  unfold Tracked.step
  cases hf : e.flushed with
  | true =>
    simp only [if_true]
    obtain ⟨hmove, hup⟩ := moves_flushIfNeeded htick
    obtain ⟨hne, honly⟩ := hflush hf
    exact (h.flushIfNeeded htick hne honly).apply hmove.inv e.op (.inl hup)
  | false =>
    simp only [Bool.false_eq_true, if_false]
    refine Feed.apply (x := { x with now := e.time }) h htick e.op (.inr ?_)
    rcases hstep with hstep | hstep
    · rw [hf] at hstep; cases hstep
    · exact hstep.2

end Statsd.Metrics.OringDurationTracker
