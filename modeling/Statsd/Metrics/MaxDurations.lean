/-
The durations that a MAX tracker is about, and what its buckets report of them. A duration of a key runs from the
first start to the stop that ends it; its unpaused time is followed from call to call, while the tracker takes the time
only when the duration is paused or ends. A stop that leaves a nested duration open also raises the maximum, to the
time taken at earlier pauses; without such a raise each bucket reports the longest duration that ended in it.
-/
import Mathlib.Data.List.ReduceOption
import Statsd.Base.Grid
import Statsd.Base.Run
import Statsd.Metrics.MaxDurationTracker
import Statsd.Metrics.OringConservation

namespace Statsd

namespace UMap

variable {K V S : Type} [DecidableEq K]

theorem lookup_foldl_keys {v : S → UMap K V} {f : S → K → S} {g : Option V → Option V}
    (h : ∀ s key k, (v (f s key)).lookup k = if k = key then g ((v s).lookup k) else (v s).lookup k) (keys : List K)
    (hkeys : keys.Nodup) (s : S) (k : K) :
    (v (keys.foldl f s)).lookup k = if k ∈ keys then g ((v s).lookup k) else (v s).lookup k := by
  induction keys generalizing s with
  | nil => simp
  | cons key keys ih =>
    rw [List.nodup_cons] at hkeys
    rw [List.foldl_cons, ih hkeys.2, h]
    by_cases hk : k = key
    · subst hk
      simp [hkeys.1]
    · simp [hk]

end UMap

namespace Metrics

open OringDurationTracker (TrackerOp)

/-! ## Durations -/

/-- A duration that has not ended; `unpaused` is its unpaused time up to the last call. -/
structure OpenDuration where
  starts : Int
  running : Bool
  unpaused : Int
  conditionKey : ConditionKey

structure EndedDuration where
  time : Int
  unpaused : Int

/-- A bucket that was closed, and the durations that ended while it was the current one. -/
structure ClosedBucket where
  start : Int
  stop : Int
  ended : Set EndedDuration

/-- The durations of all keys at the last call, and those that ended in the current bucket. -/
structure Durations where
  now : Int
  opened : HashableDimensionKey → Option OpenDuration
  ended : Set EndedDuration
  closed : List ClosedBucket

namespace OpenDuration

def tick (elapsed : Int) (d : OpenDuration) : OpenDuration :=
  if d.running then { d with unpaused := d.unpaused + elapsed } else d

/-- A stop ends the duration if starts are not nested or if it is the stop of the last start. -/
def endedBy (nested stopAll : Bool) (d : OpenDuration) : Bool := stopAll || !nested || decide (d.starts ≤ 1)

end OpenDuration

namespace Durations

/-- Time passes. -/
def tick (s : Durations) (time : Int) : Durations :=
  { s with now := time, opened := fun k => (s.opened k).map (OpenDuration.tick (time - s.now)) }

/-- A start opens a duration or adds to the starts of an open one. -/
def start (sliced : Bool) (s : Durations) (key : HashableDimensionKey) (condition : Bool) (conditionKey : ConditionKey) : Durations :=
  { s with opened := Function.update s.opened key (some (match s.opened key with
      | none => ⟨1, condition, 0, if sliced then conditionKey else ∅⟩
      | some d => { d with starts := d.starts + 1, conditionKey := if sliced then conditionKey else d.conditionKey })) }

open Classical in
/-- A stop of each key of a set. -/
noncomputable def stop (nested stopAll : Bool) (s : Durations) (keys : Set HashableDimensionKey) : Durations :=
  { s with
    opened := fun k =>
      if k ∈ keys then (s.opened k).bind fun d => if d.endedBy nested stopAll then none else some { d with starts := d.starts - 1 }
      else s.opened k
    ended := s.ended ∪ {x | ∃ k ∈ keys, ∃ d, s.opened k = some d ∧ d.endedBy nested stopAll = true ∧ x = ⟨s.now, d.unpaused⟩} }

/-- Each open duration runs if its condition holds. -/
def hold (s : Durations) (holds : ConditionKey → Bool) : Durations :=
  { s with opened := fun k => (s.opened k).map fun d => { d with running := holds d.conditionKey } }

def close (s : Durations) (start stop : Int) : Durations :=
  { s with ended := ∅, closed := s.closed ++ [⟨start, stop, s.ended⟩] }

/-- The end of the bucket that a flush of the tracker closes. -/
def flushEnd (t : MaxDurationTracker) (time : Int) : Int := min time t.getCurrentBucketEndTimeNs

/-- A call on the tracker `t`. -/
noncomputable def apply (t : MaxDurationTracker) (s : Durations) : TrackerOp → Durations
  | .noteStart key condition conditionKey => s.start t.mConditionSliced key condition conditionKey
  | .noteStop key stopAll => s.stop t.mNested stopAll {key}
  | .noteStopAll => s.stop t.mNested true Set.univ
  | .onConditionChanged condition => s.hold fun _ => condition
  | .onSlicedConditionMayChange query => s.hold fun conditionKey => decide (query conditionKey = .kTrue)
  | .onStateChanged _ _ => s
  | .flushIfNeeded => if s.now < t.getCurrentBucketEndTimeNs then s else s.close t.mCurrentBucketStartTimeNs (flushEnd t s.now)
  | .flushCurrentBucket => s.close t.mCurrentBucketStartTimeNs (flushEnd t s.now)

end Durations

/-! ## Runs -/

/-- A tracker, the buckets it has emitted, and the durations it is about. -/
structure MaxTracked where
  tracker : MaxDurationTracker
  output : PastBuckets
  durations : Durations

/-- A call at a time. -/
structure MaxEvent where
  time : Int
  op : TrackerOp

namespace MaxDurationTracker

/-- A call on the tracker: the tracker and the buckets. -/
def apply (t : MaxDurationTracker) (output : PastBuckets) (time : Int) : TrackerOp → MaxDurationTracker × PastBuckets
  | .noteStart key condition conditionKey => (t.noteStart key condition time conditionKey, output)
  | .noteStop key stopAll => (t.noteStop key time stopAll, output)
  | .noteStopAll => (t.noteStopAll time, output)
  | .onConditionChanged condition => (t.onConditionChanged condition time, output)
  | .onSlicedConditionMayChange query => (t.onSlicedConditionMayChange query time, output)
  | .onStateChanged _ _ => (t, output)
  | .flushIfNeeded => ((t.flushIfNeeded time output).1, (t.flushIfNeeded time output).2.1)
  | .flushCurrentBucket => ((t.flushCurrentBucket time output).1, (t.flushCurrentBucket time output).2.1)

end MaxDurationTracker

namespace MaxTracked

noncomputable def step (x : MaxTracked) (e : MaxEvent) : MaxTracked :=
  let r := x.tracker.apply x.output e.time e.op
  ⟨r.1, r.2, (x.durations.tick e.time).apply x.tracker e.op⟩

/-- No start is dropped by the guardrail. -/
def BelowGuardRail (x : MaxTracked) (e : MaxEvent) : Prop :=
  match e.op with
  | .noteStart key _ _ => x.tracker.hitGuardRail key = false
  | _ => True

/-- A stop that leaves the duration open finds no more time taken at earlier pauses than the maximum. -/
def KeepsMax (x : MaxTracked) (e : MaxEvent) : Prop :=
  match e.op with
  | .noteStop key stopAll => ∀ d, x.tracker.mInfos.lookup key = some d → x.tracker.ends stopAll (d.startCount - 1) = false →
      d.lastDuration ≤ x.tracker.mDuration
  | _ => True

/-- Times do not decrease, and stops come before the end of the current bucket. -/
def InTime (x : MaxTracked) (e : MaxEvent) : Prop :=
  x.durations.now ≤ e.time ∧
    match e.op with
    | .noteStop _ _ | .noteStopAll => e.time < x.tracker.getCurrentBucketEndTimeNs
    | _ => True

end MaxTracked

/-- What is reported of a bucket: the longest duration, unless none has a positive length. -/
def Reported (c : ClosedBucket) : Option DurationBucket → Prop
  | some b => b.mBucketStartNs = c.start ∧ b.mBucketEndNs = c.stop ∧ 0 < b.mDuration ∧
      IsGreatest (EndedDuration.unpaused '' c.ended) b.mDuration
  | none => ∀ d ∈ c.ended, d.unpaused ≤ 0

/-! ## The entry of a key -/

namespace MaxDurationTracker

/-- An operation changes the entries and the maximum only. -/
structure SameBucket (t t' : MaxDurationTracker) : Prop where
  eventKey : t'.mEventKey = t.mEventKey
  nested : t'.mNested = t.mNested
  sliced : t'.mConditionSliced = t.mConditionSliced
  size : t'.mBucketSizeNs = t.mBucketSizeNs
  start : t'.mCurrentBucketStartTimeNs = t.mCurrentBucketStartTimeNs
  num : t'.mCurrentBucketNum = t.mCurrentBucketNum
  base : t'.mStartTimeNs = t.mStartTimeNs

theorem SameBucket.refl (t : MaxDurationTracker) : SameBucket t t := ⟨rfl, rfl, rfl, rfl, rfl, rfl, rfl⟩

theorem SameBucket.trans {t t' t'' : MaxDurationTracker} (h : SameBucket t t') (h' : SameBucket t' t'') : SameBucket t t'' :=
  ⟨h'.eventKey.trans h.eventKey, h'.nested.trans h.nested, h'.sliced.trans h.sliced, h'.size.trans h.size,
    h'.start.trans h.start, h'.num.trans h.num, h'.base.trans h.base⟩

variable {t t' : MaxDurationTracker}

theorem SameBucket.bucketEnd (h : SameBucket t t') :
    t'.getCurrentBucketEndTimeNs = t.getCurrentBucketEndTimeNs := by
  unfold getCurrentBucketEndTimeNs
  rw [h.base, h.num, h.size]

theorem SameBucket.foldl {f : MaxDurationTracker → HashableDimensionKey → MaxDurationTracker} (h : ∀ t key, SameBucket t (f t key)) :
    ∀ (keys : List HashableDimensionKey) (t : MaxDurationTracker), SameBucket t (keys.foldl f t)
  | [], t => .refl t
  | key :: keys, t => (h t key).trans (SameBucket.foldl h keys (f t key))

theorem sameBucket_raise (t : MaxDurationTracker) (d : Int) : SameBucket t (t.raise d) := by
  unfold raise
  split
  · exact ⟨rfl, rfl, rfl, rfl, rfl, rfl, rfl⟩
  · exact .refl t

theorem sameBucket_restartAlarm (t : MaxDurationTracker) (time : Int) : SameBucket t (t.restartAlarm time) := by
  unfold restartAlarm
  split
  · exact ⟨rfl, rfl, rfl, rfl, rfl, rfl, rfl⟩
  · exact .refl t

@[simp] theorem restartAlarm_mInfos (t : MaxDurationTracker) (time : Int) : (t.restartAlarm time).mInfos = t.mInfos := by
  unfold restartAlarm
  split <;> rfl

@[simp] theorem restartAlarm_mDuration (t : MaxDurationTracker) (time : Int) : (t.restartAlarm time).mDuration = t.mDuration := by
  unfold restartAlarm
  split <;> rfl

@[simp] theorem raise_mInfos (t : MaxDurationTracker) (d : Int) : (t.raise d).mInfos = t.mInfos := by
  unfold raise
  split <;> rfl

theorem raise_mDuration (t : MaxDurationTracker) (d : Int) : (t.raise d).mDuration = max t.mDuration d := by
  unfold raise
  split
  · rename_i h
    exact (max_eq_right (le_of_lt h)).symm
  · rename_i h
    exact (max_eq_left (not_lt.1 h)).symm

/-- What is left of the duration of a key after a stop. -/
def afterStop (t : MaxDurationTracker) (time : Int) (stopAll : Bool) (d : DurationInfo) : Option DurationInfo :=
  if (t.stopDuration d time stopAll).state = .kStopped then none else some (t.stopDuration d time stopAll)

theorem lookup_noteStop (t : MaxDurationTracker) (key k : HashableDimensionKey) (time : Int) (stopAll : Bool) :
    (t.noteStop key time stopAll).mInfos.lookup k =
      if k = key then (t.mInfos.lookup key).bind (t.afterStop time stopAll) else t.mInfos.lookup k := by
  unfold noteStop
  cases hold : t.mInfos.lookup key with
  | none =>
    by_cases hk : k = key
    · rw [if_pos hk, hk, hold]
      rfl
    · rw [if_neg hk]
  | some old =>
    have hset : ∀ d : DurationInfo, (if old.state = .kStarted ∧ d.state = .kStopped then
        ((t.stopAnomalyAlarm time).setInfo key d).restartAlarm time else t.setInfo key d).mInfos = t.mInfos.insert key d := by
      intro d
      split
      · rw [restartAlarm_mInfos]
        rfl
      · rfl
    dsimp only [Option.bind_some]
    unfold afterStop
    split
    · rw [UMap.lookup_erase', raise_mInfos, hset, UMap.lookup_insert']
      split <;> rfl
    · rw [raise_mInfos, hset, UMap.lookup_insert']

theorem noteStop_mDuration (t : MaxDurationTracker) (key : HashableDimensionKey) (time : Int) (stopAll : Bool) :
    (t.noteStop key time stopAll).mDuration =
      match t.mInfos.lookup key with
      | none => t.mDuration
      | some d => max t.mDuration (t.stopDuration d time stopAll).lastDuration := by
  unfold noteStop
  cases t.mInfos.lookup key with
  | none => rfl
  | some old =>
    have hset : ∀ d : DurationInfo, (if old.state = .kStarted ∧ d.state = .kStopped then
        ((t.stopAnomalyAlarm time).setInfo key d).restartAlarm time else t.setInfo key d).mDuration = t.mDuration := by
      intro d
      split
      · rw [restartAlarm_mDuration]
        rfl
      · rfl
    dsimp only
    split
    · dsimp only
      rw [raise_mDuration, hset]
    · rw [raise_mDuration, hset]

theorem sameBucket_noteStart (t : MaxDurationTracker) (key : HashableDimensionKey) (condition : Bool) (time : Int)
    (conditionKey : ConditionKey) : SameBucket t (t.noteStart key condition time conditionKey) := by
  unfold noteStart
  by_cases hguard : t.hitGuardRail key = true
  · rw [if_pos hguard]
    exact .refl t
  · rw [if_neg hguard]
    dsimp only
    generalize (if t.mConditionSliced = true then { UMap.getD t.mInfos key {} with conditionKeys := conditionKey }
      else UMap.getD t.mInfos key {}) = duration
    cases duration.state with
    | kStarted => exact ⟨rfl, rfl, rfl, rfl, rfl, rfl, rfl⟩
    | kPaused => exact ⟨rfl, rfl, rfl, rfl, rfl, rfl, rfl⟩
    | kStopped => cases condition <;> exact ⟨rfl, rfl, rfl, rfl, rfl, rfl, rfl⟩

theorem sameBucket_noteStop (t : MaxDurationTracker) (key : HashableDimensionKey) (time : Int) (stopAll : Bool) :
    SameBucket t (t.noteStop key time stopAll) := by
  unfold noteStop
  cases t.mInfos.lookup key with
  | none => exact .refl t
  | some old =>
    have hset : ∀ d : DurationInfo, SameBucket t (if old.state = .kStarted ∧ d.state = .kStopped then
        ((t.stopAnomalyAlarm time).setInfo key d).restartAlarm time else t.setInfo key d) := by
      intro d
      split
      · have hpaused : SameBucket t ((t.stopAnomalyAlarm time).setInfo key d) := ⟨rfl, rfl, rfl, rfl, rfl, rfl, rfl⟩
        exact hpaused.trans (sameBucket_restartAlarm _ time)
      · exact ⟨rfl, rfl, rfl, rfl, rfl, rfl, rfl⟩
    have hraise := fun d => (hset d).trans (sameBucket_raise _ d.lastDuration)
    dsimp only
    split
    · exact (hraise _).trans ⟨rfl, rfl, rfl, rfl, rfl, rfl, rfl⟩
    · exact hraise _

/-- What a change of the condition makes of the duration of a key. -/
def conditionChanged (conditionMet : Bool) (time : Int) (d : DurationInfo) : DurationInfo :=
  match d.state with
  | .kStarted => if conditionMet then d else { d with state := .kPaused, lastDuration := d.lastDuration + (time - d.lastStartTime) }
  | .kStopped => d
  | .kPaused => if conditionMet then { d with state := .kStarted, lastStartTime := time } else d

theorem noteConditionChanged_spec (t : MaxDurationTracker) (key : HashableDimensionKey) (conditionMet : Bool) (time : Int) :
    (∀ k, (t.noteConditionChanged key conditionMet time).mInfos.lookup k =
      if k = key then (t.mInfos.lookup k).map (conditionChanged conditionMet time) else t.mInfos.lookup k) ∧
    (t.noteConditionChanged key conditionMet time).mDuration = t.mDuration ∧
    SameBucket t (t.noteConditionChanged key conditionMet time) := by
  have hkept : ∀ d, t.mInfos.lookup key = some d → conditionChanged conditionMet time d = d → ∀ k, t.mInfos.lookup k =
      if k = key then (t.mInfos.lookup k).map (conditionChanged conditionMet time) else t.mInfos.lookup k := by
    intro d hd hsame k
    split
    · rename_i hk
      rw [hk, hd, Option.map_some, hsame]
    · rfl
  have hset : ∀ d d', t.mInfos.lookup key = some d → conditionChanged conditionMet time d = d' →
      ∀ k, (t.mInfos.insert key d').lookup k =
        if k = key then (t.mInfos.lookup k).map (conditionChanged conditionMet time) else t.mInfos.lookup k := by
    intro d d' hd hd' k
    rw [UMap.lookup_insert']
    split
    · rename_i hk
      rw [hk, hd, Option.map_some, hd']
    · rfl
  unfold noteConditionChanged
  cases hd : t.mInfos.lookup key with
  | none =>
    refine ⟨fun k => ?_, rfl, .refl t⟩
    dsimp only
    split
    · rename_i hk
      rw [hk, hd]
      rfl
    · rfl
  | some d =>
    dsimp only
    cases hstate : d.state with
    | kStarted =>
      dsimp only
      split
      · rename_i hmet
        exact ⟨hkept d hd (by unfold conditionChanged; rw [hstate]; exact if_pos hmet), rfl, .refl t⟩
      · rename_i hmet
        refine ⟨fun k => ?_, ?_, ?_⟩
        · rw [restartAlarm_mInfos]
          refine hset d _ hd ?_ k
          unfold conditionChanged
          rw [hstate]
          exact if_neg hmet
        · rw [restartAlarm_mDuration]
          rfl
        · have hpaused : SameBucket t ((t.stopAnomalyAlarm time).setInfo key
              { d with state := .kPaused, lastDuration := d.lastDuration + (time - d.lastStartTime) }) :=
            ⟨rfl, rfl, rfl, rfl, rfl, rfl, rfl⟩
          exact hpaused.trans (sameBucket_restartAlarm _ time)
    | kStopped => exact ⟨hkept d hd (by unfold conditionChanged; rw [hstate]), rfl, .refl t⟩
    | kPaused =>
      dsimp only
      split
      · rename_i hmet
        refine ⟨fun k => hset d _ hd ?_ k, rfl, ⟨rfl, rfl, rfl, rfl, rfl, rfl, rfl⟩⟩
        unfold conditionChanged
        rw [hstate]
        exact if_pos hmet
      · rename_i hmet
        exact ⟨hkept d hd (by unfold conditionChanged; rw [hstate]; exact if_neg hmet), rfl, .refl t⟩

/-! ## Loops over the keys -/

theorem mem_keys_iff (t : MaxDurationTracker) (k : HashableDimensionKey) : k ∈ t.mInfos.keys ↔ (t.mInfos.lookup k).isSome := by
  rw [AList.lookup_isSome]
  exact AList.mem_keys.symm

theorem lookup_foldl_all {f : MaxDurationTracker → HashableDimensionKey → MaxDurationTracker} {g : Option DurationInfo → Option DurationInfo}
    (h : ∀ t key k, (f t key).mInfos.lookup k = if k = key then g (t.mInfos.lookup k) else t.mInfos.lookup k) (hg : g none = none)
    (t : MaxDurationTracker) (k : HashableDimensionKey) : (t.mInfos.keys.foldl f t).mInfos.lookup k = g (t.mInfos.lookup k) := by
  rw [UMap.lookup_foldl_keys (v := mInfos) h t.mInfos.keys t.mInfos.keys_nodup]
  split
  · rfl
  · rename_i hk
    rw [mem_keys_iff, Option.not_isSome_iff_eq_none] at hk
    rw [hk, hg]

theorem onConditionChanged_spec (t : MaxDurationTracker) (condition : Bool) (time : Int) :
    (∀ k, (t.onConditionChanged condition time).mInfos.lookup k = (t.mInfos.lookup k).map (conditionChanged condition time)) ∧
    (t.onConditionChanged condition time).mDuration = t.mDuration ∧ SameBucket t (t.onConditionChanged condition time) := by
  unfold onConditionChanged
  refine ⟨lookup_foldl_all (g := Option.map (conditionChanged condition time)) ?_ rfl t, ?_, ?_⟩
  · intro t key k
    exact (noteConditionChanged_spec t key condition time).1 k
  · have hkeep : ∀ (keys : List HashableDimensionKey) (t : MaxDurationTracker),
        (keys.foldl (fun t key => t.noteConditionChanged key condition time) t).mDuration = t.mDuration := by
      intro keys
      induction keys with
      | nil => intro t; rfl
      | cons key keys ih =>
        intro t
        rw [List.foldl_cons, ih]
        exact (noteConditionChanged_spec t key condition time).2.1
    exact hkeep _ t
  · exact SameBucket.foldl (fun t key => (noteConditionChanged_spec t key condition time).2.2) _ t

/-- The answer of the wizard for the duration of a key. -/
def conditionQueried (query : ConditionKey → ConditionState) (time : Int) (d : DurationInfo) : DurationInfo :=
  conditionChanged (decide (query d.conditionKeys = .kTrue)) time d

theorem queryCondition_spec (query : ConditionKey → ConditionState) (time : Int) (t : MaxDurationTracker) (key : HashableDimensionKey) :
    (∀ k, (queryCondition query time t key).mInfos.lookup k =
      if k = key then (t.mInfos.lookup k).map (conditionQueried query time) else t.mInfos.lookup k) ∧
    (queryCondition query time t key).mDuration = t.mDuration ∧ SameBucket t (queryCondition query time t key) := by
  unfold queryCondition
  cases hd : t.mInfos.lookup key with
  | none =>
    refine ⟨fun k => ?_, rfl, .refl t⟩
    dsimp only
    split
    · rename_i hk
      rw [hk, hd]
      rfl
    · rfl
  | some d =>
    dsimp only
    split
    · rename_i hstopped
      refine ⟨fun k => ?_, rfl, .refl t⟩
      split
      · rename_i hk
        rw [hk, hd, Option.map_some]
        unfold conditionQueried conditionChanged
        rw [hstopped]
      · rfl
    · obtain ⟨hlookup, hduration, hsame⟩ := noteConditionChanged_spec t key (decide (query d.conditionKeys = .kTrue)) time
      refine ⟨fun k => ?_, hduration, hsame⟩
      rw [hlookup]
      split
      · rename_i hk
        rw [hk, hd]
        rfl
      · rfl

theorem onSlicedConditionMayChange_spec (t : MaxDurationTracker) (query : ConditionKey → ConditionState) (time : Int) :
    (∀ k, (t.onSlicedConditionMayChange query time).mInfos.lookup k = (t.mInfos.lookup k).map (conditionQueried query time)) ∧
    (t.onSlicedConditionMayChange query time).mDuration = t.mDuration ∧ SameBucket t (t.onSlicedConditionMayChange query time) := by
  unfold onSlicedConditionMayChange
  refine ⟨lookup_foldl_all (g := Option.map (conditionQueried query time)) ?_ rfl t, ?_, ?_⟩
  · intro t key k
    exact (queryCondition_spec query time t key).1 k
  · have hkeep : ∀ (keys : List HashableDimensionKey) (t : MaxDurationTracker),
        (keys.foldl (queryCondition query time) t).mDuration = t.mDuration := by
      intro keys
      induction keys with
      | nil => intro t; rfl
      | cons key keys ih =>
        intro t
        rw [List.foldl_cons, ih]
        exact (queryCondition_spec query time t key).2.1
    exact hkeep _ t
  · exact SameBucket.foldl (fun t key => (queryCondition_spec query time t key).2.2) _ t

/-! ## What stops do -/

/-- The tracker `t'` is `t` after a stop of each key of a set. -/
structure Stopped (t t' : MaxDurationTracker) (time : Int) (stopAll : Bool) (keys : Set HashableDimensionKey) : Prop where
  inside : ∀ k ∈ keys, t'.mInfos.lookup k = (t.mInfos.lookup k).bind (t.afterStop time stopAll)
  outside : ∀ k ∉ keys, t'.mInfos.lookup k = t.mInfos.lookup k
  grows : t.mDuration ≤ t'.mDuration
  covers : ∀ k ∈ keys, ∀ d, t.mInfos.lookup k = some d → (t.stopDuration d time stopAll).lastDuration ≤ t'.mDuration
  reached : t'.mDuration = t.mDuration ∨
    ∃ k ∈ keys, ∃ d, t.mInfos.lookup k = some d ∧ t'.mDuration = (t.stopDuration d time stopAll).lastDuration

theorem stopped_noteStop (t : MaxDurationTracker) (key : HashableDimensionKey) (time : Int) (stopAll : Bool) :
    Stopped t (t.noteStop key time stopAll) time stopAll {key} := by
  have hduration := noteStop_mDuration t key time stopAll
  refine ⟨?_, ?_, ?_, ?_, ?_⟩
  · rintro k rfl
    rw [lookup_noteStop, if_pos rfl]
  · intro k hk
    have hne : k ≠ key := hk
    rw [lookup_noteStop, if_neg hne]
  · rw [hduration]
    split
    · exact le_refl _
    · exact le_max_left ..
  · rintro k rfl d hd
    rw [hduration, hd]
    exact le_max_right ..
  · rw [hduration]
    cases hd : t.mInfos.lookup key with
    | none => exact .inl rfl
    | some d =>
      rcases max_choice t.mDuration (t.stopDuration d time stopAll).lastDuration with h | h
      · exact .inl h
      · exact .inr ⟨key, rfl, d, hd, h⟩

theorem SameBucket.stopDuration (h : SameBucket t t') (d : DurationInfo) (time : Int) (stopAll : Bool) :
    t'.stopDuration d time stopAll = t.stopDuration d time stopAll := by
  unfold MaxDurationTracker.stopDuration ends
  rw [h.nested]

theorem Stopped.insert {time : Int} {stopAll : Bool} {keys : Set HashableDimensionKey}
    (h : Stopped t t' time stopAll keys) (hsame : SameBucket t t') {key : HashableDimensionKey} (hkey : key ∉ keys) :
    Stopped t (t'.noteStop key time stopAll) time stopAll (Insert.insert key keys) := by
  have hone := stopped_noteStop t' key time stopAll
  have hlookup := h.outside key hkey
  have hafter : t'.afterStop time stopAll = t.afterStop time stopAll := by
    funext d
    unfold afterStop
    rw [hsame.stopDuration]
  refine ⟨?_, ?_, le_trans h.grows hone.grows, ?_, ?_⟩
  · rintro k (rfl | hk)
    · rw [hone.inside k rfl, hlookup, hafter]
    · have hne : k ∉ ({key} : Set HashableDimensionKey) := fun heq => hkey (heq ▸ hk)
      rw [hone.outside k hne, h.inside k hk]
  · intro k hk
    have hne : k ∉ ({key} : Set HashableDimensionKey) := fun heq => hk (.inl heq)
    rw [hone.outside k hne, h.outside k fun hk' => hk (.inr hk')]
  · rintro k (rfl | hk) d hd
    · have := hone.covers k rfl d (hlookup.trans hd)
      rwa [hsame.stopDuration] at this
    · exact le_trans (h.covers k hk d hd) hone.grows
  · rcases hone.reached with heq | ⟨k, rfl, d, hd, heq⟩
    · rcases h.reached with heq' | ⟨k, hk, d, hd, heq'⟩
      · exact .inl (heq.trans heq')
      · exact .inr ⟨k, .inr hk, d, hd, heq.trans heq'⟩
    · refine .inr ⟨k, .inl rfl, d, hlookup.symm.trans hd, ?_⟩
      rw [heq, hsame.stopDuration]

theorem stopped_foldl (t : MaxDurationTracker) (time : Int) (stopAll : Bool) :
    ∀ (keys : List HashableDimensionKey) (t' : MaxDurationTracker) (done : Set HashableDimensionKey), keys.Nodup →
      (∀ k ∈ keys, k ∉ done) → SameBucket t t' → Stopped t t' time stopAll done →
      Stopped t (keys.foldl (fun t key => t.noteStop key time stopAll) t') time stopAll (done ∪ {k | k ∈ keys})
  | [], t', done, _, _, _, h => by simpa using h
  | key :: keys, t', done, hnodup, hnew, hsame, h => by
    rw [List.nodup_cons] at hnodup
    have hstep := h.insert hsame (hnew key (List.mem_cons_self ..))
    have hrest := stopped_foldl t time stopAll keys _ (Insert.insert key done) hnodup.2 (by
      rintro k hk (rfl | hdone)
      · exact hnodup.1 hk
      · exact hnew k (List.mem_cons_of_mem _ hk) hdone) (hsame.trans (sameBucket_noteStop t' key time stopAll)) hstep
    rw [List.foldl_cons]
    convert hrest using 1
    ext k
    simp only [Set.mem_union, Set.mem_ofPred_eq, List.mem_cons, Set.mem_insert_iff]
    tauto

theorem stopped_noteStopAll (t : MaxDurationTracker) (time : Int) : Stopped t (t.noteStopAll time) time true Set.univ := by
  have hnone : Stopped t t time true ∅ :=
    ⟨fun k hk => absurd hk (Set.notMem_empty k), fun _ _ => rfl, le_refl _, fun k hk => absurd hk (Set.notMem_empty k), .inl rfl⟩
  have h := stopped_foldl t time true t.mInfos.keys t ∅ t.mInfos.keys_nodup (fun k _ => Set.notMem_empty k) (.refl t) hnone
  unfold noteStopAll
  refine ⟨?_, fun k hk => absurd (Set.mem_univ k) hk, h.grows, ?_, ?_⟩
  · intro k _
    by_cases hk : k ∈ t.mInfos.keys
    · exact h.inside k (.inr hk)
    · -- a key without an entry is not visited
      rw [h.outside k fun hk' => hk (hk'.resolve_left (Set.notMem_empty k))]
      rw [mem_keys_iff, Option.not_isSome_iff_eq_none] at hk
      rw [hk]
      rfl
  · intro k _ d hd
    exact h.covers k (.inr ((mem_keys_iff t k).2 (by rw [hd]; rfl))) d hd
  · rcases h.reached with heq | ⟨k, _, d, hd, heq⟩
    · exact .inl heq
    · exact .inr ⟨k, Set.mem_univ k, d, hd, heq⟩

theorem sameBucket_noteStopAll (t : MaxDurationTracker) (time : Int) : SameBucket t (t.noteStopAll time) :=
  SameBucket.foldl (fun t key => sameBucket_noteStop t key time true) _ t

end MaxDurationTracker

/-! ## The tracker follows the durations -/

/-- The open duration that an entry stands for. -/
def DurationInfo.toOpen (now : Int) (d : DurationInfo) : OpenDuration where
  starts := d.startCount
  running := decide (d.state = .kStarted)
  unpaused := d.lastDuration + if d.state = .kStarted then now - d.lastStartTime else 0
  conditionKey := d.conditionKeys

/-- The entry of a duration that has not ended. -/
structure DurationInfo.Open (d : DurationInfo) : Prop where
  state : d.state ≠ .kStopped
  count : 1 ≤ d.startCount

/-- The maximum is the longest of the durations that ended in the current bucket, if one has a positive length. -/
structure IsMax (ended : Set EndedDuration) (m : Int) : Prop where
  nonneg : 0 ≤ m
  upper : ∀ d ∈ ended, d.unpaused ≤ m
  reached : m = 0 ∨ ∃ d ∈ ended, d.unpaused = m

structure Follows (t : MaxDurationTracker) (s : Durations) : Prop where
  opened : ∀ k, s.opened k = (t.mInfos.lookup k).map (DurationInfo.toOpen s.now)
  live : ∀ k d, t.mInfos.lookup k = some d → d.Open
  longest : IsMax s.ended t.mDuration

open MaxDurationTracker

theorem toOpen_tick (now time : Int) (d : DurationInfo) : (d.toOpen now).tick (time - now) = d.toOpen time := by
  unfold OpenDuration.tick DurationInfo.toOpen
  by_cases h : d.state = .kStarted
  · simp only [h, decide_true, if_true]
    congr 1
    ring
  · simp [h]

variable {t : MaxDurationTracker} {s : Durations}

theorem Follows.tick (h : Follows t s) (time : Int) : Follows t (s.tick time) := by
  refine ⟨?_, h.live, h.longest⟩
  intro k
  change (s.opened k).map (OpenDuration.tick (time - s.now)) = (t.mInfos.lookup k).map (DurationInfo.toOpen time)
  rw [h.opened, Option.map_map]
  congr 1
  funext d
  exact toOpen_tick s.now time d

theorem noteStart_spec {key : HashableDimensionKey} (hguard : t.hitGuardRail key = false) (condition : Bool)
    (now : Int) (conditionKey : ConditionKey) (hlive : ∀ d, t.mInfos.lookup key = some d → d.Open) :
    ∃ d : DurationInfo, d.Open ∧
      (∀ k, (t.noteStart key condition now conditionKey).mInfos.lookup k = if k = key then some d else t.mInfos.lookup k) ∧
      d.toOpen now = (match (t.mInfos.lookup key).map (DurationInfo.toOpen now) with
        | none => ⟨1, condition, 0, if t.mConditionSliced then conditionKey else ∅⟩
        | some d => { d with starts := d.starts + 1, conditionKey := if t.mConditionSliced then conditionKey else d.conditionKey }) ∧
      (t.noteStart key condition now conditionKey).mDuration = t.mDuration ∧
      SameBucket t (t.noteStart key condition now conditionKey) := by
  have hbelow : ¬ t.hitGuardRail key = true := by
    rw [hguard]
    exact Bool.false_ne_true
  have hcached : ∀ d : DurationInfo, (if t.mConditionSliced = true then { d with conditionKeys := conditionKey } else d) =
      { d with conditionKeys := if t.mConditionSliced then conditionKey else d.conditionKeys } := by
    intro d
    split <;> rfl
  unfold noteStart
  rw [if_neg hbelow]
  dsimp only
  rw [hcached]
  cases hold : t.mInfos.lookup key with
  | none =>
    rw [UMap.getD_of_lookup_none hold]
    cases condition with
    | true =>
      refine ⟨_, ⟨?_, le_refl 1⟩, fun k => UMap.lookup_insert' .., ?_, rfl, ⟨rfl, rfl, rfl, rfl, rfl, rfl, rfl⟩⟩
      · simp
      · simp [DurationInfo.toOpen]
    | false =>
      refine ⟨_, ⟨?_, le_refl 1⟩, fun k => UMap.lookup_insert' .., ?_, rfl, ⟨rfl, rfl, rfl, rfl, rfl, rfl, rfl⟩⟩
      · simp
      · simp [DurationInfo.toOpen]
  | some d =>
    obtain ⟨hstate, hcount⟩ := hlive d hold
    rw [UMap.getD_of_lookup_some hold]
    dsimp only
    cases hs : d.state with
    | kStopped => exact absurd hs hstate
    | kStarted =>
      refine ⟨_, ⟨?_, ?_⟩, fun k => UMap.lookup_insert' .., ?_, rfl, ⟨rfl, rfl, rfl, rfl, rfl, rfl, rfl⟩⟩
      · simp
      · dsimp only
        omega
      · simp [DurationInfo.toOpen, hs]
    | kPaused =>
      refine ⟨_, ⟨?_, ?_⟩, fun k => UMap.lookup_insert' .., ?_, rfl, ⟨rfl, rfl, rfl, rfl, rfl, rfl, rfl⟩⟩
      · simp
      · dsimp only
        omega
      · simp [DurationInfo.toOpen, hs]

theorem Follows.start (h : Follows t s) {key : HashableDimensionKey}
    (hguard : t.hitGuardRail key = false) (condition : Bool) (conditionKey : ConditionKey) :
    Follows (t.noteStart key condition s.now conditionKey) (s.start t.mConditionSliced key condition conditionKey) := by
  obtain ⟨d, hopen, hlookup, hd, hduration, -⟩ := noteStart_spec hguard condition s.now conditionKey (h.live key)
  refine ⟨?_, ?_, ?_⟩
  · intro k
    unfold Durations.start
    dsimp only
    rw [Function.update_apply, hlookup]
    split
    · rw [h.opened, Option.map_some, hd]
    · exact h.opened k
  · intro k d' hd'
    rw [hlookup] at hd'
    split at hd'
    · cases hd'
      exact hopen
    · exact h.live k d' hd'
  · rw [hduration]
    exact h.longest

variable {t t' : MaxDurationTracker} {output output' : PastBuckets}

theorem Follows.hold (h : Follows t s) {holds : ConditionKey → Bool}
    (hlookup : ∀ k, t'.mInfos.lookup k = (t.mInfos.lookup k).map fun d => conditionChanged (holds d.conditionKeys) s.now d)
    (hduration : t'.mDuration = t.mDuration) : Follows t' (s.hold holds) := by
  have hopen : ∀ d : DurationInfo, d.Open → (conditionChanged (holds d.conditionKeys) s.now d).Open ∧
      (conditionChanged (holds d.conditionKeys) s.now d).toOpen s.now = { d.toOpen s.now with running := holds d.conditionKeys } := by
    rintro d ⟨hstate, hcount⟩
    unfold conditionChanged DurationInfo.toOpen
    cases hs : d.state with
    | kStopped => exact absurd hs hstate
    | kStarted =>
      cases holds d.conditionKeys with
      | true => exact ⟨⟨hstate, hcount⟩, by simp [hs]⟩
      | false => exact ⟨⟨by simp, hcount⟩, by simp⟩
    | kPaused =>
      cases holds d.conditionKeys with
      | true => exact ⟨⟨by simp, hcount⟩, by simp⟩
      | false => exact ⟨⟨hstate, hcount⟩, by simp [hs]⟩
  refine ⟨?_, ?_, ?_⟩
  · intro k
    change (s.opened k).map _ = (t'.mInfos.lookup k).map (DurationInfo.toOpen s.now)
    rw [h.opened, hlookup, Option.map_map, Option.map_map]
    cases hd : t.mInfos.lookup k with
    | none => rfl
    | some d => exact congrArg some ((hopen d (h.live k d hd)).2).symm
  · intro k d hd
    rw [hlookup] at hd
    obtain ⟨d', hd', rfl⟩ := Option.map_eq_some_iff.1 hd
    exact (hopen d' (h.live k d' hd')).1
  · rw [hduration]
    exact h.longest

theorem stopDuration_spec (t : MaxDurationTracker) (now : Int) (stopAll : Bool) {d : DurationInfo} (hd : d.Open) :
    if t.ends stopAll (d.startCount - 1) then
      t.afterStop now stopAll d = none ∧ (t.stopDuration d now stopAll).lastDuration = (d.toOpen now).unpaused
    else
      t.afterStop now stopAll d = some { d with startCount := d.startCount - 1 } ∧
        (t.stopDuration d now stopAll).lastDuration = d.lastDuration := by
  obtain ⟨hstate, -⟩ := hd
  unfold afterStop stopDuration DurationInfo.toOpen
  cases hs : d.state with
  | kStopped => exact absurd hs hstate
  | kStarted =>
    dsimp only
    split
    · exact ⟨rfl, by simp⟩
    · exact ⟨by simp, rfl⟩
  | kPaused =>
    dsimp only
    split
    · exact ⟨rfl, by simp⟩
    · exact ⟨by simp, rfl⟩

theorem endedBy_toOpen (t : MaxDurationTracker) (now : Int) (stopAll : Bool) (d : DurationInfo) :
    (d.toOpen now).endedBy t.mNested stopAll = t.ends stopAll (d.startCount - 1) := by
  unfold OpenDuration.endedBy ends DurationInfo.toOpen
  dsimp only
  congr 2
  exact propext (by omega)

theorem Follows.stop {stopAll : Bool} {keys : Set HashableDimensionKey} (h : Follows t s)
    (hstopped : Stopped t t' s.now stopAll keys)
    (hkeeps : ∀ k ∈ keys, ∀ d, t.mInfos.lookup k = some d → t.ends stopAll (d.startCount - 1) = false → d.lastDuration ≤ t.mDuration) :
    Follows t' (s.stop t.mNested stopAll keys) := by
  refine ⟨?_, ?_, ?_, ?_, ?_⟩
  · intro k
    unfold Durations.stop
    dsimp only
    split
    · rename_i hk
      rw [hstopped.inside k hk, h.opened]
      cases hd : t.mInfos.lookup k with
      | none => rfl
      | some d =>
        have hspec := stopDuration_spec t s.now stopAll (h.live k d hd)
        rw [Option.map_some, Option.bind_some, Option.bind_some, endedBy_toOpen]
        split
        · rename_i hends
          rw [if_pos hends] at hspec
          rw [hspec.1]
          rfl
        · rename_i hends
          rw [if_neg hends] at hspec
          rw [hspec.1]
          rfl
    · rename_i hk
      rw [hstopped.outside k hk, h.opened]
  · intro k d' hd'
    by_cases hk : k ∈ keys
    · rw [hstopped.inside k hk] at hd'
      obtain ⟨d, hd, hafter⟩ := Option.bind_eq_some_iff.1 hd'
      have hspec := stopDuration_spec t s.now stopAll (h.live k d hd)
      split at hspec
      · rw [hspec.1] at hafter
        cases hafter
      · rename_i hends
        rw [hspec.1] at hafter
        cases hafter
        refine ⟨(h.live k d hd).state, ?_⟩
        unfold ends at hends
        simp only [Bool.or_eq_true, decide_eq_true_eq, not_or] at hends
        dsimp only
        omega
    · rw [hstopped.outside k hk] at hd'
      exact h.live k d' hd'
  · exact le_trans h.longest.nonneg hstopped.grows
  · rintro x (hx | ⟨k, hk, d, hd, hends, rfl⟩)
    · exact le_trans (h.longest.upper x hx) hstopped.grows
    · rw [h.opened] at hd
      obtain ⟨info, hinfo, rfl⟩ := Option.map_eq_some_iff.1 hd
      rw [endedBy_toOpen] at hends
      have hspec := stopDuration_spec t s.now stopAll (h.live k info hinfo)
      rw [if_pos hends] at hspec
      rw [← hspec.2]
      exact hstopped.covers k hk info hinfo
  · have hbefore : t.mDuration = 0 ∨ ∃ d ∈ (s.stop t.mNested stopAll keys).ended, d.unpaused = t.mDuration := by
      rcases h.longest.reached with h0 | ⟨x, hx, hmax⟩
      · exact .inl h0
      · exact .inr ⟨x, .inl hx, hmax⟩
    rcases hstopped.reached with heq | ⟨k, hk, d, hd, heq⟩
    · rwa [heq]
    · have hspec := stopDuration_spec t s.now stopAll (h.live k d hd)
      split at hspec
      · rename_i hends
        refine .inr ⟨⟨s.now, (d.toOpen s.now).unpaused⟩, .inr ⟨k, hk, d.toOpen s.now, ?_, ?_, rfl⟩, ?_⟩
        · rw [h.opened, hd]
          rfl
        · rw [endedBy_toOpen]
          exact hends
        · rw [heq, hspec.2]
      · -- a duration that stays open does not raise the maximum
        rename_i hends
        have hle := hkeeps k hk d hd (by simpa using hends)
        have hgrows := hstopped.grows
        have heq' : t'.mDuration = t.mDuration := by
          rw [heq, hspec.2] at hgrows ⊢
          omega
        rwa [heq']

/-! ## Flushes -/

/-- What a flush emits. -/
def report (t : MaxDurationTracker) (time : Int) : Option DurationBucket :=
  if t.mDuration ≠ 0 then some ⟨t.mCurrentBucketStartTimeNs, Durations.flushEnd t time, t.mDuration⟩ else none

theorem reported_report (h : IsMax s.ended t.mDuration) (time : Int) :
    Reported ⟨t.mCurrentBucketStartTimeNs, Durations.flushEnd t time, s.ended⟩ (report t time) := by
  have h0 := h.nonneg
  unfold report
  split
  · rename_i hne
    refine ⟨rfl, rfl, by dsimp only; omega, ?_, ?_⟩
    · rcases h.reached with hzero | ⟨d, hd, heq⟩
      · exact absurd hzero hne
      · exact ⟨d, hd, heq⟩
    · rintro _ ⟨d, hd, rfl⟩
      exact h.upper d hd
  · rename_i hzero
    intro d hd
    have := h.upper d hd
    omega

theorem flushCurrentBucket_spec (hlive : ∀ k d, t.mInfos.lookup k = some d → d.Open) (time : Int)
    (output : PastBuckets) :
    let r := t.flushCurrentBucket time output
    (∀ k, r.1.mInfos.lookup k = t.mInfos.lookup k) ∧ r.1.mDuration = 0 ∧
      UMap.getD r.2.1 t.mEventKey [] = UMap.getD output t.mEventKey [] ++ (report t time).toList ∧
      r.1.mEventKey = t.mEventKey := by
  have hend : (if time ≥ t.getCurrentBucketEndTimeNs then t.getCurrentBucketEndTimeNs else time) = Durations.flushEnd t time := by
    unfold Durations.flushEnd
    split
    · rename_i h
      exact (min_eq_right h).symm
    · rename_i h
      exact (min_eq_left (le_of_lt (not_le.1 h))).symm
  unfold flushCurrentBucket report
  dsimp only
  rw [hend]
  refine ⟨?_, rfl, ?_, ?_⟩
  · intro k
    rw [UMap.lookup_filterVal]
    cases hd : t.mInfos.lookup k with
    | none => rfl
    | some d =>
      rw [Option.filter_some, if_pos]
      exact decide_eq_true (hlive k d hd).state
  · split
    · unfold UMap.push
      rw [UMap.getD_insert, if_pos rfl]
      rfl
    · simp
  · split_ifs <;> rfl

/-! ## Steps and runs -/

/-- The tracker of the key follows the durations, and its buckets are the reports of the closed ones. -/
structure MaxTracked.Inv (key : MetricDimensionKey) (x : MaxTracked) : Prop where
  follows : Follows x.tracker x.durations
  eventKey : x.tracker.mEventKey = key
  reports : ∃ reports, List.Forall₂ Reported x.durations.closed reports ∧ UMap.getD x.output key [] = reports.reduceOption

theorem MaxTracked.Inv.flush {key : MetricDimensionKey} {output : PastBuckets}
    (h : MaxTracked.Inv key ⟨t, output, s⟩) :
    MaxTracked.Inv key ⟨(t.flushCurrentBucket s.now output).1, (t.flushCurrentBucket s.now output).2.1,
      s.close t.mCurrentBucketStartTimeNs (Durations.flushEnd t s.now)⟩ := by
  obtain ⟨hfollows, hkey, reports, hreports, houtput⟩ := h
  dsimp only at hfollows hkey hreports houtput
  obtain ⟨hlookup, hduration, hpush, heventKey⟩ := flushCurrentBucket_spec hfollows.live s.now output
  rw [hkey] at hpush
  refine ⟨⟨?_, ?_, ?_, ?_, ?_⟩, heventKey.trans hkey, reports ++ [report t s.now], ?_, ?_⟩
  · intro k
    dsimp only
    rw [hlookup]
    exact hfollows.opened k
  · intro k d hd
    dsimp only at hd
    rw [hlookup] at hd
    exact hfollows.live k d hd
  · dsimp only
    rw [hduration]
  · intro d hd
    exact absurd hd (Set.notMem_empty d)
  · exact .inl hduration
  · exact List.rel_append hreports (.cons (reported_report hfollows.longest s.now) .nil)
  · rw [← List.concat_eq_append, List.reduceOption_concat, ← houtput]
    exact hpush

theorem MaxTracked.Inv.step {key : MetricDimensionKey} {x : MaxTracked} {e : MaxEvent} (h : x.Inv key)
    (hguard : x.BelowGuardRail e) (hkeeps : x.KeepsMax e) : (x.step e).Inv key := by
  obtain ⟨t, output, s⟩ := x
  obtain ⟨time, op⟩ := e
  obtain ⟨hfollows, hkey, hreports⟩ := h
  have hnow := hfollows.tick time
  unfold MaxTracked.step
  cases op with
  | noteStart key' condition conditionKey =>
    obtain ⟨-, -, -, -, -, hsame⟩ := noteStart_spec hguard condition time conditionKey (hfollows.live key')
    exact ⟨hnow.start hguard condition conditionKey, hsame.eventKey.trans hkey, hreports⟩
  | noteStop key' stopAll =>
    refine ⟨hnow.stop (stopped_noteStop t key' time stopAll) ?_, (sameBucket_noteStop t key' time stopAll).eventKey.trans hkey, hreports⟩
    rintro k rfl d hd hends
    exact hkeeps d hd hends
  | noteStopAll =>
    refine ⟨hnow.stop (stopped_noteStopAll t time) ?_, (sameBucket_noteStopAll t time).eventKey.trans hkey, hreports⟩
    -- a forced stop ends every duration
    intro k _ d _ hends
    cases hends
  | onConditionChanged condition =>
    obtain ⟨hlookup, hduration, hsame⟩ := onConditionChanged_spec t condition time
    have hheld : Follows (t.onConditionChanged condition time) ((s.tick time).hold fun _ => condition) := hnow.hold hlookup hduration
    exact ⟨hheld, hsame.eventKey.trans hkey, hreports⟩
  | onSlicedConditionMayChange query =>
    obtain ⟨hlookup, hduration, hsame⟩ := onSlicedConditionMayChange_spec t query time
    have hheld : Follows (t.onSlicedConditionMayChange query time)
        ((s.tick time).hold fun conditionKey => decide (query conditionKey = .kTrue)) := hnow.hold hlookup hduration
    exact ⟨hheld, hsame.eventKey.trans hkey, hreports⟩
  | onStateChanged atomId newState => exact ⟨hnow, hkey, hreports⟩
  | flushIfNeeded =>
    have hnow' : MaxTracked.Inv key ⟨t, output, s.tick time⟩ := ⟨hnow, hkey, hreports⟩
    unfold MaxDurationTracker.apply Durations.apply flushIfNeeded
    dsimp only
    rw [show (s.tick time).now = time from rfl]
    split
    · exact hnow'
    · exact hnow'.flush
  | flushCurrentBucket =>
    have hnow' : MaxTracked.Inv key ⟨t, output, s.tick time⟩ := ⟨hnow, hkey, hreports⟩
    exact hnow'.flush

/-! ## The times of the durations -/

/-- The durations of the current bucket ended in it, and those of a closed bucket between its ends. -/
structure MaxTracked.InBounds (x : MaxTracked) : Prop where
  size : 0 < x.tracker.mBucketSizeNs
  start : x.tracker.mCurrentBucketStartTimeNs ≤ x.durations.now
  current : ∀ d ∈ x.durations.ended, x.tracker.mCurrentBucketStartTimeNs ≤ d.time ∧ d.time ≤ x.durations.now ∧
    d.time < x.tracker.getCurrentBucketEndTimeNs
  closed : ∀ c ∈ x.durations.closed, ∀ d ∈ c.ended, c.start ≤ d.time ∧ d.time ≤ c.stop

theorem MaxTracked.InBounds.tick {output : PastBuckets} (h : InBounds ⟨t, output, s⟩) {time : Int}
    (htime : s.now ≤ time) : InBounds ⟨t, output, s.tick time⟩ := by
  refine ⟨h.size, le_trans h.start htime, ?_, h.closed⟩
  intro d hd
  obtain ⟨h1, h2, h3⟩ := h.current d hd
  exact ⟨h1, le_trans h2 htime, h3⟩

theorem MaxTracked.InBounds.same {s s' : Durations}
    (h : InBounds ⟨t, output, s⟩) (hsame : SameBucket t t') (hnow : s'.now = s.now) (hended : s'.ended = s.ended)
    (hclosed : s'.closed = s.closed) : InBounds ⟨t', output', s'⟩ := by
  refine ⟨?_, ?_, ?_, ?_⟩
  · dsimp only
    rw [hsame.size]
    exact h.size
  · dsimp only
    rw [hsame.start, hnow]
    exact h.start
  · dsimp only
    rw [hsame.start, hsame.bucketEnd, hnow, hended]
    exact h.current
  · dsimp only
    rw [hclosed]
    exact h.closed

theorem MaxTracked.InBounds.stop (h : InBounds ⟨t, output, s⟩)
    (hsame : SameBucket t t') (stopAll : Bool) (keys : Set HashableDimensionKey) (hnow : s.now < t.getCurrentBucketEndTimeNs) :
    InBounds ⟨t', output', s.stop t.mNested stopAll keys⟩ := by
  refine ⟨?_, ?_, ?_, h.closed⟩
  · dsimp only
    rw [hsame.size]
    exact h.size
  · dsimp only
    rw [hsame.start]
    exact h.start
  · dsimp only
    rw [hsame.start, hsame.bucketEnd]
    rintro d (hd | ⟨k, -, d', -, -, rfl⟩)
    · exact h.current d hd
    · exact ⟨h.start, le_refl _, hnow⟩

theorem flushCurrentBucket_start (hsize : 0 < t.mBucketSizeNs) (time : Int) (output : PastBuckets) :
    (t.flushCurrentBucket time output).1.mBucketSizeNs = t.mBucketSizeNs ∧
      (t.flushCurrentBucket time output).1.mCurrentBucketStartTimeNs ≤ time := by
  unfold flushCurrentBucket
  dsimp only
  by_cases hlate : time ≥ t.getCurrentBucketEndTimeNs
  · obtain ⟨hpos, hstart, -⟩ := Grid.stepsAfter_bounds hsize hlate
    unfold Grid.stepsAfter at hpos hstart
    simp only [if_pos hlate]
    rw [if_pos hpos]
    exact ⟨rfl, hstart⟩
  · simp only [if_neg hlate]
    exact ⟨rfl, le_refl time⟩

theorem MaxTracked.InBounds.flush (h : InBounds ⟨t, output, s⟩) :
    InBounds ⟨(t.flushCurrentBucket s.now output).1, output', s.close t.mCurrentBucketStartTimeNs (Durations.flushEnd t s.now)⟩ := by
  obtain ⟨hsize, hstart⟩ := flushCurrentBucket_start h.size s.now output
  refine ⟨?_, hstart, ?_, ?_⟩
  · dsimp only
    rw [hsize]
    exact h.size
  · intro d hd
    exact absurd hd (Set.notMem_empty d)
  · intro c hc d hd
    rcases List.mem_append.1 hc with hc | hc
    · exact h.closed c hc d hd
    · rw [List.mem_singleton.1 hc] at hd ⊢
      obtain ⟨h1, h2, h3⟩ := h.current d hd
      exact ⟨h1, le_min h2 (le_of_lt h3)⟩

theorem MaxTracked.InBounds.step {x : MaxTracked} {e : MaxEvent} (h : x.InBounds) (hguard : x.BelowGuardRail e) (htime : x.InTime e)
    (hlive : ∀ k d, x.tracker.mInfos.lookup k = some d → d.Open) : (x.step e).InBounds := by
  obtain ⟨t, output, s⟩ := x
  obtain ⟨time, op⟩ := e
  obtain ⟨hle, hbefore⟩ := htime
  have hnow : MaxTracked.InBounds ⟨t, output, s.tick time⟩ := h.tick hle
  cases op with
  | noteStart key condition conditionKey =>
    obtain ⟨-, -, -, -, -, hsame⟩ := noteStart_spec hguard condition time conditionKey (hlive key)
    exact hnow.same hsame rfl rfl rfl
  | noteStop key stopAll => exact hnow.stop (sameBucket_noteStop t key time stopAll) stopAll {key} hbefore
  | noteStopAll => exact hnow.stop (sameBucket_noteStopAll t time) true Set.univ hbefore
  | onConditionChanged condition => exact hnow.same (onConditionChanged_spec t condition time).2.2 rfl rfl rfl
  | onSlicedConditionMayChange query => exact hnow.same (onSlicedConditionMayChange_spec t query time).2.2 rfl rfl rfl
  | onStateChanged atomId newState => exact hnow
  | flushIfNeeded =>
    unfold MaxTracked.step MaxDurationTracker.apply Durations.apply flushIfNeeded
    dsimp only
    rw [show (s.tick time).now = time from rfl]
    split
    · exact hnow
    · exact hnow.flush
  | flushCurrentBucket => exact hnow.flush

/-- The tracker before any call. -/
def MaxTracked.new (eventKey : MetricDimensionKey) (nesting : Bool) (currentBucketStartNs currentBucketNum startTimeNs bucketSizeNs : Int)
    (conditionSliced : Bool) (now : Int) : MaxTracked where
  tracker := .new eventKey nesting currentBucketStartNs currentBucketNum startTimeNs bucketSizeNs conditionSliced
  output := ∅
  durations := ⟨now, fun _ => none, ∅, []⟩

theorem inv_new (eventKey : MetricDimensionKey) (nesting : Bool) (currentBucketStartNs currentBucketNum startTimeNs bucketSizeNs : Int)
    (conditionSliced : Bool) (now : Int) :
    (MaxTracked.new eventKey nesting currentBucketStartNs currentBucketNum startTimeNs bucketSizeNs conditionSliced now).Inv eventKey := by
  refine ⟨⟨fun k => rfl, ?_, le_refl 0, ?_, .inl rfl⟩, rfl, [], .nil, rfl⟩
  · intro k d hd
    cases hd
  · intro d hd
    exact absurd hd (Set.notMem_empty d)

end Metrics

end Statsd
