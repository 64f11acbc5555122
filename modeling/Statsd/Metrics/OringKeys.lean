/-
The keys of an OR-duration tracker one by one. What the tracker keeps for a key is its count among the started keys, that among the
paused ones and its condition key. Every operation does one thing to the entry of each key, whatever the other keys are, and flushes
leave all entries alone.

An entry holds the count of `n` starts when it has it on one side and nothing on the other. The moves between the two sides keep
that, and so does a start unless it goes to the side where the key is not.
-/
import Statsd.Metrics.OringAccounting

namespace Statsd

namespace UMap

variable {K V : Type} [DecidableEq K]

theorem lookup_insertAll (m : UMap K V) (l : List (Sigma fun _ : K => V)) (k : K) :
    (m.insertAll l).lookup k = (m.lookup k).or (l.dlookup k) := by
  unfold insertAll
  induction l generalizing m with
  | nil => simp
  | cons it l ih =>
    rw [List.foldl_cons, ih, lookup_emplace]
    by_cases hk : k = it.1
    · subst hk
      rw [List.dlookup_cons_eq]
      cases hm : m.lookup it.1 with
      | none => simp
      | some v => simp
    · rw [List.dlookup_cons_ne _ _ hk, if_neg fun h => hk h.1]

theorem lookup_eraseAll (m : UMap K V) (l : List (Sigma fun _ : K => V)) (k : K) :
    (m.eraseAll l).lookup k = if (l.dlookup k).isSome then none else m.lookup k := by
  unfold eraseAll
  induction l generalizing m with
  | nil => simp
  | cons it l ih =>
    rw [List.foldl_cons, ih, lookup_erase']
    by_cases hk : k = it.1
    · subst hk
      rw [List.dlookup_cons_eq]
      simp
    · rw [List.dlookup_cons_ne _ _ hk, if_neg hk]

theorem dlookup_filter_keys (m : UMap K V) (p : K → Bool) (k : K) :
    (m.entries.filter fun it => p it.1).dlookup k = if p k then m.lookup k else none := by
  have hnodup : (m.entries.filter fun it => p it.1).NodupKeys := m.nodupKeys.sublist List.filter_sublist
  ext v
  rw [← Option.mem_def, List.mem_dlookup_iff hnodup, List.mem_filter]
  split
  · rename_i hp
    rw [← Option.mem_def, AList.mem_lookup_iff]
    exact and_iff_left hp
  · rename_i hp
    exact iff_of_false (fun h => hp h.2) (by simp)

theorem eq_empty_of_lookup {m : UMap K V} (h : ∀ k, m.lookup k = none) : m = ∅ := by
  refine AList.ext (List.eq_nil_iff_forall_not_mem.2 fun it hit => ?_)
  have := AList.mem_lookup_iff.2 hit
  rw [h] at this
  cases this

theorem isEmpty_iff_lookup (m : UMap K V) : m.entries.isEmpty = true ↔ ∀ k, m.lookup k = none := by
  constructor
  · intro h k
    rw [eq_empty_of_isEmpty h]
    exact AList.lookup_empty k
  · intro h
    rw [eq_empty_of_lookup h]
    rfl

end UMap

namespace Metrics

/-- What a tracker keeps for a key: its counts, and the key to query its condition with. -/
structure KeyEntry where
  started : Option Int := none
  paused : Option Int := none
  conditionKey : Option ConditionKey := none

namespace KeyEntry

def start (e : KeyEntry) (conditionSliced condition : Bool) (conditionKey : ConditionKey) : KeyEntry where
  started := if condition then some (e.started.getD 0 + 1) else e.started
  paused := if condition then e.paused else some (e.paused.getD 0 + 1)
  conditionKey := if conditionSliced && e.conditionKey.isNone then some conditionKey else e.conditionKey

/-- A count after a stop. -/
def stopCount (nested : Bool) (count : Int) : Option Int := if nested && decide (0 < count - 1) then some (count - 1) else none

/-- A stop ends the key on this side. -/
def ends (nested : Bool) (count : Option Int) : Bool := count.isSome && (count.bind (stopCount nested)).isNone

def stop (e : KeyEntry) (nested : Bool) : KeyEntry where
  started := e.started.bind (stopCount nested)
  paused := e.paused.bind (stopCount nested)
  conditionKey := if ends nested e.started || ends nested e.paused then none else e.conditionKey

/-- The key goes to the side of its condition, unless it is there already. -/
def move (e : KeyEntry) (condition : Bool) : KeyEntry :=
  if condition then { e with started := e.started.or e.paused, paused := none }
  else { e with started := none, paused := e.paused.or e.started }

/-- The condition of the key is asked for. -/
def requery (e : KeyEntry) (query : ConditionKey → ConditionState) : KeyEntry :=
  match e.conditionKey with
  | none => e
  | some conditionKey => e.move (decide (query conditionKey = .kTrue))

/-- The count that stands for `n` starts. -/
def stored (n : Nat) : Option Int := if n = 0 then none else some n

/-- The reference counter of a key after a stop. -/
def countStop (nested : Bool) (n : Nat) : Nat := if nested then n - 1 else 0

theorem stored_bind_stopCount (nested : Bool) (n : Nat) : (stored n).bind (stopCount nested) = stored (countStop nested n) := by
  cases nested with
  | false => cases n <;> rfl
  | true =>
    match n with
    | 0 => rfl
    | 1 => rfl
    | n + 2 =>
      have hlow : (0 : Int) < ((n + 2 : Nat) : Int) - 1 := by omega
      have hsub : ((n + 2 : Nat) : Int) - 1 = ((n + 1 : Nat) : Int) := by omega
      rw [show stored (n + 2) = some ((n + 2 : Nat) : Int) from rfl, Option.bind_some, stopCount, decide_eq_true hlow, hsub]
      rfl

theorem stored_getD_add_one (n : Nat) : some ((stored n).getD 0 + 1) = stored (n + 1) := by
  unfold stored
  cases n with
  | zero => rfl
  | succ n => simp

variable {e : KeyEntry} {n : Nat}

theorem stored_isSome : (stored n).isSome = true ↔ n ≠ 0 := by
  unfold stored
  cases n <;> simp

/-- The entry has the count of `n` starts on one side, and nothing on the other. -/
inductive Holds (e : KeyEntry) (n : Nat) : Prop where
  | started (hs : e.started = stored n) (hp : e.paused = none)
  | paused (hs : e.started = none) (hp : e.paused = stored n)

theorem Holds.disjoint (h : e.Holds n) : e.started = none ∨ e.paused = none := by
  cases h with
  | started _ hp => exact .inr hp
  | paused hs _ => exact .inl hs

theorem Holds.count (h : e.Holds n) : e.started.or e.paused = stored n := by
  cases h with
  | started hs hp => rw [hs, hp, Option.or_none]
  | paused hs hp => rw [hs, hp, Option.none_or]

theorem Holds.absent (h : e.Holds n) : n = 0 ↔ e.started = none ∧ e.paused = none := by
  have hzero : stored n = none ↔ n = 0 := by unfold stored; cases n <;> simp
  cases h with
  | started hs hp => rw [hs, hp, hzero]; simp
  | paused hs hp => rw [hs, hp, hzero]; simp

/-- The key is not on the other side than its condition says. -/
def OnSide (e : KeyEntry) (condition : Bool) : Prop := if condition then e.paused = none else e.started = none

theorem Holds.start (h : e.Holds n) (conditionSliced : Bool) {condition : Bool}
    (hside : e.OnSide condition) (conditionKey : ConditionKey) : (e.start conditionSliced condition conditionKey).Holds (n + 1) := by
  cases condition with
  | true =>
    have hp : e.paused = none := hside
    refine .started ?_ hp
    have := h.count
    rw [hp, Option.or_none] at this
    rw [← stored_getD_add_one, ← this]
    rfl
  | false =>
    have hs : e.started = none := hside
    refine .paused hs ?_
    have := h.count
    rw [hs, Option.none_or] at this
    rw [← stored_getD_add_one, ← this]
    rfl

theorem Holds.stop (h : e.Holds n) (nested : Bool) : (e.stop nested).Holds (countStop nested n) := by
  rcases h with ⟨hs, hp⟩ | ⟨hs, hp⟩
  · refine .started ?_ ?_
    · show e.started.bind _ = _
      rw [hs, stored_bind_stopCount]
    · show e.paused.bind _ = _
      rw [hp]
      rfl
  · refine .paused ?_ ?_
    · show e.started.bind _ = _
      rw [hs]
      rfl
    · show e.paused.bind _ = _
      rw [hp, stored_bind_stopCount]

theorem Holds.move (h : e.Holds n) (condition : Bool) : (e.move condition).Holds n := by
  cases condition with
  | true => exact .started h.count rfl
  | false =>
    refine .paused rfl ?_
    show e.paused.or e.started = _
    rcases h with ⟨hs, hp⟩ | ⟨hs, hp⟩
    · rw [hs, hp, Option.none_or]
    · rw [hs, hp, Option.or_none]

theorem move_onSide (e : KeyEntry) (condition : Bool) : (e.move condition).OnSide condition := by
  cases condition with
  | true => rfl
  | false => rfl

@[simp] theorem move_conditionKey (e : KeyEntry) (condition : Bool) : (e.move condition).conditionKey = e.conditionKey := by
  cases condition <;> rfl

theorem Holds.requery (h : e.Holds n) (query : ConditionKey → ConditionState) :
    (e.requery query).Holds n := by
  unfold KeyEntry.requery
  split
  · exact h
  · exact h.move _

theorem requery_conditionKey (e : KeyEntry) (query : ConditionKey → ConditionState) :
    (e.requery query).conditionKey = e.conditionKey := by
  unfold requery
  split
  · rfl
  · exact move_conditionKey e _

theorem start_split {condition : Bool} (hside : ¬ e.OnSide condition) (conditionSliced : Bool)
    (conditionKey : ConditionKey) :
    ¬ ((e.start conditionSliced condition conditionKey).started = none ∨
      (e.start conditionSliced condition conditionKey).paused = none) := by
  cases condition with
  | true =>
    rintro (h | h)
    · cases h
    · exact hside h
  | false =>
    rintro (h | h)
    · exact hside h
    · cases h

end KeyEntry

namespace OringDurationTracker

/-- The entry of a key. -/
def entry (t : OringDurationTracker) (key : HashableDimensionKey) : KeyEntry :=
  ⟨t.mStarted.lookup key, t.mPaused.lookup key, t.mConditionKeyMap.lookup key⟩

/-- The keys of a tracker after an operation. -/
structure KeysSpec (t t' : OringDurationTracker) (entry' : HashableDimensionKey → KeyEntry) : Prop where
  nested : t'.mNested = t.mNested
  sliced : t'.mConditionSliced = t.mConditionSliced
  entry : ∀ key, t'.entry key = entry' key

/-- The operation leaves the keys alone. -/
abbrev SameKeys (t t' : OringDurationTracker) : Prop := KeysSpec t t' t.entry

variable (t : OringDurationTracker)

theorem SameKeys.refl : SameKeys t t := ⟨rfl, rfl, fun _ => rfl⟩

theorem KeysSpec.andThen {t t' t'' : OringDurationTracker} {entry' : HashableDimensionKey → KeyEntry}
    (h : KeysSpec t t' entry') (h' : SameKeys t' t'') : KeysSpec t t'' entry' :=
  ⟨h'.nested.trans h.nested, h'.sliced.trans h.sliced, fun key => (h'.entry key).trans (h.entry key)⟩

theorem stopAlarmIfStopped_sameKeys (now : Int) : SameKeys t (t.stopAlarmIfStopped now) := by
  unfold stopAlarmIfStopped
  split
  · exact ⟨rfl, rfl, fun _ => rfl⟩
  · exact .refl t

/-! ## Starts and stops -/

theorem hitGuardRail_of_tracked {t : OringDurationTracker} {key : HashableDimensionKey} (h : (t.entry key).conditionKey.isSome) :
    t.hitGuardRail key = false := if_pos h

theorem hitGuardRail_of_empty {t : OringDurationTracker} (h : ∀ key, (t.entry key).conditionKey = none) (key : HashableDimensionKey) :
    t.hitGuardRail key = false := by
  have hempty : t.mConditionKeyMap = ∅ := UMap.eq_empty_of_lookup h
  unfold hitGuardRail
  rw [hempty]
  rfl

theorem noteStart_keys {t : OringDurationTracker} {key : HashableDimensionKey} (hrail : t.hitGuardRail key = false)
    (condition : Bool) (now : Int) (conditionKey : ConditionKey) :
    KeysSpec t (t.noteStart key condition now conditionKey)
      fun k => if k = key then (t.entry key).start t.mConditionSliced condition conditionKey else t.entry k := by
  -- the counts first, then the condition key
  have hcounts : ∃ t1 : OringDurationTracker, t.noteStart key condition now conditionKey =
      (if t1.mConditionSliced && (t1.mConditionKeyMap.lookup key).isNone then
        { t1 with mConditionKeyMap := t1.mConditionKeyMap.insert key conditionKey } else t1) ∧
      t1.mNested = t.mNested ∧ t1.mConditionSliced = t.mConditionSliced ∧ t1.mConditionKeyMap = t.mConditionKeyMap ∧
      t1.mStarted = (if condition then increment t.mStarted key else t.mStarted) ∧
      t1.mPaused = if condition then t.mPaused else increment t.mPaused key := by
    unfold noteStart
    rw [hrail]
    cases condition with
    | false => exact ⟨{ t with mPaused := increment t.mPaused key }, rfl, rfl, rfl, rfl, rfl, rfl⟩
    | true =>
      simp only [Bool.false_eq_true, if_false, if_true]
      split
      · exact ⟨{ ({ t with mLastStartTime := now }.startAnomalyAlarm now) with mStarted := increment t.mStarted key },
          rfl, rfl, rfl, rfl, rfl, rfl⟩
      · exact ⟨{ t with mStarted := increment t.mStarted key }, rfl, rfl, rfl, rfl, rfl, rfl⟩
  obtain ⟨t1, heq, hnested, hsliced, hkeys, hstarted, hpaused⟩ := hcounts
  rw [heq]
  refine ⟨?_, ?_, fun k => ?_⟩
  · split
    · exact hnested
    · exact hnested
  · split
    · exact hsliced
    · exact hsliced
  · have hlook : ∀ (m : UMap HashableDimensionKey Int) k, (increment m key).lookup k =
        if k = key then some ((m.lookup key).getD 0 + 1) else m.lookup k := fun m k => UMap.lookup_insert' m key k _
    have hentry : (if t1.mConditionSliced && (t1.mConditionKeyMap.lookup key).isNone then
        { t1 with mConditionKeyMap := t1.mConditionKeyMap.insert key conditionKey } else t1).entry k =
        ⟨t1.mStarted.lookup k, t1.mPaused.lookup k,
          if k = key ∧ (t1.mConditionSliced && (t1.mConditionKeyMap.lookup key).isNone) then some conditionKey
          else t1.mConditionKeyMap.lookup k⟩ := by
      unfold entry
      split
      · rename_i h
        dsimp only
        rw [UMap.lookup_insert']
        simp only [h, and_true]
      · rename_i h
        simp only [h, Bool.false_eq_true, and_false, if_false]
    rw [hentry, hsliced, hkeys, hstarted, hpaused]
    unfold entry KeyEntry.start
    by_cases hk : k = key
    · subst hk
      cases condition with
      | false => simp [hlook]
      | true => simp [hlook]
    · cases condition with
      | false => simp [hlook, hk]
      | true => simp [hlook, hk]

theorem decrement_spec (nested : Bool) (counts : UMap HashableDimensionKey Int) {key : HashableDimensionKey} {count : Int}
    (h : counts.lookup key = some count) :
    (decrement nested false counts key count).2 = KeyEntry.ends nested (counts.lookup key) ∧
      ∀ k, (decrement nested false counts key count).1.lookup k =
        if k = key then (counts.lookup key).bind (KeyEntry.stopCount nested) else counts.lookup k := by
  have hstop : KeyEntry.stopCount nested count = if !nested || decide (count - 1 ≤ 0) then none else some (count - 1) := by
    unfold KeyEntry.stopCount
    cases nested with
    | false => rfl
    | true =>
      by_cases hlow : count - 1 ≤ 0
      · rw [decide_eq_true hlow, decide_eq_false (not_lt.2 hlow)]
        rfl
      · rw [decide_eq_false hlow, decide_eq_true (not_le.1 hlow)]
        rfl
  unfold KeyEntry.ends decrement
  rw [h]
  simp only [Bool.false_or, Option.isSome_some, Bool.true_and, Option.bind_some, hstop]
  split
  · exact ⟨rfl, fun k => UMap.lookup_erase' counts key k⟩
  · exact ⟨rfl, fun k => UMap.lookup_insert' counts key k (count - 1)⟩

theorem dropConditionKey_entry (key : HashableDimensionKey) (gone : Bool) (k : HashableDimensionKey) :
    (t.dropConditionKey key gone).entry k =
      if k = key then { t.entry k with conditionKey := if gone then none else (t.entry k).conditionKey } else t.entry k := by
  unfold dropConditionKey entry
  cases gone with
  | false => simp
  | true =>
    simp only [if_true, UMap.lookup_erase']
    split
    · rfl
    · rfl

theorem stopStarted_keys (key : HashableDimensionKey) (now : Int) :
    KeysSpec t (t.stopStarted key now false) fun k => if k = key then
      { t.entry key with
        started := (t.entry key).started.bind (KeyEntry.stopCount t.mNested)
        conditionKey := if KeyEntry.ends t.mNested (t.entry key).started then none else (t.entry key).conditionKey }
      else t.entry k := by
  unfold stopStarted
  cases hl : t.mStarted.lookup key with
  | none =>
    refine ⟨rfl, rfl, fun k => ?_⟩
    by_cases hk : k = key
    · subst hk
      simp [entry, hl, KeyEntry.ends]
    · rw [if_neg hk]
  | some count =>
    obtain ⟨hgone, hcounts⟩ := decrement_spec t.mNested t.mStarted hl
    dsimp only
    generalize decrement t.mNested false t.mStarted key count = r at hgone hcounts ⊢
    have hdrop : KeysSpec t ({ t with mStarted := r.1 }.dropConditionKey key r.2) fun k => if k = key then
        { t.entry key with
          started := (t.entry key).started.bind (KeyEntry.stopCount t.mNested)
          conditionKey := if KeyEntry.ends t.mNested (t.entry key).started then none else (t.entry key).conditionKey }
        else t.entry k := by
      refine ⟨?_, ?_, fun k => ?_⟩
      · unfold dropConditionKey; split <;> rfl
      · unfold dropConditionKey; split <;> rfl
      · rw [dropConditionKey_entry, hgone]
        unfold entry
        dsimp only
        rw [hcounts]
        split
        · rename_i hk
          rw [hk]
        · rfl
    split
    · exact hdrop.andThen ⟨rfl, rfl, fun _ => rfl⟩
    · exact hdrop

theorem stopPaused_keys (key : HashableDimensionKey) :
    KeysSpec t (t.stopPaused key false) fun k => if k = key then
      { t.entry key with
        paused := (t.entry key).paused.bind (KeyEntry.stopCount t.mNested)
        conditionKey := if KeyEntry.ends t.mNested (t.entry key).paused then none else (t.entry key).conditionKey }
      else t.entry k := by
  unfold stopPaused
  cases hl : t.mPaused.lookup key with
  | none =>
    refine ⟨rfl, rfl, fun k => ?_⟩
    by_cases hk : k = key
    · subst hk
      simp [entry, hl, KeyEntry.ends]
    · rw [if_neg hk]
  | some count =>
    obtain ⟨hgone, hcounts⟩ := decrement_spec t.mNested t.mPaused hl
    dsimp only
    generalize decrement t.mNested false t.mPaused key count = r at hgone hcounts ⊢
    refine ⟨?_, ?_, fun k => ?_⟩
    · unfold dropConditionKey; split <;> rfl
    · unfold dropConditionKey; split <;> rfl
    · rw [dropConditionKey_entry, hgone]
      unfold entry
      dsimp only
      rw [hcounts]
      split
      · rename_i hk
        rw [hk]
      · rfl

theorem noteStop_keys (key : HashableDimensionKey) (now : Int) :
    KeysSpec t (t.noteStop key now false) fun k => if k = key then (t.entry key).stop t.mNested else t.entry k := by
  have hstarted := t.stopStarted_keys key now
  have hpaused := (t.stopStarted key now false).stopPaused_keys key
  refine KeysSpec.andThen ⟨hpaused.nested.trans hstarted.nested, hpaused.sliced.trans hstarted.sliced, fun k => ?_⟩
    (stopAlarmIfStopped_sameKeys _ now)
  rw [hpaused.entry, hstarted.nested]
  simp only [hstarted.entry]
  split
  · -- the condition key goes with either side
    unfold KeyEntry.stop
    simp only [if_true, KeyEntry.mk.injEq, true_and]
    cases KeyEntry.ends t.mNested (t.entry key).started with
    | false => simp
    | true => simp
  · rfl

theorem noteStopAll_keys (now : Int) : KeysSpec t (t.noteStopAll now) fun _ => {} := by
  unfold noteStopAll
  dsimp only
  refine ⟨?_, ?_, fun k => rfl⟩
  · split <;> rfl
  · split <;> rfl

/-! ## Moves -/

theorem onConditionChanged_keys (condition : Bool) (now : Int) :
    KeysSpec t (t.onConditionChanged condition now) fun key => (t.entry key).move condition := by
  unfold onConditionChanged
  refine KeysSpec.andThen ?_ (stopAlarmIfStopped_sameKeys _ now)
  cases condition with
  | true =>
    simp only [if_true]
    cases hempty : t.mPaused.entries.isEmpty with
    | true =>
      refine ⟨rfl, rfl, fun key => ?_⟩
      have hnone := (UMap.isEmpty_iff_lookup _).1 hempty key
      simp [entry, KeyEntry.move, hnone]
    | false =>
      simp only [Bool.false_eq_true, if_false]
      have hentry : ∀ key, (t.entry key).move true = ⟨(t.mStarted.insertAll t.mPaused.entries).lookup key, none,
          t.mConditionKeyMap.lookup key⟩ := by
        intro key
        rw [UMap.lookup_insertAll]
        rfl
      split
      · exact ⟨rfl, rfl, fun key => (hentry key).symm⟩
      · exact ⟨rfl, rfl, fun key => (hentry key).symm⟩
  | false =>
    simp only [Bool.false_eq_true, if_false]
    cases hempty : t.mStarted.entries.isEmpty with
    | true =>
      refine ⟨rfl, rfl, fun key => ?_⟩
      have hnone := (UMap.isEmpty_iff_lookup _).1 hempty key
      simp [entry, KeyEntry.move, hnone]
    | false =>
      simp only [Bool.false_eq_true, if_false]
      refine ⟨rfl, rfl, fun key => ?_⟩
      have hentry : (t.entry key).move false = ⟨none, (t.mPaused.insertAll t.mStarted.entries).lookup key,
          t.mConditionKeyMap.lookup key⟩ := by
        rw [UMap.lookup_insertAll]
        rfl
      rw [hentry]
      rfl

theorem answered_dlookup (keys : UMap HashableDimensionKey Int) (moves : ConditionKey → Bool)
    (key : HashableDimensionKey) : (t.answered keys moves).dlookup key =
      match (t.entry key).conditionKey with
      | none => none
      | some conditionKey => if moves conditionKey then keys.lookup key else none := by
  refine (UMap.dlookup_filter_keys keys (fun k => match t.mConditionKeyMap.lookup k with
    | none => false
    | some conditionKey => moves conditionKey) key).trans ?_
  unfold entry
  dsimp only
  cases t.mConditionKeyMap.lookup key with
  | none => rfl
  | some conditionKey => rfl

theorem onSlicedConditionMayChange_keys (query : ConditionKey → ConditionState) (now : Int) :
    KeysSpec t (t.onSlicedConditionMayChange query now) fun key => (t.entry key).requery query := by
  unfold onSlicedConditionMayChange
  dsimp only
  refine KeysSpec.andThen ?_ (stopAlarmIfStopped_sameKeys _ now)
  have hpause : ∀ l, (t.pauseKeys l now).mNested = t.mNested ∧ (t.pauseKeys l now).mConditionSliced = t.mConditionSliced ∧
      (t.pauseKeys l now).mStarted = t.mStarted.eraseAll l ∧ (t.pauseKeys l now).mPaused = t.mPaused ∧
      (t.pauseKeys l now).mConditionKeyMap = t.mConditionKeyMap := by
    intro l
    unfold pauseKeys
    dsimp only
    split
    · exact ⟨rfl, rfl, rfl, rfl, rfl⟩
    · exact ⟨rfl, rfl, rfl, rfl, rfl⟩
  have hresume : ∀ (t' : OringDurationTracker) l, (t'.resumeKeys l now).mNested = t'.mNested ∧
      (t'.resumeKeys l now).mConditionSliced = t'.mConditionSliced ∧ (t'.resumeKeys l now).mStarted = t'.mStarted ∧
      (t'.resumeKeys l now).mPaused = t'.mPaused.eraseAll l ∧ (t'.resumeKeys l now).mConditionKeyMap = t'.mConditionKeyMap := by
    intro t' l
    unfold resumeKeys
    dsimp only
    split
    · exact ⟨rfl, rfl, rfl, rfl, rfl⟩
    · exact ⟨rfl, rfl, rfl, rfl, rfl⟩
  have hleave := answered_dlookup t t.mStarted fun k => decide (query k ≠ .kTrue)
  have hcome := answered_dlookup t t.mPaused fun k => decide (query k = .kTrue)
  generalize t.answered t.mStarted (fun k => decide (query k ≠ .kTrue)) = startedToPaused at hleave ⊢
  generalize t.answered t.mPaused (fun k => decide (query k = .kTrue)) = pausedToStarted at hcome ⊢
  obtain ⟨hn, hs, hstarted, hpaused, hkeys⟩ := hpause startedToPaused
  obtain ⟨hn', hs', hstarted', hpaused', hkeys'⟩ := hresume (t.pauseKeys startedToPaused now) pausedToStarted
  refine ⟨hn'.trans hn, hs'.trans hs, fun key => ?_⟩
  have hentry : ∀ t' : OringDurationTracker, t'.mStarted = t.mStarted.eraseAll startedToPaused →
      t'.mPaused = t.mPaused.eraseAll pausedToStarted → t'.mConditionKeyMap = t.mConditionKeyMap →
      { t' with mStarted := t'.mStarted.insertAll pausedToStarted
                mPaused := t'.mPaused.insertAll startedToPaused }.entry key = (t.entry key).requery query := by
    intro t' h1 h2 h3
    unfold entry
    dsimp only
    rw [h1, h2, h3, UMap.lookup_insertAll, UMap.lookup_insertAll, UMap.lookup_eraseAll, UMap.lookup_eraseAll, hleave, hcome]
    unfold KeyEntry.requery entry
    dsimp only
    cases t.mConditionKeyMap.lookup key with
    | none => simp
    | some conditionKey =>
      by_cases hq : query conditionKey = .kTrue
      · cases t.mPaused.lookup key with
        | none => simp [hq, KeyEntry.move]
        | some count => simp [hq, KeyEntry.move]
      · cases t.mStarted.lookup key with
        | none => simp [hq, KeyEntry.move]
        | some count => simp [hq, KeyEntry.move]
  exact hentry _ (hstarted'.trans hstarted) (hpaused'.trans (by rw [hpaused])) (hkeys'.trans hkeys)

theorem onStateChanged_keys (now atomId : Int) (newState : Value) :
    SameKeys t (t.onStateChanged now atomId newState) := by
  unfold onStateChanged
  split
  · exact ⟨rfl, rfl, fun _ => rfl⟩
  · exact ⟨rfl, rfl, fun _ => rfl⟩

/-! ## Flushes -/

theorem flushStateKey_keys (e E stop : Int) (x : Flushing) (k : HashableDimensionKey) :
    SameKeys x.1 (flushStateKey e E stop x k).1 := by
  unfold flushStateKey
  dsimp only
  split
  · split
    · exact ⟨rfl, rfl, fun _ => rfl⟩
    · exact ⟨rfl, rfl, fun _ => rfl⟩
  · split
    · exact ⟨rfl, rfl, fun _ => rfl⟩
    · exact ⟨rfl, rfl, fun _ => rfl⟩

theorem foldl_sameKeys {A : Type} {f : Flushing → A → Flushing} (hf : ∀ x a, SameKeys x.1 (f x a).1) (l : List A) (x : Flushing) :
    SameKeys x.1 (l.foldl f x).1 := by
  induction l generalizing x with
  | nil => exact .refl x.1
  | cons a l ih => exact (hf x a).andThen (ih (f x a))

theorem flushCurrentBucket_keys (e : Int) (output : PastBuckets) :
    SameKeys t (t.flushCurrentBucket e output).1 ∧ ((t.flushCurrentBucket e output).2.2 = true ↔
      ∀ key, (t.entry key).started = none ∧ (t.entry key).paused = none) := by
  have hsame : SameKeys t (t.flushCurrentBucket e output).1 := by
    have hrecord : SameKeys t (t.takeRunning e) := by
      unfold takeRunning
      split
      · exact .refl t
      · exact ⟨rfl, rfl, fun _ => rfl⟩
    have hstates : SameKeys t (t.flushStateKeys e output).1 :=
      hrecord.andThen (foldl_sameKeys (flushStateKey_keys e t.getCurrentBucketEndTimeNs (t.closesAt e))
        (t.takeRunning e).mStateKeyDurationMap.keys (t.takeRunning e, output))
    have hskipped : ∀ x : Flushing, SameKeys x.1 (t.flushSkipped e x).1 := by
      intro x
      unfold flushSkipped
      split
      · split
        · exact ⟨rfl, rfl, fun _ => rfl⟩
        · exact .refl x.1
      · exact foldl_sameKeys (f := fillBucket t.getCurrentBucketEndTimeNs) (fun _ _ => ⟨rfl, rfl, fun _ => rfl⟩) _ x
    have hall := hstates.andThen (hskipped _)
    rw [flushCurrentBucket_stages]
    exact ⟨hall.nested, hall.sliced, hall.entry⟩
  refine ⟨hsame, ?_⟩
  have hdone : (t.flushCurrentBucket e output).2.2 = ((t.flushCurrentBucket e output).1.mStarted.entries.isEmpty &&
      (t.flushCurrentBucket e output).1.mPaused.entries.isEmpty) := rfl
  rw [hdone, Bool.and_eq_true, UMap.isEmpty_iff_lookup, UMap.isEmpty_iff_lookup, ← forall_and]
  refine forall_congr' fun key => ?_
  rw [← hsame.entry key]
  rfl

end OringDurationTracker

end Metrics

end Statsd
