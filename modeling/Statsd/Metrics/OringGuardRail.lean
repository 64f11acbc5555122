/-
The guardrail of an OR-duration tracker. It counts the condition keys, which are kept for trackers with a sliced
condition only: a tracker with a sliced condition keeps at most the limit of keys as long as no key is started on one
side while it is on the other, and never drops a start of a key it has; without one nothing is counted.
-/
import Statsd.Metrics.OringKeys
import Statsd.Metrics.OringConservation

namespace Statsd.Metrics

/-! ## The entry of a key -/

namespace KeyEntry

/-- The key is started or paused. -/
def Tracked (e : KeyEntry) : Prop := e.started.isSome = true ∨ e.paused.isSome = true

/-- The key is on both sides. -/
def Both (e : KeyEntry) : Prop := e.started.isSome = true ∧ e.paused.isSome = true

/-- The key is on one side at most, and has a condition key exactly when it is on one. -/
structure Covered (e : KeyEntry) : Prop where
  disjoint : ¬ e.Both
  conditionKey : e.conditionKey.isSome = true ↔ e.Tracked

/-- The key is on no more sides than before. -/
structure NoMore (e e' : KeyEntry) : Prop where
  tracked : e'.Tracked → e.Tracked
  both : e'.Both → e.Both

/-- The key is on the side of its condition. -/
def On (e : KeyEntry) (condition : Bool) : Prop := if condition then e.started.isSome = true else e.paused.isSome = true

theorem noMore_iff {e e' : KeyEntry} : e.NoMore e' ↔ (e'.Tracked → e.Tracked) ∧ (e'.Both → e.Both) :=
  ⟨fun h => ⟨h.tracked, h.both⟩, fun h => ⟨h.1, h.2⟩⟩

variable (e : KeyEntry)

theorem NoMore.refl : e.NoMore e := ⟨id, id⟩

theorem covered_empty : Covered {} := by
  refine ⟨?_, ?_⟩ <;> simp [Both, Tracked]

theorem noMore_empty : e.NoMore {} := by
  refine ⟨?_, ?_⟩ <;> simp [Both, Tracked]

theorem noMore_stop (nested : Bool) : e.NoMore (e.stop nested) := by
  have hbind : ∀ count : Option Int, (count.bind (stopCount nested)).isSome = true → count.isSome = true := by
    intro count h
    cases count with
    | none => exact h
    | some c => rfl
  exact ⟨Or.imp (hbind _) (hbind _), And.imp (hbind _) (hbind _)⟩

theorem noMore_move (condition : Bool) : e.NoMore (e.move condition) := by
  obtain ⟨started, paused, conditionKey⟩ := e
  cases condition with
  | true => cases started <;> cases paused <;> simp [move, Tracked, Both, noMore_iff]
  | false => cases started <;> cases paused <;> simp [move, Tracked, Both, noMore_iff]

theorem noMore_requery (query : ConditionKey → ConditionState) : e.NoMore (e.requery query) := by
  unfold requery
  split
  · exact .refl e
  · exact noMore_move e _

theorem Covered.move {e : KeyEntry} (h : e.Covered) (condition : Bool) : (e.move condition).Covered := by
  refine ⟨fun hboth => h.disjoint ((noMore_move e condition).both hboth), ?_⟩
  rw [move_conditionKey, h.conditionKey]
  cases condition with
  | true => simp [KeyEntry.move, Tracked, Option.isSome_or]
  | false => simp [KeyEntry.move, Tracked, Option.isSome_or, or_comm]

theorem Covered.requery {e : KeyEntry} (h : e.Covered) (query : ConditionKey → ConditionState) : (e.requery query).Covered := by
  unfold KeyEntry.requery
  split
  · exact h
  · exact h.move _

theorem Covered.stop {e : KeyEntry} (h : e.Covered) (nested : Bool) : (e.stop nested).Covered := by
  refine ⟨fun hboth => h.disjoint ((noMore_stop e nested).both hboth), ?_⟩
  obtain ⟨hdisjoint, hkey⟩ := h
  obtain ⟨started, paused, conditionKey⟩ := e
  cases started with
  | none =>
    cases paused with
    | none => simpa [KeyEntry.stop, Tracked, ends] using hkey
    | some count =>
      simp only [Tracked, Option.isSome_none, Option.isSome_some, Bool.false_eq_true, false_or, iff_true] at hkey
      cases hcount : stopCount nested count <;> simp [KeyEntry.stop, Tracked, ends, hcount, hkey]
  | some count =>
    cases paused with
    | none =>
      simp only [Tracked, Option.isSome_none, Option.isSome_some, or_false, iff_true, true_or] at hkey
      cases hcount : stopCount nested count <;> simp [KeyEntry.stop, Tracked, ends, hcount, hkey]
    | some count' => exact absurd ⟨rfl, rfl⟩ hdisjoint

theorem covered_start {e : KeyEntry} {condition : Bool} (hside : e.OnSide condition) (conditionKey : ConditionKey) :
    (e.start true condition conditionKey).Covered := by
  have hsome : (e.start true condition conditionKey).conditionKey.isSome = true := by
    unfold KeyEntry.start
    cases hk : e.conditionKey with
    | none => rfl
    | some k => simp
  cases condition with
  | true =>
    have hp : e.paused = none := hside
    exact ⟨by simp [Both, KeyEntry.start, hp], iff_of_true hsome (.inl rfl)⟩
  | false =>
    have hs : e.started = none := hside
    exact ⟨by simp [Both, KeyEntry.start, hs], iff_of_true hsome (.inr rfl)⟩

end KeyEntry

namespace OringDurationTracker

/-! ## Stops of all starts of a key -/

theorem stopStarted_force (t : OringDurationTracker) (key : HashableDimensionKey) (now : Int) :
    { t with mNested := false }.stopStarted key now false = { t.stopStarted key now true with mNested := false } := by
  unfold stopStarted
  dsimp only
  cases t.mStarted.lookup key with
  | none => rfl
  | some count =>
    have hforced : decrement t.mNested true t.mStarted key count = (t.mStarted.erase key, true) := rfl
    have hplain : decrement false false t.mStarted key count = (t.mStarted.erase key, true) := rfl
    dsimp only
    rw [hforced, hplain]
    unfold dropConditionKey
    simp only [if_true]
    split <;> rfl

theorem stopPaused_force (t : OringDurationTracker) (key : HashableDimensionKey) :
    { t with mNested := false }.stopPaused key false = { t.stopPaused key true with mNested := false } := by
  unfold stopPaused
  dsimp only
  cases t.mPaused.lookup key with
  | none => rfl
  | some count => rfl

theorem noteStop_force (t : OringDurationTracker) (key : HashableDimensionKey) (now : Int) :
    { t with mNested := false }.noteStop key now false = { t.noteStop key now true with mNested := false } := by
  unfold noteStop
  rw [stopStarted_force, stopPaused_force]
  unfold stopAlarmIfStopped
  dsimp only
  split <;> rfl

/-! ## The keys of a tracker -/

/-- The number of started and paused keys. -/
def trackedKeys (t : OringDurationTracker) : Nat := t.mStarted.entries.length + t.mPaused.entries.length

theorem length_entries (m : UMap HashableDimensionKey Int) : m.entries.length = m.keys.toFinset.card := by
  rw [List.toFinset_card_of_nodup m.keys_nodup, AList.keys, List.keys, List.length_map]

theorem mem_keys {V : Type} (m : UMap HashableDimensionKey V) (key : HashableDimensionKey) :
    key ∈ m.keys.toFinset ↔ (m.lookup key).isSome = true := by
  rw [List.mem_toFinset, ← AList.mem_keys, AList.lookup_isSome]

theorem trackedKeys_eq (t : OringDurationTracker) : t.trackedKeys =
    (t.mStarted.keys.toFinset ∪ t.mPaused.keys.toFinset).card + (t.mStarted.keys.toFinset ∩ t.mPaused.keys.toFinset).card := by
  unfold trackedKeys
  rw [length_entries, length_entries, Finset.card_union_add_card_inter]

variable {t t' : OringDurationTracker}

theorem trackedKeys_le (h : ∀ key, (t.entry key).NoMore (t'.entry key)) :
    t'.trackedKeys ≤ t.trackedKeys := by
  rw [trackedKeys_eq, trackedKeys_eq]
  refine Nat.add_le_add (Finset.card_le_card fun key hkey => ?_) (Finset.card_le_card fun key hkey => ?_)
  · rw [Finset.mem_union, mem_keys, mem_keys] at hkey ⊢
    exact (h key).tracked hkey
  · rw [Finset.mem_inter, mem_keys, mem_keys] at hkey ⊢
    exact (h key).both hkey

variable {t : OringDurationTracker} {key : HashableDimensionKey}

theorem trackedKeys_le_succ {conditionSliced condition : Bool}
    {conditionKey : ConditionKey}
    (h : ∀ k, t'.entry k = if k = key then (t.entry key).start conditionSliced condition conditionKey else t.entry k) :
    t'.trackedKeys ≤ t.trackedKeys + 1 := by
  have hadded : ∀ m m' : UMap HashableDimensionKey Int, (∀ k, k ≠ key → m'.lookup k = m.lookup k) →
      m'.keys.toFinset.card ≤ m.keys.toFinset.card + 1 := by
    intro m m' hm
    refine (Finset.card_le_card fun k hk => ?_).trans (Finset.card_insert_le key m.keys.toFinset)
    by_cases hkey : k = key
    · rw [hkey]
      exact Finset.mem_insert_self key _
    · rw [mem_keys, hm k hkey, ← mem_keys] at hk
      exact Finset.mem_insert_of_mem hk
  have hsame : ∀ m m' : UMap HashableDimensionKey Int, (∀ k, m'.lookup k = m.lookup k) →
      m'.keys.toFinset.card = m.keys.toFinset.card := by
    intro m m' hm
    congr 1
    ext k
    rw [mem_keys, mem_keys, hm]
  have hother : ∀ k, k ≠ key → t'.entry k = t.entry k := fun k hk => (h k).trans (if_neg hk)
  have hentry := (h key).trans (if_pos rfl)
  unfold trackedKeys
  rw [length_entries, length_entries, length_entries, length_entries]
  cases condition with
  | true =>
    have hpaused := hsame t.mPaused t'.mPaused fun k => by
      by_cases hk : k = key
      · exact hk ▸ congrArg KeyEntry.paused hentry
      · exact congrArg KeyEntry.paused (hother k hk)
    have hstarted := hadded t.mStarted t'.mStarted fun k hk => congrArg KeyEntry.started (hother k hk)
    omega
  | false =>
    have hstarted := hsame t.mStarted t'.mStarted fun k => by
      by_cases hk : k = key
      · exact hk ▸ congrArg KeyEntry.started hentry
      · exact congrArg KeyEntry.started (hother k hk)
    have hpaused := hadded t.mPaused t'.mPaused fun k hk => congrArg KeyEntry.paused (hother k hk)
    omega

theorem trackedKeys_covered (h : ∀ key, (t.entry key).Covered) :
    t.trackedKeys = t.mConditionKeyMap.entries.length := by
  have hkeys : t.mConditionKeyMap.entries.length = t.mConditionKeyMap.keys.toFinset.card := by
    rw [List.toFinset_card_of_nodup t.mConditionKeyMap.keys_nodup, AList.keys, List.keys, List.length_map]
  have hinter : t.mStarted.keys.toFinset ∩ t.mPaused.keys.toFinset = ∅ := by
    refine Finset.eq_empty_of_forall_notMem fun key hkey => (h key).disjoint ?_
    rwa [Finset.mem_inter, mem_keys, mem_keys] at hkey
  have hunion : t.mStarted.keys.toFinset ∪ t.mPaused.keys.toFinset = t.mConditionKeyMap.keys.toFinset := by
    ext key
    rw [Finset.mem_union, mem_keys, mem_keys, mem_keys]
    exact (h key).conditionKey.symm
  rw [trackedKeys_eq, hinter, hunion, Finset.card_empty, hkeys, add_zero]

/-! ## What the guardrail rests on -/

structure Guarded (t : OringDurationTracker) : Prop where
  bound : t.trackedKeys ≤ kDimensionKeySizeHardLimit
  sliced : t.mConditionSliced = true → ∀ key, (t.entry key).Covered
  unsliced : t.mConditionSliced = false → ∀ key, (t.entry key).conditionKey = none

theorem Guarded.keeps (h : t.Guarded) (hsliced : t'.mConditionSliced = t.mConditionSliced)
    (hnoMore : ∀ key, (t.entry key).NoMore (t'.entry key)) (hcovered : ∀ key, (t.entry key).Covered → (t'.entry key).Covered)
    (hnone : ∀ key, (t.entry key).conditionKey = none → (t'.entry key).conditionKey = none) : t'.Guarded :=
  ⟨(trackedKeys_le hnoMore).trans h.bound, fun hs key => hcovered key (h.sliced (hsliced.symm.trans hs) key),
    fun hs key => hnone key (h.unsliced (hsliced.symm.trans hs) key)⟩

/-- A start that the guardrail is made for: with a sliced condition, the key is not on the other side; without one,
a key that is not on its side yet comes while the tracker has fewer keys than the limit. -/
def StartFits (t : OringDurationTracker) (key : HashableDimensionKey) (condition : Bool) : Prop :=
  if t.mConditionSliced then (t.entry key).OnSide condition
  else (t.entry key).On condition ∨ t.trackedKeys < kDimensionKeySizeHardLimit

theorem length_lt_of_passed (hrail : t.hitGuardRail key = false)
    (hkey : (t.entry key).conditionKey = none) : t.mConditionKeyMap.entries.length < kDimensionKeySizeHardLimit := by
  have hlookup : t.mConditionKeyMap.lookup key = none := hkey
  have hsoft : kDimensionKeySizeSoftLimit - 1 < kDimensionKeySizeHardLimit := by decide
  unfold hitGuardRail at hrail
  rw [hlookup] at hrail
  simp only [Option.isSome_none, Bool.false_eq_true, if_false] at hrail
  split at hrail
  · have := of_decide_eq_false hrail
    omega
  · omega

theorem noMore_start {e : KeyEntry} {condition : Bool} (h : e.On condition) (conditionSliced : Bool) (conditionKey : ConditionKey) :
    e.NoMore (e.start conditionSliced condition conditionKey) := by
  cases condition with
  | true =>
    have hs : e.started.isSome = true := h
    exact ⟨fun _ => .inl hs, fun hb => ⟨hs, hb.2⟩⟩
  | false =>
    have hp : e.paused.isSome = true := h
    exact ⟨fun _ => .inr hp, fun hb => ⟨hb.1, hp⟩⟩

theorem Guarded.noteStart (h : t.Guarded) {condition : Bool}
    (hfits : t.StartFits key condition) (now : Int) (conditionKey : ConditionKey) :
    (t.noteStart key condition now conditionKey).Guarded := by
  cases hrail : t.hitGuardRail key with
  | true =>
    unfold OringDurationTracker.noteStart
    rwa [if_pos hrail]
  | false =>
    obtain ⟨-, hsliced, hentry⟩ := noteStart_keys hrail condition now conditionKey
    generalize t.noteStart key condition now conditionKey = t' at hsliced hentry
    have hbound : (t.entry key).On condition ∨ t.trackedKeys < kDimensionKeySizeHardLimit := by
      unfold StartFits at hfits
      cases hs : t.mConditionSliced with
      | false => rwa [hs, if_neg Bool.false_ne_true] at hfits
      | true =>
        rw [hs, if_pos rfl] at hfits
        refine or_iff_not_imp_left.2 fun hon => ?_
        have huntracked : ¬ (t.entry key).Tracked := by
          cases condition with
          | true =>
            have hp : (t.entry key).paused = none := hfits
            rintro (hst | hpt)
            · exact hon hst
            · rw [hp] at hpt
              cases hpt
          | false =>
            have hst : (t.entry key).started = none := hfits
            rintro (hst' | hpt)
            · rw [hst] at hst'
              cases hst'
            · exact hon hpt
        have hkey : (t.entry key).conditionKey = none := by
          rw [← Option.not_isSome_iff_eq_none, (h.sliced hs key).conditionKey]
          exact huntracked
        rw [trackedKeys_covered (h.sliced hs)]
        exact length_lt_of_passed hrail hkey
    refine ⟨?_, fun hs k => ?_, fun hs k => ?_⟩
    · rcases hbound with hon | hlt
      · refine (trackedKeys_le fun k => ?_).trans h.bound
        rw [hentry]
        split
        · rename_i hk
          exact hk ▸ noMore_start hon _ _
        · exact .refl _
      · exact (trackedKeys_le_succ hentry).trans hlt
    · rw [hsliced] at hs
      rw [hentry]
      split
      · rw [hs]
        unfold StartFits at hfits
        rw [hs, if_pos rfl] at hfits
        exact KeyEntry.covered_start hfits conditionKey
      · exact h.sliced hs k
    · rw [hsliced] at hs
      rw [hentry]
      split
      · have hkey := h.unsliced hs key
        simp [KeyEntry.start, hs, hkey]
      · exact h.unsliced hs k

theorem Guarded.noteStop (h : t.Guarded) (key : HashableDimensionKey) (now : Int) (stopAll : Bool) :
    (t.noteStop key now stopAll).Guarded := by
  -- a forced stop does to the keys what a stop of a tracker does that does not nest
  have hstop : ∃ nested, (t.noteStop key now stopAll).mConditionSliced = t.mConditionSliced ∧
      ∀ k, (t.noteStop key now stopAll).entry k = if k = key then (t.entry key).stop nested else t.entry k := by
    cases stopAll with
    | false =>
      obtain ⟨-, hsliced, hentry⟩ := t.noteStop_keys key now
      exact ⟨t.mNested, hsliced, hentry⟩
    | true =>
      obtain ⟨-, hsliced, hentry⟩ := { t with mNested := false }.noteStop_keys key now
      rw [noteStop_force] at hsliced hentry
      exact ⟨false, hsliced, hentry⟩
  obtain ⟨nested, hsliced, hentry⟩ := hstop
  refine h.keeps hsliced (fun k => ?_) (fun k hk => ?_) fun k hk => ?_
  · rw [hentry]
    split
    · rename_i hkey
      exact hkey ▸ KeyEntry.noMore_stop _ nested
    · exact .refl _
  · rw [hentry]
    split
    · rename_i hkey
      exact (hkey ▸ hk).stop nested
    · exact hk
  · rw [hentry]
    split
    · rename_i hkey
      subst hkey
      simp [KeyEntry.stop, hk]
    · exact hk

theorem Guarded.noteStopAll (h : t.Guarded) (now : Int) : (t.noteStopAll now).Guarded := by
  obtain ⟨-, hsliced, hentry⟩ := t.noteStopAll_keys now
  refine h.keeps hsliced (fun k => ?_) (fun k _ => ?_) fun k _ => ?_
  · rw [hentry]
    exact KeyEntry.noMore_empty _
  · rw [hentry]
    exact KeyEntry.covered_empty
  · rw [hentry]

theorem Guarded.onConditionChanged (h : t.Guarded) (condition : Bool) (now : Int) :
    (t.onConditionChanged condition now).Guarded := by
  obtain ⟨-, hsliced, hentry⟩ := t.onConditionChanged_keys condition now
  refine h.keeps hsliced (fun k => ?_) (fun k hk => ?_) fun k hk => ?_
  · rw [hentry]
    exact KeyEntry.noMore_move _ condition
  · rw [hentry]
    exact hk.move condition
  · rw [hentry, KeyEntry.move_conditionKey, hk]

theorem Guarded.onSlicedConditionMayChange (h : t.Guarded) (query : ConditionKey → ConditionState)
    (now : Int) : (t.onSlicedConditionMayChange query now).Guarded := by
  obtain ⟨-, hsliced, hentry⟩ := t.onSlicedConditionMayChange_keys query now
  refine h.keeps hsliced (fun k => ?_) (fun k hk => ?_) fun k hk => ?_
  · rw [hentry]
    exact KeyEntry.noMore_requery _ query
  · rw [hentry]
    exact hk.requery query
  · rw [hentry, KeyEntry.requery_conditionKey, hk]

theorem Guarded.same (h : t.Guarded) (hsame : SameKeys t t') : t'.Guarded :=
  h.keeps hsame.sliced (fun k => hsame.entry k ▸ .refl _) (fun k hk => (hsame.entry k).symm ▸ hk) fun k hk => by
    rw [hsame.entry, hk]

namespace Tracked

end Tracked

end OringDurationTracker

end Statsd.Metrics
