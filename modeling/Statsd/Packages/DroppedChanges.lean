/-
The statistic of dropped changes (noteUidMapDropped of guardrail/StatsdStats.cpp). Each record that the trimming loop removes
is noted on its own, and the note adds the statistic to itself; a reset of the stats leaves it. So it is the number of
records removed as long as at most one is, and no reset follows. The records held are always the most recent ones that no
report has erased.
-/
import Statsd.Packages.ByteAccounting
import Statsd.Packages.VersionChain

namespace Statsd.Packages

/-- The uid map with its statistic. The number of records that the trimming has removed since the last reset, and the
records made that no report has erased, are kept beside the code. -/
structure WatchedMap where
  map : UidMap
  dropped_changes : Int := 0
  removed : Nat := 0
  unerased : List ChangeRecord := []

/-- A call on the map, or a reset of the stats. -/
inductive WatchedCall where
  | map (call : MapCall)
  | reset

/-- `dropped_changes += dropped_changes + deltas`, in `int32_t`. -/
def noteUidMapDropped (dropped_changes deltas : Int) : Int := UidMap.toInt32 (dropped_changes + (dropped_changes + deltas))

namespace UidMap

/-- The time before which a report erases records. -/
def cutoff (m : UidMap) (timestamp : Int) (key : ConfigKey) : Option Int :=
  let m := m.touch key
  let prevMin := m.getMinimumTimestampNs
  let newMin := { m with mLastUpdatePerConfigKey := m.mLastUpdatePerConfigKey.insert key timestamp }.getMinimumTimestampNs
  if newMin > prevMin then some newMin else none

/-- A report does not erase the record. -/
def keeps (m : UidMap) (timestamp : Int) (key : ConfigKey) (record : ChangeRecord) : Bool :=
  match m.cutoff timestamp key with
  | some cutoff_nanos => decide (¬ record.timestampNs < cutoff_nanos)
  | none => true

theorem appendUidMap_mChanges (m : UidMap) (timestamp : Int) (key : ConfigKey) :
    (m.appendUidMap timestamp key).2.mChanges = m.mChanges.filter (m.keeps timestamp key) := by
  have htouch : (m.touch key).mChanges = m.mChanges := by
    unfold touch
    split <;> rfl
  unfold keeps cutoff appendUidMap
  dsimp only
  split
  · show List.filter _ (m.touch key).mChanges = _
    rw [htouch]
  · show (m.touch key).mChanges = _
    rw [htouch, List.filter_true]

end UidMap

namespace WatchedMap

/-- The loop of `ensureBytesUsedBelowLimit`, with the note for each record. -/
def dropLoop (limit : Nat) : List ChangeRecord → WatchedMap → WatchedMap
  | [], s => s
  | _ :: mChanges, s =>
    if s.map.mBytesUsed > limit then
      dropLoop limit mChanges { s with
        map := { s.map with mBytesUsed := s.map.mBytesUsed - kBytesChangeRecord, mChanges }
        dropped_changes := noteUidMapDropped s.dropped_changes 1
        removed := s.removed + 1 }
    else s

def ensureBytesUsedBelowLimit (s : WatchedMap) : WatchedMap := dropLoop s.map.limit s.map.mChanges s

/-- The map with the record of a call for one app, before the trimming. -/
def record (s : WatchedMap) (call : AppCall) : WatchedMap :=
  { s with
    map := { s.map with
      mMap := (call.run s.map).mMap
      mDeletedApps := (call.run s.map).mDeletedApps
      mChanges := s.map.mChanges ++ [call.change s.map]
      mBytesUsed := s.map.mBytesUsed + kBytesChangeRecord }
    unerased := s.unerased ++ [call.change s.map] }

def run (s : WatchedMap) : WatchedCall → WatchedMap
  | .map (.updateMap apps) =>
    { s with map := { s.map with mMap := (s.map.updateMap apps).mMap } }.ensureBytesUsedBelowLimit
  | .map (.app call) => (s.record call).ensureBytesUsedBelowLimit
  | .map (.appendUidMap timestamp key) =>
    { s with
      map := (s.map.appendUidMap timestamp key).2
      unerased := s.unerased.filter (s.map.keeps timestamp key) }
  | .map (.OnConfigUpdated key) => { s with map := s.map.OnConfigUpdated key }
  | .map (.OnConfigRemoved key) => { s with map := s.map.OnConfigRemoved key }
  -- the reset of the stats leaves those of the uid map
  | .reset => { s with removed := 0 }

/-- The statistic is the number of removed records, and the records held are the last ones that are not erased. -/
structure Counted (s : WatchedMap) : Prop where
  dropped : s.dropped_changes = s.removed
  recent : s.map.mChanges <:+ s.unerased

/-! ## The trimming -/

variable {s : WatchedMap}

theorem ensure_of_le (h : s.map.mBytesUsed ≤ s.map.limit) : s.ensureBytesUsedBelowLimit = s := by
  unfold ensureBytesUsedBelowLimit
  cases hchanges : s.map.mChanges with
  | nil => rfl
  | cons record changes => exact if_neg (not_lt.2 h)

theorem ensure_of_lt {oldest : ChangeRecord} {changes : List ChangeRecord}
    (hchanges : s.map.mChanges = oldest :: changes) (hlt : s.map.limit < s.map.mBytesUsed)
    (hle : s.map.mBytesUsed ≤ s.map.limit + kBytesChangeRecord) :
    s.ensureBytesUsedBelowLimit = { s with
      map := { s.map with mBytesUsed := s.map.mBytesUsed - kBytesChangeRecord, mChanges := changes }
      dropped_changes := noteUidMapDropped s.dropped_changes 1
      removed := s.removed + 1 } := by
  unfold ensureBytesUsedBelowLimit
  rw [hchanges, dropLoop, if_pos hlt]
  cases changes with
  | nil => rfl
  | cons record changes =>
    rw [dropLoop]
    apply if_neg
    dsimp only
    omega

theorem dropLoop_map {limit : Nat} {changes : List ChangeRecord} (h : s.map.mChanges = changes) :
    (dropLoop limit changes s).map = { s.map with
      mBytesUsed := (UidMap.dropOldest limit s.map.mBytesUsed changes).1
      mChanges := (UidMap.dropOldest limit s.map.mBytesUsed changes).2 } := by
  induction changes generalizing s with
  | nil => rw [dropLoop, UidMap.dropOldest, ← h]
  | cons record changes ih =>
    rw [dropLoop, UidMap.dropOldest]
    split
    · exact ih rfl
    · rw [← h]

theorem ensure_map (s : WatchedMap) : s.ensureBytesUsedBelowLimit.map = s.map.ensureBytesUsedBelowLimit := dropLoop_map rfl

theorem run_map (s : WatchedMap) (call : MapCall) : (s.run (.map call)).map = call.run s.map := by
  cases call with
  | updateMap apps => exact ensure_map _
  | app call =>
    rw [run, ensure_map]
    exact (UidMap.run_eq_addChange s.map call).symm
  | appendUidMap timestamp key => rfl
  | OnConfigUpdated key => rfl
  | OnConfigRemoved key => rfl

/-! ## One call -/

/-- Between calls the log is within its limit and holds the last records, and the statistic is an `int32_t`. -/
structure Inv (s : WatchedMap) : Prop where
  bytes : s.map.Accounted
  limit : s.map.mBytesUsed ≤ s.map.limit
  recent : s.map.mChanges <:+ s.unerased
  range : -2 ^ 31 ≤ s.dropped_changes ∧ s.dropped_changes < 2 ^ 31

theorem Inv.app (h : s.Inv) (call : AppCall) :
    (s.run (.map (.app call))).Inv ∧
      (s.map.mBytesUsed + kBytesChangeRecord ≤ s.map.limit →
        (s.run (.map (.app call))).dropped_changes = s.dropped_changes ∧ (s.run (.map (.app call))).removed = s.removed) ∧
      (s.map.limit < s.map.mBytesUsed + kBytesChangeRecord →
        (s.run (.map (.app call))).dropped_changes = noteUidMapDropped s.dropped_changes 1 ∧
          (s.run (.map (.app call))).removed = s.removed + 1) := by
  obtain ⟨hbytes, hlimit, ⟨erased, herased⟩, hrange⟩ := h
  unfold UidMap.Accounted at hbytes
  have hrecent : s.map.mChanges ++ [call.change s.map] <:+ s.unerased ++ [call.change s.map] :=
    ⟨erased, by rw [← List.append_assoc, herased]⟩
  by_cases hfits : s.map.mBytesUsed + kBytesChangeRecord ≤ s.map.limit
  · have hrun : s.run (.map (.app call)) = s.record call := ensure_of_le hfits
    rw [hrun]
    refine ⟨⟨?_, hfits, hrecent, hrange⟩, fun _ => ⟨rfl, rfl⟩, fun hlt => by omega⟩
    show s.map.mBytesUsed + kBytesChangeRecord = kBytesChangeRecord * (s.map.mChanges ++ [call.change s.map]).length
    rw [List.length_append, List.length_singleton, Nat.mul_add, Nat.mul_one, hbytes]
  · obtain ⟨oldest, changes, hchanges⟩ := List.exists_cons_of_ne_nil
      (show s.map.mChanges ++ [call.change s.map] ≠ [] by simp)
    have hrun : s.run (.map (.app call)) = { s.record call with
        map := { (s.record call).map with
          mBytesUsed := (s.record call).map.mBytesUsed - kBytesChangeRecord
          mChanges := changes }
        dropped_changes := noteUidMapDropped s.dropped_changes 1
        removed := s.removed + 1 } := by
      apply ensure_of_lt hchanges
      · exact not_le.1 hfits
      · exact Nat.add_le_add_right hlimit _
    have hlength : changes.length = s.map.mChanges.length := by
      have hsame := congrArg List.length hchanges
      simpa using hsame.symm
    have hsub : (s.record call).map.mBytesUsed - kBytesChangeRecord = s.map.mBytesUsed := Nat.add_sub_cancel _ _
    rw [hrun]
    refine ⟨⟨?_, ?_, ?_, UidMap.toInt32_range _⟩, fun hle => absurd hle hfits, fun _ => ⟨rfl, rfl⟩⟩
    · show (s.record call).map.mBytesUsed - kBytesChangeRecord = kBytesChangeRecord * changes.length
      rw [hsub, hlength, hbytes]
    · show (s.record call).map.mBytesUsed - kBytesChangeRecord ≤ s.map.limit
      rw [hsub]
      exact hlimit
    · show changes <:+ s.unerased ++ [call.change s.map]
      rw [hchanges] at hrecent
      exact (List.suffix_cons oldest changes).trans hrecent

/-- The call keeps the statistic right: the log has room for its record, or no record was removed yet; and a reset finds that
none was. -/
def Fits (s : WatchedMap) : WatchedCall → Prop
  | .map (.app _) => s.map.limit < s.map.mBytesUsed + kBytesChangeRecord → s.removed = 0
  | .map _ => True
  | .reset => s.removed = 0

theorem Inv.map (h : s.Inv) {call : MapCall} (hcall : ∀ c, call ≠ .app c) :
    (s.run (.map call)).Inv ∧ (s.run (.map call)).dropped_changes = s.dropped_changes ∧
      (s.run (.map call)).removed = s.removed := by
  cases call with
  | updateMap apps =>
    have hrun : s.run (.map (.updateMap apps)) = { s with map := { s.map with mMap := (s.map.updateMap apps).mMap } } :=
      ensure_of_le h.limit
    rw [hrun]
    exact ⟨⟨h.bytes, h.limit, h.recent, h.range⟩, rfl, rfl⟩
  | app call => exact absurd rfl (hcall call)
  | appendUidMap timestamp key =>
    obtain ⟨-, hbytes, hlength, hlimit⟩ := UidMap.appendUidMap_checked h.bytes 0 timestamp key
    refine ⟨⟨hbytes, ?_, ?_, h.range⟩, rfl, rfl⟩
    · have hexact := h.bytes
      have hle := Nat.mul_le_mul_left kBytesChangeRecord hlength
      unfold UidMap.Accounted at hbytes hexact
      show (s.map.appendUidMap timestamp key).2.mBytesUsed ≤ (s.map.appendUidMap timestamp key).2.limit
      rw [hlimit, hbytes]
      exact le_trans hle (hexact ▸ h.limit)
    · show (s.map.appendUidMap timestamp key).2.mChanges <:+ s.unerased.filter (s.map.keeps timestamp key)
      rw [UidMap.appendUidMap_mChanges]
      exact h.recent.filter _
  | OnConfigUpdated key => exact ⟨⟨h.bytes, h.limit, h.recent, h.range⟩, rfl, rfl⟩
  | OnConfigRemoved key => exact ⟨⟨h.bytes, h.limit, h.recent, h.range⟩, rfl, rfl⟩

theorem Inv.run (h : s.Inv) (call : WatchedCall) : (s.run call).Inv := by
  cases call with
  | reset => exact ⟨h.bytes, h.limit, h.recent, h.range⟩
  | map call =>
    by_cases hcall : ∃ c, call = .app c
    · obtain ⟨c, rfl⟩ := hcall
      exact (h.app c).1
    · exact (h.map fun c hc => hcall ⟨c, hc⟩).1

theorem Inv.counted_iff (h : s.Inv) (hcounted : s.dropped_changes = s.removed) (call : WatchedCall) :
    (s.run call).dropped_changes = (s.run call).removed ↔ s.Fits call := by
  have hrange := h.range
  cases call with
  | reset =>
    show s.dropped_changes = ((0 : Nat) : Int) ↔ s.removed = 0
    omega
  | map call =>
    by_cases hcall : ∃ c, call = .app c
    · obtain ⟨c, rfl⟩ := hcall
      obtain ⟨-, hroom, hfull⟩ := h.app c
      unfold Fits
      by_cases hlt : s.map.limit < s.map.mBytesUsed + kBytesChangeRecord
      · obtain ⟨hdropped, hremoved⟩ := hfull hlt
        have hmod : noteUidMapDropped s.dropped_changes 1 % 2 ^ 32 = (s.dropped_changes + (s.dropped_changes + 1)) % 2 ^ 32 :=
          Int.bmod_emod
        rw [hdropped, hremoved]
        constructor
        · intro hsame _
          rw [hsame] at hmod
          push_cast at hmod
          omega
        · intro hzero
          rw [hcounted, hzero hlt]
          decide
      · obtain ⟨hdropped, hremoved⟩ := hroom (not_lt.1 hlt)
        rw [hdropped, hremoved]
        exact iff_of_true hcounted fun h => absurd h hlt
    · have hno : ∀ c, call ≠ .app c := fun c hc => hcall ⟨c, hc⟩
      obtain ⟨-, hdropped, hremoved⟩ := h.map hno
      rw [hdropped, hremoved]
      apply iff_of_true hcounted
      cases call with
      | app c => exact absurd rfl (hno c)
      | updateMap apps => trivial
      | appendUidMap timestamp key => trivial
      | OnConfigUpdated key => trivial
      | OnConfigRemoved key => trivial

end WatchedMap

/-- In every run from an empty map under any limit the statistic is the number of records removed, and the records held are
the most recent ones not erased, exactly when each call fits: at most one record is removed, and no reset follows. -/
theorem dropped_changes_iff (maxBytesOverride : Nat) (calls : List WatchedCall) :
    (∀ n, ((calls.take n).foldl WatchedMap.run { map := { UidMap.new with maxBytesOverride } }).Counted) ↔
      RunOk WatchedMap.run WatchedMap.Fits { map := { UidMap.new with maxBytesOverride } } calls := by
  apply RunOk.iff_prefixes (I := WatchedMap.Inv) (P := fun _ s => s.Counted)
  · intro _ s call hinv hcounted hfits
    have hinv' := hinv.run call
    exact ⟨hinv', (hinv.counted_iff hcounted.dropped call).2 hfits, hinv'.recent⟩
  · intro _ s call hinv hcounted hbad hcounted'
    exact hbad ((hinv.counted_iff hcounted.dropped call).1 hcounted'.dropped)
  · refine ⟨rfl, Nat.zero_le _, List.suffix_rfl, ?_⟩
    show -2 ^ 31 ≤ (0 : Int) ∧ (0 : Int) < 2 ^ 31
    decide
  · exact ⟨rfl, List.suffix_rfl⟩

/-- With the default limit, which 457 records fit in, the 459th update removes a second record, and the statistic is 3. -/
theorem second_drop_counted_twice :
    let s := (List.replicate 459 (WatchedCall.map (.app (.updateApp 1 "app" 1000 5 "v5" "")))).foldl WatchedMap.run
      { map := UidMap.new }
    s.removed = 2 ∧ s.dropped_changes = 3 ∧ ¬ s.Counted := by
  intro s
  have hremoved : s.removed = 2 := by decide +kernel
  have hdropped : s.dropped_changes = 3 := by decide +kernel
  refine ⟨hremoved, hdropped, fun h => ?_⟩
  have hsame := h.dropped
  rw [hremoved, hdropped] at hsame
  cases hsame

end Statsd.Packages
