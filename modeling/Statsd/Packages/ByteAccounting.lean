/-
The bytes of the change log. `mBytesUsed` is an unsigned counter that five places add to and subtract from, and the
trimming loop makes no progress once the log is empty. Here the loops are run on fuel, a subtraction that would underflow
is a fault, and so is a record that has no room in a 64-bit address space. Over every run the counter is the size of the
records, so the only fault left is the last one, and a run agrees with the map's exact operations.
-/
import Statsd.Packages.ChangeDelivery

namespace Statsd.Packages

/-- What can go wrong in a run. -/
inductive Fault where
  /-- No room for another record. -/
  | outOfMemory
  /-- A subtraction from `mBytesUsed` underflows. -/
  | underflow
  /-- The fuel is used up and a loop still runs. -/
  | running
deriving DecidableEq

/-- A call on the change log by its owners. -/
inductive LogCall where
  | map (call : MapCall)
  | clearOutput

namespace UidMap

/-! ## The log with its faults -/

/-- `mBytesUsed -= kBytesChangeRecord`. -/
def subtractRecord (mBytesUsed : Nat) : Except Fault Nat :=
  if kBytesChangeRecord ≤ mBytesUsed then .ok (mBytesUsed - kBytesChangeRecord) else .error .underflow

/-- `mChanges.emplace_back`, and `mBytesUsed += kBytesChangeRecord` in `size_t`. -/
def emplaceChange (m : UidMap) (record : ChangeRecord) : Except Fault UidMap :=
  if kBytesChangeRecord * (m.mChanges.length + 1) < 2 ^ 64 then
    .ok { m with
      mChanges := m.mChanges ++ [record]
      mBytesUsed := (m.mBytesUsed + kBytesChangeRecord) % 2 ^ 64 }
  else .error .outOfMemory

/-- The loop of `ensureBytesUsedBelowLimit`, for so many passes. -/
def trimLoop (limit : Nat) : Nat → UidMap → Except Fault UidMap
  | 0, _ => .error .running
  | fuel + 1, m =>
    if m.mBytesUsed > limit then
      match m.mChanges with
      -- a pass that changes nothing
      | [] => trimLoop limit fuel m
      | _ :: mChanges =>
        match subtractRecord m.mBytesUsed with
        | .error fault => .error fault
        | .ok mBytesUsed => trimLoop limit fuel { m with mBytesUsed, mChanges }
    else .ok m

/-- The erasing loop of `appendUidMap`: the bytes and the records that are left. -/
def eraseLoop (cutoff_nanos : Int) : Nat → List ChangeRecord → Except Fault (Nat × List ChangeRecord)
  | mBytesUsed, [] => .ok (mBytesUsed, [])
  | mBytesUsed, record :: changes =>
    if record.timestampNs < cutoff_nanos then
      match subtractRecord mBytesUsed with
      | .error fault => .error fault
      | .ok mBytesUsed => eraseLoop cutoff_nanos mBytesUsed changes
    else (eraseLoop cutoff_nanos mBytesUsed changes).map fun r => (r.1, record :: r.2)

end UidMap

/-- A call with its faults. What it does to the entries and to the times of the last reports does not depend on the
trimming. -/
def MapCall.runChecked (fuel : Nat) (m : UidMap) : MapCall → Except Fault UidMap
  | updateMap apps => UidMap.trimLoop m.limit fuel { m with mMap := (m.updateMap apps).mMap }
  | app call =>
    match { m with mMap := (call.run m).mMap, mDeletedApps := (call.run m).mDeletedApps }.emplaceChange (call.change m) with
    | .error fault => .error fault
    | .ok m => UidMap.trimLoop m.limit fuel m
  | appendUidMap timestamp key =>
    let m := m.touch key
    let prevMin := m.getMinimumTimestampNs
    let m := { m with mLastUpdatePerConfigKey := m.mLastUpdatePerConfigKey.insert key timestamp }
    let newMin := m.getMinimumTimestampNs
    if newMin > prevMin then
      (UidMap.eraseLoop newMin m.mBytesUsed m.mChanges).map fun r => { m with mBytesUsed := r.1, mChanges := r.2 }
    else .ok m
  | OnConfigUpdated key => .ok (m.OnConfigUpdated key)
  | OnConfigRemoved key => .ok (m.OnConfigRemoved key)

namespace LogCall

def run (m : UidMap) : LogCall → UidMap
  | map call => call.run m
  | clearOutput => m.clearOutput

def runChecked (fuel : Nat) (m : UidMap) : LogCall → Except Fault UidMap
  | map call => call.runChecked fuel m
  | clearOutput => .ok m.clearOutput

/-- The call ends with `ensureBytesUsedBelowLimit`. -/
def enforcesLimit : LogCall → Bool
  | map (.updateMap _) | map (.app _) => true
  | _ => false

/-- A run with its faults: the first one ends it. -/
def runAll (fuel : Nat) (m : UidMap) (calls : List LogCall) : Except Fault UidMap :=
  calls.foldl (fun m call => m.bind fun m => call.runChecked fuel m) (.ok m)

end LogCall

namespace UidMap

/-! ## Exact bytes -/

/-- `mBytesUsed` is the size of the records. -/
def Accounted (m : UidMap) : Prop := m.mBytesUsed = kBytesChangeRecord * m.mChanges.length

theorem dropOldest_spec {limit bytesUsed : Nat} {changes : List ChangeRecord}
    (h : bytesUsed = kBytesChangeRecord * changes.length) :
    (dropOldest limit bytesUsed changes).1 = kBytesChangeRecord * (dropOldest limit bytesUsed changes).2.length ∧
      (dropOldest limit bytesUsed changes).1 ≤ limit ∧ (dropOldest limit bytesUsed changes).2.length ≤ changes.length := by
  induction changes generalizing bytesUsed with
  | nil =>
    rw [List.length_nil, Nat.mul_zero] at h
    simp [dropOldest, h]
  | cons record changes ih =>
    rw [List.length_cons, Nat.mul_add, Nat.mul_one] at h
    rw [dropOldest]
    split
    · have hrest : bytesUsed - kBytesChangeRecord = kBytesChangeRecord * changes.length := by omega
      obtain ⟨hexact, hle, hlength⟩ := ih hrest
      refine ⟨hexact, hle, ?_⟩
      rw [List.length_cons]
      omega
    · refine ⟨?_, by omega, le_refl _⟩
      rw [List.length_cons, Nat.mul_add, Nat.mul_one]
      exact h

theorem Accounted.ensure {m : UidMap} (h : m.Accounted) :
    m.ensureBytesUsedBelowLimit.Accounted ∧ m.ensureBytesUsedBelowLimit.mBytesUsed ≤ m.limit ∧
      m.ensureBytesUsedBelowLimit.mChanges.length ≤ m.mChanges.length :=
  dropOldest_spec h

/-! ## The loops -/

theorem subtractRecord_of_le {bytes : Nat} (h : kBytesChangeRecord ≤ bytes) :
    subtractRecord bytes = .ok (bytes - kBytesChangeRecord) := if_pos h

theorem trimLoop_eq {limit fuel : Nat} {m : UidMap} (h : m.Accounted) (hfuel : m.mChanges.length < fuel) :
    trimLoop limit fuel m = .ok { m with
      mBytesUsed := (dropOldest limit m.mBytesUsed m.mChanges).1
      mChanges := (dropOldest limit m.mBytesUsed m.mChanges).2 } := by
  induction hchanges : m.mChanges generalizing m fuel with
  | nil =>
    unfold Accounted at h
    rw [hchanges, List.length_nil, Nat.mul_zero] at h
    obtain ⟨fuel, rfl⟩ := Nat.exists_eq_succ_of_ne_zero (show fuel ≠ 0 by omega)
    rw [trimLoop, if_neg (by omega), dropOldest, ← hchanges]
  | cons record changes ih =>
    unfold Accounted at h
    rw [hchanges, List.length_cons] at hfuel
    rw [hchanges, List.length_cons, Nat.mul_add, Nat.mul_one] at h
    obtain ⟨fuel, rfl⟩ := Nat.exists_eq_succ_of_ne_zero (show fuel ≠ 0 by omega)
    rw [trimLoop, dropOldest]
    split
    · simp only [hchanges]
      rw [subtractRecord_of_le (by omega)]
      dsimp only
      rw [ih (m := { m with mBytesUsed := m.mBytesUsed - kBytesChangeRecord, mChanges := changes })]
      · show m.mBytesUsed - kBytesChangeRecord = kBytesChangeRecord * changes.length
        omega
      · show changes.length < fuel
        omega
      · rfl
    · rw [← hchanges]

theorem trimLoop_ensure {fuel : Nat} {m : UidMap} (h : m.Accounted) (hfuel : m.mChanges.length < fuel) :
    trimLoop m.limit fuel m = .ok m.ensureBytesUsedBelowLimit :=
  trimLoop_eq h hfuel

theorem eraseLoop_eq {cutoff_nanos : Int} {bytes : Nat} {changes : List ChangeRecord}
    (h : kBytesChangeRecord * changes.length ≤ bytes) :
    eraseLoop cutoff_nanos bytes changes =
      .ok (bytes - kBytesChangeRecord * (changes.filter fun record => decide (record.timestampNs < cutoff_nanos)).length,
        changes.filter fun record => decide (¬ record.timestampNs < cutoff_nanos)) := by
  induction changes generalizing bytes with
  | nil => simp [eraseLoop]
  | cons record changes ih =>
    rw [List.length_cons, Nat.mul_add, Nat.mul_one] at h
    rw [eraseLoop]
    split
    · rename_i hlt
      rw [subtractRecord_of_le (by omega)]
      dsimp only
      rw [ih (by omega), List.filter_cons_of_pos (by simpa using hlt), List.filter_cons_of_neg (by simpa using hlt),
        List.length_cons, Nat.mul_add, Nat.mul_one, Nat.sub_sub, Nat.add_comm kBytesChangeRecord]
    · rename_i hlt
      rw [ih (by omega), List.filter_cons_of_neg (by simpa using hlt), List.filter_cons_of_pos (by simpa using hlt)]
      rfl

theorem run_eq_addChange (m : UidMap) (call : AppCall) :
    call.run m = { m with mMap := (call.run m).mMap, mDeletedApps := (call.run m).mDeletedApps }.addChange (call.change m) := by
  have hoverdue : ∀ m : UidMap, m.deleteOldest = { m with
      mMap := m.deleteOldest.mMap, mDeletedApps := m.deleteOldest.mDeletedApps } := by
    intro m
    rcases m.deleteOldest_cases with ⟨-, h⟩ | ⟨oldest, rest, -, -, h⟩ <;> rw [h]
  cases call with
  | updateApp timestamp appName uid versionCode versionString installer =>
    cases hm : m.mMap.lookup (uid, appName) <;> simp only [AppCall.run, AppCall.change, updateApp, hm, addChange_mMap, addChange_mDeletedApps]
  | removeApp timestamp app uid =>
    cases hm : m.mMap.lookup (uid, app) with
    | none =>
      simp only [AppCall.run, AppCall.change, removeApp, hm, addChange_mMap, addChange_mDeletedApps]
      rw [← hoverdue]
    | some data =>
      cases hd : data.deleted with
      | true =>
        simp only [AppCall.run, AppCall.change, removeApp, hm, hd, Bool.not_true, Bool.false_eq_true, if_false, if_true,
          addChange_mMap, addChange_mDeletedApps]
        rw [← hoverdue]
      | false =>
        simp only [AppCall.run, AppCall.change, removeApp, hm, hd, Bool.not_false, Bool.false_eq_true, if_false, if_true,
          addChange_mMap, addChange_mDeletedApps]
        exact congrArg (fun m : UidMap => m.addChange _) (hoverdue _)

end UidMap

/-! ## One call -/

namespace UidMap

theorem Accounted.eraseBefore {m : UidMap} (h : m.Accounted) (cutoff_nanos : Int) : (m.eraseBefore cutoff_nanos).Accounted := by
  have hsplit := List.length_eq_length_filter_add (l := m.mChanges) fun record => decide (record.timestampNs < cutoff_nanos)
  unfold Accounted at *
  simp only [UidMap.eraseBefore, decide_not]
  rw [h, hsplit, Nat.mul_add, Nat.add_sub_cancel_left]

theorem appendUidMap_checked {m : UidMap} (h : m.Accounted) (fuel : Nat) (timestamp : Int) (key : ConfigKey) :
    MapCall.runChecked fuel m (.appendUidMap timestamp key) = .ok (m.appendUidMap timestamp key).2 ∧
      (m.appendUidMap timestamp key).2.Accounted ∧
      (m.appendUidMap timestamp key).2.mChanges.length ≤ m.mChanges.length ∧
      (m.appendUidMap timestamp key).2.limit = m.limit := by
  have htouch : (m.touch key).mChanges = m.mChanges ∧ (m.touch key).mBytesUsed = m.mBytesUsed ∧
      (m.touch key).maxBytesOverride = m.maxBytesOverride := by
    unfold touch
    split <;> exact ⟨rfl, rfl, rfl⟩
  obtain ⟨m', hm'⟩ : ∃ m' : UidMap, m' = { m.touch key with
      mLastUpdatePerConfigKey := (m.touch key).mLastUpdatePerConfigKey.insert key timestamp } := ⟨_, rfl⟩
  have hchanges : m'.mChanges = m.mChanges := by
    rw [hm']
    exact htouch.1
  have hbytes : m'.mBytesUsed = m.mBytesUsed := by
    rw [hm']
    exact htouch.2.1
  have hlimit : m'.limit = m.limit := by
    unfold UidMap.limit
    rw [hm', htouch.2.2]
  have hacc : m'.Accounted := by
    unfold Accounted
    rw [hbytes, hchanges]
    exact h
  have hchecked : MapCall.runChecked fuel m (.appendUidMap timestamp key) =
      if m'.getMinimumTimestampNs > (m.touch key).getMinimumTimestampNs then
        (eraseLoop m'.getMinimumTimestampNs m'.mBytesUsed m'.mChanges).map fun r => { m' with mBytesUsed := r.1, mChanges := r.2 }
      else .ok m' := by
    rw [hm']
    rfl
  have hexact : (m.appendUidMap timestamp key).2 =
      if m'.getMinimumTimestampNs > (m.touch key).getMinimumTimestampNs then m'.eraseBefore m'.getMinimumTimestampNs else m' := by
    rw [hm']
    rfl
  rw [hchecked, hexact]
  split
  · rw [eraseLoop_eq (le_of_eq hacc.symm)]
    refine ⟨rfl, hacc.eraseBefore _, ?_, hlimit⟩
    rw [← hchanges]
    exact List.length_filter_le _ _
  · exact ⟨rfl, hacc, le_of_eq (congrArg List.length hchanges), hlimit⟩

end UidMap

/-- What a call comes to: either there is no room for its record, or it does what the map's exact operation does, with exact
bytes, within the limit where it enforces it, and with at most one record more. -/
theorem LogCall.runChecked_spec {m : UidMap} {fuel : Nat} (h : m.Accounted) (hfuel : m.mChanges.length + 1 < fuel)
    (call : LogCall) :
    call.runChecked fuel m = .error .outOfMemory ∧ 2 ^ 64 ≤ kBytesChangeRecord * (m.mChanges.length + 1) ∨
      call.runChecked fuel m = .ok (call.run m) ∧ (call.run m).Accounted ∧
        (call.enforcesLimit = true → (call.run m).mBytesUsed ≤ m.limit) ∧
        (call.run m).mChanges.length ≤ m.mChanges.length + 1 ∧ (call.run m).limit = m.limit := by
  cases call with
  | clearOutput => exact .inr ⟨rfl, rfl, by rintro ⟨⟩, Nat.zero_le _, rfl⟩
  | map call =>
    cases call with
    | updateMap apps =>
      right
      have hacc : UidMap.Accounted { m with mMap := (m.updateMap apps).mMap } := h
      obtain ⟨hexact, hle, hlength⟩ := hacc.ensure
      exact ⟨UidMap.trimLoop_ensure hacc (Nat.lt_of_succ_lt hfuel), hexact, fun _ => hle, Nat.le_succ_of_le hlength, rfl⟩
    | app call =>
      by_cases hfits : kBytesChangeRecord * (m.mChanges.length + 1) < 2 ^ 64
      · right
        obtain ⟨m', hm'⟩ : ∃ m' : UidMap, m' = { m with
            mMap := (call.run m).mMap
            mDeletedApps := (call.run m).mDeletedApps
            mChanges := m.mChanges ++ [call.change m]
            mBytesUsed := m.mBytesUsed + kBytesChangeRecord } := ⟨_, rfl⟩
        have hlength : m'.mChanges.length = m.mChanges.length + 1 := by
          rw [hm']
          simp
        have hacc : m'.Accounted := by
          unfold UidMap.Accounted at *
          rw [hlength, Nat.mul_add, Nat.mul_one, ← h, hm']
        have hlimit : m'.limit = m.limit := by
          rw [hm']
          rfl
        have hrun : call.run m = m'.ensureBytesUsedBelowLimit := by
          rw [UidMap.run_eq_addChange m call, hm']
          rfl
        have hemplace : UidMap.emplaceChange { m with mMap := (call.run m).mMap, mDeletedApps := (call.run m).mDeletedApps }
            (call.change m) = .ok m' := by
          have hsum : (m.mBytesUsed + kBytesChangeRecord) % 2 ^ 64 = m.mBytesUsed + kBytesChangeRecord := by
            unfold UidMap.Accounted at h
            rw [Nat.mul_add, Nat.mul_one] at hfits
            exact Nat.mod_eq_of_lt (by omega)
          rw [UidMap.emplaceChange, if_pos hfits, hm', hsum]
        obtain ⟨hexact, hle, hshorter⟩ := hacc.ensure
        have hchecked : MapCall.runChecked fuel m (.app call) = .ok m'.ensureBytesUsedBelowLimit := by
          rw [MapCall.runChecked, hemplace]
          exact UidMap.trimLoop_ensure hacc (by omega)
        have hresult : (LogCall.map (.app call)).run m = m'.ensureBytesUsedBelowLimit := hrun
        rw [hresult]
        refine ⟨hchecked, hexact, fun _ => hlimit ▸ hle, by omega, ?_⟩
        exact hlimit
      · left
        refine ⟨?_, not_lt.1 hfits⟩
        show MapCall.runChecked fuel m (.app call) = _
        rw [MapCall.runChecked, UidMap.emplaceChange, if_neg hfits]
    | appendUidMap timestamp key =>
      obtain ⟨hchecked, hacc, hlength, hlimit⟩ := UidMap.appendUidMap_checked h fuel timestamp key
      exact .inr ⟨hchecked, hacc, by rintro ⟨⟩, Nat.le_succ_of_le hlength, hlimit⟩
    | OnConfigUpdated key => exact .inr ⟨rfl, h, by rintro ⟨⟩, Nat.le_succ _, rfl⟩
    | OnConfigRemoved key => exact .inr ⟨rfl, h, by rintro ⟨⟩, Nat.le_succ _, rfl⟩

/-! ## Runs -/

theorem LogCall.runAll_append (fuel : Nat) (m : UidMap) (calls : List LogCall) (call : LogCall) :
    runAll fuel m (calls ++ [call]) = (runAll fuel m calls).bind fun m => call.runChecked fuel m := by
  simp [runAll]

/-- The bytes are exact in every run from an empty log under any limit: no subtraction underflows, the loops end with fuel for
a pass per call and one more, and calls that enforce the limit end within it. Only memory can run out, after calls enough to
fill a 64-bit address space with records. -/
theorem byte_accounting (maxBytesOverride : Nat) (calls : List LogCall) (fuel : Nat) (hfuel : calls.length < fuel) :
    (LogCall.runAll fuel { UidMap.new with maxBytesOverride } calls = .error .outOfMemory ∧
        2 ^ 64 ≤ kBytesChangeRecord * calls.length) ∨
      ∃ m, LogCall.runAll fuel { UidMap.new with maxBytesOverride } calls = .ok m ∧
        m = calls.foldl LogCall.run { UidMap.new with maxBytesOverride } ∧
        m.mBytesUsed = kBytesChangeRecord * m.mChanges.length ∧ m.limit = { UidMap.new with maxBytesOverride }.limit ∧
        m.mChanges.length ≤ calls.length ∧
        ∀ call, calls.getLast? = some call → call.enforcesLimit = true → m.mBytesUsed ≤ m.limit := by
  induction calls using List.reverseRecOn with
  | nil =>
    right
    refine ⟨_, rfl, rfl, rfl, rfl, le_refl _, ?_⟩
    intro call hlast
    cases hlast
  | append_singleton calls call ih =>
    rw [List.length_append, List.length_singleton] at hfuel ⊢
    rw [LogCall.runAll_append]
    rcases ih (by omega) with ⟨hfault, hfull⟩ | ⟨m, hrun, hexact, hacc, hlimit, hlength, -⟩
    · left
      rw [hfault]
      exact ⟨rfl, le_trans hfull (Nat.mul_le_mul_left _ (Nat.le_succ _))⟩
    · rw [hrun]
      rcases LogCall.runChecked_spec hacc (show m.mChanges.length + 1 < fuel by omega) call with
        ⟨hfault, hfull⟩ | ⟨hcall, hacc', henforced, hlength', hlimit'⟩
      · left
        exact ⟨hfault, le_trans hfull (Nat.mul_le_mul_left _ (by omega))⟩
      · right
        refine ⟨call.run m, hcall, ?_, hacc', hlimit'.trans hlimit, by omega, ?_⟩
        · rw [List.foldl_append, ← hexact]
          rfl
        · intro last hlast
          rw [List.getLast?_concat] at hlast
          cases hlast
          intro henforces
          rw [hlimit']
          exact henforced henforces

/-- Under a limit of two records the third update drops the first record, with fuel for four passes. -/
theorem byte_accounting_trimmed :
    let update (timestamp : Int) := LogCall.map (.app (.updateApp timestamp "app" 1000 timestamp "v" ""))
    let m := [update 1, update 2, update 3].foldl LogCall.run { UidMap.new with maxBytesOverride := 224 }
    m.mChanges.map ChangeRecord.version = [2, 3] ∧
      ((LogCall.runAll 4 { UidMap.new with maxBytesOverride := 224 } [update 1, update 2, update 3] = .error .outOfMemory ∧
          2 ^ 64 ≤ kBytesChangeRecord * 3) ∨
        ∃ m', LogCall.runAll 4 { UidMap.new with maxBytesOverride := 224 } [update 1, update 2, update 3] = .ok m' ∧ m' = m ∧
          m'.mBytesUsed = kBytesChangeRecord * m'.mChanges.length ∧
          m'.limit = { UidMap.new with maxBytesOverride := 224 }.limit ∧ m'.mChanges.length ≤ 3 ∧
          ∀ call, [update 1, update 2, update 3].getLast? = some call → call.enforcesLimit = true → m'.mBytesUsed ≤ m'.limit) := by
  intro update m
  refine ⟨by decide +kernel, ?_⟩
  exact byte_accounting 224 [update 1, update 2, update 3] 4 (by decide)

end Statsd.Packages
