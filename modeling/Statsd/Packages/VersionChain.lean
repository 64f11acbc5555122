/-
The versions in the change log. A record of an update has the version that the map had before, a tombstone's included,
so the updates of one app form a chain: each starts at the version that the last one led to. The version before an
update passes through a 32-bit integer on its way to the record, and only there.
-/
import Statsd.Packages.ChangeDelivery

namespace Statsd.Packages

/-! ## The chains -/

namespace UidMap

/-- The version in the entry of an app, which a deleted app keeps. -/
def entryVersion (m : UidMap) (key : AppKey) : Option Int := (m.mMap.lookup key).map AppData.versionCode

theorem toInt32_range (v : Int) : -2 ^ 31 ≤ toInt32 v ∧ toInt32 v < 2 ^ 31 := by
  have hlow : -(((2 ^ 32 : Nat) : Int) / 2) ≤ toInt32 v := Int.le_bmod (by decide)
  have hhigh : toInt32 v < (((2 ^ 32 : Nat) : Int) + 1) / 2 := Int.bmod_lt (by decide)
  omega

theorem toInt32_eq_iff (v : Int) : toInt32 v = v ↔ -2 ^ 31 ≤ v ∧ v < 2 ^ 31 := by
  constructor
  · intro h
    rw [← h]
    exact toInt32_range v
  · rintro ⟨hlow, hhigh⟩
    apply Int.bmod_eq_of_le
    · simpa using hlow
    · simpa using hhigh

end UidMap

namespace AppCall

/-- The version of the app just before the call: an update replaces what the entry has, and a removal ends the version
that is installed. An app that is not there has version 0. -/
def currentVersion (m : UidMap) : AppCall → Int
  | updateApp _ appName uid _ _ _ => (m.entryVersion (uid, appName)).getD 0
  | removeApp _ app uid => m.getAppVersion uid app

/-- The call deletes an app. -/
def deletes (m : UidMap) : AppCall → Bool
  | updateApp .. => false
  | removeApp _ app uid => m.hasApp uid app

/-- The deletions of a run. -/
def deletions : UidMap → List AppCall → Nat
  | _, [] => 0
  | m, call :: calls => (if call.deletes m then 1 else 0) + deletions (call.run m) calls

/-- An update finds no entry, or one whose version is an `int32_t`. -/
def FindsInt32 (m : UidMap) : AppCall → Prop
  | updateApp _ appName uid _ _ _ => ∀ v, m.entryVersion (uid, appName) = some v → -2 ^ 31 ≤ v ∧ v < 2 ^ 31
  | removeApp .. => True

end AppCall

def ChangeRecord.app (record : ChangeRecord) : AppKey := (record.uid, record.package)

/-- The records of a run from `m`: one for each call, with the version current before it, and every update of an app
starts at the version of the last update of the app. -/
structure VersionChains (m : UidMap) (calls : List AppCall) (changes : List ChangeRecord) : Prop where
  length : changes.length = calls.length
  app : ∀ (n : Nat) (call : AppCall) (record : ChangeRecord), calls[n]? = some call → changes[n]? = some record → record.app = call.key
  previous : ∀ (n : Nat) (call : AppCall) (record : ChangeRecord), calls[n]? = some call → changes[n]? = some record →
    record.prevVersion = call.currentVersion ((calls.take n).foldl AppCall.run m)
  chain : ∀ (i j : Nat) (record record' : ChangeRecord), i < j → changes[i]? = some record → changes[j]? = some record' →
    record.deletion = false → record'.deletion = false → record'.app = record.app →
    (∀ (k : Nat) (between : ChangeRecord), i < k → k < j → changes[k]? = some between → between.app = record.app → between.deletion = true) →
    record'.prevVersion = record.version

/-! ## The records of a run -/

namespace AppCall

/-- The changes that the calls record. -/
def changes : UidMap → List AppCall → List ChangeRecord
  | _, [] => []
  | m, call :: calls => call.change m :: changes (call.run m) calls

theorem length_changes (m : UidMap) (calls : List AppCall) : (changes m calls).length = calls.length := by
  induction calls generalizing m with
  | nil => rfl
  | cons call calls ih => simp [changes, ih]

theorem getElem?_changes (m : UidMap) (calls : List AppCall) (n : Nat) :
    (changes m calls)[n]? = (calls[n]?).map fun call => call.change ((calls.take n).foldl run m) := by
  induction calls generalizing m n with
  | nil => rfl
  | cons call calls ih =>
    cases n with
    | zero => rfl
    | succ n => simp [changes, ih]

variable {m : UidMap}

theorem mChanges_run {calls : List AppCall} (h : m.mBytesUsed + kBytesChangeRecord * calls.length ≤ m.limit) :
    (calls.foldl run m).mChanges = m.mChanges ++ changes m calls := by
  induction calls generalizing m with
  | nil => simp [changes]
  | cons call calls ih =>
    rw [List.length_cons, Nat.mul_add, Nat.mul_one] at h
    obtain ⟨hchanges, -, hbytes, hoverride⟩ := UidMap.appends_run (m := m) (by omega) call
    have hlimit : (call.run m).limit = m.limit := by
      unfold UidMap.limit
      rw [hoverride]
    rw [List.foldl_cons, ih (by rw [hbytes, hlimit]; omega), hchanges]
    simp [changes]

theorem change_fields (m : UidMap) (call : AppCall) :
    (call.change m).app = call.key ∧ (call.change m).deletion = call.version.isNone ∧
      (call.change m).version = call.version.getD 0 := by
  cases call with
  | updateApp timestamp appName uid versionCode versionString installer =>
    cases hm : m.mMap.lookup (uid, appName) <;> simp [change, hm, ChangeRecord.app, key, version]
  | removeApp timestamp app uid =>
    cases hm : m.mMap.lookup (uid, app) with
    | none => simp [change, hm, ChangeRecord.app, key, version]
    | some data => cases hd : data.deleted <;> simp [change, hm, hd, ChangeRecord.app, key, version]

/-- The record has the version before the call exactly when an update finds a version that is an `int32_t`. -/
theorem change_prevVersion_iff (m : UidMap) (call : AppCall) :
    (call.change m).prevVersion = call.currentVersion m ↔ call.FindsInt32 m := by
  cases call with
  | updateApp timestamp appName uid versionCode versionString installer =>
    cases hm : m.mMap.lookup (uid, appName) with
    | none => simp [change, currentVersion, FindsInt32, UidMap.entryVersion, hm]
    | some data =>
      simp only [change, currentVersion, FindsInt32, UidMap.entryVersion, hm, Option.map_some, Option.getD_some,
        Option.some.injEq, forall_eq']
      exact UidMap.toInt32_eq_iff data.versionCode
  | removeApp timestamp app uid =>
    cases hm : m.mMap.lookup (uid, app) with
    | none => simp [change, currentVersion, FindsInt32, UidMap.getAppVersion, hm]
    | some data => cases hd : data.deleted <;> simp [change, currentVersion, FindsInt32, UidMap.getAppVersion, hm, hd]

/-! ## The entries over a run -/

/-- A deletion that leaves room in the queue of deleted apps drops no entry. -/
def HasRoom (m : UidMap) (call : AppCall) : Prop :=
  m.mDeletedApps.length + (if call.deletes m then 1 else 0) ≤ kMaxDeletedAppsInUidMap

theorem deleteOldest_of_le (h : m.mDeletedApps.length ≤ kMaxDeletedAppsInUidMap) : m.deleteOldest = m := by
  rcases m.deleteOldest_cases with ⟨-, hsame⟩ | ⟨oldest, rest, -, hlen, -⟩
  · exact hsame
  · omega

/-- What a call leaves of the versions and of the queue of deleted apps: an update sets the version of its app, and
nothing else changes. -/
theorem run_entryVersion {call : AppCall} (hroom : call.HasRoom m) :
    (call.run m).mDeletedApps.length = m.mDeletedApps.length + (if call.deletes m then 1 else 0) ∧
      ∀ key, (call.run m).entryVersion key =
        if call.version.isSome ∧ key = call.key then call.version else m.entryVersion key := by
  cases call with
  | updateApp timestamp appName uid versionCode versionString installer =>
    refine ⟨rfl, fun key => ?_⟩
    by_cases hk : key = (uid, appName)
    · subst hk
      simp [run, UidMap.updateApp, UidMap.entryVersion, AppCall.key, version]
    · simp [run, UidMap.updateApp, UidMap.entryVersion, AppCall.key, version, hk]
  | removeApp timestamp app uid =>
    unfold HasRoom at hroom
    cases hm : m.mMap.lookup (uid, app) with
    | none =>
      have hno : deletes m (removeApp timestamp app uid) = false := by simp [deletes, UidMap.hasApp, hm]
      have hsame := deleteOldest_of_le (m := m) (by omega)
      simp [run, UidMap.removeApp, UidMap.entryVersion, hm, hno, hsame, version]
    | some data =>
      cases hd : data.deleted with
      | true =>
        have hno : deletes m (removeApp timestamp app uid) = false := by simp [deletes, UidMap.hasApp, hm, hd]
        have hsame := deleteOldest_of_le (m := m) (by omega)
        simp [run, UidMap.removeApp, UidMap.entryVersion, hm, hd, hno, hsame, version]
      | false =>
        have hyes : deletes m (removeApp timestamp app uid) = true := by simp [deletes, UidMap.hasApp, hm, hd]
        rw [if_pos hyes] at hroom
        have hsame := deleteOldest_of_le (m := { m with
          mMap := m.mMap.insert (uid, app) { data with deleted := true }
          mDeletedApps := m.mDeletedApps ++ [(uid, app)] }) (by simpa using hroom)
        rw [if_pos hyes]
        simp only [run, UidMap.removeApp, hm, hd, Bool.not_false, if_true, hsame]
        refine ⟨by simp, fun key => ?_⟩
        by_cases hk : key = (uid, app)
        · subst hk
          simp [UidMap.entryVersion, version, hm]
        · simp [UidMap.entryVersion, version, hk]

theorem runOk_hasRoom {calls : List AppCall} (h : m.mDeletedApps.length + deletions m calls ≤ kMaxDeletedAppsInUidMap) :
    RunOk run (fun m call => call.HasRoom m) m calls := by
  induction calls generalizing m with
  | nil => trivial
  | cons call calls ih =>
    rw [deletions] at h
    have hroom : call.HasRoom m := by
      unfold HasRoom
      omega
    refine ⟨hroom, ih ?_⟩
    rw [(run_entryVersion hroom).1]
    omega

theorem entryVersion_kept {calls : List AppCall} (hroom : RunOk run (fun m call => call.HasRoom m) m calls)
    {i : Nat} {call : AppCall} {v : Int} (hcall : calls[i]? = some call) (hv : call.version = some v) {j : Nat} (hij : i < j)
    (hj : j ≤ calls.length)
    (hbetween : ∀ k c, i < k → k < j → calls[k]? = some c → c.key = call.key → c.version = none) :
    ((calls.take j).foldl run m).entryVersion call.key = some v := by
  induction j with
  | zero => omega
  | succ j ih =>
    have hlt : j < calls.length := by omega
    rw [List.take_succ_eq_append_getElem hlt, List.foldl_append, List.foldl_cons, List.foldl_nil]
    have hget : calls[j]? = some calls[j] := List.getElem?_eq_getElem hlt
    rw [(run_entryVersion (hroom.at_step hget)).2]
    by_cases hlast : j = i
    · subst hlast
      rw [hcall] at hget
      rw [← Option.some.inj hget, hv]
      simp
    · have hkept := ih (by omega) (by omega) fun k c hk hkj => hbetween k c hk (by omega)
      rw [if_neg, hkept]
      rintro ⟨hsome, hkey⟩
      rw [hbetween j calls[j] (by omega) (by omega) hget hkey.symm] at hsome
      cases hsome

end AppCall

/-! ## The chains of a run -/

/-- In every run from a snapshot, with fewer deletions than the guardrail allows and below the memory limit, the records
are version chains exactly when each update finds no entry or a 32-bit version. -/
theorem version_chains_iff (maxBytesOverride : Nat) (apps : List AppInfo) (calls : List AppCall)
    (hbytes : kBytesChangeRecord * calls.length ≤ { UidMap.new with maxBytesOverride }.limit)
    (hdeletions : AppCall.deletions ({ UidMap.new with maxBytesOverride }.updateMap apps) calls < kMaxDeletedAppsInUidMap) :
    VersionChains ({ UidMap.new with maxBytesOverride }.updateMap apps) calls
        (calls.foldl AppCall.run ({ UidMap.new with maxBytesOverride }.updateMap apps)).mChanges ↔
      RunOk AppCall.run (fun m call => call.FindsInt32 m) ({ UidMap.new with maxBytesOverride }.updateMap apps) calls := by
  obtain ⟨m, hm⟩ : ∃ m, m = { UidMap.new with maxBytesOverride }.updateMap apps := ⟨_, rfl⟩
  have hsame : UidMap.SameLog { UidMap.new with maxBytesOverride } m := by
    rw [hm]
    exact UidMap.sameLog_updateMap (Nat.zero_le _) apps
  have hqueue : m.mDeletedApps = [] := by
    rw [hm]
    rfl
  rw [← hm] at hdeletions ⊢
  have hchanges : (calls.foldl AppCall.run m).mChanges = AppCall.changes m calls := by
    rw [AppCall.mChanges_run (by rw [hsame.bytes, hsame.limit]; rw [show UidMap.mBytesUsed { UidMap.new with maxBytesOverride } = 0 from rfl, Nat.zero_add]; exact hbytes), hsame.changes]
    rfl
  have hroom : RunOk AppCall.run (fun m call => call.HasRoom m) m calls := by
    apply AppCall.runOk_hasRoom
    rw [hqueue]
    simpa using le_of_lt hdeletions
  have hrecord : ∀ {n : Nat} {call : AppCall}, calls[n]? = some call →
      (AppCall.changes m calls)[n]? = some (call.change ((calls.take n).foldl AppCall.run m)) := by
    intro n call hcall
    rw [AppCall.getElem?_changes, hcall, Option.map_some]
  have hcallOf : ∀ {n : Nat} {record : ChangeRecord}, (AppCall.changes m calls)[n]? = some record →
      ∃ call, calls[n]? = some call ∧ record = call.change ((calls.take n).foldl AppCall.run m) := by
    intro n record hget
    rw [AppCall.getElem?_changes, Option.map_eq_some_iff] at hget
    obtain ⟨call, hcall, rfl⟩ := hget
    exact ⟨call, hcall, rfl⟩
  rw [hchanges, RunOk.iff_at_step]
  constructor
  · intro h n call hcall
    rw [← AppCall.change_prevVersion_iff]
    exact h.previous n call _ hcall (hrecord hcall)
  · intro h
    have hprevious : ∀ (n : Nat) (call : AppCall), calls[n]? = some call →
        (call.change ((calls.take n).foldl AppCall.run m)).prevVersion =
          call.currentVersion ((calls.take n).foldl AppCall.run m) := by
      intro n call hcall
      rw [AppCall.change_prevVersion_iff]
      exact h n call hcall
    constructor
    · exact AppCall.length_changes m calls
    · intro n call record hcall hget
      rw [hrecord hcall] at hget
      cases hget
      exact (AppCall.change_fields _ call).1
    · intro n call record hcall hget
      rw [hrecord hcall] at hget
      cases hget
      exact hprevious n call hcall
    · intro i j record record' hij hi hj hkind hkind' happ hbetween
      obtain ⟨call, hcall, rfl⟩ := hcallOf hi
      obtain ⟨call', hcall', rfl⟩ := hcallOf hj
      obtain ⟨hkey, hdeletion, hversion⟩ := AppCall.change_fields ((calls.take i).foldl AppCall.run m) call
      obtain ⟨hkey', hdeletion', -⟩ := AppCall.change_fields ((calls.take j).foldl AppCall.run m) call'
      rw [hdeletion] at hkind
      obtain ⟨v, hv⟩ := Option.isSome_iff_exists.1 (Option.isNone_eq_false_iff.1 hkind)
      have hkept := AppCall.entryVersion_kept hroom hcall hv hij (List.getElem?_eq_some_iff.1 hcall').1.le (by
        intro k c hk hkj hc hckey
        obtain ⟨hkeyk, hdeletionk, -⟩ := AppCall.change_fields ((calls.take k).foldl AppCall.run m) c
        have hdeleted := hbetween k _ hk hkj (hrecord hc) (by rw [hkeyk, hkey, hckey])
        rw [hdeletionk] at hdeleted
        simpa using hdeleted)
      rw [hprevious j call' hcall', hversion, hv]
      rw [hkey, hkey'] at happ
      rw [hdeletion'] at hkind'
      cases call' with
      | updateApp timestamp appName uid versionCode versionString installer =>
        rw [AppCall.currentVersion]
        rw [AppCall.key] at happ
        rw [happ, hkept]
      | removeApp timestamp app uid => cases hkind'

/-- An update, a removal and a new installation: the last record starts at the version of the first. -/
theorem version_chains_reinstalled :
    let calls := [AppCall.updateApp 1 "app" 1000 5 "v5" "", .removeApp 2 "app" 1000, .updateApp 3 "app" 1000 6 "v6" ""]
    kBytesChangeRecord * calls.length ≤ UidMap.new.limit ∧
      AppCall.deletions (UidMap.new.updateMap [⟨1000, 4, "v4", "app", ""⟩]) calls < kMaxDeletedAppsInUidMap ∧
      (VersionChains (UidMap.new.updateMap [⟨1000, 4, "v4", "app", ""⟩]) calls
          (calls.foldl AppCall.run (UidMap.new.updateMap [⟨1000, 4, "v4", "app", ""⟩])).mChanges ↔
        RunOk AppCall.run (fun m call => call.FindsInt32 m) (UidMap.new.updateMap [⟨1000, 4, "v4", "app", ""⟩]) calls) := by
  intro calls
  have hbytes : kBytesChangeRecord * calls.length ≤ UidMap.new.limit := by decide
  have hdeletions : AppCall.deletions (UidMap.new.updateMap [⟨1000, 4, "v4", "app", ""⟩]) calls < kMaxDeletedAppsInUidMap := by
    decide +kernel
  exact ⟨hbytes, hdeletions, version_chains_iff 0 [⟨1000, 4, "v4", "app", ""⟩] calls hbytes hdeletions⟩

/-- A version above 2^32 is updated: the record says that it was 5. -/
theorem previous_version_truncated :
    let m := UidMap.new.updateMap [⟨1000, 2 ^ 32 + 5, "v5", "app", ""⟩]
    let calls := [AppCall.updateApp 1 "app" 1000 (2 ^ 32 + 6) "v6" ""]
    kBytesChangeRecord * calls.length ≤ UidMap.new.limit ∧ AppCall.deletions m calls < kMaxDeletedAppsInUidMap ∧
      (calls.foldl AppCall.run m).mChanges.map ChangeRecord.prevVersion = [5] ∧
      ¬ VersionChains m calls (calls.foldl AppCall.run m).mChanges := by
  intro m calls
  have hprev : (calls.foldl AppCall.run m).mChanges.map ChangeRecord.prevVersion = [5] := by decide +kernel
  have hcurrent : (AppCall.updateApp 1 "app" 1000 (2 ^ 32 + 6) "v6" "").currentVersion m = 2 ^ 32 + 5 := by decide +kernel
  refine ⟨by decide, by decide, hprev, fun h => ?_⟩
  obtain ⟨record, hchanges, hrecord⟩ := List.map_eq_singleton_iff.1 hprev
  have hprevious := h.previous 0 (.updateApp 1 "app" 1000 (2 ^ 32 + 6) "v6" "") record rfl (by rw [hchanges]; rfl)
  rw [hrecord, List.take_zero, List.foldl_nil, hcurrent] at hprevious
  omega

end Statsd.Packages
