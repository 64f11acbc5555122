/-
What the uid map answers about installed apps. A snapshot rebuilds the map, but a deleted app that the
snapshot lists is overwritten by its old tombstone, and one that it does not list is dropped: the snapshot
replaces the map as intended exactly when nothing is recorded as deleted. Single updates keep the answers
right as long as the guardrail on deleted apps does not drop an app that was installed again: an update
revives an entry but leaves its key in the queue of deleted ones.
-/
import Statsd.Base.Run
import Statsd.Packages.UidMap

namespace Statsd.Packages

namespace UidMap

/-- The last element of a snapshot for an app. -/
def listed (apps : List AppInfo) (key : AppKey) : Option AppInfo := apps.reverse.find? fun app => decide (app.key = key)

/-- The version a map answers for an app, `none` for an app that it does not have. -/
def installed (m : UidMap) (key : AppKey) : Option Int :=
  match m.mMap.lookup key with
  | some data => if data.deleted then none else some data.versionCode
  | none => none

variable (m : UidMap)

theorem installed_eq_some (uid : Int) (packageName : String) (v : Int) :
    m.installed (uid, packageName) = some v ↔ m.hasApp uid packageName = true ∧ m.getAppVersion uid packageName = v := by
  unfold installed hasApp getAppVersion
  cases m.mMap.lookup (uid, packageName) with
  | none => simp
  | some data => cases hd : data.deleted <;> simp [hd]

theorem installed_isSome (key : AppKey) : (m.installed key).isSome = m.hasApp key.1 key.2 := by
  unfold installed hasApp
  cases m.mMap.lookup (key.1, key.2) with
  | none => rfl
  | some data => cases hd : data.deleted <;> simp [hd]

/-! ## Snapshots -/

theorem lookup_listed (apps : List AppInfo) (key : AppKey) :
    (apps.foldl (fun mMap app => mMap.insert app.key app.data) (∅ : UMap AppKey AppData)).lookup key =
      (listed apps key).map AppInfo.data := by
  induction apps using List.reverseRecOn with
  | nil => rfl
  | append_singleton apps app ih =>
    rw [List.foldl_append, List.foldl_cons, List.foldl_nil, UMap.lookup_insert', ih]
    unfold listed
    rw [List.reverse_append, List.reverse_singleton, List.singleton_append, List.find?_cons]
    by_cases hk : key = app.key
    · subst hk; simp
    · have hk' : app.key ≠ key := fun h => hk h.symm
      simp [hk, hk']

theorem lookup_overwrite (l : List (Sigma fun _ : AppKey => AppData)) (hl : l.NodupKeys) (m : UMap AppKey AppData)
    (key : AppKey) :
    (l.foldl (fun mMap kv => if (mMap.lookup kv.1).isSome then mMap.insert kv.1 kv.2 else mMap) m).lookup key =
      (m.lookup key).map fun data => (l.dlookup key).getD data := by
  induction l generalizing m with
  | nil => simp
  | cons kv l ih =>
    rw [List.nodupKeys_cons] at hl
    rw [List.foldl_cons, ih hl.2]
    by_cases hk : key = kv.1
    · subst hk
      have hnone : l.dlookup kv.1 = none := List.dlookup_eq_none.2 hl.1
      rw [hnone, List.dlookup_cons_eq]
      cases hm : m.lookup kv.1 with
      | none => simp [hm]
      | some data => simp
    · rw [List.dlookup_cons_ne _ _ hk]
      split
      · rw [AList.lookup_insert_ne hk]
      · rfl

theorem lookup_updateMap (apps : List AppInfo) (key : AppKey) :
    (m.updateMap apps).mMap.lookup key =
      (listed apps key).map fun app => ((m.mMap.lookup key).filter (·.deleted)).getD app.data := by
  have hloop := lookup_overwrite (m.mMap.filterVal (·.deleted)).entries (m.mMap.filterVal (·.deleted)).nodupKeys
    (apps.foldl (fun mMap app => mMap.insert app.key app.data) ∅) key
  have hdel : (m.mMap.filterVal (·.deleted)).entries.dlookup key = (m.mMap.lookup key).filter (·.deleted) :=
    UMap.lookup_filterVal (fun data : AppData => data.deleted) m.mMap key
  rw [lookup_listed, hdel, Option.map_map] at hloop
  exact hloop

/-- What a snapshot should leave: its own apps, the deleted apps that it does not list, and nothing else. -/
structure ReplacedBy (m : UidMap) (apps : List AppInfo) (m' : UidMap) : Prop where
  current : ∀ key app, listed apps key = some app → m'.mMap.lookup key = some app.data
  deleted : ∀ key data, m.mMap.lookup key = some data → data.deleted = true → listed apps key = none →
    m'.mMap.lookup key = some data
  only : ∀ key, key ∈ m'.mMap → (listed apps key).isSome ∨ ∃ data, m.mMap.lookup key = some data ∧ data.deleted = true

/-- A snapshot replaces the map exactly when no app is recorded as deleted: a deleted app that the snapshot
lists keeps its tombstone, and one that the snapshot does not list loses it. -/
theorem updateMap_replaces_iff (m : UidMap) (apps : List AppInfo) :
    ReplacedBy m apps (m.updateMap apps) ↔ ∀ key data, m.mMap.lookup key = some data → data.deleted = false := by
  constructor
  · intro h key data hdata
    by_contra hdel
    rw [Bool.not_eq_false] at hdel
    cases hl : listed apps key with
    | none =>
      have hkept := h.deleted key data hdata hdel hl
      rw [lookup_updateMap, hl] at hkept
      cases hkept
    | some app =>
      have hnew := h.current key app hl
      rw [lookup_updateMap, hl, hdata] at hnew
      simp only [Option.map_some, Option.filter_some, hdel, if_true, Option.getD_some] at hnew
      rw [Option.some.inj hnew] at hdel
      cases hdel
  · intro hnone
    have hlook : ∀ key, (m.updateMap apps).mMap.lookup key = (listed apps key).map AppInfo.data := by
      intro key
      rw [lookup_updateMap]
      cases hm : m.mMap.lookup key with
      | none => rfl
      | some data => simp only [Option.filter_some, hnone key data hm]; rfl
    refine ⟨?_, ?_, ?_⟩
    · intro key app hl
      rw [hlook, hl]; rfl
    · intro key data hdata hdel
      rw [hnone key data hdata] at hdel
      cases hdel
    · intro key hkey
      left
      have hsome := AList.lookup_isSome.2 hkey
      rw [hlook, Option.isSome_map] at hsome
      exact hsome

/-- An app is deleted, installed again as the next snapshot has it, and this snapshot arrives: the map still
has the app as deleted, with its old version. -/
theorem updateMap_keeps_tombstone :
    let old : AppInfo := ⟨1000, 4, "v4", "app", ""⟩
    let app : AppInfo := ⟨1000, 5, "v5", "app", ""⟩
    let m := (new.updateMap [old]).removeApp 2 "app" 1000
    (m.updateMap [app]).mMap.lookup (1000, "app") = some ⟨4, "v4", "", true⟩ ∧ ¬ ReplacedBy m [app] (m.updateMap [app]) := by
  intro old app m
  have hlook : (m.updateMap [app]).mMap.lookup (1000, "app") = some ⟨4, "v4", "", true⟩ := by decide +kernel
  refine ⟨hlook, fun h => ?_⟩
  have hnew := h.current (1000, "app") app (by decide +kernel)
  rw [hlook] at hnew
  cases hnew

/-! ## Single updates -/

@[simp] theorem addChange_mMap (record : ChangeRecord) : (m.addChange record).mMap = m.mMap := rfl

@[simp] theorem addChange_mDeletedApps (record : ChangeRecord) :
    (m.addChange record).mDeletedApps = m.mDeletedApps := rfl

theorem installed_updateApp (timestamp : Int) (appName : String) (uid versionCode : Int)
    (versionString installer : String) (key : AppKey) :
    (m.updateApp timestamp appName uid versionCode versionString installer).installed key =
      if key = (uid, appName) then some versionCode else m.installed key := by
  unfold installed updateApp
  rw [addChange_mMap, UMap.lookup_insert']
  by_cases hk : key = (uid, appName)
  · simp [hk]
  · simp [hk]

theorem deleteOldest_cases :
    (m.mDeletedApps.length ≤ kMaxDeletedAppsInUidMap ∧ m.deleteOldest = m) ∨
    ∃ oldest rest, m.mDeletedApps = oldest :: rest ∧ kMaxDeletedAppsInUidMap < m.mDeletedApps.length ∧
      m.deleteOldest = { m with mDeletedApps := rest, mMap := m.mMap.erase oldest } := by
  unfold deleteOldest
  cases hq : m.mDeletedApps with
  | nil => exact .inl ⟨Nat.zero_le _, rfl⟩
  | cons oldest rest =>
    dsimp only
    split
    · rename_i hlen
      exact .inr ⟨oldest, rest, rfl, hlen, rfl⟩
    · rename_i hlen
      exact .inl ⟨not_lt.1 hlen, rfl⟩

theorem installed_erase (q : List AppKey) (oldest key : AppKey) :
    ({ m with mDeletedApps := q, mMap := m.mMap.erase oldest } : UidMap).installed key =
      if key = oldest then none else m.installed key := by
  unfold installed
  dsimp only
  rw [UMap.lookup_erase']
  by_cases hk : key = oldest
  · simp [hk]
  · simp [hk]

theorem removeApp_absent {m : UidMap} (hq : m.mDeletedApps.length ≤ kMaxDeletedAppsInUidMap) (timestamp : Int)
    {app : String} {uid : Int} (h : m.installed (uid, app) = none) :
    (m.removeApp timestamp app uid).mMap = m.mMap ∧ (m.removeApp timestamp app uid).mDeletedApps = m.mDeletedApps := by
  have hsame : m.deleteOldest = m := by
    rcases m.deleteOldest_cases with ⟨-, h⟩ | ⟨oldest, rest, -, hlen, -⟩
    · exact h
    · omega
  unfold installed at h
  unfold removeApp
  cases hm : m.mMap.lookup (uid, app) with
  | none => simp [hm, hsame]
  | some data =>
    rw [hm] at h
    cases hd : data.deleted with
    | false => simp [hd] at h
    | true => simp [hm, hd, hsame]

theorem removeApp_present {m : UidMap} (timestamp : Int) {app : String} {uid : Int} (h : m.installed (uid, app) ≠ none) :
    ∃ m' : UidMap, m'.mDeletedApps = m.mDeletedApps ++ [(uid, app)] ∧
      (∀ key, m'.installed key = if key = (uid, app) then none else m.installed key) ∧
      (m.removeApp timestamp app uid).mMap = m'.deleteOldest.mMap ∧
      (m.removeApp timestamp app uid).mDeletedApps = m'.deleteOldest.mDeletedApps := by
  unfold installed at h
  unfold removeApp
  cases hm : m.mMap.lookup (uid, app) with
  | none => simp [hm] at h
  | some data =>
    cases hd : data.deleted with
    | true => simp [hm, hd] at h
    | false =>
      refine ⟨{ m with
        mMap := m.mMap.insert (uid, app) { data with deleted := true }
        mDeletedApps := m.mDeletedApps ++ [(uid, app)] }, rfl, fun key => ?_, ?_, ?_⟩
      · unfold installed
        dsimp only
        rw [UMap.lookup_insert']
        by_cases hk : key = (uid, app)
        · simp [hk]
        · simp [hk]
      · simp [hm, hd]
      · simp [hm, hd]

end UidMap

/-! ## Runs of updates -/

/-- A call for one app. -/
inductive AppCall where
  | updateApp (timestamp : Int) (appName : String) (uid versionCode : Int) (versionString installer : String)
  | removeApp (timestamp : Int) (app : String) (uid : Int)

namespace AppCall

def run (m : UidMap) : AppCall → UidMap
  | updateApp timestamp appName uid versionCode versionString installer =>
    m.updateApp timestamp appName uid versionCode versionString installer
  | removeApp timestamp app uid => m.removeApp timestamp app uid

/-- The app a call concerns. -/
def key : AppCall → AppKey
  | updateApp _ appName uid _ _ _ => (uid, appName)
  | removeApp _ app uid => (uid, app)

/-- The version a call installs, `none` for a removal. -/
def version : AppCall → Option Int
  | updateApp _ _ _ versionCode _ _ => some versionCode
  | removeApp _ _ _ => none

/-- The removal of an app does not make the guardrail drop another one that is installed: there is room in the
queue of deleted apps, or its oldest app is the removed one or is still deleted. -/
def KeepsOthers (m : UidMap) : AppCall → Prop
  | updateApp .. => True
  | removeApp _ app uid =>
    m.hasApp uid app = true → kMaxDeletedAppsInUidMap ≤ m.mDeletedApps.length →
      ∀ oldest, m.mDeletedApps.head? = some oldest → oldest = (uid, app) ∨ m.hasApp oldest.1 oldest.2 = false

end AppCall

/-- The version that the last call for an app installed, or that the snapshot has when no call concerned it. -/
def installedVersion (apps : List AppInfo) (calls : List AppCall) (key : AppKey) : Option Int :=
  match calls.reverse.find? fun call => decide (call.key = key) with
  | some call => call.version
  | none => (UidMap.listed apps key).map AppInfo.versionCode

/-- The answers of a map are those of the last call for each app. -/
def AnswersLast (apps : List AppInfo) (calls : List AppCall) (m : UidMap) : Prop :=
  ∀ uid packageName v, (m.hasApp uid packageName = true ∧ m.getAppVersion uid packageName = v) ↔
    installedVersion apps calls (uid, packageName) = some v

theorem answersLast_iff (apps : List AppInfo) (calls : List AppCall) (m : UidMap) :
    AnswersLast apps calls m ↔ ∀ key, m.installed key = installedVersion apps calls key := by
  unfold AnswersLast
  simp only [← UidMap.installed_eq_some]
  constructor
  · rintro h ⟨uid, packageName⟩
    exact Option.ext fun v => h uid packageName v
  · intro h uid packageName v
    rw [h]

theorem installedVersion_append (apps : List AppInfo) (calls : List AppCall) (call : AppCall) (key : AppKey) :
    installedVersion apps (calls ++ [call]) key =
      if key = call.key then call.version else installedVersion apps calls key := by
  unfold installedVersion
  rw [List.reverse_append, List.reverse_singleton, List.singleton_append, List.find?_cons]
  by_cases hk : key = call.key
  · subst hk; simp
  · have hk' : call.key ≠ key := fun h => hk h.symm
    simp [hk, hk']

theorem installed_snapshot (apps : List AppInfo) (key : AppKey) :
    (UidMap.new.updateMap apps).installed key = installedVersion apps [] key := by
  unfold UidMap.installed
  rw [UidMap.lookup_updateMap]
  have hnew : UidMap.new.mMap.lookup key = none := rfl
  unfold installedVersion
  cases hl : UidMap.listed apps key with
  | none => rfl
  | some app => simp [hnew, AppInfo.data]

theorem AppCall.run_spec {m : UidMap} (hq : m.mDeletedApps.length ≤ kMaxDeletedAppsInUidMap) (call : AppCall) :
    (call.run m).mDeletedApps.length ≤ kMaxDeletedAppsInUidMap ∧
    (call.KeepsOthers m ∧ (∀ key, (call.run m).installed key = if key = call.key then call.version else m.installed key) ∨
      ¬ call.KeepsOthers m ∧ ∃ oldest, oldest ≠ call.key ∧ m.installed oldest ≠ none ∧ (call.run m).installed oldest = none) := by
  cases call with
  | updateApp timestamp appName uid versionCode versionString installer =>
    refine ⟨hq, .inl ⟨trivial, fun key => ?_⟩⟩
    exact m.installed_updateApp timestamp appName uid versionCode versionString installer key
  | removeApp timestamp app uid =>
    have hhas := m.installed_isSome (uid, app)
    unfold AppCall.run
    by_cases hin : m.installed (uid, app) = none
    · -- nothing is deleted
      obtain ⟨hmap, hdel⟩ := UidMap.removeApp_absent hq timestamp hin
      rw [hin] at hhas
      refine ⟨hdel ▸ hq, .inl ⟨fun h => ?_, fun key => ?_⟩⟩
      · rw [h] at hhas; cases hhas
      have hsame : (m.removeApp timestamp app uid).installed key = m.installed key := by
        unfold UidMap.installed; rw [hmap]
      rw [hsame]
      by_cases hk : key = (uid, app)
      · subst hk; simp [AppCall.key, AppCall.version, hin]
      · simp [AppCall.key, hk]
    obtain ⟨m', hdel, hins, hmap', hdel'⟩ := UidMap.removeApp_present timestamp hin
    have hres : ∀ key, (m.removeApp timestamp app uid).installed key = m'.deleteOldest.installed key := by
      intro key; unfold UidMap.installed; rw [hmap']
    have hlen' := congrArg List.length hdel
    rw [List.length_append, List.length_singleton] at hlen'
    rcases m'.deleteOldest_cases with ⟨hlen, hold⟩ | ⟨oldest, rest, hold, hlen, herase⟩
    · -- there is room in the queue
      rw [hold] at hdel' hres
      refine ⟨hdel' ▸ hlen, .inl ⟨fun _ hfull => by omega, fun key => ?_⟩⟩
      rw [hres, hins]; rfl
    · have hfull : kMaxDeletedAppsInUidMap ≤ m.mDeletedApps.length := by omega
      have hrest : rest.length ≤ kMaxDeletedAppsInUidMap := by
        have := congrArg List.length hold
        rw [List.length_cons] at this; omega
      have hhead : m.mDeletedApps.head? = some oldest := by
        have hpos : m.mDeletedApps ≠ [] := by
          intro h0; rw [h0] at hfull; exact absurd hfull (by decide)
        have := congrArg List.head? (hold.symm.trans hdel)
        rw [List.head?_append_of_ne_nil _ hpos, List.head?_cons] at this
        exact this.symm
      have hafter : ∀ key, (m.removeApp timestamp app uid).installed key =
          if key = oldest then none else if key = (uid, app) then none else m.installed key := by
        intro key; rw [hres, herase, UidMap.installed_erase, hins]
      have holdest := m.installed_isSome oldest
      refine ⟨by rw [hdel', herase]; exact hrest, ?_⟩
      by_cases hother : oldest = (uid, app) ∨ m.installed oldest = none
      · -- what the guardrail drops is not installed any more
        refine .inl ⟨fun _ _ key hkey => ?_, fun key => ?_⟩
        · rw [hhead] at hkey
          cases hkey
          rcases hother with h | h
          · exact .inl h
          · rw [h] at holdest; exact .inr holdest.symm
        · rw [hafter]
          by_cases hk : key = (uid, app)
          · simp [AppCall.key, AppCall.version, hk]
          by_cases hk' : key = oldest
          · subst hk'
            have hnone : m.installed key = none := hother.resolve_left hk
            simp [AppCall.key, hk, hnone]
          · simp [AppCall.key, hk, hk']
      · push Not at hother
        refine .inr ⟨fun hkeep => ?_, oldest, hother.1, hother.2, by rw [hafter]; simp⟩
        rw [Option.isSome_iff_ne_none.2 hin] at hhas
        rw [Option.isSome_iff_ne_none.2 hother.2] at holdest
        rcases hkeep hhas.symm hfull oldest hhead with h | h
        · exact hother.1 h
        · rw [h] at holdest; cases holdest

theorem AppCall.run_mLastUpdatePerConfigKey (m : UidMap) (call : AppCall) :
    (call.run m).mLastUpdatePerConfigKey = m.mLastUpdatePerConfigKey := by
  have hoverdue : ∀ m : UidMap, m.deleteOldest.mLastUpdatePerConfigKey = m.mLastUpdatePerConfigKey := by
    intro m
    rcases m.deleteOldest_cases with ⟨-, h⟩ | ⟨oldest, rest, -, -, h⟩ <;> rw [h]
  cases call with
  | updateApp => rfl
  | removeApp timestamp app uid =>
    show (m.removeApp timestamp app uid).mLastUpdatePerConfigKey = _
    unfold UidMap.removeApp
    cases hm : m.mMap.lookup (uid, app) with
    | none =>
      simp only [hm]
      exact hoverdue m
    | some data =>
      cases hd : data.deleted with
      | true =>
        simp only [hm, hd, Bool.not_true, Bool.false_eq_true, if_false]
        exact hoverdue m
      | false =>
        simp only [hm, hd, Bool.not_false, if_true]
        exact hoverdue _

/-- The answers are those of the last call for each app in every state of a run exactly when no removal in it
makes the guardrail drop an app that is installed. -/
theorem answers_last_iff (apps : List AppInfo) (calls : List AppCall) :
    (∀ n, AnswersLast apps (calls.take n) ((calls.take n).foldl AppCall.run (UidMap.new.updateMap apps))) ↔
      RunOk AppCall.run (fun m call => call.KeepsOthers m) (UidMap.new.updateMap apps) calls := by
  simp only [answersLast_iff]
  refine RunOk.iff_prefixes (I := fun m : UidMap => m.mDeletedApps.length ≤ kMaxDeletedAppsInUidMap)
    (P := fun pre m => ∀ key, m.installed key = installedVersion apps pre key) ?_ ?_ (Nat.zero_le _)
    (installed_snapshot apps) calls
  · intro pre m call hq hP hok
    obtain ⟨hq', hcases⟩ := call.run_spec hq
    refine ⟨hq', fun key => ?_⟩
    rcases hcases with ⟨-, hrun⟩ | ⟨hno, -⟩
    · rw [hrun, installedVersion_append, hP]
    · exact absurd hok hno
  · intro pre m call hq hP hbad hP'
    obtain ⟨-, ⟨hok, -⟩ | ⟨-, oldest, hne, hin, hout⟩⟩ := call.run_spec hq
    · exact hbad hok
    · rw [hP', installedVersion_append, if_neg hne, ← hP] at hout
      exact hin hout

/-- An app is deleted and installed again, then a hundred other apps are deleted: the guardrail takes the app
for the oldest deleted one and drops it. -/
theorem reinstalled_app_dropped :
    let apps := (List.range 101).map fun i => (⟨i, 1, "v1", "app", ""⟩ : AppInfo)
    let calls := [.removeApp 1 "app" 0, .updateApp 2 "app" 0 7 "v7" ""] ++
      (List.range 100).map fun i => AppCall.removeApp 3 "app" (i + 1)
    installedVersion apps calls (0, "app") = some 7 ∧
      ¬ AnswersLast apps calls (calls.foldl AppCall.run (UidMap.new.updateMap apps)) := by
  intro apps calls
  have hlast : installedVersion apps calls (0, "app") = some 7 := by decide +kernel
  refine ⟨hlast, fun h => ?_⟩
  rw [answersLast_iff] at h
  have hnone : (calls.foldl AppCall.run (UidMap.new.updateMap apps)).installed (0, "app") = none := by decide +kernel
  rw [h, hlast] at hnone
  cases hnone

end Statsd.Packages
