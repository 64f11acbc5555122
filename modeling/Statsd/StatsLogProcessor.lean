/-
The configs of the log processor (StatsLogProcessor.cpp): a metrics manager for each live config, built or
updated on config updates and resets, and the reports that go through the uid map. The uid map keeps a
time for each config it knows of; it is told of valid updates and of removals, but not when an invalid update
makes the processor drop a config.

How a manager is built from a config, updated in place and dumped is a parameter, and so are the configs on
disk that a reset reads. The broadcasts, the stats and the written files are left out.
-/
import Statsd.Base.Run
import Statsd.Packages.InstalledApps
import Statsd.StatsLogUtil

namespace Statsd

open Packages

/-- `MetricsManager`: its contents and what the processor reads of it. -/
structure MetricsManager (Contents : Type) where
  contents : Contents
  mConfigValid : Bool
  mTtlNs : Int
  mTtlEndNs : Int
  metricCount : Nat
  noReportMetricCount : Nat

/-- What building or updating the contents from a config comes to: the contents, whether the config is valid
(its metrics, its log sources and the guardrails), and the numbers of metrics and of metrics not reported. -/
structure Built (Contents : Type) where
  contents : Contents
  valid : Bool
  metricCount : Nat
  noReportMetricCount : Nat

/-- The parts of the metrics manager that the processor's model is parametric in. -/
structure ManagerModel (StatsdConfig Contents : Type) where
  ttl_in_seconds : StatsdConfig → Option Int
  initStatsdConfig : ConfigKey → StatsdConfig → Int → Built Contents
  updateStatsdConfig : Contents → StatsdConfig → Int → Built Contents
  onDumpReport : Contents → Int → Contents

namespace MetricsManager

variable {StatsdConfig Contents : Type} (mm : ManagerModel StatsdConfig Contents)

def ttlNs (config : StatsdConfig) : Int :=
  match mm.ttl_in_seconds config with
  | some ttl => ttl * NS_PER_SEC
  | none => -1

def refreshTtl (m : MetricsManager Contents) (currentTimestampNs : Int) : MetricsManager Contents :=
  if m.mTtlNs > 0 then { m with mTtlEndNs := currentTimestampNs + m.mTtlNs } else m

def isInTtl (m : MetricsManager Contents) (timestampNs : Int) : Bool :=
  decide (m.mTtlNs ≤ 0) || decide (timestampNs < m.mTtlEndNs)

def shouldWriteToDisk (m : MetricsManager Contents) : Bool := decide (m.noReportMetricCount ≠ m.metricCount)

/-- The constructor. -/
def new (key : ConfigKey) (config : StatsdConfig) (timeBaseNs currentTimeNs : Int) : MetricsManager Contents :=
  let built := mm.initStatsdConfig key config currentTimeNs
  refreshTtl
    { contents := built.contents
      mConfigValid := built.valid
      mTtlNs := ttlNs mm config
      mTtlEndNs := -1
      metricCount := built.metricCount
      noReportMetricCount := built.noReportMetricCount } timeBaseNs

def updateConfig (m : MetricsManager Contents) (config : StatsdConfig) (currentTimeNs : Int) : MetricsManager Contents :=
  let built := mm.updateStatsdConfig m.contents config currentTimeNs
  refreshTtl
    { m with
      contents := built.contents
      mConfigValid := built.valid
      mTtlNs := ttlNs mm config
      metricCount := built.metricCount
      noReportMetricCount := built.noReportMetricCount } currentTimeNs

def onDumpReport (m : MetricsManager Contents) (dumpTimeNs : Int) : MetricsManager Contents :=
  { m with contents := mm.onDumpReport m.contents dumpTimeNs }

end MetricsManager

structure StatsLogProcessor (Contents : Type) where
  mUidMap : UidMap
  mMetricsManagers : UMap ConfigKey (MetricsManager Contents)
  mTimeBaseNs : Int
  mLastWriteTimeNs : Int

/-- Seconds between two writes of all reports. -/
def WRITE_DATA_COOL_DOWN_SEC : Int := 5

namespace StatsLogProcessor

variable {StatsdConfig Contents : Type}

def new (uidMap : UidMap) (timeBaseNs : Int) : StatsLogProcessor Contents := ⟨uidMap, ∅, timeBaseNs, 0⟩

variable (mm : ManagerModel StatsdConfig Contents)

def onConfigMetricsReportLocked (s : StatsLogProcessor Contents) (key : ConfigKey) (dumpTimeStampNs : Int) :
    StatsLogProcessor Contents :=
  match s.mMetricsManagers.lookup key with
  | none => s
  | some m =>
    let s := { s with mMetricsManagers := s.mMetricsManagers.insert key (m.onDumpReport mm dumpTimeStampNs) }
    -- the uid map is filled in if there is at least one metric
    if m.metricCount > 0 then { s with mUidMap := (s.mUidMap.appendUidMap dumpTimeStampNs key).2 } else s

/-- `WriteDataToDiskLocked` for one config. -/
def writeConfigToDiskLocked (s : StatsLogProcessor Contents) (key : ConfigKey) (timestampNs : Int) :
    StatsLogProcessor Contents :=
  match s.mMetricsManagers.lookup key with
  | none => s
  | some m => if !m.shouldWriteToDisk then s else s.onConfigMetricsReportLocked mm key timestampNs

/-- `WriteDataToDiskLocked` for all configs, not too soon after the last time. -/
def WriteDataToDiskLocked (s : StatsLogProcessor Contents) (elapsedRealtimeNs : Int) : StatsLogProcessor Contents :=
  if elapsedRealtimeNs < s.mLastWriteTimeNs + WRITE_DATA_COOL_DOWN_SEC * NS_PER_SEC then s
  else
    s.mMetricsManagers.keys.foldl (fun s key => s.writeConfigToDiskLocked mm key elapsedRealtimeNs)
      { s with mLastWriteTimeNs := elapsedRealtimeNs }

def OnConfigUpdatedLocked (s : StatsLogProcessor Contents) (timestampNs : Int) (key : ConfigKey) (config : StatsdConfig)
    (modularUpdate : Bool) : StatsLogProcessor Contents :=
  let invalid (s : StatsLogProcessor Contents) := { s with mMetricsManagers := s.mMetricsManagers.erase key }
  let create :=
    let newMetricsManager := MetricsManager.new mm key config s.mTimeBaseNs timestampNs
    if newMetricsManager.mConfigValid then
      { s with
        mUidMap := s.mUidMap.OnConfigUpdated key
        mMetricsManagers := s.mMetricsManagers.insert key (newMetricsManager.refreshTtl timestampNs) }
    else invalid s
  match s.mMetricsManagers.lookup key with
  | none => create
  | some m =>
    if !modularUpdate then create
    else
      -- the manager is updated in place
      let m := m.updateConfig mm config timestampNs
      let s := { s with mMetricsManagers := s.mMetricsManagers.insert key m }
      if m.mConfigValid then { s with mUidMap := s.mUidMap.OnConfigUpdated key } else invalid s

def OnConfigUpdated (s : StatsLogProcessor Contents) (timestampNs : Int) (key : ConfigKey) (config : StatsdConfig)
    (modularUpdate : Bool) : StatsLogProcessor Contents :=
  (s.writeConfigToDiskLocked mm key timestampNs).OnConfigUpdatedLocked mm timestampNs key config modularUpdate

def OnConfigRemoved (s : StatsLogProcessor Contents) (key : ConfigKey) (elapsedRealtimeNs : Int) :
    StatsLogProcessor Contents :=
  match s.mMetricsManagers.lookup key with
  | none => s
  | some _ =>
    let s := s.writeConfigToDiskLocked mm key elapsedRealtimeNs
    { s with
      mMetricsManagers := s.mMetricsManagers.erase key
      mUidMap := s.mUidMap.OnConfigRemoved key }

/-- The reset of one config: the config on disk is read, and built from scratch. -/
def resetConfigLocked (s : StatsLogProcessor Contents) (timestampNs : Int) (disk : ConfigKey → Option StatsdConfig)
    (key : ConfigKey) : StatsLogProcessor Contents :=
  match disk key with
  | some config => s.OnConfigUpdatedLocked mm timestampNs key config false
  | none =>
    match s.mMetricsManagers.lookup key with
    | some m => { s with mMetricsManagers := s.mMetricsManagers.insert key (m.refreshTtl timestampNs) }
    | none => s

/-- `resetConfigsLocked` for a list of configs. -/
def resetConfigsLocked (s : StatsLogProcessor Contents) (timestampNs : Int) (disk : ConfigKey → Option StatsdConfig)
    (configs : List ConfigKey) : StatsLogProcessor Contents :=
  configs.foldl (fun s key => s.resetConfigLocked mm timestampNs disk key) s

def resetConfigs (s : StatsLogProcessor Contents) (elapsedRealtimeNs : Int) (disk : ConfigKey → Option StatsdConfig) :
    StatsLogProcessor Contents :=
  s.resetConfigsLocked mm elapsedRealtimeNs disk s.mMetricsManagers.keys

/-- The configs whose time to live is over. -/
def expired (s : StatsLogProcessor Contents) (eventTimeNs : Int) : List ConfigKey :=
  (s.mMetricsManagers.entries.filter fun pair => !pair.2.isInTtl eventTimeNs).map Sigma.fst

def resetIfConfigTtlExpiredLocked (s : StatsLogProcessor Contents) (eventTimeNs elapsedRealtimeNs : Int)
    (disk : ConfigKey → Option StatsdConfig) : StatsLogProcessor Contents :=
  if (s.expired eventTimeNs).length > 0 then
    (s.WriteDataToDiskLocked mm elapsedRealtimeNs).resetConfigsLocked mm eventTimeNs disk (s.expired eventTimeNs)
  else s

/-- `onDumpReport`, the part that touches the configs. -/
def onDumpReport (s : StatsLogProcessor Contents) (key : ConfigKey) (dumpTimeStampNs : Int) : StatsLogProcessor Contents :=
  match s.mMetricsManagers.lookup key with
  | some _ => s.onConfigMetricsReportLocked mm key dumpTimeStampNs
  | none => s

/-! ## The keys of the uid map and of the metrics managers -/

/-- The uid map knows of exactly the configs that have a manager. -/
def KeysAgree (s : StatsLogProcessor Contents) : Prop :=
  ∀ key, key ∈ s.mUidMap.mLastUpdatePerConfigKey ↔ key ∈ s.mMetricsManagers

theorem mem_appendUidMap (m : UidMap) (timestamp : Int) (key key' : ConfigKey) :
    key' ∈ (m.appendUidMap timestamp key).2.mLastUpdatePerConfigKey ↔ key' = key ∨ key' ∈ m.mLastUpdatePerConfigKey := by
  have htouch : key' ∈ ((m.touch key).mLastUpdatePerConfigKey.insert key timestamp) ↔
      key' = key ∨ key' ∈ m.mLastUpdatePerConfigKey := by
    rw [AList.mem_insert]
    unfold UidMap.touch UMap.emplace
    split
    · rfl
    · dsimp only
      split
      · rfl
      · rw [AList.mem_insert]; tauto
  unfold UidMap.appendUidMap
  dsimp only
  split <;> exact htouch

/-- What reports leave: the managers have the same keys, and the uid map knows of no config that had none. -/
structure SameKeys (s s' : StatsLogProcessor Contents) : Prop where
  managers : ∀ key, key ∈ s'.mMetricsManagers ↔ key ∈ s.mMetricsManagers
  known : ∀ key, key ∈ s.mUidMap.mLastUpdatePerConfigKey → key ∈ s'.mUidMap.mLastUpdatePerConfigKey
  only : ∀ key, key ∈ s'.mUidMap.mLastUpdatePerConfigKey →
    key ∈ s.mUidMap.mLastUpdatePerConfigKey ∨ key ∈ s.mMetricsManagers

variable (s : StatsLogProcessor Contents)

theorem SameKeys.refl : SameKeys s s :=
  ⟨fun _ => Iff.rfl, fun _ h => h, fun _ h => .inl h⟩

theorem SameKeys.trans {s s' s'' : StatsLogProcessor Contents} (h : SameKeys s s') (h' : SameKeys s' s'') : SameKeys s s'' := by
  refine ⟨fun key => (h'.managers key).trans (h.managers key), fun key hk => h'.known key (h.known key hk), fun key hk => ?_⟩
  rcases h'.only key hk with hk | hk
  · exact h.only key hk
  · exact .inr ((h.managers key).1 hk)

theorem SameKeys.agree {s s' : StatsLogProcessor Contents} (h : SameKeys s s') (hs : KeysAgree s) : KeysAgree s' := by
  intro key
  rw [h.managers key]
  constructor
  · intro hk
    rcases h.only key hk with hk | hk
    · exact (hs key).1 hk
    · exact hk
  · exact fun hk => h.known key ((hs key).2 hk)

theorem mem_insert_of_lookup {m : UMap ConfigKey (MetricsManager Contents)} {key : ConfigKey} {v : MetricsManager Contents}
    (h : m.lookup key = some v) (v' : MetricsManager Contents) (key' : ConfigKey) : key' ∈ m.insert key v' ↔ key' ∈ m := by
  have hmem : key ∈ m := AList.lookup_isSome.1 (by rw [h]; rfl)
  rw [AList.mem_insert]
  exact ⟨fun hk => hk.elim (fun hk => hk ▸ hmem) id, .inr⟩

theorem sameKeys_report (key : ConfigKey) (dumpTimeStampNs : Int) :
    SameKeys s (s.onConfigMetricsReportLocked mm key dumpTimeStampNs) := by
  unfold onConfigMetricsReportLocked
  cases hm : s.mMetricsManagers.lookup key with
  | none => exact .refl s
  | some m =>
    have hmem : key ∈ s.mMetricsManagers := AList.lookup_isSome.1 (by rw [hm]; rfl)
    dsimp only
    split
    · refine ⟨fun key' => mem_insert_of_lookup hm _ key', fun key' hk => ?_, fun key' hk => ?_⟩
      · exact (mem_appendUidMap _ _ _ _).2 (.inr hk)
      · rcases (mem_appendUidMap _ _ _ _).1 hk with rfl | hk
        · exact .inr hmem
        · exact .inl hk
    · exact ⟨fun key' => mem_insert_of_lookup hm _ key', fun _ hk => hk, fun _ hk => .inl hk⟩

theorem sameKeys_writeConfig (key : ConfigKey) (timestampNs : Int) :
    SameKeys s (s.writeConfigToDiskLocked mm key timestampNs) := by
  unfold writeConfigToDiskLocked
  cases s.mMetricsManagers.lookup key with
  | none => exact .refl s
  | some m =>
    dsimp only
    split
    · exact .refl s
    · exact s.sameKeys_report mm key timestampNs

theorem sameKeys_write (elapsedRealtimeNs : Int) :
    SameKeys s (s.WriteDataToDiskLocked mm elapsedRealtimeNs) := by
  unfold WriteDataToDiskLocked
  split
  · exact .refl s
  · have hloop : ∀ (keys : List ConfigKey) (s : StatsLogProcessor Contents),
        SameKeys s (keys.foldl (fun s key => s.writeConfigToDiskLocked mm key elapsedRealtimeNs) s) := by
      intro keys
      induction keys with
      | nil => exact fun s => .refl s
      | cons key keys ih => exact fun s => (s.sameKeys_writeConfig mm key elapsedRealtimeNs).trans (ih _)
    have hset : SameKeys s { s with mLastWriteTimeNs := elapsedRealtimeNs } :=
      ⟨fun _ => Iff.rfl, fun _ h => h, fun _ h => .inl h⟩
    exact hset.trans (hloop _ _)

/-- Whether `OnConfigUpdatedLocked` finds the config valid. -/
def updateValid (s : StatsLogProcessor Contents) (timestampNs : Int) (key : ConfigKey) (config : StatsdConfig)
    (modularUpdate : Bool) : Bool :=
  match s.mMetricsManagers.lookup key with
  | some m =>
    if modularUpdate then (mm.updateStatsdConfig m.contents config timestampNs).valid
    else (mm.initStatsdConfig key config timestampNs).valid
  | none => (mm.initStatsdConfig key config timestampNs).valid

theorem refreshTtl_mConfigValid (m : MetricsManager Contents) (t : Int) : (m.refreshTtl t).mConfigValid = m.mConfigValid := by
  unfold MetricsManager.refreshTtl; split <;> rfl

/-- What an update leaves: a valid config is live in both maps; for one that is not, only its manager goes. -/
def Outcome (s s' : StatsLogProcessor Contents) (key : ConfigKey) (valid : Bool) : Prop :=
  match valid with
  | true =>
    (∀ key', key' ∈ s'.mMetricsManagers ↔ key' = key ∨ key' ∈ s.mMetricsManagers) ∧
    ∀ key', key' ∈ s'.mUidMap.mLastUpdatePerConfigKey ↔ key' = key ∨ key' ∈ s.mUidMap.mLastUpdatePerConfigKey
  | false =>
    (∀ key', key' ∈ s'.mMetricsManagers ↔ key' ≠ key ∧ key' ∈ s.mMetricsManagers) ∧ s'.mUidMap = s.mUidMap

theorem update_outcome (timestampNs : Int) (key : ConfigKey) (config : StatsdConfig)
    (modularUpdate : Bool) :
    Outcome s (s.OnConfigUpdatedLocked mm timestampNs key config modularUpdate) key
      (s.updateValid mm timestampNs key config modularUpdate) := by
  have hnew : (MetricsManager.new mm key config s.mTimeBaseNs timestampNs).mConfigValid =
      (mm.initStatsdConfig key config timestampNs).valid := refreshTtl_mConfigValid _ _
  -- a manager built from scratch
  have hcreate : Outcome s (if (MetricsManager.new mm key config s.mTimeBaseNs timestampNs).mConfigValid then
        { s with
          mUidMap := s.mUidMap.OnConfigUpdated key
          mMetricsManagers := s.mMetricsManagers.insert key
            ((MetricsManager.new mm key config s.mTimeBaseNs timestampNs).refreshTtl timestampNs) }
        else { s with mMetricsManagers := s.mMetricsManagers.erase key }) key
      (mm.initStatsdConfig key config timestampNs).valid := by
    rw [hnew]
    cases (mm.initStatsdConfig key config timestampNs).valid with
    | true => exact ⟨fun key' => AList.mem_insert .., fun key' => AList.mem_insert ..⟩
    | false => exact ⟨fun key' => AList.mem_erase, rfl⟩
  unfold updateValid OnConfigUpdatedLocked
  cases hm : s.mMetricsManagers.lookup key with
  | none => exact hcreate
  | some m =>
    cases modularUpdate with
    | false => exact hcreate
    | true =>
      have hvalid : (m.updateConfig mm config timestampNs).mConfigValid =
          (mm.updateStatsdConfig m.contents config timestampNs).valid := refreshTtl_mConfigValid _ _
      simp only [Bool.not_true, Bool.false_eq_true, if_false, if_true, hvalid]
      cases (mm.updateStatsdConfig m.contents config timestampNs).valid with
      | true => exact ⟨fun key' => AList.mem_insert .., fun key' => AList.mem_insert ..⟩
      | false =>
        refine ⟨fun key' => ?_, rfl⟩
        simp only [Bool.false_eq_true, if_false]
        rw [AList.mem_erase, mem_insert_of_lookup hm]

variable {s : StatsLogProcessor Contents}

/-- Keys that agree before an update agree after it exactly when the update is valid or the config was not live. -/
theorem update_agree_iff (hs : KeysAgree s) (timestampNs : Int) (key : ConfigKey)
    (config : StatsdConfig) (modularUpdate : Bool) :
    KeysAgree (s.OnConfigUpdatedLocked mm timestampNs key config modularUpdate) ↔
      (key ∈ s.mMetricsManagers → s.updateValid mm timestampNs key config modularUpdate = true) := by
  have hout := s.update_outcome mm timestampNs key config modularUpdate
  cases hv : s.updateValid mm timestampNs key config modularUpdate with
  | true =>
    rw [hv] at hout
    refine iff_of_true (fun key' => ?_) fun _ => rfl
    rw [hout.1, hout.2, hs key']
  | false =>
    rw [hv] at hout
    rw [KeysAgree, hout.2]
    constructor
    · intro h hk
      exact absurd rfl ((hout.1 key).1 ((h key).1 ((hs key).2 hk))).1
    · intro h key'
      rw [hout.1, hs key']
      refine ⟨fun hk => ⟨?_, hk⟩, fun hk => hk.2⟩
      rintro rfl
      exact Bool.false_ne_true (h hk)

/-! ## Resets -/

/-- The configs on disk are valid for the keys that are reset. -/
def DiskValid (timestampNs : Int) (disk : ConfigKey → Option StatsdConfig) (configs : List ConfigKey) : Prop :=
  ∀ key ∈ configs, ∀ config, disk key = some config → (mm.initStatsdConfig key config timestampNs).valid = true

theorem reset_agree_iff (hs : KeysAgree s) (timestampNs : Int)
    (disk : ConfigKey → Option StatsdConfig) {key : ConfigKey} (hkey : key ∈ s.mMetricsManagers) :
    KeysAgree (s.resetConfigLocked mm timestampNs disk key) ↔ DiskValid mm timestampNs disk [key] := by
  unfold resetConfigLocked DiskValid
  cases hd : disk key with
  | none =>
    obtain ⟨m, hm⟩ := Option.isSome_iff_exists.1 (AList.lookup_isSome.2 hkey)
    simp only [hm]
    refine iff_of_true (fun key' => ?_) fun key' hk config hc => ?_
    · dsimp only
      rw [mem_insert_of_lookup hm, hs key']
    · rw [List.mem_singleton.1 hk, hd] at hc; cases hc
  | some config =>
    dsimp only
    rw [update_agree_iff mm hs]
    have hvalid : s.updateValid mm timestampNs key config false = (mm.initStatsdConfig key config timestampNs).valid := by
      unfold updateValid; cases s.mMetricsManagers.lookup key <;> rfl
    rw [hvalid]
    constructor
    · intro h key' hk config' hc
      rw [List.mem_singleton.1 hk] at hc ⊢
      rw [hd] at hc
      cases hc
      exact h hkey
    · intro h _
      exact h key List.mem_cons_self config hd

theorem reset_other (timestampNs : Int) (disk : ConfigKey → Option StatsdConfig)
    {key key' : ConfigKey} (hne : key' ≠ key) :
    (key' ∈ (s.resetConfigLocked mm timestampNs disk key).mMetricsManagers ↔ key' ∈ s.mMetricsManagers) ∧
    (key' ∈ (s.resetConfigLocked mm timestampNs disk key).mUidMap.mLastUpdatePerConfigKey ↔
      key' ∈ s.mUidMap.mLastUpdatePerConfigKey) := by
  unfold resetConfigLocked
  cases disk key with
  | none =>
    dsimp only
    cases hm : s.mMetricsManagers.lookup key with
    | none => exact ⟨Iff.rfl, Iff.rfl⟩
    | some m => exact ⟨mem_insert_of_lookup hm _ key', Iff.rfl⟩
  | some config =>
    dsimp only
    have hout := s.update_outcome mm timestampNs key config false
    cases hv : s.updateValid mm timestampNs key config false with
    | true =>
      rw [hv] at hout
      rw [hout.1, hout.2]
      exact ⟨or_iff_right hne, or_iff_right hne⟩
    | false =>
      rw [hv] at hout
      rw [hout.1, hout.2]
      exact ⟨and_iff_right hne, Iff.rfl⟩

theorem resets_agree_iff (timestampNs : Int) (disk : ConfigKey → Option StatsdConfig) (configs : List ConfigKey)
    (hnodup : configs.Nodup) (hs : KeysAgree s)
    (hlive : ∀ key ∈ configs, key ∈ s.mMetricsManagers) :
    KeysAgree (s.resetConfigsLocked mm timestampNs disk configs) ↔ DiskValid mm timestampNs disk configs := by
  -- a config whose keys differ keeps them so while others are reset
  have hother : ∀ (configs : List ConfigKey) (s : StatsLogProcessor Contents) (key : ConfigKey), key ∉ configs →
      ((key ∈ (s.resetConfigsLocked mm timestampNs disk configs).mMetricsManagers ↔ key ∈ s.mMetricsManagers) ∧
      (key ∈ (s.resetConfigsLocked mm timestampNs disk configs).mUidMap.mLastUpdatePerConfigKey ↔
        key ∈ s.mUidMap.mLastUpdatePerConfigKey)) := by
    intro configs
    induction configs with
    | nil => exact fun _ _ _ => ⟨Iff.rfl, Iff.rfl⟩
    | cons key' configs ih =>
      intro s key hkey
      rw [List.mem_cons, not_or] at hkey
      obtain ⟨h1, h2⟩ := ih (s.resetConfigLocked mm timestampNs disk key') key hkey.2
      obtain ⟨h3, h4⟩ := s.reset_other mm timestampNs disk hkey.1
      exact ⟨h1.trans h3, h2.trans h4⟩
  induction configs generalizing s with
  | nil => exact iff_of_true hs fun _ hk => absurd hk List.not_mem_nil
  | cons key configs ih =>
    rw [List.nodup_cons] at hnodup
    have hcons : DiskValid mm timestampNs disk (key :: configs) ↔
        DiskValid mm timestampNs disk [key] ∧ DiskValid mm timestampNs disk configs := by
      unfold DiskValid; simp
    rw [hcons]
    have hfirst := reset_agree_iff mm hs timestampNs disk (hlive key List.mem_cons_self)
    by_cases hv : DiskValid mm timestampNs disk [key]
    · rw [and_iff_right hv]
      refine ih hnodup.2 (hfirst.2 hv) fun key' hk => ?_
      have hne : key' ≠ key := by rintro rfl; exact hnodup.1 hk
      exact (s.reset_other mm timestampNs disk hne).1.2 (hlive key' (List.mem_cons_of_mem key hk))
    · refine iff_of_false (fun h => hv (hfirst.1 fun key' => ?_)) fun h => hv h.1
      -- the keys of the config that was reset are those of the end, the others are as they were
      by_cases hk : key' = key
      · subst hk
        obtain ⟨h1, h2⟩ := hother configs (s.resetConfigLocked mm timestampNs disk key') key' hnodup.1
        rw [← h1, ← h2]
        exact h key'
      · obtain ⟨h3, h4⟩ := s.reset_other mm timestampNs disk hk
        rw [h3, h4, hs key']

/-! ## Runs -/

/-- A call of the processor, or of the uid map it shares, that touches their keys or the change log. -/
inductive ProcessorCall (StatsdConfig : Type) where
  | OnConfigUpdated (timestampNs : Int) (key : ConfigKey) (config : StatsdConfig) (modularUpdate : Bool)
  | OnConfigRemoved (key : ConfigKey) (elapsedRealtimeNs : Int)
  | resetConfigs (elapsedRealtimeNs : Int) (disk : ConfigKey → Option StatsdConfig)
  | resetIfConfigTtlExpired (eventTimeNs elapsedRealtimeNs : Int) (disk : ConfigKey → Option StatsdConfig)
  | onDumpReport (key : ConfigKey) (dumpTimeStampNs : Int)
  | WriteDataToDisk (elapsedRealtimeNs : Int)
  | app (call : AppCall)

def run (s : StatsLogProcessor Contents) : ProcessorCall StatsdConfig → StatsLogProcessor Contents
  | .OnConfigUpdated timestampNs key config modularUpdate => s.OnConfigUpdated mm timestampNs key config modularUpdate
  | .OnConfigRemoved key elapsedRealtimeNs => s.OnConfigRemoved mm key elapsedRealtimeNs
  | .resetConfigs elapsedRealtimeNs disk => s.resetConfigs mm elapsedRealtimeNs disk
  | .resetIfConfigTtlExpired eventTimeNs elapsedRealtimeNs disk =>
    s.resetIfConfigTtlExpiredLocked mm eventTimeNs elapsedRealtimeNs disk
  | .onDumpReport key dumpTimeStampNs => s.onDumpReport mm key dumpTimeStampNs
  | .WriteDataToDisk elapsedRealtimeNs => s.WriteDataToDiskLocked mm elapsedRealtimeNs
  | .app call => { s with mUidMap := call.run s.mUidMap }

/-- No live config gets an invalid update: neither from outside nor from disk by a reset. -/
def NoInvalidUpdate (s : StatsLogProcessor Contents) : ProcessorCall StatsdConfig → Prop
  | .OnConfigUpdated timestampNs key config modularUpdate => key ∈ s.mMetricsManagers →
    (s.writeConfigToDiskLocked mm key timestampNs).updateValid mm timestampNs key config modularUpdate = true
  | .resetConfigs elapsedRealtimeNs disk => DiskValid mm elapsedRealtimeNs disk s.mMetricsManagers.keys
  | .resetIfConfigTtlExpired eventTimeNs _ disk => DiskValid mm eventTimeNs disk (s.expired eventTimeNs)
  | .OnConfigRemoved .. | .onDumpReport .. | .WriteDataToDisk .. | .app .. => True

theorem run_agree_iff (hs : KeysAgree s) (call : ProcessorCall StatsdConfig) :
    KeysAgree (s.run mm call) ↔ s.NoInvalidUpdate mm call := by
  cases call with
  | OnConfigUpdated timestampNs key config modularUpdate =>
    have hwrite := s.sameKeys_writeConfig mm key timestampNs
    have h := update_agree_iff mm (hwrite.agree hs) timestampNs key config modularUpdate
    rw [hwrite.managers key] at h
    exact h
  | OnConfigRemoved key elapsedRealtimeNs =>
    refine iff_of_true ?_ trivial
    show KeysAgree (s.OnConfigRemoved mm key elapsedRealtimeNs)
    unfold OnConfigRemoved
    cases hm : s.mMetricsManagers.lookup key with
    | none => exact hs
    | some m =>
      intro key'
      have hagree := (s.sameKeys_writeConfig mm key elapsedRealtimeNs).agree hs key'
      dsimp only
      rw [AList.mem_erase]
      unfold UidMap.OnConfigRemoved
      rw [AList.mem_erase, hagree]
  | resetConfigs elapsedRealtimeNs disk =>
    exact resets_agree_iff mm elapsedRealtimeNs disk _ s.mMetricsManagers.nodupKeys hs fun key hk => AList.mem_keys.2 hk
  | resetIfConfigTtlExpired eventTimeNs elapsedRealtimeNs disk =>
    have hlive : ∀ key ∈ s.expired eventTimeNs, key ∈ s.mMetricsManagers := by
      intro key hk
      obtain ⟨pair, hp, rfl⟩ := List.mem_map.1 hk
      exact AList.mem_keys.2 (List.mem_map_of_mem (List.mem_of_mem_filter hp))
    have hnodup : (s.expired eventTimeNs).Nodup :=
      (List.filter_sublist.map Sigma.fst).nodup s.mMetricsManagers.nodupKeys
    show KeysAgree (s.resetIfConfigTtlExpiredLocked mm eventTimeNs elapsedRealtimeNs disk) ↔
      DiskValid mm eventTimeNs disk (s.expired eventTimeNs)
    unfold resetIfConfigTtlExpiredLocked
    split
    · have hwrite := s.sameKeys_write mm elapsedRealtimeNs
      exact resets_agree_iff mm eventTimeNs disk _ hnodup (hwrite.agree hs) fun key hk => (hwrite.managers key).2 (hlive key hk)
    · rename_i hnone
      refine iff_of_true hs fun key hk => ?_
      exact absurd (List.length_pos_of_mem hk) hnone
  | onDumpReport key dumpTimeStampNs =>
    refine iff_of_true ?_ trivial
    show KeysAgree (s.onDumpReport mm key dumpTimeStampNs)
    unfold onDumpReport
    cases s.mMetricsManagers.lookup key with
    | none => exact hs
    | some m => exact (s.sameKeys_report mm key dumpTimeStampNs).agree hs
  | WriteDataToDisk elapsedRealtimeNs =>
    exact iff_of_true ((s.sameKeys_write mm elapsedRealtimeNs).agree hs) trivial
  | app call =>
    refine iff_of_true (fun key => ?_) trivial
    unfold run
    dsimp only
    rw [AppCall.run_mLastUpdatePerConfigKey]
    exact hs key

/-- The uid map tracks exactly the live configs in every state of a run exactly when no live config of the run
gets an invalid update. -/
theorem keys_agree_iff (timeBaseNs : Int) (calls : List (ProcessorCall StatsdConfig)) :
    (∀ n, KeysAgree ((calls.take n).foldl (fun s call => s.run mm call) (new UidMap.new timeBaseNs : StatsLogProcessor Contents))) ↔
      RunOk (fun s call => s.run mm call) (fun s call => s.NoInvalidUpdate mm call)
        (new UidMap.new timeBaseNs : StatsLogProcessor Contents) calls := by
  refine RunOk.iff_prefixes (I := fun _ => True) (P := fun _ s => KeysAgree s) ?_ ?_ trivial ?_ calls
  · exact fun _ s call _ hs hok => ⟨trivial, (run_agree_iff mm hs call).2 hok⟩
  · exact fun _ s call _ hs hbad h => hbad ((run_agree_iff mm hs call).1 h)
  · intro key
    exact iff_of_false (AList.notMem_empty key) (AList.notMem_empty key)

/-- The log source limit of `StatsdStats`. -/
def kMaxLogSourceCount : Nat := 50

/-- Configs of one metric that differ in their allowed log sources only: one without sources, or with too
many, is not valid. -/
def logSourceConfigs : ManagerModel (List String) Unit where
  ttl_in_seconds _ := none
  initStatsdConfig _ allowed_log_source _ :=
    ⟨(), decide (allowed_log_source.length ≠ 0 ∧ allowed_log_source.length ≤ kMaxLogSourceCount), 1, 0⟩
  updateStatsdConfig _ allowed_log_source _ :=
    ⟨(), decide (allowed_log_source.length ≠ 0 ∧ allowed_log_source.length ≤ kMaxLogSourceCount), 1, 0⟩
  onDumpReport _ _ := ()

/-- A config is replaced by one without log sources and then removed: the uid map knows of it after the invalid
update and still after the removal. -/
theorem invalid_update_leaves_key :
    let key : ConfigKey := ⟨3, 4⟩
    let s : StatsLogProcessor Unit := new UidMap.new 0
    let s₁ := (s.run logSourceConfigs (.OnConfigUpdated 0 key ["AID_SYSTEM"] false)).run logSourceConfigs
      (.OnConfigUpdated 0 key [] false)
    let s₂ := s₁.run logSourceConfigs (.OnConfigRemoved key 0)
    ¬ KeysAgree s₁ ∧ key ∈ s₂.mUidMap.mLastUpdatePerConfigKey ∧ key ∉ s₂.mMetricsManagers := by
  intro key s s₁ s₂
  refine ⟨fun h => ?_, by decide +kernel, by decide +kernel⟩
  have hmem : key ∈ s₁.mMetricsManagers := (h key).1 (by decide +kernel)
  exact absurd hmem (by decide +kernel)

end StatsLogProcessor

end Statsd
