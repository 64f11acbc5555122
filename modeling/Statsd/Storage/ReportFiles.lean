/-
Reports that are written to disk (StatsLogProcessor.cpp, with the files of storage/StorageManager.cpp). A bulk write
writes the report of every config, unless the last one was only seconds ago; an update and a removal write that of
one config. The name of a file has the second of the wall clock and the key, and a file that is there already is
written over, not cut off. A report leaves in memory what the manager makes of its contents.

The bytes of a report are a parameter. Each manager's contents carry a mark: whether something was accumulated since
the manager was built or last reported. Local histories, trimming and the broadcast about data on disk are left out.
-/
import Statsd.StatsLogProcessor
import Statsd.Storage.StorageManager

namespace Statsd

open Packages

namespace Storage

/-- The name in the data directory. -/
def getDataFileName (wallClockSec : Int) (key : ConfigKey) : FileName := decimal wallClockSec ++ '_' :: key.text

/-- Whether a name is that of a report of the config: what follows the second is the key. -/
def isFileOf (key : ConfigKey) (name : FileName) : Bool := decide (name.dropWhile (fun c => decide (c ≠ '_')) = '_' :: key.text)

/-- The directory after the reports of a config have been read and removed. -/
def removeFilesOf (d : Directory) (key : ConfigKey) : Directory :=
  d.keys.foldl (fun d name => if isFileOf key name then deleteFile d name else d) d

end Storage

open Storage

inductive DumpReportReason where
  | DEVICE_SHUTDOWN | CONFIG_UPDATED | CONFIG_REMOVED | GET_DATA_CALLED | ADB_DUMP | CONFIG_RESET | STATSCOMPANION_DIED
  | TERMINATION_SIGNAL_RECEIVED
deriving DecidableEq

inductive DumpLatency where
  | FAST | NO_TIME_CONSTRAINTS
deriving DecidableEq

/-- The wall clock as it is read for the report and then for the name of its file. -/
structure WallClock where
  ns : Int
  sec : Int

/-- What a report says besides the data. -/
structure Dump where
  dumpTimeStampNs : Int
  dumpReportReason : DumpReportReason
  dumpLatency : DumpLatency
  wallClockNs : Int

/-- The contents of a manager and their mark. -/
structure Held (Contents : Type) where
  contents : Contents
  accumulated : Bool

variable {StatsdConfig Contents : Type}

/-- Reports, and building a manager, take the mark away. -/
def ManagerModel.held (mm : ManagerModel StatsdConfig Contents) : ManagerModel StatsdConfig (Held Contents) where
  ttl_in_seconds := mm.ttl_in_seconds
  initStatsdConfig key config timestampNs :=
    let built := mm.initStatsdConfig key config timestampNs
    ⟨⟨built.contents, false⟩, built.valid, built.metricCount, built.noReportMetricCount⟩
  updateStatsdConfig h config timestampNs :=
    let built := mm.updateStatsdConfig h.contents config timestampNs
    ⟨⟨built.contents, h.accumulated⟩, built.valid, built.metricCount, built.noReportMetricCount⟩
  onDumpReport h dumpTimeStampNs := ⟨mm.onDumpReport h.contents dumpTimeStampNs, false⟩

/-- The processor and its data directory. -/
structure ReportDisk (Contents : Type) where
  processor : StatsLogProcessor (Held Contents)
  files : Directory

/-- The bytes of a report of some contents. -/
abbrev ReportBytes (Contents : Type) := Contents → UidMap → ConfigKey → Dump → Bytes

namespace ReportDisk

variable (mm : ManagerModel StatsdConfig Contents) (report : ReportBytes Contents)

/-- `WriteDataToDiskLocked` for one config. -/
def writeConfigToDiskLocked (x : ReportDisk Contents) (key : ConfigKey) (timestampNs : Int) (dumpReportReason : DumpReportReason)
    (dumpLatency : DumpLatency) (clock : WallClock) : ReportDisk Contents :=
  match x.processor.mMetricsManagers.lookup key with
  | none => x
  | some m =>
    if !m.shouldWriteToDisk then x
    else
      let buffer := report m.contents.contents x.processor.mUidMap key ⟨timestampNs, dumpReportReason, dumpLatency, clock.ns⟩
      { processor := x.processor.onConfigMetricsReportLocked mm.held key timestampNs
        files := writeFile x.files (getDataFileName clock.sec key) buffer }

/-- Whether the last bulk write was only seconds ago. -/
def coolingDown (x : ReportDisk Contents) (elapsedRealtimeNs : Int) : Bool :=
  decide (elapsedRealtimeNs < x.processor.mLastWriteTimeNs + WRITE_DATA_COOL_DOWN_SEC * NS_PER_SEC)

/-- `WriteDataToDiskLocked` for all configs; `clock` is what the wall clock shows when the turn of a config comes. -/
def WriteDataToDiskLocked (x : ReportDisk Contents) (dumpReportReason : DumpReportReason) (dumpLatency : DumpLatency)
    (elapsedRealtimeNs : Int) (clock : ConfigKey → WallClock) : ReportDisk Contents :=
  if x.coolingDown elapsedRealtimeNs then x
  else
    x.processor.mMetricsManagers.keys.foldl
      (fun x key => x.writeConfigToDiskLocked mm report key elapsedRealtimeNs dumpReportReason dumpLatency (clock key))
      { x with processor := { x.processor with mLastWriteTimeNs := elapsedRealtimeNs } }

def OnConfigUpdated (x : ReportDisk Contents) (timestampNs : Int) (key : ConfigKey) (config : StatsdConfig) (modularUpdate : Bool)
    (clock : WallClock) : ReportDisk Contents :=
  let x := x.writeConfigToDiskLocked mm report key timestampNs .CONFIG_UPDATED .NO_TIME_CONSTRAINTS clock
  { x with processor := x.processor.OnConfigUpdatedLocked mm.held timestampNs key config modularUpdate }

def OnConfigRemoved (x : ReportDisk Contents) (key : ConfigKey) (elapsedRealtimeNs : Int) (clock : WallClock) : ReportDisk Contents :=
  match x.processor.mMetricsManagers.lookup key with
  | none => x
  | some _ =>
    let x := x.writeConfigToDiskLocked mm report key elapsedRealtimeNs .CONFIG_REMOVED .NO_TIME_CONSTRAINTS clock
    { x with processor := { x.processor with
      mMetricsManagers := x.processor.mMetricsManagers.erase key
      mUidMap := x.processor.mUidMap.OnConfigRemoved key } }

def resetIfConfigTtlExpiredLocked (x : ReportDisk Contents) (eventTimeNs elapsedRealtimeNs : Int)
    (disk : ConfigKey → Option StatsdConfig) (clock : ConfigKey → WallClock) : ReportDisk Contents :=
  let configKeysTtlExpired := x.processor.expired eventTimeNs
  if configKeysTtlExpired.length > 0 then
    let x := x.WriteDataToDiskLocked mm report .CONFIG_RESET .NO_TIME_CONSTRAINTS elapsedRealtimeNs clock
    { x with processor := x.processor.resetConfigsLocked mm.held eventTimeNs disk configKeysTtlExpired }
  else x

/-- `onDumpReport` with `erase_data`: the reports on disk are read and removed, and the data in memory is handed over. -/
def onDumpReport (x : ReportDisk Contents) (key : ConfigKey) (dumpTimeStampNs : Int) : ReportDisk Contents :=
  { processor := x.processor.onDumpReport mm.held key dumpTimeStampNs
    files := removeFilesOf x.files key }

/-- Events change the contents of a manager. -/
def accumulate (x : ReportDisk Contents) (key : ConfigKey) (change : Contents → Contents) : ReportDisk Contents :=
  match x.processor.mMetricsManagers.lookup key with
  | none => x
  | some m => { x with processor := { x.processor with
      mMetricsManagers := x.processor.mMetricsManagers.insert key { m with contents := ⟨change m.contents.contents, true⟩ } } }

end ReportDisk

/-! ## Runs -/

inductive DiskCall (StatsdConfig Contents : Type) where
  | accumulate (key : ConfigKey) (change : Contents → Contents)
  | WriteDataToDisk (dumpReportReason : DumpReportReason) (dumpLatency : DumpLatency) (elapsedRealtimeNs : Int)
      (clock : ConfigKey → WallClock)
  | resetIfConfigTtlExpired (eventTimeNs elapsedRealtimeNs : Int) (disk : ConfigKey → Option StatsdConfig)
      (clock : ConfigKey → WallClock)
  | OnConfigUpdated (timestampNs : Int) (key : ConfigKey) (config : StatsdConfig) (modularUpdate : Bool) (clock : WallClock)
  | OnConfigRemoved (key : ConfigKey) (elapsedRealtimeNs : Int) (clock : WallClock)
  | onDumpReport (key : ConfigKey) (dumpTimeStampNs : Int)

variable (mm : ManagerModel StatsdConfig Contents) (report : ReportBytes Contents)

def ReportDisk.run (x : ReportDisk Contents) : DiskCall StatsdConfig Contents → ReportDisk Contents
  | .accumulate key change => x.accumulate key change
  | .WriteDataToDisk reason latency elapsedRealtimeNs clock => x.WriteDataToDiskLocked mm report reason latency elapsedRealtimeNs clock
  | .resetIfConfigTtlExpired eventTimeNs elapsedRealtimeNs disk clock =>
    x.resetIfConfigTtlExpiredLocked mm report eventTimeNs elapsedRealtimeNs disk clock
  | .OnConfigUpdated timestampNs key config modularUpdate clock => x.OnConfigUpdated mm report timestampNs key config modularUpdate clock
  | .OnConfigRemoved key elapsedRealtimeNs clock => x.OnConfigRemoved mm report key elapsedRealtimeNs clock
  | .onDumpReport key dumpTimeStampNs => x.onDumpReport mm key dumpTimeStampNs

/-- The data that a call takes out of memory: of a config that is to be written to disk, accumulated before the call, and
not held after it. -/
def taken (x x' : ReportDisk Contents) : Set (ConfigKey × Contents) :=
  {p | ∃ m, x.processor.mMetricsManagers.lookup p.1 = some m ∧ m.shouldWriteToDisk = true ∧ m.contents = ⟨p.2, true⟩ ∧
    ∀ m', x'.processor.mMetricsManagers.lookup p.1 = some m' → m'.contents ≠ m.contents}

/-- A run so far: the data taken out of memory and the files seen in the directory, if they have not been read. -/
structure DiskRun (Contents : Type) where
  disk : ReportDisk Contents
  moved : Set (ConfigKey × Contents)
  unread : Set (FileName × Bytes)

def DiskRun.step (s : DiskRun Contents) (call : DiskCall StatsdConfig Contents) : DiskRun Contents :=
  let disk := s.disk.run mm report call
  match call with
  | .accumulate .. => ⟨disk, s.moved, s.unread⟩
  | .onDumpReport key _ => ⟨disk, {p ∈ s.moved | p.1 ≠ key}, {p ∈ s.unread | isFileOf key p.1 = false}⟩
  | _ => ⟨disk, s.moved ∪ taken s.disk disk, s.unread ∪ {p | disk.files.lookup p.1 = some p.2}⟩

/-- A complete report of the data of a config is in some file of the config. -/
def Saved (files : Directory) (key : ConfigKey) (contents : Contents) : Prop :=
  ∃ wallClockSec uidMap dump, files.lookup (getDataFileName wallClockSec key) = some (report contents uidMap key dump)

/-- Nothing is lost: data that was taken out of memory and not read is in a file, and so is each report that was not read,
unchanged. -/
structure NothingLost (s : DiskRun Contents) : Prop where
  complete : ∀ p ∈ s.moved, Saved report s.disk.files p.1 p.2
  unchanged : ∀ p ∈ s.unread, s.disk.files.lookup p.1 = some p.2

/-! ## When nothing is lost -/

/-- If the report of a config is written in this second, no file has its name. -/
def FreshName (x : ReportDisk Contents) (key : ConfigKey) (wallClockSec : Int) : Prop :=
  ∀ m, x.processor.mMetricsManagers.lookup key = some m → m.shouldWriteToDisk = true → getDataFileName wallClockSec key ∉ x.files

/-- No report is written over an unread one, and no config that has data to write is reset while bulk writes cool down. -/
def DiskCall.Harmless (x : ReportDisk Contents) : DiskCall StatsdConfig Contents → Prop
  | .accumulate .. | .onDumpReport .. => True
  | .WriteDataToDisk _ _ elapsedRealtimeNs clock => x.coolingDown elapsedRealtimeNs = false → ∀ key, FreshName x key (clock key).sec
  | .resetIfConfigTtlExpired eventTimeNs elapsedRealtimeNs disk clock => x.processor.expired eventTimeNs ≠ [] →
    if x.coolingDown elapsedRealtimeNs then
      ∀ key ∈ x.processor.expired eventTimeNs, disk key ≠ none → ∀ m, x.processor.mMetricsManagers.lookup key = some m →
        m.shouldWriteToDisk = true → m.contents.accumulated = false
    else ∀ key, FreshName x key (clock key).sec
  | .OnConfigUpdated _ key _ _ clock => FreshName x key clock.sec
  | .OnConfigRemoved key _ clock => FreshName x key clock.sec

/-! ## File names -/

namespace Storage

theorem dropWhile_of_notMem {l l' : List Char} (h : '_' ∉ l) : (l ++ '_' :: l').dropWhile (fun c => decide (c ≠ '_')) = '_' :: l' := by
  have hall : ∀ c ∈ l, decide (c ≠ '_') = true := by
    intro c hc
    exact decide_eq_true fun heq => h (heq ▸ hc)
  rw [List.dropWhile_append_of_pos hall, List.dropWhile_cons_of_neg (by simp)]

theorem text_injective : Function.Injective ConfigKey.text := by
  intro key key' h
  obtain ⟨huid, hid⟩ := ConfigKey.split_last (underscore_notMem_decimal _) (underscore_notMem_decimal _) h
  cases key
  cases key'
  exact congrArg₂ ConfigKey.mk (decimal_injective huid) (decimal_injective hid)

theorem isFileOf_iff (key key' : ConfigKey) (wallClockSec : Int) : isFileOf key (getDataFileName wallClockSec key') = true ↔ key' = key := by
  unfold isFileOf getDataFileName
  rw [dropWhile_of_notMem (underscore_notMem_decimal _), decide_eq_true_eq, List.cons_inj_right]
  exact text_injective.eq_iff

theorem getDataFileName_ne {key key' : ConfigKey} (h : key ≠ key') (sec sec' : Int) : getDataFileName sec key ≠ getDataFileName sec' key' := by
  intro heq
  have hown := (isFileOf_iff key key sec).2 rfl
  rw [heq, isFileOf_iff] at hown
  exact h hown.symm

theorem lookup_removeFilesOf (d : Directory) (key : ConfigKey) (name : FileName) :
    (removeFilesOf d key).lookup name = if isFileOf key name then none else d.lookup name := by
  have hloop : ∀ (l : List FileName) (d : Directory),
      (l.foldl (fun d name => if isFileOf key name then deleteFile d name else d) d).lookup name =
        if name ∈ l ∧ isFileOf key name = true then none else d.lookup name := by
    intro l
    induction l with
    | nil => simp
    | cons name' l ih =>
      intro d
      rw [List.foldl_cons, ih]
      by_cases hname : name = name'
      · subst hname
        cases hf : isFileOf key name with
        | true => simp [deleteFile]
        | false => simp
      · have hkeep : (if isFileOf key name' = true then deleteFile d name' else d).lookup name = d.lookup name := by
          split
          · exact AList.lookup_erase_ne hname
          · rfl
        rw [hkeep]
        simp [hname]
  unfold removeFilesOf
  rw [hloop]
  by_cases hmem : name ∈ d
  · simp [AList.mem_keys.1 hmem]
  · rw [AList.lookup_eq_none.2 hmem, ite_self, ite_self]

theorem lookup_writeFile_of_notMem {d : Directory} {name : FileName} (h : name ∉ d) (buffer : Bytes) (name' : FileName) :
    (writeFile d name buffer).lookup name' = if name' = name then some buffer else d.lookup name' := by
  unfold writeFile
  rw [UMap.lookup_insert', UMap.getD_of_lookup_none (AList.lookup_eq_none.2 h), List.drop_nil, List.append_nil]

end Storage

/-! ## What a write leaves -/

/-- Every file stays as it is. -/
def FilesKept (d d' : Directory) : Prop := ∀ name bytes, d.lookup name = some bytes → d'.lookup name = some bytes

theorem Saved.kept {d d' : Directory} (h : FilesKept d d') {key : ConfigKey} {contents : Contents}
    (hsaved : Saved report d key contents) : Saved report d' key contents := by
  obtain ⟨sec, uidMap, dump, hlookup⟩ := hsaved
  exact ⟨sec, uidMap, dump, h _ _ hlookup⟩

/-- Data of a config that is to be written to disk. -/
def HasData (x : ReportDisk Contents) (key : ConfigKey) (contents : Contents) : Prop :=
  ∃ m, x.processor.mMetricsManagers.lookup key = some m ∧ m.shouldWriteToDisk = true ∧ m.contents.contents = contents

/-- What is known after writes of the reports of some configs. -/
structure Wrote (x x' : ReportDisk Contents) (keys : Set ConfigKey) : Prop where
  kept : FilesKept x.files x'.files
  saved : ∀ key ∈ keys, ∀ contents, HasData x key contents → Saved report x'.files key contents
  other : ∀ key ∉ keys, x'.processor.mMetricsManagers.lookup key = x.processor.mMetricsManagers.lookup key
  quiet : ∀ key, (∀ contents, ¬ HasData x key contents) →
    x'.processor.mMetricsManagers.lookup key = x.processor.mMetricsManagers.lookup key

namespace ReportDisk

variable {key key' : ConfigKey}

theorem lookup_report (s : StatsLogProcessor (Held Contents)) (hne : key' ≠ key) (dumpTimeStampNs : Int) :
    (s.onConfigMetricsReportLocked mm.held key dumpTimeStampNs).mMetricsManagers.lookup key' = s.mMetricsManagers.lookup key' := by
  unfold StatsLogProcessor.onConfigMetricsReportLocked
  split
  · rfl
  · dsimp only
    split
    · exact AList.lookup_insert_ne hne
    · exact AList.lookup_insert_ne hne

theorem writeConfig_processor (x : ReportDisk Contents) (key : ConfigKey) (timestampNs : Int) (reason : DumpReportReason)
    (latency : DumpLatency) (clock : WallClock) :
    (x.writeConfigToDiskLocked mm report key timestampNs reason latency clock).processor =
      x.processor.writeConfigToDiskLocked mm.held key timestampNs := by
  unfold writeConfigToDiskLocked StatsLogProcessor.writeConfigToDiskLocked
  cases x.processor.mMetricsManagers.lookup key with
  | none => rfl
  | some m => cases hwrite : m.shouldWriteToDisk <;> simp [hwrite]

theorem wrote_config {x : ReportDisk Contents} {key : ConfigKey} {clock : WallClock} (hfresh : FreshName x key clock.sec)
    (timestampNs : Int) (reason : DumpReportReason) (latency : DumpLatency) :
    Wrote report x (x.writeConfigToDiskLocked mm report key timestampNs reason latency clock) {key} ∧
      ∀ name, name ∈ (x.writeConfigToDiskLocked mm report key timestampNs reason latency clock).files →
        name ∈ x.files ∨ name = getDataFileName clock.sec key := by
  unfold writeConfigToDiskLocked
  cases hm : x.processor.mMetricsManagers.lookup key with
  | none =>
    refine ⟨⟨fun _ _ h => h, ?_, fun _ _ => rfl, fun _ _ => rfl⟩, fun _ h => .inl h⟩
    rintro key' rfl contents ⟨m, hm', -⟩
    rw [hm] at hm'
    cases hm'
  | some m =>
    dsimp only
    cases hwrite : m.shouldWriteToDisk with
    | false =>
      refine ⟨⟨fun _ _ h => h, ?_, fun _ _ => rfl, fun _ _ => rfl⟩, fun _ h => .inl h⟩
      rintro key' rfl contents ⟨m', hm', hwrite', -⟩
      rw [hm] at hm'
      cases hm'
      rw [hwrite] at hwrite'
      cases hwrite'
    | true =>
      have hnew := hfresh m hm hwrite
      simp only [Bool.not_true, Bool.false_eq_true, if_false]
      refine ⟨⟨?_, ?_, ?_, ?_⟩, ?_⟩
      · intro name bytes hlookup
        have hne : name ≠ getDataFileName clock.sec key := by
          rintro rfl
          rw [AList.lookup_eq_none.2 hnew] at hlookup
          cases hlookup
        rw [lookup_writeFile_of_notMem hnew, if_neg hne]
        exact hlookup
      · rintro key' rfl contents ⟨m', hm', -, rfl⟩
        rw [hm] at hm'
        cases hm'
        refine ⟨clock.sec, x.processor.mUidMap, ⟨timestampNs, reason, latency, clock.ns⟩, ?_⟩
        rw [lookup_writeFile_of_notMem hnew, if_pos rfl]
      · intro key' hne
        exact lookup_report mm x.processor hne timestampNs
      · intro key' hquiet
        have hne : key' ≠ key := by
          rintro rfl
          exact hquiet m.contents.contents ⟨m, hm, hwrite, rfl⟩
        exact lookup_report mm x.processor hne timestampNs
      · intro name hname
        unfold writeFile at hname
        rw [AList.mem_insert] at hname
        exact hname.symm

theorem wrote_foldl (timestampNs : Int) (reason : DumpReportReason) (latency : DumpLatency) (clock : ConfigKey → WallClock) :
    ∀ (keys : List ConfigKey) (x : ReportDisk Contents), keys.Nodup → (∀ key ∈ keys, FreshName x key (clock key).sec) →
      Wrote report x (keys.foldl (fun x key => x.writeConfigToDiskLocked mm report key timestampNs reason latency (clock key)) x)
        {key | key ∈ keys} := by
  intro keys
  induction keys with
  | nil =>
    intro x _ _
    exact ⟨fun _ _ h => h, fun key hkey => absurd hkey List.not_mem_nil, fun _ _ => rfl, fun _ _ => rfl⟩
  | cons key keys ih =>
    intro x hnodup hfresh
    rw [List.nodup_cons] at hnodup
    obtain ⟨hone, hnames⟩ := wrote_config mm report (hfresh key (List.mem_cons_self ..)) timestampNs reason latency
    rw [List.foldl_cons]
    generalize x.writeConfigToDiskLocked mm report key timestampNs reason latency (clock key) = x₁ at hone hnames
    have hother : ∀ key' ∈ keys, x₁.processor.mMetricsManagers.lookup key' = x.processor.mMetricsManagers.lookup key' := by
      intro key' hkey'
      refine hone.other key' ?_
      rintro rfl
      exact hnodup.1 hkey'
    -- the names of the other configs are still new
    have hfresh₁ : ∀ key' ∈ keys, FreshName x₁ key' (clock key').sec := by
      intro key' hkey' m hm hwrite hmem
      rw [hother key' hkey'] at hm
      rcases hnames _ hmem with hmem | heq
      · exact hfresh key' (List.mem_cons_of_mem _ hkey') m hm hwrite hmem
      · refine getDataFileName_ne ?_ _ _ heq
        rintro rfl
        exact hnodup.1 hkey'
    have hrest := ih x₁ hnodup.2 hfresh₁
    have hdata : ∀ key' ∈ keys, ∀ contents, HasData x key' contents → HasData x₁ key' contents := by
      rintro key' hkey' contents ⟨m, hm, h⟩
      exact ⟨m, (hother key' hkey').trans hm, h⟩
    refine ⟨fun name bytes h => hrest.kept _ _ (hone.kept _ _ h), ?_, ?_, ?_⟩
    · intro key' hkey' contents hhas
      rcases List.mem_cons.1 hkey' with rfl | hkey'
      · exact (hone.saved key' rfl contents hhas).kept report hrest.kept
      · exact hrest.saved key' hkey' contents (hdata key' hkey' contents hhas)
    · intro key' hkey'
      have hne : key' ∉ ({key} : Set ConfigKey) := fun heq => hkey' (heq ▸ List.mem_cons_self ..)
      rw [hrest.other key' fun h => hkey' (List.mem_cons_of_mem _ h), hone.other key' hne]
    · intro key' hquiet
      have hsame := hone.quiet key' hquiet
      have hquiet₁ : ∀ contents, ¬ HasData x₁ key' contents := by
        rintro contents ⟨m, hm, h⟩
        exact hquiet contents ⟨m, hsame ▸ hm, h⟩
      rw [hrest.quiet key' hquiet₁, hsame]

theorem wrote_all {x : ReportDisk Contents} {elapsedRealtimeNs : Int} {clock : ConfigKey → WallClock}
    (hwarm : x.coolingDown elapsedRealtimeNs = false) (hfresh : ∀ key, FreshName x key (clock key).sec) (reason : DumpReportReason)
    (latency : DumpLatency) :
    let x' := x.WriteDataToDiskLocked mm report reason latency elapsedRealtimeNs clock
    FilesKept x.files x'.files ∧ ∀ key contents, HasData x key contents → Saved report x'.files key contents := by
  intro x'
  have h := wrote_foldl mm report elapsedRealtimeNs reason latency clock x.processor.mMetricsManagers.keys
    { x with processor := { x.processor with mLastWriteTimeNs := elapsedRealtimeNs } } x.processor.mMetricsManagers.keys_nodup
    fun key _ => hfresh key
  have hx' : x' = _ := if_neg (by rw [hwarm]; exact Bool.false_ne_true)
  rw [hx']
  refine ⟨h.kept, ?_⟩
  rintro key contents ⟨m, hm, hdata⟩
  have hmem : key ∈ x.processor.mMetricsManagers := AList.lookup_isSome.1 (by rw [hm]; rfl)
  exact h.saved key (AList.mem_keys.1 hmem) contents ⟨m, hm, hdata⟩

theorem write_processor (x : ReportDisk Contents) (reason : DumpReportReason) (latency : DumpLatency) (elapsedRealtimeNs : Int)
    (clock : ConfigKey → WallClock) :
    (x.WriteDataToDiskLocked mm report reason latency elapsedRealtimeNs clock).processor =
      x.processor.WriteDataToDiskLocked mm.held elapsedRealtimeNs := by
  have hloop : ∀ (keys : List ConfigKey) (x : ReportDisk Contents),
      (keys.foldl (fun x key => x.writeConfigToDiskLocked mm report key elapsedRealtimeNs reason latency (clock key)) x).processor =
        keys.foldl (fun s key => s.writeConfigToDiskLocked mm.held key elapsedRealtimeNs) x.processor := by
    intro keys
    induction keys with
    | nil => intro x; rfl
    | cons key keys ih =>
      intro x
      rw [List.foldl_cons, List.foldl_cons, ih, writeConfig_processor]
  unfold WriteDataToDiskLocked StatsLogProcessor.WriteDataToDiskLocked coolingDown
  by_cases hcool : elapsedRealtimeNs < x.processor.mLastWriteTimeNs + WRITE_DATA_COOL_DOWN_SEC * NS_PER_SEC
  · rw [if_pos (decide_eq_true hcool), if_pos hcool]
  · rw [if_neg (by simpa using hcool), if_neg hcool, hloop]

/-- What a call is for the processor alone. -/
def processorCall : DiskCall StatsdConfig Contents → Option (StatsLogProcessor.ProcessorCall StatsdConfig)
  | .accumulate .. => none
  | .WriteDataToDisk _ _ elapsedRealtimeNs _ => some (.WriteDataToDisk elapsedRealtimeNs)
  | .resetIfConfigTtlExpired eventTimeNs elapsedRealtimeNs disk _ => some (.resetIfConfigTtlExpired eventTimeNs elapsedRealtimeNs disk)
  | .OnConfigUpdated timestampNs key config modularUpdate _ => some (.OnConfigUpdated timestampNs key config modularUpdate)
  | .OnConfigRemoved key elapsedRealtimeNs _ => some (.OnConfigRemoved key elapsedRealtimeNs)
  | .onDumpReport key dumpTimeStampNs => some (.onDumpReport key dumpTimeStampNs)

theorem run_processor (x : ReportDisk Contents) {call : DiskCall StatsdConfig Contents}
    {alone : StatsLogProcessor.ProcessorCall StatsdConfig} (h : processorCall call = some alone) :
    (x.run mm report call).processor = x.processor.run mm.held alone := by
  cases call with
  | accumulate => cases h
  | WriteDataToDisk reason latency elapsedRealtimeNs clock =>
    cases h
    exact write_processor mm report x reason latency elapsedRealtimeNs clock
  | resetIfConfigTtlExpired eventTimeNs elapsedRealtimeNs disk clock =>
    cases h
    change (x.resetIfConfigTtlExpiredLocked mm report eventTimeNs elapsedRealtimeNs disk clock).processor =
      x.processor.resetIfConfigTtlExpiredLocked mm.held eventTimeNs elapsedRealtimeNs disk
    unfold resetIfConfigTtlExpiredLocked StatsLogProcessor.resetIfConfigTtlExpiredLocked
    dsimp only
    split
    · rw [write_processor]
    · rfl
  | OnConfigUpdated timestampNs key config modularUpdate clock =>
    cases h
    change (x.OnConfigUpdated mm report timestampNs key config modularUpdate clock).processor =
      x.processor.OnConfigUpdated mm.held timestampNs key config modularUpdate
    unfold OnConfigUpdated StatsLogProcessor.OnConfigUpdated
    dsimp only
    rw [writeConfig_processor]
  | OnConfigRemoved key elapsedRealtimeNs clock =>
    cases h
    change (x.OnConfigRemoved mm report key elapsedRealtimeNs clock).processor =
      x.processor.OnConfigRemoved mm.held key elapsedRealtimeNs
    unfold OnConfigRemoved StatsLogProcessor.OnConfigRemoved
    cases x.processor.mMetricsManagers.lookup key with
    | none => rfl
    | some m =>
      dsimp only
      rw [writeConfig_processor]
  | onDumpReport key dumpTimeStampNs =>
    cases h
    rfl

/-! ## Updates and resets -/

theorem lookup_update_other (s : StatsLogProcessor (Held Contents)) (hne : key' ≠ key) (timestampNs : Int)
    (config : StatsdConfig) (modularUpdate : Bool) :
    (s.OnConfigUpdatedLocked mm.held timestampNs key config modularUpdate).mMetricsManagers.lookup key' =
      s.mMetricsManagers.lookup key' := by
  unfold StatsLogProcessor.OnConfigUpdatedLocked
  have herase : ∀ m : UMap ConfigKey (MetricsManager (Held Contents)), (m.erase key).lookup key' = m.lookup key' :=
    fun m => AList.lookup_erase_ne hne
  have hinsert : ∀ (m : UMap ConfigKey (MetricsManager (Held Contents))) v, (m.insert key v).lookup key' = m.lookup key' :=
    fun m v => AList.lookup_insert_ne hne
  dsimp only
  split
  · split
    · exact hinsert _ _
    · exact herase _
  · split
    · split
      · exact hinsert _ _
      · exact herase _
    · split
      · exact hinsert _ _
      · rw [herase, hinsert]

theorem contents_resetConfig (s : StatsLogProcessor (Held Contents)) (timestampNs : Int) (disk : ConfigKey → Option StatsdConfig) (hkept : key' = key → disk key = none) :
    ((s.resetConfigLocked mm.held timestampNs disk key).mMetricsManagers.lookup key').map MetricsManager.contents =
      (s.mMetricsManagers.lookup key').map MetricsManager.contents := by
  unfold StatsLogProcessor.resetConfigLocked
  cases hdisk : disk key with
  | some config =>
    have hne : key' ≠ key := by
      intro heq
      rw [hkept heq] at hdisk
      cases hdisk
    dsimp only
    rw [lookup_update_other mm s hne]
  | none =>
    dsimp only
    cases hm : s.mMetricsManagers.lookup key with
    | none => rfl
    | some m =>
      dsimp only
      rw [UMap.lookup_insert']
      split
      · rename_i heq
        rw [heq, hm]
        unfold MetricsManager.refreshTtl
        rw [Option.map_some, Option.map_some]
        split <;> rfl
      · rfl

theorem contents_resetConfigs (timestampNs : Int) (disk : ConfigKey → Option StatsdConfig) {key : ConfigKey} :
    ∀ (configs : List ConfigKey) (s : StatsLogProcessor (Held Contents)), (key ∈ configs → disk key = none) →
      ((s.resetConfigsLocked mm.held timestampNs disk configs).mMetricsManagers.lookup key).map MetricsManager.contents =
        (s.mMetricsManagers.lookup key).map MetricsManager.contents := by
  intro configs
  induction configs with
  | nil => intro s _; rfl
  | cons key' configs ih =>
    intro s hkept
    have hrest := ih (s.resetConfigLocked mm.held timestampNs disk key') fun h => hkept (List.mem_cons_of_mem _ h)
    unfold StatsLogProcessor.resetConfigsLocked at hrest ⊢
    rw [List.foldl_cons, hrest]
    refine contents_resetConfig mm s timestampNs disk ?_
    rintro rfl
    exact hkept (List.mem_cons_self ..)

end ReportDisk

/-! ## Steps -/

/-- What a call that is not a reader's leaves. -/
structure Safe (x x' : ReportDisk Contents) : Prop where
  kept : FilesKept x.files x'.files
  saved : ∀ p ∈ taken x x', Saved report x'.files p.1 p.2

theorem hasData_of_taken {x x' : ReportDisk Contents} {p : ConfigKey × Contents} (h : p ∈ taken x x') : HasData x p.1 p.2 := by
  obtain ⟨m, hm, hwrite, hcontents, -⟩ := h
  exact ⟨m, hm, hwrite, by rw [hcontents]⟩

theorem notMem_taken {x x' : ReportDisk Contents} {p : ConfigKey × Contents}
    (h : (x'.processor.mMetricsManagers.lookup p.1).map MetricsManager.contents =
      (x.processor.mMetricsManagers.lookup p.1).map MetricsManager.contents) : p ∉ taken x x' := by
  rintro ⟨m, hm, -, -, hgone⟩
  rw [hm, Option.map_some] at h
  obtain ⟨m', hm', heq⟩ := Option.map_eq_some_iff.1 h
  exact hgone m' hm' heq

theorem safe_of_wrote {x x₁ x' : ReportDisk Contents} {key : ConfigKey} (h : Wrote report x x₁ {key}) (hfiles : x'.files = x₁.files)
    (hother : ∀ key' ≠ key, x'.processor.mMetricsManagers.lookup key' = x₁.processor.mMetricsManagers.lookup key') :
    Safe report x x' := by
  refine ⟨?_, ?_⟩
  · rw [hfiles]
    exact h.kept
  · intro p hp
    rw [hfiles]
    by_cases hkey : p.1 = key
    · exact h.saved p.1 hkey p.2 (hasData_of_taken hp)
    · refine absurd hp (notMem_taken ?_)
      rw [hother p.1 hkey, h.other p.1 hkey]

theorem safe_run {x : ReportDisk Contents} {call : DiskCall StatsdConfig Contents} (hok : call.Harmless x)
    (haccumulate : ∀ key change, call ≠ .accumulate key change) (hread : ∀ key time, call ≠ .onDumpReport key time) :
    Safe report x (x.run mm report call) := by
  cases call with
  | accumulate key change => exact absurd rfl (haccumulate key change)
  | onDumpReport key dumpTimeStampNs => exact absurd rfl (hread key dumpTimeStampNs)
  | WriteDataToDisk reason latency elapsedRealtimeNs clock =>
    cases hcool : x.coolingDown elapsedRealtimeNs with
    | true =>
      have hskip : x.run mm report (.WriteDataToDisk reason latency elapsedRealtimeNs clock) = x := if_pos hcool
      rw [hskip]
      exact ⟨fun _ _ h => h, fun p hp => absurd hp (notMem_taken rfl)⟩
    | false =>
      obtain ⟨hkept, hsaved⟩ := x.wrote_all mm report hcool (hok hcool) reason latency
      exact ⟨hkept, fun p hp => hsaved p.1 p.2 (hasData_of_taken hp)⟩
  | resetIfConfigTtlExpired eventTimeNs elapsedRealtimeNs disk clock =>
    change Safe report x (x.resetIfConfigTtlExpiredLocked mm report eventTimeNs elapsedRealtimeNs disk clock)
    unfold ReportDisk.resetIfConfigTtlExpiredLocked
    dsimp only
    split
    · rename_i hexpired
      have hok := hok (List.ne_nil_of_length_pos hexpired)
      cases hcool : x.coolingDown elapsedRealtimeNs with
      | true =>
        -- nothing is written, and what is reset has no data
        rw [hcool, if_pos rfl] at hok
        have hskip : x.WriteDataToDiskLocked mm report .CONFIG_RESET .NO_TIME_CONSTRAINTS elapsedRealtimeNs clock = x := if_pos hcool
        rw [hskip]
        refine ⟨fun _ _ h => h, fun p hp => ?_⟩
        by_cases hreset : p.1 ∈ x.processor.expired eventTimeNs ∧ disk p.1 ≠ none
        · obtain ⟨m, hm, hwrite, hcontents, -⟩ := hp
          have hnone := hok p.1 hreset.1 hreset.2 m hm hwrite
          rw [hcontents] at hnone
          cases hnone
        · refine absurd hp (notMem_taken ?_)
          refine ReportDisk.contents_resetConfigs mm eventTimeNs disk _ _ fun hmem => ?_
          by_contra hdisk
          exact hreset ⟨hmem, hdisk⟩
      | false =>
        rw [hcool, if_neg Bool.false_ne_true] at hok
        obtain ⟨hkept, hsaved⟩ := x.wrote_all mm report hcool hok .CONFIG_RESET .NO_TIME_CONSTRAINTS
        exact ⟨hkept, fun p hp => hsaved p.1 p.2 (hasData_of_taken hp)⟩
    · exact ⟨fun _ _ h => h, fun p hp => absurd hp (notMem_taken rfl)⟩
  | OnConfigUpdated timestampNs key config modularUpdate clock =>
    have hwrote := (x.wrote_config mm report hok timestampNs .CONFIG_UPDATED .NO_TIME_CONSTRAINTS).1
    exact safe_of_wrote report hwrote rfl fun key' hne => ReportDisk.lookup_update_other mm _ hne timestampNs config modularUpdate
  | OnConfigRemoved key elapsedRealtimeNs clock =>
    have hwrote := (x.wrote_config mm report hok elapsedRealtimeNs .CONFIG_REMOVED .NO_TIME_CONSTRAINTS).1
    change Safe report x (x.OnConfigRemoved mm report key elapsedRealtimeNs clock)
    unfold ReportDisk.OnConfigRemoved
    split
    · exact ⟨fun _ _ h => h, fun p hp => absurd hp (notMem_taken rfl)⟩
    · exact safe_of_wrote report hwrote rfl fun key' hne => AList.lookup_erase_ne hne

/-- Every file is one that was seen. -/
structure DiskRun.Inv (s : DiskRun Contents) : Prop where
  lost : NothingLost report s
  seen : ∀ name bytes, s.disk.files.lookup name = some bytes → (name, bytes) ∈ s.unread

theorem DiskRun.Inv.step {s : DiskRun Contents} (h : s.Inv report) {call : DiskCall StatsdConfig Contents} (hok : call.Harmless s.disk) :
    (s.step mm report call).Inv report := by
  -- a call of the processor itself
  have hcall : (∀ key change, call ≠ .accumulate key change) → (∀ key time, call ≠ .onDumpReport key time) →
      DiskRun.Inv report ⟨s.disk.run mm report call, s.moved ∪ taken s.disk (s.disk.run mm report call),
        s.unread ∪ {p | (s.disk.run mm report call).files.lookup p.1 = some p.2}⟩ := by
    intro haccumulate hread
    obtain ⟨hkept, hsaved⟩ := safe_run mm report hok haccumulate hread
    refine ⟨⟨?_, ?_⟩, fun name bytes hlookup => .inr hlookup⟩
    · rintro p (hp | hp)
      · exact (h.lost.complete p hp).kept report hkept
      · exact hsaved p hp
    · rintro p (hp | hp)
      · exact hkept _ _ (h.lost.unchanged p hp)
      · exact hp
  cases call with
  | accumulate key change =>
    have hfiles : (s.disk.accumulate key change).files = s.disk.files := by
      unfold ReportDisk.accumulate
      split <;> rfl
    refine ⟨⟨?_, ?_⟩, ?_⟩
    · intro p hp
      change Saved report (s.disk.accumulate key change).files p.1 p.2
      rw [hfiles]
      exact h.lost.complete p hp
    · intro p hp
      change (s.disk.accumulate key change).files.lookup p.1 = some p.2
      rw [hfiles]
      exact h.lost.unchanged p hp
    · intro name bytes hlookup
      change (s.disk.accumulate key change).files.lookup name = some bytes at hlookup
      rw [hfiles] at hlookup
      exact h.seen name bytes hlookup
  | onDumpReport key dumpTimeStampNs =>
    have hlookup : ∀ name, (s.disk.onDumpReport mm key dumpTimeStampNs).files.lookup name =
        if isFileOf key name then none else s.disk.files.lookup name := lookup_removeFilesOf s.disk.files key
    refine ⟨⟨?_, ?_⟩, ?_⟩
    · rintro p ⟨hp, hne⟩
      obtain ⟨sec, uidMap, dump, hfile⟩ := h.lost.complete p hp
      have hother : ¬ isFileOf key (getDataFileName sec p.1) = true := fun hof => hne ((isFileOf_iff key p.1 sec).1 hof)
      refine ⟨sec, uidMap, dump, ?_⟩
      change (s.disk.onDumpReport mm key dumpTimeStampNs).files.lookup _ = _
      rw [hlookup, if_neg hother]
      exact hfile
    · rintro p ⟨hp, hother⟩
      change (s.disk.onDumpReport mm key dumpTimeStampNs).files.lookup _ = _
      rw [hlookup, hother, if_neg Bool.false_ne_true]
      exact h.lost.unchanged p hp
    · intro name bytes hfile
      change (s.disk.onDumpReport mm key dumpTimeStampNs).files.lookup name = some bytes at hfile
      rw [hlookup] at hfile
      split at hfile
      · cases hfile
      · rename_i hother
        exact ⟨h.seen name bytes hfile, by simpa using hother⟩
  | WriteDataToDisk => exact hcall (by simp) (by simp)
  | resetIfConfigTtlExpired => exact hcall (by simp) (by simp)
  | OnConfigUpdated => exact hcall (by simp) (by simp)
  | OnConfigRemoved => exact hcall (by simp) (by simp)

/-- A processor without configs, over a directory with reports that have not been read. -/
def DiskRun.new (timeBaseNs : Int) (files : Directory) : DiskRun Contents where
  disk := ⟨StatsLogProcessor.new UidMap.new timeBaseNs, files⟩
  moved := ∅
  unread := {p | files.lookup p.1 = some p.2}

/-- Nothing is lost on its way to disk, after any run in which no report is written over an unread one and no config with
data to write is reset while bulk writes cool down. -/
theorem nothing_lost (timeBaseNs : Int) (files : Directory) (calls : List (DiskCall StatsdConfig Contents))
    (hrun : RunOk (DiskRun.step mm report) (fun s call => call.Harmless s.disk) (.new timeBaseNs files) calls) (n : Nat) :
    NothingLost report ((calls.take n).foldl (DiskRun.step mm report) (.new timeBaseNs files)) := by
  have hnew : (DiskRun.new timeBaseNs files : DiskRun Contents).Inv report :=
    ⟨⟨fun p hp => absurd hp (Set.notMem_empty p), fun _ hp => hp⟩, fun _ _ hlookup => hlookup⟩
  exact (hrun.inv_take (fun s call hok h => h.step mm report hok) hnew n).lost

/-! ## Runs of a config of one metric -/

/-- A config that keeps the bytes it is given, for ten seconds. -/
def bytesConfig : ManagerModel Unit Bytes where
  ttl_in_seconds _ := some 10
  initStatsdConfig _ _ _ := ⟨[], true, 1, 0⟩
  updateStatsdConfig bytes _ _ := ⟨bytes, true, 1, 0⟩
  onDumpReport _ _ := []

/-- A report of the bytes alone. -/
def bytesReport : ReportBytes Bytes := fun bytes _ _ _ => bytes

/-- A bulk write, and six seconds later a reset. -/
theorem nothing_lost_reset :
    let key : ConfigKey := ⟨1000, 1⟩
    let calls : List (DiskCall Unit Bytes) := [.OnConfigUpdated 0 key () false ⟨0, 100⟩, .accumulate key (· ++ [1]),
      .WriteDataToDisk .ADB_DUMP .NO_TIME_CONSTRAINTS (20 * NS_PER_SEC) (fun _ => ⟨0, 120⟩), .accumulate key (· ++ [2]),
      .resetIfConfigTtlExpired (26 * NS_PER_SEC) (26 * NS_PER_SEC) (fun _ => some ()) (fun _ => ⟨0, 126⟩)]
    let s := calls.foldl (DiskRun.step bytesConfig bytesReport) (.new 0 ∅)
    s.disk.files.entries.map Sigma.snd = [[2], [1]] ∧ NothingLost bytesReport s := by
  intro key calls s
  let before := (calls.take 4).foldl (DiskRun.step bytesConfig bytesReport) (.new 0 ∅)
  have hrun : RunOk (DiskRun.step bytesConfig bytesReport) (fun s call => call.Harmless s.disk) (.new 0 ∅) calls := by
    refine ⟨?_, True.intro, ?_, True.intro, ?_, True.intro⟩
    · intro m hm
      cases hm
    · intro _ key' m _ _ hmem
      exact AList.notMem_empty _ hmem
    · intro _
      have hwarm : before.disk.coolingDown (26 * NS_PER_SEC) = false := by decide +kernel
      -- the second of the name is that of the bulk write
      have hnames : ∀ name ∈ before.disk.files.keys, name.take 3 = ['1', '2', '0'] := by decide +kernel
      change if before.disk.coolingDown (26 * NS_PER_SEC) = true then _ else _
      rw [hwarm, if_neg Bool.false_ne_true]
      intro key' m _ _ hmem
      have hname := hnames _ (AList.mem_keys.1 hmem)
      have hsec : decimal 126 = ['1', '2', '6'] := by decide +kernel
      change (decimal 126 ++ '_' :: key'.text).take 3 = _ at hname
      rw [hsec] at hname
      simp at hname
  exact ⟨by decide +kernel, nothing_lost bytesConfig bytesReport 0 ∅ calls hrun 5⟩

/-- One second after a bulk write a config is reset: what was accumulated in between is in no file. And a config is updated in
the second of a bulk write: the report of the update takes the place of the one before. -/
theorem data_lost :
    let key : ConfigKey := ⟨1000, 1⟩
    let calls : List (DiskCall Unit Bytes) := [.OnConfigUpdated 0 key () false ⟨0, 100⟩, .accumulate key (· ++ [1]),
      .WriteDataToDisk .ADB_DUMP .NO_TIME_CONSTRAINTS (20 * NS_PER_SEC) (fun _ => ⟨0, 120⟩), .accumulate key (· ++ [2])]
    let s := calls.foldl (DiskRun.step bytesConfig bytesReport) (.new 0 ∅)
    let reset := s.step bytesConfig bytesReport (.resetIfConfigTtlExpired (21 * NS_PER_SEC) (21 * NS_PER_SEC) (fun _ => some ()) (fun _ => ⟨0, 121⟩))
    let updated := s.step bytesConfig bytesReport (.OnConfigUpdated (20 * NS_PER_SEC) key () false ⟨0, 120⟩)
    ¬ NothingLost bytesReport reset ∧ ¬ NothingLost bytesReport updated := by
  intro key calls s reset updated
  constructor
  · intro h
    have hmoved : (key, [2]) ∈ reset.moved := by
      refine .inr ⟨_, rfl, rfl, rfl, ?_⟩
      intro m' hm'
      cases hm'
      intro heq
      cases heq
    obtain ⟨sec, uidMap, dump, hfile⟩ := h.complete _ hmoved
    have hfiles : ∀ it ∈ reset.disk.files.entries, it.2 ≠ [2] := by decide +kernel
    exact hfiles ⟨_, [2]⟩ (AList.mem_lookup_iff.1 hfile) rfl
  · intro h
    have hseen : (getDataFileName 120 key, [1]) ∈ updated.unread := by
      refine .inl (.inr ?_)
      decide +kernel
    have hfile := h.unchanged _ hseen
    revert hfile
    decide +kernel

end Statsd
