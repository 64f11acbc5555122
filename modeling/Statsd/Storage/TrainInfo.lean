/-
Train info on disk (writeTrainInfo and readTrainInfo of storage/StorageManager.cpp). A train has one file, named by the
second of the write, an underscore and the name of the train; a write deletes the old file of its train first. The file is a
record of fields, some of them behind their length, and nothing may follow it.

Files are looked up and deleted by the end of their names alone. So the info of a train is what was last written for it as
long as its name does not end the file name of another train, and no name written later ends the name of its file.
-/
import Statsd.Base.Bytes
import Statsd.Base.Run
import Statsd.Storage.StorageManager

namespace Statsd.Storage

def TRAIN_INFO_FILE_MAGIC : Nat := 0xfb7447bf

structure InstallTrainInfo where
  trainVersionCode : Int64
  trainName : Bytes
  status : Int32
  experimentIds : List Int64
  requiresStaging : Bool
  rollbackEnabled : Bool
  requiresLowLatencyMonitor : Bool
deriving DecidableEq

/-! ## The record -/

def int64Bytes (value : Int64) : Bytes := leBytes 8 value.toBitVec.toNat

def int32Bytes (value : Int32) : Bytes := leBytes 4 value.toBitVec.toNat

def boolByte (value : Bool) : Bytes := [if value then 1 else 0]

/-- What `writeTrainInfo` writes to the file, one field after the other. -/
def InstallTrainInfo.bytes (trainInfo : InstallTrainInfo) : Bytes :=
  leBytes 4 TRAIN_INFO_FILE_MAGIC ++ (int64Bytes trainInfo.trainVersionCode ++ (leBytes 8 trainInfo.trainName.length ++
    (trainInfo.trainName ++ (int32Bytes trainInfo.status ++ (leBytes 8 trainInfo.experimentIds.length ++
      (trainInfo.experimentIds.flatMap int64Bytes ++ (boolByte trainInfo.requiresStaging ++
        (boolByte trainInfo.rollbackEnabled ++ boolByte trainInfo.requiresLowLatencyMonitor))))))))

/-- `read` of `k` bytes and the check of its result: the bytes and what is left. -/
def readBytes (k : Nat) (file : Bytes) : Option (Bytes × Bytes) :=
  if file.length < k then none else some (file.take k, file.drop k)

def toInt64 (bytes : Bytes) : Int64 := .ofBitVec (.ofNat 64 (ofLeBytes bytes))

def toInt32 (bytes : Bytes) : Int32 := .ofBitVec (.ofNat 32 (ofLeBytes bytes))

def toBool (bytes : Bytes) : Bool := decide (bytes ≠ [0])

/-- The loop over the experiment ids. -/
def readExperimentIds : Nat → Bytes → Option (List Int64 × Bytes)
  | 0, file => some ([], file)
  | count + 1, file =>
    (readBytes 8 file).bind fun r =>
      (readExperimentIds count r.2).map fun r' => (toInt64 r.1 :: r'.1, r'.2)

/-- `readTrainInfoLocked` on the contents of the file, into an empty info. -/
def readRecord (file : Bytes) : Option InstallTrainInfo := do
  let (magic, file) ← readBytes 4 file
  if ofLeBytes magic ≠ TRAIN_INFO_FILE_MAGIC then none
  let (trainVersionCode, file) ← readBytes 8 file
  let (trainNameSize, file) ← readBytes 8 file
  let (trainName, file) ← readBytes (ofLeBytes trainNameSize) file
  let (status, file) ← readBytes 4 file
  let (experimentIdsCount, file) ← readBytes 8 file
  let (experimentIds, file) ← readExperimentIds (ofLeBytes experimentIdsCount) file
  let (requiresStaging, file) ← readBytes 1 file
  let (rollbackEnabled, file) ← readBytes 1 file
  let (requiresLowLatencyMonitor, file) ← readBytes 1 file
  -- the end of the file is expected
  if file.length ≠ 0 then none
  return {
    trainVersionCode := toInt64 trainVersionCode
    trainName
    status := toInt32 status
    experimentIds
    requiresStaging := toBool requiresStaging
    rollbackEnabled := toBool rollbackEnabled
    requiresLowLatencyMonitor := toBool requiresLowLatencyMonitor }

/-! ## The directory -/

/-- The characters of a name. -/
def text (name : Bytes) : FileName := name.map Char.ofUInt8

def trainFileName (wallClockSec : Int) (trainName : Bytes) : FileName := decimal wallClockSec ++ '_' :: text trainName

section Directory

variable (readdir : Directory → List FileName)

def findTrainInfoFileName (d : Directory) (trainName : Bytes) : Option FileName :=
  (readdir d).find? fun fileName => !isHidden fileName && hasSuffix fileName (text trainName)

def writeTrainInfo (d : Directory) (wallClockSec : Int) (trainInfo : InstallTrainInfo) : Bool × Directory :=
  if trainInfo.trainName = [] then (false, d)
  else
    let d := deleteSuffixedFiles readdir d (text trainInfo.trainName)
    (true, writeFile d (trainFileName wallClockSec trainInfo.trainName) trainInfo.bytes)

def readTrainInfo (d : Directory) (trainName : Bytes) : Option InstallTrainInfo :=
  ((findTrainInfoFileName readdir d trainName).bind d.lookup).bind readRecord

end Directory

/-- A call of `writeTrainInfo` at a second of the wall clock. Its name is any text of a file name, and its sizes are those of
C++ containers. -/
structure TrainWrite where
  wallClockSec : Int
  info : InstallTrainInfo
  named : info.trainName ≠ []
  noSeparator : 47 ∉ info.trainName
  noNul : 0 ∉ info.trainName
  nameSize : info.trainName.length < 2 ^ 64
  experimentIdsCount : info.experimentIds.length < 2 ^ 64

namespace TrainWrite

def fileName (w : TrainWrite) : FileName := trainFileName w.wallClockSec w.info.trainName

/-- The directory after some writes. -/
def directory (readdir : Directory → List FileName) (writes : List TrainWrite) : Directory :=
  writes.foldl (fun d w => (writeTrainInfo readdir d w.wallClockSec w.info).2) ∅

/-- The last write of a train. -/
def last (name : Bytes) (writes : List TrainWrite) : Option TrainWrite :=
  writes.reverse.find? fun w => decide (w.info.trainName = name)

/-- A further write is one of the train itself, or its file does not end in the train's name and the train's file does not end
in its name. -/
def Apart (name : Bytes) (writes : List TrainWrite) (w : TrainWrite) : Prop :=
  w.info.trainName = name ∨
    ¬ text name <:+ w.fileName ∧ ∀ w', last name writes = some w' → ¬ text w.info.trainName <:+ w'.fileName

end TrainWrite

/-- The info read for a train is what was last written for it, after every write, and writes for other trains leave it. -/
structure Independent (readdir : Directory → List FileName) (name : Bytes) (writes : List TrainWrite) : Prop where
  read : ∀ n, readTrainInfo readdir (TrainWrite.directory readdir (writes.take n)) name =
    (TrainWrite.last name (writes.take n)).map TrainWrite.info
  others : ∀ (n : Nat) (w : TrainWrite), writes[n]? = some w → w.info.trainName ≠ name →
    readTrainInfo readdir (TrainWrite.directory readdir (writes.take (n + 1))) name =
      readTrainInfo readdir (TrainWrite.directory readdir (writes.take n)) name

/-! ## The record is read back -/

theorem readBytes_append {k : Nat} {bytes : Bytes} (h : bytes.length = k) (file : Bytes) :
    readBytes k (bytes ++ file) = some (bytes, file) := by
  subst h
  simp [readBytes]

@[simp] theorem readBytes_leBytes (k n : Nat) (file : Bytes) : readBytes k (leBytes k n ++ file) = some (leBytes k n, file) :=
  readBytes_append (length_leBytes k n) file

@[simp] theorem readBytes_int64Bytes (value : Int64) (file : Bytes) :
    readBytes 8 (int64Bytes value ++ file) = some (int64Bytes value, file) := readBytes_leBytes 8 _ file

@[simp] theorem readBytes_int32Bytes (value : Int32) (file : Bytes) :
    readBytes 4 (int32Bytes value ++ file) = some (int32Bytes value, file) := readBytes_leBytes 4 _ file

@[simp] theorem readBytes_boolByte (value : Bool) (file : Bytes) :
    readBytes 1 (boolByte value ++ file) = some (boolByte value, file) := readBytes_append rfl file

@[simp] theorem readBytes_boolByte_last (value : Bool) : readBytes 1 (boolByte value) = some (boolByte value, []) := rfl

@[simp] theorem readBytes_name (name file : Bytes) : readBytes name.length (name ++ file) = some (name, file) :=
  readBytes_append rfl file

@[simp] theorem toInt64_int64Bytes (value : Int64) : toInt64 (int64Bytes value) = value := by
  have hlt : value.toBitVec.toNat < 256 ^ 8 := value.toBitVec.isLt
  simp [toInt64, int64Bytes, ofLeBytes_leBytes_of_lt hlt]

@[simp] theorem toInt32_int32Bytes (value : Int32) : toInt32 (int32Bytes value) = value := by
  have hlt : value.toBitVec.toNat < 256 ^ 4 := value.toBitVec.isLt
  simp [toInt32, int32Bytes, ofLeBytes_leBytes_of_lt hlt]

@[simp] theorem toBool_boolByte (value : Bool) : toBool (boolByte value) = value := by cases value <;> rfl

@[simp] theorem readExperimentIds_append (experimentIds : List Int64) (file : Bytes) :
    readExperimentIds experimentIds.length (experimentIds.flatMap int64Bytes ++ file) = some (experimentIds, file) := by
  induction experimentIds with
  | nil => rfl
  | cons experimentId experimentIds ih =>
    rw [List.length_cons, readExperimentIds, List.flatMap_cons, List.append_assoc]
    simp [ih]

theorem readRecord_bytes {trainInfo : InstallTrainInfo} (hname : trainInfo.trainName.length < 2 ^ 64)
    (hids : trainInfo.experimentIds.length < 2 ^ 64) : readRecord trainInfo.bytes = some trainInfo := by
  have hmagic : ofLeBytes (leBytes 4 TRAIN_INFO_FILE_MAGIC) = TRAIN_INFO_FILE_MAGIC := ofLeBytes_leBytes_of_lt (by decide)
  have hnameSize := ofLeBytes_leBytes_of_lt (k := 8) (n := trainInfo.trainName.length) hname
  have hcount := ofLeBytes_leBytes_of_lt (k := 8) (n := trainInfo.experimentIds.length) hids
  simp [readRecord, InstallTrainInfo.bytes, hmagic, hnameSize, hcount]

/-! ## The files -/

namespace TrainWrite

/-- The writes whose files are there, oldest first: a write deletes the files that end in its name, and adds its own. -/
def files (writes : List TrainWrite) : List TrainWrite :=
  writes.foldl (fun files w => (files.filter fun f => decide (¬ text w.info.trainName <:+ f.fileName)) ++ [w]) []

theorem files_append (writes : List TrainWrite) (w : TrainWrite) :
    files (writes ++ [w]) = ((files writes).filter fun f => decide (¬ text w.info.trainName <:+ f.fileName)) ++ [w] := by
  simp [files]

variable {writes : List TrainWrite}

theorem mem_files_append {w f : TrainWrite} :
    f ∈ files (writes ++ [w]) ↔ f ∈ files writes ∧ ¬ text w.info.trainName <:+ f.fileName ∨ f = w := by
  simp [files_append]

theorem suffix_fileName (w : TrainWrite) : text w.info.trainName <:+ w.fileName :=
  (List.suffix_cons '_' _).trans (List.suffix_append _ _)

theorem visible_fileName (w : TrainWrite) : isHidden w.fileName = false := hidden_append _ _

theorem directory_append (readdir : Directory → List FileName) (writes : List TrainWrite) (w : TrainWrite) :
    directory readdir (writes ++ [w]) =
      writeFile (deleteSuffixedFiles readdir (directory readdir writes) (text w.info.trainName)) w.fileName w.info.bytes := by
  simp [directory, writeTrainInfo, w.named, fileName]

theorem lookup_directory {readdir : Directory → List FileName} (hlists : Lists readdir) (writes : List TrainWrite)
    (name : FileName) (content : Bytes) :
    (directory readdir writes).lookup name = some content ↔
      ∃ w ∈ files writes, w.fileName = name ∧ w.info.bytes = content := by
  induction writes using List.reverseRecOn with
  | nil => simp [directory, files]
  | append_singleton writes w ih =>
    have hgone := lookup_deleteSuffixedFiles hlists (directory readdir writes) (text w.info.trainName)
    rw [directory_append, writeFile, UMap.lookup_insert']
    by_cases hname : name = w.fileName
    · subst hname
      have hown : UMap.getD (deleteSuffixedFiles readdir (directory readdir writes) (text w.info.trainName)) w.fileName [] = [] := by
        apply UMap.getD_of_lookup_none
        rw [hgone, if_pos ⟨w.visible_fileName, w.suffix_fileName⟩]
      rw [if_pos rfl, hown]
      simp only [List.drop_nil, List.append_nil, Option.some.injEq]
      constructor
      · rintro rfl
        exact ⟨w, mem_files_append.2 (.inr rfl), rfl, rfl⟩
      · rintro ⟨f, hf, hfile, rfl⟩
        rcases mem_files_append.1 hf with ⟨-, hkept⟩ | rfl
        · rw [hfile] at hkept
          exact absurd w.suffix_fileName hkept
        · rfl
    · rw [if_neg hname, hgone]
      constructor
      · intro h
        split at h
        · cases h
        · rename_i hkept
          obtain ⟨f, hf, rfl, hbytes⟩ := ih.1 h
          exact ⟨f, mem_files_append.2 (.inl ⟨hf, fun hsuffix => hkept ⟨f.visible_fileName, hsuffix⟩⟩), rfl, hbytes⟩
      · rintro ⟨f, hf, rfl, hbytes⟩
        rcases mem_files_append.1 hf with ⟨hf, hkept⟩ | rfl
        · rw [if_neg fun h => hkept h.2]
          exact ih.2 ⟨f, hf, rfl, hbytes⟩
        · exact absurd rfl hname

/-! ## The last write of a train -/

theorem last_append (name : Bytes) (writes : List TrainWrite) (w : TrainWrite) :
    last name (writes ++ [w]) = if w.info.trainName = name then some w else last name writes := by
  unfold last
  rw [List.reverse_append, List.reverse_singleton, List.singleton_append, List.find?_cons]
  by_cases hname : w.info.trainName = name <;> simp [hname]

theorem last_name {name : Bytes} {w : TrainWrite} (h : last name writes = some w) :
    w.info.trainName = name := by
  simpa using List.find?_some h

theorem last_of_mem_files {name : Bytes} {w : TrainWrite} (h : w ∈ files writes)
    (hname : w.info.trainName = name) : last name writes = some w := by
  induction writes using List.reverseRecOn with
  | nil => cases h
  | append_singleton writes w' ih =>
    rw [last_append]
    rcases mem_files_append.1 h with ⟨hmem, hkept⟩ | rfl
    · rw [if_neg, ih hmem]
      intro hsame
      rw [hsame, ← hname] at hkept
      exact hkept w.suffix_fileName
    · rw [if_pos hname]

/-- The files that end in a train's name are its own, and the file of its last write is there. -/
structure Found (name : Bytes) (writes : List TrainWrite) : Prop where
  own : ∀ w ∈ files writes, text name <:+ w.fileName → w.info.trainName = name
  kept : ∀ w, last name writes = some w → w ∈ files writes

/-- A further write leaves the file of a train where it is found exactly when it stays apart from the train. -/
theorem Found.append_iff {name : Bytes} (h : Found name writes) (w : TrainWrite) :
    Found name (writes ++ [w]) ↔ Apart name writes w := by
  by_cases hname : w.info.trainName = name
  · apply iff_of_true _ (.inl hname)
    subst hname
    constructor
    · intro f hf hends
      rcases mem_files_append.1 hf with ⟨-, hkept⟩ | rfl
      · exact absurd hends hkept
      · rfl
    · intro f hlast
      rw [last_append, if_pos rfl] at hlast
      exact mem_files_append.2 (.inr (Option.some.inj hlast).symm)
  · have hlast : last name (writes ++ [w]) = last name writes := by rw [last_append, if_neg hname]
    constructor
    · intro h'
      refine .inr ⟨fun hends => hname (h'.own w (mem_files_append.2 (.inr rfl)) hends), fun f hf => ?_⟩
      rcases mem_files_append.1 (h'.kept f (hlast.trans hf)) with ⟨-, hkept⟩ | rfl
      · exact hkept
      · exact absurd (last_name hf) hname
    · rintro (hsame | ⟨hends, hkept⟩)
      · exact absurd hsame hname
      · constructor
        · intro f hf hsuffix
          rcases mem_files_append.1 hf with ⟨hf, -⟩ | rfl
          · exact h.own f hf hsuffix
          · exact absurd hsuffix hends
        · intro f hf
          rw [hlast] at hf
          exact mem_files_append.2 (.inl ⟨h.kept f hf, hkept f hf⟩)

end TrainWrite

/-! ## Reading -/

open TrainWrite

theorem readTrainInfo_cases {readdir : Directory → List FileName} (hlists : Lists readdir) (writes : List TrainWrite)
    (name : Bytes) :
    (readTrainInfo readdir (directory readdir writes) name = none ∧ ∀ w ∈ files writes, ¬ text name <:+ w.fileName) ∨
      ∃ w ∈ files writes, text name <:+ w.fileName ∧
        (readdir (directory readdir writes)).find? (fun f => !isHidden f && hasSuffix f (text name)) = some w.fileName ∧
        readTrainInfo readdir (directory readdir writes) name = some w.info := by
  unfold readTrainInfo findTrainInfoFileName
  cases hfind : (readdir (directory readdir writes)).find? fun f => !isHidden f && hasSuffix f (text name) with
  | none =>
    left
    refine ⟨rfl, fun w hw hends => ?_⟩
    have hmem : w.fileName ∈ readdir (directory readdir writes) := by
      rw [(hlists _).mem_iff, ← AList.mem_keys, ← AList.lookup_isSome, (lookup_directory hlists writes _ _).2 ⟨w, hw, rfl, rfl⟩]
      rfl
    have hno := List.find?_eq_none.1 hfind _ hmem
    rw [w.visible_fileName, (hasSuffix_iff _ _).2 hends] at hno
    exact hno rfl
  | some f =>
    right
    have hends := List.find?_some hfind
    rw [Bool.and_eq_true, hasSuffix_iff] at hends
    have hmem : f ∈ directory readdir writes := AList.mem_keys.2 ((hlists _).mem_iff.1 (List.mem_of_find?_eq_some hfind))
    obtain ⟨content, hcontent⟩ := Option.isSome_iff_exists.1 (AList.lookup_isSome.2 hmem)
    obtain ⟨w, hw, rfl, rfl⟩ := (lookup_directory hlists writes _ _).1 hcontent
    refine ⟨w, hw, hends.2, rfl, ?_⟩
    rw [Option.bind_some, hcontent, Option.bind_some]
    exact readRecord_bytes w.nameSize w.experimentIdsCount

theorem TrainWrite.Found.read {name : Bytes} {writes : List TrainWrite} (h : Found name writes)
    {readdir : Directory → List FileName} (hlists : Lists readdir) :
    readTrainInfo readdir (directory readdir writes) name = (last name writes).map TrainWrite.info := by
  rcases readTrainInfo_cases hlists writes name with ⟨hread, hnone⟩ | ⟨w, hw, hends, -, hread⟩
  · rw [hread]
    cases hlast : last name writes with
    | none => rfl
    | some w =>
      have hname := last_name hlast
      subst hname
      exact absurd w.suffix_fileName (hnone w (h.kept w hlast))
  · rw [hread, last_of_mem_files hw (h.own w hw hends)]
    rfl

/-- The listing with one file first. -/
def listFirst (f : FileName) (d : Directory) : List FileName := if f ∈ d.keys then f :: d.keys.erase f else d.keys

theorem lists_listFirst (f : FileName) : Lists (listFirst f) := by
  intro d
  unfold listFirst
  split
  · rename_i hmem
    exact (List.perm_cons_erase hmem).symm
  · exact List.Perm.refl _

theorem TrainWrite.Found.of_read {name : Bytes} {writes : List TrainWrite}
    (h : ∀ readdir, Lists readdir → readTrainInfo readdir (directory readdir writes) name = (last name writes).map TrainWrite.info) :
    Found name writes := by
  constructor
  · intro w hw hends
    -- the file is the first one listed, so it is the one that is read
    have hlists := lists_listFirst w.fileName
    have hmem : w.fileName ∈ (directory (listFirst w.fileName) writes).keys := by
      rw [← AList.mem_keys, ← AList.lookup_isSome, (lookup_directory hlists writes _ _).2 ⟨w, hw, rfl, rfl⟩]
      rfl
    have hfirst : (listFirst w.fileName (directory (listFirst w.fileName) writes)).find?
        (fun f => !isHidden f && hasSuffix f (text name)) = some w.fileName := by
      rw [listFirst, if_pos hmem, List.find?_cons_of_pos]
      rw [w.visible_fileName, (hasSuffix_iff _ _).2 hends]
      rfl
    rcases readTrainInfo_cases hlists writes name with ⟨-, hnone⟩ | ⟨w', hw', -, hfind, hread⟩
    · exact absurd hends (hnone w hw)
    · rw [h _ hlists] at hread
      obtain ⟨last, hlast, hinfo⟩ := Option.map_eq_some_iff.1 hread
      rw [hfirst] at hfind
      have hbytes := (lookup_directory hlists writes w.fileName w'.info.bytes).2 ⟨w', hw', (Option.some.inj hfind).symm, rfl⟩
      rw [(lookup_directory hlists writes _ _).2 ⟨w, hw, rfl, rfl⟩, Option.some.injEq] at hbytes
      have hsame : some w.info = some w'.info := by
        rw [← readRecord_bytes w.nameSize w.experimentIdsCount, hbytes, readRecord_bytes w'.nameSize w'.experimentIdsCount]
      rw [Option.some.inj hsame, ← hinfo]
      exact last_name hlast
  · intro w hlast
    have hlists : Lists AList.keys := fun d => List.Perm.refl _
    rcases readTrainInfo_cases hlists writes name with ⟨hread, -⟩ | ⟨w', hw', -, -, hread⟩
    · rw [h _ hlists, hlast] at hread
      cases hread
    · rw [h _ hlists, hlast] at hread
      have hinfo : w.info = w'.info := Option.some.inj hread
      have hlast' := last_of_mem_files hw' (hinfo ▸ last_name hlast)
      rw [hlast] at hlast'
      rw [Option.some.inj hlast']
      exact hw'

/-! ## Independence -/

/-- For every train and every sequence of writes: in every listing of the directory the train's info is what was last written
for it, whatever is written for others, exactly when each write stays apart from it. -/
theorem train_info_iff (name : Bytes) (writes : List TrainWrite) :
    (∀ readdir, Lists readdir → Independent readdir name writes) ↔
      RunOk (fun before w => before ++ [w]) (TrainWrite.Apart name) [] writes := by
  have hhistory : ∀ writes : List TrainWrite, writes.foldl (fun before w => before ++ [w]) [] = writes := by
    intro writes
    induction writes using List.reverseRecOn with
    | nil => rfl
    | append_singleton writes w ih => rw [List.foldl_append, ih, List.foldl_cons, List.foldl_nil]
  have hfound : (∀ n, Found name ((writes.take n).foldl (fun before w => before ++ [w]) [])) ↔
      RunOk (fun before w => before ++ [w]) (TrainWrite.Apart name) [] writes := by
    apply RunOk.iff_prefixes (I := fun _ => True) (P := fun _ before => Found name before)
    · intro _ before w _ h hapart
      exact ⟨trivial, (h.append_iff w).2 hapart⟩
    · intro _ before w _ h hbad h'
      exact hbad ((h.append_iff w).1 h')
    · trivial
    · constructor
      · intro w hw
        cases hw
      · intro w hlast
        cases hlast
  rw [← hfound]
  simp only [hhistory]
  constructor
  · intro h n
    exact Found.of_read fun readdir hlists => (h readdir hlists).read n
  · intro h readdir hlists
    constructor
    · intro n
      exact (h n).read hlists
    · intro n w hw hname
      obtain ⟨hlt, rfl⟩ := List.getElem?_eq_some_iff.1 hw
      rw [(h (n + 1)).read hlists, (h n).read hlists, List.take_succ_eq_append_getElem hlt, last_append, if_neg hname]

/-- Trains `ab` and `b`: the write for `b` deletes the file of `ab`. -/
theorem shorter_name_deletes :
    let info (name : Bytes) : InstallTrainInfo := ⟨1, name, 2, [3, 4], true, false, true⟩
    let writes : List TrainWrite := [⟨7, info [97, 98], by decide, by decide, by decide, by decide, by decide⟩,
      ⟨8, info [98], by decide, by decide, by decide, by decide, by decide⟩]
    readTrainInfo AList.keys (directory AList.keys (writes.take 1)) [97, 98] = some (info [97, 98]) ∧
      readTrainInfo AList.keys (directory AList.keys writes) [97, 98] = none ∧
      ¬ ∀ readdir, Lists readdir → Independent readdir [97, 98] writes := by
  intro info writes
  have hbefore : readTrainInfo AList.keys (directory AList.keys (writes.take 1)) [97, 98] = some (info [97, 98]) := by
    decide +kernel
  have hafter : readTrainInfo AList.keys (directory AList.keys writes) [97, 98] = none := by decide +kernel
  refine ⟨hbefore, hafter, fun h => ?_⟩
  have hread := (h AList.keys fun d => List.Perm.refl _).read 2
  have hlast : (last [97, 98] (writes.take 2)).map TrainWrite.info = some (info [97, 98]) := by decide +kernel
  rw [hlast, show writes.take 2 = writes from rfl, hafter] at hread
  cases hread

end Statsd.Storage
