/-
The uid map (packages/UidMap.{h,cpp}): the installed apps by uid and package name, the tombstones of
deleted apps with a bounded queue of their keys, and the log of changes with the time of the last report
of every config. A report is its records and its snapshot; which of their fields are written, and
whether strings are written as hashes, is left out, and so are the isolated uids and the listener.
-/
import Statsd.Base.UMap
import Statsd.Config.ConfigKey

namespace Statsd.Packages

structure AppData where
  versionCode : Int
  versionString : String
  installer : String
  deleted : Bool
deriving DecidableEq

structure ChangeRecord where
  deletion : Bool
  timestampNs : Int
  package : String
  uid : Int
  version : Int
  prevVersion : Int
  versionString : String
  prevVersionString : String
deriving DecidableEq

/-- `sizeof(struct ChangeRecord)`, with 64-bit pointers. -/
def kBytesChangeRecord : Nat := 112

/-- The limits of `StatsdStats` on the uid map. -/
def kMaxBytesUsedUidMap : Nat := 50 * 1024
def kMaxDeletedAppsInUidMap : Nat := 100

/-- An app by its uid and package name. -/
abbrev AppKey := Int × String

/-- An element of the vectors given to `updateMap`, which have the same length: the jth elements of all
of them are one app. -/
structure AppInfo where
  uid : Int
  versionCode : Int
  versionString : String
  packageName : String
  installer : String
deriving DecidableEq

def AppInfo.key (app : AppInfo) : AppKey := (app.uid, app.packageName)

/-- The constructor of `AppData`: the app is not deleted. -/
def AppInfo.data (app : AppInfo) : AppData := ⟨app.versionCode, app.versionString, app.installer, false⟩

structure UidMap where
  mMap : UMap AppKey AppData
  mChanges : List ChangeRecord
  mDeletedApps : List AppKey
  mLastUpdatePerConfigKey : UMap ConfigKey Int
  maxBytesOverride : Nat
  mBytesUsed : Nat

/-- What `appendUidMap` writes. -/
structure UidMapReport where
  changes : List ChangeRecord
  snapshot : UMap AppKey AppData

namespace UidMap

def new : UidMap where
  mMap := ∅
  mChanges := []
  mDeletedApps := []
  mLastUpdatePerConfigKey := ∅
  maxBytesOverride := 0
  mBytesUsed := 0

def hasApp (m : UidMap) (uid : Int) (packageName : String) : Bool :=
  match m.mMap.lookup (uid, packageName) with
  | some data => !data.deleted
  | none => false

def getAppVersion (m : UidMap) (uid : Int) (packageName : String) : Int :=
  match m.mMap.lookup (uid, packageName) with
  | some data => if data.deleted then 0 else data.versionCode
  | none => 0

def getAppNamesFromUid (m : UidMap) (uid : Int) : Finset String :=
  (m.mMap.entries.filterMap fun kv => if kv.1.1 = uid ∧ !kv.2.deleted then some kv.1.2 else none).toFinset

/-- The limit in force. -/
def limit (m : UidMap) : Nat := if m.maxBytesOverride = 0 then kMaxBytesUsedUidMap else m.maxBytesOverride

/-- The loop of `ensureBytesUsedBelowLimit`. The bytes used are those of the records, so none are used when
no record is left. -/
def dropOldest (limit : Nat) : Nat → List ChangeRecord → Nat × List ChangeRecord
  | bytesUsed, [] => (bytesUsed, [])
  | bytesUsed, record :: changes =>
    if bytesUsed > limit then dropOldest limit (bytesUsed - kBytesChangeRecord) changes
    else (bytesUsed, record :: changes)

def ensureBytesUsedBelowLimit (m : UidMap) : UidMap :=
  let (mBytesUsed, mChanges) := dropOldest m.limit m.mBytesUsed m.mChanges
  { m with mBytesUsed, mChanges }

/-- `mChanges.emplace_back`, with the accounting that follows it. -/
def addChange (m : UidMap) (record : ChangeRecord) : UidMap :=
  { m with
    mChanges := m.mChanges ++ [record]
    mBytesUsed := m.mBytesUsed + kBytesChangeRecord }.ensureBytesUsedBelowLimit

def updateMap (m : UidMap) (apps : List AppInfo) : UidMap :=
  let deletedApps := m.mMap.filterVal (·.deleted)
  let mMap : UMap AppKey AppData := apps.foldl (fun mMap app => mMap.insert app.key app.data) ∅
  let mMap := deletedApps.entries.foldl
    (fun mMap kv =>
      -- the source's test for putting a deleted app back: the snapshot has the app
      if (mMap.lookup kv.1).isSome then mMap.insert kv.1 kv.2 else mMap) mMap
  { m with mMap }.ensureBytesUsedBelowLimit

/-- The conversion to `int32_t`. -/
def toInt32 (v : Int) : Int := v.bmod (2 ^ 32)

def updateApp (m : UidMap) (timestamp : Int) (appName : String) (uid versionCode : Int)
    (versionString installer : String) : UidMap :=
  let (prevVersion, prevVersionString) := match m.mMap.lookup (uid, appName) with
    -- the previous version is kept in an `int32_t`
    | some data => (toInt32 data.versionCode, data.versionString)
    | none => (0, "")
  -- an entry that is there is overwritten field by field, which leaves the same as a new one
  { m with mMap := m.mMap.insert (uid, appName) ⟨versionCode, versionString, installer, false⟩ }.addChange
    ⟨false, timestamp, appName, uid, versionCode, prevVersion, versionString, prevVersionString⟩

/-- The guardrail of `removeApp` on the number of deleted apps. -/
def deleteOldest (m : UidMap) : UidMap :=
  match m.mDeletedApps with
  | oldest :: rest =>
    if m.mDeletedApps.length > kMaxDeletedAppsInUidMap then
      { m with mDeletedApps := rest, mMap := m.mMap.erase oldest }
    else m
  | [] => m

def removeApp (m : UidMap) (timestamp : Int) (app : String) (uid : Int) : UidMap :=
  let key := (uid, app)
  let (m, prevVersion, prevVersionString) := match m.mMap.lookup key with
    | some data =>
      if !data.deleted then
        ({ m with
            mMap := m.mMap.insert key { data with deleted := true }
            mDeletedApps := m.mDeletedApps ++ [key] }, data.versionCode, data.versionString)
      else (m, 0, "")
    | none => (m, 0, "")
  m.deleteOldest.addChange ⟨true, timestamp, app, uid, 0, prevVersion, "", prevVersionString⟩

def clearOutput (m : UidMap) : UidMap := { m with mChanges := [], mBytesUsed := 0 }

/-- The loop of `getMinimumTimestampNs`, which takes 0 for no time yet. -/
def getMinimumTimestampNs (m : UidMap) : Int :=
  m.mLastUpdatePerConfigKey.entries.foldl (fun least kv => if least = 0 then kv.2 else if kv.2 < least then kv.2 else least) 0

def writeUidMapSnapshot (m : UidMap) : UMap AppKey AppData := m.mMap

/-- `mLastUpdatePerConfigKey[key]`, read once for each record: a missing key gets an entry with 0. -/
def touch (m : UidMap) (key : ConfigKey) : UidMap :=
  if m.mChanges.isEmpty then m
  else { m with mLastUpdatePerConfigKey := m.mLastUpdatePerConfigKey.emplace key 0 }

/-- The erasing loop of `appendUidMap`. -/
def eraseBefore (m : UidMap) (cutoff_nanos : Int) : UidMap :=
  { m with
    mChanges := m.mChanges.filter fun record => decide (¬ record.timestampNs < cutoff_nanos)
    mBytesUsed := m.mBytesUsed -
      kBytesChangeRecord * (m.mChanges.filter fun record => decide (record.timestampNs < cutoff_nanos)).length }

/-- The report for a config, and the map after it. -/
def appendUidMap (m : UidMap) (timestamp : Int) (key : ConfigKey) : UidMapReport × UidMap :=
  let m := m.touch key
  let report : UidMapReport :=
    { changes := m.mChanges.filter fun record => decide (record.timestampNs > UMap.getD m.mLastUpdatePerConfigKey key 0)
      snapshot := m.writeUidMapSnapshot }
  let prevMin := m.getMinimumTimestampNs
  let m := { m with mLastUpdatePerConfigKey := m.mLastUpdatePerConfigKey.insert key timestamp }
  let newMin := m.getMinimumTimestampNs
  (report, if newMin > prevMin then m.eraseBefore newMin else m)

def OnConfigUpdated (m : UidMap) (key : ConfigKey) : UidMap :=
  { m with mLastUpdatePerConfigKey := m.mLastUpdatePerConfigKey.insert key (-1) }

def OnConfigRemoved (m : UidMap) (key : ConfigKey) : UidMap :=
  { m with mLastUpdatePerConfigKey := m.mLastUpdatePerConfigKey.erase key }

end UidMap

end Statsd.Packages
