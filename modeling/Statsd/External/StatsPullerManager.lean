/-
The manager of pulled atoms (external/StatsPullerManager.{h,cpp}): receivers register with the time of
their next pull and an interval, one alarm serves them all, and the alarm pulls once for each atom and
config with a receiver that is due.

The times that come from outside are 64-bit; sums are exact. Which receivers and uid providers still exist
is part of the state, since weak pointers are promoted. The pullers, with their caches, are a parameter.
-/
import Statsd.Base.UMap
import Statsd.StatsLogUtil
import Statsd.Config.ConfigKey

namespace Statsd.External

/-- An atom that was pulled: its two timestamps and the rest. -/
structure PulledAtom (E : Type) where
  mElapsedTimestampNs : Int
  mLogdTimestampNs : Int
  values : E
deriving DecidableEq

structure ReceiverKey where
  atomTag : Int
  configKey : ConfigKey
deriving DecidableEq

structure PullerKey where
  uid : Int
  atomTag : Int
deriving DecidableEq

structure ReceiverInfo (R : Type) where
  nextPullTimeNs : Int
  intervalNs : Int
  receiver : R
  /-- `nextPullTimeNs` as it was registered; nothing reads it. -/
  registeredNs : Int
deriving DecidableEq

/-- What the manager calls: the providers of uids and the pullers, in a state of type `P`. -/
structure Pullers (U P E : Type) where
  getPullAtomUids : U → Int → List Int
  /-- `kAllPullAtomInfo` has a puller for the key. -/
  kAllPullAtomInfo : P → PullerKey → Bool
  Pull : P → PullerKey → Int → (List (PulledAtom E) × Bool) × P

structure StatsPullerManager (R U P : Type) where
  mReceivers : UMap ReceiverKey (List (ReceiverInfo R)) := ∅
  mPullUidProviders : UMap ConfigKey U := ∅
  mNextPullTimeNs : Int
  /-- The service is known, and the last alarm set there, in milliseconds. -/
  mStatsCompanionService : Bool := false
  pullingAlarmMs : Option Int := none
  pullers : P
  /-- Receivers and providers that still exist. -/
  receiverLive : R → Bool := fun _ => true
  providerLive : U → Bool := fun _ => true

/-- A call of `onDataPulled`. -/
structure Delivery (R E : Type) where
  key : ReceiverKey
  receiver : R
  data : List (PulledAtom E)
  pullSuccess : Bool
  originalPullTimeNs : Int
deriving DecidableEq

/-- A pull for an atom and a config, and what came back. -/
structure PullResult (E : Type) where
  key : ReceiverKey
  data : List (PulledAtom E)
  pullSuccess : Bool
deriving DecidableEq

def NO_ALARM_UPDATE : Int := 9223372036854775807

/-- The interval in whole minutes, at least one. -/
def roundedIntervalNs (intervalNs : Int) : Int :=
  let rounded := (intervalNs.tdiv NS_PER_SEC).tdiv 60 * NS_PER_SEC * 60
  if rounded < 60 * NS_PER_SEC then 60 * NS_PER_SEC else rounded

namespace ReceiverInfo

variable {R : Type}

/-- `nextPullTimeNs <= elapsedTimeNs`. -/
def due (elapsedTimeNs : Int) (info : ReceiverInfo R) : Bool := decide (info.nextPullTimeNs ≤ elapsedTimeNs)

/-- The next pull time after a pull; the number of buckets is an `int`. -/
def advance (elapsedTimeNs : Int) (info : ReceiverInfo R) : ReceiverInfo R :=
  let numBucketsAhead := ((elapsedTimeNs - info.nextPullTimeNs).tdiv info.intervalNs).bmod (2 ^ 32)
  { info with nextPullTimeNs := info.nextPullTimeNs + (numBucketsAhead + 1) * info.intervalNs }

end ReceiverInfo

/-- `if (x < min) min = x`. -/
def lower (min x : Int) : Int := if x < min then x else min

/-- The state of the second loop of `OnAlarmFired`, with what was pulled and delivered. -/
structure Round (R P E : Type) where
  pullers : P
  minNextPullTimeNs : Int
  pulls : List (PullResult E)
  deliveries : List (Delivery R E)

namespace StatsPullerManager

variable {R U P E : Type} [DecidableEq R] [DecidableEq U]

/-- The constructor. -/
def new (pullers : P) : StatsPullerManager R U P := { mNextPullTimeNs := NO_ALARM_UPDATE, pullers }

/-- The receivers of an atom and a config. -/
def receivers (m : StatsPullerManager R U P) (key : ReceiverKey) : List (ReceiverInfo R) := UMap.getD m.mReceivers key []

def updateAlarmLocked (m : StatsPullerManager R U P) : StatsPullerManager R U P :=
  if m.mNextPullTimeNs = NO_ALARM_UPDATE then m
  else if m.mStatsCompanionService then { m with pullingAlarmMs := some (m.mNextPullTimeNs.tdiv 1000000) } else m

def SetStatsCompanionService (m : StatsPullerManager R U P) (service : Bool) : StatsPullerManager R U P :=
  let m := { m with mStatsCompanionService := service }
  if service then m.updateAlarmLocked else m

def RegisterReceiver (m : StatsPullerManager R U P) (tagId : Int) (configKey : ConfigKey) (receiver : R)
    (nextPullTimeNs intervalNs : Int) : StatsPullerManager R U P :=
  let key := ⟨tagId, configKey⟩
  let receivers := m.receivers key
  if receivers.any (·.receiver == receiver) then m
  else
    let receiverInfo := ⟨nextPullTimeNs, roundedIntervalNs intervalNs, receiver, nextPullTimeNs⟩
    let m := { m with mReceivers := m.mReceivers.insert key (receivers ++ [receiverInfo]) }
    -- one alarm for all pulled atoms
    if nextPullTimeNs < m.mNextPullTimeNs then { m with mNextPullTimeNs := nextPullTimeNs }.updateAlarmLocked else m

def UnRegisterReceiver (m : StatsPullerManager R U P) (tagId : Int) (configKey : ConfigKey) (receiver : R) :
    StatsPullerManager R U P :=
  match m.mReceivers.lookup ⟨tagId, configKey⟩ with
  | none => m
  | some receivers => { m with mReceivers := m.mReceivers.insert ⟨tagId, configKey⟩ (receivers.eraseP (·.receiver == receiver)) }

def RegisterPullUidProvider (m : StatsPullerManager R U P) (configKey : ConfigKey) (provider : U) : StatsPullerManager R U P :=
  { m with mPullUidProviders := m.mPullUidProviders.insert configKey provider }

def UnregisterPullUidProvider (m : StatsPullerManager R U P) (configKey : ConfigKey) (provider : U) : StatsPullerManager R U P :=
  if m.mPullUidProviders.lookup configKey = some provider then
    { m with mPullUidProviders := m.mPullUidProviders.erase configKey }
  else m

section

variable (env : Pullers U P E)

/-- `PullLocked` with uids: the first uid that has a puller for the atom decides. -/
def pullFromUids (pullers : P) (tagId eventTimeNs : Int) : List Int → (List (PulledAtom E) × Bool) × P
  | [] => (([], false), pullers)
  | uid :: uids =>
    if env.kAllPullAtomInfo pullers ⟨uid, tagId⟩ then env.Pull pullers ⟨uid, tagId⟩ eventTimeNs
    else pullFromUids pullers tagId eventTimeNs uids

/-- `PullLocked` with the key of a config, whose provider says which uids to pull from. -/
def PullLocked (m : StatsPullerManager R U P) (pullers : P) (tagId : Int) (configKey : ConfigKey) (eventTimeNs : Int) :
    (List (PulledAtom E) × Bool) × P :=
  match m.mPullUidProviders.lookup configKey with
  | none => (([], false), pullers)
  | some provider =>
    if m.providerLive provider then pullFromUids env pullers tagId eventTimeNs (env.getPullAtomUids provider tagId)
    else (([], false), pullers)

def Pull (m : StatsPullerManager R U P) (tagId : Int) (configKey : ConfigKey) (eventTimeNs : Int) :
    (List (PulledAtom E) × Bool) × StatsPullerManager R U P :=
  let (result, pullers) := m.PullLocked env m.pullers tagId configKey eventTimeNs
  (result, { m with pullers })

/-- The first loop of `OnAlarmFired`, over the receivers of one key: those that are not due. -/
def minOfOthers (elapsedTimeNs : Int) (min : Int) (receivers : List (ReceiverInfo R)) : Int :=
  receivers.foldl (fun min info => if info.due elapsedTimeNs then min else lower min info.nextPullTimeNs) min

/-- The second loop, at a receiver that is due. -/
def serve (live : R → Bool) (elapsedTimeNs : Int) (pull : PullResult E) (r : Round R P E) (info : ReceiverInfo R) : Round R P E :=
  if live info.receiver then
    { r with
      deliveries := r.deliveries ++ [⟨pull.key, info.receiver, pull.data, pull.pullSuccess, elapsedTimeNs⟩]
      minNextPullTimeNs := lower r.minNextPullTimeNs (info.advance elapsedTimeNs).nextPullTimeNs }
  else r

/-- The second loop, at an atom and a config with receivers that are due. -/
def pullFor (m : StatsPullerManager R U P) (elapsedTimeNs wallClockNs : Int) (r : Round R P E)
    (it : Sigma fun _ : ReceiverKey => List (ReceiverInfo R)) : Round R P E :=
  let ((data, pullSuccess), pullers) := m.PullLocked env r.pullers it.1.atomTag it.1.configKey elapsedTimeNs
  let data := data.map fun event => { event with mElapsedTimestampNs := elapsedTimeNs, mLogdTimestampNs := wallClockNs }
  let pull : PullResult E := ⟨it.1, data, pullSuccess⟩
  (it.2.filter (·.due elapsedTimeNs)).foldl (serve m.receiverLive elapsedTimeNs pull)
    { r with pullers := pullers, pulls := r.pulls ++ [pull] }

/-- What a served receiver becomes; the others stay. -/
def served (live : R → Bool) (elapsedTimeNs : Int) (info : ReceiverInfo R) : ReceiverInfo R :=
  if info.due elapsedTimeNs && live info.receiver then info.advance elapsedTimeNs else info

/-- Both loops of `OnAlarmFired`. -/
def alarmRound (m : StatsPullerManager R U P) (elapsedTimeNs wallClockNs : Int) : Round R P E :=
  let minNextPullTimeNs := m.mReceivers.entries.foldl (fun min it => minOfOthers elapsedTimeNs min it.2) NO_ALARM_UPDATE
  let needToPull := m.mReceivers.entries.filter fun it => it.2.any (·.due elapsedTimeNs)
  needToPull.foldl (m.pullFor env elapsedTimeNs wallClockNs) ⟨m.pullers, minNextPullTimeNs, [], []⟩

/-- The receivers in `needToPull` are pointers into `mReceivers`: those served advance in place. -/
def OnAlarmFired (m : StatsPullerManager R U P) (elapsedTimeNs wallClockNs : Int) : StatsPullerManager R U P :=
  let round := m.alarmRound env elapsedTimeNs wallClockNs
  { m with
    pullers := round.pullers
    mReceivers := m.mReceivers.mapVal (List.map (served m.receiverLive elapsedTimeNs))
    mNextPullTimeNs := round.minNextPullTimeNs }.updateAlarmLocked

end

/-- A call of the manager, or the end of a receiver or a provider. -/
inductive Step (R U : Type) where
  | RegisterReceiver (tagId : Int) (configKey : ConfigKey) (receiver : R) (nextPullTimeNs intervalNs : Int64)
  | UnRegisterReceiver (tagId : Int) (configKey : ConfigKey) (receiver : R)
  | OnAlarmFired (elapsedTimeNs wallClockNs : Int64)
  | Pull (tagId : Int) (configKey : ConfigKey) (eventTimeNs : Int64)
  | RegisterPullUidProvider (configKey : ConfigKey) (provider : U)
  | UnregisterPullUidProvider (configKey : ConfigKey) (provider : U)
  | SetStatsCompanionService (service : Bool)
  | receiverGone (receiver : R)
  | providerGone (provider : U)

def step (env : Pullers U P E) (m : StatsPullerManager R U P) : Step R U → StatsPullerManager R U P
  | .RegisterReceiver tagId configKey receiver next interval => m.RegisterReceiver tagId configKey receiver next.toInt interval.toInt
  | .UnRegisterReceiver tagId configKey receiver => m.UnRegisterReceiver tagId configKey receiver
  | .OnAlarmFired elapsedTimeNs wallClockNs => m.OnAlarmFired env elapsedTimeNs.toInt wallClockNs.toInt
  | .Pull tagId configKey eventTimeNs => (m.Pull env tagId configKey eventTimeNs.toInt).2
  | .RegisterPullUidProvider configKey provider => m.RegisterPullUidProvider configKey provider
  | .UnregisterPullUidProvider configKey provider => m.UnregisterPullUidProvider configKey provider
  | .SetStatsCompanionService service => m.SetStatsCompanionService service
  | .receiverGone receiver => { m with receiverLive := Function.update m.receiverLive receiver false }
  | .providerGone provider => { m with providerLive := Function.update m.providerLive provider false }

end StatsPullerManager

end Statsd.External
