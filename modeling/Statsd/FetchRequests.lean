/-
The requests to fetch reports (`flushIfNecessaryLocked` of StatsLogProcessor.cpp). After an event the size of the
data of every config is looked at, unless that was done lately. Data above the limit is dropped; for data above a
lower mark, or reports on disk, a broadcast asks to fetch them, unless one was sent lately. The sizes, the clock and
whether a broadcast finds a receiver come with the calls.
-/
import Statsd.Base.UMap
import Statsd.Config.ConfigKey
import Statsd.StatsLogUtil

namespace Statsd

/-! ## Logs of times -/

/-- Each time is at least `gap` after all earlier ones. -/
def Spaced (gap : Int) (times : List Int) : Prop := times.Pairwise fun t t' => t + gap ≤ t'

/-- Whether the last time is less than a period ago. -/
def tooSoon (period : Int) (last : Option Int) (now : Int) : Bool :=
  match last with
  | some last => decide (now - last < period)
  | none => false

theorem Spaced.concat {gap now : Int} {times : List Int} (hgap : 0 ≤ gap) (h : Spaced gap times)
    (hlast : tooSoon gap times.getLast? now = false) : Spaced gap (times ++ [now]) := by
  refine List.pairwise_append.2 ⟨h, List.pairwise_singleton _ _, fun t ht t' ht' => ?_⟩
  rw [List.mem_singleton] at ht'
  subst ht'
  rcases List.eq_nil_or_concat times with rfl | ⟨init, last, rfl⟩
  · cases ht
  · rw [List.concat_eq_append] at h hlast ht
    simp only [tooSoon, List.getLast?_concat, decide_eq_false_iff_not] at hlast
    rcases List.mem_append.1 ht with hin | hin
    · have hbefore := (List.pairwise_append.1 h).2.2 t hin last (List.mem_singleton_self _)
      omega
    · rw [List.mem_singleton] at hin
      omega

/-- The map has the last time of each key's log, whose times are spaced. -/
def LastOf {K : Type} [DecidableEq K] (gap : Int) (m : UMap K Int) (log : K → List Int) : Prop :=
  ∀ key, Spaced gap (log key) ∧ m.lookup key = (log key).getLast?

section

variable {K : Type} [DecidableEq K] {gap : Int} {m : UMap K Int} {log : K → List Int}

theorem LastOf.insert (hgap : 0 ≤ gap) (h : LastOf gap m log) {key : K} {now : Int} (hsoon : tooSoon gap (m.lookup key) now = false) :
    LastOf gap (m.insert key now) (Function.update log key (log key ++ [now])) := by
  intro key'
  rw [UMap.lookup_insert']
  by_cases hkey : key' = key
  · subst hkey
    rw [(h key').2] at hsoon
    simpa using (h key').1.concat hgap hsoon
  · rw [Function.update_of_ne hkey, if_neg hkey]
    exact h key'

theorem LastOf.erase (h : LastOf gap m log) (key : K) : LastOf gap (m.erase key) (Function.update log key []) := by
  intro key'
  rw [UMap.lookup_erase']
  by_cases hkey : key' = key
  · subst hkey
    simp [Spaced]
  · rw [Function.update_of_ne hkey, if_neg hkey]
    exact h key'

end

/-! ## The processor -/

/-- The limits of StatsdStats. -/
def kMaxMetricsBytesPerConfig : Nat := 2 * 1024 * 1024
def kBytesPerConfigTriggerGetData : Nat := 192 * 1024
def kMinBroadcastPeriodNs : Int := 60 * NS_PER_SEC
def kMinByteSizeCheckPeriodNs : Int := 60 * NS_PER_SEC

/-- The processor's tables, with the history of the run: when the data of each config was looked at, when it was dropped,
and the broadcasts since the config's report was last dumped or the config removed. -/
structure FetchRequests where
  mLastByteSizeTimes : UMap ConfigKey Int
  mLastBroadcastTimes : UMap ConfigKey Int
  mOnDiskDataConfigs : Finset ConfigKey
  looks : ConfigKey → List Int
  drops : ConfigKey → List Int
  broadcasts : ConfigKey → List Int

namespace FetchRequests

def new : FetchRequests := ⟨∅, ∅, ∅, fun _ => [], fun _ => [], fun _ => []⟩

/-- The look at the size of the data. -/
def look (s : FetchRequests) (key : ConfigKey) (elapsedRealtimeNs : Int) : FetchRequests :=
  { s with
    mLastByteSizeTimes := s.mLastByteSizeTimes.insert key elapsedRealtimeNs
    looks := Function.update s.looks key (s.looks key ++ [elapsedRealtimeNs]) }

def dropData (s : FetchRequests) (key : ConfigKey) (elapsedRealtimeNs : Int) : FetchRequests :=
  { s with drops := Function.update s.drops key (s.drops key ++ [elapsedRealtimeNs]) }

/-- The request for a dump; `mSendBroadcast` is whether the broadcast finds a receiver. -/
def requestDump (s : FetchRequests) (key : ConfigKey) (elapsedRealtimeNs : Int) (mSendBroadcast : Bool) : FetchRequests :=
  if tooSoon kMinBroadcastPeriodNs (s.mLastBroadcastTimes.lookup key) elapsedRealtimeNs then s
  else if mSendBroadcast then
    { s with
      mOnDiskDataConfigs := s.mOnDiskDataConfigs.erase key
      mLastBroadcastTimes := s.mLastBroadcastTimes.insert key elapsedRealtimeNs
      broadcasts := Function.update s.broadcasts key (s.broadcasts key ++ [elapsedRealtimeNs]) }
  else s

def flushIfNecessaryLocked (s : FetchRequests) (key : ConfigKey) (elapsedRealtimeNs : Int) (totalBytes : Nat)
    (mSendBroadcast : Bool) : FetchRequests :=
  if tooSoon kMinByteSizeCheckPeriodNs (s.mLastByteSizeTimes.lookup key) elapsedRealtimeNs then s
  else
    let s := s.look key elapsedRealtimeNs
    if totalBytes > kMaxMetricsBytesPerConfig then s.dropData key elapsedRealtimeNs
    else if totalBytes > kBytesPerConfigTriggerGetData ∨ key ∈ s.mOnDiskDataConfigs then
      s.requestDump key elapsedRealtimeNs mSendBroadcast
    else s

/-- The next broadcast may follow at once. -/
def forgetBroadcast (s : FetchRequests) (key : ConfigKey) : FetchRequests :=
  { s with
    mLastBroadcastTimes := s.mLastBroadcastTimes.erase key
    broadcasts := Function.update s.broadcasts key [] }

inductive Call where
  | flushIfNecessary (key : ConfigKey) (elapsedRealtimeNs : Int) (totalBytes : Nat) (mSendBroadcast : Bool)
  /-- `onDumpReport`, with whether the config has a metrics manager. -/
  | dumpReport (key : ConfigKey) (found : Bool)
  | configRemoved (key : ConfigKey)
  /-- A report of the config was written to disk or found there. -/
  | onDiskData (key : ConfigKey)

def call (s : FetchRequests) : Call → FetchRequests
  | .flushIfNecessary key elapsedRealtimeNs totalBytes mSendBroadcast =>
    s.flushIfNecessaryLocked key elapsedRealtimeNs totalBytes mSendBroadcast
  | .dumpReport key found => if found then s.forgetBroadcast key else s
  | .configRemoved key => s.forgetBroadcast key
  | .onDiskData key => { s with mOnDiskDataConfigs := insert key s.mOnDiskDataConfigs }

/-- The tables have the last times of the history, which are spaced, and data is dropped and fetched at looks only. -/
structure Limited (s : FetchRequests) : Prop where
  looks : LastOf kMinByteSizeCheckPeriodNs s.mLastByteSizeTimes s.looks
  broadcasts : LastOf kMinBroadcastPeriodNs s.mLastBroadcastTimes s.broadcasts
  seen : ∀ key t, t ∈ s.drops key ∨ t ∈ s.broadcasts key → t ∈ s.looks key

theorem mem_concat {log : ConfigKey → List Int} {key key' : ConfigKey} {t now : Int} :
    t ∈ Function.update log key (log key ++ [now]) key' ↔ t ∈ log key' ∨ (key' = key ∧ t = now) := by
  by_cases hkey : key' = key
  · subst hkey
    simp
  · simp [hkey]

section

variable {s : FetchRequests} (h : Limited s) {key : ConfigKey} {now : Int}
include h

theorem Limited.look (hsoon : tooSoon kMinByteSizeCheckPeriodNs (s.mLastByteSizeTimes.lookup key) now = false) :
    Limited (s.look key now) :=
  ⟨h.looks.insert (by decide) hsoon, h.broadcasts, fun key' t ht => mem_concat.2 (.inl (h.seen key' t ht))⟩

theorem Limited.dropData (hnow : now ∈ s.looks key) : Limited (s.dropData key now) := by
  refine ⟨h.looks, h.broadcasts, fun key' t ht => ?_⟩
  rcases ht with hdrop | hsent
  · rcases mem_concat.1 hdrop with hdrop | ⟨rfl, rfl⟩
    · exact h.seen key' t (.inl hdrop)
    · exact hnow
  · exact h.seen key' t (.inr hsent)

theorem Limited.requestDump (hnow : now ∈ s.looks key) (mSendBroadcast : Bool) :
    Limited (s.requestDump key now mSendBroadcast) := by
  unfold FetchRequests.requestDump
  split_ifs with hsoon hsend
  · exact h
  · refine ⟨h.looks, h.broadcasts.insert (by decide) (Bool.eq_false_of_not_eq_true hsoon), fun key' t ht => ?_⟩
    rcases ht with hdrop | hsent
    · exact h.seen key' t (.inl hdrop)
    · rcases mem_concat.1 hsent with hsent | ⟨rfl, rfl⟩
      · exact h.seen key' t (.inr hsent)
      · exact hnow
  · exact h

theorem Limited.flush (totalBytes : Nat) (mSendBroadcast : Bool) :
    Limited (s.flushIfNecessaryLocked key now totalBytes mSendBroadcast) := by
  unfold flushIfNecessaryLocked
  by_cases hsoon : tooSoon kMinByteSizeCheckPeriodNs (s.mLastByteSizeTimes.lookup key) now = true
  · rw [if_pos hsoon]
    exact h
  · have hlook := h.look (Bool.eq_false_of_not_eq_true hsoon)
    have hnow : now ∈ (s.look key now).looks key := mem_concat.2 (.inr ⟨rfl, rfl⟩)
    rw [if_neg hsoon]
    dsimp only
    split_ifs
    · exact hlook.dropData hnow
    · exact hlook.requestDump hnow mSendBroadcast
    · exact hlook

theorem Limited.forgetBroadcast : Limited (s.forgetBroadcast key) := by
  refine ⟨h.looks, h.broadcasts.erase key, fun key' t ht => ?_⟩
  rcases ht with hdrop | hsent
  · exact h.seen key' t (.inl hdrop)
  · by_cases hkey : key' = key
    · subst hkey
      simp [FetchRequests.forgetBroadcast] at hsent
    · simp only [FetchRequests.forgetBroadcast, Function.update_of_ne hkey] at hsent
      exact h.seen key' t (.inr hsent)

theorem Limited.call (c : Call) : Limited (s.call c) := by
  cases c with
  | flushIfNecessary key elapsedRealtimeNs totalBytes mSendBroadcast => exact h.flush totalBytes mSendBroadcast
  | dumpReport key found =>
    cases found with
    | true => exact h.forgetBroadcast
    | false => exact h
  | configRemoved key => exact h.forgetBroadcast
  | onDiskData key => exact ⟨h.looks, h.broadcasts, h.seen⟩

end

/-- In every run, whatever the clock shows, the data of a config is looked at once a minute at most, broadcasts about a config
are a minute apart unless its report was dumped or the config removed in between, and data is dropped at a look only. -/
theorem fetch_requests_limited (calls : List Call) : Limited (calls.foldl call new) := by
  have hrun : ∀ s : FetchRequests, Limited s → Limited (calls.foldl call s) := by
    induction calls with
    | nil => exact fun s h => h
    | cons c calls ih => exact fun s h => ih _ (h.call c)
  apply hrun
  constructor
  · exact fun key => ⟨List.Pairwise.nil, rfl⟩
  · exact fun key => ⟨List.Pairwise.nil, rfl⟩
  · rintro key t (hdrop | hsent)
    · cases hdrop
    · cases hsent

end FetchRequests

end Statsd
