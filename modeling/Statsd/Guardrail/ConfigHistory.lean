/-
The statistics of the configs (guardrail/StatsdStats.{h,cpp}). A live config has logs of what happened to it and when,
each cut to its last entries; of the configs that were removed, replaced or refused, the icebox keeps the last ones.
The counters of matchers, conditions, metrics and alerts are left out. The wall clock comes with the calls.

The full history has the same operations without the limits; the statistics are its last part.
-/
import Statsd.Base.UMap
import Statsd.Config.ConfigKey

namespace Statsd

/-! ## Bounded logs -/

section

variable {α : Type}

/-- Appends to a log, which loses its first element if it had `limit` of them; no limit keeps all. -/
def addRecent (limit : Option Nat) (l : List α) (x : α) : List α := (if limit = some l.length then l.tail else l) ++ [x]

/-- The last `n` elements. -/
def recent (n : Nat) (l : List α) : List α := l.drop (l.length - n)

theorem addRecent_none (l : List α) (x : α) : addRecent none l x = l ++ [x] := by simp [addRecent]

theorem addRecent_recent {n : Nat} (hn : 0 < n) (l : List α) (x : α) :
    addRecent (some n) (recent n l) x = recent n (l ++ [x]) := by
  unfold addRecent recent
  simp only [Option.some.injEq, List.length_drop, List.length_append, List.length_singleton]
  by_cases hlen : n ≤ l.length
  · rw [if_pos (by omega), List.tail_drop, List.drop_append_of_le_length (by omega)]
    congr 2
    omega
  · rw [if_neg (by omega), Nat.sub_eq_zero_of_le (by omega), Nat.sub_eq_zero_of_le (by omega)]
    simp

end

/-! ## The statistics -/

structure ConfigInfo where
  metric_count : Int
  condition_count : Int
  matcher_count : Int
  alert_count : Int
  is_valid : Bool

inductive ConfigLog where
  | broadcast_sent_time_sec | activation_time_sec | deactivation_time_sec | data_drop | dump_report_stats
deriving DecidableEq

/-- The elements of a log are times, with a number of bytes where the log has one. The times and the bytes of dropped data
are two lists in the sources, which grow together. -/
structure ConfigStats where
  key : ConfigKey
  info : ConfigInfo
  creation_time_sec : Int
  deletion_time_sec : Int := 0
  reset_time_sec : Int := 0
  annotations : List (Int × Int)
  logs : ConfigLog → List (Int × Nat)

structure ConfigHistory where
  mConfigStats : UMap ConfigKey ConfigStats
  mIceBox : List ConfigStats

def kMaxIceBoxSize : Nat := 20
def kMaxTimestampCount : Nat := 20

inductive ConfigNote where
  | noteConfigReceived (key : ConfigKey) (info : ConfigInfo) (annotations : List (Int × Int)) (nowTimeSec removedTimeSec : Int)
  | noteConfigRemoved (key : ConfigKey) (nowTimeSec : Int)
  | noteConfigReset (key : ConfigKey) (nowTimeSec : Int)
  | noteBroadcastSent (key : ConfigKey) (timeSec : Int)
  | noteActiveStatusChanged (key : ConfigKey) (activated : Bool) (timeSec : Int)
  | noteDataDropped (key : ConfigKey) (totalBytes : Nat) (timeSec : Int)
  | noteMetricsReportSent (key : ConfigKey) (num_bytes : Nat) (timeSec : Int)
  | reset

namespace ConfigHistory

def new : ConfigHistory := ⟨∅, []⟩

variable (iceBoxSize timestampCount : Option Nat)

def addToIceBoxLocked (s : ConfigHistory) (stats : ConfigStats) : ConfigHistory :=
  { s with mIceBox := addRecent iceBoxSize s.mIceBox stats }

def noteConfigRemovedInternalLocked (s : ConfigHistory) (key : ConfigKey) (nowTimeSec : Int) : ConfigHistory :=
  match s.mConfigStats.lookup key with
  | some stats =>
    let s := s.addToIceBoxLocked iceBoxSize { stats with deletion_time_sec := nowTimeSec }
    { s with mConfigStats := s.mConfigStats.erase key }
  | none => s

def noteConfigReceived (s : ConfigHistory) (key : ConfigKey) (info : ConfigInfo) (annotations : List (Int × Int))
    (nowTimeSec removedTimeSec : Int) : ConfigHistory :=
  let s := s.noteConfigRemovedInternalLocked iceBoxSize key removedTimeSec
  let configStats : ConfigStats := { key, info, creation_time_sec := nowTimeSec, annotations, logs := fun _ => [] }
  if info.is_valid then { s with mConfigStats := s.mConfigStats.insert key configStats }
  else s.addToIceBoxLocked iceBoxSize { configStats with deletion_time_sec := nowTimeSec }

/-- A change of the statistics of a live config. -/
def update (s : ConfigHistory) (key : ConfigKey) (f : ConfigStats → ConfigStats) : ConfigHistory :=
  match s.mConfigStats.lookup key with
  | some stats => { s with mConfigStats := s.mConfigStats.insert key (f stats) }
  | none => s

/-- The functions that note a time for a config. -/
def note (s : ConfigHistory) (log : ConfigLog) (key : ConfigKey) (bytes : Nat) (timeSec : Int) : ConfigHistory :=
  s.update key fun stats =>
    { stats with logs := Function.update stats.logs log (addRecent timestampCount (stats.logs log) (timeSec, bytes)) }

/-- `resetInternalLocked`. -/
def reset (s : ConfigHistory) : ConfigHistory :=
  { mIceBox := [], mConfigStats := s.mConfigStats.mapVal fun stats => { stats with annotations := [], logs := fun _ => [] } }

def call (s : ConfigHistory) : ConfigNote → ConfigHistory
  | .noteConfigReceived key info annotations nowTimeSec removedTimeSec =>
    s.noteConfigReceived iceBoxSize key info annotations nowTimeSec removedTimeSec
  | .noteConfigRemoved key nowTimeSec => s.noteConfigRemovedInternalLocked iceBoxSize key nowTimeSec
  | .noteConfigReset key nowTimeSec => s.update key ({ · with reset_time_sec := nowTimeSec })
  | .noteBroadcastSent key timeSec => s.note timestampCount .broadcast_sent_time_sec key 0 timeSec
  | .noteActiveStatusChanged key activated timeSec =>
    s.note timestampCount (if activated then .activation_time_sec else .deactivation_time_sec) key 0 timeSec
  | .noteDataDropped key totalBytes timeSec => s.note timestampCount .data_drop key totalBytes timeSec
  | .noteMetricsReportSent key num_bytes timeSec => s.note timestampCount .dump_report_stats key num_bytes timeSec
  | .reset => s.reset

/-! ## The last part of the history -/

/-- The statistics with the last part of each log. -/
def cut (stats : ConfigStats) : ConfigStats := { stats with logs := fun log => recent kMaxTimestampCount (stats.logs log) }

/-- The statistics are the last part of the full history. -/
structure RecentOf (full s : ConfigHistory) : Prop where
  live : ∀ key, s.mConfigStats.lookup key = (full.mConfigStats.lookup key).map cut
  iceBox : s.mIceBox = recent kMaxIceBoxSize (full.mIceBox.map cut)

section

variable {full s : ConfigHistory} (h : RecentOf full s)
include h

theorem RecentOf.addToIceBox (stats : ConfigStats) :
    RecentOf (full.addToIceBoxLocked none stats) (s.addToIceBoxLocked (some kMaxIceBoxSize) (cut stats)) := by
  refine ⟨h.live, ?_⟩
  simp only [addToIceBoxLocked, addRecent_none, List.map_append, List.map_cons, List.map_nil]
  rw [h.iceBox, addRecent_recent (by decide)]

theorem RecentOf.insert (key : ConfigKey) (stats : ConfigStats) :
    RecentOf { full with mConfigStats := full.mConfigStats.insert key stats }
      { s with mConfigStats := s.mConfigStats.insert key (cut stats) } := by
  refine ⟨fun key' => ?_, h.iceBox⟩
  rw [UMap.lookup_insert', UMap.lookup_insert', h.live]
  split_ifs
  · rfl
  · rfl

theorem RecentOf.remove (key : ConfigKey) (nowTimeSec : Int) :
    RecentOf (full.noteConfigRemovedInternalLocked none key nowTimeSec)
      (s.noteConfigRemovedInternalLocked (some kMaxIceBoxSize) key nowTimeSec) := by
  unfold noteConfigRemovedInternalLocked
  rw [h.live]
  cases full.mConfigStats.lookup key with
  | none => exact h
  | some stats =>
    have hbox := h.addToIceBox { stats with deletion_time_sec := nowTimeSec }
    refine ⟨fun key' => ?_, hbox.iceBox⟩
    dsimp only [Option.map_some]
    rw [UMap.lookup_erase', UMap.lookup_erase']
    split_ifs
    · rfl
    · exact hbox.live key'

theorem RecentOf.update (key : ConfigKey) {f g : ConfigStats → ConfigStats} (hcut : ∀ stats, g (cut stats) = cut (f stats)) :
    RecentOf (full.update key f) (s.update key g) := by
  unfold ConfigHistory.update
  rw [h.live]
  cases full.mConfigStats.lookup key with
  | none => exact h
  | some stats =>
    dsimp only [Option.map_some]
    rw [hcut]
    exact h.insert key (f stats)

theorem RecentOf.note (log : ConfigLog) (key : ConfigKey) (bytes : Nat) (timeSec : Int) :
    RecentOf (full.note none log key bytes timeSec) (s.note (some kMaxTimestampCount) log key bytes timeSec) := by
  refine h.update key fun stats => ?_
  unfold cut
  congr 1
  funext log'
  by_cases hlog : log' = log
  · subst hlog
    simp only [Function.update_self, addRecent_none]
    exact addRecent_recent (by decide) _ _
  · simp only [Function.update_of_ne hlog]

theorem RecentOf.call (c : ConfigNote) :
    RecentOf (full.call none none c) (s.call (some kMaxIceBoxSize) (some kMaxTimestampCount) c) := by
  cases c with
  | noteConfigReceived key info annotations nowTimeSec removedTimeSec =>
    have hremove := h.remove key removedTimeSec
    simp only [ConfigHistory.call, noteConfigReceived]
    split
    · exact hremove.insert key _
    · exact hremove.addToIceBox _
  | noteConfigRemoved key nowTimeSec => exact h.remove key nowTimeSec
  | noteConfigReset key nowTimeSec => exact h.update key fun _ => rfl
  | noteBroadcastSent key timeSec => exact h.note _ key 0 timeSec
  | noteActiveStatusChanged key activated timeSec => exact h.note _ key 0 timeSec
  | noteDataDropped key totalBytes timeSec => exact h.note _ key totalBytes timeSec
  | noteMetricsReportSent key num_bytes timeSec => exact h.note _ key num_bytes timeSec
  | reset =>
    refine ⟨fun key => ?_, rfl⟩
    simp only [ConfigHistory.call, ConfigHistory.reset, UMap.lookup_mapVal, h.live, Option.map_map]
    rfl

end

end ConfigHistory

end Statsd
