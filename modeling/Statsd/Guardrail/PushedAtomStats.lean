/-
The counts of pushed atoms (noteAtomLogged and noteAtomError of guardrail/StatsdStats.cpp, called by
StatsLogProcessor::OnLogEvent for every event of the socket): a vector for the ids up to kMaxPushedAtomId and a bounded
map for the larger ones. The id is a signed number of the sender's choice.

The vector is indexed by the id without a look at its sign, and a full map stops counting also the ids that it has. The
counts are right exactly in the runs that meet neither, as long as no counter is at the end of its range.
-/
import Statsd.Base.Run
import Statsd.Base.UMap
import Statsd.Logd.LogEvent

namespace Statsd.Guardrail

open Logd

def kMaxPushedAtomId : Nat := 500
def kMaxNonPlatformPushedAtoms : Nat := 100
def kMaxPushedAtomErrorStatsSize : Nat := 100

/-- `count++` of an `int`. -/
def increment (count : Int) : Int := (count + 1).bmod (2 ^ 32)

structure StatsdStats where
  mPushedAtomStats : Vector Int (kMaxPushedAtomId + 1) := .replicate _ 0
  mNonPlatformPushedAtomStats : UMap Int Int := ∅
  mPushedAtomErrorStats : UMap Int Int := ∅

namespace StatsdStats

/-- Fails where the index of `mPushedAtomStats` is outside the vector. -/
def noteAtomLogged (s : StatsdStats) (atomId : Int) : Option StatsdStats :=
  if h : atomId ≤ kMaxPushedAtomId then
    if 0 ≤ atomId then
      have hindex : atomId.toNat < kMaxPushedAtomId + 1 := by omega
      some { s with mPushedAtomStats := s.mPushedAtomStats.set atomId.toNat (increment s.mPushedAtomStats[atomId.toNat]) }
    else none
  else if s.mNonPlatformPushedAtomStats.entries.length < kMaxNonPlatformPushedAtoms then
    some { s with
      mNonPlatformPushedAtomStats := s.mNonPlatformPushedAtomStats.insert atomId
        (increment (UMap.getD s.mNonPlatformPushedAtomStats atomId 0)) }
  else some s

/-- `noteAtomError` of a pushed atom. -/
def noteAtomError (s : StatsdStats) (atomTag : Int) : StatsdStats :=
  let present := decide (atomTag ∈ s.mPushedAtomErrorStats)
  let full := decide (s.mPushedAtomErrorStats.entries.length ≥ kMaxPushedAtomErrorStatsSize)
  if !full || present then
    { s with
      mPushedAtomErrorStats := s.mPushedAtomErrorStats.insert atomTag (increment (UMap.getD s.mPushedAtomErrorStats atomTag 0)) }
  else s

/-- What `StatsLogProcessor::OnLogEvent` notes of an event before it looks further. -/
def onLogEvent (s : StatsdStats) (event : LogEvent) : Option StatsdStats :=
  (s.noteAtomLogged event.mTagId).map fun s => if event.mValid then s else s.noteAtomError event.mTagId

/-- The next event, unless an index was outside the vector. -/
def next (s : Option StatsdStats) (event : LogEvent) : Option StatsdStats := s.bind (·.onLogEvent event)

def run (events : List LogEvent) : Option StatsdStats := events.foldl next (some {})

end StatsdStats

/-! ## The claims of the counts -/

def countOf (id : Int) (events : List LogEvent) : Nat := events.countP fun event => decide (event.mTagId = id)

/-- The map has a count for the id after the events. -/
def Tracked (id : Int) (events : List LogEvent) : Prop :=
  ∃ s, StatsdStats.run events = some s ∧ id ∈ s.mNonPlatformPushedAtomStats

/-- The event at `m` is the one that the map first has a count for the id after. -/
structure TrackedFrom (id : Int) (events : List LogEvent) (m : Nat) : Prop where
  lt : m < events.length
  before : ¬ Tracked id (events.take m)
  after : Tracked id (events.take (m + 1))

/-- Ids of the vector are counted, and ids of the map from the event on that they are first tracked at. -/
structure Exact (events : List LogEvent) (s : StatsdStats) : Prop where
  pushed : ∀ (id : Nat) (h : id < kMaxPushedAtomId + 1), s.mPushedAtomStats[id] = countOf id events
  nonPlatform : ∀ id count, s.mNonPlatformPushedAtomStats.lookup id = some count →
    ∃ m, TrackedFrom id events m ∧ count = countOf id (events.drop m)

namespace StatsdStats

/-- The count that the stats have for an id. -/
def count (s : StatsdStats) (id : Int) : Int :=
  if id ≤ kMaxPushedAtomId then (s.mPushedAtomStats[id.toNat]?).getD 0 else UMap.getD s.mNonPlatformPushedAtomStats id 0

/-- The event can be counted: its id is not negative, a tracked id does not meet a full map, and its count can grow. -/
structure Countable (s : StatsdStats) (event : LogEvent) : Prop where
  nonneg : 0 ≤ event.mTagId
  room : event.mTagId ∈ s.mNonPlatformPushedAtomStats → s.mNonPlatformPushedAtomStats.entries.length < kMaxNonPlatformPushedAtoms
  below : s.count event.mTagId < 2 ^ 31 - 1

/-! ## One event -/

theorem noteAtomError_counts (s : StatsdStats) (id : Int) :
    (s.noteAtomError id).mPushedAtomStats = s.mPushedAtomStats ∧
      (s.noteAtomError id).mNonPlatformPushedAtomStats = s.mNonPlatformPushedAtomStats := by
  unfold noteAtomError
  dsimp only
  split <;> simp

variable {event : LogEvent}

theorem onLogEvent_cases {s s' : StatsdStats} (h : s.onLogEvent event = some s') :
    (∃ hindex : event.mTagId.toNat < kMaxPushedAtomId + 1, 0 ≤ event.mTagId ∧
        s'.mPushedAtomStats = s.mPushedAtomStats.set event.mTagId.toNat (increment s.mPushedAtomStats[event.mTagId.toNat]) ∧
        s'.mNonPlatformPushedAtomStats = s.mNonPlatformPushedAtomStats) ∨
      (kMaxPushedAtomId < event.mTagId ∧ s'.mPushedAtomStats = s.mPushedAtomStats ∧
        ((s.mNonPlatformPushedAtomStats.entries.length < kMaxNonPlatformPushedAtoms ∧
            s'.mNonPlatformPushedAtomStats = s.mNonPlatformPushedAtomStats.insert event.mTagId
              (increment (UMap.getD s.mNonPlatformPushedAtomStats event.mTagId 0))) ∨
          (kMaxNonPlatformPushedAtoms ≤ s.mNonPlatformPushedAtomStats.entries.length ∧
            s'.mNonPlatformPushedAtomStats = s.mNonPlatformPushedAtomStats))) := by
  rw [onLogEvent, Option.map_eq_some_iff] at h
  obtain ⟨r, hlogged, rfl⟩ := h
  have hpushed : (if event.mValid then r else r.noteAtomError event.mTagId).mPushedAtomStats = r.mPushedAtomStats := by
    split
    · rfl
    · exact (noteAtomError_counts r event.mTagId).1
  have hmap : (if event.mValid then r else r.noteAtomError event.mTagId).mNonPlatformPushedAtomStats =
      r.mNonPlatformPushedAtomStats := by
    split
    · rfl
    · exact (noteAtomError_counts r event.mTagId).2
  rw [hpushed, hmap]
  unfold noteAtomLogged at hlogged
  split at hlogged
  · split at hlogged
    · cases hlogged
      exact .inl ⟨by omega, by assumption, rfl, rfl⟩
    · cases hlogged
  · right
    refine ⟨by omega, ?_⟩
    split at hlogged
    · cases hlogged
      exact ⟨rfl, .inl ⟨by assumption, rfl⟩⟩
    · cases hlogged
      exact ⟨rfl, .inr ⟨by omega, rfl⟩⟩

theorem onLogEvent_eq_none {s : StatsdStats} (h : event.mTagId < 0) : s.onLogEvent event = none := by
  have hid : event.mTagId ≤ kMaxPushedAtomId := by omega
  simp [onLogEvent, noteAtomLogged, hid, not_le.2 h]

theorem exists_onLogEvent {s : StatsdStats} (h : 0 ≤ event.mTagId) : ∃ s', s.onLogEvent event = some s' := by
  have hlogged : ∃ r, s.noteAtomLogged event.mTagId = some r := by
    unfold noteAtomLogged
    split
    · exact ⟨_, rfl⟩
    · split <;> exact ⟨_, rfl⟩
  obtain ⟨r, hr⟩ := hlogged
  simp [onLogEvent, hr]

theorem run_append (events : List LogEvent) (event : LogEvent) : run (events ++ [event]) = next (run events) event := by
  simp [run]

theorem next_eq_some {s : Option StatsdStats} {s' : StatsdStats} (h : next s event = some s') :
    ∃ r, s = some r ∧ r.onLogEvent event = some s' :=
  Option.bind_eq_some_iff.1 h

/-- Between an event and its id's first count the map was full: an id that is not in the map had no event, or the map has
no room for it. -/
structure Fills (events : List LogEvent) (s : StatsdStats) : Prop where
  large : ∀ id ∈ s.mNonPlatformPushedAtomStats, (kMaxPushedAtomId : Int) < id
  full : ∀ id, (kMaxPushedAtomId : Int) < id → id ∉ s.mNonPlatformPushedAtomStats → countOf id events ≠ 0 →
    kMaxNonPlatformPushedAtoms ≤ s.mNonPlatformPushedAtomStats.entries.length

end StatsdStats

/-! ## Counting -/

theorem countOf_append (id : Int) (events events' : List LogEvent) :
    countOf id (events ++ events') = countOf id events + countOf id events' := List.countP_append

theorem countOf_singleton (id : Int) (event : LogEvent) : countOf id [event] = if event.mTagId = id then 1 else 0 := by
  simp [countOf, List.countP_singleton]

namespace StatsdStats

theorem Fills.next {events : List LogEvent} {s s' : StatsdStats} {event : LogEvent} (h : Fills events s)
    (hnext : s.onLogEvent event = some s') : Fills (events ++ [event]) s' := by
  rcases onLogEvent_cases hnext with ⟨hindex, hnonneg, -, hmap⟩ | ⟨hlarge, -, ⟨hroom, hmap⟩ | ⟨hfull, hmap⟩⟩
  · constructor
    · rw [hmap]
      exact h.large
    · intro id hid hnot hcount
      rw [hmap] at hnot ⊢
      apply h.full id hid hnot
      rw [countOf_append, countOf_singleton, if_neg (by unfold kMaxPushedAtomId at *; omega)] at hcount
      exact hcount
  · constructor
    · intro id hmem
      rw [hmap, AList.mem_insert] at hmem
      rcases hmem with rfl | hmem
      · exact hlarge
      · exact h.large id hmem
    · intro id hid hnot hcount
      rw [hmap, AList.mem_insert, not_or] at hnot
      rw [countOf_append, countOf_singleton, if_neg (Ne.symm hnot.1)] at hcount
      have hfull := h.full id hid hnot.2 hcount
      omega
  · constructor
    · rw [hmap]
      exact h.large
    · intro id _ _ _
      rw [hmap]
      exact hfull

theorem fills_run {events : List LogEvent} {s : StatsdStats} (h : run events = some s) : Fills events s := by
  induction events using List.reverseRecOn generalizing s with
  | nil =>
    cases h
    constructor
    · intro id hmem
      cases hmem
    · intro id _ _ hcount
      exact absurd rfl hcount
  | append_singleton events event ih =>
    rw [run_append] at h
    obtain ⟨r, hr, hnext⟩ := next_eq_some h
    exact (ih hr).next hnext

end StatsdStats

/-! ## First tracked -/

open StatsdStats

variable {events : List LogEvent}

theorem TrackedFrom.countOf_drop {id : Int} {m : Nat} (h : TrackedFrom id events m) :
    countOf id (events.drop m) = countOf id events := by
  obtain ⟨hlt, hbefore, s, hs, hmem⟩ := h
  have hlarge := (fills_run hs).large id hmem
  rw [List.take_succ_eq_append_getElem hlt, run_append] at hs
  obtain ⟨r, hr, hnext⟩ := next_eq_some hs
  have hnot : id ∉ r.mNonPlatformPushedAtomStats := fun hin => hbefore ⟨r, hr, hin⟩
  have hnone : countOf id (events.take m) = 0 := by
    by_contra hcount
    have hfull := (fills_run hr).full id hlarge hnot hcount
    rcases onLogEvent_cases hnext with ⟨-, -, -, hmap⟩ | ⟨-, -, ⟨hroom, -⟩ | ⟨-, hmap⟩⟩
    · exact hnot (hmap ▸ hmem)
    · omega
    · exact hnot (hmap ▸ hmem)
  have hsplit := countOf_append id (events.take m) (events.drop m)
  rw [List.take_append_drop, hnone, Nat.zero_add] at hsplit
  exact hsplit.symm

theorem TrackedFrom.append {id : Int} {m : Nat} (h : TrackedFrom id events m) (event : LogEvent) :
    TrackedFrom id (events ++ [event]) m := by
  have hlt := h.lt
  constructor
  · rw [List.length_append]
    omega
  · rw [List.take_append_of_le_length (by omega)]
    exact h.before
  · rw [List.take_append_of_le_length (by omega)]
    exact h.after

theorem exists_trackedFrom {id : Int} {s : StatsdStats} (h : run events = some s)
    (hmem : id ∈ s.mNonPlatformPushedAtomStats) : ∃ m, TrackedFrom id events m := by
  induction events using List.reverseRecOn generalizing s with
  | nil =>
    cases h
    cases hmem
  | append_singleton events event ih =>
    have happ := h
    rw [run_append] at h
    obtain ⟨r, hr, -⟩ := next_eq_some h
    by_cases hin : id ∈ r.mNonPlatformPushedAtomStats
    · obtain ⟨m, hm⟩ := ih hr hin
      exact ⟨m, hm.append event⟩
    · refine ⟨events.length, ?_, ?_, ?_⟩
      · simp
      · rw [List.take_left]
        rintro ⟨r', hr', hin'⟩
        rw [hr] at hr'
        cases hr'
        exact hin hin'
      · rw [← List.length_singleton (a := event), ← List.length_append, List.take_length]
        exact ⟨s, happ, hmem⟩

/-! ## Exact runs -/

namespace StatsdStats

theorem count_onLogEvent {s s' : StatsdStats} {event : LogEvent} (h : s.onLogEvent event = some s') :
    (∀ id, 0 ≤ id → id ≠ event.mTagId → s'.count id = s.count id) ∧
      (event.mTagId ≤ kMaxPushedAtomId ∨ s.mNonPlatformPushedAtomStats.entries.length < kMaxNonPlatformPushedAtoms →
        s'.count event.mTagId = increment (s.count event.mTagId) ∧
          (event.mTagId ≤ kMaxPushedAtomId ∨ event.mTagId ∈ s'.mNonPlatformPushedAtomStats)) ∧
      (kMaxPushedAtomId < event.mTagId → kMaxNonPlatformPushedAtoms ≤ s.mNonPlatformPushedAtomStats.entries.length →
        s'.mNonPlatformPushedAtomStats = s.mNonPlatformPushedAtomStats) ∧
      ∀ id ∈ s'.mNonPlatformPushedAtomStats, id ∈ s.mNonPlatformPushedAtomStats ∨ id = event.mTagId := by
  rcases onLogEvent_cases h with ⟨hindex, hnonneg, hpushed, hmap⟩ | ⟨hlarge, hpushed, ⟨hroom, hmap⟩ | ⟨hfull, hmap⟩⟩
  · refine ⟨?_, ?_, fun _ _ => hmap, fun id hid => .inl (hmap ▸ hid)⟩
    · intro id hid hne
      have hne' : event.mTagId.toNat ≠ id.toNat := by omega
      simp [count, hpushed, hmap, hne']
    · intro _
      have hle : event.mTagId ≤ kMaxPushedAtomId := by omega
      exact ⟨by simp [count, hpushed, hle, hindex], .inl hle⟩
  · refine ⟨?_, ?_, fun _ hfull => by omega, ?_⟩
    · intro id _ hne
      simp [count, hpushed, hmap, UMap.getD_insert, hne]
    · intro _
      exact ⟨by simp [count, hmap, UMap.getD_insert, not_le.2 hlarge], .inr (by rw [hmap, AList.mem_insert]; exact .inl rfl)⟩
    · intro id hid
      rw [hmap, AList.mem_insert] at hid
      exact hid.symm
  · refine ⟨?_, fun hor => by omega, fun _ _ => hmap, fun id hid => .inl (hmap ▸ hid)⟩
    intro id _ _
    simp [count, hpushed, hmap]

end StatsdStats

/-- The ids that the stats count: those of the vector, and those in the map. -/
def Counted (s : StatsdStats) (id : Int) : Prop := 0 ≤ id ∧ (id ≤ kMaxPushedAtomId ∨ id ∈ s.mNonPlatformPushedAtomStats)

/-- Every count is the number of the events with its id. -/
def Tallies (events : List LogEvent) (s : StatsdStats) : Prop := ∀ id, Counted s id → s.count id = countOf id events

theorem exact_iff_tallies {s : StatsdStats} (h : run events = some s) :
    Exact events s ↔ Tallies events s := by
  have hlarge := (fills_run h).large
  constructor
  · rintro ⟨hpushed, hmap⟩ id ⟨hnonneg, hid⟩
    by_cases hle : id ≤ kMaxPushedAtomId
    · obtain ⟨k, rfl⟩ := Int.eq_ofNat_of_zero_le hnonneg
      have hk : k < kMaxPushedAtomId + 1 := by omega
      simp [StatsdStats.count, hle, hk, hpushed k hk]
    · obtain ⟨count, hlookup⟩ := Option.isSome_iff_exists.1 (AList.lookup_isSome.2 (hid.resolve_left hle))
      obtain ⟨m, hm, hcount⟩ := hmap id count hlookup
      rw [StatsdStats.count, if_neg hle, UMap.getD_of_lookup_some hlookup, hcount, hm.countOf_drop]
  · intro htallies
    constructor
    · intro id hid
      have hle : (id : Int) ≤ kMaxPushedAtomId := by omega
      have hcount := htallies id ⟨by omega, .inl hle⟩
      simpa [StatsdStats.count, hle, hid] using hcount
    · intro id count hlookup
      have hmem : id ∈ s.mNonPlatformPushedAtomStats := AList.lookup_isSome.1 (by rw [hlookup]; rfl)
      obtain ⟨m, hm⟩ := exists_trackedFrom h hmem
      have hgt := hlarge id hmem
      have hcount := htallies id ⟨by omega, .inr hmem⟩
      rw [StatsdStats.count, if_neg (not_le.2 hgt), UMap.getD_of_lookup_some hlookup] at hcount
      exact ⟨m, hm, by rw [hcount, hm.countOf_drop]⟩

theorem increment_eq {count : Int} (h0 : 0 ≤ count) (h : count < 2 ^ 31 - 1) : increment count = count + 1 := by
  apply Int.bmod_eq_of_le <;> omega

theorem increment_lt (count : Int) : increment count < 2 ^ 31 := Int.bmod_lt (by decide)

section Step

variable {events : List LogEvent} {s s' : StatsdStats} {event : LogEvent}

theorem Tallies.before (h : Tallies events s) (hfills : Fills events s) (hnonneg : 0 ≤ event.mTagId)
    (hcounts : event.mTagId ≤ kMaxPushedAtomId ∨ s.mNonPlatformPushedAtomStats.entries.length < kMaxNonPlatformPushedAtoms) :
    s.count event.mTagId = countOf event.mTagId events := by
  by_cases hcounted : event.mTagId ≤ kMaxPushedAtomId ∨ event.mTagId ∈ s.mNonPlatformPushedAtomStats
  · exact h _ ⟨hnonneg, hcounted⟩
  · -- a new id in a map with room had no event
    rw [not_or] at hcounted
    have hzero : countOf event.mTagId events = 0 := by
      by_contra hcount
      have hfull := hfills.full _ (by omega) hcounted.2 hcount
      omega
    rw [StatsdStats.count, if_neg hcounted.1, hzero]
    exact UMap.getD_of_lookup_none (AList.lookup_eq_none.2 hcounted.2) 0

theorem Tallies.next (h : Tallies events s) (hfills : Fills events s) (hcountable : s.Countable event)
    (hnext : s.onLogEvent event = some s') : Tallies (events ++ [event]) s' := by
  obtain ⟨hothers, hcount, hfull, hmem⟩ := count_onLogEvent hnext
  rintro id ⟨hnonneg, hid⟩
  rw [countOf_append, countOf_singleton]
  by_cases heq : id = event.mTagId
  · subst heq
    rw [if_pos rfl]
    have hcounts : event.mTagId ≤ kMaxPushedAtomId ∨
        s.mNonPlatformPushedAtomStats.entries.length < kMaxNonPlatformPushedAtoms := by
      by_contra hnot
      rw [not_or, not_le, not_lt] at hnot
      rw [hfull hnot.1 hnot.2] at hid
      have hroom := hcountable.room (hid.resolve_left (not_le.2 hnot.1))
      omega
    have hbelow := hcountable.below
    have hbefore := h.before hfills hnonneg hcounts
    rw [(hcount hcounts).1, increment_eq (by omega) hbelow, hbefore]
    push_cast
    rfl
  · rw [hothers id hnonneg heq, if_neg (Ne.symm heq), Nat.add_zero]
    apply h
    refine ⟨hnonneg, hid.imp_right fun hin => ?_⟩
    exact (hmem id hin).resolve_right heq

theorem Tallies.countable (h : Tallies events s) (hfills : Fills events s) (hnext : s.onLogEvent event = some s')
    (h' : Tallies (events ++ [event]) s') : s.Countable event := by
  obtain ⟨hothers, hcount, hfull, hmem⟩ := count_onLogEvent hnext
  have hnonneg : 0 ≤ event.mTagId := by
    by_contra hneg
    rw [onLogEvent_eq_none (by omega)] at hnext
    cases hnext
  have hafter : ∀ id, countOf id (events ++ [event]) = countOf id events + if event.mTagId = id then 1 else 0 := by
    intro id
    rw [countOf_append, countOf_singleton]
  have hroom : event.mTagId ∈ s.mNonPlatformPushedAtomStats →
      s.mNonPlatformPushedAtomStats.entries.length < kMaxNonPlatformPushedAtoms := by
    intro hin
    by_contra hnot
    have hlarge := hfills.large _ hin
    have hsame := hfull hlarge (by omega)
    -- the map is full and unchanged, but there was one more event
    have hbefore := h event.mTagId ⟨hnonneg, .inr hin⟩
    have hlater := h' event.mTagId ⟨hnonneg, .inr (by rw [hsame]; exact hin)⟩
    rw [StatsdStats.count, if_neg (by omega)] at hbefore hlater
    rw [hsame, hbefore, hafter, if_pos rfl] at hlater
    omega
  refine ⟨hnonneg, hroom, ?_⟩
  by_cases hcounts : event.mTagId ≤ kMaxPushedAtomId ∨
      s.mNonPlatformPushedAtomStats.entries.length < kMaxNonPlatformPushedAtoms
  · have hbefore := h.before hfills hnonneg hcounts
    have hlt := increment_lt (s.count event.mTagId)
    have hlater := h' event.mTagId ⟨hnonneg, (hcount hcounts).2⟩
    rw [(hcount hcounts).1, hafter, if_pos rfl] at hlater
    omega
  · rw [not_or] at hcounts
    have hnot : event.mTagId ∉ s.mNonPlatformPushedAtomStats := fun hin => hcounts.2 (hroom hin)
    rw [StatsdStats.count, if_neg hcounts.1, UMap.getD_of_lookup_none (AList.lookup_eq_none.2 hnot)]
    decide

end Step

/-- Every access to the vector is inside it and every count is exact, after every event, exactly in the runs in which each
event can be counted when it comes. -/
theorem atom_stats_exact_iff (events : List LogEvent) :
    (∀ n, ∃ s, run (events.take n) = some s ∧ Exact (events.take n) s) ↔
      RunOk StatsdStats.next (fun s event => ∀ r, s = some r → r.Countable event) (some {}) events := by
  have hstart : Tallies [] {} := by
    rintro id ⟨hnonneg, hid | hid⟩
    · have hindex : id.toNat < kMaxPushedAtomId + 1 := by omega
      simp [StatsdStats.count, hid, hindex, countOf]
    · cases hid
  have hiff : (∀ n, ∃ r, (events.take n).foldl StatsdStats.next (some {}) = some r ∧ run (events.take n) = some r ∧
      Tallies (events.take n) r) ↔ RunOk StatsdStats.next (fun s event => ∀ r, s = some r → r.Countable event) (some {}) events := by
    apply RunOk.iff_prefixes (I := fun _ => True) (P := fun pre s => ∃ r, s = some r ∧ run pre = some r ∧ Tallies pre r)
    · rintro pre _ event - ⟨s, rfl, hrun, htallies⟩ hok
      have hcountable := hok s rfl
      obtain ⟨s', hs'⟩ := exists_onLogEvent (s := s) hcountable.nonneg
      refine ⟨trivial, s', hs', ?_, htallies.next (fills_run hrun) hcountable hs'⟩
      rw [run_append, hrun]
      exact hs'
    · rintro pre _ event - ⟨s, rfl, hrun, htallies⟩ hbad ⟨s', hs', -, htallies'⟩
      apply hbad
      rintro _ ⟨⟩
      exact htallies.countable (fills_run hrun) hs' htallies'
    · trivial
    · exact ⟨{}, rfl, rfl, hstart⟩
  rw [← hiff]
  apply forall_congr'
  intro n
  constructor
  · rintro ⟨s, hs, hexact⟩
    exact ⟨s, hs, hs, (exact_iff_tallies hs).1 hexact⟩
  · rintro ⟨s, -, hs, htallies⟩
    exact ⟨s, hs, (exact_iff_tallies hs).2 htallies⟩

/-- A well-formed event with atom id -1: its datagram parses, and the count of the id is written outside the vector. -/
theorem negative_id_outside :
    let mem : Memory := fun i => ([7, 2, 1, 0, 0, 0, 0, 0, 0, 0, 0, 0, 255, 255, 255, 255][i]?).getD 0
    let event := (LogEvent.parseBuffer mem { mLogUid := 10100, mLogPid := 1 } 0 16).1
    event.mValid = true ∧ event.mTagId = -1 ∧
      ¬ ∀ n, ∃ s, run ([event].take n) = some s ∧ Exact ([event].take n) s := by
  have hvalid : (LogEvent.parseBuffer (fun i => ([7, 2, 1, 0, 0, 0, 0, 0, 0, 0, 0, 0, 255, 255, 255, 255][i]?).getD 0)
      { mLogUid := 10100, mLogPid := 1 } 0 16).1.mValid = true := by decide
  have hid : (LogEvent.parseBuffer (fun i => ([7, 2, 1, 0, 0, 0, 0, 0, 0, 0, 0, 0, 255, 255, 255, 255][i]?).getD 0)
      { mLogUid := 10100, mLogPid := 1 } 0 16).1.mTagId = -1 := by decide
  refine ⟨hvalid, hid, ?_⟩
  intro h
  obtain ⟨s, hs, -⟩ := h 1
  rw [List.take_succ_cons, List.take_zero, run, List.foldl_cons, List.foldl_nil] at hs
  rw [StatsdStats.next, Option.bind_some, onLogEvent_eq_none (by rw [hid]; decide)] at hs
  cases hs

end Statsd.Guardrail
