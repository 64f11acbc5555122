/-
Where the threads of statsd meet (StatsService.{h,cpp}). The socket thread puts the events that it reads on a
bounded queue, from which the thread of the log processor takes them (logd/LogEventQueue.{h,cpp}); what finds the
queue full is dropped and counted (guardrail/StatsdStats.cpp). The initialisation is over when the boot, the uid
map and the pullers are ready, in any order (utils/MultiConditionTrigger.{h,cpp}). Every call holds the mutex of
its object, so the calls of all threads come one after the other, in any order. The count of drops is an unbounded
integer.
-/
import Statsd.Base.Run
import Statsd.Socket.StatsSocketListener

namespace Statsd

open Logd (LogEvent)
open Socket (LogFormat Ucred)

/-! ## The queue -/

/-- A queue has room for an event: the service passes a limit of 4000. -/
structure LogEventQueue where
  mQueueLimit : Nat
  mQueue : List LogEvent
  limit_pos : 0 < mQueueLimit
  bounded : mQueue.length ≤ mQueueLimit

/-- What `push` returns; a full queue comes with the time of its oldest event. -/
inductive Pushed where
  | success
  | failure (oldestTimestampNs : Int)

namespace LogEventQueue

theorem ne_nil_of_full (q : LogEventQueue) (h : ¬ q.mQueue.length < q.mQueueLimit) : q.mQueue ≠ [] := by
  rintro heq
  apply h
  rw [heq]
  exact q.limit_pos

def push (q : LogEventQueue) (item : LogEvent) : LogEventQueue × Pushed :=
  if h : q.mQueue.length < q.mQueueLimit then
    (⟨q.mQueueLimit, q.mQueue ++ [item], q.limit_pos, by simpa using h⟩, .success)
  else (q, .failure (q.mQueue.head (q.ne_nil_of_full h)).mElapsedTimestampNs)

/-- `waitPop`, which waits while the queue is empty. -/
def waitPop (q : LogEventQueue) : Option (LogEvent × LogEventQueue) :=
  match h : q.mQueue with
  | [] => none
  | item :: rest => some (item, ⟨q.mQueueLimit, rest, q.limit_pos, by have := q.bounded; simp [h] at this; omega⟩)

end LogEventQueue

/-- What StatsdStats keeps of the queue. -/
structure QueueStats where
  mOverflowCount : Int := 0
  mMaxQueueHistoryNs : Int := 0
  mMinQueueHistoryNs : Int := 2 ^ 63 - 1

def QueueStats.noteEventQueueOverflow (stats : QueueStats) (oldestEventTimestampNs elapsedRealtimeNs : Int) : QueueStats :=
  let history := elapsedRealtimeNs - oldestEventTimestampNs
  { mOverflowCount := stats.mOverflowCount + 1
    mMaxQueueHistoryNs := if history > stats.mMaxQueueHistoryNs then history else stats.mMaxQueueHistoryNs
    mMinQueueHistoryNs := if history < stats.mMinQueueHistoryNs then history else stats.mMinQueueHistoryNs }

/-- The two threads, with the history of the run: the events passed to the log processor, and how far the full queue
reached back at each drop. -/
structure EventThreads where
  mEventQueue : LogEventQueue
  stats : QueueStats
  processed : List LogEvent
  histories : List Int

/-- A datagram arrives on the socket, or the loop of `readLogs` goes round. -/
inductive ThreadCall where
  | dataAvailable (n : Nat) (buffer : Memory) (cred : Option Ucred) (elapsedRealtimeNs : Int)
  | readLogs

namespace EventThreads

variable (fmt : LogFormat)

def new (queue : LogEventQueue) : EventThreads := ⟨queue, {}, [], []⟩

/-- The event of a datagram, which goes to the queue whether or not it was parsed. -/
def received : ThreadCall → Option LogEvent
  | .dataAvailable n buffer cred _ =>
    match Socket.onDataAvailable fmt n buffer cred with
    | .event logEvent _ => some logEvent
    | .tooShort | .logLost .. => none
  | .readLogs => none

/-- The end of `onDataAvailable`. -/
def push (s : EventThreads) (logEvent : LogEvent) (elapsedRealtimeNs : Int) : EventThreads :=
  match s.mEventQueue.push logEvent with
  | (mEventQueue, .success) => { s with mEventQueue }
  | (mEventQueue, .failure oldestTimestamp) =>
    { s with
      mEventQueue
      stats := s.stats.noteEventQueueOverflow oldestTimestamp elapsedRealtimeNs
      histories := s.histories ++ [elapsedRealtimeNs - oldestTimestamp] }

def readLogs (s : EventThreads) : EventThreads :=
  match s.mEventQueue.waitPop with
  | none => s
  | some (event, mEventQueue) => { s with mEventQueue, processed := s.processed ++ [event] }

def step (s : EventThreads) : ThreadCall → EventThreads
  | .dataAvailable n buffer cred elapsedRealtimeNs =>
    match received fmt (.dataAvailable n buffer cred elapsedRealtimeNs) with
    | some logEvent => s.push logEvent elapsedRealtimeNs
    | none => s
  | .readLogs => s.readLogs

/-- An event that arrives finds the queue with room. -/
def HasRoom (s : EventThreads) (c : ThreadCall) : Prop :=
  received fmt c ≠ none → s.mEventQueue.mQueue.length < s.mEventQueue.mQueueLimit

/-! ## No event is lost unnoticed -/

/-- The events that arrived are those processed and those in the queue, in the order of arrival, and the counted drops. -/
structure Accounted (arrived : List LogEvent) (s : EventThreads) : Prop where
  order : (s.processed ++ s.mEventQueue.mQueue).Sublist arrived
  count : (arrived.length : Int) = s.processed.length + s.mEventQueue.mQueue.length + s.stats.mOverflowCount
  drops : s.stats.mOverflowCount = s.histories.length
  longest : s.stats.mMaxQueueHistoryNs = s.histories.foldl max 0
  shortest : s.stats.mMinQueueHistoryNs = s.histories.foldl min (2 ^ 63 - 1)

variable {arrived : List LogEvent} {s : EventThreads}

theorem Accounted.push (h : Accounted arrived s) (logEvent : LogEvent) (elapsedRealtimeNs : Int) :
    Accounted (arrived ++ [logEvent]) (s.push logEvent elapsedRealtimeNs) := by
  have hcount := h.count
  unfold EventThreads.push LogEventQueue.push
  split_ifs with hroom
  · refine ⟨?_, ?_, h.drops, h.longest, h.shortest⟩
    · rw [← List.append_assoc]
      exact h.order.append_right _
    · simp only [List.length_append, List.length_singleton]
      push_cast
      omega
  · refine ⟨h.order.trans (List.sublist_append_left _ _), ?_, ?_, ?_, ?_⟩
    · simp only [QueueStats.noteEventQueueOverflow, List.length_append, List.length_singleton]
      push_cast
      omega
    · simp [QueueStats.noteEventQueueOverflow, h.drops]
    · simp only [QueueStats.noteEventQueueOverflow, List.foldl_append, List.foldl_cons, List.foldl_nil, ← h.longest]
      omega
    · simp only [QueueStats.noteEventQueueOverflow, List.foldl_append, List.foldl_cons, List.foldl_nil, ← h.shortest]
      omega

theorem Accounted.readLogs (h : Accounted arrived s) : Accounted arrived s.readLogs := by
  have horder := h.order
  have hcount := h.count
  unfold EventThreads.readLogs LogEventQueue.waitPop
  split
  · exact h
  · rename_i hpop
    split at hpop
    · cases hpop
    · rename_i item rest hqueue
      cases hpop
      rw [hqueue] at horder hcount
      refine ⟨?_, ?_, h.drops, h.longest, h.shortest⟩
      · simpa using horder
      · simp only [List.length_append, List.length_cons, List.length_nil] at hcount ⊢
        push_cast at hcount ⊢
        omega

theorem Accounted.step (h : Accounted arrived s) (c : ThreadCall) :
    Accounted (arrived ++ (received fmt c).toList) (s.step fmt c) := by
  cases c with
  | readLogs => simpa [received, EventThreads.step] using h.readLogs
  | dataAvailable n buffer cred elapsedRealtimeNs =>
    simp only [EventThreads.step]
    generalize received fmt (.dataAvailable n buffer cred elapsedRealtimeNs) = logEvent
    cases logEvent with
    | none => simpa using h
    | some logEvent => exact h.push logEvent elapsedRealtimeNs

end EventThreads

/-! ## The trigger of the initialisation -/

/-- `triggered` counts the threads that were started to run the trigger. -/
structure MultiConditionTrigger where
  mRemainingConditionNames : Finset String
  mCompleted : Bool
  triggered : Nat

namespace MultiConditionTrigger

def new (conditionNames : Finset String) : MultiConditionTrigger :=
  { mRemainingConditionNames := conditionNames
    mCompleted := decide (conditionNames = ∅)
    triggered := if conditionNames = ∅ then 1 else 0 }

def markComplete (t : MultiConditionTrigger) (conditionName : String) : MultiConditionTrigger :=
  if t.mCompleted then t
  else
    let remaining := t.mRemainingConditionNames.erase conditionName
    { mRemainingConditionNames := remaining
      mCompleted := decide (remaining = ∅)
      triggered := if remaining = ∅ then t.triggered + 1 else t.triggered }

/-- The conditions that are not marked remain, and the trigger runs once there are none. -/
theorem markComplete_run (conditionNames : Finset String) (marks : List String) :
    marks.foldl markComplete (new conditionNames) = new (conditionNames \ marks.toFinset) := by
  induction marks using List.reverseRecOn with
  | nil => simp
  | append_singleton marks name ih =>
    have herase : conditionNames \ (marks ++ [name]).toFinset = (conditionNames \ marks.toFinset).erase name := by
      ext x
      simp only [Finset.mem_sdiff, Finset.mem_erase, List.mem_toFinset, List.mem_append, List.mem_singleton]
      tauto
    rw [List.foldl_append, List.foldl_cons, List.foldl_nil, ih, herase]
    generalize conditionNames \ marks.toFinset = remaining
    by_cases hempty : remaining = ∅
    · simp [markComplete, new, hempty]
    · simp [markComplete, new, hempty]

/-- However the threads' calls interleave, repeat or name other conditions, the trigger runs exactly once if all conditions
were marked, and not at all before. -/
theorem triggered_once (conditionNames : Finset String) (marks : List String) :
    (marks.foldl markComplete (new conditionNames)).triggered = if conditionNames ⊆ marks.toFinset then 1 else 0 := by
  rw [markComplete_run]
  simp only [new, Finset.sdiff_eq_empty_iff_subset]

end MultiConditionTrigger

end Statsd
