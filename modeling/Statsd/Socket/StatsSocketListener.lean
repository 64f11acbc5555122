/-
The socket of statsd (socket/StatsSocketListener.cpp). A datagram is a log header, a four-byte tag and a
serialised atom, or a report of lost logs. The listener strips the header and the tag and hands the rest
to the parser of log events.

The sizes of the log headers, and the fields of a report of lost logs, come from the logging library and
are parameters (`LogFormat`).
-/
import Statsd.Logd.ParseSafety

namespace Statsd.Socket

open Logd

/-- The part of the logging library's headers that the listener uses. -/
structure LogFormat where
  /-- `sizeof(android_log_header_t)`. -/
  headerSize : Nat
  /-- `sizeof(android_log_event_long_t)`. -/
  longEventSize : Nat
  LOGGER_ENTRY_MAX_PAYLOAD : Nat
  EVENT_TYPE_LONG : Int
  /-- `header.tag`, `payload.type` and `payload.data` of an `android_log_event_long_t`. -/
  tag : List UInt8 → Int
  type : List UInt8 → Int
  data : List UInt8 → BitVec 64
  /-- A long event starts with its four-byte tag. -/
  four_le : 4 ≤ longEventSize
  /-- A datagram has fewer than 2^32 bytes. -/
  datagram_lt : headerSize + LOGGER_ENTRY_MAX_PAYLOAD < 2 ^ 32

/-- The credentials of a datagram. -/
structure Ucred where
  pid : Int
  uid : Int

def DEFAULT_OVERFLOWUID : Int := 65534

/-- What the listener makes of a datagram. -/
inductive Received where
  /-- Nothing: no more than the header arrived. -/
  | tooShort
  /-- Logs were lost. -/
  | logLost (dropped_count error lastAtomTag uid pid : Int)
  /-- An event for the queue, and what its parser returned. -/
  | event (logEvent : LogEvent) (parsed : Bool)

/-- `onDataAvailable` after `recvmsg` put `n` bytes in the buffer, which starts at address 0. -/
def onDataAvailable (fmt : LogFormat) (n : Nat) (buffer : Memory) (cred : Option Ucred) : Received :=
  if n ≤ fmt.headerSize then .tooShort
  else
    let buffer := buffer.write n [0]
    let cred := cred.getD ⟨0, DEFAULT_OVERFLOWUID⟩
    let ptr := fmt.headerSize
    let n := n - fmt.headerSize
    let long_event := buffer.read ptr fmt.longEventSize
    if n = fmt.longEventSize ∧ fmt.type long_event = fmt.EVENT_TYPE_LONG then
      let composed_long := fmt.data long_event
      .logLost (composed_long.setWidth 32).toInt (fmt.tag long_event) ((composed_long >>> 32).setWidth 32).toInt cred.uid cred.pid
    else
      -- past the four-byte tag; the length is an unsigned difference
      let msg := ptr + 4
      let len := (((n : Int) - 4) % 2 ^ 32).toNat
      let (logEvent, parsed) := LogEvent.parseBuffer buffer { mLogUid := cred.uid, mLogPid := cred.pid } msg len
      .event logEvent parsed

/-! ## Bounds -/

/-- The parser reads only bytes that were received after the tag, never more than the remaining length it
counts, and accepts only when its reads are all of them. -/
def ParsesInside (fmt : LogFormat) (n : Nat) : Received → Prop
  | .event logEvent parsed =>
    (∀ r ∈ logEvent.reads, fmt.headerSize + 4 ≤ r.address ∧ r.address + r.size ≤ n ∧ r.size ≤ r.remaining) ∧
    (parsed = true → LogEvent.Consecutive (fmt.headerSize + 4) (n - (fmt.headerSize + 4)) logEvent.reads n 0)
  | _ => True

theorem parseBuffer_reads (mem : Memory) (ev : LogEvent) (hev : ev.reads = []) (buf len : Nat) :
    LogEvent.Consecutive buf (len % 2 ^ 32) (ev.parseBuffer mem buf len).1.reads
      (ev.parseBuffer mem buf len).1.mBuf (ev.parseBuffer mem buf len).1.mRemainingLen := by
  have hsteps := LogEvent.Steps.trans
    (LogEvent.steps_readNextValue mem 1 { ev with mBuf := buf, mRemainingLen := len % 2 ^ 32 })
    (LogEvent.steps_parseBuffer mem ev buf len)
  obtain ⟨rs, h1, h2⟩ := hsteps.reads
  rw [h1, hev, List.nil_append]
  exact h2

theorem parseBuffer_accepts {mem : Memory} {ev : LogEvent} {buf len : Nat} (h : (ev.parseBuffer mem buf len).2 = true) :
    (ev.parseBuffer mem buf len).1.mRemainingLen = 0 := by
  unfold LogEvent.parseBuffer LogEvent.check at *
  dsimp only at *
  split at h
  · rename_i h0
    rw [if_pos h0]
    exact of_decide_eq_true h0
  · cases h

theorem parseBuffer_first (mem : Memory) (ev : LogEvent) (buf len : Nat) (hlen : 1 ≤ len % 2 ^ 32) :
    ⟨buf, 1, len % 2 ^ 32⟩ ∈ (ev.parseBuffer mem buf len).1.reads := by
  obtain ⟨rs, h1, -⟩ := (LogEvent.steps_parseBuffer mem ev buf len).reads
  rw [h1]
  refine List.mem_append_left _ ?_
  unfold LogEvent.readNextValue
  rw [if_neg (not_lt.2 hlen)]
  exact List.mem_append_right _ (List.mem_singleton_self _)

/-- No read outside the datagram: for every datagram that is longer than the log header and any bytes in
it and behind it, the parser stays inside the received bytes exactly when the four-byte tag was received
too. -/
theorem parse_inside_iff (fmt : LogFormat) (n : Nat) (hn : fmt.headerSize < n)
    (hmax : n ≤ fmt.headerSize + fmt.LOGGER_ENTRY_MAX_PAYLOAD) (buffer : Memory) (cred : Option Ucred) :
    ParsesInside fmt n (onDataAvailable fmt n buffer cred) ↔ fmt.headerSize + 4 ≤ n := by
  have hlt := fmt.datagram_lt
  have hfour := fmt.four_le
  unfold onDataAvailable
  rw [if_neg (by omega)]
  dsimp only
  split
  · -- a report of lost logs is longer than the tag
    rename_i hlong
    exact ⟨fun _ => by omega, fun _ => trivial⟩
  · generalize buffer.write n [0] = mem
    have hreads := parseBuffer_reads mem
      { mLogUid := (cred.getD ⟨0, DEFAULT_OVERFLOWUID⟩).uid, mLogPid := (cred.getD ⟨0, DEFAULT_OVERFLOWUID⟩).pid } rfl
      (fmt.headerSize + 4) ((((n - fmt.headerSize : Nat) : Int) - 4) % 2 ^ 32).toNat
    have hfirst := parseBuffer_first mem
      { mLogUid := (cred.getD ⟨0, DEFAULT_OVERFLOWUID⟩).uid, mLogPid := (cred.getD ⟨0, DEFAULT_OVERFLOWUID⟩).pid }
      (fmt.headerSize + 4) ((((n - fmt.headerSize : Nat) : Int) - 4) % 2 ^ 32).toNat
    generalize ({ mLogUid := (cred.getD ⟨0, DEFAULT_OVERFLOWUID⟩).uid, mLogPid := (cred.getD ⟨0, DEFAULT_OVERFLOWUID⟩).pid } :
      LogEvent) = ev at *
    generalize hlen : ((((n - fmt.headerSize : Nat) : Int) - 4) % 2 ^ 32).toNat = len at *
    constructor
    · intro h
      by_contra hshort
      -- the length wrapped: the first byte is read, and it was not received
      have hwrap : 1 ≤ len % 2 ^ 32 := by omega
      have hin := (h.1 _ (hfirst hwrap)).2.1
      dsimp only at hin
      omega
    · intro h
      have hexact : len % 2 ^ 32 = n - (fmt.headerSize + 4) := by omega
      rw [hexact] at hreads
      obtain ⟨hend, hle, hall⟩ := hreads.bounds
      refine ⟨fun r hr => ?_, fun hparsed => ?_⟩
      · obtain ⟨h1, h2, h3⟩ := hall r hr
        exact ⟨h1, by omega, h3⟩
      · rw [parseBuffer_accepts hparsed] at hreads hend
        rw [show (ev.parseBuffer mem (fmt.headerSize + 4) len).1.mBuf = n by omega] at hreads
        exact hreads

/-- The headers of the logging library. -/
def androidFormat : LogFormat where
  headerSize := 11
  longEventSize := 13
  LOGGER_ENTRY_MAX_PAYLOAD := 4068
  EVENT_TYPE_LONG := 1
  tag bs := LogEvent.signed 32 (ofLeBytes (bs.take 4))
  type bs := LogEvent.signed 8 (ofLeBytes ((bs.drop 4).take 1))
  data bs := BitVec.ofNat 64 (ofLeBytes ((bs.drop 5).take 8))
  four_le := by decide
  datagram_lt := by decide

/-- A datagram with the tag only: nothing is read. -/
theorem parse_inside_iff_tag_only :
    androidFormat.headerSize < 15 ∧ ParsesInside androidFormat 15 (onDataAvailable androidFormat 15 (fun _ => 0) none) :=
  ⟨by decide, (parse_inside_iff androidFormat 15 (by decide) (by decide) (fun _ => 0) none).2 (by decide)⟩

/-- One byte after the header: the length wraps to 2^32 - 3, and the parser reads the sixteenth byte of a
datagram of twelve. -/
theorem short_datagram_read_outside :
    androidFormat.headerSize < 12 ∧ ¬ ParsesInside androidFormat 12 (onDataAvailable androidFormat 12 (fun _ => 0) none) := by
  refine ⟨by decide, fun h => ?_⟩
  have hread : (⟨15, 1, 4294967293⟩ : Read) ∈
      (LogEvent.parseBuffer (Memory.write (fun _ => 0) 12 [0]) { mLogUid := 65534, mLogPid := 0 } 15 4294967293).1.reads := by
    decide +kernel
  have hin := (h.1 _ hread).2.1
  revert hin
  decide

end Statsd.Socket
