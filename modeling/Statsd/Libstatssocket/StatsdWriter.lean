/-
The socket of libstatssocket (stats_buffer_writer.c, statsd_writer.c). Any number of threads call
`write_buffer_to_statsd`, one call after another. A step is one atomic operation of one thread, or one
system call, whose outcome comes with the step; a step that the thread cannot make changes nothing.

A call that failed is counted in `dropped`. A later call takes the count, puts it with the last atom id into
a long event and sends that ahead of its own event; when that fails the count is added back.

Left out are the clock, and `stats_log_close`, which none of these functions calls.
-/
import Statsd.Base.Run
import Statsd.Libstatssocket.StatsEvent

namespace Statsd.Libstatssocket

def ENOENT : Int := 2
def EBADF : Int := 9
def ENODEV : Int := 19
def ENOTCONN : Int := 107
def ECONNREFUSED : Int := 111

def kStatsEventTag : Nat := 1937006964

/-- What reaches statsd, behind the log header. -/
inductive Datagram where
  /-- The long event with the drops: the last error in the tag field, the last atom id and the count. -/
  | report (error atomTag count : BitVec 32)
  /-- The event of a call. -/
  | event (buffer : List UInt8)

/-- The variables that the threads share, with what statsd received and how many calls returned an error. -/
structure Writer where
  dropped : BitVec 32 := 0
  log_error : BitVec 32 := 0
  atom_tag : BitVec 32 := 0
  sock : Int := -EBADF
  /-- `log_init_lock` is held. -/
  log_init_lock : Bool := false
  /-- `__write_to_statsd` is `__write_to_stats_daemon`. -/
  initialized : Bool := false
  received : List Datagram := []
  returned : Nat := 0

/-- Where a thread is in `write_buffer_to_statsd`. -/
inductive Phase where
  | idle
  /-- It calls `__write_to_statsd`. -/
  | call
  | initLock
  | initOpen
  | initClose
  | loadSock
  | exchange (sock : Int)
  | loadError (sock : Int) (snapshot : BitVec 32)
  | loadTag (sock : Int) (snapshot error : BitVec 32)
  | report (sock : Int) (snapshot error atomTag : BitVec 32)
  | addBack (sock : Int) (snapshot : BitVec 32)
  | send (sock : Int)
  | trylock (ret : Int)
  | close (ret : Int)
  | open
  | resend
  | noteDropped (ret : Int)
  | noteError (ret : Int)
  | noteTag

/-- The count that the thread took and that is neither received nor added back. -/
def Phase.held : Phase → Multiset (BitVec 32)
  | .loadError _ snapshot | .loadTag _ snapshot _ | .report _ snapshot _ _ | .addBack _ snapshot => {snapshot}
  | _ => 0

/-- Whether the thread counted its error already, and is about to return it. -/
def Phase.noted : Phase → Nat
  | .noteError _ | .noteTag => 1
  | _ => 0

structure Thread where
  phase : Phase := .idle
  buffer : List UInt8 := []
  atomId : BitVec 32 := 0

/-- What `writev` returns for a datagram: all of it is sent, or nothing. -/
inductive Writev where
  | sent
  | failed (errno : Nat)

/-- What `socket` and `connect` return. -/
inductive Connect where
  | socketFailed (errno : Nat)
  | connectFailed (errno : Nat)
  | connected (sock : Nat)

inductive Action where
  | write_buffer_to_statsd (buffer : List UInt8) (atomId : BitVec 32)
  /-- The next atomic operation. -/
  | next
  | writev (result : Writev)
  | connect (result : Connect)

/-! ## Opening and closing -/

/-- The errors after which the socket may come back. -/
def reconnects (ret : Int) : Bool := ret = -ENOTCONN || ret = -ECONNREFUSED || ret = -ENOENT

/-- With the lock held, when only the holder writes `sock`. -/
def statsdOpen (w : Writer) (result : Connect) : Writer × Int :=
  if w.sock < 0 then
    match result with
    | .socketFailed errno => (w, -errno)
    | .connectFailed errno => (if reconnects (-errno) then { w with sock := -errno } else w, -errno)
    | .connected sock => ({ w with sock := sock }, 0)
  else (w, 0)

def statsdClose (w : Writer) (negative_errno : Int) : Writer := { w with sock := negative_errno }

/-! ## The bytes -/

/-- The two numbers of a report, sign-extended to 64 bits. -/
def composed_long (atomTag count : BitVec 32) : BitVec 64 := (atomTag.signExtend 64 <<< 32) ||| count.signExtend 64

/-- The bytes of the blocks that the loop over `vec` keeps, after `payloadSize` bytes. -/
def payloadBytes (max : Nat) : Nat → List (List UInt8) → List UInt8
  | _, [] => []
  | payloadSize, iov :: vec =>
    let payloadSize := payloadSize + iov.length
    if payloadSize > max then iov.take (iov.length - (payloadSize - max)) else iov ++ payloadBytes max payloadSize vec

/-- The payload of an event: the tag and the buffer. -/
def eventBytes (buffer : List UInt8) : List UInt8 :=
  payloadBytes LOGGER_ENTRY_MAX_PAYLOAD 0 [leBytes 4 kStatsEventTag, buffer]

/-- What `AStatsEvent_write` passes to `write_buffer_to_statsd`: the valid bytes of the built event, and its atom id. -/
def AStatsEvent_write (event : AStatsEvent) : List UInt8 × BitVec 32 :=
  let event := build_internal event true
  (event.buf.read 0 event.numBytesWritten, event.atomId)

/-! ## A thread -/

namespace Thread

def goto (t : Thread) (phase : Phase) : Thread := { t with phase := phase }

/-- `__write_to_statsd` returned to `write_buffer_to_statsd`. -/
def finish (t : Thread) (ret : Int) : Thread := t.goto (if ret < 0 then .noteDropped ret else .idle)

/-- The switch after the event was sent. -/
def afterSend (t : Thread) (ret : Int) : Thread := if reconnects ret then t.goto (.trylock ret) else t.finish ret

/-- `ret` of a `writev` of the event, without the header. -/
def sentBytes (t : Thread) (result : Writev) : Int :=
  match result with
  | .sent => (eventBytes t.buffer).length
  | .failed errno => -errno

def receive (w : Writer) (datagram : Datagram) : Writev → Writer
  | .sent => { w with received := w.received ++ [datagram] }
  | .failed _ => w

/-- `__write_to_statsd_init`. -/
def init (w : Writer) (t : Thread) : Phase → Action → Writer × Thread
  | .initLock, .next =>
    if w.log_init_lock then (w, t)
    else if w.initialized then (w, t.goto .call)
    else ({ w with log_init_lock := true }, t.goto .initOpen)
  | .initOpen, .connect result =>
    let (w, ret) := statsdOpen w result
    if ret < 0 then (w, t.goto .initClose) else ({ w with initialized := true, log_init_lock := false }, t.goto .call)
  | .initClose, .next => ({ statsdClose w (-EBADF) with log_init_lock := false }, t.finish (-ENODEV))
  | _, _ => (w, t)

/-- `statsdWrite`. -/
def statsdWrite (w : Writer) (t : Thread) : Phase → Action → Writer × Thread
  | .loadSock, .next =>
    if w.sock < 0 then (w, if reconnects w.sock then t.goto (.trylock w.sock) else t.finish (-EBADF))
    else (w, t.goto (.exchange w.sock))
  | .exchange sock, .next =>
    let snapshot := w.dropped
    ({ w with dropped := 0 }, t.goto (if snapshot ≠ 0 then .loadError sock snapshot else .send sock))
  | .loadError sock snapshot, .next => (w, t.goto (.loadTag sock snapshot w.log_error))
  | .loadTag sock snapshot error, .next => (w, t.goto (.report sock snapshot error w.atom_tag))
  | .report sock snapshot error atomTag, .writev result =>
    (receive w (.report error atomTag snapshot) result,
      t.goto (match result with
        | .sent => .send sock
        | .failed _ => .addBack sock snapshot))
  | .addBack sock snapshot, .next => ({ w with dropped := w.dropped + snapshot }, t.goto (.send sock))
  | .send _, .writev result => (receive w (.event t.buffer) result, t.afterSend (t.sentBytes result))
  | .trylock ret, .next =>
    if w.log_init_lock then (w, t.finish ret) else ({ w with log_init_lock := true }, t.goto (.close ret))
  | .close ret, .next => (statsdClose w ret, t.goto .open)
  | .open, .connect result =>
    let (w, ret) := statsdOpen w result
    ({ w with log_init_lock := false }, if ret < 0 then t.finish ret else t.goto .resend)
  | .resend, .writev result => (receive w (.event t.buffer) result, t.finish (t.sentBytes result))
  | _, _ => (w, t)

/-- `statsdNoteDrop`, after which the call returns. -/
def statsdNoteDrop (w : Writer) (t : Thread) : Phase → Action → Writer × Thread
  | .noteDropped ret, .next => ({ w with dropped := w.dropped + 1 }, t.goto (.noteError ret))
  | .noteError ret, .next => ({ w with log_error := BitVec.ofInt 32 ret }, t.goto .noteTag)
  | .noteTag, .next => ({ w with atom_tag := t.atomId, returned := w.returned + 1 }, t.goto .idle)
  | _, _ => (w, t)

/-- One step of a thread. -/
def step (w : Writer) (t : Thread) (action : Action) : Writer × Thread :=
  match t.phase with
  | .idle =>
    match action with
    | .write_buffer_to_statsd buffer atomId => (w, ⟨.call, buffer, atomId⟩)
    | _ => (w, t)
  | .call =>
    match action with
    | .next => (w, t.goto (if w.initialized then .loadSock else .initLock))
    | _ => (w, t)
  | .initLock | .initOpen | .initClose => init w t t.phase action
  | .noteDropped _ | .noteError _ | .noteTag => statsdNoteDrop w t t.phase action
  | _ => statsdWrite w t t.phase action

end Thread

/-! ## All threads -/

structure Threads where
  writer : Writer := {}
  threads : List Thread

namespace Threads

/-- `n` threads before their first call. -/
def start (n : Nat) : Threads := { threads := List.replicate n {} }

/-- A step of a thread, by its number. -/
def step (s : Threads) (e : Nat × Action) : Threads :=
  match s.threads[e.1]? with
  | some t =>
    let r := t.step s.writer e.2
    ⟨r.1, s.threads.set e.1 r.2⟩
  | none => s

/-- The counts of the reports that statsd received. -/
def reported (received : List Datagram) : List (BitVec 32) :=
  received.filterMap fun datagram =>
    match datagram with
    | .report _ _ count => some count
    | .event _ => none

/-- The counts that threads hold between the exchange and the outcome of the report. -/
def held (s : Threads) : Multiset (BitVec 32) := (s.threads.map fun t => t.phase.held).sum

/-- The calls that returned an error, and those about to return one they have counted. -/
def errors (s : Threads) : Nat := s.writer.returned + (s.threads.map fun t => t.phase.noted).sum

/-- The errors are those reported, held and in the counter. -/
def Accounted (s : Threads) : Prop :=
  (s.errors : Int) = ((reported s.writer.received).map BitVec.toInt).sum + (s.held.map BitVec.toInt).sum + s.writer.dropped.toInt

/-- After a step fewer than 2^31 errors are not reported. -/
def FewUnreported (s : Threads) (e : Nat × Action) : Prop :=
  ((s.step e).errors : Int) < 2 ^ 31 + ((reported (s.step e).writer.received).map BitVec.toInt).sum

end Threads

end Statsd.Libstatssocket
