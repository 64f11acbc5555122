/-
No drop is lost between the threads of libstatssocket and statsd: the tally of the errors, the counter, the
counts that threads hold and the counts that were reported; what statsd reads of a report; and that it takes
no event for a report.

The long event comes from the logging library; its encoder is a parameter next to the format that the
listener reads.
-/
import Mathlib.Data.BitVec
import Statsd.Base.Tally
import Statsd.Libstatssocket.Agreement
import Statsd.Libstatssocket.StatsdWriter
import Statsd.Socket.StatsSocketListener

namespace Statsd.Libstatssocket

open Socket

/-! ## The tally -/

namespace Thread

/-- What a step of a thread does to the numbers: nothing, or one of the steps of a tally. -/
inductive Does (w : Writer) (p : Phase) (w' : Writer) (p' : Phase) : Prop
  | nothing (hreturned : w'.returned + p'.noted = w.returned + p.noted) (hdropped : w'.dropped = w.dropped)
    (hheld : p'.held = p.held) (hreported : Threads.reported w'.received = Threads.reported w.received)
  | count (hreturned : w'.returned + p'.noted = w.returned + p.noted + 1) (hdropped : w'.dropped = w.dropped + 1)
    (hheld : p'.held = p.held) (hreported : Threads.reported w'.received = Threads.reported w.received)
  | take (hreturned : w'.returned + p'.noted = w.returned + p.noted) (hdropped : w'.dropped = 0)
    (hheld : p'.held = {w.dropped} + p.held) (hreported : Threads.reported w'.received = Threads.reported w.received)
  | deliver (count : BitVec 32) (hreturned : w'.returned + p'.noted = w.returned + p.noted) (hdropped : w'.dropped = w.dropped)
    (hheld : p.held = {count} + p'.held) (hreported : Threads.reported w'.received = Threads.reported w.received ++ [count])
  | putBack (count : BitVec 32) (hreturned : w'.returned + p'.noted = w.returned + p.noted)
    (hdropped : w'.dropped = w.dropped + count) (hheld : p.held = {count} + p'.held)
    (hreported : Threads.reported w'.received = Threads.reported w.received)

variable {w : Writer} {t : Thread}

@[simp] theorem phase_goto (p : Phase) : (t.goto p).phase = p := rfl

theorem held_finish (ret : Int) : (t.finish ret).phase.held = 0 ∧ (t.finish ret).phase.noted = 0 := by
  unfold finish
  rw [phase_goto]
  by_cases h : ret < 0
  · rw [if_pos h]
    exact ⟨rfl, rfl⟩
  · rw [if_neg h]
    exact ⟨rfl, rfl⟩

theorem held_afterSend (ret : Int) : (t.afterSend ret).phase.held = 0 ∧ (t.afterSend ret).phase.noted = 0 := by
  unfold afterSend
  by_cases h : reconnects ret = true
  · rw [if_pos h]
    exact ⟨rfl, rfl⟩
  · rw [if_neg h]
    exact held_finish ret

theorem reported_event (buffer : List UInt8) (result : Writev) :
    Threads.reported (receive w (.event buffer) result).received = Threads.reported w.received := by
  cases result with
  | sent => simp [receive, Threads.reported]
  | failed => rfl

theorem receive_frame (datagram : Datagram) (result : Writev) :
    (receive w datagram result).returned = w.returned ∧ (receive w datagram result).dropped = w.dropped := by
  cases result <;> exact ⟨rfl, rfl⟩

theorem statsdOpen_frame (result : Connect) :
    (statsdOpen w result).1.returned = w.returned ∧ (statsdOpen w result).1.dropped = w.dropped ∧
      (statsdOpen w result).1.received = w.received := by
  unfold statsdOpen
  split
  · cases result with
    | connectFailed errno =>
      dsimp only
      split <;> exact ⟨rfl, rfl, rfl⟩
    | _ => exact ⟨rfl, rfl, rfl⟩
  · exact ⟨rfl, rfl, rfl⟩

theorem Does.quiet {w' : Writer} {p p' : Phase} (hreturned : w'.returned = w.returned) (hdropped : w'.dropped = w.dropped)
    (hreported : Threads.reported w'.received = Threads.reported w.received) (hp : p.held = 0 ∧ p.noted = 0)
    (hp' : p'.held = 0 ∧ p'.noted = 0) : Does w p w' p' := by
  refine .nothing ?_ hdropped ?_ hreported
  · rw [hreturned, hp.2, hp'.2]
  · rw [hp.1, hp'.1]

theorem Does.refl (p : Phase) : Does w p w p := .nothing rfl rfl rfl rfl

theorem does_init (action : Action) : Does w t.phase (init w t t.phase action).1 (init w t t.phase action).2.phase := by
  unfold init
  split
  · rename_i hphase
    rw [hphase]
    split
    · rw [hphase]
      exact .refl _
    · split <;> exact .quiet rfl rfl rfl ⟨rfl, rfl⟩ ⟨rfl, rfl⟩
  · rename_i result hphase
    rw [hphase]
    obtain ⟨h1, h2, h3⟩ := statsdOpen_frame (w := w) result
    dsimp only
    split <;> exact .quiet h1 h2 (congrArg Threads.reported h3) ⟨rfl, rfl⟩ ⟨rfl, rfl⟩
  · rename_i hphase
    rw [hphase]
    exact .quiet rfl rfl rfl ⟨rfl, rfl⟩ (held_finish _)
  · exact .refl _

theorem does_statsdNoteDrop (action : Action) :
    Does w t.phase (statsdNoteDrop w t t.phase action).1 (statsdNoteDrop w t t.phase action).2.phase := by
  unfold statsdNoteDrop
  split
  · rename_i hphase
    rw [hphase]
    exact .count rfl rfl rfl rfl
  · rename_i hphase
    rw [hphase]
    exact .nothing rfl rfl rfl rfl
  · rename_i hphase
    rw [hphase]
    exact .nothing rfl rfl rfl rfl
  · exact .refl _

theorem does_statsdWrite (action : Action) :
    Does w t.phase (statsdWrite w t t.phase action).1 (statsdWrite w t t.phase action).2.phase := by
  unfold statsdWrite
  split
  · -- the socket is loaded
    rename_i hphase
    rw [hphase]
    split
    · split
      · exact .quiet rfl rfl rfl ⟨rfl, rfl⟩ ⟨rfl, rfl⟩
      · exact .quiet rfl rfl rfl ⟨rfl, rfl⟩ (held_finish _)
    · exact .quiet rfl rfl rfl ⟨rfl, rfl⟩ ⟨rfl, rfl⟩
  · -- the counter is taken, when it is not zero
    rename_i hphase
    rw [hphase]
    dsimp only
    by_cases h : w.dropped = 0
    · rw [phase_goto, if_neg (not_not.2 h)]
      exact .quiet rfl h.symm rfl ⟨rfl, rfl⟩ ⟨rfl, rfl⟩
    · rw [phase_goto, if_pos h]
      exact .take rfl rfl rfl rfl
  · rename_i hphase
    rw [hphase]
    exact .nothing rfl rfl rfl rfl
  · rename_i hphase
    rw [hphase]
    exact .nothing rfl rfl rfl rfl
  · -- the report
    rename_i sock snapshot error atomTag result hphase
    rw [hphase]
    cases result with
    | sent => exact .deliver snapshot rfl rfl rfl (by simp [receive, Threads.reported])
    | failed => exact .nothing rfl rfl rfl rfl
  · rename_i sock snapshot hphase
    rw [hphase]
    exact .putBack snapshot rfl rfl rfl rfl
  · rename_i sock result hphase
    rw [hphase]
    obtain ⟨h1, h2⟩ := receive_frame (w := w) (.event t.buffer) result
    exact .quiet h1 h2 (reported_event _ _) ⟨rfl, rfl⟩ (held_afterSend _)
  · rename_i ret hphase
    rw [hphase]
    split
    · exact .quiet rfl rfl rfl ⟨rfl, rfl⟩ (held_finish _)
    · exact .quiet rfl rfl rfl ⟨rfl, rfl⟩ ⟨rfl, rfl⟩
  · rename_i ret hphase
    rw [hphase]
    exact .quiet rfl rfl rfl ⟨rfl, rfl⟩ ⟨rfl, rfl⟩
  · rename_i result hphase
    rw [hphase]
    obtain ⟨h1, h2, h3⟩ := statsdOpen_frame (w := w) result
    dsimp only
    split
    · exact .quiet h1 h2 (congrArg Threads.reported h3) ⟨rfl, rfl⟩ (held_finish _)
    · exact .quiet h1 h2 (congrArg Threads.reported h3) ⟨rfl, rfl⟩ ⟨rfl, rfl⟩
  · rename_i result hphase
    rw [hphase]
    obtain ⟨h1, h2⟩ := receive_frame (w := w) (.event t.buffer) result
    exact .quiet h1 h2 (reported_event _ _) ⟨rfl, rfl⟩ (held_finish _)
  · exact .refl _

theorem does_step (action : Action) : Does w t.phase (t.step w action).1 (t.step w action).2.phase := by
  unfold step
  split
  · rename_i hphase
    split
    · rw [hphase]
      exact .quiet rfl rfl rfl ⟨rfl, rfl⟩ ⟨rfl, rfl⟩
    · exact .refl _
  · rename_i hphase
    split
    · rw [hphase, phase_goto]
      by_cases h : w.initialized = true
      · rw [if_pos h]
        exact .quiet rfl rfl rfl ⟨rfl, rfl⟩ ⟨rfl, rfl⟩
      · rw [if_neg h]
        exact .quiet rfl rfl rfl ⟨rfl, rfl⟩ ⟨rfl, rfl⟩
    · exact .refl _
  all_goals first | exact does_init action | exact does_statsdNoteDrop action | exact does_statsdWrite action

end Thread

namespace Threads

/-- The numbers of all threads as a tally. -/
def tally (s : Threads) : Tally (BitVec 32) := ⟨s.errors, s.writer.dropped, s.held, reported s.writer.received⟩

theorem tally_set {s : Threads} {i : Nat} {t : Thread} (h : s.threads[i]? = some t) :
    ∃ (held : Multiset (BitVec 32)) (noted : Nat),
      s.tally = ⟨s.writer.returned + t.phase.noted + noted, s.writer.dropped, t.phase.held + held, reported s.writer.received⟩ ∧
      ∀ w' t', (⟨w', s.threads.set i t'⟩ : Threads).tally =
        ⟨w'.returned + t'.phase.noted + noted, w'.dropped, t'.phase.held + held, reported w'.received⟩ := by
  obtain ⟨held, h1, h2⟩ := sum_map_set (fun t : Thread => t.phase.held) h
  obtain ⟨noted, h3, h4⟩ := sum_map_set (fun t : Thread => t.phase.noted) h
  refine ⟨held, noted, ?_, fun w' t' => ?_⟩
  · unfold tally errors Threads.held
    rw [h1, h3, Nat.add_assoc]
  · unfold tally errors Threads.held
    rw [h2, h4, Nat.add_assoc]

theorem tally_step (s : Threads) (e : Nat × Action) : (s.step e).tally = s.tally ∨ Tally.Step s.tally (s.step e).tally := by
  unfold step
  split
  · rename_i t ht
    obtain ⟨held, noted, hs, hset⟩ := tally_set ht
    rw [hs, hset]
    cases Thread.does_step (w := s.writer) (t := t) e.2 with
    | nothing hreturned hdropped hheld hreported =>
      left
      rw [hreturned, hdropped, hheld, hreported]
    | count hreturned hdropped hheld hreported =>
      right
      rw [hreturned, hdropped, hheld, hreported, Nat.add_right_comm _ 1]
      exact .count _
    | take hreturned hdropped hheld hreported =>
      right
      rw [hreturned, hdropped, hheld, hreported, add_assoc ({s.writer.dropped} : Multiset (BitVec 32))]
      exact Tally.Step.take ⟨_, _, _, _⟩
    | deliver count hreturned hdropped hheld hreported =>
      right
      have hcons : ((reported s.writer.received ++ [count] : List (BitVec 32)) : Multiset (BitVec 32)) =
          {count} + (reported s.writer.received : Multiset (BitVec 32)) := by
        rw [← Multiset.coe_add, add_comm]
        rfl
      rw [hreturned, hdropped, hheld, hreported, hcons, add_assoc ({count} : Multiset (BitVec 32))]
      exact .deliver _ _ _ _ _
    | putBack count hreturned hdropped hheld hreported =>
      right
      rw [hreturned, hdropped, hheld, hreported, add_assoc ({count} : Multiset (BitVec 32))]
      exact .putBack _ _ _ _ _
  · exact .inl rfl

theorem tally_start (n : Nat) : (start n).tally = ⟨0, 0, 0, 0⟩ := by
  have hheld : (start n).held = 0 := by
    unfold held start
    rw [List.map_replicate, List.sum_replicate]
    exact smul_zero n
  have herrors : (start n).errors = 0 := by
    unfold errors start
    rw [List.map_replicate, List.sum_replicate]
    exact smul_zero n
  unfold tally
  rw [hheld, herrors]
  rfl

theorem conserved (n : Nat) (steps : List (Nat × Action)) : (steps.foldl step (start n)).tally.Conserved := by
  have hrun : ∀ s : Threads, s.tally.Conserved → (steps.foldl step s).tally.Conserved := by
    induction steps with
    | nil => exact fun s hs => hs
    | cons e steps ih =>
      intro s hs
      refine ih (s.step e) ?_
      rcases s.tally_step e with heq | hstep
      · rw [heq]
        exact hs
      · exact hstep.conserved hs
  refine hrun (start n) ?_
  rw [tally_start]
  simp [Tally.Conserved]

/-! ## Values -/

theorem toInt_add_of_lt (a b : BitVec 32) (ha : 0 ≤ a.toInt) (hb : 0 ≤ b.toInt) (h : a.toInt + b.toInt < 2 ^ 31) :
    (a + b).toInt = a.toInt + b.toInt := by
  rw [BitVec.toInt_add, Int.bmod_eq_of_le (by omega) (by omega)]

theorem exact_of_few (n : Nat) {steps : List (Nat × Action)} (h : RunOk step FewUnreported (start n) steps) :
    (steps.foldl step (start n)).tally.Exact BitVec.toInt := by
  refine h.inv (I := fun s => s.tally.Exact BitVec.toInt) (fun s e hok hs => ?_) ?_
  · rcases s.tally_step e with heq | hstep
    · rw [heq]
      exact hs
    · exact hstep.exact rfl rfl toInt_add_of_lt hs hok
  · rw [tally_start]
    exact ⟨rfl, le_refl 0, fun c hc => absurd hc (Multiset.notMem_zero c)⟩

theorem accounted_of_exact {s : Threads} (h : s.tally.Exact BitVec.toInt) : s.Accounted := h.events

end Threads

/-! ## What the listener reads -/

/-- The long event as the library writes it, next to what the listener reads of it. -/
structure LogLayout extends LogFormat where
  /-- The bytes of an `android_log_event_long_t`. -/
  longEvent : BitVec 32 → Int → BitVec 64 → List UInt8
  length_longEvent (tag : BitVec 32) (type : Int) (data : BitVec 64) : (longEvent tag type data).length = longEventSize
  tag_longEvent (tag : BitVec 32) (type : Int) (data : BitVec 64) : toLogFormat.tag (longEvent tag type data) = tag.toInt
  data_longEvent (tag : BitVec 32) (type : Int) (data : BitVec 64) : toLogFormat.data (longEvent tag type data) = data
  /-- The type is the signed byte behind the tag. -/
  type_longEvent (tag : BitVec 32) (type : Int) (data : BitVec 64) (h : -128 ≤ type ∧ type < 128) :
    toLogFormat.type (longEvent tag type data) = type
  type_at (bytes : List UInt8) (b : UInt8) (hlen : bytes.length = longEventSize) (hb : bytes[4]? = some b) :
    toLogFormat.type bytes = Logd.LogEvent.signed 8 b.toNat
  long_eq : EVENT_TYPE_LONG = 1

/-- The bytes of a datagram behind its header. -/
def Datagram.bytes (layout : LogLayout) : Datagram → List UInt8
  | .report error atomTag count => layout.longEvent error layout.EVENT_TYPE_LONG (composed_long atomTag count)
  | .event buffer => eventBytes buffer

/-- What statsd makes of a datagram that arrives with some header, in a buffer with old bytes. -/
def Datagram.read (layout : LogLayout) (header : List UInt8) (memory : Memory) (cred : Option Ucred) (d : Datagram) : Received :=
  onDataAvailable layout.toLogFormat (header ++ d.bytes layout).length (memory.write 0 (header ++ d.bytes layout)) cred

/-- The pair that was composed, or an event when the buffer starts as events do. -/
def Datagram.Understood (layout : LogLayout) (header : List UInt8) (memory : Memory) (cred : Option Ucred) (d : Datagram) : Prop :=
  match d with
  | .report error atomTag count => 0 ≤ count.toInt →
    ∃ uid pid, d.read layout header memory cred = .logLost count.toInt error.toInt atomTag.toInt uid pid
  | .event buffer => buffer.head? = some (UInt8.ofNat OBJECT_TYPE) →
    ∃ logEvent parsed, d.read layout header memory cred = .event logEvent parsed

theorem setWidth_composed_long (atomTag count : BitVec 32) : (composed_long atomTag count).setWidth 32 = count := by
  unfold composed_long
  ext i hi
  simp [BitVec.getElem_signExtend, hi, show i < 64 by omega]

theorem shift_composed_long {atomTag count : BitVec 32} (h : 0 ≤ count.toInt) :
    ((composed_long atomTag count) >>> 32).setWidth 32 = atomTag := by
  have hmsb : count.msb = false := by
    rw [BitVec.msb_eq_toInt]
    exact decide_eq_false (not_lt.2 h)
  unfold composed_long
  ext i hi
  simp [BitVec.getElem_signExtend, hmsb, hi, show i < 64 by omega, show 32 + i < 64 by omega]

theorem payloadBytes_eq (max : Nat) (vec : List (List UInt8)) {k : Nat} (h : k ≤ max) :
    payloadBytes max k vec = vec.flatten.take (max - k) := by
  induction vec generalizing k with
  | nil => simp [payloadBytes]
  | cons iov vec ih =>
    rw [payloadBytes, List.flatten_cons, List.take_append]
    split
    · rename_i hover
      rw [show max - k - iov.length = 0 by omega, List.take_zero, List.append_nil]
      congr 1
      omega
    · rename_i hfits
      rw [ih (by omega), List.take_of_length_le (show iov.length ≤ max - k by omega), Nat.sub_sub]

theorem eventBytes_eq (buffer : List UInt8) : eventBytes buffer = (leBytes 4 kStatsEventTag ++ buffer).take 4068 := by
  unfold eventBytes
  rw [payloadBytes_eq _ _ (Nat.zero_le _)]
  simp [LOGGER_ENTRY_MAX_PAYLOAD]

theorem read_behind (memory : Memory) (header bytes : List UInt8) :
    ((memory.write 0 (header ++ bytes)).write (header ++ bytes).length [0]).read header.length bytes.length = bytes := by
  rw [Memory.read_write_before [0] (by rw [List.length_append])]
  have hall := Memory.read_write memory 0 (header ++ bytes)
  rw [List.length_append, Memory.read_add, Nat.zero_add] at hall
  exact (List.append_inj hall (Memory.length_read _ _ _)).2

section Listener

variable {fmt : LogFormat} {header bytes : List UInt8} (memory : Memory) (cred : Option Ucred)

theorem listener_report (hheader : header.length = fmt.headerSize) (hlen : bytes.length = fmt.longEventSize)
    (htype : fmt.type bytes = fmt.EVENT_TYPE_LONG) :
    onDataAvailable fmt (header ++ bytes).length (memory.write 0 (header ++ bytes)) cred =
      .logLost ((fmt.data bytes).setWidth 32).toInt (fmt.tag bytes) ((fmt.data bytes >>> 32).setWidth 32).toInt
        (cred.getD ⟨0, DEFAULT_OVERFLOWUID⟩).uid (cred.getD ⟨0, DEFAULT_OVERFLOWUID⟩).pid := by
  have hfour := fmt.four_le
  have hread := read_behind memory header bytes
  have hn : (header ++ bytes).length = fmt.headerSize + fmt.longEventSize := by rw [List.length_append, hheader, hlen]
  rw [hn, hheader, hlen] at hread
  unfold onDataAvailable
  rw [hn, if_neg (by omega)]
  dsimp only
  rw [hread, if_pos ⟨by omega, htype⟩]

theorem listener_event (hheader : header.length = fmt.headerSize) (hpos : 0 < bytes.length)
    (hnot : bytes.length = fmt.longEventSize → fmt.type bytes ≠ fmt.EVENT_TYPE_LONG) :
    ∃ logEvent parsed, onDataAvailable fmt (header ++ bytes).length (memory.write 0 (header ++ bytes)) cred = .event logEvent parsed := by
  have hread := read_behind memory header bytes
  have hn : (header ++ bytes).length = fmt.headerSize + bytes.length := by rw [List.length_append, hheader]
  rw [hn, hheader] at hread
  unfold onDataAvailable
  rw [hn, if_neg (by omega)]
  dsimp only
  rw [if_neg]
  · exact ⟨_, _, rfl⟩
  · rintro ⟨hsize, htype⟩
    rw [Nat.add_sub_cancel_left] at hsize
    rw [← hsize, hread] at htype
    exact hnot hsize htype

end Listener

variable {layout : LogLayout} {header : List UInt8}

theorem understood_report (hheader : header.length = layout.headerSize) (memory : Memory) (cred : Option Ucred)
    (error atomTag count : BitVec 32) : Datagram.Understood layout header memory cred (.report error atomTag count) := by
  intro hcount
  have hread := listener_report memory cred hheader
    (layout.length_longEvent error layout.EVENT_TYPE_LONG (composed_long atomTag count))
    (layout.type_longEvent _ _ _ (by rw [layout.long_eq]; decide))
  rw [layout.data_longEvent, layout.tag_longEvent, setWidth_composed_long, shift_composed_long hcount] at hread
  exact ⟨_, _, hread⟩

theorem understood_event (hheader : header.length = layout.headerSize) (memory : Memory) (cred : Option Ucred)
    (buffer : List UInt8) : Datagram.Understood layout header memory cred (.event buffer) := by
  intro hhead
  obtain ⟨rest, rfl⟩ : ∃ rest, buffer = UInt8.ofNat OBJECT_TYPE :: rest := by
    cases buffer with
    | nil => cases hhead
    | cons b rest =>
      cases hhead
      exact ⟨rest, rfl⟩
  -- the type of the object is where a long event has its own type
  have hfifth : (eventBytes (UInt8.ofNat OBJECT_TYPE :: rest))[4]? = some (UInt8.ofNat OBJECT_TYPE) := by
    rw [eventBytes_eq]
    rfl
  have hlen : 4 < (eventBytes (UInt8.ofNat OBJECT_TYPE :: rest)).length := (List.getElem?_eq_some_iff.1 hfifth).1
  refine listener_event memory cred hheader (Nat.zero_lt_of_lt hlen) fun hsize htype => ?_
  rw [layout.type_at _ _ hsize hfifth, layout.long_eq] at htype
  revert htype
  decide

/-- `android_log_event_long_t`: the tag, the type byte and the data. -/
def android_log_event_long_t (tag : BitVec 32) (type : Int) (data : BitVec 64) : List UInt8 :=
  leBytes 4 tag.toNat ++ ([UInt8.ofNat (type % 256).toNat] ++ leBytes 8 data.toNat)

theorem tag_of_long (tag : BitVec 32) (type : Int) (data : BitVec 64) :
    androidFormat.tag (android_log_event_long_t tag type data) = tag.toInt := by
  have h : (android_log_event_long_t tag type data).take 4 = leBytes 4 tag.toNat := List.take_left' (length_leBytes _ _)
  rw [← signed_leBytes32 tag, ← h]
  rfl

theorem data_of_long (tag : BitVec 32) (type : Int) (data : BitVec 64) :
    androidFormat.data (android_log_event_long_t tag type data) = data := by
  have hdrop : (android_log_event_long_t tag type data).drop 5 = leBytes 8 data.toNat := by
    unfold android_log_event_long_t
    rw [← List.append_assoc, List.drop_left' (by simp)]
  have hdata : BitVec.ofNat 64 (ofLeBytes (leBytes 8 data.toNat)) = data := by
    rw [ofLeBytes_leBytes_of_lt data.isLt, BitVec.ofNat_toNat, BitVec.setWidth_eq]
  rw [← List.take_of_length_le (le_of_eq (length_leBytes 8 data.toNat)), ← hdrop] at hdata
  exact hdata

theorem type_of_fifth {bytes : List UInt8} {b : UInt8} (hb : bytes[4]? = some b) :
    androidFormat.type bytes = Logd.LogEvent.signed 8 b.toNat := by
  obtain ⟨h, rfl⟩ := List.getElem?_eq_some_iff.1 hb
  have hdrop : (bytes.drop 4).take 1 = [bytes[4]] := by
    rw [List.drop_eq_getElem_cons h]
    rfl
  show Logd.LogEvent.signed 8 (ofLeBytes ((bytes.drop 4).take 1)) = _
  rw [hdrop, ofLeBytes_singleton]

theorem signed_byte {type : Int} (h : -128 ≤ type ∧ type < 128) :
    Logd.LogEvent.signed 8 (UInt8.ofNat (type % 256).toNat).toNat = type := by
  have hn : ((type % 256).toNat : Int) = type % 256 := Int.toNat_of_nonneg (Int.emod_nonneg _ (by decide))
  have hb : (UInt8.ofNat (type % 256).toNat).toNat = (type % 256).toNat := by
    rw [UInt8.toNat_ofNat']
    omega
  have hbmod : (type % 256).bmod (2 ^ 8) = type.bmod (2 ^ 8) := Int.emod_bmod ..
  unfold Logd.LogEvent.signed
  rw [hb, BitVec.toInt_ofNat', hn, hbmod, Int.bmod_eq_of_le (by omega) (by omega)]

/-- The long event of the logging library. -/
def androidLayout : LogLayout where
  toLogFormat := androidFormat
  longEvent := android_log_event_long_t
  length_longEvent tag type data := by simp [android_log_event_long_t, androidFormat]
  tag_longEvent := tag_of_long
  data_longEvent := data_of_long
  type_longEvent tag type data h := (type_of_fifth rfl).trans (signed_byte h)
  type_at bytes b _ hb := type_of_fifth hb
  long_eq := rfl

/-! ## What is sent as an event -/

theorem buildErrors_errors (e : AStatsEvent) (push : Bool) : ∃ errors, buildErrors e push = { e with errors := errors } := by
  unfold buildErrors
  dsimp only
  split_ifs <;> exact ⟨_, rfl⟩

theorem write_starts (timestamp : BitVec 64) (calls : List Call) (hfits : ∀ c ∈ calls, c.Fits) :
    (AStatsEvent_write (runCalls timestamp calls)).1.head? = some (UInt8.ofNat OBJECT_TYPE) := by
  have hkeep := Keeps.run calls hfits (keeps_obtain timestamp)
  change Keeps timestamp (runCalls timestamp calls) (written calls) at hkeep
  generalize runCalls timestamp calls = e at *
  obtain ⟨errors, herrors⟩ := buildErrors_errors e true
  have hlen : 11 ≤ e.numBytesWritten := by
    by_cases hfresh : (written calls).Fresh
    · obtain ⟨errors, he⟩ := hkeep.fresh hfresh
      rw [(header_of_obtain he).2.1]
    · exact (hkeep.behind hfresh).1
  have hstart : ∀ e' : AStatsEvent, (∃ rest, e'.payload = headerBytes 0 timestamp ++ rest) → ∀ n,
      ({ e' with buf := e'.buf.write POS_NUM_ELEMENTS [UInt8.ofNat n] } : AStatsEvent).payload.head? = some (UInt8.ofNat OBJECT_TYPE) := by
    rintro e' ⟨rest, hrest⟩ n
    rw [payload_count n hrest]
    rfl
  show (build_internal e true).payload.head? = _
  unfold build_internal
  refine hstart _ ?_ _
  rw [herrors]
  split
  · exact ⟨_, (rewriteBuffer_spec (e := { e with errors := errors }) hkeep.header).1⟩
  · refine ⟨e.buf.read 11 (e.numBytesWritten - 11), ?_⟩
    show e.buf.read 0 e.numBytesWritten = _
    rw [← hkeep.header, show e.numBytesWritten = 11 + (e.numBytesWritten - 11) by omega, Memory.read_add, Nat.zero_add,
      Nat.add_sub_cancel_left]

/-! ## The accounting -/

/-- For any number of threads and in any order of their steps, with any outcomes of the system calls: the
errors are the drops that are reported, held or counted, modulo 2^32 always, and exactly when after every
step fewer than 2^31 of them are not reported; statsd reads from a report with a non-negative count the pair
that was composed; it takes no datagram with a serialised object for a report; and events are such objects. -/
theorem drops_accounted (layout : LogLayout) (n : Nat) (steps : List (Nat × Action)) :
    let s := steps.foldl Threads.step (Threads.start n)
    (BitVec.ofNat 32 s.errors = (Threads.reported s.writer.received).sum + s.held.sum + s.writer.dropped) ∧
    (RunOk Threads.step Threads.FewUnreported (Threads.start n) steps → s.Accounted) ∧
    (∀ header memory cred, header.length = layout.headerSize → ∀ d ∈ s.writer.received, d.Understood layout header memory cred) ∧
    ∀ timestamp calls, (∀ c ∈ calls, c.Fits) →
      (AStatsEvent_write (runCalls timestamp calls)).1.head? = some (UInt8.ofNat OBJECT_TYPE) := by
  intro s
  refine ⟨?_, fun hfew => Threads.accounted_of_exact (Threads.exact_of_few n hfew), fun header memory cred hheader d _ => ?_,
    write_starts⟩
  · have hsum := Threads.conserved n steps
    unfold Tally.Conserved Threads.tally at hsum
    rw [Multiset.sum_coe] at hsum
    exact hsum
  · cases d with
    | report error atomTag count => exact understood_report hheader memory cred error atomTag count
    | event buffer => exact understood_event hheader memory cred buffer

/-- A call of a thread that cannot open the socket. -/
def failingCall : List (Nat × Action) :=
  [(0, .write_buffer_to_statsd [] 0), (0, .next), (0, .next), (0, .connect (.socketFailed 1)), (0, .next), (0, .next), (0, .next),
    (0, .next)]

theorem foldl_failingCalls (k : Nat) (w : Writer) (hsock : w.sock = -9) (hlock : w.log_init_lock = false)
    (hinit : w.initialized = false) :
    ∃ w', ((List.replicate k failingCall).flatten.foldl Threads.step ⟨w, [{}]⟩) = ⟨w', [{}]⟩ ∧ w'.received = w.received ∧
      w'.returned = w.returned + k ∧ w'.dropped = w.dropped + BitVec.ofNat 32 k := by
  induction k generalizing w with
  | zero => exact ⟨w, rfl, rfl, rfl, (BitVec.add_zero _).symm⟩
  | succ k ih =>
    obtain ⟨dropped, log_error, atom_tag, sock, lock, initialized, received, returned⟩ := w
    subst hsock hlock hinit
    obtain ⟨w', h1, h2, h3, h4⟩ := ih ⟨dropped + 1, BitVec.ofInt 32 (-ENODEV), 0, -9, false, false, received, returned + 1⟩ rfl rfl rfl
    refine ⟨w', ?_, h2, ?_, ?_⟩
    · rw [List.replicate_succ, List.flatten_cons, List.foldl_append]
      exact h1
    · rw [h3]
      exact Nat.add_right_comm returned 1 k
    · rw [h4, Nat.add_comm k 1, BitVec.ofNat_add, ← BitVec.add_assoc]
      rfl

/-- After 2^31 calls without a socket the counter is negative. -/
theorem counter_wraps : ¬ ((List.replicate (2 ^ 31) failingCall).flatten.foldl Threads.step (Threads.start 1)).Accounted := by
  obtain ⟨w, hw, hreceived, hreturned, hdropped⟩ := foldl_failingCalls (2 ^ 31) {} rfl rfl rfl
  intro h
  have hstart : Threads.start 1 = ⟨{}, [{}]⟩ := rfl
  rw [hstart, hw] at h
  unfold Threads.Accounted Threads.errors at h
  dsimp only at h
  rw [hreceived, hreturned, hdropped] at h
  have herrors : (([({} : Thread)].map fun t => t.phase.noted).sum) = 0 := rfl
  rw [herrors] at h
  have hheld : (Threads.held ⟨w, [{}]⟩) = 0 := rfl
  rw [hheld] at h
  revert h
  decide

end Statsd.Libstatssocket
