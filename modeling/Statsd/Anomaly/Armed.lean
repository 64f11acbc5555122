/-
Whether a pending anomaly alarm is armed. The processor clears its alarm when it is due and relies on
the monitor to set the next one; the monitor does so only when it took something off the queue, and
its registered time may be up to the slack before the soonest alarm. A due alarm that finds only
later alarms is therefore cleared and not set again.

In every run whose due alarms find something to take off the queue, and whose additions do not wrap
the 32-bit comparison, a queued alarm is always armed, at most the slack after the soonest one.
-/
import Statsd.Anomaly.AlarmMonitor
import Statsd.Base.Run

namespace Statsd.Anomaly

open InternalAlarm

theorem smallerTimestamp_strictWeak : Heap.StrictWeak fun a b : InternalAlarm => smallerTimestamp a b = true := by
  refine ⟨?_, ?_⟩
  · intro a b h h'
    simp only [smallerTimestamp, decide_eq_true_eq, UInt32.lt_iff_toNat_lt] at h h'
    omega
  · intro a b c h h'
    simp only [smallerTimestamp, decide_eq_true_eq, UInt32.lt_iff_toNat_lt] at h h' ⊢
    omega

/-- A queue of alarms in heap order. -/
abbrev AlarmQueue.WF (q : AlarmQueue) : Prop := IndexedPriorityQueue.WF smallerTimestamp q

theorem AlarmQueue.top_soonest {q : AlarmQueue} (h : AlarmQueue.WF q) {a : InternalAlarm} (ht : q.top = some a) :
    a ∈ q.elems ∧ ∀ b ∈ q.elems, a.timestampSec.toNat ≤ b.timestampSec.toNat := by
  obtain ⟨hm, hmin⟩ := h.top_some smallerTimestamp_strictWeak ht
  refine ⟨hm, fun b hb => ?_⟩
  have := hmin b hb
  simp only [smallerTimestamp, decide_eq_false_iff_not, UInt32.lt_iff_toNat_lt] at this
  omega

/-! ## Taking due alarms off the queue -/

theorem popLoop_spec (timestampSec : UInt32) (fuel : Nat) {q : AlarmQueue} (h : AlarmQueue.WF q)
    (hfuel : q.size ≤ fuel) :
    AlarmQueue.WF (AlarmMonitor.popLoop timestampSec fuel q).2 ∧
    (AlarmMonitor.popLoop timestampSec fuel q).2.elems =
      {a ∈ q.elems | timestampSec.toNat < a.timestampSec.toNat} ∧
    ∀ a, a ∈ (AlarmMonitor.popLoop timestampSec fuel q).1 ↔
      a ∈ q.elems ∧ a.timestampSec.toNat ≤ timestampSec.toNat := by
  induction fuel generalizing q with
  | zero =>
    have he : q.elems = ∅ := by
      rw [← h.top_none_iff, IndexedPriorityQueue.top]
      rw [if_pos (by simp [IndexedPriorityQueue.empty]; omega)]
    simp [AlarmMonitor.popLoop, he, h]
  | succ fuel ih =>
    unfold AlarmMonitor.popLoop
    cases ht : q.top with
    | none =>
      have he := h.top_none_iff.1 ht
      simp [he, h]
    | some t =>
      obtain ⟨htm, hmin⟩ := AlarmQueue.top_soonest h ht
      dsimp only
      split
      · rename_i hle
        rw [UInt32.le_iff_toNat_le] at hle
        obtain ⟨hw, hel, hsz⟩ := h.pop smallerTimestamp_strictWeak ht
        obtain ⟨h1, h2, h3⟩ := ih hw (by omega)
        refine ⟨h1, ?_, ?_⟩
        · rw [h2, hel]
          ext a
          simp only [Set.mem_sep_iff, Set.mem_sdiff, Set.mem_singleton_iff]
          constructor
          · rintro ⟨⟨hm, -⟩, hlt⟩; exact ⟨hm, hlt⟩
          · rintro ⟨hm, hlt⟩
            exact ⟨⟨hm, by rintro rfl; omega⟩, hlt⟩
        · intro a
          simp only [List.mem_cons, h3, hel, Set.mem_sdiff, Set.mem_singleton_iff]
          constructor
          · rintro (rfl | ⟨⟨hm, -⟩, hlt⟩)
            · exact ⟨htm, hle⟩
            · exact ⟨hm, hlt⟩
          · rintro ⟨hm, hlt⟩
            by_cases hat : a = t
            · exact .inl hat
            · exact .inr ⟨⟨hm, hat⟩, hlt⟩
      · rename_i hgt
        rw [UInt32.le_iff_toNat_le] at hgt
        refine ⟨h, ?_, ?_⟩
        · ext a
          simp only [Set.mem_sep_iff]
          constructor
          · intro hm; exact ⟨hm, by have := hmin a hm; omega⟩
          · exact fun hm => hm.1
        · intro a
          simp only [List.not_mem_nil, false_iff, not_and]
          intro hm; have := hmin a hm; omega

/-! ## Steps -/

/-- The steps of the monitor and the processor. -/
inductive AlarmStep where
  | add (alarm : Option InternalAlarm)
  | remove (alarm : Option InternalAlarm)
  | onLogEvent (reached : Bool) (elapsedRealtimeNs : Int)

def AlarmStep.run (s : AnomalyAlarm) : AlarmStep → AnomalyAlarm
  | add alarm => s.after (s.mAnomalyAlarmMonitor.add alarm)
  | remove alarm => s.after (s.mAnomalyAlarmMonitor.remove alarm)
  | onLogEvent reached elapsedRealtimeNs => s.onLogEvent reached elapsedRealtimeNs

/-- The alarms waiting in the monitor. -/
def AnomalyAlarm.queued (s : AnomalyAlarm) : Set InternalAlarm := s.mAnomalyAlarmMonitor.mPq.elems

/-- A queued alarm is armed: the processor's next alarm time is set, and it is at most the slack
after every queued alarm, the soonest one included. -/
def AnomalyAlarm.Armed (s : AnomalyAlarm) : Prop :=
  ∀ a ∈ s.queued, s.mNextAnomalyAlarmTime ≠ 0 ∧
    s.mNextAnomalyAlarmTime ≤
      (a.timestampSec.toNat + s.mAnomalyAlarmMonitor.mMinUpdateTimeSec.toNat : Int) * 1000

/-- The condition on a step: a due alarm that finds alarms finds one that is due itself, and adding
an alarm does not wrap the sum it compares with the registered time. -/
def AlarmStep.Ok (s : AnomalyAlarm) : AlarmStep → Prop
  | add (some alarm) =>
    s.mAnomalyAlarmMonitor.mRegisteredAlarmTimeSec = 0 ∨
    alarm.timestampSec.toNat + s.mAnomalyAlarmMonitor.mMinUpdateTimeSec.toNat < 2 ^ 32 ∨
    s.mAnomalyAlarmMonitor.mRegisteredAlarmTimeSec.toNat ≤
      (alarm.timestampSec.toNat + s.mAnomalyAlarmMonitor.mMinUpdateTimeSec.toNat) % 2 ^ 32
  | add none => True
  | remove _ => True
  | onLogEvent reached elapsedRealtimeNs =>
    reached = true → s.isDue elapsedRealtimeNs = true → s.queued.Nonempty →
      ∃ a ∈ s.queued, a.timestampSec.toNat ≤ (AnomalyAlarm.toAlarmSec (NanoToMillis elapsedRealtimeNs)).toNat

/-- What the steps keep: the registered time and the processor's alarm agree, and both are 0 exactly
when nothing is queued. -/
structure AnomalyAlarm.Good (s : AnomalyAlarm) : Prop where
  wf : AlarmQueue.WF s.mAnomalyAlarmMonitor.mPq
  pos : ∀ a ∈ s.queued, 0 < a.timestampSec.toNat
  next : s.mNextAnomalyAlarmTime = s.mAnomalyAlarmMonitor.mRegisteredAlarmTimeSec.toNat * 1000
  zero : s.queued = ∅ → s.mAnomalyAlarmMonitor.mRegisteredAlarmTimeSec = 0
  soon : ∀ a ∈ s.queued, 0 < s.mAnomalyAlarmMonitor.mRegisteredAlarmTimeSec.toNat ∧
    s.mAnomalyAlarmMonitor.mRegisteredAlarmTimeSec.toNat ≤
      a.timestampSec.toNat + s.mAnomalyAlarmMonitor.mMinUpdateTimeSec.toNat

variable {s : AnomalyAlarm}

theorem AnomalyAlarm.Good.armed (h : s.Good) : s.Armed := by
  intro a ha
  have := h.soon a ha
  rw [h.next]
  omega

theorem AnomalyAlarm.good_new (minDiff : UInt32) : (AnomalyAlarm.new minDiff).Good := by
  have he : (AnomalyAlarm.new minDiff).queued = ∅ := IndexedPriorityQueue.elems_new
  refine ⟨IndexedPriorityQueue.wf_new, ?_, by simp [AnomalyAlarm.new, AlarmMonitor.new], fun _ => rfl, ?_⟩
  · intro a ha; rw [he] at ha; exact ha.elim
  · intro a ha; rw [he] at ha; exact ha.elim

theorem AnomalyAlarm.good_update {m : AlarmMonitor} (hwf : AlarmQueue.WF m.mPq)
    (hpos : ∀ a ∈ m.mPq.elems, 0 < a.timestampSec.toNat) {t : InternalAlarm} (ht : t ∈ m.mPq.elems)
    (hsoon : ∀ a ∈ m.mPq.elems, t.timestampSec.toNat ≤ a.timestampSec.toNat + m.mMinUpdateTimeSec.toNat) :
    (s.after (m.updateRegisteredAlarmTime_l t.timestampSec)).Good := by
  refine ⟨hwf, hpos, rfl, ?_, fun a ha => ⟨hpos t ht, hsoon a ha⟩⟩
  intro he
  have : t ∈ (∅ : Set InternalAlarm) := he ▸ ht
  exact this.elim

theorem AnomalyAlarm.good_cancel {m : AlarmMonitor} (hwf : AlarmQueue.WF m.mPq)
    (he : m.mPq.elems = ∅) : (s.after m.cancelRegisteredAlarmTime_l).Good := by
  have hq : (s.after m.cancelRegisteredAlarmTime_l).queued = ∅ := he
  have hnext : (s.after m.cancelRegisteredAlarmTime_l).mNextAnomalyAlarmTime = 0 := rfl
  have hreg : (s.after m.cancelRegisteredAlarmTime_l).mAnomalyAlarmMonitor.mRegisteredAlarmTimeSec = 0 := rfl
  refine ⟨hwf, ?_, by rw [hnext, hreg]; simp, fun _ => hreg, ?_⟩
  · intro a ha; rw [hq] at ha; exact ha.elim
  · intro a ha; rw [hq] at ha; exact ha.elim

theorem AnomalyAlarm.Good.add (h : s.Good) {alarm : Option InternalAlarm}
    (hok : (AlarmStep.add alarm).Ok s) : ((AlarmStep.add alarm).run s).Good := by
  unfold AlarmStep.run AlarmMonitor.add
  cases alarm with
  | none => exact ⟨h.wf, h.pos, h.next, h.zero, h.soon⟩
  | some alarm =>
    dsimp only
    split
    · exact ⟨h.wf, h.pos, h.next, h.zero, h.soon⟩
    rename_i h1
    have h1 : 0 < alarm.timestampSec.toNat := by
      rw [UInt32.lt_iff_toNat_lt] at h1
      have : (1 : UInt32).toNat = 1 := rfl
      omega
    obtain ⟨hwf, hel⟩ := h.wf.push smallerTimestamp_strictWeak alarm
    have hpos : ∀ a ∈ insert alarm s.queued, 0 < a.timestampSec.toNat := by
      rintro a (rfl | ha)
      · exact h1
      · exact h.pos a ha
    split
    · -- the new alarm is registered: nothing was, or it is sooner by more than the slack
      rename_i hc
      refine AnomalyAlarm.good_update hwf (by rw [hel]; exact hpos) (by rw [hel]; exact .inl rfl) ?_
      rw [hel]
      rintro a (rfl | ha)
      · dsimp only; omega
      · have hs := h.soon a ha
        simp only [AlarmStep.Ok] at hok
        rw [UInt32.lt_iff_toNat_lt, UInt32.lt_iff_toNat_lt, UInt32.toNat_add] at hc
        have h0 : (1 : UInt32).toNat = 1 := rfl
        have hz : s.mAnomalyAlarmMonitor.mRegisteredAlarmTimeSec ≠ 0 := by
          intro h0; rw [h0] at hs; simp at hs
        dsimp only at hc ⊢
        rcases hok with hok | hok | hok
        · exact absurd hok hz
        · omega
        · omega
    · -- the registered time is at most the slack after the new alarm
      rename_i hc
      rw [UInt32.lt_iff_toNat_lt, UInt32.lt_iff_toNat_lt, UInt32.toNat_add] at hc
      have h0 : (1 : UInt32).toNat = 1 := rfl
      have hsoon : ∀ a ∈ insert alarm s.queued, 0 < s.mAnomalyAlarmMonitor.mRegisteredAlarmTimeSec.toNat ∧
          s.mAnomalyAlarmMonitor.mRegisteredAlarmTimeSec.toNat ≤
            a.timestampSec.toNat + s.mAnomalyAlarmMonitor.mMinUpdateTimeSec.toNat := by
        rintro a (rfl | ha)
        · have := Nat.mod_le (a.timestampSec.toNat + s.mAnomalyAlarmMonitor.mMinUpdateTimeSec.toNat) (2 ^ 32)
          omega
        · exact h.soon a ha
      refine ⟨hwf, ?_, h.next, ?_, ?_⟩
      · intro a ha; exact hpos a (hel ▸ ha)
      · intro he
        have hmem : alarm ∈ (s.mAnomalyAlarmMonitor.mPq.push smallerTimestamp (some alarm)).elems := by
          rw [hel]; exact Set.mem_insert alarm _
        have : alarm ∈ (∅ : Set InternalAlarm) := he ▸ hmem
        exact this.elim
      · intro a ha; exact hsoon a (hel ▸ ha)

theorem AnomalyAlarm.Good.remove (h : s.Good) (alarm : Option InternalAlarm) :
    ((AlarmStep.remove alarm).run s).Good := by
  unfold AlarmStep.run AlarmMonitor.remove
  cases alarm with
  | none => exact ⟨h.wf, h.pos, h.next, h.zero, h.soon⟩
  | some alarm =>
    obtain ⟨hwf, hel, hpres⟩ := h.wf.remove smallerTimestamp_strictWeak alarm
    have hsub : ∀ a ∈ (s.mAnomalyAlarmMonitor.mPq.remove smallerTimestamp (some alarm)).2.elems, a ∈ s.queued := by
      intro a ha; rw [hel] at ha; exact ha.1
    dsimp only
    split
    · rename_i hnot
      have habs : alarm ∉ s.mAnomalyAlarmMonitor.mPq.elems := by
        rw [← hpres]; simpa using hnot
      rw [Set.sdiff_singleton_eq_self habs] at hel
      refine ⟨hwf, fun a ha => h.pos a (hsub a ha), h.next, ?_, fun a ha => h.soon a (hsub a ha)⟩
      intro he; exact h.zero (hel.symm.trans he)
    · split
      · rename_i ht
        exact AnomalyAlarm.good_cancel hwf (hwf.top_none_iff.1 ht)
      · rename_i soonest ht
        obtain ⟨hm, hmin⟩ := AlarmQueue.top_soonest hwf ht
        split
        · refine AnomalyAlarm.good_update hwf (fun a ha => h.pos a (hsub a ha)) hm fun a ha => ?_
          have := hmin a ha
          dsimp only; omega
        · refine ⟨hwf, fun a ha => h.pos a (hsub a ha), h.next, ?_, fun a ha => h.soon a (hsub a ha)⟩
          intro he
          have : soonest ∈ (∅ : Set InternalAlarm) := he ▸ hm
          exact this.elim

theorem AnomalyAlarm.Good.onLogEvent (h : s.Good) {reached : Bool} {elapsedRealtimeNs : Int}
    (hok : (AlarmStep.onLogEvent reached elapsedRealtimeNs).Ok s) :
    (s.onLogEvent reached elapsedRealtimeNs).Good := by
  unfold AnomalyAlarm.onLogEvent
  split
  · exact h
  rename_i hreached
  split
  · rename_i hdue
    -- what is armed is queued, so the condition gives an alarm to take off
    have hne : s.queued.Nonempty := by
      by_contra hempty
      rw [Set.not_nonempty_iff_eq_empty] at hempty
      have hnext := h.next
      rw [h.zero hempty] at hnext
      simp [AnomalyAlarm.isDue, hnext] at hdue
    obtain ⟨a, ham, hale⟩ := hok (by simpa using hreached) hdue hne
    obtain ⟨hwf, hel, hold⟩ := popLoop_spec (toAlarmSec (NanoToMillis elapsedRealtimeNs)) _ h.wf (le_refl _)
    have hsome := (hold a).2 ⟨ham, hale⟩
    have hsub : ∀ b ∈ (AlarmMonitor.popLoop (toAlarmSec (NanoToMillis elapsedRealtimeNs))
        s.mAnomalyAlarmMonitor.mPq.size s.mAnomalyAlarmMonitor.mPq).2.elems, b ∈ s.queued := by
      intro b hb; rw [hel] at hb; exact hb.1
    unfold informAnomalyAlarmFiredLocked AlarmMonitor.popSoonerThan
    dsimp only
    rw [if_neg (by rw [List.isEmpty_iff]; exact List.ne_nil_of_mem hsome)]
    split
    · rename_i ht
      exact AnomalyAlarm.good_cancel hwf (hwf.top_none_iff.1 ht)
    · rename_i top ht
      obtain ⟨hm, hmin⟩ := AlarmQueue.top_soonest hwf ht
      refine AnomalyAlarm.good_update hwf (fun b hb => h.pos b (hsub b hb)) hm fun b hb => ?_
      have := hmin b hb
      dsimp only; omega
  · exact h

theorem AlarmStep.Ok.good : ∀ {step : AlarmStep}, step.Ok s → s.Good → (step.run s).Good
  | .add _, hok, h => h.add hok
  | .remove alarm, _, h => h.remove alarm
  | .onLogEvent _ _, hok, h => h.onLogEvent hok

/-- In every state of every run whose steps meet the condition, a queued alarm is armed. -/
theorem queued_alarm_armed (minDiff : UInt32) (steps : List AlarmStep)
    (hok : RunOk AlarmStep.run AlarmStep.Ok (AnomalyAlarm.new minDiff) steps) (n : Nat) :
    ((steps.take n).foldl AlarmStep.run (AnomalyAlarm.new minDiff)).Armed :=
  (hok.inv_take (fun _ _ hok h => hok.good h) (AnomalyAlarm.good_new minDiff) n).armed

/-- Two alarms ten seconds apart and an event at the first one's time: the second one is armed. -/
theorem queued_alarm_armed_second :
    let steps : List AlarmStep := [.add (some ⟨0, 10⟩), .add (some ⟨1, 20⟩), .onLogEvent true 10000000000]
    RunOk AlarmStep.run AlarmStep.Ok (AnomalyAlarm.new 5) steps ∧
      (steps.foldl AlarmStep.run (AnomalyAlarm.new 5)).mNextAnomalyAlarmTime ≠ 0 ∧
      (steps.foldl AlarmStep.run (AnomalyAlarm.new 5)).mNextAnomalyAlarmTime ≤ 25000 := by
  intro steps
  have hok : RunOk AlarmStep.run AlarmStep.Ok (AnomalyAlarm.new 5) steps :=
    ⟨.inl rfl, .inr (.inl (by decide +kernel)),
      fun _ _ _ => ⟨⟨0, 10⟩, ⟨1, by decide +kernel⟩, by decide +kernel⟩, trivial⟩
  have h := queued_alarm_armed 5 steps hok 3 ⟨1, 20⟩ ⟨1, by decide +kernel⟩
  rw [show steps.take 3 = steps from rfl] at h
  refine ⟨hok, h.1, le_trans h.2 ?_⟩
  decide +kernel

/-- The registered alarm's time comes after its alarm was removed: the event clears it, finds only
an alarm two seconds later, and leaves that one queued with nothing armed. -/
theorem removed_alarm_disarms :
    let steps : List AlarmStep :=
      [.add (some ⟨0, 10⟩), .add (some ⟨1, 12⟩), .remove (some ⟨0, 10⟩), .onLogEvent true 10000000000]
    ¬ (steps.foldl AlarmStep.run (AnomalyAlarm.new 5)).Armed := by
  intro steps h
  have := h ⟨1, 12⟩ ⟨1, by decide +kernel⟩
  exact this.1 (by decide +kernel)

end Statsd.Anomaly
