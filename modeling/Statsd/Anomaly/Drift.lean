/-
The drift of the registered alarm time. The monitor registers a new time only when the soonest alarm
moved by more than the slack; over any sequence of operations the registered time stays within the slack
of the soonest alarm on both sides, and it is 0 exactly when no alarm is queued.

Alarm times are those whose sum with the slack fits in 32 bits.
-/
import Statsd.Anomaly.Armed

namespace Statsd.Anomaly

open InternalAlarm

/-- The operations on a monitor. -/
inductive MonitorStep where
  | add (alarm : Option InternalAlarm)
  | remove (alarm : Option InternalAlarm)
  | popSoonerThan (timestampSec : UInt32)
  | setStatsCompanionService (attached : Bool)

def MonitorStep.run (m : AlarmMonitor) : MonitorStep → AlarmMonitor
  | add alarm => (m.add alarm).1
  | remove alarm => (m.remove alarm).1
  | popSoonerThan timestampSec => (m.popSoonerThan timestampSec).2.1
  | setStatsCompanionService attached => (m.setStatsCompanionService attached).1

/-- An added alarm's time and the slack do not wrap. -/
def MonitorStep.Fits (slack : UInt32) : MonitorStep → Prop
  | add (some alarm) => alarm.timestampSec.toNat + slack.toNat < 2 ^ 32
  | _ => True

namespace AlarmMonitor

/-- The soonest queued alarms. -/
def Soonest (m : AlarmMonitor) (a : InternalAlarm) : Prop :=
  a ∈ m.mPq.elems ∧ ∀ b ∈ m.mPq.elems, a.timestampSec.toNat ≤ b.timestampSec.toNat

/-- The registered time is within the slack of a time. -/
def Near (m : AlarmMonitor) (time : Nat) : Prop :=
  m.mRegisteredAlarmTimeSec.toNat ≤ time + m.mMinUpdateTimeSec.toNat ∧
    time ≤ m.mRegisteredAlarmTimeSec.toNat + m.mMinUpdateTimeSec.toNat

/-- What the operations keep. -/
structure Drift (slack : UInt32) (m : AlarmMonitor) : Prop where
  wf : AlarmQueue.WF m.mPq
  min : m.mMinUpdateTimeSec = slack
  fits : ∀ a ∈ m.mPq.elems, 0 < a.timestampSec.toNat ∧ a.timestampSec.toNat + slack.toNat < 2 ^ 32
  registered : m.mRegisteredAlarmTimeSec.toNat + slack.toNat < 2 ^ 32
  zero : m.mRegisteredAlarmTimeSec = 0 ↔ m.mPq.elems = ∅
  near : ∀ a, m.Soonest a → m.Near a.timestampSec.toNat

variable {slack : UInt32} {m : AlarmMonitor}

theorem drift_new : Drift slack (new slack) := by
  have hlt := slack.toNat_lt
  have he : (new slack).mPq.elems = ∅ := IndexedPriorityQueue.elems_new
  refine ⟨IndexedPriorityQueue.wf_new, rfl, fun a ha => ?_, ?_, ⟨fun _ => he, fun _ => rfl⟩, fun a ha => ?_⟩
  · rw [he] at ha; exact ha.elim
  · show 0 + slack.toNat < 2 ^ 32
    omega
  · have := ha.1
    rw [he] at this; exact this.elim

theorem drift_update (hwf : AlarmQueue.WF m.mPq) (hslack : m.mMinUpdateTimeSec = slack)
    (hfits : ∀ a ∈ m.mPq.elems, 0 < a.timestampSec.toNat ∧ a.timestampSec.toNat + slack.toNat < 2 ^ 32) {t : InternalAlarm}
    (ht : m.Soonest t) : Drift slack (m.updateRegisteredAlarmTime_l t.timestampSec).1 := by
  refine ⟨hwf, hslack, hfits, (hfits t ht.1).2, ⟨fun h0 => ?_, fun he => ?_⟩, fun a ha => ?_⟩
  · have hpos := (hfits t ht.1).1
    rw [show t.timestampSec = 0 from h0] at hpos
    exact absurd hpos (lt_irrefl 0)
  · have : t ∈ (∅ : Set InternalAlarm) := he ▸ ht.1
    exact this.elim
  · have h1 := ht.2 a ha.1
    have h2 := ha.2 t ht.1
    unfold Near updateRegisteredAlarmTime_l
    dsimp only
    omega

theorem drift_cancel (hwf : AlarmQueue.WF m.mPq) (hslack : m.mMinUpdateTimeSec = slack) (he : m.mPq.elems = ∅) :
    Drift slack m.cancelRegisteredAlarmTime_l.1 := by
  have hlt := slack.toNat_lt
  refine ⟨hwf, hslack, fun a ha => ?_, ?_, ⟨fun _ => he, fun _ => rfl⟩, fun a ha => ?_⟩
  · have ha : a ∈ m.mPq.elems := ha
    rw [he] at ha; exact ha.elim
  · show 0 + slack.toNat < 2 ^ 32
    omega
  · have ha : a ∈ m.mPq.elems := ha.1
    rw [he] at ha; exact ha.elim

theorem soonest_top (hwf : AlarmQueue.WF m.mPq) {t : InternalAlarm} (ht : m.mPq.top = some t) : m.Soonest t :=
  AlarmQueue.top_soonest hwf ht

theorem Drift.add (h : Drift slack m) {alarm : Option InternalAlarm} (hok : (MonitorStep.add alarm).Fits slack) :
    Drift slack (m.add alarm).1 := by
  unfold AlarmMonitor.add
  cases alarm with
  | none => exact h
  | some alarm =>
    dsimp only
    split
    · exact h
    rename_i h1
    have hone : (1 : UInt32).toNat = 1 := rfl
    have hpos : 0 < alarm.timestampSec.toNat := by
      rw [UInt32.lt_iff_toNat_lt] at h1
      omega
    have hfit : alarm.timestampSec.toNat + slack.toNat < 2 ^ 32 := hok
    obtain ⟨hwf, hel⟩ := h.wf.push smallerTimestamp_strictWeak alarm
    have hfits : ∀ a ∈ insert alarm m.mPq.elems, 0 < a.timestampSec.toNat ∧ a.timestampSec.toNat + slack.toNat < 2 ^ 32 := by
      rintro a (rfl | ha)
      · exact ⟨hpos, hfit⟩
      · exact h.fits a ha
    have hs := h.min
    -- the sum that is compared with the registered time does not wrap
    have hsum : (alarm.timestampSec + m.mMinUpdateTimeSec).toNat = alarm.timestampSec.toNat + slack.toNat := by
      rw [UInt32.toNat_add, hs]
      exact Nat.mod_eq_of_lt hfit
    split
    · rename_i hc
      refine drift_update (m := { m with mPq := m.mPq.push smallerTimestamp (some alarm) }) hwf hs
        (by rw [hel]; exact hfits) ⟨by rw [hel]; exact .inl rfl, ?_⟩
      rw [hel]
      rintro b (rfl | hb)
      · exact le_refl _
      -- a queued alarm that is sooner than the new one keeps it from being registered
      have hne : m.mRegisteredAlarmTimeSec ≠ 0 := by
        intro h0
        rw [h.zero.1 h0] at hb
        exact hb.elim
      have hreg : 0 < m.mRegisteredAlarmTimeSec.toNat := by
        by_contra hz
        exact hne (UInt32.toNat_inj.1 (show _ = (0 : UInt32).toNat by show _ = 0; omega))
      cases htop : m.mPq.top with
      | none =>
        rw [h.wf.top_none_iff.1 htop] at hb
        exact hb.elim
      | some t =>
        have htm := soonest_top h.wf htop
        have hnear := (h.near t htm).1
        have hle := htm.2 b hb
        rw [UInt32.lt_iff_toNat_lt, UInt32.lt_iff_toNat_lt, hsum] at hc
        rw [hs] at hnear
        omega
    · rename_i hc
      rw [UInt32.lt_iff_toNat_lt, UInt32.lt_iff_toNat_lt, hsum] at hc
      refine ⟨hwf, hs, by rw [hel]; exact hfits, h.registered, ⟨fun h0 => ?_, fun he => ?_⟩, fun a ha => ?_⟩
      · rw [show m.mRegisteredAlarmTimeSec = 0 from h0] at hc
        exact absurd (.inl (by decide)) hc
      · have hmem : alarm ∈ (m.mPq.push smallerTimestamp (some alarm)).elems := by
          rw [hel]; exact Set.mem_insert alarm _
        have : alarm ∈ (∅ : Set InternalAlarm) := he ▸ hmem
        exact this.elim
      · obtain ⟨hm, hmin⟩ := ha
        rw [hel] at hm hmin
        have hle := hmin alarm (Set.mem_insert alarm _)
        unfold Near
        dsimp only
        -- the new soonest alarm is the new one or the old soonest
        rcases hm with rfl | hm
        · refine ⟨by rw [hs]; omega, ?_⟩
          cases htop : m.mPq.top with
          | none =>
            have hzero := h.zero.2 (h.wf.top_none_iff.1 htop)
            rw [hzero] at hc
            exact absurd (.inl (by decide)) hc
          | some t =>
            have htm := soonest_top h.wf htop
            have := (h.near t htm).2
            have := hmin t (Set.mem_insert_of_mem _ htm.1)
            omega
        · exact h.near a ⟨hm, fun b hb => hmin b (Set.mem_insert_of_mem _ hb)⟩

theorem Drift.remove (h : Drift slack m) (alarm : Option InternalAlarm) : Drift slack (m.remove alarm).1 := by
  unfold AlarmMonitor.remove
  cases alarm with
  | none => exact h
  | some alarm =>
    obtain ⟨hwf, hel, hpres⟩ := h.wf.remove smallerTimestamp_strictWeak alarm
    have hsub : ∀ a ∈ (m.mPq.remove smallerTimestamp (some alarm)).2.elems, a ∈ m.mPq.elems := by
      intro a ha; rw [hel] at ha; exact ha.1
    dsimp only
    split
    · rename_i hnot
      have habs : alarm ∉ m.mPq.elems := by rw [← hpres]; simpa using hnot
      rw [Set.sdiff_singleton_eq_self habs] at hel
      refine ⟨hwf, h.min, fun a ha => h.fits a (hsub a ha), h.registered, by rw [hel]; exact h.zero, fun a ha => ?_⟩
      refine h.near a ⟨hsub a ha.1, fun b hb => ha.2 b ?_⟩
      rw [hel]; exact hb
    · split
      · rename_i ht
        exact drift_cancel hwf h.min (hwf.top_none_iff.1 ht)
      · rename_i soonest ht
        have htm := soonest_top (m := { m with mPq := (m.mPq.remove smallerTimestamp (some alarm)).2 }) hwf ht
        split
        · exact drift_update (m := { m with mPq := (m.mPq.remove smallerTimestamp (some alarm)).2 }) hwf h.min
            (fun a ha => h.fits a (hsub a ha)) htm
        · rename_i hc
          have hsum : (m.mRegisteredAlarmTimeSec + m.mMinUpdateTimeSec).toNat =
              m.mRegisteredAlarmTimeSec.toNat + m.mMinUpdateTimeSec.toNat := by
            rw [UInt32.toNat_add, h.min]
            exact Nat.mod_eq_of_lt h.registered
          rw [gt_iff_lt, UInt32.lt_iff_toNat_lt, hsum] at hc
          refine ⟨hwf, h.min, fun a ha => h.fits a (hsub a ha), h.registered, ⟨fun h0 => ?_, fun he => ?_⟩, fun a ha => ?_⟩
          · have hm := hsub soonest htm.1
            rw [h.zero.1 h0] at hm
            exact hm.elim
          · have : soonest ∈ (∅ : Set InternalAlarm) := he ▸ htm.1
            exact this.elim
          · have h1 := ha.2 soonest htm.1
            have h2 := htm.2 a ha.1
            unfold Near
            dsimp only
            refine ⟨?_, by omega⟩
            -- the soonest alarm of the whole queue was no later
            cases htop : m.mPq.top with
            | none =>
              have hm := hsub a ha.1
              rw [h.wf.top_none_iff.1 htop] at hm
              exact hm.elim
            | some t =>
              have ht := soonest_top h.wf htop
              have h3 := (h.near t ht).1
              have h4 := ht.2 a (hsub a ha.1)
              omega

theorem popSoonerThan_spec (h : AlarmQueue.WF m.mPq) (timestampSec : UInt32) :
    (∀ a, a ∈ (m.popSoonerThan timestampSec).1 ↔ a ∈ m.mPq.elems ∧ a.timestampSec.toNat ≤ timestampSec.toNat) ∧
      (m.popSoonerThan timestampSec).2.1.mPq.elems = {a ∈ m.mPq.elems | timestampSec.toNat < a.timestampSec.toNat} := by
  obtain ⟨-, hel, hold⟩ := popLoop_spec timestampSec _ h (le_refl _)
  unfold AlarmMonitor.popSoonerThan
  dsimp only
  split
  · exact ⟨hold, hel⟩
  · split <;> exact ⟨hold, hel⟩

theorem Drift.popSoonerThan (h : Drift slack m) (timestampSec : UInt32) :
    Drift slack (m.popSoonerThan timestampSec).2.1 := by
  obtain ⟨hwf, hel, hold⟩ := popLoop_spec timestampSec _ h.wf (le_refl _)
  have hsub : ∀ b ∈ (AlarmMonitor.popLoop timestampSec m.mPq.size m.mPq).2.elems, b ∈ m.mPq.elems := by
    intro b hb; rw [hel] at hb; exact hb.1
  unfold AlarmMonitor.popSoonerThan
  dsimp only
  split
  · rename_i hnone
    -- nothing was due, so the queue is the same
    have hsame : (AlarmMonitor.popLoop timestampSec m.mPq.size m.mPq).2.elems = m.mPq.elems := by
      rw [hel]
      ext a
      refine ⟨fun ha => ha.1, fun ha => ⟨ha, ?_⟩⟩
      by_contra hle
      have := (hold a).2 ⟨ha, by omega⟩
      rw [List.isEmpty_iff.1 hnone] at this
      exact absurd this List.not_mem_nil
    refine ⟨hwf, h.min, fun a ha => h.fits a (hsub a ha), h.registered, ?_, fun a ha => ?_⟩
    · rw [show _ = m.mPq.elems from hsame]; exact h.zero
    · refine h.near a ⟨hsub a ha.1, fun b hb => ha.2 b ?_⟩
      rw [show _ = m.mPq.elems from hsame]; exact hb
  · split
    · rename_i ht
      exact drift_cancel hwf h.min (hwf.top_none_iff.1 ht)
    · rename_i top ht
      exact drift_update (m := { m with mPq := (AlarmMonitor.popLoop timestampSec m.mPq.size m.mPq).2 }) hwf h.min
        (fun b hb => h.fits b (hsub b hb)) (soonest_top hwf ht)

theorem Drift.setStatsCompanionService (h : Drift slack m) (attached : Bool) :
    Drift slack (m.setStatsCompanionService attached).1 := by
  have hset : Drift slack { m with mStatsCompanionService := attached } :=
    ⟨h.wf, h.min, h.fits, h.registered, h.zero, h.near⟩
  unfold AlarmMonitor.setStatsCompanionService
  dsimp only
  split
  · exact hset
  · split
    · rename_i top ht
      exact drift_update (m := { m with mStatsCompanionService := attached }) h.wf h.min h.fits (soonest_top h.wf ht)
    · exact hset

end AlarmMonitor

theorem MonitorStep.Fits.drift {slack : UInt32} {m : AlarmMonitor} :
    ∀ {step : MonitorStep}, step.Fits slack → AlarmMonitor.Drift slack m → AlarmMonitor.Drift slack (step.run m)
  | .add _, hok, h => h.add hok
  | .remove alarm, _, h => h.remove alarm
  | .popSoonerThan timestampSec, _, h => h.popSoonerThan timestampSec
  | .setStatsCompanionService attached, _, h => h.setStatsCompanionService attached

/-- After every operation of every sequence: the registered time is 0 exactly when no alarm is queued, and
otherwise within the slack of the soonest alarm; and alarms are taken off exactly when they are due. -/
theorem registered_time_near_soonest (slack : UInt32) (steps : List MonitorStep) (hfits : ∀ s ∈ steps, s.Fits slack) (n : Nat) :
    let m := (steps.take n).foldl MonitorStep.run (.new slack)
    (m.mRegisteredAlarmTimeSec = 0 ↔ m.mPq.elems = ∅) ∧
    (∀ a, m.Soonest a → m.mRegisteredAlarmTimeSec.toNat ≤ a.timestampSec.toNat + slack.toNat ∧
      a.timestampSec.toNat ≤ m.mRegisteredAlarmTimeSec.toNat + slack.toNat) ∧
    ∀ t, (∀ a, a ∈ (m.popSoonerThan t).1 ↔ a ∈ m.mPq.elems ∧ a.timestampSec.toNat ≤ t.toNat) ∧
      (m.popSoonerThan t).2.1.mPq.elems = {a ∈ m.mPq.elems | t.toNat < a.timestampSec.toNat} := by
  intro m
  have hrun : RunOk MonitorStep.run (fun _ s => s.Fits slack) (.new slack) steps := by
    generalize AlarmMonitor.new slack = m0
    induction steps generalizing m0 with
    | nil => trivial
    | cons s steps ih =>
      exact ⟨hfits s List.mem_cons_self, ih (fun s' hs' => hfits s' (List.mem_cons_of_mem s hs')) _⟩
  have h : AlarmMonitor.Drift slack m :=
    hrun.inv_take (fun _ _ hok h => hok.drift h) AlarmMonitor.drift_new n
  refine ⟨h.zero, fun a ha => ?_, fun t => AlarmMonitor.popSoonerThan_spec h.wf t⟩
  have := h.near a ha
  unfold AlarmMonitor.Near at this
  rwa [h.min] at this

/-- Two alarms three seconds apart under a slack of five; the first is removed, and the time registered for
it stays. -/
theorem registered_time_near_soonest_removed :
    let steps : List MonitorStep := [.add (some ⟨0, 10⟩), .add (some ⟨1, 13⟩), .remove (some ⟨0, 10⟩)]
    let m := steps.foldl MonitorStep.run (.new 5)
    (∀ s ∈ steps, s.Fits 5) ∧ m.Soonest ⟨1, 13⟩ ∧ m.mRegisteredAlarmTimeSec = 10 ∧
      (13 : Nat) ≤ m.mRegisteredAlarmTimeSec.toNat + 5 := by
  intro steps m
  have hfits : ∀ s ∈ steps, s.Fits 5 := by
    simp only [steps, List.mem_cons, List.not_mem_nil, or_false]
    rintro s (rfl | rfl | rfl)
    · show (10 : UInt32).toNat + (5 : UInt32).toNat < 2 ^ 32
      decide
    · show (13 : UInt32).toNat + (5 : UInt32).toNat < 2 ^ 32
      decide
    · trivial
  have hsoonest : m.Soonest ⟨1, 13⟩ := by
    have hpq : m.mPq.pq = [none, some ⟨1, 13⟩] := by decide +kernel
    refine ⟨⟨1, by decide +kernel⟩, ?_⟩
    rintro b ⟨i, hi⟩
    unfold IndexedPriorityQueue.slot at hi
    rw [hpq] at hi
    match i, hi with
    | 0, hi => cases hi
    | 1, hi => cases hi; exact le_refl _
    | _ + 2, hi => cases hi
  exact ⟨hfits, hsoonest, by decide +kernel, ((registered_time_near_soonest 5 steps hfits 3).2.1 _ hsoonest).2⟩

end Statsd.Anomaly
