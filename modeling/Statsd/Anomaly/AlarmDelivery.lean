/-
Duration anomaly trackers that share an alarm monitor, with the delivery of fired alarms in two steps: a
set of alarms is taken off the monitor's queue, and later every tracker is told of it. Between the two
steps, and between one tracker and the next, the trackers go on starting and stopping alarms, and more sets
may be taken off the queue.

An alarm of a tracker is in the queue unless it is in a set that the tracker has not been told of; two
trackers or keys never have one alarm; and an alarm that was declared belongs to no tracker, so no alarm is
declared twice.
-/
import Statsd.Anomaly.DurationAnomalyTracker

namespace Statsd.Anomaly

variable {K : Type} [DecidableEq K]

/-! ## One tracker -/

namespace DurationAnomalyTracker

variable (t : DurationAnomalyTracker K)

variable {monitor : AlarmMonitor}

/-- A start in the refractory period does nothing; another gives the key a new alarm in place of an old one, in the tracker
and, unless its time is zero, in the queue. -/
theorem startAlarm_spec (h : AlarmQueue.WF monitor.mPq)
    (ref : Nat) (key : K) (timestampNs : Int) :
    (t.isInRefractoryPeriod timestampNs key = true ∧ t.startAlarm monitor ref key timestampNs = (t, monitor)) ∨
      (∀ key', (t.startAlarm monitor ref key timestampNs).1.mAlarms.lookup key' =
        if key' = key then some ⟨ref, alarmSec timestampNs⟩ else t.mAlarms.lookup key') ∧
      AlarmQueue.WF (t.startAlarm monitor ref key timestampNs).2.mPq ∧
      ∀ a, a ∈ (t.startAlarm monitor ref key timestampNs).2.mPq.elems ↔
        a = ⟨ref, alarmSec timestampNs⟩ ∧ ¬ alarmSec timestampNs < 1 ∨ a ∈ monitor.mPq.elems ∧ t.mAlarms.lookup key ≠ some a := by
  -- the new alarm goes to the queue of any monitor
  have hadd : ∀ {m : AlarmMonitor}, AlarmQueue.WF m.mPq → AlarmQueue.WF (m.add (some ⟨ref, alarmSec timestampNs⟩)).1.mPq ∧
      ∀ a, a ∈ (m.add (some ⟨ref, alarmSec timestampNs⟩)).1.mPq.elems ↔
        a = ⟨ref, alarmSec timestampNs⟩ ∧ ¬ alarmSec timestampNs < 1 ∨ a ∈ m.mPq.elems := by
    intro m hm
    by_cases hsec : alarmSec timestampNs < 1
    · unfold AlarmMonitor.add
      dsimp only
      rw [if_pos hsec]
      exact ⟨hm, fun a => by simp [hsec]⟩
    · obtain ⟨hwf, hel⟩ := AlarmMonitor.add_queue hm ⟨ref, alarmSec timestampNs⟩ hsec
      refine ⟨hwf, fun a => ?_⟩
      rw [hel]
      simp [hsec]
  unfold startAlarm
  dsimp only
  by_cases href : t.isInRefractoryPeriod timestampNs key = true
  · rw [if_pos href]
    exact .inl ⟨href, rfl⟩
  · rw [if_neg href]
    refine .inr ⟨fun key' => UMap.lookup_insert' .., ?_⟩
    cases hlook : t.mAlarms.lookup key with
    | none =>
      obtain ⟨hwf, hel⟩ := hadd h
      refine ⟨hwf, fun a => ?_⟩
      rw [hel]
      simp
    | some old =>
      obtain ⟨hwf, hel⟩ := AlarmMonitor.remove_queue h old
      obtain ⟨hwf', hel'⟩ := hadd hwf
      refine ⟨hwf', fun a => ?_⟩
      rw [hel', hel]
      simp [eq_comm]

@[simp] theorem startAlarm_toAnomalyTracker (monitor : AlarmMonitor) (ref : Nat) (key : K)
    (timestampNs : Int) : (t.startAlarm monitor ref key timestampNs).1.toAnomalyTracker = t.toAnomalyTracker := by
  unfold startAlarm
  dsimp only
  split <;> rfl

/-- A stop takes the key's alarm, if there is one, out of the tracker and the queue, and declares it at most
once. -/
theorem stopAlarm_spec (h : AlarmQueue.WF monitor.mPq)
    (key : K) (timestampNs : Int) :
    (∀ key', (t.stopAlarm monitor key timestampNs).1.mAlarms.lookup key' =
      if key' = key then none else t.mAlarms.lookup key') ∧
    AlarmQueue.WF (t.stopAlarm monitor key timestampNs).2.1.mPq ∧
    (∀ a, a ∈ (t.stopAlarm monitor key timestampNs).2.1.mPq.elems ↔
      a ∈ monitor.mPq.elems ∧ t.mAlarms.lookup key ≠ some a) ∧
    ((t.stopAlarm monitor key timestampNs).2.2 = [] ∨ ∃ a declared, t.mAlarms.lookup key = some a ∧
      (t.stopAlarm monitor key timestampNs).2.2 = [⟨key, a, declared⟩]) := by
  unfold stopAlarm
  cases hlook : t.mAlarms.lookup key with
  | none =>
    refine ⟨fun key' => ?_, h, fun a => by simp, .inl rfl⟩
    by_cases hk : key' = key
    · rw [if_pos hk, hk]
      exact hlook
    · rw [if_neg hk]
  | some alarm =>
    obtain ⟨hwf, hel⟩ := AlarmMonitor.remove_queue h alarm
    dsimp only
    refine ⟨fun key' => ?_, hwf, fun a => ?_, ?_⟩
    · rw [← UMap.lookup_erase']
      split <;> rfl
    · rw [hel]
      simp [eq_comm]
    · split
      · exact .inr ⟨alarm, _, rfl, rfl⟩
      · exact .inl rfl

theorem stopAlarm_due (monitor : AlarmMonitor) {key : K} {timestampNs : Int} {a : InternalAlarm}
    (ha : t.mAlarms.lookup key = some a) (hdue : NS_PER_SEC * a.timestampSec.toNat ≤ timestampNs)
    (hover : t.isInRefractoryPeriod timestampNs key = false) : (t.stopAlarm monitor key timestampNs).2.2 = [⟨key, a, true⟩] := by
  have hdeclared : (t.declareAnomaly timestampNs key).1 = true := by
    unfold AnomalyTracker.declareAnomaly
    rw [hover, if_neg Bool.false_ne_true]
    split <;> rfl
  unfold stopAlarm declareAlarm
  rw [ha]
  dsimp only
  rw [if_pos hdue, hdeclared]

@[simp] theorem stopAlarm_mAlert (monitor : AlarmMonitor) (key : K) (timestampNs : Int) :
    (t.stopAlarm monitor key timestampNs).1.mAlert = t.mAlert := by
  have hdeclare : (t.declareAnomaly timestampNs key).2.mAlert = t.mAlert := by
    unfold AnomalyTracker.declareAnomaly
    split
    · rfl
    · split <;> rfl
  unfold stopAlarm declareAlarm
  split
  · rfl
  · dsimp only
    split
    · exact hdeclare
    · rfl

theorem cancelAllAlarms_spec (h : AlarmQueue.WF monitor.mPq) :
    AlarmQueue.WF (t.cancelAllAlarms monitor).2.mPq ∧
    ∀ a, a ∈ (t.cancelAllAlarms monitor).2.mPq.elems ↔
      a ∈ monitor.mPq.elems ∧ ∀ key, t.mAlarms.lookup key ≠ some a := by
  have hfold : (t.cancelAllAlarms monitor).2 =
      (t.mAlarms.entries.map (·.2)).foldl (fun m a => (m.remove (some a)).1) monitor := by
    unfold cancelAllAlarms
    rw [List.foldl_map]
  obtain ⟨hwf, hmem⟩ := AlarmMonitor.removeAll_queue (t.mAlarms.entries.map (·.2)) h
  rw [hfold]
  refine ⟨hwf, fun a => ?_⟩
  rw [hmem]
  refine and_congr_right fun _ => ?_
  constructor
  · intro hnot key hkey
    exact hnot (List.mem_map.2 ⟨⟨key, a⟩, AList.mem_lookup_iff.1 hkey, rfl⟩)
  · rintro hnot hin
    obtain ⟨kv, hkv, rfl⟩ := List.mem_map.1 hin
    exact hnot kv.1 (AList.mem_lookup_iff.2 hkv)

theorem foldl_fire (timestampNs : Int) (l : List (Sigma fun _ : K => InternalAlarm)) (r : Informed K) :
    (∀ key, (l.foldl (Informed.fire timestampNs) r).tracker.mAlarms.lookup key =
      if key ∈ l.keys then none else r.tracker.mAlarms.lookup key) ∧
    (∀ a, a ∈ (l.foldl (Informed.fire timestampNs) r).firedAlarms ↔ a ∈ r.firedAlarms ∧ a ∉ l.map (·.2)) ∧
    (l.foldl (Informed.fire timestampNs) r).declarations.map (fun d => (d.key, d.alarm)) =
      r.declarations.map (fun d => (d.key, d.alarm)) ++ l.map fun kv => (kv.1, kv.2) := by
  induction l generalizing r with
  | nil => exact ⟨fun key => by simp, fun a => by simp, by simp⟩
  | cons kv l ih =>
    obtain ⟨hlook, hfired, hdecl⟩ := ih (r.fire timestampNs kv)
    rw [List.foldl_cons]
    refine ⟨fun key => ?_, fun a => ?_, ?_⟩
    · rw [hlook]
      have herase : (r.fire timestampNs kv).tracker.mAlarms.lookup key =
          if key = kv.1 then none else r.tracker.mAlarms.lookup key := UMap.lookup_erase' ..
      rw [herase, List.keys_cons]
      by_cases hk : key = kv.1
      · simp [hk]
      · simp [hk]
    · rw [hfired]
      have hfilter : (r.fire timestampNs kv).firedAlarms = r.firedAlarms.filter (· ≠ kv.2) := rfl
      rw [hfilter, List.mem_filter, List.map_cons, List.mem_cons, not_or]
      simp [and_assoc]
    · rw [hdecl]
      have happend : (r.fire timestampNs kv).declarations =
          r.declarations ++ [(r.tracker.declareAlarm timestampNs kv.1 kv.2).2] := rfl
      rw [happend, List.map_append, List.append_assoc]
      rfl

/-- Being told of fired alarms takes those the tracker has out of the tracker and the set, and declares each
of them once. -/
theorem informAlarmsFired_spec (timestampNs : Int) (firedAlarms : List InternalAlarm) :
    (∀ key a, (t.informAlarmsFired timestampNs firedAlarms).tracker.mAlarms.lookup key = some a ↔
      t.mAlarms.lookup key = some a ∧ a ∉ firedAlarms) ∧
    (∀ a, a ∈ (t.informAlarmsFired timestampNs firedAlarms).firedAlarms ↔
      a ∈ firedAlarms ∧ ∀ key, t.mAlarms.lookup key ≠ some a) ∧
    ∃ matched : List (Sigma fun _ : K => InternalAlarm), matched.NodupKeys ∧
      (∀ kv ∈ matched, t.mAlarms.lookup kv.1 = some kv.2 ∧ kv.2 ∈ firedAlarms) ∧
      (t.informAlarmsFired timestampNs firedAlarms).declarations.map (fun d => (d.key, d.alarm)) =
        matched.map fun kv => (kv.1, kv.2) := by
  unfold informAlarmsFired
  split
  · rename_i hnone
    -- no alarm has fired, or the tracker has none
    have hdisj : ∀ key a, t.mAlarms.lookup key = some a → a ∉ firedAlarms := by
      intro key a hlook hfired
      rw [Bool.or_eq_true, List.isEmpty_iff, List.isEmpty_iff] at hnone
      rcases hnone with hnone | hnone
      · rw [hnone] at hfired
        cases hfired
      · have hmem := AList.mem_lookup_iff.1 hlook
        rw [hnone] at hmem
        cases hmem
    refine ⟨fun key a => ?_, fun a => ?_, [], List.nodupKeys_nil, fun _ h => (List.not_mem_nil h).elim, rfl⟩
    · exact ⟨fun h => ⟨h, hdisj key a h⟩, fun h => h.1⟩
    · exact ⟨fun h => ⟨h, fun key hlook => hdisj key a hlook h⟩, fun h => h.1⟩
  · dsimp only
    obtain ⟨hlook, hfired, hdecl⟩ := foldl_fire timestampNs (t.mAlarms.filterVal (· ∈ firedAlarms)).entries
      ⟨t, firedAlarms, []⟩
    have hmatched : ∀ key a, (⟨key, a⟩ : Sigma fun _ : K => InternalAlarm) ∈
        (t.mAlarms.filterVal (· ∈ firedAlarms)).entries ↔ t.mAlarms.lookup key = some a ∧ a ∈ firedAlarms := by
      intro key a
      rw [← AList.mem_lookup_iff, UMap.lookup_filterVal, Option.mem_def, Option.filter_eq_some_iff]
      simp
    refine ⟨fun key a => ?_, fun a => ?_, (t.mAlarms.filterVal (· ∈ firedAlarms)).entries,
      (t.mAlarms.filterVal (· ∈ firedAlarms)).nodupKeys, fun kv hkv => (hmatched kv.1 kv.2).1 hkv, ?_⟩
    · rw [hlook]
      have hkeys : key ∈ (t.mAlarms.filterVal (· ∈ firedAlarms)).entries.keys ↔
          ∃ b, t.mAlarms.lookup key = some b ∧ b ∈ firedAlarms := by
        rw [List.mem_keys]
        exact exists_congr fun b => hmatched key b
      split
      · rename_i hin
        obtain ⟨b, hb, hbf⟩ := hkeys.1 hin
        rw [hb]
        refine iff_of_false (fun h => by cases h) ?_
        rintro ⟨hba, hnot⟩
        exact hnot (Option.some.inj hba ▸ hbf)
      · rename_i hno
        exact ⟨fun h => ⟨h, fun hf => hno (hkeys.2 ⟨a, h, hf⟩)⟩, fun h => h.1⟩
    · rw [hfired]
      refine and_congr_right fun hf => ?_
      constructor
      · intro hnot key hkey
        exact hnot (List.mem_map.2 ⟨⟨key, a⟩, (hmatched key a).2 ⟨hkey, hf⟩, rfl⟩)
      · rintro hnot hin
        obtain ⟨kv, hkv, rfl⟩ := List.mem_map.1 hin
        exact hnot kv.1 ((hmatched kv.1 kv.2).1 hkv).1
    · rw [hdecl]
      rfl

end DurationAnomalyTracker

/-! ## The trackers, the monitor and the sets on their way -/

/-- A set of fired alarms: what is left of it, and the trackers that were told. -/
structure Delivery where
  firedAlarms : List InternalAlarm
  told : List Nat

structure AlarmSystem (K : Type) where
  mAlarmMonitor : AlarmMonitor
  trackers : List (DurationAnomalyTracker K)
  /-- The address of the next alarm. -/
  nextRef : Nat
  /-- All sets taken off the queue so far. -/
  deliveries : List Delivery
  declarations : List (Declaration K)

inductive AlarmOp (K : Type) where
  | startAlarm (i : Nat) (key : K) (timestampNs : Int)
  | stopAlarm (i : Nat) (key : K) (timestampNs : Int)
  | cancelAllAlarms (i : Nat)
  | popSoonerThan (timestampSec : UInt32)
  | informAlarmsFired (d i : Nat) (timestampNs : Int)

/-- The time of an alarm, rounded up to seconds, is in (0, 2^32). -/
def AlarmOp.InRange : AlarmOp K → Prop
  | startAlarm _ _ timestampNs =>
    0 < (timestampNs - 1).tdiv NS_PER_SEC + 1 ∧ (timestampNs - 1).tdiv NS_PER_SEC + 1 < 2 ^ 32
  | stopAlarm _ _ _ | cancelAllAlarms _ | popSoonerThan _ | informAlarmsFired _ _ _ => True

namespace AlarmSystem

/-- Some trackers without alarms and a new monitor. -/
def new (minDiffToUpdateRegisteredAlarmTimeSec : UInt32) (trackers : List (AnomalyTracker K)) : AlarmSystem K where
  mAlarmMonitor := .new minDiffToUpdateRegisteredAlarmTimeSec
  trackers := trackers.map fun t => { t with mAlarms := ∅ }
  nextRef := 0
  deliveries := []
  declarations := []

def step (s : AlarmSystem K) : AlarmOp K → AlarmSystem K
  | .startAlarm i key timestampNs =>
    match s.trackers[i]? with
    | none => s
    | some t =>
      let (t, mAlarmMonitor) := t.startAlarm s.mAlarmMonitor s.nextRef key timestampNs
      { s with mAlarmMonitor, trackers := s.trackers.set i t, nextRef := s.nextRef + 1 }
  | .stopAlarm i key timestampNs =>
    match s.trackers[i]? with
    | none => s
    | some t =>
      let (t, mAlarmMonitor, declarations) := t.stopAlarm s.mAlarmMonitor key timestampNs
      { s with mAlarmMonitor, trackers := s.trackers.set i t, declarations := s.declarations ++ declarations }
  | .cancelAllAlarms i =>
    match s.trackers[i]? with
    | none => s
    | some t =>
      let (t, mAlarmMonitor) := t.cancelAllAlarms s.mAlarmMonitor
      { s with mAlarmMonitor, trackers := s.trackers.set i t }
  | .popSoonerThan timestampSec =>
    let (firedAlarms, mAlarmMonitor, _) := s.mAlarmMonitor.popSoonerThan timestampSec
    { s with mAlarmMonitor, deliveries := s.deliveries ++ [⟨firedAlarms, []⟩] }
  | .informAlarmsFired d i timestampNs =>
    match s.deliveries[d]?, s.trackers[i]? with
    | some delivery, some t =>
      let r := t.informAlarmsFired timestampNs delivery.firedAlarms
      { s with
        trackers := s.trackers.set i r.tracker
        deliveries := s.deliveries.set d ⟨r.firedAlarms, delivery.told ++ [i]⟩
        declarations := s.declarations ++ r.declarations }
    | _, _ => s

def queued (s : AlarmSystem K) : Set InternalAlarm := s.mAlarmMonitor.mPq.elems

/-- The tracker has the alarm for the key. -/
def Owns (s : AlarmSystem K) (i : Nat) (key : K) (a : InternalAlarm) : Prop :=
  ∃ t, s.trackers[i]? = some t ∧ t.mAlarms.lookup key = some a

/-- Every tracker was told of the set. -/
def Done (s : AlarmSystem K) (d : Delivery) : Prop := ∀ i < s.trackers.length, i ∈ d.told

structure Inv (s : AlarmSystem K) : Prop where
  wf : AlarmQueue.WF s.mAlarmMonitor.mPq
  queue : ∀ a, a ∈ s.queued ↔ (∃ i key, s.Owns i key a) ∧ ∀ d ∈ s.deliveries, a ∉ d.firedAlarms
  unique : ∀ {i j key key' a}, s.Owns i key a → s.Owns j key' a → i = j ∧ key = key'
  told : ∀ d ∈ s.deliveries, ∀ i ∈ d.told, ∀ key a, s.Owns i key a → a ∉ d.firedAlarms
  gone : ∀ x ∈ s.declarations, ∀ i key, ¬ s.Owns i key x.alarm
  once : (s.declarations.map (·.alarm)).Nodup
  owned_lt : ∀ i key a, s.Owns i key a → a.ref < s.nextRef
  fired_lt : ∀ d ∈ s.deliveries, ∀ a ∈ d.firedAlarms, a.ref < s.nextRef
  declared_lt : ∀ x ∈ s.declarations, x.alarm.ref < s.nextRef

variable {s : AlarmSystem K}

theorem owns_set (s' : AlarmSystem K) {i : Nat} {t t' : DurationAnomalyTracker K} (ht : s.trackers[i]? = some t)
    (hs : s'.trackers = s.trackers.set i t') (j : Nat) (key : K) (a : InternalAlarm) :
    s'.Owns j key a ↔ if j = i then t'.mAlarms.lookup key = some a else s.Owns j key a := by
  have hi : i < s.trackers.length := (List.getElem?_eq_some_iff.1 ht).1
  unfold Owns
  rw [hs]
  by_cases hj : j = i
  · subst hj
    rw [if_pos rfl, List.getElem?_set_self hi]
    simp
  · rw [if_neg hj, List.getElem?_set_ne (Ne.symm hj)]

theorem owns_iff {i : Nat} {t : DurationAnomalyTracker K} (ht : s.trackers[i]? = some t) (key : K)
    (a : InternalAlarm) : s.Owns i key a ↔ t.mAlarms.lookup key = some a := by
  unfold Owns
  simp [ht]

/-- The steps that start no alarm: the trackers have no more alarms than before, and what they declared they
had before, and have no more. -/
theorem Inv.shrink {s s' : AlarmSystem K} (h : s.Inv) (hwf : AlarmQueue.WF s'.mAlarmMonitor.mPq)
    (hqueue : ∀ a, a ∈ s'.queued ↔ (∃ i key, s'.Owns i key a) ∧ ∀ d ∈ s'.deliveries, a ∉ d.firedAlarms)
    (hown : ∀ i key a, s'.Owns i key a → s.Owns i key a) (href : s'.nextRef = s.nextRef)
    (htold : ∀ d ∈ s'.deliveries, ∀ i ∈ d.told, ∀ key a, s'.Owns i key a → a ∉ d.firedAlarms)
    (hfired : ∀ d ∈ s'.deliveries, ∀ a ∈ d.firedAlarms, a.ref < s.nextRef) (declarations : List (Declaration K))
    (hdecl : s'.declarations = s.declarations ++ declarations) (hnodup : (declarations.map (·.alarm)).Nodup)
    (hnew : ∀ x ∈ declarations, (∃ i key, s.Owns i key x.alarm) ∧ ∀ i key, ¬ s'.Owns i key x.alarm) : s'.Inv where
  wf := hwf
  queue := hqueue
  unique h1 h2 := h.unique (hown _ _ _ h1) (hown _ _ _ h2)
  told := htold
  gone x hx i key hx' := by
    rw [hdecl, List.mem_append] at hx
    rcases hx with hx | hx
    · exact h.gone x hx i key (hown i key _ hx')
    · exact (hnew x hx).2 i key hx'
  once := by
    rw [hdecl, List.map_append, List.nodup_append']
    refine ⟨h.once, hnodup, ?_⟩
    intro a ha ha'
    obtain ⟨x, hx, rfl⟩ := List.mem_map.1 ha
    obtain ⟨y, hy, hyx⟩ := List.mem_map.1 ha'
    obtain ⟨⟨i, key, hown⟩, -⟩ := hnew y hy
    rw [hyx] at hown
    exact h.gone x hx i key hown
  owned_lt i key a ha := by
    rw [href]
    exact h.owned_lt i key a (hown i key a ha)
  fired_lt d hd a ha := by
    rw [href]
    exact hfired d hd a ha
  declared_lt x hx := by
    rw [href]
    rw [hdecl, List.mem_append] at hx
    rcases hx with hx | hx
    · exact h.declared_lt x hx
    · obtain ⟨⟨i, key, hown⟩, -⟩ := hnew x hx
      exact h.owned_lt i key _ hown

theorem Inv.drop {s s' : AlarmSystem K} (h : s.Inv) {i : Nat} {t t' : DurationAnomalyTracker K} (ht : s.trackers[i]? = some t)
    (hwf : AlarmQueue.WF s'.mAlarmMonitor.mPq) (hs : s'.trackers = s.trackers.set i t') (hdel : s'.deliveries = s.deliveries)
    (href : s'.nextRef = s.nextRef) (dropped : K → Prop)
    (hlook : ∀ key a, t'.mAlarms.lookup key = some a ↔ t.mAlarms.lookup key = some a ∧ ¬ dropped key)
    (hqueue : ∀ a, a ∈ s'.queued ↔ a ∈ s.queued ∧ ∀ key, dropped key → t.mAlarms.lookup key ≠ some a)
    (declarations : List (Declaration K)) (hdecl : s'.declarations = s.declarations ++ declarations)
    (hnodup : (declarations.map (·.alarm)).Nodup)
    (hnew : ∀ x ∈ declarations, ∃ key, dropped key ∧ t.mAlarms.lookup key = some x.alarm) : s'.Inv := by
  -- the tracker has its alarms but those of the dropped keys
  have hown : ∀ j key a, s'.Owns j key a ↔ s.Owns j key a ∧ ¬ (j = i ∧ dropped key) := by
    intro j key a
    rw [owns_set s' ht hs]
    by_cases hj : j = i
    · subst hj
      rw [if_pos rfl, hlook, owns_iff ht]
      simp
    · simp [hj]
  refine h.shrink hwf (fun a => ?_) (fun j key a ha => ((hown j key a).1 ha).1) href (fun d hd j hj key a ha => ?_)
    (fun d hd => ?_) declarations hdecl hnodup fun x hx => ?_
  · rw [hqueue, h.queue, hdel]
    constructor
    · rintro ⟨⟨⟨j, key, ha⟩, hno⟩, hne⟩
      refine ⟨⟨j, key, (hown j key a).2 ⟨ha, ?_⟩⟩, hno⟩
      rintro ⟨rfl, hkey⟩
      exact hne key hkey ((owns_iff ht _ a).1 ha)
    · rintro ⟨⟨j, key, ha⟩, hno⟩
      obtain ⟨ha, hne⟩ := (hown j key a).1 ha
      refine ⟨⟨⟨j, key, ha⟩, hno⟩, fun key' hkey' hk => hne ?_⟩
      obtain ⟨rfl, rfl⟩ := h.unique ha ((owns_iff ht key' a).2 hk)
      exact ⟨rfl, hkey'⟩
  · rw [hdel] at hd
    exact h.told d hd j hj key a ((hown j key a).1 ha).1
  · rw [hdel] at hd
    exact h.fired_lt d hd
  · obtain ⟨key, hkey, ha⟩ := hnew x hx
    have hi := (owns_iff ht key x.alarm).2 ha
    refine ⟨⟨i, key, hi⟩, fun j key' ha' => ?_⟩
    obtain ⟨ha', hne⟩ := (hown j key' x.alarm).1 ha'
    obtain ⟨rfl, rfl⟩ := h.unique ha' hi
    exact hne ⟨rfl, hkey⟩

theorem Inv.stopAlarm (h : s.Inv) (i : Nat) (key : K) (timestampNs : Int) :
    (s.step (.stopAlarm i key timestampNs)).Inv := by
  rw [step]
  cases ht : s.trackers[i]? with
  | none => exact h
  | some t =>
    obtain ⟨hlook, hwf, hqueue, hdecl⟩ := t.stopAlarm_spec h.wf key timestampNs
    refine h.drop ht hwf rfl rfl rfl (· = key) (fun key' a => ?_) (fun a => ?_) _ rfl ?_ fun x hx => ?_
    · rw [hlook]
      by_cases hk : key' = key
      · simp [hk]
      · simp [hk]
    · refine (hqueue a).trans (and_congr_right fun _ => ?_)
      simp
    · rcases hdecl with hdecl | ⟨a, declared, -, hdecl⟩ <;> simp [hdecl]
    · rcases hdecl with hdecl | ⟨a, declared, ha, hdecl⟩
      · simp [hdecl] at hx
      · rw [hdecl, List.mem_singleton] at hx
        subst hx
        exact ⟨key, rfl, ha⟩

theorem Inv.cancelAllAlarms (h : s.Inv) (i : Nat) : (s.step (.cancelAllAlarms i)).Inv := by
  rw [step]
  cases ht : s.trackers[i]? with
  | none => exact h
  | some t =>
    obtain ⟨hwf, hqueue⟩ := t.cancelAllAlarms_spec h.wf
    refine h.drop ht hwf rfl rfl rfl (fun _ => True) (fun key a => ?_) (fun a => ?_) [] (List.append_nil _).symm
      List.nodup_nil fun x hx => (List.not_mem_nil hx).elim
    · exact iff_of_false (fun hk => by cases hk) fun hk => hk.2 trivial
    · refine (hqueue a).trans (and_congr_right fun _ => ?_)
      simp

theorem Inv.popSoonerThan (h : s.Inv) (timestampSec : UInt32) :
    (s.step (.popSoonerThan timestampSec)).Inv := by
  obtain ⟨hwf, hqueue, hpopped⟩ := AlarmMonitor.popSoonerThan_queue h.wf timestampSec
  rw [step]
  dsimp only
  refine h.shrink hwf ?_ (fun _ _ _ ha => ha) rfl ?_ ?_ [] (List.append_nil _).symm List.nodup_nil
    fun x hx => (List.not_mem_nil hx).elim
  · intro a
    refine (hqueue a).trans ?_
    rw [show a ∈ s.mAlarmMonitor.mPq.elems ↔ _ from h.queue a, and_assoc]
    refine and_congr_right fun _ => ?_
    simp [or_imp, forall_and]
  · intro d hd i hi key a ha
    rcases List.mem_append.1 hd with hd | hd
    · exact h.told d hd i hi key a ha
    · rw [List.mem_singleton.1 hd] at hi
      cases hi
  · intro d hd a ha
    rcases List.mem_append.1 hd with hd | hd
    · exact h.fired_lt d hd a ha
    · rw [List.mem_singleton.1 hd] at ha
      obtain ⟨⟨i, key, hown⟩, -⟩ := (h.queue a).1 (hpopped a ha)
      exact h.owned_lt i key a hown

theorem Inv.informAlarmsFired (h : s.Inv) (d i : Nat) (timestampNs : Int) :
    (s.step (.informAlarmsFired d i timestampNs)).Inv := by
  rw [step]
  cases hd : s.deliveries[d]? with
  | none => exact h
  | some delivery =>
    cases ht : s.trackers[i]? with
    | none => exact h
    | some t =>
      obtain ⟨hlook, hfired, matched, hkeys, hmatched, hdecl⟩ := t.informAlarmsFired_spec timestampNs delivery.firedAlarms
      dsimp only
      generalize t.informAlarmsFired timestampNs delivery.firedAlarms = r at hlook hfired hdecl
      generalize hs' : ({ s with
        trackers := s.trackers.set i r.tracker
        deliveries := s.deliveries.set d ⟨r.firedAlarms, delivery.told ++ [i]⟩
        declarations := s.declarations ++ r.declarations } : AlarmSystem K) = s'
      have hdelivery := List.mem_of_getElem? hd
      have hset := owns_set s' ht (by rw [← hs'])
      have hown : ∀ j key a, s'.Owns j key a ↔ s.Owns j key a ∧ ¬ (j = i ∧ a ∈ delivery.firedAlarms) := by
        intro j key a
        rw [hset]
        by_cases hj : j = i
        · subst hj
          rw [if_pos rfl, hlook, owns_iff ht]
          simp
        · simp [hj]
      -- a set afterwards is one from before, or what is left of the one the tracker was told of
      have hdel : ∀ d' ∈ s'.deliveries, d' ∈ s.deliveries ∨ d' = ⟨r.firedAlarms, delivery.told ++ [i]⟩ := by
        intro d' hd'
        rw [← hs'] at hd'
        exact List.mem_or_eq_of_mem_set hd'
      refine h.shrink (by rw [← hs']; exact h.wf) ?_ (fun j key a ha => ((hown j key a).1 ha).1) (by rw [← hs']) ?_ ?_
        r.declarations (by rw [← hs']) ?_ ?_
      · intro a
        rw [show s'.queued = s.queued by rw [← hs']; rfl, h.queue]
        constructor
        · rintro ⟨⟨j, key, ha⟩, hno⟩
          refine ⟨⟨j, key, (hown j key a).2 ⟨ha, fun hf => hno delivery hdelivery hf.2⟩⟩, fun d' hd' => ?_⟩
          rcases hdel d' hd' with hd' | rfl
          · exact hno d' hd'
          · exact fun hf => hno delivery hdelivery ((hfired a).1 hf).1
        · rintro ⟨⟨j, key, ha⟩, hno⟩
          obtain ⟨ha, hne⟩ := (hown j key a).1 ha
          refine ⟨⟨j, key, ha⟩, fun d' hd' hf => ?_⟩
          obtain ⟨k, hk, hkd⟩ := List.getElem_of_mem hd'
          by_cases hkd' : d = k
          · -- the set the tracker was told of: the alarm is another tracker's, so it is still there
            subst hkd'
            rw [List.getElem?_eq_getElem hk, hkd] at hd
            obtain rfl := Option.some.inj hd
            have hmem : (⟨r.firedAlarms, d'.told ++ [i]⟩ : Delivery) ∈ s'.deliveries := by
              rw [← hs']
              exact List.mem_set hk _
            refine hno _ hmem ((hfired a).2 ⟨hf, fun key' hk' => hne ⟨?_, hf⟩⟩)
            exact (h.unique ha ((owns_iff ht key' a).2 hk')).1
          · refine hno d' ?_ hf
            rw [← hs']
            refine List.mem_iff_getElem?.2 ⟨k, ?_⟩
            rw [List.getElem?_set_ne hkd', List.getElem?_eq_getElem hk, hkd]
      · intro d' hd' j hj key a ha
        obtain ⟨ha, hne⟩ := (hown j key a).1 ha
        rcases hdel d' hd' with hd' | rfl
        · exact h.told d' hd' j hj key a ha
        · intro hf
          rcases List.mem_append.1 hj with hj | hj
          · exact h.told delivery hdelivery j hj key a ha ((hfired a).1 hf).1
          · exact hne ⟨List.mem_singleton.1 hj, ((hfired a).1 hf).1⟩
      · intro d' hd' a ha
        rcases hdel d' hd' with hd' | rfl
        · exact h.fired_lt d' hd' a ha
        · exact h.fired_lt delivery hdelivery a ((hfired a).1 ha).1
      · -- two matched alarms of different keys are different
        have halarms : r.declarations.map (·.alarm) = matched.map (·.2) := by
          have := congrArg (List.map (·.2)) hdecl
          simpa [List.map_map, Function.comp_def] using this
        rw [halarms]
        refine List.Nodup.map_on (fun x hx y hy hxy => ?_) hkeys.nodup
        have hx' := (owns_iff ht x.1 x.2).2 (hmatched x hx).1
        have hy' := (owns_iff ht y.1 y.2).2 (hmatched y hy).1
        rw [hxy] at hx'
        exact Sigma.ext (h.unique hx' hy').2 (heq_of_eq hxy)
      · intro x hx
        have hmem : (x.key, x.alarm) ∈ matched.map fun kv => (kv.1, kv.2) := by
          rw [← hdecl]
          exact List.mem_map_of_mem hx
        obtain ⟨kv, hkv, hkx⟩ := List.mem_map.1 hmem
        obtain ⟨hlk, hf⟩ := hmatched kv hkv
        rw [(Prod.mk.inj hkx).2] at hlk hf
        have hi := (owns_iff ht kv.1 x.alarm).2 hlk
        refine ⟨⟨i, kv.1, hi⟩, fun j key ha => ?_⟩
        obtain ⟨ha, hne⟩ := (hown j key x.alarm).1 ha
        exact hne ⟨(h.unique ha hi).1, hf⟩

theorem alarmSec_pos {timestampNs : Int} (h : 0 < (timestampNs - 1).tdiv NS_PER_SEC + 1)
    (h' : (timestampNs - 1).tdiv NS_PER_SEC + 1 < 2 ^ 32) : ¬ DurationAnomalyTracker.alarmSec timestampNs < 1 := by
  unfold DurationAnomalyTracker.alarmSec
  generalize (timestampNs - 1).tdiv NS_PER_SEC = sec at h h'
  rw [UInt32.lt_iff_toNat_lt, UInt32.toNat_add, UInt32.toNat_ofNat']
  have hone : (1 : UInt32).toNat = 1 := rfl
  rw [hone]
  omega

theorem Inv.startAlarm (h : s.Inv) (i : Nat) (key : K) {timestampNs : Int}
    (hrange : (AlarmOp.startAlarm i key timestampNs).InRange) : (s.step (.startAlarm i key timestampNs)).Inv := by
  rw [step]
  cases ht : s.trackers[i]? with
  | none => exact h
  | some t =>
    obtain ⟨hi, hti⟩ := List.getElem?_eq_some_iff.1 ht
    have hself : s.trackers.set i t = s.trackers := by
      rw [← hti]
      exact List.set_getElem_self hi
    dsimp only
    have hpos := alarmSec_pos hrange.1 hrange.2
    rcases t.startAlarm_spec h.wf s.nextRef key timestampNs with ⟨-, hno⟩ | ⟨hlook, hwf, hqueue⟩
    · rw [hno]
      dsimp only
      rw [hself]
      exact ⟨h.wf, h.queue, h.unique, h.told, h.gone, h.once, fun j k a ha => Nat.lt_succ_of_lt (h.owned_lt j k a ha),
        fun d hd a ha => Nat.lt_succ_of_lt (h.fired_lt d hd a ha), fun x hx => Nat.lt_succ_of_lt (h.declared_lt x hx)⟩
    · simp only [hpos, not_false_eq_true, and_true] at hqueue
      generalize hnew : (⟨s.nextRef, DurationAnomalyTracker.alarmSec timestampNs⟩ : InternalAlarm) = new at hlook hqueue
      have href : new.ref = s.nextRef := by rw [← hnew]
      generalize hs' : ({ s with
        mAlarmMonitor := (t.startAlarm s.mAlarmMonitor s.nextRef key timestampNs).2
        trackers := s.trackers.set i (t.startAlarm s.mAlarmMonitor s.nextRef key timestampNs).1
        nextRef := s.nextRef + 1 } : AlarmSystem K) = s'
      have hset := owns_set s' ht (by rw [← hs'])
      have hown : ∀ j key' a, s'.Owns j key' a ↔
          (j = i ∧ key' = key ∧ a = new) ∨ s.Owns j key' a ∧ ¬ (j = i ∧ key' = key) := by
        intro j key' a
        rw [hset]
        by_cases hj : j = i
        · subst hj
          rw [if_pos rfl, hlook, owns_iff ht]
          by_cases hk : key' = key
          · simp [hk, eq_comm]
          · simp [hk]
        · simp [hj]
      -- nobody has the new alarm yet
      have hfresh : ∀ j key', ¬ s.Owns j key' new := by
        intro j key' ha
        have := h.owned_lt j key' new ha
        omega
      have hdel : s'.deliveries = s.deliveries := by rw [← hs']
      have hdecl : s'.declarations = s.declarations := by rw [← hs']
      have hnext : s'.nextRef = s.nextRef + 1 := by rw [← hs']
      refine ⟨by rw [← hs']; exact hwf, fun a => ?_, ?_, ?_, ?_, by rw [hdecl]; exact h.once, ?_, ?_, ?_⟩
      · have hq : a ∈ s'.queued ↔ a = new ∨ a ∈ s.queued ∧ t.mAlarms.lookup key ≠ some a := by
          rw [← hs']
          exact hqueue a
        rw [hq, h.queue, hdel]
        constructor
        · rintro (rfl | ⟨⟨⟨j, key', ha⟩, hno⟩, hne⟩)
          · refine ⟨⟨i, key, (hown i key a).2 (.inl ⟨rfl, rfl, rfl⟩)⟩, fun d hd hf => ?_⟩
            have := h.fired_lt d hd a hf
            omega
          · refine ⟨⟨j, key', (hown j key' a).2 (.inr ⟨ha, ?_⟩)⟩, hno⟩
            rintro ⟨rfl, rfl⟩
            exact hne ((owns_iff ht _ a).1 ha)
        · rintro ⟨⟨j, key', ha⟩, hno⟩
          rcases (hown j key' a).1 ha with ⟨-, -, rfl⟩ | ⟨ha, hne⟩
          · exact .inl rfl
          · exact .inr ⟨⟨⟨j, key', ha⟩, hno⟩, fun hk => hne (h.unique ha ((owns_iff ht key a).2 hk))⟩
      · intro j j' k k' a ha ha'
        rcases (hown j k a).1 ha with ⟨rfl, rfl, rfl⟩ | ⟨ha, -⟩
        · rcases (hown j' k' a).1 ha' with ⟨rfl, rfl, -⟩ | ⟨ha', -⟩
          · exact ⟨rfl, rfl⟩
          · exact (hfresh j' k' ha').elim
        · rcases (hown j' k' a).1 ha' with ⟨rfl, rfl, rfl⟩ | ⟨ha', -⟩
          · exact (hfresh j k ha).elim
          · exact h.unique ha ha'
      · intro d hd j hj k a ha
        rw [hdel] at hd
        rcases (hown j k a).1 ha with ⟨-, -, rfl⟩ | ⟨ha, -⟩
        · intro hf
          have := h.fired_lt d hd a hf
          omega
        · exact h.told d hd j hj k a ha
      · intro x hx j k ha
        rw [hdecl] at hx
        rcases (hown j k x.alarm).1 ha with ⟨-, -, hxn⟩ | ⟨ha, -⟩
        · have := h.declared_lt x hx
          rw [hxn] at this
          omega
        · exact h.gone x hx j k ha
      · intro j k a ha
        rcases (hown j k a).1 ha with ⟨-, -, rfl⟩ | ⟨ha, -⟩
        · omega
        · have := h.owned_lt j k a ha
          omega
      · intro d hd a ha
        rw [hdel] at hd
        have := h.fired_lt d hd a ha
        omega
      · intro x hx
        rw [hdecl] at hx
        have := h.declared_lt x hx
        omega

theorem Inv.step (h : s.Inv) : ∀ {op : AlarmOp K}, op.InRange → (s.step op).Inv
  | .startAlarm i key _, hrange => h.startAlarm i key hrange
  | .stopAlarm i key timestampNs, _ => h.stopAlarm i key timestampNs
  | .cancelAllAlarms i, _ => h.cancelAllAlarms i
  | .popSoonerThan timestampSec, _ => h.popSoonerThan timestampSec
  | .informAlarmsFired d i timestampNs, _ => h.informAlarmsFired d i timestampNs

theorem not_owns_new (minDiff : UInt32) (trackers : List (AnomalyTracker K)) (i : Nat) (key : K) (a : InternalAlarm) :
    ¬ (new minDiff trackers).Owns i key a := by
  rintro ⟨t, ht, ha⟩
  rw [new, List.getElem?_map, Option.map_eq_some_iff] at ht
  obtain ⟨u, -, rfl⟩ := ht
  cases ha

theorem inv_new (minDiff : UInt32) (trackers : List (AnomalyTracker K)) : (new minDiff trackers).Inv where
  wf := IndexedPriorityQueue.wf_new
  queue a := by
    rw [show (new minDiff trackers).queued = ∅ from IndexedPriorityQueue.elems_new]
    refine iff_of_false (fun h => h) ?_
    rintro ⟨⟨i, key, ha⟩, -⟩
    exact not_owns_new minDiff trackers i key a ha
  unique ha := (not_owns_new minDiff trackers _ _ _ ha).elim
  told _ hd := (List.not_mem_nil hd).elim
  gone _ hx := (List.not_mem_nil hx).elim
  once := List.nodup_nil
  owned_lt i key a ha := (not_owns_new minDiff trackers i key a ha).elim
  fired_lt _ hd := (List.not_mem_nil hd).elim
  declared_lt _ hx := (List.not_mem_nil hx).elim

theorem inv_run (minDiff : UInt32) (trackers : List (AnomalyTracker K)) (ops : List (AlarmOp K))
    (hrange : ∀ op ∈ ops, op.InRange) : (ops.foldl step (new minDiff trackers)).Inv := by
  induction ops using List.reverseRecOn with
  | nil => exact inv_new minDiff trackers
  | append_singleton ops op ih =>
    rw [List.foldl_append]
    exact (ih fun o ho => hrange o (List.mem_append_left _ ho)).step (hrange op (by simp))

theorem Inv.not_fired_of_done (h : s.Inv) {d : Delivery} (hd : d ∈ s.deliveries) (hdone : s.Done d)
    {i : Nat} {key : K} {a : InternalAlarm} (ha : s.Owns i key a) : a ∉ d.firedAlarms := by
  obtain ⟨t, ht, -⟩ := id ha
  exact h.told d hd i (hdone i (List.getElem?_eq_some_iff.1 ht).1) key a ha

/-- After every interleaving of starts, stops, cancellations, sets of alarms taken off the queue and trackers
told of them: the queue holds the alarms of the trackers but those in a set that is still on its way; no two
trackers or keys have one alarm, and no tracker has two alarms for one key; no alarm was declared twice; and
once all sets are delivered every tracker's alarms are in the queue. -/
theorem alarms_accounted (minDiff : UInt32) (trackers : List (AnomalyTracker K)) (ops : List (AlarmOp K))
    (hrange : ∀ op ∈ ops, op.InRange) :
    let s := ops.foldl step (new minDiff trackers)
    s.queued = {a | ∃ i key, s.Owns i key a} \ {a | ∃ d ∈ s.deliveries, ¬ s.Done d ∧ a ∈ d.firedAlarms} ∧
    (∀ i j key key' a, s.Owns i key a → s.Owns j key' a → i = j ∧ key = key') ∧
    (∀ i key a b, s.Owns i key a → s.Owns i key b → a = b) ∧
    (∀ a, s.declarations.countP (·.alarm = a) ≤ 1) ∧
    ((∀ d ∈ s.deliveries, s.Done d) → ∀ i key a, s.Owns i key a → a ∈ s.queued) := by
  intro s
  have h : s.Inv := inv_run minDiff trackers ops hrange
  refine ⟨?_, fun i j key key' a => h.unique, ?_, fun a => ?_, fun hdone i key a ha => ?_⟩
  · ext a
    rw [h.queue, Set.mem_sdiff]
    constructor
    · rintro ⟨ha, hno⟩
      refine ⟨ha, ?_⟩
      rintro ⟨d, hd, -, hf⟩
      exact hno d hd hf
    · rintro ⟨⟨i, key, ha⟩, hno⟩
      refine ⟨⟨i, key, ha⟩, fun d hd hf => ?_⟩
      by_cases hdone : s.Done d
      · exact h.not_fired_of_done hd hdone ha hf
      · exact hno ⟨d, hd, hdone, hf⟩
  · rintro i key a b ⟨t, ht, ha⟩ ⟨t', ht', hb⟩
    rw [ht] at ht'
    cases ht'
    exact Option.some.inj (ha.symm.trans hb)
  · have hcount : s.declarations.countP (·.alarm = a) = (s.declarations.map (·.alarm)).count a := by
      rw [List.count, List.countP_map]
      congr 1
    rw [hcount]
    exact List.nodup_iff_count_le_one.1 h.once a
  · exact (h.queue a).2 ⟨⟨i, key, ha⟩, fun d hd => h.not_fired_of_done hd (hdone d hd) ha⟩

/-- Two trackers whose alarms are taken off the queue: one of them stops its alarm and starts another before
both are told. -/
theorem alarms_accounted_two :
    let trackers : List (AnomalyTracker Nat) := [.new ⟨1, none, none⟩, .new ⟨1, none, none⟩]
    let ops : List (AlarmOp Nat) := [.startAlarm 0 7 10000000000, .startAlarm 1 8 10000000000, .popSoonerThan 10,
      .stopAlarm 0 7 11000000000, .startAlarm 0 7 20000000000, .informAlarmsFired 0 0 12000000000,
      .informAlarmsFired 0 1 12000000000]
    let s := ops.foldl step (new 5 trackers)
    s.declarations.map (·.key) = [7, 8] ∧ (∀ a, s.declarations.countP (·.alarm = a) ≤ 1) ∧
      ∀ i key a, s.Owns i key a → a ∈ s.queued := by
  intro trackers ops s
  have hrange : ∀ op ∈ ops, op.InRange := by
    simp [ops, AlarmOp.InRange, NS_PER_SEC]
  obtain ⟨-, -, -, honce, hqueued⟩ := alarms_accounted 5 trackers ops hrange
  refine ⟨by decide +kernel, honce, hqueued ?_⟩
  have htold : ∀ d ∈ s.deliveries, ∀ i < s.trackers.length, i ∈ d.told := by decide +kernel
  exact htold

end AlarmSystem

end Statsd.Anomaly
