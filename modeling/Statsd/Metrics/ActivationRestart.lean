/-
Activations over a restart (writeActiveMetricToProtoOutputStream and loadActiveMetricLocked of
metrics/MetricProducer.cpp). A producer saves the activations that are on, and those that wait for a boot,
with the time that is left; a new producer of the same config reads them back at another time.

A field that is left out of a saved activation reads as its default, no remaining time and no state.
-/
import Statsd.Metrics.Activation

namespace Statsd.Metrics

inductive DumpReportReason where
  | DEVICE_SHUTDOWN | CONFIG_UPDATED | CONFIG_REMOVED | GET_DATA_CALLED | ADB_DUMP | CONFIG_RESET | STATSCOMPANION_DIED
  | TERMINATION_SIGNAL_RECEIVED
deriving DecidableEq

namespace MetricProducer

/-- The loop body of `writeActiveMetricToProtoOutputStream`. -/
def writeActivation (currentTimeNs : Int) (reason : DumpReportReason) (atom_matcher_index : Nat) (activation : Activation) :
    Option ActiveEventActivation :=
  match activation.state with
  | .kNotActive => none
  | .kActive =>
    if activation.start_ns + activation.ttl_ns < currentTimeNs then none
    else some ⟨atom_matcher_index, activation.start_ns + activation.ttl_ns - currentTimeNs, some .ACTIVE⟩
  | .kActiveOnBoot =>
    if reason = .DEVICE_SHUTDOWN ∨ reason = .TERMINATION_SIGNAL_RECEIVED then
      some ⟨atom_matcher_index, activation.ttl_ns, some .ACTIVE⟩
    else if reason = .STATSCOMPANION_DIED then some ⟨atom_matcher_index, 0, some .ACTIVATE_ON_BOOT⟩
    else some ⟨atom_matcher_index, 0, none⟩

/-- The saved activations of the metric. -/
def writeActiveMetricToProtoOutputStream (p : MetricProducer) (currentTimeNs : Int) (reason : DumpReportReason) :
    List ActiveEventActivation :=
  p.mEventActivationMap.entries.filterMap fun it => (p.activations[it.2]?).bind (writeActivation currentTimeNs reason it.1)

/-! ## The producers of a config -/

/-- The activations of a metric of a config, as `handleMetricActivation` makes them. -/
def FromConfig (own : EventActivations) : Prop :=
  ∃ config metricId metricIndex matcherMap tables tables',
    handleMetricActivation config metricId metricIndex matcherMap tables = some (tables', own)

/-- A producer with these activations, in any states. -/
structure ProducerOf (own : EventActivations) (p : MetricProducer) : Prop where
  map : ∀ k, p.mEventActivationMap.lookup k = own.mEventActivationMap.lookup k
  config : p.activations.map (fun a => (a.ttl_ns, a.activationType)) = own.activations.map fun a => (a.ttl_ns, a.activationType)

/-- Each matcher has an activation of its own, and none is on. -/
structure Placed (own : EventActivations) : Prop where
  lt : ∀ k i, own.mEventActivationMap.lookup k = some i → i < own.activations.length
  inj : ∀ k k' i, own.mEventActivationMap.lookup k = some i → own.mEventActivationMap.lookup k' = some i → k = k'
  off : ∀ a ∈ own.activations, a.state = .kNotActive

theorem Placed.handleEventActivation {matcherMap : UMap Int Nat} {ma : MetricActivation} {n : Nat}
    {s s' : ActivationTables × EventActivations} {activation : EventActivation} (h : Placed s.2)
    (hs : handleEventActivation matcherMap ma n s activation = some s') : Placed s'.2 := by
  unfold Metrics.handleEventActivation at hs
  split at hs
  · cases hs
  · rename_i k hk
    -- the new activation is behind the others, and its matcher may have one already
    have hadd : ∀ own : EventActivations,
        own.activations = s.2.activations ++ [⟨activation.ttl_seconds * NS_PER_SEC, 0, .kNotActive, activation.type ma⟩] →
        own.mEventActivationMap = s.2.mEventActivationMap.emplace k s.2.activations.length → Placed own := by
      intro own hact hmap
      have hlook : ∀ k' i, own.mEventActivationMap.lookup k' = some i →
          s.2.mEventActivationMap.lookup k' = some i ∨ (k' = k ∧ i = s.2.activations.length) := by
        intro k' i hi
        rw [hmap, UMap.lookup_emplace] at hi
        split at hi
        · rename_i hnew
          exact Or.inr ⟨hnew.1, (Option.some.inj hi).symm⟩
        · exact Or.inl hi
      refine ⟨fun k' i hi => ?_, fun k1 k2 i h1 h2 => ?_, fun a ha => ?_⟩
      · rw [hact, List.length_append]
        rcases hlook k' i hi with hold | ⟨-, rfl⟩
        · exact (h.lt k' i hold).trans_le (Nat.le_add_right _ _)
        · exact Nat.lt_add_one _
      · rcases hlook k1 i h1 with hold1 | ⟨hk1, hi1⟩ <;> rcases hlook k2 i h2 with hold2 | ⟨hk2, hi2⟩
        · exact h.inj k1 k2 i hold1 hold2
        · exact absurd (h.lt k1 i hold1) (by omega)
        · exact absurd (h.lt k2 i hold2) (by omega)
        · exact hk1.trans hk2.symm
      · rw [hact] at ha
        rcases List.mem_append.1 ha with hold | hnew
        · exact h.off a hold
        · rw [List.mem_singleton.1 hnew]
    dsimp only at hs
    split at hs
    · cases hs
      exact hadd _ rfl rfl
    · split at hs
      · cases hs
      · cases hs
        exact hadd _ rfl rfl

variable {own : EventActivations} {p : MetricProducer}

theorem FromConfig.placed (h : FromConfig own) : Placed own := by
  obtain ⟨config, metricId, n, matcherMap, tables, tables', h⟩ := h
  have hempty : Placed ⟨[], ∅, ∅⟩ := by
    refine ⟨fun k i hi => ?_, fun k k' i hi => ?_, fun a ha => ?_⟩
    · cases hi
    · cases hi
    · cases ha
  have hfold : ∀ (ma : MetricActivation) (l : List EventActivation) (s s' : ActivationTables × EventActivations), Placed s.2 →
      l.foldlM (handleEventActivation matcherMap ma n) s = some s' → Placed s'.2 := by
    intro ma l
    induction l with
    | nil =>
      intro s s' hs heq
      cases heq
      exact hs
    | cons a l ih =>
      intro s s' hs heq
      rw [List.foldlM_cons, Option.bind_eq_bind, Option.bind_eq_some_iff] at heq
      obtain ⟨s1, h1, h2⟩ := heq
      exact ih s1 s' (hs.handleEventActivation h1) h2
  unfold handleMetricActivation at h
  split at h
  · cases h
    exact hempty
  · rw [Option.bind_eq_bind, Option.bind_eq_some_iff] at h
    obtain ⟨s1, h1, h2⟩ := h
    cases h2
    exact hfold _ _ (tables, ⟨[], ∅, ∅⟩) s1 hempty h1

/-! ## The load -/

/-- What a saved activation makes of one of the new producer. -/
def reload (currentTimeNs : Int) (saved : ActiveEventActivation) (activation : Activation) : Activation :=
  if saved.state = none ∨ saved.state = some .ACTIVE then
    { activation with start_ns := currentTimeNs + saved.remaining_ttl_nanos - activation.ttl_ns, state := .kActive }
  else if saved.state = some .ACTIVATE_ON_BOOT then { activation with state := .kActiveOnBoot }
  else activation

/-- A saved activation that turns the producer on. -/
def turnsOn (saved : ActiveEventActivation) : Bool := decide (saved.state = none ∨ saved.state = some .ACTIVE)

theorem loadActivation_eq (t : Int) (q : MetricProducer) (saved : ActiveEventActivation) {i : Nat} {b : Activation}
    (hlook : q.mEventActivationMap.lookup saved.atom_matcher_index = some i) (hb : q.activations[i]? = some b) :
    loadActivation t q saved =
      { q with activations := q.activations.set i (reload t saved b), mIsActive := q.mIsActive || turnsOn saved } := by
  unfold loadActivation reload turnsOn
  rw [hlook]
  dsimp only
  rw [hb]
  dsimp only
  by_cases h1 : saved.state = none ∨ saved.state = some .ACTIVE
  · simp [h1]
  · rw [if_neg h1, if_neg h1, decide_eq_false h1, Bool.or_false]
    by_cases h2 : saved.state = some .ACTIVATE_ON_BOOT
    · rw [if_pos h2, if_pos h2]
    · rw [if_neg h2, if_neg h2]
      have hset : q.activations.set i b = q.activations := by
        obtain ⟨hi, hget⟩ := List.getElem?_eq_some_iff.1 hb
        rw [← hget, List.set_getElem_self]
      rw [hset]

/-- What is saved of the activation of an entry. -/
def savedOf (p : MetricProducer) (t : Int) (reason : DumpReportReason) (it : Sigma fun _ : Nat => Nat) : Option ActiveEventActivation :=
  (p.activations[it.2]?).bind (writeActivation t reason it.1)

theorem savedOf_index {t : Int} {reason : DumpReportReason} {it : Sigma fun _ : Nat => Nat}
    {saved : ActiveEventActivation} (h : savedOf p t reason it = some saved) : saved.atom_matcher_index = it.1 := by
  obtain ⟨a, -, ha⟩ := Option.bind_eq_some_iff.1 h
  unfold writeActivation at ha
  split at ha
  · cases ha
  · split at ha <;> cases ha
    rfl
  · split at ha
    · cases ha
      rfl
    · split at ha <;> cases ha <;> rfl

theorem foldl_load (p : MetricProducer) (t t' : Int) (reason : DumpReportReason) (l : List (Sigma fun _ : Nat => Nat))
    (q : MetricProducer) (hlook : ∀ it ∈ l, q.mEventActivationMap.lookup it.1 = some it.2) (hlt : ∀ it ∈ l, it.2 < q.activations.length)
    (hpos : (l.map (·.2)).Nodup) :
    (∀ it ∈ l, ((l.filterMap (savedOf p t reason)).foldl (loadActivation t') q).activations[it.2]? =
      (q.activations[it.2]?).map fun b => ((savedOf p t reason it).map (reload t' · b)).getD b) ∧
    (∀ j, j ∉ l.map (·.2) → ((l.filterMap (savedOf p t reason)).foldl (loadActivation t') q).activations[j]? = q.activations[j]?) ∧
    ((l.filterMap (savedOf p t reason)).foldl (loadActivation t') q).mIsActive =
      (q.mIsActive || (l.filterMap (savedOf p t reason)).any turnsOn) := by
  induction l generalizing q with
  | nil => simp
  | cons it l ih =>
    rw [List.map_cons, List.nodup_cons] at hpos
    obtain ⟨b, hb⟩ : ∃ b, q.activations[it.2]? = some b := ⟨_, List.getElem?_eq_getElem (hlt it List.mem_cons_self)⟩
    cases hs : savedOf p t reason it with
    | none =>
      obtain ⟨h1, h2, h3⟩ := ih q (fun x hx => hlook x (List.mem_cons_of_mem _ hx)) (fun x hx => hlt x (List.mem_cons_of_mem _ hx)) hpos.2
      rw [List.filterMap_cons_none hs]
      refine ⟨fun x hx => ?_, fun j hj => h2 j fun hmem => hj (List.mem_cons_of_mem _ hmem), h3⟩
      rcases List.mem_cons.1 hx with rfl | hx
      · rw [h2 _ hpos.1, hs, hb]
        rfl
      · exact h1 x hx
    | some saved =>
      have hlook' : q.mEventActivationMap.lookup saved.atom_matcher_index = some it.2 := by
        rw [savedOf_index hs]
        exact hlook it List.mem_cons_self
      have hstep := loadActivation_eq t' q saved hlook' hb
      obtain ⟨h1, h2, h3⟩ := ih (loadActivation t' q saved)
        (fun x hx => by rw [hstep]; exact hlook x (List.mem_cons_of_mem _ hx))
        (fun x hx => by rw [hstep, List.length_set]; exact hlt x (List.mem_cons_of_mem _ hx)) hpos.2
      rw [List.filterMap_cons_some hs, List.foldl_cons]
      refine ⟨fun x hx => ?_, fun j hj => ?_, ?_⟩
      · rcases List.mem_cons.1 hx with rfl | hx
        · rw [h2 _ hpos.1, hstep, List.getElem?_set_self (hlt _ List.mem_cons_self), hs, hb]
          rfl
        · have hne : it.2 ≠ x.2 := fun he => hpos.1 (he ▸ List.mem_map_of_mem hx)
          rw [h1 x hx, hstep, List.getElem?_set_ne hne]
      · rw [List.map_cons, List.mem_cons, not_or] at hj
        rw [h2 j hj.2, hstep, List.getElem?_set_ne fun he => hj.1 he.symm]
      · rw [h3, hstep, List.any_cons, Bool.or_assoc]

/-! ## What a restart keeps -/

/-- An activation when it is saved at `t`, and when it is loaded at `t'`. -/
structure Survives (t t' : Int) (reason : DumpReportReason) (a b : Activation) : Prop where
  active : b.state = .kActive ↔ (a.state = .kActive ∧ t ≤ a.start_ns + a.ttl_ns) ∨
    (a.state = .kActiveOnBoot ∧ (reason = .DEVICE_SHUTDOWN ∨ reason = .TERMINATION_SIGNAL_RECEIVED))
  /-- The time that was left is left again; after a boot it is all of it. -/
  remaining : a.state = .kActive → b.state = .kActive → b.start_ns + b.ttl_ns - t' = a.start_ns + a.ttl_ns - t
  full : a.state = .kActiveOnBoot → b.state = .kActive → b.start_ns + b.ttl_ns - t' = a.ttl_ns
  onBoot : b.state = .kActiveOnBoot ↔ a.state = .kActiveOnBoot ∧ reason = .STATSCOMPANION_DIED

/-- A reason to save the active configs. -/
def SavesActive (reason : DumpReportReason) : Prop :=
  reason = .DEVICE_SHUTDOWN ∨ reason = .TERMINATION_SIGNAL_RECEIVED ∨ reason = .STATSCOMPANION_DIED

theorem survives_reload (t t' : Int) {reason : DumpReportReason} (hreason : SavesActive reason) (k : Nat) {a b : Activation}
    (httl : b.ttl_ns = a.ttl_ns) (hoff : b.state = .kNotActive) :
    Survives t t' reason a (((writeActivation t reason k a).map (reload t' · b)).getD b) := by
  unfold writeActivation
  split
  · rename_i ha
    constructor <;> simp [ha, hoff]
  · rename_i ha
    split
    · rename_i hover
      have hgone : ¬ t ≤ a.start_ns + a.ttl_ns := not_le.2 hover
      constructor <;> simp [ha, hoff, hgone]
    · rename_i hon
      have hle : t ≤ a.start_ns + a.ttl_ns := not_lt.1 hon
      constructor <;> simp [ha, reload, hle]
  · rename_i ha
    rcases hreason with rfl | rfl | rfl
    all_goals constructor <;> simp [ha, reload, httl]

theorem turnsOn_iff (t t' : Int) (reason : DumpReportReason) (k : Nat) (a : Activation) {b : Activation} (hoff : b.state = .kNotActive) :
    (∃ saved, writeActivation t reason k a = some saved ∧ turnsOn saved = true) ↔
      (((writeActivation t reason k a).map (reload t' · b)).getD b).state = .kActive := by
  cases writeActivation t reason k a with
  | none => simp [hoff]
  | some saved =>
    unfold reload turnsOn
    simp only [Option.some.injEq, exists_eq_left', decide_eq_true_eq, Option.map_some, Option.getD_some]
    split
    · rename_i h
      simp [h]
    · rename_i h
      split <;> simp [h, hoff]

/-- The new producer, after the load of what `p` saved. -/
def restarted (own : EventActivations) (p : MetricProducer) (t t' : Int) (reason : DumpReportReason) : MetricProducer :=
  (MetricProducer.new own).loadActiveMetricLocked (p.writeActiveMetricToProtoOutputStream t reason) t'

/-- The activations of the metric. -/
def ActivationAt (own : EventActivations) (q : MetricProducer) (k : Nat) (b : Activation) : Prop :=
  ∃ i, own.mEventActivationMap.lookup k = some i ∧ q.activations[i]? = some b

theorem ProducerOf.mem_entries (hp : ProducerOf own p) (it : Sigma fun _ : Nat => Nat) :
    it ∈ p.mEventActivationMap.entries ↔ own.mEventActivationMap.lookup it.1 = some it.2 := by
  rw [← hp.map, ← AList.mem_lookup_iff]
  rfl

theorem restarted_eq (hp : ProducerOf own p) (t t' : Int) (reason : DumpReportReason) :
    restarted own p t t' reason =
      (p.mEventActivationMap.entries.filterMap (savedOf p t reason)).foldl (loadActivation t') (MetricProducer.new own) := by
  unfold restarted loadActiveMetricLocked
  split
  · rename_i hnone
    have hempty : p.mEventActivationMap.entries = [] := by
      refine List.eq_nil_iff_forall_not_mem.2 fun it hit => ?_
      have hmem := AList.mem_lookup_iff.1 ((hp.mem_entries it).1 hit)
      have hnil : own.mEventActivationMap.entries = [] := List.length_eq_zero_iff.1 hnone
      rw [hnil] at hmem
      cases hmem
    rw [hempty]
    rfl
  · rfl

/-- The load, entry by entry: each activation is set from what is saved of it, and one that turns on makes the producer active. -/
theorem restarted_spec (hown : FromConfig own) (hp : ProducerOf own p) (t t' : Int)
    (reason : DumpReportReason) :
    (∀ it ∈ p.mEventActivationMap.entries, ∃ a b, p.activations[it.2]? = some a ∧ b.state = .kNotActive ∧ b.ttl_ns = a.ttl_ns ∧
      (restarted own p t t' reason).activations[it.2]? = some (((writeActivation t reason it.1 a).map (reload t' · b)).getD b)) ∧
    (restarted own p t t' reason).mIsActive =
      ((MetricProducer.new own).mIsActive || (p.mEventActivationMap.entries.filterMap (savedOf p t reason)).any turnsOn) := by
  have hplaced := hown.placed
  have hentry := hp.mem_entries
  have hlength : p.activations.length = own.activations.length := by simpa using congrArg List.length hp.config
  have hpos : (p.mEventActivationMap.entries.map (·.2)).Nodup := by
    refine List.pairwise_map.2 ((List.nodupKeys_iff_pairwise.1 p.mEventActivationMap.nodupKeys).imp_of_mem ?_)
    intro x y hx hy hne he
    exact hne (hplaced.inj x.1 y.1 x.2 ((hentry x).1 hx) (he ▸ (hentry y).1 hy))
  obtain ⟨hload, -, hflag⟩ := foldl_load p t t' reason p.mEventActivationMap.entries (MetricProducer.new own)
    (fun it hit => (hentry it).1 hit) (fun it hit => hplaced.lt it.1 it.2 ((hentry it).1 hit)) hpos
  rw [← restarted_eq hp] at hload hflag
  refine ⟨fun it hit => ?_, hflag⟩
  have hlt := hplaced.lt it.1 it.2 ((hentry it).1 hit)
  obtain ⟨b, hb⟩ : ∃ b, own.activations[it.2]? = some b := ⟨_, List.getElem?_eq_getElem hlt⟩
  obtain ⟨a, ha⟩ : ∃ a, p.activations[it.2]? = some a := ⟨_, List.getElem?_eq_getElem (hlength ▸ hlt)⟩
  have hsame := congrArg (fun l => l[it.2]?) hp.config
  simp only [List.getElem?_map, ha, hb, Option.map_some, Option.some.injEq, Prod.mk.injEq] at hsame
  refine ⟨a, b, ha, hplaced.off b (List.mem_of_getElem? hb), hsame.1.symm, ?_⟩
  rw [hload it hit, show (MetricProducer.new own).activations[it.2]? = some b from hb]
  simp [savedOf, ha]

/-- The activation state survives a restart; the producer is active where one of its activations is, or where it
has none. -/
theorem activation_survives {own : EventActivations} (hown : FromConfig own) {p : MetricProducer} (hp : ProducerOf own p) (t t' : Int)
    {reason : DumpReportReason} (hreason : SavesActive reason) :
    (∀ k a, ActivationAt own p k a → ∃ b, ActivationAt own (restarted own p t t' reason) k b ∧ Survives t t' reason a b) ∧
    ((restarted own p t t' reason).mIsActive = true ↔
      own.mEventActivationMap.entries = [] ∨ ∃ k b, ActivationAt own (restarted own p t t' reason) k b ∧ b.state = .kActive) := by
  have hentry := hp.mem_entries
  obtain ⟨hboth, hflag⟩ := restarted_spec hown hp t t' reason
  refine ⟨?_, ?_⟩
  · rintro k a ⟨i, hk, ha⟩
    obtain ⟨a', b, ha', hoff, httl, hafter⟩ := hboth ⟨k, i⟩ ((hentry ⟨k, i⟩).2 hk)
    cases ha.symm.trans ha'
    exact ⟨_, ⟨i, hk, hafter⟩, survives_reload t t' hreason k httl hoff⟩
  · rw [hflag, Bool.or_eq_true]
    refine or_congr List.isEmpty_iff ?_
    rw [List.any_eq_true]
    constructor
    · rintro ⟨saved, hsaved, hon⟩
      obtain ⟨it, hit, hs⟩ := List.mem_filterMap.1 hsaved
      obtain ⟨a, b, ha, hoff, -, hafter⟩ := hboth it hit
      unfold savedOf at hs
      rw [ha, Option.bind_some] at hs
      exact ⟨it.1, _, ⟨it.2, (hentry it).1 hit, hafter⟩, (turnsOn_iff t t' reason it.1 a hoff).1 ⟨saved, hs, hon⟩⟩
    · rintro ⟨k, b', ⟨i, hk, hb'⟩, hactive⟩
      have hit := (hentry ⟨k, i⟩).2 hk
      obtain ⟨a, b, ha, hoff, -, hafter⟩ := hboth ⟨k, i⟩ hit
      cases hb'.symm.trans hafter
      obtain ⟨saved, hs, hon⟩ := (turnsOn_iff t t' reason k a hoff).2 hactive
      refine ⟨saved, List.mem_filterMap.2 ⟨⟨k, i⟩, hit, ?_⟩, hon⟩
      unfold savedOf
      rw [ha, Option.bind_some]
      exact hs

/-- A metric with one activation, of five seconds. -/
def fiveSeconds : EventActivations :=
  ⟨[⟨5000000000, 0, .kNotActive, .ACTIVATE_IMMEDIATELY⟩], AList.singleton 0 0, ∅⟩

theorem fiveSeconds_fromConfig : FromConfig fiveSeconds :=
  ⟨⟨[], [100], [⟨100, .ACTIVATE_IMMEDIATELY, [⟨1, 5, none, none⟩]⟩]⟩, 100, 0, AList.singleton 1 0, ⟨∅, ∅, []⟩, _, rfl⟩

/-- Switched on at three seconds and saved at its last instant. -/
theorem activation_survives_last :
    FromConfig fiveSeconds ∧
    ((∀ k a, ActivationAt fiveSeconds ⟨⟨[⟨5000000000, 3000000000, .kActive, .ACTIVATE_IMMEDIATELY⟩], AList.singleton 0 0, ∅⟩, true⟩ k a →
      ∃ b, ActivationAt fiveSeconds (restarted fiveSeconds
        ⟨⟨[⟨5000000000, 3000000000, .kActive, .ACTIVATE_IMMEDIATELY⟩], AList.singleton 0 0, ∅⟩, true⟩ 8000000000 1 .STATSCOMPANION_DIED) k b ∧
        Survives 8000000000 1 .STATSCOMPANION_DIED a b) ∧
    ((restarted fiveSeconds
        ⟨⟨[⟨5000000000, 3000000000, .kActive, .ACTIVATE_IMMEDIATELY⟩], AList.singleton 0 0, ∅⟩, true⟩ 8000000000 1 .STATSCOMPANION_DIED).mIsActive =
        true ↔
      fiveSeconds.mEventActivationMap.entries = [] ∨ ∃ k b, ActivationAt fiveSeconds (restarted fiveSeconds
        ⟨⟨[⟨5000000000, 3000000000, .kActive, .ACTIVATE_IMMEDIATELY⟩], AList.singleton 0 0, ∅⟩, true⟩ 8000000000 1 .STATSCOMPANION_DIED) k b ∧
        b.state = .kActive)) :=
  ⟨fiveSeconds_fromConfig, activation_survives fiveSeconds_fromConfig ⟨fun _ => rfl, rfl⟩ 8000000000 1 (Or.inr (Or.inr rfl))⟩

/-- A producer without activations is active from the start, although no activation is. -/
theorem active_without_activations : ¬ ∀ (own : EventActivations) (p : MetricProducer), FromConfig own → ProducerOf own p →
    ((restarted own p 0 0 .DEVICE_SHUTDOWN).mIsActive = true ↔
      ∃ k b, ActivationAt own (restarted own p 0 0 .DEVICE_SHUTDOWN) k b ∧ b.state = .kActive) := by
  intro h
  have hconfig : FromConfig ⟨[], ∅, ∅⟩ := ⟨⟨[], [], []⟩, 100, 0, ∅, ⟨∅, ∅, []⟩, _, rfl⟩
  obtain ⟨k, b, ⟨i, hi, -⟩, -⟩ := (h ⟨[], ∅, ∅⟩ (MetricProducer.new ⟨[], ∅, ∅⟩) hconfig ⟨fun _ => rfl, rfl⟩).1 (by decide +kernel)
  cases hi

end MetricProducer

end Statsd.Metrics
