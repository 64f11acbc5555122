/-
What an alarm of the pullers does, over every run of the manager: which receivers it delivers to, what
they are told, when they are due next, and for when the next alarm is set.

The loop over the atoms and configs that are due is described by what it has done for the entries behind
it (`RoundOK`); the time of the next alarm is the least element of the times it has seen.
-/
import Statsd.Base.Run
import Statsd.External.StatsPullerManager

namespace Statsd.External

/-! ## The least of the times seen -/

theorem lower_eq_min (a b : Int) : lower a b = min a b := by
  unfold lower
  split <;> omega

theorem isLeast_lower {s : Set Int} {m : Int} (h : IsLeast s m) (x : Int) : IsLeast (s ∪ {x}) (lower m x) := by
  rw [lower_eq_min]
  exact h.union isLeast_singleton

theorem isLeast_foldl {α : Type} (p : α → Bool) (f : α → Int) (l : List α) {s : Set Int} {m : Int} (h : IsLeast s m) :
    IsLeast (s ∪ {x | ∃ a ∈ l, p a = true ∧ f a = x}) (l.foldl (fun m a => if p a then lower m (f a) else m) m) := by
  induction l generalizing s m with
  | nil => simpa using h
  | cons a l ih =>
    rw [List.foldl_cons]
    by_cases hp : p a = true
    · rw [if_pos hp]
      have hrest := ih (isLeast_lower h (f a))
      have hset : s ∪ {f a} ∪ {x | ∃ b ∈ l, p b = true ∧ f b = x} = s ∪ {x | ∃ b ∈ a :: l, p b = true ∧ f b = x} := by
        ext x
        simp only [Set.mem_union, Set.mem_singleton_iff, Set.mem_ofPred_eq, List.mem_cons, exists_eq_or_imp, hp, true_and, or_assoc,
          eq_comm (a := x) (b := f a)]
      rw [← hset]
      exact hrest
    · rw [if_neg hp]
      have hset : {x | ∃ b ∈ a :: l, p b = true ∧ f b = x} = {x | ∃ b ∈ l, p b = true ∧ f b = x} := by
        ext x
        simp only [Set.mem_ofPred_eq, List.mem_cons, exists_eq_or_imp, hp, Bool.false_eq_true, false_and, false_or]
      rw [hset]
      exact ih h

/-! ## The next pull time of a receiver -/

theorem roundedIntervalNs_ge (intervalNs : Int) : 60 * NS_PER_SEC ≤ roundedIntervalNs intervalNs := by
  unfold roundedIntervalNs
  dsimp only
  split <;> omega

namespace ReceiverInfo

variable {R : Type} {info : ReceiverInfo R} {t : Int}

theorem advance_modEq (info : ReceiverInfo R) (t : Int) :
    (info.advance t).nextPullTimeNs ≡ info.nextPullTimeNs [ZMOD info.intervalNs] := by
  unfold advance
  exact (Int.modEq_iff_add_fac.2 ⟨_, by rw [mul_comm]⟩).symm

/-- After any sleep the next pull is the first one on the grid that lies ahead: for 64-bit times and intervals
of at least a minute the number of buckets fits an `int`. -/
theorem lt_advance (hinterval : 60 * NS_PER_SEC ≤ info.intervalNs) (hlow : -2 ^ 63 ≤ info.nextPullTimeNs) (hdue : info.nextPullTimeNs ≤ t)
    (ht : t < 2 ^ 63) : t < (info.advance t).nextPullTimeNs ∧ (info.advance t).nextPullTimeNs ≤ t + info.intervalNs := by
  have hnonneg : 0 ≤ t - info.nextPullTimeNs := by omega
  have hpos : 0 < info.intervalNs := by
    have : (0 : Int) < 60 * NS_PER_SEC := by decide
    omega
  have hq0 : 0 ≤ (t - info.nextPullTimeNs) / info.intervalNs := Int.ediv_nonneg hnonneg hpos.le
  have hq1 : (t - info.nextPullTimeNs) / info.intervalNs < 2 ^ 31 := by
    rw [Int.ediv_lt_iff_lt_mul hpos]
    unfold NS_PER_SEC at hinterval
    omega
  have hle := Int.ediv_mul_le (t - info.nextPullTimeNs) hpos.ne'
  have hlt := Int.lt_ediv_add_one_mul_self (t - info.nextPullTimeNs) hpos
  unfold advance
  dsimp only
  rw [Int.tdiv_eq_ediv_of_nonneg hnonneg, Int.bmod_eq_of_le (by omega) (by omega)]
  generalize (t - info.nextPullTimeNs) / info.intervalNs = q at hle hlt
  have hstep : (q + 1) * info.intervalNs = q * info.intervalNs + info.intervalNs := by ring
  omega

end ReceiverInfo

namespace StatsPullerManager

section

variable {R U P E : Type}

/-! ## The two loops of an alarm -/

section

variable (env : Pullers U P E) (m : StatsPullerManager R U P) (t wall : Int)

theorem minOfOthers_isLeast (es : List (Sigma fun _ : ReceiverKey => List (ReceiverInfo R))) {s : Set Int} {x : Int} (h : IsLeast s x) :
    IsLeast (s ∪ {y | ∃ it ∈ es, ∃ info ∈ it.2, t < info.nextPullTimeNs ∧ info.nextPullTimeNs = y})
      (es.foldl (fun min it => minOfOthers t min it.2) x) := by
  induction es generalizing s x with
  | nil => simpa using h
  | cons it es ih =>
    have hone : IsLeast (s ∪ {y | ∃ info ∈ it.2, t < info.nextPullTimeNs ∧ info.nextPullTimeNs = y}) (minOfOthers t x it.2) := by
      have hfold := isLeast_foldl (fun info : ReceiverInfo R => !info.due t) (·.nextPullTimeNs) it.2 h
      have hbody : minOfOthers t x it.2 =
          it.2.foldl (fun min info => if !info.due t then lower min info.nextPullTimeNs else min) x := by
        unfold minOfOthers
        congr 1
        funext min info
        cases info.due t <;> rfl
      rw [hbody]
      simpa [ReceiverInfo.due] using hfold
    have hset : s ∪ {y | ∃ info ∈ it.2, t < info.nextPullTimeNs ∧ info.nextPullTimeNs = y} ∪
        {y | ∃ it' ∈ es, ∃ info ∈ it'.2, t < info.nextPullTimeNs ∧ info.nextPullTimeNs = y} =
        s ∪ {y | ∃ it' ∈ it :: es, ∃ info ∈ it'.2, t < info.nextPullTimeNs ∧ info.nextPullTimeNs = y} := by
      ext y
      simp only [Set.mem_union, Set.mem_ofPred_eq, List.mem_cons, exists_eq_or_imp, or_assoc]
    rw [List.foldl_cons, ← hset]
    exact ih hone

/-- A receiver that an alarm serves: it is due and still exists. -/
def serves (info : ReceiverInfo R) : Bool := info.due t && m.receiverLive info.receiver

theorem serve_foldl (live : R → Bool) (pull : PullResult E) (l : List (ReceiverInfo R)) (r : Round R P E) :
    (l.foldl (serve live t pull) r).pulls = r.pulls ∧
    (l.foldl (serve live t pull) r).deliveries =
      r.deliveries ++ (l.filter (live ·.receiver)).map (fun info => ⟨pull.key, info.receiver, pull.data, pull.pullSuccess, t⟩) ∧
    (l.foldl (serve live t pull) r).minNextPullTimeNs =
      l.foldl (fun min info => if live info.receiver then lower min (info.advance t).nextPullTimeNs else min) r.minNextPullTimeNs := by
  induction l generalizing r with
  | nil => simp
  | cons info l ih =>
    obtain ⟨hpulls, hdel, hmin⟩ := ih (serve live t pull r info)
    rw [List.foldl_cons, List.foldl_cons, hpulls, hdel, hmin]
    unfold serve
    cases hlive : live info.receiver <;> simp [hlive]

/-- What the second loop has done for the entries behind it. -/
structure RoundOK (s : Set Int) (done : List (Sigma fun _ : ReceiverKey => List (ReceiverInfo R))) (r : Round R P E) : Prop where
  pulls : r.pulls.map (·.key) = done.map (·.1)
  deliveries : r.deliveries.map (fun d => (d.key, d.receiver)) =
    done.flatMap fun it => (it.2.filter (m.serves t)).map fun info => (it.1, info.receiver)
  same : ∀ d ∈ r.deliveries, ⟨d.key, d.data, d.pullSuccess⟩ ∈ r.pulls ∧ d.originalPullTimeNs = t
  least : IsLeast (s ∪ {x | ∃ it ∈ done, ∃ info ∈ it.2, m.serves t info = true ∧ (info.advance t).nextPullTimeNs = x}) r.minNextPullTimeNs

variable {env m t wall}

theorem RoundOK.pullFor {s : Set Int} {done : List (Sigma fun _ : ReceiverKey => List (ReceiverInfo R))} {r : Round R P E}
    (h : RoundOK m t s done r) (it : Sigma fun _ : ReceiverKey => List (ReceiverInfo R)) :
    RoundOK m t s (done ++ [it]) (m.pullFor env t wall r it) := by
  unfold StatsPullerManager.pullFor
  generalize m.PullLocked env r.pullers it.1.atomTag it.1.configKey t = res
  obtain ⟨⟨data, pullSuccess⟩, pullers⟩ := res
  dsimp only
  generalize hpull : (⟨it.1, data.map fun event => { event with mElapsedTimestampNs := t, mLogdTimestampNs := wall }, pullSuccess⟩ :
    PullResult E) = pull
  have hkey : pull.key = it.1 := by rw [← hpull]
  obtain ⟨hpulls, hdel, hmin⟩ := serve_foldl (P := P) t m.receiverLive pull (it.2.filter (·.due t))
    { r with pullers := pullers, pulls := r.pulls ++ [pull] }
  generalize (it.2.filter (·.due t)).foldl (serve m.receiverLive t pull)
    { r with pullers := pullers, pulls := r.pulls ++ [pull] } = r' at hpulls hdel hmin
  dsimp only at hpulls hdel hmin
  constructor
  · rw [hpulls, List.map_append, List.map_append, h.pulls]
    simp [hkey]
  · rw [hdel, List.map_append, h.deliveries, List.flatMap_append, List.map_map]
    congr 1
    have hserves : (fun info => m.receiverLive info.receiver && info.due t) = m.serves t := funext fun info => Bool.and_comm _ _
    rw [List.flatMap_singleton, List.filter_filter, hserves, ← hkey]
    rfl
  · intro d hd
    rw [hdel] at hd
    rw [hpulls]
    rcases List.mem_append.1 hd with hd | hd
    · obtain ⟨hin, ht⟩ := h.same d hd
      exact ⟨List.mem_append_left _ hin, ht⟩
    · obtain ⟨info, -, rfl⟩ := List.mem_map.1 hd
      exact ⟨List.mem_append_right _ (List.mem_singleton_self _), rfl⟩
  · have hfold := isLeast_foldl (fun info : ReceiverInfo R => m.receiverLive info.receiver) (fun info => (info.advance t).nextPullTimeNs)
      (it.2.filter (·.due t)) h.least
    rw [← hmin] at hfold
    refine (congrArg (IsLeast · r'.minNextPullTimeNs) ?_).mp hfold
    ext x
    simp only [Set.mem_union, Set.mem_ofPred_eq, List.mem_append, List.mem_singleton, List.mem_filter, serves, Bool.and_eq_true, or_assoc,
      or_and_right, exists_or, exists_eq_left, and_assoc]

theorem RoundOK.foldl {s : Set Int} (l : List (Sigma fun _ : ReceiverKey => List (ReceiverInfo R)))
    {done : List (Sigma fun _ : ReceiverKey => List (ReceiverInfo R))} {r : Round R P E} (h : RoundOK m t s done r) :
    RoundOK m t s (done ++ l) (l.foldl (m.pullFor env t wall) r) := by
  induction l generalizing done r with
  | nil => simpa using h
  | cons it l ih => simpa using ih (h.pullFor it)

variable (env m t wall)

theorem alarmRound_ok : RoundOK m t ({NO_ALARM_UPDATE} ∪ {x | ∃ it ∈ m.mReceivers.entries, ∃ info ∈ it.2,
      t < info.nextPullTimeNs ∧ info.nextPullTimeNs = x})
    (m.mReceivers.entries.filter fun it => it.2.any (·.due t)) (m.alarmRound env t wall) := by
  have hfirst := minOfOthers_isLeast t m.mReceivers.entries (isLeast_singleton (a := NO_ALARM_UPDATE))
  have hstart : RoundOK m t ({NO_ALARM_UPDATE} ∪ {x | ∃ it ∈ m.mReceivers.entries, ∃ info ∈ it.2,
      t < info.nextPullTimeNs ∧ info.nextPullTimeNs = x}) []
      (⟨m.pullers, m.mReceivers.entries.foldl (fun min it => minOfOthers t min it.2) NO_ALARM_UPDATE, [], []⟩ : Round R P E) := by
    refine ⟨rfl, rfl, fun d hd => absurd hd List.not_mem_nil, ?_⟩
    simpa using hfirst
  exact hstart.foldl (m.mReceivers.entries.filter fun it => it.2.any (·.due t))

end

/-! ## What holds on every run -/

/-- The registered receivers. -/
structure Inv (m : StatsPullerManager R U P) : Prop where
  distinct : ∀ key, ((m.receivers key).map (·.receiver)).Nodup
  interval : ∀ key, ∀ info ∈ m.receivers key, 60 * NS_PER_SEC ≤ info.intervalNs
  grid : ∀ key, ∀ info ∈ m.receivers key, info.nextPullTimeNs ≡ info.registeredNs [ZMOD info.intervalNs]
  low : ∀ key, ∀ info ∈ m.receivers key, -2 ^ 63 ≤ info.nextPullTimeNs
  early : ∀ key, ∀ info ∈ m.receivers key, m.receiverLive info.receiver = true → m.mNextPullTimeNs ≤ info.nextPullTimeNs

/-- The receivers that are registered and still exist, with the atom and config they are registered for. -/
def LiveAt (m : StatsPullerManager R U P) (key : ReceiverKey) (info : ReceiverInfo R) : Prop :=
  info ∈ m.receivers key ∧ m.receiverLive info.receiver = true

/-- An alarm at `t` leads from `m` to `m'`, with what was pulled and delivered. The receivers that count for
the next alarm are a parameter. -/
structure Alarm (m : StatsPullerManager R U P) (t : Int) (pulls : List (PullResult E)) (deliveries : List (Delivery R E))
    (m' : StatsPullerManager R U P) (Counts : ReceiverKey → ReceiverInfo R → Prop) : Prop where
  /-- Delivered to exactly the live receivers that are due, -/
  exact : ∀ key receiver, (∃ d ∈ deliveries, d.key = key ∧ d.receiver = receiver) ↔
    ∃ info, m.LiveAt key info ∧ info.receiver = receiver ∧ info.nextPullTimeNs ≤ t
  /-- once each, -/
  once : (deliveries.map fun d => (d.key, d.receiver)).Nodup
  /-- with one pull for an atom and a config, which all its receivers see. -/
  onePull : (pulls.map (·.key)).Nodup
  samePull : ∀ d ∈ deliveries, ⟨d.key, d.data, d.pullSuccess⟩ ∈ pulls ∧ d.originalPullTimeNs = t
  /-- The receivers stay registered. -/
  kept : ∀ key, (m'.receivers key).map (fun info => (info.receiver, info.intervalNs, info.registeredNs)) =
    (m.receivers key).map fun info => (info.receiver, info.intervalNs, info.registeredNs)
  ahead : ∀ key info, m'.LiveAt key info → t < info.nextPullTimeNs ∧ info.nextPullTimeNs ≡ info.registeredNs [ZMOD info.intervalNs] ∧
    60 * NS_PER_SEC ≤ info.intervalNs
  next : IsLeast ({NO_ALARM_UPDATE} ∪ {x | ∃ key info, Counts key info ∧ info.nextPullTimeNs = x}) m'.mNextPullTimeNs

theorem updateAlarmLocked_frame (m : StatsPullerManager R U P) : m.updateAlarmLocked.mReceivers = m.mReceivers ∧
    m.updateAlarmLocked.receiverLive = m.receiverLive ∧ m.updateAlarmLocked.mNextPullTimeNs = m.mNextPullTimeNs := by
  unfold updateAlarmLocked
  split
  · exact ⟨rfl, rfl, rfl⟩
  · split <;> exact ⟨rfl, rfl, rfl⟩

theorem Inv.frame {m m' : StatsPullerManager R U P} (h : Inv m) (hrec : m'.mReceivers = m.mReceivers)
    (hlive : ∀ r, m'.receiverLive r = true → m.receiverLive r = true) (hnext : m'.mNextPullTimeNs = m.mNextPullTimeNs) : Inv m' := by
  have hsame : ∀ key, m'.receivers key = m.receivers key := fun key => by unfold receivers; rw [hrec]
  refine ⟨fun key => ?_, fun key info hi => ?_, fun key info hi => ?_, fun key info hi => ?_, fun key info hi hl => ?_⟩
  · rw [hsame]
    exact h.distinct key
  · exact h.interval key info (hsame key ▸ hi)
  · exact h.grid key info (hsame key ▸ hi)
  · exact h.low key info (hsame key ▸ hi)
  · rw [hnext]
    exact h.early key info (hsame key ▸ hi) (hlive _ hl)

variable {m : StatsPullerManager R U P} {key : ReceiverKey} (env : Pullers U P E)

theorem mem_receivers {info : ReceiverInfo R} :
    info ∈ m.receivers key ↔ ∃ it ∈ m.mReceivers.entries, it.1 = key ∧ info ∈ it.2 := by
  unfold receivers UMap.getD
  constructor
  · intro h
    cases hl : m.mReceivers.lookup key with
    | none => simp [hl] at h
    | some infos =>
      rw [hl] at h
      exact ⟨⟨key, infos⟩, AList.mem_lookup_iff.1 hl, rfl, h⟩
  · rintro ⟨⟨key, infos⟩, hit, rfl, h⟩
    rw [AList.mem_lookup_iff.2 hit]
    exact h

theorem OnAlarmFired_receivers (m : StatsPullerManager R U P) (t wall : Int) (key : ReceiverKey) :
    (m.OnAlarmFired env t wall).receivers key = (m.receivers key).map (served m.receiverLive t) := by
  unfold OnAlarmFired receivers UMap.getD
  dsimp only
  rw [(updateAlarmLocked_frame _).1, UMap.lookup_mapVal]
  cases m.mReceivers.lookup key <;> rfl

theorem served_fields (live : R → Bool) (t : Int) (info : ReceiverInfo R) :
    ((served live t info).receiver, (served live t info).intervalNs, (served live t info).registeredNs) =
      (info.receiver, info.intervalNs, info.registeredNs) := by
  unfold served
  split <;> rfl

theorem Inv.deliveries (h : Inv m) (t wall : Int) :
    (∀ key receiver, (∃ d ∈ (m.alarmRound env t wall).deliveries, d.key = key ∧ d.receiver = receiver) ↔
      ∃ info, m.LiveAt key info ∧ info.receiver = receiver ∧ info.nextPullTimeNs ≤ t) ∧
    ((m.alarmRound env t wall).deliveries.map fun d => (d.key, d.receiver)).Nodup ∧
    ((m.alarmRound env t wall).pulls.map (·.key)).Nodup := by
  have hround := alarmRound_ok env m t wall
  have hkeys : (m.mReceivers.entries.filter fun it => it.2.any (·.due t)).Pairwise fun a b => a.1 ≠ b.1 :=
    (List.nodupKeys_iff_pairwise.1 m.mReceivers.nodupKeys).sublist List.filter_sublist
  refine ⟨fun key receiver => ?_, ?_, ?_⟩
  · have hpairs : (∃ d ∈ (m.alarmRound env t wall).deliveries, d.key = key ∧ d.receiver = receiver) ↔
        (key, receiver) ∈ (m.alarmRound env t wall).deliveries.map fun d => (d.key, d.receiver) := by
      simp only [List.mem_map, Prod.mk.injEq]
    rw [hpairs, hround.deliveries]
    simp only [List.mem_flatMap, List.mem_filter, List.mem_map, Prod.mk.injEq, serves, Bool.and_eq_true, LiveAt]
    constructor
    · rintro ⟨it, ⟨hit, -⟩, info, ⟨hinfo, hdue, hlive⟩, hkey, hrec⟩
      exact ⟨info, ⟨mem_receivers.2 ⟨it, hit, hkey, hinfo⟩, hlive⟩, hrec, of_decide_eq_true hdue⟩
    · rintro ⟨info, ⟨hmem, hlive⟩, hrec, hdue⟩
      obtain ⟨it, hit, hkey, hinfo⟩ := mem_receivers.1 hmem
      have hd : info.due t = true := decide_eq_true hdue
      exact ⟨it, ⟨hit, List.any_eq_true.2 ⟨info, hinfo, hd⟩⟩, info, ⟨hinfo, hd, hlive⟩, hkey, hrec⟩
  · rw [hround.deliveries, List.nodup_flatMap]
    refine ⟨fun it hit => ?_, hkeys.imp fun {a b} hab => ?_⟩
    · -- the receivers of one key are distinct
      have hlist : m.receivers it.1 = it.2 := by
        unfold receivers UMap.getD
        rw [AList.mem_lookup_iff.2 (List.mem_of_mem_filter hit)]
        rfl
      have hdistinct := ((hlist ▸ h.distinct it.1).sublist (List.filter_sublist.map _) :
        ((it.2.filter (m.serves t)).map (·.receiver)).Nodup)
      rw [show (fun info : ReceiverInfo R => (it.1, info.receiver)) = Prod.mk it.1 ∘ (·.receiver) from rfl, ← List.map_map]
      exact hdistinct.map (Prod.mk_right_injective it.1)
    · intro x hx hy
      obtain ⟨_, _, rfl⟩ := List.mem_map.1 hx
      obtain ⟨_, _, hxy⟩ := List.mem_map.1 hy
      exact hab (Prod.mk.inj hxy).1.symm
  · rw [hround.pulls]
    exact List.pairwise_map.2 hkeys

theorem OnAlarmFired_cases (m : StatsPullerManager R U P) (t wall : Int)
    {info' : ReceiverInfo R} (h : info' ∈ (m.OnAlarmFired env t wall).receivers key) : ∃ info ∈ m.receivers key,
      info'.receiver = info.receiver ∧ info'.intervalNs = info.intervalNs ∧ info'.registeredNs = info.registeredNs ∧
      ((m.serves t info = true ∧ info' = info.advance t) ∨ (m.serves t info = false ∧ info' = info)) := by
  rw [OnAlarmFired_receivers] at h
  obtain ⟨info, hinfo, rfl⟩ := List.mem_map.1 h
  have hfields := served_fields m.receiverLive t info
  simp only [Prod.mk.injEq] at hfields
  refine ⟨info, hinfo, hfields.1, hfields.2.1, hfields.2.2, ?_⟩
  cases hs : m.serves t info with
  | true => exact Or.inl ⟨rfl, if_pos hs⟩
  | false => exact Or.inr ⟨rfl, if_neg (by rw [← Bool.not_eq_true] at hs; exact hs)⟩

theorem Inv.lt_advance (h : Inv m) {t : Int} (ht : t < 2 ^ 63) {info : ReceiverInfo R}
    (hinfo : info ∈ m.receivers key) (hs : m.serves t info = true) : t < (info.advance t).nextPullTimeNs := by
  have hdue := of_decide_eq_true (Bool.and_eq_true_iff.1 hs).1
  exact (ReceiverInfo.lt_advance (h.interval key info hinfo) (h.low key info hinfo) hdue ht).1

/-- The next alarm is the least of the times that lie ahead: the receivers that are gone count too unless they
were due, since only the loop over those promotes them. -/
theorem Inv.next (h : Inv m) {t : Int} (ht : t < 2 ^ 63) (wall : Int) :
    IsLeast ({NO_ALARM_UPDATE} ∪ {x | ∃ key info, (info ∈ (m.OnAlarmFired env t wall).receivers key ∧ t < info.nextPullTimeNs) ∧
      info.nextPullTimeNs = x}) (m.OnAlarmFired env t wall).mNextPullTimeNs := by
  have hmin : (m.OnAlarmFired env t wall).mNextPullTimeNs = (m.alarmRound env t wall).minNextPullTimeNs :=
    (updateAlarmLocked_frame _).2.2
  rw [hmin]
  refine (congrArg (IsLeast · _) ?_).mp (alarmRound_ok env m t wall).least
  ext x
  simp only [Set.mem_union, Set.mem_singleton_iff, Set.mem_ofPred_eq, or_assoc]
  refine or_congr_right ?_
  constructor
  · rintro (⟨it, hit, info, hinfo, hlt, rfl⟩ | ⟨it, hit, info, hinfo, hs, rfl⟩)
    · have hmem := mem_receivers.2 ⟨it, hit, rfl, hinfo⟩
      refine ⟨it.1, info, ⟨?_, hlt⟩, rfl⟩
      rw [OnAlarmFired_receivers]
      refine List.mem_map.2 ⟨info, hmem, if_neg ?_⟩
      simp [ReceiverInfo.due, hlt]
    · have hmem := mem_receivers.2 ⟨it, List.mem_of_mem_filter hit, rfl, hinfo⟩
      refine ⟨it.1, info.advance t, ⟨?_, h.lt_advance ht hmem hs⟩, rfl⟩
      rw [OnAlarmFired_receivers]
      exact List.mem_map.2 ⟨info, hmem, if_pos hs⟩
  · rintro ⟨key, info', ⟨hi, hlt⟩, rfl⟩
    obtain ⟨info, hinfo, -, -, -, ⟨hs, rfl⟩ | ⟨-, rfl⟩⟩ := OnAlarmFired_cases env m t wall hi
    · obtain ⟨it, hit, -, hin⟩ := mem_receivers.1 hinfo
      have hany : it.2.any (·.due t) = true := List.any_eq_true.2 ⟨info, hin, (Bool.and_eq_true_iff.1 hs).1⟩
      exact Or.inr ⟨it, List.mem_filter.2 ⟨hit, hany⟩, info, hin, hs, rfl⟩
    · obtain ⟨it, hit, -, hin⟩ := mem_receivers.1 hinfo
      exact Or.inl ⟨it, hit, _, hin, hlt, rfl⟩

theorem Inv.later (h : Inv m) {t : Int} (ht : t < 2 ^ 63) (wall : Int) {info' : ReceiverInfo R} (hl : (m.OnAlarmFired env t wall).LiveAt key info') : t < info'.nextPullTimeNs := by
  have hlive : (m.OnAlarmFired env t wall).receiverLive = m.receiverLive := (updateAlarmLocked_frame _).2.1
  obtain ⟨hi, hl⟩ := hl
  rw [hlive] at hl
  obtain ⟨info, hinfo, -, -, -, ⟨hs, rfl⟩ | ⟨hs, rfl⟩⟩ := OnAlarmFired_cases env m t wall hi
  · exact h.lt_advance ht hinfo hs
  · unfold serves at hs
    rw [hl, Bool.and_true] at hs
    exact not_le.1 (of_decide_eq_false hs)

theorem Inv.OnAlarmFired (h : Inv m) {t : Int} (ht : t < 2 ^ 63) (wall : Int) :
    Inv (m.OnAlarmFired env t wall) := by
  refine ⟨fun key => ?_, fun key info' hi => ?_, fun key info' hi => ?_, fun key info' hi => ?_, fun key info hi hl => ?_⟩
  · have hrec : (fun info => info.receiver) ∘ served m.receiverLive t = fun info => info.receiver :=
      funext fun info => (Prod.mk.inj (served_fields m.receiverLive t info)).1
    rw [OnAlarmFired_receivers, List.map_map, hrec]
    exact h.distinct key
  · obtain ⟨info, hinfo, -, h2, -, -⟩ := OnAlarmFired_cases env m t wall hi
    rw [h2]
    exact h.interval key info hinfo
  · obtain ⟨info, hinfo, -, h2, h3, ⟨-, rfl⟩ | ⟨-, rfl⟩⟩ := OnAlarmFired_cases env m t wall hi
    · rw [h2, h3]
      exact (info.advance_modEq t).trans (h.grid key info hinfo)
    · exact h.grid key _ hinfo
  · obtain ⟨info, hinfo, -, -, -, ⟨hs, rfl⟩ | ⟨-, rfl⟩⟩ := OnAlarmFired_cases env m t wall hi
    · have hlow := h.low key info hinfo
      have hdue := of_decide_eq_true (Bool.and_eq_true_iff.1 hs).1
      have hlt := h.lt_advance ht hinfo hs
      omega
    · exact h.low key _ hinfo
  · exact (h.next env ht wall).2 (Or.inr ⟨key, info, ⟨hi, h.later env ht wall ⟨hi, hl⟩⟩, rfl⟩)

theorem Inv.alarm (h : Inv m) {t : Int} (ht : t < 2 ^ 63) (wall : Int) :
    Alarm m t (m.alarmRound env t wall).pulls (m.alarmRound env t wall).deliveries (m.OnAlarmFired env t wall)
      (fun key info => info ∈ (m.OnAlarmFired env t wall).receivers key ∧ t < info.nextPullTimeNs) := by
  obtain ⟨hexact, honce, hpulls⟩ := h.deliveries env t wall
  have hafter := h.OnAlarmFired env ht wall
  refine ⟨hexact, honce, hpulls, (alarmRound_ok env m t wall).same, fun key => ?_, fun key info hl => ?_, h.next env ht wall⟩
  · rw [OnAlarmFired_receivers, List.map_map]
    exact List.map_congr_left fun info _ => served_fields m.receiverLive t info
  · exact ⟨h.later env ht wall hl, hafter.grid key info hl.1, hafter.interval key info hl.1⟩

/-! ## Registration -/

section

variable [DecidableEq R]

theorem receivers_insert (m : StatsPullerManager R U P) (key key' : ReceiverKey) (infos : List (ReceiverInfo R)) :
    UMap.getD (m.mReceivers.insert key infos) key' [] = if key' = key then infos else m.receivers key' :=
  UMap.getD_insert _ _ _ _ _

variable {m : StatsPullerManager R U P}

theorem Inv.RegisterReceiver (h : Inv m) (tagId : Int) (configKey : ConfigKey) (receiver : R)
    {nextPullTimeNs : Int} (hlow : -2 ^ 63 ≤ nextPullTimeNs) (intervalNs : Int) :
    Inv (m.RegisterReceiver tagId configKey receiver nextPullTimeNs intervalNs) := by
  unfold StatsPullerManager.RegisterReceiver
  dsimp only
  split
  · exact h
  · rename_i hnew
    -- the list with the new receiver, and the minimum, whether or not an alarm is set
    have hadd : ∀ m' : StatsPullerManager R U P,
        m'.mReceivers = m.mReceivers.insert ⟨tagId, configKey⟩
          (m.receivers ⟨tagId, configKey⟩ ++ [⟨nextPullTimeNs, roundedIntervalNs intervalNs, receiver, nextPullTimeNs⟩]) →
        m'.receiverLive = m.receiverLive → m'.mNextPullTimeNs ≤ m.mNextPullTimeNs → m'.mNextPullTimeNs ≤ nextPullTimeNs → Inv m' := by
      intro m' hrec hlive hle hnext
      have hlist : ∀ key, m'.receivers key = if key = ⟨tagId, configKey⟩ then
          m.receivers ⟨tagId, configKey⟩ ++ [⟨nextPullTimeNs, roundedIntervalNs intervalNs, receiver, nextPullTimeNs⟩]
          else m.receivers key := by
        intro key
        rw [← receivers_insert]
        exact congrArg (UMap.getD · key []) hrec
      have hmem : ∀ key info, info ∈ m'.receivers key → info ∈ m.receivers key ∨
          info = ⟨nextPullTimeNs, roundedIntervalNs intervalNs, receiver, nextPullTimeNs⟩ := by
        intro key info hi
        rw [hlist] at hi
        split at hi
        · rename_i hkey
          rw [hkey]
          simpa using hi
        · exact Or.inl hi
      refine ⟨fun key => ?_, fun key info hi => ?_, fun key info hi => ?_, fun key info hi => ?_, fun key info hi hl => ?_⟩
      · rw [hlist]
        split
        · rw [List.map_append, List.nodup_append]
          refine ⟨h.distinct _, List.nodup_singleton _, ?_⟩
          rintro r hr r' hr' rfl
          obtain ⟨info, hinfo, rfl⟩ := List.mem_map.1 hr
          exact hnew (List.any_eq_true.2 ⟨info, hinfo, by simpa using hr'⟩)
        · exact h.distinct key
      · rcases hmem key info hi with hi | rfl
        · exact h.interval key info hi
        · exact roundedIntervalNs_ge intervalNs
      · rcases hmem key info hi with hi | rfl
        · exact h.grid key info hi
        · exact Int.ModEq.refl _
      · rcases hmem key info hi with hi | rfl
        · exact h.low key info hi
        · exact hlow
      · rcases hmem key info hi with hi | rfl
        · exact hle.trans (h.early key info hi (hlive ▸ hl))
        · exact hnext
    split
    · rename_i hlt
      refine hadd _ (updateAlarmLocked_frame _).1 (updateAlarmLocked_frame _).2.1 ?_ ?_
      · rw [(updateAlarmLocked_frame _).2.2]
        exact hlt.le
      · rw [(updateAlarmLocked_frame _).2.2]
    · rename_i hge
      exact hadd _ rfl rfl (le_refl _) (not_lt.1 hge)

theorem Inv.UnRegisterReceiver (h : Inv m) (tagId : Int) (configKey : ConfigKey) (receiver : R) :
    Inv (m.UnRegisterReceiver tagId configKey receiver) := by
  unfold StatsPullerManager.UnRegisterReceiver
  split
  · exact h
  · rename_i infos hlook
    have hlist : ∀ key, List.Sublist (receivers { m with
        mReceivers := m.mReceivers.insert ⟨tagId, configKey⟩ (infos.eraseP (·.receiver == receiver)) } key) (m.receivers key) := by
      intro key
      unfold receivers
      rw [UMap.getD_insert]
      split
      · rename_i hkey
        rw [hkey, UMap.getD_of_lookup_some hlook]
        exact List.eraseP_sublist
      · exact List.Sublist.refl _
    exact ⟨fun key => (h.distinct key).sublist ((hlist key).map _), fun key info hi => h.interval key info ((hlist key).subset hi),
      fun key info hi => h.grid key info ((hlist key).subset hi), fun key info hi => h.low key info ((hlist key).subset hi),
      fun key info hi => h.early key info ((hlist key).subset hi)⟩

/-! ## Runs -/

variable [DecidableEq U]

theorem Inv.step (env : Pullers U P E) (h : Inv m) (e : Step R U) : Inv (m.step env e) := by
  cases e with
  | RegisterReceiver tagId configKey receiver next interval => exact h.RegisterReceiver tagId configKey receiver next.le_toInt interval.toInt
  | UnRegisterReceiver tagId configKey receiver => exact h.UnRegisterReceiver tagId configKey receiver
  | OnAlarmFired elapsedTimeNs wallClockNs => exact h.OnAlarmFired env elapsedTimeNs.toInt_lt wallClockNs.toInt
  | Pull tagId configKey eventTimeNs => exact h.frame rfl (fun _ hl => hl) rfl
  | RegisterPullUidProvider configKey provider => exact h.frame rfl (fun _ hl => hl) rfl
  | UnregisterPullUidProvider configKey provider =>
    show Inv (m.UnregisterPullUidProvider configKey provider)
    unfold StatsPullerManager.UnregisterPullUidProvider
    split
    · exact h.frame rfl (fun _ hl => hl) rfl
    · exact h
  | SetStatsCompanionService service =>
    show Inv (m.SetStatsCompanionService service)
    unfold StatsPullerManager.SetStatsCompanionService
    dsimp only
    split
    · obtain ⟨h1, h2, h3⟩ := updateAlarmLocked_frame { m with mStatsCompanionService := service }
      exact h.frame h1 (fun _ hl => h2 ▸ hl) h3
    · exact h.frame rfl (fun _ hl => hl) rfl
  | receiverGone receiver =>
    refine h.frame rfl (fun r hl => ?_) rfl
    have hl' : Function.update m.receiverLive receiver false r = true := hl
    rw [Function.update_apply] at hl'
    split at hl'
    · cases hl'
    · exact hl'
  | providerGone provider => exact h.frame rfl (fun _ hl => hl) rfl

theorem inv_new (pullers : P) : Inv (new pullers : StatsPullerManager R U P) := by
  refine ⟨fun _ => List.nodup_nil, ?_, ?_, ?_, ?_⟩
  all_goals
    intro key info hi
    exact absurd hi List.not_mem_nil

/-- The alarm is set for no later than the next pull of any live receiver, and does what it should whenever it
fires. -/
def Schedule (env : Pullers U P E) (Counts : StatsPullerManager R U P → Int → ReceiverKey → ReceiverInfo R → Prop)
    (m : StatsPullerManager R U P) : Prop :=
  (∀ key info, m.LiveAt key info → m.mNextPullTimeNs ≤ info.nextPullTimeNs) ∧
  ∀ t wall : Int64, Alarm m t.toInt (m.alarmRound env t.toInt wall.toInt).pulls (m.alarmRound env t.toInt wall.toInt).deliveries
    (m.OnAlarmFired env t.toInt wall.toInt) (Counts (m.OnAlarmFired env t.toInt wall.toInt) t.toInt)

/-- The receivers whose next pull is ahead of the alarm: all live ones, and those gone ones that were not due. -/
def Ahead (m : StatsPullerManager R U P) (t : Int) (key : ReceiverKey) (info : ReceiverInfo R) : Prop :=
  info ∈ m.receivers key ∧ t < info.nextPullTimeNs

/-- No receiver is starved or pulled twice, on any run and at any times, where the next alarm is the least of the
times ahead. -/
theorem pulls_on_schedule (env : Pullers U P E) (pullers : P) (es : List (Step R U)) :
    Schedule env Ahead (es.foldl (StatsPullerManager.step env) (new pullers)) := by
  have hinv : Inv (es.foldl (StatsPullerManager.step env) (new pullers) : StatsPullerManager R U P) := by
    have hrun : ∀ (es : List (Step R U)) (m : StatsPullerManager R U P), Inv m → Inv (es.foldl (StatsPullerManager.step env) m) := by
      intro es
      induction es with
      | nil => exact fun _ h => h
      | cons e es ih => exact fun m h => ih _ (h.step env e)
    exact hrun es _ (inv_new pullers)
  exact ⟨fun key info hl => hinv.early key info hl.1 hl.2, fun t wall => hinv.alarm env t.toInt_lt wall.toInt⟩

end

/-- A receiver that is gone and was not due keeps the alarm at its time, although no live receiver is left. -/
theorem gone_receiver_keeps_alarm : ¬ ∀ (env : Pullers Unit Unit Unit) (es : List (Step Unit Unit)),
    Schedule env (fun m' _ => m'.LiveAt) (es.foldl (step env) (new ()) : StatsPullerManager Unit Unit Unit) := by
  intro h
  have hbad := ((h ⟨fun _ _ => [], fun _ _ => false, fun s _ _ => (([], false), s)⟩
    [.RegisterReceiver 1 ⟨0, 0⟩ () 120000000000 60000000000, .receiverGone ()]).2 1 1).next.1
  rcases hbad with hnone | ⟨key, info, ⟨-, hlive⟩, -⟩
  · exact absurd hnone (by decide +kernel)
  · generalize info.receiver = receiver at hlive
    cases receiver
    exact absurd hlive (by decide +kernel)

end

end StatsPullerManager

end Statsd.External
