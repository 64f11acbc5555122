/-
Activation broadcasts (the end of StatsLogProcessor::OnLogEvent): after an event has been passed to the
managers, every uid with a config whose active status changed is sent its active configs, unless its last
broadcast was a short while ago. A uid that is held back ends the whole loop, so whether another uid is told
depends on the iteration order of the set and on rate limits that are not its own.

A manager is any type with its active status and its reaction to the event; what a broadcast returns is a
function of the call.
-/
import Mathlib.Data.Finset.Sort
import Statsd.Base.UMap
import Statsd.Config.ConfigKey

namespace Statsd

def kMinActivationBroadcastPeriodNs : Int := 10 * 1000000000

/-- A call of `mSendActivationBroadcast`. -/
structure ActivationBroadcast where
  uid : Int
  configIds : List Int
deriving DecidableEq

/-- The managers and the times of the last broadcasts of a `StatsLogProcessor`. -/
structure ActivationSource (Manager : Type) where
  mMetricsManagers : UMap ConfigKey Manager
  mLastActivationBroadcastTimes : UMap Int Int

/-- The order in which an unordered set of uids is iterated. -/
structure Iteration where
  order : Finset Int → List Int
  nodup : ∀ s, (order s).Nodup
  mem : ∀ s u, u ∈ order s ↔ u ∈ s

namespace ActivationSource

section

variable {Manager : Type} (isActive : Manager → Bool) (onLogEvent : Manager → Manager)
  (mSendActivationBroadcast : ActivationBroadcast → Bool)

/-- `GetActiveConfigsLocked`. -/
def GetActiveConfigsLocked (s : ActivationSource Manager) (uid : Int) : List Int :=
  (s.mMetricsManagers.entries.filter fun pair => decide (pair.1.mUid = uid) && isActive pair.2).map (·.1.mId)

/-- What the loop over the managers collects. -/
structure Passed where
  uidsWithActiveConfigsChanged : Finset Int
  activeConfigsPerUid : UMap Int (List Int)

/-- The body of the loop over the managers. -/
def pass (p : Passed) (pair : Sigma fun _ : ConfigKey => Manager) : Passed where
  activeConfigsPerUid :=
    if isActive (onLogEvent pair.2) then p.activeConfigsPerUid.push pair.1.mUid pair.1.mId else p.activeConfigsPerUid
  uidsWithActiveConfigsChanged :=
    if isActive pair.2 ≠ isActive (onLogEvent pair.2) then insert pair.1.mUid p.uidsWithActiveConfigsChanged
    else p.uidsWithActiveConfigsChanged

/-- The loop over the managers. -/
def passEvent (s : ActivationSource Manager) : Passed :=
  s.mMetricsManagers.entries.foldl (pass isActive onLogEvent) ⟨∅, ∅⟩

/-- The last broadcast of the uid is less than the minimum period ago. -/
def rateLimited (mLastActivationBroadcastTimes : UMap Int Int) (elapsedRealtimeNs uid : Int) : Bool :=
  match mLastActivationBroadcastTimes.lookup uid with
  | some lastBroadcastTime => decide (elapsedRealtimeNs - lastBroadcastTime < kMinActivationBroadcastPeriodNs)
  | none => false

/-- The loop over the changed uids, with the calls it makes. -/
def sendBroadcasts (activeConfigsPerUid : UMap Int (List Int)) (elapsedRealtimeNs : Int) :
    List Int → UMap Int Int → List ActivationBroadcast × UMap Int Int
  | [], last => ([], last)
  | uid :: uids, last =>
    -- a rate limit returns from the function
    if rateLimited last elapsedRealtimeNs uid then ([], last)
    else
      let call := ⟨uid, UMap.getD activeConfigsPerUid uid []⟩
      let last := if mSendActivationBroadcast call then last.insert uid elapsedRealtimeNs else last
      let (calls, last) := sendBroadcasts activeConfigsPerUid elapsedRealtimeNs uids last
      (call :: calls, last)

/-- `OnLogEvent` from the loop over the managers on. -/
def OnLogEvent (it : Iteration) (s : ActivationSource Manager) (elapsedRealtimeNs : Int) :
    ActivationSource Manager × List ActivationBroadcast :=
  let passed := passEvent isActive onLogEvent s
  let (calls, last) := sendBroadcasts mSendActivationBroadcast passed.activeConfigsPerUid elapsedRealtimeNs
    (it.order passed.uidsWithActiveConfigsChanged) s.mLastActivationBroadcastTimes
  (⟨s.mMetricsManagers.mapVal onLogEvent, last⟩, calls)

/-- The active status of some config of the uid changes on the event. -/
def ActiveChanged (s : ActivationSource Manager) (uid : Int) : Prop :=
  ∃ key m, s.mMetricsManagers.lookup key = some m ∧ key.mUid = uid ∧ isActive m ≠ isActive (onLogEvent m)

/-- The uid's own last broadcast is old enough or absent. -/
def Due (s : ActivationSource Manager) (elapsedRealtimeNs uid : Int) : Prop :=
  rateLimited s.mLastActivationBroadcastTimes elapsedRealtimeNs uid = false

/-- Each uid is told on its own account: once, with its active configs, if its status changed and its own last
broadcast is old enough, and otherwise not. -/
def Independent (it : Iteration) (s : ActivationSource Manager) (elapsedRealtimeNs : Int) : Prop :=
  ∀ uid, (ActiveChanged isActive onLogEvent s uid ∧ s.Due elapsedRealtimeNs uid →
      ((OnLogEvent isActive onLogEvent mSendActivationBroadcast it s elapsedRealtimeNs).2.filter fun call =>
        decide (call.uid = uid)) =
        [⟨uid, GetActiveConfigsLocked isActive
          (OnLogEvent isActive onLogEvent mSendActivationBroadcast it s elapsedRealtimeNs).1 uid⟩]) ∧
    (¬ (ActiveChanged isActive onLogEvent s uid ∧ s.Due elapsedRealtimeNs uid) →
      ((OnLogEvent isActive onLogEvent mSendActivationBroadcast it s elapsedRealtimeNs).2.filter fun call =>
        decide (call.uid = uid)) = [])

/-! ## The loop over the managers -/

theorem pass_changed (l : List (Sigma fun _ : ConfigKey => Manager)) (p : Passed) (uid : Int) :
    uid ∈ (l.foldl (pass isActive onLogEvent) p).uidsWithActiveConfigsChanged ↔
      uid ∈ p.uidsWithActiveConfigsChanged ∨
        ∃ pair ∈ l, pair.1.mUid = uid ∧ isActive pair.2 ≠ isActive (onLogEvent pair.2) := by
  induction l generalizing p with
  | nil => simp
  | cons pair l ih =>
    rw [List.foldl_cons, ih]
    have hstep : uid ∈ (pass isActive onLogEvent p pair).uidsWithActiveConfigsChanged ↔
        uid ∈ p.uidsWithActiveConfigsChanged ∨
          pair.1.mUid = uid ∧ isActive pair.2 ≠ isActive (onLogEvent pair.2) := by
      unfold pass
      by_cases hne : isActive pair.2 ≠ isActive (onLogEvent pair.2)
      · simp only [hne, if_true, Finset.mem_insert, ne_eq, not_false_eq_true, and_true]
        rw [or_comm, eq_comm]
      · simp only [hne, if_false, and_false, or_false]
    rw [hstep, or_assoc]
    simp only [List.exists_mem_cons_iff]

theorem pass_active (l : List (Sigma fun _ : ConfigKey => Manager)) (p : Passed) (uid : Int) :
    UMap.getD (l.foldl (pass isActive onLogEvent) p).activeConfigsPerUid uid [] =
      UMap.getD p.activeConfigsPerUid uid [] ++
        (l.filter fun pair => decide (pair.1.mUid = uid) && isActive (onLogEvent pair.2)).map (·.1.mId) := by
  induction l generalizing p with
  | nil => simp
  | cons pair l ih =>
    rw [List.foldl_cons, ih]
    unfold pass
    cases hact : isActive (onLogEvent pair.2) with
    | false => simp [hact]
    | true =>
      simp only [if_true]
      unfold UMap.push
      rw [UMap.getD_insert]
      by_cases hu : uid = pair.1.mUid
      · subst hu
        simp [hact]
      · have hu' : pair.1.mUid ≠ uid := fun h => hu h.symm
        simp [hu, hu']

theorem passed_changed (s : ActivationSource Manager) (uid : Int) :
    uid ∈ (passEvent isActive onLogEvent s).uidsWithActiveConfigsChanged ↔
      ActiveChanged isActive onLogEvent s uid := by
  unfold passEvent
  rw [pass_changed]
  simp only [Finset.notMem_empty, false_or]
  constructor
  · rintro ⟨pair, hp, hu, hne⟩
    exact ⟨pair.1, pair.2, AList.mem_lookup_iff.2 hp, hu, hne⟩
  · rintro ⟨key, m, hl, hu, hne⟩
    exact ⟨⟨key, m⟩, AList.mem_lookup_iff.1 hl, hu, hne⟩

variable (it : Iteration)

theorem passed_active (s : ActivationSource Manager) (elapsedRealtimeNs uid : Int) :
    UMap.getD (passEvent isActive onLogEvent s).activeConfigsPerUid uid [] =
      GetActiveConfigsLocked isActive
        (OnLogEvent isActive onLogEvent mSendActivationBroadcast it s elapsedRealtimeNs).1 uid := by
  unfold passEvent
  rw [pass_active, UMap.getD_empty, List.nil_append]
  unfold GetActiveConfigsLocked OnLogEvent UMap.mapVal
  dsimp only
  rw [List.filter_map, List.map_map]
  rfl

/-! ## The loop over the changed uids -/

/-- The loop comes to the uid and sends it its broadcast: neither it nor a uid before it is held back. -/
def Reached (limited : Int → Bool) (order : List Int) (uid : Int) : Prop :=
  ∃ pre post, order = pre ++ uid :: post ∧ ∀ v ∈ pre ++ [uid], limited v = false

variable {limited : Int → Bool}

theorem reached_cons {v : Int} {order : List Int} {uid : Int} (hne : uid ≠ v) :
    Reached limited (v :: order) uid ↔ limited v = false ∧ Reached limited order uid := by
  constructor
  · rintro ⟨pre, post, heq, hpre⟩
    cases pre with
    | nil => exact absurd (List.cons.inj heq).1.symm hne
    | cons w pre =>
      obtain ⟨rfl, rfl⟩ := List.cons.inj heq
      exact ⟨hpre v (by simp), pre, post, rfl, fun x hx => hpre x (List.mem_cons_of_mem _ hx)⟩
  · rintro ⟨hv, pre, post, rfl, hpre⟩
    refine ⟨v :: pre, post, rfl, fun x hx => ?_⟩
    rcases List.mem_cons.1 hx with rfl | hx
    · exact hv
    · exact hpre x hx

theorem reached_head {order : List Int} {uid : Int} (h : limited uid = false) :
    Reached limited (uid :: order) uid := ⟨[], order, rfl, by simpa using h⟩

theorem Reached.mem {order : List Int} {uid : Int} (h : Reached limited order uid) :
    uid ∈ order ∧ limited uid = false := by
  obtain ⟨pre, post, rfl, hpre⟩ := h
  exact ⟨by simp, hpre uid (by simp)⟩

theorem rateLimited_insert (last : UMap Int Int) (now : Int) {uid v : Int} (h : v ≠ uid) :
    rateLimited (last.insert uid now) now v = rateLimited last now v := by
  unfold rateLimited
  rw [AList.lookup_insert_ne h]

theorem sendBroadcasts_calls (active : UMap Int (List Int)) (now uid : Int) (limited : Int → Bool)
    (order : List Int) (last : UMap Int Int) (hnodup : order.Nodup)
    (hlast : ∀ v ∈ order, rateLimited last now v = limited v) :
    (Reached limited order uid →
      ((sendBroadcasts mSendActivationBroadcast active now order last).1.filter fun call =>
        decide (call.uid = uid)) = [⟨uid, UMap.getD active uid []⟩]) ∧
    (¬ Reached limited order uid →
      ((sendBroadcasts mSendActivationBroadcast active now order last).1.filter fun call =>
        decide (call.uid = uid)) = []) := by
  induction order generalizing last with
  | nil =>
    refine ⟨fun h => ?_, fun _ => rfl⟩
    cases h.mem.1
  | cons v order ih =>
    obtain ⟨hv, hnodup⟩ := List.nodup_cons.1 hnodup
    have hlim : rateLimited last now v = limited v := hlast v (List.mem_cons_self ..)
    unfold sendBroadcasts
    rw [hlim]
    cases hl : limited v with
    | true =>
      -- the function returns: no uid is reached
      refine ⟨fun h => ?_, fun _ => rfl⟩
      obtain ⟨pre, post, heq, hpre⟩ := h
      have hmem : v ∈ pre ++ [uid] := by
        cases pre with
        | nil => simp [(List.cons.inj heq).1]
        | cons w pre => simp [(List.cons.inj heq).1]
      rw [hpre v hmem] at hl
      cases hl
    | false =>
      simp only [Bool.false_eq_true, if_false]
      generalize hlast' : (if mSendActivationBroadcast ⟨v, UMap.getD active v []⟩ then last.insert v now else last) = last'
      have hrest : ∀ w ∈ order, rateLimited last' now w = limited w := by
        intro w hw
        have hwv : w ≠ v := by
          rintro rfl
          exact hv hw
        rw [← hlast w (List.mem_cons_of_mem _ hw), ← hlast']
        split
        · exact rateLimited_insert last now hwv
        · rfl
      obtain ⟨hreached, hnot⟩ := ih last' hnodup hrest
      by_cases hu : uid = v
      · subst hu
        have hno : ¬ Reached limited order uid := fun h => hv h.mem.1
        refine ⟨fun _ => ?_, fun h => absurd (reached_head hl) h⟩
        rw [List.filter_cons_of_pos (by simp), hnot hno]
      · rw [List.filter_cons_of_neg (by simpa using Ne.symm hu), reached_cons hu]
        exact ⟨fun h => hreached h.2, fun h => hnot fun hr => h ⟨hl, hr⟩⟩

/-- The changed uids in the order in which the loop comes to them. -/
def changedUids (it : Iteration) (s : ActivationSource Manager) : List Int :=
  it.order (passEvent isActive onLogEvent s).uidsWithActiveConfigsChanged

theorem mem_changedUids (s : ActivationSource Manager) (uid : Int) :
    uid ∈ changedUids isActive onLogEvent it s ↔ ActiveChanged isActive onLogEvent s uid := by
  unfold changedUids
  rw [it.mem, passed_changed]

theorem onLogEvent_calls (s : ActivationSource Manager) (now uid : Int) :
    (Reached (rateLimited s.mLastActivationBroadcastTimes now) (changedUids isActive onLogEvent it s) uid →
      ((OnLogEvent isActive onLogEvent mSendActivationBroadcast it s now).2.filter fun call =>
        decide (call.uid = uid)) =
        [⟨uid, GetActiveConfigsLocked isActive (OnLogEvent isActive onLogEvent mSendActivationBroadcast it s now).1 uid⟩]) ∧
    (¬ Reached (rateLimited s.mLastActivationBroadcastTimes now) (changedUids isActive onLogEvent it s) uid →
      ((OnLogEvent isActive onLogEvent mSendActivationBroadcast it s now).2.filter fun call =>
        decide (call.uid = uid)) = []) := by
  have hcalls := sendBroadcasts_calls mSendActivationBroadcast (passEvent isActive onLogEvent s).activeConfigsPerUid now
    uid (rateLimited s.mLastActivationBroadcastTimes now) (changedUids isActive onLogEvent it s)
    s.mLastActivationBroadcastTimes (it.nodup _) fun v _ => rfl
  rw [passed_active isActive onLogEvent mSendActivationBroadcast it s now uid] at hcalls
  exact hcalls

/-! ## Independence -/

theorem independent_iff_reached (s : ActivationSource Manager) (now : Int) :
    Independent isActive onLogEvent mSendActivationBroadcast it s now ↔
      ∀ uid, ActiveChanged isActive onLogEvent s uid → s.Due now uid →
        Reached (rateLimited s.mLastActivationBroadcastTimes now) (changedUids isActive onLogEvent it s) uid := by
  constructor
  · intro h uid hchanged hdue
    by_contra hr
    have hnone := (onLogEvent_calls isActive onLogEvent mSendActivationBroadcast it s now uid).2 hr
    have hone := (h uid).1 ⟨hchanged, hdue⟩
    rw [hnone] at hone
    cases hone
  · intro h uid
    obtain ⟨hreached, hnot⟩ := onLogEvent_calls isActive onLogEvent mSendActivationBroadcast it s now uid
    refine ⟨fun hd => hreached (h uid hd.1 hd.2), fun hn => hnot fun hr => hn ?_⟩
    exact ⟨(mem_changedUids isActive onLogEvent it s uid).1 hr.mem.1, hr.mem.2⟩

theorem independent_iff_order (s : ActivationSource Manager) (now : Int) :
    Independent isActive onLogEvent mSendActivationBroadcast it s now ↔
      ∀ pre uid post, changedUids isActive onLogEvent it s = pre ++ uid :: post → s.Due now uid →
        ∀ v ∈ pre, s.Due now v := by
  rw [independent_iff_reached]
  have hnodup : (changedUids isActive onLogEvent it s).Nodup := it.nodup _
  constructor
  · intro h pre uid post heq hdue v hv
    have hmem : uid ∈ changedUids isActive onLogEvent it s := by rw [heq]; simp
    obtain ⟨pre', post', heq', hpre'⟩ := h uid ((mem_changedUids isActive onLogEvent it s uid).1 hmem) hdue
    -- a uid stands at one place only
    rw [heq] at hnodup heq'
    have hnot := List.nodup_middle.1 hnodup
    have huid : uid ∉ pre ++ post := (List.nodup_cons.1 hnot).1
    have hsame := (List.append_cons_inj_of_notMem (fun hp => huid (List.mem_append_left _ hp))
      (fun hp => huid (List.mem_append_right _ hp))).1 heq'
    rw [hsame.1] at hv
    exact hpre' v (List.mem_append_left _ hv)
  · intro h uid hchanged hdue
    obtain ⟨pre, post, heq⟩ := List.append_of_mem ((mem_changedUids isActive onLogEvent it s uid).2 hchanged)
    refine ⟨pre, post, heq, fun v hv => ?_⟩
    rcases List.mem_append.1 hv with hv | hv
    · exact h pre uid post heq hdue v hv
    · rw [List.mem_singleton.1 hv]
      exact hdue

/-- The order that takes a uid first. -/
def Iteration.front (uid : Int) : Iteration where
  order s := if uid ∈ s then uid :: (s.erase uid).sort else s.sort
  nodup s := by
    split
    · exact List.nodup_cons.2 ⟨by simp, Finset.sort_nodup _ _⟩
    · exact Finset.sort_nodup _ _
  mem s u := by
    split
    · rename_i h
      rw [List.mem_cons, Finset.mem_sort, Finset.mem_erase]
      constructor
      · rintro (rfl | hu)
        · exact h
        · exact hu.2
      · intro hu
        by_cases he : u = uid
        · exact .inl he
        · exact .inr ⟨he, hu⟩
    · exact Finset.mem_sort _

/-- For every state and event: in an iteration order the broadcasts of the uids are independent exactly when no
changed uid that is held back by its rate limit stands before one that is due; and they are in every order
exactly when all changed uids are due, or none. -/
theorem activation_broadcasts_independent_iff (s : ActivationSource Manager) (now : Int) :
    (∀ it : Iteration, Independent isActive onLogEvent mSendActivationBroadcast it s now ↔
      ∀ pre uid post, changedUids isActive onLogEvent it s = pre ++ uid :: post → s.Due now uid →
        ∀ v ∈ pre, s.Due now v) ∧
    ((∀ it : Iteration, Independent isActive onLogEvent mSendActivationBroadcast it s now) ↔
      ∀ u v, ActiveChanged isActive onLogEvent s u → ActiveChanged isActive onLogEvent s v → s.Due now u →
        s.Due now v) := by
  refine ⟨fun it => independent_iff_order isActive onLogEvent mSendActivationBroadcast it s now, ?_, ?_⟩
  · intro h u v hu hv hdue
    -- in the order that takes `v` first it stands before `u`
    by_cases huv : u = v
    · rw [← huv]; exact hdue
    · have hmem := (mem_changedUids isActive onLogEvent (Iteration.front v) s u).2 hu
      have hcons : changedUids isActive onLogEvent (Iteration.front v) s =
          v :: ((passEvent isActive onLogEvent s).uidsWithActiveConfigsChanged.erase v).sort :=
        if_pos ((passed_changed isActive onLogEvent s v).2 hv)
      rw [hcons] at hmem
      obtain ⟨pre, post, heq⟩ := List.append_of_mem ((List.mem_cons.1 hmem).resolve_left huv)
      have hall := (independent_iff_order isActive onLogEvent mSendActivationBroadcast (Iteration.front v) s now).1
        (h (Iteration.front v)) (v :: pre) u post (by rw [hcons, heq]; rfl) hdue
      exact hall v (List.mem_cons_self ..)
  · intro h it
    rw [independent_iff_order]
    intro pre uid post heq hdue v hv
    have hchanged : ∀ w ∈ changedUids isActive onLogEvent it s, ActiveChanged isActive onLogEvent s w :=
      fun w hw => (mem_changedUids isActive onLogEvent it s w).1 hw
    refine h uid v (hchanged uid ?_) (hchanged v ?_) hdue
    · rw [heq]; simp
    · rw [heq]; simp [hv]

end

/-! ## Two uids -/

/-- The configs of the uids 1 and 2, both activated by the event, with the broadcast times given. -/
def twoUids (last : UMap Int Int) : ActivationSource Bool where
  mMetricsManagers := ((∅ : UMap ConfigKey Bool).insert ⟨1, 10⟩ false).insert ⟨2, 20⟩ false
  mLastActivationBroadcastTimes := last

/-- Uid 1 was told a second ago: uid 2, which was never told, is not told either when 1 comes first. -/
theorem activation_broadcast_lost :
    ¬ ∀ (isActive : Bool → Bool) (onLogEvent : Bool → Bool) (send : ActivationBroadcast → Bool)
      (s : ActivationSource Bool) (now : Int) (it : Iteration), Independent isActive onLogEvent send it s now := by
  intro h
  have hind := h id (fun _ => true) (fun _ => true) (twoUids ((∅ : UMap Int Int).insert 1 0)) 1000000000 (Iteration.front 1)
  have hone := (hind 2).1 ⟨⟨⟨2, 20⟩, false, by decide +kernel, rfl, by decide⟩, by unfold Due; decide +kernel⟩
  have hnone : ((OnLogEvent id (fun _ => true) (fun _ => true) (Iteration.front 1)
      (twoUids ((∅ : UMap Int Int).insert 1 0)) 1000000000).2.filter fun call => decide (call.uid = 2)) = [] := by
    decide +kernel
  rw [hnone] at hone
  cases hone

end ActivationSource

end Statsd
