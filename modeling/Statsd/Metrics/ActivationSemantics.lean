/-
What activation means over a whole run: right after an event, a metric is active if and only if it
has no activations, or one of its activations was last turned on by an event of which the time to live
has not passed (or by this very event), and no later event matched its deactivation. The manager is
active when it has no metrics, a metric without an activation, or an active metric.

The loops of the manager touch several metrics; they are first read metric by metric.
-/
import Statsd.Metrics.ActivationState

namespace Statsd.Metrics

open MetricProducer MetricsManager Matchers

/-! ## Loops over metrics -/

theorem getElem?_foldl_modify {α β : Type} (g : β → Nat) (f : β → α → α) (l : List β) (ps : List α) (i : Nat) :
    (l.foldl (fun ps x => ps.modify (g x) (f x)) ps)[i]? =
      ps[i]?.map fun p => (l.filter (fun x => decide (g x = i))).foldl (fun p x => f x p) p := by
  induction l generalizing ps with
  | nil => simp
  | cons x l ih =>
    rw [List.foldl_cons, ih, List.getElem?_modify, List.filter_cons]
    by_cases hx : g x = i
    · subst hx
      simp only [decide_true, if_true, List.foldl_cons]
      cases ps[g x]? <;> rfl
    · simp only [hx, decide_false, Bool.false_eq_true, if_false]
      cases ps[i]? <;> rfl

variable {p : MetricProducer} {σ σ' : Nat → Nat → Option Int} {ps : List MetricProducer} {i : Nat}

theorem filter_eq_nil_of_notMem {l : List Nat} (h : i ∉ l) : l.filter (fun x => decide (x = i)) = [] := by
  rw [List.filter_eq_nil_iff]
  intro x hx hxi
  rw [of_decide_eq_true hxi] at hx
  exact h hx

/-- The matched entries of a table, one pair for each matcher and metric. -/
def hits (matcherCache : MatcherCache) (table : UMap Nat (List Nat)) : List (Nat × Nat) :=
  table.entries.flatMap fun it => if matcherCache it.1 = .kMatched then it.2.map (Prod.mk it.1) else []

theorem mem_hits (matcherCache : MatcherCache) (table : UMap Nat (List Nat)) (k i : Nat) :
    (k, i) ∈ hits matcherCache table ↔ matcherCache k = .kMatched ∧ i ∈ UMap.getD table k [] := by
  unfold hits
  rw [List.mem_flatMap]
  constructor
  · rintro ⟨it, hit, hmem⟩
    split at hmem
    · rename_i hm
      obtain ⟨j, hj, heq⟩ := List.mem_map.1 hmem
      cases heq
      have hl : table.lookup it.1 = some it.2 := AList.mem_lookup_iff.2 hit
      rw [UMap.getD_of_lookup_some hl]
      exact ⟨hm, hj⟩
    · cases hmem
  · rintro ⟨hm, hi⟩
    cases hl : table.lookup k with
    | none => rw [UMap.getD_of_lookup_none hl] at hi; cases hi
    | some l =>
      rw [UMap.getD_of_lookup_some hl] at hi
      refine ⟨⟨k, l⟩, AList.mem_lookup_iff.1 hl, ?_⟩
      rw [if_pos hm]
      exact List.mem_map.2 ⟨i, hi, rfl⟩

theorem foldl_hits {S : Type} (matcherCache : MatcherCache) (table : UMap Nat (List Nat))
    (F : S → (Sigma fun _ : Nat => List Nat) → S) (f : S → Nat × Nat → S)
    (hF : ∀ s it, F s it = if matcherCache it.1 = .kMatched then (it.2.map (Prod.mk it.1)).foldl f s else s) (s : S) :
    table.entries.foldl F s = (hits matcherCache table).foldl f s := by
  unfold hits
  generalize table.entries = l
  induction l generalizing s with
  | nil => rfl
  | cons it l ih =>
    rw [List.foldl_cons, List.flatMap_cons, List.foldl_append, ih, hF]
    split <;> rfl

/-- One pair of the cancel loop. -/
def cancelHit (s : List MetricProducer × List Nat) (x : Nat × Nat) : List MetricProducer × List Nat :=
  (s.1.modify x.2 (·.cancelEventActivationLocked x.1), s.2 ++ [x.2])

/-- One pair of the activate loop. -/
def activateHit (eventTimeNs : Int) (s : List MetricProducer × Bool) (x : Nat × Nat) : List MetricProducer × Bool :=
  let producers := s.1.modify x.2 (·.activateLocked x.1 eventTimeNs)
  (producers, s.2 || isActiveAt producers x.2)

theorem foldl_cancelLoop (matcherCache : MatcherCache) (table : UMap Nat (List Nat))
    (s : List MetricProducer × List Nat) :
    table.entries.foldl (cancelLoop matcherCache) s = (hits matcherCache table).foldl cancelHit s := by
  refine foldl_hits matcherCache table _ cancelHit (fun s it => ?_) s
  unfold cancelLoop
  split
  · rw [List.foldl_map]; rfl
  · rfl

theorem foldl_activateLoop (matcherCache : MatcherCache) (eventTimeNs : Int) (table : UMap Nat (List Nat))
    (s : List MetricProducer × Bool) :
    table.entries.foldl (activateLoop matcherCache eventTimeNs) s =
      (hits matcherCache table).foldl (activateHit eventTimeNs) s := by
  refine foldl_hits matcherCache table _ (activateHit eventTimeNs) (fun s it => ?_) s
  unfold activateLoop
  split
  · rw [List.foldl_map]; rfl
  · rfl

theorem foldl_fst {S T β : Type} (F : S × T → β → S × T) (f : S → β → S) (hF : ∀ s x, (F s x).1 = f s.1 x)
    (l : List β) (s : S × T) : (l.foldl F s).1 = l.foldl f s.1 := by
  induction l generalizing s with
  | nil => rfl
  | cons x l ih => rw [List.foldl_cons, List.foldl_cons, ih, hF]

theorem cancelHit_snd (l : List (Nat × Nat)) (s : List MetricProducer × List Nat) :
    (l.foldl cancelHit s).2 = s.2 ++ l.map (·.2) := by
  induction l generalizing s with
  | nil => simp
  | cons x l ih => rw [List.foldl_cons, ih]; simp [cancelHit]

/-! ## The flags of a loop -/

theorem expired_expired (t : Int) (a : Act) (s : Option Int) : expired t a (expired t a s) = expired t a s := by
  cases s with
  | none => rfl
  | some s =>
    by_cases h : t ≤ a.ttl_ns + s
    · simp [expired, Option.filter, h]
    · simp [expired, Option.filter, h]

theorem State.flushes {A : List Act} {t : Int} {β : Type} :
    ∀ (l : List β) {σ σ' : Nat → Option Int} {p : MetricProducer}, l ≠ [] → State A σ p →
      (∀ o a, A[o]? = some a → σ' o = expired t a (σ o)) →
      Exact A σ' (l.foldl (fun p _ => p.flushIfExpire t) p)
  | [], _, _, _, h, _, _ => absurd rfl h
  | [_], _, _, _, _, h, hσ => h.flushIfExpire t hσ
  | _ :: y :: l, _, σ', _, _, h, hσ => by
    refine State.flushes (y :: l) (List.cons_ne_nil _ _) (h.flushIfExpire t hσ).toState fun o a ha => ?_
    rw [hσ o a ha, expired_expired]

theorem foldl_sets {A : List Act} {P : (Nat → Option Int) → MetricProducer → Prop} {f : MetricProducer → Nat × Nat → MetricProducer}
    {v : Option Int} {c : Act → Nat → Prop} [∀ a k, Decidable (c a k)]
    (hcongr : ∀ {σ σ' p}, P σ p → (∀ o a, A[o]? = some a → σ' o = σ o) → P σ' p)
    (hstep : ∀ {σ σ' p} x, P σ p → (∀ o a, A[o]? = some a → σ' o = if c a x.1 then v else σ o) → P σ' (f p x))
    (l : List (Nat × Nat)) {σ σ' : Nat → Option Int} (h : P σ p)
    (hσ : ∀ o a, A[o]? = some a → σ' o = if ∃ x ∈ l, c a x.1 then v else σ o) : P σ' (l.foldl f p) := by
  induction l generalizing σ p with
  | nil => exact hcongr h fun o a ha => by simpa using hσ o a ha
  | cons x l ih =>
    have hx : P (fun o => (A[o]?).bind fun a => if c a x.1 then v else σ o) (f p x) := hstep x h fun o a ha => by simp [ha]
    refine ih hx fun o a ha => ?_
    rw [hσ o a ha, ha]
    by_cases hx : c a x.1
    · simp [hx]
    · simp only [List.exists_mem_cons_iff, hx, false_or, Option.bind_some, if_false]

theorem State.cancels {A : List Act} (l : List (Nat × Nat)) {σ σ' : Nat → Option Int} (h : State A σ p)
    (hσ : ∀ o a, A[o]? = some a → σ' o = if ∃ x ∈ l, a.deactivation = some x.1 then none else σ o) :
    State A σ' (l.foldl (fun p x => p.cancelEventActivationLocked x.1) p) :=
  foldl_sets (P := State A) (c := fun a d => a.deactivation = some d) State.congr (fun x h hσ => h.cancel x.1 hσ) l h hσ

theorem Exact.activates {A : List Act} {t : Int} (l : List (Nat × Nat)) {σ σ' : Nat → Option Int} (h : Exact A σ p)
    (hσ : ∀ o a, A[o]? = some a → σ' o = if ∃ x ∈ l, a.index = x.1 then some t else σ o) :
    Exact A σ' (l.foldl (fun p x => p.activateLocked x.1 t) p) :=
  foldl_sets (P := Exact A) (c := fun a k => a.index = k) Exact.congr (fun x h hσ => h.activate x.1 t hσ) l h hσ

/-- An activation's state after an event at `t`: turned on by its matcher, else off by its
deactivation matcher, else as the expiry check leaves it. -/
def after (matched : Nat → Prop) [DecidablePred matched] (t : Int) (a : Act) (s : Option Int) : Option Int :=
  if matched a.index then some t
  else if ∃ d ∈ a.deactivation, matched d then none
  else expired t a s

/-! ## The manager -/

/-- The manager's tables for metrics with the activations `As`. -/
structure Tables (As : List (List Act)) (m : MetricsManager) : Prop where
  activation : ∀ k i, i ∈ UMap.getD m.mActivationAtomTrackerToMetricMap k [] ↔
    ∃ A a, As[i]? = some A ∧ a ∈ A ∧ a.index = k
  deactivation : ∀ d i, i ∈ UMap.getD m.mDeactivationAtomTrackerToMetricMap d [] ↔
    ∃ A a, As[i]? = some A ∧ a ∈ A ∧ a.deactivation = some d
  nodup : m.mMetricIndexesWithActivation.Nodup
  activated : ∀ i A, As[i]? = some A → A ≠ [] → i ∈ m.mMetricIndexesWithActivation
  tags : ∀ t ∈ m.mAllAtomMatchingTrackers, t.mAtomIds ⊆ m.mTagIds

/-- The producers of the metrics `As`, with activation `o` of metric `i` active since `σ i o`. -/
def Producers (As : List (List Act)) (σ : Nat → Nat → Option Int) (producers : List MetricProducer) : Prop :=
  producers.length = As.length ∧ ∀ i A, As[i]? = some A → ∃ p, producers[i]? = some p ∧ Exact A (σ i) p

/-- The tracker at an index matches the event. -/
def MatchedAt (trackers : List AtomMatchingTracker) (event : LogEvent) (k : Nat) : Prop :=
  matcherCache trackers event k = .kMatched

instance (trackers : List AtomMatchingTracker) (event : LogEvent) : DecidablePred (MatchedAt trackers event) :=
  fun k => decEq (matcherCache trackers event k) .kMatched

/-- The states of all activations after an event. -/
def afterAll (As : List (List Act)) (trackers : List AtomMatchingTracker) (event : LogEvent)
    (σ : Nat → Nat → Option Int) : Nat → Nat → Option Int :=
  fun i o => match As[i]? with
    | none => none
    | some A =>
      match A[o]? with
      | none => none
      | some a => after (MatchedAt trackers event) event.elapsedTimestampNs a (σ i o)

variable {As : List (List Act)} {m : MetricsManager}

theorem Tables.not_matched (h : Tables As m) {event : LogEvent}
    (htag : event.tagId ∉ m.mTagIds) (k : Nat) : ¬ MatchedAt m.mAllAtomMatchingTrackers event k := by
  intro hk
  obtain ⟨t, ht, hm⟩ := matcherCache_ofAtoms m.mAllAtomMatchingTrackers event k hk
  exact htag (h.tags t (List.mem_of_getElem? ht) hm)

theorem length_foldl_modify {α β : Type} (g : β → Nat) (f : β → α → α) (l : List β) (ps : List α) :
    (l.foldl (fun ps x => ps.modify (g x) (f x)) ps).length = ps.length := by
  induction l generalizing ps with
  | nil => rfl
  | cons x l ih => rw [List.foldl_cons, ih, List.length_modify]

theorem filter_ne_nil_of_mem {l : List Nat} (h : i ∈ l) : l.filter (fun x => decide (x = i)) ≠ [] :=
  List.ne_nil_of_mem (List.mem_filter.2 ⟨h, decide_eq_true rfl⟩)

theorem Producers.expire (h : Producers As σ ps) {t : Int} {l : List Nat} (hl : ∀ i A, As[i]? = some A → A ≠ [] → i ∈ l)
    (hσ : ∀ i A o a, As[i]? = some A → A[o]? = some a → σ' i o = expired t a (σ i o)) (acc : List Nat) :
    Producers As σ' (l.foldl (expireLoop t) (ps, acc)).1 := by
  rw [foldl_fst (expireLoop t) (fun ps i => ps.modify i (·.flushIfExpire t)) (fun _ _ => rfl)]
  refine ⟨(length_foldl_modify _ _ _ _).trans h.1, fun i A hA => ?_⟩
  obtain ⟨p, hp, hex⟩ := h.2 i A hA
  refine ⟨_, by rw [getElem?_foldl_modify, hp]; rfl, ?_⟩
  by_cases hi : i ∈ l
  · exact hex.toState.flushes _ (filter_ne_nil_of_mem hi) fun o a ha => hσ i A o a hA ha
  · rw [filter_eq_nil_of_notMem hi]
    -- a metric that is not visited has no activations
    refine hex.congr fun o a ha => ?_
    have hA0 : A = [] := by
      by_contra hne
      exact hi (hl i A hA hne)
    rw [hA0] at ha
    simp at ha

theorem mem_hits_filter (c : MatcherCache) (table : UMap Nat (List Nat)) (i : Nat) (x : Nat × Nat) :
    x ∈ (hits c table).filter (fun x => decide (x.2 = i)) ↔ x.2 = i ∧ c x.1 = .kMatched ∧ i ∈ UMap.getD table x.1 [] := by
  obtain ⟨k, j⟩ := x
  rw [List.mem_filter, mem_hits]
  simp only [decide_eq_true_eq]
  constructor
  · rintro ⟨⟨h1, h2⟩, rfl⟩; exact ⟨rfl, h1, h2⟩
  · rintro ⟨rfl, h1, h2⟩; exact ⟨⟨h1, h2⟩, rfl⟩

theorem Producers.cancel (hT : Tables As m) (h : Producers As σ ps) (t : Int) (event : LogEvent)
    (hexp : ∀ i A o a, As[i]? = some A → A[o]? = some a → expired t a (σ i o) = σ i o)
    (hσ : ∀ i A o a, As[i]? = some A → A[o]? = some a →
      σ' i o = if ∃ d ∈ a.deactivation, MatchedAt m.mAllAtomMatchingTrackers event d then none else σ i o)
    {H : List (Nat × Nat)}
    (hH : H = hits (matcherCache m.mAllAtomMatchingTrackers event) m.mDeactivationAtomTrackerToMetricMap)
    (acc acc' : List Nat) :
    Producers As σ' (((H.map (·.2)).dedup).foldl (cancelledLoop t) ((H.foldl cancelHit (ps, acc')).1, acc)).1 := by
  rw [foldl_fst (cancelledLoop t) (fun ps i => ps.modify i (·.flushIfExpire t)) (fun _ _ => rfl),
    foldl_fst cancelHit (fun ps x => ps.modify x.2 (·.cancelEventActivationLocked x.1)) (fun _ _ => rfl)]
  refine ⟨((length_foldl_modify _ _ _ _).trans (length_foldl_modify _ _ _ _)).trans h.1, fun i A hA => ?_⟩
  obtain ⟨p, hp, hex⟩ := h.2 i A hA
  refine ⟨_, by rw [getElem?_foldl_modify, getElem?_foldl_modify, hp]; rfl, ?_⟩
  dsimp only
  have hmem : ∀ a ∈ A, (∃ x ∈ H.filter (fun x => decide (x.2 = i)), a.deactivation = some x.1) ↔
      ∃ d ∈ a.deactivation, MatchedAt m.mAllAtomMatchingTrackers event d := by
    intro a ha
    subst hH
    constructor
    · rintro ⟨x, hx, hd⟩
      rw [mem_hits_filter] at hx
      exact ⟨x.1, hd, hx.2.1⟩
    · rintro ⟨d, hd, hm⟩
      refine ⟨(d, i), ?_, hd⟩
      rw [mem_hits_filter]
      exact ⟨rfl, hm, (hT.deactivation d i).2 ⟨A, a, hA, ha, hd⟩⟩
  have hst : State A (σ' i) ((H.filter fun x => decide (x.2 = i)).foldl
      (fun p x => p.cancelEventActivationLocked x.1) p) := by
    refine hex.toState.cancels _ fun o a ha => ?_
    rw [hσ i A o a hA ha]
    have hiff := hmem a (List.mem_of_getElem? ha)
    by_cases hd : ∃ d ∈ a.deactivation, MatchedAt m.mAllAtomMatchingTrackers event d
    · rw [if_pos hd, if_pos (hiff.2 hd)]
    · rw [if_neg hd, if_neg (fun hx => hd (hiff.1 hx))]
  by_cases hi : i ∈ (H.map (·.2)).dedup
  · refine hst.flushes _ (filter_ne_nil_of_mem hi) fun o a ha => ?_
    rw [hσ i A o a hA ha]
    split
    · rfl
    · exact (hexp i A o a hA ha).symm
  · rw [filter_eq_nil_of_notMem hi]
    have hnil : H.filter (fun x => decide (x.2 = i)) = [] := by
      rw [List.filter_eq_nil_iff]
      intro x hx hxi
      exact hi (List.mem_dedup.2 (List.mem_map.2 ⟨x, hx, of_decide_eq_true hxi⟩))
    rw [hnil]
    refine hex.congr fun o a ha => ?_
    rw [hσ i A o a hA ha, if_neg]
    rw [← hmem a (List.mem_of_getElem? ha), hnil]
    simp

theorem Producers.activate (hT : Tables As m) (h : Producers As σ ps) (t : Int) (event : LogEvent)
    (hσ : ∀ i A o a, As[i]? = some A → A[o]? = some a →
      σ' i o = if MatchedAt m.mAllAtomMatchingTrackers event a.index then some t else σ i o)
    {H : List (Nat × Nat)}
    (hH : H = hits (matcherCache m.mAllAtomMatchingTrackers event) m.mActivationAtomTrackerToMetricMap) (b : Bool) :
    Producers As σ' (H.foldl (activateHit t) (ps, b)).1 := by
  rw [foldl_fst (activateHit t) (fun ps x => ps.modify x.2 (·.activateLocked x.1 t)) (fun _ _ => rfl)]
  refine ⟨(length_foldl_modify _ _ _ _).trans h.1, fun i A hA => ?_⟩
  obtain ⟨p, hp, hex⟩ := h.2 i A hA
  refine ⟨_, by rw [getElem?_foldl_modify, hp]; rfl, ?_⟩
  refine hex.activates _ fun o a ha => ?_
  rw [hσ i A o a hA ha]
  have hmem : (∃ x ∈ H.filter (fun x => decide (x.2 = i)), a.index = x.1) ↔
      MatchedAt m.mAllAtomMatchingTrackers event a.index := by
    subst hH
    constructor
    · rintro ⟨x, hx, hd⟩
      rw [mem_hits_filter] at hx
      rw [hd]; exact hx.2.1
    · intro hm
      refine ⟨(a.index, i), ?_, rfl⟩
      rw [mem_hits_filter]
      exact ⟨rfl, hm, (hT.activation a.index i).2 ⟨A, a, hA, List.mem_of_getElem? ha, rfl⟩⟩
  by_cases hm : MatchedAt m.mAllAtomMatchingTrackers event a.index
  · rw [if_pos hm, if_pos (hmem.2 hm)]
  · rw [if_neg hm, if_neg (fun hx => hm (hmem.1 hx))]

/-! ## One event -/

theorem onLogEvent_eq (m : MetricsManager) (event : LogEvent) :
    m.onLogEvent event =
      let t := event.elapsedTimestampNs
      let r1 := m.mMetricIndexesWithActivation.foldl (expireLoop t) (m.mAllMetricProducers, [])
      if event.tagId ∉ m.mTagIds then
        { m with mAllMetricProducers := r1.1, mIsActive := m.mIsAlwaysActive || !r1.2.isEmpty }
      else
        let c := matcherCache m.mAllAtomMatchingTrackers event
        let H := hits c m.mDeactivationAtomTrackerToMetricMap
        let r3 := ((H.map (·.2)).dedup).foldl (cancelledLoop t) ((H.foldl cancelHit (r1.1, [])).1, r1.2)
        let r4 := (hits c m.mActivationAtomTrackerToMetricMap).foldl (activateHit t)
          (r3.1, m.mIsAlwaysActive || !r3.2.isEmpty)
        { m with mAllMetricProducers := r4.1, mIsActive := r4.2 } := by
  unfold MetricsManager.onLogEvent
  dsimp only
  rw [foldl_cancelLoop, foldl_activateLoop, cancelHit_snd]
  rfl

theorem cancelEventActivationLocked_active (p : MetricProducer) (k : Nat) :
    (p.cancelEventActivationLocked k).mIsActive = p.mIsActive := by
  unfold cancelEventActivationLocked
  split <;> rfl

/-- The state a manager keeps between events. -/
structure Manages (As : List (List Act)) (σ : Nat → Nat → Option Int) (m : MetricsManager) : Prop where
  tables : Tables As m
  producers : Producers As σ m.mAllMetricProducers

theorem Tables.of_eq {m m' : MetricsManager} (h : Tables As m)
    (h1 : m'.mActivationAtomTrackerToMetricMap = m.mActivationAtomTrackerToMetricMap)
    (h2 : m'.mDeactivationAtomTrackerToMetricMap = m.mDeactivationAtomTrackerToMetricMap)
    (h3 : m'.mMetricIndexesWithActivation = m.mMetricIndexesWithActivation)
    (h4 : m'.mAllAtomMatchingTrackers = m.mAllAtomMatchingTrackers) (h5 : m'.mTagIds = m.mTagIds) : Tables As m' := by
  refine ⟨?_, ?_, ?_, ?_, ?_⟩
  · rw [h1]; exact h.activation
  · rw [h2]; exact h.deactivation
  · rw [h3]; exact h.nodup
  · rw [h3]; exact h.activated
  · rw [h4, h5]; exact h.tags

theorem onLogEvent_frame (m : MetricsManager) (event : LogEvent) :
    (m.onLogEvent event).mAllAtomMatchingTrackers = m.mAllAtomMatchingTrackers ∧
    (m.onLogEvent event).mTagIds = m.mTagIds ∧
    (m.onLogEvent event).mActivationAtomTrackerToMetricMap = m.mActivationAtomTrackerToMetricMap ∧
    (m.onLogEvent event).mDeactivationAtomTrackerToMetricMap = m.mDeactivationAtomTrackerToMetricMap ∧
    (m.onLogEvent event).mMetricIndexesWithActivation = m.mMetricIndexesWithActivation ∧
    (m.onLogEvent event).mIsAlwaysActive = m.mIsAlwaysActive := by
  rw [onLogEvent_eq]
  dsimp only
  split
  · exact ⟨rfl, rfl, rfl, rfl, rfl, rfl⟩
  · exact ⟨rfl, rfl, rfl, rfl, rfl, rfl⟩

theorem Manages.onLogEvent {σ : Nat → Nat → Option Int} (h : Manages As σ m) (event : LogEvent) :
    Manages As (afterAll As m.mAllAtomMatchingTrackers event σ) (m.onLogEvent event) := by
  obtain ⟨f1, f2, f3, f4, f5, -⟩ := onLogEvent_frame m event
  refine ⟨h.tables.of_eq f3 f4 f5 f1 f2, ?_⟩
  -- the states after each of the three loops
  let t := event.elapsedTimestampNs
  let σ1 : Nat → Nat → Option Int := fun i o => match As[i]? with
    | none => none
    | some A => match A[o]? with
      | none => none
      | some a => expired t a (σ i o)
  let σ2 : Nat → Nat → Option Int := fun i o => match As[i]? with
    | none => none
    | some A => match A[o]? with
      | none => none
      | some a => if ∃ d ∈ a.deactivation, MatchedAt m.mAllAtomMatchingTrackers event d then none else σ1 i o
  have hσ1 : ∀ i A o a, As[i]? = some A → A[o]? = some a → σ1 i o = expired t a (σ i o) := by
    intro i A o a hA ha; simp only [σ1, hA, ha]
  have hσ2 : ∀ i A o a, As[i]? = some A → A[o]? = some a →
      σ2 i o = if ∃ d ∈ a.deactivation, MatchedAt m.mAllAtomMatchingTrackers event d then none else σ1 i o := by
    intro i A o a hA ha; simp only [σ2, hA, ha]
  have hafter : ∀ i A o a, As[i]? = some A → A[o]? = some a →
      afterAll As m.mAllAtomMatchingTrackers event σ i o =
        if MatchedAt m.mAllAtomMatchingTrackers event a.index then some t else σ2 i o := by
    intro i A o a hA ha
    rw [hσ2 i A o a hA ha, hσ1 i A o a hA ha]
    simp only [afterAll, hA, ha]
    rfl
  have hp1 := h.producers.expire h.tables.activated hσ1 []
  rw [onLogEvent_eq]
  dsimp only
  split
  · rename_i htag
    refine ⟨hp1.1, fun i A hA => ?_⟩
    obtain ⟨p, hp, hex⟩ := hp1.2 i A hA
    refine ⟨p, hp, hex.congr fun o a ha => ?_⟩
    have hno := h.tables.not_matched htag
    rw [hafter i A o a hA ha, if_neg (hno _), hσ2 i A o a hA ha, if_neg (fun ⟨d, _, hd⟩ => hno d hd)]
  · have hexp : ∀ i A o a, As[i]? = some A → A[o]? = some a → expired t a (σ1 i o) = σ1 i o := by
      intro i A o a hA ha
      rw [hσ1 i A o a hA ha, expired_expired]
    have hp2 := hp1.cancel h.tables t event hexp hσ2 rfl
      (m.mMetricIndexesWithActivation.foldl (expireLoop t) (m.mAllMetricProducers, [])).2 []
    exact hp2.activate h.tables t event hafter rfl _

end Statsd.Metrics
