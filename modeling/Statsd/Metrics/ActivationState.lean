/-
What the activation operations do to one metric. `State A σ p` says that the producer `p` was built
from the activations `A` and that activation `o` is active since `σ o`; expiring, cancelling and
activating act on `σ`, and after an expiry check the active flag of the metric agrees with it.
-/
import Statsd.Metrics.Activation

namespace Statsd.Metrics

open MetricProducer

/-- An event activation with its matchers resolved to indices. -/
structure Act where
  index : Nat
  ttl_ns : Int
  deactivation : Option Nat

/-- Since when an activation is active. -/
def activeSince (x : Activation) : Option Int := if x.state = .kActive then some x.start_ns else none

/-- The tables of a metric with the activations `A`, one object for each. -/
structure Built (A : List Act) (p : EventActivations) : Prop where
  length : p.activations.length = A.length
  activation : ∀ k o, p.mEventActivationMap.lookup k = some o ↔ ∃ a, A[o]? = some a ∧ a.index = k
  deactivation : ∀ d o, o ∈ UMap.getD p.mEventDeactivationMap d [] ↔ ∃ a, A[o]? = some a ∧ a.deactivation = some d

/-- The objects of the activations `A`, active since `σ`. -/
def Objects (A : List Act) (σ : Nat → Option Int) (activations : List Activation) : Prop :=
  ∀ o a, A[o]? = some a → ∃ x, activations[o]? = some x ∧ x.ttl_ns = a.ttl_ns ∧
    x.activationType ≠ .ACTIVATE_ON_BOOT ∧ activeSince x = σ o

/-- Some activation is active. -/
def AnyActive (A : List Act) (σ : Nat → Option Int) : Prop := ∃ o a, A[o]? = some a ∧ (σ o).isSome = true

structure State (A : List Act) (σ : Nat → Option Int) (p : MetricProducer) : Prop where
  built : Built A p.toEventActivations
  objects : Objects A σ p.activations
  active : A = [] ∨ AnyActive A σ → p.mIsActive = true

/-- The flag is exact. -/
structure Exact (A : List Act) (σ : Nat → Option Int) (p : MetricProducer) : Prop extends State A σ p where
  exact : p.mIsActive = true → A = [] ∨ AnyActive A σ

variable {A : List Act} {p : MetricProducer} {σ : Nat → Option Int} (t : Int)

theorem State.congr {σ σ' : Nat → Option Int} (h : State A σ p)
    (hσ : ∀ o a, A[o]? = some a → σ' o = σ o) : State A σ' p := by
  refine ⟨h.built, fun o a ha => ?_, ?_⟩
  · obtain ⟨x, hx, h1, h2, h3⟩ := h.objects o a ha
    exact ⟨x, hx, h1, h2, h3.trans (hσ o a ha).symm⟩
  · rintro (h0 | ⟨o, a, ha, hs⟩)
    · exact h.active (.inl h0)
    · exact h.active (.inr ⟨o, a, ha, hσ o a ha ▸ hs⟩)

theorem Exact.congr {σ σ' : Nat → Option Int} (h : Exact A σ p)
    (hσ : ∀ o a, A[o]? = some a → σ' o = σ o) : Exact A σ' p := by
  refine ⟨h.toState.congr hσ, fun hp => ?_⟩
  rcases h.exact hp with h0 | ⟨o, a, ha, hs⟩
  · exact .inl h0
  · exact .inr ⟨o, a, ha, by rw [hσ o a ha]; exact hs⟩

/-! ## Expiry -/

/-- An activation's state after the expiry check at `t`. -/
def expired (t : Int) (a : Act) (s : Option Int) : Option Int := s.filter fun s => decide (t ≤ a.ttl_ns + s)

theorem activeSince_expire (a : Act) (x : Activation) (h : x.ttl_ns = a.ttl_ns) :
    activeSince (expire t x) = expired t a (activeSince x) := by
  unfold expire
  split
  · rename_i hx
    have : activeSince x = some x.start_ns := if_pos hx.1
    rw [this]
    have hlt : ¬ t ≤ a.ttl_ns + x.start_ns := by have := hx.2; omega
    simp [activeSince, expired, Option.filter, hlt]
  · rename_i hx
    by_cases hs : x.state = .kActive
    · have hle : t ≤ a.ttl_ns + x.start_ns := by
        by_contra hgt
        exact hx ⟨hs, by omega⟩
      simp [activeSince, expired, Option.filter, hs, hle]
    · simp [activeSince, expired, hs]

theorem expire_ttl (x : Activation) : (expire t x).ttl_ns = x.ttl_ns := by
  unfold expire; split <;> rfl

theorem expire_type (x : Activation) : (expire t x).activationType = x.activationType := by
  unfold expire; split <;> rfl

theorem expire_expire (x : Activation) : expire t (expire t x) = expire t x := by
  unfold expire
  by_cases h : x.state = .kActive ∧ t > x.ttl_ns + x.start_ns
  · rw [if_pos h, if_neg (fun hc => by cases hc.1)]
  · rw [if_neg h, if_neg h]

theorem getElem?_evaluate (l : List (Sigma fun _ : Nat => Nat)) (s : List Activation × Bool) (j : Nat) :
    (l.foldl (evaluateActivation t) s).1[j]? =
      if ∃ it ∈ l, it.2 = j then s.1[j]?.map (expire t) else s.1[j]? := by
  induction l generalizing s with
  | nil => simp
  | cons it l ih =>
    rw [List.foldl_cons, ih]
    have hstep : (evaluateActivation t s it).1[j]? = if it.2 = j then s.1[j]?.map (expire t) else s.1[j]? := by
      unfold evaluateActivation
      rw [List.getElem?_modify]
      split <;> simp_all
    rw [hstep]
    by_cases hj : it.2 = j
    · have hex : ∃ it' ∈ it :: l, it'.2 = j := ⟨it, List.mem_cons_self .., hj⟩
      rw [if_pos hj, if_pos hex]
      split
      · rw [Option.map_map]
        congr 1
        funext x
        exact expire_expire t x
      · rfl
    · rw [if_neg hj]
      simp only [List.mem_cons, exists_eq_or_imp, hj, false_or]

theorem length_evaluate (l : List (Sigma fun _ : Nat => Nat)) (s : List Activation × Bool) :
    (l.foldl (evaluateActivation t) s).1.length = s.1.length := by
  induction l generalizing s with
  | nil => rfl
  | cons it l ih => rw [List.foldl_cons, ih]; exact List.length_modify ..

theorem activeAt_congr {l l' : List Activation} {i : Nat} (h : l[i]? = l'[i]?) : activeAt l i = activeAt l' i := by
  unfold activeAt; rw [h]

theorem evaluate_flag (l : List (Sigma fun _ : Nat => Nat)) (s : List Activation × Bool) :
    (l.foldl (evaluateActivation t) s).2 = true ↔
      s.2 = true ∨ ∃ it ∈ l, activeAt (s.1.map (expire t)) it.2 = true := by
  induction l generalizing s with
  | nil => simp
  | cons it l ih =>
    rw [List.foldl_cons, ih]
    have hvisit : activeAt (evaluateActivation t s it).1 it.2 = activeAt (s.1.map (expire t)) it.2 := by
      refine activeAt_congr ?_
      unfold evaluateActivation
      rw [List.getElem?_modify, List.getElem?_map]; simp
    have hmap : (evaluateActivation t s it).1.map (expire t) = s.1.map (expire t) := by
      apply List.ext_getElem?
      intro j
      unfold evaluateActivation
      rw [List.getElem?_map, List.getElem?_modify, List.getElem?_map]
      cases s.1[j]? with
      | none => simp
      | some x =>
        by_cases hij : it.2 = j
        · simp [hij, expire_expire]
        · simp [hij]
    have hflag : (evaluateActivation t s it).2 = (s.2 || activeAt (s.1.map (expire t)) it.2) := by
      rw [← hvisit]; rfl
    rw [hmap, hflag, Bool.or_eq_true]
    simp only [List.mem_cons, exists_eq_or_imp, or_assoc]

theorem Built.entry {p : EventActivations} (h : Built A p) {o : Nat} {a : Act} (ha : A[o]? = some a) :
    ⟨a.index, o⟩ ∈ p.mEventActivationMap.entries :=
  AList.mem_lookup_iff.1 ((h.activation a.index o).2 ⟨a, ha, rfl⟩)

theorem Built.of_entry {p : EventActivations} (h : Built A p) {it : Sigma fun _ : Nat => Nat}
    (hit : it ∈ p.mEventActivationMap.entries) : ∃ a, A[it.2]? = some a := by
  obtain ⟨a, ha, -⟩ := (h.activation it.1 it.2).1 (AList.mem_lookup_iff.2 hit)
  exact ⟨a, ha⟩

theorem Built.entries_empty {p : EventActivations} (h : Built A p) :
    p.mEventActivationMap.entries.isEmpty = true ↔ A = [] := by
  rw [List.isEmpty_iff]
  constructor
  · intro h0
    rw [← List.length_eq_zero_iff]
    by_contra hlen
    have ha : A[0]? = some A[0] := List.getElem?_eq_getElem (by omega)
    have := h.entry ha
    rw [h0] at this
    cases this
  · rintro rfl
    by_contra hne
    obtain ⟨it, hit⟩ := List.exists_mem_of_ne_nil _ hne
    obtain ⟨a, ha⟩ := h.of_entry hit
    simp at ha

theorem activeAt_iff {activations : List Activation}
    (h : Objects A σ activations) {o : Nat} {a : Act} (ha : A[o]? = some a) :
    activeAt activations o = true ↔ (σ o).isSome = true := by
  obtain ⟨x, hx, -, -, hs⟩ := h o a ha
  unfold activeAt
  rw [hx, ← hs]
  unfold activeSince
  by_cases hk : x.state = .kActive <;> simp [hk]

variable {σ' : Nat → Option Int}

theorem State.flushIfExpire (h : State A σ p) (t : Int) (hσ : ∀ o a, A[o]? = some a → σ' o = expired t a (σ o)) :
    Exact A σ' (p.flushIfExpire t) := by
  unfold MetricProducer.flushIfExpire
  by_cases hact : p.mIsActive = true
  · -- every object is in the table, so all of them are expired
    simp only [hact, Bool.not_true, Bool.false_eq_true, if_false]
    have hobj : Objects A σ' (p.activations.map (expire t)) := by
      intro o a ha
      obtain ⟨x, hx, h1, h2, h3⟩ := h.objects o a ha
      refine ⟨expire t x, by rw [List.getElem?_map, hx]; rfl, by rw [expire_ttl, h1], by rw [expire_type]; exact h2, ?_⟩
      rw [activeSince_expire t a x h1, h3, hσ o a ha]
    have hflag' : (p.evaluateActiveStateLocked t).2 = true ↔ A = [] ∨ AnyActive A σ' := by
      unfold evaluateActiveStateLocked
      rw [evaluate_flag, h.built.entries_empty]
      refine or_congr_right ?_
      constructor
      · rintro ⟨it, hit, hon⟩
        obtain ⟨a, ha⟩ := h.built.of_entry hit
        exact ⟨it.2, a, ha, (activeAt_iff hobj ha).1 hon⟩
      · rintro ⟨o, a, ha, hon⟩
        exact ⟨⟨a.index, o⟩, h.built.entry ha, (activeAt_iff hobj ha).2 hon⟩
    refine ⟨⟨⟨?_, h.built.activation, h.built.deactivation⟩, ?_, hflag'.2⟩, hflag'.1⟩
    · exact (length_evaluate t _ _).trans h.built.length
    · intro o a ha
      obtain ⟨x, hx, hrest⟩ := hobj o a ha
      refine ⟨x, ?_, hrest⟩
      rw [List.getElem?_map] at hx
      rw [← hx]
      exact (getElem?_evaluate t _ _ o).trans (if_pos ⟨⟨a.index, o⟩, h.built.entry ha, rfl⟩)
  · -- nothing is active, so there is nothing to expire
    simp only [Bool.not_eq_true] at hact
    simp only [hact, Bool.not_false, if_true]
    have hnone : ∀ o a, A[o]? = some a → σ o = none := by
      intro o a ha
      cases hs : σ o with
      | none => rfl
      | some s =>
        have := h.active (.inr ⟨o, a, ha, by rw [hs]; rfl⟩)
        rw [hact] at this; cases this
    have hsame : ∀ o a, A[o]? = some a → σ' o = σ o := by
      intro o a ha
      rw [hσ o a ha, hnone o a ha]; rfl
    exact ⟨h.congr hsame, fun hp => by rw [hact] at hp; cases hp⟩

/-! ## Cancelling and activating -/

theorem getElem?_foldl_cancel (l : List Nat) (activations : List Activation) (j : Nat) :
    (l.foldl cancel activations)[j]? =
      if j ∈ l then activations[j]?.map fun a => { a with state := .kNotActive } else activations[j]? := by
  induction l generalizing activations with
  | nil => simp
  | cons i l ih =>
    rw [List.foldl_cons, ih]
    unfold cancel
    rw [List.getElem?_modify]
    cases activations[j]? with
    | none => simp
    | some x =>
      by_cases hij : i = j
      · subst hij; simp
      · simp [hij, Ne.symm hij]

theorem length_foldl_cancel (l : List Nat) (activations : List Activation) :
    (l.foldl cancel activations).length = activations.length := by
  induction l generalizing activations with
  | nil => rfl
  | cons i l ih => rw [List.foldl_cons, ih]; exact List.length_modify ..

theorem State.cancel (h : State A σ p) (d : Nat) (hσ : ∀ o a, A[o]? = some a → σ' o = if a.deactivation = some d then none else σ o) :
    State A σ' (p.cancelEventActivationLocked d) := by
  have hle : ∀ o a, A[o]? = some a → (σ' o).isSome = true → (σ o).isSome = true := by
    intro o a ha hs
    rw [hσ o a ha] at hs
    split at hs
    · cases hs
    · exact hs
  have hactive : A = [] ∨ AnyActive A σ' → p.mIsActive = true := by
    rintro (h0 | ⟨o, a, ha, hs⟩)
    · exact h.active (.inl h0)
    · exact h.active (.inr ⟨o, a, ha, hle o a ha hs⟩)
  have hmem := h.built.deactivation d
  unfold cancelEventActivationLocked
  cases hl : p.mEventDeactivationMap.lookup d with
  | none =>
    refine ⟨h.built, fun o a ha => ?_, hactive⟩
    obtain ⟨x, hx, h1, h2, h3⟩ := h.objects o a ha
    refine ⟨x, hx, h1, h2, ?_⟩
    have hnot : a.deactivation ≠ some d := by
      intro hd
      have := (hmem o).2 ⟨a, ha, hd⟩
      rw [UMap.getD_of_lookup_none hl] at this
      cases this
    rw [h3, hσ o a ha, if_neg hnot]
  | some l =>
    rw [UMap.getD_of_lookup_some hl] at hmem
    refine ⟨⟨?_, h.built.activation, h.built.deactivation⟩, fun o a ha => ?_, hactive⟩
    · exact (length_foldl_cancel l p.activations).trans h.built.length
    · obtain ⟨x, hx, h1, h2, h3⟩ := h.objects o a ha
      by_cases hd : a.deactivation = some d
      · refine ⟨{ x with state := .kNotActive }, ?_, h1, h2, ?_⟩
        · rw [getElem?_foldl_cancel, if_pos ((hmem o).2 ⟨a, ha, hd⟩), hx]; rfl
        · rw [hσ o a ha, if_pos hd]; rfl
      · refine ⟨x, ?_, h1, h2, ?_⟩
        · rw [getElem?_foldl_cancel, if_neg, hx]
          rintro ho
          obtain ⟨a', ha', hd'⟩ := (hmem o).1 ho
          rw [ha] at ha'; cases ha'
          exact hd hd'
        · rw [h3, hσ o a ha, if_neg hd]

theorem Exact.activate (h : Exact A σ p) (k : Nat) (t : Int) (hσ : ∀ o a, A[o]? = some a → σ' o = if a.index = k then some t else σ o) :
    Exact A σ' (p.activateLocked k t) := by
  unfold activateLocked
  cases hl : p.mEventActivationMap.lookup k with
  | none =>
    refine h.congr fun o a ha => ?_
    rw [hσ o a ha, if_neg]
    intro hk
    have := (h.built.activation k o).2 ⟨a, ha, hk⟩
    rw [hl] at this; cases this
  | some i =>
    obtain ⟨a, ha, hk⟩ := (h.built.activation k i).1 hl
    obtain ⟨x, hx, h1, h2, h3⟩ := h.objects i a ha
    dsimp only
    rw [hx]
    dsimp only
    rw [if_neg h2]
    have hon : AnyActive A σ' := ⟨i, a, ha, by rw [hσ i a ha, if_pos hk]; rfl⟩
    have hi : i < p.activations.length := (List.getElem?_eq_some_iff.1 hx).1
    refine ⟨⟨⟨?_, h.built.activation, h.built.deactivation⟩, ?_, fun _ => rfl⟩, fun _ => .inr hon⟩
    · rw [List.length_set]; exact h.built.length
    · intro o b hb
      by_cases ho : o = i
      · subst ho
        rw [ha] at hb; cases hb
        refine ⟨{ x with start_ns := t, state := .kActive }, ?_, h1, h2, ?_⟩
        · rw [List.getElem?_set_self hi]
        · rw [hσ o a ha, if_pos hk]; rfl
      · obtain ⟨y, hy, g1, g2, g3⟩ := h.objects o b hb
        refine ⟨y, ?_, g1, g2, ?_⟩
        · rw [List.getElem?_set_ne (Ne.symm ho), hy]
        · rw [g3, hσ o b hb, if_neg]
          intro hbk
          have := (h.built.activation k o).2 ⟨b, hb, hbk⟩
          rw [hl] at this
          exact ho (Option.some.inj this).symm

end Statsd.Metrics
