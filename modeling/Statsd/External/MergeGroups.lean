/-
What the merging of pulled events comes to. The events are sorted by all their fields and only neighbours are
merged, so there is one event for each run of events that agree on the non-additive fields, with the sums of the
run. That is a group-by exactly when the sort leaves the groups together: when no event of another group lies
between two events of a group.
-/
import Statsd.Base.Contiguous
import Statsd.External.PullerUtil

namespace Statsd.External

open Logd (LogEvent)

section

variable (A : Finset Nat)

/-! ## Groups -/

/-- The places of the values, with a gap for each additive field. -/
abbrev GroupKey := List (Option FieldValue.Place)

/-- The values without those of the additive fields. -/
def keyOf (values : List FieldValue) : GroupKey :=
  values.map fun v => if isAdditive A v then none else some v.place

/-- Events of one group have the same length and equal values in all fields that are not additive. -/
def groupKey (event : LogEvent) : GroupKey := keyOf A event.mValues

/-- The integer of a field, which wraps at a modulus. -/
inductive IsInteger : Value → Int → Nat → Prop where
  | int (a : Int) : IsInteger (.INT a) a (2 ^ 32)
  | long (a : Int) : IsInteger (.LONG a) a (2 ^ 64)

/-- The additive field at an index is an integer. -/
def IntegerAt (event : LogEvent) (p : Nat) (a : Int) (modulus : Nat) : Prop :=
  ∃ v, event.mValues[p]? = some v ∧ isAdditive A v = true ∧ IsInteger v.mValue a modulus

/-- The integer at an index, zero where there is none. -/
def intAt (event : LogEvent) (p : Nat) : Int :=
  match event.mValues[p]? with
  | none => 0
  | some v =>
    match v.mValue with
    | .INT a => a
    | .LONG a => a
    | _ => 0

/-- The sum of a field over the events of a group. -/
def groupSum (data : List LogEvent) (k : GroupKey) (p : Nat) : Int :=
  ((data.filter fun event => decide (groupKey A event = k)).map (intAt · p)).sum

/-- Events of one atom: all fields are present, so events of one length have equally many additive values, and
the events of a group have integers of one type in the additive fields. -/
structure OneAtom (data : List LogEvent) : Prop where
  present : ∀ e ∈ data, ∀ e' ∈ data, e.mValues.length = e'.mValues.length →
    e.mValues.countP (isAdditive A) = e'.mValues.countP (isAdditive A)
  integer : ∀ e ∈ data, ∀ p v, e.mValues[p]? = some v → isAdditive A v = true →
    ∃ modulus, ∀ e' ∈ data, groupKey A e' = groupKey A e → ∃ a, IntegerAt A e' p a modulus

/-- The output is the group-by of the input: one event for each group, with the sums of the group. -/
structure GroupBy (data out : List LogEvent) : Prop where
  distinct : (out.map (groupKey A)).Nodup
  covers : ∀ k, k ∈ out.map (groupKey A) ↔ k ∈ data.map (groupKey A)
  sums : ∀ o ∈ out, ∀ p v, o.mValues[p]? = some v → isAdditive A v = true →
    ∃ a modulus, IsInteger v.mValue a modulus ∧ a ≡ groupSum A data (groupKey A o) p [ZMOD modulus]

/-- No event of another group lies between two events of a group. -/
def Together (data : List LogEvent) : Prop :=
  ∀ a ∈ data, ∀ b ∈ data, ∀ c ∈ data, eventLess a b = true → eventLess b c = true →
    groupKey A a = groupKey A c → groupKey A b = groupKey A a

/-! ## The comparison as an order -/

/-- The place of an event in the order of the sort. -/
def eventPlace (event : LogEvent) : ℕ ×ₗ List FieldValue.Place :=
  toLex (event.mValues.length, event.mValues.map FieldValue.place)

theorem valuesLess_iff : ∀ {lhs rhs : List FieldValue}, lhs.length = rhs.length →
    (∀ v ∈ lhs, v.mValue.NotNaN) → (∀ v ∈ rhs, v.mValue.NotNaN) →
    (valuesLess lhs rhs = true ↔ lhs.map FieldValue.place < rhs.map FieldValue.place)
  | [], [], _, _, _ => by simp [valuesLess]
  | v :: lhs, w :: rhs, hlen, hl, hr => by
    have hv := hl v (List.mem_cons_self ..)
    have hw := hr w (List.mem_cons_self ..)
    have ih := valuesLess_iff (Nat.succ.inj hlen) (fun x hx => hl x (List.mem_cons_of_mem _ hx))
      fun x hx => hr x (List.mem_cons_of_mem _ hx)
    rw [valuesLess, List.map_cons, List.map_cons, List.cons_lt_cons_iff]
    by_cases hn : v.ne w = true
    · have hplace := (FieldValue.ne_iff hv hw).1 hn
      rw [if_pos hn, FieldValue.lt_iff hv hw]
      simp [hplace]
    · have hplace : v.place = w.place := by
        by_contra h
        exact hn ((FieldValue.ne_iff hv hw).2 h)
      rw [if_neg hn, ih]
      simp [hplace]

variable {data : List LogEvent} {e e' : LogEvent}

theorem eventLess_iff (h : NoNaN e) (h' : NoNaN e') :
    eventLess e e' = true ↔ eventPlace e < eventPlace e' := by
  unfold eventLess eventPlace
  rw [Prod.Lex.toLex_lt_toLex]
  by_cases hlen : e.mValues.length = e'.mValues.length
  · rw [if_neg (not_not.2 hlen), valuesLess_iff hlen h h']
    simp [hlen]
  · rw [if_pos hlen]
    simp [hlen]

theorem groupKey_of_place (h : eventPlace e = eventPlace e') : groupKey A e = groupKey A e' := by
  have hplaces : e.mValues.map FieldValue.place = e'.mValues.map FieldValue.place := by
    have := congrArg (fun x => (ofLex x).2) h
    exact this
  -- the key is a function of the places
  have hkey : ∀ values : List FieldValue, keyOf A values = (values.map FieldValue.place).map fun x =>
      if (Field.mk (ofLex x).1 (BitVec.ofInt 32 (ofLex (ofLex x).2).1)).getPosAtDepth 0 ∈ A then none else some x := by
    intro values
    unfold keyOf
    rw [List.map_map]
    refine List.map_congr_left fun v _ => ?_
    have hfield : (Field.mk (ofLex v.place).1 (BitVec.ofInt 32 (ofLex (ofLex v.place).2).1)) = v.mField := by
      simp [FieldValue.place]
    simp only [Function.comp_apply, hfield, isAdditive, decide_eq_true_eq]
  unfold groupKey
  rw [hkey, hkey, hplaces]

/-! ## Neighbours -/

theorem keyOf_cons (v : FieldValue) (values : List FieldValue) :
    keyOf A (v :: values) = (if isAdditive A v then none else some v.place) :: keyOf A values := rfl

theorem isAdditive_congr {v w : FieldValue} (h : v.mField = w.mField) : isAdditive A v = isAdditive A w := by
  unfold isAdditive
  rw [h]

/-- Where every difference is in an additive field of the first event, the second has no more additive fields, and
with equally many the keys are the same. -/
theorem needMerge_spec : ∀ {lhs rhs : List FieldValue}, lhs.length = rhs.length →
    (∀ v ∈ lhs, v.mValue.NotNaN) → (∀ v ∈ rhs, v.mValue.NotNaN) → needMerge A lhs rhs = true →
    rhs.countP (isAdditive A) ≤ lhs.countP (isAdditive A) ∧
      (lhs.countP (isAdditive A) = rhs.countP (isAdditive A) → keyOf A lhs = keyOf A rhs)
  | [], [], _, _, _, _ => ⟨le_refl _, fun _ => rfl⟩
  | v :: lhs, w :: rhs, hlen, hl, hr, h => by
    rw [needMerge, Bool.and_eq_true, Bool.or_eq_true] at h
    obtain ⟨hle, hkey⟩ := needMerge_spec (Nat.succ.inj hlen) (fun x hx => hl x (List.mem_cons_of_mem _ hx))
      (fun x hx => hr x (List.mem_cons_of_mem _ hx)) h.2
    rw [List.countP_cons, List.countP_cons, keyOf_cons, keyOf_cons]
    by_cases hv : isAdditive A v = true
    · by_cases hw : isAdditive A w = true
      · simp only [hv, hw, if_true]
        exact ⟨by omega, fun he => by rw [hkey (by omega)]⟩
      · simp only [hv, hw, if_true, Bool.false_eq_true, if_false]
        exact ⟨by omega, fun he => by omega⟩
    · -- a field that is not additive is the same in both
      have hsame : v.place = w.place := by
        by_contra hne
        have hn := (FieldValue.ne_iff (hl v (List.mem_cons_self ..)) (hr w (List.mem_cons_self ..))).2 hne
        rcases h.1 with hf | ha
        · rw [hn] at hf; cases hf
        · exact hv ha
      have hw : ¬ isAdditive A w = true := by
        rw [← isAdditive_congr A ((FieldValue.place_eq_iff v w).1 hsame).1]
        exact hv
      simp only [hv, hw, hsame]
      exact ⟨by omega, fun he => by rw [hkey (by omega)]⟩

theorem needMerge_of_key : ∀ {lhs rhs : List FieldValue},
    (∀ v ∈ lhs, v.mValue.NotNaN) → (∀ v ∈ rhs, v.mValue.NotNaN) → keyOf A lhs = keyOf A rhs →
    needMerge A lhs rhs = true
  | [], _, _, _, _ => by cases ‹List FieldValue› <;> rfl
  | _ :: _, [], _, _, _ => rfl
  | v :: lhs, w :: rhs, hl, hr, h => by
    rw [keyOf_cons, keyOf_cons] at h
    obtain ⟨hhead, htail⟩ := List.cons.inj h
    rw [needMerge, Bool.and_eq_true, Bool.or_eq_true]
    refine ⟨?_, needMerge_of_key (fun x hx => hl x (List.mem_cons_of_mem _ hx))
      (fun x hx => hr x (List.mem_cons_of_mem _ hx)) htail⟩
    by_cases hv : isAdditive A v = true
    · exact .inr hv
    · refine .inl ?_
      rw [if_neg hv] at hhead
      split at hhead
      · cases hhead
      · have hplace := Option.some.inj hhead
        rw [Bool.not_eq_true', ← Bool.not_eq_true,
          FieldValue.ne_iff (hl v (List.mem_cons_self ..)) (hr w (List.mem_cons_self ..))]
        exact not_not.2 hplace

/-- Two events of one length with equally many additive fields are merged exactly when they are of one group. -/
theorem needMerge_iff (hlen : e.mValues.length = e'.mValues.length) (h : NoNaN e) (h' : NoNaN e')
    (hcount : e.mValues.countP (isAdditive A) = e'.mValues.countP (isAdditive A)) :
    needMerge A e.mValues e'.mValues = true ↔ groupKey A e = groupKey A e' :=
  ⟨fun hm => (needMerge_spec A hlen h h' hm).2 hcount, needMerge_of_key A h h'⟩

theorem groupKey_length (h : groupKey A e = groupKey A e') : e.mValues.length = e'.mValues.length := by
  have := congrArg List.length h
  simpa [groupKey, keyOf] using this

/-! ## The merged event -/

theorem Value.add_notNaN {v w : Value} (hv : v.NotNaN) : (v.add w).NotNaN := by
  cases v <;> cases w <;> first | exact True.intro | exact hv

theorem addOnto_get : ∀ (lhs rhs : List FieldValue) (p : Nat),
    (addOnto A lhs rhs)[p]? =
      match lhs[p]?, rhs[p]? with
      | some v, some w => some (if isAdditive A v then { w with mValue := w.mValue.add v.mValue } else w)
      | _, w => w
  | [], rhs, p => by simp [addOnto]
  | v :: lhs, [], p => by
    simp only [addOnto, List.getElem?_nil]
    cases (v :: lhs)[p]? <;> rfl
  | v :: lhs, w :: rhs, 0 => rfl
  | v :: lhs, w :: rhs, p + 1 => by
    rw [addOnto, List.getElem?_cons_succ, List.getElem?_cons_succ, List.getElem?_cons_succ, addOnto_get lhs rhs p]

theorem addOnto_length : ∀ (lhs rhs : List FieldValue), (addOnto A lhs rhs).length = rhs.length
  | [], _ => rfl
  | _ :: _, [] => rfl
  | _ :: lhs, _ :: rhs => congrArg (· + 1) (addOnto_length lhs rhs)

theorem addOnto_count : ∀ (lhs rhs : List FieldValue),
    (addOnto A lhs rhs).countP (isAdditive A) = rhs.countP (isAdditive A)
  | [], _ => rfl
  | _ :: _, [] => rfl
  | v :: lhs, w :: rhs => by
    have hfield : isAdditive A (if isAdditive A v then { w with mValue := w.mValue.add v.mValue } else w) =
        isAdditive A w := by
      split <;> rfl
    rw [addOnto, List.countP_cons, List.countP_cons, hfield, addOnto_count lhs rhs]

theorem addOnto_notNaN : ∀ {lhs rhs : List FieldValue}, (∀ v ∈ rhs, v.mValue.NotNaN) →
    ∀ v ∈ addOnto A lhs rhs, v.mValue.NotNaN
  | [], _, h => h
  | _ :: _, [], h => h
  | v :: lhs, w :: rhs, h => by
    intro x hx
    rcases List.mem_cons.1 hx with rfl | hx
    · split
      · exact Value.add_notNaN (h w (List.mem_cons_self ..))
      · exact h w (List.mem_cons_self ..)
    · exact addOnto_notNaN (fun y hy => h y (List.mem_cons_of_mem _ hy)) x hx

theorem addOnto_key : ∀ {lhs rhs : List FieldValue}, keyOf A lhs = keyOf A rhs →
    keyOf A (addOnto A lhs rhs) = keyOf A rhs
  | [], _, _ => rfl
  | _ :: _, [], _ => rfl
  | v :: lhs, w :: rhs, h => by
    rw [keyOf_cons, keyOf_cons] at h
    obtain ⟨hhead, htail⟩ := List.cons.inj h
    rw [addOnto, keyOf_cons, keyOf_cons, addOnto_key htail]
    congr 1
    by_cases hv : isAdditive A v = true
    · rw [if_pos hv] at hhead ⊢
      have hw : isAdditive A w = true := by
        by_contra hw
        rw [if_neg hw] at hhead
        cases hhead
      rw [if_pos hw]
      exact if_pos hw
    · rw [if_neg hv]

theorem addOnto_integer {p : Nat} {a a' : Int} {modulus : Nat} (h : IntegerAt A e p a modulus)
    (h' : IntegerAt A e' p a' modulus) :
    ∃ b, IntegerAt A { e' with mValues := addOnto A e.mValues e'.mValues } p b modulus ∧ b ≡ a + a' [ZMOD modulus] := by
  obtain ⟨v, hv, hav, hint⟩ := h
  obtain ⟨w, hw, haw, hint'⟩ := h'
  obtain ⟨wf, wv, wa⟩ := w
  obtain ⟨vf, vv, va⟩ := v
  have hget := addOnto_get A e.mValues e'.mValues p
  rw [hv, hw] at hget
  simp only [hav, if_true] at hget
  cases hint with
  | int a =>
    cases hint' with
    | int a' =>
      refine ⟨_, ⟨_, hget, haw, .int _⟩, ?_⟩
      rw [add_comm a a']
      exact Int.bmod_emod
  | long a =>
    cases hint' with
    | long a' =>
      refine ⟨_, ⟨_, hget, haw, .long _⟩, ?_⟩
      rw [add_comm a a']
      exact Int.bmod_emod

theorem IntegerAt.intAt_eq {e : LogEvent} {p : Nat} {a : Int} {modulus : Nat} (h : IntegerAt A e p a modulus) :
    intAt e p = a := by
  obtain ⟨v, hv, -, hint⟩ := h
  obtain ⟨vf, vv, va⟩ := v
  unfold intAt
  rw [hv]
  cases hint <;> rfl

/-! ## The loop -/

/-- What the loop needs of the data: comparable values, and equally many additive fields at one length. -/
structure Comparable (data : List LogEvent) : Prop where
  notNaN : ∀ e ∈ data, NoNaN e
  present : ∀ e ∈ data, ∀ e' ∈ data, e.mValues.length = e'.mValues.length →
    e.mValues.countP (isAdditive A) = e'.mValues.countP (isAdditive A)

variable {A}

theorem Comparable.tail {e : LogEvent} (h : Comparable A (e :: data)) : Comparable A data where
  notNaN x hx := h.notNaN x (List.mem_cons_of_mem _ hx)
  present x hx y hy := h.present x (List.mem_cons_of_mem _ hx) y (List.mem_cons_of_mem _ hy)

theorem Comparable.merged (h : Comparable A (e :: e' :: data)) :
    Comparable A ({ e' with mValues := addOnto A e.mValues e'.mValues } :: data) := by
  have htail := h.tail
  have hmem : e' ∈ e' :: data := List.mem_cons_self ..
  constructor
  · intro x hx
    rcases List.mem_cons.1 hx with rfl | hx
    · exact addOnto_notNaN A (htail.notNaN e' hmem)
    · exact htail.notNaN x (List.mem_cons_of_mem _ hx)
  · -- the merged event counts as the one it replaces
    have hrep : ∀ x ∈ ({ e' with mValues := addOnto A e.mValues e'.mValues } : LogEvent) :: data, ∃ y ∈ e' :: data,
        x.mValues.length = y.mValues.length ∧ x.mValues.countP (isAdditive A) = y.mValues.countP (isAdditive A) := by
      intro x hx
      rcases List.mem_cons.1 hx with rfl | hx
      · exact ⟨e', hmem, addOnto_length A _ _, addOnto_count A _ _⟩
      · exact ⟨x, List.mem_cons_of_mem _ hx, rfl, rfl⟩
    intro x hx y hy hlen
    obtain ⟨x', hx', hxl, hxc⟩ := hrep x hx
    obtain ⟨y', hy', hyl, hyc⟩ := hrep y hy
    rw [hxc, hyc]
    exact htail.present x' hx' y' hy' (by rw [← hxl, ← hyl, hlen])

theorem mergeFrom_cons (h : Comparable A (e :: e' :: data)) :
    (groupKey A e ≠ groupKey A e' ∧ mergeFrom A e (e' :: data) = e :: mergeFrom A e' data) ∨
    (groupKey A e = groupKey A e' ∧
      mergeFrom A e (e' :: data) = mergeFrom A { e' with mValues := addOnto A e.mValues e'.mValues } data) := by
  have he : e ∈ e :: e' :: data := List.mem_cons_self ..
  have he' : e' ∈ e :: e' :: data := List.mem_cons_of_mem _ (List.mem_cons_self ..)
  rw [mergeFrom]
  by_cases hlen : e.mValues.length = e'.mValues.length
  · have hiff := needMerge_iff A hlen (h.notNaN e he) (h.notNaN e' he') (h.present e he e' he' hlen)
    rw [if_neg (not_not.2 hlen)]
    by_cases hm : needMerge A e.mValues e'.mValues = true
    · exact .inr ⟨hiff.1 hm, if_pos hm⟩
    · exact .inl ⟨fun hk => hm (hiff.2 hk), if_neg hm⟩
  · exact .inl ⟨fun hk => hlen (groupKey_length A hk), if_pos hlen⟩

theorem mergeFrom_keys {e : LogEvent} (h : Comparable A (e :: data)) :
    (mergeFrom A e data).map (groupKey A) = (data.map (groupKey A)).destutter' (· ≠ ·) (groupKey A e) := by
  induction data generalizing e with
  | nil => rfl
  | cons e' data ih =>
    rw [List.map_cons]
    rcases mergeFrom_cons h with ⟨hne, hm⟩ | ⟨heq, hm⟩
    · rw [hm, List.map_cons, ih h.tail, List.destutter'_cons_pos _ hne]
    · have hkey : groupKey A { e' with mValues := addOnto A e.mValues e'.mValues } = groupKey A e :=
        (addOnto_key A heq).trans heq.symm
      rw [hm, ih h.merged, List.destutter'_cons_neg _ (not_not.2 heq), hkey]

theorem groupSum_cons (e : LogEvent) (data : List LogEvent) (k : GroupKey) (p : Nat) :
    groupSum A (e :: data) k p = (if groupKey A e = k then intAt e p else 0) + groupSum A data k p := by
  unfold groupSum
  by_cases h : groupKey A e = k
  · rw [List.filter_cons_of_pos (by simpa using h), List.map_cons, List.sum_cons, if_pos h]
  · rw [List.filter_cons_of_neg (by simpa using h), if_neg h, zero_add]

theorem mergeFrom_sums {e : LogEvent} (h : Comparable A (e :: data)) {k : GroupKey} {p modulus : Nat}
    (hint : ∀ x ∈ e :: data, groupKey A x = k → ∃ a, IntegerAt A x p a modulus) :
    (∀ o ∈ mergeFrom A e data, groupKey A o = k → ∃ a, IntegerAt A o p a modulus) ∧
      groupSum A (mergeFrom A e data) k p ≡ groupSum A (e :: data) k p [ZMOD modulus] := by
  induction data generalizing e with
  | nil => exact ⟨hint, Int.ModEq.refl _⟩
  | cons e' data ih =>
    have htail : ∀ x ∈ e' :: data, groupKey A x = k → ∃ a, IntegerAt A x p a modulus :=
      fun x hx => hint x (List.mem_cons_of_mem _ hx)
    rcases mergeFrom_cons h with ⟨hne, hm⟩ | ⟨heq, hm⟩
    · obtain ⟨hout, hsum⟩ := ih h.tail htail
      rw [hm]
      refine ⟨fun o ho hk => ?_, ?_⟩
      · rcases List.mem_cons.1 ho with rfl | ho
        · exact hint o (List.mem_cons_self ..) hk
        · exact hout o ho hk
      · rw [groupSum_cons, groupSum_cons (e := e)]
        exact Int.ModEq.add_left _ hsum
    · -- the sum of the two stands for both
      have hkey : groupKey A { e' with mValues := addOnto A e.mValues e'.mValues } = groupKey A e' := addOnto_key A heq
      have hadded : groupKey A e' = k → ∃ b, IntegerAt A { e' with mValues := addOnto A e.mValues e'.mValues } p b modulus ∧
          b ≡ intAt e p + intAt e' p [ZMOD modulus] := by
        intro hk
        obtain ⟨a, ha⟩ := hint e (List.mem_cons_self ..) (heq.trans hk)
        obtain ⟨a', ha'⟩ := htail e' (List.mem_cons_self ..) hk
        rw [ha.intAt_eq, ha'.intAt_eq]
        exact addOnto_integer A ha ha'
      obtain ⟨hout, hsum⟩ := ih h.merged fun x hx hk => by
        rcases List.mem_cons.1 hx with rfl | hx
        · obtain ⟨b, hb, -⟩ := hadded (hkey.symm.trans hk)
          exact ⟨b, hb⟩
        · exact htail x (List.mem_cons_of_mem _ hx) hk
      rw [hm]
      refine ⟨hout, hsum.trans ?_⟩
      rw [groupSum_cons, groupSum_cons (e := e), groupSum_cons (e := e'), hkey, heq]
      by_cases hk : groupKey A e' = k
      · obtain ⟨b, hb, hmod⟩ := hadded hk
        rw [if_pos hk, if_pos hk, if_pos hk, hb.intAt_eq, ← add_assoc]
        exact Int.ModEq.add_right _ hmod
      · rw [if_neg hk, if_neg hk, if_neg hk, zero_add, zero_add]

/-! ## The whole batch -/

theorem groupSum_perm {data data' : List LogEvent} (h : data.Perm data') (k : GroupKey) (p : Nat) :
    groupSum A data k p = groupSum A data' k p :=
  ((h.filter _).map _).sum_eq

theorem groupSum_of_nodup {out : List LogEvent} (h : (out.map (groupKey A)).Nodup) {o : LogEvent} (ho : o ∈ out) (p : Nat) :
    groupSum A out (groupKey A o) p = intAt o p := by
  obtain ⟨s, t, rfl⟩ := List.append_of_mem ho
  have hnone : ∀ l : List LogEvent, (∀ x ∈ l, groupKey A x ≠ groupKey A o) →
      l.filter (fun x => decide (groupKey A x = groupKey A o)) = [] := by
    intro l hl
    rw [List.filter_eq_nil_iff]
    intro x hx
    simpa using hl x hx
  rw [List.map_append, List.map_cons, List.nodup_middle, List.nodup_cons, List.mem_append, not_or] at h
  unfold groupSum
  rw [List.filter_append, List.filter_cons_of_pos (by simp)]
  rw [hnone s fun x hx he => h.1.1 (he ▸ List.mem_map_of_mem hx)]
  rw [hnone t fun x hx he => h.1.2 (he ▸ List.mem_map_of_mem hx)]
  simp

theorem contiguous_sort_iff (sorting : Sorting) (hnan : ∀ e ∈ data, NoNaN e) :
    Contiguous ((sorting.sort data).map (groupKey A)) ↔ Together A data := by
  have hmem : ∀ e, e ∈ sorting.sort data ↔ e ∈ data := fun e => (sorting.perm data).mem_iff
  have hs : (sorting.sort data).Pairwise fun x y => eventPlace x ≤ eventPlace y := by
    refine (sorting.sorted data hnan).imp_of_mem fun {x y} hx hy hle => ?_
    rw [← not_lt, ← eventLess_iff (hnan y ((hmem y).1 hy)) (hnan x ((hmem x).1 hx)), hle]
    exact Bool.false_ne_true
  rw [contiguous_map_iff hs fun a _ b _ => groupKey_of_place A]
  unfold Together
  constructor
  · intro h a ha b hb c hc hab hbc hac
    refine h a ((hmem a).2 ha) b ((hmem b).2 hb) c ((hmem c).2 hc) ?_ ?_ hac
    · exact (eventLess_iff (hnan a ha) (hnan b hb)).1 hab
    · exact (eventLess_iff (hnan b hb) (hnan c hc)).1 hbc
  · intro h a ha b hb c hc hab hbc hac
    have ha' := (hmem a).1 ha
    have hb' := (hmem b).1 hb
    have hc' := (hmem c).1 hc
    refine h a ha' b hb' c hc' ?_ ?_ hac
    · exact (eventLess_iff (hnan a ha') (hnan b hb')).2 hab
    · exact (eventLess_iff (hnan b hb') (hnan c hc')).2 hbc

theorem mergeData_groupBy_iff (sorting : Sorting) (hone : OneAtom A data)
    (hnan : ∀ e ∈ data, NoNaN e) : GroupBy A data (mergeData A (sorting.sort data)) ↔ Together A data := by
  rw [← contiguous_sort_iff sorting hnan]
  have hperm := sorting.perm data
  cases hsort : sorting.sort data with
  | nil =>
    rw [hsort] at hperm
    rw [hperm.symm.eq_nil]
    refine iff_of_true ⟨List.nodup_nil, fun k => Iff.rfl, fun o ho => by cases ho⟩ fun x y h => ?_
    have := h.length_le
    simp at this
  | cons e rest =>
    rw [hsort] at hperm
    have hcmp : Comparable A (e :: rest) :=
      ⟨fun x hx => hnan x (hperm.mem_iff.1 hx),
        fun x hx y hy => hone.present x (hperm.mem_iff.1 hx) y (hperm.mem_iff.1 hy)⟩
    have hkeys := mergeFrom_keys hcmp
    rw [List.map_cons, ← nodup_destutter'_iff, ← hkeys]
    refine ⟨fun h => h.distinct, fun hnodup => ⟨hnodup, fun k => ?_, fun o ho p v hv hadd => ?_⟩⟩
    · rw [mergeData, hkeys, mem_destutter'_ne, ← List.map_cons]
      exact (hperm.map _).mem_iff
    · -- the event of the group, and with it the sum that the loop kept
      have hkmem : groupKey A o ∈ (e :: rest).map (groupKey A) := by
        have hk : groupKey A o ∈ (mergeFrom A e rest).map (groupKey A) := List.mem_map_of_mem ho
        rw [hkeys, mem_destutter'_ne] at hk
        exact hk
      obtain ⟨x, hx, hxk⟩ := List.mem_map.1 hkmem
      have hlen := groupKey_length A hxk
      have hp : p < x.mValues.length := by
        rw [hlen]
        exact (List.getElem?_eq_some_iff.1 hv).1
      have hxv : x.mValues[p]? = some x.mValues[p] := List.getElem?_eq_getElem hp
      have hxa : isAdditive A x.mValues[p] = true := by
        have hget := congrArg (fun k : GroupKey => k[p]?) hxk
        simp only [groupKey, keyOf, List.getElem?_map, hxv, hv, Option.map_some, Option.some.injEq, hadd, if_true] at hget
        by_contra hn
        rw [if_neg hn] at hget
        cases hget
      obtain ⟨modulus, hint⟩ := hone.integer x (hperm.mem_iff.1 hx) p _ hxv hxa
      obtain ⟨hout, hsum⟩ := mergeFrom_sums hcmp fun y hy (hyk : groupKey A y = groupKey A o) =>
        hint y (hperm.mem_iff.1 hy) (hyk.trans hxk.symm)
      obtain ⟨a, hoint⟩ := hout o ho rfl
      rw [groupSum_of_nodup hnodup ho, hoint.intAt_eq, groupSum_perm hperm] at hsum
      obtain ⟨w, hw, -, hwint⟩ := hoint
      rw [hv] at hw
      cases hw
      exact ⟨a, modulus, hwint, hsum⟩

/-- For every sort, isolated-uid map and batch of one atom that is mapped, without NaN: the result is the group-by
of the mapped events exactly when no event of another group lies between two events of a group. -/
theorem merge_groupBy_iff (sorting : Sorting) (mIsolatedUidMap : UMap Int Int) (tagId : Int) (additiveFields : Finset Nat)
    (data mapped : List LogEvent)
    (hmap : mapIsolatedUidsToHostUid mIsolatedUidMap tagId data = some (.mapped mapped))
    (hone : OneAtom additiveFields mapped) (hnan : ∀ e ∈ mapped, NoNaN e) :
    ∃ out, mapAndMergeIsolatedUidsToHostUid sorting mIsolatedUidMap tagId additiveFields data = some out ∧
      (GroupBy additiveFields mapped out ↔ Together additiveFields mapped) := by
  refine ⟨mergeData additiveFields (sorting.sort mapped), ?_, mergeData_groupBy_iff sorting hone hnan⟩
  unfold mapAndMergeIsolatedUidsToHostUid
  rw [hmap]
  rfl

end

/-! ## An atom with a uid, an additive field and a state -/

/-- A sort by the places of the events. -/
def Sorting.byPlace : Sorting where
  sort data := data.mergeSort fun e e' => decide (eventPlace e ≤ eventPlace e')
  perm data := List.mergeSort_perm data _
  sorted data hnan := by
    have hs : (data.mergeSort fun e e' => decide (eventPlace e ≤ eventPlace e')).Pairwise
        fun e e' => decide (eventPlace e ≤ eventPlace e') = true :=
      List.pairwise_mergeSort (fun a b c hab hbc => decide_eq_true ((of_decide_eq_true hab).trans (of_decide_eq_true hbc)))
        (fun a b => by simpa using le_total (eventPlace a) (eventPlace b)) data
    refine hs.imp_of_mem fun {x y} hx hy hle => ?_
    have hx := hnan x ((List.mergeSort_perm data _).mem_iff.1 hx)
    have hy := hnan y ((List.mergeSort_perm data _).mem_iff.1 hy)
    rw [Bool.eq_false_iff, Ne, eventLess_iff hy hx]
    exact not_lt.2 (of_decide_eq_true hle)

/-- An event of atom 100: a uid, a number that is additive, and a state. -/
def uidEvent (uid number state : Int) : LogEvent :=
  { mTagId := 100
    mUidFieldIndex := 0
    mValues := [⟨⟨100, 0x00010000#32⟩, .INT uid, { uidField := true }⟩, ⟨⟨100, 0x00020000#32⟩, .INT number, {}⟩,
      ⟨⟨100, 0x00030000#32⟩, .INT state, {}⟩] }

theorem uidEvents_oneAtom {data : List LogEvent} (h : ∀ e ∈ data, ∃ uid number state, e = uidEvent uid number state) :
    OneAtom {2} data ∧ ∀ e ∈ data, NoNaN e := by
  have hpos1 : (⟨100, 0x00010000#32⟩ : Field).getPosAtDepth 0 = 1 := by decide
  have hpos2 : (⟨100, 0x00020000#32⟩ : Field).getPosAtDepth 0 = 2 := by decide
  have hpos3 : (⟨100, 0x00030000#32⟩ : Field).getPosAtDepth 0 = 3 := by decide
  refine ⟨⟨fun e he e' he' _ => ?_, fun e he p v hv hadd => ?_⟩, fun e he v hv => ?_⟩
  · obtain ⟨u, n, s, rfl⟩ := h e he
    obtain ⟨u', n', s', rfl⟩ := h e' he'
    rfl
  · obtain ⟨u, n, s, rfl⟩ := h e he
    refine ⟨2 ^ 32, fun e' he' _ => ?_⟩
    obtain ⟨u', n', s', rfl⟩ := h e' he'
    match p, hv with
    | 0, hv =>
      cases hv
      simp [isAdditive, hpos1] at hadd
    | 1, hv => exact ⟨n', _, rfl, by simp [isAdditive, hpos2], .int n'⟩
    | 2, hv =>
      cases hv
      simp [isAdditive, hpos3] at hadd
  · obtain ⟨u, n, s, rfl⟩ := h e he
    simp only [uidEvent, List.mem_cons, List.not_mem_nil, or_false] at hv
    rcases hv with rfl | rfl | rfl
    · exact True.intro
    · exact True.intro
    · exact True.intro

/-- The isolated uid 30 and its host 20 in one state: one event is left. -/
theorem merge_groupBy_isolated :
    ∃ out, mapAndMergeIsolatedUidsToHostUid Sorting.byPlace ((∅ : UMap Int Int).insert 30 20) 100 {2}
      [uidEvent 30 5 1, uidEvent 20 7 1] = some out ∧ GroupBy {2} [uidEvent 20 5 1, uidEvent 20 7 1] out := by
  have hdata : ∀ e ∈ [uidEvent 20 5 1, uidEvent 20 7 1], ∃ uid number state, e = uidEvent uid number state := by
    simp [uidEvent]
  obtain ⟨hone, hnan⟩ := uidEvents_oneAtom hdata
  obtain ⟨out, hout, hiff⟩ := merge_groupBy_iff Sorting.byPlace ((∅ : UMap Int Int).insert 30 20) 100 {2}
    [uidEvent 30 5 1, uidEvent 20 7 1] [uidEvent 20 5 1, uidEvent 20 7 1] rfl hone hnan
  refine ⟨out, hout, hiff.2 fun a ha b hb c hc _ _ _ => ?_⟩
  simp only [List.mem_cons, List.not_mem_nil, or_false] at ha hb
  rcases ha with rfl | rfl <;> rcases hb with rfl | rfl <;> rfl

/-- A number before the state: the event of state 2 sorts between the two of state 1, which stay apart. -/
theorem merge_splits_group :
    ¬ ∀ (sorting : Sorting) (mIsolatedUidMap : UMap Int Int) (tagId : Int) (additiveFields : Finset Nat)
      (data mapped out : List LogEvent),
      mapIsolatedUidsToHostUid mIsolatedUidMap tagId data = some (.mapped mapped) → OneAtom additiveFields mapped →
      (∀ e ∈ mapped, NoNaN e) →
      mapAndMergeIsolatedUidsToHostUid sorting mIsolatedUidMap tagId additiveFields data = some out →
      GroupBy additiveFields mapped out := by
  intro h
  have hdata : ∀ e ∈ [uidEvent 20 100 1, uidEvent 20 150 2, uidEvent 20 200 1], ∃ uid number state,
      e = uidEvent uid number state := by simp [uidEvent]
  obtain ⟨hone, hnan⟩ := uidEvents_oneAtom hdata
  have hgroup := h Sorting.byPlace ∅ 100 {2} [uidEvent 20 100 1, uidEvent 20 150 2, uidEvent 20 200 1]
    [uidEvent 20 100 1, uidEvent 20 150 2, uidEvent 20 200 1] _ rfl hone hnan rfl
  have htogether := (mergeData_groupBy_iff Sorting.byPlace hone hnan).1 hgroup
  have hkey := htogether (uidEvent 20 100 1) (by simp) (uidEvent 20 150 2) (by simp) (uidEvent 20 200 1) (by simp)
    (by decide +kernel) (by decide +kernel) rfl
  exact absurd hkey (by decide +kernel)

end Statsd.External
