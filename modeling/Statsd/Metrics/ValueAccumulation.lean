/-
What the events of a value metric do to its data: the bases that diffs are taken from, and the values
pending in the current bucket. An event changes nothing else of the producer; it moves the base of each of
its fields to its own value, and adds the diff to what is pending.
-/
import Statsd.Metrics.ValueMetricProducer

namespace Statsd.Metrics

variable {V : Type}

/-- The value that an event has for a field: none from the first field with a bad type on. -/
def fieldValue (values : List (Option V)) (i : Nat) : Option V :=
  if (values.take i).all Option.isSome then values[i]?.join else none

namespace ValueMetricProducer

/-- The base of a field of a dimension in what. -/
def baseAt (p : ValueMetricProducer V) (w : HashableDimensionKey) (i : Nat) : Option V :=
  (UMap.getD p.mCurrentBaseInfo w [])[i]?.bind (·.base)

/-- The value of a field of a key that is pending in the current bucket. -/
def pendingAt (p : ValueMetricProducer V) (k : MetricDimensionKey) (i : Nat) : Option V :=
  (UMap.getD p.mCurrentSlicedBucket k [])[i]?.bind (·.value)

/-- Nothing but the data of the current bucket differs. -/
def DataOnly (p p' : ValueMetricProducer V) : Prop :=
  { p' with
    mCurrentSlicedBucket := p.mCurrentSlicedBucket
    mCurrentBaseInfo := p.mCurrentBaseInfo
    mMatchedMetricDimensionKeys := p.mMatchedMetricDimensionKeys
    anomalyCalls := p.anomalyCalls } = p

variable (p : ValueMetricProducer V)

theorem DataOnly.refl : DataOnly p p := rfl

theorem DataOnly.trans {p p' p'' : ValueMetricProducer V} (h : DataOnly p p') (h' : DataOnly p' p'') : DataOnly p p'' := by
  unfold DataOnly at *
  have hstep : { p'' with
      mCurrentSlicedBucket := p.mCurrentSlicedBucket
      mCurrentBaseInfo := p.mCurrentBaseInfo
      mMatchedMetricDimensionKeys := p.mMatchedMetricDimensionKeys
      anomalyCalls := p.anomalyCalls } =
    { { p'' with
        mCurrentSlicedBucket := p'.mCurrentSlicedBucket
        mCurrentBaseInfo := p'.mCurrentBaseInfo
        mMatchedMetricDimensionKeys := p'.mMatchedMetricDimensionKeys
        anomalyCalls := p'.anomalyCalls } with
      mCurrentSlicedBucket := p.mCurrentSlicedBucket
      mCurrentBaseInfo := p.mCurrentBaseInfo
      mMatchedMetricDimensionKeys := p.mMatchedMetricDimensionKeys
      anomalyCalls := p.anomalyCalls } := rfl
  rw [hstep, h', h]

theorem DataOnly.congr {p p' : ValueMetricProducer V} (h : DataOnly p p') {α : Type} (f : ValueMetricProducer V → α)
    (hf : ∀ (q : ValueMetricProducer V) a b c d, f { q with
      mCurrentSlicedBucket := a, mCurrentBaseInfo := b, mMatchedMetricDimensionKeys := c, anomalyCalls := d } = f q) :
    f p' = f p := by
  have := congrArg f h
  rw [hf] at this
  exact this

/-- An interval with a value has the index of its field. -/
def Indexed (p : ValueMetricProducer V) : Prop :=
  ∀ (k : MetricDimensionKey) (i : Nat) (int : Interval V),
    (UMap.getD p.mCurrentSlicedBucket k [])[i]? = some int → int.value ≠ none → int.valueIndex = i

/-- The metric has no states: every dimension in what is tracked under the empty state key. -/
structure StateFree (p : ValueMetricProducer V) : Prop where
  unknown : p.unknownStateKey = []
  base : ∀ w, ∀ b ∈ UMap.getD p.mCurrentBaseInfo w [], b.currentState = none ∨ b.currentState = some []

/-- No list of bases or intervals is longer than the fields. -/
structure Sized (p : ValueMetricProducer V) : Prop where
  base : ∀ w, (UMap.getD p.mCurrentBaseInfo w []).length ≤ p.fieldCount
  sliced : ∀ k, (UMap.getD p.mCurrentSlicedBucket k []).length ≤ p.fieldCount

variable [MetricValue V]

/-! ## Bases that are dropped -/

/-- A base that is dropped. -/
def dropBase (b : BaseInfo V) : BaseInfo V := { b with base := none }

omit [MetricValue V] in
theorem get_dropBase (l : List (BaseInfo V)) (i : Nat) : (l.map dropBase)[i]?.bind (·.base) = none := by
  rw [List.getElem?_map]
  cases l[i]? with
  | none => rfl
  | some b => rfl

omit [MetricValue V] in
theorem getD_resetBase (w : HashableDimensionKey) :
    UMap.getD p.resetBase.mCurrentBaseInfo w [] = (UMap.getD p.mCurrentBaseInfo w []).map dropBase := by
  unfold UMap.getD ValueMetricProducer.resetBase
  dsimp only
  rw [UMap.lookup_mapVal]
  cases p.mCurrentBaseInfo.lookup w with
  | none => rfl
  | some l => rfl

omit [MetricValue V] in
theorem baseAt_resetBase (w : HashableDimensionKey) (i : Nat) : p.resetBase.baseAt w i = none := by
  unfold baseAt
  rw [getD_resetBase]
  exact get_dropBase _ i

/-- A tracked dimension in what that the pulled data does not have, and that contains the primary key of the state change. -/
def Missing (p : ValueMetricProducer V) (w : HashableDimensionKey) : Prop :=
  (∃ k ∈ p.mCurrentSlicedBucket, k.mDimensionKeyInWhat = w) ∧ w ∉ p.mMatchedMetricDimensionKeys ∧
    w.contains p.mStateChangePrimaryKey.2 = true

omit [MetricValue V] in
theorem resetMissing_spec :
    { p.resetMissing with mCurrentBaseInfo := p.mCurrentBaseInfo } = p ∧
      ∀ w, (p.Missing w → UMap.getD p.resetMissing.mCurrentBaseInfo w [] = (UMap.getD p.mCurrentBaseInfo w []).map dropBase) ∧
        (¬ p.Missing w → UMap.getD p.resetMissing.mCurrentBaseInfo w [] = UMap.getD p.mCurrentBaseInfo w []) := by
  unfold resetMissing Missing
  have hmem : ∀ w, (∃ k ∈ p.mCurrentSlicedBucket, k.mDimensionKeyInWhat = w) ↔
      ∃ s ∈ p.mCurrentSlicedBucket.entries, s.1.mDimensionKeyInWhat = w := by
    intro w
    constructor
    · rintro ⟨k, hk, hw⟩
      obtain ⟨s, hs, rfl⟩ := List.mem_map.1 (AList.mem_keys.1 hk)
      exact ⟨s, hs, hw⟩
    · rintro ⟨s, hs, hw⟩
      exact ⟨s.1, List.mem_keys_of_mem hs, hw⟩
  simp only [hmem]
  clear hmem
  generalize hM : p.mMatchedMetricDimensionKeys = M
  generalize hP : p.mStateChangePrimaryKey = P
  generalize p.mCurrentSlicedBucket.entries = l
  induction l generalizing p with
  | nil => exact ⟨rfl, fun w => ⟨fun h => by simp at h, fun _ => rfl⟩⟩
  | cons slice l ih =>
    rw [List.foldl_cons]
    simp only [List.exists_mem_cons_iff]
    split
    · rename_i hmissing
      rw [hM, hP] at hmissing
      have htwice : ∀ infos : List (BaseInfo V), (infos.map dropBase).map dropBase = infos.map dropBase := by
        intro infos
        rw [List.map_map]
        rfl
      cases hlook : p.mCurrentBaseInfo.lookup slice.1.mDimensionKeyInWhat with
      | none =>
        -- without an entry there is no base to drop
        obtain ⟨honly, hbase⟩ := ih p hM hP
        refine ⟨honly, fun w => ⟨?_, fun hw => (hbase w).2 fun h => hw ⟨.inr h.1, h.2⟩⟩⟩
        rintro ⟨hw | hw, hrest⟩
        · by_cases hl : ∃ s ∈ l, s.1.mDimensionKeyInWhat = w
          · exact (hbase w).1 ⟨hl, hrest⟩
          · subst hw
            rw [(hbase _).2 fun h => hl h.1, UMap.getD_of_lookup_none hlook]
            rfl
        · exact (hbase w).1 ⟨hw, hrest⟩
      | some infos =>
        dsimp only
        let p1 : ValueMetricProducer V := { p with
          mCurrentBaseInfo := p.mCurrentBaseInfo.insert slice.1.mDimensionKeyInWhat (infos.map dropBase) }
        obtain ⟨honly, hbase⟩ := ih p1 hM hP
        have hget : ∀ w, UMap.getD p1.mCurrentBaseInfo w [] = if w = slice.1.mDimensionKeyInWhat then infos.map dropBase
            else UMap.getD p.mCurrentBaseInfo w [] := fun w => UMap.getD_insert _ _ _ _ _
        refine ⟨?_, fun w => ⟨?_, fun hw => ?_⟩⟩
        · have h := congrArg (fun q : ValueMetricProducer V => { q with mCurrentBaseInfo := p.mCurrentBaseInfo }) honly
          exact h
        · rintro ⟨hw, hrest⟩
          by_cases hws : w = slice.1.mDimensionKeyInWhat
          · have hinfos : UMap.getD p.mCurrentBaseInfo w [] = infos := by rw [hws]; exact UMap.getD_of_lookup_some hlook []
            by_cases hl : ∃ s ∈ l, s.1.mDimensionKeyInWhat = w
            · refine ((hbase w).1 ⟨hl, hrest⟩).trans ?_
              rw [hget, if_pos hws, htwice, hinfos]
            · refine ((hbase w).2 fun h => hl h.1).trans ?_
              rw [hget, if_pos hws, hinfos]
          · refine ((hbase w).1 ⟨hw.resolve_left fun h => hws h.symm, hrest⟩).trans ?_
            rw [hget, if_neg hws]
        · have hws : w ≠ slice.1.mDimensionKeyInWhat := fun h => hw ⟨.inl h.symm, by rw [h]; exact hmissing⟩
          refine ((hbase w).2 fun h => hw ⟨.inr h.1, h.2⟩).trans ?_
          rw [hget, if_neg hws]
    · rename_i hmissing
      rw [hM, hP] at hmissing
      obtain ⟨honly, hbase⟩ := ih p hM hP
      refine ⟨honly, fun w => ⟨?_, fun hw => (hbase w).2 fun h => hw ⟨.inr h.1, h.2⟩⟩⟩
      rintro ⟨hw, hrest⟩
      refine (hbase w).1 ⟨hw.resolve_left fun h => ?_, hrest⟩
      subst h
      exact hmissing hrest

omit [MetricValue V] in
theorem resetMissing_only :
    { p.resetMissing with mCurrentBaseInfo := p.mCurrentBaseInfo } = p ∧
      ∀ w, UMap.getD p.resetMissing.mCurrentBaseInfo w [] = UMap.getD p.mCurrentBaseInfo w [] ∨
        UMap.getD p.resetMissing.mCurrentBaseInfo w [] = (UMap.getD p.mCurrentBaseInfo w []).map dropBase ∧
          w ∉ p.mMatchedMetricDimensionKeys ∧ w.contains p.mStateChangePrimaryKey.2 = true ∧
          ∃ k ∈ p.mCurrentSlicedBucket, k.mDimensionKeyInWhat = w := by
  obtain ⟨honly, hbase⟩ := p.resetMissing_spec
  refine ⟨honly, fun w => ?_⟩
  by_cases hw : p.Missing w
  · exact .inr ⟨(hbase w).1 hw, hw.2.1, hw.2.2, hw.1⟩
  · exact .inl ((hbase w).2 hw)

/-! ## The fields of an event -/

/-- The loop over the fields, from field `i`, as it concerns field `j` of the event: it stops before the field, it finds no value
there, or the value updates the field. -/
inductive FieldStep (p : ValueMetricProducer V) (stateKey : HashableDimensionKey) (values : List (Option V)) (i j : Nat) :
    Option (BaseInfo V) → Option (Interval V) → Option (BaseInfo V) → Option (Interval V) → Prop where
  | kept {b : Option (BaseInfo V)} {int : Option (Interval V)} (h : fieldValue values j = none ∨ b = none ∨ int = none) :
    FieldStep p stateKey values i j b int b int
  | reached {b : BaseInfo V} {int : Interval V} (h : fieldValue values j = none) :
    FieldStep p stateKey values i j (some b) (some int) (some { b with currentState := some stateKey })
      (some { int with valueIndex := i + j })
  | updated {b : BaseInfo V} {int : Interval V} {v : V} (h : fieldValue values j = some v) :
    FieldStep p stateKey values i j (some b) (some int)
      (some (p.updateInterval { b with currentState := some stateKey } { int with valueIndex := i + j } v).1)
      (some (p.updateInterval { b with currentState := some stateKey } { int with valueIndex := i + j } v).2.1)

theorem updateIntervals_field (stateKey : HashableDimensionKey) (values : List (Option V)) (i : Nat) (bs : List (BaseInfo V))
    (ints : List (Interval V)) (j : Nat) : FieldStep p stateKey values i j bs[j]? ints[j]?
      (p.updateIntervals stateKey i values bs ints).1[j]? (p.updateIntervals stateKey i values bs ints).2.1[j]? := by
  induction values generalizing i bs ints j with
  | nil => exact .kept (.inl (by simp [fieldValue]))
  | cons value values ih =>
    cases bs with
    | nil => exact .kept (.inr (.inl rfl))
    | cons b bs =>
      cases ints with
      | nil => exact .kept (.inr (.inr rfl))
      | cons int ints =>
        cases value with
        | none =>
          cases j with
          | zero => exact .reached rfl
          | succ j => exact .kept (.inl (by simp [fieldValue]))
        | some v =>
          cases j with
          | zero => exact .updated rfl
          | succ j =>
            have hrest := ih (i + 1) bs ints j
            simp only [updateIntervals, List.getElem?_cons_succ]
            generalize bs[j]? = b₀, ints[j]? = int₀ at hrest ⊢
            generalize (p.updateIntervals stateKey (i + 1) values bs ints).1[j]? = b',
              (p.updateIntervals stateKey (i + 1) values bs ints).2.1[j]? = int' at hrest ⊢
            cases hrest with
            | kept h => exact .kept h
            | reached h =>
              rw [add_right_comm, add_assoc]
              exact .reached h
            | updated h =>
              rw [add_right_comm, add_assoc]
              exact .updated h

theorem updateIntervals_length (stateKey : HashableDimensionKey) (values : List (Option V)) (i : Nat) (bs : List (BaseInfo V))
    (ints : List (Interval V)) : (p.updateIntervals stateKey i values bs ints).1.length = bs.length ∧
      (p.updateIntervals stateKey i values bs ints).2.1.length = ints.length := by
  induction values generalizing i bs ints with
  | nil => exact ⟨rfl, rfl⟩
  | cons value values ih =>
    cases bs with
    | nil => exact ⟨rfl, rfl⟩
    | cons b bs =>
      cases ints with
      | nil => exact ⟨rfl, rfl⟩
      | cons int ints =>
        cases value with
        | none => exact ⟨rfl, rfl⟩
        | some v => simpa [updateIntervals] using ih (i + 1) bs ints

omit [MetricValue V] in
theorem fieldValue_kept {values : List (Option V)} {bs : List (BaseInfo V)} {ints : List (Interval V)} {j : Nat}
    (hb : bs.length = values.length) (hi : ints.length = values.length)
    (h : fieldValue values j = none ∨ bs[j]? = none ∨ ints[j]? = none) : fieldValue values j = none := by
  have hpast : values.length ≤ j → fieldValue values j = none := fun hle => by simp [fieldValue, List.getElem?_eq_none hle]
  rcases h with h | h | h
  · exact h
  · exact hpast (hb ▸ List.getElem?_eq_none_iff.1 h)
  · exact hpast (hi ▸ List.getElem?_eq_none_iff.1 h)

theorem updateInterval_frame (b : BaseInfo V) (int : Interval V) (v : V) :
    (p.updateInterval b int v).1.currentState = b.currentState ∧ (p.updateInterval b int v).2.1.valueIndex = int.valueIndex := by
  unfold updateInterval
  dsimp only
  split
  · exact ⟨rfl, rfl⟩
  · split
    · exact ⟨rfl, rfl⟩
    · split
      · exact ⟨rfl, rfl⟩
      · exact ⟨rfl, rfl⟩

/-- The loop leaves an interval alone or gives it the index of its field, and leaves the state of a base
alone or sets it to the event's. -/
theorem updateIntervals_frame (stateKey : HashableDimensionKey) (values : List (Option V)) (i : Nat)
    (bs : List (BaseInfo V)) (ints : List (Interval V)) :
    (∀ j int, (p.updateIntervals stateKey i values bs ints).2.1[j]? = some int → int.valueIndex = i + j ∨ ints[j]? = some int) ∧
    ∀ b ∈ (p.updateIntervals stateKey i values bs ints).1, b.currentState = some stateKey ∨ b ∈ bs := by
  have hfield := p.updateIntervals_field stateKey values i bs ints
  refine ⟨fun j int h => ?_, fun b h => ?_⟩
  · specialize hfield j
    rw [h] at hfield
    generalize bs[j]? = b₀, ints[j]? = int₀, (p.updateIntervals stateKey i values bs ints).1[j]? = b' at hfield ⊢
    cases hfield with
    | kept _ => exact .inr rfl
    | reached _ => exact .inl rfl
    | updated _ => exact .inl (p.updateInterval_frame _ _ _).2
  · obtain ⟨j, hj⟩ := List.mem_iff_getElem?.1 h
    specialize hfield j
    rw [hj] at hfield
    generalize hold : bs[j]? = b₀, ints[j]? = int₀, (p.updateIntervals stateKey i values bs ints).2.1[j]? = int' at hfield
    cases hfield with
    | kept _ => exact .inr (List.mem_of_getElem? hold)
    | reached _ => exact .inl rfl
    | updated _ => exact .inl (p.updateInterval_frame _ _ _).1

theorem length_resize {α : Type} {l : List α} {n : Nat} (h : l.length ≤ n) (a : α) : (resize l n a).length = n := by
  unfold resize
  rw [List.length_append, List.length_replicate]
  omega

theorem resize_get {α β : Type} (l : List α) (n : Nat) (a : α) (f : α → Option β) (ha : f a = none) (i : Nat) :
    (resize l n a)[i]?.bind f = l[i]?.bind f := by
  unfold resize
  by_cases hi : i < l.length
  · rw [List.getElem?_append_left hi]
  · rw [List.getElem?_append_right (not_lt.1 hi), List.getElem?_eq_none (not_lt.1 hi), Option.bind_none]
    rw [List.getElem?_replicate]
    split
    · exact ha
    · rfl

/-- The bases of a dimension in what, as an event finds them. -/
def basesOf (p : ValueMetricProducer V) (w : HashableDimensionKey) : List (BaseInfo V) :=
  (resize (UMap.getD p.mCurrentBaseInfo w []) p.fieldCount {}).map fun baseInfo =>
    { baseInfo with currentState := some (baseInfo.currentState.getD p.unknownStateKey) }

/-- The state key under which a dimension in what is tracked. -/
def stateKeyOf (p : ValueMetricProducer V) (w : HashableDimensionKey) : HashableDimensionKey :=
  ((p.basesOf w).head?.bind (·.currentState)).getD p.unknownStateKey

/-- The intervals of a dimension in what, as an event finds them. -/
def intervalsOf (p : ValueMetricProducer V) (w : HashableDimensionKey) : List (Interval V) :=
  resize (UMap.getD p.mCurrentSlicedBucket ⟨w, p.stateKeyOf w⟩ []) p.fieldCount {}

/-- The base that the diff of a value is taken from: the field's own, or zero for a new key when the
producer has a global base. -/
def diffBase (p : ValueMetricProducer V) (base : Option V) (value : V) : Option V :=
  match base with
  | some base => some base
  | none => if p.mHasGlobalBase && p.mUseZeroDefaultBase then some (MetricValue.zero value) else none

/-- What is pending after a diff, when there is one. -/
def addDiff (p : ValueMetricProducer V) (pending : Option V) (diff : Option V) : Option V :=
  match diff with
  | none => pending
  | some diff => (p.aggregate { value := pending } diff).value

theorem updateInterval_diffed {p : ValueMetricProducer V} (hdiff : p.mUseDiff = true) (b : BaseInfo V) (int : Interval V) (v : V) :
    (p.updateInterval b int v).1.base = some v ∧
      (p.updateInterval b int v).2.1.value = p.addDiff int.value ((p.diffBase b.base v).bind fun base => p.diffValue base v) := by
  obtain ⟨base, state⟩ := b
  unfold updateInterval diffBase addDiff
  simp only [hdiff, Bool.not_true, Bool.false_eq_true, if_false]
  cases base with
  | none =>
    cases p.mHasGlobalBase && p.mUseZeroDefaultBase with
    | false => exact ⟨rfl, rfl⟩
    | true =>
      simp only [if_true, Option.bind_some]
      cases p.diffValue (MetricValue.zero v) v with
      | none => exact ⟨rfl, rfl⟩
      | some diff => exact ⟨rfl, rfl⟩
  | some base =>
    dsimp only [Option.bind_some]
    cases p.diffValue base v with
    | none => exact ⟨rfl, rfl⟩
    | some diff => exact ⟨rfl, rfl⟩

/-! ## Events -/

theorem accumulate_dataOnly (event : ValueEvent V) : DataOnly p (p.accumulate event) := by
  unfold accumulate
  dsimp only
  split
  · rfl
  · rfl

/-- An event at time `e` that the producer does not drop: the metric is active, the event is not late, and
it is not of another primary key than the one whose state changes. -/
def considers (p : ValueMetricProducer V) (e : Int) (ev : ValueEvent V) : Bool :=
  p.mIsActive && decide (p.mTimeBaseNs ≤ e) && decide (p.mCurrentBucketStartTimeNs ≤ e) &&
    !((ev.statePrimaryKeys.lookup p.mStateChangePrimaryKey.1).any fun key => decide (key ≠ p.mStateChangePrimaryKey.2))

theorem onMatchedLogEventLocked_eq {p : ValueMetricProducer V} (hd : p.mIsPulled = true ∧ p.mUseDiff = true) (e : Int) (ev : ValueEvent V) :
    ∀ p1 : ValueMetricProducer V, p1 = { p with
      mMatchedMetricDimensionKeys := insert ev.eventKey.mDimensionKeyInWhat p.mMatchedMetricDimensionKeys } →
    p.onMatchedLogEventLocked { ev with elapsedTimestampNs := e } =
      if p.considers e ev then
        if p1.hitGuardRailLocked ev.eventKey then p1 else p1.accumulate { ev with elapsedTimestampNs := e }
      else p := by
  rintro p1 rfl
  unfold onMatchedLogEventLocked onMatchedLogEventInternalLocked considers
  cases hactive : p.mIsActive with
  | false => rfl
  | true =>
    simp only [Bool.not_true, Bool.false_eq_true, if_false, Bool.true_and]
    by_cases hbase : p.mTimeBaseNs ≤ e
    · rw [if_neg (not_lt.2 hbase), decide_eq_true hbase, Bool.true_and]
      cases (ev.statePrimaryKeys.lookup p.mStateChangePrimaryKey.1).any fun key => decide (key ≠ p.mStateChangePrimaryKey.2) with
      | true => simp
      | false =>
        by_cases hstart : p.mCurrentBucketStartTimeNs ≤ e
        · rw [if_neg Bool.false_ne_true, if_neg (not_lt.2 hstart), decide_eq_true hstart]
          simp only [hd.1, hd.2, if_true, Bool.not_true, Bool.not_false, Bool.and_true, Bool.false_and, Bool.and_false,
            Bool.or_false, Bool.false_eq_true, if_false]
        · rw [if_neg Bool.false_ne_true, if_pos (not_le.1 hstart), decide_eq_false hstart, if_neg (by simp)]
    · rw [if_pos (not_le.1 hbase), decide_eq_false hbase, Bool.false_and, Bool.false_and, if_neg Bool.false_ne_true]

/-- The data after an event that has a value for each field. -/
structure Accumulated (p p' : ValueMetricProducer V) (w : HashableDimensionKey) (vs : List V) : Prop where
  only : DataOnly p p'
  sized : Sized p'
  base : ∀ w' i, p'.baseAt w' i = if w' = w ∧ i < p.fieldCount then vs[i]? else p.baseAt w' i
  pending : ∀ k i, p'.pendingAt k i = if k = ⟨w, p.stateKeyOf w⟩ ∧ i < p.fieldCount then
    p.addDiff (p.pendingAt k i) (vs[i]?.bind fun v => (p.diffBase (p.baseAt w i) v).bind fun base => p.diffValue base v)
    else p.pendingAt k i
  keys : ∀ k, k ∈ p'.mCurrentSlicedBucket ↔ k ∈ p.mCurrentSlicedBucket ∨ k = ⟨w, p.stateKeyOf w⟩
  matched : p'.mMatchedMetricDimensionKeys = p.mMatchedMetricDimensionKeys

theorem accumulate_data (event : ValueEvent V) :
    (p.accumulate event).mCurrentBaseInfo = p.mCurrentBaseInfo.insert event.eventKey.mDimensionKeyInWhat
      (p.updateIntervals event.eventKey.mStateValuesKey 0 event.values (p.basesOf event.eventKey.mDimensionKeyInWhat)
        (p.intervalsOf event.eventKey.mDimensionKeyInWhat)).1 ∧
    (p.accumulate event).mCurrentSlicedBucket = p.mCurrentSlicedBucket.insert
      ⟨event.eventKey.mDimensionKeyInWhat, p.stateKeyOf event.eventKey.mDimensionKeyInWhat⟩
      (p.updateIntervals event.eventKey.mStateValuesKey 0 event.values (p.basesOf event.eventKey.mDimensionKeyInWhat)
        (p.intervalsOf event.eventKey.mDimensionKeyInWhat)).2.1 ∧
    (p.accumulate event).mMatchedMetricDimensionKeys = p.mMatchedMetricDimensionKeys := by
  unfold accumulate
  dsimp only
  split
  · exact ⟨rfl, rfl, rfl⟩
  · exact ⟨rfl, rfl, rfl⟩

omit [MetricValue V] in
theorem Sized.length_basesOf {p : ValueMetricProducer V} (h : Sized p) (w : HashableDimensionKey) : (p.basesOf w).length = p.fieldCount := by
  unfold basesOf
  rw [List.length_map, length_resize (h.base w)]

omit [MetricValue V] in
theorem Sized.length_intervalsOf {p : ValueMetricProducer V} (h : Sized p) (w : HashableDimensionKey) : (p.intervalsOf w).length = p.fieldCount :=
  length_resize (h.sliced _) _

omit [MetricValue V] in
theorem basesOf_get (w : HashableDimensionKey) (i : Nat) :
    (p.basesOf w)[i]?.bind (·.base) = p.baseAt w i := by
  unfold basesOf baseAt
  rw [List.getElem?_map, Option.bind_map]
  exact resize_get _ _ _ _ rfl i

omit [MetricValue V] in
theorem intervalsOf_get (w : HashableDimensionKey) (i : Nat) :
    (p.intervalsOf w)[i]?.bind (·.value) = p.pendingAt ⟨w, p.stateKeyOf w⟩ i :=
  resize_get _ _ _ _ rfl i

theorem Indexed.accumulate {p : ValueMetricProducer V} (h : Indexed p) (event : ValueEvent V) : Indexed (p.accumulate event) := by
  obtain ⟨-, hsliced, -⟩ := p.accumulate_data event
  intro k i int hget hval
  rw [hsliced, UMap.getD_insert] at hget
  split at hget
  · rename_i hk
    rcases (p.updateIntervals_frame _ _ 0 _ _).1 i int hget with hx | hold
    · rw [hx, zero_add]
    · unfold intervalsOf resize at hold
      by_cases hi : i < (UMap.getD p.mCurrentSlicedBucket
          ⟨event.eventKey.mDimensionKeyInWhat, p.stateKeyOf event.eventKey.mDimensionKeyInWhat⟩ []).length
      · rw [List.getElem?_append_left hi] at hold
        exact h _ i int hold hval
      · rw [List.getElem?_append_right (not_lt.1 hi), List.getElem?_replicate] at hold
        split at hold
        · cases hold
          exact absurd rfl hval
        · cases hold
  · exact h k i int hget hval

omit [MetricValue V] in
theorem stateKeyOf_eq (w : HashableDimensionKey) :
    p.stateKeyOf w = ((UMap.getD p.mCurrentBaseInfo w []).head?.bind (·.currentState)).getD p.unknownStateKey := by
  unfold stateKeyOf basesOf resize
  cases UMap.getD p.mCurrentBaseInfo w [] with
  | nil =>
    cases p.fieldCount with
    | zero => rfl
    | succ n => rfl
  | cons b l => rfl

theorem updateIntervals_head (stateKey : HashableDimensionKey) (i : Nat) (values : List (Option V))
    (bs : List (BaseInfo V)) (ints : List (Interval V)) :
    (p.updateIntervals stateKey i values bs ints).1.head?.bind (·.currentState) = some stateKey ∨
      (p.updateIntervals stateKey i values bs ints).1 = bs ∧ (values = [] ∨ bs = [] ∨ ints = []) := by
  cases values with
  | nil => exact .inr (by simp [updateIntervals])
  | cons value values =>
    cases bs with
    | nil => exact .inr (by simp [updateIntervals])
    | cons b bs =>
      cases ints with
      | nil => exact .inr (by simp [updateIntervals])
      | cons int ints =>
        refine .inl ?_
        cases value with
        | none => rfl
        | some v => exact (p.updateInterval_frame { b with currentState := some stateKey } { int with valueIndex := i } v).1

theorem stateKeyOf_accumulate (ev : ValueEvent V) (w : HashableDimensionKey) :
    (p.accumulate ev).stateKeyOf w = p.stateKeyOf w ∧
        (w = ev.eventKey.mDimensionKeyInWhat → ev.values = [] ∨ p.basesOf w = [] ∨ p.intervalsOf w = []) ∨
      w = ev.eventKey.mDimensionKeyInWhat ∧ (p.accumulate ev).stateKeyOf w = ev.eventKey.mStateValuesKey := by
  obtain ⟨hbase, -, -⟩ := p.accumulate_data ev
  have hunknown : (p.accumulate ev).unknownStateKey = p.unknownStateKey :=
    (p.accumulate_dataOnly ev).congr (·.unknownStateKey) fun _ _ _ _ _ => rfl
  rw [stateKeyOf_eq, hbase, UMap.getD_insert, hunknown]
  by_cases hw : w = ev.eventKey.mDimensionKeyInWhat
  · rw [if_pos hw]
    rcases p.updateIntervals_head ev.eventKey.mStateValuesKey 0 ev.values (p.basesOf ev.eventKey.mDimensionKeyInWhat)
      (p.intervalsOf ev.eventKey.mDimensionKeyInWhat) with h | ⟨h, hempty⟩
    · rw [h]
      exact .inr ⟨hw, rfl⟩
    · rw [h, hw]
      exact .inl ⟨rfl, fun _ => hempty⟩
  · rw [if_neg hw, stateKeyOf_eq]
    exact .inl ⟨rfl, fun h => absurd h hw⟩

/-- After an event with a value for each field its dimension in what is tracked under the states of the event. -/
theorem stateKeyOf_accumulate_eq {p : ValueMetricProducer V} (hp : Sized p) (hfields : 0 < p.fieldCount) (event : ValueEvent V)
    (hlength : event.values.length = p.fieldCount) :
    (p.accumulate event).stateKeyOf =
      Function.update p.stateKeyOf event.eventKey.mDimensionKeyInWhat event.eventKey.mStateValuesKey := by
  have hbs : ∀ w, (p.basesOf w).length = p.fieldCount := by
    intro w
    unfold basesOf
    rw [List.length_map, length_resize (hp.base w)]
  have hints : ∀ w, (p.intervalsOf w).length = p.fieldCount := fun w => length_resize (hp.sliced _) _
  have hne : ∀ {α : Type} {l : List α}, l.length = p.fieldCount → l ≠ [] := by
    rintro α l hl rfl
    exact absurd hl (Nat.ne_of_lt hfields)
  funext w
  rcases p.stateKeyOf_accumulate event w with ⟨hsame, hempty⟩ | ⟨rfl, hnew⟩
  · rw [hsame, Function.update_of_ne]
    intro hw
    rcases hempty hw with h | h | h
    · exact hne hlength h
    · exact hne (hbs w) h
    · exact hne (hints w) h
  · rw [hnew, Function.update_self]

omit [MetricValue V] in
theorem StateFree.stateKeyOf {p : ValueMetricProducer V} (h : StateFree p) (w : HashableDimensionKey) : p.stateKeyOf w = [] := by
  unfold ValueMetricProducer.stateKeyOf
  cases hb : (p.basesOf w).head? with
  | none => exact h.unknown
  | some b =>
    have hmem := List.mem_of_mem_head? hb
    unfold basesOf at hmem
    obtain ⟨b', hb', rfl⟩ := List.mem_map.1 hmem
    have hstate : b'.currentState = none ∨ b'.currentState = some [] := by
      unfold resize at hb'
      rcases List.mem_append.1 hb' with hb' | hb'
      · exact h.base w b' hb'
      · rw [List.eq_of_mem_replicate hb']
        exact .inl rfl
    rcases hstate with hs | hs
    · simp [hs, h.unknown]
    · simp [hs]

theorem StateFree.accumulate {p : ValueMetricProducer V} (h : StateFree p) {event : ValueEvent V}
    (hstate : event.eventKey.mStateValuesKey = []) : StateFree (p.accumulate event) := by
  obtain ⟨hbase, -, -⟩ := p.accumulate_data event
  have hunknown : (p.accumulate event).unknownStateKey = p.unknownStateKey :=
    (p.accumulate_dataOnly event).congr (·.unknownStateKey) fun _ _ _ _ _ => rfl
  refine ⟨hunknown.trans h.unknown, fun w b hb => ?_⟩
  rw [hbase, UMap.getD_insert] at hb
  split at hb
  · rw [hstate] at hb
    rcases (p.updateIntervals_frame _ _ 0 _ _).2 b hb with hs | hold
    · exact .inr hs
    · unfold basesOf at hold
      obtain ⟨b', hb', rfl⟩ := List.mem_map.1 hold
      refine .inr ?_
      unfold resize at hb'
      rcases List.mem_append.1 hb' with hb' | hb'
      · rcases h.base _ b' hb' with hs | hs
        · simp [hs, h.unknown]
        · simp [hs]
      · rw [List.eq_of_mem_replicate hb']
        simp [h.unknown]
  · exact h.base w b hb

theorem accumulate_spec {p : ValueMetricProducer V} (hp : Sized p) (hdiff : p.mUseDiff = true) (event : ValueEvent V) {vs : List V}
    (hvs : event.values = vs.map some) (hlen : vs.length = p.fieldCount) :
    Accumulated p (p.accumulate event) event.eventKey.mDimensionKeyInWhat vs := by
  have honly := p.accumulate_dataOnly event
  obtain ⟨hbase, hsliced, hmatched⟩ := p.accumulate_data event
  generalize event.eventKey.mDimensionKeyInWhat = w at *
  have hbs := hp.length_basesOf w
  have hints := hp.length_intervalsOf w
  obtain ⟨h1, h2⟩ := p.updateIntervals_length event.eventKey.mStateValuesKey (vs.map some) 0 (p.basesOf w) (p.intervalsOf w)
  rw [hvs] at hbase hsliced
  have hcount : (p.accumulate event).fieldCount = p.fieldCount := honly.congr (·.fieldCount) fun _ _ _ _ _ => rfl
  -- what the loop leaves for each field
  have hget : ∀ i, i < p.fieldCount → ∃ v, vs[i]? = some v ∧
      ((p.updateIntervals event.eventKey.mStateValuesKey 0 (vs.map some) (p.basesOf w) (p.intervalsOf w)).1[i]?.bind (·.base)) = some v ∧
      ((p.updateIntervals event.eventKey.mStateValuesKey 0 (vs.map some) (p.basesOf w) (p.intervalsOf w)).2.1[i]?.bind (·.value)) =
        p.addDiff (p.pendingAt ⟨w, p.stateKeyOf w⟩ i) ((p.diffBase (p.baseAt w i) v).bind fun base => p.diffValue base v) := by
    intro i hi
    have hv : vs[i]? = some vs[i] := List.getElem?_eq_getElem (by omega)
    have hb : (p.basesOf w)[i]? = some (p.basesOf w)[i] := List.getElem?_eq_getElem (by omega)
    have hint : (p.intervalsOf w)[i]? = some (p.intervalsOf w)[i] := List.getElem?_eq_getElem (by omega)
    have hb' := p.basesOf_get w i
    have hint' := p.intervalsOf_get w i
    rw [hb] at hb'
    rw [hint] at hint'
    have hfield := p.updateIntervals_field event.eventKey.mStateValuesKey (vs.map some) 0 (p.basesOf w) (p.intervalsOf w) i
    have hvalue : fieldValue (vs.map some) i = some vs[i] := by
      have hnone : none ∉ (vs.map some).take i := by simp [← List.map_take]
      simp [fieldValue, hv, hnone]
    rw [hb, hint] at hfield
    refine ⟨_, hv, ?_⟩
    rw [← hb', ← hint']
    generalize (p.updateIntervals event.eventKey.mStateValuesKey 0 (vs.map some) (p.basesOf w) (p.intervalsOf w)).1[i]? = b,
      (p.updateIntervals event.eventKey.mStateValuesKey 0 (vs.map some) (p.basesOf w) (p.intervalsOf w)).2.1[i]? = int at hfield ⊢
    cases hfield with
    | kept h => simp [hvalue] at h
    | reached h => simp [hvalue] at h
    | updated h =>
      cases hvalue.symm.trans h
      exact updateInterval_diffed hdiff _ _ _
  refine ⟨honly, ⟨fun w' => ?_, fun k => ?_⟩, fun w' i => ?_, fun k i => ?_, fun k => ?_, hmatched⟩
  · rw [hbase, hcount, UMap.getD_insert]
    split
    · rw [h1, hbs]
    · exact hp.base w'
  · rw [hsliced, hcount, UMap.getD_insert]
    split
    · rw [h2, hints]
    · exact hp.sliced k
  · unfold baseAt
    rw [hbase, UMap.getD_insert]
    by_cases hw : w' = w
    · subst hw
      rw [if_pos rfl]
      by_cases hi : i < p.fieldCount
      · obtain ⟨v, hv, hg, -⟩ := hget i hi
        rw [if_pos ⟨rfl, hi⟩, hv]
        exact hg
      · rw [if_neg fun h => hi h.2, List.getElem?_eq_none (by rw [h1]; omega)]
        rw [List.getElem?_eq_none ((hp.base w').trans (not_lt.1 hi))]
    · rw [if_neg hw, if_neg fun h => hw h.1]
  · unfold pendingAt
    rw [hsliced, UMap.getD_insert]
    by_cases hk : k = ⟨w, p.stateKeyOf w⟩
    · subst hk
      rw [if_pos rfl]
      by_cases hi : i < p.fieldCount
      · obtain ⟨v, hv, -, hg⟩ := hget i hi
        rw [if_pos ⟨rfl, hi⟩, hv]
        exact hg
      · rw [if_neg fun h => hi h.2, List.getElem?_eq_none (by rw [h2]; omega)]
        rw [List.getElem?_eq_none ((hp.sliced _).trans (not_lt.1 hi))]
    · rw [if_neg hk, if_neg fun h => hk h.1]
  · rw [hsliced, AList.mem_insert]
    exact or_comm

end ValueMetricProducer

end Statsd.Metrics
