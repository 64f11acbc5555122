/-
Links pair their fields by position (getDimensionForCondition and getDimensionForState of
HashableDimensionKey.cpp, with `linked` as the sibling that compares them so). The values of an event are
collected in the order of the event and relabelled in the order of the link, so a value gets the field
of its own place exactly when the two orders agree, up to values and fields that are equal anyway.
-/
import Statsd.Metrics.MatchedEvent

namespace Statsd

/-- `getDimensionForState`. -/
def getDimensionForState (eventValues : List (Field × Value)) (link : Metric2State) : HashableDimensionKey :=
  getDimensionForLink eventValues link.metricFields link.stateFields []

/-- The first value under a matcher. -/
def filterValue (matcherField : Matcher) (values : List (Field × Value)) : Option (Field × Value) :=
  values.find? (·.1.matches matcherField)

/-- Each matcher matches exactly one value of the event. -/
def MatchOnce (matcherFields : List Matcher) (values : List (Field × Value)) : Prop :=
  ∀ m ∈ matcherFields, (values.filter (·.1.matches m)).length = 1

/-- The value under each metric field is in the key with the field of the linked field at its place. -/
def PairedByPosition (metricFields linkedFields : List Matcher) (values : List (Field × Value)) (key : HashableDimensionKey) : Prop :=
  ∀ p ∈ metricFields.zip linkedFields, ∃ v ∈ filterValue p.1 values, (p.2.mMatcher, v.2) ∈ key

/-- The values an event has under the matchers, in its own order. -/
def matchedValues (matcherFields : List Matcher) (values : List (Field × Value)) : List ((Field × Value) × Matcher) :=
  values.flatMap fun value => (matcherFields.filter (value.1.matches ·)).map (value, ·)

/-- The matchers in the order in which the event lists their values. -/
def eventOrder (matcherFields : List Matcher) (values : List (Field × Value)) : List Matcher :=
  (matchedValues matcherFields values).map (·.2)

/-- Where the link has a metric field, the event lists the same value, or does so where the link has the
same linked field. -/
def InLinkOrder (metricFields linkedFields : List Matcher) (values : List (Field × Value)) : Prop :=
  ∀ p ∈ metricFields.zip linkedFields, ∃ q ∈ (eventOrder metricFields values).zip linkedFields,
    q.2.mMatcher = p.2.mMatcher ∧ (filterValue q.1 values).map (·.2) = (filterValue p.1 values).map (·.2)

section

variable {metricFields linkedFields : List Matcher} {values : List (Field × Value)}

/-! ## What the event has under the matchers -/

theorem matchedValues_cons (m : Matcher) (ms : List Matcher) :
    (matchedValues (m :: ms) values).Perm
      ((values.filter (·.1.matches m)).map (·, m) ++ matchedValues ms values) := by
  have hsplit : ∀ value : Field × Value, ((m :: ms).filter (value.1.matches ·)).map (value, ·) =
      (if value.1.matches m then [(value, m)] else []) ++ (ms.filter (value.1.matches ·)).map (value, ·) := by
    intro value
    cases h : value.1.matches m <;> simp [h]
  have hone : (values.flatMap fun value => if value.1.matches m then [(value, m)] else []) =
      (values.filter (·.1.matches m)).map (·, m) := by
    induction values with
    | nil => rfl
    | cons value rest ih => cases h : value.1.matches m <;> simp [h, ih]
  unfold matchedValues
  simp only [hsplit]
  rw [← hone]
  exact (List.flatMap_append_perm _ _ _).symm

theorem eventOrder_perm {ms : List Matcher} (hone : MatchOnce ms values) : (eventOrder ms values).Perm ms := by
  induction ms with
  | nil => simp [eventOrder, matchedValues]
  | cons m ms ih =>
    obtain ⟨value, hvalue⟩ := List.length_eq_one_iff.mp (hone m List.mem_cons_self)
    have hcons := (@matchedValues_cons values m ms).map (·.2)
    rw [hvalue] at hcons
    exact hcons.trans ((ih fun m' hm' => hone m' (List.mem_cons_of_mem m hm')).cons m)

theorem matchedValues_length (hone : MatchOnce metricFields values) :
    (matchedValues metricFields values).length = metricFields.length := by
  simpa [eventOrder] using (eventOrder_perm hone).length_eq

theorem filterValue_of_mem (hone : MatchOnce metricFields values) {f : (Field × Value) × Matcher}
    (hf : f ∈ matchedValues metricFields values) : filterValue f.2 values = some f.1 := by
  obtain ⟨value, m⟩ := f
  simp only [matchedValues, List.mem_flatMap, List.mem_map, List.mem_filter, Prod.mk.injEq] at hf
  obtain ⟨_, hvalue, _, ⟨hm, hmatch⟩, rfl, rfl⟩ := hf
  obtain ⟨found, hfound⟩ := List.length_eq_one_iff.mp (hone _ hm)
  have heq : _ ∈ [found] := hfound ▸ List.mem_filter.mpr ⟨hvalue, hmatch⟩
  rw [List.mem_singleton] at heq
  rw [filterValue, ← List.head?_filter, hfound, heq]
  rfl

theorem filterValue_isSome (hone : MatchOnce metricFields values) {m : Matcher} (hm : m ∈ metricFields) :
    ∃ v, filterValue m values = some v := by
  obtain ⟨found, hfound⟩ := List.length_eq_one_iff.mp (hone m hm)
  exact ⟨found, by rw [filterValue, ← List.head?_filter, hfound]; rfl⟩

/-! ## The key of a link -/

theorem filterValues_eq (ms : List Matcher) : filterValues ms values =
    (matchedValues ms values).map fun f => (⟨f.1.1.mTag, f.1.1.mField &&& f.2.mMask⟩, f.1.2) := by
  simp [filterValues, matchedValues, List.map_flatMap, Function.comp_def]

theorem filterValuesInto_nil (ms : List Matcher) : filterValuesInto ms values [] = filterValues ms values := by
  have hfound : (values.flatMap fun value => (ms.filter (value.1.matches ·)).map fun matcher =>
      (value, (⟨value.1.mTag, value.1.mField &&& matcher.mMask⟩ : Field))) =
      (matchedValues ms values).map fun f => (f.1, ⟨f.1.1.mTag, f.1.1.mField &&& f.2.mMask⟩) := by
    simp [matchedValues, List.map_flatMap, Function.comp_def]
  unfold filterValuesInto
  rw [hfound, filterValues_eq]
  generalize matchedValues ms values = found
  simp [List.zipWith_map_left, List.zipWith_map_right, List.zipWith_self]

theorem getDimensionForLink_nil (link : Metric2Condition) :
    getDimensionForLink values link.metricFields link.conditionFields [] = getDimensionForCondition values link := by
  simp only [getDimensionForLink, getDimensionForCondition, filterValuesInto_nil]

theorem getDimensionForLink_eq (hlen : metricFields.length = linkedFields.length) (hone : MatchOnce metricFields values) :
    getDimensionForLink values metricFields linkedFields [] =
      ((matchedValues metricFields values).zip linkedFields).map fun q => (q.2.mMatcher, q.1.1.2) := by
  rw [getDimensionForLink, filterValuesInto_nil, filterValues_eq]
  simp [matchedValues_length hone, hlen, List.zipWith_map_left, List.zip, List.map_zipWith]

theorem mem_getDimensionForLink (hlen : metricFields.length = linkedFields.length) (hone : MatchOnce metricFields values)
    (entry : Field × Value) : entry ∈ getDimensionForLink values metricFields linkedFields [] ↔
      ∃ q ∈ (eventOrder metricFields values).zip linkedFields,
        q.2.mMatcher = entry.1 ∧ (filterValue q.1 values).map (·.2) = some entry.2 := by
  have hfound : ∀ q ∈ (matchedValues metricFields values).zip linkedFields, filterValue q.1.2 values = some q.1.1 :=
    fun q hq => filterValue_of_mem hone (List.of_mem_zip hq).1
  rw [getDimensionForLink_eq hlen hone, eventOrder, List.zip_map_left, List.mem_map]
  constructor
  · rintro ⟨q, hq, rfl⟩
    exact ⟨(q.1.2, q.2), List.mem_map.mpr ⟨q, hq, rfl⟩, rfl, by rw [hfound q hq]; rfl⟩
  · rintro ⟨_, hmem, hfield, hvalue⟩
    obtain ⟨q, hq, rfl⟩ := List.mem_map.mp hmem
    refine ⟨q, hq, Prod.ext hfield ?_⟩
    simpa [hfound q hq] using hvalue

theorem getDimensionForLink_paired_iff (hlen : metricFields.length = linkedFields.length) (hone : MatchOnce metricFields values) :
    PairedByPosition metricFields linkedFields values (getDimensionForLink values metricFields linkedFields []) ↔
      InLinkOrder metricFields linkedFields values := by
  refine forall₂_congr fun p hp => ?_
  obtain ⟨v, hv⟩ := filterValue_isSome hone (List.of_mem_zip hp).1
  simp only [hv, Option.mem_def, Option.some.injEq, exists_eq_left', mem_getDimensionForLink hlen hone, Option.map_some]

theorem InLinkOrder.of_eventOrder (h : eventOrder metricFields values = metricFields) :
    InLinkOrder metricFields linkedFields values :=
  fun p hp => ⟨p, h.symm ▸ hp, rfl, rfl⟩

end

/-- For the links to conditions and to states alike: where each metric field matches one value, the values
are under the linked fields at their places if and only if the event lists them in the link's order. -/
theorem link_fields_paired_iff (values : List (Field × Value)) :
    (∀ link : Metric2Condition, link.metricFields.length = link.conditionFields.length → MatchOnce link.metricFields values →
      (PairedByPosition link.metricFields link.conditionFields values (getDimensionForCondition values link) ↔
        InLinkOrder link.metricFields link.conditionFields values)) ∧
    (∀ link : Metric2State, link.metricFields.length = link.stateFields.length → MatchOnce link.metricFields values →
      (PairedByPosition link.metricFields link.stateFields values (getDimensionForState values link) ↔
        InLinkOrder link.metricFields link.stateFields values)) := by
  constructor
  · intro link hlen hone
    rw [← getDimensionForLink_nil]
    exact getDimensionForLink_paired_iff hlen hone
  · intro link hlen hone
    exact getDimensionForLink_paired_iff hlen hone

/-- A uid and a count of atom 10. -/
def uidAndCount : List (Field × Value) :=
  [(Field.ofPos 10 (fun _ => 1#32) 0, .INT 1000), (Field.ofPos 10 (fun i => if i = 0 then 2#32 else 1#32) 0, .INT 7)]

/-- The matchers of two fields of an atom. -/
def fieldsOfAtom (tag first second : Int) : List Matcher :=
  FieldMatcher.translateFieldMatcher (.mk tag none [.mk first none [], .mk second none []])

theorem uid_then_count_paired :
    PairedByPosition (fieldsOfAtom 10 1 2) (fieldsOfAtom 20 2 1) uidAndCount
      (getDimensionForCondition uidAndCount ⟨1, fieldsOfAtom 10 1 2, fieldsOfAtom 20 2 1⟩) ∧
    PairedByPosition (fieldsOfAtom 10 1 2) (fieldsOfAtom 20 2 1) uidAndCount
      (getDimensionForState uidAndCount ⟨20, fieldsOfAtom 10 1 2, fieldsOfAtom 20 2 1⟩) := by
  have hone : MatchOnce (fieldsOfAtom 10 1 2) uidAndCount := by unfold MatchOnce; decide +kernel
  have horder : InLinkOrder (fieldsOfAtom 10 1 2) (fieldsOfAtom 20 2 1) uidAndCount :=
    .of_eventOrder (by decide +kernel)
  have hlen : (fieldsOfAtom 10 1 2).length = (fieldsOfAtom 20 2 1).length := by decide +kernel
  exact ⟨((link_fields_paired_iff uidAndCount).1 ⟨1, _, _⟩ hlen hone).mpr horder,
    ((link_fields_paired_iff uidAndCount).2 ⟨20, _, _⟩ hlen hone).mpr horder⟩

/-- A link that lists the count before the uid asks for the entity whose count is the uid. -/
theorem count_then_uid_swapped :
    (fieldsOfAtom 10 2 1).length = (fieldsOfAtom 20 2 1).length ∧ MatchOnce (fieldsOfAtom 10 2 1) uidAndCount ∧
    ¬ PairedByPosition (fieldsOfAtom 10 2 1) (fieldsOfAtom 20 2 1) uidAndCount
      (getDimensionForCondition uidAndCount ⟨1, fieldsOfAtom 10 2 1, fieldsOfAtom 20 2 1⟩) ∧
    ¬ PairedByPosition (fieldsOfAtom 10 2 1) (fieldsOfAtom 20 2 1) uidAndCount
      (getDimensionForState uidAndCount ⟨20, fieldsOfAtom 10 2 1, fieldsOfAtom 20 2 1⟩) := by
  unfold MatchOnce PairedByPosition
  decide +kernel

end Statsd
