/-
Isolated uids in every uid field. What the mapping should come to is stated on the values of an event alone: the
uids of its attribution chains and the values annotated as uids are replaced, the rest stays. The pushed path
replaces at the places recorded in the event, the pulled path at those recorded in the first event of the batch, and
each of them is right exactly when no uid with another host is at a place where the two differ.
-/
import Statsd.External.PullerUtil
import Statsd.Logd.Recorded

namespace Statsd.External

open Logd (LogEvent)
open Logd.LogEvent (Recorded)

/-! ## Uids -/

/-- The event was accepted by the parser. -/
def Accepted (event : LogEvent) : Prop :=
  ∃ (mem : Memory) (uid pid : Int) (buf len : Nat),
    LogEvent.parseBuffer mem { mLogUid := uid, mLogPid := pid } buf len = (event, true)

/-- The uid of a node of a chain: an int at the first leaf of the node, before the node's tag at the second. -/
def AttributionUid (values : List FieldValue) (i : Nat) : Prop :=
  ∃ v w : FieldValue, values[i]? = some v ∧ values[i + 1]? = some w ∧ LogEvent.isInt v.mValue = true ∧
    (∃ tag, w.mValue = .STRING tag) ∧ v.mField.getDepth = 2 ∧ v.mField.mField &&& 0x7f#32 = 1#32 ∧
    w.mField.mField = v.mField.mField + 1#32

/-- The value at the index is a uid. -/
def IsUid (event : LogEvent) (i : Nat) : Prop :=
  AttributionUid event.mValues i ∨ ∃ v, event.mValues[i]? = some v ∧ v.mAnnotations.uidField = true

section

variable (mIsolatedUidMap : UMap Int Int)

/-- The uids at some places are replaced by those of their hosts; nothing else changes. -/
structure MappedAt (place : Nat → Prop) (event event' : LogEvent) : Prop where
  values : event' = { event with mValues := event'.mValues }
  mapped : ∀ i, place i → event'.mValues[i]? = event.mValues[i]?.map (toHostUid mIsolatedUidMap)
  kept : ∀ i, ¬ place i → event'.mValues[i]? = event.mValues[i]?

/-- Every uid is replaced by that of its host; nothing else changes. -/
def Mapped (event event' : LogEvent) : Prop := MappedAt mIsolatedUidMap (IsUid event) event event'

/-- The value at the index is a uid with another host. -/
def Moves (event : LogEvent) (i : Nat) : Prop :=
  ∃ (v : FieldValue) (uid : Int), event.mValues[i]? = some v ∧ v.mValue = .INT uid ∧ getHostUidOrSelf mIsolatedUidMap uid ≠ uid

theorem toHostUid_eq_self_iff (v : FieldValue) :
    toHostUid mIsolatedUidMap v = v ↔ ∀ uid, v.mValue = .INT uid → getHostUidOrSelf mIsolatedUidMap uid = uid := by
  obtain ⟨field, value, annotations⟩ := v
  unfold toHostUid
  cases value <;> simp

theorem moves_iff (event : LogEvent) (i : Nat) :
    Moves mIsolatedUidMap event i ↔ ∃ v, event.mValues[i]? = some v ∧ toHostUid mIsolatedUidMap v ≠ v := by
  constructor
  · rintro ⟨v, uid, hv, hint, hne⟩
    exact ⟨v, hv, fun h => hne ((toHostUid_eq_self_iff mIsolatedUidMap v).1 h uid hint)⟩
  · rintro ⟨v, hv, hne⟩
    rw [Ne, toHostUid_eq_self_iff] at hne
    push Not at hne
    obtain ⟨uid, hint, hne⟩ := hne
    exact ⟨v, uid, hv, hint, hne⟩

end

variable {mIsolatedUidMap : UMap Int Int}

theorem MappedAt.unique {place : Nat → Prop} {event event1 event2 : LogEvent}
    (h1 : MappedAt mIsolatedUidMap place event event1) (h2 : MappedAt mIsolatedUidMap place event event2) : event1 = event2 := by
  have hvalues : event1.mValues = event2.mValues := by
    refine List.ext_getElem? fun i => ?_
    by_cases hi : place i
    · rw [h1.mapped i hi, h2.mapped i hi]
    · rw [h1.kept i hi, h2.kept i hi]
  rw [h1.values, h2.values, hvalues]

theorem MappedAt.at_iff {place place' : Nat → Prop} {event event' : LogEvent}
    (h : MappedAt mIsolatedUidMap place event event') :
    MappedAt mIsolatedUidMap place' event event' ↔ ∀ i, Moves mIsolatedUidMap event i → (place' i ↔ place i) := by
  constructor
  · intro h' i hmoves
    obtain ⟨v, hv, hne⟩ := (moves_iff mIsolatedUidMap event i).1 hmoves
    by_cases hp : place i <;> by_cases hp' : place' i
    · exact iff_of_true hp' hp
    · have hsame := (h.mapped i hp).symm.trans (h'.kept i hp')
      rw [hv] at hsame
      exact absurd (Option.some.inj hsame) hne
    · have hsame := (h'.mapped i hp').symm.trans (h.kept i hp)
      rw [hv] at hsame
      exact absurd (Option.some.inj hsame) hne
    · exact iff_of_false hp' hp
  · intro hagree
    -- where no uid moves, mapping changes nothing
    have hstay : ∀ i, ¬ Moves mIsolatedUidMap event i →
        event.mValues[i]?.map (toHostUid mIsolatedUidMap) = event.mValues[i]? := by
      intro i hi
      cases hv : event.mValues[i]? with
      | none => rfl
      | some v =>
        by_contra hne
        exact hi ((moves_iff mIsolatedUidMap event i).2 ⟨v, hv, fun h => hne (by rw [Option.map_some, h])⟩)
    refine ⟨h.values, fun i hp' => ?_, fun i hp' => ?_⟩
    · by_cases hp : place i
      · exact h.mapped i hp
      · rw [h.kept i hp, hstay i fun hm => hp ((hagree i hm).1 hp')]
    · by_cases hp : place i
      · rw [h.mapped i hp, hstay i fun hm => hp' ((hagree i hm).2 hp)]
      · exact h.kept i hp

/-! ## The places that are mapped -/

/-- The places mapped in an event: the uids in a range, or the uid field when there is none. -/
def Place (attrIndexRange : Option (Int × Int)) (event : LogEvent) (i : Nat) : Prop :=
  match attrIndexRange with
  | some range => range.1 ≤ i ∧ (i : Int) ≤ range.2 ∧ ∃ v, event.mValues[i]? = some v ∧ isAttributionUidField v = true
  | none => event.mUidFieldIndex = i

/-- In a pushed event. -/
def PushedPlace (event : LogEvent) : Nat → Prop := Place (hasAttributionChain event) event

/-- In an event of a batch, which is left as it is when the first event has neither a chain nor a uid field. -/
def PulledPlace (first event : LogEvent) (i : Nat) : Prop :=
  ¬ (hasAttributionChain first = none ∧ first.mUidFieldIndex = -1) ∧ Place (hasAttributionChain first) event i

/-- The range of the first event's chain ends inside the event. -/
def RangeInside (first event : LogEvent) : Prop :=
  ∀ range, hasAttributionChain first = some range → range.2 < event.mValues.length

section

variable (mIsolatedUidMap)

theorem mapIndices_spec {indices : List Nat} (hnodup : indices.Nodup) (values : List FieldValue)
    (hinside : ∀ i ∈ indices, i < values.length) :
    ∃ values', mapIndices mIsolatedUidMap (indices.map fun i : Nat => (i : Int)) values = some values' ∧
      ∀ i, values'[i]? = values[i]?.map fun v =>
        if i ∈ indices ∧ isAttributionUidField v = true then toHostUid mIsolatedUidMap v else v := by
  induction indices generalizing values with
  | nil => exact ⟨values, rfl, fun i => by simp⟩
  | cons k indices ih =>
    obtain ⟨hk, hnodup⟩ := List.nodup_cons.1 hnodup
    have hklt := hinside k List.mem_cons_self
    have hvalue : valueAt values (k : Int) = some values[k] := by
      simp [valueAt, List.getElem?_eq_getElem hklt]
    -- the value at the first index is replaced, or not
    obtain ⟨values1, h1, hlength, hget⟩ : ∃ values1, values1 = (if isAttributionUidField values[k] = true then
          values.set k (toHostUid mIsolatedUidMap values[k]) else values) ∧ values1.length = values.length ∧
        ∀ i, values1[i]? = values[i]?.map fun v =>
          if i = k ∧ isAttributionUidField v = true then toHostUid mIsolatedUidMap v else v := by
      refine ⟨_, rfl, by split <;> simp, fun i => ?_⟩
      by_cases hik : i = k
      · subst hik
        rw [List.getElem?_eq_getElem hklt]
        split
        · rename_i huid
          simp [hklt, huid]
        · rename_i huid
          simp [hklt, huid]
      · have hset : (if isAttributionUidField values[k] = true then
            values.set k (toHostUid mIsolatedUidMap values[k]) else values)[i]? = values[i]? := by
          split
          · exact List.getElem?_set_ne (Ne.symm hik)
          · rfl
        rw [hset]
        simp [hik]
    obtain ⟨values', h', hget'⟩ := ih hnodup values1 fun i hi => by
      rw [hlength]; exact hinside i (List.mem_cons_of_mem k hi)
    refine ⟨values', ?_, fun i => ?_⟩
    · rw [List.map_cons, mapIndices, hvalue]
      dsimp only
      rw [Int.toNat_natCast, ← h1]
      exact h'
    · rw [hget' i, hget i]
      cases values[i]? with
      | none => rfl
      | some v =>
        by_cases hik : i = k
        · subst hik
          simp [hk]
        · simp [hik]

theorem mapIndices_outside {indices : List Nat} {i : Nat} (hi : i ∈ indices) (values : List FieldValue)
    (houtside : values.length ≤ i) :
    mapIndices mIsolatedUidMap (indices.map fun i : Nat => (i : Int)) values = none := by
  induction indices generalizing values with
  | nil => cases hi
  | cons k indices ih =>
    rw [List.map_cons, mapIndices]
    cases hv : valueAt values (k : Int) with
    | none => rfl
    | some v =>
      dsimp only
      have hklt : k < values.length := by
        simp only [valueAt, Int.natCast_nonneg, if_true, Int.toNat_natCast] at hv
        exact (List.getElem?_eq_some_iff.1 hv).1
      refine ih ?_ _ ?_
      · exact (List.mem_cons.1 hi).resolve_left fun h => by omega
      · split
        · rw [List.length_set]
          exact houtside
        · exact houtside

theorem indicesOf_eq (first last : Nat) :
    indicesOf ((first : Int), (last : Int)) = (List.range' first (last + 1 - first)).map fun i : Nat => (i : Int) := by
  have hlength : ((last : Int) + 1 - (first : Int)).toNat = last + 1 - first := by omega
  unfold indicesOf
  dsimp only
  rw [hlength, List.range'_eq_map_range, List.map_map]
  refine List.map_congr_left fun n _ => ?_
  simp

/-! ## One event -/

variable {event : LogEvent} {first : LogEvent}

theorem hasAttributionChain_cases (h : Recorded event) :
    hasAttributionChain event = none ∨ ∃ first last : Nat, hasAttributionChain event = some ((first : Int), (last : Int)) ∧
      last < event.mValues.length := by
  unfold hasAttributionChain
  rcases h.chain with ⟨hfirst, -⟩ | ⟨first, last, hfirst, hlast, -, hlength⟩
  · exact .inl (if_pos (.inl hfirst))
  · refine .inr ⟨first, last, ?_, hlength⟩
    rw [hfirst, hlast, if_neg (by omega)]

theorem rangeInside_self (h : Recorded event) : RangeInside event event := by
  intro range hrange
  rcases hasAttributionChain_cases h with hnone | ⟨first, last, hsome, hlength⟩
  · rw [hnone] at hrange
    cases hrange
  · rw [hsome] at hrange
    cases hrange
    exact Int.ofNat_lt.2 hlength

theorem mapAttributionChain_mappedAt {first last : Nat} (hlast : last < event.mValues.length) :
    ∃ event', mapAttributionChain mIsolatedUidMap ((first : Int), (last : Int)) event = some event' ∧
      MappedAt mIsolatedUidMap (Place (some ((first : Int), (last : Int))) event) event event' := by
  obtain ⟨values, hvalues, hget⟩ := mapIndices_spec mIsolatedUidMap (List.nodup_range' (s := first) (n := last + 1 - first))
    event.mValues (fun i hi => by rw [List.mem_range'_1] at hi; omega)
  refine ⟨{ event with mValues := values }, ?_, rfl, ?_, ?_⟩
  · unfold mapAttributionChain
    rw [indicesOf_eq, hvalues]
    rfl
  · rintro i ⟨hge, hle, v, hv, huid⟩
    have hmem : i ∈ List.range' first (last + 1 - first) := by rw [List.mem_range'_1]; dsimp only at hge hle; omega
    show values[i]? = _
    rw [hget i, hv, Option.map_some, if_pos ⟨hmem, huid⟩]
    rfl
  · intro i hnot
    show values[i]? = _
    rw [hget i]
    cases hv : event.mValues[i]? with
    | none => rfl
    | some v =>
      rw [Option.map_some, if_neg]
      rintro ⟨hmem, huid⟩
      rw [List.mem_range'_1] at hmem
      exact hnot ⟨by dsimp only; omega, by dsimp only; omega, v, hv, huid⟩

theorem mapUidField_mappedAt (h : Recorded event) :
    ∃ event', mapUidField mIsolatedUidMap event = some event' ∧ MappedAt mIsolatedUidMap (Place none event) event event' := by
  unfold mapUidField
  rcases h.uid with hnone | ⟨k, v, hk, hv, -⟩
  · refine ⟨event, by rw [if_neg (not_not.2 hnone)], rfl, fun i hi => ?_, fun i _ => rfl⟩
    have hi : event.mUidFieldIndex = i := hi
    omega
  · have hklt : k < event.mValues.length := (List.getElem?_eq_some_iff.1 hv).1
    have hvalue : valueAt event.mValues (k : Int) = some v := by
      simp [valueAt, hv]
    refine ⟨{ event with mValues := event.mValues.set k (toHostUid mIsolatedUidMap v) }, ?_, rfl, fun i hi => ?_, fun i hi => ?_⟩
    · rw [if_pos (by omega), hk, hvalue]
      rfl
    · have hik : k = i := Int.ofNat_inj.1 (hk.symm.trans hi)
      subst hik
      show (event.mValues.set k _)[k]? = _
      rw [List.getElem?_set_self hklt, hv]
      rfl
    · have hik : k ≠ i := fun hki => hi (hk.trans (by rw [hki]))
      exact List.getElem?_set_ne hik

theorem mapPulledEvent_mappedAt {first event : LogEvent} (hfirst : Recorded first) (h : Recorded event)
    (hinside : RangeInside first event) :
    ∃ event', mapPulledEvent mIsolatedUidMap (hasAttributionChain first) event = some event' ∧
      MappedAt mIsolatedUidMap (Place (hasAttributionChain first) event) event event' := by
  rcases hasAttributionChain_cases hfirst with hnone | ⟨f, l, hsome, -⟩
  · rw [hnone]
    exact mapUidField_mappedAt mIsolatedUidMap h
  · have hlt := hinside _ hsome
    rw [hsome]
    exact mapAttributionChain_mappedAt mIsolatedUidMap (Int.ofNat_lt.1 hlt)

theorem mapPulledEvent_outside {first event : LogEvent} (hfirst : Recorded first) (hout : ¬ RangeInside first event) :
    mapPulledEvent mIsolatedUidMap (hasAttributionChain first) event = none := by
  unfold RangeInside at hout
  push Not at hout
  obtain ⟨range, hrange, hle⟩ := hout
  obtain ⟨f, l, hsome, hfl⟩ : ∃ f l : Nat, range = ((f : Int), (l : Int)) ∧ f ≤ l := by
    rcases hfirst.chain with ⟨hf, -⟩ | ⟨f, l, hf, hl, hlt, -⟩
    · unfold hasAttributionChain at hrange
      rw [if_pos (.inl hf)] at hrange
      cases hrange
    · unfold hasAttributionChain at hrange
      rw [if_neg (by omega), hf, hl] at hrange
      exact ⟨f, l, (Option.some.inj hrange).symm, hlt.le⟩
  subst hsome
  rw [hrange]
  show mapAttributionChain mIsolatedUidMap ((f : Int), (l : Int)) event = none
  unfold mapAttributionChain
  rw [indicesOf_eq, mapIndices_outside mIsolatedUidMap (i := l) (by rw [List.mem_range'_1]; omega) event.mValues
    (by dsimp only at hle; omega)]
  rfl

theorem mapIsolatedUid_eq_mapPulledEvent (event : LogEvent) :
    mapIsolatedUidToHostUidIfNecessaryLocked mIsolatedUidMap event =
      mapPulledEvent mIsolatedUidMap (hasAttributionChain event) event := by
  unfold mapIsolatedUidToHostUidIfNecessaryLocked mapPulledEvent
  cases hasAttributionChain event <;> rfl

theorem pushed_mappedAt (h : Recorded event) :
    ∃ event', mapIsolatedUidToHostUidIfNecessaryLocked mIsolatedUidMap event = some event' ∧
      MappedAt mIsolatedUidMap (PushedPlace event) event event' := by
  rw [mapIsolatedUid_eq_mapPulledEvent]
  exact mapPulledEvent_mappedAt mIsolatedUidMap h h (rangeInside_self h)

theorem pushed_iff (h : Recorded event) :
    (∃ event', mapIsolatedUidToHostUidIfNecessaryLocked mIsolatedUidMap event = some event' ∧
      Mapped mIsolatedUidMap event event') ↔
      ∀ i, Moves mIsolatedUidMap event i → (IsUid event i ↔ PushedPlace event i) := by
  obtain ⟨event', hevent', hmapped⟩ := pushed_mappedAt mIsolatedUidMap h
  constructor
  · rintro ⟨event1, h1, hright⟩
    rw [hevent'] at h1
    cases h1
    exact hmapped.at_iff.1 hright
  · intro hagree
    exact ⟨event', hevent', hmapped.at_iff.2 hagree⟩

/-! ## A batch -/

variable {tagId : Int}

theorem mapPulledEvents_mappedAt (hfirst : Recorded first) {data : List LogEvent}
    (h : ∀ event ∈ data, Recorded event ∧ event.mTagId = tagId) (hinside : ∀ event ∈ data, RangeInside first event) :
    ∃ data', mapPulledEvents mIsolatedUidMap (hasAttributionChain first) tagId data = some (.mapped data') ∧
      List.Forall₂ (fun event event' => MappedAt mIsolatedUidMap (Place (hasAttributionChain first) event) event event')
        data data' := by
  induction data with
  | nil => exact ⟨[], rfl, .nil⟩
  | cons event data ih =>
    obtain ⟨hevent, htag⟩ := h event List.mem_cons_self
    obtain ⟨event', hevent', hmapped⟩ := mapPulledEvent_mappedAt mIsolatedUidMap hfirst hevent (hinside event List.mem_cons_self)
    obtain ⟨data', hdata', hall⟩ := ih (fun e he => h e (List.mem_cons_of_mem _ he))
      fun e he => hinside e (List.mem_cons_of_mem _ he)
    refine ⟨event' :: data', ?_, .cons hmapped hall⟩
    rw [mapPulledEvents, if_neg (not_not.2 htag), hevent', hdata']
    rfl

theorem mapPulledEvents_inside (hfirst : Recorded first) {data : List LogEvent}
    (htag : ∀ event ∈ data, event.mTagId = tagId) {mapping : Mapping}
    (h : mapPulledEvents mIsolatedUidMap (hasAttributionChain first) tagId data = some mapping) :
    ∀ event ∈ data, RangeInside first event := by
  induction data generalizing mapping with
  | nil => intro event hevent; cases hevent
  | cons event data ih =>
    rw [mapPulledEvents, if_neg (not_not.2 (htag event List.mem_cons_self))] at h
    by_cases hin : RangeInside first event
    · cases he : mapPulledEvent mIsolatedUidMap (hasAttributionChain first) event with
      | none => rw [he] at h; cases h
      | some event' =>
        rw [he] at h
        obtain ⟨mapping', h', -⟩ := Option.map_eq_some_iff.1 h
        intro e hmem
        rcases List.mem_cons.1 hmem with rfl | hmem
        · exact hin
        · exact ih (fun e he => htag e (List.mem_cons_of_mem _ he)) h' e hmem
    · rw [mapPulledEvent_outside mIsolatedUidMap hfirst hin] at h
      cases h

theorem pulled_mappedAt {rest : List LogEvent} (h : ∀ event ∈ first :: rest, Recorded event ∧ event.mTagId = tagId)
    (hinside : ∀ event ∈ first :: rest, RangeInside first event) :
    ∃ mapping, mapIsolatedUidsToHostUid mIsolatedUidMap tagId (first :: rest) = some mapping ∧
      List.Forall₂ (fun event event' => MappedAt mIsolatedUidMap (PulledPlace first event) event event')
        (first :: rest) mapping.data := by
  unfold mapIsolatedUidsToHostUid
  dsimp only
  by_cases hnothing : hasAttributionChain first = none ∧ first.mUidFieldIndex = -1
  · refine ⟨.returned (first :: rest), ?_, List.forall₂_same.2 fun event _ => ⟨rfl, fun i hi => absurd hnothing hi.1, fun i _ => rfl⟩⟩
    rw [if_pos (by simp [hnothing.1, hnothing.2])]
  · obtain ⟨data', hdata', hall⟩ := mapPulledEvents_mappedAt mIsolatedUidMap
      (h first List.mem_cons_self).1 h hinside
    refine ⟨.mapped data', ?_, ?_⟩
    · rw [if_neg (by simpa using hnothing)]
      exact hdata'
    · refine hall.imp fun event event' hm => ?_
      have hplace : PulledPlace first event = Place (hasAttributionChain first) event := by
        funext i
        exact propext (and_iff_right hnothing)
      rw [hplace]
      exact hm

theorem pulled_inside {rest : List LogEvent} {mapping : Mapping} (hfirst : Recorded first)
    (htag : ∀ event ∈ first :: rest, event.mTagId = tagId)
    (h : mapIsolatedUidsToHostUid mIsolatedUidMap tagId (first :: rest) = some mapping) :
    ∀ event ∈ first :: rest, RangeInside first event := by
  unfold mapIsolatedUidsToHostUid at h
  dsimp only at h
  by_cases hnothing : hasAttributionChain first = none ∧ first.mUidFieldIndex = -1
  · intro event _ range hrange
    rw [hnothing.1] at hrange
    cases hrange
  · rw [if_neg (by simpa using hnothing)] at h
    exact mapPulledEvents_inside mIsolatedUidMap hfirst htag h

theorem pulled_iff {rest : List LogEvent} (h : ∀ event ∈ first :: rest, Recorded event ∧ event.mTagId = tagId) :
    (∃ mapping, mapIsolatedUidsToHostUid mIsolatedUidMap tagId (first :: rest) = some mapping ∧
      List.Forall₂ (fun event event' => Mapped mIsolatedUidMap event event' ∧
        mapIsolatedUidToHostUidIfNecessaryLocked mIsolatedUidMap event = some event') (first :: rest) mapping.data) ↔
      ∀ event ∈ first :: rest, RangeInside first event ∧ ∀ i, Moves mIsolatedUidMap event i →
        (IsUid event i ↔ PulledPlace first event i) ∧ (IsUid event i ↔ PushedPlace event i) := by
  constructor
  · rintro ⟨mapping, hmapping, hall⟩
    have hinside := pulled_inside mIsolatedUidMap (h first List.mem_cons_self).1 (fun e he => (h e he).2) hmapping
    obtain ⟨mapping', hmapping', hall'⟩ := pulled_mappedAt mIsolatedUidMap h hinside
    rw [hmapping] at hmapping'
    cases hmapping'
    intro event hevent
    -- each event with the one it became
    obtain ⟨event', ⟨hright, hsame⟩, hplaced⟩ : ∃ event', (Mapped mIsolatedUidMap event event' ∧
        mapIsolatedUidToHostUidIfNecessaryLocked mIsolatedUidMap event = some event') ∧
        MappedAt mIsolatedUidMap (PulledPlace first event) event event' := by
      obtain ⟨n, hn, rfl⟩ := List.mem_iff_getElem.1 hevent
      have hlength := hall.length_eq
      exact ⟨mapping.data[n], hall.get hn (hlength ▸ hn), hall'.get hn (hlength ▸ hn)⟩
    have hpushed := (pushed_iff mIsolatedUidMap (h event hevent).1).1 ⟨event', hsame, hright⟩
    exact ⟨hinside event hevent, fun i hi => ⟨hplaced.at_iff.1 hright i hi, hpushed i hi⟩⟩
  · intro hagree
    obtain ⟨mapping, hmapping, hall⟩ := pulled_mappedAt mIsolatedUidMap h fun e he => (hagree e he).1
    refine ⟨mapping, hmapping, List.forall₂_iff_get.2 ⟨hall.length_eq, fun n hn hn' => ?_⟩⟩
    have hplaced := hall.get hn hn'
    have hmem : (first :: rest).get ⟨n, hn⟩ ∈ first :: rest := List.get_mem _ _
    obtain ⟨-, hmoves⟩ := hagree _ hmem
    have hright := hplaced.at_iff.2 fun i hi => (hmoves i hi).1
    obtain ⟨event', hsame, hpushed⟩ := (pushed_iff mIsolatedUidMap (h _ hmem).1).2 fun i hi => (hmoves i hi).2
    refine ⟨hright, ?_⟩
    rw [hsame, hpushed.unique hright]

end

theorem Accepted.recorded {event : LogEvent} (h : Accepted event) : Recorded event := by
  obtain ⟨mem, uid, pid, buf, len, hparse⟩ := h
  have hr := LogEvent.recorded_parseBuffer mem (LogEvent.recorded_new uid pid) buf len
  rw [hparse] at hr
  exact hr

/-- A pushed event has its uids mapped, and those only, exactly when the uids that have another host are those at its
recorded places. A batch is mapped without a read outside its values, as the pushed path maps each of its events,
exactly when the range of the first event is inside every event, and the places of the first event are right too. -/
theorem isolated_uids_mapped_iff (mIsolatedUidMap : UMap Int Int) :
    (∀ event, Accepted event →
      ((∃ event', mapIsolatedUidToHostUidIfNecessaryLocked mIsolatedUidMap event = some event' ∧
        Mapped mIsolatedUidMap event event') ↔
        ∀ i, Moves mIsolatedUidMap event i → (IsUid event i ↔ PushedPlace event i))) ∧
    ∀ (tagId : Int) (first : LogEvent) (rest : List LogEvent),
      (∀ event ∈ first :: rest, Accepted event ∧ event.mTagId = tagId) →
      ((∃ mapping, mapIsolatedUidsToHostUid mIsolatedUidMap tagId (first :: rest) = some mapping ∧
        List.Forall₂ (fun event event' => Mapped mIsolatedUidMap event event' ∧
          mapIsolatedUidToHostUidIfNecessaryLocked mIsolatedUidMap event = some event') (first :: rest) mapping.data) ↔
        ∀ event ∈ first :: rest, RangeInside first event ∧ ∀ i, Moves mIsolatedUidMap event i →
          (IsUid event i ↔ PulledPlace first event i) ∧ (IsUid event i ↔ PushedPlace event i)) :=
  ⟨fun _ h => pushed_iff mIsolatedUidMap h.recorded, fun _ _ _ h => pulled_iff mIsolatedUidMap fun e he => ⟨(h e he).1.recorded, (h e he).2⟩⟩

/-! ## Chains of different lengths -/

/-- The bytes of an event of atom 100 with a chain of uids, without tags. -/
def chainBytes (uids : List UInt8) : List UInt8 :=
  [7, 3, 1, 0, 0, 0, 0, 0, 0, 0, 0, 0, 100, 0, 0, 0, 9, UInt8.ofNat uids.length] ++ uids.flatMap fun uid => [uid, 0, 0, 0, 0, 0, 0, 0]

def parseChain (uids : List UInt8) : LogEvent × Bool :=
  LogEvent.parseBuffer (fun address => (chainBytes uids).getD address 0) { mLogUid := 1000, mLogPid := 1 } 0 (chainBytes uids).length

def chainEvent (uids : List UInt8) : LogEvent := (parseChain uids).1

theorem accepted_chainEvent {uids : List UInt8} (h : (parseChain uids).2 = true) : Accepted (chainEvent uids) :=
  ⟨fun address => (chainBytes uids).getD address 0, 1000, 1, 0, (chainBytes uids).length, Prod.ext rfl h⟩

theorem chainEvent_short : Accepted (chainEvent [30]) ∧ (chainEvent [30]).mTagId = 100 ∧
    hasAttributionChain (chainEvent [30]) = some (0, 1) ∧
    (chainEvent [30]).mValues = [⟨⟨100, 0x02018101#32⟩, .INT 30, {}⟩, ⟨⟨100, 0x02018102#32⟩, .STRING [], {}⟩] :=
  ⟨accepted_chainEvent (by decide +kernel), by decide +kernel, by decide +kernel, by decide +kernel⟩

theorem chainEvent_long : Accepted (chainEvent [20, 30]) ∧ (chainEvent [20, 30]).mTagId = 100 ∧
    (chainEvent [20, 30]).mValues = [⟨⟨100, 0x02010101#32⟩, .INT 20, {}⟩, ⟨⟨100, 0x02010102#32⟩, .STRING [], {}⟩,
      ⟨⟨100, 0x02018201#32⟩, .INT 30, {}⟩, ⟨⟨100, 0x02018202#32⟩, .STRING [], {}⟩] :=
  ⟨accepted_chainEvent (by decide +kernel), by decide +kernel, by decide +kernel⟩

/-- A chain of one uid, whose host is 20: both paths map it. -/
theorem isolated_uids_mapped_short :
    (∃ event', mapIsolatedUidToHostUidIfNecessaryLocked ((∅ : UMap Int Int).insert 30 20) (chainEvent [30]) = some event' ∧
      Mapped ((∅ : UMap Int Int).insert 30 20) (chainEvent [30]) event') ∧
    ∃ mapping, mapIsolatedUidsToHostUid ((∅ : UMap Int Int).insert 30 20) 100 [chainEvent [30]] = some mapping ∧
      List.Forall₂ (fun event event' => Mapped ((∅ : UMap Int Int).insert 30 20) event event' ∧
        mapIsolatedUidToHostUidIfNecessaryLocked ((∅ : UMap Int Int).insert 30 20) event = some event')
        [chainEvent [30]] mapping.data := by
  obtain ⟨haccepted, htag, hchain, hvalues⟩ := chainEvent_short
  obtain ⟨hpushed, hpulled⟩ := isolated_uids_mapped_iff ((∅ : UMap Int Int).insert 30 20)
  -- the only uid is the first value
  have huid : ∀ i, Moves ((∅ : UMap Int Int).insert 30 20) (chainEvent [30]) i →
      (IsUid (chainEvent [30]) i ↔ PushedPlace (chainEvent [30]) i) := by
    rintro i ⟨v, uid, hv, hint, -⟩
    rw [hvalues] at hv
    match i, hv with
    | 0, hv =>
      cases hv
      refine iff_of_true (.inl ⟨_, _, by rw [hvalues]; rfl, by rw [hvalues]; rfl, rfl, ⟨_, rfl⟩, by decide, by decide, by decide⟩) ?_
      unfold PushedPlace Place
      rw [hchain]
      exact ⟨le_refl _, by decide, _, by rw [hvalues]; rfl, by decide⟩
    | 1, hv =>
      cases hv
      cases hint
  refine ⟨(hpushed _ haccepted).2 huid, (hpulled 100 _ [] ?_).2 ?_⟩
  · intro event hevent
    rw [List.mem_singleton] at hevent
    subst hevent
    exact ⟨haccepted, htag⟩
  · intro event hevent
    rw [List.mem_singleton] at hevent
    subst hevent
    refine ⟨rangeInside_self haccepted.recorded, fun i hi => ⟨?_, huid i hi⟩⟩
    rw [huid i hi]
    refine (and_iff_right fun hnothing => ?_).symm
    rw [hchain] at hnothing
    cases hnothing.1

/-- The second event has a longer chain than the first: its second uid is not mapped. In the other order the first
event's range ends outside the second event. -/
theorem longer_chain_not_mapped :
    ¬ ∀ (mIsolatedUidMap : UMap Int Int) (tagId : Int) (first : LogEvent) (rest : List LogEvent),
      (∀ event ∈ first :: rest, Accepted event ∧ event.mTagId = tagId) →
      ∃ mapping, mapIsolatedUidsToHostUid mIsolatedUidMap tagId (first :: rest) = some mapping ∧
        List.Forall₂ (fun event event' => Mapped mIsolatedUidMap event event' ∧
          mapIsolatedUidToHostUidIfNecessaryLocked mIsolatedUidMap event = some event') (first :: rest) mapping.data := by
  intro h
  obtain ⟨haccepted, htag, hchain, -⟩ := chainEvent_short
  obtain ⟨haccepted', htag', hvalues⟩ := chainEvent_long
  have hdata : ∀ event ∈ [chainEvent [30], chainEvent [20, 30]], Accepted event ∧ event.mTagId = 100 := by
    intro event hevent
    rcases List.mem_cons.1 hevent with rfl | hevent
    · exact ⟨haccepted, htag⟩
    · rw [List.mem_singleton] at hevent
      subst hevent
      exact ⟨haccepted', htag'⟩
  have hright := (pulled_iff _ fun e he => ⟨(hdata e he).1.recorded, (hdata e he).2⟩).1
    (h ((∅ : UMap Int Int).insert 30 20) 100 _ _ hdata)
  obtain ⟨-, hplaces⟩ := hright (chainEvent [20, 30]) (by simp)
  have hmoves : Moves ((∅ : UMap Int Int).insert 30 20) (chainEvent [20, 30]) 2 :=
    ⟨_, 30, by rw [hvalues]; rfl, rfl, by decide +kernel⟩
  have huid : IsUid (chainEvent [20, 30]) 2 :=
    .inl ⟨_, _, by rw [hvalues]; rfl, by rw [hvalues]; rfl, rfl, ⟨_, rfl⟩, by decide, by decide, by decide⟩
  obtain ⟨-, hplace⟩ := (hplaces 2 hmoves).1.1 huid
  rw [hchain] at hplace
  exact absurd hplace.2.1 (by decide)

end Statsd.External
