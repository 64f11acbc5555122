/-
The statuses of the matchers and conditions of a new config, read off the two configs: an entry is new
when the old config has no entry of its id, preserved when it is unchanged with everything it depends on,
and replaced otherwise. So the order of the visits does not matter.

The old config is one whose references were resolved, and different messages have different hashes.
-/
import Statsd.Config.UpdateStatus

namespace Statsd.Config

open UpdateStatus

/-! ## Entries of one kind -/

section

variable {M : Type} (id : M → Int) (children : M → List Int) (protoHash : M → Option UInt64) (old new : List M)
  (oldProtoHashes : List UInt64)

/-- What is assumed of the old and the new entries of a kind. -/
structure Comparable : Prop where
  oldNodup : (old.map id).Nodup
  newNodup : (new.map id).Nodup
  hashes : old.map protoHash = oldProtoHashes.map some
  injective : ∀ m ∈ old, ∀ m' ∈ new, protoHash m = protoHash m' → m = m'
  resolved : ∀ m ∈ old, ∀ c ∈ children m, c ∈ old.map id

/-- An entry of the new config depends on the entries of its children's ids. -/
def Depends (i j : Int) : Prop := ∃ m ∈ new, id m = i ∧ j ∈ children m

/-- An entry and all entries it depends on are in both configs, the same in both, and kept on their own
account. -/
def Unchanged (kept : M → Prop) (i : Int) : Prop :=
  ∀ j, Relation.ReflTransGen (Depends id children new) i j → ∃ m ∈ old, m ∈ new ∧ id m = j ∧ kept m

variable {id children protoHash old new oldProtoHashes}

theorem eq_of_id_eq {l : List M} (h : (l.map id).Nodup) {m m' : M} (hm : m ∈ l) (hm' : m' ∈ l) (he : id m = id m') :
    m = m' := List.inj_on_of_nodup_map h hm hm' he

theorem lookOf_cases (h : Comparable id children protoHash old new oldProtoHashes) {m : M} (hm : m ∈ new)
    (rest : Look) :
    id m ∉ old.map id ∧
        lookOf (id m) (protoHash m) (UMap.indexMap (old.map id)) oldProtoHashes rest = .status UPDATE_NEW ∨
      id m ∈ old.map id ∧ (lookOf (id m) (protoHash m) (UMap.indexMap (old.map id)) oldProtoHashes rest = .failure ∨
        m ∉ old ∧ lookOf (id m) (protoHash m) (UMap.indexMap (old.map id)) oldProtoHashes rest = .status UPDATE_REPLACE ∨
        m ∈ old ∧ lookOf (id m) (protoHash m) (UMap.indexMap (old.map id)) oldProtoHashes rest = rest) := by
  unfold lookOf
  cases hlook : (UMap.indexMap (old.map id)).lookup (id m) with
  | none =>
    refine .inl ⟨fun hin => ?_, rfl⟩
    obtain ⟨i, hi⟩ := List.mem_iff_getElem?.1 hin
    rw [(UMap.lookup_indexMap h.oldNodup _ i).2 hi] at hlook
    cases hlook
  | some oldIdx =>
    have hget := (UMap.lookup_indexMap h.oldNodup _ oldIdx).1 hlook
    refine .inr ⟨List.mem_of_getElem? hget, ?_⟩
    rw [List.getElem?_map, Option.map_eq_some_iff] at hget
    obtain ⟨o, ho, hid⟩ := hget
    have homem := List.mem_of_getElem? ho
    cases hhash : protoHash m with
    | none => exact .inl rfl
    | some newProtoHash =>
      dsimp only
      have hold : protoHash o = oldProtoHashes[oldIdx]? := by
        have := congrArg (·[oldIdx]?) h.hashes
        rw [List.getElem?_map, List.getElem?_map, ho] at this
        cases hoh : oldProtoHashes[oldIdx]? with
        | none => rw [hoh] at this; cases this
        | some v =>
          rw [hoh] at this
          exact Option.some.inj this
      by_cases heq : some newProtoHash = oldProtoHashes[oldIdx]?
      · rw [if_neg (not_not.2 heq)]
        have hom := h.injective o homem m hm (by rw [hold, hhash, heq])
        exact .inr (.inr ⟨hom ▸ homem, rfl⟩)
      · rw [if_pos heq]
        refine .inr (.inl ⟨fun hmo => heq ?_, rfl⟩)
        have hom := eq_of_id_eq h.oldNodup homem hmo hid
        rw [← hold, hom, hhash]

/-- How an unchanged entry goes on: it fails, it looks at its children, or it has none and is kept or replaced on
its own account. -/
def Goes (id : M → Int) (children : M → List Int) (new : List M) (kept : M → Prop) (m : M) (rest : Look) : Prop :=
  rest = .failure ∨
    kept m ∧ rest = .combination ((children m).map (UMap.indexMap (new.map id)).lookup) ∨
    children m = [] ∧ (kept m ∧ rest = .status UPDATE_PRESERVE ∨ ¬ kept m ∧ rest = .status UPDATE_REPLACE)

/-- What is looked at for an entry of the new config. -/
inductive Looks (id : M → Int) (children : M → List Int) (old new : List M) (kept : M → Prop) (m : M) : Look → Prop
  | failure : Looks id children old new kept m .failure
  | new : id m ∉ old.map id → Looks id children old new kept m (.status UPDATE_NEW)
  | replaced : id m ∈ old.map id → ¬ (m ∈ old ∧ kept m) → Looks id children old new kept m (.status UPDATE_REPLACE)
  | preserved : m ∈ old → kept m → children m = [] → Looks id children old new kept m (.status UPDATE_PRESERVE)
  | combination : m ∈ old → kept m →
      Looks id children old new kept m (.combination ((children m).map (UMap.indexMap (new.map id)).lookup))

theorem looks {kept : M → Prop} (h : Comparable id children protoHash old new oldProtoHashes) {m : M} (hm : m ∈ new)
    {rest : Look} (hgoes : Goes id children new kept m rest) :
    Looks id children old new kept m
      (lookOf (id m) (protoHash m) (UMap.indexMap (old.map id)) oldProtoHashes rest) := by
  rcases lookOf_cases h hm rest with ⟨hid, hl⟩ | ⟨hid, hl | ⟨hmo, hl⟩ | ⟨hmo, hl⟩⟩
  · rw [hl]
    exact .new hid
  · rw [hl]
    exact .failure
  · rw [hl]
    exact .replaced hid fun hkept => hmo hkept.1
  · rw [hl]
    rcases hgoes with hr | ⟨hk, hr⟩ | ⟨hnone, ⟨hk, hr⟩ | ⟨hk, hr⟩⟩
    · rw [hr]
      exact .failure
    · rw [hr]
      exact .combination hmo hk
    · rw [hr]
      exact .preserved hmo hk hnone
    · rw [hr]
      exact .replaced hid fun hkept => hk hkept.2

variable {kept : M → Prop} {rest : M → Look} {look : Nat → Look} {toUpdate : Nat → UpdateStatus}

/-- What the statuses of a config are read off. -/
structure Statuses (id : M → Int) (children : M → List Int) (protoHash : M → Option UInt64) (old new : List M)
    (oldProtoHashes : List UInt64) (kept : M → Prop) (rest : M → Look) (look : Nat → Look)
    (toUpdate : Nat → UpdateStatus) : Prop where
  comparable : Comparable id children protoHash old new oldProtoHashes
  look_eq : ∀ i m, new[i]? = some m →
    look i = lookOf (id m) (protoHash m) (UMap.indexMap (old.map id)) oldProtoHashes (rest m)
  look_failure : ∀ i, new[i]? = none → look i = .failure
  goes : ∀ m, Goes id children new kept m (rest m)
  known : ∀ i < new.length, toUpdate i ≠ UPDATE_UNKNOWN
  settled : ∀ i, toUpdate i ≠ UPDATE_UNKNOWN → Settled look toUpdate i

namespace Statuses

variable (h : Statuses id children protoHash old new oldProtoHashes kept rest look toUpdate)
include h

variable {i : Nat}

theorem lookup_new {m : M} (hm : new[i]? = some m) : (UMap.indexMap (new.map id)).lookup (id m) = some i :=
  (UMap.lookup_indexMap h.comparable.newNodup _ i).2 (by rw [List.getElem?_map, hm]; rfl)

theorem of_lookup_new {c : Int} {j : Nat} (hj : (UMap.indexMap (new.map id)).lookup c = some j) :
    ∃ m, new[j]? = some m ∧ id m = c := by
  have hget := (UMap.lookup_indexMap h.comparable.newNodup c j).1 hj
  rwa [List.getElem?_map, Option.map_eq_some_iff] at hget

theorem looks {m : M} (hm : new[i]? = some m) : Looks id children old new kept m (look i) := by
  rw [h.look_eq i m hm]
  exact Config.looks h.comparable (List.mem_of_getElem? hm) (h.goes m)

/-- A status is one of three: an entry of a new id is new, a preserved one is the old one and its children are
preserved, and one is replaced on its own account or for a child. -/
theorem status_cases {m : M} (hm : new[i]? = some m) :
    id m ∉ old.map id ∧ toUpdate i = UPDATE_NEW ∨
      id m ∈ old.map id ∧ (toUpdate i = UPDATE_PRESERVE ∧ m ∈ old ∧ kept m ∧
          (∀ c ∈ children m, ∃ j m', new[j]? = some m' ∧ id m' = c ∧ toUpdate j = UPDATE_PRESERVE) ∨
        toUpdate i = UPDATE_REPLACE ∧ Replaced look i) := by
  have hlt : i < new.length := (List.getElem?_eq_some_iff.1 hm).1
  have hsettled := h.settled i (h.known i hlt)
  have hreplaced := hsettled.replaced
  have hlooks := h.looks hm
  unfold Settled at hsettled
  generalize look i = l at hlooks hsettled
  cases hlooks with
  | failure => exact hsettled.elim
  | new hid => exact .inl ⟨hid, hsettled⟩
  | replaced hid _ => exact .inr ⟨hid, .inr ⟨hsettled, hreplaced hsettled⟩⟩
  | preserved hmo hk hnone =>
    exact .inr ⟨List.mem_map_of_mem hmo, .inl ⟨hsettled, hmo, hk, fun c hc => by rw [hnone] at hc; cases hc⟩⟩
  | combination hmo hk =>
    refine .inr ⟨List.mem_map_of_mem hmo, ?_⟩
    rcases hsettled with ⟨hs, hall⟩ | ⟨hs, hrep⟩
    · refine .inl ⟨hs, hmo, hk, fun c hc => ?_⟩
      obtain ⟨j, hj, hjk, hjr⟩ := hall _ (List.mem_map_of_mem hc)
      obtain ⟨m', hm', hid'⟩ := h.of_lookup_new hj
      refine ⟨j, m', hm', hid', ?_⟩
      have hjs := h.settled j hjk
      have hlooks' := h.looks hm'
      unfold Settled at hjs
      generalize look j = l' at hlooks' hjs
      cases hlooks' with
      | failure => exact hjs.elim
      | new hnew =>
        -- the child's id was resolved in the old config, so the child is not new
        rw [hid'] at hnew
        exact absurd (h.comparable.resolved m hmo c hc) hnew
      | replaced _ _ => exact absurd hjs hjr
      | preserved _ _ _ => exact hjs
      | combination _ _ =>
        rcases hjs with ⟨hp, -⟩ | ⟨hp, -⟩
        · exact hp
        · exact absurd hp hjr
    · exact .inr ⟨hs, hrep⟩

theorem preserved_of_depends {m : M} (hm : new[i]? = some m) (hi : toUpdate i = UPDATE_PRESERVE) {c : Int}
    (hc : Relation.ReflTransGen (Depends id children new) (id m) c) :
    ∃ j m', new[j]? = some m' ∧ id m' = c ∧ toUpdate j = UPDATE_PRESERVE := by
  induction hc with
  | refl => exact ⟨i, m, hm, rfl, hi⟩
  | tail _ hstep ih =>
    obtain ⟨j, m', hm', hid', hj⟩ := ih
    obtain ⟨m'', hm'', hid'', hchild⟩ := hstep
    obtain rfl := eq_of_id_eq h.comparable.newNodup (List.mem_of_getElem? hm') hm'' (hid'.trans hid''.symm)
    rcases h.status_cases hm' with ⟨-, hs⟩ | ⟨-, ⟨-, -, -, hall⟩ | ⟨hs, -⟩⟩
    · rw [hj] at hs; cases hs
    · exact hall _ hchild
    · rw [hj] at hs; cases hs

theorem unchanged_of_preserved {m : M} (hm : new[i]? = some m) (hi : toUpdate i = UPDATE_PRESERVE) :
    Unchanged id children old new kept (id m) := by
  intro c hc
  obtain ⟨j, m', hm', hid', hj⟩ := h.preserved_of_depends hm hi hc
  rcases h.status_cases hm' with ⟨-, hs⟩ | ⟨-, ⟨-, hmo, hk, -⟩ | ⟨hs, -⟩⟩
  · rw [hj] at hs; cases hs
  · exact ⟨m', hmo, List.mem_of_getElem? hm', hid', hk⟩
  · rw [hj] at hs; cases hs

theorem not_unchanged_of_replaced (hr : Replaced look i) :
    ∀ m, new[i]? = some m → ¬ Unchanged id children old new kept (id m) := by
  induction hr with
  | @own i hl =>
    intro m hm hun
    obtain ⟨m', hmo, hmn, hid, hk⟩ := hun (id m) .refl
    obtain rfl := eq_of_id_eq h.comparable.newNodup hmn (List.mem_of_getElem? hm) hid
    have hlooks := h.looks hm
    rw [hl] at hlooks
    cases hlooks with
    | replaced _ hno => exact hno ⟨hmo, hk⟩
  | @child i j cs hl hj _ ih =>
    intro m hm hun
    have hlooks := h.looks hm
    rw [hl] at hlooks
    cases hlooks with
    | combination _ _ =>
      obtain ⟨c, hc, hcj⟩ := List.mem_map.1 hj
      obtain ⟨m', hm', hid'⟩ := h.of_lookup_new hcj
      refine ih m' hm' fun d hd => hun d (.head ⟨m, List.mem_of_getElem? hm, rfl, ?_⟩ hd)
      rw [hid']
      exact hc

theorem status_iff {m : M} (hm : new[i]? = some m) :
    (toUpdate i = UPDATE_NEW ↔ id m ∉ old.map id) ∧
    (toUpdate i = UPDATE_PRESERVE ↔ id m ∈ old.map id ∧ Unchanged id children old new kept (id m)) ∧
    (toUpdate i = UPDATE_REPLACE ↔ id m ∈ old.map id ∧ ¬ Unchanged id children old new kept (id m)) := by
  rcases h.status_cases hm with ⟨hid, hs⟩ | ⟨hid, ⟨hs, -, -, -⟩ | ⟨hs, hr⟩⟩
  · simp [hs, hid]
  · have hun := h.unchanged_of_preserved hm hs
    simp [hs, hid, hun]
  · have hun := h.not_unchanged_of_replaced hr m hm
    simp [hs, hid, hun]

end Statuses

end

/-! ## Matchers and conditions -/

section

variable {F : Type}

/-- `determineMatcherUpdateStatus` for the matchers of a new config, in some order. -/
def matcherStatuses (old new : StatsdConfig F) (protoHash : AtomMatcher F → Option UInt64)
    (oldProtoHashes : List UInt64) (fuel : Nat) (order : List Nat) : Outcome Progress :=
  determineAll (determineMatcherUpdateStatus new protoHash (UMap.indexMap (old.atom_matcher.map (·.id))) oldProtoHashes
    (UMap.indexMap (new.atom_matcher.map (·.id))) fuel) order .new

variable {oldProtoHashes : List UInt64}

theorem determineAll_statuses {M : Type} {id : M → Int} {children : M → List Int} {protoHash : M → Option UInt64}
    {old new : List M} {kept : M → Prop} {rest : M → Look} {look : Nat → Look}
    (hc : Comparable id children protoHash old new oldProtoHashes)
    (hlook : ∀ i m, new[i]? = some m →
      look i = lookOf (id m) (protoHash m) (UMap.indexMap (old.map id)) oldProtoHashes (rest m))
    (hfailure : ∀ i, new[i]? = none → look i = .failure) (hgoes : ∀ m, Goes id children new kept m (rest m)) :
    (∀ fuel order, new.length < fuel → (∀ i ∈ order, i < new.length) →
      determineAll (determineUpdateStatus look fuel) order .new ≠ .outOfFuel) ∧
    ∀ fuel order p, (∀ i < new.length, i ∈ order) → determineAll (determineUpdateStatus look fuel) order .new = .ok p →
      Statuses id children protoHash old new oldProtoHashes kept rest look p.toUpdate := by
  have hlooks : ∀ i m, new[i]? = some m → Looks id children old new kept m (look i) := by
    intro i m hm
    rw [hlook i m hm]
    exact looks hc (List.mem_of_getElem? hm) (hgoes m)
  have hknown : ∀ i, look i ≠ .status UPDATE_UNKNOWN := by
    intro i hi
    cases hm : new[i]? with
    | none =>
      rw [hfailure i hm] at hi
      cases hi
    | some m =>
      have hl := hlooks i m hm
      rw [hi] at hl
      cases hl
  have hbelow : ChildrenBelow look new.length := by
    intro i cs hi j hj
    cases hm : new[i]? with
    | none =>
      rw [hfailure i hm] at hi
      cases hi
    | some m =>
      have hl := hlooks i m hm
      rw [hi] at hl
      cases hl with
      | combination _ _ =>
        obtain ⟨c, -, hcj⟩ := List.mem_map.1 hj
        have hget := (UMap.lookup_indexMap hc.newNodup c j).1 hcj
        rw [List.getElem?_map, Option.map_eq_some_iff] at hget
        obtain ⟨m', hm', -⟩ := hget
        exact (List.getElem?_eq_some_iff.1 hm').1
  refine ⟨fun fuel order hfuel horder => determineAll_terminates hbelow hknown hfuel order horder rfl, ?_⟩
  intro fuel order p horder hok
  obtain ⟨hwalk, hall⟩ := determineAll_spec hknown fuel order rfl hok
  exact ⟨hc, hlook, hfailure, hgoes, fun i hi => hall i (horder i hi),
    hwalk.settled fun j hj => absurd rfl hj⟩

theorem Statuses.unique {M : Type} {id : M → Int} {children : M → List Int} {protoHash : M → Option UInt64}
    {old new : List M} {kept : M → Prop} {rest : M → Look} {look : Nat → Look}
    {toUpdate toUpdate' : Nat → UpdateStatus}
    (h : Statuses id children protoHash old new oldProtoHashes kept rest look toUpdate)
    (h' : Statuses id children protoHash old new oldProtoHashes kept rest look toUpdate') {i : Nat} (hi : i < new.length) :
    toUpdate i = toUpdate' i := by
  have hm : new[i]? = some new[i] := List.getElem?_eq_getElem hi
  obtain ⟨hnew, hpreserve, hreplace⟩ := h.status_iff hm
  obtain ⟨hnew', hpreserve', hreplace'⟩ := h'.status_iff hm
  cases hs : toUpdate i with
  | UPDATE_UNKNOWN => exact absurd hs (h.known i hi)
  | UPDATE_NEW => exact (hnew'.2 (hnew.1 hs)).symm
  | UPDATE_PRESERVE => exact (hpreserve'.2 (hpreserve.1 hs)).symm
  | UPDATE_REPLACE => exact (hreplace'.2 (hreplace.1 hs)).symm

/-- How a matcher goes on when it is unchanged. -/
def matcherRest (new : StatsdConfig F) (matcher : AtomMatcher F) : Look :=
  match matcher.contents with
  | .simple_atom_matcher _ => .status UPDATE_PRESERVE
  | .combination _ children => .combination (children.map (UMap.indexMap (new.atom_matcher.map (·.id))).lookup)
  | .CONTENTS_NOT_SET => .failure

theorem matcher_goes (new : StatsdConfig F) (matcher : AtomMatcher F) :
    Goes AtomMatcher.id (·.contents.children) new.atom_matcher (fun _ => True) matcher (matcherRest new matcher) := by
  unfold Goes matcherRest
  dsimp only
  cases matcher.contents with
  | CONTENTS_NOT_SET => exact .inl rfl
  | simple_atom_matcher _ => exact .inr (.inr ⟨rfl, .inl ⟨trivial, rfl⟩⟩)
  | combination _ children => exact .inr (.inl ⟨trivial, rfl⟩)

theorem matcherStatuses_statuses (old new : StatsdConfig F) {protoHash : AtomMatcher F → Option UInt64}
    (h : Comparable AtomMatcher.id (·.contents.children) protoHash old.atom_matcher new.atom_matcher oldProtoHashes) :
    (∀ fuel order, new.atom_matcher.length < fuel → (∀ i ∈ order, i < new.atom_matcher.length) →
      matcherStatuses old new protoHash oldProtoHashes fuel order ≠ .outOfFuel) ∧
    ∀ fuel order p, (∀ i < new.atom_matcher.length, i ∈ order) →
      matcherStatuses old new protoHash oldProtoHashes fuel order = .ok p →
      Statuses AtomMatcher.id (·.contents.children) protoHash old.atom_matcher new.atom_matcher oldProtoHashes
        (fun _ => True) (matcherRest new)
        (matcherLook new protoHash (UMap.indexMap (old.atom_matcher.map (·.id))) oldProtoHashes
          (UMap.indexMap (new.atom_matcher.map (·.id)))) p.toUpdate := by
  refine determineAll_statuses h (fun i m hi => ?_) (fun i hi => ?_) (matcher_goes new)
  · unfold matcherLook
    rw [hi]
    rfl
  · unfold matcherLook
    rw [hi]

/-- The statuses of a config's entries: an entry is new when its id is, preserved when it is unchanged and
replaced otherwise. -/
def Exact (oldIds newIds : List Int) (unchanged : Int → Prop) (toUpdate : Nat → UpdateStatus) : Prop :=
  ∀ i id, newIds[i]? = some id →
    (toUpdate i = UPDATE_NEW ↔ id ∉ oldIds) ∧
    (toUpdate i = UPDATE_PRESERVE ↔ id ∈ oldIds ∧ unchanged id) ∧
    (toUpdate i = UPDATE_REPLACE ↔ id ∈ oldIds ∧ ¬ unchanged id)

end

/-- A matcher of the atom. -/
def atomMatcher (id atom_id : Int) : AtomMatcher Unit := ⟨id, .simple_atom_matcher ⟨some atom_id, ()⟩⟩

/-- A predicate that a matcher starts. -/
def startedBy (id start : Int) : Predicate :=
  ⟨id, .simple_predicate ⟨some start, none, true, none, .UNKNOWN, none⟩⟩

end Statsd.Config
