/-
How the atom matching trackers of a config are made (createAtomMatchingTracker and initAtomMatchingTrackers of
metrics_manager_util.cpp, `init` of matchers/*AtomMatchingTracker.cpp). A combination is initialised after its
children and collects their atom ids then. The trackers of an accepted config are made as the config says: `Sound`.
-/
import Statsd.Base.GraphInit
import Statsd.Config.StatsdConfig
import Statsd.Matchers.AtomMatchingTracker

namespace Statsd.Matchers

open Config

variable {F : Type}

/-! ## Making trackers -/

inductive TrackerKind (F : Type) where
  | simple (mMatcher : SimpleAtomMatcher F)
  | combination (mLogicalOperation : LogicalOperation)

/-- An `AtomMatchingTracker`. A simple one has no children. -/
structure Tracker (F : Type) where
  mId : Int
  mIndex : Nat
  mInitialized : Bool
  mAtomIds : Finset Int
  mProtoHash : UInt64
  kind : TrackerKind F
  mChildren : List Nat

instance : Inhabited (Tracker F) := ⟨⟨0, 0, false, ∅, 0, .combination .LOGICAL_OPERATION_UNSPECIFIED, []⟩⟩

/-- The operation of a combination is set when it is initialised. -/
def createAtomMatchingTracker (protoHash : AtomMatcher F → Option UInt64) (index : Nat) (logMatcher : AtomMatcher F) :
    Option (Tracker F) :=
  match protoHash logMatcher with
  | none => none
  | some hash =>
    match logMatcher.contents with
    | .simple_atom_matcher matcher =>
      some ⟨logMatcher.id, index, matcher.atom_id.isSome, matcher.atom_id.toFinset, hash, .simple matcher, []⟩
    | .combination _ _ =>
      some ⟨logMatcher.id, index, false, ∅, hash, .combination .LOGICAL_OPERATION_UNSPECIFIED, []⟩
    | .CONTENTS_NOT_SET => none

/-- `init` of the trackers. A combination that is not initialised has no children yet. -/
def setup (allAtomMatchers : List (AtomMatcher F)) (matcherMap : UMap Int Nat) : Setup (Tracker F) where
  ready t := t.mInitialized
  children t := t.mChildren
  check i t :=
    match t.kind with
    | .simple _ => none
    | .combination _ =>
      match allAtomMatchers[i]?.map AtomMatcher.contents with
      | some (.combination (some operation) matcher) =>
        if operation = .NOT ∧ matcher.length ≠ 1 then none
        else some ({ t with kind := .combination operation, mChildren := [] }, matcher.map matcherMap.lookup)
      | _ => none
  add t c child := { t with mChildren := t.mChildren ++ [c], mAtomIds := t.mAtomIds ∪ child.mAtomIds }
  close _ t := { t with mInitialized := true }

/-- `allAtomMatchingTrackers[i]`. -/
def trackerAt (trackers : List (Tracker F)) (i : Nat) : Tracker F := trackers.getD i default

/-- The loop that initialises all trackers. -/
def initTrackers (allAtomMatchers : List (AtomMatcher F)) (matcherMap : UMap Int Nat) (trackers : List (Tracker F)) :
    Outcome (List (Tracker F)) :=
  match (setup allAtomMatchers matcherMap).initAll (trackers.length + 1) (List.range trackers.length)
    ⟨trackerAt trackers, fun _ => false⟩ with
  | .ok s => .ok ((List.range trackers.length).map s.nodes)
  | .failure => .failure
  | .outOfFuel => .outOfFuel

/-- `mAtomMatchingTrackerMap` and `mAllAtomMatchingTrackers` of a metrics manager. -/
structure Trackers (F : Type) where
  atomMatchingTrackerMap : UMap Int Nat
  allAtomMatchingTrackers : List (Tracker F)

/-- The maps from ids to indices, without duplicates. -/
def indices (config : StatsdConfig F) : Option (UMap Int Nat) :=
  if (config.atom_matcher.map (·.id)).Nodup then some (UMap.indexMap (config.atom_matcher.map (·.id))) else none

def initAtomMatchingTrackers (protoHash : AtomMatcher F → Option UInt64) (config : StatsdConfig F) :
    Outcome (Trackers F) :=
  match makeTrackers (createAtomMatchingTracker protoHash) 0 config.atom_matcher, indices config with
  | some trackers, some map =>
    match initTrackers config.atom_matcher map trackers with
    | .ok trackers => .ok ⟨map, trackers⟩
    | .failure => .failure
    | .outOfFuel => .outOfFuel
  | _, _ => .failure

/-! ## What trackers are made of -/

theorem trackerAt_of_get {trackers : List (Tracker F)} {i : Nat} {t : Tracker F} (h : trackers[i]? = some t) :
    trackerAt trackers i = t := by
  unfold trackerAt
  rw [List.getD_eq_getElem?_getD, h]
  rfl

theorem trackerAt_of_le {trackers : List (Tracker F)} {i : Nat} (h : trackers.length ≤ i) :
    trackerAt trackers i = default := by
  unfold trackerAt
  rw [List.getD_eq_getElem?_getD, List.getElem?_eq_none h]
  rfl

theorem setup_lawful (allAtomMatchers : List (AtomMatcher F)) (matcherMap : UMap Int Nat) :
    (setup allAtomMatchers matcherMap).Lawful := by
  have hcheck : ∀ {i : Nat} {t t' : Tracker F} {cs : List (Option Nat)},
      (setup allAtomMatchers matcherMap).check i t = some (t', cs) →
        t'.mInitialized = t.mInitialized ∧ t'.mChildren = [] := by
    intro i t t' cs h
    unfold setup at h
    dsimp only at h
    split at h
    · cases h
    · split at h
      · split at h
        · cases h
        · cases h
          exact ⟨rfl, rfl⟩
      · cases h
  exact {
    check_ready := fun hr h => (hcheck h).1.trans hr
    check_children := fun h => (hcheck h).2
    add_ready := fun _ _ _ => rfl
    add_children := fun _ _ _ => rfl
    close_ready := fun _ => rfl
    close_children := fun _ _ => rfl
    close_congr := fun _ _ => rfl }

theorem children_of_created {protoHash : AtomMatcher F → Option UInt64} {i : Nat} {m : AtomMatcher F} {t : Tracker F}
    (h : createAtomMatchingTracker protoHash i m = some t) : t.mChildren = [] := by
  unfold createAtomMatchingTracker at h
  split at h
  · cases h
  · split at h
    · rw [← Option.some.inj h]
    · rw [← Option.some.inj h]
    · cases h

theorem assembled_eq (allAtomMatchers : List (AtomMatcher F)) (matcherMap : UMap Int Nat) (nodes : Nat → Tracker F)
    (t : Tracker F) (cs : List Nat) :
    ∃ ids, (setup allAtomMatchers matcherMap).assembled nodes t cs =
        { t with mChildren := t.mChildren ++ cs, mAtomIds := ids } ∧
      ∀ a, a ∈ ids ↔ a ∈ t.mAtomIds ∨ ∃ c ∈ cs, a ∈ (nodes c).mAtomIds := by
  unfold Setup.assembled
  induction cs generalizing t with
  | nil => exact ⟨t.mAtomIds, by rw [List.append_nil]; rfl, fun a => by simp⟩
  | cons c cs ih =>
    obtain ⟨ids, heq, hids⟩ := ih ((setup allAtomMatchers matcherMap).add t c (nodes c))
    refine ⟨ids, ?_, fun a => ?_⟩
    · rw [List.foldl_cons, heq]
      dsimp only [setup]
      rw [List.append_assoc, List.singleton_append]
    · rw [hids]
      dsimp only [setup]
      rw [Finset.mem_union, or_assoc]
      refine or_congr_right ⟨?_, ?_⟩
      · rintro (ha | ⟨d, hd, ha⟩)
        · exact ⟨c, List.mem_cons_self, ha⟩
        · exact ⟨d, List.mem_cons_of_mem _ hd, ha⟩
      · rintro ⟨d, hd, ha⟩
        rcases List.mem_cons.1 hd with rfl | hd
        · exact .inl ha
        · exact .inr ⟨d, hd, ha⟩

/-- The tracker has the operation, the children and the atom ids of a matcher's contents. -/
def OfContents (map : UMap Int Nat) (nodes : Nat → Tracker F) (t : Tracker F) : MatcherContents F → Prop
  | .CONTENTS_NOT_SET => False
  | .simple_atom_matcher matcher =>
    t.kind = .simple matcher ∧ t.mChildren = [] ∧ ∃ a, matcher.atom_id = some a ∧ t.mAtomIds = {a}
  | .combination operation matcher =>
    ∃ o, operation = some o ∧ t.kind = .combination o ∧ (o = .NOT → matcher.length = 1) ∧
      matcher.map map.lookup = t.mChildren.map some ∧
      ∀ a, a ∈ t.mAtomIds ↔ ∃ c ∈ matcher, ∃ j, map.lookup c = some j ∧ a ∈ (nodes j).mAtomIds

/-- The tracker at an index is made of the matcher. -/
structure Made (protoHash : AtomMatcher F → Option UInt64) (map : UMap Int Nat) (nodes : Nat → Tracker F) (i : Nat)
    (m : AtomMatcher F) : Prop where
  id : (nodes i).mId = m.id
  index : (nodes i).mIndex = i
  ready : (nodes i).mInitialized = true
  hash : protoHash m = some (nodes i).mProtoHash
  contents : OfContents map nodes (nodes i) m.contents

/-- The trackers are those of the config, and the children of each are ranked below it. -/
structure Sound (protoHash : AtomMatcher F → Option UInt64) (config : StatsdConfig F) (s : Trackers F) : Prop where
  nodup : (config.atom_matcher.map (·.id)).Nodup
  map_eq : s.atomMatchingTrackerMap = UMap.indexMap (config.atom_matcher.map (·.id))
  length : s.allAtomMatchingTrackers.length = config.atom_matcher.length
  made : ∀ i m, config.atom_matcher[i]? = some m →
    Made protoHash s.atomMatchingTrackerMap (trackerAt s.allAtomMatchingTrackers) i m
  ranked : ∃ rank : Nat → Nat, ∀ i, ∀ c ∈ (trackerAt s.allAtomMatchingTrackers i).mChildren, rank c < rank i

section

variable {protoHash : AtomMatcher F → Option UInt64} {map : UMap Int Nat} {nodes nodes' : Nat → Tracker F} {i : Nat}
  {m : AtomMatcher F}

variable {contents : MatcherContents F}

theorem OfContents.map_children {t : Tracker F} (h : OfContents map nodes t contents) :
    contents.children.map map.lookup = t.mChildren.map some := by
  cases contents with
  | CONTENTS_NOT_SET => exact h.elim
  | simple_atom_matcher matcher =>
    obtain ⟨-, hchildren, -⟩ := h
    rw [hchildren]
    rfl
  | combination operation matcher =>
    obtain ⟨-, -, -, -, hmap, -⟩ := h
    exact hmap

theorem OfContents.mem_children {t : Tracker F} (h : OfContents map nodes t contents)
    (j : Nat) : j ∈ t.mChildren ↔ ∃ c ∈ contents.children, map.lookup c = some j := by
  have hj : j ∈ t.mChildren ↔ some j ∈ t.mChildren.map some := by simp
  rw [hj, ← h.map_children, List.mem_map]

theorem OfContents.congr {t : Tracker F} (h : OfContents map nodes t contents)
    (hc : ∀ c ∈ t.mChildren, nodes' c = nodes c) : OfContents map nodes' t contents := by
  have hmem := h.mem_children
  cases contents with
  | CONTENTS_NOT_SET => exact h
  | simple_atom_matcher matcher => exact h
  | combination operation matcher =>
    obtain ⟨o, ho, hkind, hnot, hmap, hids⟩ := h
    refine ⟨o, ho, hkind, hnot, hmap, fun a => (hids a).trans ?_⟩
    refine exists_congr fun c => and_congr_right fun hcm => exists_congr fun j => and_congr_right fun hj => ?_
    rw [hc j ((hmem j).2 ⟨c, hcm, hj⟩)]

theorem Made.congr (h : Made protoHash map nodes i m) (hi : nodes' i = nodes i)
    (hc : ∀ c ∈ (nodes i).mChildren, nodes' c = nodes c) : Made protoHash map nodes' i m := by
  obtain ⟨hid, hindex, hready, hhash, hcontents⟩ := h
  exact ⟨by rw [hi, hid], by rw [hi, hindex], by rw [hi, hready], by rw [hi, hhash], by rw [hi]; exact hcontents.congr hc⟩

theorem made_of_created {config : List (AtomMatcher F)} {nodes₀ : Nat → Tracker F}
    (hm : config[i]? = some m) (hnew : createAtomMatchingTracker protoHash i m = some (nodes₀ i))
    (hbuilt : (nodes₀ i).mInitialized = true ∧ nodes i = nodes₀ i ∨ (setup config map).Built nodes₀ nodes i) :
    Made protoHash map nodes i m := by
  unfold createAtomMatchingTracker at hnew
  cases hhash : protoHash m with
  | none => rw [hhash] at hnew; cases hnew
  | some hash =>
    rw [hhash] at hnew
    dsimp only at hnew
    cases hcontents : m.contents with
    | CONTENTS_NOT_SET => rw [hcontents] at hnew; cases hnew
    | simple_atom_matcher matcher =>
      rw [hcontents] at hnew
      have heq := (Option.some.inj hnew).symm
      rcases hbuilt with ⟨hready, hkept⟩ | ⟨t, cs, hcheck, -⟩
      · rw [heq] at hready hkept
        obtain ⟨a, ha⟩ := Option.isSome_iff_exists.1 hready
        refine ⟨by rw [hkept], by rw [hkept], by rw [hkept]; exact hready, by rw [hkept, hhash], ?_⟩
        rw [hkept, hcontents]
        refine ⟨rfl, rfl, a, ha, ?_⟩
        dsimp only
        rw [ha]
        rfl
      · rw [heq] at hcheck
        cases hcheck
    | combination operation matcher =>
      rw [hcontents] at hnew
      have heq := (Option.some.inj hnew).symm
      rcases hbuilt with ⟨hready, -⟩ | ⟨t, cs, hcheck, hnode⟩
      · rw [heq] at hready
        cases hready
      · rw [heq] at hcheck
        unfold setup at hcheck
        dsimp only at hcheck
        rw [hm, Option.map_some, hcontents] at hcheck
        cases operation with
        | none => cases hcheck
        | some o =>
          dsimp only at hcheck
          by_cases hnot : o = .NOT ∧ matcher.length ≠ 1
          · rw [if_pos hnot] at hcheck
            cases hcheck
          · rw [if_neg hnot] at hcheck
            obtain ⟨rfl, hmap⟩ := Prod.mk.inj (Option.some.inj hcheck)
            obtain ⟨ids, hassembled, hids⟩ := assembled_eq config map nodes
              ⟨m.id, i, false, ∅, hash, .combination o, []⟩ cs
            rw [hassembled, List.nil_append] at hnode
            refine ⟨by rw [hnode]; rfl, by rw [hnode]; rfl, by rw [hnode]; rfl, by rw [hnode]; exact hhash, ?_⟩
            rw [hcontents, hnode]
            refine ⟨o, rfl, rfl, fun ho => not_not.1 fun hlen => hnot ⟨ho, hlen⟩, hmap, fun a => ?_⟩
            dsimp only [setup]
            rw [hids]
            constructor
            · rintro (ha | ⟨c, hc, ha⟩)
              · exact absurd ha (Finset.notMem_empty a)
              · obtain ⟨d, hd, hdc⟩ := List.mem_map.1 (hmap ▸ List.mem_map_of_mem (f := some) hc)
                exact ⟨d, hd, c, hdc, ha⟩
            · rintro ⟨d, hd, c, hdc, ha⟩
              obtain ⟨c', hc', he⟩ := List.mem_map.1 (hmap ▸ List.mem_map_of_mem (f := map.lookup) hd)
              rw [hdc] at he
              obtain rfl := Option.some.inj he
              exact .inr ⟨c', hc', ha⟩

end

/-! ## The trackers of a config -/

section

variable {protoHash : AtomMatcher F → Option UInt64} {config : StatsdConfig F} {map : UMap Int Nat}
  {trackers : List (Tracker F)}

theorem lt_of_lookup (hnodup : (config.atom_matcher.map (·.id)).Nodup)
    (hmap : map = UMap.indexMap (config.atom_matcher.map (·.id))) {c : Int} {j : Nat} (hj : map.lookup c = some j) :
    j < config.atom_matcher.length := by
  rw [hmap, UMap.lookup_indexMap hnodup] at hj
  have hlt := (List.getElem?_eq_some_iff.1 hj).1
  rwa [List.length_map] at hlt

theorem setup_below (hnodup : (config.atom_matcher.map (·.id)).Nodup)
    (hmap : map = UMap.indexMap (config.atom_matcher.map (·.id))) :
    (setup config.atom_matcher map).Below config.atom_matcher.length := by
  intro i t t' cs hcheck c hc
  unfold setup at hcheck
  dsimp only at hcheck
  split at hcheck
  · cases hcheck
  · split at hcheck
    · split at hcheck
      · cases hcheck
      · obtain ⟨-, rfl⟩ := Prod.mk.inj (Option.some.inj hcheck)
        obtain ⟨d, -, hd⟩ := List.mem_map.1 hc
        exact lt_of_lookup hnodup hmap hd
    · cases hcheck

/-- Trackers that are new, or initialised before and made of their matchers, are made of their matchers when all are
initialised. -/
theorem initTrackers_sound (hnodup : (config.atom_matcher.map (·.id)).Nodup)
    (hmap : map = UMap.indexMap (config.atom_matcher.map (·.id))) (hlen : trackers.length = config.atom_matcher.length)
    (hstart : ∀ i m, config.atom_matcher[i]? = some m →
      createAtomMatchingTracker protoHash i m = some (trackerAt trackers i) ∨
        Made protoHash map (trackerAt trackers) i m)
    (hranked : (setup config.atom_matcher map).Ranked (trackerAt trackers))
    {trackers' : List (Tracker F)} (hok : initTrackers config.atom_matcher map trackers = .ok trackers') :
    Sound protoHash config ⟨map, trackers'⟩ := by
  have hlawful := setup_lawful config.atom_matcher map
  unfold initTrackers at hok
  cases hinit : (setup config.atom_matcher map).initAll (trackers.length + 1) (List.range trackers.length)
      ⟨trackerAt trackers, fun _ => false⟩ with
  | failure => rw [hinit] at hok; cases hok
  | outOfFuel => rw [hinit] at hok; cases hok
  | ok s =>
    rw [hinit] at hok
    cases hok
    obtain ⟨hinv, -, -, hready⟩ := hlawful.initAll_spec _ _ (Setup.Lawful.inv_start hranked) rfl hinit
    have hget : ∀ i < trackers.length, trackerAt ((List.range trackers.length).map s.nodes) i = s.nodes i := by
      intro i hi
      refine trackerAt_of_get ?_
      rw [List.getElem?_map, List.getElem?_range hi]
      rfl
    have hmade : ∀ i m, config.atom_matcher[i]? = some m → Made protoHash map s.nodes i m := by
      intro i m hm
      have hi : i < trackers.length := hlen ▸ (List.getElem?_eq_some_iff.1 hm).1
      rcases hstart i m hm with hnew | hold
      · refine made_of_created hm hnew ((hinv.built i (hready i (List.mem_range.2 hi))).imp_left fun hr => ?_)
        exact ⟨hr, hinv.kept i hr⟩
      · obtain ⟨rank, hrank⟩ := hranked
        refine hold.congr (hinv.kept i hold.ready) fun c hc => ?_
        exact hinv.kept c (hrank i hold.ready c hc).1
    obtain ⟨rank, hrank⟩ := hinv.ranked
    have hlookup : ∀ c j, map.lookup c = some j → j < trackers.length :=
      fun c j hj => hlen ▸ lt_of_lookup hnodup hmap hj
    refine ⟨hnodup, hmap, by rw [List.length_map, List.length_range, hlen], fun i m hm => ?_, rank, fun i c hc => ?_⟩
    · have hi : i < trackers.length := hlen ▸ (List.getElem?_eq_some_iff.1 hm).1
      refine (hmade i m hm).congr (hget i hi) fun c hc => hget c ?_
      obtain ⟨d, -, hd⟩ := ((hmade i m hm).contents.mem_children c).1 hc
      exact hlookup d c hd
    · by_cases hi : i < trackers.length
      · rw [hget i hi] at hc
        exact (hrank i (hready i (List.mem_range.2 hi)) c hc).2
      · rw [trackerAt_of_le (by rw [List.length_map, List.length_range]; omega)] at hc
        exact (List.not_mem_nil hc).elim

theorem initTrackers_terminates (hnodup : (config.atom_matcher.map (·.id)).Nodup)
    (hmap : map = UMap.indexMap (config.atom_matcher.map (·.id)))
    (hlen : trackers.length = config.atom_matcher.length) :
    initTrackers config.atom_matcher map trackers ≠ .outOfFuel := by
  have hall := Setup.initAll_terminates (setup_below hnodup hmap)
    (show config.atom_matcher.length < trackers.length + 1 by omega)
    (List.range trackers.length) (fun i hi => hlen ▸ List.mem_range.1 hi)
    (s := ⟨trackerAt trackers, fun _ => false⟩) rfl
  unfold initTrackers
  split
  · exact nofun
  · exact nofun
  · rename_i hout
    exact absurd hout hall

theorem trackerAt_of_makeTrackers {make : Nat → AtomMatcher F → Option (Tracker F)}
    (h : makeTrackers make 0 config.atom_matcher = some trackers) {i : Nat} {m : AtomMatcher F}
    (hm : config.atom_matcher[i]? = some m) : make i m = some (trackerAt trackers i) := by
  obtain ⟨t, ht, hmake⟩ := (makeTrackers_get h).2 i m hm
  rw [trackerAt_of_get ht, ← hmake, Nat.zero_add]

theorem ranked_of_makeTrackers
    (h : makeTrackers (createAtomMatchingTracker protoHash) 0 config.atom_matcher = some trackers) :
    (setup config.atom_matcher map).Ranked (trackerAt trackers) := by
  refine ⟨fun _ => 0, fun i hi c hc => ?_⟩
  have hnone : (trackerAt trackers i).mChildren = [] := by
    by_cases hlt : i < config.atom_matcher.length
    · exact children_of_created (trackerAt_of_makeTrackers h (List.getElem?_eq_getElem hlt))
    · rw [trackerAt_of_le (by rw [(makeTrackers_get h).1]; omega)]
      rfl
  dsimp only [setup] at hc
  rw [hnone] at hc
  cases hc

theorem indices_eq (h : indices config = some map) :
    (config.atom_matcher.map (·.id)).Nodup ∧ map = UMap.indexMap (config.atom_matcher.map (·.id)) := by
  unfold indices at h
  split at h
  · rename_i hnodup
    exact ⟨hnodup, (Option.some.inj h).symm⟩
  · cases h

theorem initAtomMatchingTrackers_sound {s : Trackers F} (hok : initAtomMatchingTrackers protoHash config = .ok s) :
    Sound protoHash config s := by
  unfold initAtomMatchingTrackers at hok
  split at hok
  · rename_i trackers map hmake hindices
    split at hok
    · rename_i trackers' hinit
      cases hok
      obtain ⟨hnodup, hmap⟩ := indices_eq hindices
      have hlen := (makeTrackers_get hmake).1
      exact initTrackers_sound hnodup hmap hlen (fun i m hm => .inl (trackerAt_of_makeTrackers hmake hm))
        (ranked_of_makeTrackers hmake) hinit
    · cases hok
    · cases hok
  · cases hok

theorem initAtomMatchingTrackers_terminates (protoHash : AtomMatcher F → Option UInt64) (config : StatsdConfig F) :
    initAtomMatchingTrackers protoHash config ≠ .outOfFuel := by
  unfold initAtomMatchingTrackers
  split
  · rename_i trackers map hmake hindices
    obtain ⟨hnodup, hmap⟩ := indices_eq hindices
    have hne := initTrackers_terminates hnodup hmap (makeTrackers_get hmake).1
    split
    · exact nofun
    · exact nofun
    · rename_i hout
      exact absurd hout hne
  · exact nofun

end

end Statsd.Matchers
