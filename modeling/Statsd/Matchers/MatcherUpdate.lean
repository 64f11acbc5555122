/-
The atom matching trackers after a config update (`onConfigUpdated` of matchers/*AtomMatchingTracker.cpp,
updateAtomMatchingTrackers of config_update_utils.cpp). The trackers of unchanged matchers are kept, with their atom
ids, and only look up the indices of their children again; the others are made anew.

Whatever updates there were, the trackers are made as the current config says.
-/
import Statsd.Config.ConfigDiff
import Statsd.Matchers.MatcherInit

namespace Statsd.Matchers

open Config UpdateStatus

variable {F : Type}

def onConfigUpdated (t : Tracker F) (matcher : AtomMatcher F) (index : Nat) (atomMatchingTrackerMap : UMap Int Nat) :
    Option (Tracker F) :=
  match t.kind with
  | .simple _ => if t.mInitialized then some { t with mIndex := index } else none
  | .combination _ =>
    match atomMatchingTrackerMap.lookupAll matcher.contents.children with
    | none => none
    | some children => some { t with mIndex := index, mChildren := children }

/-- The tracker of a matcher after an update, by the status of the matcher. -/
def updateTracker (protoHash : AtomMatcher F → Option UInt64) (old : Trackers F) (newAtomMatchingTrackerMap : UMap Int Nat)
    (matchersToUpdate : Nat → UpdateStatus) (i : Nat) (matcher : AtomMatcher F) : Option (Tracker F) :=
  match matchersToUpdate i with
  | UPDATE_PRESERVE =>
    match old.atomMatchingTrackerMap.lookup matcher.id with
    | none => none
    | some oldIdx =>
      match old.allAtomMatchingTrackers[oldIdx]? with
      | none => none
      | some tracker => onConfigUpdated tracker matcher i newAtomMatchingTrackerMap
  | UPDATE_REPLACE => createAtomMatchingTracker protoHash i matcher
  | UPDATE_NEW => createAtomMatchingTracker protoHash i matcher
  | UPDATE_UNKNOWN => none

def updateAtomMatchingTrackers (protoHash : AtomMatcher F → Option UInt64) (config : StatsdConfig F) (old : Trackers F) :
    Outcome (Trackers F) :=
  match indices config with
  | none => .failure
  | some map =>
    match determineAll (determineMatcherUpdateStatus config protoHash old.atomMatchingTrackerMap
      (old.allAtomMatchingTrackers.map (·.mProtoHash)) map (config.atom_matcher.length + 1))
      (List.range config.atom_matcher.length) .new with
    | .failure => .failure
    | .outOfFuel => .outOfFuel
    | .ok p =>
      match makeTrackers (updateTracker protoHash old map p.toUpdate) 0 config.atom_matcher with
      | none => .failure
      | some trackers =>
        match initTrackers config.atom_matcher map trackers with
        | .ok trackers => .ok ⟨map, trackers⟩
        | .failure => .failure
        | .outOfFuel => .outOfFuel


/-! ## Kept trackers -/

theorem onConfigUpdated_eq {t t' : Tracker F} {m : AtomMatcher F} {i : Nat} {map oldMap : UMap Int Nat}
    {nodes : Nat → Tracker F} (ht : OfContents oldMap nodes t m.contents) (hok : onConfigUpdated t m i map = some t') :
    ∃ cs, t' = { t with mIndex := i, mChildren := cs } ∧ m.contents.children.map map.lookup = cs.map some := by
  unfold onConfigUpdated at hok
  cases hcontents : m.contents with
  | CONTENTS_NOT_SET =>
    rw [hcontents] at ht
    exact ht.elim
  | simple_atom_matcher matcher =>
    rw [hcontents] at ht
    obtain ⟨hkind, hchildren, -⟩ := ht
    rw [hkind] at hok
    dsimp only at hok
    split at hok
    · refine ⟨[], ?_, rfl⟩
      rw [← Option.some.inj hok, ← hkind, ← hchildren]
    · cases hok
  | combination operation matcher =>
    rw [hcontents] at ht
    obtain ⟨o, -, hkind, -⟩ := ht
    rw [hkind, hcontents] at hok
    dsimp only at hok
    split at hok
    · cases hok
    · rename_i cs hcs
      refine ⟨cs, ?_, UMap.lookupAll_eq_some_iff.1 hcs⟩
      rw [← Option.some.inj hok, ← hkind]

section

variable {protoHash : AtomMatcher F → Option UInt64} {old new : StatsdConfig F} {s : Trackers F}

theorem Sound.comparable (h : Sound protoHash old s) (hnodup : (new.atom_matcher.map (·.id)).Nodup)
    (hinj : ∀ m ∈ old.atom_matcher, ∀ m' ∈ new.atom_matcher, protoHash m = protoHash m' → m = m') :
    Comparable AtomMatcher.id (·.contents.children) protoHash old.atom_matcher new.atom_matcher
      (s.allAtomMatchingTrackers.map (·.mProtoHash)) where
  oldNodup := h.nodup
  newNodup := hnodup
  hashes := by
    refine List.ext_getElem? fun i => ?_
    rw [List.getElem?_map, List.getElem?_map, List.getElem?_map]
    cases hm : old.atom_matcher[i]? with
    | none =>
      rw [List.getElem?_eq_none_iff] at hm
      rw [List.getElem?_eq_none (by rw [h.length]; exact hm)]
      rfl
    | some m =>
      have hhash := (h.made i m hm).hash
      have hlt : i < s.allAtomMatchingTrackers.length := h.length ▸ (List.getElem?_eq_some_iff.1 hm).1
      rw [trackerAt_of_get (List.getElem?_eq_getElem hlt)] at hhash
      rw [List.getElem?_eq_getElem hlt, Option.map_some, hhash]
      rfl
  injective := hinj
  resolved := by
    intro m hm c hc
    obtain ⟨i, hi⟩ := List.mem_iff_getElem?.1 hm
    have hmap := (h.made i m hi).contents.map_children
    obtain ⟨j, -, hj⟩ := List.mem_map.1 (hmap ▸ List.mem_map_of_mem (f := s.atomMatchingTrackerMap.lookup) hc)
    rw [h.map_eq, eq_comm, UMap.lookup_indexMap h.nodup] at hj
    exact List.mem_of_getElem? hj

/-- What a preserved tracker is before all trackers are initialised: the old tracker of the same matcher, with its
index and those of its children looked up. -/
def Kept (s : Trackers F) (map : UMap Int Nat) (nodes : Nat → Tracker F) (i : Nat) (m : AtomMatcher F) (oldIdx : Nat) :
    Prop :=
  ∃ cs, nodes i = { trackerAt s.allAtomMatchingTrackers oldIdx with mIndex := i, mChildren := cs } ∧
    m.contents.children.map map.lookup = cs.map some

variable {map : UMap Int Nat} {trackers : List (Tracker F)} {rest : AtomMatcher F → Look} {look : Nat → Look}
  {toUpdate : Nat → UpdateStatus}

variable {m : AtomMatcher F}

theorem kept_of_preserved (h : Sound protoHash old s)
    (hstatuses : Statuses AtomMatcher.id (·.contents.children) protoHash old.atom_matcher new.atom_matcher
      (s.allAtomMatchingTrackers.map (·.mProtoHash)) (fun _ => True) rest look toUpdate)
    (hmake : makeTrackers (updateTracker protoHash s map toUpdate) 0 new.atom_matcher = some trackers) {i : Nat} (hm : new.atom_matcher[i]? = some m) (hi : toUpdate i = UPDATE_PRESERVE) :
    ∃ oldIdx, old.atom_matcher[oldIdx]? = some m ∧ s.atomMatchingTrackerMap.lookup m.id = some oldIdx ∧
      Kept s map (trackerAt trackers) i m oldIdx := by
  have hmo : m ∈ old.atom_matcher := by
    rcases hstatuses.status_cases hm with ⟨-, hs⟩ | ⟨-, ⟨-, hmo, -⟩ | ⟨hs, -⟩⟩
    · rw [hi] at hs; cases hs
    · exact hmo
    · rw [hi] at hs; cases hs
  obtain ⟨oldIdx, hold⟩ := List.mem_iff_getElem?.1 hmo
  have hlookup : s.atomMatchingTrackerMap.lookup m.id = some oldIdx := by
    rw [h.map_eq, UMap.lookup_indexMap h.nodup, List.getElem?_map, hold]
    rfl
  have hlt : oldIdx < s.allAtomMatchingTrackers.length := h.length ▸ (List.getElem?_eq_some_iff.1 hold).1
  have hget := trackerAt_of_makeTrackers hmake hm
  unfold updateTracker at hget
  rw [hi] at hget
  dsimp only at hget
  rw [hlookup] at hget
  dsimp only at hget
  rw [List.getElem?_eq_getElem hlt] at hget
  have hmade := (h.made oldIdx m hold).contents
  rw [← trackerAt_of_get (List.getElem?_eq_getElem hlt)] at hget
  exact ⟨oldIdx, hold, hlookup, onConfigUpdated_eq hmade hget⟩

theorem made_of_preserved (h : Sound protoHash old s) (hmap : map = UMap.indexMap (new.atom_matcher.map (·.id)))
    (hstatuses : Statuses AtomMatcher.id (·.contents.children) protoHash old.atom_matcher new.atom_matcher
      (s.allAtomMatchingTrackers.map (·.mProtoHash)) (fun _ => True) rest look toUpdate)
    (hmake : makeTrackers (updateTracker protoHash s map toUpdate) 0 new.atom_matcher = some trackers) {i : Nat} (hm : new.atom_matcher[i]? = some m) (hi : toUpdate i = UPDATE_PRESERVE) :
    Made protoHash map (trackerAt trackers) i m := by
  obtain ⟨oldIdx, hold, -, cs, hnode, hcs⟩ := kept_of_preserved h hstatuses hmake hm hi
  have hmade := h.made oldIdx m hold
  -- a child's tracker has the atom ids it had
  have hchild : ∀ c ∈ m.contents.children, ∃ j oldJ, map.lookup c = some j ∧
      s.atomMatchingTrackerMap.lookup c = some oldJ ∧
      (trackerAt trackers j).mAtomIds = (trackerAt s.allAtomMatchingTrackers oldJ).mAtomIds := by
    intro c hc
    rcases hstatuses.status_cases hm with ⟨-, hs⟩ | ⟨-, ⟨-, -, -, hall⟩ | ⟨hs, -⟩⟩
    · rw [hi] at hs; cases hs
    · obtain ⟨j, m', hm', rfl, hj⟩ := hall c hc
      obtain ⟨oldJ, -, hlookup, cs', hnode', -⟩ := kept_of_preserved h hstatuses hmake hm' hj
      exact ⟨j, oldJ, hmap ▸ hstatuses.lookup_new hm', hlookup, by rw [hnode']⟩
    · rw [hi] at hs; cases hs
  refine ⟨?_, ?_, ?_, ?_, ?_⟩
  · rw [hnode]
    exact hmade.id
  · rw [hnode]
  · rw [hnode]
    exact hmade.ready
  · rw [hnode]
    exact hmade.hash
  · have hcontents := hmade.contents
    rw [hnode]
    cases hkind : m.contents with
    | CONTENTS_NOT_SET =>
      rw [hkind] at hcontents
      exact hcontents.elim
    | simple_atom_matcher matcher =>
      rw [hkind] at hcontents hcs
      obtain ⟨hsimple, -, hids⟩ := hcontents
      exact ⟨hsimple, List.map_eq_nil_iff.1 hcs.symm, hids⟩
    | combination operation matcher =>
      rw [hkind] at hcontents hcs hchild
      obtain ⟨o, ho, hcombination, hnot, -, hids⟩ := hcontents
      refine ⟨o, ho, hcombination, hnot, hcs, fun a => (hids a).trans ?_⟩
      refine exists_congr fun c => and_congr_right fun hc => ?_
      obtain ⟨j, oldJ, hj, holdJ, hatoms⟩ := hchild c hc
      rw [hj, holdJ]
      simp only [Option.some.injEq, exists_eq_left']
      rw [hatoms]

theorem created_of_not_preserved
    (hmake : makeTrackers (updateTracker protoHash s map toUpdate) 0 new.atom_matcher = some trackers) {i : Nat} (hm : new.atom_matcher[i]? = some m) (hi : toUpdate i ≠ UPDATE_PRESERVE) :
    createAtomMatchingTracker protoHash i m = some (trackerAt trackers i) := by
  have hget := trackerAt_of_makeTrackers hmake hm
  unfold updateTracker at hget
  cases hs : toUpdate i with
  | UPDATE_UNKNOWN => rw [hs] at hget; cases hget
  | UPDATE_PRESERVE => exact absurd hs hi
  | UPDATE_REPLACE => rw [hs] at hget; exact hget
  | UPDATE_NEW => rw [hs] at hget; exact hget

theorem ranked_of_update (h : Sound protoHash old s) (hmap : map = UMap.indexMap (new.atom_matcher.map (·.id)))
    (hstatuses : Statuses AtomMatcher.id (·.contents.children) protoHash old.atom_matcher new.atom_matcher
      (s.allAtomMatchingTrackers.map (·.mProtoHash)) (fun _ => True) rest look toUpdate)
    (hmake : makeTrackers (updateTracker protoHash s map toUpdate) 0 new.atom_matcher = some trackers) :
    (setup new.atom_matcher map).Ranked (trackerAt trackers) := by
  obtain ⟨rank, hrank⟩ := h.ranked
  -- the rank of an index is that of the id's old index
  let rank' : Nat → Nat := fun i =>
    match new.atom_matcher[i]? with
    | some m => rank ((s.atomMatchingTrackerMap.lookup m.id).getD 0)
    | none => 0
  have hrank' : ∀ i m oldIdx, new.atom_matcher[i]? = some m → s.atomMatchingTrackerMap.lookup m.id = some oldIdx →
      rank' i = rank oldIdx := by
    intro i m oldIdx hm hold
    dsimp only [rank']
    rw [hm]
    dsimp only
    rw [hold]
    rfl
  refine ⟨rank', fun i _ c hc => ?_⟩
  dsimp only [setup] at hc ⊢
  cases hm : new.atom_matcher[i]? with
  | none =>
    have hle : trackers.length ≤ i := by
      rw [(makeTrackers_get hmake).1]
      exact List.getElem?_eq_none_iff.1 hm
    rw [trackerAt_of_le hle] at hc
    cases hc
  | some m =>
    by_cases hi : toUpdate i = UPDATE_PRESERVE
    · obtain ⟨oldIdx, hold, hlookup, -⟩ := kept_of_preserved h hstatuses hmake hm hi
      obtain ⟨d, hd, hdc⟩ := ((made_of_preserved h hmap hstatuses hmake hm hi).contents.mem_children c).1 hc
      rcases hstatuses.status_cases hm with ⟨-, hs⟩ | ⟨-, ⟨-, -, -, hall⟩ | ⟨hs, -⟩⟩
      · rw [hi] at hs; cases hs
      · obtain ⟨j, m', hm', rfl, hj⟩ := hall d hd
        have hjc : map.lookup m'.id = some j := hmap ▸ hstatuses.lookup_new hm'
        rw [hdc] at hjc
        obtain rfl := Option.some.inj hjc
        obtain ⟨oldJ, -, hlookup', -⟩ := kept_of_preserved h hstatuses hmake hm' hj
        refine ⟨(made_of_preserved h hmap hstatuses hmake hm' hj).ready, ?_⟩
        rw [hrank' i m oldIdx hm hlookup, hrank' c m' oldJ hm' hlookup']
        exact hrank oldIdx oldJ (((h.made oldIdx m hold).contents.mem_children oldJ).2 ⟨_, hd, hlookup'⟩)
      · rw [hi] at hs; cases hs
    · rw [children_of_created (created_of_not_preserved hmake hm hi)] at hc
      cases hc

theorem updateAtomMatchingTrackers_indices {s' : Trackers F} (hok : updateAtomMatchingTrackers protoHash new s = .ok s') :
    (new.atom_matcher.map (·.id)).Nodup ∧ s'.atomMatchingTrackerMap = UMap.indexMap (new.atom_matcher.map (·.id)) := by
  unfold updateAtomMatchingTrackers at hok
  split at hok
  · cases hok
  · rename_i map hindices
    split at hok
    · cases hok
    · cases hok
    · split at hok
      · cases hok
      · split at hok
        · cases hok
          exact indices_eq hindices
        · cases hok
        · cases hok

theorem Sound.update (h : Sound protoHash old s)
    (hinj : ∀ m ∈ old.atom_matcher, ∀ m' ∈ new.atom_matcher, protoHash m = protoHash m' → m = m') {s' : Trackers F}
    (hok : updateAtomMatchingTrackers protoHash new s = .ok s') : Sound protoHash new s' := by
  unfold updateAtomMatchingTrackers at hok
  split at hok
  · cases hok
  · rename_i map hindices
    obtain ⟨hnodup, hmap⟩ := indices_eq hindices
    split at hok
    · cases hok
    · cases hok
    · rename_i p hp
      split at hok
      · cases hok
      · rename_i trackers hmake
        split at hok
        · rename_i trackers' hinit
          cases hok
          rw [hmap, h.map_eq] at hp
          have hstatuses := (matcherStatuses_statuses old new (h.comparable hnodup hinj)).2 _ _ p
            (fun i hi => List.mem_range.2 hi) hp
          refine initTrackers_sound hnodup hmap (makeTrackers_get hmake).1 (fun i m hm => ?_)
            (ranked_of_update h hmap hstatuses hmake) hinit
          by_cases hi : p.toUpdate i = UPDATE_PRESERVE
          · exact .inr (made_of_preserved h hmap hstatuses hmake hm hi)
          · exact .inl (created_of_not_preserved hmake hm hi)
        · cases hok
        · cases hok

theorem Sound.update_terminates (h : Sound protoHash old s)
    (hinj : ∀ m ∈ old.atom_matcher, ∀ m' ∈ new.atom_matcher, protoHash m = protoHash m' → m = m') :
    updateAtomMatchingTrackers protoHash new s ≠ .outOfFuel := by
  unfold updateAtomMatchingTrackers
  split
  · exact nofun
  · rename_i map hindices
    obtain ⟨hnodup, hmap⟩ := indices_eq hindices
    split
    · exact nofun
    · rename_i hout
      rw [hmap, h.map_eq] at hout
      exact absurd hout ((matcherStatuses_statuses old new (h.comparable hnodup hinj)).1 _ _ (Nat.lt_succ_self _)
        fun i hi => List.mem_range.1 hi)
    · split
      · exact nofun
      · rename_i trackers hmake
        split
        · exact nofun
        · exact nofun
        · rename_i hout
          exact absurd hout (initTrackers_terminates hnodup hmap (makeTrackers_get hmake).1)

end

/-! ## Runs of config updates -/

/-- The trackers of a config that was accepted, after any number of accepted updates between configs whose messages
have the same hash only if they are the same. -/
inductive Running (protoHash : AtomMatcher F → Option UInt64) : StatsdConfig F → Trackers F → Prop
  | init {config : StatsdConfig F} {s : Trackers F} : initAtomMatchingTrackers protoHash config = .ok s →
      Running protoHash config s
  | update {config config' : StatsdConfig F} {s s' : Trackers F} : Running protoHash config s →
      (∀ m ∈ config.atom_matcher, ∀ m' ∈ config'.atom_matcher, protoHash m = protoHash m' → m = m') →
      updateAtomMatchingTrackers protoHash config' s = .ok s' → Running protoHash config' s'

theorem Running.sound {protoHash : AtomMatcher F → Option UInt64} {config : StatsdConfig F} {s : Trackers F}
    (h : Running protoHash config s) : Sound protoHash config s := by
  induction h with
  | init hok => exact initAtomMatchingTrackers_sound hok
  | update _ hinj hok ih => exact ih.update hinj hok

end Statsd.Matchers
