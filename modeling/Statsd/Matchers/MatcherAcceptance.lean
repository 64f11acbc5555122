/-
Which matchers `initAtomMatchingTrackers` accepts: those of a well-formed config. What the trackers are then made of is
`Sound`.
-/
import Statsd.Base.GraphComplete
import Statsd.Config.References
import Statsd.Matchers.MatcherInit

namespace Statsd.Matchers

open Config

variable {F : Type}

/-- A matcher that is valid on its own account. -/
def Valid (m : AtomMatcher F) : Prop :=
  match m.contents with
  | .CONTENTS_NOT_SET => False
  | .simple_atom_matcher matcher => matcher.atom_id.isSome
  | .combination operation matcher => operation.isSome ∧ (operation = some .NOT → matcher.length = 1)

/-- The atoms that a simple matcher looks at. -/
def ownAtoms (m : AtomMatcher F) : Set Int := {a | ∃ s, m.contents = .simple_atom_matcher s ∧ s.atom_id = some a}

section

variable {protoHash : AtomMatcher F → Option UInt64} {config : StatsdConfig F}

theorem createAtomMatchingTracker_isSome {i : Nat} {m : AtomMatcher F} (hserialize : (protoHash m).isSome)
    (hvalid : Valid m) : (createAtomMatchingTracker protoHash i m).isSome := by
  obtain ⟨hash, hhash⟩ := Option.isSome_iff_exists.1 hserialize
  unfold createAtomMatchingTracker
  unfold Valid at hvalid
  rw [hhash]
  cases hcontents : m.contents with
  | CONTENTS_NOT_SET =>
    rw [hcontents] at hvalid
    exact hvalid.elim
  | simple_atom_matcher matcher => rfl
  | combination operation matcher => rfl

theorem setup_grounded {trackers : List (Tracker F)}
    (hmake : makeTrackers (createAtomMatchingTracker protoHash) 0 config.atom_matcher = some trackers)
    (hvalid : ∀ m ∈ config.atom_matcher, Valid m) {rank : Nat → Nat}
    (hrank : RanksChildren AtomMatcher.id (·.contents.children) config.atom_matcher rank)
    (hunique : (config.atom_matcher.map (·.id)).Nodup) :
    (setup config.atom_matcher (UMap.indexMap (config.atom_matcher.map (·.id)))).Grounded (trackerAt trackers)
      config.atom_matcher.length rank := by
  intro i hi hready
  have hm := List.getElem?_eq_getElem hi
  generalize config.atom_matcher[i] = m at hm
  have hok := hvalid m (List.mem_of_getElem? hm)
  have hnew := trackerAt_of_makeTrackers hmake hm
  unfold Valid at hok
  unfold createAtomMatchingTracker at hnew
  split at hnew
  · cases hnew
  · rename_i hash hhash
    cases hcontents : m.contents with
    | CONTENTS_NOT_SET =>
      rw [hcontents] at hok
      exact hok.elim
    | simple_atom_matcher matcher =>
      -- such a tracker is ready from the start
      rw [hcontents] at hok hnew
      rw [← Option.some.inj hnew] at hready
      exact absurd (hready.symm.trans hok) Bool.false_ne_true
    | combination operation matcher =>
      rw [hcontents] at hok hnew
      obtain ⟨o, rfl⟩ := Option.isSome_iff_exists.1 hok.1
      have hchildren : ∀ c ∈ matcher, ∃ j, (UMap.indexMap (config.atom_matcher.map (·.id))).lookup c = some j ∧
          j < config.atom_matcher.length ∧ rank j < rank i := by
        intro c hc
        obtain ⟨j, hj, hlt⟩ := hrank i m hm c (by dsimp only; rw [hcontents]; exact hc)
        exact ⟨j, hj, lt_of_lookup hunique rfl hj, hlt⟩
      obtain ⟨cs, hcs, hbelow⟩ : ∃ cs : List Nat,
          matcher.map (UMap.indexMap (config.atom_matcher.map (·.id))).lookup = cs.map some ∧
            ∀ c ∈ cs, c < config.atom_matcher.length ∧ rank c < rank i := exists_indices hchildren
      have hnot : ¬ (o = .NOT ∧ matcher.length ≠ 1) := fun h => h.2 (hok.2 (congrArg some h.1))
      refine ⟨⟨m.id, i, false, ∅, hash, .combination o, []⟩, cs, ?_, hbelow⟩
      rw [← Option.some.inj hnew]
      unfold setup
      dsimp only
      rw [hm, Option.map_some, hcontents]
      dsimp only
      rw [if_neg hnot, hcs]

theorem accepts_of_wellFormed (hserialize : ∀ m ∈ config.atom_matcher, (protoHash m).isSome)
    (h : WellFormed AtomMatcher.id (·.contents.children) Valid config.atom_matcher) :
    ∃ s, initAtomMatchingTrackers protoHash config = .ok s := by
  obtain ⟨trackers, hmake⟩ := makeTrackers_isSome (i := 0) fun i m hm =>
    createAtomMatchingTracker_isSome (i := i) (hserialize m hm) (h.valid m hm)
  obtain ⟨rank, hrank⟩ := h.exists_rank
  have hlen := (makeTrackers_get hmake).1
  obtain ⟨q, hq⟩ := (setup_lawful _ _).initAll_succeeds (setup_grounded hmake h.valid hrank h.unique)
    (setup_below h.unique rfl) (show config.atom_matcher.length < trackers.length + 1 by omega)
    (List.range trackers.length) (fun i hi => hlen ▸ List.mem_range.1 hi)
    (Setup.Lawful.inv_start (ranked_of_makeTrackers hmake)) rfl
  unfold initAtomMatchingTrackers initTrackers indices
  rw [hmake, if_pos h.unique]
  dsimp only
  rw [hq]
  exact ⟨_, rfl⟩

namespace Sound

variable {s : Trackers F} (h : Sound protoHash config s)
include h

theorem ranksChildren : ∃ rank, RanksChildren AtomMatcher.id (·.contents.children) config.atom_matcher rank := by
  obtain ⟨rank, hrank⟩ := h.ranked
  refine ⟨rank, fun i m hm c hc => ?_⟩
  have hmap := (h.made i m hm).contents.map_children
  obtain ⟨j, hji, hj⟩ := List.mem_map.1 (hmap ▸ List.mem_map_of_mem (f := s.atomMatchingTrackerMap.lookup) hc)
  rw [h.map_eq] at hj
  exact ⟨j, hj.symm, hrank i j hji⟩

theorem valid : ∀ m ∈ config.atom_matcher, Valid m := by
  intro m hm
  obtain ⟨i, hi⟩ := List.mem_iff_getElem?.1 hm
  have hcontents := (h.made i m hi).contents
  unfold Valid
  cases hc : m.contents with
  | CONTENTS_NOT_SET =>
    rw [hc] at hcontents
    exact hcontents
  | simple_atom_matcher matcher =>
    rw [hc] at hcontents
    obtain ⟨-, -, a, ha, -⟩ := hcontents
    exact Option.isSome_iff_exists.2 ⟨a, ha⟩
  | combination operation matcher =>
    rw [hc] at hcontents
    obtain ⟨o, rfl, -, hnot, -⟩ := hcontents
    exact ⟨rfl, fun ho => hnot (Option.some.inj ho)⟩

theorem wellFormed : WellFormed AtomMatcher.id (·.contents.children) Valid config.atom_matcher := by
  obtain ⟨rank, hrank⟩ := h.ranksChildren
  exact hrank.wellFormed h.nodup h.valid

theorem mem_leaves {i : Nat} {m : AtomMatcher F} (hm : config.atom_matcher[i]? = some m) (a : Int) :
    a ∈ (trackerAt s.allAtomMatchingTrackers i).mAtomIds ↔
      a ∈ leaves AtomMatcher.id (·.contents.children) ownAtoms config.atom_matcher m.id := by
  obtain ⟨rank, hrank⟩ := h.ranksChildren
  refine mem_leaves_of_rank (S := fun i => {a | a ∈ (trackerAt s.allAtomMatchingTrackers i).mAtomIds}) hrank h.nodup
    (fun i m hm a => ?_) hm a
  have hcontents := (h.made i m hm).contents
  unfold ownAtoms
  rw [Set.mem_ofPred_eq, ← h.map_eq]
  cases hc : m.contents with
  | CONTENTS_NOT_SET =>
    rw [hc] at hcontents
    exact hcontents.elim
  | simple_atom_matcher matcher =>
    rw [hc] at hcontents
    obtain ⟨-, -, b, hb, hids⟩ := hcontents
    rw [hids]
    simp [MatcherContents.children, hb, eq_comm]
  | combination operation matcher =>
    rw [hc] at hcontents
    obtain ⟨o, -, -, -, -, hids⟩ := hcontents
    rw [hids]
    simp [MatcherContents.children]

end Sound

end

end Statsd.Matchers
