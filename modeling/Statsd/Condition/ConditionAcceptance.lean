/-
Which predicates `initConditions` accepts: those of a well-formed config, whatever matchers they name. With the
matchers of a config it is one theorem.
-/
import Statsd.Condition.ConditionCreation
import Statsd.Condition.ConditionEvent
import Statsd.Matchers.MatcherAcceptance

namespace Statsd.Condition

open ConditionState Config

/-- A predicate that is valid on its own account. -/
def Valid (m : Predicate) : Prop :=
  match m.contents with
  | .CONTENTS_NOT_SET => False
  | .simple_predicate _ => True
  | .combination operation predicate => operation.isSome ∧ (operation = some .NOT → predicate.length = 1)

/-- The indices of the matchers that a simple predicate names. -/
def ownMatchers (matcherMap : UMap Int Nat) (m : Predicate) : Set Nat :=
  {k | ∃ c ∈ m.contents.matchers, matcherMap.lookup c = some k}

variable {matcherMap : UMap Int Nat}

theorem matcherIndex_eq {matcher : Option Int}
    (h : ∀ c ∈ matcher.toList, ∃ k, matcherMap.lookup c = some k) :
    matcherIndex matcher matcherMap = some (matcher.bind matcherMap.lookup) := by
  cases matcher with
  | none => rfl
  | some c =>
    obtain ⟨k, hk⟩ := h c (by simp)
    rw [matcherIndex, Option.bind_some, hk, Option.map_some]

theorem setMatcherIndices_eq {p : Config.SimplePredicate}
    (h : ∀ c ∈ p.matchers, ∃ k, matcherMap.lookup c = some k) (t : MatcherIndices) :
    setMatcherIndices p matcherMap t =
      ⟨p.start.bind matcherMap.lookup, p.stop.bind matcherMap.lookup, p.stop_all.bind matcherMap.lookup,
        (p.start.bind matcherMap.lookup).toFinset ∪ (p.stop.bind matcherMap.lookup).toFinset ∪
          (p.stop_all.bind matcherMap.lookup).toFinset⟩ := by
  unfold Config.SimplePredicate.matchers at h
  have hstart := matcherIndex_eq fun c hc => h c (List.mem_append_left _ (List.mem_append_left _ hc))
  have hstop := matcherIndex_eq fun c hc => h c (List.mem_append_left _ (List.mem_append_right _ hc))
  have hall := matcherIndex_eq fun c hc => h c (List.mem_append_right _ hc)
  unfold setMatcherIndices
  rw [hstart, hstop, hall]

theorem mem_setMatcherIndices {p : Config.SimplePredicate}
    (h : ∀ c ∈ p.matchers, ∃ k, matcherMap.lookup c = some k) (t : MatcherIndices) (k : Nat) :
    k ∈ (setMatcherIndices p matcherMap t).mTrackerIndex ↔ ∃ c ∈ p.matchers, matcherMap.lookup c = some k := by
  rw [setMatcherIndices_eq h]
  unfold Config.SimplePredicate.matchers
  simp only [Finset.mem_union, Option.mem_toFinset, Option.mem_def, Option.bind_eq_some_iff, List.mem_append,
    Option.mem_toList, or_and_right, exists_or]

section

variable {protoHash : Predicate → Option UInt64} {matcherMap : UMap Int Nat} {uninitialized : Nat → MatcherIndices}
  {predicates : List Predicate}

variable (matcherMap uninitialized) in
theorem createConditionTracker_isSome (i : Nat) {m : Predicate} (hserialize : (protoHash m).isSome) (hvalid : Valid m) :
    (createConditionTracker protoHash matcherMap uninitialized i m).isSome := by
  obtain ⟨hash, hhash⟩ := Option.isSome_iff_exists.1 hserialize
  unfold createConditionTracker
  unfold Valid at hvalid
  rw [hhash]
  cases hcontents : m.contents with
  | CONTENTS_NOT_SET =>
    rw [hcontents] at hvalid
    exact hvalid.elim
  | simple_predicate p => rfl
  | combination operation predicate => rfl

theorem Created.grounded {trackers : List ConditionTracker}
    (h : Created protoHash matcherMap uninitialized predicates trackers) (hvalid : ∀ m ∈ predicates, Valid m)
    {rank : Nat → Nat} (hrank : RanksChildren Predicate.id (·.contents.children) predicates rank)
    (hunique : (predicates.map (·.id)).Nodup) :
    (setup predicates (UMap.indexMap (predicates.map (·.id)))).Grounded (startEntries trackers) predicates.length rank := by
  intro i hi _
  have hm := List.getElem?_eq_getElem hi
  generalize predicates[i] = m at hm
  have hok := hvalid m (List.mem_of_getElem? hm)
  have hkind := (h.fresh i).kind
  have hnew := h.get i m hm
  unfold Valid at hok
  unfold createConditionTracker at hnew
  split at hnew
  · cases hnew
  · cases hcontents : m.contents with
    | CONTENTS_NOT_SET =>
      rw [hcontents] at hok
      exact hok.elim
    | simple_predicate p =>
      rw [hcontents] at hnew
      refine ⟨bare (startEntries trackers i), [], ?_, nofun⟩
      unfold startEntries at hkind ⊢
      rw [← Option.some.inj hnew] at hkind ⊢
      exact if_neg hkind.2
    | combination operation predicate =>
      rw [hcontents] at hok hnew
      obtain ⟨o, rfl⟩ := Option.isSome_iff_exists.1 hok.1
      have hchildren : ∀ c ∈ predicate, ∃ j, (UMap.indexMap (predicates.map (·.id))).lookup c = some j ∧
          j < predicates.length ∧ rank j < rank i := by
        intro c hc
        obtain ⟨j, hj, hlt⟩ := hrank i m hm c (by dsimp only; rw [hcontents]; exact hc)
        obtain ⟨m', hm', -⟩ := (lookup_iff_get hunique).1 hj
        exact ⟨j, hj, (List.getElem?_eq_some_iff.1 hm').1, hlt⟩
      obtain ⟨cs, hcs, hbelow⟩ := exists_indices hchildren
      have hnot : ¬ (o = .NOT ∧ predicate.length ≠ 1) := fun h => h.2 (hok.2 (congrArg some h.1))
      have hstart : startCombination predicates (UMap.indexMap (predicates.map (·.id))) i = some (o, cs.map some) := by
        unfold startCombination
        rw [hm, Option.map_some, hcontents]
        dsimp only
        rw [if_neg hnot, hcs]
      refine ⟨bare (setOperation o (startEntries trackers i)), cs, ?_, hbelow⟩
      unfold startEntries
      rw [← Option.some.inj hnew]
      unfold setup
      dsimp only
      rw [hstart]

theorem accepts_of_wellFormed (hserialize : ∀ m ∈ predicates, (protoHash m).isSome)
    (h : WellFormed Predicate.id (·.contents.children) Valid predicates) :
    ∃ s initialConditionCache,
      initConditions protoHash matcherMap uninitialized predicates = .ok (s, initialConditionCache) := by
  obtain ⟨trackers, hmake⟩ := makeTrackers_isSome (i := 0) fun i m hm =>
    createConditionTracker_isSome matcherMap uninitialized i (hserialize m hm) (h.valid m hm)
  obtain ⟨rank, hrank⟩ := h.exists_rank
  have hcreated := created_of_makeTrackers hmake
  have hlen := hcreated.length
  obtain ⟨q, hq⟩ := setup_lawful.initAll_succeeds (hcreated.grounded h.valid hrank h.unique)
    (setup_below h.unique) (show predicates.length < trackers.length + 1 by omega)
    (List.range trackers.length) (fun i hi => hlen ▸ List.mem_range.1 hi) (hcreated.inv_start _) rfl
  rw [← hcreated.initAll_eq] at hq
  unfold startEntries at hq
  unfold initConditions
  rw [hmake]
  dsimp only
  rw [if_pos h.unique, hq]
  exact ⟨_, _, rfl⟩

/-! ## What accepted predicates are made of -/

/-- The predicates, their conditions and the initial condition cache. -/
structure Accepted (indices : Nat → Config.SimplePredicate → MatcherIndices) (predicates : List Predicate) (s : Conditions)
    (initialConditionCache : List ConditionState) : Prop where
  ofConfig : OfConfig indices predicates s
  length : initialConditionCache.length = predicates.length
  evaluated : ∀ state ∈ initialConditionCache, state ≠ kNotEvaluated

theorem initConditions_accepted {s : Conditions} {initialConditionCache : List ConditionState}
    (hok : initConditions protoHash matcherMap uninitialized predicates = .ok (s, initialConditionCache)) :
    Accepted (fun i p => setMatcherIndices p matcherMap (uninitialized i)) predicates s initialConditionCache := by
  unfold initConditions at hok
  split at hok
  · cases hok
  · rename_i trackers hmake
    have h := created_of_makeTrackers hmake
    split at hok
    · rename_i hnodup
      split at hok
      · cases hok
      · cases hok
      · rename_i q hinit
        have hq := h.initialised hinit
        cases hok
        have hlen : ((List.range trackers.length).map fun i => (q.nodes i).tracker).length = trackers.length := by
          rw [List.length_map, List.length_range]
        refine ⟨h.ofConfig hq hnodup rfl, by rw [List.length_map, List.length_range, hlen, h.length], fun state hstate => ?_⟩
        obtain ⟨i, hi, rfl⟩ := List.mem_map.1 hstate
        rw [hlen] at hi
        exact cached_of_ready h.fresh hq.inv (hq.ready i (List.mem_range.1 hi))
    · cases hok

namespace OfConfig

variable {indices : Nat → Config.SimplePredicate → MatcherIndices} {s : Conditions} (h : OfConfig indices predicates s)
include h

theorem ranksChildren : ∃ rank, RanksChildren Predicate.id (·.contents.children) predicates rank := by
  obtain ⟨rank, hrank⟩ := h.ranked
  refine ⟨rank, fun i m hm c hc => ?_⟩
  have hmap := (h.made i m hm).contents.map_children
  obtain ⟨j, hji, hj⟩ := List.mem_map.1 (hmap ▸ List.mem_map_of_mem (f := s.conditionTrackerMap.lookup) hc)
  rw [h.map_eq] at hj
  exact ⟨j, hj.symm, hrank i j hji⟩

theorem valid : ∀ m ∈ predicates, Valid m := by
  intro m hm
  obtain ⟨i, hi⟩ := List.mem_iff_getElem?.1 hm
  have hcontents := (h.made i m hi).contents
  unfold Valid
  cases hc : m.contents with
  | CONTENTS_NOT_SET =>
    rw [hc] at hcontents
    exact hcontents
  | simple_predicate p => trivial
  | combination operation predicate =>
    rw [hc] at hcontents
    obtain ⟨o, rfl, -, hnot, -⟩ := hcontents
    exact ⟨rfl, fun ho => hnot (Option.some.inj ho)⟩

theorem wellFormed : WellFormed Predicate.id (·.contents.children) Valid predicates := by
  obtain ⟨rank, hrank⟩ := h.ranksChildren
  exact hrank.wellFormed h.nodup h.valid

end OfConfig

theorem OfConfig.mem_leaves {s : Conditions}
    (h : OfConfig (fun i p => setMatcherIndices p matcherMap (uninitialized i)) predicates s)
    (hresolved : Resolved matcherMap predicates) {i : Nat} {m : Predicate} (hm : predicates[i]? = some m) (k : Nat) :
    k ∈ (trackerAt s.mAllConditionTrackers i).mTrackerIndex ↔
      k ∈ leaves Predicate.id (·.contents.children) (ownMatchers matcherMap) predicates m.id := by
  obtain ⟨rank, hrank⟩ := h.ranksChildren
  refine mem_leaves_of_rank (S := fun i => {k | k ∈ (trackerAt s.mAllConditionTrackers i).mTrackerIndex}) hrank h.nodup
    (fun i m hm k => ?_) hm k
  have hcontents := (h.made i m hm).contents
  have hmem := hcontents.mem_children
  have hfound := hresolved m (List.mem_of_getElem? hm)
  unfold ownMatchers
  rw [Set.mem_ofPred_eq, ← h.map_eq]
  cases hc : m.contents with
  | CONTENTS_NOT_SET =>
    rw [hc] at hcontents
    exact hcontents.elim
  | simple_predicate p =>
    rw [hc] at hcontents hfound
    obtain ⟨-, hids, -⟩ := hcontents
    rw [hids, mem_setMatcherIndices hfound, Set.mem_ofPred_eq]
    simp [PredicateContents.children, PredicateContents.matchers, hc]
  | combination operation predicate =>
    rw [hc] at hcontents hmem
    obtain ⟨o, -, -, -, -, -, hids⟩ := hcontents
    rw [hids]
    constructor
    · rintro ⟨j, hj, hk⟩
      obtain ⟨c, hci, hcj⟩ := (hmem j).1 hj
      exact .inr ⟨c, hci, j, hcj, hk⟩
    · rintro (⟨c, hci, -⟩ | ⟨c, hci, j, hcj, hk⟩)
      · cases hci
      · exact ⟨j, (hmem j).2 ⟨c, hci, hcj⟩, hk⟩

end

/-- For every config, whatever its matchers and its predicates refer to: both initialisations terminate, and each
succeeds exactly when what it is given is well formed; then the children of an entry are the indices of the ids it
lists, what it collects is what its leaves have, and the initial condition cache is evaluated. Messages serialise, and
the simple predicates name matchers that exist. -/
theorem initialisation_accepts_iff {F : Type} (matcherHash : AtomMatcher F → Option UInt64)
    (predicateHash : Predicate → Option UInt64) (config : StatsdConfig F) (matcherMap : UMap Int Nat)
    (uninitialized : Nat → MatcherIndices) (hmatchers : ∀ m ∈ config.atom_matcher, (matcherHash m).isSome)
    (hpredicates : ∀ m ∈ config.predicate, (predicateHash m).isSome) (hresolved : Resolved matcherMap config.predicate) :
    (Matchers.initAtomMatchingTrackers matcherHash config ≠ .outOfFuel ∧
      ((∃ s, Matchers.initAtomMatchingTrackers matcherHash config = .ok s) ↔
        WellFormed AtomMatcher.id (·.contents.children) Matchers.Valid config.atom_matcher) ∧
      ∀ s, Matchers.initAtomMatchingTrackers matcherHash config = .ok s → ∀ i m, config.atom_matcher[i]? = some m →
        IndicesOf AtomMatcher.id config.atom_matcher m.contents.children
          (Matchers.trackerAt s.allAtomMatchingTrackers i).mChildren ∧
        ∀ a, a ∈ (Matchers.trackerAt s.allAtomMatchingTrackers i).mAtomIds ↔
          a ∈ leaves AtomMatcher.id (·.contents.children) Matchers.ownAtoms config.atom_matcher m.id) ∧
    (initConditions predicateHash matcherMap uninitialized config.predicate ≠ .outOfFuel ∧
      ((∃ s initialConditionCache,
          initConditions predicateHash matcherMap uninitialized config.predicate = .ok (s, initialConditionCache)) ↔
        WellFormed Predicate.id (·.contents.children) Valid config.predicate) ∧
      ∀ s initialConditionCache,
        initConditions predicateHash matcherMap uninitialized config.predicate = .ok (s, initialConditionCache) →
        (initialConditionCache.length = config.predicate.length ∧
          ∀ state ∈ initialConditionCache, state ≠ kNotEvaluated) ∧
        ∀ i m, config.predicate[i]? = some m →
          IndicesOf Predicate.id config.predicate m.contents.children (trackerAt s.mAllConditionTrackers i).mChildren ∧
          ∀ k, k ∈ (trackerAt s.mAllConditionTrackers i).mTrackerIndex ↔
            k ∈ leaves Predicate.id (·.contents.children) (ownMatchers matcherMap) config.predicate m.id) := by
  refine ⟨⟨Matchers.initAtomMatchingTrackers_terminates _ _, ⟨?_, Matchers.accepts_of_wellFormed hmatchers⟩, ?_⟩,
    initConditions_terminates, ⟨?_, accepts_of_wellFormed hpredicates⟩, ?_⟩
  · rintro ⟨s, hok⟩
    exact (Matchers.initAtomMatchingTrackers_sound hok).wellFormed
  · intro s hok i m hm
    have hsound := Matchers.initAtomMatchingTrackers_sound hok
    have hmap := (hsound.made i m hm).contents.map_children
    rw [hsound.map_eq] at hmap
    exact ⟨indicesOf_of_lookup hsound.nodup hmap, hsound.mem_leaves hm⟩
  · rintro ⟨s, initialConditionCache, hok⟩
    exact (initConditions_accepted hok).ofConfig.wellFormed
  · intro s initialConditionCache hok
    have haccepted := initConditions_accepted hok
    refine ⟨⟨haccepted.length, haccepted.evaluated⟩, fun i m hm => ?_⟩
    have hmap := (haccepted.ofConfig.made i m hm).contents.map_children
    rw [haccepted.ofConfig.map_eq] at hmap
    exact ⟨indicesOf_of_lookup haccepted.ofConfig.nodup hmap, haccepted.ofConfig.mem_leaves hresolved hm⟩

/-- A matcher that refers to itself is rejected, a negated predicate is accepted. -/
theorem initialisation_accepts_iff_loop :
    let config : StatsdConfig Unit :=
      ⟨[atomMatcher 1 10, ⟨2, .combination (some .OR) [1, 2]⟩], [startedBy 5 1, ⟨6, .combination (some .NOT) [5]⟩]⟩
    ¬ (∃ s, Matchers.initAtomMatchingTrackers (fun _ => some 0) config = .ok s) ∧
      ∃ s initialConditionCache, initConditions (fun _ => some 0) (UMap.indexMap [1, 2]) (fun _ => ⟨none, none, none, ∅⟩)
        config.predicate = .ok (s, initialConditionCache) := by
  intro config
  have hresolved : Resolved (UMap.indexMap [1, 2]) config.predicate := by
    intro m hm c hc
    simp only [config, List.mem_cons, List.not_mem_nil, or_false] at hm
    rcases hm with rfl | rfl
    · simp [startedBy, PredicateContents.matchers, SimplePredicate.matchers] at hc
      exact ⟨0, by rw [hc]; decide⟩
    · cases hc
  obtain ⟨⟨-, hmatchers, -⟩, -, hconditions, -⟩ := initialisation_accepts_iff (fun _ => some 0) (fun _ => some 0) config
    (UMap.indexMap [1, 2]) (fun _ => ⟨none, none, none, ∅⟩) (fun _ _ => rfl) (fun _ _ => rfl) hresolved
  refine ⟨fun h => ?_, hconditions.2 ?_⟩
  · have hself : Depends AtomMatcher.id (·.contents.children) config.atom_matcher 2 2 :=
      ⟨⟨2, .combination (some .OR) [1, 2]⟩, by simp [config], rfl, by simp [MatcherContents.children]⟩
    exact (hmatchers.1 h).acyclic 2 (.single hself)
  · have hrank : RanksChildren Predicate.id (·.contents.children) config.predicate id := by
      intro i m hm c hc
      rcases i with _ | _ | i
      · cases hm
        cases hc
      · cases hm
        exact ⟨0, by rw [List.mem_singleton.1 hc]; decide, Nat.zero_lt_one⟩
      · cases hm
    refine hrank.wellFormed (by decide) fun m hm => ?_
    simp only [config, List.mem_cons, List.not_mem_nil, or_false] at hm
    rcases hm with rfl | rfl
    · trivial
    · exact ⟨rfl, fun _ => rfl⟩

end Statsd.Condition
