/-
What the matchers of a config say about an event: a matcher none of whose simple matchers looks at the event's atom
says no, a simple matcher its own result, a combination the operation applied to what its children say (`Eval`).
The loop of the metrics manager computes that for every tracker, in whatever order it visits them, and after
whatever config updates.
-/
import Statsd.Base.Memo
import Statsd.Matchers.MatcherUpdate

namespace Statsd.Matchers

open Config

variable {F : Type}

/-! ## What is to be computed -/

/-- The atom ids of the simple matchers that a matcher is made of. -/
def atomIds (config : List (AtomMatcher F)) (id : Int) : Set Int :=
  {a | ∃ m ∈ config, ∃ s, Relation.ReflTransGen (Depends AtomMatcher.id (·.contents.children) config) id m.id ∧
    m.contents = .simple_atom_matcher s ∧ s.atom_id = some a}

/-- What the matcher of an id says about an event. -/
inductive Eval (matchesSimple : SimpleAtomMatcher F → LogEvent → Bool) (config : List (AtomMatcher F))
    (event : LogEvent) : Int → Bool → Prop
  | skipped {m : AtomMatcher F} : m ∈ config → event.tagId ∉ atomIds config m.id →
      Eval matchesSimple config event m.id false
  | simple {m : AtomMatcher F} {matcher : SimpleAtomMatcher F} : m ∈ config → event.tagId ∈ atomIds config m.id →
      m.contents = .simple_atom_matcher matcher → Eval matchesSimple config event m.id (matchesSimple matcher event)
  | combination {m : AtomMatcher F} {operation : LogicalOperation} {matcher : List Int} {value : Int → Bool} :
      m ∈ config → event.tagId ∈ atomIds config m.id → m.contents = .combination (some operation) matcher →
      (∀ c ∈ matcher, Eval matchesSimple config event c (value c)) →
      Eval matchesSimple config event m.id (operation.eval (matcher.map value))

/-! ## What is computed -/

/-- A tracker with its test of an event. -/
def Tracker.matching (matchesSimple : SimpleAtomMatcher F → LogEvent → Bool) (t : Tracker F) : AtomMatchingTracker where
  mAtomIds := t.mAtomIds
  kind :=
    match t.kind with
    | .simple mMatcher => .simple (matchesSimple mMatcher)
    | .combination mLogicalOperation => .combination mLogicalOperation t.mChildren

def Trackers.matching (matchesSimple : SimpleAtomMatcher F → LogEvent → Bool) (s : Trackers F) :
    List AtomMatchingTracker := s.allAtomMatchingTrackers.map (·.matching matchesSimple)

/-- The loop of the metrics manager, with the trackers in some order. -/
def matcherCacheIn (trackers : List AtomMatchingTracker) (order : List Nat) (event : LogEvent) : MatcherCache :=
  order.foldl (fun cache i => onLogEvent trackers event trackers.length i cache) fun _ => .kNotComputed

example (trackers : List AtomMatchingTracker) (event : LogEvent) :
    matcherCache trackers event = matcherCacheIn trackers (List.range trackers.length) event := rfl

/-- The evaluation as a memoised recursion. A tracker that does not look at the event's atom has no children to
visit. -/
def memo (trackers : List AtomMatchingTracker) (event : LogEvent) : Memo MatchingState where
  children i _ :=
    match trackers[i]? with
    | none => []
    | some t =>
      if event.tagId ∉ t.mAtomIds then []
      else
        match t.kind with
        | .simple _ => []
        | .combination _ children => children
  done a := decide (a ≠ .kNotComputed)
  node i cache :=
    match trackers[i]? with
    | none => .kNotMatched
    | some t =>
      if event.tagId ∉ t.mAtomIds then .kNotMatched
      else
        match t.kind with
        | .simple matchesSimple => matchingState (matchesSimple event)
        | .combination operation children => matchingState (combinationMatch children operation cache)

theorem matchingState_ne (b : Bool) : matchingState b ≠ .kNotComputed := by
  cases b <;> exact nofun

theorem matched_matchingState (b : Bool) : decide (matchingState b = .kMatched) = b := by
  cases b <;> rfl

section

variable {trackers : List AtomMatchingTracker} {event : LogEvent} {i : Nat} {t : AtomMatchingTracker}

theorem memo_none (ht : trackers[i]? = none) :
    (∀ a, (memo trackers event).children i a = []) ∧ ∀ cache, (memo trackers event).node i cache = .kNotMatched := by
  simp only [memo, ht, implies_true, and_self]

theorem memo_skipped (ht : trackers[i]? = some t) (hm : event.tagId ∉ t.mAtomIds) :
    (∀ a, (memo trackers event).children i a = []) ∧ ∀ cache, (memo trackers event).node i cache = .kNotMatched := by
  simp only [memo, ht, if_pos hm, implies_true, and_self]

theorem memo_simple {matchesSimple : LogEvent → Bool} (ht : trackers[i]? = some t) (hm : event.tagId ∈ t.mAtomIds)
    (hkind : t.kind = .simple matchesSimple) :
    (∀ a, (memo trackers event).children i a = []) ∧
      ∀ cache, (memo trackers event).node i cache = matchingState (matchesSimple event) := by
  simp only [memo, ht, hkind, if_neg (not_not.2 hm), implies_true, and_self]

theorem memo_combination {operation : LogicalOperation} {children : List Nat} (ht : trackers[i]? = some t)
    (hm : event.tagId ∈ t.mAtomIds) (hkind : t.kind = .combination operation children) :
    (∀ a, (memo trackers event).children i a = children) ∧
      ∀ cache, (memo trackers event).node i cache = matchingState (combinationMatch children operation cache) := by
  simp only [memo, ht, hkind, if_neg (not_not.2 hm), implies_true, and_self]

theorem visit_done {fuel : Nat} {cache : MatcherCache} (h : cache i ≠ .kNotComputed) :
    (memo trackers event).visit fuel i cache = cache := by
  cases fuel with
  | zero => rfl
  | succ fuel =>
    unfold Memo.visit
    exact if_pos (decide_eq_true h)

theorem foldl_visit_eq {fuel : Nat} (hvisit : ∀ i cache, i < trackers.length →
      onLogEvent trackers event fuel i cache = (memo trackers event).visit fuel i cache)
    (children : List Nat) (hc : ∀ c ∈ children, c < trackers.length) (cache : MatcherCache) :
    children.foldl (fun cache child =>
        if cache child = .kNotComputed then onLogEvent trackers event fuel child cache else cache) cache =
      children.foldl (fun cache child => (memo trackers event).visit fuel child cache) cache := by
  induction children generalizing cache with
  | nil => rfl
  | cons c children ih =>
    rw [List.foldl_cons, List.foldl_cons, ih fun d hd => hc d (List.mem_cons_of_mem _ hd)]
    congr 1
    split
    · exact hvisit c cache (hc c List.mem_cons_self)
    · rename_i hdone
      rw [visit_done hdone]

theorem onLogEvent_eq_visit (hbelow : ∀ t ∈ trackers, ∀ operation children, t.kind = .combination operation children →
      ∀ c ∈ children, c < trackers.length) (fuel i : Nat) (cache : MatcherCache) (hi : i < trackers.length) :
    onLogEvent trackers event fuel i cache = (memo trackers event).visit fuel i cache := by
  induction fuel generalizing i cache with
  | zero => rfl
  | succ fuel ih =>
    by_cases hdone : cache i = .kNotComputed
    · have hget : trackers[i]? = some trackers[i] := List.getElem?_eq_getElem hi
      unfold onLogEvent Memo.visit
      have hd : (memo trackers event).done (cache i) = false := decide_eq_false (not_not.2 hdone)
      rw [hget, hd]
      dsimp only
      rw [if_neg (not_not.2 hdone)]
      by_cases hm : event.tagId ∈ trackers[i].mAtomIds
      · rw [if_neg (not_not.2 hm)]
        cases hkind : trackers[i].kind with
        | simple matchesSimple =>
          obtain ⟨hc, hnode⟩ := memo_simple hget hm hkind
          rw [hc, hnode]
          rfl
        | combination operation children =>
          obtain ⟨hc, hnode⟩ := memo_combination hget hm hkind
          dsimp only
          rw [hc, hnode, foldl_visit_eq (fun j cache hj => ih j cache hj) children
            (hbelow _ (List.getElem_mem hi) operation children hkind)]
          rfl
      · obtain ⟨hc, hnode⟩ := memo_skipped hget hm
        rw [if_pos hm, hc, hnode]
        rfl
    · rw [visit_done hdone]
      unfold onLogEvent
      rw [List.getElem?_eq_getElem hi]
      exact if_pos hdone

end

/-! ## The trackers of a config compute what they should -/

theorem combinationMatch_congr {children : List Nat} {operation : LogicalOperation} {cache cache' : MatcherCache}
    (hcache : ∀ c ∈ children, cache c = cache' c) (hnot : operation = .NOT → children.length = 1) :
    combinationMatch children operation cache = combinationMatch children operation cache' := by
  have hall : (∀ c ∈ children, cache c = .kMatched) ↔ ∀ c ∈ children, cache' c = .kMatched :=
    forall₂_congr fun c hc => by rw [hcache c hc]
  have hany : (∃ c ∈ children, cache c = .kMatched) ↔ ∃ c ∈ children, cache' c = .kMatched :=
    exists_congr fun c => and_congr_right fun hc => by rw [hcache c hc]
  cases operation with
  | LOGICAL_OPERATION_UNSPECIFIED => rfl
  | AND =>
    rw [Bool.eq_iff_iff]
    simpa [combinationMatch] using hall
  | OR =>
    rw [Bool.eq_iff_iff]
    simpa [combinationMatch] using hany
  | NOR =>
    rw [Bool.eq_iff_iff]
    simpa [combinationMatch] using not_congr hany
  | NAND =>
    rw [Bool.eq_iff_iff]
    simpa [combinationMatch] using not_congr hall
  | NOT =>
    obtain ⟨c, rfl⟩ := List.length_eq_one_iff.1 (hnot rfl)
    have hc : decide (cache c = .kNotMatched) = decide (cache' c = .kNotMatched) := by
      rw [hcache c List.mem_cons_self]
    exact hc

theorem combinationMatch_eq {children : List Nat} {operation : LogicalOperation} {cache : MatcherCache}
    {value : Nat → Bool} (hcache : ∀ c ∈ children, cache c = matchingState (value c))
    (hnot : operation = .NOT → children.length = 1) :
    combinationMatch children operation cache = operation.eval (children.map value) := by
  have hvalue : (children.map fun c => decide (cache c = .kMatched)) = children.map value := by
    refine List.map_congr_left fun c hc => ?_
    rw [hcache c hc, matched_matchingState]
  have hall : (children.all fun c => decide (cache c = .kMatched)) = (children.map value).all id := by
    rw [← hvalue, List.all_map]
    rfl
  have hany : (children.any fun c => decide (cache c = .kMatched)) = (children.map value).any id := by
    rw [← hvalue, List.any_map]
    rfl
  cases operation with
  | LOGICAL_OPERATION_UNSPECIFIED => rfl
  | AND => exact hall
  | OR => exact hany
  | NOR => exact congrArg (!·) hany
  | NAND =>
    refine Eq.trans ?_ (congrArg (!·) hall)
    unfold combinationMatch
    dsimp only
    rw [List.not_all_eq_any_not]
    simp
  | NOT =>
    obtain ⟨c, rfl⟩ := List.length_eq_one_iff.1 (hnot rfl)
    have hc : decide (cache c = .kNotMatched) = !value c := by
      rw [hcache c List.mem_cons_self]
      cases value c <;> rfl
    exact hc

namespace Sound

variable {protoHash : AtomMatcher F → Option UInt64} {config : StatsdConfig F} {s : Trackers F} (h : Sound protoHash config s)
include h

variable {m : AtomMatcher F} {i : Nat}

theorem getElem? (hm : config.atom_matcher[i]? = some m) :
    s.allAtomMatchingTrackers[i]? = some (trackerAt s.allAtomMatchingTrackers i) := by
  have hlt : i < s.allAtomMatchingTrackers.length := h.length ▸ (List.getElem?_eq_some_iff.1 hm).1
  rw [trackerAt_of_get (List.getElem?_eq_getElem hlt), List.getElem?_eq_getElem hlt]

theorem lookup_iff {c : Int} {j : Nat} :
    s.atomMatchingTrackerMap.lookup c = some j ↔ ∃ m, config.atom_matcher[j]? = some m ∧ m.id = c := by
  rw [h.map_eq, UMap.lookup_indexMap h.nodup, List.getElem?_map, Option.map_eq_some_iff]

theorem eq_of_id {m m' : AtomMatcher F} (hm : m ∈ config.atom_matcher) (hm' : m' ∈ config.atom_matcher)
    (he : m.id = m'.id) : m = m' := eq_of_id_eq h.nodup hm hm' he

theorem child_index (hm : config.atom_matcher[i]? = some m) {c : Int}
    (hc : c ∈ m.contents.children) :
    ∃ j m', s.atomMatchingTrackerMap.lookup c = some j ∧ config.atom_matcher[j]? = some m' ∧ m'.id = c ∧
      j ∈ (trackerAt s.allAtomMatchingTrackers i).mChildren := by
  have hcontents := (h.made i m hm).contents
  obtain ⟨j, -, hj⟩ := List.mem_map.1
    (hcontents.map_children ▸ List.mem_map_of_mem (f := s.atomMatchingTrackerMap.lookup) hc)
  obtain ⟨m', hm', hid⟩ := h.lookup_iff.1 hj.symm
  exact ⟨j, m', hj.symm, hm', hid, (hcontents.mem_children j).2 ⟨c, hc, hj.symm⟩⟩

theorem mem_mAtomIds (hm : config.atom_matcher[i]? = some m) (a : Int) :
    a ∈ (trackerAt s.allAtomMatchingTrackers i).mAtomIds ↔ a ∈ atomIds config.atom_matcher m.id := by
  obtain ⟨rank, hrank⟩ := h.ranked
  induction hr : rank i using Nat.strong_induction_on generalizing i m with
  | _ r ih =>
    subst hr
    have hmem := List.mem_of_getElem? hm
    have hchild := fun c hc => h.child_index hm (c := c) hc
    have hcontents := (h.made i m hm).contents
    cases hkind : m.contents with
    | CONTENTS_NOT_SET =>
      rw [hkind] at hcontents
      exact hcontents.elim
    | simple_atom_matcher matcher =>
      rw [hkind] at hcontents hchild
      obtain ⟨-, -, b, hb, hids⟩ := hcontents
      rw [hids, Finset.mem_singleton]
      constructor
      · rintro rfl
        exact ⟨m, hmem, matcher, .refl, hkind, hb⟩
      · rintro ⟨m', hm', matcher', hreach, hkind', hb'⟩
        rcases Relation.ReflTransGen.cases_head hreach with he | ⟨c, ⟨m'', hm'', hid, hc⟩, -⟩
        · obtain rfl := h.eq_of_id hmem hm' he
          rw [hkind] at hkind'
          cases hkind'
          rw [hb] at hb'
          exact (Option.some.inj hb').symm
        · obtain rfl := h.eq_of_id hm'' hmem hid
          dsimp only at hc
          rw [hkind] at hc
          cases hc
    | combination operation matcher =>
      rw [hkind] at hcontents hchild
      obtain ⟨o, -, -, -, -, hids⟩ := hcontents
      rw [hids]
      constructor
      · rintro ⟨c, hc, j, hj, ha⟩
        obtain ⟨j', m', hj', hm', hid, hji⟩ := hchild c hc
        rw [hj] at hj'
        obtain rfl := Option.some.inj hj'
        rw [ih (rank j) (hrank i j hji) hm' rfl, hid] at ha
        obtain ⟨m'', hm'', matcher'', hreach, hrest⟩ := ha
        refine ⟨m'', hm'', matcher'', .head ⟨m, hmem, rfl, ?_⟩ hreach, hrest⟩
        dsimp only
        rw [hkind]
        exact hc
      · rintro ⟨m', hm', matcher', hreach, hkind', hb'⟩
        rcases Relation.ReflTransGen.cases_head hreach with he | ⟨c, ⟨m'', hm'', hid, hc⟩, hreach'⟩
        · obtain rfl := h.eq_of_id hmem hm' he
          rw [hkind] at hkind'
          cases hkind'
        · obtain rfl := h.eq_of_id hm'' hmem hid
          dsimp only at hc
          rw [hkind] at hc
          obtain ⟨j, m₁, hj, hm₁, hid₁, hji⟩ := hchild c hc
          refine ⟨c, hc, j, hj, ?_⟩
          rw [ih (rank j) (hrank i j hji) hm₁ rfl, hid₁]
          exact ⟨m', hm', matcher', hreach', hkind', hb'⟩

theorem getElem?_none (hm : config.atom_matcher[i]? = none) : s.allAtomMatchingTrackers[i]? = none := by
  rw [List.getElem?_eq_none_iff] at hm ⊢
  rw [h.length]
  exact hm

variable (matchesSimple : SimpleAtomMatcher F → LogEvent → Bool)

theorem getElem?_matching (hm : config.atom_matcher[i]? = some m) :
    (s.matching matchesSimple)[i]? = some ((trackerAt s.allAtomMatchingTrackers i).matching matchesSimple) := by
  unfold Trackers.matching
  rw [List.getElem?_map, h.getElem? hm]
  rfl

/-- What the memoised evaluation of the trackers looks like, by the matcher at an index: the event is skipped, or the
node is that of the contents. -/
theorem memo_cases (hm : config.atom_matcher[i]? = some m) (event : LogEvent) :
    (event.tagId ∉ atomIds config.atom_matcher m.id ∧
        (∀ a, (memo (s.matching matchesSimple) event).children i a = []) ∧
        ∀ cache, (memo (s.matching matchesSimple) event).node i cache = .kNotMatched) ∨
    (event.tagId ∈ atomIds config.atom_matcher m.id ∧
      ((∃ matcher, m.contents = .simple_atom_matcher matcher ∧
          (∀ a, (memo (s.matching matchesSimple) event).children i a = []) ∧
          ∀ cache, (memo (s.matching matchesSimple) event).node i cache =
            matchingState (matchesSimple matcher event)) ∨
        ∃ operation matcher, m.contents = .combination (some operation) matcher ∧
          (operation = .NOT → matcher.length = 1) ∧
          matcher.map s.atomMatchingTrackerMap.lookup = (trackerAt s.allAtomMatchingTrackers i).mChildren.map some ∧
          (∀ a, (memo (s.matching matchesSimple) event).children i a =
            (trackerAt s.allAtomMatchingTrackers i).mChildren) ∧
          ∀ cache, (memo (s.matching matchesSimple) event).node i cache =
            matchingState (combinationMatch (trackerAt s.allAtomMatchingTrackers i).mChildren operation cache))) := by
  have hget := h.getElem?_matching matchesSimple hm
  have hids := h.mem_mAtomIds hm event.tagId
  have hcontents := (h.made i m hm).contents
  by_cases hin : event.tagId ∈ (trackerAt s.allAtomMatchingTrackers i).mAtomIds
  · refine .inr ⟨hids.1 hin, ?_⟩
    cases hkind : m.contents with
    | CONTENTS_NOT_SET =>
      rw [hkind] at hcontents
      exact hcontents.elim
    | simple_atom_matcher matcher =>
      rw [hkind] at hcontents
      refine .inl ⟨matcher, rfl, memo_simple hget hin ?_⟩
      unfold Tracker.matching
      rw [hcontents.1]
    | combination operation matcher =>
      rw [hkind] at hcontents
      obtain ⟨o, rfl, hcombination, hnot, hmap, -⟩ := hcontents
      refine .inr ⟨o, matcher, rfl, hnot, hmap, memo_combination hget hin ?_⟩
      unfold Tracker.matching
      rw [hcombination]
  · exact .inl ⟨fun ha => hin (hids.2 ha), memo_skipped hget hin⟩

theorem index_lt {c : Nat} (hc : c ∈ (trackerAt s.allAtomMatchingTrackers i).mChildren) :
    c < config.atom_matcher.length := by
  cases hm : config.atom_matcher[i]? with
  | none =>
    rw [trackerAt_of_le (List.getElem?_eq_none_iff.1 (h.getElem?_none hm))] at hc
    cases hc
  | some m =>
    obtain ⟨d, -, hd⟩ := ((h.made i m hm).contents.mem_children c).1 hc
    obtain ⟨m', hm', -⟩ := h.lookup_iff.1 hd
    exact (List.getElem?_eq_some_iff.1 hm').1

theorem memo_lawful (event : LogEvent) :
    ∃ rank : Nat → Nat, (∀ i < config.atom_matcher.length, rank i < config.atom_matcher.length) ∧
      (memo (s.matching matchesSimple) event).Lawful rank fun _ => .kNotComputed := by
  obtain ⟨rank₀, hrank₀⟩ := h.ranked
  obtain ⟨rank, hrank⟩ := Memo.exists_rank_lt
    (fun i (_ : i < config.atom_matcher.length) c hc => ⟨h.index_lt hc, hrank₀ i c hc⟩)
  have hnone : ∀ i, config.atom_matcher[i]? = none →
      (∀ a, (memo (s.matching matchesSimple) event).children i a = []) ∧
        ∀ cache, (memo (s.matching matchesSimple) event).node i cache = .kNotMatched := by
    intro i hm
    refine memo_none ?_
    unfold Trackers.matching
    rw [List.getElem?_map, h.getElem?_none hm]
    rfl
  refine ⟨rank, fun i hi => (hrank i hi).1, fun i c hc => ?_, fun _ => rfl, fun i cache cache' _ _ hcache => ?_,
    fun i cache _ _ => ?_⟩
  · cases hm : config.atom_matcher[i]? with
    | none =>
      rw [(hnone i hm).1] at hc
      cases hc
    | some m =>
      rcases h.memo_cases matchesSimple hm event with ⟨-, hchildren, -⟩ | ⟨-, ⟨_, -, hchildren, -⟩ | hcombination⟩
      · rw [hchildren] at hc
        cases hc
      · rw [hchildren] at hc
        cases hc
      · obtain ⟨_, _, -, -, -, hchildren, -⟩ := hcombination
        rw [hchildren] at hc
        exact (hrank i (List.getElem?_eq_some_iff.1 hm).1).2 c hc
  · cases hm : config.atom_matcher[i]? with
    | none => rw [(hnone i hm).2, (hnone i hm).2]
    | some m =>
      rcases h.memo_cases matchesSimple hm event with ⟨-, -, hnode⟩ | ⟨-, ⟨_, -, -, hnode⟩ | hcombination⟩
      · rw [hnode, hnode]
      · rw [hnode, hnode]
      · obtain ⟨operation, matcher, -, hnot, hmap, hchildren, hnode⟩ := hcombination
        rw [hchildren] at hcache
        have hlen := congrArg List.length hmap
        rw [List.length_map, List.length_map] at hlen
        rw [hnode, hnode, combinationMatch_congr hcache fun ho => by rw [← hlen, hnot ho]]
  · refine decide_eq_true ?_
    cases hm : config.atom_matcher[i]? with
    | none =>
      rw [(hnone i hm).2]
      exact nofun
    | some m =>
      rcases h.memo_cases matchesSimple hm event with ⟨-, -, hnode⟩ | ⟨-, ⟨_, -, -, hnode⟩ | hcombination⟩
      · rw [hnode]
        exact nofun
      · rw [hnode]
        exact matchingState_ne _
      · obtain ⟨_, _, -, -, -, -, hnode⟩ := hcombination
        rw [hnode]
        exact matchingState_ne _

theorem value_eval {event : LogEvent} {rank : Nat → Nat}
    (hlawful : (memo (s.matching matchesSimple) event).Lawful rank fun _ => .kNotComputed) (hm : config.atom_matcher[i]? = some m) :
    ∃ b, (∀ b', Eval matchesSimple config.atom_matcher event m.id b' ↔ b' = b) ∧
      (memo (s.matching matchesSimple) event).value rank (fun _ => .kNotComputed) i = matchingState b := by
  induction hr : rank i using Nat.strong_induction_on generalizing i m with
  | _ r ih =>
    subst hr
    have hmem := List.mem_of_getElem? hm
    have hchild := fun c hc => h.child_index hm (c := c) hc
    have hself := hlawful.not_mem_children i
    let cache : MatcherCache := fun j =>
      if j ∈ (memo (s.matching matchesSimple) event).children i .kNotComputed then
        (memo (s.matching matchesSimple) event).value rank (fun _ => .kNotComputed) j
      else .kNotComputed
    have hvalue := hlawful.value_eq (i := i) (s := cache) (if_neg hself) fun c hc => if_pos hc
    rw [hvalue]
    rcases h.memo_cases matchesSimple hm event with ⟨hskip, -, hnode⟩ | ⟨hin, ⟨matcher, hkind, -, hnode⟩ | hcombination⟩
    · refine ⟨false, fun b' => ⟨fun he => ?_, ?_⟩, hnode cache⟩
      · generalize hid : m.id = id at he
        cases he with
        | skipped _ _ => rfl
        | simple _ hin _ => exact absurd (hid ▸ hin) hskip
        | combination _ hin _ _ => exact absurd (hid ▸ hin) hskip
      · rintro rfl
        exact .skipped hmem hskip
    · refine ⟨matchesSimple matcher event, fun b' => ⟨fun he => ?_, ?_⟩, hnode cache⟩
      · generalize hid : m.id = id at he
        cases he with
        | skipped _ hskip => exact absurd (hid ▸ hin) hskip
        | simple hm' _ hkind' =>
          obtain rfl := h.eq_of_id hmem hm' hid
          rw [hkind] at hkind'
          cases hkind'
          rfl
        | combination hm' _ hkind' _ =>
          obtain rfl := h.eq_of_id hmem hm' hid
          rw [hkind] at hkind'
          cases hkind'
      · rintro rfl
        exact .simple hmem hin hkind
    · obtain ⟨operation, matcher, hkind, hnot, hmap, hchildren, hnode⟩ := hcombination
      rw [hkind] at hchild
      -- what the children say, by their ids
      let said : Option Nat → Bool := fun j =>
        decide ((memo (s.matching matchesSimple) event).value rank (fun _ => .kNotComputed) (j.getD 0) = .kMatched)
      have hsaid : ∀ c ∈ matcher, ∃ j, s.atomMatchingTrackerMap.lookup c = some j ∧
          j ∈ (trackerAt s.allAtomMatchingTrackers i).mChildren ∧
          (∀ b', Eval matchesSimple config.atom_matcher event c b' ↔
            b' = said (s.atomMatchingTrackerMap.lookup c)) ∧
          cache j = matchingState (said (some j)) := by
        intro c hc
        obtain ⟨j, m', hj, hm', rfl, hji⟩ := hchild c hc
        have hlt := hlawful.rank_lt i j (by rw [hchildren]; exact hji)
        obtain ⟨b, hb, hv⟩ := ih (rank j) hlt hm' rfl
        have hs : said (some j) = b :=
          (congrArg (fun x : MatchingState => decide (x = .kMatched)) hv).trans (matched_matchingState b)
        refine ⟨j, hj, hji, fun b' => ?_, ?_⟩
        · rw [hb, hj, hs]
        · rw [hs, ← hv]
          exact if_pos (by rw [hchildren]; exact hji)
      have hcache : ∀ j ∈ (trackerAt s.allAtomMatchingTrackers i).mChildren, cache j = matchingState (said (some j)) := by
        intro j hj
        obtain ⟨c, hc, hcj⟩ := List.mem_map.1 (hmap ▸ List.mem_map_of_mem (f := some) hj)
        obtain ⟨j', hj', -, -, heq⟩ := hsaid c hc
        rw [hcj] at hj'
        obtain rfl := Option.some.inj hj'
        exact heq
      have hlen := congrArg List.length hmap
      rw [List.length_map, List.length_map] at hlen
      have hlist : (trackerAt s.allAtomMatchingTrackers i).mChildren.map (fun j => said (some j)) =
          matcher.map fun c => said (s.atomMatchingTrackerMap.lookup c) := by
        have := congrArg (List.map said) hmap
        rw [List.map_map, List.map_map] at this
        exact this.symm
      refine ⟨operation.eval (matcher.map fun c => said (s.atomMatchingTrackerMap.lookup c)), fun b' => ⟨fun he => ?_, ?_⟩, ?_⟩
      · generalize hid : m.id = id at he
        cases he with
        | skipped _ hskip => exact absurd (hid ▸ hin) hskip
        | simple hm' _ hkind' =>
          obtain rfl := h.eq_of_id hmem hm' hid
          rw [hkind] at hkind'
          cases hkind'
        | combination hm' _ hkind' hall =>
          obtain rfl := h.eq_of_id hmem hm' hid
          rw [hkind] at hkind'
          cases hkind'
          congr 1
          refine List.map_congr_left fun c hc => ?_
          obtain ⟨-, -, -, hiff, -⟩ := hsaid c hc
          exact (hiff _).1 (hall c hc)
      · rintro rfl
        refine .combination hmem hin hkind fun c hc => ?_
        obtain ⟨-, -, -, hiff, -⟩ := hsaid c hc
        exact (hiff _).2 rfl
      · rw [hnode, combinationMatch_eq hcache fun ho => by rw [← hlen, hnot ho], hlist]

end Sound

/-- For every config that was accepted, on its own or as an update of another one, and every event: the loop of the
metrics manager, with the trackers visited in any order, leaves for every matcher what it says about the event. The
tracker of a matcher has its position in the config as its index. -/
theorem matcherCache_eval (protoHash : AtomMatcher F → Option UInt64)
    (matchesSimple : SimpleAtomMatcher F → LogEvent → Bool) {config : StatsdConfig F} {s : Trackers F}
    (h : Running protoHash config s) (event : LogEvent) (order : List Nat)
    (horder : ∀ i, i ∈ order ↔ i < config.atom_matcher.length) (i : Nat) (m : AtomMatcher F)
    (hm : config.atom_matcher[i]? = some m) :
    (∃ t, s.allAtomMatchingTrackers[i]? = some t ∧ t.mId = m.id ∧ t.mIndex = i) ∧
    ∃ b, (∀ b', Eval matchesSimple config.atom_matcher event m.id b' ↔ b' = b) ∧
      matcherCacheIn (s.matching matchesSimple) order event i = if b then .kMatched else .kNotMatched := by
  have hsound := h.sound
  refine ⟨⟨_, hsound.getElem? hm, (hsound.made i m hm).id, (hsound.made i m hm).index⟩, ?_⟩
  obtain ⟨rank, hrank, hlawful⟩ := hsound.memo_lawful matchesSimple event
  obtain ⟨b, hb, hvalue⟩ := hsound.value_eval matchesSimple hlawful hm
  refine ⟨b, hb, ?_⟩
  have hlen : (s.matching matchesSimple).length = config.atom_matcher.length := by
    unfold Trackers.matching
    rw [List.length_map, hsound.length]
  have hbelow : ∀ t ∈ s.matching matchesSimple, ∀ operation children, t.kind = .combination operation children →
      ∀ c ∈ children, c < (s.matching matchesSimple).length := by
    intro t ht operation children hkind c hc
    obtain ⟨t', ht', rfl⟩ := List.mem_map.1 ht
    obtain ⟨j, hj⟩ := List.mem_iff_getElem?.1 ht'
    rw [← trackerAt_of_get hj] at hkind
    rw [hlen]
    refine hsound.index_lt (i := j) ?_
    unfold Tracker.matching at hkind
    dsimp only at hkind
    split at hkind
    · cases hkind
    · cases hkind
      exact hc
  -- the loop is a run of visits
  have hloop : ∀ (l : List Nat), (∀ j ∈ l, j < config.atom_matcher.length) → ∀ cache : MatcherCache,
      l.foldl (fun cache i => onLogEvent (s.matching matchesSimple) event (s.matching matchesSimple).length i cache) cache =
        l.foldl (fun cache i => (memo (s.matching matchesSimple) event).visit (s.matching matchesSimple).length i cache)
          cache := by
    intro l
    induction l with
    | nil => exact fun _ _ => rfl
    | cons j l ih =>
      intro hl cache
      rw [List.foldl_cons, List.foldl_cons, onLogEvent_eq_visit hbelow _ j cache (hlen ▸ hl j List.mem_cons_self)]
      exact ih (fun k hk => hl k (List.mem_cons_of_mem _ hk)) _
  unfold matcherCacheIn
  rw [hloop order (fun j hj => (horder j).1 hj)]
  have hall := (hlawful.visitAll_spec (s.matching matchesSimple).length order
    (fun j hj => hlen ▸ hrank j ((horder j).1 hj)) (s := fun _ => .kNotComputed) fun j => .inl rfl).2.1 i
    ((horder i).2 (List.getElem?_eq_some_iff.1 hm).1)
  rw [hall, hvalue]
  rfl

/-- A negation that an update moves before the matcher it negates. -/
theorem matcherCache_eval_updated :
    let negation : AtomMatcher Unit := ⟨2, .combination (some .NOT) [1]⟩
    let old : StatsdConfig Unit := ⟨[atomMatcher 1 10, negation], []⟩
    let new : StatsdConfig Unit := ⟨[negation, atomMatcher 1 10], []⟩
    ∃ s, Running (fun m => some (UInt64.ofInt m.id)) new s ∧
      ∃ b, (∀ b', Eval (fun _ _ => true) new.atom_matcher ⟨10, 0, []⟩ 2 b' ↔ b' = b) ∧
        matcherCacheIn (s.matching fun _ _ => true) [1, 0] ⟨10, 0, []⟩ 0 = if b then .kMatched else .kNotMatched := by
  intro negation old new
  have hold : initAtomMatchingTrackers (fun m => some (UInt64.ofInt m.id)) old =
      .ok ⟨UMap.indexMap [1, 2], [⟨1, 0, true, {10}, 1, .simple ⟨some 10, ()⟩, []⟩,
        ⟨2, 1, true, {10}, 2, .combination .NOT, [0]⟩]⟩ := rfl
  have hnew : updateAtomMatchingTrackers (fun m => some (UInt64.ofInt m.id)) new
      ⟨UMap.indexMap [1, 2], [⟨1, 0, true, {10}, 1, .simple ⟨some 10, ()⟩, []⟩,
        ⟨2, 1, true, {10}, 2, .combination .NOT, [0]⟩]⟩ =
      .ok ⟨UMap.indexMap [2, 1], [⟨2, 0, true, {10}, 2, .combination .NOT, [1]⟩,
        ⟨1, 1, true, {10}, 1, .simple ⟨some 10, ()⟩, []⟩]⟩ := rfl
  have hinj : ∀ m ∈ old.atom_matcher, ∀ m' ∈ new.atom_matcher,
      some (UInt64.ofInt m.id) = some (UInt64.ofInt m'.id) → m = m' := by
    intro m hm m' hm' he
    simp only [old, new, List.mem_cons, List.not_mem_nil, or_false] at hm hm'
    rcases hm with rfl | rfl <;> rcases hm' with rfl | rfl
    · exact absurd he (by decide)
    · rfl
    · rfl
    · exact absurd he (by decide)
  have hrunning := (Running.init hold).update hinj hnew
  exact ⟨_, hrunning, (matcherCache_eval _ (fun _ _ => true) hrunning ⟨10, 0, []⟩ [1, 0]
    (fun i => by simp [new]; omega) 0 negation rfl).2⟩

end Statsd.Matchers
