/-
The conditions of an accepted config: what stays the same in every event, and what an unsliced condition keeps
between events. A simple one keeps its count of starts under the default key, a combination its value.
-/
import Statsd.Base.Memo
import Statsd.Condition.ConditionInit

namespace Statsd.Condition

open ConditionState

theorem trackerAt_of_get {trackers : List ConditionTracker} {i : Nat} {t : ConditionTracker}
    (h : trackers[i]? = some t) : trackerAt trackers i = t := by
  unfold trackerAt
  rw [List.getD_eq_getElem?_getD, h]
  rfl

theorem trackerAt_of_le {trackers : List ConditionTracker} {i : Nat} (h : trackers.length ≤ i) :
    trackerAt trackers i = default := by
  unfold trackerAt
  rw [List.getD_eq_getElem?_getD, List.getElem?_eq_none h]
  rfl

/-! ## The table of conditions by matcher -/

theorem mem_foldl_push (i : Nat) (ks : List Nat) (map : UMap Nat (List Nat)) (k j : Nat) :
    j ∈ UMap.getD (ks.foldl (fun map k => map.push k i) map) k [] ↔ j ∈ UMap.getD map k [] ∨ j = i ∧ k ∈ ks := by
  induction ks generalizing map with
  | nil => simp
  | cons k' ks ih =>
    rw [List.foldl_cons, ih, UMap.mem_getD_push, List.mem_cons]
    tauto

theorem mem_trackerToConditionMap (trackers : List ConditionTracker) (k i : Nat) :
    i ∈ UMap.getD (trackerToConditionMap trackers) k [] ↔
      i < trackers.length ∧ k ∈ (trackerAt trackers i).mTrackerIndex := by
  have hall : ∀ (l : List Nat) (map : UMap Nat (List Nat)),
      i ∈ UMap.getD (l.foldl (fun map i => ((trackerAt trackers i).mTrackerIndex.sort (· ≤ ·)).foldl
        (fun map k => map.push k i) map) map) k [] ↔
      i ∈ UMap.getD map k [] ∨ i ∈ l ∧ k ∈ (trackerAt trackers i).mTrackerIndex := by
    intro l
    induction l with
    | nil => intro map; simp
    | cons j l ih =>
      intro map
      rw [List.foldl_cons, ih, mem_foldl_push, Finset.mem_sort, List.mem_cons]
      constructor
      · rintro ((h | ⟨rfl, hk⟩) | ⟨hl, hk⟩)
        · exact .inl h
        · exact .inr ⟨.inl rfl, hk⟩
        · exact .inr ⟨.inr hl, hk⟩
      · rintro (h | ⟨rfl | hl, hk⟩)
        · exact .inl (.inl h)
        · exact .inl (.inr ⟨rfl, hk⟩)
        · exact .inr ⟨hl, hk⟩
  unfold trackerToConditionMap
  rw [hall, UMap.getD_empty, List.mem_range]
  simp

theorem conditionToBeEvaluated_iff (s : Conditions) (matcherCache : Nat → MatchingState) (i : Nat) :
    conditionToBeEvaluated s matcherCache i = true ↔
      ∃ k, matcherCache k = .kMatched ∧ i ∈ UMap.getD s.mTrackerToConditionMap k [] := by
  unfold conditionToBeEvaluated
  rw [List.any_eq_true]
  constructor
  · rintro ⟨pair, hpair, h⟩
    rw [Bool.and_eq_true, decide_eq_true_eq, decide_eq_true_eq] at h
    refine ⟨pair.1, h.1, ?_⟩
    rw [UMap.getD_of_lookup_some (AList.mem_lookup_iff.2 hpair)]
    exact h.2
  · rintro ⟨k, hk, hi⟩
    cases hl : s.mTrackerToConditionMap.lookup k with
    | none =>
      rw [UMap.getD_of_lookup_none hl] at hi
      cases hi
    | some l =>
      rw [UMap.getD_of_lookup_some hl] at hi
      refine ⟨⟨k, l⟩, AList.mem_lookup_iff.1 hl, ?_⟩
      rw [Bool.and_eq_true, decide_eq_true_eq, decide_eq_true_eq]
      exact ⟨hk, hi⟩

/-! ## What trackers are made of -/

/-- The tracker has what the contents of a predicate say, whatever happened since. -/
def OfContents (indices : Config.SimplePredicate → MatcherIndices) (map : UMap Int Nat)
    (trackers : Nat → ConditionTracker) (t : ConditionTracker) : Config.PredicateContents → Prop
  | .CONTENTS_NOT_SET => False
  | .simple_predicate p =>
    t.mChildren = [] ∧ t.mTrackerIndex = (indices p).mTrackerIndex ∧
      ∃ s, t.kind = .simple s ∧ t.mSliced = s.mSliced ∧ SimpleConditionTracker.Configured ((indices p).resolve p) s
  | .combination operation predicate =>
    ∃ o, operation = some o ∧ t.kind = .combination o ∧ (o = .NOT → predicate.length = 1) ∧
      predicate.map map.lookup = t.mChildren.map some ∧
      (t.mSliced = true ↔ ∃ c ∈ t.mChildren, (trackers c).mSliced = true) ∧
      ∀ k, k ∈ t.mTrackerIndex ↔ ∃ c ∈ t.mChildren, k ∈ (trackers c).mTrackerIndex

/-- The tracker at an index is made of the predicate. -/
structure Made (indices : Nat → Config.SimplePredicate → MatcherIndices) (map : UMap Int Nat)
    (trackers : Nat → ConditionTracker) (i : Nat) (m : Config.Predicate) : Prop where
  id : (trackers i).mConditionId = m.id
  index : (trackers i).mIndex = i
  contents : OfContents (indices i) map trackers (trackers i) m.contents

section

variable {indices : Nat → Config.SimplePredicate → MatcherIndices} {map : UMap Int Nat}
  {trackers trackers' : Nat → ConditionTracker} {i : Nat} {m : Config.Predicate}

theorem OfContents.map_children {ind : Config.SimplePredicate → MatcherIndices} {t : ConditionTracker}
    {contents : Config.PredicateContents} (h : OfContents ind map trackers t contents) :
    contents.children.map map.lookup = t.mChildren.map some := by
  cases contents with
  | CONTENTS_NOT_SET => exact h.elim
  | simple_predicate p =>
    obtain ⟨hchildren, -⟩ := h
    rw [hchildren]
    rfl
  | combination operation predicate =>
    obtain ⟨o, -, -, -, hmap, -⟩ := h
    exact hmap

theorem OfContents.mem_children {ind : Config.SimplePredicate → MatcherIndices} {t : ConditionTracker}
    {contents : Config.PredicateContents} (h : OfContents ind map trackers t contents) (j : Nat) :
    j ∈ t.mChildren ↔ ∃ c ∈ contents.children, map.lookup c = some j := by
  have hj : j ∈ t.mChildren ↔ some j ∈ t.mChildren.map some := by simp
  rw [hj, ← h.map_children, List.mem_map]

theorem Made.simple (h : Made indices map trackers i m) {t : SimpleConditionTracker} (ht : (trackers i).kind = .simple t) :
    ∃ p, m.contents = .simple_predicate p ∧ (trackers i).mChildren = [] ∧
      (trackers i).mTrackerIndex = (indices i p).mTrackerIndex ∧ (trackers i).mSliced = t.mSliced ∧
      SimpleConditionTracker.Configured ((indices i p).resolve p) t := by
  have hcontents := h.contents
  cases hc : m.contents with
  | CONTENTS_NOT_SET =>
    rw [hc] at hcontents
    exact hcontents.elim
  | simple_predicate p =>
    rw [hc] at hcontents
    obtain ⟨hchildren, hids, t', ht', hsliced, hconfigured⟩ := hcontents
    rw [ht] at ht'
    cases ht'
    exact ⟨p, rfl, hchildren, hids, hsliced, hconfigured⟩
  | combination operation predicate =>
    rw [hc] at hcontents
    obtain ⟨o, -, ht', -⟩ := hcontents
    rw [ht] at ht'
    cases ht'

theorem Made.child_matchers (h : Made indices map trackers i m) {c : Nat} (hc : c ∈ (trackers i).mChildren) {k : Nat}
    (hk : k ∈ (trackers c).mTrackerIndex) : k ∈ (trackers i).mTrackerIndex := by
  have hcontents := h.contents
  cases hm : m.contents with
  | CONTENTS_NOT_SET =>
    rw [hm] at hcontents
    exact hcontents.elim
  | simple_predicate p =>
    rw [hm] at hcontents
    obtain ⟨hchildren, -⟩ := hcontents
    rw [hchildren] at hc
    cases hc
  | combination operation predicate =>
    rw [hm] at hcontents
    obtain ⟨-, -, -, -, -, -, hids⟩ := hcontents
    exact (hids k).2 ⟨c, hc, hk⟩

/-- What of a tracker never changes. -/
structure Same (t t' : ConditionTracker) : Prop where
  id : t'.mConditionId = t.mConditionId
  index : t'.mIndex = t.mIndex
  trackerIndex : t'.mTrackerIndex = t.mTrackerIndex
  sliced : t'.mSliced = t.mSliced
  children : t'.mChildren = t.mChildren
  kind : match t.kind with
    | .simple s => ∃ s', t'.kind = .simple s' ∧ s'.mSliced = s.mSliced ∧
        ∀ p, SimpleConditionTracker.Configured p s → SimpleConditionTracker.Configured p s'
    | .combination o => t'.kind = .combination o

theorem Same.refl (t : ConditionTracker) : Same t t := by
  refine ⟨rfl, rfl, rfl, rfl, rfl, ?_⟩
  cases t.kind with
  | simple s => exact ⟨s, rfl, rfl, fun _ h => h⟩
  | combination o => rfl

theorem Made.congr (h : Made indices map trackers i m) (hsame : ∀ j, Same (trackers j) (trackers' j)) :
    Made indices map trackers' i m := by
  obtain ⟨hid, hindex, hcontents⟩ := h
  have hi := hsame i
  refine ⟨by rw [hi.id, hid], by rw [hi.index, hindex], ?_⟩
  have hkind := hi.kind
  cases hm : m.contents with
  | CONTENTS_NOT_SET =>
    rw [hm] at hcontents
    exact hcontents
  | simple_predicate p =>
    rw [hm] at hcontents
    obtain ⟨hchildren, hids, s, hs, hsliced, hconfigured⟩ := hcontents
    rw [hs] at hkind
    obtain ⟨s', hs', hsliced', hconfigured'⟩ := hkind
    exact ⟨by rw [hi.children, hchildren], by rw [hi.trackerIndex, hids], s', hs',
      by rw [hi.sliced, hsliced, hsliced'], hconfigured' _ hconfigured⟩
  | combination operation predicate =>
    rw [hm] at hcontents
    obtain ⟨o, ho, hk, hnot, hmap, hsliced, hids⟩ := hcontents
    rw [hk] at hkind
    refine ⟨o, ho, hkind, hnot, by rw [hi.children, hmap], ?_, fun k => ?_⟩
    · rw [hi.sliced, hi.children, hsliced]
      exact exists_congr fun c => and_congr_right fun _ => by rw [(hsame c).sliced]
    · rw [hi.trackerIndex, hi.children, hids]
      exact exists_congr fun c => and_congr_right fun _ => by rw [(hsame c).trackerIndex]

end

def NoDimensions (predicates : List Config.Predicate) : Prop :=
  ∀ m ∈ predicates, ∀ p, m.contents = .simple_predicate p → p.dimensions = none

theorem unsliced {indices : Nat → Config.SimplePredicate → MatcherIndices} {map : UMap Int Nat}
    {trackers : Nat → ConditionTracker} {predicates : List Config.Predicate}
    (hdim : NoDimensions predicates)
    (hmade : ∀ i m, predicates[i]? = some m → Made indices map trackers i m) {rank : Nat → Nat}
    (hrank : ∀ i, ∀ c ∈ (trackers i).mChildren, rank c < rank i)
    (hnone : ∀ i, predicates[i]? = none → (trackers i).mSliced = false) (i : Nat) : (trackers i).mSliced = false := by
  induction hr : rank i using Nat.strong_induction_on generalizing i with
  | _ r ih =>
    subst hr
    cases hm : predicates[i]? with
    | none => exact hnone i hm
    | some m =>
      have hcontents := (hmade i m hm).contents
      cases hc : m.contents with
      | CONTENTS_NOT_SET =>
        rw [hc] at hcontents
        exact hcontents.elim
      | simple_predicate p =>
        rw [hc] at hcontents
        obtain ⟨-, -, t, -, hsliced, hconfigured⟩ := hcontents
        rw [hsliced, hconfigured.sliced]
        unfold SimpleConditionTracker.new MatcherIndices.resolve
        dsimp only
        rw [hdim m (List.mem_of_getElem? hm) p hc]
        rfl
      | combination operation predicate =>
        rw [hc] at hcontents
        obtain ⟨-, -, -, -, -, hsliced, -⟩ := hcontents
        rw [Bool.eq_false_iff]
        intro hs
        obtain ⟨c, hci, hcs⟩ := hsliced.1 hs
        rw [ih (rank c) (hrank i c hci) c rfl] at hcs
        cases hcs

/-! ## Values -/

/-- What an unsliced simple tracker holds: its initial value until it has a count. -/
def leafState (t : SimpleConditionTracker) : ConditionState :=
  match t.mSlicedConditionState.lookup DEFAULT_DIMENSION_KEY with
  | none => t.mInitialValue
  | some startedCount => if startedCount > 0 then kTrue else kFalse

/-- The values of all conditions, from the leaves up. -/
def Valued (trackers : Nat → ConditionTracker) (v : Nat → ConditionState) : Prop :=
  ∀ i, v i = match (trackers i).kind with
    | .simple t => leafState t
    | .combination operation => evaluateCombinationCondition (trackers i).mChildren operation v

/-- An unsliced simple tracker counts under the default key only, and with the initial value false it keeps no
count that is zero. -/
structure LeafOk (t : SimpleConditionTracker) : Prop where
  initial : t.mInitialValue = kUnknown ∨ t.mInitialValue = kFalse
  only : ∀ k, k ≠ DEFAULT_DIMENSION_KEY → t.mSlicedConditionState.lookup k = none
  count : ∀ c, t.mSlicedConditionState.lookup DEFAULT_DIMENSION_KEY = some c →
    0 ≤ c ∧ (t.mInitialValue = kFalse → 0 < c)

/-- Conditions made of a config. -/
structure OfConfig (indices : Nat → Config.SimplePredicate → MatcherIndices) (predicates : List Config.Predicate)
    (s : Conditions) : Prop where
  nodup : (predicates.map (·.id)).Nodup
  map_eq : s.conditionTrackerMap = UMap.indexMap (predicates.map (·.id))
  length : s.mAllConditionTrackers.length = predicates.length
  made : ∀ i m, predicates[i]? = some m →
    Made indices s.conditionTrackerMap (trackerAt s.mAllConditionTrackers) i m
  ranked : ∃ rank : Nat → Nat, ∀ i, ∀ c ∈ (trackerAt s.mAllConditionTrackers i).mChildren, rank c < rank i
  table : ∀ k i, i ∈ UMap.getD s.mTrackerToConditionMap k [] ↔
    i < predicates.length ∧ k ∈ (trackerAt s.mAllConditionTrackers i).mTrackerIndex

/-- Conditions made of a config, with the values of the combinations kept. -/
structure Sound (indices : Nat → Config.SimplePredicate → MatcherIndices) (predicates : List Config.Predicate)
    (s : Conditions) : Prop where
  nodup : (predicates.map (·.id)).Nodup
  map_eq : s.conditionTrackerMap = UMap.indexMap (predicates.map (·.id))
  length : s.mAllConditionTrackers.length = predicates.length
  made : ∀ i m, predicates[i]? = some m →
    Made indices s.conditionTrackerMap (trackerAt s.mAllConditionTrackers) i m
  ranked : ∃ rank : Nat → Nat, ∀ i, ∀ c ∈ (trackerAt s.mAllConditionTrackers i).mChildren, rank c < rank i
  table : ∀ k i, i ∈ UMap.getD s.mTrackerToConditionMap k [] ↔
    i < predicates.length ∧ k ∈ (trackerAt s.mAllConditionTrackers i).mTrackerIndex
  leaf : ∀ i t, (trackerAt s.mAllConditionTrackers i).kind = .simple t → LeafOk t
  stored : ∀ v, Valued (trackerAt s.mAllConditionTrackers) v → ∀ i < predicates.length, ∀ operation,
    (trackerAt s.mAllConditionTrackers i).kind = .combination operation →
    (trackerAt s.mAllConditionTrackers i).mUnSlicedPartCondition = v i

theorem LeafOk.leafState_ne {t : SimpleConditionTracker} (h : LeafOk t) : leafState t ≠ kNotEvaluated := by
  unfold leafState
  split
  · rcases h.initial with hi | hi <;> rw [hi] <;> exact nofun
  · split <;> exact nofun

theorem LeafOk.isConditionMet_eq {t : SimpleConditionTracker} (h : LeafOk t) (hsliced : t.mSliced = false)
    (isPartialLink : Bool) : t.isConditionMet none isPartialLink kNotEvaluated = leafState t := by
  unfold SimpleConditionTracker.isConditionMet leafState
  dsimp only
  rw [if_neg (not_not.2 rfl), hsliced, if_neg Bool.false_ne_true]
  cases hl : t.mSlicedConditionState.lookup DEFAULT_DIMENSION_KEY with
  | none => rcases h.initial with hi | hi <;> rw [hi] <;> rfl
  | some c =>
    unfold SimpleConditionTracker.sliceState ConditionState.ofBool
    rcases h.initial with hi | hi <;> rw [hi] <;> by_cases hc : c > 0 <;> simp [hc] <;> rfl

section

variable {trackers : Nat → ConditionTracker}

theorem Valued.unique {rank : Nat → Nat} (hrank : ∀ i, ∀ c ∈ (trackers i).mChildren, rank c < rank i)
    {v v' : Nat → ConditionState} (hv : Valued trackers v) (hv' : Valued trackers v') (i : Nat) : v i = v' i := by
  induction hr : rank i using Nat.strong_induction_on generalizing i with
  | _ r ih =>
    subst hr
    rw [hv i, hv' i]
    split
    · rfl
    · exact evaluateCombinationCondition_congr _ fun c hc => ih (rank c) (hrank i c hc) c rfl

/-- The evaluation of a query without parameters. -/
def queryMemo (trackers : Nat → ConditionTracker) : Memo ConditionState where
  children i _ :=
    match (trackers i).kind with
    | .simple _ => []
    | .combination _ => (trackers i).mChildren
  done c := decide (c ≠ kNotEvaluated)
  node i conditionCache :=
    match (trackers i).kind with
    | .simple t => leafState t
    | .combination operation => evaluateCombinationCondition (trackers i).mChildren operation conditionCache

theorem queryMemo_lawful {rank : Nat → Nat} (hrank : ∀ i, ∀ c ∈ (trackers i).mChildren, rank c < rank i)
    (hleaf : ∀ i t, (trackers i).kind = .simple t → LeafOk t) :
    (queryMemo trackers).Lawful rank fun _ => kNotEvaluated where
  rank_lt := by
    intro i c hc
    unfold queryMemo at hc
    dsimp only at hc
    split at hc
    · cases hc
    · exact hrank i c hc
  fresh _ := rfl
  reads := by
    intro i cache cache' _ _ hcache
    unfold queryMemo at hcache ⊢
    dsimp only at hcache ⊢
    split
    · rfl
    · rename_i operation hk
      rw [hk] at hcache
      exact evaluateCombinationCondition_congr operation hcache
  finished := by
    intro i cache _ _
    refine decide_eq_true ?_
    unfold queryMemo
    dsimp only
    split
    · rename_i t hk
      exact (hleaf i t hk).leafState_ne
    · exact evaluateCombinationCondition_ne _ _ _

theorem queryMemo_valued {rank : Nat → Nat} (hrank : ∀ i, ∀ c ∈ (trackers i).mChildren, rank c < rank i)
    (hleaf : ∀ i t, (trackers i).kind = .simple t → LeafOk t) :
    Valued trackers ((queryMemo trackers).value rank fun _ => kNotEvaluated) := by
  have hlawful := queryMemo_lawful hrank hleaf
  intro i
  let cache : Nat → ConditionState := fun j =>
    if j ∈ (queryMemo trackers).children i kNotEvaluated then (queryMemo trackers).value rank (fun _ => kNotEvaluated) j
    else kNotEvaluated
  have hcache : ∀ c ∈ (queryMemo trackers).children i kNotEvaluated,
      cache c = (queryMemo trackers).value rank (fun _ => kNotEvaluated) c := fun c hc => if_pos hc
  rw [hlawful.value_eq (s := cache) (if_neg (hlawful.not_mem_children i)) hcache]
  cases hk : (trackers i).kind with
  | simple t =>
    unfold queryMemo
    dsimp only
    rw [hk]
  | combination operation =>
    have hchildren : (queryMemo trackers).children i kNotEvaluated = (trackers i).mChildren := by
      unfold queryMemo
      dsimp only
      rw [hk]
    have hnode : (queryMemo trackers).node i cache =
        evaluateCombinationCondition (trackers i).mChildren operation cache := by
      unfold queryMemo
      dsimp only
      rw [hk]
    rw [hchildren] at hcache
    rw [hnode]
    exact evaluateCombinationCondition_congr operation hcache

theorem queryMemo_visit_done {fuel i : Nat} {cache : Nat → ConditionState} (h : cache i ≠ kNotEvaluated) :
    (queryMemo trackers).visit fuel i cache = cache := by
  cases fuel with
  | zero => rfl
  | succ fuel =>
    unfold Memo.visit
    exact if_pos (decide_eq_true h)

theorem isConditionMet_eq_visit (hleaf : ∀ i t, (trackers i).kind = .simple t → LeafOk t ∧ t.mSliced = false)
    (isPartialLink : Bool) (fuel i : Nat) {cache : Nat → ConditionState} (hi : cache i = kNotEvaluated) :
    isConditionMet trackers (fun _ => none) isPartialLink fuel i cache = (queryMemo trackers).visit fuel i cache := by
  induction fuel generalizing i cache with
  | zero => rfl
  | succ fuel ih =>
    have hdone : (queryMemo trackers).done (cache i) = false := decide_eq_false (not_not.2 hi)
    rw [isConditionMet, Memo.visit, hdone, if_neg Bool.false_ne_true]
    unfold queryMemo
    dsimp only
    cases hk : (trackers i).kind with
    | simple t =>
      obtain ⟨hok, hsliced⟩ := hleaf i t hk
      dsimp only [List.foldl_nil]
      rw [hi, hok.isConditionMet_eq hsliced]
    | combination operation =>
      have hfold : ∀ (l : List Nat) (cache : Nat → ConditionState),
          l.foldl (fun conditionCache c => if conditionCache c = kNotEvaluated then
            isConditionMet trackers (fun _ => none) isPartialLink fuel c conditionCache else conditionCache) cache =
          l.foldl (fun conditionCache c => (queryMemo trackers).visit fuel c conditionCache) cache := by
        intro l
        induction l with
        | nil => exact fun _ => rfl
        | cons c l ihl =>
          intro cache
          rw [List.foldl_cons, List.foldl_cons, ihl]
          congr 1
          split
          · rename_i hc
            exact ih c hc
          · rename_i hc
            rw [queryMemo_visit_done hc]
      dsimp only
      rw [hfold]
      rfl

end

/-! ## Conditions of a config -/

namespace OfConfig

variable {indices : Nat → Config.SimplePredicate → MatcherIndices} {predicates : List Config.Predicate} {s : Conditions}
  (h : OfConfig indices predicates s)
include h

theorem lookup_iff {c : Int} {j : Nat} :
    s.conditionTrackerMap.lookup c = some j ↔ ∃ m, predicates[j]? = some m ∧ m.id = c := by
  rw [h.map_eq, UMap.lookup_indexMap h.nodup, List.getElem?_map, Option.map_eq_some_iff]

theorem index_lt {i c : Nat} (hc : c ∈ (trackerAt s.mAllConditionTrackers i).mChildren) : c < predicates.length := by
  cases hm : predicates[i]? with
  | none =>
    rw [trackerAt_of_le (by rw [h.length]; exact List.getElem?_eq_none_iff.1 hm)] at hc
    cases hc
  | some m =>
    obtain ⟨d, -, hd⟩ := ((h.made i m hm).contents.mem_children c).1 hc
    obtain ⟨m', hm', -⟩ := h.lookup_iff.1 hd
    exact (List.getElem?_eq_some_iff.1 hm').1

theorem exists_rank : ∃ rank : Nat → Nat, (∀ i, rank i < predicates.length ↔ i < predicates.length) ∧
    ∀ i, ∀ c ∈ (trackerAt s.mAllConditionTrackers i).mChildren, rank c < rank i := by
  obtain ⟨rank₀, hrank₀⟩ := h.ranked
  obtain ⟨rank, hrank⟩ := Memo.exists_rank_lt
    (fun i (_ : i < predicates.length) c hc => ⟨h.index_lt hc, hrank₀ i c hc⟩)
  refine ⟨fun i => if i < predicates.length then rank i else predicates.length, fun i => ?_, fun i c hc => ?_⟩
  · dsimp only
    split
    · rename_i hi
      exact iff_of_true (hrank i hi).1 hi
    · rename_i hi
      exact iff_of_false (lt_irrefl _) hi
  · have hlt := h.index_lt hc
    by_cases hi : i < predicates.length
    · dsimp only
      rw [if_pos hi, if_pos hlt]
      exact (hrank i hi).2 c hc
    · rw [trackerAt_of_le (by rw [h.length]; omega)] at hc
      cases hc

theorem tracker_default {i : Nat} (hi : predicates[i]? = none) : trackerAt s.mAllConditionTrackers i = default :=
  trackerAt_of_le (by rw [h.length]; exact List.getElem?_eq_none_iff.1 hi)

end OfConfig

namespace Sound

variable {indices : Nat → Config.SimplePredicate → MatcherIndices} {predicates : List Config.Predicate} {s : Conditions}
  (h : Sound indices predicates s)
include h

theorem ofConfig : OfConfig indices predicates s := ⟨h.nodup, h.map_eq, h.length, h.made, h.ranked, h.table⟩

theorem lookup_iff {c : Int} {j : Nat} :
    s.conditionTrackerMap.lookup c = some j ↔ ∃ m, predicates[j]? = some m ∧ m.id = c := h.ofConfig.lookup_iff

theorem exists_rank : ∃ rank : Nat → Nat, (∀ i, rank i < predicates.length ↔ i < predicates.length) ∧
    ∀ i, ∀ c ∈ (trackerAt s.mAllConditionTrackers i).mChildren, rank c < rank i := h.ofConfig.exists_rank

theorem exists_valued : ∃ v, Valued (trackerAt s.mAllConditionTrackers) v ∧ ∀ i, v i ≠ kNotEvaluated := by
  obtain ⟨rank, -, hrank⟩ := h.exists_rank
  refine ⟨_, queryMemo_valued hrank h.leaf, fun i => ?_⟩
  have hdone := (queryMemo_lawful hrank h.leaf).value_done i
  exact of_decide_eq_true hdone

theorem unsliced (hdim : NoDimensions predicates) (i : Nat) :
    (trackerAt s.mAllConditionTrackers i).mSliced = false := by
  obtain ⟨rank, hrank⟩ := h.ranked
  refine Condition.unsliced hdim h.made hrank (fun j hj => ?_) i
  rw [trackerAt_of_le (by rw [h.length]; exact List.getElem?_eq_none_iff.1 hj)]
  rfl

end Sound

end Statsd.Condition
