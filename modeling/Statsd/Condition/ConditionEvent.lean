/-
What an event computes for the conditions of a config without dimensions: a memoised evaluation from the leaves up. A
condition none of whose matchers matched keeps its value.
-/
import Statsd.Condition.ConditionLeaf

namespace Statsd.Condition

open ConditionState

/-! ## The evaluation of an event -/

/-- The evaluation as a memoised recursion. -/
def eventMemo (event : MatchedEvent) : Memo Entry where
  children _ e :=
    match e.tracker.kind with
    | .simple _ => []
    | .combination _ => e.tracker.mChildren
  done e := decide (e.conditionCache ≠ kNotEvaluated)
  node i entries :=
    match (entries i).tracker.kind with
    | .simple t => evaluateSimple event t (entries i)
    | .combination operation => evaluateCombination operation entries (entries i)

section

variable {event : MatchedEvent}

theorem evaluateCondition_done {fuel i : Nat} {entries : Nat → Entry} (h : (entries i).conditionCache ≠ kNotEvaluated) :
    evaluateCondition event fuel i entries = entries := by
  cases fuel with
  | zero => rfl
  | succ fuel =>
    rw [evaluateCondition]
    exact if_pos h

theorem evaluateCondition_eq_visit {rank : Nat → Nat} {start : Nat → Entry}
    (hlawful : (eventMemo event).Lawful rank start) {fuel i : Nat} (hi : rank i < fuel) {entries : Nat → Entry}
    (hs : (eventMemo event).Memoised rank start entries) :
    evaluateCondition event fuel i entries = (eventMemo event).visit fuel i entries := by
  induction fuel generalizing i entries with
  | zero => omega
  | succ fuel ih =>
    -- the children, one after the other
    have hchildren : ∀ (l : List Nat), (∀ c ∈ l, rank c < fuel) → ∀ entries, (eventMemo event).Memoised rank start entries →
        l.foldl (fun entries c => if (entries c).conditionCache = kNotEvaluated then
          evaluateCondition event fuel c entries else entries) entries =
        l.foldl (fun entries c => (eventMemo event).visit fuel c entries) entries := by
      intro l
      induction l with
      | nil => exact fun _ _ _ => rfl
      | cons c l ihl =>
        intro hl entries hs
        have hc := hl c List.mem_cons_self
        have hvisit := ih hc hs
        have hhead : (if (entries c).conditionCache = kNotEvaluated then evaluateCondition event fuel c entries
            else entries) = (eventMemo event).visit fuel c entries := by
          split
          · exact hvisit
          · rename_i hdone
            rw [← hvisit, evaluateCondition_done hdone]
        rw [List.foldl_cons, List.foldl_cons, hhead]
        exact ihl (fun d hd => hl d (List.mem_cons_of_mem _ hd)) _ (hlawful.visit_spec hc hs).1.memoised
    rw [evaluateCondition, Memo.visit]
    by_cases hdone : (entries i).conditionCache ≠ kNotEvaluated
    · have hd : (eventMemo event).done (entries i) = true := decide_eq_true hdone
      rw [if_pos hdone, hd, if_pos rfl]
    · have hd : (eventMemo event).done (entries i) = false := decide_eq_false hdone
      rw [if_neg hdone, hd, if_neg Bool.false_ne_true]
      cases hk : (entries i).tracker.kind with
      | simple t =>
        have hc : (eventMemo event).children i (entries i) = [] := by
          unfold eventMemo
          dsimp only
          rw [hk]
        have hnode : (eventMemo event).node i entries = evaluateSimple event t (entries i) := by
          unfold eventMemo
          dsimp only
          rw [hk]
        dsimp only
        rw [hc, List.foldl_nil, hnode]
      | combination operation =>
        have hc : (eventMemo event).children i (entries i) = (entries i).tracker.mChildren := by
          unfold eventMemo
          dsimp only
          rw [hk]
        have hstart : entries i = start i := by
          rcases hs i with hi | hi
          · exact hi
          · have := hlawful.value_done i
            rw [← hi, hd] at this
            cases this
        have hlt : ∀ c ∈ (entries i).tracker.mChildren, rank c < rank i := by
          intro c hcm
          rw [← hc, hstart] at hcm
          exact hlawful.rank_lt i c hcm
        -- the children leave the entry alone
        have hkeep := (hlawful.visitAll_spec fuel (entries i).tracker.mChildren
          (fun c hcm => by have := hlt c hcm; omega) hs).2.2 i hlt
        dsimp only
        rw [hc, hchildren _ (fun c hcm => by have := hlt c hcm; omega) entries hs]
        generalize (entries i).tracker.mChildren.foldl (fun entries c => (eventMemo event).visit fuel c entries) entries =
          entries' at hkeep
        have hnode : (eventMemo event).node i entries' = evaluateCombination operation entries' (entries' i) := by
          unfold eventMemo
          dsimp only
          rw [hkeep, hk]
        rw [hnode]

end

/-- The entries an event starts from. -/
def Conditions.entries (s : Conditions) (i : Nat) : Entry := ⟨trackerAt s.mAllConditionTrackers i, kNotEvaluated, false⟩

theorem evaluateCombination_congr (operation : LogicalOperation) {entries entries' : Nat → Entry} {e : Entry}
    (hunsliced : e.tracker.mSliced = true → ∀ c ∈ e.tracker.mUnSlicedChildren, c ∈ e.tracker.mChildren)
    (h : ∀ c ∈ e.tracker.mChildren, entries c = entries' c) :
    evaluateCombination operation entries e = evaluateCombination operation entries' e := by
  have hcache : ∀ c ∈ e.tracker.mChildren, cacheOf entries c = cacheOf entries' c := fun c hc => congrArg Entry.conditionCache (h c hc)
  have hvalue := evaluateCombinationCondition_congr operation hcache
  unfold evaluateCombination
  dsimp only
  rw [hvalue]
  cases hs : e.tracker.mSliced with
  | false => rfl
  | true =>
    have hpart : evaluateCombinationCondition e.tracker.mUnSlicedChildren operation (cacheOf entries) =
        evaluateCombinationCondition e.tracker.mUnSlicedChildren operation (cacheOf entries') :=
      evaluateCombinationCondition_congr operation fun c hc => hcache c (hunsliced hs c hc)
    have hany : (e.tracker.mChildren.any fun c => (entries c).changedCache) =
        e.tracker.mChildren.any fun c => (entries' c).changedCache := by
      rw [Bool.eq_iff_iff, List.any_eq_true, List.any_eq_true]
      exact exists_congr fun c => and_congr_right fun hc => by rw [h c hc]
    rw [hpart, hany]

section

variable {s : Conditions} (event : MatchedEvent) {rank : Nat → Nat}

theorem eventMemo_lawful (hrank : ∀ i, ∀ c ∈ (trackerAt s.mAllConditionTrackers i).mChildren, rank c < rank i)
    (hunsliced : ∀ i, (trackerAt s.mAllConditionTrackers i).mSliced = true →
      ∀ c ∈ (trackerAt s.mAllConditionTrackers i).mUnSlicedChildren, c ∈ (trackerAt s.mAllConditionTrackers i).mChildren)
    (hleaf : ∀ i t, (trackerAt s.mAllConditionTrackers i).kind = .simple t → (t.evaluate event).conditionCache ≠ kNotEvaluated) :
    (eventMemo event).Lawful rank s.entries where
  rank_lt := by
    intro i c hc
    unfold eventMemo Conditions.entries at hc
    dsimp only at hc
    split at hc
    · cases hc
    · exact hrank i c hc
  fresh _ := rfl
  reads := by
    intro i entries entries' hi hi' hentries
    unfold eventMemo at hentries ⊢
    dsimp only at hentries ⊢
    rw [hi, hi']
    cases hk : (s.entries i).tracker.kind with
    | simple t => rfl
    | combination operation =>
      rw [hk] at hentries
      exact evaluateCombination_congr operation (hunsliced i) hentries
  finished := by
    intro i entries hi _
    refine decide_eq_true ?_
    unfold eventMemo
    dsimp only
    rw [hi]
    cases hk : (s.entries i).tracker.kind with
    | simple t => exact hleaf i t hk
    | combination operation =>
      dsimp only
      unfold evaluateCombination
      dsimp only
      split
      · exact evaluateCombinationCondition_ne _ _ _
      · exact evaluateCombinationCondition_ne _ _ _

theorem value_simple (hlawful : (eventMemo event).Lawful rank s.entries) {i : Nat}
    {t : SimpleConditionTracker} (ht : (trackerAt s.mAllConditionTrackers i).kind = .simple t) :
    (eventMemo event).value rank s.entries i =
      ⟨{ trackerAt s.mAllConditionTrackers i with kind := .simple (t.evaluate event).tracker },
        (t.evaluate event).conditionCache, (t.evaluate event).changedCache⟩ := by
  have hchildren : (eventMemo event).children i (s.entries i) = [] := by
    unfold eventMemo Conditions.entries
    dsimp only
    rw [ht]
  rw [hlawful.value_eq (s := s.entries) rfl fun c hc => by rw [hchildren] at hc; cases hc]
  unfold eventMemo Conditions.entries
  dsimp only
  rw [ht]
  rfl

theorem value_combination (hlawful : (eventMemo event).Lawful rank s.entries) {i : Nat}
    (hunsliced : (trackerAt s.mAllConditionTrackers i).mSliced = true →
      ∀ c ∈ (trackerAt s.mAllConditionTrackers i).mUnSlicedChildren, c ∈ (trackerAt s.mAllConditionTrackers i).mChildren)
    {operation : LogicalOperation} (hk : (trackerAt s.mAllConditionTrackers i).kind = .combination operation) :
    (eventMemo event).value rank s.entries i =
      evaluateCombination operation ((eventMemo event).value rank s.entries) (s.entries i) := by
  have hchildren : (eventMemo event).children i (s.entries i) = (trackerAt s.mAllConditionTrackers i).mChildren := by
    unfold eventMemo Conditions.entries
    dsimp only
    rw [hk]
  let entries : Nat → Entry := fun j =>
    if j ∈ (eventMemo event).children i (s.entries i) then (eventMemo event).value rank s.entries j else s.entries j
  have hi : entries i = s.entries i := if_neg (hlawful.not_mem_children i)
  have hc : ∀ c ∈ (eventMemo event).children i (s.entries i), entries c = (eventMemo event).value rank s.entries c :=
    fun c hc => if_pos hc
  have hnode : (eventMemo event).node i entries = evaluateCombination operation entries (s.entries i) := by
    unfold eventMemo
    dsimp only
    rw [hi]
    have hk' : (s.entries i).tracker.kind = .combination operation := hk
    rw [hk']
  rw [hlawful.value_eq hi hc, hnode]
  rw [hchildren] at hc
  exact evaluateCombination_congr operation hunsliced hc

/-- What an event leaves of every entry: it is evaluated, or it is untouched and was not to be evaluated. -/
theorem evaluateConditions_spec {n : Nat} (hlength : s.mAllConditionTrackers.length = n) (hbound : ∀ i, rank i < n ↔ i < n)
    (hlawful : (eventMemo event).Lawful rank s.entries) (i : Nat) :
    (evaluateConditions s event i = s.entries i ∧
        (i < n → conditionToBeEvaluated s event.eventMatcherValues i = false)) ∨
      (i < n ∧ evaluateConditions s event i = (eventMemo event).value rank s.entries i) := by
  have hstart : (eventMemo event).Memoised rank s.entries s.entries := fun _ => .inl rfl
  -- the loop visits the conditions that are to be evaluated
  have hloop : ∀ (l : List Nat), (∀ j ∈ l, rank j < n) → ∀ entries,
      (eventMemo event).Memoised rank s.entries entries →
      l.foldl (fun entries i => evaluateCondition event n i entries) entries =
        l.foldl (fun entries i => (eventMemo event).visit n i entries) entries := by
    intro l
    induction l with
    | nil => exact fun _ _ _ => rfl
    | cons j l ih =>
      intro hl entries hs
      have hj := hl j List.mem_cons_self
      rw [List.foldl_cons, List.foldl_cons, evaluateCondition_eq_visit hlawful hj hs]
      exact ih (fun k hk => hl k (List.mem_cons_of_mem _ hk)) _ (hlawful.visit_spec hj hs).1.memoised
  have hlt : ∀ j ∈ (List.range n).filter (conditionToBeEvaluated s event.eventMatcherValues),
      rank j < n := by
    intro j hj
    exact (hbound j).2 (List.mem_range.1 (List.mem_of_mem_filter hj))
  have heq : evaluateConditions s event =
      ((List.range n).filter (conditionToBeEvaluated s event.eventMatcherValues)).foldl
        (fun entries i => (eventMemo event).visit n i entries) s.entries := by
    rw [← hloop _ hlt _ hstart, List.foldl_filter]
    unfold evaluateConditions
    rw [hlength]
    rfl
  obtain ⟨hvisited, hvalue, hframe⟩ := hlawful.visitAll_spec n _ hlt hstart
  rw [← heq] at hvisited hvalue hframe
  by_cases hi : i < n
  · cases hto : conditionToBeEvaluated s event.eventMatcherValues i with
    | true => exact .inr ⟨hi, hvalue i (List.mem_filter.2 ⟨List.mem_range.2 hi, hto⟩)⟩
    | false =>
      rcases hvisited.memoised i with hs | hv
      · exact .inl ⟨hs, fun _ => rfl⟩
      · exact .inr ⟨hi, hv⟩
  · refine .inl ⟨hframe i fun j hj => ?_, fun hlt => absurd hlt hi⟩
    have := hlt j hj
    have := (hbound i).1.mt hi
    omega

end

namespace Sound

variable {indices : Nat → Config.SimplePredicate → MatcherIndices} {predicates : List Config.Predicate} {s : Conditions}
  (h : Sound indices predicates s) (hdim : NoDimensions predicates)
include h

theorem tracker_default {i : Nat} (hi : predicates[i]? = none) : trackerAt s.mAllConditionTrackers i = default :=
  h.ofConfig.tracker_default hi

theorem simple_contents {i : Nat} {t : SimpleConditionTracker}
    (ht : (trackerAt s.mAllConditionTrackers i).kind = .simple t) :
    ∃ m p, predicates[i]? = some m ∧ m.contents = .simple_predicate p ∧
      (trackerAt s.mAllConditionTrackers i).mChildren = [] ∧
      (trackerAt s.mAllConditionTrackers i).mTrackerIndex = (indices i p).mTrackerIndex ∧
      SimpleConditionTracker.Configured ((indices i p).resolve p) t := by
  cases hm : predicates[i]? with
  | none =>
    rw [h.tracker_default hm] at ht
    cases ht
  | some m =>
    obtain ⟨p, hc, hchildren, hids, -, hconfigured⟩ := (h.made i m hm).simple ht
    exact ⟨m, p, rfl, hc, hchildren, hids, hconfigured⟩

include hdim

theorem leaf_unsliced {i : Nat} {t : SimpleConditionTracker}
    (ht : (trackerAt s.mAllConditionTrackers i).kind = .simple t) : Unsliced t := by
  obtain ⟨m, p, hm, hc, -, -, hconfigured⟩ := h.simple_contents ht
  exact unsliced_of_configured (hdim m (List.mem_of_getElem? hm) p hc) hconfigured

variable (event : MatchedEvent)

theorem eventMemo_lawful {rank : Nat → Nat} (hrank : ∀ i, ∀ c ∈ (trackerAt s.mAllConditionTrackers i).mChildren, rank c < rank i) :
    (eventMemo event).Lawful rank s.entries := by
  refine Condition.eventMemo_lawful event hrank (fun i hi => absurd ((h.unsliced hdim i).symm.trans hi) Bool.false_ne_true)
    fun i t hk => ?_
  have hstep := evaluate_step (h.leaf i t hk) (h.leaf_unsliced hdim hk) event
  rw [hstep.cache]
  exact hstep.ok.leafState_ne

theorem value_combination {rank : Nat → Nat} (hlawful : (eventMemo event).Lawful rank s.entries) {i : Nat}
    {operation : LogicalOperation} (hk : (trackerAt s.mAllConditionTrackers i).kind = .combination operation) :
    ∃ v, v = evaluateCombinationCondition (trackerAt s.mAllConditionTrackers i).mChildren operation
        (cacheOf ((eventMemo event).value rank s.entries)) ∧
      (eventMemo event).value rank s.entries i =
        ⟨{ trackerAt s.mAllConditionTrackers i with mUnSlicedPartCondition := v }, v,
          decide ((trackerAt s.mAllConditionTrackers i).mUnSlicedPartCondition ≠ v)⟩ := by
  have hsliced : (trackerAt s.mAllConditionTrackers i).mSliced = false := h.unsliced hdim i
  refine ⟨_, rfl, ?_⟩
  rw [Condition.value_combination event hlawful (fun hi => absurd (hsliced.symm.trans hi) Bool.false_ne_true) hk]
  unfold evaluateCombination Conditions.entries
  dsimp only
  rw [hsliced, Bool.not_false, if_pos rfl]

theorem same_value {rank : Nat → Nat} (hlawful : (eventMemo event).Lawful rank s.entries) (i : Nat) :
    Same (trackerAt s.mAllConditionTrackers i) ((eventMemo event).value rank s.entries i).tracker := by
  cases hk : (trackerAt s.mAllConditionTrackers i).kind with
  | simple t =>
    rw [value_simple event hlawful hk]
    refine ⟨rfl, rfl, rfl, rfl, rfl, ?_⟩
    obtain ⟨m, p, -, -, -, -, hconfigured⟩ := h.simple_contents hk
    have hsliced := ((evaluate_spec t event).configured _ hconfigured).sliced.trans hconfigured.sliced.symm
    rw [hk]
    exact ⟨_, rfl, hsliced, (evaluate_spec t event).configured⟩
  | combination operation =>
    obtain ⟨v, -, heq⟩ := h.value_combination hdim event hlawful hk
    rw [heq]
    refine ⟨rfl, rfl, rfl, rfl, rfl, ?_⟩
    rw [hk]

end Sound

/-- The matchers that predicates name are in the config. -/
def Resolved (matcherMap : UMap Int Nat) (predicates : List Config.Predicate) : Prop :=
  ∀ m ∈ predicates, ∀ c ∈ m.contents.matchers, ∃ k, matcherMap.lookup c = some k

/-! ## What is not evaluated does not change -/

/-- The matcher indices of simple predicates are those of their start, stop and stop-all. -/
def Indexed (indices : Nat → Config.SimplePredicate → MatcherIndices) (predicates : List Config.Predicate) : Prop :=
  ∀ i m p, predicates[i]? = some m → m.contents = .simple_predicate p →
    (indices i p).mTrackerIndex = (indices i p).mStartLogMatcherIndex.toFinset ∪
      (indices i p).mStopLogMatcherIndex.toFinset ∪ (indices i p).mStopAllLogMatcherIndex.toFinset

theorem matcherIndex_of_resolved {matcherMap : UMap Int Nat} {id : Option Int}
    (h : ∀ c ∈ id.toList, ∃ k, matcherMap.lookup c = some k) : ∃ index, matcherIndex id matcherMap = some index := by
  cases id with
  | none => exact ⟨none, rfl⟩
  | some c =>
    obtain ⟨k, hk⟩ := h c (by simp)
    refine ⟨some k, ?_⟩
    unfold matcherIndex
    dsimp only
    rw [hk]
    rfl

variable {predicates : List Config.Predicate}

theorem indexed_of_resolved {matcherMap : UMap Int Nat} (h : Resolved matcherMap predicates) (uninitialized : Nat → MatcherIndices) :
    Indexed (fun i p => setMatcherIndices p matcherMap (uninitialized i)) predicates := by
  intro i m p hm hp
  have hnames : ∀ c ∈ p.matchers, ∃ k, matcherMap.lookup c = some k := by
    intro c hc
    refine h m (List.mem_of_getElem? hm) c ?_
    rw [hp]
    exact hc
  unfold Config.SimplePredicate.matchers at hnames
  obtain ⟨start, hstart⟩ := matcherIndex_of_resolved fun c hc =>
    hnames c (List.mem_append_left _ (List.mem_append_left _ hc))
  obtain ⟨stop, hstop⟩ := matcherIndex_of_resolved fun c hc =>
    hnames c (List.mem_append_left _ (List.mem_append_right _ hc))
  obtain ⟨stop_all, hall⟩ := matcherIndex_of_resolved fun c hc => hnames c (List.mem_append_right _ hc)
  dsimp only [setMatcherIndices]
  rw [hstart, hstop, hall]

theorem matched_iff {event : MatchedEvent} {index : Option Nat} :
    event.matched index = true ↔ ∃ k ∈ index.toFinset, event.eventMatcherValues k = .kMatched := by
  cases index with
  | none => simp [MatchedEvent.matched]
  | some k => simp [MatchedEvent.matched]

/-- A simple condition at whose start, stop or stop-all an event matched lists a matched matcher. -/
def Listed (s : Conditions) (event : MatchedEvent) : Prop :=
  ∀ i t, (trackerAt s.mAllConditionTrackers i).kind = .simple t →
    event.matched t.mStartLogMatcherIndex = true ∨ event.matched t.mStopLogMatcherIndex = true ∨
      event.matched t.mStopAllLogMatcherIndex = true →
    ∃ k ∈ (trackerAt s.mAllConditionTrackers i).mTrackerIndex, event.eventMatcherValues k = .kMatched

theorem OfConfig.to_be_evaluated {indices : Nat → Config.SimplePredicate → MatcherIndices}
    {s : Conditions} (h : OfConfig indices predicates s) (event : MatchedEvent) {i : Nat} (hi : i < predicates.length) :
    conditionToBeEvaluated s event.eventMatcherValues i = true ↔
      ∃ k ∈ (trackerAt s.mAllConditionTrackers i).mTrackerIndex, event.eventMatcherValues k = .kMatched := by
  rw [conditionToBeEvaluated_iff]
  constructor
  · rintro ⟨k, hk, hik⟩
    exact ⟨k, ((h.table k i).1 hik).2, hk⟩
  · rintro ⟨k, hk, hmk⟩
    exact ⟨k, hmk, (h.table k i).2 ⟨hi, hk⟩⟩

namespace Sound

variable {indices : Nat → Config.SimplePredicate → MatcherIndices} {predicates : List Config.Predicate} {s : Conditions}
  (h : Sound indices predicates s) (hdim : NoDimensions predicates) (event : MatchedEvent) (hlisted : Listed s event)
include h

theorem listed (hindexed : Indexed indices predicates) : Listed s event := by
  intro i t ht hm
  obtain ⟨m, p, hmi, hp, -, hids, hconfigured⟩ := h.simple_contents ht
  rw [hids, hindexed i m p hmi hp]
  rw [hconfigured.start, hconfigured.stop, hconfigured.stop_all] at hm
  dsimp only [MatcherIndices.resolve] at hm
  rw [matched_iff, matched_iff, matched_iff] at hm
  rcases hm with ⟨k, hk, hmk⟩ | ⟨k, hk, hmk⟩ | ⟨k, hk, hmk⟩
  · exact ⟨k, by simp only [Finset.mem_union, hk, true_or], hmk⟩
  · exact ⟨k, by simp only [Finset.mem_union, hk, true_or, or_true], hmk⟩
  · exact ⟨k, by simp only [Finset.mem_union, hk, or_true], hmk⟩

theorem to_be_evaluated {i : Nat} (hi : i < predicates.length) :
    conditionToBeEvaluated s event.eventMatcherValues i = true ↔
      ∃ k ∈ (trackerAt s.mAllConditionTrackers i).mTrackerIndex, event.eventMatcherValues k = .kMatched :=
  h.ofConfig.to_be_evaluated event hi

include hdim hlisted

theorem value_unmatched {rank : Nat → Nat} (hrank : ∀ i, ∀ c ∈ (trackerAt s.mAllConditionTrackers i).mChildren, rank c < rank i)
    {v : Nat → ConditionState} (hv : Valued (trackerAt s.mAllConditionTrackers) v) (i : Nat)
    (hi : ∀ k ∈ (trackerAt s.mAllConditionTrackers i).mTrackerIndex, event.eventMatcherValues k ≠ .kMatched) :
    cacheOf ((eventMemo event).value rank s.entries) i = v i := by
  have hlawful := h.eventMemo_lawful hdim event hrank
  induction hr : rank i using Nat.strong_induction_on generalizing i with
  | _ r ih =>
    subst hr
    have hvi := hv i
    cases hk : (trackerAt s.mAllConditionTrackers i).kind with
    | simple t =>
      have hu := h.leaf_unsliced hdim hk
      have hstep := evaluate_step (h.leaf i t hk) hu event
      have hno : ∀ b : Bool, (b = true → ∃ k ∈ (trackerAt s.mAllConditionTrackers i).mTrackerIndex,
          event.eventMatcherValues k = .kMatched) → b = false := by
        intro b hb
        rw [Bool.eq_false_iff]
        intro ht
        obtain ⟨k, hk, hmk⟩ := hb ht
        exact hi k hk hmk
      have hafter := evaluate_unmatched hu
        (hno _ fun hm => hlisted i t hk (.inl hm))
        (hno _ fun hm => hlisted i t hk (.inr (.inl hm)))
        (hno _ fun hm => hlisted i t hk (.inr (.inr hm)))
      rw [hk] at hvi
      unfold cacheOf
      rw [value_simple event hlawful hk, hvi]
      dsimp only
      rw [hstep.cache, hafter]
      rfl
    | combination operation =>
      obtain ⟨w, hw, heq⟩ := h.value_combination hdim event hlawful hk
      rw [hk] at hvi
      have hcache : cacheOf ((eventMemo event).value rank s.entries) i = w := by
        unfold cacheOf
        rw [heq]
      rw [hcache, hw, hvi]
      refine evaluateCombinationCondition_congr operation fun c hc => ih (rank c) (hrank i c hc) c (fun k hkc => ?_) rfl
      refine hi k ?_
      cases hm : predicates[i]? with
      | none =>
        rw [h.tracker_default hm] at hc
        cases hc
      | some m => exact (h.made i m hm).child_matchers hc hkc

end Sound

/-! ## The conditions after an event -/

theorem trackerAt_step (s : Conditions) (event : MatchedEvent) {i : Nat} (hi : i < s.mAllConditionTrackers.length) :
    trackerAt (s.step event).mAllConditionTrackers i = (evaluateConditions s event i).tracker := by
  refine trackerAt_of_get ?_
  unfold Conditions.step
  rw [List.getElem?_map, List.getElem?_range hi]
  rfl

theorem step_length (s : Conditions) (event : MatchedEvent) :
    (s.step event).mAllConditionTrackers.length = s.mAllConditionTrackers.length := by
  unfold Conditions.step
  rw [List.length_map, List.length_range]

/-- An event that leaves the trackers the same but for their states leaves the conditions those of the config. -/
theorem OfConfig.step {indices : Nat → Config.SimplePredicate → MatcherIndices}
    {s : Conditions} (h : OfConfig indices predicates s) (event : MatchedEvent)
    (hsame : ∀ i, Same (trackerAt s.mAllConditionTrackers i) (trackerAt (s.step event).mAllConditionTrackers i)) :
    OfConfig indices predicates (s.step event) := by
  obtain ⟨rank, hrank⟩ := h.ranked
  refine ⟨h.nodup, h.map_eq, (step_length s event).trans h.length, fun i m hm => (h.made i m hm).congr hsame,
    ⟨rank, fun i c hc => ?_⟩, fun k i => ?_⟩
  · rw [(hsame i).children] at hc
    exact hrank i c hc
  · rw [(hsame i).trackerIndex]
    exact h.table k i

namespace Sound

variable {indices : Nat → Config.SimplePredicate → MatcherIndices} {predicates : List Config.Predicate} {s : Conditions}
  (h : Sound indices predicates s) (hdim : NoDimensions predicates) (event : MatchedEvent)
include h

/-- The condition at an index is untouched by an event, and none of its matchers matched, or it is evaluated. -/
theorem step_cases {rank : Nat → Nat} (hbound : ∀ i, rank i < predicates.length ↔ i < predicates.length)
    (hlawful : (eventMemo event).Lawful rank s.entries) (i : Nat) :
    (evaluateConditions s event i = s.entries i ∧
        trackerAt (s.step event).mAllConditionTrackers i = trackerAt s.mAllConditionTrackers i ∧
        ∀ k ∈ (trackerAt s.mAllConditionTrackers i).mTrackerIndex, event.eventMatcherValues k ≠ .kMatched) ∨
      (i < predicates.length ∧ evaluateConditions s event i = (eventMemo event).value rank s.entries i ∧
        trackerAt (s.step event).mAllConditionTrackers i = ((eventMemo event).value rank s.entries i).tracker) := by
  by_cases hi : i < predicates.length
  · have hi' : i < s.mAllConditionTrackers.length := by rw [h.length]; exact hi
    rw [trackerAt_step s event hi']
    rcases evaluateConditions_spec event h.length hbound hlawful i with ⟨hs, hto⟩ | ⟨-, hv⟩
    · refine .inl ⟨hs, congrArg Entry.tracker hs, fun k hk hmk => ?_⟩
      have hto' := (h.to_be_evaluated event hi).2 ⟨k, hk, hmk⟩
      rw [hto hi] at hto'
      cases hto'
    · exact .inr ⟨hi, hv, congrArg Entry.tracker hv⟩
  · have hnone : trackerAt s.mAllConditionTrackers i = default :=
      h.tracker_default (List.getElem?_eq_none_iff.2 (by omega))
    rcases evaluateConditions_spec event h.length hbound hlawful i with ⟨hs, -⟩ | ⟨hlt, -⟩
    · refine .inl ⟨hs, ?_, fun k hk => ?_⟩
      · rw [hnone, trackerAt_of_le (by rw [step_length, h.length]; omega)]
      · rw [hnone] at hk
        cases hk
    · exact absurd hlt hi

include hdim

theorem same_step {rank : Nat → Nat} (hbound : ∀ i, rank i < predicates.length ↔ i < predicates.length)
    (hlawful : (eventMemo event).Lawful rank s.entries) (i : Nat) :
    Same (trackerAt s.mAllConditionTrackers i) (trackerAt (s.step event).mAllConditionTrackers i) := by
  rcases h.step_cases event hbound hlawful i with ⟨-, heq, -⟩ | ⟨-, -, heq⟩
  · rw [heq]
    exact .refl _
  · rw [heq]
    exact h.same_value hdim event hlawful i

variable (hlisted : Listed s event)
include hlisted

theorem valued_step {rank : Nat → Nat} (hbound : ∀ i, rank i < predicates.length ↔ i < predicates.length)
    (hrank : ∀ i, ∀ c ∈ (trackerAt s.mAllConditionTrackers i).mChildren, rank c < rank i) :
    Valued (trackerAt (s.step event).mAllConditionTrackers) (cacheOf ((eventMemo event).value rank s.entries)) := by
  have hlawful := h.eventMemo_lawful hdim event hrank
  obtain ⟨v, hv, -⟩ := h.exists_valued
  intro i
  cases hk : (trackerAt s.mAllConditionTrackers i).kind with
  | simple t =>
    rcases h.step_cases event hbound hlawful i with ⟨-, heq, hno⟩ | ⟨-, -, heq⟩
    · have hvi := hv i
      rw [hk] at hvi
      rw [heq, hk, h.value_unmatched hdim event hlisted hrank hv i hno]
      exact hvi
    · unfold cacheOf
      rw [heq, value_simple event hlawful hk]
      exact (evaluate_step (h.leaf i t hk) (h.leaf_unsliced hdim hk) event).cache
  | combination operation =>
    have hsame := h.same_step hdim event hbound hlawful i
    have hkind := hsame.kind
    rw [hk] at hkind
    obtain ⟨w, hw, heq⟩ := h.value_combination hdim event hlawful hk
    rw [hkind, hsame.children]
    have hcache : cacheOf ((eventMemo event).value rank s.entries) i = w := congrArg Entry.conditionCache heq
    exact hcache.trans hw

omit hlisted in
theorem simple_step {i : Nat} {t : SimpleConditionTracker} (ht : (trackerAt s.mAllConditionTrackers i).kind = .simple t)
    {k : Nat} (hk : k ∈ (trackerAt s.mAllConditionTrackers i).mTrackerIndex)
    (hmk : event.eventMatcherValues k = .kMatched) :
    (trackerAt (s.step event).mAllConditionTrackers i).kind = .simple (t.evaluate event).tracker := by
  obtain ⟨rank, hbound, hrank⟩ := h.exists_rank
  have hlawful := h.eventMemo_lawful hdim event hrank
  rcases h.step_cases event hbound hlawful i with ⟨-, -, hno⟩ | ⟨-, -, heq⟩
  · exact absurd hmk (hno k hk)
  · rw [heq, value_simple event hlawful ht]

theorem step : Sound indices predicates (s.step event) := by
  obtain ⟨rank, hbound, hrank⟩ := h.exists_rank
  have hlawful := h.eventMemo_lawful hdim event hrank
  have hsame := h.same_step hdim event hbound hlawful
  have hrank' : ∀ i, ∀ c ∈ (trackerAt (s.step event).mAllConditionTrackers i).mChildren, rank c < rank i := by
    intro i c hc
    rw [(hsame i).children] at hc
    exact hrank i c hc
  obtain ⟨v, hv, -⟩ := h.exists_valued
  have hconfig := h.ofConfig.step event hsame
  refine ⟨hconfig.nodup, hconfig.map_eq, hconfig.length, hconfig.made, ⟨rank, hrank'⟩, hconfig.table, fun i t ht => ?_,
    fun v' hv' i hi operation hk => ?_⟩
  · rcases h.step_cases event hbound hlawful i with ⟨-, heq, -⟩ | ⟨-, -, heq⟩
    · rw [heq] at ht
      exact h.leaf i t ht
    · cases hk : (trackerAt s.mAllConditionTrackers i).kind with
      | simple t₀ =>
        rw [heq, value_simple event hlawful hk] at ht
        cases ht
        exact (evaluate_step (h.leaf i t₀ hk) (h.leaf_unsliced hdim hk) event).ok
      | combination operation =>
        have hkind := (hsame i).kind
        rw [hk] at hkind
        rw [hkind] at ht
        cases ht
  · rw [hv'.unique hrank' (h.valued_step hdim event hlisted hbound hrank) i]
    have hk₀ : (trackerAt s.mAllConditionTrackers i).kind = .combination operation := by
      have hkind := (hsame i).kind
      cases hk₀ : (trackerAt s.mAllConditionTrackers i).kind with
      | simple t =>
        rw [hk₀] at hkind
        obtain ⟨t', ht', -⟩ := hkind
        rw [hk] at ht'
        cases ht'
      | combination o =>
        rw [hk₀] at hkind
        rw [← hkind, hk]
    rcases h.step_cases event hbound hlawful i with ⟨-, heq, hno⟩ | ⟨-, -, heq⟩
    · rw [heq, h.stored v hv i hi operation hk₀]
      exact (h.value_unmatched hdim event hlisted hrank hv i hno).symm
    · obtain ⟨w, -, hvalue⟩ := h.value_combination hdim event hlawful hk₀
      unfold cacheOf
      rw [heq, hvalue]

end Sound

end Statsd.Condition
