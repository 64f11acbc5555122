/-
Unsliced conditions over runs of events. After every event a condition has the three-valued value of its predicate
over the current states of the simple ones; the condition cache, the changed bits and the queries agree with it, but
for a stop-all of a simple condition that was started and stopped: it is reported as a change from false to false.
-/
import Statsd.Base.Run
import Statsd.Condition.ConditionCreation
import Statsd.Condition.ConditionEvent

namespace Statsd.Condition

open ConditionState

/-! ## What is to be computed -/

/-- Unknown as soon as any value is, otherwise the operation. -/
def combine (operation : LogicalOperation) (values : List ConditionState) : ConditionState :=
  if kUnknown ∈ values then kUnknown else ofBool (operation.eval (values.map fun v => decide (v = kTrue)))

/-- The value of the predicate of an id, over the current states of the simple conditions. -/
inductive Value (predicates : List Config.Predicate) (s : Conditions) : Int → ConditionState → Prop
  | simple {i : Nat} {m : Config.Predicate} {p : Config.SimplePredicate} {t : SimpleConditionTracker} :
      predicates[i]? = some m → m.contents = .simple_predicate p →
      (trackerAt s.mAllConditionTrackers i).kind = .simple t → Value predicates s m.id (leafState t)
  | combination {m : Config.Predicate} {operation : LogicalOperation} {predicate : List Int}
      {value : Int → ConditionState} : m ∈ predicates → m.contents = .combination (some operation) predicate →
      (∀ c ∈ predicate, Value predicates s c (value c)) → Value predicates s m.id (combine operation (predicate.map value))

/-- What an event computes for a predicate is its value after the event, it is reported as changed when that is not
the value before, and a query gives the value. -/
def Exact (predicates : List Config.Predicate) (s : Conditions) (event : MatchedEvent) : Prop :=
  ∀ i m, predicates[i]? = some m → ∃ v v',
    (∀ x, Value predicates s m.id x ↔ x = v) ∧ (∀ x, Value predicates (s.step event) m.id x ↔ x = v') ∧
    (cacheOf (evaluateConditions s event) i = kNotEvaluated ∨ cacheOf (evaluateConditions s event) i = v') ∧
    ((evaluateConditions s event i).changedCache = true ↔ v' ≠ v) ∧
    ∀ isPartialLink, query (s.step event) i (fun _ => none) isPartialLink = v'

/-- No simple condition is stopped again. -/
def Quiet (s : Conditions) (event : MatchedEvent) : Prop :=
  ∀ i t, (trackerAt s.mAllConditionTrackers i).kind = .simple t → ¬ StoppedAgain t event

/-! ## The values of predicates -/

theorem evaluateCombinationCondition_eq {children : List Nat} {operation : LogicalOperation} {v : Nat → ConditionState}
    (hv : ∀ c ∈ children, v c ≠ kNotEvaluated) (hnot : operation = .NOT → children.length = 1) :
    evaluateCombinationCondition children operation v = combine operation (children.map v) := by
  have hunknown : (children.any fun c => decide (v c = kUnknown)) = true ↔ kUnknown ∈ children.map v := by
    simp
  unfold evaluateCombinationCondition combine
  dsimp only
  by_cases hu : kUnknown ∈ children.map v
  · rw [if_pos (hunknown.2 hu), if_pos hu]
  · rw [if_neg (mt hunknown.1 hu), if_neg hu]
    -- what is left is false or true
    have hfalse : ∀ c ∈ children, v c = kFalse ↔ ¬ v c = kTrue := by
      intro c hc
      have hne := hv c hc
      have hnu : v c ≠ kUnknown := fun h => hu (h ▸ List.mem_map_of_mem hc)
      cases hvc : v c <;> simp_all
    have hany : (children.any fun c => decide (v c = kFalse)) = !(children.map fun c => decide (v c = kTrue)).all id := by
      rw [Bool.eq_iff_iff]
      simp only [List.any_eq_true, decide_eq_true_eq, Bool.not_eq_true', List.all_eq_false, List.mem_map, id]
      constructor
      · rintro ⟨c, hc, hvc⟩
        exact ⟨_, ⟨c, hc, rfl⟩, by simpa using (hfalse c hc).1 hvc⟩
      · rintro ⟨b, ⟨c, hc, rfl⟩, hb⟩
        exact ⟨c, hc, (hfalse c hc).2 (by simpa using hb)⟩
    have htrue : (children.any fun c => decide (v c = kTrue)) = (children.map fun c => decide (v c = kTrue)).any id := by
      rw [List.any_map]
      rfl
    rw [hany, htrue, List.map_map]
    have hcomp : (fun c => decide (v c = kTrue)) = (fun x => decide (x = kTrue)) ∘ v := rfl
    have hflip : ∀ b : Bool, (if b = true then kFalse else kTrue) = ofBool !b := by
      intro b
      cases b <;> rfl
    rw [← hcomp]
    cases operation with
    | NOT =>
      obtain ⟨c, rfl⟩ := List.length_eq_one_iff.1 (hnot rfl)
      have hc := hfalse c List.mem_cons_self
      by_cases ht : v c = kTrue
      · simp [LogicalOperation.eval, ofBool, ht]
      · simp [LogicalOperation.eval, ofBool, hc.2 ht]
    | AND => exact (hflip _).trans (congrArg ofBool (Bool.not_not _))
    | OR => rfl
    | NAND => rfl
    | NOR => exact hflip _
    | LOGICAL_OPERATION_UNSPECIFIED => rfl

namespace Sound

variable {indices : Nat → Config.SimplePredicate → MatcherIndices} {predicates : List Config.Predicate} {s : Conditions}
  (h : Sound indices predicates s)
include h

theorem eq_of_id {i j : Nat} {m m' : Config.Predicate} (hm : predicates[i]? = some m) (hm' : predicates[j]? = some m')
    (hid : m.id = m'.id) : i = j ∧ m = m' := by
  have hi := h.lookup_iff.2 ⟨m, hm, rfl⟩
  rw [hid, h.lookup_iff.2 ⟨m', hm', rfl⟩] at hi
  cases hi
  rw [hm] at hm'
  exact ⟨rfl, Option.some.inj hm'⟩

variable {v : Nat → ConditionState}

theorem combination_eq {i : Nat} {m : Config.Predicate} (hm : predicates[i]? = some m) {operation : LogicalOperation}
    {predicate : List Int} (hc : m.contents = .combination (some operation) predicate)
    (hv : Valued (trackerAt s.mAllConditionTrackers) v) (hne : ∀ j, v j ≠ kNotEvaluated)
    {value : Int → ConditionState}
    (hvalue : ∀ c ∈ predicate, ∀ j m', predicates[j]? = some m' → m'.id = c →
      j ∈ (trackerAt s.mAllConditionTrackers i).mChildren → value c = v j) :
    combine operation (predicate.map value) = v i := by
  have hcontents := (h.made i m hm).contents
  rw [hc] at hcontents
  obtain ⟨o, ho, hkind, hnot, hmap, -⟩ := hcontents
  cases ho
  have hvi := hv i
  rw [hkind] at hvi
  dsimp only at hvi
  have hlen := congrArg List.length hmap
  rw [List.length_map, List.length_map] at hlen
  rw [hvi, evaluateCombinationCondition_eq (fun c _ => hne c) fun ho => by rw [← hlen, hnot ho]]
  -- a value of an id is the value of its index
  let said : Option Nat → ConditionState := fun j => v (j.getD 0)
  have hchildren : (trackerAt s.mAllConditionTrackers i).mChildren.map v =
      predicate.map fun c => said (s.conditionTrackerMap.lookup c) := by
    have heq := congrArg (List.map said) hmap
    rw [List.map_map, List.map_map] at heq
    exact heq.symm
  rw [hchildren]
  congr 1
  refine List.map_congr_left fun c hcm => ?_
  have hsome : s.conditionTrackerMap.lookup c ∈ (trackerAt s.mAllConditionTrackers i).mChildren.map some := by
    rw [← hmap]
    exact List.mem_map_of_mem hcm
  obtain ⟨j, hj, hjc⟩ := List.mem_map.1 hsome
  obtain ⟨m', hm', hid⟩ := h.lookup_iff.1 hjc.symm
  rw [hvalue c hcm j m' hm' hid hj, ← hjc]
  rfl

theorem value_iff (hv : Valued (trackerAt s.mAllConditionTrackers) v)
    (hne : ∀ j, v j ≠ kNotEvaluated) {i : Nat} {m : Config.Predicate} (hm : predicates[i]? = some m)
    (x : ConditionState) : Value predicates s m.id x ↔ x = v i := by
  constructor
  · intro hx
    generalize hid : m.id = id at hx
    induction hx generalizing i m with
    | simple hm' hp ht =>
      obtain ⟨rfl, -⟩ := h.eq_of_id hm hm' hid
      have hvi := hv i
      rw [ht] at hvi
      exact hvi.symm
    | combination hmem hc _ ih =>
      obtain ⟨j, hj⟩ := List.mem_iff_getElem?.1 hmem
      obtain ⟨rfl, rfl⟩ := h.eq_of_id hm hj hid
      exact h.combination_eq hm hc hv hne fun c hcm k m' hm' hid' _ => ih c hcm hm' hid'
  · rintro rfl
    obtain ⟨rank, hrank⟩ := h.ranked
    induction hr : rank i using Nat.strong_induction_on generalizing i m with
    | _ r ih =>
      subst hr
      have hcontents := (h.made i m hm).contents
      cases hc : m.contents with
      | CONTENTS_NOT_SET =>
        rw [hc] at hcontents
        exact hcontents.elim
      | simple_predicate p =>
        rw [hc] at hcontents
        obtain ⟨-, -, t, ht, -⟩ := hcontents
        have hvi := hv i
        rw [ht] at hvi
        rw [hvi]
        exact .simple hm hc ht
      | combination operation predicate =>
        have hc' := hc
        rw [hc] at hcontents
        obtain ⟨o, rfl, -, -, hmap, -⟩ := hcontents
        let value : Int → ConditionState := fun c => v ((s.conditionTrackerMap.lookup c).getD 0)
        have hvalue : ∀ c j m', predicates[j]? = some m' → m'.id = c → value c = v j := by
          intro c j m' hm' hid
          have hj := h.lookup_iff.2 ⟨m', hm', hid⟩
          show v ((s.conditionTrackerMap.lookup c).getD 0) = v j
          rw [hj]
          rfl
        rw [← h.combination_eq hm hc hv hne fun c _ j m' hm' hid _ => hvalue c j m' hm' hid]
        refine .combination (List.mem_of_getElem? hm) hc fun c hcm => ?_
        have hsome : s.conditionTrackerMap.lookup c ∈ (trackerAt s.mAllConditionTrackers i).mChildren.map some := by
          rw [← hmap]
          exact List.mem_map_of_mem hcm
        obtain ⟨j, hj, hjc⟩ := List.mem_map.1 hsome
        obtain ⟨m', hm', hid⟩ := h.lookup_iff.1 hjc.symm
        rw [hvalue c j m' hm' hid, ← hid]
        exact ih (rank j) (hrank i j hj) hm' rfl

variable (hdim : NoDimensions predicates)
include hdim

theorem query_eq (hv : Valued (trackerAt s.mAllConditionTrackers) v) {i : Nat}
    (hi : i < predicates.length) (isPartialLink : Bool) : query s i (fun _ => none) isPartialLink = v i := by
  obtain ⟨rank, hbound, hrank⟩ := h.exists_rank
  have hlawful := queryMemo_lawful hrank h.leaf
  unfold query
  rw [h.length, isConditionMet_eq_visit (fun j t ht => ⟨h.leaf j t ht, (h.leaf_unsliced hdim ht).sliced⟩) isPartialLink
    predicates.length i rfl, (hlawful.visit_spec ((hbound i).2 hi) fun _ => .inl rfl).2.1]
  exact (queryMemo_valued hrank h.leaf).unique hrank hv i

variable (event : MatchedEvent) (hlisted : Listed s event)
include hlisted

theorem changed_iff {rank : Nat → Nat} (hbound : ∀ i, rank i < predicates.length ↔ i < predicates.length)
    (hrank : ∀ i, ∀ c ∈ (trackerAt s.mAllConditionTrackers i).mChildren, rank c < rank i)
    (hv : Valued (trackerAt s.mAllConditionTrackers) v) {i : Nat} (hi : i < predicates.length) :
    (evaluateConditions s event i).changedCache = true ↔
      cacheOf ((eventMemo event).value rank s.entries) i ≠ v i ∨
        ∃ t, (trackerAt s.mAllConditionTrackers i).kind = .simple t ∧ StoppedAgain t event := by
  have hlawful := h.eventMemo_lawful hdim event hrank
  have hvi := hv i
  rcases h.step_cases event hbound hlawful i with ⟨hs, -, hno⟩ | ⟨-, hs, -⟩
  · rw [hs, h.value_unmatched hdim event hlisted hrank hv i hno]
    refine iff_of_false Bool.false_ne_true ?_
    rintro (hne | ⟨t, ht, hstopped⟩)
    · exact hne rfl
    · obtain ⟨k, hk, hmk⟩ := hlisted i t ht (.inr (.inr hstopped.1))
      exact hno k hk hmk
  · rw [hs]
    cases hk : (trackerAt s.mAllConditionTrackers i).kind with
    | simple t =>
      have hstep := evaluate_step (h.leaf i t hk) (h.leaf_unsliced hdim hk) event
      rw [hk] at hvi
      unfold cacheOf
      rw [value_simple event hlawful hk, hvi]
      dsimp only
      rw [hstep.changed, hstep.cache]
      refine or_congr_right ⟨fun hstopped => ⟨t, rfl, hstopped⟩, ?_⟩
      rintro ⟨t', ht', hstopped⟩
      cases ht'
      exact hstopped
    | combination operation =>
      obtain ⟨w, -, heq⟩ := h.value_combination hdim event hlawful hk
      unfold cacheOf
      rw [heq, h.stored v hv i hi operation hk]
      dsimp only
      rw [decide_eq_true_eq]
      constructor
      · exact fun hne => .inl hne.symm
      · rintro (hne | ⟨t, ht, -⟩)
        · exact hne.symm
        · cases ht

omit hlisted in
theorem value_stoppedAgain {rank : Nat → Nat}
    (hrank : ∀ i, ∀ c ∈ (trackerAt s.mAllConditionTrackers i).mChildren, rank c < rank i)
    (hv : Valued (trackerAt s.mAllConditionTrackers) v) {i : Nat} {t : SimpleConditionTracker}
    (ht : (trackerAt s.mAllConditionTrackers i).kind = .simple t) (hstopped : StoppedAgain t event) :
    cacheOf ((eventMemo event).value rank s.entries) i = v i := by
  obtain ⟨hm, -, hl⟩ := hstopped
  have hvi := hv i
  rw [ht] at hvi
  unfold cacheOf
  rw [value_simple event (h.eventMemo_lawful hdim event hrank) ht, hvi]
  dsimp only
  rw [leafState_some hl]
  rcases SimpleConditionTracker.evaluate_cases t event (h.leaf_unsliced hdim ht).any with
    ⟨-, he⟩ | ⟨hm', -⟩ | ⟨_, hm', -⟩
  · rw [he]
    rfl
  · rw [hm] at hm'
    cases hm'
  · rw [hm] at hm'
    cases hm'

theorem exact_iff : Exact predicates s event ↔ Quiet s event := by
  obtain ⟨rank, hbound, hrank⟩ := h.exists_rank
  obtain ⟨v, hv, hne⟩ := h.exists_valued
  have hlawful := h.eventMemo_lawful hdim event hrank
  have hv' := h.valued_step hdim event hlisted hbound hrank
  have hne' : ∀ j, cacheOf ((eventMemo event).value rank s.entries) j ≠ kNotEvaluated := fun j =>
    of_decide_eq_true (hlawful.value_done j)
  have hsound' := h.step hdim event hlisted
  have hchanged := fun i hi => h.changed_iff hdim event hlisted hbound hrank hv (i := i) hi
  constructor
  · intro hexact i t ht hstopped
    obtain ⟨m, -, hm, -⟩ := h.simple_contents ht
    obtain ⟨x, x', hx, hx', -, hbit, -⟩ := hexact i m hm
    have hxv := (h.value_iff hv hne hm x).1 ((hx x).2 rfl)
    have hxv' := (hsound'.value_iff hv' hne' hm x').1 ((hx' x').2 rfl)
    have hbit' := hbit.1 ((hchanged i (List.getElem?_eq_some_iff.1 hm).1).2 (.inr ⟨t, ht, hstopped⟩))
    rw [hxv, hxv', h.value_stoppedAgain hdim event hrank hv ht hstopped] at hbit'
    exact hbit' rfl
  · intro hno i m hm
    have hi := (List.getElem?_eq_some_iff.1 hm).1
    refine ⟨v i, cacheOf ((eventMemo event).value rank s.entries) i, fun x => h.value_iff hv hne hm x,
      fun x => hsound'.value_iff hv' hne' hm x, ?_, ?_, fun isPartialLink => hsound'.query_eq hdim hv' hi isPartialLink⟩
    · unfold cacheOf
      rcases h.step_cases event hbound hlawful i with ⟨hs, -⟩ | ⟨-, hs, -⟩
      · rw [hs]
        exact .inl rfl
      · rw [hs]
        exact .inr rfl
    · rw [hchanged i hi]
      constructor
      · rintro (hne | ⟨t, ht, hstopped⟩)
        · exact hne
        · exact absurd hstopped (hno i t ht)
      · exact .inl

end Sound

/-- For every accepted config of predicates without dimensions and every run of events: in a run where no simple
condition is stopped again, and none matches at an index that it does not list, every event computes, reports and
leaves to the queries the values of the predicates. Where the predicates name matchers of the config, every condition
lists its indices, and the runs without a condition that is stopped again are the only ones. -/
theorem conditions_exact {protoHash : Config.Predicate → Option UInt64} {matcherMap : UMap Int Nat}
    {uninitialized : Nat → MatcherIndices} {predicates : List Config.Predicate} {s : Conditions}
    {initialConditionCache : List ConditionState}
    (hok : initConditions protoHash matcherMap uninitialized predicates = .ok (s, initialConditionCache))
    (hdim : NoDimensions predicates) (events : List MatchedEvent) :
    (RunOk Conditions.step (fun s event => Quiet s event ∧ Listed s event) s events →
        RunOk Conditions.step (Exact predicates) s events) ∧
      (Resolved matcherMap predicates →
        (RunOk Conditions.step (Exact predicates) s events ↔ RunOk Conditions.step Quiet s events)) := by
  have hsound := initConditions_sound hdim hok
  refine ⟨fun hrun => ?_, fun hresolved => ?_⟩
  · refine hrun.imp (fun s event hs hstep => ?_) hsound
    exact ⟨hs.step hdim event hstep.2, (hs.exact_iff hdim event hstep.2).2 hstep.1⟩
  · have hlisted : ∀ {s}, Sound _ predicates s → ∀ event, Listed s event := fun hs event =>
      hs.listed event (indexed_of_resolved hresolved uninitialized)
    constructor
    · intro hrun
      refine hrun.imp (fun s event hs hstep => ?_) hsound
      exact ⟨hs.step hdim event (hlisted hs event), (hs.exact_iff hdim event (hlisted hs event)).1 hstep⟩
    · intro hrun
      refine hrun.imp (fun s event hs hstep => ?_) hsound
      exact ⟨hs.step hdim event (hlisted hs event), (hs.exact_iff hdim event (hlisted hs event)).2 hstep⟩

/-- A predicate that matchers 10, 11 and 12 start, stop and stop for good, and its negation before it. -/
def startedAndStopped : List Config.Predicate :=
  [⟨2, .combination (some .NOT) [1]⟩, ⟨1, .simple_predicate ⟨some 10, some 11, true, some 12, .UNKNOWN, none⟩⟩]

/-- The conditions of the predicates. -/
def initStartedAndStopped : Outcome (Conditions × List ConditionState) :=
  initConditions (fun m => some (UInt64.ofInt m.id)) (UMap.indexMap [10, 11, 12]) (fun _ => ⟨none, none, none, ∅⟩)
    startedAndStopped

/-- An event that the matcher at an index matches. -/
def matchedAt (index : Nat) : MatchedEvent := ⟨[], fun i => if i = index then .kMatched else .kNotMatched⟩

theorem startedAndStopped_cases {i : Nat} {m : Config.Predicate} (hm : startedAndStopped[i]? = some m) :
    m.contents = .combination (some .NOT) [1] ∨
      m.contents = .simple_predicate ⟨some 10, some 11, true, some 12, .UNKNOWN, none⟩ := by
  have hmem := List.mem_of_getElem? hm
  simp only [startedAndStopped, List.mem_cons, List.not_mem_nil, or_false] at hmem
  rcases hmem with rfl | rfl
  · exact .inl rfl
  · exact .inr rfl

theorem noDimensions_startedAndStopped : NoDimensions startedAndStopped := by
  intro m hm p hp
  obtain ⟨i, hi⟩ := List.mem_iff_getElem?.1 hm
  rcases startedAndStopped_cases hi with hc | hc
  · rw [hc] at hp
    cases hp
  · rw [hc] at hp
    cases hp
    rfl

theorem resolved_startedAndStopped : Resolved (UMap.indexMap [10, 11, 12]) startedAndStopped := by
  intro m hm c hc
  obtain ⟨i, hi⟩ := List.mem_iff_getElem?.1 hm
  rcases startedAndStopped_cases hi with hm | hm
  · rw [hm] at hc
    cases hc
  · rw [hm] at hc
    simp only [Config.PredicateContents.matchers, Config.SimplePredicate.matchers, Option.toList, List.mem_append,
      List.mem_cons, List.not_mem_nil, or_false] at hc
    rcases hc with (rfl | rfl) | rfl
    · exact ⟨0, rfl⟩
    · exact ⟨1, rfl⟩
    · exact ⟨2, rfl⟩

theorem initStartedAndStopped_ok : ∃ s initialConditionCache, initStartedAndStopped = .ok (s, initialConditionCache) ∧
    (trackerAt s.mAllConditionTrackers 1).kind =
      .simple (SimpleConditionTracker.new ⟨some 0, some 1, some 2, true, .UNKNOWN, none⟩) := ⟨_, _, rfl, rfl⟩

/-- A started and stopped predicate is reported as changed when it is stopped for good. -/
theorem conditions_not_exact : ∃ s initialConditionCache, initStartedAndStopped = .ok (s, initialConditionCache) ∧
    NoDimensions startedAndStopped ∧ Resolved (UMap.indexMap [10, 11, 12]) startedAndStopped ∧
    ¬ RunOk Conditions.step (Exact startedAndStopped) s [matchedAt 0, matchedAt 1, matchedAt 2] := by
  obtain ⟨s, cache, hok, ht⟩ := initStartedAndStopped_ok
  have hdim := noDimensions_startedAndStopped
  have hresolved := resolved_startedAndStopped
  refine ⟨s, cache, hok, hdim, hresolved, fun hrun => ?_⟩
  have hlisted : ∀ {s}, Sound _ startedAndStopped s → ∀ event, Listed s event := fun hs event =>
    hs.listed event (indexed_of_resolved hresolved fun _ => ⟨none, none, none, ∅⟩)
  have hsound := initConditions_sound hdim hok
  have hsound₁ := hsound.step hdim (matchedAt 0) (hlisted hsound _)
  have hsound₂ := hsound₁.step hdim (matchedAt 1) (hlisted hsound₁ _)
  obtain ⟨k, hk, hmk⟩ := hlisted hsound (matchedAt 0) 1 _ ht (.inl rfl)
  have ht₁ := hsound.simple_step hdim _ ht hk hmk
  obtain ⟨k₁, hk₁, hmk₁⟩ := hlisted hsound₁ (matchedAt 1) 1 _ ht₁ (.inr (.inl rfl))
  have ht₂ := hsound₁.simple_step hdim _ ht₁ hk₁ hmk₁
  exact (hsound₂.exact_iff hdim (matchedAt 2) (hlisted hsound₂ _)).1 hrun.2.2.1 1 _ ht₂ ⟨rfl, rfl, by decide +kernel⟩

/-- A start and a stop of the predicate. -/
theorem conditions_exact_startedAndStopped : ∃ s initialConditionCache,
    initStartedAndStopped = .ok (s, initialConditionCache) ∧
    RunOk Conditions.step (Exact startedAndStopped) s [matchedAt 0, matchedAt 1] := by
  obtain ⟨s, cache, hok, -⟩ := initStartedAndStopped_ok
  refine ⟨s, cache, hok, ?_⟩
  have hdim := noDimensions_startedAndStopped
  have hresolved := resolved_startedAndStopped
  refine ((conditions_exact hok hdim [matchedAt 0, matchedAt 1]).2 hresolved).2 ?_
  -- the stop-all matcher is the third one
  have hindex : ∀ {s}, Sound (fun _ p => setMatcherIndices p (UMap.indexMap [10, 11, 12]) ⟨none, none, none, ∅⟩)
      startedAndStopped s → ∀ i t, (trackerAt s.mAllConditionTrackers i).kind = .simple t →
      t.mStopAllLogMatcherIndex = some 2 := by
    intro s hs i t ht
    obtain ⟨m, p, hm, hp, -, -, hconfigured⟩ := hs.simple_contents ht
    rcases startedAndStopped_cases hm with hc | hc
    · rw [hc] at hp
      cases hp
    · rw [hc] at hp
      cases hp
      rw [hconfigured.stop_all]
      rfl
  have hsound := initConditions_sound hdim hok
  have hsound₁ := hsound.step hdim (matchedAt 0)
    (hsound.listed _ (indexed_of_resolved hresolved fun _ => ⟨none, none, none, ∅⟩))
  refine ⟨fun i t ht hstopped => ?_, fun i t ht hstopped => ?_, trivial⟩
  · obtain ⟨hm, -⟩ := hstopped
    rw [hindex hsound i t ht] at hm
    cases hm
  · obtain ⟨hm, -⟩ := hstopped
    rw [hindex hsound₁ i t ht] at hm
    cases hm

end Statsd.Condition
