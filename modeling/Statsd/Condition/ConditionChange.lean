/-
What an event changes among the conditions of any config, sliced or not. An evaluated condition has the value that its
simple conditions have for the event; it is unknown exactly when one of them is. A sliced combination is reported as changed
with any of its children, whatever its value: it may be unknown then.
-/
import Statsd.Base.Run
import Statsd.Condition.ConditionCreation
import Statsd.Condition.ConditionEvent

namespace Statsd.Condition

open ConditionState

/-- The value of a condition for an event, from the simple conditions up. -/
inductive ValueFor (s : Conditions) (event : MatchedEvent) : Nat → ConditionState → Prop
  | simple {i : Nat} {t : SimpleConditionTracker} : (trackerAt s.mAllConditionTrackers i).kind = .simple t →
      ValueFor s event i (t.evaluate event).conditionCache
  | combination {i : Nat} {operation : LogicalOperation} {v : Nat → ConditionState} :
      (trackerAt s.mAllConditionTrackers i).kind = .combination operation →
      (∀ c ∈ (trackerAt s.mAllConditionTrackers i).mChildren, ValueFor s event c (v c)) →
      ValueFor s event i (evaluateCombinationCondition (trackerAt s.mAllConditionTrackers i).mChildren operation v)

/-- The event leaves a simple condition of the condition unknown. -/
inductive LeavesUnknown (s : Conditions) (event : MatchedEvent) : Nat → Prop
  | simple {i : Nat} {t : SimpleConditionTracker} : (trackerAt s.mAllConditionTrackers i).kind = .simple t →
      (t.evaluate event).conditionCache = kUnknown → LeavesUnknown s event i
  | combination {i c : Nat} {operation : LogicalOperation} :
      (trackerAt s.mAllConditionTrackers i).kind = .combination operation →
      c ∈ (trackerAt s.mAllConditionTrackers i).mChildren → LeavesUnknown s event c → LeavesUnknown s event i

/-- The event changes the condition: a simple one, an unsliced combination whose kept value is not the new one, or a child of
a sliced combination. -/
inductive Changes (s : Conditions) (event : MatchedEvent) : Nat → Prop
  | simple {i : Nat} {t : SimpleConditionTracker} : (trackerAt s.mAllConditionTrackers i).kind = .simple t →
      (t.evaluate event).changedCache = true → Changes s event i
  | unsliced {i : Nat} {operation : LogicalOperation} {v : ConditionState} :
      (trackerAt s.mAllConditionTrackers i).kind = .combination operation → (trackerAt s.mAllConditionTrackers i).mSliced = false →
      ValueFor s event i v → (trackerAt s.mAllConditionTrackers i).mUnSlicedPartCondition ≠ v → Changes s event i
  | sliced {i c : Nat} {operation : LogicalOperation} :
      (trackerAt s.mAllConditionTrackers i).kind = .combination operation → (trackerAt s.mAllConditionTrackers i).mSliced = true →
      c ∈ (trackerAt s.mAllConditionTrackers i).mChildren → Changes s event c → Changes s event i

/-- What the conditions of a config keep in every event. -/
structure Kept (indices : Nat → Config.SimplePredicate → MatcherIndices) (predicates : List Config.Predicate)
    (s : Conditions) : Prop extends OfConfig indices predicates s where
  unsliced : ∀ i, ∀ c ∈ (trackerAt s.mAllConditionTrackers i).mUnSlicedChildren, c ∈ (trackerAt s.mAllConditionTrackers i).mChildren
  initial : ∀ i t, (trackerAt s.mAllConditionTrackers i).kind = .simple t → t.mInitialValue ≠ kNotEvaluated

/-! ## Values -/

theorem ValueFor.unique {s : Conditions} {event : MatchedEvent} {i : Nat} {v w : ConditionState} (hv : ValueFor s event i v)
    (hw : ValueFor s event i w) : v = w := by
  induction hv generalizing w with
  | simple ht =>
    cases hw with
    | simple ht' =>
      rw [ht] at ht'
      cases ht'
      rfl
    | combination hk =>
      rw [ht] at hk
      cases hk
  | combination hk _ ih =>
    cases hw with
    | simple ht =>
      rw [hk] at ht
      cases ht
    | combination hk' hw =>
      rw [hk] at hk'
      cases hk'
      exact evaluateCombinationCondition_congr _ fun c hc => ih c hc (hw c hc)

theorem evaluateCombinationCondition_unknown {children : List Nat} {operation : LogicalOperation} {v : Nat → ConditionState}
    (hnot : operation = .NOT → children ≠ []) :
    evaluateCombinationCondition children operation v = kUnknown ↔ ∃ c ∈ children, v c = kUnknown := by
  unfold evaluateCombinationCondition
  dsimp only
  constructor
  · intro h
    split at h
    · rename_i hany
      simpa using hany
    · exfalso
      cases operation with
      | NOT =>
        cases children with
        | nil => exact hnot rfl rfl
        | cons c children =>
          dsimp only at h
          split at h <;> cases h
      | LOGICAL_OPERATION_UNSPECIFIED => cases h
      | AND | OR | NAND | NOR =>
        dsimp only at h
        split at h <;> cases h
  · rintro ⟨c, hc, hv⟩
    rw [if_pos (List.any_eq_true.2 ⟨c, hc, decide_eq_true hv⟩)]

namespace Kept

variable {indices : Nat → Config.SimplePredicate → MatcherIndices} {predicates : List Config.Predicate} {s : Conditions}
  (h : Kept indices predicates s)
include h

theorem not_children {i : Nat} (hk : (trackerAt s.mAllConditionTrackers i).kind = .combination .NOT) :
    (trackerAt s.mAllConditionTrackers i).mChildren ≠ [] := by
  cases hm : predicates[i]? with
  | none =>
    rw [h.tracker_default hm] at hk
    cases hk
  | some m =>
    have hcontents := (h.made i m hm).contents
    cases hc : m.contents with
    | CONTENTS_NOT_SET =>
      rw [hc] at hcontents
      exact hcontents.elim
    | simple_predicate p =>
      rw [hc] at hcontents
      obtain ⟨-, -, t, ht, -⟩ := hcontents
      rw [hk] at ht
      cases ht
    | combination operation predicate =>
      rw [hc] at hcontents
      obtain ⟨o, -, ho, hone, hmap, -⟩ := hcontents
      rw [hk] at ho
      cases ho
      intro hnil
      have hlength := congrArg List.length hmap
      rw [List.length_map, List.length_map, hone rfl, hnil] at hlength
      cases hlength

variable (event : MatchedEvent) {rank : Nat → Nat}
  (hrank : ∀ i, ∀ c ∈ (trackerAt s.mAllConditionTrackers i).mChildren, rank c < rank i)
include hrank

theorem lawful : (eventMemo event).Lawful rank s.entries :=
  eventMemo_lawful event hrank (fun i _ => h.unsliced i) fun i t ht => (evaluate_spec t event).evaluated (h.initial i t ht)

theorem combination_eq {i : Nat} {operation : LogicalOperation} (hk : (trackerAt s.mAllConditionTrackers i).kind = .combination operation) :
    (eventMemo event).value rank s.entries i =
      evaluateCombination operation ((eventMemo event).value rank s.entries) (s.entries i) :=
  value_combination event (h.lawful event hrank) (fun _ => h.unsliced i) hk

theorem combination_cache {i : Nat} {operation : LogicalOperation}
    (hk : (trackerAt s.mAllConditionTrackers i).kind = .combination operation) :
    cacheOf ((eventMemo event).value rank s.entries) i = evaluateCombinationCondition (trackerAt s.mAllConditionTrackers i).mChildren
      operation (cacheOf ((eventMemo event).value rank s.entries)) := by
  unfold cacheOf
  rw [h.combination_eq event hrank hk]
  unfold evaluateCombination
  dsimp only
  split <;> rfl

theorem valueFor (i : Nat) : ValueFor s event i (cacheOf ((eventMemo event).value rank s.entries) i) := by
  induction hr : rank i using Nat.strong_induction_on generalizing i with
  | _ r ih =>
    subst hr
    cases hk : (trackerAt s.mAllConditionTrackers i).kind with
    | simple t =>
      unfold cacheOf
      rw [value_simple event (h.lawful event hrank) hk]
      exact .simple hk
    | combination operation =>
      rw [h.combination_cache event hrank hk]
      exact .combination hk fun c hc => ih (rank c) (hrank i c hc) c rfl

theorem unknown_iff (i : Nat) : cacheOf ((eventMemo event).value rank s.entries) i = kUnknown ↔ LeavesUnknown s event i := by
  have hnot : ∀ {i operation}, (trackerAt s.mAllConditionTrackers i).kind = .combination operation →
      operation = .NOT → (trackerAt s.mAllConditionTrackers i).mChildren ≠ [] := by
    rintro i _ hk rfl
    exact h.not_children hk
  constructor
  · intro hu
    induction hr : rank i using Nat.strong_induction_on generalizing i with
    | _ r ih =>
      subst hr
      cases hk : (trackerAt s.mAllConditionTrackers i).kind with
      | simple t =>
        unfold cacheOf at hu
        rw [value_simple event (h.lawful event hrank) hk] at hu
        exact .simple hk hu
      | combination operation =>
        rw [h.combination_cache event hrank hk, evaluateCombinationCondition_unknown (hnot hk)] at hu
        obtain ⟨c, hc, hv⟩ := hu
        exact .combination hk hc (ih (rank c) (hrank i c hc) c hv rfl)
  · intro hu
    induction hu with
    | simple ht hv =>
      unfold cacheOf
      rw [value_simple event (h.lawful event hrank) ht]
      exact hv
    | combination hk hc _ ih =>
      rw [h.combination_cache event hrank hk, evaluateCombinationCondition_unknown (hnot hk)]
      exact ⟨_, hc, ih⟩

theorem changed_iff (i : Nat) : ((eventMemo event).value rank s.entries i).changedCache = true ↔ Changes s event i := by
  induction hr : rank i using Nat.strong_induction_on generalizing i with
  | _ r ih =>
    subst hr
    have hvalue := h.valueFor event hrank i
    cases hk : (trackerAt s.mAllConditionTrackers i).kind with
    | simple t =>
      rw [value_simple event (h.lawful event hrank) hk]
      constructor
      · exact .simple hk
      · intro hc
        cases hc with
        | simple ht hchanged =>
          rw [hk] at ht
          cases ht
          exact hchanged
        | unsliced hk' => rw [hk] at hk'; cases hk'
        | sliced hk' => rw [hk] at hk'; cases hk'
    | combination operation =>
      cases hs : (trackerAt s.mAllConditionTrackers i).mSliced with
      | false =>
        have hchanged : ((eventMemo event).value rank s.entries i).changedCache = true ↔
            (trackerAt s.mAllConditionTrackers i).mUnSlicedPartCondition ≠ cacheOf ((eventMemo event).value rank s.entries) i := by
          rw [h.combination_cache event hrank hk, h.combination_eq event hrank hk]
          unfold evaluateCombination Conditions.entries
          dsimp only
          rw [hs, Bool.not_false, if_pos rfl]
          exact decide_eq_true_iff
        rw [hchanged]
        constructor
        · exact .unsliced hk hs hvalue
        · intro hc
          cases hc with
          | simple ht => rw [hk] at ht; cases ht
          | unsliced _ _ hv hne => rwa [hvalue.unique hv]
          | sliced _ hs' => rw [hs] at hs'; cases hs'
      | true =>
        have hchanged : ((eventMemo event).value rank s.entries i).changedCache = true ↔
            ∃ c ∈ (trackerAt s.mAllConditionTrackers i).mChildren, ((eventMemo event).value rank s.entries c).changedCache = true := by
          rw [h.combination_eq event hrank hk]
          unfold evaluateCombination Conditions.entries
          dsimp only
          rw [hs, Bool.not_true, if_neg Bool.false_ne_true]
          simp
        rw [hchanged]
        constructor
        · rintro ⟨c, hc, hch⟩
          exact .sliced hk hs hc ((ih (rank c) (hrank i c hc) c rfl).1 hch)
        · intro hc
          cases hc with
          | simple ht => rw [hk] at ht; cases ht
          | unsliced _ hs' => rw [hs] at hs'; cases hs'
          | sliced _ _ hc hch => exact ⟨_, hc, (ih _ (hrank i _ hc) _ rfl).2 hch⟩

theorem same_value (i : Nat) : Same (trackerAt s.mAllConditionTrackers i) ((eventMemo event).value rank s.entries i).tracker ∧
    ((eventMemo event).value rank s.entries i).tracker.mUnSlicedChildren = (trackerAt s.mAllConditionTrackers i).mUnSlicedChildren := by
  cases hk : (trackerAt s.mAllConditionTrackers i).kind with
  | simple t =>
    have hspec := evaluate_spec t event
    rw [value_simple event (h.lawful event hrank) hk]
    refine ⟨⟨rfl, rfl, rfl, rfl, rfl, ?_⟩, rfl⟩
    rw [hk]
    refine ⟨_, rfl, ?_, hspec.configured⟩
    cases hm : predicates[i]? with
    | none =>
      rw [h.tracker_default hm] at hk
      cases hk
    | some m =>
      obtain ⟨p, -, -, -, -, hconfigured⟩ := (h.made i m hm).simple hk
      exact (hspec.configured _ hconfigured).sliced.trans hconfigured.sliced.symm
  | combination operation =>
    rw [h.combination_eq event hrank hk]
    unfold evaluateCombination
    dsimp only
    split
    · refine ⟨⟨rfl, rfl, rfl, rfl, rfl, ?_⟩, rfl⟩
      rw [hk]
      exact hk
    · refine ⟨⟨rfl, rfl, rfl, rfl, rfl, ?_⟩, rfl⟩
      rw [hk]
      exact hk

omit hrank

theorem step_cases {rank : Nat → Nat} (hbound : ∀ i, rank i < predicates.length ↔ i < predicates.length)
    (hrank : ∀ i, ∀ c ∈ (trackerAt s.mAllConditionTrackers i).mChildren, rank c < rank i) (i : Nat) :
    (evaluateConditions s event i = s.entries i ∧
        trackerAt (s.step event).mAllConditionTrackers i = trackerAt s.mAllConditionTrackers i) ∨
      (evaluateConditions s event i = (eventMemo event).value rank s.entries i ∧
        trackerAt (s.step event).mAllConditionTrackers i = ((eventMemo event).value rank s.entries i).tracker) := by
  by_cases hi : i < s.mAllConditionTrackers.length
  · rw [trackerAt_step s event hi]
    rcases evaluateConditions_spec event h.length hbound (h.lawful event hrank) i with ⟨hs, -⟩ | ⟨-, hv⟩
    · rw [hs]
      exact .inl ⟨rfl, rfl⟩
    · rw [hv]
      exact .inr ⟨rfl, rfl⟩
  · rcases evaluateConditions_spec event h.length hbound (h.lawful event hrank) i with ⟨hs, -⟩ | ⟨hlt, -⟩
    · refine .inl ⟨hs, ?_⟩
      rw [trackerAt_of_le (not_lt.1 hi), trackerAt_of_le (by rw [step_length]; exact not_lt.1 hi)]
    · rw [h.length] at hi
      exact absurd hlt hi

theorem step : Kept indices predicates (s.step event) := by
  obtain ⟨rank, hbound, hrank⟩ := h.exists_rank
  have hsame : ∀ i, Same (trackerAt s.mAllConditionTrackers i) (trackerAt (s.step event).mAllConditionTrackers i) ∧
      (trackerAt (s.step event).mAllConditionTrackers i).mUnSlicedChildren = (trackerAt s.mAllConditionTrackers i).mUnSlicedChildren := by
    intro i
    rcases h.step_cases event hbound hrank i with ⟨-, heq⟩ | ⟨-, heq⟩
    · rw [heq]
      exact ⟨.refl _, rfl⟩
    · rw [heq]
      exact h.same_value event hrank i
  refine ⟨h.toOfConfig.step event fun i => (hsame i).1, fun i c hc => ?_, fun i t ht => ?_⟩
  · rw [(hsame i).2] at hc
    rw [(hsame i).1.children]
    exact h.unsliced i c hc
  · rcases h.step_cases event hbound hrank i with ⟨-, heq⟩ | ⟨-, heq⟩
    · rw [heq] at ht
      exact h.initial i t ht
    · cases hk : (trackerAt s.mAllConditionTrackers i).kind with
      | simple t₀ =>
        rw [heq, value_simple event (h.lawful event hrank) hk] at ht
        cases ht
        rcases (evaluate_spec t₀ event).initial with hi | hi
        · rw [hi]
          exact h.initial i t₀ hk
        · rw [hi]
          exact nofun
      | combination operation =>
        have hkind := (hsame i).1.kind
        rw [hk] at hkind
        rw [hkind] at ht
        cases ht

theorem evaluated {rank : Nat → Nat} (hbound : ∀ i, rank i < predicates.length ↔ i < predicates.length)
    (hrank : ∀ i, ∀ c ∈ (trackerAt s.mAllConditionTrackers i).mChildren, rank c < rank i) {i k : Nat} (hi : i < predicates.length)
    (hk : k ∈ (trackerAt s.mAllConditionTrackers i).mTrackerIndex) (hmk : event.eventMatcherValues k = .kMatched) :
    evaluateConditions s event i = (eventMemo event).value rank s.entries i := by
  rcases evaluateConditions_spec event h.length hbound (h.lawful event hrank) i with ⟨-, hto⟩ | ⟨-, hv⟩
  · have hto' := (h.to_be_evaluated event hi).2 ⟨k, hk, hmk⟩
    rw [hto hi] at hto'
    cases hto'
  · exact hv

theorem changedCache_of_changes {i k : Nat} (hi : i < predicates.length)
    (hk : k ∈ (trackerAt s.mAllConditionTrackers i).mTrackerIndex) (hmk : event.eventMatcherValues k = .kMatched)
    (hchanges : Changes s event i) : (evaluateConditions s event i).changedCache = true := by
  obtain ⟨rank, hbound, hrank⟩ := h.exists_rank
  rw [h.evaluated event hbound hrank hi hk hmk]
  exact (h.changed_iff event hrank i).2 hchanges

/-- What a change that an event reports says: the condition has its value for the event, it is changed, and it is unknown when
one of its simple conditions is. -/
theorem reported {i : Nat} (hchanged : (evaluateConditions s event i).changedCache = true) :
    Changes s event i ∧ ValueFor s event i (cacheOf (evaluateConditions s event) i) ∧
      (cacheOf (evaluateConditions s event) i = kUnknown ↔ LeavesUnknown s event i) ∧
      cacheOf (evaluateConditions s event) i ≠ kNotEvaluated := by
  obtain ⟨rank, hbound, hrank⟩ := h.exists_rank
  rcases h.step_cases event hbound hrank i with ⟨heq, -⟩ | ⟨heq, -⟩
  · rw [heq] at hchanged
    cases hchanged
  · rw [heq] at hchanged
    have hcache : cacheOf (evaluateConditions s event) i = cacheOf ((eventMemo event).value rank s.entries) i :=
      congrArg Entry.conditionCache heq
    rw [hcache]
    exact ⟨(h.changed_iff event hrank i).1 hchanged, h.valueFor event hrank i, h.unknown_iff event hrank i,
      of_decide_eq_true ((h.lawful event hrank).value_done i)⟩

end Kept

theorem initConditions_kept {protoHash : Config.Predicate → Option UInt64} {matcherMap : UMap Int Nat}
    {uninitialized : Nat → MatcherIndices} {config : List Config.Predicate} {s : Conditions}
    {initialConditionCache : List ConditionState}
    (hok : initConditions protoHash matcherMap uninitialized config = .ok (s, initialConditionCache)) :
    Kept (fun i p => setMatcherIndices p matcherMap (uninitialized i)) config s := by
  unfold initConditions at hok
  split at hok
  · cases hok
  · rename_i trackers hmake
    have h := created_of_makeTrackers hmake
    split at hok
    · rename_i hnodup
      split at hok
      · cases hok
      · cases hok
      · rename_i q hinit
        have hq := h.initialised hinit
        cases hok
        refine ⟨h.ofConfig hq hnodup rfl, ?_, ?_⟩
        · dsimp only
          rw [h.trackerAt_eq hq]
          exact h.unslicedChildren hq
        · dsimp only
          rw [h.trackerAt_eq hq]
          exact fun i t ht => h.initial hq ht
    · cases hok

end Statsd.Condition
