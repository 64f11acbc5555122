/-
The conditions that `initConditions` leaves for a config it accepts, which it decides for every config: they are made
of the predicates, and the initial condition cache has their values.
-/
import Statsd.Condition.ConditionSound

namespace Statsd.Condition

open ConditionState

theorem initAll_eq {config : List Config.Predicate} {map : UMap Int Nat} {nodes₀ : Nat → Entry}
    (hfresh : ∀ i, Fresh (nodes₀ i)) (fuel : Nat) (l : List Nat) {s : Graph Entry}
    (hinv : (setup config map).Inv nodes₀ s) (hs : s.stack = fun _ => false) :
    initAll config map fuel l s = (setup config map).initAll fuel l s := by
  induction l generalizing s with
  | nil => rfl
  | cons i l ih =>
    rw [initAll, Setup.initAll, init_eq hfresh fuel i hinv (by rw [hs])]
    cases hc : (setup config map).init fuel i s with
    | failure => rfl
    | outOfFuel => rfl
    | ok s₁ =>
      obtain ⟨hinv₁, hframe, -⟩ := setup_lawful.init_spec fuel i hinv (by rw [hs]) hc
      exact ih hinv₁ (hframe.stack.trans hs)

section

variable {protoHash : Config.Predicate → Option UInt64} {matcherMap map : UMap Int Nat}
  {uninitialized : Nat → MatcherIndices} {config : List Config.Predicate} {i : Nat} {m : Config.Predicate}

theorem leafOk_new (p : SimplePredicate) : LeafOk (SimpleConditionTracker.new p) := by
  refine ⟨?_, fun _ _ => rfl, nofun⟩
  unfold SimpleConditionTracker.new
  dsimp only
  split
  · exact .inr rfl
  · exact .inl rfl

theorem fresh_of_created {t : ConditionTracker} (h : createConditionTracker protoHash matcherMap uninitialized i m = some t) :
    Fresh ⟨t, kNotEvaluated, false⟩ := by
  unfold createConditionTracker at h
  split at h
  · cases h
  · split at h
    · cases h
      refine ⟨rfl, rfl, rfl, ?_⟩
      rcases (leafOk_new _).initial with hi | hi <;> rw [hi] <;> exact nofun
    · cases h
      exact ⟨rfl, rfl, rfl⟩
    · cases h

theorem fresh_default : Fresh ⟨default, kNotEvaluated, false⟩ := ⟨rfl, rfl, rfl⟩

theorem made_of_created {nodes₀ nodes : Nat → Entry} (hm : config[i]? = some m)
    (hnew : createConditionTracker protoHash matcherMap uninitialized i m = some (nodes₀ i).tracker)
    (hfresh : Fresh (nodes₀ i)) (hbuilt : (setup config map).Built nodes₀ nodes i) :
    Made (fun i p => setMatcherIndices p matcherMap (uninitialized i)) map (fun i => (nodes i).tracker) i m := by
  have hcases := built_cases hfresh hbuilt
  unfold createConditionTracker at hnew
  cases hhash : protoHash m with
  | none => rw [hhash] at hnew; cases hnew
  | some hash =>
    rw [hhash] at hnew
    dsimp only at hnew
    cases hcontents : m.contents with
    | CONTENTS_NOT_SET => rw [hcontents] at hnew; cases hnew
    | simple_predicate p =>
      rw [hcontents] at hnew
      have heq := (Option.some.inj hnew).symm
      rcases hcases with ⟨t, hkind, -, hnode⟩ | ⟨operation, cs, hstart, -⟩
      · rw [heq] at hkind
        have ht := ConditionKind.simple.inj hkind
        refine ⟨?_, ?_, ?_⟩
        · rw [hnode]
          exact congrArg ConditionTracker.mConditionId heq
        · rw [hnode]
          exact congrArg ConditionTracker.mIndex heq
        · rw [hcontents, hnode]
          dsimp only [initSimple]
          rw [heq]
          exact ⟨rfl, rfl, _, rfl, rfl, SimpleConditionTracker.configured_new _⟩
      · unfold startCombination at hstart
        rw [hm, Option.map_some, hcontents] at hstart
        cases hstart
    | combination operation predicate =>
      rw [hcontents] at hnew
      have heq := (Option.some.inj hnew).symm
      rcases hcases with ⟨t, hkind, -⟩ | ⟨o, cs, hstart, e, he, hnode⟩
      · rw [heq] at hkind
        cases hkind
      · unfold startCombination at hstart
        rw [hm, Option.map_some, hcontents] at hstart
        cases operation with
        | none => cases hstart
        | some o' =>
          dsimp only at hstart
          by_cases hnot : o' = .NOT ∧ predicate.length ≠ 1
          · rw [if_pos hnot] at hstart
            cases hstart
          · rw [if_neg hnot] at hstart
            obtain ⟨rfl, hmap⟩ := Prod.mk.inj (Option.some.inj hstart)
            obtain ⟨sliced, us, ss, ids, hassembled, hsliced, -, -, hids⟩ := assembled_eq config map nodes
              (setOperation o' (nodes₀ i)) cs
            rw [hassembled] at he
            refine ⟨?_, ?_, ?_⟩
            · rw [hnode, he]
              exact congrArg ConditionTracker.mConditionId heq
            · rw [hnode, he]
              exact congrArg ConditionTracker.mIndex heq
            · rw [hcontents, hnode, he]
              dsimp only [setOperation, initCombination, cacheCombination] at hsliced hids ⊢
              rw [heq] at hsliced hids ⊢
              refine ⟨o', rfl, rfl, fun ho => not_not.1 fun hlen => hnot ⟨ho, hlen⟩, hmap, ?_, fun k => ?_⟩
              · rw [hsliced]
                simp
              · rw [hids]
                simp

theorem leafOk_of_created {t : ConditionTracker}
    (h : createConditionTracker protoHash matcherMap uninitialized i m = some t) {s : SimpleConditionTracker}
    (hs : t.kind = .simple s) : LeafOk s := by
  unfold createConditionTracker at h
  split at h
  · cases h
  · split at h
    · cases h
      cases hs
      exact leafOk_new _
    · cases h
      cases hs
    · cases h

theorem cache_of_built {nodes₀ nodes : Nat → Entry} (hfresh : Fresh (nodes₀ i))
    (hbuilt : (setup config map).Built nodes₀ nodes i) (hunsliced : ∀ j, (nodes j).tracker.mSliced = false) :
    match (nodes i).tracker.kind with
    | .simple t => (nodes₀ i).tracker.kind = .simple t ∧ (LeafOk t → t.mSliced = false → cacheOf nodes i = leafState t)
    | .combination operation =>
      (nodes i).tracker.mUnSlicedPartCondition = cacheOf nodes i ∧
        cacheOf nodes i = evaluateCombinationCondition (nodes i).tracker.mChildren operation (cacheOf nodes) := by
  unfold cacheOf
  rcases built_cases hfresh hbuilt with ⟨t, hkind, -, hnode⟩ | ⟨operation, cs, -, e, he, hnode⟩
  · have hk : (nodes i).tracker.kind = .simple t := by
      rw [hnode]
      exact hkind
    rw [hk]
    refine ⟨hkind, fun hleaf hsliced => ?_⟩
    rw [hnode]
    unfold initSimple
    dsimp only
    rw [hfresh.conditionCache, hsliced]
    exact hleaf.isConditionMet_eq hsliced false
  · obtain ⟨sliced, us, ss, ids, hassembled, -, -, hus, -⟩ := assembled_eq config map nodes
      (setOperation operation (nodes₀ i)) cs
    have hbare : (setOperation operation (nodes₀ i)).tracker.mUnSlicedChildren = [] ∧
        (setOperation operation (nodes₀ i)).tracker.mChildren = [] := by
      rw [← hfresh.bare]
      exact ⟨rfl, rfl⟩
    rw [hbare.1] at hus
    rw [hus fun c _ => hunsliced c] at hassembled
    rw [hassembled] at he
    have hk : (nodes i).tracker.kind = .combination operation := by
      rw [hnode, he]
      rfl
    rw [hk, hnode, he]
    dsimp only [initCombination, cacheCombination]
    rw [hbare.2]
    exact ⟨rfl, rfl⟩

/-! ## From the config to its conditions -/

variable {trackers : List ConditionTracker}

/-- The trackers of a config before they are initialised. -/
structure Created (protoHash : Config.Predicate → Option UInt64) (matcherMap : UMap Int Nat)
    (uninitialized : Nat → MatcherIndices) (config : List Config.Predicate) (trackers : List ConditionTracker) : Prop where
  length : trackers.length = config.length
  get : ∀ i m, config[i]? = some m →
    createConditionTracker protoHash matcherMap uninitialized i m = some (trackerAt trackers i)

theorem created_of_makeTrackers
    (h : Config.makeTrackers (createConditionTracker protoHash matcherMap uninitialized) 0 config = some trackers) :
    Created protoHash matcherMap uninitialized config trackers := by
  obtain ⟨hlen, hget⟩ := Config.makeTrackers_get h
  refine ⟨hlen, fun i m hm => ?_⟩
  obtain ⟨t, ht, hnew⟩ := hget i m hm
  rw [trackerAt_of_get ht, ← hnew, Nat.zero_add]

/-- The entries an initialisation starts from. -/
def startEntries (trackers : List ConditionTracker) (i : Nat) : Entry := ⟨trackerAt trackers i, kNotEvaluated, false⟩

/-- The entries at the end of an initialisation. -/
structure Initialised (config : List Config.Predicate) (map : UMap Int Nat) (trackers : List ConditionTracker)
    (q : Graph Entry) : Prop where
  inv : (setup config map).Inv (startEntries trackers) q
  stack : q.stack = fun _ => false
  ready : ∀ i < trackers.length, (setup config map).ready (q.nodes i) = true

namespace Created

variable (h : Created protoHash matcherMap uninitialized config trackers)
include h

theorem default_of_none (hi : config[i]? = none) : trackerAt trackers i = default :=
  trackerAt_of_le (by rw [h.length]; exact List.getElem?_eq_none_iff.1 hi)

theorem lt_of_get (hm : config[i]? = some m) : i < trackers.length := by
  rw [h.length]
  exact (List.getElem?_eq_some_iff.1 hm).1

theorem fresh (i : Nat) : Fresh (startEntries trackers i) := by
  unfold startEntries
  cases hm : config[i]? with
  | none =>
    rw [h.default_of_none hm]
    exact fresh_default
  | some m => exact fresh_of_created (h.get i m hm)

theorem inv_start (map : UMap Int Nat) :
    (setup config map).Inv (startEntries trackers) ⟨startEntries trackers, fun _ => false⟩ := by
  refine Setup.Lawful.inv_start ⟨fun _ => 0, fun i hi => ?_⟩
  rw [(h.fresh i).not_ready] at hi
  cases hi

theorem initAll_eq (map : UMap Int Nat) (fuel : Nat) (l : List Nat) :
    initAll config map fuel l ⟨startEntries trackers, fun _ => false⟩ =
      (setup config map).initAll fuel l ⟨startEntries trackers, fun _ => false⟩ :=
  Condition.initAll_eq h.fresh fuel l (h.inv_start map) rfl

theorem initialised {q : Graph Entry} {fuel : Nat}
    (hq : initAll config map fuel (List.range trackers.length) ⟨startEntries trackers, fun _ => false⟩ = .ok q) :
    Initialised config map trackers q := by
  rw [h.initAll_eq] at hq
  obtain ⟨hinv, hstack, -, hready⟩ := setup_lawful.initAll_spec _ _ (h.inv_start map) rfl hq
  exact ⟨hinv, hstack, fun i hi => hready i (List.mem_range.2 hi)⟩

variable {q : Graph Entry} (hq : Initialised config map trackers q)
include hq

theorem built (hi : i < trackers.length) : (setup config map).Built (startEntries trackers) q.nodes i := by
  rcases hq.inv.built i (hq.ready i hi) with hr | hb
  · rw [(h.fresh i).not_ready] at hr
    cases hr
  · exact hb

theorem made (hm : config[i]? = some m) :
    Made (fun i p => setMatcherIndices p matcherMap (uninitialized i)) map (fun i => (q.nodes i).tracker) i m :=
  made_of_created hm (h.get i m hm) (h.fresh i) (h.built hq (h.lt_of_get hm))

theorem none_built (hi : config[i]? = none) : (q.nodes i).tracker = default := by
  have hnr : (setup config map).ready (q.nodes i) = false := by
    by_contra hr
    rw [Bool.not_eq_false] at hr
    rcases hq.inv.built i hr with hr₀ | hb
    · rw [(h.fresh i).not_ready] at hr₀
      cases hr₀
    · rcases built_cases (h.fresh i) hb with ⟨t, hk, -⟩ | ⟨operation, cs, hstart, -⟩
      · unfold startEntries at hk
        rw [h.default_of_none hi] at hk
        cases hk
      · unfold startCombination at hstart
        rw [hi] at hstart
        cases hstart
  rw [hq.inv.fresh i (by rw [hq.stack]) hnr]
  exact h.default_of_none hi

theorem trackerAt_eq :
    trackerAt ((List.range trackers.length).map fun i => (q.nodes i).tracker) = fun i => (q.nodes i).tracker := by
  funext i
  cases hm : config[i]? with
  | none =>
    rw [h.none_built hq hm, trackerAt_of_le]
    rw [List.length_map, List.length_range, h.length]
    exact List.getElem?_eq_none_iff.1 hm
  | some m =>
    refine trackerAt_of_get ?_
    rw [List.getElem?_map, List.getElem?_range (h.lt_of_get hm)]
    rfl

theorem ranked : ∃ rank : Nat → Nat, ∀ i, ∀ c ∈ (q.nodes i).tracker.mChildren, rank c < rank i := by
  obtain ⟨rank, hrank⟩ := hq.inv.ranked
  refine ⟨rank, fun i c hc => ?_⟩
  cases hm : config[i]? with
  | none =>
    rw [h.none_built hq hm] at hc
    cases hc
  | some m => exact (hrank i (hq.ready i (h.lt_of_get hm)) c hc).2

theorem unslicedChildren (i : Nat) : ∀ c ∈ (q.nodes i).tracker.mUnSlicedChildren, c ∈ (q.nodes i).tracker.mChildren := by
  intro c hc
  cases hm : config[i]? with
  | none =>
    rw [h.none_built hq hm] at hc
    cases hc
  | some m =>
    have hbare : (startEntries trackers i).tracker.mUnSlicedChildren = [] := by
      rw [← (h.fresh i).bare]
      rfl
    rcases built_cases (h.fresh i) (h.built hq (h.lt_of_get hm)) with ⟨t, -, -, hnode⟩ | ⟨operation, cs, -, e, he, hnode⟩
    · rw [hnode] at hc
      have hnil : c ∈ (startEntries trackers i).tracker.mUnSlicedChildren := hc
      rw [hbare] at hnil
      cases hnil
    · obtain ⟨sliced, us, ss, ids, hassembled, -, hus, -⟩ := assembled_eq config map q.nodes
        (setOperation operation (startEntries trackers i)) cs
      rw [hassembled] at he
      rw [hnode, he] at hc ⊢
      rcases hus c hc with hc | hc
      · have hnil : c ∈ (startEntries trackers i).tracker.mUnSlicedChildren := hc
        rw [hbare] at hnil
        cases hnil
      · exact List.mem_append_right _ hc

theorem initial {t : SimpleConditionTracker} (ht : (q.nodes i).tracker.kind = .simple t) : t.mInitialValue ≠ kNotEvaluated := by
  cases hm : config[i]? with
  | none =>
    rw [h.none_built hq hm] at ht
    cases ht
  | some m =>
    rcases built_cases (h.fresh i) (h.built hq (h.lt_of_get hm)) with ⟨t', hkind, -, hnode⟩ | ⟨operation, cs, -, e, he, hnode⟩
    · rw [hnode] at ht
      have hkind' : (startEntries trackers i).tracker.kind = .simple t := ht
      rcases (leafOk_of_created (h.get i m hm) hkind').initial with hi | hi
      · rw [hi]
        exact nofun
      · rw [hi]
        exact nofun
    · obtain ⟨sliced, us, ss, ids, hassembled, -⟩ := assembled_eq config map q.nodes
        (setOperation operation (startEntries trackers i)) cs
      rw [hassembled] at he
      rw [hnode, he] at ht
      cases ht

theorem ofConfig (hnodup : (config.map (·.id)).Nodup) (hmap : map = UMap.indexMap (config.map (·.id))) :
    OfConfig (fun i p => setMatcherIndices p matcherMap (uninitialized i)) config
      ⟨map, (List.range trackers.length).map fun i => (q.nodes i).tracker,
        trackerToConditionMap ((List.range trackers.length).map fun i => (q.nodes i).tracker)⟩ := by
  refine ⟨hnodup, hmap, by rw [List.length_map, List.length_range, h.length], ?_, ?_, fun k i => ?_⟩
  · dsimp only
    rw [h.trackerAt_eq hq]
    exact fun i m hm => h.made hq hm
  · dsimp only
    rw [h.trackerAt_eq hq]
    exact h.ranked hq
  · dsimp only
    rw [mem_trackerToConditionMap, List.length_map, List.length_range, h.length]

variable (hdim : NoDimensions config)
include hdim

theorem unsliced (i : Nat) : (q.nodes i).tracker.mSliced = false := by
  obtain ⟨rank, hrank⟩ := h.ranked hq
  refine Condition.unsliced hdim (fun i m hm => h.made hq hm) hrank (fun i hi => ?_) i
  rw [h.none_built hq hi]
  rfl

theorem leaf {t : SimpleConditionTracker} (ht : (q.nodes i).tracker.kind = .simple t) :
    LeafOk t ∧ cacheOf q.nodes i = leafState t := by
  cases hm : config[i]? with
  | none =>
    rw [h.none_built hq hm] at ht
    cases ht
  | some m =>
    have hcache := cache_of_built (h.fresh i) (h.built hq (h.lt_of_get hm)) (h.unsliced hq hdim)
    rw [ht] at hcache
    have hok := leafOk_of_created (h.get i m hm) hcache.1
    obtain ⟨p, -, -, -, hsliced, -⟩ := (h.made hq hm).simple ht
    exact ⟨hok, hcache.2 hok (hsliced ▸ h.unsliced hq hdim i)⟩

theorem valued (hnodup : (config.map (·.id)).Nodup) (hmap : map = UMap.indexMap (config.map (·.id))) :
    Valued (fun i => (q.nodes i).tracker) fun i => if i < trackers.length then cacheOf q.nodes i else kFalse := by
  intro i
  dsimp only
  cases hm : config[i]? with
  | none =>
    have hle := List.getElem?_eq_none_iff.1 hm
    rw [if_neg (by rw [h.length]; omega), h.none_built hq hm]
    rfl
  | some m =>
    have hi := h.lt_of_get hm
    have hcache := cache_of_built (h.fresh i) (h.built hq hi) (h.unsliced hq hdim)
    rw [if_pos hi]
    cases hk : (q.nodes i).tracker.kind with
    | simple t => exact (h.leaf hq hdim hk).2
    | combination operation =>
      rw [hk] at hcache
      rw [hcache.2]
      refine evaluateCombinationCondition_congr operation fun c hc => ?_
      obtain ⟨d, -, hd⟩ := ((h.made hq hm).contents.mem_children c).1 hc
      rw [hmap, UMap.lookup_indexMap hnodup] at hd
      have hlt := (List.getElem?_eq_some_iff.1 hd).1
      rw [List.length_map, ← h.length] at hlt
      exact (if_pos hlt).symm

end Created

theorem initConditions_sound (hdim : NoDimensions config) {s : Conditions}
    {initialConditionCache : List ConditionState}
    (hok : initConditions protoHash matcherMap uninitialized config = .ok (s, initialConditionCache)) :
    Sound (fun i p => setMatcherIndices p matcherMap (uninitialized i)) config s := by
  unfold initConditions at hok
  split at hok
  · cases hok
  · rename_i trackers hmake
    have h := created_of_makeTrackers hmake
    split at hok
    · rename_i hnodup
      split at hok
      · cases hok
      · cases hok
      · rename_i q hinit
        have hq := h.initialised hinit
        cases hok
        have hconfig := h.ofConfig hq hnodup rfl
        refine ⟨hnodup, rfl, hconfig.length, hconfig.made, hconfig.ranked, hconfig.table, ?_, ?_⟩
        · dsimp only
          rw [h.trackerAt_eq hq]
          exact fun i t ht => (h.leaf hq hdim ht).1
        · dsimp only
          rw [h.trackerAt_eq hq]
          intro v hv i hi operation hk
          rw [← h.length] at hi
          obtain ⟨rank, hrank⟩ := h.ranked hq
          have hcache := cache_of_built (h.fresh i) (h.built hq hi) (h.unsliced hq hdim)
          rw [hk] at hcache
          rw [hcache.1, hv.unique hrank (h.valued hq hdim hnodup rfl) i]
          exact (if_pos hi).symm
    · cases hok

theorem setup_below (hnodup : (config.map (·.id)).Nodup) :
    (setup config (UMap.indexMap (config.map (·.id)))).Below config.length := by
  intro i e e' cs hcheck c hc
  rcases check_cases hcheck with ⟨-, -, -, -, rfl⟩ | ⟨-, operation, -, hstart, -⟩
  · exact (List.not_mem_nil hc).elim
  · unfold startCombination at hstart
    split at hstart
    · split at hstart
      · cases hstart
      · obtain ⟨-, rfl⟩ := Prod.mk.inj (Option.some.inj hstart)
        obtain ⟨d, -, hd⟩ := List.mem_map.1 hc
        rw [UMap.lookup_indexMap hnodup] at hd
        have hlt := (List.getElem?_eq_some_iff.1 hd).1
        rwa [List.length_map] at hlt
    · cases hstart

theorem initConditions_terminates : initConditions protoHash matcherMap uninitialized config ≠ .outOfFuel := by
  unfold initConditions
  split
  · exact nofun
  · rename_i trackers hmake
    have h := created_of_makeTrackers hmake
    split
    · rename_i hnodup
      have hall := Setup.initAll_terminates (setup_below hnodup) (show config.length < trackers.length + 1 by rw [h.length]; omega)
        (List.range trackers.length) (fun i hi => h.length ▸ List.mem_range.1 hi)
        (show (Graph.mk (startEntries trackers) fun _ => false).stack = fun _ => false from rfl)
      rw [← h.initAll_eq] at hall
      split
      · exact nofun
      · rename_i hout
        exact absurd hout hall
      · exact nofun
    · exact nofun

end

end Statsd.Condition
