/-
What becomes of the matchers and conditions of a config when a new one replaces it
(determineMatcherUpdateStatus and determineConditionUpdateStatus of
metrics/parsing_utils/config_update_utils.cpp). Both walk the entries the same way: an entry that is new
or whose own message changed is settled at once, and a combination has to look at its children, the first
replaced one being enough. The status of an entry is kept once known, and the entries on the way from the
root are marked against cycles.

`protoHash` is the hash of a message's bytes, or nothing if the message cannot be serialised.
-/
import Statsd.Base.Marks
import Statsd.Config.StatsdConfig

namespace Statsd.Config

inductive UpdateStatus where
  | UPDATE_UNKNOWN | UPDATE_PRESERVE | UPDATE_REPLACE | UPDATE_NEW
deriving DecidableEq

open UpdateStatus

/-! ## The walk -/

/-- What an entry comes to before its children are visited. A child that is not in the config has no index. -/
inductive Look where
  | status (s : UpdateStatus)
  | failure
  | combination (children : List (Option Nat))

/-- The vectors the functions write to, by index. -/
structure Progress where
  toUpdate : Nat → UpdateStatus
  cycleTracker : Nat → Bool

/-- The loop over the children, up to the first one that is replaced. -/
def visitChildren (visit : Nat → Progress → Outcome Progress) :
    List (Option Nat) → Progress → Outcome (UpdateStatus × Progress)
  | [], p => .ok (UPDATE_PRESERVE, p)
  | none :: _, _ => .failure
  | some childIdx :: children, p =>
    if p.cycleTracker childIdx then .failure
    else
      match visit childIdx p with
      | .failure => .failure
      | .outOfFuel => .outOfFuel
      | .ok p => if p.toUpdate childIdx = UPDATE_REPLACE then .ok (UPDATE_REPLACE, p) else visitChildren visit children p

/-- The recursion both functions make, with fuel for its depth. -/
def determineUpdateStatus (look : Nat → Look) : Nat → Nat → Progress → Outcome Progress
  | 0, _, _ => .outOfFuel
  | fuel + 1, idx, p =>
    if p.toUpdate idx ≠ UPDATE_UNKNOWN then .ok p
    else
      match look idx with
      | .status s => .ok { p with toUpdate := Function.update p.toUpdate idx s }
      | .failure => .failure
      | .combination children =>
        match visitChildren (determineUpdateStatus look fuel) children
          { p with cycleTracker := Function.update p.cycleTracker idx true } with
        | .failure => .failure
        | .outOfFuel => .outOfFuel
        | .ok (status, p) =>
          .ok ⟨Function.update p.toUpdate idx status, Function.update p.cycleTracker idx false⟩

/-- Nothing is known yet. -/
def Progress.new : Progress := ⟨fun _ => UPDATE_UNKNOWN, fun _ => false⟩

/-- The calls of the functions that update a config, for the indices in some order. -/
def determineAll (determine : Nat → Progress → Outcome Progress) : List Nat → Progress → Outcome Progress
  | [], p => .ok p
  | idx :: order, p =>
    match determine idx p with
    | .ok p => determineAll determine order p
    | .failure => .failure
    | .outOfFuel => .outOfFuel

/-! ## Matchers and conditions -/

section

variable {F : Type}

/-- An entry is settled when it is not in the old config, or when its own message changed. -/
def lookOf (id : Int) (newProtoHash : Option UInt64) (oldMap : UMap Int Nat) (oldProtoHashes : List UInt64)
    (unchanged : Look) : Look :=
  match oldMap.lookup id with
  | none => .status UPDATE_NEW
  | some oldIdx =>
    match newProtoHash with
    | none => .failure
    | some newProtoHash =>
      if some newProtoHash ≠ oldProtoHashes[oldIdx]? then .status UPDATE_REPLACE else unchanged

def matcherLook (config : StatsdConfig F) (protoHash : AtomMatcher F → Option UInt64) (oldMap : UMap Int Nat)
    (oldProtoHashes : List UInt64) (newMap : UMap Int Nat) (matcherIdx : Nat) : Look :=
  match config.atom_matcher[matcherIdx]? with
  | none => .failure
  | some matcher =>
    lookOf matcher.id (protoHash matcher) oldMap oldProtoHashes <|
      match matcher.contents with
      | .simple_atom_matcher _ => .status UPDATE_PRESERVE
      | .combination _ children => .combination (children.map newMap.lookup)
      | .CONTENTS_NOT_SET => .failure

/-- `determineMatcherUpdateStatus`, where `oldProtoHashes` are the hashes of the old trackers. -/
def determineMatcherUpdateStatus (config : StatsdConfig F) (protoHash : AtomMatcher F → Option UInt64)
    (oldMap : UMap Int Nat) (oldProtoHashes : List UInt64) (newMap : UMap Int Nat) (fuel matcherIdx : Nat)
    (p : Progress) : Outcome Progress :=
  determineUpdateStatus (matcherLook config protoHash oldMap oldProtoHashes newMap) fuel matcherIdx p

def conditionLook (config : StatsdConfig F) (protoHash : Predicate → Option UInt64) (oldMap : UMap Int Nat)
    (oldProtoHashes : List UInt64) (newMap : UMap Int Nat) (replacedMatchers : Finset Int) (conditionIdx : Nat) :
    Look :=
  match config.predicate[conditionIdx]? with
  | none => .failure
  | some predicate =>
    lookOf predicate.id (protoHash predicate) oldMap oldProtoHashes <|
      match predicate.contents with
      | .simple_predicate simplePredicate =>
        if simplePredicate.start.any (decide <| · ∈ replacedMatchers) then .status UPDATE_REPLACE
        else if simplePredicate.stop.any (decide <| · ∈ replacedMatchers) then .status UPDATE_REPLACE
        else if simplePredicate.stop_all.any (decide <| · ∈ replacedMatchers) then .status UPDATE_REPLACE
        else .status UPDATE_PRESERVE
      | .combination _ children => .combination (children.map newMap.lookup)
      | .CONTENTS_NOT_SET => .failure

/-- `determineConditionUpdateStatus`. -/
def determineConditionUpdateStatus (config : StatsdConfig F) (protoHash : Predicate → Option UInt64)
    (oldMap : UMap Int Nat) (oldProtoHashes : List UInt64) (newMap : UMap Int Nat) (replacedMatchers : Finset Int)
    (fuel conditionIdx : Nat) (p : Progress) : Outcome Progress :=
  determineUpdateStatus (conditionLook config protoHash oldMap oldProtoHashes newMap replacedMatchers) fuel conditionIdx p

/-- `replacedMatchers` of `updateAtomMatchingTrackers`. -/
def replacedMatchers (config : StatsdConfig F) (p : Progress) : Finset Int :=
  ((List.range config.atom_matcher.length).filterMap fun i =>
    if p.toUpdate i = UPDATE_REPLACE then config.atom_matcher[i]?.map (·.id) else none).toFinset

end

/-! ## What a walk does -/

section

variable {look : Nat → Look} {n : Nat}

/-- The children of the entries are entries. -/
def ChildrenBelow (look : Nat → Look) (n : Nat) : Prop :=
  ∀ i children, look i = .combination children → ∀ c, some c ∈ children → c < n

/-- An entry is replaced on its own account, or for a child that is. -/
inductive Replaced (look : Nat → Look) : Nat → Prop
  | own {i : Nat} : look i = .status UPDATE_REPLACE → Replaced look i
  | child {i j : Nat} {children : List (Option Nat)} : look i = .combination children → some j ∈ children →
      Replaced look j → Replaced look i

/-- A known status is the one of the entry itself, or comes from those of its children: all are known and none
is replaced, or one is. -/
def Settled (look : Nat → Look) (toUpdate : Nat → UpdateStatus) (i : Nat) : Prop :=
  match look i with
  | .status s => toUpdate i = s
  | .failure => False
  | .combination children =>
    toUpdate i = UPDATE_PRESERVE ∧ (∀ c ∈ children, ∃ j, c = some j ∧ toUpdate j ≠ UPDATE_UNKNOWN ∧
        toUpdate j ≠ UPDATE_REPLACE) ∨
      toUpdate i = UPDATE_REPLACE ∧ Replaced look i

/-- What a successful call does: known statuses stay, those of marked entries too, the marks are taken back,
and what is known is settled. -/
structure Walked (look : Nat → Look) (p p' : Progress) : Prop where
  keeps : ∀ j, p.toUpdate j ≠ UPDATE_UNKNOWN → p'.toUpdate j = p.toUpdate j
  marked : ∀ j, p.cycleTracker j = true → p'.toUpdate j = p.toUpdate j
  marks : p'.cycleTracker = p.cycleTracker
  settled : (∀ j, p.toUpdate j ≠ UPDATE_UNKNOWN → Settled look p.toUpdate j) →
    ∀ j, p'.toUpdate j ≠ UPDATE_UNKNOWN → Settled look p'.toUpdate j

theorem Walked.refl (p : Progress) : Walked look p p := ⟨fun _ _ => rfl, fun _ _ => rfl, rfl, fun h => h⟩

theorem Walked.trans {p p' p'' : Progress} (h : Walked look p p') (h' : Walked look p' p'') : Walked look p p'' where
  keeps j hj := (h'.keeps j (by rwa [h.keeps j hj])).trans (h.keeps j hj)
  marked j hj := (h'.marked j (by rwa [h.marks])).trans (h.marked j hj)
  marks := h'.marks.trans h.marks
  settled hp := h'.settled (h.settled hp)

theorem Settled.mono {toUpdate toUpdate' : Nat → UpdateStatus} {i : Nat} (h : Settled look toUpdate i)
    (hi : toUpdate' i = toUpdate i) (hkeeps : ∀ j, toUpdate j ≠ UPDATE_UNKNOWN → toUpdate' j = toUpdate j) :
    Settled look toUpdate' i := by
  unfold Settled at h ⊢
  cases hlook : look i with
  | status s =>
    rw [hlook] at h
    exact hi.trans h
  | failure =>
    rw [hlook] at h
    exact h
  | combination children =>
    rw [hlook] at h
    rcases h with ⟨hs, hall⟩ | ⟨hs, hr⟩
    · refine .inl ⟨hi.trans hs, fun c hc => ?_⟩
      obtain ⟨j, hcj, hknown, hne⟩ := hall c hc
      exact ⟨j, hcj, by rwa [hkeeps j hknown], by rwa [hkeeps j hknown]⟩
    · exact .inr ⟨hi.trans hs, hr⟩

variable {toUpdate : Nat → UpdateStatus}

theorem Settled.replaced {i : Nat} (h : Settled look toUpdate i)
    (hi : toUpdate i = UPDATE_REPLACE) : Replaced look i := by
  unfold Settled at h
  cases hlook : look i with
  | status s =>
    rw [hlook] at h
    refine .own ?_
    rw [hlook, ← hi, ← h]
  | failure =>
    rw [hlook] at h
    exact h.elim
  | combination children =>
    rw [hlook] at h
    rcases h with ⟨hs, -⟩ | ⟨-, hr⟩
    · rw [hi] at hs
      cases hs
    · exact hr

theorem update_known {idx : Nat} (hidx : toUpdate idx = UPDATE_UNKNOWN)
    (s : UpdateStatus) (j : Nat) (hj : toUpdate j ≠ UPDATE_UNKNOWN) : Function.update toUpdate idx s j = toUpdate j := by
  refine Function.update_of_ne ?_ _ _
  rintro rfl
  exact hj hidx

theorem settled_update {idx : Nat} (hidx : toUpdate idx = UPDATE_UNKNOWN)
    {s : UpdateStatus} (hs : Settled look (Function.update toUpdate idx s) idx)
    (h : ∀ j, toUpdate j ≠ UPDATE_UNKNOWN → Settled look toUpdate j) (j : Nat)
    (hj : Function.update toUpdate idx s j ≠ UPDATE_UNKNOWN) : Settled look (Function.update toUpdate idx s) j := by
  by_cases hji : j = idx
  · rw [hji]
    exact hs
  · have hsame : Function.update toUpdate idx s j = toUpdate j := Function.update_of_ne hji _ _
    rw [hsame] at hj
    exact (h j hj).mono hsame (update_known hidx s)

theorem visitChildren_spec {visit : Nat → Progress → Outcome Progress}
    (hvisit : ∀ c p p', p.cycleTracker c = false → visit c p = .ok p' →
      Walked look p p' ∧ p'.toUpdate c ≠ UPDATE_UNKNOWN)
    (children : List (Option Nat)) {p p' : Progress} {status : UpdateStatus}
    (h : visitChildren visit children p = .ok (status, p')) :
    Walked look p p' ∧
      (status = UPDATE_PRESERVE ∧ (∀ c ∈ children, ∃ j, c = some j ∧ p'.toUpdate j ≠ UPDATE_UNKNOWN ∧
          p'.toUpdate j ≠ UPDATE_REPLACE) ∨
        status = UPDATE_REPLACE ∧ ∃ j, some j ∈ children ∧ p'.toUpdate j = UPDATE_REPLACE) := by
  induction children generalizing p with
  | nil =>
    cases h
    exact ⟨.refl _, .inl ⟨rfl, fun c hc => (List.not_mem_nil hc).elim⟩⟩
  | cons c children ih =>
    cases c with
    | none => cases h
    | some c =>
      rw [visitChildren] at h
      by_cases hm : p.cycleTracker c = true
      · rw [if_pos hm] at h
        cases h
      · rw [if_neg hm] at h
        cases hv : visit c p with
        | failure => rw [hv] at h; cases h
        | outOfFuel => rw [hv] at h; cases h
        | ok p₁ =>
          rw [hv] at h
          obtain ⟨hwalk, hknown⟩ := hvisit c p p₁ (by simpa using hm) hv
          dsimp only at h
          by_cases hr : p₁.toUpdate c = UPDATE_REPLACE
          · rw [if_pos hr] at h
            cases h
            exact ⟨hwalk, .inr ⟨rfl, c, List.mem_cons_self, hr⟩⟩
          · rw [if_neg hr] at h
            obtain ⟨hwalk', hrest⟩ := ih h
            refine ⟨hwalk.trans hwalk', ?_⟩
            rcases hrest with ⟨hs, hall⟩ | ⟨hs, j, hj, hjr⟩
            · refine .inl ⟨hs, fun d hd => ?_⟩
              rcases List.mem_cons.1 hd with rfl | hd
              · exact ⟨c, rfl, by rwa [hwalk'.keeps c hknown], by rwa [hwalk'.keeps c hknown]⟩
              · exact hall d hd
            · exact .inr ⟨hs, j, List.mem_cons_of_mem _ hj, hjr⟩

theorem determineUpdateStatus_spec (fuel idx : Nat) {p p' : Progress} (hm : p.cycleTracker idx = false)
    (h : determineUpdateStatus look fuel idx p = .ok p') (hlook : ∀ i, look i ≠ .status UPDATE_UNKNOWN) :
    Walked look p p' ∧ p'.toUpdate idx ≠ UPDATE_UNKNOWN := by
  induction fuel generalizing idx p p' with
  | zero => cases h
  | succ fuel ih =>
    rw [determineUpdateStatus] at h
    by_cases hknown : p.toUpdate idx ≠ UPDATE_UNKNOWN
    · rw [if_pos hknown] at h
      cases h
      exact ⟨.refl p, hknown⟩
    · rw [if_neg hknown] at h
      have hunknown := not_not.1 hknown
      cases hl : look idx with
      | failure => rw [hl] at h; cases h
      | status s =>
        rw [hl] at h
        cases h
        have hself : Settled look (Function.update p.toUpdate idx s) idx := by
          unfold Settled
          rw [hl]
          exact Function.update_self ..
        refine ⟨⟨update_known hunknown s, fun j hj => ?_, rfl, settled_update hunknown hself⟩, ?_⟩
        · refine Function.update_of_ne ?_ _ _
          rintro rfl
          rw [hm] at hj
          cases hj
        · dsimp only
          rw [Function.update_self]
          rintro rfl
          exact hlook idx hl
      | combination children =>
        rw [hl] at h
        dsimp only at h
        cases hv : visitChildren (determineUpdateStatus look fuel) children
            { p with cycleTracker := Function.update p.cycleTracker idx true } with
        | failure => rw [hv] at h; cases h
        | outOfFuel => rw [hv] at h; cases h
        | ok r =>
          obtain ⟨status, q⟩ := r
          rw [hv] at h
          cases h
          obtain ⟨hwalk, hstatus⟩ := visitChildren_spec (fun c p p' hc hp => ih c hc hp) children hv
          -- the children left the entry alone, since it is marked
          have hself : q.toUpdate idx = UPDATE_UNKNOWN :=
            (hwalk.marked idx (Function.update_self ..)).trans hunknown
          have hkeeps := update_known hself status
          have hsettled : (∀ j, q.toUpdate j ≠ UPDATE_UNKNOWN → Settled look q.toUpdate j) →
              Settled look (Function.update q.toUpdate idx status) idx := by
            intro hq
            unfold Settled
            rw [hl]
            dsimp only
            rw [Function.update_self]
            rcases hstatus with ⟨hs, hall⟩ | ⟨hs, k, hk, hkr⟩
            · refine .inl ⟨hs, fun c hc => ?_⟩
              obtain ⟨k, hck, hkk, hkn⟩ := hall c hc
              exact ⟨k, hck, by rwa [hkeeps k hkk], by rwa [hkeeps k hkk]⟩
            · exact .inr ⟨hs, .child hl hk ((hq k (by rw [hkr]; decide)).replaced hkr)⟩
          refine ⟨⟨fun j hj => ?_, fun j hj => ?_, ?_, fun hp =>
            settled_update hself (hsettled (hwalk.settled hp)) (hwalk.settled hp)⟩, ?_⟩
          · have hj' := hwalk.keeps j hj
            exact (hkeeps j (by rwa [hj'])).trans hj'
          · have hji : j ≠ idx := by
              rintro rfl
              rw [hm] at hj
              cases hj
            refine (Function.update_of_ne hji _ _).trans (hwalk.marked j ?_)
            dsimp only
            rwa [Function.update_of_ne hji]
          · dsimp only
            rw [hwalk.marks]
            exact update_update_of_unmarked hm
          · dsimp only
            rw [Function.update_self]
            rcases hstatus with ⟨hs, -⟩ | ⟨hs, -⟩ <;> rw [hs] <;> decide

/-! ## The walk terminates -/

theorem visitChildren_terminates (fuel : Nat) (visit : Nat → Progress → Outcome Progress) (children : List (Option Nat))
    (hvisit : ∀ c ∈ children, ∀ j, c = some j → ∀ p, p.cycleTracker j = false → unmarked n p.cycleTracker < fuel →
      visit j p ≠ .outOfFuel ∧ ∀ p', visit j p = .ok p' → p'.cycleTracker = p.cycleTracker)
    {p : Progress} (hp : unmarked n p.cycleTracker < fuel) : visitChildren visit children p ≠ .outOfFuel := by
  induction children generalizing p with
  | nil => exact fun h => by cases h
  | cons c children ih =>
    cases c with
    | none => exact fun h => by cases h
    | some c =>
      rw [visitChildren]
      by_cases hm : p.cycleTracker c = true
      · rw [if_pos hm]
        exact fun h => by cases h
      · rw [if_neg hm]
        obtain ⟨hne, hmarks⟩ := hvisit (some c) List.mem_cons_self c rfl p (by simpa using hm) hp
        cases hv : visit c p with
        | failure => exact fun h => by cases h
        | outOfFuel => exact absurd hv hne
        | ok p₁ =>
          dsimp only
          split
          · exact fun h => by cases h
          · exact ih (fun d hd => hvisit d (List.mem_cons_of_mem _ hd)) (by rwa [hmarks p₁ hv])

theorem determineUpdateStatus_terminates (hbelow : ChildrenBelow look n) (hlook : ∀ i, look i ≠ .status UPDATE_UNKNOWN)
    (fuel idx : Nat) {p : Progress} (hi : idx < n) (hm : p.cycleTracker idx = false)
    (hp : unmarked n p.cycleTracker < fuel) : determineUpdateStatus look fuel idx p ≠ .outOfFuel := by
  induction fuel generalizing idx p with
  | zero => omega
  | succ fuel ih =>
    rw [determineUpdateStatus]
    split
    · exact fun h => by cases h
    · cases hl : look idx with
      | status s => exact fun h => by cases h
      | failure => exact fun h => by cases h
      | combination children =>
        have hlt := unmarked_mark hi hm
        have hchildren := visitChildren_terminates (n := n) fuel (determineUpdateStatus look fuel) children
          (p := { p with cycleTracker := Function.update p.cycleTracker idx true })
          (fun c hc j hj q hq hu => by
            subst hj
            exact ⟨ih j (hbelow idx children hl j hc) hq hu,
              fun q' hq' => (determineUpdateStatus_spec fuel j hq hq' hlook).1.marks⟩) (by
            dsimp only
            omega)
        dsimp only
        split
        · exact fun h => by cases h
        · rename_i hout
          exact absurd hout hchildren
        · exact fun h => by cases h

theorem determineAll_spec (hlook : ∀ i, look i ≠ .status UPDATE_UNKNOWN) (fuel : Nat) (order : List Nat)
    {p p' : Progress} (hp : p.cycleTracker = fun _ => false)
    (h : determineAll (determineUpdateStatus look fuel) order p = .ok p') :
    Walked look p p' ∧ ∀ i ∈ order, p'.toUpdate i ≠ UPDATE_UNKNOWN := by
  induction order generalizing p with
  | nil =>
    cases h
    exact ⟨.refl _, fun i hi => (List.not_mem_nil hi).elim⟩
  | cons i order ih =>
    rw [determineAll] at h
    cases hv : determineUpdateStatus look fuel i p with
    | failure => rw [hv] at h; cases h
    | outOfFuel => rw [hv] at h; cases h
    | ok p₁ =>
      rw [hv] at h
      obtain ⟨hwalk, hknown⟩ := determineUpdateStatus_spec fuel i (by rw [hp]) hv hlook
      obtain ⟨hwalk', hall⟩ := ih (hwalk.marks.trans hp) h
      refine ⟨hwalk.trans hwalk', fun j hj => ?_⟩
      rcases List.mem_cons.1 hj with rfl | hj
      · rwa [hwalk'.keeps j hknown]
      · exact hall j hj

theorem determineAll_terminates (hbelow : ChildrenBelow look n) (hlook : ∀ i, look i ≠ .status UPDATE_UNKNOWN)
    {fuel : Nat} (hfuel : n < fuel) (order : List Nat) (horder : ∀ i ∈ order, i < n) {p : Progress}
    (hp : p.cycleTracker = fun _ => false) :
    determineAll (determineUpdateStatus look fuel) order p ≠ .outOfFuel := by
  induction order generalizing p with
  | nil => exact fun h => by cases h
  | cons i order ih =>
    rw [determineAll]
    cases hv : determineUpdateStatus look fuel i p with
    | failure => exact fun h => by cases h
    | outOfFuel =>
      refine absurd hv (determineUpdateStatus_terminates hbelow hlook fuel i (horder i List.mem_cons_self) (by rw [hp]) ?_)
      rw [hp, unmarked_none]
      exact hfuel
    | ok p₁ =>
      obtain ⟨hwalk, -⟩ := determineUpdateStatus_spec fuel i (by rw [hp]) hv hlook
      exact ih (fun j hj => horder j (List.mem_cons_of_mem _ hj)) (hwalk.marks.trans hp)

end

end Statsd.Config
