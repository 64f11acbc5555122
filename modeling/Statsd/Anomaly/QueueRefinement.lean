/-
The indexed priority queue as a finite set with a minimum. Over every run of pushes, removals, pops and clears the vector
stays in heap order, the map stays its inverse and the elements are those pushed and not removed since. The range
checks of the source hide a broken vector or map; here each of them is a failure, and none is ever met.
-/
import Statsd.Base.Run
import Statsd.Anomaly.IndexedPriorityQueue

namespace Statsd.Anomaly

variable {A : Type}

/-- A call on the queue. -/
inductive QueueCall (A : Type) where
  | push (a : Option A)
  | remove (a : Option A)
  | pop
  | clear

/-- A finite set with a minimum: a pop takes an element that no other precedes. -/
inductive MinimumStep (lt : A → A → Bool) : Set A → QueueCall A → Set A → Prop
  | push (s : Set A) (a : A) : MinimumStep lt s (.push (some a)) (insert a s)
  | pushNull (s : Set A) : MinimumStep lt s (.push none) s
  | remove (s : Set A) (a : A) : MinimumStep lt s (.remove (some a)) (s \ {a})
  | removeNull (s : Set A) : MinimumStep lt s (.remove none) s
  | pop (s : Set A) (a : A) (ha : a ∈ s) (hmin : ∀ b ∈ s, lt b a = false) : MinimumStep lt s .pop (s \ {a})
  | popEmpty : MinimumStep lt ∅ .pop ∅
  | clear (s : Set A) : MinimumStep lt s .clear ∅

namespace IndexedPriorityQueue

variable [DecidableEq A] (lt : A → A → Bool)

/-! ## The operations without their range checks -/

/-- `higher`, which fails out of range. -/
def higherChecked (q : IndexedPriorityQueue A) (idx1 idx2 : Nat) : Option Bool :=
  if q.inRange idx1 idx2 then some (q.higher lt idx1 idx2) else none

/-- `swap_indices`, which fails out of range. -/
def swapChecked (q : IndexedPriorityQueue A) (i j : Nat) : Option (IndexedPriorityQueue A) :=
  if q.inRange i j then some (q.swap_indices i j) else none

def siftUpChecked (q : IndexedPriorityQueue A) (idx : Nat) : Option (IndexedPriorityQueue A) :=
  if idx > 1 then
    match q.higherChecked lt idx (idx / 2) with
    | none => none
    | some false => some q
    | some true =>
      match q.swapChecked idx (idx / 2) with
      | none => none
      | some q => q.siftUpChecked (idx / 2)
  else some q
termination_by idx

def childChecked (q : IndexedPriorityQueue A) (idx : Nat) : Option Nat :=
  if 2 * idx < q.size then (q.higherChecked lt (2 * idx + 1) (2 * idx)).map fun right => if right then 2 * idx + 1 else 2 * idx
  else some (2 * idx)

omit [DecidableEq A] in
theorem higherChecked_pos {q : IndexedPriorityQueue A} {i j : Nat} {b : Bool} (h : q.higherChecked lt i j = some b) : 0 < j := by
  unfold higherChecked at h
  split at h
  · rename_i hin
    exact (inRange_iff.1 hin).2.1
  · cases h

omit [DecidableEq A] in
theorem childChecked_ge {q : IndexedPriorityQueue A} {idx child : Nat} (h : q.childChecked lt idx = some child) : 2 * idx ≤ child := by
  unfold childChecked at h
  split at h
  · rw [Option.map_eq_some_iff] at h
    obtain ⟨right, -, rfl⟩ := h
    cases right <;> simp
  · cases h
    exact le_refl _

theorem swapChecked_size {q q' : IndexedPriorityQueue A} {i j : Nat} (h : q.swapChecked i j = some q') : q'.size = q.size := by
  unfold swapChecked at h
  split at h
  · cases h
    unfold size
    rw [length_swap_indices]
  · cases h

set_option linter.unusedVariables false in
def siftDownChecked (q : IndexedPriorityQueue A) (idx : Nat) : Option (IndexedPriorityQueue A) :=
  if 2 * idx ≤ q.size then
    match hc : q.childChecked lt idx with
    | none => none
    | some child =>
      match hh : q.higherChecked lt child idx with
      | none => none
      | some false => some q
      | some true =>
        match hs : q.swapChecked child idx with
        | none => none
        | some q => q.siftDownChecked child
  else some q
termination_by q.size - idx
decreasing_by
  have hidx := higherChecked_pos lt hh
  have hchild := childChecked_ge lt hc
  have hsize := swapChecked_size hs
  omega

/-- `remove`, which fails where the position of `a` is outside the vector. -/
def removeChecked (q : IndexedPriorityQueue A) (a : Option A) : Option (IndexedPriorityQueue A) :=
  if a = none then some q
  else if !q.contains a then some q
  else
    let idx := UMap.getD q.indices a 0
    if idx ≥ q.pq.length then none
    else if idx = q.size then some (q.dropLast a)
    else ((q.moveLast a idx).siftUpChecked lt idx).bind fun q => q.siftDownChecked lt idx

def pushChecked (q : IndexedPriorityQueue A) (a : Option A) : Option (IndexedPriorityQueue A) :=
  if a = none then some q
  else if q.contains a then some q
  else
    let idx := q.size + 1
    siftUpChecked lt { pq := q.pq ++ [a], indices := q.indices.emplace a idx } idx

def popChecked (q : IndexedPriorityQueue A) : Option (IndexedPriorityQueue A) :=
  if q.top = none then some q
  else if 1 = q.size then some (q.dropLast q.top)
  else siftDownChecked lt (q.moveLast q.top 1) 1

end IndexedPriorityQueue

namespace QueueCall

variable [DecidableEq A] (lt : A → A → Bool)

def run (q : IndexedPriorityQueue A) : QueueCall A → IndexedPriorityQueue A
  | push a => q.push lt a
  | remove a => (q.remove lt a).2
  | pop => q.pop lt
  | clear => q.clear

/-- The call with the range checks as failures. -/
def runChecked (q : IndexedPriorityQueue A) : QueueCall A → Option (IndexedPriorityQueue A)
  | push a => q.pushChecked lt a
  | remove a => q.removeChecked lt a
  | pop => q.popChecked lt
  | clear => some q.clear

omit [DecidableEq A] in
/-- The elements pushed and not removed since, after a call on a queue. -/
def members (q : IndexedPriorityQueue A) (s : Set A) : QueueCall A → Set A
  | push (some a) => insert a s
  | remove (some a) => s \ {a}
  | pop =>
    match q.top with
    | some a => s \ {a}
    | none => s
  | clear => ∅
  | _ => s

/-- A call on a queue, with the set of its elements. -/
def tracked (s : IndexedPriorityQueue A × Set A) (call : QueueCall A) : IndexedPriorityQueue A × Set A :=
  (call.run lt s.1, call.members s.1 s.2)

end QueueCall

namespace IndexedPriorityQueue

variable [DecidableEq A] {lt : A → A → Bool}

/-! ## The range checks are never met -/

variable {q : IndexedPriorityQueue A}

omit [DecidableEq A] in
theorem higherChecked_eq {i j : Nat} (hi0 : 0 < i) (hi : i < q.pq.length) (hj0 : 0 < j)
    (hj : j < q.pq.length) : q.higherChecked lt i j = some (q.higher lt i j) :=
  if_pos (inRange_iff.2 ⟨⟨hi0, hi⟩, hj0, hj⟩)

theorem swapChecked_eq {i j : Nat} (hi0 : 0 < i) (hi : i < q.pq.length) (hj0 : 0 < j)
    (hj : j < q.pq.length) : q.swapChecked i j = some (q.swap_indices i j) :=
  if_pos (inRange_iff.2 ⟨⟨hi0, hi⟩, hj0, hj⟩)

theorem siftUpChecked_eq {idx : Nat} (hn : idx < q.pq.length) :
    q.siftUpChecked lt idx = some (q.sift_up lt idx) := by
  induction idx using Nat.strong_induction_on generalizing q with
  | _ idx ih =>
    rw [siftUpChecked, sift_up]
    dsimp only
    split
    · rename_i hgt
      rw [higherChecked_eq (by omega) hn (by omega) (by omega), swapChecked_eq (by omega) hn (by omega) (by omega)]
      cases q.higher lt idx (idx / 2) with
      | false => rfl
      | true =>
        simp only [if_true]
        apply ih
        · omega
        · rw [length_swap_indices]
          omega
    · rfl

omit [DecidableEq A] in
theorem childChecked_eq {idx : Nat} (h1 : 1 ≤ idx) : q.childChecked lt idx = some (q.childOf lt idx) := by
  unfold childChecked childOf
  by_cases hlt : 2 * idx < q.size
  · have hsize : q.size = q.pq.length - 1 := rfl
    rw [if_pos hlt, higherChecked_eq (by omega) (by omega) (by omega) (by omega), Option.map_some, decide_eq_true hlt, Bool.true_and]
  · rw [if_neg hlt, decide_eq_false hlt, Bool.false_and]
    rfl

omit [DecidableEq A] in
theorem childOf_bounds {idx : Nat} (h : 2 * idx ≤ q.size) :
    2 * idx ≤ q.childOf lt idx ∧ q.childOf lt idx ≤ q.size := by
  unfold childOf
  split
  · rename_i hright
    simp only [Bool.and_eq_true, decide_eq_true_eq] at hright
    omega
  · omega

theorem siftDownChecked_eq {idx : Nat} (h1 : 1 ≤ idx) :
    q.siftDownChecked lt idx = some (q.sift_down lt idx) := by
  induction hm : q.size - idx using Nat.strong_induction_on generalizing q idx with
  | _ m ih =>
    rw [siftDownChecked, sift_down]
    dsimp only
    split
    · rename_i hle
      obtain ⟨hlow, hhigh⟩ : 2 * idx ≤ q.childOf lt idx ∧ q.childOf lt idx ≤ q.size := childOf_bounds hle
      have hsize : q.size = q.pq.length - 1 := rfl
      have hhigher : q.higherChecked lt (q.childOf lt idx) idx = some (q.higher lt (q.childOf lt idx) idx) :=
        higherChecked_eq (by omega) (by omega) (by omega) (by omega)
      have hswap : q.swapChecked (q.childOf lt idx) idx = some (q.swap_indices (q.childOf lt idx) idx) :=
        swapChecked_eq (by omega) (by omega) (by omega) (by omega)
      have hsame : (q.swap_indices (q.childOf lt idx) idx).size = q.size := swapChecked_size hswap
      split
      · rename_i hc
        rw [childChecked_eq h1] at hc
        cases hc
      · rename_i child hc
        rw [childChecked_eq h1] at hc
        cases hc
        split
        · rename_i hh
          rw [hhigher] at hh
          cases hh
        · rename_i hh
          rw [hhigher] at hh
          rw [if_neg (by simpa using hh)]
        · rename_i hh
          rw [hhigher] at hh
          rw [if_pos (by simpa using hh)]
          split
          · rename_i hs
            rw [hswap] at hs
            cases hs
          · rename_i hs
            rw [hswap] at hs
            cases hs
            apply ih (q.size - q.childOf lt idx)
            · omega
            · omega
            · rw [hsame]
    · rfl

theorem pushChecked_eq (hv : q.Valid) (a : Option A) : q.pushChecked lt a = some (q.push lt a) := by
  have hpos := hv.pos
  have hsize : q.size = q.pq.length - 1 := rfl
  unfold pushChecked push
  split
  · rfl
  · split
    · rfl
    · apply siftUpChecked_eq
      simp
      omega

theorem removeChecked_eq (hv : q.Valid) (a : Option A) :
    q.removeChecked lt a = some (q.remove lt a).2 := by
  unfold removeChecked remove
  split
  · rfl
  · split
    · rfl
    · rename_i hnull hc
      obtain ⟨b, rfl⟩ := Option.ne_none_iff_exists'.1 hnull
      simp only [Bool.not_eq_true, Bool.not_eq_false'] at hc
      obtain ⟨idx, hidx⟩ := (hv.contains_iff b).1 hc
      have hlt := slot_lt hidx
      have hpos : idx ≠ 0 := by
        rintro rfl
        rw [(hv.null 0 hlt).2 rfl] at hidx
        cases hidx
      have hget : UMap.getD q.indices (some b) 0 = idx := UMap.getD_of_lookup_some ((hv.inverse _ _).2 ⟨hlt, hidx⟩) 0
      dsimp only
      rw [hget, if_neg (by omega), if_neg (show ¬ idx ≥ q.pq.length by omega)]
      split
      · rfl
      · rename_i hne
        have hsize : q.size = q.pq.length - 1 := rfl
        have hlen : (q.moveLast (some b) idx).pq.length = q.pq.length - 1 := by simp [moveLast]
        rw [siftUpChecked_eq (by omega), Option.bind_some, siftDownChecked_eq (by omega)]

theorem popChecked_eq (q : IndexedPriorityQueue A) : q.popChecked lt = some (q.pop lt) := by
  unfold popChecked pop
  split
  · rfl
  · split
    · rfl
    · exact siftDownChecked_eq (le_refl 1)

end IndexedPriorityQueue

/-! ## The refinement -/

/-- What a queue shows of the set of its elements. -/
structure Refines [DecidableEq A] (lt : A → A → Bool) (q : IndexedPriorityQueue A) (s : Set A) : Prop where
  null : 0 < q.pq.length ∧ q.slot 0 = none
  filled : ∀ i, 1 ≤ i → i ≤ q.size → ∃ a, q.slot i = some a
  elements : ∀ a, a ∈ s ↔ ∃ i, 1 ≤ i ∧ i ≤ q.size ∧ q.slot i = some a
  order : ∀ i a b, 2 ≤ i → i ≤ q.size → q.slot i = some a → q.slot (i / 2) = some b → lt a b = false
  indices : ∀ x i, q.indices.lookup x = some i ↔ i < q.pq.length ∧ q.slot i = x
  nullIndex : q.indices.lookup none = some 0
  contains : ∀ a, q.contains (some a) = true ↔ a ∈ s
  containsNull : q.contains none = false
  finite : s.Finite
  top_null : q.top = none ↔ s = ∅
  top_least : ∀ a, q.top = some a → a ∈ s ∧ ∀ b ∈ s, lt b a = false

/-- The call is a step of the set, no range check stops it, and a removal tells whether its argument was there. -/
structure Simulates [DecidableEq A] (lt : A → A → Bool) (q : IndexedPriorityQueue A) (s : Set A) (call : QueueCall A) : Prop where
  step : MinimumStep lt s call (call.members q s)
  unguarded : call.runChecked lt q = some (call.run lt q)
  removed : ∀ a, call = .remove a → ((q.remove lt a).1 = true ↔ ∃ b ∈ s, a = some b)

namespace IndexedPriorityQueue

variable [DecidableEq A] {lt : A → A → Bool}

variable {q : IndexedPriorityQueue A}

theorem WF.slot_pos (h : WF lt q) {i : Nat} {a : A} (hs : q.slot i = some a) : 1 ≤ i ∧ i ≤ q.size := by
  have hlt := slot_lt hs
  have hsize : q.size = q.pq.length - 1 := rfl
  have hpos : i ≠ 0 := by
    rintro rfl
    rw [(h.valid.null 0 hlt).2 rfl] at hs
    cases hs
  omega

omit [DecidableEq A] in
theorem finite_elems (q : IndexedPriorityQueue A) : q.elems.Finite := by
  have hslots : {x | ∃ i, i < q.pq.length ∧ q.slot i = x}.Finite := (Set.finite_lt_nat q.pq.length).image q.slot
  apply (hslots.preimage (Option.some_injective A).injOn).subset
  rintro a ⟨i, hi⟩
  exact ⟨i, slot_lt hi, hi⟩

variable (sw : Heap.StrictWeak fun a b : A => lt a b = true)
include sw

theorem WF.refines (h : WF lt q) : Refines lt q q.elems := by
  have hsize : q.size = q.pq.length - 1 := rfl
  have hpos := h.valid.pos
  have hnull : q.slot 0 = none := (h.valid.null 0 hpos).2 rfl
  constructor
  · exact ⟨hpos, hnull⟩
  · intro i h1 hi
    exact h.valid.slot_some (by omega) (by omega)
  · intro a
    constructor
    · rintro ⟨i, hi⟩
      obtain ⟨h1, hn⟩ := h.slot_pos hi
      exact ⟨i, h1, hn, hi⟩
    · rintro ⟨i, -, -, hi⟩
      exact ⟨i, hi⟩
  · intro i a b h2 hi ha hb
    have horder := h.order i h2 hi
    rw [ha, hb] at horder
    simpa [ltNull] using horder
  · exact h.valid.inverse
  · exact (h.valid.inverse none 0).2 ⟨hpos, hnull⟩
  · exact h.valid.contains_iff
  · rfl
  · exact finite_elems q
  · exact h.top_none_iff
  · intro a ha
    exact h.top_some sw ha

theorem WF.call (h : WF lt q) (call : QueueCall A) :
    WF lt (call.run lt q) ∧ (call.run lt q).elems = call.members q q.elems ∧ Simulates lt q q.elems call := by
  cases call with
  | push a =>
    cases a with
    | none => exact ⟨h, rfl, .pushNull _, pushChecked_eq h.valid none, by rintro _ ⟨⟩⟩
    | some a =>
      obtain ⟨hwf, helems⟩ := h.push sw a
      exact ⟨hwf, helems, .push _ a, pushChecked_eq h.valid (some a), by rintro _ ⟨⟩⟩
  | remove a =>
    have hchecked : q.removeChecked lt a = some (q.remove lt a).2 := removeChecked_eq h.valid a
    cases a with
    | none =>
      refine ⟨h, rfl, .removeNull _, hchecked, ?_⟩
      rintro _ ⟨⟩
      simp [IndexedPriorityQueue.remove]
    | some a =>
      obtain ⟨hwf, helems, hpresent⟩ := h.remove sw a
      refine ⟨hwf, helems, .remove _ a, hchecked, ?_⟩
      rintro _ ⟨⟩
      simp [hpresent]
  | pop =>
    cases ht : q.top with
    | none =>
      have hempty := h.top_none_iff.1 ht
      have hsame : q.pop lt = q := by simp [IndexedPriorityQueue.pop, ht]
      have hmembers : QueueCall.members q q.elems .pop = q.elems := by simp [QueueCall.members, ht]
      refine ⟨?_, ?_, ?_, popChecked_eq q, by rintro _ ⟨⟩⟩
      · rw [QueueCall.run, hsame]
        exact h
      · rw [QueueCall.run, hsame, hmembers]
      · rw [hmembers, hempty]
        exact .popEmpty
    | some a =>
      obtain ⟨hwf, helems, -⟩ := h.pop sw ht
      obtain ⟨hmem, hleast⟩ := h.top_some sw ht
      have hmembers : QueueCall.members q q.elems .pop = q.elems \ {a} := by simp [QueueCall.members, ht]
      refine ⟨hwf, helems.trans hmembers.symm, ?_, popChecked_eq q, by rintro _ ⟨⟩⟩
      rw [hmembers]
      exact .pop _ a hmem hleast
  | clear => exact ⟨wf_new, elems_new, .clear _, rfl, by rintro _ ⟨⟩⟩

end IndexedPriorityQueue

/-- Over every run from the constructor the queue refines the set of the elements pushed and not removed since: its vector
and map show that set and its minimum in every state, and every call is a step of the set that meets no range check. -/
theorem queue_refines_set [DecidableEq A] {lt : A → A → Bool} (sw : Heap.StrictWeak fun a b : A => lt a b = true)
    (calls : List (QueueCall A)) (n : Nat) :
    let st := (calls.take n).foldl (QueueCall.tracked lt) (IndexedPriorityQueue.new, ∅)
    Refines lt st.1 st.2 ∧ ∀ call, calls[n]? = some call → Simulates lt st.1 st.2 call := by
  have hrun : ∀ calls : List (QueueCall A), (calls.foldl (QueueCall.tracked lt) (IndexedPriorityQueue.new, ∅)).1.WF lt ∧
      (calls.foldl (QueueCall.tracked lt) (IndexedPriorityQueue.new, ∅)).2 =
        (calls.foldl (QueueCall.tracked lt) (IndexedPriorityQueue.new, ∅)).1.elems := by
    intro calls
    induction calls using List.reverseRecOn with
    | nil => exact ⟨IndexedPriorityQueue.wf_new, IndexedPriorityQueue.elems_new.symm⟩
    | append_singleton calls call ih =>
      obtain ⟨hwf, hset⟩ := ih
      obtain ⟨hwf', helems, -⟩ := hwf.call sw call
      simp only [List.foldl_append, List.foldl_cons, List.foldl_nil]
      exact ⟨hwf', by rw [QueueCall.tracked, hset]; exact helems.symm⟩
  obtain ⟨hwf, hset⟩ := hrun (calls.take n)
  intro st
  refine ⟨?_, ?_⟩
  · rw [show st.2 = st.1.elems from hset]
    exact hwf.refines sw
  · intro call _
    rw [show st.2 = st.1.elems from hset]
    exact (hwf.call sw call).2.2

/-- Numbers under `<`: pushes with a duplicate and null, an interior removal and two pops. -/
theorem queue_refines_set_numbers :
    let calls : List (QueueCall Nat) := [.push (some 5), .push (some 2), .push none, .push (some 7), .push (some 2),
      .remove (some 2), .remove (some 9), .pop, .pop, .pop]
    let st := (calls.take 7).foldl (QueueCall.tracked fun a b => decide (a < b)) (IndexedPriorityQueue.new, ∅)
    Refines (fun a b => decide (a < b)) st.1 st.2 ∧ Simulates (fun a b => decide (a < b)) st.1 st.2 .pop := by
  have sw : Heap.StrictWeak fun a b : Nat => decide (a < b) = true := by
    constructor
    · intro a b h
      simp at h ⊢
      omega
    · intro a b c h1 h2
      simp at h1 h2 ⊢
      omega
  obtain ⟨hrefines, hsimulates⟩ := queue_refines_set sw [.push (some 5), .push (some 2), .push none, .push (some 7), .push (some 2),
    .remove (some 2), .remove (some 9), .pop, .pop, .pop] 7
  exact ⟨hrefines, hsimulates .pop rfl⟩

end Statsd.Anomaly
