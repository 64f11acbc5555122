/-
The indexed priority queue (anomaly/indexed_priority_queue.h): a binary min-heap in a vector, with
the position of every element in a map, so that interior elements can be removed. `pq` starts at
index 1, with the null pointer at 0; references are optional values, equal only to themselves.

The queue is a finite set with a minimum: pushing inserts, removing and popping delete, and the top
is an element nothing in the set precedes.
-/
import Statsd.Base.UMap
import Statsd.Base.Heap

namespace Statsd.Anomaly

structure IndexedPriorityQueue (A : Type) where
  pq : List (Option A)
  indices : UMap (Option A) Nat

namespace IndexedPriorityQueue

variable {A : Type} [DecidableEq A] (lt : A → A → Bool)

/-! ## Operations -/

def init (q : IndexedPriorityQueue A) : IndexedPriorityQueue A :=
  { pq := q.pq ++ [none], indices := q.indices.emplace none 0 }

/-- The constructor. -/
def new : IndexedPriorityQueue A := init ⟨[], ∅⟩

def size (q : IndexedPriorityQueue A) : Nat := q.pq.length - 1

def empty (q : IndexedPriorityQueue A) : Bool := decide (q.size < 1)

/-- `pq[i]`. -/
def slot (q : IndexedPriorityQueue A) (i : Nat) : Option A := (q.pq[i]?).join

/-- The range check of `higher` and `swap_indices`. -/
def inRange (q : IndexedPriorityQueue A) (i j : Nat) : Bool :=
  decide (0 < i) && decide (i < q.pq.length) && decide (0 < j) && decide (j < q.pq.length)

def higher (q : IndexedPriorityQueue A) (idx1 idx2 : Nat) : Bool :=
  if q.inRange idx1 idx2 then
    match q.slot idx1, q.slot idx2 with
    | some a, some b => lt a b
    | _, _ => false
  else false

def swap_indices (q : IndexedPriorityQueue A) (i j : Nat) : IndexedPriorityQueue A :=
  if q.inRange i j then
    let val_i := q.slot i
    let val_j := q.slot j
    { pq := (q.pq.set i val_j).set j val_i
      indices := (q.indices.insert val_i j).insert val_j i }
  else q

theorem length_swap_indices (q : IndexedPriorityQueue A) (i j : Nat) :
    (q.swap_indices i j).pq.length = q.pq.length := by
  unfold swap_indices
  split
  · simp
  · rfl

def sift_up (q : IndexedPriorityQueue A) (idx : Nat) : IndexedPriorityQueue A :=
  if idx > 1 then
    let parent := idx / 2
    if q.higher lt idx parent then (q.swap_indices idx parent).sift_up parent else q
  else q
termination_by idx

/-- The child that `sift_down` compares with: the right one where it exists and is higher. -/
def childOf (q : IndexedPriorityQueue A) (idx : Nat) : Nat :=
  if 2 * idx < q.size && q.higher lt (2 * idx + 1) (2 * idx) then 2 * idx + 1 else 2 * idx

def sift_down (q : IndexedPriorityQueue A) (idx : Nat) : IndexedPriorityQueue A :=
  if 2 * idx ≤ q.size then
    let child := q.childOf lt idx
    if q.higher lt child idx then (q.swap_indices child idx).sift_down child else q
  else q
termination_by q.size - idx
decreasing_by
  rename_i hle hh
  have hidx : 0 < idx := by
    unfold higher inRange at hh
    split at hh
    · rename_i h; simp only [Bool.and_eq_true, decide_eq_true_eq] at h; omega
    · cases hh
  have hsize : (q.swap_indices (q.childOf lt idx) idx).size = q.size := by
    unfold size; rw [length_swap_indices]
  have hchild : idx < q.childOf lt idx := by
    unfold childOf; split <;> omega
  rw [hsize]; omega

/-- Publicly, the null pointer is not in the queue. -/
def contains (q : IndexedPriorityQueue A) (a : Option A) : Bool := a.isSome && decide (a ∈ q.indices)

def push (q : IndexedPriorityQueue A) (a : Option A) : IndexedPriorityQueue A :=
  if a = none then q
  else if q.contains a then q
  else
    let idx := q.size + 1
    sift_up lt { pq := q.pq ++ [a], indices := q.indices.emplace a idx } idx

/-- Moves the last element to `idx`, where `a` was, and forgets `a`. -/
def moveLast (q : IndexedPriorityQueue A) (a : Option A) (idx : Nat) : IndexedPriorityQueue A :=
  let last_a := q.slot q.size
  { pq := (q.pq.set idx last_a).dropLast, indices := (q.indices.insert last_a idx).erase a }

/-- Forgets `a`, the last element. -/
def dropLast (q : IndexedPriorityQueue A) (a : Option A) : IndexedPriorityQueue A :=
  { pq := q.pq.dropLast, indices := q.indices.erase a }

/-- `remove`: whether `a` was present, and the queue without it. -/
def remove (q : IndexedPriorityQueue A) (a : Option A) : Bool × IndexedPriorityQueue A :=
  if a = none then (false, q)
  else if !q.contains a then (false, q)
  else
    let idx := UMap.getD q.indices a 0
    if idx ≥ q.pq.length then (false, q)
    else if idx = q.size then (true, q.dropLast a)
    else (true, sift_down lt (sift_up lt (q.moveLast a idx) idx) idx)

def top (q : IndexedPriorityQueue A) : Option A := if q.empty then none else q.slot 1

def pop (q : IndexedPriorityQueue A) : IndexedPriorityQueue A :=
  if q.top = none then q
  else if 1 = q.size then q.dropLast q.top
  else sift_down lt (q.moveLast q.top 1) 1

def clear (_q : IndexedPriorityQueue A) : IndexedPriorityQueue A := init ⟨[], ∅⟩

/-! ## The representation -/

/-- The elements of the queue. -/
def elems (q : IndexedPriorityQueue A) : Set A := {a | ∃ i, q.slot i = some a}

/-- The comparator, with the null pointer before every element. -/
def ltNull (x y : Option A) : Prop :=
  match x, y with
  | some a, some b => lt a b = true
  | none, some _ => True
  | _, none => False

/-- The vector holds null at 0 only, and the map is its inverse. -/
structure Valid (q : IndexedPriorityQueue A) : Prop where
  pos : 0 < q.pq.length
  null : ∀ i, i < q.pq.length → (q.slot i = none ↔ i = 0)
  inverse : ∀ x i, q.indices.lookup x = some i ↔ i < q.pq.length ∧ q.slot i = x

/-- A valid queue in heap order. -/
structure WF (q : IndexedPriorityQueue A) : Prop where
  valid : q.Valid
  order : Heap.Ordered (ltNull lt) q.slot q.size

variable {lt}

omit [DecidableEq A] in
theorem ltNull_strictWeak (sw : Heap.StrictWeak fun a b : A => lt a b = true) : Heap.StrictWeak (ltNull lt) := by
  refine ⟨?_, ?_⟩
  · rintro (_ | a) (_ | b) h
    · exact h.elim
    · exact id
    · exact h.elim
    · exact sw.asymm a b h
  · rintro (_ | a) (_ | b) (_ | c) h1 h2
    · exact id
    · exact absurd trivial h2
    · exact id
    · exact absurd trivial h1
    · exact id
    · exact absurd trivial h2
    · exact id
    · exact sw.negtrans a b c h1 h2

variable {q : IndexedPriorityQueue A}

omit [DecidableEq A] in
theorem slot_lt {i : Nat} {a : A} (h : q.slot i = some a) : i < q.pq.length := by
  unfold slot at h
  by_contra hge
  rw [List.getElem?_eq_none (by omega)] at h
  cases h

omit [DecidableEq A] in
theorem slot_ge {i : Nat} (h : q.pq.length ≤ i) : q.slot i = none := by
  unfold slot; rw [List.getElem?_eq_none h]; rfl

omit [DecidableEq A] in
theorem slot_of_set {q q' : IndexedPriorityQueue A} {i : Nat} {x : Option A} (hi : i < q.pq.length)
    (h : q'.pq = q.pq.set i x) (k : Nat) : q'.slot k = if k = i then x else q.slot k := by
  unfold slot
  rw [h, List.getElem?_set]
  by_cases hk : i = k
  · subst hk; simp [hi]
  · simp [hk, Ne.symm hk]

omit [DecidableEq A] in
theorem inRange_iff {i j : Nat} :
    q.inRange i j = true ↔ (0 < i ∧ i < q.pq.length) ∧ 0 < j ∧ j < q.pq.length := by
  simp only [inRange, Bool.and_eq_true, decide_eq_true_eq]; tauto

namespace Valid

variable {q : IndexedPriorityQueue A}

theorem slot_some (h : q.Valid) {i : Nat} (h0 : 0 < i) (hi : i < q.pq.length) : ∃ a, q.slot i = some a := by
  cases hs : q.slot i with
  | none => have := (h.null i hi).1 hs; omega
  | some a => exact ⟨a, rfl⟩

theorem slot_inj (h : q.Valid) {i j : Nat} (hi : i < q.pq.length) (hj : j < q.pq.length)
    (hij : q.slot i = q.slot j) : i = j := by
  have h1 := (h.inverse (q.slot i) i).2 ⟨hi, rfl⟩
  have h2 := (h.inverse (q.slot i) j).2 ⟨hj, hij.symm⟩
  rw [h1] at h2
  exact Option.some.inj h2

theorem mem_indices (h : q.Valid) (a : A) : some a ∈ q.indices ↔ a ∈ q.elems := by
  rw [← AList.lookup_isSome, Option.isSome_iff_exists]
  constructor
  · rintro ⟨i, hi⟩; exact ⟨i, ((h.inverse _ _).1 hi).2⟩
  · rintro ⟨i, hi⟩; exact ⟨i, (h.inverse _ _).2 ⟨slot_lt hi, hi⟩⟩

theorem contains_iff (h : q.Valid) (a : A) : q.contains (some a) = true ↔ a ∈ q.elems := by
  simp [contains, h.mem_indices]

theorem higher_iff (h : q.Valid) {i j : Nat} (hi0 : 0 < i) (hi : i < q.pq.length) (hj0 : 0 < j)
    (hj : j < q.pq.length) : q.higher lt i j = true ↔ ltNull lt (q.slot i) (q.slot j) := by
  obtain ⟨a, ha⟩ := h.slot_some hi0 hi
  obtain ⟨b, hb⟩ := h.slot_some hj0 hj
  unfold higher
  rw [if_pos (inRange_iff.2 ⟨⟨hi0, hi⟩, hj0, hj⟩), ha, hb]
  rfl

end Valid

/-- The queue was only rearranged. -/
structure Keeps (q q' : IndexedPriorityQueue A) : Prop where
  valid : q'.Valid
  length : q'.pq.length = q.pq.length
  elems : q'.elems = q.elems

theorem Keeps.refl (h : q.Valid) : Keeps q q := ⟨h, rfl, rfl⟩

theorem Keeps.trans {q q' q'' : IndexedPriorityQueue A} (h : Keeps q q') (h' : Keeps q' q'') : Keeps q q'' :=
  ⟨h'.valid, h'.length.trans h.length, h'.elems.trans h.elems⟩

theorem Keeps.size {q q' : IndexedPriorityQueue A} (h : Keeps q q') : q'.size = q.size := by
  unfold IndexedPriorityQueue.size; rw [h.length]

theorem slot_swap_indices (q : IndexedPriorityQueue A) {i j : Nat} (hi0 : 0 < i) (hi : i < q.pq.length)
    (hj0 : 0 < j) (hj : j < q.pq.length) : (q.swap_indices i j).slot = Heap.swap q.slot i j := by
  funext k
  unfold swap_indices
  rw [if_pos (inRange_iff.2 ⟨⟨hi0, hi⟩, hj0, hj⟩)]
  have hmid : ∀ k, slot ⟨q.pq.set i (q.slot j), q.indices⟩ k = if k = i then q.slot j else q.slot k :=
    slot_of_set hi rfl
  rw [slot_of_set (q := ⟨q.pq.set i (q.slot j), q.indices⟩) (by simpa using hj) rfl, hmid]
  unfold Heap.swap
  split_ifs with h1 h2
  · subst h1; subst h2; rfl
  · rfl
  · rfl
  · rfl

theorem Valid.swap_indices (h : q.Valid) {i j : Nat} (hi0 : 0 < i)
    (hi : i < q.pq.length) (hj0 : 0 < j) (hj : j < q.pq.length) : Keeps q (q.swap_indices i j) := by
  have hlen := length_swap_indices q i j
  have hslot := slot_swap_indices q hi0 hi hj0 hj
  have hval : ∀ k, k < q.pq.length → Heap.swap q.slot i j k = q.slot (Equiv.swap i j k) := by
    intro k _
    unfold Heap.swap
    rw [Equiv.swap_apply_def]
    split_ifs <;> rfl
  have hrange : ∀ k, k < q.pq.length → Equiv.swap i j k < q.pq.length := by
    intro k hk
    rw [Equiv.swap_apply_def]
    split_ifs <;> assumption
  have hind : (q.swap_indices i j).indices = (q.indices.insert (q.slot i) j).insert (q.slot j) i := by
    unfold IndexedPriorityQueue.swap_indices
    rw [if_pos (inRange_iff.2 ⟨⟨hi0, hi⟩, hj0, hj⟩)]
  refine ⟨⟨by rw [hlen]; exact h.pos, ?_, ?_⟩, hlen, ?_⟩
  · intro k hk
    rw [hlen] at hk
    rw [hslot, hval k hk, h.null _ (hrange k hk), Equiv.swap_apply_def]
    split_ifs <;> omega
  · intro x k
    rw [hlen, hslot, hind, UMap.lookup_insert', UMap.lookup_insert']
    split_ifs with h1 h2
    · subst h1
      constructor
      · intro hk; cases hk; exact ⟨hi, Heap.swap_left q.slot i j⟩
      · rintro ⟨hk, hs⟩
        rw [hval k hk] at hs
        have hkj := h.slot_inj (hrange k hk) hj hs
        rw [Equiv.swap_apply_eq_iff, Equiv.swap_apply_right] at hkj
        rw [hkj]
    · subst h2
      constructor
      · intro hk; cases hk; exact ⟨hj, Heap.swap_right q.slot i j⟩
      · rintro ⟨hk, hs⟩
        rw [hval k hk] at hs
        have hkj := h.slot_inj (hrange k hk) hi hs
        rw [Equiv.swap_apply_eq_iff, Equiv.swap_apply_left] at hkj
        rw [hkj]
    · rw [h.inverse]
      -- any other element sits where it sat
      constructor
      · rintro ⟨hk, hs⟩
        have hki : k ≠ i := by rintro rfl; exact h2 hs.symm
        have hkj : k ≠ j := by rintro rfl; exact h1 hs.symm
        exact ⟨hk, by rw [Heap.swap_ne q.slot hki hkj, hs]⟩
      · rintro ⟨hk, hs⟩
        have hki : k ≠ i := by rintro rfl; rw [Heap.swap_left] at hs; exact h1 hs.symm
        have hkj : k ≠ j := by rintro rfl; rw [Heap.swap_right] at hs; exact h2 hs.symm
        exact ⟨hk, by rw [← hs, Heap.swap_ne q.slot hki hkj]⟩
  · ext a
    constructor
    · rintro ⟨k, hk⟩
      have hlt := slot_lt hk
      rw [hslot, hval k (hlen ▸ hlt)] at hk
      exact ⟨_, hk⟩
    · rintro ⟨k, hk⟩
      have hlt := slot_lt hk
      refine ⟨Equiv.swap i j k, ?_⟩
      rw [hslot, hval _ (hrange k hlt), Equiv.swap_apply_self, hk]

/-! ## Sifting -/

section Sift

variable (sw : Heap.StrictWeak fun a b : A => lt a b = true)
include sw

variable {q : IndexedPriorityQueue A}

theorem sift_up_spec {idx : Nat} (hv : q.Valid) (h1 : 1 ≤ idx) (hn : idx ≤ q.size)
    (he : Heap.Except (ltNull lt) q.slot q.size idx) (hb : Heap.Below (ltNull lt) q.slot q.size idx) :
    Keeps q (q.sift_up lt idx) ∧ Heap.Ordered (ltNull lt) (q.sift_up lt idx).slot q.size := by
  have hsw := ltNull_strictWeak sw
  induction idx using Nat.strong_induction_on generalizing q with
  | _ idx ih =>
    have hlen : q.size < q.pq.length := by have := hv.pos; unfold size; omega
    rw [sift_up]
    dsimp only
    split
    · rename_i hgt
      split
      · rename_i hh
        rw [hv.higher_iff (by omega) (by omega) (by omega) (by omega)] at hh
        have hk := hv.swap_indices (i := idx) (j := idx / 2) (by omega) (by omega) (by omega) (by omega)
        have hup := he.up hsw (by omega) hn hh
        rw [← slot_swap_indices q (by omega) (by omega) (by omega) (by omega)] at hup
        have hrec := ih (idx / 2) (by omega) hk.valid (by omega) (by rw [hk.size]; omega)
          (by rw [hk.size]; exact hup.1) (by rw [hk.size]; exact hup.2)
        rw [hk.size] at hrec
        exact ⟨hk.trans hrec.1, hrec.2⟩
      · rename_i hh
        rw [hv.higher_iff (by omega) (by omega) (by omega) (by omega)] at hh
        exact ⟨.refl hv, he.ordered hb fun _ => hh⟩
    · exact ⟨.refl hv, he.ordered hb fun h2 => by omega⟩

theorem childOf_spec {idx : Nat} (hv : q.Valid) (h1 : 1 ≤ idx) (hc : 2 * idx ≤ q.size) :
    q.childOf lt idx / 2 = idx ∧ q.childOf lt idx ≤ q.size ∧
      ∀ i, 2 ≤ i → i ≤ q.size → i / 2 = idx → ¬ ltNull lt (q.slot i) (q.slot (q.childOf lt idx)) := by
  have hsw := ltNull_strictWeak sw
  have hlen : q.size < q.pq.length := by have := hv.pos; unfold size; omega
  have hirr : ∀ x, ¬ ltNull lt x x := fun x hx => hsw.asymm x x hx hx
  unfold childOf
  split
  · rename_i hr
    simp only [Bool.and_eq_true, decide_eq_true_eq] at hr
    have hh := (hv.higher_iff (by omega) (by omega) (by omega) (by omega)).1 hr.2
    refine ⟨by omega, by omega, fun i _ _ hi => ?_⟩
    obtain rfl | rfl : i = 2 * idx ∨ i = 2 * idx + 1 := by omega
    · exact hsw.asymm _ _ hh
    · exact hirr _
  · rename_i hr
    simp only [Bool.and_eq_true, decide_eq_true_eq, not_and] at hr
    refine ⟨by omega, hc, fun i _ hin hi => ?_⟩
    obtain rfl | rfl : i = 2 * idx ∨ i = 2 * idx + 1 := by omega
    · exact hirr _
    · rw [← hv.higher_iff (by omega) (by omega) (by omega) (by omega)]
      exact hr (by omega)

theorem sift_down_spec {idx : Nat} (hv : q.Valid) (h1 : 1 ≤ idx) (hn : idx ≤ q.size)
    (he : Heap.Except (ltNull lt) q.slot q.size idx) (ha : Heap.Above (ltNull lt) q.slot idx) :
    Keeps q (q.sift_down lt idx) ∧ Heap.Ordered (ltNull lt) (q.sift_down lt idx).slot q.size := by
  have hsw := ltNull_strictWeak sw
  induction hm : q.size - idx using Nat.strong_induction_on generalizing q idx with
  | _ m ih =>
    have hlen : q.size < q.pq.length := by have := hv.pos; unfold size; omega
    rw [sift_down]
    dsimp only
    split
    · rename_i hle
      obtain ⟨hc, hcn, hmin⟩ := childOf_spec sw hv h1 hle
      split
      · rename_i hh
        rw [hv.higher_iff (by omega) (by omega) (by omega) (by omega)] at hh
        have hk := hv.swap_indices (i := q.childOf lt idx) (j := idx) (by omega) (by omega) (by omega) (by omega)
        have hdown := he.down hsw h1 hc hcn hmin hh
        rw [← slot_swap_indices q (by omega) (by omega) (by omega) (by omega)] at hdown
        have hrec := ih (q.size - q.childOf lt idx) (by omega) hk.valid (by omega) (by rw [hk.size]; omega)
          (by rw [hk.size]; exact hdown.1) hdown.2 (by rw [hk.size])
        rw [hk.size] at hrec
        exact ⟨hk.trans hrec.1, hrec.2⟩
      · rename_i hh
        rw [hv.higher_iff (by omega) (by omega) (by omega) (by omega)] at hh
        refine ⟨.refl hv, he.ordered (fun i h2 hin hi hbad => ?_) ha⟩
        exact hsw.negtrans _ _ _ (hmin i h2 hin hi) hh hbad
    · rename_i hle
      exact ⟨.refl hv, he.ordered (fun i h2 hin hi => by omega) ha⟩

end Sift

/-! ## The operations on the set of elements -/

omit [DecidableEq A] in
theorem slot_append {q r : IndexedPriorityQueue A} {x : Option A} (h : r.pq = q.pq ++ [x]) (k : Nat) :
    r.slot k = if k = q.pq.length then x else q.slot k := by
  unfold slot
  rw [h, List.getElem?_append]
  split_ifs with h1 h2 h2
  · omega
  · rfl
  · subst h2; simp
  · rw [List.getElem?_eq_none (by simp; omega), List.getElem?_eq_none (by omega)]

omit [DecidableEq A] in
theorem slot_dropLast {q r : IndexedPriorityQueue A} (h : r.pq = q.pq.dropLast) (k : Nat) :
    r.slot k = if k < q.size then q.slot k else none := by
  unfold slot size
  rw [h, List.getElem?_dropLast]
  split_ifs <;> rfl

theorem wf_new : WF lt (new : IndexedPriorityQueue A) := by
  have hlen : (new : IndexedPriorityQueue A).pq.length = 1 := rfl
  refine ⟨⟨by rw [hlen]; omega, ?_, ?_⟩, ?_⟩
  · intro i hi
    rw [hlen] at hi
    obtain rfl : i = 0 := by omega
    exact ⟨fun _ => rfl, fun _ => rfl⟩
  · intro x i
    have hind : (new : IndexedPriorityQueue A).indices = (∅ : UMap (Option A) Nat).insert none 0 := rfl
    rw [hind, UMap.lookup_insert', hlen]
    split_ifs with hx
    · subst hx
      constructor
      · intro h; cases h; exact ⟨by omega, rfl⟩
      · rintro ⟨hi, -⟩; congr 1; omega
    · constructor
      · intro h; simp at h
      · rintro ⟨hi, hs⟩
        obtain rfl : i = 0 := by omega
        exact absurd hs.symm hx
  · intro i h2 hn
    have : (new : IndexedPriorityQueue A).size = 0 := rfl
    omega

theorem elems_new : (new : IndexedPriorityQueue A).elems = ∅ := by
  ext a
  constructor
  · rintro ⟨i, hi⟩
    have hlt := slot_lt hi
    have hlen : (new : IndexedPriorityQueue A).pq.length = 1 := rfl
    obtain rfl : i = 0 := by omega
    cases hi
  · exact fun h => h.elim

theorem Valid.append (hv : q.Valid) {a : A} (ha : a ∉ q.elems) :
    Valid (⟨q.pq ++ [some a], q.indices.emplace (some a) (q.size + 1)⟩ : IndexedPriorityQueue A) := by
  have hslot := slot_append (q := q)
    (r := ⟨q.pq ++ [some a], q.indices.emplace (some a) (q.size + 1)⟩) (x := some a) rfl
  have hpos := hv.pos
  have hlast : q.size + 1 = q.pq.length := by unfold size; omega
  have hnot : some a ∉ q.indices := fun h => ha ((hv.mem_indices a).1 h)
  refine ⟨by simp, ?_, ?_⟩
  · intro i hi
    simp only [List.length_append, List.length_singleton] at hi
    rw [hslot]
    split_ifs with h
    · simp; omega
    · exact hv.null i (by omega)
  · intro x i
    rw [hslot, UMap.emplace_of_notMem hnot, UMap.lookup_insert', hlast]
    simp only [List.length_append, List.length_singleton]
    split_ifs with hx hi hi
    · subst hx; subst hi; simp
    · subst hx
      constructor
      · intro h; exact absurd (Option.some.inj h).symm hi
      · rintro ⟨-, hs⟩; exact absurd ⟨i, hs⟩ ha
    · subst hi
      constructor
      · intro h; have := ((hv.inverse x _).1 h).1; omega
      · rintro ⟨-, hs⟩; exact absurd hs.symm hx
    · rw [hv.inverse]
      constructor
      · rintro ⟨h1, h2⟩; exact ⟨by omega, h2⟩
      · rintro ⟨h1, h2⟩; exact ⟨by omega, h2⟩

section Set

variable (sw : Heap.StrictWeak fun a b : A => lt a b = true)
include sw

theorem WF.push {q : IndexedPriorityQueue A} (h : WF lt q) (a : A) :
    WF lt (q.push lt (some a)) ∧ (q.push lt (some a)).elems = insert a q.elems := by
  unfold IndexedPriorityQueue.push
  rw [if_neg (by simp)]
  split
  · rename_i hc
    exact ⟨h, (Set.insert_eq_of_mem ((h.valid.contains_iff a).1 hc)).symm⟩
  · rename_i hc
    have ha : a ∉ q.elems := fun hmem => hc ((h.valid.contains_iff a).2 hmem)
    have hv := h.valid.append ha
    have hpos := h.valid.pos
    dsimp only
    generalize hq' : (⟨q.pq ++ [some a], q.indices.emplace (some a) (q.size + 1)⟩ :
      IndexedPriorityQueue A) = q' at hv
    have hslot := slot_append (q := q) (r := q') (x := some a) (by rw [← hq'])
    have hsize : q'.size = q.size + 1 := by
      rw [← hq']; simp only [size, List.length_append, List.length_singleton]; omega
    have hlast : q.size + 1 = q.pq.length := by unfold size; omega
    have helems : q'.elems = insert a q.elems := by
      ext b
      constructor
      · rintro ⟨i, hi⟩
        rw [hslot] at hi
        split_ifs at hi
        · exact .inl (Option.some.inj hi).symm
        · exact .inr ⟨i, hi⟩
      · rintro (rfl | ⟨i, hi⟩)
        · exact ⟨q.pq.length, by rw [hslot, if_pos rfl]⟩
        · exact ⟨i, by rw [hslot, if_neg (by have := slot_lt hi; omega), hi]⟩
    have hidx : 1 ≤ q.size + 1 := by omega
    have hspec := sift_up_spec sw hv hidx (by omega) ⟨?_, ?_⟩ ?_
    · rw [hsize] at hspec
      have hk := hspec.1
      exact ⟨⟨hk.valid, by rw [hk.size, hsize]; exact hspec.2⟩, hk.elems.trans helems⟩
    · intro i h2 hn hi _
      rw [hslot, if_neg (by omega), hslot, if_neg (by omega)]
      exact h.order i h2 (by omega)
    · intro i hn hi h2; omega
    · intro i h2 hn hi; omega

end Set

theorem Valid.dropLast (hv : q.Valid) {a : A} (hlast : q.slot q.size = some a) :
    (q.dropLast (some a)).Valid ∧ (q.dropLast (some a)).size = q.size - 1 ∧
      (∀ k, (q.dropLast (some a)).slot k = if k < q.size then q.slot k else none) ∧
      (q.dropLast (some a)).elems = q.elems \ {a} := by
  have hpos := hv.pos
  have hsz : q.size + 1 = q.pq.length := by unfold size; omega
  have h0 : q.size ≠ 0 := by
    intro h0
    rw [h0, (hv.null 0 hpos).2 rfl] at hlast; cases hlast
  have hlen : (q.dropLast (some a)).pq.length = q.size := by
    simp only [IndexedPriorityQueue.dropLast, List.length_dropLast]; omega
  have hslot := slot_dropLast (q := q) (r := q.dropLast (some a)) rfl
  refine ⟨⟨by omega, ?_, ?_⟩, by unfold size; rw [hlen]; unfold size; omega, hslot, ?_⟩
  · intro i hi
    rw [hslot, if_pos (by omega)]
    exact hv.null i (by omega)
  · intro y i
    have hind : (q.dropLast (some a)).indices = q.indices.erase (some a) := rfl
    rw [hslot, hlen, hind, UMap.lookup_erase']
    by_cases hi : i < q.size
    · rw [if_pos hi]
      split_ifs with h1
      · subst h1
        simp only [false_iff, not_and]
        intro _ hs
        have := hv.slot_inj (by omega) (by omega) (hs.trans hlast.symm); omega
      · rw [hv.inverse]
        exact ⟨fun h => ⟨hi, h.2⟩, fun h => ⟨by omega, h.2⟩⟩
    · simp only [hi, false_and, iff_false]
      split_ifs with h1
      · simp
      · rw [hv.inverse]
        rintro ⟨h3, h4⟩
        obtain rfl : i = q.size := by omega
        exact h1 (h4.symm.trans hlast)
  · ext b
    constructor
    · rintro ⟨i, hi⟩
      rw [hslot] at hi
      split_ifs at hi with h1
      refine ⟨⟨i, hi⟩, ?_⟩
      rintro rfl
      have := hv.slot_inj (slot_lt hi) (by omega) (hi.trans hlast.symm); omega
    · rintro ⟨⟨i, hi⟩, hne⟩
      have hlt' := slot_lt hi
      refine ⟨i, ?_⟩
      rw [hslot, if_pos, hi]
      by_contra hge
      obtain rfl : i = q.size := by omega
      rw [hlast] at hi; exact hne (Option.some.inj hi).symm

theorem Valid.congr {r : IndexedPriorityQueue A} (hv : q.Valid) (hpq : r.pq = q.pq)
    (hind : ∀ x, r.indices.lookup x = q.indices.lookup x) : r.Valid := by
  have hslot : r.slot = q.slot := by unfold slot; rw [hpq]
  refine ⟨hpq ▸ hv.pos, fun i hi => ?_, fun x i => ?_⟩
  · rw [hslot]
    exact hv.null i (hpq ▸ hi)
  · rw [hind, hslot, hpq]
    exact hv.inverse x i

/-- The last element takes the place of `a` at `idx` as if the two were swapped and `a` dropped from the end. -/
theorem Valid.moveLast (hv : q.Valid) {a : A} {idx : Nat}
    (hidx : q.slot idx = some a) (hlt : idx < q.size) :
    (q.moveLast (some a) idx).Valid ∧ (q.moveLast (some a) idx).size = q.size - 1 ∧
      (∀ k, (q.moveLast (some a) idx).slot k =
        if k < q.size then (if k = idx then q.slot q.size else q.slot k) else none) ∧
      (q.moveLast (some a) idx).elems = q.elems \ {a} := by
  have hpos := hv.pos
  have hsz : q.size + 1 = q.pq.length := by unfold size; omega
  have hidx0 : idx ≠ 0 := by
    rintro rfl
    rw [(hv.null 0 hpos).2 rfl] at hidx; cases hidx
  have hk := hv.swap_indices (i := idx) (j := q.size) (by omega) (by omega) (by omega) (by omega)
  have hswap := slot_swap_indices q (i := idx) (j := q.size) (by omega) (by omega) (by omega) (by omega)
  obtain ⟨hvalid, hsize, hslot, helems⟩ :=
    hk.valid.dropLast (a := a) (by rw [hk.size, hswap, Heap.swap_right, hidx])
  have hr : q.swap_indices idx q.size = ⟨(q.pq.set idx (q.slot q.size)).set q.size (some a),
      (q.indices.insert (some a) q.size).insert (q.slot q.size) idx⟩ := by
    unfold IndexedPriorityQueue.swap_indices
    rw [if_pos (inRange_iff.2 (by omega)), hidx]
  have hpq : (q.moveLast (some a) idx).pq = ((q.swap_indices idx q.size).dropLast (some a)).pq := by
    rw [hr]
    simp only [IndexedPriorityQueue.moveLast, IndexedPriorityQueue.dropLast]
    apply List.ext_getElem?
    intro k
    simp only [List.getElem?_dropLast, List.length_set, List.getElem?_set]
    split_ifs <;> first | rfl | omega
  have hind (y) : (q.moveLast (some a) idx).indices.lookup y = ((q.swap_indices idx q.size).dropLast (some a)).indices.lookup y := by
    rw [hr]
    simp only [IndexedPriorityQueue.moveLast, IndexedPriorityQueue.dropLast, UMap.lookup_erase', UMap.lookup_insert']
    split_ifs <;> rfl
  have hslots : (q.moveLast (some a) idx).slot = ((q.swap_indices idx q.size).dropLast (some a)).slot := by
    unfold slot
    rw [hpq]
  refine ⟨hvalid.congr hpq hind, ?_, fun k => ?_, ?_⟩
  · rw [← hk.size, ← hsize]
    exact congrArg (·.length - 1) hpq
  · rw [hslots, hslot, hk.size, hswap]
    unfold Heap.swap
    split_ifs <;> first | rfl | omega
  · rw [← hk.elems, ← helems]
    unfold elems
    rw [hslots]

theorem WF.dropLast (h : WF lt q) {a : A} (hlast : q.slot q.size = some a) :
    WF lt (q.dropLast (some a)) ∧ (q.dropLast (some a)).elems = q.elems \ {a} := by
  obtain ⟨hv, hsize, hslot, helems⟩ := h.valid.dropLast hlast
  refine ⟨⟨hv, ?_⟩, helems⟩
  intro i h2 hn
  rw [hslot, if_pos (by omega), hslot, if_pos (by omega)]
  exact h.order i h2 (by omega)

section Removal

variable (sw : Heap.StrictWeak fun a b : A => lt a b = true)
include sw

variable {q : IndexedPriorityQueue A}

theorem WF.moveLast_except (h : WF lt q) {a : A} {idx : Nat}
    (hidx : q.slot idx = some a) (hlt : idx < q.size) :
    Heap.Except (ltNull lt) (q.moveLast (some a) idx).slot (q.moveLast (some a) idx).size idx := by
  obtain ⟨-, hsize, hslot, -⟩ := h.valid.moveLast hidx hlt
  have he := h.order.except (ltNull_strictWeak sw) idx
  have hkeep : ∀ k, k < q.size → k ≠ idx → (q.moveLast (some a) idx).slot k = q.slot k := by
    intro k hk hne; rw [hslot, if_pos hk, if_neg hne]
  rw [hsize]
  refine ⟨fun i h2 hn hi hp => ?_, fun i hn hi h2 => ?_⟩
  · rw [hkeep i (by omega) hi, hkeep (i / 2) (by omega) hp]
    exact he.off i h2 (by omega) hi hp
  · rw [hkeep i (by omega) (by omega), hkeep (idx / 2) (by omega) (by omega)]
    exact he.grand i (by omega) hi h2

theorem sift_up_down {idx : Nat} (hv : q.Valid) (h1 : 1 ≤ idx) (hn : idx ≤ q.size)
    (he : Heap.Except (ltNull lt) q.slot q.size idx) :
    Keeps q (sift_down lt (sift_up lt q idx) idx) ∧
      Heap.Ordered (ltNull lt) (sift_down lt (sift_up lt q idx) idx).slot q.size := by
  have hsw := ltNull_strictWeak sw
  have hlen : q.size < q.pq.length := by have := hv.pos; unfold size; omega
  by_cases hup : idx > 1 ∧ ltNull lt (q.slot idx) (q.slot (idx / 2))
  · -- the value belongs above: afterwards the heap is in order and sifting down changes nothing
    obtain ⟨hk, ho⟩ := sift_up_spec sw hv h1 hn he (he.below_of_lt hsw (by omega) hup.2)
    rw [← hk.size] at ho
    obtain ⟨hk', ho'⟩ := sift_down_spec sw hk.valid h1 (by rw [hk.size]; exact hn) (ho.except hsw idx)
      fun h2 => ho idx h2 (by rw [hk.size]; exact hn)
    rw [hk.size] at ho'
    exact ⟨hk.trans hk', ho'⟩
  · have hstay : sift_up lt q idx = q := by
      rw [sift_up]
      dsimp only
      split
      · rename_i hgt
        rw [if_neg]
        rw [hv.higher_iff (by omega) (by omega) (by omega) (by omega)]
        exact fun hlt => hup ⟨hgt, hlt⟩
      · rfl
    rw [hstay]
    exact sift_down_spec sw hv h1 hn he fun h2 hlt => hup ⟨by omega, hlt⟩

theorem WF.remove (h : WF lt q) (a : A) :
    WF lt (q.remove lt (some a)).2 ∧ (q.remove lt (some a)).2.elems = q.elems \ {a} ∧
      ((q.remove lt (some a)).1 = true ↔ a ∈ q.elems) := by
  unfold IndexedPriorityQueue.remove
  rw [if_neg (by simp)]
  split
  · rename_i hc
    have ha : a ∉ q.elems := by
      rw [← h.valid.contains_iff a]; simpa using hc
    exact ⟨h, by rw [Set.sdiff_singleton_eq_self ha], by simp [ha]⟩
  · rename_i hc
    have ha : a ∈ q.elems := by
      rw [← h.valid.contains_iff a]; simpa using hc
    obtain ⟨idx, hidx⟩ := ha
    have hlt := slot_lt hidx
    have hget : UMap.getD q.indices (some a) 0 = idx :=
      UMap.getD_of_lookup_some ((h.valid.inverse _ _).2 ⟨hlt, hidx⟩) 0
    have hsz : q.size + 1 = q.pq.length := by unfold size; omega
    simp only [hget]
    rw [if_neg (by omega)]
    split
    · rename_i heq
      subst heq
      have := h.dropLast hidx
      exact ⟨this.1, this.2, by simp; exact ⟨_, hidx⟩⟩
    · rename_i hne
      have hlt' : idx < q.size := by omega
      have h1 : 1 ≤ idx := by
        by_contra h0
        obtain rfl : idx = 0 := by omega
        rw [(h.valid.null 0 hlt).2 rfl] at hidx; cases hidx
      obtain ⟨hv, hsize, -, helems⟩ := h.valid.moveLast hidx hlt'
      obtain ⟨hk, ho⟩ := sift_up_down sw hv h1 (by omega) (h.moveLast_except sw hidx hlt')
      refine ⟨⟨hk.valid, by rw [hk.size]; exact ho⟩, hk.elems.trans helems, ?_⟩
      simp only [true_iff]
      exact ⟨_, hidx⟩

omit sw [DecidableEq A] in
theorem top_eq (q : IndexedPriorityQueue A) : q.top = q.slot 1 := by
  unfold top empty size
  split
  · rename_i he
    simp only [decide_eq_true_eq] at he
    exact (slot_ge (by omega)).symm
  · rfl

omit sw in
theorem WF.top_none_iff (h : WF lt q) : q.top = none ↔ q.elems = ∅ := by
  rw [top_eq]
  constructor
  · intro hn
    ext a
    constructor
    · rintro ⟨i, hi⟩
      have hlt := slot_lt hi
      have hi0 : i ≠ 0 := by rintro rfl; rw [(h.valid.null 0 hlt).2 rfl] at hi; cases hi
      obtain ⟨b, hb⟩ := h.valid.slot_some (i := 1) (by omega) (by omega)
      rw [hb] at hn; cases hn
    · exact fun hf => hf.elim
  · intro he
    cases hs : q.slot 1 with
    | none => rfl
    | some a => exact absurd (show a ∈ q.elems from ⟨1, hs⟩) (by rw [he]; exact id)

theorem WF.top_some (h : WF lt q) {a : A} (ht : q.top = some a) :
    a ∈ q.elems ∧ ∀ b ∈ q.elems, lt b a = false := by
  rw [top_eq] at ht
  refine ⟨⟨1, ht⟩, ?_⟩
  rintro b ⟨i, hi⟩
  have hlt := slot_lt hi
  have hi0 : i ≠ 0 := by rintro rfl; rw [(h.valid.null 0 hlt).2 rfl] at hi; cases hi
  have := h.order.top_min (ltNull_strictWeak sw) i (by omega) (by unfold size; omega)
  rw [hi, ht] at this
  simpa [ltNull] using this

theorem WF.pop (h : WF lt q) {a : A} (ht : q.top = some a) :
    WF lt (q.pop lt) ∧ (q.pop lt).elems = q.elems \ {a} ∧ (q.pop lt).size + 1 = q.size := by
  have hidx : q.slot 1 = some a := by rw [← top_eq, ht]
  have hlt := slot_lt hidx
  have hsz : q.size + 1 = q.pq.length := by unfold size; omega
  unfold IndexedPriorityQueue.pop
  rw [if_neg (by rw [ht]; simp)]
  split
  · rename_i heq
    have := h.dropLast (a := a) (by rw [← heq, hidx])
    rw [ht]
    have hs := (h.valid.dropLast (a := a) (by rw [← heq, hidx])).2.1
    exact ⟨this.1, this.2, by omega⟩
  · rename_i hne
    rw [ht]
    obtain ⟨hv, hsize, -, helems⟩ := h.valid.moveLast hidx (by omega)
    obtain ⟨hk, ho⟩ := sift_down_spec sw hv (le_refl 1) (by omega) (h.moveLast_except sw hidx (by omega))
      fun h2 => by omega
    exact ⟨⟨hk.valid, by rw [hk.size]; exact ho⟩, hk.elems.trans helems, by rw [hk.size]; omega⟩

end Removal

end IndexedPriorityQueue

end Statsd.Anomaly
