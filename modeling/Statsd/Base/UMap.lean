/-
The unordered maps of the C++ sources: association lists with one entry per key, in whatever
order the container happens to keep. Reads go through `lookup` (Mathlib's `AList`) or, for
`m[key]` on a missing key, through `getD`; iteration goes over `entries`, so a fact about a loop
over a map holds for every order of its entries.
-/
import Mathlib.Data.List.AList
import Mathlib.Tactic

namespace Statsd

/-- An `unordered_map`: one entry per key, in an arbitrary order. -/
abbrev UMap (K V : Type) := AList (fun _ : K => V)

-- the order that sorts a set of integers
instance isTrans_int : IsTrans Int (· ≤ ·) := ⟨fun _ _ _ => Int.le_trans⟩

instance antisymm_int : Std.Antisymm (fun a b : Int => a ≤ b) := ⟨fun _ _ => Int.le_antisymm⟩

namespace UMap

variable {K V : Type} [DecidableEq K]

/-- The value of a key, or a default when the key has no entry. -/
def getD (m : UMap K V) (k : K) (d : V) : V := (m.lookup k).getD d

/-- `insert({k, v})`: an entry that is already there stays as it is. -/
def emplace (m : UMap K V) (k : K) (v : V) : UMap K V := if k ∈ m then m else m.insert k v

@[simp] theorem getD_empty (k : K) (d : V) : getD (∅ : UMap K V) k d = d := by
  simp [getD]

theorem getD_insert (m : UMap K V) (k k' : K) (v d : V) :
    getD (m.insert k v) k' d = if k' = k then v else getD m k' d := by
  unfold getD
  split
  · rename_i h; subst h; simp
  · rename_i h; rw [AList.lookup_insert_ne h]

theorem getD_erase (m : UMap K V) (k k' : K) (d : V) :
    getD (m.erase k) k' d = if k' = k then d else getD m k' d := by
  unfold getD
  split
  · rename_i h; subst h; simp
  · rename_i h; rw [AList.lookup_erase_ne h]

variable {m : UMap K V}

theorem getD_of_lookup_none {k : K} (h : m.lookup k = none) (d : V) : getD m k d = d := by
  simp [getD, h]

theorem getD_of_lookup_some {k : K} {v : V} (h : m.lookup k = some v) (d : V) :
    getD m k d = v := by
  simp [getD, h]

theorem lookup_insert' (m : UMap K V) (k k' : K) (v : V) :
    (m.insert k v).lookup k' = if k' = k then some v else m.lookup k' := by
  split
  · rename_i h; subst h; exact AList.lookup_insert m
  · rename_i h; exact AList.lookup_insert_ne h

theorem lookup_erase' (m : UMap K V) (k k' : K) :
    (m.erase k).lookup k' = if k' = k then none else m.lookup k' := by
  split
  · rename_i h; subst h; exact AList.lookup_erase k' m
  · rename_i h; exact AList.lookup_erase_ne h

theorem emplace_of_notMem {k : K} (h : k ∉ m) (v : V) : m.emplace k v = m.insert k v := if_neg h

/-- Every value of the map is changed. -/
def mapVal {W : Type} (f : V → W) (m : UMap K V) : UMap K W where
  entries := m.entries.map fun it => ⟨it.1, f it.2⟩
  nodupKeys := by
    have : (m.entries.map fun it => (⟨it.1, f it.2⟩ : Sigma fun _ : K => W)).keys = m.entries.keys := by
      simp [List.keys]
    rw [List.NodupKeys, this]
    exact m.nodupKeys

/-- The entries whose value meets a test. -/
def filterVal (p : V → Bool) (m : UMap K V) : UMap K V where
  entries := m.entries.filter fun it => p it.2
  nodupKeys := m.nodupKeys.sublist List.filter_sublist

theorem lookup_mapVal {W : Type} (f : V → W) (m : UMap K V) (k : K) : (m.mapVal f).lookup k = (m.lookup k).map f := by
  have h := List.dlookup_map₂ (l := m.entries) (f := fun _ => f) k
  exact h

theorem lookup_of_filterVal {p : V → Bool} {k : K} {v : V} (h : (m.filterVal p).lookup k = some v) :
    m.lookup k = some v :=
  AList.mem_lookup_iff.2 (List.mem_of_mem_filter (AList.mem_lookup_iff.1 h))

theorem lookup_filterVal (p : V → Bool) (m : UMap K V) (k : K) : (m.filterVal p).lookup k = (m.lookup k).filter p := by
  ext v
  rw [Option.filter_eq_some_iff, ← Option.mem_def, ← Option.mem_def, AList.mem_lookup_iff, AList.mem_lookup_iff]
  exact List.mem_filter

theorem lookup_foldl_insert {W : Type} (f : W → V → W) (d : W) (l : List (Sigma fun _ : K => V)) (hl : l.NodupKeys)
    (m : UMap K W) (k : K) :
    (l.foldl (fun m it => m.insert it.1 (f (getD m it.1 d) it.2)) m).lookup k =
      match l.dlookup k with
      | none => m.lookup k
      | some v => some (f (getD m k d) v) := by
  induction l generalizing m with
  | nil => rfl
  | cons it l ih =>
    rw [List.nodupKeys_cons] at hl
    rw [List.foldl_cons, ih hl.2]
    by_cases hk : k = it.1
    · subst hk
      have hnone : l.dlookup it.1 = none := List.dlookup_eq_none.2 hl.1
      rw [hnone, List.dlookup_cons_eq]
      exact AList.lookup_insert m
    · rw [List.dlookup_cons_ne _ _ hk, getD_insert, if_neg hk, AList.lookup_insert_ne hk]

theorem getD_foldl_insert {W : Type} (f : W → V → W) (d : W) (l : List (Sigma fun _ : K => V)) (hl : l.NodupKeys)
    (m : UMap K W) (k : K) :
    getD (l.foldl (fun m it => m.insert it.1 (f (getD m it.1 d) it.2)) m) k d =
      match l.dlookup k with
      | none => getD m k d
      | some v => f (getD m k d) v := by
  have hlook := lookup_foldl_insert f d l hl m k
  generalize l.foldl (fun m it => m.insert it.1 (f (getD m it.1 d) it.2)) m = m' at hlook
  unfold getD at hlook ⊢
  rw [hlook]
  cases l.dlookup k with
  | none => rfl
  | some v => rfl

/-- The values of several keys, if all have one. -/
def lookupAll (m : UMap K V) : List K → Option (List V)
  | [] => some []
  | k :: ks =>
    match m.lookup k with
    | none => none
    | some v => (lookupAll m ks).map (v :: ·)

theorem lookupAll_eq_some_iff {ks : List K} {vs : List V} :
    m.lookupAll ks = some vs ↔ ks.map m.lookup = vs.map some := by
  induction ks generalizing vs with
  | nil =>
    rw [lookupAll, Option.some.injEq, List.map_nil, eq_comm, eq_comm (a := []), List.map_eq_nil_iff]
  | cons k ks ih =>
    rw [lookupAll]
    cases hk : m.lookup k with
    | none =>
      refine iff_of_false (by simp) fun h => ?_
      cases vs with
      | nil => cases h
      | cons v vs =>
        rw [List.map_cons, hk] at h
        cases h
    | some v =>
      cases vs with
      | nil => simp
      | cons v' vs =>
        rw [Option.map_eq_some_iff, List.map_cons, List.map_cons, hk, List.cons.injEq, Option.some.injEq, ← ih]
        constructor
        · rintro ⟨vs', hvs, heq⟩
          obtain ⟨rfl, rfl⟩ := List.cons.inj heq
          exact ⟨rfl, hvs⟩
        · rintro ⟨rfl, hvs⟩
          exact ⟨vs, hvs, rfl⟩

theorem exists_lookupAll {ks : List K} (h : ∀ k ∈ ks, k ∈ m) : ∃ vs, m.lookupAll ks = some vs := by
  induction ks with
  | nil => exact ⟨[], rfl⟩
  | cons k ks ih =>
    obtain ⟨vs, hvs⟩ := ih fun k' hk' => h k' (List.mem_cons_of_mem _ hk')
    obtain ⟨v, hv⟩ := Option.isSome_iff_exists.1 (AList.lookup_isSome.2 (h k List.mem_cons_self))
    exact ⟨v :: vs, by rw [lookupAll, hv, hvs]; rfl⟩

theorem mem_of_map_lookup {ks : List K} {vs : List V} (h : ks.map m.lookup = vs.map some) {k : K}
    (hk : k ∈ ks) : k ∈ m := by
  have hmem : m.lookup k ∈ vs.map some := h ▸ List.mem_map_of_mem hk
  obtain ⟨v, -, hv⟩ := List.mem_map.1 hmem
  exact AList.lookup_isSome.1 (by rw [← hv]; rfl)

/-! ## Maps to lists, and from ids to positions -/

/-- `m[k].push_back(v)`. -/
def push (m : UMap K (List V)) (k : K) (v : V) : UMap K (List V) := m.insert k (getD m k [] ++ [v])

theorem mem_getD_push (m : UMap K (List V)) (k k' : K) (v v' : V) :
    v' ∈ getD (m.push k v) k' [] ↔ v' ∈ getD m k' [] ∨ k' = k ∧ v' = v := by
  unfold push
  rw [getD_insert]
  split
  · rename_i h; subst h; simp
  · rename_i h; simp [h]

/-- The map from ids to their positions in a list. -/
def indexMap (ids : List K) : UMap K Nat :=
  (List.range ids.length).foldl (fun m i => match ids[i]? with
    | some id => m.emplace id i
    | none => m) ∅

theorem lookup_emplace (m : UMap K V) (k k' : K) (v : V) :
    (m.emplace k v).lookup k' = if k' = k ∧ m.lookup k = none then some v else m.lookup k' := by
  unfold emplace
  by_cases hk : k ∈ m
  · have hs := AList.lookup_isSome.2 hk
    have hn : m.lookup k ≠ none := by
      intro h0; rw [h0] at hs; cases hs
    rw [if_pos hk, if_neg fun h => hn h.2]
  · have hn : m.lookup k = none := AList.lookup_eq_none.2 hk
    rw [if_neg hk, lookup_insert']
    simp only [hn, and_true]

theorem lookup_indexMap {ids : List K} (h : ids.Nodup) (k : K) (i : Nat) :
    (indexMap ids).lookup k = some i ↔ ids[i]? = some k := by
  have hpre : ∀ n, n ≤ ids.length → ∀ k i, ((List.range n).foldl (fun m i => match ids[i]? with
      | some id => UMap.emplace m id i
      | none => m) (∅ : UMap K Nat)).lookup k = some i ↔ i < n ∧ ids[i]? = some k := by
    intro n
    induction n with
    | zero => intro _ k i; simp
    | succ n ih =>
      intro hn k i
      have hget : ids[n]? = some ids[n] := List.getElem?_eq_getElem (by omega)
      rw [List.range_succ, List.foldl_append]
      simp only [List.foldl_cons, List.foldl_nil, hget]
      have hnone : ((List.range n).foldl (fun m i => match ids[i]? with
          | some id => UMap.emplace m id i
          | none => m) (∅ : UMap K Nat)).lookup ids[n] = none := by
        rw [Option.eq_none_iff_forall_not_mem]
        intro j hj
        obtain ⟨hlt, hj⟩ := (ih (by omega) _ j).1 hj
        have hj' : j < ids.length := by omega
        have := (List.getElem?_inj hj' h).1 (hj.trans hget.symm)
        omega
      rw [lookup_emplace]
      simp only [hnone, and_true]
      split
      · rename_i hk
        subst hk
        constructor
        · intro hi; cases hi; exact ⟨by omega, hget⟩
        · rintro ⟨hi, hk⟩
          have hi' : i < ids.length := by omega
          rw [(List.getElem?_inj hi' h).1 (hk.trans hget.symm)]
      · rename_i hk
        rw [ih (by omega)]
        constructor
        · rintro ⟨hi, hk'⟩; exact ⟨by omega, hk'⟩
        · rintro ⟨hi, hk'⟩
          refine ⟨?_, hk'⟩
          rcases Nat.lt_succ_iff_lt_or_eq.1 hi with hlt | rfl
          · exact hlt
          · rw [hget] at hk'; exact absurd (Option.some.inj hk').symm hk
  unfold indexMap
  rw [hpre ids.length (le_refl _)]
  constructor
  · exact fun h => h.2
  · intro hi
    exact ⟨(List.getElem?_eq_some_iff.1 hi).1, hi⟩

/-- The map from ids to the last of their positions. -/
def lastIndexMap (ids : List K) : UMap K Nat :=
  (List.range ids.length).foldl (fun m i => match ids[i]? with
    | some id => m.insert id i
    | none => m) ∅

theorem mem_emplace_iff {k k' : K} {v : V} : k' ∈ m.emplace k v ↔ k' = k ∨ k' ∈ m := by
  unfold emplace
  split
  · rename_i hk
    refine ⟨.inr, ?_⟩
    rintro (rfl | h)
    · exact hk
    · exact h
  · exact AList.mem_insert m

theorem mem_foldl_range_iff (ids : List K) (add : UMap K Nat → K → Nat → UMap K Nat)
    (hadd : ∀ m k i k', k' ∈ add m k i ↔ k' = k ∨ k' ∈ m) (k : K) :
    k ∈ (List.range ids.length).foldl (fun m i => match ids[i]? with
      | some id => add m id i
      | none => m) (∅ : UMap K Nat) ↔ k ∈ ids := by
  have hpre : ∀ n ≤ ids.length, k ∈ (List.range n).foldl (fun m i => match ids[i]? with
      | some id => add m id i
      | none => m) (∅ : UMap K Nat) ↔ k ∈ ids.take n := by
    intro n
    induction n with
    | zero => simp
    | succ n ih =>
      intro hn
      have hget : ids[n]? = some ids[n] := List.getElem?_eq_getElem (by omega)
      rw [List.range_succ, List.foldl_append, List.foldl_cons, List.foldl_nil, hget, hadd, ih (by omega),
        List.take_add_one, List.mem_append, hget, or_comm]
      simp
  rw [hpre _ le_rfl, List.take_length]

theorem mem_lastIndexMap_iff {ids : List K} {k : K} : k ∈ lastIndexMap ids ↔ k ∈ ids :=
  mem_foldl_range_iff ids (fun m k i => m.insert k i) (fun m _ _ _ => AList.mem_insert m) k

end UMap

end Statsd
