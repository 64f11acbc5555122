/-
The references between the entries of a config: which configs are well formed, and what their entries are made of.
The entries depend on each other without a cycle exactly when they can be ranked above their children.
-/
import Statsd.Config.ConfigDiff

namespace Statsd.Config

/-- The ids are unique, every entry is valid on its own account and its children exist, and no entry depends on
itself. -/
structure WellFormed {M : Type} (id : M → Int) (children : M → List Int) (valid : M → Prop) (config : List M) : Prop where
  unique : (config.map id).Nodup
  valid : ∀ m ∈ config, valid m
  found : ∀ m ∈ config, ∀ c ∈ children m, c ∈ config.map id
  acyclic : ∀ i, ¬ Relation.TransGen (Depends id children config) i i

/-- What the leaves that an entry depends on have. -/
def leaves {M A : Type} (id : M → Int) (children : M → List Int) (own : M → Set A) (config : List M) (i : Int) : Set A :=
  {a | ∃ m ∈ config, Relation.ReflTransGen (Depends id children config) i (id m) ∧ a ∈ own m}

/-- The entries are ranked above their children. -/
def RanksChildren {M : Type} (id : M → Int) (children : M → List Int) (config : List M) (rank : Nat → Nat) : Prop :=
  ∀ i m, config[i]? = some m → ∀ c ∈ children m,
    ∃ j, (UMap.indexMap (config.map id)).lookup c = some j ∧ rank j < rank i

/-- The indices of a list of ids, in order. -/
def IndicesOf {M : Type} (id : M → Int) (config : List M) : List Int → List Nat → Prop :=
  List.Forall₂ fun c j => (config[j]?).map id = some c

section

variable {M : Type} {id : M → Int} {children : M → List Int} {valid : M → Prop} {config : List M}

theorem lookup_of_get (hunique : (config.map id).Nodup) {i : Nat} {m : M} (hm : config[i]? = some m) :
    (UMap.indexMap (config.map id)).lookup (id m) = some i := by
  rw [UMap.lookup_indexMap hunique, List.getElem?_map, hm]
  rfl

theorem lookup_iff_get (hunique : (config.map id).Nodup) {c : Int} {j : Nat} :
    (UMap.indexMap (config.map id)).lookup c = some j ↔ ∃ m, config[j]? = some m ∧ id m = c := by
  rw [UMap.lookup_indexMap hunique, List.getElem?_map, Option.map_eq_some_iff]

theorem exists_lookup (hunique : (config.map id).Nodup) {c : Int} (hc : c ∈ config.map id) :
    ∃ j < config.length, (UMap.indexMap (config.map id)).lookup c = some j := by
  obtain ⟨j, hj⟩ := List.mem_iff_getElem?.1 hc
  have hlt := (List.getElem?_eq_some_iff.1 hj).1
  rw [List.length_map] at hlt
  exact ⟨j, hlt, (UMap.lookup_indexMap hunique c j).2 hj⟩

theorem indicesOf_of_lookup (hunique : (config.map id).Nodup) {l : List Int} {cs : List Nat}
    (h : l.map (UMap.indexMap (config.map id)).lookup = cs.map some) : IndicesOf id config l cs := by
  induction l generalizing cs with
  | nil =>
    obtain rfl := List.map_eq_nil_iff.1 h.symm
    exact .nil
  | cons c l ih =>
    cases cs with
    | nil => cases h
    | cons j cs =>
      obtain ⟨hj, hl⟩ := List.cons.inj h
      rw [UMap.lookup_indexMap hunique, List.getElem?_map] at hj
      exact .cons hj (ih hl)

theorem WellFormed.exists_rank (h : WellFormed id children valid config) :
    ∃ rank, RanksChildren id children config rank := by
  classical
  let below : Int → Finset Int := fun i =>
    {j ∈ (config.map id).toFinset | Relation.TransGen (Depends id children config) i j}
  refine ⟨fun i => (config[i]?.map fun m => (below (id m)).card).getD 0, fun i m hm c hc => ?_⟩
  have hmem := List.mem_of_getElem? hm
  have hfound := h.found m hmem c hc
  have hdepends : Depends id children config (id m) c := ⟨m, hmem, rfl, hc⟩
  obtain ⟨j, -, hj⟩ := exists_lookup h.unique hfound
  obtain ⟨m', hm', rfl⟩ := (lookup_iff_get h.unique).1 hj
  refine ⟨j, hj, ?_⟩
  dsimp only
  rw [hm, hm', Option.map_some, Option.map_some, Option.getD_some, Option.getD_some]
  refine Finset.card_lt_card ((Finset.ssubset_iff_of_subset fun k hk => ?_).2 ⟨id m', ?_, ?_⟩)
  · rw [Finset.mem_filter] at hk ⊢
    exact ⟨hk.1, .head hdepends hk.2⟩
  · exact Finset.mem_filter.2 ⟨List.mem_toFinset.2 hfound, .single hdepends⟩
  · rw [Finset.mem_filter]
    exact fun hself => h.acyclic _ hself.2

theorem RanksChildren.lt_of_transGen {rank : Nat → Nat} (hrank : RanksChildren id children config rank)
    (hunique : (config.map id).Nodup) {x y : Int} (hxy : Relation.TransGen (Depends id children config) x y) {i : Nat}
    {m : M} (hm : config[i]? = some m) (hid : id m = x) :
    ∃ j, (UMap.indexMap (config.map id)).lookup y = some j ∧ rank j < rank i := by
  have hstep : ∀ {i : Nat} {m : M} {y z : Int}, config[i]? = some m → id m = y → Depends id children config y z →
      ∃ j, (UMap.indexMap (config.map id)).lookup z = some j ∧ rank j < rank i := by
    rintro i m y z hm hid ⟨m', hm', hid', hz⟩
    obtain rfl := eq_of_id_eq hunique hm' (List.mem_of_getElem? hm) (hid'.trans hid.symm)
    exact hrank i m' hm z hz
  induction hxy with
  | single hxy => exact hstep hm hid hxy
  | tail _ hyz ih =>
    obtain ⟨j, hj, hlt⟩ := ih
    obtain ⟨m', hm', hid'⟩ := (lookup_iff_get hunique).1 hj
    obtain ⟨k, hk, hlt'⟩ := hstep hm' hid' hyz
    exact ⟨k, hk, hlt'.trans hlt⟩

theorem RanksChildren.wellFormed {rank : Nat → Nat} (hrank : RanksChildren id children config rank)
    (hunique : (config.map id).Nodup) (hvalid : ∀ m ∈ config, valid m) : WellFormed id children valid config := by
  refine ⟨hunique, hvalid, fun m hm c hc => ?_, fun x hx => ?_⟩
  · obtain ⟨i, hi⟩ := List.mem_iff_getElem?.1 hm
    obtain ⟨j, hj, -⟩ := hrank i m hi c hc
    obtain ⟨m', hm', rfl⟩ := (lookup_iff_get hunique).1 hj
    exact List.mem_map_of_mem (List.mem_of_getElem? hm')
  · obtain ⟨_, ⟨m, hm, hid, -⟩, -⟩ := Relation.TransGen.head'_iff.1 hx
    obtain ⟨i, hi⟩ := List.mem_iff_getElem?.1 hm
    obtain ⟨j, hj, hlt⟩ := hrank.lt_of_transGen hunique hx hi hid
    rw [← hid, lookup_of_get hunique hi] at hj
    obtain rfl := Option.some.inj hj
    exact lt_irrefl _ hlt

theorem mem_leaves_iff {A : Type} {own : M → Set A} (hunique : (config.map id).Nodup) {m : M} (hm : m ∈ config) (a : A) :
    a ∈ leaves id children own config (id m) ↔ a ∈ own m ∨ ∃ c ∈ children m, a ∈ leaves id children own config c := by
  constructor
  · rintro ⟨m', hm', hreach, ha⟩
    rcases Relation.ReflTransGen.cases_head hreach with he | ⟨c, ⟨m'', hm'', hid, hc⟩, hrest⟩
    · obtain rfl := eq_of_id_eq hunique hm hm' he
      exact .inl ha
    · obtain rfl := eq_of_id_eq hunique hm'' hm hid
      exact .inr ⟨c, hc, m', hm', hrest, ha⟩
  · rintro (ha | ⟨c, hc, m', hm', hreach, ha⟩)
    · exact ⟨m, hm, .refl, ha⟩
    · exact ⟨m', hm', .head ⟨m, hm, rfl, hc⟩ hreach, ha⟩

/-- A set for each entry that has what the entry has itself and what its children have is the set of its leaves. -/
theorem mem_leaves_of_rank {A : Type} {own : M → Set A} {rank : Nat → Nat}
    (hrank : RanksChildren id children config rank) (hunique : (config.map id).Nodup) {S : Nat → Set A}
    (hS : ∀ i m, config[i]? = some m → ∀ a, a ∈ S i ↔ a ∈ own m ∨
      ∃ c ∈ children m, ∃ j, (UMap.indexMap (config.map id)).lookup c = some j ∧ a ∈ S j)
    {i : Nat} {m : M} (hm : config[i]? = some m) (a : A) : a ∈ S i ↔ a ∈ leaves id children own config (id m) := by
  induction hr : rank i using Nat.strong_induction_on generalizing i m with
  | _ r ih =>
    subst hr
    rw [hS i m hm, mem_leaves_iff hunique (List.mem_of_getElem? hm)]
    refine or_congr_right (exists_congr fun c => and_congr_right fun hc => ?_)
    obtain ⟨j, hj, hlt⟩ := hrank i m hm c hc
    obtain ⟨m', hm', rfl⟩ := (lookup_iff_get hunique).1 hj
    rw [← ih (rank j) hlt hm' rfl]
    constructor
    · rintro ⟨k, hk, ha⟩
      obtain rfl := Option.some.inj (hj.symm.trans hk)
      exact ha
    · exact fun ha => ⟨j, hj, ha⟩

end

theorem exists_indices {lookup : Int → Option Nat} {P : Nat → Prop} {l : List Int}
    (h : ∀ c ∈ l, ∃ j, lookup c = some j ∧ P j) : ∃ cs : List Nat, l.map lookup = cs.map some ∧ ∀ j ∈ cs, P j := by
  induction l with
  | nil => exact ⟨[], rfl, nofun⟩
  | cons c l ih =>
    obtain ⟨j, hj, hp⟩ := h c List.mem_cons_self
    obtain ⟨cs, hcs, hall⟩ := ih fun d hd => h d (List.mem_cons_of_mem _ hd)
    refine ⟨j :: cs, by rw [List.map_cons, List.map_cons, hj, hcs], fun k hk => ?_⟩
    rcases List.mem_cons.1 hk with rfl | hk
    · exact hp
    · exact hall k hk

theorem makeTrackers_isSome {M T : Type} {make : Nat → M → Option T} {i : Nat} {l : List M}
    (h : ∀ i, ∀ m ∈ l, (make i m).isSome) : ∃ trackers, makeTrackers make i l = some trackers := by
  induction l generalizing i with
  | nil => exact ⟨[], rfl⟩
  | cons m l ih =>
    obtain ⟨t, ht⟩ := Option.isSome_iff_exists.1 (h i m List.mem_cons_self)
    obtain ⟨ts, hts⟩ := ih (i := i + 1) fun j m' hm' => h j m' (List.mem_cons_of_mem _ hm')
    exact ⟨t :: ts, by rw [makeTrackers, ht, hts]; rfl⟩

end Statsd.Config
