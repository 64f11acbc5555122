/-
The anomaly window: after any sequence of `addPastBucket` (both forms) and `detectAnomaly` calls, in
any order of bucket numbers, the running sum of a key is the sum, over the last `N` bucket numbers,
of the values last stored for it, and reading a past bucket returns the stored value.

The window is specified as a function from bucket numbers to stored values that forgets what falls
behind the most recent bucket; the proof relates it to the circular buffer slot by slot (`Repr`) and
moves both forward one bucket at a time.
-/
import Statsd.Anomaly.AnomalyTracker

namespace Statsd.Anomaly

open AnomalyTracker

variable {K : Type} [DecidableEq K]

/-- The value a bucket holds for a key. -/
def bucketValue (b : Option (DimToValMap K)) (k : K) : Int :=
  match b with
  | none => 0
  | some m => UMap.getD m k 0

/-! ## The running sum -/

theorem getD_subtractValueFromSum (sum : DimToValMap K) (key k : K) (v : Int)
    (h : sum.lookup key = none → v = 0) :
    UMap.getD (subtractValueFromSum sum key v) k 0 = UMap.getD sum k 0 - (if k = key then v else 0) := by
  unfold subtractValueFromSum
  cases hl : sum.lookup key with
  | none => simp [h hl]
  | some x =>
    have hx := UMap.getD_of_lookup_some hl 0
    dsimp only
    split
    · rename_i h0
      rw [UMap.getD_erase]
      split
      · rename_i hk; subst hk; omega
      · simp
    · rw [UMap.getD_insert]
      split
      · rename_i hk; subst hk; omega
      · simp

theorem getD_addValueToSum (sum : DimToValMap K) (key k : K) (v : Int) :
    UMap.getD (addValueToSum sum key v) k 0 = UMap.getD sum k 0 + (if k = key then v else 0) := by
  unfold addValueToSum
  rw [UMap.getD_insert]
  split
  · rename_i hk; subst hk; rfl
  · simp

theorem getD_foldl_addValue (l : List (Sigma fun _ : K => Int)) (hl : l.NodupKeys) (sum : DimToValMap K) (k : K) :
    UMap.getD (l.foldl (fun s kv => addValueToSum s kv.1 kv.2) sum) k 0 =
      UMap.getD sum k 0 + (l.dlookup k).getD 0 := by
  induction l generalizing sum with
  | nil => simp
  | cons e l ih =>
    obtain ⟨key, v⟩ := e
    rw [List.nodupKeys_cons] at hl
    rw [List.foldl_cons, ih hl.2, getD_addValueToSum]
    by_cases hk : k = key
    · subst hk
      have : l.dlookup k = none := List.dlookup_eq_none.2 hl.1
      simp [this]
    · rw [List.dlookup_cons_ne _ _ hk]; simp [hk]

theorem getD_foldl_subtractValue (l : List (Sigma fun _ : K => Int)) (hl : l.NodupKeys) (sum : DimToValMap K)
    (hb : ∀ e ∈ l, 0 ≤ e.2 ∧ e.2 ≤ UMap.getD sum e.1 0) (k : K) :
    UMap.getD (l.foldl (fun s kv => subtractValueFromSum s kv.1 kv.2) sum) k 0 =
      UMap.getD sum k 0 - (l.dlookup k).getD 0 := by
  induction l generalizing sum with
  | nil => simp
  | cons e l ih =>
    obtain ⟨key, v⟩ := e
    rw [List.nodupKeys_cons] at hl
    have hv := hb ⟨key, v⟩ (List.mem_cons_self ..)
    -- a missing entry reads 0, and then so does the value to subtract
    have h0 : sum.lookup key = none → v = 0 := by
      intro hn; rw [UMap.getD_of_lookup_none hn] at hv; simp at hv; omega
    have hstep : ∀ e ∈ l, 0 ≤ e.2 ∧ e.2 ≤ UMap.getD (subtractValueFromSum sum key v) e.1 0 := by
      intro e he
      have hne : e.1 ≠ key := by
        intro h
        have hm : e.1 ∈ l.keys := List.mem_map_of_mem he
        exact hl.1 (h ▸ hm)
      rw [getD_subtractValueFromSum sum key e.1 v h0, if_neg hne]
      simpa using hb e (List.mem_cons_of_mem _ he)
    rw [List.foldl_cons, ih hl.2 _ hstep, getD_subtractValueFromSum _ _ _ _ h0]
    by_cases hk : k = key
    · subst hk
      have : l.dlookup k = none := List.dlookup_eq_none.2 hl.1
      simp [this]
    · rw [List.dlookup_cons_ne _ _ hk]; simp [hk]

theorem getD_addBucketToSum (sum : DimToValMap K) (b : Option (DimToValMap K)) (k : K) :
    UMap.getD (addBucketToSum sum b) k 0 = UMap.getD sum k 0 + bucketValue b k := by
  cases b with
  | none => simp [addBucketToSum, bucketValue]
  | some m => exact getD_foldl_addValue m.entries m.nodupKeys sum k

theorem getD_subtractBucketFromSum (sum : DimToValMap K) (b : Option (DimToValMap K))
    (h0 : ∀ k, 0 ≤ bucketValue b k) (hle : ∀ k, bucketValue b k ≤ UMap.getD sum k 0) (k : K) :
    UMap.getD (subtractBucketFromSum sum b) k 0 = UMap.getD sum k 0 - bucketValue b k := by
  cases b with
  | none => simp [subtractBucketFromSum, bucketValue]
  | some m =>
    refine getD_foldl_subtractValue m.entries m.nodupKeys sum (fun e he => ?_) k
    have hl : m.lookup e.1 = some e.2 := AList.mem_lookup_iff.2 he
    have hv : bucketValue (some m) e.1 = e.2 := UMap.getD_of_lookup_some hl 0
    exact ⟨hv ▸ h0 e.1, hv ▸ hle e.1⟩

/-! ## The window -/

/-- What the tracker is for: the most recent bucket number and the value last stored for each bucket
and key, 0 where nothing is stored or the window has moved past the bucket. -/
structure Window (K : Type) where
  mostRecent : Int
  stored : Int → K → Int

namespace Window

def empty : Window K := ⟨-1, fun _ _ => 0⟩

/-- Moves the window of `N` buckets forward to end at `b`, forgetting what falls behind it. -/
def moveTo (N : Int) (w : Window K) (b : Int) : Window K :=
  if b ≤ w.mostRecent then w else ⟨b, fun c k => if c ≤ b - N then 0 else w.stored c k⟩

/-- Replaces the values of bucket `b`, unless it is already behind the window. -/
def store (N : Int) (w : Window K) (b : Int) (f : (K → Int) → K → Int) : Window K :=
  if b ≤ w.mostRecent - N then w
  else { w.moveTo N b with stored := Function.update (w.moveTo N b).stored b (f ((w.moveTo N b).stored b)) }

end Window

/-- The calls that change the window. -/
inductive Call (K : Type) where
  | addPastBucket (bucket : Option (DimToValMap K)) (bucketNum : Int)
  | addPastBucketValue (key : K) (bucketValue bucketNum : Int)
  | detectAnomaly (currentBucketNum : Int) (key : K) (currentBucketValue : Int)

namespace Call

/-- Bucket numbers and the values stored are not negative. -/
def Nonneg : Call K → Prop
  | addPastBucket bucket n => 0 ≤ n ∧ ∀ k, 0 ≤ Anomaly.bucketValue bucket k
  | addPastBucketValue _ v n => 0 ≤ n ∧ 0 ≤ v
  | detectAnomaly n _ _ => 0 ≤ n

/-- The call on the tracker. -/
def run (t : AnomalyTracker K) : Call K → AnomalyTracker K
  | addPastBucket bucket n => t.addPastBucket bucket n
  | addPastBucketValue key v n => t.addPastBucketValue key v n
  | detectAnomaly n key v => (t.detectAnomaly n key v).2

/-- The call on the window. -/
def spec (N : Int) (w : Window K) : Call K → Window K
  | addPastBucket bucket n => w.store N n fun _ => Anomaly.bucketValue bucket
  | addPastBucketValue key v n => w.store N n fun f => Function.update f key v
  | detectAnomaly n _ _ => if n > w.mostRecent + 1 then w.moveTo N (n - 1) else w

end Call

/-! ## Slots of the circular buffer -/

theorem slot_ne {N b c : Int} (hlo : c - N < b) (hhi : b < c) : b % N ≠ c % N := by
  intro h
  have hd : N ∣ c - b := (show b ≡ c [ZMOD N] from h).dvd
  have := Int.le_of_dvd (by omega) hd
  omega

/-- The slots of a tracker hold the buckets of the window of `N` ending at `m`, and the sum is the
sum of the slots. -/
structure Repr (N : Nat) (t : AnomalyTracker K) (m : Int) (stored : Int → K → Int) : Prop where
  pos : 0 < N
  num : t.mNumOfPastBuckets = N
  len : t.mPastBuckets.length = N
  lo : -1 ≤ m
  slots : ∀ b, m - N < b → b ≤ m → ∀ k, bucketValue (t.slot (b % N).toNat) k = stored b k
  sum : ∀ k, UMap.getD t.mSumOverPastBuckets k 0 = ∑ i ∈ Finset.range N, bucketValue (t.slot i) k
  nonneg : ∀ i k, 0 ≤ bucketValue (t.slot i) k
  out : ∀ b k, b < 0 ∨ b ≤ m - N ∨ m < b → stored b k = 0

variable {t : AnomalyTracker K} {N : Nat} {stored : Int → K → Int} {w : Window K} {m : Int}

theorem emod_lt (hN : 0 < N) (b : Int) : (b % N).toNat < N := by
  have := Int.emod_nonneg b (by omega : (N : Int) ≠ 0)
  have := Int.emod_lt_of_pos b (by omega : (0 : Int) < N)
  omega

theorem emod_toNat_ne (hN : 0 < N) {b c : Int} (h : b % N ≠ c % N) : (b % N).toNat ≠ (c % N).toNat := by
  have := Int.emod_nonneg b (by omega : (N : Int) ≠ 0)
  have := Int.emod_nonneg c (by omega : (N : Int) ≠ 0)
  omega

variable {b : Int}

theorem Repr.index (h : Repr N t m stored) (hb : 0 ≤ b) : t.index b = (b % N).toNat := by
  unfold AnomalyTracker.index
  rw [h.num, Int.tmod_eq_emod_of_nonneg hb]

theorem Repr.slot_le (h : Repr N t m stored)
    {i : Nat} (hi : i < N) (k : K) : bucketValue (t.slot i) k ≤ UMap.getD t.mSumOverPastBuckets k 0 := by
  rw [h.sum k]
  exact Finset.single_le_sum (f := fun i => bucketValue (t.slot i) k) (fun i _ => h.nonneg i k)
    (Finset.mem_range.2 hi)

omit [DecidableEq K] in
theorem slot_set {t t' : AnomalyTracker K} {i : Nat} {x : Option (DimToValMap K)} (hi : i < t.mPastBuckets.length)
    (h : t'.mPastBuckets = t.mPastBuckets.set i x) (j : Nat) : t'.slot j = if j = i then x else t.slot j := by
  unfold slot
  rw [h, List.getElem?_set]
  by_cases hj : i = j
  · subst hj; simp [hi]
  · simp [hj, Ne.symm hj]

theorem sum_range_replace {N i : Nat} (hi : i < N) (f : Nat → Int) (a : Int) :
    ∑ j ∈ Finset.range N, (if j = i then a else f j) = ∑ j ∈ Finset.range N, f j - f i + a := by
  have hm : i ∈ Finset.range N := Finset.mem_range.2 hi
  rw [← Finset.add_sum_erase _ _ hm, ← Finset.add_sum_erase _ f hm]
  have : ∑ x ∈ (Finset.range N).erase i, (if x = i then a else f x) = ∑ x ∈ (Finset.range N).erase i, f x :=
    Finset.sum_congr rfl fun x hx => if_neg (Finset.ne_of_mem_erase hx)
  rw [this]; simp; ring

theorem Repr.replace {t t' : AnomalyTracker K} (h : Repr N t m stored) (hlo : m - N < b) (hhi : b ≤ m) (hb : 0 ≤ b) {x : Option (DimToValMap K)}
    (hx : ∀ k, 0 ≤ bucketValue x k) (hn : t'.mNumOfPastBuckets = t.mNumOfPastBuckets)
    (hs : t'.mPastBuckets = t.mPastBuckets.set (b % N).toNat x)
    (hsum : ∀ k, UMap.getD t'.mSumOverPastBuckets k 0 =
      UMap.getD t.mSumOverPastBuckets k 0 - bucketValue (t.slot (b % N).toNat) k + bucketValue x k) :
    Repr N t' m (Function.update stored b (bucketValue x)) := by
  have hi : (b % N).toNat < N := emod_lt h.pos b
  have hslot : ∀ j, t'.slot j = _ := slot_set (h.len ▸ hi) hs
  refine ⟨h.pos, hn.trans h.num, by rw [hs, List.length_set, h.len], h.lo, ?_, ?_, ?_, ?_⟩
  · intro c hc1 hc2 k
    rw [hslot]
    by_cases hcb : c = b
    · subst hcb; simp
    · have hne : c % N ≠ b % N := by
        rcases lt_or_gt_of_ne hcb with hlt | hgt
        · exact slot_ne (by omega) hlt
        · exact (slot_ne (by omega) hgt).symm
      rw [if_neg (emod_toNat_ne h.pos hne), h.slots c hc1 hc2 k, Function.update_of_ne hcb]
  · intro k
    rw [hsum k, h.sum k]
    have : ∀ j, bucketValue (t'.slot j) k =
        if j = (b % N).toNat then bucketValue x k else bucketValue (t.slot j) k := by
      intro j; rw [hslot]; split <;> rfl
    rw [Finset.sum_congr rfl fun j _ => this j, sum_range_replace hi]
  · intro j k
    rw [hslot]; split
    · exact hx k
    · exact h.nonneg j k
  · intro c k hc
    rw [Function.update_of_ne (by omega)]
    exact h.out c k hc

theorem Repr.clearBucket (h : Repr N t m stored) :
    Repr N (t.clearBucket (m + 1)) (m + 1) (fun c k => if c ≤ m + 1 - N then 0 else stored c k) := by
  have hlo := h.lo
  have hidx : t.index (m + 1) = ((m + 1) % N).toNat := h.index (by omega)
  have hi : ((m + 1) % N).toNat < N := emod_lt h.pos (m + 1)
  have hs : (t.clearBucket (m + 1)).mPastBuckets = t.mPastBuckets.set ((m + 1) % N).toNat none := by
    unfold AnomalyTracker.clearBucket; rw [hidx]
  have hslot := slot_set (h.len ▸ hi) hs
  refine ⟨h.pos, h.num, by rw [hs, List.length_set, h.len], by omega, ?_, ?_, ?_, ?_⟩
  · intro c hc1 hc2 k
    have hin : ¬ c ≤ m + 1 - N := by omega
    simp only [hin, if_false]
    rw [hslot]
    by_cases hcb : c = m + 1
    · subst hcb; simp [bucketValue, h.out (m + 1) k (by omega)]
    · rw [if_neg (emod_toNat_ne h.pos (slot_ne (by omega) (by omega))), h.slots c (by omega) (by omega) k]
  · intro k
    have hsub : UMap.getD (t.clearBucket (m + 1)).mSumOverPastBuckets k 0 =
        UMap.getD t.mSumOverPastBuckets k 0 - bucketValue (t.slot ((m + 1) % N).toNat) k := by
      unfold AnomalyTracker.clearBucket; rw [hidx]
      exact getD_subtractBucketFromSum _ _ (h.nonneg _) (h.slot_le hi) k
    have hv : ∀ j, bucketValue ((t.clearBucket (m + 1)).slot j) k =
        if j = ((m + 1) % N).toNat then 0 else bucketValue (t.slot j) k := by
      intro j; rw [hslot]; split <;> rfl
    rw [hsub, h.sum k, Finset.sum_congr rfl fun j _ => hv j, sum_range_replace hi]
    simp
  · intro j k
    rw [hslot]; split
    · exact le_refl _
    · exact h.nonneg j k
  · intro c k hc
    split
    · rfl
    · exact h.out c k (by omega)

theorem Repr.clearLoop (h : Repr N t m stored) (n : Nat) :
    Repr N ((List.range n).foldl (fun u (j : Nat) => u.clearBucket (m + 1 + j)) t) (m + n)
      (fun c k => if c ≤ m + n - N then 0 else stored c k) := by
  induction n with
  | zero =>
    have : (fun c k => if c ≤ m + (0 : Nat) - N then 0 else stored c k) = stored := by
      funext c k
      split
      · exact (h.out c k (by omega)).symm
      · rfl
    rw [this]; simpa using h
  | succ n ih =>
    rw [List.range_succ, List.foldl_append]
    simp only [List.foldl_cons, List.foldl_nil]
    rw [show m + 1 + (n : Int) = m + n + 1 by omega, show m + ((n + 1 : Nat) : Int) = m + n + 1 by omega]
    have hstep := ih.clearBucket
    have : (fun c k => if c ≤ m + n + 1 - N then 0 else if c ≤ m + n - N then 0 else stored c k) =
        fun c k => if c ≤ m + n + 1 - N then 0 else stored c k := by
      funext c k
      split_ifs <;> first | rfl | omega
    rwa [this] at hstep

/-! ## The calls -/

/-- The tracker holds the window `w`. -/
structure Tracks (N : Nat) (t : AnomalyTracker K) (w : Window K) : Prop where
  repr : Repr N t w.mostRecent w.stored
  recent : t.mMostRecentBucketNum = w.mostRecent

theorem tracks_new (alert : Alert) (h : 2 ≤ alert.num_buckets) :
    Tracks (alert.num_buckets - 1).toNat (new alert : AnomalyTracker K) Window.empty := by
  have hslot : ∀ i, (new alert : AnomalyTracker K).slot i = none := by
    intro i
    simp only [slot, new, resetStorage, List.getElem?_replicate]
    split <;> rfl
  refine ⟨⟨by omega, ?_, ?_, ?_, ?_, ?_, ?_, ?_⟩, rfl⟩
  · simp only [new, resetStorage]; omega
  · simp [new, resetStorage]
  · simp [Window.empty]
  · intro b _ _ k; rw [hslot]; rfl
  · intro k
    simp only [hslot]
    simp [new, resetStorage, bucketValue]
  · intro i k; rw [hslot]; exact le_refl _
  · intro b k _; rfl

theorem Repr.reset (h : Repr N t m stored) (hb : m + N ≤ b) :
    Repr N { t.resetStorage with mMostRecentBucketNum := b } b (fun c k => if c ≤ b - N then 0 else stored c k) := by
  have hlo := h.lo
  have hpos := h.pos
  have hslot : ∀ i, slot { t.resetStorage with mMostRecentBucketNum := b } i = none := by
    intro i
    simp only [slot, resetStorage, List.getElem?_replicate]
    split <;> rfl
  have hout : ∀ c k, (if c ≤ b - N then 0 else stored c k) = 0 := by
    intro c k
    split
    · rfl
    · exact h.out c k (by omega)
  refine ⟨hpos, h.num, ?_, by omega, ?_, ?_, ?_, ?_⟩
  · simp [resetStorage, h.num]
  · intro c _ _ k; rw [hslot, hout]; rfl
  · intro k
    simp only [hslot]
    simp [resetStorage, bucketValue]
  · intro i k; rw [hslot]; exact le_refl _
  · intro c k _; exact hout c k

theorem Repr.withRecent (h : Repr N t m stored) (b : Int) : Repr N { t with mMostRecentBucketNum := b } m stored :=
  ⟨h.pos, h.num, h.len, h.lo, h.slots, h.sum, h.nonneg, h.out⟩

theorem Tracks.advance (h : Tracks N t w) (b : Int) :
    Tracks N (t.advanceMostRecentBucketTo b) (w.moveTo N b) := by
  have hpos := h.repr.pos
  unfold advanceMostRecentBucketTo Window.moveTo
  rw [h.repr.num, h.recent, if_neg (by omega)]
  by_cases hle : b ≤ w.mostRecent
  · rw [if_pos hle, if_pos hle]; exact h
  rw [if_neg hle, if_neg hle]
  split
  · rename_i hfar
    exact ⟨h.repr.reset hfar, rfl⟩
  · -- the loop empties the slots of the buckets after the most recent one, up to `b`
    have hloop := h.repr.clearLoop (b - w.mostRecent).toNat
    rw [show w.mostRecent + ((b - w.mostRecent).toNat : Int) = b by omega] at hloop
    exact ⟨hloop.withRecent b, rfl⟩

theorem stored_of_gt (h : Tracks N t w) (hb : w.mostRecent < b) (k : K) : (w.moveTo N b).stored b k = 0 := by
  unfold Window.moveTo
  rw [if_neg (by omega)]
  dsimp only
  split
  · rfl
  · exact h.repr.out b k (by omega)

theorem Tracks.addPastBucket (h : Tracks N t w)
    (bucket : Option (DimToValMap K)) (hb : 0 ≤ b) (hv : ∀ k, 0 ≤ bucketValue bucket k) :
    Tracks N (t.addPastBucket bucket b) (w.store N b fun _ => bucketValue bucket) := by
  have hpos := h.repr.pos
  have hnum := h.repr.num
  have hrecent := h.recent
  unfold AnomalyTracker.addPastBucket Window.store
  by_cases hold : b ≤ w.mostRecent - N
  · rw [if_pos (by omega), if_pos hold]; exact h
  rw [if_neg (by omega), if_neg hold]
  by_cases hle : b ≤ t.mMostRecentBucketNum
  · have hmove : w.moveTo N b = w := if_pos (hrecent ▸ hle)
    have hi := emod_lt hpos b
    simp only [hle, if_true, hmove]
    refine ⟨h.repr.replace (by omega) (by omega) hb hv rfl ?_ ?_, h.recent⟩
    · exact congrArg (t.mPastBuckets.set · bucket) (h.repr.index hb)
    · intro k
      rw [getD_addBucketToSum, h.repr.index hb,
        getD_subtractBucketFromSum _ _ (h.repr.nonneg _) (h.repr.slot_le hi)]
  · have hadv := h.advance b
    have hrec : (w.moveTo N b).mostRecent = b := by unfold Window.moveTo; rw [if_neg (by omega)]
    simp only [hle, if_false]
    refine ⟨hadv.repr.replace (by omega) (by omega) hb hv rfl ?_ ?_, hadv.recent⟩
    · exact congrArg ((t.advanceMostRecentBucketTo b).mPastBuckets.set · bucket) (hadv.repr.index hb)
    · intro k
      rw [getD_addBucketToSum, hadv.repr.slots b (by omega) (by omega) k, stored_of_gt h (by omega) k]
      simp

theorem bucketValue_insert (bucket : DimToValMap K) (key : K) (v : Int) :
    bucketValue (some (bucket.insert key v)) = Function.update (bucketValue (some bucket)) key v := by
  funext k
  unfold bucketValue
  dsimp only
  rw [UMap.getD_insert, Function.update_apply]

theorem bucketValue_singleton (key : K) (v : Int) :
    bucketValue (some (AList.singleton key v)) = Function.update (fun _ => 0) key v := by
  have := bucketValue_insert (∅ : DimToValMap K) key v
  rw [AList.insert_empty] at this
  rw [this]; rfl

theorem update_nonneg {f : K → Int} (hf : ∀ k, 0 ≤ f k) (key : K) {v : Int} (hv : 0 ≤ v) (k : K) :
    0 ≤ Function.update f key v k := by
  rw [Function.update_apply]; split
  · exact hv
  · exact hf k

theorem Tracks.addPastBucketValue (h : Tracks N t w)
    (key : K) {v b : Int} (hb : 0 ≤ b) (hv : 0 ≤ v) :
    Tracks N (t.addPastBucketValue key v b) (w.store N b fun f => Function.update f key v) := by
  have hpos := h.repr.pos
  have hnum := h.repr.num
  have hrecent := h.recent
  -- where the bucket holds nothing yet, a fresh bucket with one entry is stored
  have hfresh (h0 : (w.moveTo N b).stored b = fun _ => 0) :
      Tracks N (t.addPastBucket (some (AList.singleton key v)) b)
        (w.store N b fun f => Function.update f key v) := by
    have := h.addPastBucket (some (AList.singleton key v)) hb
      (by rw [bucketValue_singleton]; exact update_nonneg (fun _ => le_refl _) key hv)
    rw [bucketValue_singleton] at this
    unfold Window.store at this ⊢
    rwa [h0]
  unfold AnomalyTracker.addPastBucketValue
  by_cases hold : b ≤ w.mostRecent - N
  · unfold Window.store
    rw [if_pos (by omega), if_pos hold]; exact h
  rw [if_neg (by omega)]
  by_cases hle : b ≤ t.mMostRecentBucketNum
  · have hmove : w.moveTo N b = w := if_pos (hrecent ▸ hle)
    have hi := emod_lt hpos b
    have hstored := h.repr.slots b (by omega) (by omega)
    rw [h.repr.index hb]
    cases hs : t.slot (b % N).toNat with
    | none =>
      simp only [hle, decide_true]
      refine hfresh ?_
      funext k
      rw [hmove, ← hstored k, hs]; rfl
    | some bucket =>
      have hbk : w.stored b = bucketValue (some bucket) := by
        funext k; rw [← hstored k, hs]
      simp only [hle, decide_true, Window.store, hold, if_false, hmove, hbk, ← bucketValue_insert]
      refine ⟨h.repr.replace (by omega) (by omega) hb ?_ rfl rfl ?_, h.recent⟩
      · rw [bucketValue_insert]
        exact update_nonneg (fun k => by have := h.repr.nonneg (b % N).toNat k; rwa [hs] at this) key hv
      · intro k
        have hle := h.repr.slot_le hi key
        have h0 := h.repr.nonneg (b % N).toNat key
        rw [hs] at hle h0 ⊢
        rw [getD_addValueToSum, bucketValue_insert, Function.update_apply]
        unfold bucketValue at hle h0 ⊢
        dsimp only at hle h0 ⊢
        cases hl : bucket.lookup key with
        | none =>
          dsimp only
          split
          · rename_i hk; subst hk; rw [UMap.getD_of_lookup_none hl]; omega
          · omega
        | some old =>
          rw [UMap.getD_of_lookup_some hl] at hle h0
          dsimp only
          rw [getD_subtractValueFromSum]
          · split
            · rename_i hk; subst hk; rw [UMap.getD_of_lookup_some hl]
            · omega
          · intro hn; rw [UMap.getD_of_lookup_none hn] at hle; omega
  · simp only [hle, decide_false]
    exact hfresh (funext fun k => stored_of_gt h (by omega) k)

theorem Tracks.detectAnomaly (h : Tracks N t w) (n : Int) (key : K)
    (v : Int) :
    Tracks N (t.detectAnomaly n key v).2 (if n > w.mostRecent + 1 then w.moveTo N (n - 1) else w) := by
  unfold AnomalyTracker.detectAnomaly
  dsimp only
  rw [h.recent]
  split
  · exact h.advance (n - 1)
  · exact h

theorem Tracks.run (h : Tracks N t w) :
    ∀ c : Call K, c.Nonneg → Tracks N (c.run t) (c.spec N w)
  | .addPastBucket bucket _, hc => h.addPastBucket bucket hc.1 hc.2
  | .addPastBucketValue key _ _, hc => h.addPastBucketValue key hc.1 hc.2
  | .detectAnomaly n key v, _ => h.detectAnomaly n key v

theorem Tracks.runs {t : AnomalyTracker K} {w : Window K} (h : Tracks N t w) :
    ∀ calls : List (Call K), (∀ c ∈ calls, c.Nonneg) →
      Tracks N (calls.foldl Call.run t) (calls.foldl (Call.spec N) w)
  | [], _ => h
  | c :: calls, hc =>
    (h.run c (hc c (List.mem_cons_self ..))).runs calls fun d hd => hc d (List.mem_cons_of_mem _ hd)

/-! ## What the tracker answers -/

theorem sum_slots (hN : 0 < N) (m : Int) (f : Nat → Int) :
    ∑ b ∈ Finset.Ioc (m - N) m, f (b % N).toNat = ∑ i ∈ Finset.range N, f i := by
  refine Finset.sum_nbij (fun b => (b % (N : Int)).toNat) ?_ ?_ ?_ fun _ _ => rfl
  · intro b _; exact Finset.mem_coe.2 (Finset.mem_range.2 (emod_lt hN b))
  · intro b hb c hc hbc
    simp only [Finset.coe_Ioc, Set.mem_Ioc] at hb hc
    by_contra hne
    have hmod : b % N ≠ c % N := by
      rcases lt_or_gt_of_ne hne with hlt | hgt
      · exact slot_ne (by omega) hlt
      · exact (slot_ne (by omega) hgt).symm
    exact emod_toNat_ne hN hmod hbc
  · -- an injection between sets of the same size is onto
    intro i hi
    have hi := Finset.mem_range.1 (Finset.mem_coe.1 hi)
    have h1 := Int.emod_nonneg (m - i) (by omega : (N : Int) ≠ 0)
    have h2 := Int.emod_lt_of_pos (m - i) (by omega : (0 : Int) < N)
    refine ⟨m - (m - i) % N, ?_, ?_⟩
    · simp only [Finset.coe_Ioc, Set.mem_Ioc]; omega
    · have : (m - (m - i) % N) % N = i % (N : Int) := by
        rw [Int.sub_emod, Int.emod_emod_of_dvd _ (dvd_refl _), ← Int.sub_emod]; congr 1; ring
      dsimp only
      rw [this, Int.emod_eq_of_lt (by omega) (by omega)]; simp

theorem Tracks.sum_eq (h : Tracks N t w) (k : K) :
    t.getSumOverPastBuckets k = ∑ b ∈ Finset.Ioc (w.mostRecent - N) w.mostRecent, w.stored b k := by
  unfold getSumOverPastBuckets
  rw [h.repr.sum k, ← sum_slots h.repr.pos w.mostRecent fun i => bucketValue (t.slot i) k]
  refine Finset.sum_congr rfl fun b hb => ?_
  rw [Finset.mem_Ioc] at hb
  exact h.repr.slots b hb.1 hb.2 k

theorem Tracks.getPastBucketValue (h : Tracks N t w) (k : K) (b : Int) :
    t.getPastBucketValue k b = w.stored b k := by
  have hnum := h.repr.num
  have hrecent := h.recent
  unfold AnomalyTracker.getPastBucketValue
  split
  · rename_i hout
    exact (h.repr.out b k (by omega)).symm
  · rename_i hin
    rw [h.repr.index (by omega), ← h.repr.slots b (by omega) (by omega) k]
    rfl

omit [DecidableEq K] in
theorem Window.mostRecent_le_moveTo (N : Int) (w : Window K) (b : Int) :
    w.mostRecent ≤ (w.moveTo N b).mostRecent := by
  unfold moveTo
  split
  · exact le_refl _
  · dsimp only; omega

theorem Call.mostRecent_le_spec (N : Int) (w : Window K) : ∀ c : Call K, w.mostRecent ≤ (c.spec N w).mostRecent
  | .addPastBucket _ n | .addPastBucketValue _ _ n => by
    simp only [spec, Window.store]
    split
    · exact le_refl _
    · exact Window.mostRecent_le_moveTo N w n
  | .detectAnomaly n _ _ => by
    simp only [spec]
    split
    · exact Window.mostRecent_le_moveTo N w (n - 1)
    · exact le_refl _

/-- After any sequence of calls the sum of a key is the sum over the window of the values stored for
it, reading a past bucket returns the stored value inside the window and 0 outside it, and no
further call moves the window backwards. -/
theorem sum_eq_window (alert : Alert) (calls : List (Call K)) (hN : 2 ≤ alert.num_buckets)
    (hcalls : ∀ c ∈ calls, c.Nonneg) :
    let N := alert.num_buckets - 1
    let t : AnomalyTracker K := calls.foldl Call.run (new alert)
    let w : Window K := calls.foldl (Call.spec N) Window.empty
    t.mMostRecentBucketNum = w.mostRecent ∧
    (∀ k, UMap.getD t.mSumOverPastBuckets k 0 =
      ∑ b ∈ Finset.Ioc (t.mMostRecentBucketNum - N) t.mMostRecentBucketNum, w.stored b k) ∧
    (∀ k b, t.getPastBucketValue k b =
      if t.mMostRecentBucketNum - N < b ∧ b ≤ t.mMostRecentBucketNum then w.stored b k else 0) ∧
    ∀ c : Call K, c.Nonneg → t.mMostRecentBucketNum ≤ (c.run t).mMostRecentBucketNum := by
  have hcast : ((alert.num_buckets - 1).toNat : Int) = alert.num_buckets - 1 := by omega
  have h := (tracks_new (K := K) alert hN).runs calls hcalls
  rw [hcast] at h
  intro N t w
  have hrecent : t.mMostRecentBucketNum = w.mostRecent := h.recent
  refine ⟨hrecent, ?_, ?_, ?_⟩
  · intro k
    have := h.sum_eq k
    rwa [hcast, ← hrecent] at this
  · intro k b
    rw [show t.getPastBucketValue k b = w.stored b k from h.getPastBucketValue k b]
    split
    · rfl
    · rename_i hout
      refine h.repr.out b k ?_
      change b < 0 ∨ b ≤ w.mostRecent - _ ∨ w.mostRecent < b
      omega
  · intro c hc
    have hnext := (h.run c hc).recent
    rw [show (c.run t).mMostRecentBucketNum = _ from hnext, hcast, hrecent]
    exact Call.mostRecent_le_spec N w c

/-- Two past buckets: a late bucket, an overwrite, and a check that moves the window by one. -/
theorem sum_eq_window_run :
    let calls : List (Call Bool) := [.addPastBucketValue true 5 1, .addPastBucket (some (AList.singleton true 3)) 0,
      .addPastBucketValue true 7 1, .detectAnomaly 3 true 0]
    let t : AnomalyTracker Bool := calls.foldl Call.run (new ⟨3, none, none⟩)
    t.mMostRecentBucketNum = 2 ∧ UMap.getD t.mSumOverPastBuckets true 0 = 7 ∧
      t.getPastBucketValue true 1 = 7 ∧ t.getPastBucketValue true 0 = 0 := by
  intro calls t
  have hcalls : ∀ c ∈ calls, c.Nonneg := by
    intro c hc
    simp only [calls, List.mem_cons, List.not_mem_nil, or_false] at hc
    rcases hc with rfl | rfl | rfl | rfl
    · exact ⟨by decide, by decide⟩
    · exact ⟨by decide, by intro k; cases k <;> decide⟩
    · exact ⟨by decide, by decide⟩
    · exact (by decide : (0 : Int) ≤ 3)
  have h := sum_eq_window ⟨3, none, none⟩ calls (by decide) hcalls
  have hrecent : t.mMostRecentBucketNum = 2 := h.1
  refine ⟨hrecent, ?_, ?_, ?_⟩
  · rw [show UMap.getD t.mSumOverPastBuckets true 0 = _ from h.2.1 true]; decide
  · rw [show t.getPastBucketValue true 1 = _ from h.2.2.1 true 1]; decide
  · rw [show t.getPastBucketValue true 0 = _ from h.2.2.1 true 0]; decide

end Statsd.Anomaly
