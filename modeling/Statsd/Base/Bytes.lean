/-
Bytes in memory: little-endian numbers, and blocks of bytes read from and written to an address.
-/
import Mathlib.Tactic

namespace Statsd

/-! ## Little-endian numbers -/

/-- The `k` low bytes of a number, lowest first. -/
def leBytes : Nat → Nat → List UInt8
  | 0, _ => []
  | k + 1, n => UInt8.ofNat n :: leBytes k (n / 256)

def ofLeBytes : List UInt8 → Nat
  | [] => 0
  | b :: bs => b.toNat + 256 * ofLeBytes bs

@[simp]
theorem length_leBytes (k n : Nat) : (leBytes k n).length = k := by
  induction k generalizing n with
  | zero => rfl
  | succ k ih => simp [leBytes, ih]

theorem ofLeBytes_leBytes (k n : Nat) : ofLeBytes (leBytes k n) = n % 256 ^ k := by
  induction k generalizing n with
  | zero => simp [leBytes, ofLeBytes, Nat.mod_one]
  | succ k ih =>
    have hbyte : (UInt8.ofNat n).toNat = n % 256 := UInt8.toNat_ofNat'
    rw [leBytes, ofLeBytes, ih, hbyte, pow_succ', Nat.mod_mul]

theorem ofLeBytes_leBytes_of_lt {k n : Nat} (h : n < 256 ^ k) : ofLeBytes (leBytes k n) = n := by
  rw [ofLeBytes_leBytes, Nat.mod_eq_of_lt h]

/-! ## Memory -/

abbrev Memory := Nat → UInt8

namespace Memory

/-- The `k` bytes at an address. -/
def read (m : Memory) : Nat → Nat → List UInt8
  | _, 0 => []
  | a, k + 1 => m a :: read m (a + 1) k

/-- The memory with `bs` copied to an address. -/
def write (m : Memory) (a : Nat) (bs : List UInt8) : Memory := fun i => if i < a then m i else (bs[i - a]?).getD (m i)

@[simp]
theorem length_read (m : Memory) (a k : Nat) : (m.read a k).length = k := by
  induction k generalizing a with
  | zero => rfl
  | succ k ih => simp [read, ih]

theorem read_add (m : Memory) (a j k : Nat) : m.read a (j + k) = m.read a j ++ m.read (a + j) k := by
  induction j generalizing a with
  | zero => simp [read]
  | succ j ih =>
    rw [Nat.succ_add, read, read, ih, List.cons_append, Nat.add_assoc a 1 j, Nat.add_comm 1 j]

theorem read_congr {m m' : Memory} {a k : Nat} (h : ∀ i, a ≤ i → i < a + k → m i = m' i) : m.read a k = m'.read a k := by
  induction k generalizing a with
  | zero => rfl
  | succ k ih =>
    rw [read, read, h a (le_refl a) (by omega), ih fun i h1 h2 => h i (by omega) (by omega)]

variable {m : Memory}

theorem write_before {a i : Nat} (bs : List UInt8) (h : i < a) : m.write a bs i = m i := if_pos h

theorem write_after {a i : Nat} {bs : List UInt8} (h : a + bs.length ≤ i) : m.write a bs i = m i := by
  unfold write
  rw [if_neg (by omega), List.getElem?_eq_none (by omega), Option.getD_none]

theorem read_write_before {a b k : Nat} (bs : List UInt8) (h : b + k ≤ a) : (m.write a bs).read b k = m.read b k :=
  read_congr fun i _ hi => write_before bs (by omega)

theorem read_write (m : Memory) (a : Nat) (bs : List UInt8) : (m.write a bs).read a bs.length = bs := by
  induction bs generalizing m a with
  | nil => rfl
  | cons b bs ih =>
    rw [List.length_cons, read]
    have hhead : m.write a (b :: bs) a = b := by simp [write]
    have htail : (m.write a (b :: bs)).read (a + 1) bs.length = (m.write (a + 1) bs).read (a + 1) bs.length := by
      refine read_congr fun i h1 h2 => ?_
      unfold write
      rw [if_neg (by omega), if_neg (by omega), show i - a = i - (a + 1) + 1 by omega, List.getElem?_cons_succ]
    rw [hhead, htail, ih]

theorem read_write_after {a b k : Nat} {bs : List UInt8} (h : a + bs.length ≤ b) :
    (m.write a bs).read b k = m.read b k :=
  read_congr fun i hi _ => write_after (by omega)

theorem read_split {n : Nat} {pre rest : List UInt8} {b : UInt8} (h : m.read 0 n = pre ++ b :: rest) :
    m pre.length = b ∧ ∀ c, (m.write pre.length [c]).read 0 n = pre ++ c :: rest := by
  have hn : n = pre.length + (1 + rest.length) := by
    have hlen := congrArg List.length h
    simp only [length_read, List.length_append, List.length_cons] at hlen
    omega
  rw [hn, read_add, read_add, Nat.zero_add] at h
  obtain ⟨hpre, hrest⟩ := List.append_inj h (length_read _ _ _)
  obtain ⟨hb, hrest⟩ : m pre.length = b ∧ m.read (pre.length + 1) rest.length = rest := List.cons_eq_cons.1 hrest
  refine ⟨hb, fun c => ?_⟩
  rw [hn, read_add, read_add, Nat.zero_add, read_write_before [c] (by omega), hpre]
  congr 1
  have hc : (m.write pre.length [c]).read pre.length 1 = [c] := read_write m pre.length [c]
  have hafter : (m.write pre.length [c]).read (pre.length + 1) rest.length = rest := by
    rw [read_write_after (show pre.length + [c].length ≤ pre.length + 1 from le_refl _), hrest]
  rw [hc, hafter]
  rfl

end Memory

end Statsd
