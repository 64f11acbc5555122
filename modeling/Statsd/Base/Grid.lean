/-
A grid of intervals of one positive size. Interval `num` of the grid from `base` is
`[base + num * size, base + (num + 1) * size)`; from the end of an interval, a later time is a number
of steps ahead, rounded down.
-/
import Mathlib.Tactic

namespace Statsd.Grid

/-- The time lies in the interval of the number. -/
structure InCell (base size num t : Int) : Prop where
  lower : base + num * size ≤ t
  upper : t < base + (num + 1) * size

/-- The number of the interval of a time. -/
def cellOf (base size t : Int) : Int := (t - base) / size

theorem inCell_iff {base size num t : Int} (hsize : 0 < size) : InCell base size num t ↔ cellOf base size t = num := by
  unfold cellOf
  have hlower : num ≤ (t - base) / size ↔ base + num * size ≤ t := by
    rw [Int.le_ediv_iff_mul_le hsize]
    omega
  have hupper : (t - base) / size < num + 1 ↔ t < base + (num + 1) * size := by
    rw [Int.ediv_lt_iff_lt_mul hsize]
    omega
  constructor
  · rintro ⟨h1, h2⟩
    have := hlower.2 h1
    have := hupper.2 h2
    omega
  · intro h
    exact ⟨hlower.1 (by omega), hupper.1 (by omega)⟩

/-- How many intervals ahead of the one that ends at `stop` a later time lies. -/
def stepsAfter (size stop t : Int) : Int := 1 + (t - stop).tdiv size

theorem stepsAfter_bounds {size : Int} (hsize : 0 < size) {stop t : Int} (h : stop ≤ t) :
    0 < stepsAfter size stop t ∧ stop + (stepsAfter size stop t - 1) * size ≤ t ∧
      t < stop + stepsAfter size stop t * size := by
  unfold stepsAfter
  have hd : 0 ≤ t - stop := by omega
  rw [Int.tdiv_eq_ediv_of_nonneg hd]
  have h0 := Int.ediv_nonneg hd (le_of_lt hsize)
  have h1 := Int.ediv_mul_le (t - stop) (ne_of_gt hsize)
  have h2 := Int.lt_ediv_add_one_mul_self (t - stop) hsize
  generalize (t - stop) / size = q at h0 h1 h2
  refine ⟨by omega, ?_, ?_⟩
  · have : (1 + q - 1) * size = q * size := by ring
    omega
  · have : (1 + q) * size = (q + 1) * size := by ring
    omega

theorem inCell_stepsAfter {base size num : Int} (hsize : 0 < size) {t : Int} (h : base + (num + 1) * size ≤ t) :
    InCell base size (num + stepsAfter size (base + (num + 1) * size) t) t ∧
      InCell base size (num + stepsAfter size (base + (num + 1) * size) t)
        (base + (num + 1) * size + (stepsAfter size (base + (num + 1) * size) t - 1) * size) := by
  obtain ⟨-, h1, h2⟩ := stepsAfter_bounds hsize h
  generalize stepsAfter size (base + (num + 1) * size) t = n at h1 h2
  have hlow : base + (num + n) * size = base + (num + 1) * size + (n - 1) * size := by ring
  have hup : base + (num + n + 1) * size = base + (num + 1) * size + n * size := by ring
  have hnext : base + (num + 1) * size + (n - 1) * size + size = base + (num + 1) * size + n * size := by ring
  refine ⟨⟨by omega, by omega⟩, ⟨by omega, by omega⟩⟩

end Statsd.Grid
