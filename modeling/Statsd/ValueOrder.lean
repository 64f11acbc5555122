/-
The comparisons and the addition of values (the operators of Value and FieldValue in FieldValue.{h,cpp}).
Floating-point values are compared by what their bits stand for: NaN is different from everything and less than
nothing, and the two zeros are equal. Among values that are not NaN the comparisons are those of a linear order.
-/
import Mathlib.Data.Prod.Lex
import Mathlib.Order.Lex
import Mathlib.Data.List.Lex
import Statsd.FieldValue

namespace Statsd

/-! ## Floating-point numbers as their bits -/

/-- The place of a floating-point number in the order of the numbers: its magnitude with its sign. -/
def floatPlace {w : Nat} (b : BitVec w) : Int :=
  if b.msb then -((b.toNat % 2 ^ (w - 1) : Nat) : Int) else (b.toNat % 2 ^ (w - 1) : Nat)

/-- The magnitude is above that of infinity. -/
def isNaN {w : Nat} (infinity : Nat) (b : BitVec w) : Bool := decide (infinity < b.toNat % 2 ^ (w - 1))

def floatInfinity : Nat := 0x7f800000
def doubleInfinity : Nat := 0x7ff0000000000000

namespace Value

/-- The enumerator of the type. -/
def getType : Value → Nat
  | UNKNOWN => 0
  | INT _ => 1
  | LONG _ => 2
  | FLOAT _ => 3
  | DOUBLE _ => 4
  | STRING _ => 5
  | STORAGE _ => 6

/-- The bytes as numbers, which strings and byte arrays are compared by. -/
def bytesOf (bytes : List UInt8) : List Nat := bytes.map UInt8.toNat

/-- `operator!=`. -/
def ne : Value → Value → Bool
  | INT a, INT b => decide (a ≠ b)
  | LONG a, LONG b => decide (a ≠ b)
  | FLOAT a, FLOAT b => isNaN floatInfinity a || isNaN floatInfinity b || decide (floatPlace a ≠ floatPlace b)
  | DOUBLE a, DOUBLE b => isNaN doubleInfinity a || isNaN doubleInfinity b || decide (floatPlace a ≠ floatPlace b)
  | STRING a, STRING b => decide (bytesOf a ≠ bytesOf b)
  | STORAGE a, STORAGE b => decide (bytesOf a ≠ bytesOf b)
  | a, b => decide (a.getType ≠ b.getType)

/-- `operator<`. -/
def lt : Value → Value → Bool
  | INT a, INT b => decide (a < b)
  | LONG a, LONG b => decide (a < b)
  | FLOAT a, FLOAT b => !isNaN floatInfinity a && !isNaN floatInfinity b && decide (floatPlace a < floatPlace b)
  | DOUBLE a, DOUBLE b => !isNaN doubleInfinity a && !isNaN doubleInfinity b && decide (floatPlace a < floatPlace b)
  | STRING a, STRING b => decide (bytesOf a < bytesOf b)
  | STORAGE a, STORAGE b => decide (bytesOf a < bytesOf b)
  | a, b => decide (a.getType < b.getType)

/-- `operator+=` for the integer types, which wrap; the sum of other types is not looked at. -/
def add : Value → Value → Value
  | INT a, INT b => INT (Int.bmod (a + b) (2 ^ 32))
  | LONG a, LONG b => LONG (Int.bmod (a + b) (2 ^ 64))
  | a, _ => a

/-- The value is a number or no floating-point value at all. -/
def NotNaN : Value → Prop
  | FLOAT a => isNaN floatInfinity a = false
  | DOUBLE a => isNaN doubleInfinity a = false
  | _ => True

instance (v : Value) : Decidable v.NotNaN := by
  cases v <;> unfold NotNaN <;> infer_instance

/-- The order of values: by type, then by number, then by bytes. -/
abbrev Place := ℕ ×ₗ ℤ ×ₗ List ℕ

/-- The place of a value in the order. -/
def place : Value → Place
  | UNKNOWN => toLex (0, toLex (0, []))
  | INT a => toLex (1, toLex (a, []))
  | LONG a => toLex (2, toLex (a, []))
  | FLOAT a => toLex (3, toLex (floatPlace a, []))
  | DOUBLE a => toLex (4, toLex (floatPlace a, []))
  | STRING a => toLex (5, toLex (0, bytesOf a))
  | STORAGE a => toLex (6, toLex (0, bytesOf a))

theorem ne_iff {v w : Value} (hv : v.NotNaN) (hw : w.NotNaN) : v.ne w = true ↔ v.place ≠ w.place := by
  cases v <;> cases w <;> simp_all [ne, place, NotNaN, getType]

theorem lt_iff {v w : Value} (hv : v.NotNaN) (hw : w.NotNaN) : v.lt w = true ↔ v.place < w.place := by
  cases v <;> cases w <;> simp_all [lt, place, NotNaN, getType, Prod.Lex.toLex_lt_toLex]

end Value

/-! ## Fields and their values -/

/-- `Field::operator<`. -/
def Field.lt (f g : Field) : Bool :=
  if f.mTag ≠ g.mTag then decide (f.mTag < g.mTag)
  else if f.mField ≠ g.mField then decide (f.mField.toInt < g.mField.toInt)
  else false

/-- `getPosAtDepth`. -/
def Field.getPosAtDepth (f : Field) (depth : Nat) : Nat := (f.getRawPosAtDepth depth &&& 0x7f#32).toNat

namespace FieldValue

/-- `operator!=`; the annotations are not compared. -/
def ne (v w : FieldValue) : Bool := decide (v.mField ≠ w.mField) || v.mValue.ne w.mValue

/-- `operator<`. -/
def lt (v w : FieldValue) : Bool :=
  if v.mField ≠ w.mField then v.mField.lt w.mField else if v.mValue.ne w.mValue then v.mValue.lt w.mValue else false

/-- The order of fields with their values. -/
abbrev Place := ℤ ×ₗ ℤ ×ₗ Value.Place

instance : DecidableEq Place := inferInstance

/-- The place of a field with its value in the order. -/
def place (v : FieldValue) : Place :=
  toLex (v.mField.mTag, toLex (v.mField.mField.toInt, v.mValue.place))

theorem place_eq_iff (v w : FieldValue) :
    v.place = w.place ↔ v.mField = w.mField ∧ v.mValue.place = w.mValue.place := by
  obtain ⟨⟨t, f⟩, a, an⟩ := v
  obtain ⟨⟨t', f'⟩, a', an'⟩ := w
  simp only [place, EmbeddingLike.apply_eq_iff_eq, Prod.mk.injEq, Field.mk.injEq, BitVec.toInt_inj, and_assoc]

theorem ne_iff {v w : FieldValue} (hv : v.mValue.NotNaN) (hw : w.mValue.NotNaN) : v.ne w = true ↔ v.place ≠ w.place := by
  unfold ne
  rw [Bool.or_eq_true, decide_eq_true_eq, Value.ne_iff hv hw, Ne, Ne, Ne, place_eq_iff, not_and_or]

theorem lt_iff {v w : FieldValue} (hv : v.mValue.NotNaN) (hw : w.mValue.NotNaN) : v.lt w = true ↔ v.place < w.place := by
  unfold lt place
  simp only [Prod.Lex.toLex_lt_toLex]
  by_cases hf : v.mField = w.mField
  · rw [if_neg (not_not.2 hf)]
    simp only [hf, lt_irrefl, true_and, false_or]
    by_cases hn : v.mValue.ne w.mValue = true
    · rw [if_pos hn]
      exact Value.lt_iff hv hw
    · rw [if_neg hn]
      have heq : v.mValue.place = w.mValue.place := by
        by_contra h
        exact hn ((Value.ne_iff hv hw).2 h)
      simp [heq]
  · rw [if_pos hf]
    unfold Field.lt
    by_cases ht : v.mField.mTag = w.mField.mTag
    · have hfield : v.mField.mField ≠ w.mField.mField := fun h => hf (by
        cases hv : v.mField; cases hw : w.mField; simp_all)
      have hint : v.mField.mField.toInt ≠ w.mField.mField.toInt := fun h => hfield (BitVec.toInt_inj.1 h)
      simp [ht, hfield, hint]
    · simp [ht]

end FieldValue

end Statsd
