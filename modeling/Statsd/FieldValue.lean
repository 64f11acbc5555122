/-
Fields, matchers and values (FieldValue.{h,cpp}). A field is the atom id and the path of a leaf,
encoded in 32 bits: the depth in the first byte, then the position at each of three levels, with the
top bit of a position marking the last item of its level. A matcher is a field and a mask.

Floating-point values are carried as their bit patterns; values are compared for equality only.
-/
import Mathlib.Data.List.Basic
import Mathlib.Tactic

namespace Statsd

def kMaxLogDepth : Nat := 2

/-! ## Fields -/

/-- `getEncodedField(pos, depth, includeDepth)`. -/
def getEncodedField (pos : Nat → BitVec 32) (depth : Nat) (includeDepth : Bool) : BitVec 32 :=
  let field := (List.range (depth + 1)).foldl
    (fun field i => field ||| (pos i <<< (8 * (kMaxLogDepth - i)))) (0#32)
  if includeDepth then field ||| (BitVec.ofNat 32 depth <<< 24) else field

def encodeMatcherMask (mask : Nat → BitVec 32) (depth : Nat) : BitVec 32 :=
  getEncodedField mask depth false ||| 0xff000000#32

structure Field where
  mTag : Int
  mField : BitVec 32
deriving DecidableEq

namespace Field

/-- `Field(tag, pos, depth)`. -/
def ofPos (tag : Int) (pos : Nat → BitVec 32) (depth : Nat) : Field := ⟨tag, getEncodedField pos depth true⟩

def decorateLastPos (f : Field) (depth : Nat) : Field :=
  { f with mField := f.mField ||| (0x80#32 <<< (8 * (kMaxLogDepth - depth))) }

def getDepth (f : Field) : Int := (f.mField.sshiftRight 24).toInt

def getRawPosAtDepth (f : Field) (depth : Nat) : BitVec 32 :=
  let shift := 8 * (kMaxLogDepth - depth)
  ((f.mField &&& 0x00ffffff#32) &&& (0xff#32 <<< shift)) >>> shift

end Field

/-- A leaf of a field matcher: the masked field to compare with. -/
structure Matcher where
  mMatcher : Field
  mMask : BitVec 32
deriving DecidableEq

namespace Matcher

def getRawMaskAtDepth (m : Matcher) (depth : Nat) : BitVec 32 :=
  let shift := 8 * (kMaxLogDepth - depth)
  ((m.mMask &&& 0x00ffffff#32) &&& (0xff#32 <<< shift)) >>> shift

def hasAllPositionMatcher (m : Matcher) : Bool :=
  decide (m.mMatcher.getDepth = 2) && decide (m.getRawMaskAtDepth 1 = 0x7f#32)

end Matcher

def Field.matches (f : Field) (matcher : Matcher) : Bool :=
  if f.mTag ≠ matcher.mMatcher.mTag then false
  else if f.mField &&& matcher.mMask = matcher.mMatcher.mField then true
  else matcher.hasAllPositionMatcher &&
    decide (f.mField &&& (matcher.mMask &&& 0xffff00ff#32) = matcher.mMatcher.mField)

/-- `dimension_a == dimension_b`, matcher by matcher. -/
def equalDimensions (dimension_a dimension_b : List Matcher) : Bool := decide (dimension_a = dimension_b)

def subsetDimensions (dimension_a dimension_b : List Matcher) : Bool :=
  decide (dimension_a.length ≤ dimension_b.length) && dimension_a.all (dimension_b.contains ·)

/-! ## Field matchers of the config -/

inductive Position where
  | POSITION_UNKNOWN | FIRST | LAST | ANY | ALL
deriving DecidableEq

/-- The `FieldMatcher` message. -/
inductive FieldMatcher where
  | mk (field : Int) (position : Option Position) (child : List FieldMatcher)

namespace FieldMatcher

def field : FieldMatcher → Int
  | mk field _ _ => field

def position : FieldMatcher → Option Position
  | mk _ position _ => position

def child : FieldMatcher → List FieldMatcher
  | mk _ _ child => child

mutual

def HasPositionANY : FieldMatcher → Bool
  | mk _ position child => decide (position = some .ANY) || HasPositionANYAny child

def HasPositionANYAny : List FieldMatcher → Bool
  | [] => false
  | m :: ms => HasPositionANY m || HasPositionANYAny ms

end

/-- The position and mask a matcher's `position` puts at the next level. -/
def positionCode : Position → BitVec 32 × BitVec 32
  | .ALL => (0x00#32, 0x7f#32)
  | .ANY => (0#32, 0#32)
  | .FIRST => (1#32, 0x7f#32)
  | .LAST => (0x80#32, 0x80#32)
  | .POSITION_UNKNOWN => (0#32, 0#32)

/-- The positions and masks set on the way to a matcher; an array of three is written in place, so
what deeper matchers wrote stays for the ones after them. -/
structure PathCode where
  pos : Nat → BitVec 32
  mask : Nat → BitVec 32

def PathCode.set (p : PathCode) (depth : Nat) (c : BitVec 32 × BitVec 32) : PathCode :=
  ⟨Function.update p.pos depth c.1, Function.update p.mask depth c.2⟩

/-- The matcher a leaf emits. -/
def PathCode.leaf (p : PathCode) (tag : Int) (depth : Nat) : Matcher :=
  ⟨Field.ofPos tag p.pos depth, encodeMatcherMask p.mask depth⟩

mutual

/-- `translateFieldMatcher(tag, matcher, depth, pos, mask, output)`. -/
def translate (tag : Int) : FieldMatcher → Nat → PathCode → List Matcher → PathCode × List Matcher
  | mk field position child, depth, p, output =>
    if depth > kMaxLogDepth then (p, output)
    else
      let p := p.set depth (BitVec.ofInt 32 field, 0x7f#32)
      match position with
      | some position =>
        if depth + 1 > 2 then (p, output)
        else
          let p := p.set (depth + 1) (positionCode position)
          if child.isEmpty then (p, output ++ [p.leaf tag (depth + 1)])
          else translateAll tag child (depth + 2) p output
      | none =>
        if child.isEmpty then (p, output ++ [p.leaf tag depth]) else translateAll tag child (depth + 1) p output

/-- The children of a matcher, in order. -/
def translateAll (tag : Int) : List FieldMatcher → Nat → PathCode → List Matcher → PathCode × List Matcher
  | [], _, p, output => (p, output)
  | m :: ms, depth, p, output =>
    let (p, output) := translate tag m depth p output
    translateAll tag ms depth p output

end

/-- `translateFieldMatcher(matcher, output)`. -/
def translateFieldMatcher (matcher : FieldMatcher) : List Matcher :=
  (translateAll matcher.field matcher.child 0 ⟨fun _ => 1#32, fun _ => 0x7f#32⟩ []).2

end FieldMatcher

/-! ## Values -/

/-- `Value`: a tagged union. -/
inductive Value where
  | UNKNOWN
  | INT (int_value : Int)
  | LONG (long_value : Int)
  | FLOAT (float_value : BitVec 32)
  | DOUBLE (double_value : BitVec 64)
  | STRING (str_value : List UInt8)
  | STORAGE (storage_value : List UInt8)
deriving DecidableEq

/-- The annotations of a value; `nested` is on by default. -/
structure Annotations where
  nested : Bool := true
  primaryField : Bool := false
  exclusiveState : Bool := false
  uidField : Bool := false
deriving DecidableEq

structure FieldValue where
  mField : Field
  mValue : Value
  mAnnotations : Annotations := {}
deriving DecidableEq

end Statsd
