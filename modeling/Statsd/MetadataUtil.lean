/-
Dimension keys in the metadata that statsd keeps over restarts (metadata_util.{h,cpp}). A string is
written up to its first zero byte; bytes are written the same way, as a `char*`, and are read back as a
string. Bytes without a zero are read past their end by the sources, here only up to it.
-/
import Mathlib.Data.List.TakeWhile
import Statsd.HashableDimensionKey

namespace Statsd

namespace Metadata

/-- The `value` of the `FieldValue` message. -/
inductive ValueCase where
  | VALUE_NOT_SET
  | kValueInt (value_int : Int)
  | kValueLong (value_long : Int)
  | kValueFloat (value_float : BitVec 32)
  | kValueDouble (value_double : BitVec 64)
  | kValueStr (value_str : List UInt8)
  | kValueStorage (value_storage : List UInt8)
deriving DecidableEq

structure FieldValue where
  tag : Int
  field : BitVec 32
  value : ValueCase
deriving DecidableEq

structure MetricDimensionKey where
  dimension_key_in_what : List FieldValue
  state_values_key : List FieldValue
deriving DecidableEq

/-- What a `const char*` to the bytes says. -/
def cString (bytes : List UInt8) : List UInt8 := bytes.takeWhile (· ≠ 0)

def writeValueToProto : Value → ValueCase
  | .INT v => .kValueInt v
  | .LONG v => .kValueLong v
  | .FLOAT v => .kValueFloat v
  | .DOUBLE v => .kValueDouble v
  | .STRING v => .kValueStr (cString v)
  | .STORAGE v => .kValueStorage (cString v)
  | .UNKNOWN => .VALUE_NOT_SET

def writeFieldValues (values : HashableDimensionKey) : List FieldValue :=
  values.map fun v => ⟨v.1.mTag, v.1.mField, writeValueToProto v.2⟩

def writeMetricDimensionKeyToMetadataDimensionKey (metricKey : Statsd.MetricDimensionKey) : MetricDimensionKey :=
  ⟨writeFieldValues metricKey.mDimensionKeyInWhat, writeFieldValues metricKey.mStateValuesKey⟩

/-- A `Value` of what `value_storage()` returns is a string. -/
def loadValue : ValueCase → Value
  | .kValueInt v => .INT v
  | .kValueLong v => .LONG v
  | .kValueFloat v => .FLOAT v
  | .kValueDouble v => .DOUBLE v
  | .kValueStr v | .kValueStorage v => .STRING v
  | .VALUE_NOT_SET => .UNKNOWN

def writeFieldValuesFromMetadata (values : List FieldValue) : HashableDimensionKey :=
  values.map fun v => (⟨v.tag, v.field⟩, loadValue v.value)

def loadMetricDimensionKeyFromProto (metricDimensionKey : MetricDimensionKey) : Statsd.MetricDimensionKey :=
  ⟨writeFieldValuesFromMetadata metricDimensionKey.dimension_key_in_what,
    writeFieldValuesFromMetadata metricDimensionKey.state_values_key⟩

/-- The value is no bytes and no string with a zero in it. -/
def Plain : Value → Prop
  | .STRING v => 0 ∉ v
  | .STORAGE _ => False
  | _ => True

theorem loadValue_write_iff (v : Value) : loadValue (writeValueToProto v) = v ↔ Plain v := by
  cases v with
  | STRING v =>
    simp only [writeValueToProto, loadValue, Value.STRING.injEq, cString, Plain, List.takeWhile_eq_self_iff]
    constructor
    · intro h hmem
      simpa using h 0 hmem
    · intro h b hb
      simpa using fun hz : b = 0 => h (hz ▸ hb)
  | STORAGE v => simp [writeValueToProto, loadValue, Plain]
  | _ => simp [writeValueToProto, loadValue, Plain]

end Metadata

end Statsd
