/-
Which dimension keys are the same after a restart, by the comparison of keys (HashableDimensionKey.cpp). A key with a
NaN is different from every key, itself included.
-/
import Statsd.MetadataUtil
import Statsd.ValueOrder

namespace Statsd

/-- `HashableDimensionKey::operator==`. -/
def HashableDimensionKey.eq (this that : HashableDimensionKey) : Bool :=
  decide (this.length = that.length) &&
    (this.zip that).all fun it => !(decide (it.1.1 ≠ it.2.1) || it.1.2.ne it.2.2)

/-- `MetricDimensionKey::operator==`. -/
def MetricDimensionKey.eq (this that : MetricDimensionKey) : Bool :=
  this.mDimensionKeyInWhat.eq that.mDimensionKeyInWhat && this.mStateValuesKey.eq that.mStateValuesKey

namespace Value

/-- The value is equal to itself after a restart: it is no byte array, no string with a zero in it and no NaN. -/
def Restorable (v : Value) : Prop := Metadata.Plain v ∧ v.NotNaN

theorem ne_self_iff (v : Value) : v.ne v = false ↔ v.NotNaN := by
  cases v <;> simp [ne, NotNaN, getType]

theorem bytesOf_injective : Function.Injective bytesOf := List.map_injective_iff.2 fun _ _ h => UInt8.toNat.inj h

theorem load_write_ne_iff (v : Value) : (Metadata.loadValue (Metadata.writeValueToProto v)).ne v = false ↔ v.Restorable := by
  rw [Restorable, ← Metadata.loadValue_write_iff]
  constructor
  · intro h
    have hsame : Metadata.loadValue (Metadata.writeValueToProto v) = v := by
      cases v with
      | STRING s =>
        have hbytes : bytesOf (Metadata.cString s) = bytesOf s := not_not.1 (of_decide_eq_false h)
        exact congrArg STRING (bytesOf_injective hbytes)
      | STORAGE s => cases h
      | UNKNOWN => rfl
      | INT _ => rfl
      | LONG _ => rfl
      | FLOAT _ => rfl
      | DOUBLE _ => rfl
    rw [hsame] at h
    exact ⟨hsame, (ne_self_iff v).1 h⟩
  · rintro ⟨hsame, hnan⟩
    rw [hsame]
    exact (ne_self_iff v).2 hnan

end Value

namespace Metadata

theorem eq_of_restored_iff (values : HashableDimensionKey) :
    (writeFieldValuesFromMetadata (writeFieldValues values)).eq values = true ↔ ∀ v ∈ values, v.2.Restorable := by
  have hcons : ∀ (v : Field × Value) (values : HashableDimensionKey),
      (writeFieldValuesFromMetadata (writeFieldValues (v :: values))).eq (v :: values) = true ↔
        v.2.Restorable ∧ (writeFieldValuesFromMetadata (writeFieldValues values)).eq values = true := by
    intro v values
    rw [← Value.load_write_ne_iff]
    simp [HashableDimensionKey.eq, writeFieldValues, writeFieldValuesFromMetadata]
  induction values with
  | nil => simp [HashableDimensionKey.eq, writeFieldValues, writeFieldValuesFromMetadata]
  | cons v values ih =>
    rw [hcons, List.forall_mem_cons]
    exact and_congr_right fun _ => ih

/-- A saved key is restored unchanged exactly when it has no byte array, no string with a zero byte and no NaN. -/
theorem saved_key_restored_iff (key : Statsd.MetricDimensionKey) :
    (loadMetricDimensionKeyFromProto (writeMetricDimensionKeyToMetadataDimensionKey key)).eq key = true ↔
      (∀ v ∈ key.mDimensionKeyInWhat, v.2.Restorable) ∧ ∀ v ∈ key.mStateValuesKey, v.2.Restorable := by
  simp only [Statsd.MetricDimensionKey.eq, loadMetricDimensionKeyFromProto, writeMetricDimensionKeyToMetadataDimensionKey,
    Bool.and_eq_true, eq_of_restored_iff]

/-- A key with a byte array comes back with a string. -/
theorem byte_array_key_changed :
    ¬ ∀ key : Statsd.MetricDimensionKey,
      (loadMetricDimensionKeyFromProto (writeMetricDimensionKeyToMetadataDimensionKey key)).eq key = true := by
  intro h
  have := h ⟨[(Field.ofPos 10 (fun _ => 1) 0, .STORAGE [1, 0])], []⟩
  revert this
  decide

end Metadata

end Statsd
