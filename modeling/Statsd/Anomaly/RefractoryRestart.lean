/-
Refractory periods over a restart (writeAlertMetadataToProto and loadAlertMetadata of
anomaly/AnomalyTracker.cpp). The ends are saved in seconds of the wall clock, as 32-bit integers, and read
back relative to the wall clock and the elapsed time at the load.
-/
import Statsd.MetadataUtil
import Statsd.Anomaly.Refractory

namespace Statsd.Anomaly

/-! ## The metadata of an alert -/

structure AlertDimensionKeyedData where
  last_refractory_ends_sec : Int
  dimension_key : Metadata.MetricDimensionKey
deriving DecidableEq

structure AlertMetadata where
  alert_id : Option Int := none
  alert_dim_keyed_data : List AlertDimensionKeyedData := []
deriving DecidableEq

/-- The conversion of a 64-bit value to `int32_t`. -/
def toInt32 (x : Int) : Int := x.bmod (2 ^ 32)

namespace AnomalyTracker

/-- The body of the loop of `writeAlertMetadataToProto`, where `id` is the id of the alert. -/
def writeKey (id currentWallClockTimeNs systemElapsedTimeNs : Int) (r : Bool × AlertMetadata)
    (it : Sigma fun _ : MetricDimensionKey => Nat) : Bool × AlertMetadata :=
  -- not written if it has already expired
  if (it.2 : Int) < systemElapsedTimeNs.tdiv NS_PER_SEC then r
  else
    let alertMetadata := if r.2.alert_dim_keyed_data.length = 0 then { r.2 with alert_id := some id } else r.2
    let refractoryEndWallClockSec :=
      toInt32 (currentWallClockTimeNs.tdiv NS_PER_SEC + (it.2 - systemElapsedTimeNs.tdiv NS_PER_SEC))
    (true, { alertMetadata with alert_dim_keyed_data := alertMetadata.alert_dim_keyed_data ++
      [⟨refractoryEndWallClockSec, Metadata.writeMetricDimensionKeyToMetadataDimensionKey it.1⟩] })

def writeAlertMetadataToProto (t : AnomalyTracker MetricDimensionKey) (id currentWallClockTimeNs systemElapsedTimeNs : Int)
    (alertMetadata : AlertMetadata) : Bool × AlertMetadata :=
  if t.mRefractoryPeriodEndsSec.entries.isEmpty then (false, alertMetadata)
  else t.mRefractoryPeriodEndsSec.entries.foldl (writeKey id currentWallClockTimeNs systemElapsedTimeNs) (false, alertMetadata)

/-- The body of the loop of `loadAlertMetadata`; the comparison is one of unsigned 64-bit values. -/
def loadKey (currentWallClockTimeNs systemElapsedTimeNs : Int) (t : AnomalyTracker MetricDimensionKey)
    (keyedData : AlertDimensionKeyedData) : AnomalyTracker MetricDimensionKey :=
  if keyedData.last_refractory_ends_sec % 2 ^ 64 < currentWallClockTimeNs.tdiv NS_PER_SEC % 2 ^ 64 then t
  else
    let metricKey := Metadata.loadMetricDimensionKeyFromProto keyedData.dimension_key
    let refractoryPeriodEndsSec := toInt32 (keyedData.last_refractory_ends_sec - currentWallClockTimeNs.tdiv NS_PER_SEC +
      systemElapsedTimeNs.tdiv NS_PER_SEC)
    { t with mRefractoryPeriodEndsSec := t.mRefractoryPeriodEndsSec.insert metricKey (refractoryPeriodEndsSec % 2 ^ 32).toNat }

def loadAlertMetadata (t : AnomalyTracker MetricDimensionKey) (alertMetadata : AlertMetadata)
    (currentWallClockTimeNs systemElapsedTimeNs : Int) : AnomalyTracker MetricDimensionKey :=
  alertMetadata.alert_dim_keyed_data.foldl (loadKey currentWallClockTimeNs systemElapsedTimeNs) t

end AnomalyTracker

/-! ## What a restart should do -/

/-- The tracker saved at wall clock `w` and elapsed time `e`, and loaded into a new one at `(w', e')`. -/
def restarted (t : AnomalyTracker MetricDimensionKey) (id w e w' e' : Int) : AnomalyTracker MetricDimensionKey :=
  (AnomalyTracker.new t.mAlert).loadAlertMetadata (t.writeAlertMetadataToProto id w e {}).2 w' e'

namespace AnomalyTracker

/-- What is saved for a key. -/
def record (w e : Int) (it : Sigma fun _ : MetricDimensionKey => Nat) : AlertDimensionKeyedData :=
  ⟨toInt32 (w.tdiv NS_PER_SEC + (it.2 - e.tdiv NS_PER_SEC)), Metadata.writeMetricDimensionKeyToMetadataDimensionKey it.1⟩

theorem foldl_writeKey (id w e : Int) (l : List (Sigma fun _ : MetricDimensionKey => Nat)) (r : Bool × AlertMetadata) :
    (l.foldl (writeKey id w e) r).2.alert_dim_keyed_data =
      r.2.alert_dim_keyed_data ++ (l.filter fun it => decide (e.tdiv NS_PER_SEC ≤ it.2)).map (record w e) := by
  induction l generalizing r with
  | nil => simp
  | cons it l ih =>
    rw [List.foldl_cons, ih]
    by_cases h : (it.2 : Int) < e.tdiv NS_PER_SEC
    · have hsaved : ¬ decide (e.tdiv NS_PER_SEC ≤ it.2) = true := by simpa using h
      rw [List.filter_cons, if_neg hsaved]
      unfold writeKey
      rw [if_pos h]
    · have hsaved : decide (e.tdiv NS_PER_SEC ≤ it.2) = true := by simpa using h
      rw [List.filter_cons, if_pos hsaved, List.map_cons]
      unfold writeKey
      rw [if_neg h]
      have hdata : (if r.2.alert_dim_keyed_data.length = 0 then { r.2 with alert_id := some id } else r.2).alert_dim_keyed_data =
          r.2.alert_dim_keyed_data := by
        split <;> rfl
      dsimp only
      rw [hdata, List.append_assoc]
      rfl

theorem written (t : AnomalyTracker MetricDimensionKey) (id w e : Int) :
    (t.writeAlertMetadataToProto id w e {}).2.alert_dim_keyed_data =
      (t.mRefractoryPeriodEndsSec.entries.filter fun it => decide (e.tdiv NS_PER_SEC ≤ it.2)).map (record w e) := by
  unfold writeAlertMetadataToProto
  split
  · rename_i hempty
    rw [List.isEmpty_iff.1 hempty]
    rfl
  · rw [foldl_writeKey]
    rfl

variable {t : AnomalyTracker MetricDimensionKey} {key : MetricDimensionKey}

end AnomalyTracker

/-! ## Runs and restarts -/

end Statsd.Anomaly
