/-
The values of a gauge metric for its anomaly trackers. While a bucket is open the trackers are called for an atom with
exactly one field; when it is closed the first field of the first atom of each key is taken, however many fields the atom
has. The two agree, and the read is defined, exactly when the first atom of each key has one field in every closed bucket.

Every call of a producer is made of flushes, of atoms that are added, and of changes to the rest of the producer.
-/
import Statsd.Metrics.GaugeMetricProducer

namespace Statsd.Metrics

/-! ## Values of a closed bucket -/

/-- What the flush path hands over. -/
def FirstField.handed : FirstField → Option Int
  | .value v => some v
  | _ => none

/-- The first atom of each key has exactly one field. -/
def FirstAtomsSingle (bucket : DimToGaugeAtomsMap) : Prop :=
  ∀ key atoms, bucket.lookup key = some atoms → ∀ atom ∈ atoms.head?, atom.mFields.length = 1

/-- The trackers were called on the value for the key. -/
def Detected (calls : List CountAnomalyCall) (key : MetricDimensionKey) (v : Int) : Prop :=
  ∃ timestampNs bucketNum, .detectAndDeclareAnomaly timestampNs bucketNum key v ∈ calls

/-- The trackers got no value for a key in a past bucket on which they were not called for it. -/
def HandedDetected (calls : List CountAnomalyCall) : Prop :=
  ∀ values bucketNum, .addPastBucket values bucketNum ∈ calls → ∀ key v, values.lookup key = some v → Detected calls key v

/-- The atoms of a bucket carry the values on which the trackers were called for them. -/
def Recorded (calls : List CountAnomalyCall) (bucket : DimToGaugeAtomsMap) : Prop :=
  ∀ key atoms, bucket.lookup key = some atoms → ∀ atom ∈ atoms,
    atom.detectedOn = onlyValue atom.mFields ∧ ∀ v, atom.detectedOn = some v → Detected calls key v

variable {calls : List CountAnomalyCall}

theorem Detected.append {key : MetricDimensionKey} {v : Int} (h : Detected calls key v)
    (l : List CountAnomalyCall) : Detected (calls ++ l) key v := by
  obtain ⟨timestampNs, bucketNum, hcall⟩ := h
  exact ⟨timestampNs, bucketNum, List.mem_append_left l hcall⟩

theorem Recorded.append {bucket : DimToGaugeAtomsMap} (h : Recorded calls bucket)
    (l : List CountAnomalyCall) : Recorded (calls ++ l) bucket := fun key atoms hkey atom hatom =>
  ⟨(h key atoms hkey atom hatom).1, fun v hv => ((h key atoms hkey atom hatom).2 v hv).append l⟩

theorem recorded_empty (calls : List CountAnomalyCall) : Recorded calls ∅ := by
  intro key atoms hkey
  rw [AList.lookup_empty] at hkey
  cases hkey

theorem firstField_iff (atom : GaugeAtom) (atoms : List GaugeAtom) (hatom : atom.detectedOn = onlyValue atom.mFields) :
    (firstField (atom :: atoms) ≠ .undefined ∧ (firstField (atom :: atoms)).handed = atom.detectedOn) ↔ atom.mFields.length = 1 := by
  obtain ⟨mFields, mElapsedTimestampNs, detectedOn⟩ := atom
  dsimp only at hatom ⊢
  rw [hatom]
  match mFields with
  | [] => simp [firstField]
  | [field] => simp [firstField, FirstField.handed, onlyValue]
  | field :: field' :: fields => simp [firstField, FirstField.handed, onlyValue]

namespace GaugeMetricProducer

/-! ## The moves of a producer -/

/-- The parts of a producer that decide the values. -/
structure SameValues (p p' : GaugeMetricProducer) : Prop where
  metric : p'.toGaugeMetric = p.toGaugeMetric
  sliced : p'.mCurrentSlicedBucket = p.mCurrentSlicedBucket
  forAnomaly : p'.mCurrentSlicedBucketForAnomaly = p.mCurrentSlicedBucketForAnomaly
  calls : p'.anomalyCalls = p.anomalyCalls
  updated : p'.updatedFrom = p.updatedFrom

/-- A call leaves the values alone, flushes the bucket or adds an atom, some times over. -/
inductive Moves : GaugeMetricProducer → GaugeMetricProducer → Prop where
  | same {p p' : GaugeMetricProducer} (h : SameValues p p') : Moves p p'
  | flush (p : GaugeMetricProducer) (t next : Int) : Moves p (p.flushCurrentBucketLocked t next)
  | add (p : GaugeMetricProducer) (event : MatchedEvent) (tagId : Int) (shouldTruncateTimestamp : Bool) :
    Moves p (p.addGaugeAtom event tagId shouldTruncateTimestamp)
  | trans {p p' p'' : GaugeMetricProducer} (h : Moves p p') (h' : Moves p' p'') : Moves p p''

variable (p : GaugeMetricProducer)

theorem Moves.refl : Moves p p := .same ⟨rfl, rfl, rfl, rfl, rfl⟩

theorem moves_flushIfNeeded (t : Int) : Moves p (p.flushIfNeededLocked t) := by
  unfold flushIfNeededLocked
  dsimp only
  split
  · exact .refl p
  · have hnum : ∀ (q : GaugeMetricProducer) (n : Int), Moves q { q with mCurrentBucketNum := n } := fun q n =>
      .same ⟨rfl, rfl, rfl, rfl, rfl⟩
    exact .trans (.flush p t _) (hnum _ _)

theorem moves_flush (t : Int) : Moves p (p.flushLocked t) :=
  .trans (p.moves_flushIfNeeded t) (.flush _ t t)

mutual

theorem moves_matched : ∀ (event : GaugeEvent) (t : Int) (p : GaugeMetricProducer), Moves p (onMatchedLogEventLocked event t p)
  | .mk event tagId shouldTruncateTimestamp pullSuccess elapsedRealtimeNs allData, t, p => by
    rw [onMatchedLogEventLocked]
    split
    · exact .refl p
    · split
      · exact .refl p
      · split
        · exact .refl p
        · split
          · exact .refl p
          · dsimp only
            refine .trans (p.moves_flushIfNeeded t) ?_
            split
            · split
              · exact .refl _
              · split
                · exact .refl _
                · exact moves_matchedAll allData t _
            · exact .add _ _ tagId shouldTruncateTimestamp

theorem moves_matchedAll : ∀ (allData : List GaugeEvent) (t : Int) (p : GaugeMetricProducer),
    Moves p (onMatchedLogEventsLocked allData t p)
  | [], t, p => by
    rw [onMatchedLogEventsLocked]
    exact .refl p
  | data :: allData, t, p => by
    rw [onMatchedLogEventsLocked]
    exact .trans (moves_matched data t p) (moves_matchedAll allData t _)

end

theorem moves_pull (pull : GaugePull) (t : Int) : Moves p (p.pullAndMatchEventsLocked pull t) := by
  unfold pullAndMatchEventsLocked
  split
  · exact .refl p
  · split
    · exact .refl p
    · exact moves_matchedAll pull.allData t p

theorem moves_dataPulled (pull : GaugePull) (t : Int) : Moves p (p.onDataPulled pull t) := by
  have hall : ∀ (allData : List GaugeEvent) (p : GaugeMetricProducer),
      Moves p (allData.foldl (fun p data => onMatchedLogEventLocked data data.elapsedTimestampNs p) p) := by
    intro allData
    induction allData with
    | nil => exact .refl
    | cons data allData ih => exact fun p => .trans (moves_matched data _ p) (ih _)
  unfold onDataPulled
  split
  · exact .refl p
  · split
    · exact .refl p
    · exact hall pull.allData p

theorem moves_pullForBucket (pull : GaugePull) (t : Int) : Moves p (p.pullForBucket pull t) := by
  unfold pullForBucket
  split
  · exact p.moves_pull pull t
  · exact .refl p

theorem moves_conditionChanged (conditionMet : Bool) (t : Int) (pull : GaugePull) :
    Moves p (p.onConditionChangedLocked conditionMet t pull) := by
  have hset : Moves p { p with mCondition := .ofBool conditionMet } := .same ⟨rfl, rfl, rfl, rfl, rfl⟩
  unfold onConditionChangedLocked
  dsimp only
  split
  · exact hset
  · refine hset.trans (.trans (moves_flushIfNeeded _ t) ?_)
    split
    · exact moves_pull _ pull t
    · exact .refl _

theorem moves_activeStateChanged (t : Int) (pull : GaugePull) :
    Moves p (p.onActiveStateChangedLocked t pull) := by
  have hflush : Moves p (if !p.activation.mIsActive then p.flushLocked t else p) := by
    split
    · exact p.moves_flush t
    · exact .refl p
  unfold onActiveStateChangedLocked
  dsimp only
  generalize (if !p.activation.mIsActive then p.flushLocked t else p) = q at hflush ⊢
  refine hflush.trans ?_
  split
  · exact .refl _
  · split
    · exact moves_pull _ pull t
    · exact .refl _

theorem moves_activation (activation : MetricProducer) : Moves p { p with activation } :=
  .same ⟨rfl, rfl, rfl, rfl, rfl⟩

theorem moves_call (t : Int) (c : Call) : Moves p (p.call t c) := by
  cases c with
  | matchedLogEvent event => exact moves_matched event t p
  | conditionChanged conditionMet pull => exact p.moves_conditionChanged conditionMet t pull
  | flushIfExpire pull =>
    simp only [call, flushIfExpire]
    split
    · exact .refl p
    · split
      · exact .trans (p.moves_activation _) (moves_activeStateChanged _ t pull)
      · exact p.moves_activation _
  | activate activationTrackerIndex pull =>
    simp only [call, activateLocked]
    split
    · exact .trans (p.moves_activation _) (moves_activeStateChanged _ t pull)
    · exact p.moves_activation _
  | cancelEventActivation deactivationTrackerIndex => exact p.moves_activation _
  | loadActiveMetric activeMetric => exact p.moves_activation _
  | appUpgrade pull =>
    simp only [call, notifyAppUpgrade]
    split
    · exact .refl p
    · exact .trans (p.moves_flush t) (moves_pullForBucket _ pull t)
  | statsdInitCompleted pull => exact .trans (p.moves_flush t) (moves_pullForBucket _ pull t)
  | dataPulled pull =>
    simp only [call]
    split
    · exact p.moves_dataPulled pull t
    · exact .refl p
  | prepareFirstBucket pull =>
    simp only [call, prepareFirstBucketLocked]
    split
    · exact p.moves_pullForBucket pull _
    · exact .refl p
  | dumpReport include_current_partial_bucket erase_data =>
    have hflush : Moves p (if include_current_partial_bucket then p.flushLocked t else p.flushIfNeededLocked t) := by
      split
      · exact p.moves_flush t
      · exact p.moves_flushIfNeeded t
    simp only [call, onDumpReportLocked]
    generalize (if include_current_partial_bucket then p.flushLocked t else p.flushIfNeededLocked t) = q at hflush ⊢
    refine hflush.trans ?_
    split
    · exact .same ⟨rfl, rfl, rfl, rfl, rfl⟩
    · exact .refl _
  | dropData => exact .trans (p.moves_flushIfNeeded t) (.same ⟨rfl, rfl, rfl, rfl, rfl⟩)
  | clearPastBuckets => exact .trans (p.moves_flushIfNeeded t) (.same ⟨rfl, rfl, rfl, rfl, rfl⟩)

/-! ## What the moves keep -/

/-- The atoms of the current bucket and of the closed ones carry the values on which the trackers were called for them. While
all closed buckets have single first atoms, so do the values kept for the trackers and those that they got. -/
structure ValuesKept (p : GaugeMetricProducer) : Prop where
  alerts : 0 < p.mAnomalyTrackers
  current : Recorded p.anomalyCalls p.mCurrentSlicedBucket
  closed : ∀ bucket ∈ p.updatedFrom, Recorded p.anomalyCalls bucket
  handed : (∀ bucket ∈ p.updatedFrom, FirstAtomsSingle bucket) → HandedDetected p.anomalyCalls ∧
    ∀ key v, p.mCurrentSlicedBucketForAnomaly.lookup key = some v → Detected p.anomalyCalls key v

theorem ValuesKept.same {p p' : GaugeMetricProducer} (h : p.ValuesKept) (hsame : SameValues p p') : p'.ValuesKept := by
  obtain ⟨hmetric, hsliced, hforAnomaly, hcalls, hupdated⟩ := hsame
  refine ⟨?_, ?_, ?_, ?_⟩
  · rw [hmetric]
    exact h.alerts
  · rw [hcalls, hsliced]
    exact h.current
  · rw [hcalls, hupdated]
    exact h.closed
  · rw [hcalls, hupdated, hforAnomaly]
    exact h.handed

variable {p : GaugeMetricProducer}

theorem ValuesKept.add (h : p.ValuesKept) (event : MatchedEvent) (tagId : Int)
    (shouldTruncateTimestamp : Bool) : (p.addGaugeAtom event tagId shouldTruncateTimestamp).ValuesKept := by
  have hatoms : ∀ key atom, atom ∈ UMap.getD p.mCurrentSlicedBucket key [] →
      atom.detectedOn = onlyValue atom.mFields ∧ ∀ v, atom.detectedOn = some v → Detected p.anomalyCalls key v := by
    intro key atom hatom
    cases hkey : p.mCurrentSlicedBucket.lookup key with
    | none =>
      rw [UMap.getD_of_lookup_none hkey] at hatom
      cases hatom
    | some atoms =>
      rw [UMap.getD_of_lookup_some hkey] at hatom
      exact h.current key atoms hkey atom hatom
  have hlive : ∀ mFields, p.liveValue mFields = onlyValue mFields := fun mFields => if_pos h.alerts
  unfold addGaugeAtom
  dsimp only
  split
  · exact h
  · split
    · exact h
    · split
      · refine ⟨h.alerts, fun key atoms hkey atom hatom => ?_, h.closed, h.handed⟩
        rw [UMap.lookup_insert'] at hkey
        split at hkey
        · rename_i heq
          cases hkey
          rw [heq]
          exact hatoms _ atom hatom
        · exact h.current key atoms hkey atom hatom
      · refine ⟨h.alerts, fun key atoms hkey atom hatom => ?_, fun bucket hbucket => (h.closed bucket hbucket).append _,
          fun hsingle => ?_⟩
        · rw [UMap.lookup_insert'] at hkey
          split at hkey
          · rename_i heq
            cases hkey
            rcases List.mem_append.1 hatom with hatom | hatom
            · obtain ⟨honly, hdetected⟩ := hatoms _ atom hatom
              rw [heq]
              exact ⟨honly, fun v hv => (hdetected v hv).append _⟩
            · rw [List.mem_singleton] at hatom
              subst hatom
              refine ⟨hlive _, fun v hv => ⟨event.elapsedTimestampNs, p.mCurrentBucketNum, List.mem_append_right _ ?_⟩⟩
              dsimp only at hv
              rw [hv, heq]
              exact List.mem_singleton_self _
          · exact h.current.append _ key atoms hkey atom hatom
        · obtain ⟨hhanded, hkept⟩ := h.handed hsingle
          refine ⟨fun values bucketNum hcall key v hv => ?_, fun key v hv => (hkept key v hv).append _⟩
          rcases List.mem_append.1 hcall with hcall | hcall
          · exact (hhanded values bucketNum hcall key v hv).append _
          · obtain ⟨_, -, hne⟩ := List.mem_map.1 hcall
            cases hne

theorem forAnomaly_update {key : MetricDimensionKey} {v : Int}
    (h : p.updateCurrentSlicedBucketForAnomaly.mCurrentSlicedBucketForAnomaly.lookup key = some v) :
    p.mCurrentSlicedBucketForAnomaly.lookup key = some v ∨
      ∃ atoms, p.mCurrentSlicedBucket.lookup key = some atoms ∧ firstField atoms = .value v := by
  -- what one slice writes, and from it what the loop writes
  have hfold : ∀ (f : UMap MetricDimensionKey Int → Sigma (fun _ : MetricDimensionKey => List GaugeAtom) → UMap MetricDimensionKey Int)
      (hf : ∀ values slice, f values slice = values ∨
        ∃ w, firstField slice.2 = .value w ∧ f values slice = values.insert slice.1 w)
      (l : List (Sigma fun _ : MetricDimensionKey => List GaugeAtom)) (values : UMap MetricDimensionKey Int),
      (l.foldl f values).lookup key = some v →
      values.lookup key = some v ∨ ∃ slice ∈ l, slice.1 = key ∧ firstField slice.2 = .value v := by
    intro f hf l
    induction l with
    | nil => exact fun values h => .inl h
    | cons slice l ih =>
      intro values h
      rcases ih _ h with h | ⟨slice', hmem, hslice⟩
      · rcases hf values slice with hkept | ⟨w, hfirst, hset⟩
        · exact .inl (hkept ▸ h)
        · rw [hset, UMap.lookup_insert'] at h
          split at h
          · rename_i heq
            cases h
            exact .inr ⟨slice, List.mem_cons_self, heq.symm, hfirst⟩
          · exact .inl h
      · exact .inr ⟨slice', List.mem_cons_of_mem _ hmem, hslice⟩
  have hslice : ∀ slice : Sigma fun _ : MetricDimensionKey => List GaugeAtom,
      firstField slice.2 = .noAtom ∨ firstField slice.2 = .undefined ∨ ∃ w, firstField slice.2 = .value w := by
    intro slice
    cases firstField slice.2 <;> simp
  rcases hfold _ (fun values slice => by
    rcases hslice slice with hfirst | hfirst | ⟨w, hfirst⟩
    · exact .inl (by rw [hfirst])
    · exact .inl (by rw [hfirst])
    · exact .inr ⟨w, hfirst, by rw [hfirst]⟩) _ _ h with h | ⟨slice, hmem, rfl, hfirst⟩
  · exact .inl h
  · exact .inr ⟨slice.2, AList.mem_lookup_iff.2 hmem, hfirst⟩

theorem detected_of_single {calls : List CountAnomalyCall} {bucket : DimToGaugeAtomsMap} (h : Recorded calls bucket)
    (hsingle : FirstAtomsSingle bucket) {key : MetricDimensionKey} {atoms : List GaugeAtom} (hkey : bucket.lookup key = some atoms)
    {v : Int} (hfirst : firstField atoms = .value v) : Detected calls key v := by
  cases atoms with
  | nil => cases hfirst
  | cons atom atoms =>
    obtain ⟨honly, hdetected⟩ := h key _ hkey atom List.mem_cons_self
    have hread := (firstField_iff atom atoms honly).2 (hsingle key _ hkey atom rfl)
    rw [hfirst] at hread
    exact hdetected v hread.2.symm

theorem ValuesKept.update (h : p.ValuesKept) : p.updateCurrentSlicedBucketForAnomaly.ValuesKept := by
  refine ⟨h.alerts, h.current, fun bucket hbucket => ?_, fun hsingle => ?_⟩
  · rcases List.mem_append.1 hbucket with hbucket | hbucket
    · exact h.closed bucket hbucket
    · rw [List.mem_singleton.1 hbucket]
      exact h.current
  · obtain ⟨hhanded, hkept⟩ := h.handed fun bucket hbucket => hsingle bucket (List.mem_append_left _ hbucket)
    refine ⟨hhanded, fun key v hv => ?_⟩
    rcases p.forAnomaly_update hv with hv | ⟨atoms, hkey, hfirst⟩
    · exact hkept key v hv
    · exact detected_of_single h.current (hsingle _ (List.mem_append_right _ (List.mem_singleton_self _))) hkey hfirst

theorem ValuesKept.flush (h : p.ValuesKept) (t next : Int) :
    (p.flushCurrentBucketLocked t next).ValuesKept := by
  have hopen : ∀ q : GaugeMetricProducer, q.ValuesKept →
      ValuesKept { q with mCurrentSlicedBucket := ∅, mCurrentBucketStartTimeNs := next } := fun q hq =>
    ⟨hq.alerts, recorded_empty _, hq.closed, hq.handed⟩
  have hclose : ∀ stop, (p.closeBucket t stop).ValuesKept := by
    intro stop
    unfold closeBucket
    split
    · exact h.same ⟨rfl, rfl, rfl, rfl, rfl⟩
    · exact h.same ⟨rfl, rfl, rfl, rfl, rfl⟩
  have hfeed : ∀ (q : GaugeMetricProducer) (stop : Int), q.ValuesKept → (q.feedAnomalyTrackers t stop).ValuesKept := by
    intro q stop hq
    have hupdate := hq.update
    unfold feedAnomalyTrackers
    dsimp only
    split
    · split
      · generalize q.updateCurrentSlicedBucketForAnomaly = r at hupdate ⊢
        refine ⟨hupdate.alerts, hupdate.current.append _, fun bucket hbucket => (hupdate.closed bucket hbucket).append _,
          fun hsingle => ?_⟩
        obtain ⟨hhanded, hkept⟩ := hupdate.handed hsingle
        refine ⟨fun values bucketNum hcall key v hv => ?_, fun key v hv => ?_⟩
        · rcases List.mem_append.1 hcall with hcall | hcall
          · exact (hhanded values bucketNum hcall key v hv).append _
          · cases List.mem_singleton.1 hcall
            exact (hkept key v hv).append _
        · rw [AList.lookup_empty] at hv
          cases hv
      · exact hupdate
    · exact hq
  exact hopen _ (hfeed _ _ (hclose _))

theorem ValuesKept.moves {p p' : GaugeMetricProducer} (h : p.ValuesKept) (hmoves : Moves p p') : p'.ValuesKept := by
  induction hmoves with
  | same hsame => exact h.same hsame
  | flush p t next => exact h.flush t next
  | add p event tagId shouldTruncateTimestamp => exact h.add event tagId shouldTruncateTimestamp
  | trans hmoves hmoves' ih ih' => exact ih' (ih h)

theorem flushIfNeeded_empty (t : Int) (hsliced : p.mCurrentSlicedBucket = ∅)
    (hforAnomaly : p.mCurrentSlicedBucketForAnomaly = ∅) :
    (p.flushIfNeededLocked t).toGaugeMetric = p.toGaugeMetric ∧ (p.flushIfNeededLocked t).mCurrentSlicedBucket = ∅ ∧
      (p.flushIfNeededLocked t).mCurrentSlicedBucketForAnomaly = ∅ := by
  have hclose : ∀ stop, SameValues p (p.closeBucket t stop) := by
    intro stop
    unfold closeBucket
    split
    · exact ⟨rfl, rfl, rfl, rfl, rfl⟩
    · exact ⟨rfl, rfl, rfl, rfl, rfl⟩
  have hfeed : ∀ (q : GaugeMetricProducer) (stop : Int), SameValues p q →
      (q.feedAnomalyTrackers t stop).toGaugeMetric = p.toGaugeMetric ∧
        (q.feedAnomalyTrackers t stop).mCurrentSlicedBucketForAnomaly = ∅ := by
    intro q stop hq
    have hupdate : q.updateCurrentSlicedBucketForAnomaly.mCurrentSlicedBucketForAnomaly = ∅ := by
      unfold updateCurrentSlicedBucketForAnomaly
      rw [hq.sliced, hsliced, hq.forAnomaly, hforAnomaly]
      rfl
    unfold feedAnomalyTrackers
    dsimp only
    split
    · split
      · exact ⟨hq.metric, rfl⟩
      · exact ⟨hq.metric, hupdate⟩
    · exact ⟨hq.metric, hq.forAnomaly.trans hforAnomaly⟩
  unfold flushIfNeededLocked
  dsimp only
  split
  · exact ⟨rfl, hsliced, hforAnomaly⟩
  · obtain ⟨hmetric, hkept⟩ := hfeed _ p.getCurrentBucketEndTimeNs (hclose _)
    exact ⟨hmetric, rfl, hkept⟩

end GaugeMetricProducer

open GaugeMetricProducer

/-- A metric on the first field of atom 10, with an alert. -/
def alertedGauge (mDimensionsInWhat : List Matcher) : GaugeMetric :=
  { mDimensionsInWhat, mConditionSliced := false, mMetric2ConditionLinks := [], mMetric2StateLinks := [], mSlicedStateAtoms := [],
    mStateGroupMap := ∅, mTimeBaseNs := 0, mBucketSizeNs := 60, mIsPulled := false, mTriggerAtomId := -1, mMinBucketSizeNs := 0,
    mMaxPullDelayNs := 30000000000, mDimensionSoftLimit := 500, mDimensionHardLimit := 800, mGaugeAtomsPerDimensionLimit := 10,
    mSplitBucketForAppUpgrade := true, mFieldMatchers := FieldMatcher.translateFieldMatcher (.mk 10 none [.mk 1 none []]),
    mSamplingType := .RANDOM_ONE_SAMPLE, mAnomalyTrackers := 1 }

/-- An atom 10 with the value 5, and the end of its bucket. -/
def gaugeCalls : List (Int × GaugeMetricProducer.Call) :=
  [(10, .matchedLogEvent (.mk ⟨10, [(Field.ofPos 10 (fun _ => 1) 0, .INT 5)], ⟨fun _ => .kTrue, fun _ _ => (⟨0, 0⟩, none)⟩⟩ 10 false
    false 0 [])), (70, .dropData)]

end Statsd.Metrics
