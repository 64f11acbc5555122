import Statsd.Base.UMap
import Statsd.Base.Run
import Statsd.Base.Grid
import Statsd.Base.Heap
import Statsd.StatsLogUtil
import Statsd.Anomaly.AnomalyTracker
import Statsd.Anomaly.Window
import Statsd.Anomaly.IndexedPriorityQueue
import Statsd.Anomaly.QueueRefinement
import Statsd.Anomaly.AlarmMonitor
import Statsd.Anomaly.Armed
import Statsd.Anomaly.Drift
import Statsd.FieldValue
import Statsd.HashableDimensionKey
import Statsd.Matchers.AtomMatchingTracker
import Statsd.Condition.SimpleConditionTracker
import Statsd.Condition.SlicedSimulation
import Statsd.Metrics.Activation
import Statsd.Metrics.ActivationState
import Statsd.Metrics.ActivationSemantics
import Statsd.Metrics.ActivationRun
import Statsd.Metrics.OringDurationTracker
import Statsd.Metrics.OringAccounting
import Statsd.Metrics.OringConservation
import Statsd.Metrics.OringFeed
import Statsd.Metrics.MatchedEvent
import Statsd.Metrics.CountMetricProducer
import Statsd.Metrics.CountConservation
import Statsd.Metrics.ValueMetricProducer
import Statsd.Metrics.ValueTiling
import Statsd.Base.Bytes
import Statsd.Logd.LogEvent
import Statsd.Logd.ParseSafety
import Statsd.Socket.StatsSocketListener
import Statsd.Libstatssocket.StatsEvent
import Statsd.Libstatssocket.Written
import Statsd.Libstatssocket.Encoding
import Statsd.Libstatssocket.Agreement
import Statsd.Metrics.ValueAccumulation
import Statsd.Metrics.ValueClosing
import Statsd.Metrics.ValueMeter
import Statsd.Metrics.MeterRefinement
import Statsd.Metrics.ValueTelescope
import Statsd.Metrics.IncompleteBucket
import Statsd.Metrics.ValueDeactivation
import Statsd.Metrics.ZeroDefaultBase
import Statsd.Base.Handover
import Statsd.Metrics.CountFeed
import Statsd.Metrics.ValueFeed
import Statsd.Metrics.AnomalyFeed
import Statsd.Config.ConfigKey
import Statsd.Packages.UidMap
import Statsd.Packages.InstalledApps
import Statsd.Packages.ChangeDelivery
import Statsd.StatsLogProcessor
import Statsd.Storage.StorageManager
import Statsd.Config.ConfigManager
import Statsd.State.StateTracker
import Statsd.State.StateChain
import Statsd.Anomaly.DurationAnomalyTracker
import Statsd.Anomaly.AlarmDelivery
import Statsd.Base.Marks
import Statsd.Config.StatsdConfig
import Statsd.Config.UpdateStatus
import Statsd.Config.ConfigDiff
import Statsd.Base.GraphInit
import Statsd.Base.Memo
import Statsd.Matchers.MatcherInit
import Statsd.Matchers.MatcherUpdate
import Statsd.Matchers.MatcherEvaluation
import Statsd.Condition.ConditionTracker
import Statsd.Condition.ConditionInit
import Statsd.Condition.ConditionSound
import Statsd.Condition.ConditionLeaf
import Statsd.Condition.ConditionEvent
import Statsd.Condition.ConditionRun
import Statsd.Condition.ConditionCreation
import Statsd.Shell.ShellSubscriber
import Statsd.External.StatsPullerManager
import Statsd.External.PullSchedule
import Statsd.MetadataUtil
import Statsd.Anomaly.Refractory
import Statsd.Anomaly.RefractoryRestart
import Statsd.Metrics.ActivationRestart
import Statsd.Base.Tally
import Statsd.Libstatssocket.StatsdWriter
import Statsd.Libstatssocket.DropAccounting
import Statsd.Libstatssocket.Acceptance
import Statsd.Base.Segments
import Statsd.Metrics.AnomalyPrediction
import Statsd.Metrics.MaxDurationTracker
import Statsd.Metrics.MaxDurations
import Statsd.Storage.ReportFiles
import Statsd.Framework.Serialized
import Statsd.Condition.OverallCondition
import Statsd.Base.SetIntersection
import Statsd.Config.MetricUpdateStatus
import Statsd.ActivationBroadcast
import Statsd.ValueOrder
import Statsd.External.PullerUtil
import Statsd.Base.Contiguous
import Statsd.External.MergeGroups
import Statsd.External.UidMapping
import Statsd.Metrics.StateAttribution
import Statsd.Metrics.VanishedKeys
import Statsd.Condition.ConditionChange
import Statsd.Metrics.ConditionPush
import Statsd.Metrics.MaxDurationAlarms
import Statsd.Metrics.LongestAlarm
import Statsd.Metrics.DurationMetricProducer
import Statsd.Metrics.OringKeys
import Statsd.Metrics.NestingCounts
import Statsd.External.StatsPuller
import Statsd.Metrics.LinkedFields
import Statsd.Metrics.AnomalyHorizon
import Statsd.Metrics.LateSplits
import Statsd.Metrics.ConditionTime
import Statsd.Logd.EventTree
import Statsd.FieldPaths
import Statsd.Base.Ranges
import Statsd.Matchers.MatcherUtil
import Statsd.Matchers.ValueTree
import Statsd.Matchers.FieldTree
import Statsd.Base.GraphComplete
import Statsd.Config.References
import Statsd.Matchers.MatcherAcceptance
import Statsd.Condition.ConditionAcceptance
import Statsd.Condition.ConditionUpdate
import Statsd.Condition.MatcherReferences
import Statsd.Base.Writes
import Statsd.Config.MetricCreation
import Statsd.Config.MetricResolution
import Statsd.Config.MetricsUpdate
import Statsd.Config.NullProducers
import Statsd.SavedKeys
import Statsd.Libstatssocket.BufferSafety
import Statsd.Anomaly.AlarmTracker
import Statsd.Metrics.TrackerCalls
import Statsd.Metrics.Bucketless
import Statsd.Metrics.OringGuardRail
import Statsd.Metrics.ValueGuardRail
import Statsd.Metrics.GaugeAnomaly
import Statsd.Storage.TrimToFit
import Statsd.Logd.Representation
import Statsd.WriterCompleteness
import Statsd.Guardrail.PushedAtomStats
import Statsd.Packages.VersionChain
import Statsd.Packages.ByteAccounting
import Statsd.Packages.DroppedChanges
import Statsd.Storage.TrainInfo
import Statsd.Metrics.BucketArithmetic
import Statsd.Metrics.TrackerClocks
import Statsd.StatsService
import Statsd.State.StateManager
import Statsd.Metrics.GaugeGuardRail
import Statsd.FetchRequests
import Statsd.Guardrail.ConfigHistory
