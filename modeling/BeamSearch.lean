import BeamSearch.Lib.KeyedMin
import BeamSearch.Core.Types
import BeamSearch.Stream4.Schedule
import BeamSearch.Core.Domain
import BeamSearch.Lib.Cdf
import BeamSearch.Threshold.Rules
import BeamSearch.Threshold.Online
import BeamSearch.Lib.PartitionPoint
import BeamSearch.Threshold.BankHistogram
import BeamSearch.Lib.Compaction
import BeamSearch.Lib.SegmentedReduce
import BeamSearch.Stream4.Kernels
import BeamSearch.Stream4.Pass
import BeamSearch.Stream4.Union
import BeamSearch.Final.Select
import BeamSearch.Final.GlobalSelect
import BeamSearch.Lib.Arena
import BeamSearch.Memory.RuntimeConfig
import BeamSearch.Memory.StaticLayout
import BeamSearch.Memory.DeviceMemory
import BeamSearch.Memory.LayoutAgrees
import BeamSearch.Memory.WellLaid
import BeamSearch.Stream3.Partition
import BeamSearch.Memory.RemoteCollect
import BeamSearch.Lib.Exchange
import BeamSearch.Final.Materialize
import BeamSearch.Final.Routing
import BeamSearch.Final.Delivery
import BeamSearch.Final.SingleGpu
import BeamSearch.Lib.Hoare
import BeamSearch.Lib.Threads
import BeamSearch.Stream3.ReadyQueue
import BeamSearch.Lib.KeySplit
import BeamSearch.Stream3.Kernels
import BeamSearch.Stream3.Oracle
import BeamSearch.Stream3.Pass
import BeamSearch.Stream3.Append
import BeamSearch.Stream3.ScatterThreads
import BeamSearch.Stream3.ScatterGrid
import BeamSearch.Stream3.Collect
import BeamSearch.Dispatcher.State
import BeamSearch.Core.Errors
import BeamSearch.Core.RankPlans
import BeamSearch.Final.Quota
import BeamSearch.History.Planner
import BeamSearch.Lib.Layers
import BeamSearch.History.Store
import BeamSearch.History.StaticHybrid
import BeamSearch.History.PlanExact
import BeamSearch.History.Rejected
import BeamSearch.History.Prune
import BeamSearch.History.AsyncPruner
import BeamSearch.History.AsyncConverges
import BeamSearch.History.PrunedBooks
import BeamSearch.Lib.Text
import BeamSearch.Lib.Double
import BeamSearch.Lib.Json
import BeamSearch.Core.Graph
import BeamSearch.Search.Terminal
import BeamSearch.Search.Replayable
import BeamSearch.Search.Session
import BeamSearch.Search.SessionLeak
import BeamSearch.Search.RightWorkers
import BeamSearch.Lib.NextK
import BeamSearch.Solve.Reconstruct
import BeamSearch.Solve.PathText
import BeamSearch.Solve.RepairRows
import BeamSearch.Solve.Repair
import BeamSearch.Solve.Bucket
import BeamSearch.Solve.Enumerates
import BeamSearch.Solve.Gather
import BeamSearch.Lib.Print
import BeamSearch.Lib.Record
import BeamSearch.Solve.Reports
import BeamSearch.Solve.Writers
import BeamSearch.Search.LogAgrees
import BeamSearch.Search.LogOrder
import BeamSearch.Native.Control
import BeamSearch.Native.DeliversOnce
import BeamSearch.Stream3.Pass
import BeamSearch.Calibration.Plans
import BeamSearch.Calibration.Capacity
import BeamSearch.Calibration.MaximumBeam
import BeamSearch.Lib.Distance
import BeamSearch.Lib.Probing
import BeamSearch.Solve.PackedMoves
import BeamSearch.Solve.Neighborhood
import BeamSearch.Solve.UndoneMoves
import BeamSearch.Solve.NeighborhoodLayers
import BeamSearch.Solve.NeighborhoodExact
import BeamSearch.Stream2.Suffixes
import BeamSearch.Stream2.HashGoal
import BeamSearch.Stream2.ShortestHits
import BeamSearch.Stream2.Complete
import BeamSearch.Solve.StepBudget
import BeamSearch.Stream2.Budgeted
import BeamSearch.Lib.DoubleArithmetic
import BeamSearch.Calibration.Statistics
import BeamSearch.Calibration.Components
import BeamSearch.Calibration.ProfilePolicy
import BeamSearch.Calibration.Telemetry
import BeamSearch.Calibration.ComponentTuning
import BeamSearch.Calibration.PipelineCache
import BeamSearch.Calibration.InferencePolicy
import BeamSearch.Calibration.ProposalEnvelope
import BeamSearch.Memory.ScaledRoundUp
import BeamSearch.Memory.BatchCandidates
import BeamSearch.Lib.PosixPath
import BeamSearch.Memory.HostBudget
import BeamSearch.Native.Csv
import BeamSearch.Stream3.Winners
import BeamSearch.Lib.Arrangements
import BeamSearch.Calibration.FrontierCeiling
import BeamSearch.Calibration.InferencePool
import BeamSearch.Calibration.PoolPairs
import BeamSearch.Calibration.TunedEvidence
import BeamSearch.Dispatcher.BankPhases
import BeamSearch.Dispatcher.Banks
import BeamSearch.Dispatcher.Rings
import BeamSearch.Dispatcher.Slots
import BeamSearch.Dispatcher.Sorting
import BeamSearch.Dispatcher.Depth
import BeamSearch.Dispatcher.Launches
import BeamSearch.Dispatcher.Passes
