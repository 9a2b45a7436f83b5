import FaultMesh.ReplayCoverage
import FaultMesh.FetchSpec
import FaultMesh.FilterFrame
import FaultMesh.Lib.Trace
import FaultMesh.Starvation
import FaultMesh.StaleFilter
import FaultMesh.Lib.Stride
import FaultMesh.Pool
import FaultMesh.DispatchOnce
import FaultMesh.BlockService
import FaultMesh.BlockRefinement
import FaultMesh.BatchService
import FaultMesh.Lib.Runs
import FaultMesh.Grouping
import FaultMesh.Snapshot
import FaultMesh.BatchRefinement
import FaultMesh.BlockLifetime
import FaultMesh.Lib.Census
import FaultMesh.Wakeups
import FaultMesh.NoStuckDispatch
import FaultMesh.Prefault.Array
import FaultMesh.Prefault.Touch
import FaultMesh.Prefault.Ensure
import FaultMesh.Prefault.Coverage
import FaultMesh.BatchCounters
import FaultMesh.SerialPasses
import FaultMesh.Redundancy
import FaultMesh.AllocationRetry
import FaultMesh.BatchStatus
import FaultMesh.GroupSegments
import FaultMesh.Lib.Sharing
import FaultMesh.Lib.Chunks
import FaultMesh.SegmentLoops
import FaultMesh.DispatchPlan
import FaultMesh.SegmentedDispatch
import FaultMesh.Modes.Fields
import FaultMesh.Modes.Machine
import FaultMesh.Modes.Sharing
import FaultMesh.Modes.Invariant
import FaultMesh.Modes.Agreement
import FaultMesh.Modes.Quiescence
import FaultMesh.Modes.Entries
import FaultMesh.Modes.QueueSlots
import FaultMesh.Modes.Isolation
import FaultMesh.Modes.PushLedger
import FaultMesh.Modes.Pushes
import FaultMesh.TableContent
import FaultMesh.PredictorHistory
import FaultMesh.MemoExactness
import FaultMesh.PredictorReset
import FaultMesh.FetchRecord
import FaultMesh.AdaptiveGate
import FaultMesh.PoweredDown
import FaultMesh.PrevBatchPredictor
import FaultMesh.Coalescing
import FaultMesh.CoalescingAccount
import FaultMesh.FetchRing
import FaultMesh.AsyncCopyMap
import FaultMesh.AsyncSlots
import FaultMesh.AsyncDelivery
import FaultMesh.AsyncBatch
import FaultMesh.AsyncResults
import FaultMesh.Lib.Calls
import FaultMesh.ServiceStages
import FaultMesh.StagedService
import FaultMesh.Lib.Countdown
import FaultMesh.EarlyEnd
import FaultMesh.Lib.Watermarks
import FaultMesh.PushTracking
import FaultMesh.SharedPushes
import FaultMesh.Lib.Reservation
import FaultMesh.PushSpace
import FaultMesh.CpuUnmap
import FaultMesh.Lib.ProbeTable
import FaultMesh.LockBalance
import FaultMesh.Prefault.Geometry
import FaultMesh.StaleLag
import FaultMesh.BatchHandover
import FaultMesh.UtlbCancel
