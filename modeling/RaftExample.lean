import RaftExample.ByteCodec
import RaftExample.Digest
import RaftExample.UnixPath
import RaftExample.FaultFs
import RaftExample.CrashLogic
import RaftExample.StoreBase
import RaftExample.Base64
import RaftExample.JsonString
import RaftExample.JsonText
import RaftExample.Documents
import RaftExample.PointerFile
import RaftExample.SnapshotFormat
import RaftExample.RecoverSnapshot
import RaftExample.SnapshotGrammar
import RaftExample.CurrentPointer
import RaftExample.RestoreSpec
import RaftExample.SnapshotRoundTrip
import RaftExample.CrashConsistency
import RaftExample.Overwrites
import RaftExample.Replication
import RaftExample.RestoreAtomicity
import RaftExample.PersistContract
import RaftExample.ConsistentReads
import RaftExample.Forwarding
import RaftExample.Shutdown
import RaftExample.ConnectionCache
import RaftExample.GracefulShutdown
import RaftExample.LinearizableReads
import RaftExample.Watch
import RaftExample.WatchAbandon
import RaftExample.WatchUpdates
import RaftExample.KeyedWatch
import RaftExample.WatchTimeouts
import RaftExample.AllocationBounds
import RaftExample.LostWrites
import RaftExample.PathSpellings
import RaftExample.HandleLifetimes
import RaftExample.LeadershipInvariant
import RaftExample.MapRefinement
import RaftExample.ShiftRegister
import RaftExample.CorruptionDetection
import RaftExample.FsmIndex
import RaftExample.IndexPublication
import RaftExample.WireFormat
import RaftExample.Confinement
import RaftExample.LeadershipProgress
import RaftExample.Sessions
import RaftExample.KeyWatcher
import RaftExample.AddForwarding
import RaftExample.HostPort
import RaftExample.EngineLifecycle
import RaftExample.RWLock
import RaftExample.StatsMetrics
import RaftExample.ReadPolling
import RaftExample.Linearizability
import RaftExample.LinearizableCluster
