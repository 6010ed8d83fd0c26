import Kumf.Interc.CallocSize
import Kumf.Interc.LostRecords
import Kumf.Interc.Startup
import Kumf.Interc.ThreadCreation
import Kumf.Interc.KnownDistances
import Kumf.Interc.NodeList
import Kumf.Interc.NodeMask
import Kumf.Interc.LineByLine
import Kumf.Interc.OneHeap
import Kumf.Interc.SharedTable
import Kumf.Spe.WorkerAgreement
import Kumf.Spe.DumpTotals
import Kumf.Spe.Knee
import Kumf.Spe.Limits
import Kumf.Spe.KernelFilter
import Kumf.Spe.Chunks
import Kumf.Spe.ParallelParse
import Kumf.PacToInterc.CrossCorrelation
import Kumf.PacToInterc.SizeBased
import Kumf.Mlock.KernelPages
import Kumf.Daemon.Lookups
import Kumf.Daemon.LookupReplies
import Kumf.Daemon.RegistryRuns
import Kumf.Daemon.NumactlText
import Kumf.Daemon.SocketGroups
import Kumf.Daemon.ProfileOutcomes
import Kumf.Daemon.LifecycleRuns
import Kumf.Daemon.ProfiledStart
import Kumf.Daemon.DumpWorkers
import Kumf.Prof.Bootstrap
import Kumf.Prof.FieldWriters
import Kumf.Prof.HandedOut
import Kumf.SelfProfile.Runs
import Kumf.SelfProfile.SampleBytes
import Kumf.SelfProfile.EventConfig
import Kumf.Cli.LogCollection
import Kumf.Workloads.Stream
import Kumf.SelfProfile.SessionRuns
