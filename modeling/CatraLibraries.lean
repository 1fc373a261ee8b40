import CatraLibraries.EventsSet.History
import CatraLibraries.EventsSet.Waiting
import CatraLibraries.Tools.BufferReplacement
import CatraLibraries.Scheduler.Acceptance
import CatraLibraries.Scheduler.LeastSecond
import CatraLibraries.ConnectionsManager.ProxyEnd
import CatraLibraries.ConnectionsManager.EventRun
import CatraLibraries.ConnectionsManager.ProxyHistory
import CatraLibraries.ConnectionsManager.PoolExclusion
import CatraLibraries.ConnectionsManager.ConnectionReuse
import CatraLibraries.Scheduler.Pass
import CatraLibraries.Scheduler.Operations
import CatraLibraries.Scheduler.StartDate
import CatraLibraries.Socket.UpdatePass
import CatraLibraries.HTTPCacheManager.AlreadyRunning
import CatraLibraries.HTTPCacheManager.CacheHits
import CatraLibraries.HTTPCacheManager.KeyRetention
import CatraLibraries.PThread.Shutdown
import CatraLibraries.PThread.TimedWait
import CatraLibraries.MultiEventsSet.MutexHeld
import CatraLibraries.LoadBalancer.RoundRobinRun
import CatraLibraries.Tracer.Accounting
import CatraLibraries.Tracer.Terminal
import CatraLibraries.Tracer.GzipTrace
import CatraLibraries.Tracer.Retention
import CatraLibraries.Scheduler.Times2Run
import CatraLibraries.Socket.ClosedConnections
import CatraLibraries.FileIO.LockFile
import CatraLibraries.MultiEventsSet.Conservation
import CatraLibraries.ErrMsg.ErrorValues
import CatraLibraries.FileIO.CreateDirectory
import CatraLibraries.FileIO.MoveSafety
import CatraLibraries.Socket.ReadyWait
import CatraLibraries.Tools.BufferCharacters
import CatraLibraries.MyFTP.Replies
import CatraLibraries.Tools.EncryptBounds
import CatraLibraries.Tools.Base16
import CatraLibraries.Tools.Base64
import CatraLibraries.Tools.MergeSort
import CatraLibraries.Tools.OpensslEncrypt
import CatraLibraries.Tools.DateTime
import CatraLibraries.Tools.FileReaderSeek
import CatraLibraries.Tools.FileReaderSearch
import CatraLibraries.Tools.FileReaderLines
import CatraLibraries.Tools.FileReaderFailure
import CatraLibraries.Socket.TelnetBlocks
import CatraLibraries.Socket.WaitForBuffer
import CatraLibraries.WebTools.UrlTruncation
import CatraLibraries.WebTools.UrlParts
import CatraLibraries.MultiEventsSet.EventsFactory
import CatraLibraries.FileIO.NetNumbers
import CatraLibraries.FileIO.ConcatFile
import CatraLibraries.Configuration.Contents
import CatraLibraries.ConfigurationFile.RoundTrip
import CatraLibraries.ConfigurationFile.ScannerState
import CatraLibraries.WebTools.HttpReply
import CatraLibraries.WebTools.UrlForms
