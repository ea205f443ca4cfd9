import NewtuaPy.Lib.Exn
import NewtuaPy.Lib.Lts
import NewtuaPy.Lib.Slots
import NewtuaPy.Lib.ProcessPool
import NewtuaPy.Python
import NewtuaPy.Errors
import NewtuaPy.Paths
import NewtuaPy.Format
import NewtuaPy.Progress
import NewtuaPy.Entry
import NewtuaPy.Engine
import NewtuaPy.Sink
import NewtuaPy.Stream
import NewtuaPy.World
import NewtuaPy.Compiled
import NewtuaPy.Archive
import NewtuaPy.Spooling
import NewtuaPy.ProgressRuns
import NewtuaPy.View
import NewtuaPy.LazyOpen
import NewtuaPy.ArchiveRefines
import NewtuaPy.History
import NewtuaPy.StreamAgree
import NewtuaPy.Upkeep
import NewtuaPy.TempFileClaims
import NewtuaPy.Handshake
import NewtuaPy.Batch
import NewtuaPy.BatchCollates
import NewtuaPy.BatchSelection
import NewtuaPy.Sending
import NewtuaPy.Backends
import NewtuaPy.BatchCrash
import NewtuaPy.AsyncArchive
import NewtuaPy.AsyncLifetime
import NewtuaPy.Surfacing
import NewtuaPy.Owner
import NewtuaPy.AsyncRefines
import NewtuaPy.AsyncInFlight
import NewtuaPy.AsyncFinal
import NewtuaPy.Representation
import NewtuaPy.Lookup
import NewtuaPy.EntryReferences
import NewtuaPy.Truncation
import NewtuaPy.SpillFaults
import NewtuaPy.AsyncEntering
import NewtuaPy.SinkRuns
import NewtuaPy.CloseOnce
import NewtuaPy.HandshakeInterrupts
import NewtuaPy.AsyncSharing
import NewtuaPy.BatchSingle
import NewtuaPy.SharedWorld
import NewtuaPy.Several
import NewtuaPy.Collection
import NewtuaPy.Platforms
import NewtuaPy.WindowsPipe
import NewtuaPy.PathNames
import NewtuaPy.Spooled
import NewtuaPy.PipedOrBuffered
import NewtuaPy.Executors
import NewtuaPy.AsyncStream
import NewtuaPy.Iteration
import NewtuaPy.Reentrant
