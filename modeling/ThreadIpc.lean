import ThreadIpc.Lib.Reachability
import ThreadIpc.Lib.LittleEndian
import ThreadIpc.Lib.OrderedMap
import ThreadIpc.Lib.Ring
import ThreadIpc.Lib.BlockQueue
import ThreadIpc.Lib.Relational
import ThreadIpc.Lib.SeekFile
import ThreadIpc.Lib.Cycles
import ThreadIpc.Lib.Delimited
import ThreadIpc.Lib.Memory
import ThreadIpc.ThreadQueue.Event
import ThreadIpc.ThreadQueue.Model
import ThreadIpc.ThreadQueue.Delivery
import ThreadIpc.ThreadQueue.Restart
import ThreadIpc.ThreadQueue.RunOnce
import ThreadIpc.ThreadQueue.Wakeup
import ThreadIpc.AsyncRouter.Model
import ThreadIpc.AsyncRouter.Steps
import ThreadIpc.AsyncRouter.Registry
import ThreadIpc.AsyncRouter.ThreadEnd
import ThreadIpc.AsyncRouter.CallSync
import ThreadIpc.ProcessRegistry.Model
import ThreadIpc.ProcessRegistry.Layout
import ThreadIpc.ProcessRegistry.Path
import ThreadIpc.ProcessRegistry.StaleEntry
import ThreadIpc.ProcessRegistry.CrashSafety
import ThreadIpc.ProcessRegistry.Cache
import ThreadIpc.ProcessRegistry.GetAll
import ThreadIpc.Serialization.Model
import ThreadIpc.Serialization.Reader
import ThreadIpc.Serialization.Containment
import ThreadIpc.Serialization.Encoding
import ThreadIpc.Serialization.RoundTrip
import ThreadIpc.Serialization.Atomicity
import ThreadIpc.Serialization.Resync
import ThreadIpc.CircularBuffer.Model
import ThreadIpc.CircularBuffer.Spec
import ThreadIpc.CircularBuffer.Refinement
import ThreadIpc.Ipc.OutboundQueue
import ThreadIpc.Ipc.Packetize
import ThreadIpc.Ipc.WriteMessages
import ThreadIpc.Ipc.QueueState
import ThreadIpc.Ipc.MessageQueue
import ThreadIpc.Ipc.SentBytes
import ThreadIpc.Ipc.SendQueues
import ThreadIpc.Ipc.Completion
import ThreadIpc.Ipc.Unserializable
import ThreadIpc.Ipc.Packet
import ThreadIpc.Ipc.Channel
import ThreadIpc.Ipc.PacketLog
import ThreadIpc.Ipc.ChannelInvariant
import ThreadIpc.Ipc.ReaderSteps
import ThreadIpc.Ipc.WriterSteps
import ThreadIpc.Ipc.PacketSteps
import ThreadIpc.Ipc.Integrity
import ThreadIpc.Ipc.Objects
import ThreadIpc.Ipc.InboundQueue
import ThreadIpc.Ipc.Tolerance
import ThreadIpc.ShortcutTable.Model
import ThreadIpc.ShortcutTable.Migration
import ThreadIpc.ShortcutTable.Success
import ThreadIpc.DatabaseNameTable.Model
import ThreadIpc.DatabaseNameTable.Basename
import ThreadIpc.DatabaseNameTable.Invariant
import ThreadIpc.DatabaseNameTable.History
import ThreadIpc.SqlDatabase.Model
import ThreadIpc.SqlDatabase.Transactions
import ThreadIpc.SqlDatabase.Correctness
import ThreadIpc.MessageService.Model
import ThreadIpc.MessageService.Registry
import ThreadIpc.MessageService.Agreement
import ThreadIpc.MessageService.Order
import ThreadIpc.MessageService.Operations
import ThreadIpc.MessageService.Mutation
import ThreadIpc.ByteStore.Model
import ThreadIpc.ByteStore.Frame
import ThreadIpc.ByteStore.Contents
import ThreadIpc.ByteStore.Reading
import ThreadIpc.ByteStore.Refinement
import ThreadIpc.ByteStore.Pinned
import ThreadIpc.ByteStore.Async
import ThreadIpc.ByteStore.Lending
import ThreadIpc.ByteStore.Pending
import ThreadIpc.ByteStore.FinishAsync
import ThreadIpc.ByteStore.Snapshot
import ThreadIpc.TimerSingleton.Model
import ThreadIpc.TimerSingleton.Reach
import ThreadIpc.TimerSingleton.Liveness
import ThreadIpc.JsMarshal.Model
import ThreadIpc.JsMarshal.Cycles
import ThreadIpc.JsMarshal.RoundTrip
import ThreadIpc.HttpUtils.Model
import ThreadIpc.HttpUtils.HeaderLines
import ThreadIpc.HttpUtils.Entries
import ThreadIpc.HttpUtils.Unfold
import ThreadIpc.HttpUtils.Folding
import ThreadIpc.HttpUtils.Buffer
import ThreadIpc.HttpUtils.InPlace
import ThreadIpc.HttpUtils.LineSteps
import ThreadIpc.HttpUtils.Visits
import ThreadIpc.HttpUtils.StaysInside
import ThreadIpc.HttpUtils.Terminated
import ThreadIpc.HttpUtils.LineBreaks
import ThreadIpc.PermissionsDb.Model
import ThreadIpc.PermissionsDb.Upgrades
import ThreadIpc.PermissionsDb.AllOrNothing
import ThreadIpc.EventObject.Model
import ThreadIpc.EventObject.Conservation
import ThreadIpc.ThreadStart.Model
import ThreadIpc.ThreadStart.Handshake
import ThreadIpc.ThreadStart.Discipline
import ThreadIpc.ThreadLocals.Model
import ThreadIpc.ThreadLocals.Ledger
import ThreadIpc.ThreadLocals.ExactlyOnce
import ThreadIpc.ThreadLocals.Alloc
import ThreadIpc.SecurityModel.Model
import ThreadIpc.SecurityModel.Numerals
import ThreadIpc.SecurityModel.Identity
import ThreadIpc.SecurityModel.Port
import ThreadIpc.SecurityModel.SubDomain
import ThreadIpc.ConvertUtf.Model
import ThreadIpc.ConvertUtf.Utf8
import ThreadIpc.HttpUtils.HeaderString
import ThreadIpc.UrlUtils.Model
import ThreadIpc.UrlUtils.Escape
import ThreadIpc.UrlUtils.PathToUrl
import ThreadIpc.UrlUtils.DataUrl
import ThreadIpc.UrlUtils.DataUrlGrammar
import ThreadIpc.Lib.Signed
import ThreadIpc.Lib.Glob
import ThreadIpc.StringUtils.Model
import ThreadIpc.StringUtils.StringMatch
import ThreadIpc.StringUtils.MemMatch
import ThreadIpc.StringUtils.StringToInt
import ThreadIpc.StringUtils.IntegerToString
import ThreadIpc.StringUtils.PathComponent
import ThreadIpc.File.Model
import ThreadIpc.File.Directories
import ThreadIpc.File.Deletion
import ThreadIpc.File.ParentDirectory
import ThreadIpc.Lib.Fields
import ThreadIpc.Lib.FileTree
import ThreadIpc.File.Creation
import ThreadIpc.TimerSingleton.Order
import ThreadIpc.TimerSingleton.PlatformTimer
import ThreadIpc.Lib.Cuts
import ThreadIpc.Lib.Loops
import ThreadIpc.PngUtils.Model
import ThreadIpc.PngUtils.IntegralSplit
import ThreadIpc.PngUtils.ShrinkImage
import ThreadIpc.AtomicOps.Model
import ThreadIpc.AtomicOps.ConstructsOnce
import ThreadIpc.Lib.LinkedList
import ThreadIpc.AtomicList.Model
import ThreadIpc.AtomicList.Integrity
import ThreadIpc.Lib.RecursiveMutex
import ThreadIpc.Baton.Model
import ThreadIpc.Baton.Relay
import ThreadIpc.Baton.Exclusive
import ThreadIpc.Lib.Threads
import ThreadIpc.Lib.Epochs
import ThreadIpc.Lib.RefCount
import ThreadIpc.CondVar.Model
import ThreadIpc.CondVar.Generations
import ThreadIpc.CondVar.Wakeups
import ThreadIpc.ThreadMessageWindow.Model
import ThreadIpc.ThreadMessageWindow.Delivery
import ThreadIpc.Lib.Queries
import ThreadIpc.PermissionsDb.PermissionsList
import ThreadIpc.PermissionsDb.Sorted
import ThreadIpc.PermissionsDb.Decisions
import ThreadIpc.PermissionsDb.History
import ThreadIpc.Lib.Residues
import ThreadIpc.PngUtils.IntSplit
import ThreadIpc.CircularBuffer.DivideByZero
import ThreadIpc.Lib.Replacing
import ThreadIpc.StringUtils.ReplaceAll
import ThreadIpc.ConvertUtf.RoundTrip
import ThreadIpc.Lib.Circle
import ThreadIpc.LinkedPtr.Model
import ThreadIpc.LinkedPtr.Ownership
import ThreadIpc.ScopedRefptr.Model
import ThreadIpc.ScopedRefptr.Counting
import ThreadIpc.ScopedRefptr.Calls
import ThreadIpc.ScopedRefptr.Interleavings
import ThreadIpc.ScopedRefptr.Statements
import ThreadIpc.HttpUtils.Regenerated
import ThreadIpc.SFThreadMessageQueue.Model
import ThreadIpc.SFThreadMessageQueue.Delivery
import ThreadIpc.Win32ThreadMessageQueue.Model
import ThreadIpc.Win32ThreadMessageQueue.Lifetime
import ThreadIpc.PosixMutex.Model
import ThreadIpc.PosixMutex.Tracking
import ThreadIpc.TestThreadMessageQueue.Model
import ThreadIpc.TestThreadMessageQueue.Machines
import ThreadIpc.TestThreadMessageQueue.Invariant
import ThreadIpc.TestThreadMessageQueue.Steps
import ThreadIpc.TestThreadMessageQueue.Termination
import ThreadIpc.TestThreadMessageQueue.Outcome
