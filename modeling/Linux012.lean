import Linux012.Lib.Run
import Linux012.Lib.Hoare
import Linux012.Lib.LinkedList
import Linux012.Lib.Overwrite
import Linux012.Lib.StreamRing
import Linux012.BlkDrv.Request
import Linux012.BlkDrv.PagingOrder
import Linux012.Lib.Elevator
import Linux012.BlkDrv.Elevator
import Linux012.Kernel.Fork
import Linux012.Kernel.ForkInterleaving
import Linux012.Fs.Tree
import Linux012.Fs.TreeOps
import Linux012.Fs.Inode
import Linux012.Fs.Namei
import Linux012.Fs.InodeSpec
import Linux012.Fs.NameiSpec
import Linux012.Fs.Entries
import Linux012.Fs.MakeEntry
import Linux012.Fs.RemoveEntry
import Linux012.Fs.Open
import Linux012.Fs.LinkCounts
import Linux012.Fs.File
import Linux012.Fs.FileSpec
import Linux012.Fs.WriteAccess
import Linux012.Buffer.Cache
import Linux012.Buffer.Queues
import Linux012.Buffer.Calls
import Linux012.Buffer.Sharing
import Linux012.Kernel.Timer
import Linux012.Kernel.WaitQueue
import Linux012.Kernel.Signal
import Linux012.Pipe.Inode
import Linux012.Pipe.Select
import Linux012.Pipe.SelectTimeout
import Linux012.Pipe.Calls
import Linux012.Pipe.Wakeups
import Linux012.Pipe.Fifo
import Linux012.Kernel.ProcessTree
import Linux012.Kernel.ProcessGroup
import Linux012.Inodes.Table
import Linux012.Inodes.Copies
import Linux012.Inodes.Locks
import Linux012.Zones.Device
import Linux012.Zones.Uses
import Linux012.Zones.Contents
import Linux012.Zones.File
import Linux012.Zones.FileSpec
import Linux012.Zones.Sparse
import Linux012.Zones.Calls
import Linux012.Zones.Steps
import Linux012.Zones.Owned
import Linux012.Zones.Isolation
import Linux012.Zones.Changes
import Linux012.Zones.BitmapLaw
import Linux012.Zones.Slots
import Linux012.Zones.Creates
import Linux012.Zones.Walks
import Linux012.Zones.CreateSteps
import Linux012.Zones.CreateMoves
import Linux012.Zones.NoDuplicates
import Linux012.Lib.References
import Linux012.Files.Table
import Linux012.Files.Counts
import Linux012.Lib.Ownership
import Linux012.BlkDrv.Slots
import Linux012.Lib.Chains
import Linux012.BlkDrv.SlotOwners
import Linux012.Malloc.Heap
import Linux012.Malloc.Buckets
import Linux012.BlkDrv.Hd
import Linux012.BlkDrv.HdTransfers
import Linux012.BlkDrv.HdPartition
import Linux012.BlkDrv.HdErrors
import Linux012.Kernel.Identity
import Linux012.Kernel.Restart
import Linux012.Mm.Memory
import Linux012.Mm.SwapOut
import Linux012.Mm.CopyPageTables
import Linux012.Mm.CopyRange
import Linux012.Lib.CellRing
import Linux012.ChrDrv.TtyIo
import Linux012.ChrDrv.LineCounter
import Linux012.ChrDrv.TtyWrite
import Linux012.ChrDrv.CrFlag
import Linux012.ChrDrv.WriteQueue
import Linux012.ChrDrv.Console
import Linux012.ChrDrv.Cursor
import Linux012.Lib.Ledger
import Linux012.Fs.PathWalk
import Linux012.Fs.PathBalance
import Linux012.Fs.DanglingLinks
import Linux012.Lib.StateExcept
import Linux012.Lib.LittleEndian
import Linux012.Exec.Header
import Linux012.Exec.Strings
import Linux012.Exec.Execve
import Linux012.Exec.StringArea
import Linux012.Exec.Copies
import Linux012.Exec.ScriptLine
import Linux012.Exec.Pushes
import Linux012.Exec.Overrun
import Linux012.Exec.Image
import Linux012.Exec.Tables
import Linux012.Exec.Start
import Linux012.Exec.Arguments
import Linux012.Exec.Interpreter
import Linux012.Mm.Pager
import Linux012.Mm.Accounts
import Linux012.Mm.WriteVerify
import Linux012.Mm.VerifyArea
import Linux012.Fs.Permission
import Linux012.Kernel.Scheduler
import Linux012.Kernel.Kill
import Linux012.Kernel.Waitpid
import Linux012.Zones.Allocator
import Linux012.Zones.BlockMapping
import Linux012.Zones.BusyTruncate
import Linux012.Kernel.OrphanedExit
import Linux012.Lib.TwoRuns
import Linux012.Lib.Gregorian
import Linux012.Fs.PathRuns
import Linux012.Fs.Readlink
import Linux012.Fs.ReadlinkSpec
import Linux012.Files.Dup2
import Linux012.Kernel.Vsprintf
import Linux012.Kernel.Ls
import Linux012.Fs.ReadSuper
import Linux012.Fs.MountRoot
import Linux012.Buffer.CallCounts
import Linux012.Buffer.Breada
import Linux012.Buffer.ReadAhead
import Linux012.Buffer.SyncDev
import Linux012.Kernel.Mktime
import Linux012.Kernel.Clocks
import Linux012.Kernel.TimeOfDay
import Linux012.Lib.Words
import Linux012.Kernel.Number
import Linux012.Kernel.FormatScan
import Linux012.Lib.Blanks
import Linux012.Api.FormatCmdBuf
import Linux012.Lib.LineEditing
import Linux012.ChrDrv.LineEditor
import Linux012.ChrDrv.EnterKey
import Linux012.Mm.ShowMem
import Linux012.ChrDrv.Echo
import Linux012.ChrDrv.Keyboard
import Linux012.Kernel.StopSignals
import Linux012.Fs.Positions
import Linux012.ChrDrv.TtyNumbers
import Linux012.Mm.PageBytes
import Linux012.Mm.DemandLoading
import Linux012.Fs.ScanBuffers
import Linux012.Mm.Books
import Linux012.Mm.Reclaim
import Linux012.Mm.PageCalls
import Linux012.Mm.SharedPages
import Linux012.Mm.TableRange
import Linux012.Mm.ForkTables
import Linux012.Mm.PageRuns
import Linux012.Mm.MemInit
import Linux012.Lib.Sizes
