import Ulockmgr.Library.Machine
import Ulockmgr.Library.Codec
import Ulockmgr.Library.ByteStream
import Ulockmgr.Library.RecordLock
import Ulockmgr.Library.Allocator
import Ulockmgr.Library.Timer
import Ulockmgr.Library.Descriptors
import Ulockmgr.Library.SystemCalls
import Ulockmgr.Errors
import Ulockmgr.Types
import Ulockmgr.Messages
import Ulockmgr.Messages.Framing
import Ulockmgr.Messages.Decoding
import Ulockmgr.Receiving
import Ulockmgr.Receiving.Skipping
import Ulockmgr.Receiving.Ending
import Ulockmgr.Receiving.Accounting
import Ulockmgr.Ttl
import Ulockmgr.Spawner
import Ulockmgr.Spawner.Answering
import Ulockmgr.Spawner.Zombies
import Ulockmgr.Processes
import Ulockmgr.Processes.Invariant
import Ulockmgr.Processes.Preservation
import Ulockmgr.Processes.Inheritance
import Ulockmgr.Kernel
import Ulockmgr.Channel
import Ulockmgr.Channel.Faithful
import Ulockmgr.Tracker
import Ulockmgr.Tracker.Invariant
import Ulockmgr.Tracker.Signals
import Ulockmgr.Tracker.Stop
import Ulockmgr.Detached
import Ulockmgr.Detached.Callback
import Ulockmgr.Owner.ExitLock
import Ulockmgr.Owner
import Ulockmgr.Owner.Invariant
import Ulockmgr.Owner.Clones
import Ulockmgr.Owner.Unregister
import Ulockmgr.Owner.References
import Ulockmgr.Owner.Exit
import Ulockmgr.Owner.LockReplies
import Ulockmgr.Owner.Endpoint
import Ulockmgr.Owner.Reading
import Ulockmgr.Owner.Progress
import Ulockmgr.Owner.Completion
import Ulockmgr.Owner.Grants
import Ulockmgr.Owner.Agreement
import Ulockmgr.Owner.Allocation
import Ulockmgr.System
import Ulockmgr.System.Invariant
import Ulockmgr.System.Calls
import Ulockmgr.System.Replies
import Ulockmgr.System.Interrupts
import Ulockmgr.System.Progress
import Ulockmgr.System.Interruption
import Ulockmgr.System.History
import Ulockmgr.Masks
import Ulockmgr.Masks.Discipline
import Ulockmgr.Manager
import Ulockmgr.Manager.OneOwner
import Ulockmgr.Manager.Registration
import Ulockmgr.Manager.Locking
import Ulockmgr.System.Table
import Ulockmgr.System.Table.Entries
import Ulockmgr.System.Table.Emptied
import Ulockmgr.Lockables
import Ulockmgr.Lockables.Custody
import Ulockmgr.Lockables.Drop
