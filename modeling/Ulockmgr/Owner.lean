import Mathlib.Data.Finset.Card
import Mathlib.Data.UInt
import Mathlib.Tactic.Simps.Basic
import Ulockmgr.Kernel
import Ulockmgr.Library.Machine
import Ulockmgr.Messages.Framing
import Ulockmgr.Owner.ExitLock
import Ulockmgr.Tracker

/-!
# The owner process

`owner.rs` on the side of the owner: the receiving loop, the threads it starts for
`Interrupt` and `Unregister`, the lock workers of `SetLockBlocking`, and the TTL loop,
interleaved step by step.  A request and the thread that serves it are named after the
reply endpoint of the request, and an `FdData` after the `Register` request it came
with.  One step is one access to shared data, one system call, or one reply; the
results of system calls are part of the label of the step.
-/

namespace Ulockmgr.Owner

open Tracker (RawTracker)
open Wire (Stream)

abbrev RequestId := Nat

/-- Who holds a clone of an `Arc<FdData>`. -/
inductive Holder where
  | map
  | loop
  | worker (e : RequestId)
  | unregister (e : RequestId)
  deriving DecidableEq, Repr

/-- `FdData`.  It is dropped, and its descriptor closed, when nobody holds a clone. -/
structure FdData where
  descriptor : Fd
  tracker : RawTracker
  holders : Finset Holder
  deriving DecidableEq

/-- Where the thread that serves a request is. -/
inductive Pc where
  | idle
  -- on the receiving loop
  | startThread
  | removeInterrupt
  | acquireExit
  | trackerNew
  | fetchId
  | insertId
  | mapGet
  | getlk
  | setlk
  | spawn
  -- on the thread of an `Interrupt`
  | interruptLookup
  | interruptStop
  -- on the thread of an `Unregister`
  | mapRemove
  | trackerStop
  | trackerWait
  | refcount
  | dropData
  -- the only reply of all but blocking lock commands
  | reply
  -- on the worker of a blocking lock command
  | childStart
  | refused
  | blockSignals
  | firstTry
  | fetchInterrupt
  | insertInterrupt
  | replyFirst
  | unblockSignal
  | setlkw
  | replyLast
  | endCall
  | dropClone
  | untrack
  | markExited
  | finished
  deriving DecidableEq, Repr

inductive Loop where
  | receiving
  /-- In the handler of a request. -/
  | busy (e : RequestId)
  /-- In `tracker.spawn`, waiting for the report of the new thread. -/
  | awaiting (e : RequestId)
  /-- At the end of `handle_lock_command`, with its clone of the `FdData`. -/
  | releasing (e : RequestId)
  | ended
  deriving DecidableEq, Repr

/-- How `tracker.spawn` came out. -/
inductive Spawned where
  | failed
  | refused
  | tracked
  deriving DecidableEq, Repr

/-- The result of a system call without data. -/
abbrev Outcome := Except Errno Unit

/-- A lock operation: granted on a file of the given position and size, or not. -/
inductive Fcntl where
  | granted (position size : Nat)
  | failed (errno : Errno)
  deriving DecidableEq, Repr

def Fcntl.outcome : Fcntl → Outcome
  | .granted _ _ => .ok ()
  | .failed errno => .error errno

structure Request where
  message : Message
  pc : Pc
  /-- The registration whose `FdData` the handler looked up. -/
  data : RequestId
  /-- The ID the allocation loop tries, or the one it settled on. -/
  id : UInt64
  /-- The worker an `Interrupt` is to stop. -/
  target : RequestId
  /-- The argument of the next `reply`. -/
  out : Reply
  replies : List Reply
  /-- The reply socket, from the owner to the client. -/
  stream : Stream Fd
  /-- The exit flag of the worker's guard. -/
  exited : Bool
  /-- How the lookup, the spawn and the system calls of a lock command came out. -/
  found : Option Bool
  spawned : Option Spawned
  masked : Option Outcome
  first : Option Outcome
  unmasked : Option Outcome
  second : Option Outcome
  /-- The last lock operation granted to the request. -/
  grant : Option Grant
  deriving DecidableEq

def Request.idle : Request where
  message := .ping
  pc := .idle
  data := 0
  id := 0
  target := 0
  out := .ok .unit
  replies := []
  stream := Stream.empty
  exited := false
  found := none
  spawned := none
  masked := none
  first := none
  unmasked := none
  second := none
  grant := none

structure State where
  exitLock : ExitLock
  nextId : UInt64
  descriptors : UInt64 → Option RequestId
  interrupts : UInt64 → Option RequestId
  interruptNextId : UInt64
  loop : Loop
  request : RequestId → Request
  data : RequestId → FdData
  kernel : Kernel

def FdData.dropped : FdData := ⟨.file 0, RawTracker.new, ∅⟩

/-- `DaemonOwner::new`. -/
def initial : State where
  exitLock := ExitLock.new
  nextId := 0
  descriptors := fun _ => none
  interrupts := fun _ => none
  interruptNextId := 0
  loop := .receiving
  request := fun _ => Request.idle
  data := fun _ => FdData.dropped
  kernel := Kernel.initial

namespace State

@[simps] def setRequest (s : State) (e : RequestId) (request : Request) : State :=
  { s with request := fun x => if x = e then request else s.request x }

@[simps] def setData (s : State) (r : RequestId) (data : FdData) : State :=
  { s with data := fun x => if x = r then data else s.data x }

@[simps] def setDescriptor (s : State) (id : UInt64) (data : Option RequestId) : State :=
  { s with descriptors := fun x => if x = id then data else s.descriptors x }

@[simps] def setInterrupt (s : State) (id : UInt64) (worker : Option RequestId) : State :=
  { s with interrupts := fun x => if x = id then worker else s.interrupts x }

@[simps] def setLoop (s : State) (loop : Loop) : State := { s with loop := loop }

@[simps] def setKernel (s : State) (kernel : Kernel) : State := { s with kernel := kernel }

@[simps] def setExitLock (s : State) (lock : ExitLock) : State := { s with exitLock := lock }

attribute [grind =] setRequest_exitLock setRequest_nextId setRequest_descriptors
  setRequest_interrupts setRequest_interruptNextId setRequest_loop setRequest_request
  setRequest_data setRequest_kernel setData_exitLock setData_nextId setData_descriptors
  setData_interrupts setData_interruptNextId setData_loop setData_request setData_data
  setData_kernel setDescriptor_exitLock setDescriptor_nextId setDescriptor_descriptors
  setDescriptor_interrupts setDescriptor_interruptNextId setDescriptor_loop setDescriptor_request
  setDescriptor_data setDescriptor_kernel setInterrupt_exitLock setInterrupt_nextId
  setInterrupt_descriptors setInterrupt_interrupts setInterrupt_interruptNextId setInterrupt_loop
  setInterrupt_request setInterrupt_data setInterrupt_kernel setLoop_exitLock setLoop_nextId
  setLoop_descriptors setLoop_interrupts setLoop_interruptNextId setLoop_loop setLoop_request
  setLoop_data setLoop_kernel setKernel_exitLock setKernel_nextId setKernel_descriptors
  setKernel_interrupts setKernel_interruptNextId setKernel_loop setKernel_request setKernel_data
  setKernel_kernel setExitLock_exitLock setExitLock_nextId setExitLock_descriptors
  setExitLock_interrupts setExitLock_interruptNextId setExitLock_loop setExitLock_request
  setExitLock_data setExitLock_kernel

/-- The `FdData` the handler of `e` looked up. -/
abbrev dataOf (s : State) (e : RequestId) : FdData := s.data (s.request e).data

/-- Drop of one clone; with the last one the descriptor is closed and the read guard
of the exit lock is released. -/
@[simps] def dropClone (s : State) (r : RequestId) (holder : Holder) : State :=
  { s with
    data := fun x =>
      if x = r then { s.data r with holders := (s.data r).holders.erase holder } else s.data x
    exitLock :=
      if (s.data r).holders.erase holder = ∅ then s.exitLock.release r else s.exitLock
    kernel :=
      if (s.data r).holders.erase holder = ∅ then s.kernel.close (s.data r).descriptor
      else s.kernel }

attribute [grind =] dropClone_exitLock dropClone_nextId dropClone_descriptors dropClone_interrupts
  dropClone_interruptNextId dropClone_loop dropClone_request dropClone_data dropClone_kernel

end State

/-! ## Steps -/

inductive Action where
  /-- `receive_request` returns. -/
  | recv (e : RequestId) (message : Message)
  /-- The client closed the socket, or `receive_request` failed for good. -/
  | hangUp
  | startThread (e : RequestId)
  /-- `std::thread::spawn` panics. -/
  | startThreadFails (e : RequestId)
  | removeInterrupt (e : RequestId)
  | acquireExit (e : RequestId)
  | trackerNew (e : RequestId)
  | trackerNewFails (e : RequestId) (error : IoError)
  | fetchId (e : RequestId)
  | insertId (e : RequestId)
  | mapGet (e : RequestId)
  | getlk (e : RequestId) (result : Except Errno Libc.Flock)
  | setlk (e : RequestId) (result : Fcntl)
  | spawn (e : RequestId)
  | spawnFails (e : RequestId)
  | spawnReturn (e : RequestId)
  | release (e : RequestId)
  | interruptLookup (e : RequestId)
  | interruptStop (e : RequestId)
  | mapRemove (e : RequestId)
  | trackerStop (e : RequestId)
  | trackerWait (e : RequestId)
  | refcount (e : RequestId)
  | dropData (e : RequestId)
  | reply (e : RequestId)
  | track (e : RequestId)
  | dropRefused (e : RequestId)
  | blockSignals (e : RequestId) (result : Outcome)
  | firstTry (e : RequestId) (result : Fcntl)
  | fetchInterrupt (e : RequestId)
  | insertInterrupt (e : RequestId)
  | replyFirst (e : RequestId)
  | unblockSignal (e : RequestId) (result : Outcome)
  | setlkw (e : RequestId) (result : Fcntl)
  | replyLast (e : RequestId)
  | endCall (e : RequestId)
  | dropClone (e : RequestId)
  | untrack (e : RequestId)
  | markExited (e : RequestId)
  | tryExit
  /-- The client reads from its end of a reply socket. -/
  | fetch (e : RequestId) (signal : Bool)
  | foreignLock (file : Nat) (lock : RecordLock.Lock)
  | foreignUnlock (file : Nat) (lock : RecordLock.Lock)

/-- What the lock operation of `e` comes to if it is granted. -/
def State.grantOf (s : State) (e : RequestId) (position size : Nat) : Option Grant :=
  s.kernel.grant (s.dataOf e).descriptor (s.request e).message.params.toFlock position size

/-- What a lock operation of `e` with the given result was granted. -/
def State.grantBy (s : State) (e : RequestId) : Fcntl → Option Grant
  | .granted position size => s.grantOf e position size
  | .failed _ => none

/-- The kernel can answer the lock operation of `e` this way. -/
def State.Answers (s : State) (e : RequestId) : Fcntl → Prop
  | .granted position size => (s.grantOf e position size).isSome
  | .failed _ => True

instance (s : State) (e : RequestId) (result : Fcntl) : Decidable (s.Answers e result) := by
  cases result <;> unfold State.Answers <;> infer_instance

def Enabled (s : State) : Action → Prop
  | .recv e _ => s.loop = .receiving ∧ (s.request e).pc = .idle
  | .hangUp => s.loop = .receiving
  | .startThread e | .startThreadFails e => (s.request e).pc = .startThread
  | .removeInterrupt e => (s.request e).pc = .removeInterrupt
  | .acquireExit e => (s.request e).pc = .acquireExit
  | .trackerNew e | .trackerNewFails e _ => (s.request e).pc = .trackerNew
  | .fetchId e => (s.request e).pc = .fetchId
  | .insertId e => (s.request e).pc = .insertId
  | .mapGet e => (s.request e).pc = .mapGet
  | .getlk e _ => (s.request e).pc = .getlk
  | .setlk e result => (s.request e).pc = .setlk ∧ s.Answers e result
  | .spawn e | .spawnFails e => (s.request e).pc = .spawn
  | .spawnReturn e => s.loop = .awaiting e ∧ (s.request e).spawned ≠ none
  | .release e => s.loop = .releasing e
  | .interruptLookup e => (s.request e).pc = .interruptLookup
  | .interruptStop e =>
      (s.request e).pc = .interruptStop ∧ (s.request (s.request e).target).exited = true
  | .mapRemove e => (s.request e).pc = .mapRemove
  | .trackerStop e => (s.request e).pc = .trackerStop
  | .trackerWait e => (s.request e).pc = .trackerWait ∧ (s.dataOf e).tracker.threads = ∅
  | .refcount e => (s.request e).pc = .refcount ∧ (s.dataOf e).holders.card = 1
  | .dropData e => (s.request e).pc = .dropData
  | .reply e => (s.request e).pc = .reply
  | .track e => (s.request e).pc = .childStart
  | .dropRefused e => (s.request e).pc = .refused
  | .blockSignals e _ => (s.request e).pc = .blockSignals
  | .firstTry e result => (s.request e).pc = .firstTry ∧ s.Answers e result
  | .fetchInterrupt e => (s.request e).pc = .fetchInterrupt
  | .insertInterrupt e => (s.request e).pc = .insertInterrupt
  | .replyFirst e => (s.request e).pc = .replyFirst
  | .unblockSignal e _ => (s.request e).pc = .unblockSignal
  | .setlkw e result => (s.request e).pc = .setlkw ∧ s.Answers e result
  | .replyLast e => (s.request e).pc = .replyLast
  | .endCall e => (s.request e).pc = .endCall
  | .dropClone e => (s.request e).pc = .dropClone
  | .untrack e => (s.request e).pc = .untrack
  | .markExited e => (s.request e).pc = .markExited
  | .tryExit => True
  | .fetch e signal => nextReply (s.request e).message.replyKind (s.request e).stream signal ≠ .blocks
  | .foreignLock file lock => (s.kernel.held file).Admits lock
  | .foreignUnlock _ _ => True

instance (s : State) (a : Action) : Decidable (Enabled s a) := by
  cases a <;> unfold Enabled <;> infer_instance

/-- What there is to do for a message. -/
inductive Task where
  | ping
  | interrupt
  | removeInterrupt
  | register
  | unregister
  | getLock
  | setLock
  | setLockBlocking
  deriving DecidableEq, Repr

def task : Message → Task
  | .ping => .ping
  | .interrupt _ => .interrupt
  | .removeInterrupt _ => .removeInterrupt
  | .register _ => .register
  | .unregister _ => .unregister
  | .lockCommand _ .getLockStatus _ => .getLock
  | .lockCommand _ .setLockNonBlocking _ => .setLock
  | .lockCommand _ .setLockBlocking _ => .setLockBlocking

/-- Where the handler of a message starts. -/
def Task.handler : Task → Pc
  | .ping => .reply
  | .interrupt | .unregister => .startThread
  | .removeInterrupt => .removeInterrupt
  | .register => .acquireExit
  | .getLock | .setLock | .setLockBlocking => .mapGet

/-- Where the new thread of an `Interrupt` or `Unregister` starts. -/
def Task.threadHandler : Task → Pc
  | .interrupt => .interruptLookup
  | _ => .mapRemove

/-- Where a lock command goes on with its `FdData`. -/
def Task.lockHandler : Task → Pc
  | .getLock => .getlk
  | .setLock => .setlk
  | _ => .spawn

/-- The descriptor of a `Register` message is dropped on an early return. -/
def closeFd (kernel : Kernel) (message : Message) : Kernel :=
  match message.fd with
  | some fd => kernel.close fd
  | none => kernel

def noInterrupt : IoError := .custom .notFound "no interrupts found with specified ID"

def noDescriptor : IoError := .custom .notFound "file descriptor not found"

/-- The reply that `io_cvt(Err(error))` gives. -/
abbrev errReply (error : IoError) : Reply := .error error.toErrno

/-- The reply to a lock command that is served on the loop, from the `flock` that
`fcntl` left behind. -/
def lockReply (result : Except Errno Libc.Flock) : Reply :=
  match result with
  | .error errno => .error errno
  | .ok raw =>
      match LockParams.tryFrom raw with
      | .ok params => .ok (.lockCommand (.done params))
      | .error error => errReply error

namespace Request

/-- Reply with `out`, at `pc`. -/
abbrev replying (request : Request) (out : Reply) : Request :=
  { request with pc := .reply, out := out }

/-- `reply.reply(out)`. -/
abbrev write (request : Request) (pc : Pc) : Request :=
  { request with
    pc := pc
    replies := request.replies ++ [request.out]
    stream := sendReply request.stream request.out }

/-- The reply object is dropped. -/
abbrev close (request : Request) (pc : Pc) : Request :=
  { request with pc := pc, stream := request.stream.close }

/-- `io_cvt(Ok(ReplyLockCommandData::Done(lock)))` or the error of the operation. -/
abbrev doneReply (request : Request) : Outcome → Reply
  | .ok () => .ok (.lockCommand (.done (request.message.params)))
  | .error errno => .error errno

end Request

/-- The locks of the process after a lock operation of `e`. -/
def State.afterFcntl (s : State) (e : RequestId) (result : Fcntl) : Kernel :=
  match s.grantBy e result with
  | some grant => s.kernel.perform grant
  | none => s.kernel

/-- Where the loop goes on after the reply to `e`. -/
def State.afterReply (s : State) (e : RequestId) : Loop :=
  match task (s.request e).message with
  | .interrupt | .unregister => s.loop
  | .ping | .removeInterrupt | .register => .receiving
  | .getLock | .setLock | .setLockBlocking =>
      if (s.request e).found = some true then .releasing e else .receiving

def next (s : State) : Action → State
  | .recv e message =>
      (s.setRequest e { Request.idle with message := message, pc := (task message).handler }).setLoop
        (.busy e)
  | .hangUp => s.setLoop .ended
  | .startThread e =>
      (s.setRequest e { s.request e with pc := (task (s.request e).message).threadHandler }).setLoop
        .receiving
  | .startThreadFails e => (s.setRequest e ((s.request e).close .finished)).setLoop .ended
  | .removeInterrupt e =>
      let id := (s.request e).message.id
      match s.interrupts id with
      | some _ => (s.setInterrupt id none).setRequest e ((s.request e).replying (.ok .unit))
      | none => s.setRequest e ((s.request e).replying (errReply noInterrupt))
  | .acquireExit e =>
      match s.exitLock.acquire e with
      | .ok lock => (s.setExitLock lock).setRequest e { s.request e with pc := .trackerNew }
      | .error error =>
          (s.setKernel (closeFd s.kernel (s.request e).message)).setRequest e
            ((s.request e).replying (errReply error))
  | .trackerNew e =>
      (s.setData e
        ⟨(s.request e).message.fd.getD (.file 0), RawTracker.new, {.loop}⟩).setRequest e
          { s.request e with pc := .fetchId, data := e }
  | .trackerNewFails e error =>
      ((s.setKernel (closeFd s.kernel (s.request e).message)).setExitLock
        (s.exitLock.release e)).setRequest e ((s.request e).replying (errReply error))
  | .fetchId e =>
      { s.setRequest e { s.request e with pc := .insertId, id := s.nextId } with
        nextId := s.nextId + 1 }
  | .insertId e =>
      let id := (s.request e).id
      match s.descriptors id with
      | none =>
          ((s.setDescriptor id (some e)).setData e
            { s.data e with holders := insert .map ((s.data e).holders.erase .loop) }).setRequest e
              ((s.request e).replying (.ok (.register id)))
      | some _ => s.setRequest e { s.request e with pc := .fetchId }
  | .mapGet e =>
      match s.descriptors ((s.request e).message.id) with
      | none =>
          s.setRequest e { (s.request e).replying (errReply noDescriptor) with found := some false }
      | some r =>
          (s.setData r { s.data r with holders := insert .loop (s.data r).holders }).setRequest e
            { s.request e with
              pc := (task (s.request e).message).lockHandler, data := r, found := some true }
  | .getlk e result => s.setRequest e ((s.request e).replying (lockReply result))
  | .setlk e result =>
      let raw := (s.request e).message.params.toFlock
      (s.setKernel (s.afterFcntl e result)).setRequest e
        { (s.request e).replying (lockReply (result.outcome.map fun _ => raw)) with
          grant := (s.grantBy e result).or (s.request e).grant }
  | .spawn e =>
      ((s.setData (s.request e).data
        { s.dataOf e with holders := insert (.worker e) (s.dataOf e).holders }).setRequest e
          { s.request e with pc := .childStart }).setLoop (.awaiting e)
  | .spawnFails e =>
      (s.setRequest e { (s.request e).close .finished with spawned := some .failed }).setLoop
        (.releasing e)
  | .spawnReturn e => s.setLoop (.releasing e)
  | .release e => (s.dropClone (s.request e).data .loop).setLoop .receiving
  | .interruptLookup e =>
      match s.interrupts ((s.request e).message.id) with
      | some worker => s.setRequest e { s.request e with pc := .interruptStop, target := worker }
      | none => s.setRequest e ((s.request e).replying (errReply noInterrupt))
  | .interruptStop e => s.setRequest e ((s.request e).replying (.ok .unit))
  | .mapRemove e =>
      let id := (s.request e).message.id
      match s.descriptors id with
      | some r =>
          ((s.setDescriptor id none).setData r
            { s.data r with
              holders := insert (.unregister e) ((s.data r).holders.erase .map) }).setRequest e
                { s.request e with pc := .trackerStop, data := r, found := some true }
      | none =>
          s.setRequest e { (s.request e).replying (errReply noDescriptor) with found := some false }
  | .trackerStop e =>
      (s.setData (s.request e).data
        { s.dataOf e with tracker := { (s.dataOf e).tracker with canSpawn := false } }).setRequest e
          { s.request e with pc := .trackerWait }
  | .trackerWait e => s.setRequest e { s.request e with pc := .refcount }
  | .refcount e => s.setRequest e { s.request e with pc := .dropData }
  | .dropData e =>
      (s.dropClone (s.request e).data (.unregister e)).setRequest e
        ((s.request e).replying (.ok .unit))
  | .reply e =>
      (s.setRequest e (((s.request e).write .finished).close .finished)).setLoop (s.afterReply e)
  | .track e =>
      if (s.dataOf e).tracker.canSpawn then
        (s.setData (s.request e).data
          { s.dataOf e with tracker := (s.dataOf e).tracker.track e }).setRequest e
            { s.request e with pc := .blockSignals, spawned := some .tracked }
      else s.setRequest e { s.request e with pc := .refused, spawned := some .refused }
  | .dropRefused e =>
      (s.dropClone (s.request e).data (.worker e)).setRequest e ((s.request e).close .finished)
  | .blockSignals e result =>
      match result with
      | .ok () => s.setRequest e { s.request e with pc := .firstTry, masked := some result }
      | .error errno =>
          s.setRequest e
            { s.request e with pc := .replyLast, out := .error errno, masked := some result }
  | .firstTry e result =>
      let request :=
        { s.request e with
          first := some result.outcome, grant := (s.grantBy e result).or (s.request e).grant }
      if result = .failed Errno.AGAIN then s.setRequest e { request with pc := .fetchInterrupt }
      else
        (s.setKernel (s.afterFcntl e result)).setRequest e
          { request with pc := .replyFirst, out := request.doneReply result.outcome }
  | .fetchInterrupt e =>
      { s.setRequest e { s.request e with pc := .insertInterrupt, id := s.interruptNextId } with
        interruptNextId := s.interruptNextId + 1 }
  | .insertInterrupt e =>
      let id := (s.request e).id
      match s.interrupts id with
      | none =>
          (s.setInterrupt id (some e)).setRequest e
            { s.request e with pc := .replyFirst, out := .ok (.lockCommand (.pending id)) }
      | some _ => s.setRequest e { s.request e with pc := .fetchInterrupt }
  | .replyFirst e => s.setRequest e ((s.request e).write .unblockSignal)
  | .unblockSignal e result =>
      match result with
      | .ok () => s.setRequest e { s.request e with pc := .setlkw, unmasked := some result }
      | .error errno =>
          s.setRequest e
            { s.request e with pc := .replyLast, out := .error errno, unmasked := some result }
  | .setlkw e result =>
      (s.setKernel (s.afterFcntl e result)).setRequest e
        { s.request e with
          pc := .replyLast
          second := some result.outcome
          out := (s.request e).doneReply result.outcome
          grant := (s.grantBy e result).or (s.request e).grant }
  | .replyLast e => s.setRequest e ((s.request e).write .endCall)
  | .endCall e => s.setRequest e ((s.request e).close .dropClone)
  | .dropClone e =>
      (s.dropClone (s.request e).data (.worker e)).setRequest e { s.request e with pc := .untrack }
  | .untrack e =>
      (s.setData (s.request e).data
        { s.dataOf e with tracker := (s.dataOf e).tracker.untrack e }).setRequest e
          { s.request e with pc := .markExited }
  | .markExited e => s.setRequest e { s.request e with pc := .finished, exited := true }
  | .tryExit =>
      match s.exitLock.tryExit with
      | .ok lock => s.setExitLock lock
      | .error _ => s
  | .fetch e signal =>
      match nextReply (s.request e).message.replyKind (s.request e).stream signal with
      | .returns _ rest => s.setRequest e { s.request e with stream := rest }
      | _ => s
  | .foreignLock file lock => s.setKernel (s.kernel.foreignLock file lock)
  | .foreignUnlock file lock => s.setKernel (s.kernel.foreignUnlock file lock)

-- every proof below unfolds the two: their equations are generated here, once
section
attribute [local simp] Enabled next
end

def machine : Transition.Machine State Action where
  Initial s := s = initial
  Enabled := Enabled
  next := next

instance (s : State) (a : Action) : Decidable (machine.Enabled s a) :=
  inferInstanceAs (Decidable (Enabled s a))

end Ulockmgr.Owner
