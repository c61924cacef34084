import Ulockmgr.Library.SystemCalls
import Ulockmgr.System

/-!
# Signal masks

The guards of `helpers.rs`, and the functions of `owner.rs` that use them, as programs that make
system calls under the signal mask of their thread.  The client's functions send requests and
read replies; the worker of an owner locks and replies.  A guard that cannot be set up makes
its function return the error, and dropping a guard puts the old mask back.
-/

namespace Ulockmgr.Masks

open SystemCalls (Prog World)
open System (connectionClosed notPending pendingTwice)

abbrev Signal := Nat

def SIGKILL : Signal := 9
def SIGUSR1 : Signal := 10
def SIGSTOP : Signal := 19

/-- The mask of a thread; two signals cannot be blocked. -/
@[ext] structure Mask where
  blocked : Signal → Bool
  kill : blocked SIGKILL = false
  stop : blocked SIGSTOP = false

namespace Mask

/-- `pthread_sigmask(SIG_BLOCK, SigSet::all())`, whatever was blocked before. -/
def all : Mask := ⟨fun sig => sig != SIGKILL && sig != SIGSTOP, rfl, rfl⟩

/-- `pthread_sigmask(SIG_UNBLOCK, sig)`. -/
def unblock (mask : Mask) (sig : Signal) : Mask :=
  ⟨fun other => mask.blocked other && other != sig, by simp [mask.kill], by simp [mask.stop]⟩

end Mask

/-! ## Calls and answers -/

/-- The system calls that matter here: those that can wait, and the change of the mask. -/
inductive Call where
  | sigmask
  | dup
  | send (request : Message)
  /-- `ReplyIterator::next` on the reply socket of the request. -/
  | receive (request : Message)
  | setlk
  | setlkw
  | reply
  deriving DecidableEq

/-- How a call comes out, in the field of its kind. -/
structure Answer where
  sigmask : Except Errno Unit
  dup : Except IoError Unit
  send : Except IoError Unit
  item : Option Fetched
  fcntl : Except Errno Unit

abbrev Program (α : Type) := Prog Mask Call Answer IoError α

def ofErrno : Except Errno Unit → Program Unit
  | .ok () => pure ()
  | .error errno => Prog.fail (.os errno)

def ofResult {α : Type} : Except IoError α → Program α
  | .ok value => pure value
  | .error error => Prog.fail error

/-- `let _restore = helpers::block_all_signals()?` for the rest of the function. -/
def blockAllSignals {α : Type} (body : Program α) : Program α := do
  let answer ← Prog.call .sigmask
  ofErrno answer.sigmask
  Prog.guarded (fun _ => Mask.all) body

/-- `let _restore = helpers::unblock_signal(sig)?` for the rest of the block. -/
def unblockSignal {α : Type} (sig : Signal) (body : Program α) : Program α := do
  let answer ← Prog.call .sigmask
  ofErrno answer.sigmask
  Prog.guarded (fun mask => mask.unblock sig) body

/-! ## The client -/

def sendRequestIter (request : Message) : Program Unit := do
  let answer ← Prog.call (.send request)
  ofResult answer.send

def nextItem (request : Message) : Program (Option Fetched) := do
  let answer ← Prog.call (.receive request)
  return answer.item

/-- `ok_or_else` and the two question marks behind it. -/
def flatten (caller : String) : Option Fetched → Program ReplyData
  | none => Prog.fail (connectionClosed caller)
  | some (.error error) => Prog.fail error
  | some (.ok (.error error)) => Prog.fail error
  | some (.ok (.ok (data, _))) => return data

/-- `messages::send_request` with both question marks. -/
def sendRequest (request : Message) : Program ReplyData := do
  sendRequestIter request
  flatten "send_request" (← nextItem request)

def ping : Program Unit := blockAllSignals do
  let _ ← sendRequest .ping
  return ()

/-- `Owner::register`, which returns the ID of the new `Lockable`. -/
def register (fd : Fd) : Program UInt64 := blockAllSignals do
  let answer ← Prog.call .dup
  ofResult answer.dup
  match ← sendRequest (.register fd) with
  | .register id => return id
  | _ => Prog.fail (.custom .invalidData "")

/-- The reply to a lock command that is not to be pending; data of another type does not decode. -/
def doneOnly (unexpected : IoError) : ReplyData → Program LockParams
  | .lockCommand (.done params) => return params
  | .lockCommand (.pending _) => Prog.fail unexpected
  | _ => Prog.fail (.custom .invalidData "")

def getLock (id : UInt64) (params : LockParams) : Program LockParams := blockAllSignals do
  let data ← sendRequest (.lockCommand id .getLockStatus params)
  doneOnly (notPending .getLockStatus) data

def setLockNonblocking (id : UInt64) (params : LockParams) : Program LockParams :=
  blockAllSignals do
    let data ← sendRequest (.lockCommand id .setLockNonBlocking params)
    doneOnly (notPending .setLockNonBlocking) data

/-- The loop of `RawLockable::set_lock_blocking` behind a pending reply, for at most `fuel` turns. -/
def waitLoop (request : Message) (pending : UInt64) : Nat → Bool → Program LockParams
  | 0, _ => Prog.running
  | fuel + 1, interrupted => do
      let item ←
        if interrupted then nextItem request else unblockSignal SIGUSR1 (nextItem request)
      match item with
      | some (.error error) =>
          if error.kind = .interrupted then do
            let _ ← sendRequest (.interrupt pending)
            waitLoop request pending fuel true
          else Prog.fail error
      | item =>
          doneOnly pendingTwice (← flatten "set_lock_blocking" item)

/-- `RawLockable::set_lock_blocking`. -/
def setLockBlocking (id : UInt64) (params : LockParams) (fuel : Nat) : Program LockParams :=
  blockAllSignals do
    let request := .lockCommand id .setLockBlocking params
    sendRequestIter request
    match ← flatten "set_lock_blocking" (← nextItem request) with
    | .lockCommand (.done params) => return params
    | .lockCommand (.pending pending) =>
        -- `Interruptable` is dropped before the outer guard
        Prog.dropping (waitLoop request pending fuel false) (sendRequest (.removeInterrupt pending))
    | _ => Prog.fail (.custom .invalidData "")

/-! ## The worker of an owner -/

/-- `set_lock_blocking` of the owner; what its replies say is modelled with the owner. -/
def workerSetLockBlocking : Program Unit := do
  let answer ← Prog.call .sigmask
  match answer.sigmask with
  | .error _ =>
      let _ ← Prog.call .reply
      return ()
  | .ok () =>
      Prog.guarded (fun _ => Mask.all) do
        let _ ← Prog.call .setlk
        -- granted, pending or failed: one reply, and the wait in each case
        let _ ← Prog.call .reply
        let answer ← Prog.call .sigmask
        match answer.sigmask with
        | .error _ =>
            let _ ← Prog.call .reply
            return ()
        | .ok () =>
            let _ ← Prog.guarded (fun mask => mask.unblock SIGUSR1) (Prog.call .setlkw)
            let _ ← Prog.call .reply
            return ()

end Ulockmgr.Masks
