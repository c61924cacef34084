import Ulockmgr.Owner

/-!
# Clients and an owner

The calls of `RawLockable` on the side of the clients, interleaved with the owner process:
`get_lock` and `set_lock_nonblocking` read one reply, `set_lock_blocking` waits for a second
one and asks the owner to interrupt its worker when a signal ends the wait.  Requests
reach the owner in the order in which they are sent, whole and with the reply endpoint they
came with, which is what the request channel guarantees; replies are read from the bytes of
the endpoint.
-/

namespace Ulockmgr.System

open Owner (RequestId)

abbrev CallId := Nat

/-- What a call returns. -/
abbrev Returned := Except IoError LockParams

/-- Where a call is. -/
inductive Pc where
  | idle
  /-- Waiting for the first reply. -/
  | first
  /-- At the head of the loop of `set_lock_blocking`. -/
  | waiting
  | sendInterrupt
  | awaitInterrupt (x : RequestId)
  /-- In the destructor of `Interruptable`. -/
  | sendRemove (result : Returned)
  | awaitRemove (x : RequestId) (result : Returned)
  | returned (result : Returned)
  deriving DecidableEq

structure Call where
  id : UInt64
  action : LockAction
  params : LockParams
  pc : Pc
  /-- The reply endpoint of the request, once it is sent. -/
  endpoint : Option RequestId
  /-- The ID of the `Interruptable`. -/
  interruptId : UInt64
  interrupted : Bool
  /-- The endpoints of the `Interrupt` requests of the call. -/
  interrupts : List RequestId
  deriving DecidableEq

def Call.idle : Call :=
  ⟨0, .getLockStatus, ⟨.unlock, .start, 0, 0, 0⟩, .idle, none, 0, false, []⟩

def Call.message (call : Call) : Message := .lockCommand call.id call.action call.params

/-- Who reads the replies to a request. -/
inductive Sender where
  | other
  | lock (c : CallId)
  | interrupt (c : CallId)
  | remove (c : CallId)
  deriving DecidableEq

structure State where
  owner : Owner.State
  /-- The requests on their way to the owner. -/
  inbox : List (RequestId × Message)
  /-- The number of requests that were sent. -/
  sent : RequestId
  sender : RequestId → Sender
  call : CallId → Call
  /-- The number of calls that were made. -/
  calls : CallId

def initial : State where
  owner := Owner.initial
  inbox := []
  sent := 0
  sender := fun _ => .other
  call := fun _ => Call.idle
  calls := 0

namespace State

@[simps] def setOwner (s : State) (owner : Owner.State) : State := { s with owner := owner }

@[simps] def setCall (s : State) (c : CallId) (call : Call) : State :=
  { s with call := fun x => if x = c then call else s.call x }

/-- A request is sent, and its replies go to `sender`. -/
@[simps] def post (s : State) (sender : Sender) (message : Message) : State :=
  { s with
    inbox := s.inbox ++ [(s.sent, message)]
    sent := s.sent + 1
    sender := fun x => if x = s.sent then sender else s.sender x }

attribute [grind =] setOwner_owner setOwner_inbox setOwner_sent setOwner_sender setOwner_call
  setOwner_calls setCall_owner setCall_inbox setCall_sent setCall_sender setCall_call
  setCall_calls post_owner post_inbox post_sent post_sender post_call post_calls

/-- What a read of the replies to `e` returns, unless it waits. -/
def fetched (s : State) (kind : ReplyKind) (e : RequestId) (signal : Bool) :
    Option (Option Fetched) :=
  match nextReply kind (s.owner.request e).stream signal with
  | .returns item _ => some item
  | _ => none

/-- The bytes such a read takes off the socket. -/
def fetch (s : State) (e : RequestId) (signal : Bool) : State :=
  s.setOwner (Owner.next s.owner (.fetch e signal))

end State

/-! ## Steps -/

inductive Action where
  /-- A step of the owner other than the receipt of a request. -/
  | owner (a : Owner.Action)
  /-- The owner receives the request at the head of the queue. -/
  | deliver
  /-- Another client thread sends a request. -/
  | send (message : Message)
  | call (id : UInt64) (action : LockAction) (params : LockParams)
  /-- The signals cannot be blocked, or the request cannot be sent. -/
  | callFails (id : UInt64) (action : LockAction) (params : LockParams) (error : IoError)
  | firstReply (c : CallId)
  /-- `iterator.next()` in the loop; `signal` tells whether `SIGUSR1` comes while it waits. -/
  | wait (c : CallId) (signal : Bool)
  | unblockFails (c : CallId) (errno : Errno)
  | sendInterrupt (c : CallId)
  | interruptReply (c : CallId)
  | sendRemove (c : CallId)
  | removeReply (c : CallId)

/-- The steps the owner takes by itself. -/
def Internal : Owner.Action → Bool
  | .recv _ _ | .fetch _ _ => false
  | _ => true

/-- The requests that are not part of a lock call. -/
def Plain : Message → Bool
  | .ping | .register _ | .unregister _ => true
  | .interrupt _ | .removeInterrupt _ | .lockCommand _ _ _ => false

def Enabled (s : State) : Action → Prop
  | .owner a => Internal a ∧ Owner.Enabled s.owner a
  | .deliver => ∃ e message rest, s.inbox = (e, message) :: rest ∧
      Owner.Enabled s.owner (.recv e message)
  | .send message => Plain message
  | .call _ _ _ | .callFails _ _ _ _ => True
  | .firstReply c => (s.call c).pc = .first ∧ ∃ e, (s.call c).endpoint = some e ∧
      (s.fetched .lockCommand e false).isSome
  | .wait c signal => (s.call c).pc = .waiting ∧ (signal = true → (s.call c).interrupted = false) ∧
      ∃ e, (s.call c).endpoint = some e ∧ (s.fetched .lockCommand e signal).isSome
  | .unblockFails c _ => (s.call c).pc = .waiting ∧ (s.call c).interrupted = false
  | .sendInterrupt c => (s.call c).pc = .sendInterrupt
  | .interruptReply c => ∃ x, (s.call c).pc = .awaitInterrupt x ∧ (s.fetched .unit x false).isSome
  | .sendRemove c => ∃ result, (s.call c).pc = .sendRemove result
  | .removeReply c => ∃ x result, (s.call c).pc = .awaitRemove x result ∧
      (s.fetched .unit x false).isSome

instance (s : State) (a : Action) : Decidable (Enabled s a) := by
  cases a with
  | deliver =>
      match queue : s.inbox with
      | [] => exact isFalse (by simp [Enabled, queue])
      | (e, message) :: rest =>
          exact decidable_of_iff (Owner.Enabled s.owner (.recv e message)) (by simp [Enabled, queue])
  | firstReply c =>
      match sent : (s.call c).endpoint with
      | none => exact isFalse (by simp [Enabled, sent])
      | some e =>
          exact decidable_of_iff
            ((s.call c).pc = .first ∧ (s.fetched .lockCommand e false).isSome)
            (by simp [Enabled, sent])
  | wait c signal =>
      match sent : (s.call c).endpoint with
      | none => exact isFalse (by simp [Enabled, sent])
      | some e =>
          exact decidable_of_iff
            ((s.call c).pc = .waiting ∧ (signal = true → (s.call c).interrupted = false) ∧
              (s.fetched .lockCommand e signal).isSome) (by simp [Enabled, sent])
  | interruptReply c =>
      match place : (s.call c).pc with
      | .awaitInterrupt x =>
          exact decidable_of_iff ((s.fetched .unit x false).isSome) (by simp [Enabled, place])
      | .idle | .first | .waiting | .sendInterrupt | .sendRemove _ | .awaitRemove _ _
      | .returned _ => exact isFalse (by simp [Enabled, place])
  | sendRemove c =>
      match place : (s.call c).pc with
      | .sendRemove result => exact isTrue ⟨result, place⟩
      | .idle | .first | .waiting | .sendInterrupt | .awaitInterrupt _ | .awaitRemove _ _
      | .returned _ => exact isFalse (by simp [Enabled, place])
  | removeReply c =>
      match place : (s.call c).pc with
      | .awaitRemove x result =>
          exact decidable_of_iff ((s.fetched .unit x false).isSome) (by simp [Enabled, place])
      | .idle | .first | .waiting | .sendInterrupt | .awaitInterrupt _ | .sendRemove _
      | .returned _ => exact isFalse (by simp [Enabled, place])
  | _ => unfold Enabled; infer_instance

/-- `??` on the result of a lock command. -/
def lockData (item : Fetched) : Except IoError ReplyLockCommandData :=
  match item with
  | .error error => .error error
  | .ok (.error error) => .error error
  | .ok (.ok (.lockCommand data, _)) => .ok data
  -- no value of the reply type of a lock command
  | .ok (.ok (.unit, _)) | .ok (.ok (.register _, _)) => .error (.custom .invalidData "")

def connectionClosed (caller : String) : IoError :=
  .custom .brokenPipe (caller ++ ": connection is closed")

def pendingTwice : IoError :=
  .custom .invalidData "setlkw should not return a pending operation twice"

/-- The message of `get_lock` or `set_lock_nonblocking` for a pending operation. -/
def notPending : LockAction → IoError
  | .getLockStatus => .custom .invalidData "getlk should not return a pending operation"
  | .setLockNonBlocking | .setLockBlocking =>
      .custom .invalidData "setlk should not return a pending operation"

/-- `get_lock` and `set_lock_nonblocking` with their reply. -/
def oneReply (call : Call) (item : Option Fetched) : Call :=
  match item with
  | none => { call with pc := .returned (.error (connectionClosed "send_request")) }
  | some item =>
      match lockData item with
      | .error error => { call with pc := .returned (.error error) }
      | .ok (.done params) => { call with pc := .returned (.ok params) }
      | .ok (.pending _) => { call with pc := .returned (.error (notPending call.action)) }

/-- `set_lock_blocking` with its first reply. -/
def firstOfTwo (call : Call) (item : Option Fetched) : Call :=
  match item with
  | none => { call with pc := .returned (.error (connectionClosed "set_lock_blocking")) }
  | some item =>
      match lockData item with
      | .error error => { call with pc := .returned (.error error) }
      | .ok (.done params) => { call with pc := .returned (.ok params) }
      | .ok (.pending id) => { call with pc := .waiting, interruptId := id }

/-- A call with its first reply. -/
def gotFirst (call : Call) (item : Option Fetched) : Call :=
  match call.action with
  | .getLockStatus | .setLockNonBlocking => oneReply call item
  | .setLockBlocking => firstOfTwo call item

/-- `set_lock_blocking` with what ended a wait.  Only an error of the read itself can mean
that the wait was interrupted; an error inside of a reply is the result. -/
def gotNext (call : Call) (item : Option Fetched) : Call :=
  match item with
  | none => { call with pc := .sendRemove (.error (connectionClosed "set_lock_blocking")) }
  | some (.error error) =>
      if error.kind = .interrupted then { call with pc := .sendInterrupt, interrupted := true }
      else { call with pc := .sendRemove (.error error) }
  | some (.ok item) =>
      match lockData (.ok item) with
      | .error error => { call with pc := .sendRemove (.error error) }
      | .ok (.done params) => { call with pc := .sendRemove (.ok params) }
      | .ok (.pending _) => { call with pc := .sendRemove (.error pendingTwice) }

/-- `set_lock_blocking` with the answer to its `Interrupt` request. -/
def gotInterrupt (call : Call) (item : Option Fetched) : Call :=
  match item with
  | none => { call with pc := .sendRemove (.error (connectionClosed "send_request")) }
  | some (.error error) | some (.ok (.error error)) => { call with pc := .sendRemove (.error error) }
  | some (.ok (.ok _)) => { call with pc := .waiting }

def newCall (id : UInt64) (action : LockAction) (params : LockParams) : Call :=
  { Call.idle with id := id, action := action, params := params }

def next (s : State) : Action → State
  | .owner a => s.setOwner (Owner.next s.owner a)
  | .deliver =>
      match s.inbox with
      | [] => s
      | (e, message) :: rest =>
          { s.setOwner (Owner.next s.owner (.recv e message)) with inbox := rest }
  | .send message => s.post .other message
  | .call id action params =>
      let call := newCall id action params
      { (s.post (.lock s.calls) call.message).setCall s.calls
          { call with pc := .first, endpoint := some s.sent } with calls := s.calls + 1 }
  | .callFails id action params error =>
      { s.setCall s.calls { newCall id action params with pc := .returned (.error error) } with
        calls := s.calls + 1 }
  | .firstReply c =>
      match (s.call c).endpoint with
      | none => s
      | some e =>
          match s.fetched .lockCommand e false with
          | none => s
          | some item => (s.fetch e false).setCall c (gotFirst (s.call c) item)
  | .wait c signal =>
      match (s.call c).endpoint with
      | none => s
      | some e =>
          match s.fetched .lockCommand e signal with
          | none => s
          | some item => (s.fetch e signal).setCall c (gotNext (s.call c) item)
  | .unblockFails c errno =>
      s.setCall c { s.call c with pc := .sendRemove (.error (.os errno)) }
  | .sendInterrupt c =>
      (s.post (.interrupt c) (.interrupt (s.call c).interruptId)).setCall c
        { s.call c with
          pc := .awaitInterrupt s.sent, interrupts := (s.call c).interrupts ++ [s.sent] }
  | .interruptReply c =>
      match (s.call c).pc with
      | .awaitInterrupt x =>
          match s.fetched .unit x false with
          | none => s
          | some item => (s.fetch x false).setCall c (gotInterrupt (s.call c) item)
      | _ => s
  | .sendRemove c =>
      match (s.call c).pc with
      | .sendRemove result =>
          (s.post (.remove c) (.removeInterrupt (s.call c).interruptId)).setCall c
            { s.call c with pc := .awaitRemove s.sent result }
      | _ => s
  | .removeReply c =>
      match (s.call c).pc with
      | .awaitRemove x result => (s.fetch x false).setCall c { s.call c with pc := .returned result }
      | _ => s

-- every proof below unfolds the two: their equations are generated here, once
section
attribute [local simp] Enabled next
end

def machine : Transition.Machine State Action where
  Initial s := s = initial
  Enabled := Enabled
  next := next

instance (s : State) (a : Action) : Decidable (machine.Enabled s a) :=
  inferInstanceAs (Decidable (Enabled s a))

end Ulockmgr.System
