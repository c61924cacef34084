import Mathlib.Data.UInt
import Ulockmgr.Library.Machine
import Ulockmgr.Owner.ExitLock

/-!
# The lock manager

`LockManager::get_or_create_owner`, `LockManager::register` and the cleanup
thread of `lib.rs`, for any number of concurrent calls, over the owner processes
they talk to.  Each `DashMap` operation is one step, the spawn request inside
`or_try_insert_with` included, since the entry stays locked around it; the
cleanup pass handles one entry per step.  A ping fails exactly when the process
is gone.  An owner whose exit flag is set but whose process is still there keeps
answering its socket.
-/

namespace Ulockmgr.Manager

open Owner (ExitLock)

abbrev OwnerId := UInt64
abbrev Process := Nat
abbrev CallId := Nat

/-- An owner process.  A client `Owner` is one end of the socket of one process,
so `Arc<Owner>` values are named after their process. -/
structure Proc where
  born : Bool
  alive : Bool
  /-- The ID it was spawned for. -/
  ownerId : OwnerId
  exitLock : ExitLock

def Proc.unborn : Proc := ⟨false, false, 0, ExitLock.new⟩

inductive CallKind where
  | getOrCreateOwner
  | register
  deriving DecidableEq, Repr

inductive Pc where
  | idle
  | lookup
  | entry
  | ping
  | remove
  | registerSend
  | registerWait
  | registerCheck
  | returned
  deriving DecidableEq, Repr

structure Call where
  pc : Pc
  kind : CallKind
  ownerId : OwnerId
  /-- `ttl == Duration::from_secs(0)`. -/
  zeroTtl : Bool
  newOwner : Bool
  owner : Process
  /-- The error of the last `owner.register`. -/
  error : IoError
  result : Option (Except IoError Process)

def Call.idle : Call :=
  ⟨.idle, .getOrCreateOwner, 0, false, false, 0, .os 0, none⟩

structure State where
  owners : OwnerId → Option Process
  process : Process → Proc
  call : CallId → Call
  /-- The registrations that were answered `Ok`. -/
  lockables : List (OwnerId × Process)

def initial : State := ⟨fun _ => none, fun _ => Proc.unborn, fun _ => Call.idle, []⟩

namespace State

def setOwner (s : State) (id : OwnerId) (owner : Option Process) : State :=
  { s with owners := Function.update s.owners id owner }

def setProcess (s : State) (p : Process) (proc : Proc) : State :=
  { s with process := Function.update s.process p proc }

def setCall (s : State) (c : CallId) (call : Call) : State :=
  { s with call := Function.update s.call c call }

section
variable (s : State) (id : OwnerId) (owner : Option Process) (p : Process) (proc : Proc)
  (c : CallId) (call : Call)

@[simp, grind =] theorem setOwner_owners (x : OwnerId) :
    (s.setOwner id owner).owners x = if x = id then owner else s.owners x := by
  simp [setOwner, Function.update_apply]

@[simp, grind =] theorem setOwner_process (x : Process) :
    (s.setOwner id owner).process x = s.process x := rfl
@[simp, grind =] theorem setOwner_call (x : CallId) :
    (s.setOwner id owner).call x = s.call x := rfl
@[simp, grind =] theorem setOwner_lockables : (s.setOwner id owner).lockables = s.lockables := rfl

@[simp, grind =] theorem setProcess_process (x : Process) :
    (s.setProcess p proc).process x = if x = p then proc else s.process x := by
  simp [setProcess, Function.update_apply]

@[simp, grind =] theorem setProcess_owners (x : OwnerId) :
    (s.setProcess p proc).owners x = s.owners x := rfl
@[simp, grind =] theorem setProcess_call (x : CallId) :
    (s.setProcess p proc).call x = s.call x := rfl
@[simp, grind =] theorem setProcess_lockables :
    (s.setProcess p proc).lockables = s.lockables := rfl

@[simp, grind =] theorem setCall_call (x : CallId) :
    (s.setCall c call).call x = if x = c then call else s.call x := by
  simp [setCall, Function.update_apply]

@[simp, grind =] theorem setCall_owners (x : OwnerId) :
    (s.setCall c call).owners x = s.owners x := rfl
@[simp, grind =] theorem setCall_process (x : Process) :
    (s.setCall c call).process x = s.process x := rfl
@[simp, grind =] theorem setCall_lockables : (s.setCall c call).lockables = s.lockables := rfl

end

/-- `owner.ping().is_ok()`. -/
abbrev Answers (s : State) (p : Process) : Prop := (s.process p).alive = true

end State

/-! ## Steps -/

inductive Action where
  | start (c : CallId) (kind : CallKind) (id : OwnerId) (zeroTtl : Bool)
  | lookup (c : CallId)
  /-- `entry(owner_id).or_try_insert_with(..)`; `p` is the process a spawn request
  would be answered with. -/
  | entry (c : CallId) (p : Process)
  | entryFails (c : CallId) (error : IoError)
  | ping (c : CallId)
  | remove (c : CallId)
  | registerSend (c : CallId)
  /-- The receiving loop of the owner reads and answers the `Register` message. -/
  | registerAnswer (c : CallId)
  /-- The process went away with the message unanswered. -/
  | registerLost (c : CallId)
  | registerCheck (c : CallId)
  /-- The `Lockable` that call `c` returned is dropped and unregistered. -/
  | drop (c : CallId)
  /-- The cleanup pass reaches the entry of `id`. -/
  | retain (id : OwnerId)
  /-- The TTL loop of the owner calls `try_exit`. -/
  | tryExit (p : Process)
  /-- The process ends. -/
  | vanish (p : Process)

def Enabled (s : State) : Action → Prop
  | .start c kind _ zeroTtl =>
      (s.call c).pc = .idle ∧ (kind = .register → zeroTtl = false)
  | .lookup c => (s.call c).pc = .lookup
  | .entry c p => (s.call c).pc = .entry ∧ (s.process p).born = false
  | .entryFails c _ => (s.call c).pc = .entry ∧ s.owners (s.call c).ownerId = none
  | .ping c => (s.call c).pc = .ping
  | .remove c => (s.call c).pc = .remove
  | .registerSend c => (s.call c).pc = .registerSend
  | .registerAnswer c => (s.call c).pc = .registerWait ∧ s.Answers (s.call c).owner
  | .registerLost c => (s.call c).pc = .registerWait ∧ ¬ s.Answers (s.call c).owner
  | .registerCheck c => (s.call c).pc = .registerCheck
  | .drop c => (s.call c).pc = .returned
  | .retain _ => True
  | .tryExit p => (s.process p).alive = true
  | .vanish p => (s.process p).alive = true

instance (s : State) (a : Action) : Decidable (Enabled s a) := by
  cases a <;> unfold Enabled <;> infer_instance

/-- The end of the loop body of `get_or_create_owner`: `break Ok(owner)`. -/
def Call.ownerFound (call : Call) : Call :=
  match call.kind with
  | .getOrCreateOwner => { call with pc := .returned, result := some (.ok call.owner) }
  | .register => { call with pc := .registerSend }

/-- `handle_fd_register` as the exit lock sees it, answered over the wire. -/
def registerReply (lock : ExitLock) (reader : Nat) : Except IoError ExitLock :=
  (ioCvt (lock.acquire reader)).mapError IoError.fromRawOsError

def next (s : State) : Action → State
  | .start c kind id zeroTtl =>
      s.setCall c { Call.idle with pc := .lookup, kind := kind, ownerId := id, zeroTtl := zeroTtl }
  | .lookup c =>
      match s.owners (s.call c).ownerId with
      | some p => s.setCall c { s.call c with pc := .ping, owner := p }
      | none => s.setCall c { s.call c with pc := .entry }
  | .entry c p =>
      match s.owners (s.call c).ownerId with
      | some q => s.setCall c { s.call c with pc := .ping, owner := q }
      | none =>
          ((s.setProcess p ⟨true, true, (s.call c).ownerId, ExitLock.new⟩).setOwner
            (s.call c).ownerId (some p)).setCall c
              { s.call c with pc := .ping, owner := p, newOwner := true }
  | .entryFails c error =>
      s.setCall c { s.call c with pc := .returned, result := some (.error error) }
  | .ping c =>
      let call := s.call c
      if ¬(call.zeroTtl = true ∧ call.newOwner = true) ∧ ¬ s.Answers call.owner then
        s.setCall c { call with pc := .remove }
      else s.setCall c call.ownerFound
  | .remove c =>
      (s.setOwner (s.call c).ownerId none).setCall c { s.call c with pc := .lookup }
  | .registerSend c =>
      if s.Answers (s.call c).owner then s.setCall c { s.call c with pc := .registerWait }
      else s.setCall c { s.call c with pc := .registerCheck, error := .os Errno.PIPE }
  | .registerAnswer c =>
      let call := s.call c
      let proc := s.process call.owner
      match registerReply proc.exitLock c with
      | .ok lock =>
          { (s.setProcess call.owner { proc with exitLock := lock }).setCall c
              { call with pc := .returned, result := some (.ok call.owner) } with
            lockables := (call.ownerId, call.owner) :: s.lockables }
      | .error error => s.setCall c { call with pc := .registerCheck, error := error }
  | .registerLost c =>
      s.setCall c
        { s.call c with
          pc := .registerCheck
          error := .custom .brokenPipe "send_request: connection is closed" }
  | .registerCheck c =>
      let call := s.call c
      if call.error.kind = .brokenPipe ∧ ¬ s.Answers call.owner then
        -- the next iteration calls get_or_create_owner afresh
        s.setCall c { call with pc := .lookup, newOwner := false }
      else s.setCall c { call with pc := .returned, result := some (.error call.error) }
  | .drop c =>
      let proc := s.process (s.call c).owner
      s.setProcess (s.call c).owner { proc with exitLock := proc.exitLock.release c }
  | .retain id =>
      match s.owners id with
      | some p => if s.Answers p then s else s.setOwner id none
      | none => s
  | .tryExit p =>
      match (s.process p).exitLock.tryExit with
      | .ok lock => s.setProcess p { s.process p with exitLock := lock }
      | .error _ => s
  | .vanish p => s.setProcess p { s.process p with alive := false }

-- every proof below unfolds the two: their equations are generated here, once
section
attribute [local simp] Enabled next
end

def machine : Transition.Machine State Action where
  Initial s := s = initial
  Enabled := Enabled
  next := next

instance (s : State) (a : Action) : Decidable (machine.Enabled s a) :=
  inferInstanceAs (Decidable (Enabled s a))

end Ulockmgr.Manager
