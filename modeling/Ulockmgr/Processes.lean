import Ulockmgr.Library.Descriptors
import Ulockmgr.Library.Machine

/-!
# Processes and the sockets they inherit

`spawn_coordinator_process` and `spawn_owner_process` of `processes.rs` step by step, with
`hydrate_forked_fd` at the start of the new process.  The two differ in the program and its
arguments only.  Next to them the client makes reply sockets, requests and replies
carry ends of sockets from one process to another, other threads of the client fork and
execute programs of their own, and every process may exit at any time.  The sockets of
this library are the only files that are modelled, and a free number is any number that has none.
-/

namespace Ulockmgr.Processes

open Descriptors (Entry Table)

abbrev Pid := Nat
abbrev RawFd := Nat

/-- A socket pair, by the order of creation. -/
abbrev Socket := Nat

inductive End where
  | parent (x : Socket)
  | child (x : Socket)
  deriving DecidableEq, Repr

def End.socket : End → Socket
  | .parent x | .child x => x

inductive Mode where
  | coordinator
  | owner
  deriving DecidableEq, Repr

/-- What a process executes. -/
inductive Program where
  | unborn
  /-- The file system that uses the library. -/
  | client
  /-- The child of a spawn before `execve`; the hook has run when `cleared` is set. -/
  | forked (x : Socket) (cleared : Bool)
  /-- The server binary before `hydrate_forked_fd`, with the number on its command line. -/
  | started (x : Socket) (fd : RawFd)
  | server (x : Socket)
  /-- A child of the client that another thread has forked. -/
  | copy
  /-- The program such a child executes. -/
  | foreign
  | exited
  deriving DecidableEq, Repr

/-- The processes whose threads run this library. -/
def Program.Running : Program → Prop
  | .client | .server _ => True
  | _ => False

instance (program : Program) : Decidable program.Running := by
  cases program <;> unfold Program.Running <;> infer_instance

/-- Between `fork` and `execve`. -/
def Program.Forked : Program → Prop
  | .forked _ _ | .copy => True
  | _ => False

instance (program : Program) : Decidable program.Forked := by
  cases program <;> unfold Program.Forked <;> infer_instance

/-- The process created by the spawn with this socket, while it lives. -/
def Program.Serves (x : Socket) : Program → Prop
  | .forked y _ | .started y _ | .server y => y = x
  | _ => False

instance (x : Socket) (program : Program) : Decidable (program.Serves x) := by
  cases program <;> unfold Program.Serves <;> infer_instance

/-- The points of a spawn. -/
inductive Pc where
  | idle
  /-- The sockets exist. -/
  | paired
  /-- In `command.spawn()`, with a child. -/
  | forked
  /-- In front of `waitpid`. -/
  | spawned
  /-- In front of `drop(child_fd)`. -/
  | waited
  | returned
  | failed
  deriving DecidableEq, Repr

/-- Both descriptors are still local variables of the call. -/
def Pc.Active : Pc → Prop
  | .paired | .forked | .spawned | .waited => True
  | _ => False

instance (pc : Pc) : Decidable pc.Active := by
  cases pc <;> unfold Pc.Active <;> infer_instance

structure Call where
  mode : Mode
  process : Pid
  parentFd : RawFd
  childFd : RawFd
  pc : Pc
  spawned : Option Pid
  deriving DecidableEq, Repr

def Call.idle : Call := ⟨.owner, 0, 0, 0, .idle, none⟩

structure State where
  program : Pid → Program
  table : Pid → Table End
  call : Socket → Call
  /-- The ends inside messages that nobody has received. -/
  flight : End → Bool
  used : Socket → Bool

/-- Any number of clients, and no sockets. -/
structure Initial (s : State) : Prop where
  program : ∀ p, s.program p = .client ∨ s.program p = .unborn
  table : ∀ p, s.table p = Table.empty
  call : ∀ x, s.call x = Call.idle
  flight : ∀ e, s.flight e = false
  used : ∀ x, s.used x = false

inductive Action where
  /-- The reply socket of `send_request_iter_with_fds`. -/
  | replySocket (p : Pid) (x : Socket) (n m : RawFd)
  /-- `socketpair` in `spawn_coordinator_process` or `spawn_owner_process`. -/
  | socketpair (mode : Mode) (p : Pid) (x : Socket) (n m : RawFd)
  | fork (x : Socket) (q : Pid)
  /-- The hook of `clear_cloexec_in_pre_exec`, in the child. -/
  | preExec (x : Socket) (q : Pid)
  | execve (x : Socket) (q : Pid)
  /-- `command.spawn()` returns. -/
  | spawn (x : Socket) (q : Pid) (ok : Bool)
  | waitpid (x : Socket) (ok : Bool)
  | dropChildFd (x : Socket)
  | hydrateForkedFd (x : Socket) (q : Pid) (fd : RawFd)
  /-- A message carries the descriptor away, and the sender drops it. -/
  | send (p : Pid) (n : RawFd) (e : End)
  | receive (p : Pid) (n : RawFd) (e : End)
  /-- A message is not received, or its descriptors do not fit. -/
  | lose (e : End)
  | close (p : Pid) (n : RawFd) (e : End)
  /-- Another thread of the client forks. -/
  | forkOther (p q : Pid)
  | execOther (q : Pid)
  | exit (p : Pid)
  deriving DecidableEq

namespace State

/-- The numbers for a new pair are free. -/
def Vacant (s : State) (p : Pid) (n m : RawFd) : Prop :=
  n ≠ m ∧ s.table p n = none ∧ s.table p m = none

/-- The process that makes the call is still there. -/
def Runs (s : State) (x : Socket) : Prop := (s.program (s.call x).process).Running

/-- Nobody but its spawn drops a descriptor of a spawn, and a server keeps its own socket. -/
def Free (s : State) (p : Pid) (e : End) : Prop :=
  ¬ ((s.call e.socket).pc.Active ∧ (s.call e.socket).process = p) ∧
    ¬ (s.program p = .server e.socket ∧ e = .child e.socket)

/-- The client spawns the coordinator, and the coordinator the owners. -/
def Spawns (s : State) (p : Pid) : Mode → Prop
  | .coordinator => s.program p = .client
  | .owner => match s.program p with
      | .server y => (s.call y).mode = .coordinator
      | _ => False

/-- Requests take a reply socket to a server, and replies an owner's socket to the client. -/
def Passes (s : State) (sender : Bool) (p : Pid) (e : End) : Prop :=
  match s.program p, e with
  | .client, .child _ => sender = true
  | .client, .parent _ => sender = false
  | .server _, .parent _ => sender = true
  | .server _, .child _ => sender = false
  | _, _ => False

instance (s : State) (p : Pid) (n m : RawFd) : Decidable (s.Vacant p n m) :=
  inferInstanceAs (Decidable (_ ∧ _ ∧ _))

instance (s : State) (x : Socket) : Decidable (s.Runs x) :=
  inferInstanceAs (Decidable (Program.Running _))

instance (s : State) (p : Pid) (e : End) : Decidable (s.Free p e) :=
  inferInstanceAs (Decidable (_ ∧ _))

instance (s : State) (p : Pid) (mode : Mode) : Decidable (s.Spawns p mode) := by
  cases mode <;> unfold Spawns <;> cases s.program p <;> infer_instance

instance (s : State) (sender : Bool) (p : Pid) (e : End) : Decidable (s.Passes sender p e) := by
  unfold Passes
  cases s.program p <;> cases e <;> infer_instance

end State

def Enabled (s : State) : Action → Prop
  | .replySocket p x n m => s.program p = .client ∧ s.used x = false ∧ s.Vacant p n m
  | .socketpair mode p x n m => s.Spawns p mode ∧ s.used x = false ∧ s.Vacant p n m
  | .fork x q => s.Runs x ∧ (s.call x).pc = .paired ∧ s.program q = .unborn
  | .preExec x q => s.program q = .forked x false ∧ (s.table q (s.call x).childFd).isSome = true
  | .execve x q => s.program q = .forked x true
  -- the call fails without a child, or when the child has reported an error and is gone
  | .spawn x q ok => s.Runs x ∧
      ((s.call x).pc = .forked ∧ (s.call x).spawned = some q ∧ ¬ (s.program q).Forked ∧
          (ok = false → s.program q = .exited) ∨
        (s.call x).pc = .paired ∧ ok = false)
  | .waitpid x _ => s.Runs x ∧ (s.call x).pc = .spawned
  | .dropChildFd x => s.Runs x ∧ (s.call x).pc = .waited
  | .hydrateForkedFd x q fd => s.program q = .started x fd ∧ (s.table q fd).isSome = true
  | .send p n e => s.Passes true p e ∧ (s.table p n).map Entry.file = some e ∧ s.Free p e
  | .receive p n e => s.Passes false p e ∧ s.flight e = true ∧ s.table p n = none
  | .lose e => s.flight e = true
  | .close p n e =>
      (s.program p).Running ∧ (s.table p n).map Entry.file = some e ∧ s.Free p e
  | .forkOther p q => s.program p = .client ∧ s.program q = .unborn
  | .execOther q => s.program q = .copy
  | .exit p => s.program p ≠ .unborn ∧ s.program p ≠ .exited

instance (s : State) (a : Action) : Decidable (Enabled s a) := by
  cases a <;> unfold Enabled <;> infer_instance

namespace State

def setProgram (s : State) (p : Pid) (program : Program) : State :=
  { s with program := Function.update s.program p program }

def setTable (s : State) (p : Pid) (table : Table End) : State :=
  { s with table := Function.update s.table p table }

def setCall (s : State) (x : Socket) (call : Call) : State :=
  { s with call := Function.update s.call x call }

def setFlight (s : State) (e : End) (underWay : Bool) : State :=
  { s with flight := Function.update s.flight e underWay }

def closeFd (s : State) (p : Pid) (n : RawFd) : State :=
  s.setTable p (Function.update (s.table p) n none)

/-- `socketpair` with `SOCK_CLOEXEC`. -/
def newPair (s : State) (p : Pid) (x : Socket) (n m : RawFd) : State :=
  { s.setTable p (Function.update (Function.update (s.table p) n (some ⟨.parent x, true⟩)) m
      (some ⟨.child x, true⟩)) with used := Function.update s.used x true }

/-- A spawn returns an error, and both descriptors are dropped. -/
def abandon (s : State) (x : Socket) : State :=
  let call := s.call x
  ((s.closeFd call.process call.parentFd).closeFd call.process call.childFd).setCall x
    { call with pc := .failed }

end State

def next (s : State) : Action → State
  | .replySocket p x n m => s.newPair p x n m
  | .socketpair mode p x n m => (s.newPair p x n m).setCall x ⟨mode, p, n, m, .paired, none⟩
  | .fork x q =>
      ((s.setProgram q (.forked x false)).setTable q (s.table (s.call x).process)).setCall x
        { s.call x with pc := .forked, spawned := some q }
  | .preExec x q =>
      (s.setProgram q (.forked x true)).setTable q ((s.table q).mark (s.call x).childFd false)
  | .execve x q =>
      (s.setProgram q (.started x (s.call x).childFd)).setTable q (s.table q).exec
  | .spawn x _ ok =>
      if ok then s.setCall x { s.call x with pc := .spawned } else s.abandon x
  | .waitpid x ok => if ok then s.setCall x { s.call x with pc := .waited } else s.abandon x
  | .dropChildFd x =>
      (s.closeFd (s.call x).process (s.call x).childFd).setCall x
        { s.call x with pc := .returned }
  | .hydrateForkedFd x q fd =>
      (s.setProgram q (.server x)).setTable q ((s.table q).mark fd true)
  | .send p n e => (s.closeFd p n).setFlight e true
  | .receive p n e =>
      (s.setTable p (Function.update (s.table p) n (some ⟨e, true⟩))).setFlight e false
  | .lose e => s.setFlight e false
  | .close p n _ => s.closeFd p n
  | .forkOther p q => (s.setProgram q .copy).setTable q (s.table p)
  | .execOther q => (s.setProgram q .foreign).setTable q (s.table q).exec
  | .exit p => (s.setProgram p .exited).setTable p Table.empty

def machine : Transition.Machine State Action where
  Initial := Initial
  Enabled := Enabled
  next := next

instance (s : State) (a : Action) : Decidable (machine.Enabled s a) :=
  inferInstanceAs (Decidable (Enabled s a))

/-- One client, as in the runs below. -/
def initial : State :=
  ⟨fun p => if p = 0 then .client else .unborn, fun _ => Table.empty, fun _ => Call.idle,
    fun _ => false, fun _ => false⟩

theorem initial_initial : Initial initial where
  program p := by
    by_cases zero : p = 0
    · exact .inl (if_pos zero)
    · exact .inr (if_neg zero)
  table _ := rfl
  call _ := rfl
  flight _ := rfl
  used _ := rfl

end Ulockmgr.Processes
