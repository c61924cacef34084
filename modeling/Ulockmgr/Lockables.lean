import Ulockmgr.Owner.Endpoint
import Ulockmgr.Owner.Unregister

/-!
# Lockables

`Owner::register` and `Drop for Lockable` on the side of the client, next to the owner process.
A `Lockable` is named after the `Register` request it came from; it is not cloned and so dropped
once, and nobody else sends `Unregister` requests.  Unlike the other calls, `drop` does not
block signals: its `sendmsg` may fail, and a signal may end its wait for the answer.  All other
requests come from the environment, in any order.
-/

namespace Ulockmgr.Lockables

open Owner (RequestId Request)

/-- How `drop` came to return. -/
inductive Outcome where
  /-- It read the answer to its request, or the end of the connection. -/
  | replied (e : RequestId)
  /-- Its wait was interrupted. -/
  | interrupted (e : RequestId)
  /-- Its request was not sent. -/
  | unsent
  deriving DecidableEq

inductive Pc where
  | absent
  | held
  /-- In `drop`, waiting for the answer. -/
  | awaiting (e : RequestId)
  | dropped (outcome : Outcome)
  deriving DecidableEq

structure Lockable where
  id : UInt64
  pc : Pc
  deriving DecidableEq

structure State where
  owner : Owner.State
  lockable : RequestId → Lockable
  /-- The `Lockable` whose `Unregister` request has this endpoint. -/
  drops : RequestId → Option RequestId

def initial : State where
  owner := Owner.initial
  lockable := fun _ => ⟨0, .absent⟩
  drops := fun _ => none

namespace State

@[simps] def setOwner (s : State) (owner : Owner.State) : State := { s with owner := owner }

@[simps] def setLockable (s : State) (r : RequestId) (lockable : Lockable) : State :=
  { s with lockable := fun x => if x = r then lockable else s.lockable x }

/-- The ID in the answer to `Register`, when it can be read. -/
def registered (s : State) (r : RequestId) : Option UInt64 :=
  match nextReply .register (s.owner.request r).stream false with
  | .returns (some (.ok (.ok (.register id, _)))) _ => some id
  | _ => none

end State

inductive Action where
  /-- The owner, or a client that does not drop a `Lockable`. -/
  | owner (a : Owner.Action)
  /-- `Owner::register` reads its answer. -/
  | register (r : RequestId)
  /-- `drop` sends `Unregister`. -/
  | send (r e : RequestId)
  | sendFails (r : RequestId)
  /-- The owner receives the `Unregister` of a `drop`. -/
  | deliver (e : RequestId)
  /-- `drop` reads its answer; `signal` tells whether `SIGUSR1` comes while it waits. -/
  | reply (r : RequestId) (signal : Bool)

/-- What the environment does to the requests and answers of a `drop`: nothing. -/
def State.Foreign (s : State) : Owner.Action → Prop
  | .fetch e _ => s.drops e = none
  | .recv e message => s.drops e = none ∧ Owner.task message ≠ .unregister
  | _ => True

instance (s : State) (a : Owner.Action) : Decidable (s.Foreign a) :=
  match a with
  | .fetch e _ => inferInstanceAs (Decidable (s.drops e = none))
  | .recv e message =>
      inferInstanceAs (Decidable (s.drops e = none ∧ Owner.task message ≠ .unregister))
  | .hangUp | .startThread _ | .startThreadFails _ | .removeInterrupt _ | .acquireExit _
  | .trackerNew _ | .trackerNewFails _ _ | .fetchId _ | .insertId _ | .mapGet _ | .getlk _ _
  | .setlk _ _ | .spawn _ | .spawnFails _ | .spawnReturn _ | .release _ | .interruptLookup _
  | .interruptStop _ | .mapRemove _ | .trackerStop _ | .trackerWait _ | .refcount _ | .dropData _
  | .reply _ | .track _ | .dropRefused _ | .blockSignals _ _ | .firstTry _ _ | .fetchInterrupt _
  | .insertInterrupt _ | .replyFirst _ | .unblockSignal _ _ | .setlkw _ _ | .replyLast _
  | .endCall _ | .dropClone _ | .untrack _ | .markExited _ | .tryExit | .foreignLock _ _
  | .foreignUnlock _ _ => .isTrue trivial

/-- What a `drop` that waits for `e` reads. -/
def State.answer (s : State) (r : RequestId) (signal : Bool) :
    Option (RequestId × Option Fetched) :=
  match (s.lockable r).pc with
  | .awaiting e =>
      match nextReply .unit (s.owner.request e).stream signal with
      | .returns item _ => some (e, item)
      | _ => none
  | .absent | .held | .dropped _ => none

def Enabled (s : State) : Action → Prop
  | .owner a => Owner.Enabled s.owner a ∧ s.Foreign a
  | .register r =>
      Owner.task (s.owner.request r).message = .register ∧ (s.lockable r).pc = .absent ∧
        (s.registered r).isSome
  | .send r e =>
      (s.lockable r).pc = .held ∧ (s.owner.request e).pc = .idle ∧ s.drops e = none
  | .sendFails r => (s.lockable r).pc = .held
  | .deliver e =>
      (s.drops e).isSome ∧ s.owner.loop = .receiving ∧ (s.owner.request e).pc = .idle
  | .reply r signal => (s.answer r signal).isSome

instance (s : State) (a : Action) : Decidable (Enabled s a) := by
  cases a <;> unfold Enabled <;> infer_instance

/-- An error of the read itself is all that `drop` sees of a signal. -/
def outcome (e : RequestId) : Option Fetched → Outcome
  | some (.error _) => .interrupted e
  | some (.ok _) | none => .replied e

def next (s : State) : Action → State
  | .owner a => s.setOwner (Owner.next s.owner a)
  | .register r =>
      match s.registered r with
      | some id =>
          (s.setOwner (Owner.next s.owner (.fetch r false))).setLockable r ⟨id, .held⟩
      | none => s
  | .send r e =>
      { s.setLockable r { s.lockable r with pc := .awaiting e } with
        drops := fun x => if x = e then some r else s.drops x }
  | .sendFails r => s.setLockable r { s.lockable r with pc := .dropped .unsent }
  | .deliver e =>
      match s.drops e with
      | some r => s.setOwner (Owner.next s.owner (.recv e (.unregister (s.lockable r).id)))
      | none => s
  | .reply r signal =>
      match s.answer r signal with
      | some (e, item) =>
          (s.setOwner (Owner.next s.owner (.fetch e signal))).setLockable r
            { s.lockable r with pc := .dropped (outcome e item) }
      | none => s

def machine : Transition.Machine State Action where
  Initial s := s = initial
  Enabled := Enabled
  next := next

instance (s : State) (a : Action) : Decidable (machine.Enabled s a) :=
  inferInstanceAs (Decidable (Enabled s a))

end Ulockmgr.Lockables
