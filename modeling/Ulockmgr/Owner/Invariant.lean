import Ulockmgr.Owner

/-!
# Who serves what, and who holds which clone

Two layers of invariants of the owner process.  `Served` says which handler a request
can be in and what the receiving loop is doing with it.  `Clones` says who holds a
clone of which `FdData`: the map, the loop inside a handler, the workers, and the
`Unregister` thread that took the entry out, which ends up as the last holder.
-/

namespace Ulockmgr.Owner

@[grind =] theorem Fcntl.outcome_eq_error {result : Fcntl} {errno : Errno} :
    result.outcome = .error errno ↔ result = .failed errno := by
  cases result <;> simp [Fcntl.outcome]

/-- The lock commands. -/
def Task.Locks : Task → Prop
  | .getLock | .setLock | .setLockBlocking => True
  | .ping | .interrupt | .removeInterrupt | .register | .unregister => False

/-- The tasks whose handler passes through a given place. -/
def Pc.Serves (t : Task) : Pc → Prop
  | .idle => False
  | .startThread => t = .interrupt ∨ t = .unregister
  | .removeInterrupt => t = .removeInterrupt
  | .acquireExit | .trackerNew | .fetchId | .insertId => t = .register
  | .mapGet => t.Locks
  | .getlk => t = .getLock
  | .setlk => t = .setLock
  | .interruptLookup | .interruptStop => t = .interrupt
  | .mapRemove | .trackerStop | .trackerWait | .refcount | .dropData => t = .unregister
  | .reply | .finished => True
  | .spawn | .childStart | .refused | .blockSignals | .firstTry | .fetchInterrupt |
  .insertInterrupt | .replyFirst | .unblockSignal | .setlkw | .replyLast | .endCall | .dropClone |
  .untrack | .markExited => t = .setLockBlocking

@[grind .] theorem Task.handler_serves (t : Task) : t.handler.Serves t := by
  cases t <;> simp [Task.handler, Pc.Serves, Task.Locks]

@[grind .] theorem Task.handler_cases (t : Task) :
    t.handler = .reply ∨ t.handler = .startThread ∨ t.handler = .removeInterrupt ∨
      t.handler = .acquireExit ∨ t.handler = .mapGet := by
  cases t <;> simp [Task.handler]

@[grind .] theorem Task.lockHandler_serves (t : Task) (locks : t.Locks) :
    t.lockHandler.Serves t := by
  cases t <;> first | exact locks.elim | simp [Task.lockHandler, Pc.Serves]

@[grind .] theorem Task.threadHandler_cases (t : Task) :
    t = .interrupt ∧ t.threadHandler = .interruptLookup ∨
      t ≠ .interrupt ∧ t.threadHandler = .mapRemove := by
  cases t <;> simp [Task.threadHandler]

@[grind .] theorem Task.lockHandler_cases (t : Task) :
    t = .getLock ∧ t.lockHandler = .getlk ∨ t = .setLock ∧ t.lockHandler = .setlk ∨
      t ≠ .getLock ∧ t ≠ .setLock ∧ t.lockHandler = .spawn := by
  cases t <;> simp [Task.lockHandler]

/-- The handler runs on the receiving loop. -/
def Pc.OnLoop (t : Task) : Pc → Prop
  | .startThread | .removeInterrupt | .acquireExit | .trackerNew | .fetchId | .insertId | .mapGet
  | .getlk | .setlk | .spawn => True
  | .reply => t ≠ .interrupt ∧ t ≠ .unregister
  | .idle | .interruptLookup | .interruptStop | .mapRemove | .trackerStop | .trackerWait |
  .refcount | .dropData | .childStart | .refused | .blockSignals | .firstTry | .fetchInterrupt |
  .insertInterrupt | .replyFirst | .unblockSignal | .setlkw | .replyLast | .endCall | .dropClone |
  .untrack | .markExited | .finished => False

@[grind .] theorem Task.handler_onLoop (t : Task) : t.handler.OnLoop t := by
  cases t <;> simp [Task.handler, Pc.OnLoop]

/-- The handler has looked its registration up and found it. -/
def Pc.Found : Pc → Prop
  | .getlk | .setlk | .spawn | .trackerStop | .trackerWait | .refcount | .dropData | .childStart |
  .refused | .blockSignals | .firstTry | .fetchInterrupt | .insertInterrupt | .replyFirst |
  .unblockSignal | .setlkw | .replyLast | .endCall | .dropClone | .untrack | .markExited => True
  | .idle | .startThread | .removeInterrupt | .acquireExit | .trackerNew | .fetchId | .insertId |
  .mapGet | .interruptLookup | .interruptStop | .mapRemove | .reply | .finished => False

/-- The loop holds a clone here. -/
def Pc.LoopHolds (found : Option Bool) : Pc → Prop
  | .fetchId | .insertId | .getlk | .setlk | .spawn => True
  | .reply => found = some true
  | .idle | .startThread | .removeInterrupt | .acquireExit | .trackerNew | .mapGet |
  .interruptLookup | .interruptStop | .mapRemove | .trackerStop | .trackerWait | .refcount |
  .dropData | .childStart | .refused | .blockSignals | .firstTry | .fetchInterrupt |
  .insertInterrupt | .replyFirst | .unblockSignal | .setlkw | .replyLast | .endCall | .dropClone |
  .untrack | .markExited | .finished => False

/-- The worker holds a clone here. -/
def Pc.WorkerHolds : Pc → Prop
  | .childStart | .refused | .blockSignals | .firstTry | .fetchInterrupt | .insertInterrupt |
  .replyFirst | .unblockSignal | .setlkw | .replyLast | .endCall | .dropClone => True
  | .idle | .startThread | .removeInterrupt | .acquireExit | .trackerNew | .fetchId | .insertId |
  .mapGet | .getlk | .setlk | .spawn | .interruptLookup | .interruptStop | .mapRemove |
  .trackerStop | .trackerWait | .refcount | .dropData | .reply | .untrack | .markExited |
  .finished => False

/-- The thread of an `Unregister` holds the clone it took out of the map. -/
def Pc.UnregisterHolds : Pc → Prop
  | .trackerStop | .trackerWait | .refcount | .dropData => True
  | .idle | .startThread | .removeInterrupt | .acquireExit | .trackerNew | .fetchId | .insertId |
  .mapGet | .getlk | .setlk | .spawn | .interruptLookup | .interruptStop | .mapRemove | .reply |
  .childStart | .refused | .blockSignals | .firstTry | .fetchInterrupt | .insertInterrupt |
  .replyFirst | .unblockSignal | .setlkw | .replyLast | .endCall | .dropClone | .untrack |
  .markExited | .finished => False

/-- The place of a handler that has not looked anything up yet, or never does. -/
def Pc.Early : Pc → Prop
  | .idle | .startThread | .removeInterrupt | .acquireExit | .trackerNew | .fetchId | .insertId
  | .mapGet | .interruptLookup | .interruptStop | .mapRemove => True
  | .getlk | .setlk | .spawn | .trackerStop | .trackerWait | .refcount | .dropData | .reply
  | .childStart | .refused | .blockSignals | .firstTry | .fetchInterrupt | .insertInterrupt
  | .replyFirst | .unblockSignal | .setlkw | .replyLast | .endCall | .dropClone | .untrack
  | .markExited | .finished => False

/-- The request a step is about; steps that are about none are given request 0. -/
def Action.actor : Action → RequestId
  | .recv e _ | .startThread e | .startThreadFails e | .removeInterrupt e | .acquireExit e
  | .trackerNew e | .trackerNewFails e _ | .fetchId e | .insertId e | .mapGet e | .getlk e _
  | .setlk e _ | .spawn e | .spawnFails e | .spawnReturn e | .release e | .interruptLookup e
  | .interruptStop e | .mapRemove e | .trackerStop e | .trackerWait e | .refcount e | .dropData e
  | .reply e | .track e | .dropRefused e | .blockSignals e _ | .firstTry e _ | .fetchInterrupt e
  | .insertInterrupt e | .replyFirst e | .unblockSignal e _ | .setlkw e _ | .replyLast e
  | .endCall e | .dropClone e | .untrack e | .markExited e | .fetch e _ => e
  | .hangUp | .tryExit | .foreignLock _ _ | .foreignUnlock _ _ => 0

theorem State.afterReply_cases (s : State) (e : RequestId) :
    (task (s.request e).message = .interrupt ∨ task (s.request e).message = .unregister) ∧
        s.afterReply e = s.loop ∨
      (task (s.request e).message).Locks ∧ (s.request e).found = some true ∧
        s.afterReply e = .releasing e ∨
      task (s.request e).message ≠ .interrupt ∧ task (s.request e).message ≠ .unregister ∧
        s.afterReply e = .receiving := by
  unfold State.afterReply Task.Locks
  by_cases found : (s.request e).found = some true <;>
    cases task (s.request e).message <;> simp [found]

theorem Pc.WorkerHolds.found {pc : Pc} (holds : pc.WorkerHolds) : pc.Found := by
  cases pc <;> first | exact holds | trivial

theorem Pc.UnregisterHolds.found {pc : Pc} (holds : pc.UnregisterHolds) : pc.Found := by
  cases pc <;> first | exact holds | trivial

structure Served (s : State) : Prop where
  serves : ∀ e, (s.request e).pc ≠ .idle → (s.request e).pc.Serves (task (s.request e).message)
  onLoop : ∀ e, (s.request e).pc.OnLoop (task (s.request e).message) → s.loop = .busy e
  busy : ∀ e, s.loop = .busy e → (s.request e).pc.OnLoop (task (s.request e).message)
  past : ∀ e, s.loop = .awaiting e ∨ s.loop = .releasing e →
    (s.request e).found = some true ∧ task (s.request e).message ≠ .unregister
  found : ∀ e, (s.request e).pc.Found → (s.request e).found = some true
  early : ∀ e, (s.request e).pc.Early → (s.request e).found = none
  looks : ∀ e, (s.request e).found = some true →
    task (s.request e).message = .unregister ∨ (task (s.request e).message).Locks
  /-- All but blocking lock commands are answered once, at the end. -/
  silent : ∀ e, task (s.request e).message ≠ .setLockBlocking → (s.request e).pc ≠ .finished →
    (s.request e).replies = []
  answered : ∀ e, task (s.request e).message ≠ .setLockBlocking → (s.request e).pc = .finished →
    (s.request e).replies = [(s.request e).out] ∨ s.loop = .ended

theorem served_initial : Served initial := by
  constructor <;> simp [initial, Request.idle, Pc.OnLoop, Pc.Found, Pc.Early]

section ServedStep
variable {s : State} {a : Action} (inv : Served s) (enabled : Enabled s a)
include inv enabled

theorem Served.serves_next (e : RequestId) (taken : ((next s a).request e).pc ≠ .idle) :
    ((next s a).request e).pc.Serves (task ((next s a).request e).message) := by
  have old := inv.serves e
  revert taken
  cases a <;> simp only [Enabled] at enabled <;> simp only [next] <;> (repeat' split) <;>
    grind [Pc.Serves, Task.Locks]

theorem Served.onLoop_next (e : RequestId)
    (runs : ((next s a).request e).pc.OnLoop (task ((next s a).request e).message)) :
    (next s a).loop = .busy e := by
  have old := inv.onLoop e
  have serves := inv.serves e
  have actor := inv.onLoop a.actor
  revert runs
  cases a with
  | reply e' =>
      simp only [Enabled, Action.actor] at enabled actor
      rcases s.afterReply_cases e' with ⟨_, same⟩ | ⟨_, _, same⟩ | ⟨_, _, same⟩ <;>
        simp only [next, same] <;> grind [Pc.OnLoop, Task.Locks]
  | _ =>
      simp only [Enabled, Action.actor] at enabled actor
      simp only [next]
      (repeat' split) <;> grind [Pc.Serves, Pc.OnLoop, Task.Locks]

theorem Served.busy_next (e : RequestId) (busy : (next s a).loop = .busy e) :
    ((next s a).request e).pc.OnLoop (task ((next s a).request e).message) := by
  have old := inv.busy e
  have serves := inv.serves e
  have actor := inv.onLoop a.actor
  revert busy
  cases a with
  | reply e' =>
      simp only [Enabled, Action.actor] at enabled actor
      rcases s.afterReply_cases e' with ⟨_, same⟩ | ⟨_, _, same⟩ | ⟨_, _, same⟩ <;>
        simp only [next, same] <;> grind [Pc.OnLoop, Task.Locks]
  | _ =>
      simp only [Enabled, Action.actor] at enabled actor
      simp only [next]
      (repeat' split) <;> grind [Pc.Serves, Pc.OnLoop, Task.Locks]

theorem Served.looks_next (e : RequestId) (found : ((next s a).request e).found = some true) :
    task ((next s a).request e).message = .unregister ∨
      (task ((next s a).request e).message).Locks := by
  have old := inv.looks e
  have serves := inv.serves e
  revert found
  cases a <;> simp only [Enabled] at enabled <;> simp only [next] <;> (repeat' split) <;>
    grind [Pc.Serves, Task.Locks, Request.idle]

theorem Served.past_next (e : RequestId)
    (past : (next s a).loop = .awaiting e ∨ (next s a).loop = .releasing e) :
    ((next s a).request e).found = some true ∧
      task ((next s a).request e).message ≠ .unregister := by
  have old := inv.past e
  have found := inv.found e
  have serves := inv.serves e
  have onLoop := inv.onLoop e
  revert past
  cases a with
  | reply e' =>
      simp only [Enabled] at enabled
      rcases s.afterReply_cases e' with ⟨_, same⟩ | ⟨locks, known, same⟩ | ⟨_, _, same⟩ <;>
        simp only [next, same] <;> grind [Task.Locks]
  | _ =>
      simp only [Enabled] at enabled
      simp only [next]
      (repeat' split) <;> grind [Pc.Serves, Pc.OnLoop, Pc.Found]

theorem Served.found_next (e : RequestId) (knows : ((next s a).request e).pc.Found) :
    ((next s a).request e).found = some true := by
  have old := inv.found e
  revert knows
  cases a <;> simp only [Enabled] at enabled <;> simp only [next] <;> (repeat' split) <;>
    grind [Pc.Found]

theorem Served.silent_next (e : RequestId)
    (once : task ((next s a).request e).message ≠ .setLockBlocking)
    (running : ((next s a).request e).pc ≠ .finished) : ((next s a).request e).replies = [] := by
  have old := inv.silent e
  have serves := inv.serves e
  revert once running
  cases a <;> simp only [Enabled] at enabled <;> simp only [next] <;> (repeat' split) <;>
    grind [Pc.Serves, Request.idle]

theorem Served.ended_next (ended : s.loop = .ended) : (next s a).loop = .ended := by
  have actor := inv.onLoop a.actor
  have serves := inv.serves a.actor
  cases a with
  | reply e =>
      simp only [Enabled, Action.actor] at enabled actor
      rcases s.afterReply_cases e with ⟨_, same⟩ | ⟨_, _, same⟩ | ⟨_, _, same⟩ <;>
        simp only [next, same] <;> grind [Pc.OnLoop, Task.Locks]
  | _ =>
      simp only [Enabled, Action.actor] at enabled actor serves
      simp only [next]
      (repeat' split) <;> grind [Pc.Serves, Pc.OnLoop]

theorem Served.answered_next (e : RequestId)
    (once : task ((next s a).request e).message ≠ .setLockBlocking)
    (finished : ((next s a).request e).pc = .finished) :
    ((next s a).request e).replies = [((next s a).request e).out] ∨ (next s a).loop = .ended := by
  by_cases ended : s.loop = .ended
  · exact .inr (inv.ended_next enabled ended)
  · have old := inv.answered e
    have silent := inv.silent e
    have serves := inv.serves e
    revert once finished
    cases a <;> simp only [Enabled] at enabled <;> simp only [next] <;> (repeat' split) <;>
      grind [Pc.Serves, Request.idle]

theorem Served.early_next (e : RequestId) (early : ((next s a).request e).pc.Early) :
    ((next s a).request e).found = none := by
  have old := inv.early e
  revert early
  cases a <;> simp only [Enabled] at enabled <;> simp only [next] <;> (repeat' split) <;>
    grind [Pc.Early, Request.idle]

end ServedStep

theorem served_next {s : State} {a : Action} (inv : Served s) (enabled : Enabled s a) :
    Served (next s a) where
  serves := inv.serves_next enabled
  onLoop := inv.onLoop_next enabled
  busy := inv.busy_next enabled
  past := inv.past_next enabled
  found := inv.found_next enabled
  early := inv.early_next enabled
  looks := inv.looks_next enabled
  silent := inv.silent_next enabled
  answered := inv.answered_next enabled

theorem reachable_served {s : State} (reached : machine.Reachable s) : Served s := by
  apply reached.invariant
  · rintro _ rfl
    exact served_initial
  · intro state label inv enabled
    exact served_next inv enabled

theorem reachable_next {s : State} {a : Action} (reached : machine.Reachable s)
    (enabled : Enabled s a) : machine.Reachable (next s a) :=
  .step reached enabled trivial

/-! ## What a step changes -/

/-- A step writes the record of no request but its own. -/
theorem request_next_of_ne (s : State) {a : Action} {x : RequestId} (other : x ≠ a.actor) :
    (next s a).request x = s.request x := by
  cases a <;> simp only [Action.actor] at other <;> simp only [next] <;> (repeat' split) <;>
    simp [other]

theorem message_next {s : State} {a : Action} (enabled : Enabled s a) {e : RequestId}
    (taken : (s.request e).pc ≠ .idle) :
    ((next s a).request e).message = (s.request e).message := by
  revert taken
  cases a <;> simp only [Enabled] at enabled <;> simp only [next] <;> (repeat' split) <;> grind

theorem running_next {s : State} {a : Action} (enabled : Enabled s a) {e : RequestId}
    (running : (s.request e).pc ≠ .idle) : ((next s a).request e).pc ≠ .idle := by
  revert running
  cases a <;> simp only [Enabled] at enabled <;> simp only [next] <;> (repeat' split) <;> grind

/-- A handler that has nothing left to do but to answer goes nowhere else. -/
theorem over_next {s : State} {a : Action} (enabled : Enabled s a) {e : RequestId}
    (completed : (s.request e).pc = .reply ∨ (s.request e).pc = .finished) :
    ((next s a).request e).pc = .reply ∨ ((next s a).request e).pc = .finished := by
  cases a <;> simp only [Enabled] at enabled <;> simp only [next] <;> (repeat' split) <;> grind

theorem recv_running (s : State) (e : RequestId) (message : Message) :
    ((next s (.recv e message)).request e).pc ≠ .idle := by
  have starts := Task.handler_cases (task message)
  simp only [next, State.setLoop_request, State.setRequest_request, if_pos]
  grind

theorem idle_stays {s : State} {a : Action} (enabled : Enabled s a) {e : RequestId}
    (known : ∀ message, a ≠ .recv e message) (idle : (s.request e).pc = .idle) :
    ((next s a).request e).pc = .idle := by
  cases a with
  | recv e' message =>
      have other : e ≠ e' := by
        rintro rfl
        exact known message rfl
      simp [next, other, idle]
  | _ =>
      simp only [Enabled] at enabled
      simp only [next]
      (repeat' split) <;> grind

/-- A registration is looked up in the map, and a handler that has found one keeps it. -/
theorem found_cases {s : State} {a : Action} (served : Served s) (enabled : Enabled s a)
    {e : RequestId} (found : ((next s a).request e).found = some true) :
    (s.request e).found = some true ∧ ((next s a).request e).data = (s.request e).data ∨
      s.descriptors (s.request e).message.id = some ((next s a).request e).data ∧
        (a = .mapGet e ∨ a = .mapRemove e) := by
  have early := served.early e
  revert found
  cases a <;> simp only [Enabled] at enabled <;> simp only [next] <;> (repeat' split) <;>
    grind [Pc.Early, Request.idle]

theorem descriptors_cases {s : State} {a : Action} {id : UInt64} {r : RequestId}
    (bound : (next s a).descriptors id = some r) :
    s.descriptors id = some r ∧ (∀ e, a = .mapRemove e → (s.request e).message.id ≠ id) ∨
      a = .insertId r ∧ (s.request r).id = id ∧ s.descriptors id = none := by
  revert bound
  cases a <;> simp only [next] <;> (repeat' split) <;> grind

/-- An entry stays in the map until an `Unregister` takes it out. -/
theorem descriptors_next {s : State} {a : Action} {id : UInt64} {r : RequestId}
    (bound : s.descriptors id = some r) :
    (next s a).descriptors id = some r ∨ ∃ e, a = .mapRemove e ∧ (s.request e).message.id = id := by
  cases a <;> simp only [next] <;> (repeat' split) <;> grind

theorem descriptor_next {s : State} {a : Action} {r : RequestId} (old : a ≠ .trackerNew r) :
    ((next s a).data r).descriptor = (s.data r).descriptor := by
  cases a <;> simp only [next] <;> (repeat' split) <;> grind

/-- The step takes the clone of `h` away from `r`. -/
def Action.Drops (s : State) (h : Holder) (r : RequestId) : Action → Prop
  | .trackerNew e => e = r
  | .insertId e => e = r ∧ h = .loop ∧ s.descriptors (s.request e).id = none
  | .mapRemove e => s.descriptors (s.request e).message.id = some r ∧ h = .map
  | .release e => (s.request e).data = r ∧ h = .loop
  | .dropData e => (s.request e).data = r ∧ h = .unregister e
  | .dropRefused e | .dropClone e => (s.request e).data = r ∧ h = .worker e
  | _ => False

theorem holders_next {s : State} {a : Action} {h : Holder} {r : RequestId}
    (held : h ∈ (s.data r).holders) (kept : ¬ a.Drops s h r) :
    h ∈ ((next s a).data r).holders := by
  revert kept
  cases a <;> simp only [next, Action.Drops] <;> (repeat' split) <;> grind

theorem drops_map {s : State} {a : Action} {r : RequestId} (drops : a.Drops s .map r) :
    a = .trackerNew r ∨
      ∃ e, a = .mapRemove e ∧ s.descriptors (s.request e).message.id = some r := by
  cases a <;> grind [Action.Drops]

theorem drops_loop {s : State} {a : Action} {r : RequestId} (drops : a.Drops s .loop r) :
    a = .trackerNew r ∨ a = .insertId r ∧ s.descriptors (s.request r).id = none ∨
      ∃ e, a = .release e ∧ (s.request e).data = r := by
  cases a <;> grind [Action.Drops]

theorem drops_worker {s : State} {a : Action} {e r : RequestId} (drops : a.Drops s (.worker e) r) :
    a = .trackerNew r ∨ a = .dropRefused e ∨ a = .dropClone e := by
  cases a <;> grind [Action.Drops]

theorem drops_unregister {s : State} {a : Action} {e r : RequestId}
    (drops : a.Drops s (.unregister e) r) : a = .trackerNew r ∨ a = .dropData e := by
  cases a <;> grind [Action.Drops]

/-- The step gives a clone of `r` to `h`. -/
def Action.Gives (s : State) (h : Holder) (r : RequestId) : Action → Prop
  | .trackerNew e => e = r ∧ h = .loop
  | .insertId e => e = r ∧ h = .map ∧ s.descriptors (s.request e).id = none
  | .mapGet e => s.descriptors (s.request e).message.id = some r ∧ h = .loop
  | .spawn e => (s.request e).data = r ∧ h = .worker e
  | .mapRemove e => s.descriptors (s.request e).message.id = some r ∧ h = .unregister e
  | _ => False

theorem holders_cases {s : State} {a : Action} {h : Holder} {r : RequestId}
    (held : h ∈ ((next s a).data r).holders) : h ∈ (s.data r).holders ∨ a.Gives s h r := by
  revert held
  cases a <;> simp only [next, Action.Gives] <;> (repeat' split) <;> grind

end Ulockmgr.Owner
