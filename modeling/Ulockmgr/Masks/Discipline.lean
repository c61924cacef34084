import Ulockmgr.Masks

/-!
# Where a signal can get through

Whatever the system answers, the functions of the client make every call that can wait with all
signals blocked, but for one: the wait of `set_lock_blocking` for its lock, in which
`SIGUSR1` is let through until it has come once.  The requests that end such a call are
behind the mask again, so that a second signal cannot cut them short.  The worker of an owner
lets `SIGUSR1` through in `F_SETLKW` alone.
-/

namespace Ulockmgr.Masks

open SystemCalls (Prog World Budget Spec)

/-- The mask of the interruptible wait. -/
def waiting : Mask := Mask.all.unblock SIGUSR1

/-- A read is not interrupted while every signal is blocked. -/
def Real (world : World Mask Call Answer) : Prop :=
  ∀ before request error, (world (before ++ [(.receive request, Mask.all)])).item =
    some (.error error) → error.kind ≠ .interrupted

/-- All calls under the full mask, the wait for a lock also under the other one, and the interrupts
counted. -/
def clientBudget : Budget Mask Call where
  Allowed
    | .sigmask, _ => True
    | .receive (.lockCommand _ .setLockBlocking _), mask => mask = Mask.all ∨ mask = waiting
    | _, mask => mask = Mask.all
  counts
    | .send (.interrupt _) => true
    | _ => false

section
variable {budget : Budget Mask Call} {mask : Mask} {α : Type} {Post : α → Prop}

/-! ## Answers -/

theorem spec_ofErrno (result : Except Errno Unit) :
    Spec Real budget mask 0 (ofErrno result) fun _ => True := by
  cases result with
  | ok => exact .pure trivial
  | error errno => exact .fail

theorem spec_ofResult (result : Except IoError α) :
    Spec Real budget mask 0 (ofResult result) fun _ => True := by
  cases result with
  | ok value => exact .pure trivial
  | error error => exact .fail

theorem spec_flatten (caller : String) (item : Option Fetched) :
    Spec Real budget mask 0 (flatten caller item) fun _ => True := by
  rcases item with _ | _ | _ | ⟨data, fds⟩
  · exact .fail
  · exact .fail
  · exact .fail
  · exact .pure trivial

theorem spec_doneOnly (unexpected : IoError) (data : ReplyData) :
    Spec Real budget mask 0 (doneOnly unexpected data) fun _ => True := by
  rcases data with _ | id | (id | params)
  · exact .fail
  · exact .fail
  · exact .fail
  · exact .pure trivial

end

section
variable {mask : Mask} {α : Type} {Post : α → Prop} {n : Nat}

/-! ## Guards -/

theorem spec_sigmask : Spec Real clientBudget mask 0 (Prog.call .sigmask : Program Answer)
    fun _ => True :=
  Spec.call trivial fun _ _ _ => trivial

theorem spec_blockAllSignals {body : Program α}
    (spec : Spec Real clientBudget Mask.all n body Post) :
    Spec Real clientBudget mask n (blockAllSignals body) Post := by
  unfold blockAllSignals
  exact spec_sigmask.seq fun answer _ => (spec_ofErrno answer.sigmask).seq fun _ _ => spec.guarded

theorem spec_unblockSignal {body : Program α}
    (spec : Spec Real clientBudget waiting n body Post) :
    Spec Real clientBudget Mask.all n (unblockSignal SIGUSR1 body) Post := by
  unfold unblockSignal
  exact spec_sigmask.seq fun answer _ => (spec_ofErrno answer.sigmask).seq fun _ _ => spec.guarded

end

/-! ## Requests -/

/-- An item that is not the interruption of the read. -/
def Undisturbed (item : Option Fetched) : Prop :=
  ∀ error, item = some (.error error) → error.kind ≠ .interrupted

theorem spec_sendRequestIter (request : Message) :
    Spec Real clientBudget Mask.all (clientBudget.counts (.send request)).toNat (sendRequestIter request)
      fun _ => True := by
  have call : Spec Real clientBudget Mask.all (clientBudget.counts (.send request)).toNat
      (Prog.call (.send request) : Program Answer) fun _ => True :=
    Spec.call rfl fun _ _ _ => trivial
  unfold sendRequestIter
  exact call.bind fun answer _ => spec_ofResult answer.send

theorem spec_nextItem (request : Message) :
    Spec Real clientBudget Mask.all 0 (nextItem request) Undisturbed := by
  have allowed : clientBudget.Allowed (.receive request) Mask.all := by
    cases request with
    | lockCommand id action params =>
        cases action with
        | setLockBlocking => exact .inl rfl
        | _ => exact rfl
    | _ => exact rfl
  have call : Spec Real clientBudget Mask.all 0 (Prog.call (.receive request) : Program Answer)
      fun answer => Undisturbed answer.item :=
    Spec.call allowed fun _ real before error => real before request error
  unfold nextItem
  exact call.seq fun answer undisturbed => .pure undisturbed

theorem spec_sendRequest (request : Message) :
    Spec Real clientBudget Mask.all (clientBudget.counts (.send request)).toNat (sendRequest request)
      fun _ => True := by
  unfold sendRequest
  exact (spec_sendRequestIter request).bind fun _ _ =>
    (spec_nextItem request).seq fun item _ => spec_flatten _ item

/-- The interruptible read. -/
theorem spec_nextItem_waiting (id : UInt64) (params : LockParams) :
    Spec Real clientBudget waiting 0 (nextItem (.lockCommand id .setLockBlocking params))
      fun _ => True := by
  have allowed : clientBudget.Allowed (.receive (.lockCommand id .setLockBlocking params)) waiting :=
    .inr rfl
  have call : Spec Real clientBudget waiting 0
      (Prog.call (.receive (.lockCommand id .setLockBlocking params)) : Program Answer)
      fun _ => True :=
    Spec.call allowed fun _ _ _ => trivial
  unfold nextItem
  exact call.seq fun answer _ => .pure trivial

/-! ## The functions -/

theorem spec_ping (mask : Mask) : Spec Real clientBudget mask 0 ping fun _ => True := by
  refine spec_blockAllSignals ?_
  exact (spec_sendRequest .ping).seq fun _ _ => .pure trivial

theorem spec_register (mask : Mask) (fd : Fd) :
    Spec Real clientBudget mask 0 (register fd) fun _ => True := by
  have dup : Spec Real clientBudget Mask.all 0 (Prog.call .dup : Program Answer) fun _ => True :=
    Spec.call rfl fun _ _ _ => trivial
  refine spec_blockAllSignals ?_
  refine dup.seq fun answer _ => (spec_ofResult answer.dup).seq fun _ _ => ?_
  refine (spec_sendRequest (.register fd)).seq fun data _ => ?_
  cases data with
  | register id => exact .pure trivial
  | _ => exact .fail

theorem spec_getLock (mask : Mask) (id : UInt64) (params : LockParams) :
    Spec Real clientBudget mask 0 (getLock id params) fun _ => True := by
  refine spec_blockAllSignals ?_
  exact (spec_sendRequest (.lockCommand id .getLockStatus params)).seq fun data _ =>
    spec_doneOnly _ data

theorem spec_setLockNonblocking (mask : Mask) (id : UInt64) (params : LockParams) :
    Spec Real clientBudget mask 0 (setLockNonblocking id params) fun _ => True := by
  refine spec_blockAllSignals ?_
  exact (spec_sendRequest (.lockCommand id .setLockNonBlocking params)).seq fun data _ =>
    spec_doneOnly _ data

/-- An interrupted call is not interrupted again. -/
theorem spec_waitLoop_interrupted (request : Message) (pending : UInt64) (fuel : Nat) :
    Spec Real clientBudget Mask.all 0 (waitLoop request pending fuel true) fun _ => True := by
  cases fuel with
  | zero => exact .running
  | succ fuel =>
      unfold waitLoop
      refine (spec_nextItem request).seq fun item undisturbed => ?_
      rcases item with _ | error | inner
      · exact (spec_flatten _ none).seq fun data _ => spec_doneOnly _ data
      · simp only [if_neg (undisturbed error rfl)]
        exact .fail
      · exact (spec_flatten _ (some (.ok inner))).seq fun data _ => spec_doneOnly _ data

theorem spec_waitLoop (id : UInt64) (params : LockParams) (pending : UInt64) (fuel : Nat) :
    Spec Real clientBudget Mask.all 1
      (waitLoop (.lockCommand id .setLockBlocking params) pending fuel false) fun _ => True := by
  cases fuel with
  | zero => exact Spec.running.mono (Nat.zero_le 1)
  | succ fuel =>
      unfold waitLoop
      refine (spec_unblockSignal (spec_nextItem_waiting id params)).seq fun item _ => ?_
      rcases item with _ | error | inner
      · exact ((spec_flatten _ none).seq fun data _ => spec_doneOnly _ data).mono (Nat.zero_le 1)
      · simp only
        split
        · exact (spec_sendRequest (.interrupt pending)).bind fun _ _ =>
            spec_waitLoop_interrupted _ pending fuel
        · exact Spec.fail.mono (Nat.zero_le 1)
      · exact ((spec_flatten _ (some (.ok inner))).seq fun data _ =>
          spec_doneOnly _ data).mono (Nat.zero_le 1)

theorem spec_setLockBlocking (mask : Mask) (id : UInt64) (params : LockParams) (fuel : Nat) :
    Spec Real clientBudget mask 1 (setLockBlocking id params fuel) fun _ => True := by
  refine spec_blockAllSignals ?_
  refine (spec_sendRequestIter (.lockCommand id .setLockBlocking params)).seq fun _ _ => ?_
  refine (spec_nextItem _).seq fun item _ => (spec_flatten _ item).seq fun data _ => ?_
  rcases data with _ | other | (pending | params)
  · exact Spec.fail.mono (Nat.zero_le 1)
  · exact Spec.fail.mono (Nat.zero_le 1)
  · exact (spec_waitLoop id params pending fuel).dropping
      (spec_sendRequest (.removeInterrupt pending))
  · exact (Spec.pure trivial).mono (Nat.zero_le 1)

/-- The functions of the client that block signals. -/
inductive Function where
  | ping
  | register (fd : Fd)
  | getLock (id : UInt64) (params : LockParams)
  | setLockNonblocking (id : UInt64) (params : LockParams)
  | setLockBlocking (id : UInt64) (params : LockParams) (fuel : Nat)

/-- A call of one of them, whatever it returns. -/
def perform : Function → Program Unit
  | .ping => ping
  | .register fd => do
      let _ ← register fd
      return ()
  | .getLock id params => do
      let _ ← getLock id params
      return ()
  | .setLockNonblocking id params => do
      let _ ← setLockNonblocking id params
      return ()
  | .setLockBlocking id params fuel => do
      let _ ← setLockBlocking id params fuel
      return ()

theorem spec_perform (mask : Mask) (function : Function) :
    Spec Real clientBudget mask 1 (perform function) fun _ => True := by
  have none_sent : Spec Real clientBudget mask 0 (pure () : Program Unit) fun _ => True :=
    .pure trivial
  cases function with
  | ping => exact (spec_ping mask).mono (Nat.zero_le 1)
  | register fd =>
      exact ((spec_register mask fd).seq fun _ _ => none_sent).mono (Nat.zero_le 1)
  | getLock id params =>
      exact ((spec_getLock mask id params).seq fun _ _ => none_sent).mono (Nat.zero_le 1)
  | setLockNonblocking id params =>
      exact ((spec_setLockNonblocking mask id params).seq fun _ _ => none_sent).mono
        (Nat.zero_le 1)
  | setLockBlocking id params fuel =>
      exact (spec_setLockBlocking mask id params fuel).bind fun _ _ => none_sent

/-- A signal comes in the wait for a lock, and the owner gives the wait up. -/
def signalled : World Mask Call Answer := fun history =>
  let item : Option Fetched :=
    match history.getLast? with
    | some (.receive (.lockCommand _ _ _), mask) =>
        if mask.blocked SIGUSR1 = false then some (.error (.os Errno.INTR))
        else if history.any (fun call => call.1 = .send (.interrupt 7)) then
          some (.ok (.error (.os Errno.INTR)))
        else some (.ok (.ok (.lockCommand (.pending 7), [])))
    | _ => some (.ok (.ok (.unit, [])))
  ⟨.ok (), .ok (), .ok (), item, .ok ()⟩

theorem real_signalled : Real signalled := by
  intro before request error interrupted
  have blocked : Mask.all.blocked SIGUSR1 = true := rfl
  cases request with
  | lockCommand id action params =>
      simp only [signalled, List.getLast?_append, List.getLast?_singleton, Option.some_or, blocked,
        Bool.true_eq_false, if_false] at interrupted
      split at interrupted <;> cases interrupted
  | _ => simp [signalled] at interrupted

/-- The full mask everywhere but in `F_SETLKW`, which is called at most once. -/
def workerBudget : Budget Mask Call where
  Allowed
    | .setlkw, mask => mask = waiting
    | _, mask => mask = Mask.all
  counts
    | .setlkw => true
    | _ => false

theorem spec_workerSetLockBlocking :
    Spec (fun _ => True) workerBudget Mask.all 1 workerSetLockBlocking fun _ => True := by
  have plain : ∀ what, what ≠ .setlkw → Spec (fun _ => True) workerBudget Mask.all 0
      (Prog.call what : Program Answer) fun _ => True := by
    intro what other
    cases what with
    | setlkw => exact (other rfl).elim
    | _ => exact Spec.call rfl fun _ _ _ => trivial
  have wait : Spec (fun _ => True) workerBudget Mask.all 1
      (Prog.guarded (fun mask => mask.unblock SIGUSR1) (Prog.call .setlkw) : Program Answer)
      fun _ => True :=
    Spec.guarded (Spec.call rfl fun _ _ _ => trivial)
  have replies : Spec (fun _ => True) workerBudget Mask.all 0
      (do let _ ← Prog.call .reply; return () : Program Unit) fun _ => True :=
    (plain .reply (by simp)).seq fun _ _ => .pure trivial
  unfold workerSetLockBlocking
  refine (plain .sigmask (by simp)).seq fun answer _ => ?_
  cases answer.sigmask with
  | error errno => exact replies.mono (Nat.zero_le 1)
  | ok =>
      refine Spec.guarded ?_
      refine (plain .setlk (by simp)).seq fun _ _ => (plain .reply (by simp)).seq fun _ _ => ?_
      refine (plain .sigmask (by simp)).seq fun answer _ => ?_
      cases answer.sigmask with
      | error errno => exact replies.mono (Nat.zero_le 1)
      | ok => exact wait.bind fun _ _ => replies

end Ulockmgr.Masks
