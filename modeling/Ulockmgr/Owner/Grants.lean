import Ulockmgr.Owner.Clones
import Ulockmgr.Owner.Endpoint

/-!
# What a lock command was granted

The locks of the owner process change with a granted lock operation or with the closing of a
descriptor.  As long as nothing is unregistered and no registration fails, no descriptor
is closed; and as long as the first attempt of every worker reports `EAGAIN`, a lock command is
granted once, by the operation whose result it answers with.
-/

namespace Ulockmgr.Owner

/-- The steps of runs in which registrations last and the first attempt of a worker is refused. -/
def Lasting (s : State) : Action → Prop
  | .recv _ message => task message ≠ .unregister
  | .acquireExit _ => s.exitLock.exited = false
  | .trackerNewFails _ _ => False
  | .firstTry _ result => result = .failed Errno.AGAIN
  | _ => True

/-- What a granted operation of the lock command comes to. -/
structure Resolves (s : State) (e : RequestId) (grant : Grant) : Prop where
  file : (s.dataOf e).descriptor = .file grant.file
  range : ∃ position size,
    (s.request e).message.params.toFlock.range position size = some grant.range
  kind : (s.request e).message.params.toFlock.kind = some grant.kind

theorem resolves_of_grantOf {s : State} {e : RequestId} {position size : Nat} {grant : Grant}
    (granted : s.grantOf e position size = some grant) : Resolves s e grant := by
  unfold State.grantOf Kernel.grant at granted
  split at granted
  · next file range kind =>
      split at granted
      · cases granted
        exact ⟨file, ⟨position, size, range⟩, kind⟩
      · cases granted
  · cases granted

theorem grantBy_isSome {s : State} {e : RequestId} {result : Fcntl} (answers : s.Answers e result) :
    (s.grantBy e result).isSome = true ↔ result.outcome = .ok () := by
  cases result with
  | granted position size => exact ⟨fun _ => rfl, fun _ => answers⟩
  | failed errno => simp [State.grantBy, Fcntl.outcome]

/-! ## The locks of the process -/

/-- The lock operation a step performs, and its result. -/
def Action.operation : Action → Option (RequestId × Fcntl)
  | .setlk e result | .firstTry e result | .setlkw e result => some (e, result)
  | _ => none

/-- The step drops the last clone of an `FdData`, or the descriptor of a failed registration. -/
def Action.Closes (s : State) : Action → Prop
  | .acquireExit _ => s.exitLock.exited = true
  | .trackerNewFails _ _ => True
  | .release e => (s.dataOf e).holders.erase .loop = ∅
  | .dropData e => (s.dataOf e).holders.erase (.unregister e) = ∅
  | .dropRefused e | .dropClone e => (s.dataOf e).holders.erase (.worker e) = ∅
  | _ => False

/-- Without a lock operation, the locks change only when a descriptor is closed. -/
theorem held_next {s : State} {a : Action} (quiet : a.operation = none) (open_ : ¬ a.Closes s) :
    (next s a).kernel.held = s.kernel.held := by
  cases a with
  | setlk e result | firstTry e result | setlkw e result => cases quiet
  | acquireExit e =>
      have running : s.exitLock.exited = false := Bool.eq_false_iff.mpr open_
      simp [next, ExitLock.acquire, running]
  | trackerNewFails e error => exact (open_ trivial).elim
  | release e | dropData e | dropRefused e | dropClone e =>
      simp only [Action.Closes] at open_
      simp [next, open_]
  | _ =>
      simp only [next]
      (repeat' split) <;> simp [Kernel.foreignLock, Kernel.foreignUnlock]

theorem grant_next {s : State} {a : Action} (enabled : Enabled s a) (quiet : a.operation = none)
    (fresh : ∀ e, (s.request e).pc = .idle → s.request e = Request.idle) (e : RequestId) :
    ((next s a).request e).grant = (s.request e).grant := by
  by_cases own : e = a.actor
  · subst own
    cases a with
    | setlk e result | firstTry e result | setlkw e result => cases quiet
    | recv e message =>
        rw [Action.actor, fresh e enabled.2]
        simp [next]
    | _ =>
        simp only [next, Action.actor]
        (repeat' split) <;> simp
  · rw [request_next_of_ne s own]

/-- An operation that is granted takes effect and is noted. -/
theorem operation_next {s : State} {a : Action} {e : RequestId} {result : Fcntl}
    (performs : a.operation = some (e, result)) :
    (next s a).kernel.held = (s.afterFcntl e result).held ∧
      ((next s a).request e).grant = (s.grantBy e result).or (s.request e).grant := by
  cases a with
  | setlk x outcome | setlkw x outcome =>
      cases performs
      exact ⟨rfl, by simp [next]⟩
  | firstTry x outcome =>
      cases performs
      by_cases again : result = .failed Errno.AGAIN
      · subst again
        exact ⟨rfl, by simp [next]⟩
      · exact ⟨by simp [next, again], by simp [next, again]⟩
  | _ => cases performs

theorem operation_actor {a : Action} {e : RequestId} {result : Fcntl}
    (performs : a.operation = some (e, result)) : e = a.actor := by
  cases a <;> cases performs <;> rfl

/-! ## Grants and answers -/

/-- The operation whose result the request answers with has succeeded. -/
def Request.Succeeded (request : Request) : Prop :=
  task request.message = .setLock ∧ (request.pc = .reply ∨ request.pc = .finished) ∧
      (∃ params, request.out = .ok (.lockCommand (.done params))) ∨
    request.second = some (.ok ())

structure Granted (s : State) : Prop where
  kept : ∀ e, task (s.request e).message ≠ .unregister
  bound : ∀ e, (s.request e).found = some true →
    s.descriptors (s.request e).message.id = some (s.request e).data
  first : ∀ e, (s.request e).first = none ∨ (s.request e).first = some (.error Errno.AGAIN)
  succeeded : ∀ e, (s.request e).grant.isSome = true ↔ (s.request e).Succeeded
  found : ∀ e, (s.request e).grant.isSome = true → (s.request e).found = some true
  resolves : ∀ e grant, (s.request e).grant = some grant → Resolves s e grant

theorem granted_initial : Granted initial := by
  constructor <;> simp [initial, Request.idle, task, Request.Succeeded]

theorem found_stays {s : State} {a : Action} (served : Served s) (enabled : Enabled s a)
    {e : RequestId} (found : (s.request e).found = some true) :
    ((next s a).request e).found = some true ∧
      ((next s a).request e).data = (s.request e).data := by
  have early := served.early e
  by_cases own : e = a.actor
  · subst own
    cases a <;> simp only [Enabled, Action.actor] at enabled found early ⊢ <;> simp only [next] <;>
      (repeat' split) <;> simp_all [Pc.Early]
  · rw [request_next_of_ne s own]
    exact ⟨found, rfl⟩

section GrantedStep
variable {s : State} {a : Action} (served : Served s) (clones : Clones s)
  (attempts : ∀ e, Attempts (s.request e))
  (fresh : ∀ e, (s.request e).pc = .idle → s.request e = Request.idle) (inv : Granted s)
  (enabled : Enabled s a) (lasting : Lasting s a)

include inv enabled lasting in
theorem Granted.kept_next (e : RequestId) :
    task ((next s a).request e).message ≠ .unregister := by
  by_cases idle : (s.request e).pc = .idle
  · by_cases starts : ∃ message, a = .recv e message
    · obtain ⟨message, rfl⟩ := starts
      simp only [Lasting] at lasting
      simpa [next] using lasting
    · rw [not_exists] at starts
      by_cases own : e = a.actor
      · subst own
        have old := inv.kept a.actor
        cases a <;> simp only [Enabled, Action.actor] at enabled idle old starts ⊢ <;>
          simp only [next] <;> (repeat' split) <;> simp_all
      · rw [request_next_of_ne s own]
        exact inv.kept e
  · rw [message_next enabled idle]
    exact inv.kept e

include served inv enabled in
theorem Granted.bound_next (e : RequestId) (found : ((next s a).request e).found = some true) :
    (next s a).descriptors ((next s a).request e).message.id =
      some ((next s a).request e).data := by
  have stays : ∀ id r, s.descriptors id = some r → (next s a).descriptors id = some r := by
    intro id r bound
    rcases descriptors_next (a := a) bound with kept | ⟨x, rfl, _⟩
    · exact kept
    · have unregisters := served.serves x
      simp only [Enabled] at enabled
      rw [enabled] at unregisters
      exact (inv.kept x (unregisters (by decide))).elim
  have running : (s.request e).pc ≠ .idle := by
    intro idle
    rcases found_cases served enabled found with ⟨known, _⟩ | ⟨_, rfl | rfl⟩
    · rw [served.early e (by rw [idle]; trivial)] at known
      cases known
    · simp [Enabled, idle] at enabled
    · simp [Enabled, idle] at enabled
  rw [message_next enabled running]
  rcases found_cases served enabled found with ⟨known, same⟩ | ⟨bound, _⟩
  · rw [same]
    exact stays _ _ (inv.bound e known)
  · exact stays _ _ bound

include inv lasting in
theorem Granted.first_next (e : RequestId) :
    ((next s a).request e).first = none ∨
      ((next s a).request e).first = some (.error Errno.AGAIN) := by
  have old := inv.first e
  by_cases own : e = a.actor
  · subst own
    cases a with
    | firstTry e result =>
        simp only [Lasting] at lasting
        subst lasting
        simp [next, Action.actor, Fcntl.outcome]
    | _ =>
        simp only [Action.actor] at old ⊢
        simp only [next]
        (repeat' split) <;> simp_all [Request.idle]
  · rw [request_next_of_ne s own]
    exact old

include served enabled fresh in
/-- Only a lock operation decides whether a request succeeds. -/
theorem succeeded_next (quiet : a.operation = none) (e : RequestId) :
    ((next s a).request e).Succeeded ↔ (s.request e).Succeeded := by
  by_cases own : e = a.actor
  · subst own
    have serves := served.serves a.actor
    cases a with
    | setlk e result | firstTry e result | setlkw e result => cases quiet
    | recv e message =>
        rw [Action.actor, fresh e enabled.2]
        cases message with
        | lockCommand id action params =>
            cases action <;> simp [next, Request.Succeeded, Request.idle, task, Task.handler]
        | _ => simp [next, Request.Succeeded, Request.idle, task]
    | startThread e | startThreadFails e =>
        simp only [Enabled, Action.actor] at enabled serves ⊢
        rw [enabled] at serves
        rcases serves (by decide) with other | other <;> simp [next, Request.Succeeded, other]
    | _ =>
        simp only [Enabled, Action.actor] at enabled serves ⊢
        simp only [next]
        (repeat' split) <;> simp_all [Request.Succeeded, Pc.Serves, Task.lockHandler]
  · rw [request_next_of_ne s own]

include served attempts inv enabled lasting in
theorem Granted.operation_succeeded {e : RequestId} {result : Fcntl}
    (performs : a.operation = some (e, result)) :
    (s.request e).grant = none ∧ (s.request e).found = some true ∧ s.Answers e result ∧
      (((next s a).request e).Succeeded ↔ result.outcome = .ok ()) := by
  have none_ : ¬ (s.request e).Succeeded → (s.request e).grant = none := by
    intro fails
    rw [← inv.succeeded e] at fails
    simpa using fails
  have late := (attempts e).late
  have serves := served.serves e
  have found := served.found e
  cases a with
  | setlk x outcome =>
      cases performs
      obtain ⟨place, answers⟩ := enabled
      rw [place] at late serves found
      have undecided : (s.request e).second = none := by simpa [Pc.Late] using late
      have setLock : task (s.request e).message = .setLock := serves (by decide)
      refine ⟨none_ (by simp [Request.Succeeded, place, undecided]), found trivial, answers, ?_⟩
      cases result with
      | granted position size =>
          simp [next, Request.Succeeded, setLock, Fcntl.outcome, Except.map, lockReply,
            LockParams.tryFrom_toFlock]
      | failed errno =>
          simp [next, Request.Succeeded, undecided, Fcntl.outcome, Except.map, lockReply]
  | firstTry x outcome =>
      cases performs
      obtain ⟨place, answers⟩ := enabled
      rw [place] at late serves found
      have undecided : (s.request e).second = none := by simpa [Pc.Late] using late
      refine ⟨none_ (by simp [Request.Succeeded, place, undecided]), found trivial, answers, ?_⟩
      simp only [Lasting] at lasting
      subst lasting
      simp [next, Request.Succeeded, undecided, Fcntl.outcome]
  | setlkw x outcome =>
      cases performs
      obtain ⟨place, answers⟩ := enabled
      rw [place] at late serves found
      have undecided : (s.request e).second = none := by simpa [Pc.Late] using late
      refine ⟨none_ (by simp [Request.Succeeded, place, undecided]), found trivial, answers, ?_⟩
      simp [next, Request.Succeeded]
  | _ => cases performs

include served attempts fresh inv enabled lasting in
theorem Granted.succeeded_next (e : RequestId) :
    ((next s a).request e).grant.isSome = true ↔ ((next s a).request e).Succeeded := by
  cases performs : a.operation with
  | none =>
      rw [grant_next enabled performs fresh, Owner.succeeded_next served fresh enabled performs]
      exact inv.succeeded e
  | some operation =>
      obtain ⟨x, result⟩ := operation
      by_cases own : e = x
      · subst own
        obtain ⟨nothing, _, answers, succeeds⟩ :=
          inv.operation_succeeded served attempts enabled lasting performs
        rw [(operation_next performs).2, nothing, Option.or_none, succeeds]
        exact grantBy_isSome answers
      · rw [request_next_of_ne s (operation_actor performs ▸ own)]
        exact inv.succeeded e

include served attempts fresh inv enabled lasting in
theorem Granted.found_next (e : RequestId)
    (granted : ((next s a).request e).grant.isSome = true) :
    ((next s a).request e).found = some true := by
  refine (found_stays served enabled ?_).1
  cases performs : a.operation with
  | none =>
      rw [grant_next enabled performs fresh] at granted
      exact inv.found e granted
  | some operation =>
      obtain ⟨x, result⟩ := operation
      by_cases own : e = x
      · subst own
        exact (inv.operation_succeeded served attempts enabled lasting performs).2.1
      · rw [request_next_of_ne s (operation_actor performs ▸ own)] at granted
        exact inv.found e granted

include served clones enabled in
theorem Resolves.next {e : RequestId} {grant : Grant} (found : (s.request e).found = some true)
    (resolves : Resolves s e grant) : Resolves (next s a) e grant := by
  have running : (s.request e).pc ≠ .idle := by
    intro idle
    rw [served.early e (by rw [idle]; trivial)] at found
    cases found
  have message := message_next enabled running
  have data := (found_stays served enabled found).2
  have old := ((clones.found e found).not_allocating enabled).1
  constructor
  · rw [State.dataOf, data, descriptor_next old]
    exact resolves.file
  · rw [message]
    exact resolves.range
  · rw [message]
    exact resolves.kind

include served clones attempts fresh inv enabled lasting in
theorem Granted.resolves_next (e : RequestId) (grant : Grant)
    (granted : ((next s a).request e).grant = some grant) : Resolves (next s a) e grant := by
  cases performs : a.operation with
  | none =>
      rw [grant_next enabled performs fresh] at granted
      exact (inv.resolves e grant granted).next served clones enabled
        (inv.found e (by rw [granted]; rfl))
  | some operation =>
      obtain ⟨x, result⟩ := operation
      by_cases own : e = x
      · subst own
        obtain ⟨nothing, found, _⟩ :=
          inv.operation_succeeded served attempts enabled lasting performs
        rw [(operation_next performs).2, nothing, Option.or_none] at granted
        cases result with
        | granted position size => exact (resolves_of_grantOf granted).next served clones enabled found
        | failed errno => cases granted
      · rw [request_next_of_ne s (operation_actor performs ▸ own)] at granted
        exact (inv.resolves e grant granted).next served clones enabled
          (inv.found e (by rw [granted]; rfl))

include served clones attempts fresh inv enabled lasting in
theorem granted_next : Granted (next s a) where
  kept := inv.kept_next enabled lasting
  bound := inv.bound_next served enabled
  first := inv.first_next lasting
  succeeded := inv.succeeded_next served attempts fresh enabled lasting
  found := inv.found_next served attempts fresh enabled lasting
  resolves := inv.resolves_next served clones attempts fresh enabled lasting

include served clones inv enabled lasting in
/-- Registrations last, so nothing is closed. -/
theorem Granted.open_ : ¬ a.Closes s := by
  have mapped : ∀ e h, (s.request e).found = some true → h ≠ .map →
      (s.dataOf e).holders.erase h ≠ ∅ := by
    intro e h found other
    have member := clones.map _ _ (inv.bound e found)
    exact Finset.nonempty_iff_ne_empty.mp ⟨.map, Finset.mem_erase.mpr ⟨other.symm, member⟩⟩
  cases a with
  | acquireExit e =>
      simp only [Lasting] at lasting
      simp [Action.Closes, lasting]
  | trackerNewFails e error => exact lasting.elim
  | release e => exact mapped e _ (served.past e (.inr enabled)).1 (by simp)
  | dropData e =>
      have unregisters := served.serves e
      simp only [Enabled] at enabled
      rw [enabled] at unregisters
      exact (inv.kept e (unregisters (by decide))).elim
  | dropRefused e | dropClone e =>
      simp only [Enabled] at enabled
      exact mapped e _ (served.found e (by rw [enabled]; trivial)) (by simp)
  | _ => exact fun closes => closes.elim

end GrantedStep

end Ulockmgr.Owner
