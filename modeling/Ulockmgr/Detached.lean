import Mathlib.Tactic.Simps.Basic
import Ulockmgr.Errors
import Ulockmgr.Tracker.Signals
import Ulockmgr.Types

/-!
# Detached calls

`Lockable::set_lock_blocking_detached`: the closure it gives to `InterruptibleTracker::spawn`,
with the `Invoker` that owns the `done` callback, next to the tracker machine.  The closure
is called by the new thread, or dropped by whoever refused it; its captures are dropped inside
of the call, so before the guard of the thread.  The callbacks and the lock operation may
return anything or panic, and a panic in a destructor that runs during a panic aborts
the process.
-/

namespace Ulockmgr.Detached

open Tracker (Thread Pthread TrackerId GuardId)

abbrev JobId := Nat

/-- The argument of `done`. -/
abbrev Result := Except IoError LockParams

/-- Where the closure of a call is. -/
inductive Phase where
  | absent
  /-- On its way to the new thread. -/
  | offered
  | pre
  | operating
  /-- At `invoker.invoke(result)`. -/
  | invoking (result : Result)
  /-- In `done`, called from the closure. -/
  | calling
  /-- The captures of the closure are dropped. -/
  | dropping
  /-- In `done`, called from the destructor of the `Invoker`. -/
  | callingLast
  | ended
  deriving DecidableEq

structure Job where
  params : LockParams
  /-- The thread that runs the closure, or drops it. -/
  host : Thread
  tracker : TrackerId
  phase : Phase
  /-- `Invoker::inner` is `Some`. -/
  inner : Bool
  unwinding : Bool
  /-- No thread could be created for the call. -/
  failed : Bool
  preCalled : Bool
  preResult : Option (Except IoError Unit)
  operationCalled : Bool
  operation : Option Result
  /-- What `done` was called with. -/
  done : List Result
  deriving DecidableEq

def threadPanicked : IoError := .ofMessage "thread panicked"

namespace Job

def absent : Job where
  params := ⟨.unlock, .start, 0, 0, 0⟩
  host := 0
  tracker := 0
  phase := .absent
  inner := true
  unwinding := false
  failed := false
  preCalled := false
  preResult := none
  operationCalled := false
  operation := none
  done := []

/-- `Invoker::new`, and the closure that captures it. -/
def offer (params : LockParams) (tr : TrackerId) (host : Thread) : Job :=
  { absent with params := params, tracker := tr, host := host, phase := .offered }

/-- The new thread calls the closure. -/
def call (job : Job) : Job := { job with phase := .pre, preCalled := true }

/-- The closure is dropped and not called. -/
def discard (job : Job) : Job := { job with phase := .dropping }

/-- `Invoker::invoke`. -/
def invoke (job : Job) (result : Result) (calls otherwise : Phase) : Job :=
  if job.inner then
    { job with inner := false, done := job.done ++ [result], phase := calls }
  else { job with phase := otherwise }

end Job

inductive Event where
  | preReturns (result : Except IoError Unit)
  | prePanics
  | operationReturns (result : Result)
  | operationPanics
  | invoke
  | doneReturns
  | donePanics
  /-- `Drop for Invoker`. -/
  | dropInvoker

namespace Job

def Enabled (job : Job) : Event → Prop
  | .preReturns _ | .prePanics => job.phase = .pre
  | .operationReturns _ | .operationPanics => job.phase = .operating
  | .invoke => ∃ result, job.phase = .invoking result
  | .doneReturns | .donePanics => job.phase = .calling ∨ job.phase = .callingLast
  | .dropInvoker => job.phase = .dropping

instance (job : Job) (event : Event) : Decidable (job.Enabled event) :=
  match event with
  | .preReturns _ | .prePanics => inferInstanceAs (Decidable (job.phase = .pre))
  | .operationReturns _ | .operationPanics => inferInstanceAs (Decidable (job.phase = .operating))
  | .invoke =>
      match place : job.phase with
      | .invoking result => isTrue ⟨result, place⟩
      | .absent | .offered | .pre | .operating | .calling | .dropping | .callingLast | .ended =>
          isFalse (by simp [Enabled, place])
  | .doneReturns | .donePanics =>
      inferInstanceAs (Decidable (job.phase = .calling ∨ job.phase = .callingLast))
  | .dropInvoker => inferInstanceAs (Decidable (job.phase = .dropping))

/-- After `done`, in the closure or in the destructor. -/
def afterDone (job : Job) : Phase :=
  if job.phase = .calling then .dropping else .ended

def next (job : Job) : Event → Job
  | .preReturns result =>
      match result with
      | .ok () =>
          { job with phase := .operating, preResult := some result, operationCalled := true }
      | .error error => { job with phase := .invoking (.error error), preResult := some result }
  | .prePanics | .operationPanics => { job with phase := .dropping, unwinding := true }
  | .operationReturns result =>
      { job with phase := .invoking result, operation := some result }
  | .invoke =>
      match job.phase with
      | .invoking result => job.invoke result .calling .dropping
      | _ => job
  | .doneReturns => { job with phase := job.afterDone }
  | .donePanics => { job with phase := job.afterDone, unwinding := true }
  | .dropInvoker => job.invoke (.error threadPanicked) .callingLast .ended

/-- `done` panics in a destructor that runs during a panic. -/
def Aborts (job : Job) (event : Event) : Prop :=
  event = .donePanics ∧ job.phase = .callingLast ∧ job.unwinding = true

instance (job : Job) (event : Event) : Decidable (job.Aborts event) :=
  match event with
  | .donePanics =>
      decidable_of_iff (job.phase = .callingLast ∧ job.unwinding = true) (by simp [Aborts])
  | .preReturns _ | .prePanics | .operationReturns _ | .operationPanics | .invoke | .doneReturns
  | .dropInvoker => isFalse (by simp [Aborts])

end Job

/-! ## Calls next to the tracker -/

structure State where
  tracker : Tracker.State
  job : JobId → Job
  /-- The number of calls that were made. -/
  jobs : JobId
  /-- The call whose closure a thread was created for. -/
  jobAt : Thread → Option JobId
  aborted : Bool

def initial : State where
  tracker := Tracker.initial
  job := fun _ => Job.absent
  jobs := 0
  jobAt := fun _ => none
  aborted := false

@[simps] def State.setJob (s : State) (j : JobId) (job : Job) : State :=
  { s with job := fun x => if x = j then job else s.job x }

inductive Action where
  /-- A step of the tracker or of its users other than a detached call. -/
  | tracker (a : Tracker.Action)
  /-- `set_lock_blocking_detached` up to the report of the new thread. -/
  | detach (t : Thread) (params : LockParams) (tr : TrackerId) (child : Thread) (p : Pthread)
  /-- No thread can be created, and the closure is dropped. -/
  | detachFails (t : Thread) (params : LockParams) (tr : TrackerId)
  /-- The call that could not create a thread returns. -/
  | detachReturns (j : JobId)
  | job (j : JobId) (event : Event)

/-- The thread is done with its closure. -/
def State.Ended (s : State) (t : Thread) : Prop :=
  match s.jobAt t with
  | some j => (s.job j).phase = .ended
  | none => True

instance (s : State) (t : Thread) : Decidable (s.Ended t) :=
  match found : s.jobAt t with
  | some j => decidable_of_iff ((s.job j).phase = .ended) (by simp [State.Ended, found])
  | none => isTrue (by simp [State.Ended, found])

/-- The steps that a thread takes only behind the closure it was created for. -/
def State.Behind (s : State) : Tracker.Action → Prop
  | .terminate t | .closureEnds t => s.Ended t
  | _ => True

instance (s : State) (a : Tracker.Action) : Decidable (s.Behind a) :=
  match a with
  | .terminate t | .closureEnds t => inferInstanceAs (Decidable (s.Ended t))
  | .createThread _ _ | .guardCall _ _ _ | .spawn _ _ _ _ | .spawnFails _ _ | .childTrack _ _
  | .spawnReturn _ | .dropGuard _ _ | .untrack _ | .markExited _ | .handleStop _ _ | .handleLock _
  | .handleCheck _ | .handleKill _ | .handleSnooze _ | .handleTry _ | .trackerStop _ _
  | .trackerLock _ | .trackerCheck _ | .trackerKill _ _ | .trackerKillDone _ | .trackerSnooze _
  | .trackerTry _ | .trackerRelock _ => .isTrue trivial

/-- The thread of a closure executes neither a call of the tracker nor a drop of a guard. -/
def State.Executes (s : State) (t : Thread) : Prop :=
  (s.tracker.thread t).pc = .running ∨ (s.tracker.thread t).pc = .exiting

instance (s : State) (t : Thread) : Decidable (s.Executes t) :=
  inferInstanceAs (Decidable (_ ∨ _))

def Enabled (s : State) (a : Action) : Prop :=
  s.aborted = false ∧
    match a with
    | .tracker a => Tracker.Enabled s.tracker a ∧ s.Behind a
    | .detach t _ tr child p => Tracker.Enabled s.tracker (.spawn t tr child p)
    | .detachFails t _ tr => Tracker.Enabled s.tracker (.spawnFails t tr)
    | .detachReturns j =>
        ((s.job j).failed = true ∧ (s.job j).phase = .ended) ∧
          Tracker.Enabled s.tracker (.spawnFails (s.job j).host (s.job j).tracker)
    | .job j event => s.Executes (s.job j).host ∧ (s.job j).Enabled event

instance (s : State) (a : Action) : Decidable (Enabled s a) := by
  cases a <;> unfold Enabled <;> infer_instance

/-- The closure of a thread meets the answer of the tracker. -/
def State.report (s : State) (t : Thread) : State :=
  match s.jobAt t with
  | some j =>
      if (s.tracker.tracker (s.tracker.thread t).spawner).canSpawn then s.setJob j (s.job j).call
      else s.setJob j (s.job j).discard
  | none => s

def next (s : State) : Action → State
  | .tracker (.childTrack t g) =>
      { s.report t with tracker := Tracker.next s.tracker (.childTrack t g) }
  | .tracker a => { s with tracker := Tracker.next s.tracker a }
  | .detach t params tr child p =>
      { s.setJob s.jobs (Job.offer params tr child) with
        tracker := Tracker.next s.tracker (.spawn t tr child p)
        jobs := s.jobs + 1
        jobAt := fun x => if x = child then some s.jobs else s.jobAt x }
  | .detachFails t params tr =>
      { s.setJob s.jobs { (Job.offer params tr t).discard with failed := true } with
        jobs := s.jobs + 1 }
  | .detachReturns j =>
      { s with
        tracker := Tracker.next s.tracker (.spawnFails (s.job j).host (s.job j).tracker) }
  | .job j event =>
      { s.setJob j ((s.job j).next event) with aborted := decide ((s.job j).Aborts event) }

def machine : Transition.Machine State Action where
  Initial s := s = initial
  Enabled := Enabled
  next := next

instance (s : State) (a : Action) : Decidable (machine.Enabled s a) :=
  inferInstanceAs (Decidable (Enabled s a))

end Ulockmgr.Detached
