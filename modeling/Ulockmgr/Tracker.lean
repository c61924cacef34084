import Mathlib.Data.Finset.Basic
import Mathlib.Data.Finset.Card
import Ulockmgr.Library.Machine

/-!
# The interruptible tracker

`tracker.rs` as a machine over threads, trackers and guards.  A thread has an
identity that is never reused and a `pthread_t` that may be; the tracker and the
handles only ever see the latter.  A critical section that contains nothing but
accesses to the protected data (`track`, `untrack`, marking the exit) is one
step, taken while nobody holds the mutex.  The two `stop` loops hold their mutex
across several steps, so the holder is part of the state.
-/

namespace Ulockmgr.Tracker

abbrev Thread := Nat
abbrev Pthread := Nat
abbrev TrackerId := Nat
abbrev GuardId := Nat

/-! ## `crossbeam_utils::Backoff` -/

structure Backoff where
  step : Nat
  deriving DecidableEq, Repr

namespace Backoff

def yieldLimit : Nat := 10

def new : Backoff := ⟨0⟩

def snooze (backoff : Backoff) : Backoff :=
  if backoff.step ≤ yieldLimit then ⟨backoff.step + 1⟩ else backoff

def isCompleted (backoff : Backoff) : Bool := decide (yieldLimit < backoff.step)

end Backoff

/-! ## State -/

/-- `RawInterruptibleTracker`: the protected data, the thread inside a critical
section of a `stop` call, and whether some `stop` call has already returned. -/
structure RawTracker where
  canSpawn : Bool
  newThread : Bool
  threads : Finset Pthread
  holder : Option Thread
  stopReturned : Bool
  deriving DecidableEq

inductive GuardPhase where
  | absent
  | live
  | untracked
  | exited
  deriving DecidableEq, Repr

/-- `InterruptibleGuard` with its `RawInterruptibleExitTracker`.  The `exited`
flag is the last phase; `handle` is the `pthread_t` every handle of it stores. -/
structure Guard where
  phase : GuardPhase
  tracker : TrackerId
  thread : Thread
  handle : Pthread
  holder : Option Thread
  deriving DecidableEq

/-- The closure passed to the `spawn` that started a thread. -/
inductive Closure where
  | none
  | pending
  | running
  | finished
  | discarded
  deriving DecidableEq, Repr

inductive Pc where
  | unborn
  | childStart
  | running
  | spawnWait
  | dropUntrack
  | dropMark
  | handleLock
  | handleCheck
  | handleKill
  | handleSnooze
  | handleTry
  | trackerLock
  | trackerCheck
  | trackerKill
  | trackerSnooze
  | trackerTry
  | trackerRelock
  | exiting
  | dead
  deriving DecidableEq, Repr

/-- A thread: where it is, the locals of the call it is in, the guards it has
created and not finished dropping, and the closure it was spawned for. -/
structure Task where
  pc : Pc
  pthread : Pthread
  tracker : TrackerId
  guard : GuardId
  child : Thread
  backoff : Backoff
  snoozeInterruptDone : Bool
  /-- Threads the `for` loop of `InterruptibleTracker::stop` still has to signal. -/
  toSignal : Finset Pthread
  /-- The loop took the branch for a completed backoff. -/
  parked : Bool
  guards : Finset GuardId
  closure : Closure
  mainGuard : GuardId
  /-- What the thread sent through `spawn_tx`. -/
  report : Option Bool
  /-- The tracker whose `spawn` started the thread, and whether some `stop` call
  of it had returned before that call. -/
  spawner : TrackerId
  spawnedAfterStop : Bool
  /-- Whether the last `guard` or `spawn` call of the thread returned `Ok`. -/
  answer : Option Bool
  /-- The last `InterruptibleHandle::stop` call of the thread ended in a panic. -/
  panicked : Bool
  deriving DecidableEq

structure State where
  thread : Thread → Task
  tracker : TrackerId → RawTracker
  guard : GuardId → Guard
  /-- The `pthread_t` values of the threads that exist. -/
  inUse : Finset Pthread

namespace State

def setThread (s : State) (t : Thread) (task : Task) : State :=
  { s with thread := Function.update s.thread t task }

def setTracker (s : State) (tr : TrackerId) (raw : RawTracker) : State :=
  { s with tracker := Function.update s.tracker tr raw }

def setGuard (s : State) (g : GuardId) (guard : Guard) : State :=
  { s with guard := Function.update s.guard g guard }

section
variable (s : State) (t : Thread) (task : Task) (tr : TrackerId) (raw : RawTracker)
  (g : GuardId) (guard : Guard)

@[simp, grind =] theorem setThread_thread (x : Thread) :
    (s.setThread t task).thread x = if x = t then task else s.thread x := by
  simp [setThread, Function.update_apply]

@[simp, grind =] theorem setThread_tracker (x : TrackerId) :
    (s.setThread t task).tracker x = s.tracker x := rfl
@[simp, grind =] theorem setThread_guard (x : GuardId) :
    (s.setThread t task).guard x = s.guard x := rfl
@[simp, grind =] theorem setThread_inUse : (s.setThread t task).inUse = s.inUse := rfl

@[simp, grind =] theorem setTracker_tracker (x : TrackerId) :
    (s.setTracker tr raw).tracker x = if x = tr then raw else s.tracker x := by
  simp [setTracker, Function.update_apply]

@[simp, grind =] theorem setTracker_thread (x : Thread) :
    (s.setTracker tr raw).thread x = s.thread x := rfl
@[simp, grind =] theorem setTracker_guard (x : GuardId) :
    (s.setTracker tr raw).guard x = s.guard x := rfl
@[simp, grind =] theorem setTracker_inUse : (s.setTracker tr raw).inUse = s.inUse := rfl

@[simp, grind =] theorem setGuard_guard (x : GuardId) :
    (s.setGuard g guard).guard x = if x = g then guard else s.guard x := by
  simp [setGuard, Function.update_apply]

@[simp, grind =] theorem setGuard_thread (x : Thread) :
    (s.setGuard g guard).thread x = s.thread x := rfl
@[simp, grind =] theorem setGuard_tracker (x : TrackerId) :
    (s.setGuard g guard).tracker x = s.tracker x := rfl
@[simp, grind =] theorem setGuard_inUse : (s.setGuard g guard).inUse = s.inUse := rfl

end

/-- A thread exists from its creation to its termination. -/
def Alive (s : State) (t : Thread) : Prop :=
  (s.thread t).pc ≠ .unborn ∧ (s.thread t).pc ≠ .dead

instance (s : State) (t : Thread) : Decidable (s.Alive t) :=
  inferInstanceAs (Decidable (_ ∧ _))

end State

def Task.unborn : Task where
  pc := .unborn
  pthread := 0
  tracker := 0
  guard := 0
  child := 0
  backoff := Backoff.new
  snoozeInterruptDone := false
  toSignal := ∅
  parked := false
  guards := ∅
  closure := .none
  mainGuard := 0
  report := none
  spawner := 0
  spawnedAfterStop := false
  answer := none
  panicked := false

/-- `InterruptibleTracker::new`. -/
def RawTracker.new : RawTracker := ⟨true, false, ∅, none, false⟩

def Guard.absent : Guard := ⟨.absent, 0, 0, 0, none⟩

def initial : State :=
  ⟨fun _ => Task.unborn, fun _ => RawTracker.new, fun _ => Guard.absent, ∅⟩

/-! ## Steps -/

inductive Action where
  /-- Other code of the process starts a thread. -/
  | createThread (t : Thread) (p : Pthread)
  | terminate (t : Thread)
  | guardCall (t : Thread) (tr : TrackerId) (g : GuardId)
  | spawn (t : Thread) (tr : TrackerId) (child : Thread) (p : Pthread)
  | spawnFails (t : Thread) (tr : TrackerId)
  | childTrack (t : Thread) (g : GuardId)
  | spawnReturn (t : Thread)
  /-- The closure returns or unwinds. -/
  | closureEnds (t : Thread)
  | dropGuard (t : Thread) (g : GuardId)
  | untrack (t : Thread)
  | markExited (t : Thread)
  | handleStop (t : Thread) (g : GuardId)
  | handleLock (t : Thread)
  | handleCheck (t : Thread)
  | handleKill (t : Thread)
  | handleSnooze (t : Thread)
  | handleTry (t : Thread)
  | trackerStop (t : Thread) (tr : TrackerId)
  | trackerLock (t : Thread)
  | trackerCheck (t : Thread)
  | trackerKill (t : Thread) (p : Pthread)
  | trackerKillDone (t : Thread)
  | trackerSnooze (t : Thread)
  | trackerTry (t : Thread)
  | trackerRelock (t : Thread)
  deriving DecidableEq, Repr

/-- The guard, or the tracker, of the call thread `t` is in. -/
abbrev State.guardOf (s : State) (t : Thread) : Guard := s.guard (s.thread t).guard

abbrev State.trackerOf (s : State) (t : Thread) : RawTracker := s.tracker (s.thread t).tracker

def Enabled (s : State) : Action → Prop
  | .createThread t p => (s.thread t).pc = .unborn ∧ p ∉ s.inUse
  | .terminate t =>
      ((s.thread t).pc = .running ∨ (s.thread t).pc = .exiting) ∧
        (s.thread t).guards = ∅ ∧ (s.thread t).closure ≠ .running
  | .guardCall t tr g =>
      (s.thread t).pc = .running ∧ (s.tracker tr).holder = none ∧ (s.guard g).phase = .absent
  | .spawn t _ child p =>
      (s.thread t).pc = .running ∧ (s.thread child).pc = .unborn ∧ p ∉ s.inUse
  | .spawnFails t _ => (s.thread t).pc = .running
  | .childTrack t g =>
      (s.thread t).pc = .childStart ∧ (s.tracker (s.thread t).spawner).holder = none ∧
        (s.guard g).phase = .absent
  | .spawnReturn t =>
      (s.thread t).pc = .spawnWait ∧ (s.thread (s.thread t).child).report ≠ none
  | .closureEnds t => (s.thread t).pc = .running ∧ (s.thread t).closure = .running
  | .dropGuard t g =>
      (s.thread t).pc = .running ∧ g ∈ (s.thread t).guards ∧
        ¬((s.thread t).closure = .running ∧ g = (s.thread t).mainGuard)
  | .untrack t =>
      (s.thread t).pc = .dropUntrack ∧ (s.tracker (s.guardOf t).tracker).holder = none
  | .markExited t => (s.thread t).pc = .dropMark ∧ (s.guardOf t).holder = none
  | .handleStop t g => (s.thread t).pc = .running ∧ (s.guard g).phase ≠ .absent
  | .handleLock t => (s.thread t).pc = .handleLock ∧ (s.guardOf t).holder = none
  | .handleCheck t => (s.thread t).pc = .handleCheck
  | .handleKill t => (s.thread t).pc = .handleKill
  | .handleSnooze t => (s.thread t).pc = .handleSnooze
  | .handleTry t => (s.thread t).pc = .handleTry
  | .trackerStop t _ => (s.thread t).pc = .running
  | .trackerLock t => (s.thread t).pc = .trackerLock ∧ (s.trackerOf t).holder = none
  | .trackerCheck t => (s.thread t).pc = .trackerCheck
  | .trackerKill t p => (s.thread t).pc = .trackerKill ∧ p ∈ (s.thread t).toSignal
  | .trackerKillDone t => (s.thread t).pc = .trackerKill ∧ (s.thread t).toSignal = ∅
  | .trackerSnooze t => (s.thread t).pc = .trackerSnooze
  | .trackerTry t => (s.thread t).pc = .trackerTry
  | .trackerRelock t => (s.thread t).pc = .trackerRelock ∧ (s.trackerOf t).holder = none

instance (s : State) (a : Action) : Decidable (Enabled s a) := by
  cases a <;> unfold Enabled <;> infer_instance

/-- `RawInterruptibleTracker::track` by a thread of `pthread_t` `p`, on a tracker
that may spawn. -/
abbrev RawTracker.track (raw : RawTracker) (p : Pthread) : RawTracker :=
  { raw with threads := insert p raw.threads, newThread := true }

/-- `RawInterruptibleTracker::untrack`. -/
abbrev RawTracker.untrack (raw : RawTracker) (p : Pthread) : RawTracker :=
  { raw with threads := raw.threads.erase p }

abbrev State.lockGuard (s : State) (t : Thread) : State :=
  s.setGuard (s.thread t).guard { s.guardOf t with holder := some t }

abbrev State.unlockGuard (s : State) (t : Thread) : State :=
  s.setGuard (s.thread t).guard { s.guardOf t with holder := none }

abbrev State.lockTracker (s : State) (t : Thread) : State :=
  s.setTracker (s.thread t).tracker { s.trackerOf t with holder := some t }

abbrev State.unlockTracker (s : State) (t : Thread) : State :=
  s.setTracker (s.thread t).tracker { s.trackerOf t with holder := none }

/-- One evaluation of the condition and of the branches of the loop of
`InterruptibleHandle::stop`, with the `exited` mutex held. -/
def handleCheck (s : State) (t : Thread) : State :=
  let task := s.thread t
  if (s.guardOf t).phase = .exited then
    (s.unlockGuard t).setThread t { task with pc := .running }
  else if (s.guardOf t).handle = task.pthread then
    -- panic!("reentrant deadlock detected"); unwinding releases the mutex
    (s.unlockGuard t).setThread t { task with pc := .running, panicked := true }
  else if task.backoff.isCompleted then
    s.setThread t { task with pc := .handleKill, parked := true }
  else if !task.snoozeInterruptDone then
    s.setThread t { task with pc := .handleKill, parked := false }
  else
    (s.unlockGuard t).setThread t { task with pc := .handleSnooze }

/-- The same for `InterruptibleTracker::stop`, with the `data` mutex held. -/
def trackerCheck (s : State) (t : Thread) : State :=
  let task := s.thread t
  let raw := s.trackerOf t
  if raw.threads = ∅ then
    (s.setTracker task.tracker { raw with holder := none, stopReturned := true }).setThread t
      { task with pc := .running }
  else if raw.newThread then
    -- the reset backoff is not completed and the reset flag asks for a signal round
    (s.setTracker task.tracker { raw with newThread := false }).setThread t
      { task with
        pc := .trackerKill
        backoff := Backoff.new
        snoozeInterruptDone := false
        toSignal := raw.threads
        parked := false }
  else if task.backoff.isCompleted then
    s.setThread t { task with pc := .trackerKill, toSignal := raw.threads, parked := true }
  else if !task.snoozeInterruptDone then
    s.setThread t { task with pc := .trackerKill, toSignal := raw.threads, parked := false }
  else
    (s.unlockTracker t).setThread t { task with pc := .trackerSnooze }

def next (s : State) : Action → State
  | .createThread t p =>
      { s.setThread t { Task.unborn with pc := .running, pthread := p } with
        inUse := insert p s.inUse }
  | .terminate t =>
      { s.setThread t { s.thread t with pc := .dead } with
        inUse := s.inUse.erase (s.thread t).pthread }
  | .guardCall t tr g =>
      let task := s.thread t
      if (s.tracker tr).canSpawn then
        ((s.setTracker tr ((s.tracker tr).track task.pthread)).setGuard g
          ⟨.live, tr, t, task.pthread, none⟩).setThread t
            { task with guards := insert g task.guards, answer := some true }
      else s.setThread t { task with answer := some false }
  | .spawn t tr child p =>
      { (s.setThread child
          { Task.unborn with
            pc := .childStart
            pthread := p
            spawner := tr
            spawnedAfterStop := (s.tracker tr).stopReturned
            closure := .pending }).setThread t
              { s.thread t with pc := .spawnWait, child := child } with
        inUse := insert p s.inUse }
  | .spawnFails t _ => s.setThread t { s.thread t with answer := some false }
  | .childTrack t g =>
      let task := s.thread t
      if (s.tracker task.spawner).canSpawn then
        ((s.setTracker task.spawner ((s.tracker task.spawner).track task.pthread)).setGuard g
          ⟨.live, task.spawner, t, task.pthread, none⟩).setThread t
            { task with
              pc := .running
              guards := insert g task.guards
              closure := .running
              mainGuard := g
              report := some true }
      else s.setThread t { task with pc := .exiting, closure := .discarded, report := some false }
  | .spawnReturn t =>
      s.setThread t
        { s.thread t with pc := .running, answer := (s.thread (s.thread t).child).report }
  | .closureEnds t =>
      -- the guard is declared before the closure is called, so it is dropped after it
      s.setThread t
        { s.thread t with
          pc := .dropUntrack
          guard := (s.thread t).mainGuard
          closure := .finished }
  | .dropGuard t g => s.setThread t { s.thread t with pc := .dropUntrack, guard := g }
  | .untrack t =>
      let guard := s.guardOf t
      ((s.setTracker guard.tracker
          ((s.tracker guard.tracker).untrack (s.thread t).pthread)).setGuard (s.thread t).guard
            { guard with phase := .untracked }).setThread t { s.thread t with pc := .dropMark }
  | .markExited t =>
      (s.setGuard (s.thread t).guard { s.guardOf t with phase := .exited }).setThread t
        { s.thread t with
          pc := .running
          guards := (s.thread t).guards.erase (s.thread t).guard }
  | .handleStop t g =>
      s.setThread t
        { s.thread t with
          pc := .handleLock
          guard := g
          backoff := Backoff.new
          snoozeInterruptDone := false
          panicked := false }
  | .handleLock t => (s.lockGuard t).setThread t { s.thread t with pc := .handleCheck }
  | .handleCheck t => handleCheck s t
  | .handleKill t =>
      -- pthread_kill, then either `condvar.wait_for` or `drop(exit_guard)`
      if (s.thread t).parked then
        (s.unlockGuard t).setThread t { s.thread t with pc := .handleLock }
      else
        (s.unlockGuard t).setThread t
          { s.thread t with pc := .handleSnooze, snoozeInterruptDone := true }
  | .handleSnooze t =>
      s.setThread t { s.thread t with pc := .handleTry, backoff := (s.thread t).backoff.snooze }
  | .handleTry t =>
      if (s.guardOf t).holder = none then
        (s.lockGuard t).setThread t { s.thread t with pc := .handleCheck }
      else if (s.thread t).backoff.isCompleted then
        s.setThread t { s.thread t with pc := .handleLock }
      else s.setThread t { s.thread t with backoff := (s.thread t).backoff.snooze }
  | .trackerStop t tr =>
      s.setThread t
        { s.thread t with
          pc := .trackerLock
          tracker := tr
          backoff := Backoff.new
          snoozeInterruptDone := false }
  | .trackerLock t =>
      (s.setTracker (s.thread t).tracker
          { s.trackerOf t with holder := some t, canSpawn := false }).setThread t
        { s.thread t with pc := .trackerCheck }
  | .trackerCheck t => trackerCheck s t
  | .trackerKill t p =>
      s.setThread t { s.thread t with toSignal := (s.thread t).toSignal.erase p }
  | .trackerKillDone t =>
      if (s.thread t).parked then
        (s.unlockTracker t).setThread t { s.thread t with pc := .trackerRelock }
      else
        (s.unlockTracker t).setThread t
          { s.thread t with pc := .trackerSnooze, snoozeInterruptDone := true }
  | .trackerSnooze t =>
      s.setThread t { s.thread t with pc := .trackerTry, backoff := (s.thread t).backoff.snooze }
  | .trackerTry t =>
      if (s.trackerOf t).holder = none then
        (s.lockTracker t).setThread t { s.thread t with pc := .trackerCheck }
      else if (s.thread t).backoff.isCompleted then
        s.setThread t { s.thread t with pc := .trackerRelock }
      else s.setThread t { s.thread t with backoff := (s.thread t).backoff.snooze }
  | .trackerRelock t => (s.lockTracker t).setThread t { s.thread t with pc := .trackerCheck }

-- every proof below unfolds the two: their equations are generated here, once
section
attribute [local simp] Enabled next
end

def machine : Transition.Machine State Action where
  Initial s := s = initial
  Enabled := Enabled
  next := next

instance (s : State) (a : Action) : Decidable (machine.Enabled s a) :=
  inferInstanceAs (Decidable (Enabled s a))

end Ulockmgr.Tracker
