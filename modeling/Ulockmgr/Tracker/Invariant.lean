import Ulockmgr.Tracker

/-!
# What every reachable tracker state satisfies

`Owned` ties the guards to the threads that created them and the recorded
`pthread_t` values to live guards.  `Locked` ties the program counters inside
the two `stop` loops to the mutex they hold and to what they read under it.
-/

namespace Ulockmgr.Tracker

/-- In the drop of a guard. -/
def Task.Dropping (task : Task) : Prop := task.pc = .dropUntrack ∨ task.pc = .dropMark

/-- Created and not yet marked as exited. -/
def Guard.Present (guard : Guard) : Prop := guard.phase = .live ∨ guard.phase = .untracked

structure Owned (s : State) : Prop where
  inUse : ∀ t, s.Alive t → (s.thread t).pthread ∈ s.inUse
  distinct : ∀ t u, s.Alive t → s.Alive u → (s.thread t).pthread = (s.thread u).pthread → t = u
  alive : ∀ t g, g ∈ (s.thread t).guards → s.Alive t
  owner : ∀ t g, g ∈ (s.thread t).guards → (s.guard g).thread = t ∧ (s.guard g).Present
  present : ∀ g, (s.guard g).Present → g ∈ (s.thread (s.guard g).thread).guards
  born : ∀ g, (s.guard g).phase ≠ .absent → (s.thread (s.guard g).thread).pc ≠ .unborn
  handle : ∀ g, (s.guard g).phase ≠ .absent →
    (s.guard g).handle = (s.thread (s.guard g).thread).pthread
  main : ∀ t, (s.thread t).closure = .running → (s.thread t).mainGuard ∈ (s.thread t).guards ∧
    ((s.thread t).Dropping → (s.thread t).guard ≠ (s.thread t).mainGuard)
  dropping : ∀ t, (s.thread t).Dropping → (s.thread t).guard ∈ (s.thread t).guards
  untracked : ∀ t g, g ∈ (s.thread t).guards → (s.guard g).phase = .untracked →
    (s.thread t).pc = .dropMark ∧ (s.thread t).guard = g
  marking : ∀ t, (s.thread t).pc = .dropMark → (s.guardOf t).phase = .untracked
  threads : ∀ tr p, p ∈ (s.tracker tr).threads →
    ∃ g, (s.guard g).phase = .live ∧ (s.guard g).tracker = tr ∧ (s.guard g).handle = p

theorem owned_initial : Owned initial := by
  constructor <;>
    simp [initial, Task.unborn, Guard.absent, RawTracker.new, State.Alive, Task.Dropping,
      Guard.Present]

section OwnedStep
variable {s : State} {a : Action} (inv : Owned s) (enabled : Enabled s a)
include inv enabled

theorem Owned.inUse_next (x : Thread) (alive : (next s a).Alive x) :
    ((next s a).thread x).pthread ∈ (next s a).inUse := by
  have used := inv.inUse x
  have apart := inv.distinct x
  revert alive
  cases a <;> simp only [Enabled] at enabled <;> simp only [next, handleCheck, trackerCheck] <;>
    (try split_ifs) <;> grind [State.Alive, Task.unborn]

theorem Owned.distinct_next (x y : Thread) (aliveX : (next s a).Alive x)
    (aliveY : (next s a).Alive y)
    (same : ((next s a).thread x).pthread = ((next s a).thread y).pthread) : x = y := by
  have apart := inv.distinct x y
  have usedX := inv.inUse x
  have usedY := inv.inUse y
  revert aliveX aliveY same
  cases a <;> simp only [Enabled] at enabled <;> simp only [next, handleCheck, trackerCheck] <;>
    (try split_ifs) <;> grind [State.Alive, Task.unborn]

theorem Owned.alive_next (x : Thread) (g : GuardId) (held : g ∈ ((next s a).thread x).guards) :
    (next s a).Alive x := by
  have alive := inv.alive x g
  revert held
  cases a <;> simp only [Enabled] at enabled <;> simp only [next, handleCheck, trackerCheck] <;>
    (try split_ifs) <;> grind [State.Alive, Task.unborn]

theorem Owned.owner_next (x : Thread) (g : GuardId) (held : g ∈ ((next s a).thread x).guards) :
    ((next s a).guard g).thread = x ∧ ((next s a).guard g).Present := by
  have owner := inv.owner x g
  -- a guard leaves the set of its own thread in the same step that marks it
  have dropping := inv.dropping
  have dropped := fun t => inv.owner t (s.thread t).guard
  revert held
  cases a <;> simp only [Enabled] at enabled <;> simp only [next, handleCheck, trackerCheck] <;>
    (try split_ifs) <;> grind [Task.unborn, Task.Dropping, Guard.Present]

theorem Owned.present_next (g : GuardId) (present : ((next s a).guard g).Present) :
    g ∈ ((next s a).thread ((next s a).guard g).thread).guards := by
  have held := inv.present g
  have alive := inv.alive (s.guard g).thread g
  have dropping := inv.dropping
  have dropped := fun t => inv.owner t (s.thread t).guard
  revert present
  cases a <;> simp only [Enabled] at enabled <;> simp only [next, handleCheck, trackerCheck] <;>
    (try split_ifs) <;> grind [Task.unborn, Task.Dropping, Guard.Present, State.Alive]

theorem Owned.born_next (g : GuardId) (created : ((next s a).guard g).phase ≠ .absent) :
    ((next s a).thread ((next s a).guard g).thread).pc ≠ .unborn := by
  have born := inv.born g
  have dropping := inv.dropping
  have dropped := fun t => inv.owner t (s.thread t).guard
  revert created
  cases a <;> simp only [Enabled] at enabled <;> simp only [next, handleCheck, trackerCheck] <;>
    (try split_ifs) <;> grind [Task.unborn, Task.Dropping, Guard.Present]

theorem Owned.handle_next (g : GuardId) (created : ((next s a).guard g).phase ≠ .absent) :
    ((next s a).guard g).handle = ((next s a).thread ((next s a).guard g).thread).pthread := by
  have born := inv.born g
  have handle := inv.handle g
  have dropping := inv.dropping
  have dropped := fun t => inv.owner t (s.thread t).guard
  revert created
  cases a <;> simp only [Enabled] at enabled <;> simp only [next, handleCheck, trackerCheck] <;>
    (try split_ifs) <;> grind [Task.unborn, Task.Dropping, Guard.Present]

theorem Owned.main_next (x : Thread) (runs : ((next s a).thread x).closure = .running) :
    ((next s a).thread x).mainGuard ∈ ((next s a).thread x).guards ∧
      (((next s a).thread x).Dropping →
        ((next s a).thread x).guard ≠ ((next s a).thread x).mainGuard) := by
  have main := inv.main x
  revert runs
  cases a <;> simp only [Enabled] at enabled <;> simp only [next, handleCheck, trackerCheck] <;>
    (try split_ifs) <;> grind [Task.unborn, Task.Dropping]

theorem Owned.dropping_next (x : Thread) (drops : ((next s a).thread x).Dropping) :
    ((next s a).thread x).guard ∈ ((next s a).thread x).guards := by
  have main := inv.main x
  have dropping := inv.dropping x
  revert drops
  cases a <;> simp only [Enabled] at enabled <;> simp only [next, handleCheck, trackerCheck] <;>
    (try split_ifs) <;> grind [Task.unborn, Task.Dropping]

theorem Owned.untracked_next (x : Thread) (g : GuardId)
    (held : g ∈ ((next s a).thread x).guards)
    (untracked : ((next s a).guard g).phase = .untracked) :
    ((next s a).thread x).pc = .dropMark ∧ ((next s a).thread x).guard = g := by
  have old := inv.untracked x g
  have dropping := inv.dropping
  have owner := fun t => inv.owner t g
  revert held untracked
  cases a <;> simp only [Enabled] at enabled <;> simp only [next, handleCheck, trackerCheck] <;>
    (try split_ifs) <;> grind [Task.unborn, Task.Dropping, Guard.Present]

theorem Owned.marking_next (x : Thread) (marks : ((next s a).thread x).pc = .dropMark) :
    ((next s a).guardOf x).phase = .untracked := by
  have old := inv.marking x
  have dropping := inv.dropping
  have owner := fun t => inv.owner t (s.thread x).guard
  revert marks
  cases a <;> simp only [Enabled] at enabled <;> simp only [next, handleCheck, trackerCheck] <;>
    (try split_ifs) <;> grind [Task.unborn, Task.Dropping, Guard.Present]

/-- The guard that witnesses a recorded `pthread_t` stays live: the only step
that ends its life also removes the `pthread_t`. -/
theorem Owned.threads_next (tr : TrackerId) (p : Pthread)
    (tracked : p ∈ ((next s a).tracker tr).threads) :
    ∃ g, ((next s a).guard g).phase = .live ∧ ((next s a).guard g).tracker = tr ∧
      ((next s a).guard g).handle = p := by
  by_cases old : p ∈ (s.tracker tr).threads
  · obtain ⟨g, live, ofTracker, handle⟩ := inv.threads tr p old
    refine ⟨g, ?_⟩
    have dropping := inv.dropping
    have owner := fun t => inv.owner t g
    have stored := inv.handle g
    have marking := inv.marking
    revert tracked
    cases a <;> simp only [Enabled] at enabled <;> simp only [next, handleCheck, trackerCheck] <;>
      (try split_ifs) <;> grind [Task.unborn, Task.Dropping, Guard.Present]
  · cases a with
    | guardCall t tracker g =>
        refine ⟨g, ?_⟩
        revert tracked
        simp only [next]
        split_ifs <;> grind
    | childTrack t g =>
        refine ⟨g, ?_⟩
        revert tracked
        simp only [next]
        split_ifs <;> grind
    | _ =>
        exfalso
        revert tracked
        simp only [next, handleCheck, trackerCheck]
        (try split_ifs) <;> grind

end OwnedStep

theorem owned_next {s : State} {a : Action} (inv : Owned s) (enabled : Enabled s a) :
    Owned (next s a) where
  inUse := inv.inUse_next enabled
  distinct := inv.distinct_next enabled
  alive := inv.alive_next enabled
  owner := inv.owner_next enabled
  present := inv.present_next enabled
  born := inv.born_next enabled
  handle := inv.handle_next enabled
  main := inv.main_next enabled
  dropping := inv.dropping_next enabled
  untracked := inv.untracked_next enabled
  marking := inv.marking_next enabled
  threads := inv.threads_next enabled

/-! ## The two mutexes -/

/-- Inside `InterruptibleHandle::stop`. -/
def Task.StopsHandle (task : Task) : Prop :=
  task.pc = .handleLock ∨ task.pc = .handleCheck ∨ task.pc = .handleKill ∨
    task.pc = .handleSnooze ∨ task.pc = .handleTry

/-- Inside `InterruptibleTracker::stop`, after its first critical section began. -/
def Task.StopsTracker (task : Task) : Prop :=
  task.pc = .trackerCheck ∨ task.pc = .trackerKill ∨ task.pc = .trackerSnooze ∨
    task.pc = .trackerTry ∨ task.pc = .trackerRelock

structure Locked (s : State) : Prop where
  created : ∀ t, (s.thread t).StopsHandle → (s.guardOf t).phase ≠ .absent
  exitedLock : ∀ t, (s.thread t).pc = .handleCheck ∨ (s.thread t).pc = .handleKill →
    (s.guardOf t).holder = some t
  notExited : ∀ t, (s.thread t).pc = .handleKill → (s.guardOf t).phase ≠ .exited
  dataLock : ∀ t, (s.thread t).pc = .trackerCheck ∨ (s.thread t).pc = .trackerKill →
    (s.trackerOf t).holder = some t
  stopping : ∀ t, (s.thread t).StopsTracker → (s.trackerOf t).canSpawn = false
  toSignal : ∀ t, (s.thread t).pc = .trackerKill →
    ∀ p ∈ (s.thread t).toSignal, p ∈ (s.trackerOf t).threads
  stopped : ∀ tr, (s.tracker tr).stopReturned = true →
    (s.tracker tr).canSpawn = false ∧ (s.tracker tr).threads = ∅

theorem locked_initial : Locked initial := by
  constructor <;>
    simp [initial, Task.unborn, RawTracker.new, Task.StopsHandle, Task.StopsTracker]

section LockedStep
variable {s : State} {a : Action} (inv : Locked s) (enabled : Enabled s a)
include inv enabled

theorem Locked.created_next (x : Thread) (stops : ((next s a).thread x).StopsHandle) :
    ((next s a).guardOf x).phase ≠ .absent := by
  have old := inv.created x
  revert stops
  cases a <;> simp only [Enabled] at enabled <;> simp only [next, handleCheck, trackerCheck] <;>
    (try split_ifs) <;> grind [Task.unborn, Task.StopsHandle]

/-- Nobody else can take, or give back, a mutex that `x` holds. -/
theorem Locked.exitedLock_next (x : Thread)
    (inside : ((next s a).thread x).pc = .handleCheck ∨ ((next s a).thread x).pc = .handleKill) :
    ((next s a).guardOf x).holder = some x := by
  have created := inv.created x
  have old := inv.exitedLock
  revert inside
  cases a <;> simp only [Enabled] at enabled <;> simp only [next, handleCheck, trackerCheck] <;>
    (try split_ifs) <;> grind [Task.unborn, Task.StopsHandle]

theorem Locked.notExited_next (x : Thread) (kills : ((next s a).thread x).pc = .handleKill) :
    ((next s a).guardOf x).phase ≠ .exited := by
  have held := inv.exitedLock x
  have old := inv.notExited x
  revert kills
  cases a <;> simp only [Enabled] at enabled <;> simp only [next, handleCheck, trackerCheck] <;>
    (try split_ifs) <;> grind [Task.unborn]

theorem Locked.dataLock_next (x : Thread)
    (inside : ((next s a).thread x).pc = .trackerCheck ∨
      ((next s a).thread x).pc = .trackerKill) :
    ((next s a).trackerOf x).holder = some x := by
  have old := inv.dataLock
  revert inside
  cases a <;> simp only [Enabled] at enabled <;> simp only [next, handleCheck, trackerCheck] <;>
    (try split_ifs) <;> grind [Task.unborn]

theorem Locked.stopping_next (x : Thread) (stops : ((next s a).thread x).StopsTracker) :
    ((next s a).trackerOf x).canSpawn = false := by
  have old := inv.stopping x
  revert stops
  cases a <;> simp only [Enabled] at enabled <;> simp only [next, handleCheck, trackerCheck] <;>
    (try split_ifs) <;> grind [Task.unborn, Task.StopsTracker]

/-- The set cannot change under a `for` loop: `track` and `untrack` need the mutex. -/
theorem Locked.toSignal_next (x : Thread) (kills : ((next s a).thread x).pc = .trackerKill)
    (p : Pthread) (pending : p ∈ ((next s a).thread x).toSignal) :
    p ∈ ((next s a).trackerOf x).threads := by
  have held := inv.dataLock x
  have old := inv.toSignal x
  revert kills pending
  cases a <;> simp only [Enabled] at enabled <;> simp only [next, handleCheck, trackerCheck] <;>
    (try split_ifs) <;> grind [Task.unborn]

theorem Locked.stopped_next (tr : TrackerId)
    (returned : ((next s a).tracker tr).stopReturned = true) :
    ((next s a).tracker tr).canSpawn = false ∧ ((next s a).tracker tr).threads = ∅ := by
  have old := inv.stopped tr
  have stopping := inv.stopping
  revert returned
  cases a <;> simp only [Enabled] at enabled <;> simp only [next, handleCheck, trackerCheck] <;>
    (try split_ifs) <;> grind [Task.StopsTracker]

end LockedStep

theorem locked_next {s : State} {a : Action} (inv : Locked s) (enabled : Enabled s a) :
    Locked (next s a) where
  created := inv.created_next enabled
  exitedLock := inv.exitedLock_next enabled
  notExited := inv.notExited_next enabled
  dataLock := inv.dataLock_next enabled
  stopping := inv.stopping_next enabled
  toSignal := inv.toSignal_next enabled
  stopped := inv.stopped_next enabled

theorem reachable_owned {s : State} (reached : machine.Reachable s) : Owned s := by
  apply reached.invariant
  · rintro _ rfl
    exact owned_initial
  · exact fun _ _ => owned_next

theorem reachable_locked {s : State} (reached : machine.Reachable s) : Locked s := by
  apply reached.invariant
  · rintro _ rfl
    exact locked_initial
  · exact fun _ _ => locked_next

end Ulockmgr.Tracker
