import Ulockmgr.Tracker.Invariant

/-!
# When a stop is final

`InterruptibleTracker::stop` waits for its set of `pthread_t` values to become
empty.  The set has one entry for a thread, however many guards of the tracker
the thread holds, and the first guard dropped removes it.  So a returned `stop`
is final exactly as long as no thread takes a second guard of a tracker while it
still holds one.
-/

namespace Ulockmgr.Tracker

/-- `InterruptibleTracker::guard` is called by a thread that holds no guard of the
same tracker. -/
def SingleGuard (s : State) : Action → Prop
  | .guardCall t tr _ => ∀ g ∈ (s.thread t).guards, (s.guard g).tracker ≠ tr
  | _ => True

/-- Nothing of tracker `tr` is alive or running. -/
def Silent (s : State) (tr : TrackerId) : Prop :=
  (∀ g, (s.guard g).tracker = tr → (s.guard g).phase ≠ .live) ∧
    ∀ t, (s.thread t).spawner = tr → (s.thread t).closure ≠ .running

/-- `spawn` and `guard` calls on `tr` made from now on return `Err`, create no
guard and run no closure. -/
def Refusing (s : State) (tr : TrackerId) : Prop :=
  (∀ t g, Enabled s (.guardCall t tr g) →
    ((next s (.guardCall t tr g)).thread t).answer = some false ∧
      ∀ h, (next s (.guardCall t tr g)).guard h = s.guard h) ∧
  (∀ t, (s.thread t).spawner = tr → (s.thread t).spawnedAfterStop = true →
    (s.thread t).closure = .pending ∨ (s.thread t).closure = .discarded) ∧
  ∀ t, Enabled s (.spawnReturn t) → (s.thread (s.thread t).child).spawner = tr →
    (s.thread (s.thread t).child).spawnedAfterStop = true →
      ((next s (.spawnReturn t)).thread t).answer = some false

/-- The property the crate asks of `stop`, in one state. -/
def StopIsFinal (s : State) : Prop :=
  ∀ tr, (s.tracker tr).stopReturned = true → Silent s tr ∧ Refusing s tr

/-! ## The failing run -/

/-- Thread 0 takes two guards of tracker 0 and drops one of them; a `stop` of
thread 1 then finds the set empty. -/
def nestedGuardRun : List Action :=
  [.createThread 0 7, .createThread 1 8, .guardCall 0 0 0, .guardCall 0 0 1, .dropGuard 0 0,
    .untrack 0, .markExited 0, .trackerStop 1 0, .trackerLock 1, .trackerCheck 1]

theorem stop_not_final_nested :
    ∃ s, machine.Reachable s ∧ (s.tracker 0).stopReturned = true ∧
      (s.guard 1).tracker = 0 ∧ (s.guard 1).phase = .live ∧ ¬ StopIsFinal s := by
  have found : ∃ s, machine.Reachable s ∧ ((s.tracker 0).stopReturned = true ∧
      (s.guard 1).tracker = 0 ∧ (s.guard 1).phase = .live) :=
    Transition.Machine.exists_reachable_of_exec nestedGuardRun rfl (by decide)
  obtain ⟨s, reached, returned, ofTracker, live⟩ := found
  refine ⟨s, reached, returned, ofTracker, live, ?_⟩
  intro final
  exact (final 0 returned).1.1 1 ofTracker live

/-! ## Runs without nested guards -/

/-- Every live guard is represented in the set of its tracker. -/
structure Tracked (s : State) : Prop where
  childStart : ∀ t, (s.thread t).pc = .childStart → (s.thread t).guards = ∅
  single : ∀ t g h, g ∈ (s.thread t).guards → h ∈ (s.thread t).guards →
    (s.guard g).tracker = (s.guard h).tracker → g = h
  tracked : ∀ g, (s.guard g).phase = .live →
    (s.guard g).handle ∈ (s.tracker (s.guard g).tracker).threads
  main : ∀ t, (s.thread t).closure = .running →
    (s.guard (s.thread t).mainGuard).tracker = (s.thread t).spawner
  late : ∀ t, (s.thread t).spawnedAfterStop = true →
    (s.tracker (s.thread t).spawner).stopReturned = true ∧
      ((s.thread t).closure = .pending ∨ (s.thread t).closure = .discarded) ∧
        (s.thread t).report ≠ some true

theorem tracked_initial : Tracked initial := by
  constructor <;> simp [initial, Task.unborn, Guard.absent]

section TrackedStep
variable {s : State} {a : Action} (inv : Tracked s) (enabled : Enabled s a)
include inv enabled

theorem Tracked.childStart_next (x : Thread) (starts : ((next s a).thread x).pc = .childStart) :
    ((next s a).thread x).guards = ∅ := by
  have old := inv.childStart x
  revert starts
  cases a <;> simp only [Enabled] at enabled <;> simp only [next, handleCheck, trackerCheck] <;>
    (try split_ifs) <;> grind [Task.unborn]

theorem Tracked.single_next (owned : Owned s) (good : SingleGuard s a) (x : Thread) (g h : GuardId)
    (heldG : g ∈ ((next s a).thread x).guards) (heldH : h ∈ ((next s a).thread x).guards)
    (same : ((next s a).guard g).tracker = ((next s a).guard h).tracker) : g = h := by
  have old := inv.single x g h
  have empty := inv.childStart x
  have ownerG := owned.owner x g
  have ownerH := owned.owner x h
  revert heldG heldH same
  cases a <;> simp only [Enabled] at enabled <;> simp only [SingleGuard] at good <;>
    simp only [next, handleCheck, trackerCheck] <;>
    (try split_ifs) <;> grind [Task.unborn, Guard.Present]

/-- The `pthread_t` removed by `untrack` is of no other live guard of the tracker. -/
theorem Tracked.tracked_next (owned : Owned s) (g : GuardId)
    (live : ((next s a).guard g).phase = .live) :
    ((next s a).guard g).handle ∈
      ((next s a).tracker ((next s a).guard g).tracker).threads := by
  have old := inv.tracked g
  have present := owned.present g
  have handle := owned.handle g
  cases a with
  | untrack t =>
      simp only [Enabled] at enabled
      have dropped := owned.dropping t (.inl enabled.1)
      have owner := owned.owner t _ dropped
      have single := inv.single t g (s.thread t).guard
      have apart := owned.distinct (s.guard g).thread t
      have aliveG := owned.alive (s.guard g).thread g
      have aliveT := owned.alive t _ dropped
      revert live
      simp only [next]
      grind [Guard.Present]
  | markExited t =>
      simp only [Enabled] at enabled
      have marking := owned.marking t enabled.1
      revert live
      simp only [next]
      grind
  | _ =>
      revert live
      simp only [Enabled] at enabled
      simp only [next, handleCheck, trackerCheck]
      (try split_ifs) <;> grind [Task.unborn]

theorem Tracked.main_next (owned : Owned s) (x : Thread)
    (runs : ((next s a).thread x).closure = .running) :
    ((next s a).guard ((next s a).thread x).mainGuard).tracker =
      ((next s a).thread x).spawner := by
  have old := inv.main x
  have main := owned.main x
  have owner := owned.owner x (s.thread x).mainGuard
  revert runs
  cases a <;> simp only [Enabled] at enabled <;> simp only [next, handleCheck, trackerCheck] <;>
    (try split_ifs) <;> grind [Task.unborn, Guard.Present]

theorem Tracked.late_next (locked : Locked s) (x : Thread)
    (late : ((next s a).thread x).spawnedAfterStop = true) :
    ((next s a).tracker ((next s a).thread x).spawner).stopReturned = true ∧
      (((next s a).thread x).closure = .pending ∨ ((next s a).thread x).closure = .discarded) ∧
        ((next s a).thread x).report ≠ some true := by
  have old := inv.late x
  have stopped := locked.stopped (s.thread x).spawner
  revert late
  cases a <;> simp only [Enabled] at enabled <;> simp only [next, handleCheck, trackerCheck] <;>
    (try split_ifs) <;> grind [Task.unborn]

end TrackedStep

theorem tracked_next {s : State} {a : Action} (owned : Owned s) (locked : Locked s)
    (inv : Tracked s) (enabled : Enabled s a) (good : SingleGuard s a) : Tracked (next s a) where
  childStart := inv.childStart_next enabled
  single := inv.single_next enabled owned good
  tracked := inv.tracked_next enabled owned
  main := inv.main_next enabled owned
  late := inv.late_next enabled locked

theorem reachable_tracked {s : State} (reached : machine.ReachableVia SingleGuard s) :
    Tracked s := by
  have all : Owned s ∧ Locked s ∧ Tracked s := by
    apply reached.invariant
    · rintro _ rfl
      exact ⟨owned_initial, locked_initial, tracked_initial⟩
    · rintro state label ⟨owned, locked, tracked⟩ enabled good
      exact ⟨owned_next owned enabled, locked_next locked enabled,
        tracked_next owned locked tracked enabled good⟩
  exact all.2.2

theorem silent_of_stopReturned {s : State} (owned : Owned s) (locked : Locked s)
    (inv : Tracked s) {tr : TrackerId} (returned : (s.tracker tr).stopReturned = true) :
    Silent s tr := by
  have empty := (locked.stopped tr returned).2
  have noneLive : ∀ g, (s.guard g).tracker = tr → (s.guard g).phase ≠ .live := by
    intro g ofTracker live
    have recorded := inv.tracked g live
    rw [ofTracker, empty] at recorded
    exact Finset.notMem_empty _ recorded
  refine ⟨noneLive, ?_⟩
  intro t spawner runs
  have main := owned.main t runs
  obtain ⟨_, present⟩ := owned.owner t _ main.1
  rcases present with live | untracked
  · exact noneLive _ ((inv.main t runs).trans spawner) live
  · -- an untracked guard is the one its thread is dropping, never the main guard
    have dropping := owned.untracked t _ main.1 untracked
    exact main.2 (.inr dropping.1) dropping.2

theorem refusing_of_stopReturned {s : State} (locked : Locked s) (inv : Tracked s)
    {tr : TrackerId} (returned : (s.tracker tr).stopReturned = true) : Refusing s tr := by
  have closed := (locked.stopped tr returned).1
  refine ⟨?_, ?_, ?_⟩
  · intro t g _
    simp [next, closed]
  · intro t _ late
    exact (inv.late t late).2.1
  · intro t enabled _ late
    have refused := (inv.late _ late).2.2
    simp only [Enabled] at enabled
    simp only [next]
    cases report : (s.thread (s.thread t).child).report with
    | none => exact (enabled.2 report).elim
    | some answer =>
        cases answer with
        | false => simp
        | true => exact (refused report).elim

/-- In every run in which a thread takes a guard of a tracker only while it holds
no guard of it, a returned `stop` is final. -/
theorem stop_final_of_singleGuard {s : State} (reached : machine.ReachableVia SingleGuard s) :
    StopIsFinal s := by
  intro tr returned
  have owned := reachable_owned reached.reachable
  have locked := reachable_locked reached.reachable
  have inv := reachable_tracked reached
  exact ⟨silent_of_stopReturned owned locked inv returned,
    refusing_of_stopReturned locked inv returned⟩

instance (s : State) (a : Action) : Decidable (SingleGuard s a) :=
  match a with
  | .guardCall t tr _ =>
      inferInstanceAs (Decidable (∀ g ∈ (s.thread t).guards, (s.guard g).tracker ≠ tr))
  | .createThread _ _ | .terminate _ | .spawn _ _ _ _ | .spawnFails _ _ | .childTrack _ _
  | .spawnReturn _ | .closureEnds _ | .dropGuard _ _ | .untrack _ | .markExited _ | .handleStop _ _
  | .handleLock _ | .handleCheck _ | .handleKill _ | .handleSnooze _ | .handleTry _
  | .trackerStop _ _ | .trackerLock _ | .trackerCheck _ | .trackerKill _ _ | .trackerKillDone _
  | .trackerSnooze _ | .trackerTry _ | .trackerRelock _ => isTrue trivial

theorem stop_final_one_guard :
    ∃ s, machine.ReachableVia SingleGuard s ∧ (s.tracker 0).stopReturned = true ∧
      StopIsFinal s := by
  have found : ∃ s, machine.ReachableVia SingleGuard s ∧ (s.tracker 0).stopReturned = true :=
    Transition.Machine.exists_reachableVia_of_exec
      [.createThread 0 7, .createThread 1 8, .guardCall 0 0 0, .dropGuard 0 0, .untrack 0,
        .markExited 0, .trackerStop 1 0, .trackerLock 1, .trackerCheck 1] rfl (by decide)
  obtain ⟨s, reached, returned⟩ := found
  exact ⟨s, reached, returned, stop_final_of_singleGuard reached⟩

end Ulockmgr.Tracker
