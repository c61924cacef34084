import Ulockmgr.Tracker.Invariant

/-!
# Whom the signals hit

Every `pthread_kill` of the crate names a `pthread_t`, not a thread.  The
invariants show that the named thread exists when the signal is sent and is the
one that the handle, or the tracker, stands for.
-/

namespace Ulockmgr.Tracker

/-- The object on whose behalf a signal is sent. -/
inductive Issuer where
  | handle (g : GuardId)
  | tracker (tr : TrackerId)
  deriving DecidableEq, Repr

/-- The `pthread_kill` call a step issues: on whose behalf, and its target. -/
def pthreadKill (s : State) : Action → Option (Issuer × Pthread)
  | .handleKill t => some (.handle (s.thread t).guard, (s.guardOf t).handle)
  | .trackerKill t p => some (.tracker (s.thread t).tracker, p)
  | _ => none

/-- A signal sent to `p` now reaches `t`: it is the thread, and the only one, that
has this `pthread_t`. -/
def Hits (s : State) (p : Pthread) (t : Thread) : Prop :=
  s.Alive t ∧ (s.thread t).pthread = p ∧
    ∀ u, s.Alive u → (s.thread u).pthread = p → u = t

/-- The step ends a call of `InterruptibleHandle::stop` on a handle of `g`, and
the call returns normally. -/
def HandleStopReturns (s : State) (a : Action) (g : GuardId) : Prop :=
  ∃ t, a = .handleCheck t ∧ (s.thread t).guard = g ∧
    ((next s a).thread t).pc = .running ∧ ((next s a).thread t).panicked = false

theorem hits_of_present {s : State} (inv : Owned s) {g : GuardId} (present : (s.guard g).Present) :
    Hits s (s.guard g).handle (s.guard g).thread := by
  have held := inv.present g present
  have alive := inv.alive _ g held
  have created : (s.guard g).phase ≠ .absent := by
    intro absent
    rcases present with live | untracked
    · cases live.symm.trans absent
    · cases untracked.symm.trans absent
  have stored := inv.handle g created
  refine ⟨alive, stored.symm, ?_⟩
  intro u aliveU same
  exact inv.distinct u _ aliveU alive (same.trans stored)

theorem pthreadKill_handle {s : State} (owned : Owned s) (locked : Locked s) {a : Action}
    (enabled : Enabled s a) {g : GuardId} {p : Pthread}
    (kill : pthreadKill s a = some (.handle g, p)) : Hits s p (s.guard g).thread := by
  cases a with
  | handleKill t =>
      cases kill
      have created := locked.created t (.inr (.inr (.inl enabled)))
      have notExited := locked.notExited t enabled
      apply hits_of_present owned
      cases phase : (s.guardOf t).phase with
      | absent => exact (created phase).elim
      | live => exact .inl phase
      | untracked => exact .inr phase
      | exited => exact (notExited phase).elim
  | trackerKill t p => cases kill
  | _ => cases kill

theorem pthreadKill_tracker {s : State} (owned : Owned s) (locked : Locked s) {a : Action}
    (enabled : Enabled s a) {tr : TrackerId} {p : Pthread}
    (kill : pthreadKill s a = some (.tracker tr, p)) :
    ∃ g, (s.guard g).phase = .live ∧ (s.guard g).tracker = tr ∧
      Hits s p (s.guard g).thread := by
  cases a with
  | handleKill t => cases kill
  | trackerKill t q =>
      cases kill
      have recorded := locked.toSignal t enabled.1 p enabled.2
      obtain ⟨g, live, ofTracker, handle⟩ := owned.threads _ p recorded
      refine ⟨g, live, ofTracker, ?_⟩
      rw [← handle]
      exact hits_of_present owned (.inl live)
  | _ => cases kill

theorem exited_of_handleStopReturns {s : State} {a : Action} {g : GuardId}
    (returns : HandleStopReturns s a g) : (s.guard g).phase = .exited := by
  obtain ⟨t, rfl, rfl, stopped, calm⟩ := returns
  simp only [next, handleCheck] at stopped calm
  split_ifs at stopped calm <;> simp_all

/-- Every signal hits a thread that exists: for a handle the one that created its
guard, for a tracker one that holds a live guard of it.  A normal return of
`InterruptibleHandle::stop` finds the guard dropped. -/
theorem signals_hit_intended_thread {s : State} (reached : machine.Reachable s) {a : Action}
    (enabled : Enabled s a) :
    (∀ g p, pthreadKill s a = some (.handle g, p) → Hits s p (s.guard g).thread) ∧
    (∀ tr p, pthreadKill s a = some (.tracker tr, p) →
      ∃ g, (s.guard g).phase = .live ∧ (s.guard g).tracker = tr ∧
        Hits s p (s.guard g).thread) ∧
    (∀ g, HandleStopReturns s a g → (s.guard g).phase = .exited) := by
  have owned := reachable_owned reached
  have locked := reachable_locked reached
  refine ⟨?_, ?_, ?_⟩
  · intro g p kill
    exact pthreadKill_handle owned locked enabled kill
  · intro tr p kill
    exact pthreadKill_tracker owned locked enabled kill
  · intro g returns
    exact exited_of_handleStopReturns returns

/-- A stop of a running thread's handle: the first signal of the loop. -/
def handleStopRun : List Action :=
  [.createThread 0 7, .createThread 1 8, .guardCall 0 0 0, .handleStop 1 0, .handleLock 1,
    .handleCheck 1]

theorem signals_hit_intended_thread_handle :
    ∃ s, machine.Reachable s ∧ Enabled s (.handleKill 1) ∧
      pthreadKill s (.handleKill 1) = some (.handle 0, 7) ∧ Hits s 7 (s.guard 0).thread := by
  have found : ∃ s, machine.Reachable s ∧
      (Enabled s (.handleKill 1) ∧ pthreadKill s (.handleKill 1) = some (.handle 0, 7)) :=
    Transition.Machine.exists_reachable_of_exec handleStopRun rfl (by decide)
  obtain ⟨s, reached, enabled, kill⟩ := found
  exact ⟨s, reached, enabled, kill, (signals_hit_intended_thread reached enabled).1 0 7 kill⟩

end Ulockmgr.Tracker
