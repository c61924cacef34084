import Ulockmgr.Owner.Clones

/-!
# No clone is leaked

`Clones` says who holds a clone of an `FdData`.  Here is the converse: whoever is counted as a
holder is at a place from which he will drop his clone, and whoever is counted as a thread of
the tracker will untrack itself.  So the reference count that an `Unregister` waits for is
exact.
-/

namespace Ulockmgr.Owner

/-- The places of a worker that is tracked. -/
def Pc.Tracked : Pc → Prop
  | .blockSignals | .firstTry | .fetchInterrupt | .insertInterrupt | .replyFirst | .unblockSignal
  | .setlkw | .replyLast | .endCall | .dropClone | .untrack => True
  | .idle | .startThread | .removeInterrupt | .acquireExit | .trackerNew | .fetchId | .insertId
  | .mapGet | .getlk | .setlk | .spawn | .interruptLookup | .interruptStop | .mapRemove
  | .trackerStop | .trackerWait | .refcount | .dropData | .reply | .childStart | .refused
  | .markExited | .finished => False

/-- The loop is in the handler of `b`, and has a clone there. -/
def State.LoopIn (s : State) (b : RequestId) : Prop :=
  s.loop = .busy b ∧ (s.request b).pc.LoopHolds (s.request b).found ∨
    s.loop = .awaiting b ∨ s.loop = .releasing b

/-- Somebody has the clone of `r` that is counted under `h`. -/
def State.Holds (s : State) (r : RequestId) : Holder → Prop
  | .map => ∃ id, s.descriptors id = some r
  | .loop => ∃ b, (s.request b).data = r ∧ s.LoopIn b
  | .worker w => (s.request w).data = r ∧ (s.request w).pc.WorkerHolds
  | .unregister e => (s.request e).data = r ∧ (s.request e).pc.UnregisterHolds

structure Accurate (s : State) : Prop where
  holders : ∀ r h, h ∈ (s.data r).holders → s.Holds r h
  threads : ∀ r w, w ∈ (s.data r).tracker.threads →
    (s.request w).data = r ∧ (s.request w).pc.Tracked
  tracked : ∀ w, (s.request w).pc.Tracked → w ∈ (s.dataOf w).tracker.threads

theorem accurate_initial : Accurate initial where
  holders _ h held := absurd held (Finset.notMem_empty h)
  threads _ w tracked := absurd tracked (Finset.notMem_empty w)
  tracked _ tracked := tracked.elim

/-- A clone that is held was not dropped in the step, or was given in it. -/
theorem holders_origin {s : State} {a : Action} {h : Holder} {r : RequestId}
    (held : h ∈ ((next s a).data r).holders) :
    h ∈ (s.data r).holders ∧ ¬ a.Drops s h r ∨ a.Gives s h r := by
  revert held
  cases a <;> simp only [next, Action.Gives, Action.Drops] <;> (repeat' split) <;> grind

theorem State.afterReply_of_locks {s : State} {b : RequestId}
    (locks : (task (s.request b).message).Locks) (found : (s.request b).found = some true) :
    s.afterReply b = .releasing b := by
  unfold State.afterReply
  cases same : task (s.request b).message <;> rw [same] at locks <;>
    first | exact locks.elim | simp [found]

/-- A handler on the loop that has a clone goes on to drop it behind its reply. -/
theorem loopIn_reply {s : State} {e b : RequestId} (served : Served s)
    (enabled : Enabled s (.reply e)) (holds : s.LoopIn b) :
    ((next s (.reply e)).request b).data = (s.request b).data ∧
      (next s (.reply e)).LoopIn b := by
  have place : (s.request e).pc = .reply := enabled
  by_cases threads : task (s.request e).message = .interrupt ∨
      task (s.request e).message = .unregister
  · have same : s.afterReply e = s.loop := by
      rcases threads with interrupt | unregister
      · simp [State.afterReply, interrupt]
      · simp [State.afterReply, unregister]
    have other : b ≠ e := by
      rintro rfl
      rcases holds with ⟨busy, _⟩ | there
      · have runs := served.busy b busy
        rw [place] at runs
        rcases threads with interrupt | unregister
        · exact runs.1 interrupt
        · exact runs.2 unregister
      · obtain ⟨found, locks⟩ := served.past b there
        rcases served.looks b found with unregister | lock
        · exact locks unregister
        · rcases threads with interrupt | unregister
          · rw [interrupt] at lock
            exact lock
          · exact locks unregister
    have kept : (next s (.reply e)).request b = s.request b := request_next_of_ne s other
    have loop : (next s (.reply e)).loop = s.loop := same
    rw [State.LoopIn, kept, loop]
    exact ⟨rfl, holds⟩
  · rw [not_or] at threads
    have busy : s.loop = .busy e := served.onLoop e (by rw [place]; exact threads)
    have own : b = e := by
      rcases holds with ⟨there, _⟩ | there | there <;> rw [busy] at there <;> cases there
      rfl
    subst own
    have found : (s.request b).found = some true := by
      rcases holds with ⟨_, held⟩ | there | there
      · rw [place] at held
        exact held
      · rw [busy] at there
        cases there
      · rw [busy] at there
        cases there
    have locks := (served.looks b found).resolve_left threads.2
    refine ⟨by simp [next], .inr (.inr ?_)⟩
    simp [next, State.afterReply_of_locks locks found]

section Stays
variable {s : State} {a : Action} (served : Served s) (enabled : Enabled s a)
include enabled

theorem worker_stays {w : RequestId} (holds : (s.request w).pc.WorkerHolds)
    (refused : a ≠ .dropRefused w) (dropped : a ≠ .dropClone w) :
    ((next s a).request w).data = (s.request w).data ∧
      ((next s a).request w).pc.WorkerHolds := by
  by_cases own : w = a.actor
  · subst own
    revert holds refused dropped
    cases a <;> simp only [Enabled, Action.actor] at enabled ⊢ <;> simp only [next] <;>
      (repeat' split) <;> simp_all [Pc.WorkerHolds]
  · rw [request_next_of_ne s own]
    exact ⟨rfl, holds⟩

theorem unregister_stays {e : RequestId} (holds : (s.request e).pc.UnregisterHolds)
    (dropped : a ≠ .dropData e) :
    ((next s a).request e).data = (s.request e).data ∧
      ((next s a).request e).pc.UnregisterHolds := by
  by_cases own : e = a.actor
  · subst own
    revert holds dropped
    cases a <;> simp only [Enabled, Action.actor] at enabled ⊢ <;> simp only [next] <;>
      (repeat' split) <;> simp_all [Pc.UnregisterHolds]
  · rw [request_next_of_ne s own]
    exact ⟨rfl, holds⟩

theorem tracked_stays {w : RequestId} (tracked : (s.request w).pc.Tracked)
    (untracked : a ≠ .untrack w) :
    ((next s a).request w).data = (s.request w).data ∧ ((next s a).request w).pc.Tracked := by
  by_cases own : w = a.actor
  · subst own
    revert tracked untracked
    cases a <;> simp only [Enabled, Action.actor] at enabled ⊢ <;> simp only [next] <;>
      (repeat' split) <;> simp_all [Pc.Tracked]
  · rw [request_next_of_ne s own]
    exact ⟨rfl, tracked⟩

include served

/-- The loop leaves a handler with its clone only by dropping it, or by putting it into the
map. -/
theorem loopIn_stays {b : RequestId} (holds : s.LoopIn b) (released : a ≠ .release b)
    (inserted : a = .insertId b → s.descriptors (s.request b).id ≠ none) :
    ((next s a).request b).data = (s.request b).data ∧ (next s a).LoopIn b := by
  have onLoop := served.onLoop a.actor
  have early := served.early b
  have found := served.found b
  have past := served.past b
  cases a with
  | reply e => exact loopIn_reply served enabled holds
  | _ =>
      revert holds released inserted
      simp only [Enabled, Action.actor] at enabled onLoop
      simp only [State.LoopIn, next]
      (repeat' split) <;> grind [Pc.LoopHolds, Pc.OnLoop, Pc.Early, Pc.Found]

end Stays

/-- Whoever is given a clone has it. -/
theorem holds_of_gives {s : State} {a : Action} (served : Served s) (enabled : Enabled s a)
    {r : RequestId} {h : Holder} (gives : a.Gives s h r) : (next s a).Holds r h := by
  cases a with
  | trackerNew e =>
      obtain ⟨rfl, rfl⟩ := gives
      have place : (s.request e).pc = .trackerNew := enabled
      have busy := served.onLoop e (by rw [place]; trivial)
      exact ⟨e, by simp [next], .inl (by simp [next, busy, Pc.LoopHolds])⟩
  | insertId e =>
      obtain ⟨rfl, rfl, vacant⟩ := gives
      exact ⟨(s.request e).id, by simp [next, vacant]⟩
  | mapGet e =>
      obtain ⟨bound, rfl⟩ := gives
      have place : (s.request e).pc = .mapGet := enabled
      have busy := served.onLoop e (by rw [place]; trivial)
      have goes := Task.lockHandler_cases (task (s.request e).message)
      refine ⟨e, by simp [next, bound], .inl ⟨by simp [next, bound, busy], ?_⟩⟩
      rcases goes with ⟨_, same⟩ | ⟨_, same⟩ | ⟨_, _, same⟩ <;>
        simp [next, bound, same, Pc.LoopHolds]
  | spawn e =>
      obtain ⟨rfl, rfl⟩ := gives
      exact ⟨by simp [next], by simp [next, Pc.WorkerHolds]⟩
  | mapRemove e =>
      obtain ⟨bound, rfl⟩ := gives
      exact ⟨by simp [next, bound], by simp [next, bound, Pc.UnregisterHolds]⟩
  | _ => exact gives.elim

theorem Accurate.holders_next {s : State} {a : Action} (served : Served s) (clones : Clones s)
    (inv : Accurate s) (enabled : Enabled s a) (r : RequestId) (h : Holder)
    (held : h ∈ ((next s a).data r).holders) : (next s a).Holds r h := by
  rcases holders_origin held with ⟨before, kept⟩ | gives
  · have holds := inv.holders r h before
    cases h with
    | map =>
        obtain ⟨id, bound⟩ := holds
        rcases descriptors_next (a := a) bound with stays | ⟨e, rfl, same⟩
        · exact ⟨id, stays⟩
        · exact (kept ⟨same ▸ bound, rfl⟩).elim
    | loop =>
        obtain ⟨b, rfl, there⟩ := holds
        have stays : ((next s a).request b).data = (s.request b).data ∧ (next s a).LoopIn b := by
          apply loopIn_stays served enabled there
          · rintro rfl
            exact kept ⟨rfl, rfl⟩
          · rintro rfl vacant
            have own := clones.own b (.inr enabled)
            exact kept ⟨own.symm, rfl, vacant⟩
        exact ⟨b, stays⟩
    | worker w =>
        obtain ⟨rfl, there⟩ := holds
        apply worker_stays enabled there
        · rintro rfl
          exact kept ⟨rfl, rfl⟩
        · rintro rfl
          exact kept ⟨rfl, rfl⟩
    | unregister e =>
        obtain ⟨rfl, there⟩ := holds
        apply unregister_stays enabled there
        rintro rfl
        exact kept ⟨rfl, rfl⟩
  · exact holds_of_gives served enabled gives

/-! ## The threads of a tracker -/

theorem threads_origin {s : State} {a : Action} {w r : RequestId}
    (tracked : w ∈ ((next s a).data r).tracker.threads) :
    w ∈ (s.data r).tracker.threads ∧ (a = .untrack w → (s.request w).data ≠ r) ∨
      a = .track w ∧ (s.request w).data = r ∧ (s.data r).tracker.canSpawn = true := by
  revert tracked
  cases a <;> simp only [next] <;> (repeat' split) <;>
    grind [Tracker.RawTracker.new]

theorem threads_next {s : State} {a : Action} {w r : RequestId}
    (tracked : w ∈ (s.data r).tracker.threads) (old : a ≠ .trackerNew r)
    (still : a = .untrack w → (s.request w).data ≠ r) :
    w ∈ ((next s a).data r).tracker.threads := by
  revert old still
  cases a <;> simp only [next] <;> (repeat' split) <;> grind

theorem tracked_cases {s : State} {a : Action} (enabled : Enabled s a) {w : RequestId}
    (tracked : ((next s a).request w).pc.Tracked) :
    (s.request w).pc.Tracked ∧ ((next s a).request w).data = (s.request w).data ∧
        a ≠ .untrack w ∨
      a = .track w ∧ (s.dataOf w).tracker.canSpawn = true := by
  by_cases own : w = a.actor
  · subst own
    revert tracked
    cases a with
    | recv e message =>
        have starts := Task.handler_cases (task message)
        simp only [next, Action.actor, State.setLoop_request, State.setRequest_request, if_pos]
        grind [Pc.Tracked]
    | startThread e =>
        have starts := Task.threadHandler_cases (task (s.request e).message)
        simp only [next, Action.actor, State.setLoop_request, State.setRequest_request, if_pos]
        grind [Pc.Tracked]
    | mapGet e =>
        have goes := Task.lockHandler_cases (task (s.request e).message)
        simp only [next, Action.actor]
        split <;> grind [Pc.Tracked]
    | _ =>
        simp only [Enabled, Action.actor] at enabled ⊢
        simp only [next]
        (repeat' split) <;> simp_all [Pc.Tracked]
  · rw [request_next_of_ne s own] at tracked ⊢
    refine .inl ⟨tracked, rfl, ?_⟩
    rintro rfl
    exact own rfl

theorem Pc.Tracked.found {pc : Pc} (tracked : pc.Tracked) : pc.Found := by
  cases pc <;> first | exact tracked | trivial

section AccurateStep
variable {s : State} {a : Action} (served : Served s) (clones : Clones s) (inv : Accurate s)
  (enabled : Enabled s a)
include inv enabled

theorem Accurate.threads_next (r w : RequestId)
    (tracked : w ∈ ((next s a).data r).tracker.threads) :
    ((next s a).request w).data = r ∧ ((next s a).request w).pc.Tracked := by
  rcases threads_origin tracked with ⟨before, still⟩ | ⟨rfl, rfl, spawns⟩
  · obtain ⟨rfl, there⟩ := inv.threads r w before
    apply tracked_stays enabled there
    intro untracks
    exact still untracks rfl
  · have spawn : (s.dataOf w).tracker.canSpawn = true := spawns
    simp [next, spawn, Pc.Tracked]

include served clones

theorem Accurate.tracked_next (w : RequestId) (tracked : ((next s a).request w).pc.Tracked) :
    w ∈ ((next s a).dataOf w).tracker.threads := by
  rcases tracked_cases enabled tracked with ⟨before, same, still⟩ | ⟨rfl, spawns⟩
  · rw [State.dataOf, same]
    have registered := clones.found w (served.found w before.found)
    apply Owner.threads_next (inv.tracked w before) (registered.not_allocating enabled).1
    intro untracks
    exact (still untracks).elim
  · simp [next, spawns]

theorem accurate_next : Accurate (next s a) where
  holders := inv.holders_next served clones enabled
  threads := inv.threads_next enabled
  tracked := inv.tracked_next served clones enabled

end AccurateStep

theorem reachable_accurate {s : State} (reached : machine.Reachable s) : Accurate s := by
  have all : Served s ∧ Clones s ∧ Accurate s := by
    apply reached.invariant
    · rintro _ rfl
      exact ⟨served_initial, clones_initial, accurate_initial⟩
    · rintro state label ⟨served, clones, inv⟩ enabled
      exact ⟨served_next served enabled, clones_next served clones enabled,
        accurate_next served clones inv enabled⟩
  exact all.2.2

/-- The count of every `FdData` is the number of those that have a clone of it, and the threads of
its tracker are its running workers: no clone is leaked and none is dropped twice. -/
theorem references_exact {s : State} (reached : machine.Reachable s) (r : RequestId) :
    (∀ h, h ∈ (s.data r).holders ↔ s.Holds r h) ∧
      ∀ w, w ∈ (s.data r).tracker.threads ↔
        (s.request w).data = r ∧ (s.request w).pc.Tracked := by
  have clones := reachable_clones reached
  have accurate := reachable_accurate reached
  refine ⟨fun h => ⟨accurate.holders r h, ?_⟩, fun w => ⟨accurate.threads r w, ?_⟩⟩
  · intro holds
    cases h with
    | map =>
        obtain ⟨id, bound⟩ := holds
        exact clones.map id r bound
    | loop =>
        obtain ⟨b, rfl, ⟨busy, held⟩ | past⟩ := holds
        · exact clones.busy b busy held
        · exact clones.past b past
    | worker w =>
        obtain ⟨rfl, held⟩ := holds
        exact clones.worker w held
    | unregister e =>
        obtain ⟨rfl, held⟩ := holds
        exact clones.unregister e held
  · rintro ⟨rfl, tracked⟩
    exact accurate.tracked w tracked

/-- A worker waits for its lock, and another one is being started. -/
theorem two_workers_counted :
    ∃ s, machine.Reachable s ∧ (s.data 0).holders.card = 4 ∧
      (∀ h, h ∈ (s.data 0).holders ↔ s.Holds 0 h) ∧
      ∀ w, w ∈ (s.data 0).tracker.threads ↔
        (s.request w).data = 0 ∧ (s.request w).pc.Tracked := by
  have found : ∃ s, machine.Reachable s ∧ (s.data 0).holders.card = 4 :=
    Transition.Machine.exists_reachable_of_exec
      [.recv 0 (.register (.file 7)), .acquireExit 0, .trackerNew 0, .fetchId 0, .insertId 0,
        .reply 0, .recv 1 (.lockCommand 0 .setLockBlocking ⟨.write, .start, 0, 10, 0⟩), .mapGet 1,
        .spawn 1, .track 1, .spawnReturn 1, .release 1, .blockSignals 1 (.ok ()),
        .firstTry 1 (.failed Errno.AGAIN), .fetchInterrupt 1, .insertInterrupt 1, .replyFirst 1,
        .unblockSignal 1 (.ok ()),
        .recv 2 (.lockCommand 0 .setLockBlocking ⟨.write, .start, 5, 10, 0⟩), .mapGet 2, .spawn 2,
        .track 2] rfl (by decide +kernel)
  obtain ⟨s, reached, four⟩ := found
  exact ⟨s, reached, four, references_exact reached 0⟩

end Ulockmgr.Owner
