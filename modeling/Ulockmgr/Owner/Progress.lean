import Mathlib.Data.Nat.Lattice
import Ulockmgr.Owner.Endpoint

/-!
# The receiving loop goes on

Whatever the receiving loop is doing, it can go on to the next request without the help
of anybody but the worker it is starting, as long as the map of descriptors is not full:
each of its steps decreases a rank.
-/

namespace Ulockmgr.Owner

/-- How many IDs are taken in a row from the next one on. -/
noncomputable def gap (descriptors : UInt64 → Option RequestId) (id : UInt64) : Nat :=
  sInf {k | descriptors (id + UInt64.ofNat k) = none}

theorem gap_mem {descriptors : UInt64 → Option RequestId}
    (room : ∃ id, descriptors id = none) (id : UInt64) :
    descriptors (id + UInt64.ofNat (gap descriptors id)) = none := by
  obtain ⟨free, vacant⟩ := room
  have inhabited : {k | descriptors (id + UInt64.ofNat k) = none}.Nonempty := by
    refine ⟨(free - id).toNat, ?_⟩
    rw [Set.mem_setOf_eq, UInt64.ofNat_toNat]
    simpa using vacant
  exact Nat.sInf_mem inhabited

theorem gap_lt {descriptors : UInt64 → Option RequestId} (room : ∃ id, descriptors id = none)
    {id : UInt64} (taken : descriptors id ≠ none) :
    gap descriptors (id + 1) < gap descriptors id := by
  have vacant := gap_mem room id
  cases size : gap descriptors id with
  | zero =>
      rw [size] at vacant
      simp at vacant
      exact (taken vacant).elim
  | succ k =>
      rw [size] at vacant
      apply Nat.lt_succ_of_le
      apply Nat.sInf_le
      rw [Set.mem_setOf_eq]
      rw [← vacant, UInt64.ofNat_add, UInt64.add_assoc, UInt64.add_comm 1]
      rfl

/-- How far the receiving loop is from its next request. -/
noncomputable def loopRank (s : State) : Nat :=
  match s.loop with
  | .receiving | .ended => 0
  | .releasing _ => 1
  | .awaiting b => if (s.request b).spawned = none then 4 else 3
  | .busy b =>
      match (s.request b).pc with
      | .reply | .startThread => 2
      | .removeInterrupt | .getlk | .setlk => 3
      | .spawn => 5
      | .mapGet => 6
      | .insertId =>
          if s.descriptors (s.request b).id = none then 3
          else 2 * gap s.descriptors s.nextId + 5
      | .fetchId => 2 * gap s.descriptors s.nextId + 4
      | .trackerNew => 2 * gap s.descriptors s.nextId + 5
      | .acquireExit => 2 * gap s.descriptors s.nextId + 6
      | _ => 0

/-- The steps that bring the loop to its next request. -/
def LoopStep : Action → Bool
  | .startThread _ | .removeInterrupt _ | .acquireExit _ | .trackerNew _ | .fetchId _
  | .insertId _ | .mapGet _ | .getlk _ _ | .setlk _ _ | .spawn _ | .spawnReturn _ | .release _
  | .reply _ | .track _ => true
  | _ => false

theorem awaiting_next {s : State} {a : Action} (enabled : Enabled s a) (served : Served s)
    (old : ∀ b, s.loop = .awaiting b → (s.request b).spawned = none →
      (s.request b).pc = .childStart) (b : RequestId) (awaits : (next s a).loop = .awaiting b)
    (unborn : ((next s a).request b).spawned = none) : ((next s a).request b).pc = .childStart := by
  have before := old b
  have onLoop := served.onLoop a.actor
  clear old served
  revert awaits unborn
  cases a with
  | reply e =>
      simp only [Enabled, Action.actor] at enabled onLoop
      rcases s.afterReply_cases e with ⟨_, same⟩ | ⟨_, _, same⟩ | ⟨_, _, same⟩ <;>
        simp only [next, same] <;> grind
  | _ =>
      simp only [Enabled, Action.actor] at enabled onLoop
      simp only [next]
      (repeat' split) <;> grind

/-- The loop waits for a worker that has not reported yet only if it can still report. -/
theorem reachable_awaiting {s : State} (reached : machine.Reachable s) (b : RequestId) :
    s.loop = .awaiting b → (s.request b).spawned = none → (s.request b).pc = .childStart := by
  have all : Served s ∧ ∀ b, s.loop = .awaiting b → (s.request b).spawned = none →
      (s.request b).pc = .childStart := by
    apply reached.invariant
    · rintro _ rfl
      exact ⟨served_initial, by simp [initial]⟩
    · rintro state label ⟨served, old⟩ enabled
      exact ⟨served_next served enabled, awaiting_next enabled served old⟩
  exact all.2 b

/-- The rank inside of the handler of a `Register`. -/
theorem loopRank_register {s : State} {b : RequestId} (busy : s.loop = .busy b) :
    ((s.request b).pc = .acquireExit → loopRank s = 2 * gap s.descriptors s.nextId + 6) ∧
      ((s.request b).pc = .trackerNew → loopRank s = 2 * gap s.descriptors s.nextId + 5) ∧
      ((s.request b).pc = .fetchId → loopRank s = 2 * gap s.descriptors s.nextId + 4) ∧
      ((s.request b).pc = .insertId → s.descriptors (s.request b).id = none → loopRank s = 3) ∧
      ((s.request b).pc = .insertId → s.descriptors (s.request b).id ≠ none →
        loopRank s = 2 * gap s.descriptors s.nextId + 5) ∧
      ((s.request b).pc = .reply → loopRank s = 2) := by
  refine ⟨?_, ?_, ?_, ?_, ?_, ?_⟩ <;> intro place
  · simp [loopRank, busy, place]
  · simp [loopRank, busy, place]
  · simp [loopRank, busy, place]
  · intro vacant
    simp [loopRank, busy, place, vacant]
  · intro taken
    simp [loopRank, busy, place, taken]
  · simp [loopRank, busy, place]

theorem register_progress {s : State} {b : RequestId} (busy : s.loop = .busy b)
    (place : (s.request b).pc = .acquireExit ∨ (s.request b).pc = .trackerNew ∨
      (s.request b).pc = .fetchId ∨ (s.request b).pc = .insertId)
    (room : ∃ id, s.descriptors id = none) :
    ∃ a, LoopStep a = true ∧ Enabled s a ∧ a.actor = b ∧ loopRank (next s a) < loopRank s := by
  obtain ⟨acquires, creates, fetches, vacates, skips, _⟩ := loopRank_register busy
  rcases place with place | place | place | place
  · refine ⟨.acquireExit b, rfl, place, rfl, ?_⟩
    rw [acquires place]
    cases taken : s.exitLock.acquire b with
    | ok lock =>
        have after : (next s (.acquireExit b)).loop = .busy b := by simp [next, taken, busy]
        rw [(loopRank_register after).2.1 (by simp [next, taken])]
        simp only [next, taken]
        change 2 * gap s.descriptors s.nextId + 5 < _
        omega
    | error error =>
        have after : (next s (.acquireExit b)).loop = .busy b := by simp [next, taken, busy]
        rw [(loopRank_register after).2.2.2.2.2 (by simp [next, taken])]
        omega
  · refine ⟨.trackerNew b, rfl, place, rfl, ?_⟩
    have after : (next s (.trackerNew b)).loop = .busy b := by simp [next, busy]
    rw [creates place, (loopRank_register after).2.2.1 (by simp [next])]
    change 2 * gap s.descriptors s.nextId + 4 < _
    omega
  · refine ⟨.fetchId b, rfl, place, rfl, ?_⟩
    have after : (next s (.fetchId b)).loop = .busy b := by simp [next, busy]
    have inserts : ((next s (.fetchId b)).request b).pc = .insertId := by simp [next]
    have id : ((next s (.fetchId b)).request b).id = s.nextId := by simp [next]
    have same : (next s (.fetchId b)).descriptors = s.descriptors := rfl
    have ranks := loopRank_register after
    rw [fetches place]
    by_cases vacant : s.descriptors s.nextId = none
    · rw [ranks.2.2.2.1 inserts (by rw [id, same]; exact vacant)]
      omega
    · rw [ranks.2.2.2.2.1 inserts (by rw [id, same]; exact vacant)]
      have less := gap_lt room vacant
      change 2 * gap s.descriptors (s.nextId + 1) + 5 < _
      omega
  · refine ⟨.insertId b, rfl, place, rfl, ?_⟩
    by_cases vacant : s.descriptors (s.request b).id = none
    · have after : (next s (.insertId b)).loop = .busy b := by simp [next, vacant, busy]
      rw [vacates place vacant, (loopRank_register after).2.2.2.2.2 (by simp [next, vacant])]
      omega
    · obtain ⟨r, taken⟩ := Option.ne_none_iff_exists'.mp vacant
      have after : (next s (.insertId b)).loop = .busy b := by simp [next, taken, busy]
      rw [skips place vacant, (loopRank_register after).2.2.1 (by simp [next, taken])]
      simp only [next, taken]
      change 2 * gap s.descriptors s.nextId + 4 < _
      omega

/-- The step that the handler on the loop takes next. -/
theorem busy_progress {s : State} (served : Served s) {b : RequestId} (busy : s.loop = .busy b)
    (room : (s.request b).pc ≠ .reply → task (s.request b).message = .register →
      ∃ id, s.descriptors id = none) :
    ∃ a, LoopStep a = true ∧ Enabled s a ∧ a.actor = b ∧ loopRank (next s a) < loopRank s := by
  have onLoop := served.busy b busy
  have serves := served.serves b
  cases place : (s.request b).pc with
  | reply =>
      rw [place] at onLoop
      refine ⟨.reply b, rfl, place, rfl, ?_⟩
      rcases s.afterReply_cases b with ⟨threads, _⟩ | ⟨_, _, same⟩ | ⟨_, _, same⟩
      · rcases threads with interrupts | unregisters
        · exact (onLoop.1 interrupts).elim
        · exact (onLoop.2 unregisters).elim
      · simp [loopRank, busy, place, next, same]
      · simp [loopRank, busy, place, next, same]
  | startThread => exact ⟨.startThread b, rfl, place, rfl, by simp [loopRank, busy, place, next]⟩
  | removeInterrupt =>
      refine ⟨.removeInterrupt b, rfl, place, rfl, ?_⟩
      simp only [next]
      split <;> simp [loopRank, busy, place]
  | getlk =>
      exact ⟨.getlk b (.error Errno.AGAIN), rfl, place, rfl, by simp [loopRank, busy, place, next]⟩
  | setlk =>
      exact ⟨.setlk b (.failed Errno.AGAIN), rfl, ⟨place, trivial⟩, rfl,
        by simp [loopRank, busy, place, next]⟩
  | spawn =>
      refine ⟨.spawn b, rfl, place, rfl, ?_⟩
      have before : loopRank s = 5 := by simp [loopRank, busy, place]
      have after : loopRank (next s (.spawn b)) ≤ 4 := by
        by_cases unborn : (s.request b).spawned = none <;> simp [loopRank, next, unborn]
      omega
  | mapGet =>
      refine ⟨.mapGet b, rfl, place, rfl, ?_⟩
      have before : loopRank s = 6 := by simp [loopRank, busy, place]
      have after : loopRank (next s (.mapGet b)) ≤ 5 := by
        have starts := Task.lockHandler_cases (task (s.request b).message)
        simp only [next]
        split
        · simp [loopRank, busy]
        · rcases starts with ⟨_, same⟩ | ⟨_, same⟩ | ⟨_, _, same⟩ <;> simp [loopRank, busy, same]
      omega
  | acquireExit | trackerNew | fetchId | insertId =>
      rw [place] at serves
      exact register_progress busy (by simp [place]) (room (by simp [place]) (serves (by decide)))
  | _ =>
      rw [place] at onLoop
      exact onLoop.elim

theorem loop_progress {s : State} (reached : machine.Reachable s) (busy : s.loop ≠ .receiving)
    (alive : s.loop ≠ .ended)
    (room : ∀ b, s.loop = .busy b → (s.request b).pc ≠ .reply →
      task (s.request b).message = .register → ∃ id, s.descriptors id = none) :
    ∃ a, LoopStep a = true ∧ Enabled s a ∧ loopRank (next s a) < loopRank s ∧
      ∀ y, (s.request y).pc = .idle ∨ (s.request y).pc.Late → (next s a).request y = s.request y := by
  have served := reachable_served reached
  cases loop : s.loop with
  | receiving => exact (busy loop).elim
  | ended => exact (alive loop).elim
  | releasing b =>
      exact ⟨.release b, rfl, loop, by simp [loopRank, loop, next], fun y _ => by simp [next]⟩
  | awaiting b =>
      by_cases unborn : (s.request b).spawned = none
      · have starts := reachable_awaiting reached b loop unborn
        refine ⟨.track b, rfl, starts, ?_, ?_⟩
        · simp only [next]
          split <;> simp [loopRank, loop, unborn]
        · intro y quiet
          apply request_next_of_ne
          rintro rfl
          simp only [Action.actor, starts] at quiet
          rcases quiet with quiet | quiet
          · cases quiet
          · exact quiet
      · exact ⟨.spawnReturn b, rfl, ⟨loop, unborn⟩, by simp [loopRank, loop, unborn, next],
          fun y _ => by simp [next]⟩
  | busy b =>
      obtain ⟨a, loops, enabled, actor, less⟩ := busy_progress served loop (room b loop)
      refine ⟨a, loops, enabled, less, ?_⟩
      intro y quiet
      apply request_next_of_ne
      rintro rfl
      have onLoop := served.busy b loop
      rw [actor] at quiet
      rcases quiet with quiet | quiet
      · rw [quiet] at onLoop
        exact onLoop
      · cases place : (s.request b).pc <;> rw [place] at quiet onLoop <;>
          first | exact quiet | exact onLoop

end Ulockmgr.Owner
