import Ulockmgr.Owner.Progress
import Ulockmgr.Owner.References

/-!
# An `Unregister` comes to its end

Whatever the other threads of the owner are doing when an `Unregister` arrives, its thread can
complete without the help of anybody outside of the process, and without any lock being granted:
the loop drops its clone, every worker is interrupted in its wait and runs to its end, and then
the thread is the only holder of a clone.
-/

namespace Ulockmgr.Owner

/-- The steps the owner takes by itself while no lock is granted: a first attempt finds the lock
taken, and a wait for it is interrupted. -/
def Unaided : Action → Bool
  | .setlk _ (.granted _ _) | .firstTry _ (.granted _ _) | .setlkw _ (.granted _ _) => false
  | .firstTry _ (.failed errno) => errno = Errno.AGAIN
  | .setlkw _ (.failed errno) => errno = Errno.INTR
  | .blockSignals _ result | .unblockSignal _ result => result = .ok ()
  | .recv _ _ | .hangUp | .startThreadFails _ | .trackerNewFails _ _ | .spawnFails _ | .tryExit
  | .fetch _ _ | .foreignLock _ _ | .foreignUnlock _ _ => false
  | _ => true

/-- All requests the owner has received are among the given ones. -/
def Among (requests : Finset RequestId) (s : State) : Prop :=
  ∀ x, (s.request x).pc ≠ .idle → x ∈ requests

theorem among_next {requests : Finset RequestId} {s : State} {a : Action} (enabled : Enabled s a)
    (unaided : Unaided a = true) (among : Among requests s) : Among requests (next s a) := by
  intro x running
  apply among
  intro idle
  apply running
  apply idle_stays enabled _ idle
  rintro message rfl
  cases unaided

/-! ## Room for interrupt IDs -/

/-- An entry of the interrupt table carries the ID its worker has. -/
theorem reachable_entered {s : State} (reached : machine.Reachable s) {id : UInt64}
    {e : RequestId} (bound : s.interrupts id = some e) :
    (s.request e).id = id ∧ (s.request e).Inserted := by
  have all : machine.Reachable s ∧ ∀ id e, s.interrupts id = some e →
      (s.request e).id = id ∧ (s.request e).Inserted := by
    apply reached.invariant
    · rintro _ rfl
      exact ⟨.initial rfl, nofun⟩
    · rintro state label ⟨before, old⟩ enabled
      refine ⟨reachable_next before enabled, ?_⟩
      intro id e bound
      rcases interrupts_cases bound with earlier | ⟨rfl, rfl, vacant⟩
      · obtain ⟨same, inserted⟩ := old id e earlier
        obtain ⟨stays, kept⟩ := inserted.stays enabled (reachable_attempts before e)
        exact ⟨kept.trans same, stays⟩
      · have first := (reachable_inserting before enabled).2
        simp [machine, next, vacant, Request.Inserted, first]
  exact all.2 id e bound

theorem exists_vacant_interrupt {s : State} (reached : machine.Reachable s)
    {requests : Finset RequestId} (few : requests.card < 2 ^ 64) (among : Among requests s) :
    ∃ id, s.interrupts id = none := by
  by_contra full
  rw [not_exists] at full
  choose worker entered using fun id => Option.ne_none_iff_exists'.mp (full id)
  have maps : Set.MapsTo (fun n : Nat => worker (UInt64.ofNat n))
      (Finset.range (2 ^ 64) : Finset Nat) (requests : Finset Nat) := by
    intro n _
    apply among
    intro idle
    have inserted := (reachable_entered reached (entered (UInt64.ofNat n))).2
    rw [reachable_idle reached _ idle] at inserted
    exact nomatch inserted.1
  have injective : Set.InjOn (fun n : Nat => worker (UInt64.ofNat n))
      (Finset.range (2 ^ 64) : Finset Nat) := by
    intro n small m small' same
    simp only at same
    have ids : UInt64.ofNat n = UInt64.ofNat m := by
      rw [← (reachable_entered reached (entered (UInt64.ofNat n))).1,
        ← (reachable_entered reached (entered (UInt64.ofNat m))).1, same]
    have values := congrArg UInt64.toNat ids
    rw [UInt64.toNat_ofNat', UInt64.toNat_ofNat'] at values
    rwa [Nat.mod_eq_of_lt (Finset.mem_range.mp small),
      Nat.mod_eq_of_lt (Finset.mem_range.mp small')] at values
  have count := Finset.card_le_card_of_injOn _ maps injective
  rw [Finset.card_range] at count
  omega

/-! ## A worker runs to its end -/

/-- A worker that holds a clone or is tracked. -/
def Pc.Working (pc : Pc) : Prop := pc.WorkerHolds ∨ pc.Tracked

/-- How far a place is from the end of a worker that is interrupted in its wait; `vacant` tells
whether its ID is free, `taken` how many IDs in a row are not. -/
def Pc.distance (vacant : Bool) (taken : Nat) : Pc → Nat
  | .childStart => 2 * taken + 26
  | .blockSignals => 2 * taken + 25
  | .firstTry => 2 * taken + 24
  | .insertInterrupt => if vacant then 20 else 2 * taken + 22
  | .fetchInterrupt => 2 * taken + 21
  | .replyFirst => 8
  | .unblockSignal => 7
  | .setlkw => 6
  | .replyLast => 5
  | .endCall => 4
  | .dropClone => 3
  | .untrack => 2
  | .refused => 1
  | _ => 0

noncomputable def workerDistance (w : RequestId) (s : State) : Nat :=
  (s.request w).pc.distance (s.interrupts (s.request w).id).isNone
    (gap s.interrupts s.interruptNextId)

theorem workerDistance_eq {s : State} {w : RequestId} {pc : Pc} (place : (s.request w).pc = pc) :
    workerDistance w s = pc.distance (s.interrupts (s.request w).id).isNone
      (gap s.interrupts s.interruptNextId) := by
  rw [workerDistance, place]

/-- A step of `w` that brings it closer to its end. -/
def Advances (s : State) (w : RequestId) : Prop :=
  ∃ a, Unaided a = true ∧ Enabled s a ∧ a.actor = w ∧ (next s a).loop = s.loop ∧
    workerDistance w (next s a) < workerDistance w s

theorem advances_fetch {s : State} {w : RequestId} (room : ∃ id, s.interrupts id = none)
    (place : (s.request w).pc = .fetchInterrupt) : Advances s w := by
  refine ⟨.fetchInterrupt w, rfl, place, rfl, rfl, ?_⟩
  have after : ((next s (.fetchInterrupt w)).request w).pc = .insertInterrupt := by simp [next]
  have id : ((next s (.fetchInterrupt w)).request w).id = s.interruptNextId := by simp [next]
  rw [workerDistance_eq place, workerDistance_eq after, id]
  change Pc.distance (s.interrupts s.interruptNextId).isNone
    (gap s.interrupts (s.interruptNextId + 1)) .insertInterrupt < _
  cases entry : s.interrupts s.interruptNextId with
  | none => simp [Pc.distance]
  | some _ =>
      have less := gap_lt room (by rw [entry]; exact Option.some_ne_none _)
      simp only [Pc.distance, Option.isNone_some, Bool.false_eq_true, if_false]
      omega

theorem advances_insert {s : State} {w : RequestId}
    (place : (s.request w).pc = .insertInterrupt) : Advances s w := by
  cases entry : s.interrupts (s.request w).id with
  | none =>
      have after : ((next s (.insertInterrupt w)).request w).pc = .replyFirst := by
        simp [next, entry]
      refine ⟨.insertInterrupt w, rfl, place, rfl, by simp [next, entry], ?_⟩
      rw [workerDistance_eq place, workerDistance_eq after, entry]
      simp [Pc.distance]
  | some other =>
      have after : ((next s (.insertInterrupt w)).request w).pc = .fetchInterrupt := by
        simp [next, entry]
      refine ⟨.insertInterrupt w, rfl, place, rfl, by simp [next, entry], ?_⟩
      rw [workerDistance_eq place, workerDistance_eq after, entry]
      simp only [next, entry]
      change 2 * gap s.interrupts s.interruptNextId + 21 < 2 * gap s.interrupts s.interruptNextId + 22
      omega

/-- The interrupt table and its counter change at their own steps only. -/
theorem table_next (s : State) {a : Action}
    (other : ∀ x, a ≠ .removeInterrupt x ∧ a ≠ .fetchInterrupt x ∧ a ≠ .insertInterrupt x) :
    (next s a).interrupts = s.interrupts ∧ (next s a).interruptNextId = s.interruptNextId := by
  cases a with
  | removeInterrupt x => exact ((other x).1 rfl).elim
  | fetchInterrupt x => exact ((other x).2.1 rfl).elim
  | insertInterrupt x => exact ((other x).2.2 rfl).elim
  | _ =>
      simp only [next]
      (repeat' split) <;> exact ⟨rfl, rfl⟩

/-- The step leaves the interrupt table alone and brings the worker closer by its place. -/
structure Brings (s : State) (w : RequestId) (a : Action) (later : Pc) : Prop where
  unaided : Unaided a = true
  enabled : Enabled s a
  actor : a.actor = w
  loop : (next s a).loop = s.loop
  after : ((next s a).request w).pc = later
  other : ∀ x, a ≠ .removeInterrupt x ∧ a ≠ .fetchInterrupt x ∧ a ≠ .insertInterrupt x
  less : ∀ vacant vacant' taken,
    later.distance vacant taken < (s.request w).pc.distance vacant' taken

theorem Brings.advances {s : State} {w : RequestId} {a : Action} {later : Pc}
    (brings : Brings s w a later) : Advances s w := by
  refine ⟨a, brings.unaided, brings.enabled, brings.actor, brings.loop, ?_⟩
  obtain ⟨table, counter⟩ := table_next s brings.other
  rw [workerDistance_eq brings.after, table, counter]
  exact brings.less _ _ _

/-- The next step of an interrupted worker and the place behind it, where they do not depend on
anything else. -/
def Pc.goesOn (w : RequestId) : Pc → Option (Action × Pc)
  | .refused => some (.dropRefused w, .finished)
  | .blockSignals => some (.blockSignals w (.ok ()), .firstTry)
  | .firstTry => some (.firstTry w (.failed Errno.AGAIN), .fetchInterrupt)
  | .replyFirst => some (.replyFirst w, .unblockSignal)
  | .unblockSignal => some (.unblockSignal w (.ok ()), .setlkw)
  | .setlkw => some (.setlkw w (.failed Errno.INTR), .replyLast)
  | .replyLast => some (.replyLast w, .endCall)
  | .endCall => some (.endCall w, .dropClone)
  | .dropClone => some (.dropClone w, .untrack)
  | .untrack => some (.untrack w, .markExited)
  | _ => none

theorem brings_of_goesOn {s : State} {w : RequestId} {a : Action} {later : Pc}
    (goes : (s.request w).pc.goesOn w = some (a, later)) : Brings s w a later := by
  cases place : (s.request w).pc <;> rw [place] at goes <;> cases goes
  all_goals
    refine ⟨rfl, ?_, rfl, by simp [next], by simp [next], fun x => ⟨nofun, nofun, nofun⟩,
      by simp [place, Pc.distance]⟩
    first | exact place | exact ⟨place, trivial⟩

theorem brings_track {s : State} {w : RequestId} (place : (s.request w).pc = .childStart) :
    ∃ later, Brings s w (.track w) later := by
  by_cases spawns : (s.dataOf w).tracker.canSpawn = true
  · exact ⟨.blockSignals, rfl, place, rfl, by simp [next, spawns], by simp [next, spawns],
      fun x => ⟨nofun, nofun, nofun⟩, by simp [place, Pc.distance]⟩
  · exact ⟨.refused, rfl, place, rfl, by simp [next, spawns], by simp [next, spawns],
      fun x => ⟨nofun, nofun, nofun⟩, by simp [place, Pc.distance]⟩

theorem worker_advances {s : State} {w : RequestId} (room : ∃ id, s.interrupts id = none)
    (working : (s.request w).pc.Working) : Advances s w := by
  cases goes : (s.request w).pc.goesOn w with
  | some step => exact (brings_of_goesOn goes).advances
  | none =>
      cases place : (s.request w).pc with
      | childStart =>
          obtain ⟨later, brings⟩ := brings_track place
          exact brings.advances
      | fetchInterrupt => exact advances_fetch room place
      | insertInterrupt => exact advances_insert place
      | _ =>
          rw [place] at goes working
          rcases working with holds | tracked
          · first | exact holds.elim | cases goes
          · first | exact tracked.elim | cases goes

/-- The later state is reached by steps of the owner that only touch the request `x`. -/
structure Around (requests : Finset RequestId) (s : State) (x : RequestId) (t : State) : Prop where
  reached : machine.Reachable t
  among : Among requests t
  others : ∀ y, y ≠ x → t.request y = s.request y

theorem Around.step {requests : Finset RequestId} {s t : State} {x : RequestId} {a : Action}
    (around : Around requests s x t) (unaided : Unaided a = true) (enabled : Enabled t a)
    (actor : a.actor = x) : Around requests s x (next t a) where
  reached := reachable_next around.reached enabled
  among := among_next enabled unaided around.among
  others y other := by
    rw [request_next_of_ne t (actor ▸ other)]
    exact around.others y other

abbrev Leads (s t : State) : Prop := (machine.after s).ReachableVia (fun _ a => Unaided a = true) t

theorem worker_ends {requests : Finset RequestId} (few : requests.card < 2 ^ 64) {s : State}
    (reached : machine.Reachable s) (among : Among requests s) (w : RequestId) :
    ∃ t, Leads s t ∧ (Around requests s w t ∧ t.loop = s.loop) ∧ ¬ (t.request w).pc.Working := by
  refine Transition.Machine.exists_reachableVia_of_measure (workerDistance w) ?_ s ?_
  · rintro t ⟨around, loop⟩
    by_cases working : (t.request w).pc.Working
    · have room := exists_vacant_interrupt around.reached few around.among
      obtain ⟨a, unaided, enabled, actor, same, less⟩ := worker_advances room working
      exact .inr ⟨a, enabled, unaided,
        ⟨around.step unaided enabled actor, same.trans loop⟩, less⟩
    · exact .inl working
  · exact ⟨⟨reached, among, fun _ _ => rfl⟩, rfl⟩

/-! ## The loop drops its clone -/

/-- How far the loop is from dropping its clone, in the handler of the lock command `b`. -/
def releaseDistance (b : RequestId) (s : State) : Nat :=
  match s.loop with
  | .releasing _ => 1
  | .awaiting _ => if (s.request b).spawned = none then 3 else 2
  | .busy _ =>
      match (s.request b).pc with
      | .reply => 2
      | .spawn => 4
      | _ => 3
  | .receiving | .ended => 0

theorem loop_releases {s : State} (reached : machine.Reachable s) {b : RequestId}
    (inside : s.LoopIn b) (locks : (task (s.request b).message).Locks) :
    ∃ a, Unaided a = true ∧ Enabled s a ∧ a.actor = b ∧
      ((next s a).LoopIn b ∨ (next s a).loop = .receiving) ∧
        releaseDistance b (next s a) < releaseDistance b s := by
  have served := reachable_served reached
  have stays : ∀ a, Enabled s a → a ≠ .release b → (∀ x, a ≠ .insertId x) → (next s a).LoopIn b :=
    fun a enabled released inserted =>
      (loopIn_stays served enabled inside released fun same => (inserted b same).elim).2
  rcases id inside with ⟨busy, holds⟩ | awaiting | releasing
  · have serves := served.serves b
    cases place : (s.request b).pc with
    | reply =>
        rw [place] at holds
        have after := State.afterReply_of_locks locks holds
        refine ⟨.reply b, rfl, place, rfl, .inl (stays _ place nofun nofun), ?_⟩
        simp [releaseDistance, busy, place, next, after]
    | getlk =>
        refine ⟨.getlk b (.error Errno.AGAIN), rfl, place, rfl, .inl (stays _ place nofun nofun), ?_⟩
        simp [releaseDistance, busy, place, next]
    | setlk =>
        refine ⟨.setlk b (.failed Errno.AGAIN), rfl, ⟨place, trivial⟩, rfl,
          .inl (stays _ ⟨place, trivial⟩ nofun nofun), ?_⟩
        simp [releaseDistance, busy, place, next]
    | spawn =>
        refine ⟨.spawn b, rfl, place, rfl, .inl (stays _ place nofun nofun), ?_⟩
        by_cases unborn : (s.request b).spawned = none <;>
          simp [releaseDistance, busy, place, next, unborn]
    | fetchId | insertId =>
        rw [place] at serves
        rw [show task (s.request b).message = .register from serves nofun] at locks
        exact locks.elim
    | _ =>
        rw [place] at holds
        exact holds.elim
  · by_cases unborn : (s.request b).spawned = none
    · have place := reachable_awaiting reached b awaiting unborn
      refine ⟨.track b, rfl, place, rfl, .inl (stays _ place nofun nofun), ?_⟩
      simp only [next]
      split <;> simp [releaseDistance, awaiting, unborn]
    · refine ⟨.spawnReturn b, rfl, ⟨awaiting, unborn⟩, rfl,
        .inl (stays _ ⟨awaiting, unborn⟩ nofun nofun), ?_⟩
      simp [releaseDistance, awaiting, unborn, next]
  · exact ⟨.release b, rfl, releasing, rfl, .inr rfl, by simp [releaseDistance, releasing, next]⟩

theorem loop_leaves {requests : Finset RequestId} {s : State} (reached : machine.Reachable s)
    (among : Among requests s) {b : RequestId} (inside : s.LoopIn b)
    (locks : (task (s.request b).message).Locks) :
    ∃ t, Leads s t ∧ Around requests s b t ∧ t.loop = .receiving := by
  have running : (s.request b).pc ≠ .idle := by
    intro idle
    rw [reachable_idle reached b idle] at locks
    exact locks
  -- the loop is inside the handler of `b`, or through with it
  have goes : ∃ t, Leads s t ∧
      (Around requests s b t ∧ (t.LoopIn b ∧ (t.request b).pc ≠ .idle ∧
        (t.request b).message = (s.request b).message ∨ t.loop = .receiving)) ∧
      t.loop = .receiving := by
    refine Transition.Machine.exists_reachableVia_of_measure (releaseDistance b) ?_ s ?_
    · rintro t ⟨around, ⟨there, runs, message⟩ | receives⟩
      · right
        obtain ⟨a, unaided, enabled, actor, goes, less⟩ :=
          loop_releases around.reached there (by rw [message]; exact locks)
        refine ⟨a, enabled, unaided, ⟨around.step unaided enabled actor, ?_⟩, less⟩
        rcases goes with still | out
        · exact .inl ⟨still, running_next enabled runs,
            (message_next enabled runs).trans message⟩
        · exact .inr out
      · exact .inl receives
    · exact ⟨⟨reached, among, fun _ _ => rfl⟩, .inl ⟨inside, running, rfl⟩⟩
  obtain ⟨t, leads, ⟨around, _⟩, receives⟩ := goes
  exact ⟨t, leads, around, receives⟩

/-! ## The thread is alone -/

/-- The thread of `e` waits, and nobody else has anything to do with the `FdData` it took. -/
structure Alone (s : State) (e : RequestId) : Prop where
  took : (s.request e).Took
  waits : (s.request e).pc = .trackerWait ∨ (s.request e).pc = .refcount
  loop : ∀ b, s.LoopIn b → (s.request b).data ≠ (s.request e).data
  workers : ∀ w, (s.request w).data = (s.request e).data → ¬ (s.request w).pc.Working

theorem Alone.threads {s : State} {e : RequestId} (reached : machine.Reachable s)
    (alone : Alone s e) : (s.dataOf e).tracker.threads = ∅ := by
  apply Finset.eq_empty_of_forall_notMem
  intro w tracked
  obtain ⟨same, there⟩ := ((references_exact reached _).2 w).mp tracked
  exact alone.workers w same (.inr there)

theorem Alone.holders {s : State} {e : RequestId} (reached : machine.Reachable s)
    (alone : Alone s e) : (s.dataOf e).holders = {.unregister e} := by
  have clones := reachable_clones reached
  have exact_ := (references_exact reached (s.request e).data).1
  apply Finset.eq_singleton_iff_unique_mem.mpr
  refine ⟨(exact_ _).mpr ⟨rfl, ?_⟩, ?_⟩
  · rcases alone.waits with place | place <;> rw [place] <;> trivial
  · intro h held
    have holds := (exact_ h).mp held
    cases h with
    | map =>
        obtain ⟨id, bound⟩ := holds
        exact (clones.taken e alone.took id bound).elim
    | loop =>
        obtain ⟨b, same, inside⟩ := holds
        exact (alone.loop b inside same).elim
    | worker w => exact (alone.workers w holds.1 (.inl holds.2)).elim
    | unregister e' =>
        have served := reachable_served reached
        have found := served.found e' holds.2.found
        have unregister : task (s.request e').message = .unregister := by
          have serves := served.serves e'
          have there := holds.2
          cases place : (s.request e').pc <;> rw [place] at serves there <;>
            first | exact there.elim | exact serves nofun
        rw [clones.once e' e ⟨unregister, found⟩ alone.took holds.1]

/-- A run of the owner completes the request `e`. -/
def Completes (s : State) (e : RequestId) : Prop := ∃ t, Leads s t ∧ (t.request e).pc = .finished

theorem Completes.step {s : State} {a : Action} {e : RequestId} (enabled : Enabled s a)
    (unaided : Unaided a = true) (completes : Completes (next s a) e) : Completes s e := by
  obtain ⟨t, leads, finished⟩ := completes
  exact ⟨t, .cons enabled unaided leads, finished⟩

theorem Completes.trans {s t : State} {e : RequestId} (leads : Leads s t)
    (completes : Completes t e) : Completes s e := by
  obtain ⟨last, continued, finished⟩ := completes
  exact ⟨last, leads.trans continued, finished⟩

theorem completes_reply {s : State} {e : RequestId} (place : (s.request e).pc = .reply) :
    Completes s e :=
  .step (a := .reply e) place rfl ⟨_, .initial rfl, by simp [next]⟩

theorem completes_dropData {s : State} {e : RequestId} (place : (s.request e).pc = .dropData) :
    Completes s e :=
  .step (a := .dropData e) place rfl (completes_reply (by simp [next]))

theorem completes_refcount {s : State} {e : RequestId} (place : (s.request e).pc = .refcount)
    (only : (s.dataOf e).holders = {.unregister e}) : Completes s e :=
  .step (a := .refcount e) ⟨place, by rw [only, Finset.card_singleton]⟩ rfl
    (completes_dropData (by simp [next]))

theorem Alone.completes {s : State} {e : RequestId} (reached : machine.Reachable s)
    (alone : Alone s e) : Completes s e := by
  have only := alone.holders reached
  rcases alone.waits with place | place
  · apply Completes.step (a := .trackerWait e) ⟨place, alone.threads reached⟩ rfl
    exact completes_refcount (by simp [next]) (by simpa [next] using only)
  · exact completes_refcount place only

/-! ## Getting there -/

open scoped Classical in
/-- The workers that have to do with the `FdData` of `r`. -/
noncomputable def workersOf (requests : Finset RequestId) (s : State) (r : RequestId) :
    Finset RequestId :=
  requests.filter fun w => (s.request w).data = r ∧ (s.request w).pc.Working

theorem mem_workersOf {requests : Finset RequestId} {s : State} {r w : RequestId} :
    w ∈ workersOf requests s r ↔
      w ∈ requests ∧ (s.request w).data = r ∧ (s.request w).pc.Working := by
  simp [workersOf]

theorem Pc.Working.running {pc : Pc} (working : pc.Working) : pc ≠ .idle := by
  rintro rfl
  rcases working with holds | tracked
  · exact holds
  · exact tracked

theorem Pc.Working.offLoop {pc : Pc} (working : pc.Working) (t : Task) : ¬ pc.OnLoop t := by
  rcases working with holds | tracked
  · cases pc <;> first | exact holds.elim | exact id
  · cases pc <;> first | exact tracked.elim | exact id

/-- Where a worker has run to its end, the loop has no clone that it did not have before. -/
theorem Around.loopFree {requests : Finset RequestId} {s t : State} {w r : RequestId}
    (reached : machine.Reachable s) (around : Around requests s w t) (loop : t.loop = s.loop)
    (working : (s.request w).pc.Working) (same : (s.request w).data = r)
    (free : ∀ b, s.LoopIn b → (s.request b).data ≠ r) (b : RequestId) (inside : t.LoopIn b) :
    (t.request b).data ≠ r := by
  rw [State.LoopIn, loop] at inside
  by_cases own : b = w
  · subst own
    rcases inside with ⟨busy, _⟩ | past
    · exact (working.offLoop _ ((reachable_served reached).busy b busy)).elim
    · exact (free b (.inr past) same).elim
  · rw [around.others b own] at inside ⊢
    exact free b inside

theorem workers_complete {requests : Finset RequestId} (few : requests.card < 2 ^ 64)
    {e : RequestId} (n : Nat) {s : State} (reached : machine.Reachable s)
    (among : Among requests s) (took : (s.request e).Took)
    (waits : (s.request e).pc = .trackerWait ∨ (s.request e).pc = .refcount)
    (free : ∀ b, s.LoopIn b → (s.request b).data ≠ (s.request e).data)
    (count : (workersOf requests s (s.request e).data).card = n) : Completes s e := by
  -- by the number of workers: one of them is run to its end, the others stay where they are
  induction n using Nat.strong_induction_on generalizing s with
  | h n ih =>
      by_cases nobody : ∀ w, (s.request w).data = (s.request e).data → ¬ (s.request w).pc.Working
      · exact Alone.completes reached ⟨took, waits, free, nobody⟩
      · push Not at nobody
        obtain ⟨w, same, working⟩ := nobody
        obtain ⟨t, leads, ⟨around, loop⟩, ended⟩ := worker_ends few reached among w
        have other : e ≠ w := by
          rintro rfl
          rcases waits with place | place <;> rw [place] at working <;>
            rcases working with holds | tracked <;> first | exact holds | exact tracked
        have kept := around.others e other
        have fewer : (workersOf requests t (s.request e).data).card < n := by
          rw [← count]
          apply Finset.card_lt_card
          rw [Finset.ssubset_iff_of_subset]
          · refine ⟨w, mem_workersOf.mpr ⟨among w working.running, same, working⟩, ?_⟩
            intro still
            exact ended (mem_workersOf.mp still).2.2
          · intro y still
            obtain ⟨listed, data, there⟩ := mem_workersOf.mp still
            have apart : y ≠ w := by
              rintro rfl
              exact ended there
            rw [around.others y apart] at data there
            exact mem_workersOf.mpr ⟨listed, data, there⟩
        refine Completes.trans leads (ih _ fewer around.reached around.among ?_ ?_ ?_ ?_)
        · rw [kept]
          exact took
        · rw [kept]
          exact waits
        · rw [kept]
          exact around.loopFree reached loop working same free
        · rw [kept]

/-- The lock command whose handler has a clone of what an `Unregister` took. -/
theorem locks_of_loopIn {s : State} (reached : machine.Reachable s) {b e : RequestId}
    (took : (s.request e).Took) (inside : s.LoopIn b)
    (same : (s.request b).data = (s.request e).data) : (task (s.request b).message).Locks := by
  have served := reachable_served reached
  have clones := reachable_clones reached
  have knows : (s.request b).found = some true → task (s.request b).message ≠ .unregister →
      (task (s.request b).message).Locks :=
    fun found other => (served.looks b found).resolve_left other
  rcases inside with ⟨busy, holds⟩ | past
  · have serves := served.serves b
    have onLoop := served.busy b busy
    cases place : (s.request b).pc with
    | reply =>
        rw [place] at holds onLoop
        exact knows holds onLoop.2
    | getlk | setlk | spawn =>
        rw [place] at serves
        apply knows (served.found b (by rw [place]; trivial))
        rw [serves nofun]
        nofun
    | fetchId | insertId =>
        -- the registration that was taken is not in the making any more
        have own := clones.own b (by simp [place])
        obtain ⟨_, over_⟩ := clones.found e took.2
        rw [← same, own, place] at over_
        rcases over_ with wrong | wrong <;> cases wrong
    | _ =>
        rw [place] at holds
        exact holds.elim
  · exact knows (served.past b past).1 (served.past b past).2

theorem waiting_completes {requests : Finset RequestId} (few : requests.card < 2 ^ 64)
    {e : RequestId} {s : State} (reached : machine.Reachable s) (among : Among requests s)
    (took : (s.request e).Took)
    (waits : (s.request e).pc = .trackerWait ∨ (s.request e).pc = .refcount) :
    Completes s e := by
  by_cases free : ∀ b, s.LoopIn b → (s.request b).data ≠ (s.request e).data
  · exact workers_complete few _ reached among took waits free rfl
  · push Not at free
    obtain ⟨b, inside, same⟩ := free
    have locks := locks_of_loopIn reached took inside same
    obtain ⟨t, leads, around, receives⟩ := loop_leaves reached among inside locks
    have other : e ≠ b := by
      rintro rfl
      rw [took.1] at locks
      exact locks
    have kept := around.others e other
    refine Completes.trans leads (workers_complete few _ around.reached around.among
      (by rw [kept]; exact took) (by rw [kept]; exact waits) ?_ rfl)
    rintro b' (⟨busy, _⟩ | awaiting | releasing)
    · rw [receives] at busy
      cases busy
    · rw [receives] at awaiting
      cases awaiting
    · rw [receives] at releasing
      cases releasing

section Thread
variable {requests : Finset RequestId} (few : requests.card < 2 ^ 64) {e : RequestId} {s : State}
  (reached : machine.Reachable s) (among : Among requests s)
include few reached among

theorem trackerStop_completes (place : (s.request e).pc = .trackerStop) : Completes s e := by
  have served := reachable_served reached
  have unregister : task (s.request e).message = .unregister := by
    have serves := served.serves e
    rw [place] at serves
    exact serves nofun
  have enabled : Enabled s (.trackerStop e) := place
  apply Completes.step enabled rfl
  apply waiting_completes few (reachable_next reached enabled) (among_next enabled rfl among)
  · refine ⟨?_, ?_⟩
    · rw [message_next enabled (by rw [place]; nofun)]
      exact unregister
    · simpa [next] using served.found e (by rw [place]; trivial)
  · simp [next]

theorem mapRemove_completes (place : (s.request e).pc = .mapRemove) : Completes s e := by
  have enabled : Enabled s (.mapRemove e) := place
  apply Completes.step enabled rfl
  cases entry : s.descriptors (s.request e).message.id with
  | none => exact completes_reply (by simp [next, entry])
  | some r =>
      exact trackerStop_completes few (reachable_next reached enabled)
        (among_next enabled rfl among) (by simp [next, entry])

end Thread

/-- However far an `Unregister` has come, and whatever the loop, the workers and the other threads
are doing then: the owner can complete it by itself, with no lock granted to anybody. -/
theorem unregister_completes {s : State} (reached : machine.Reachable s) {e : RequestId}
    (unregister : task (s.request e).message = .unregister) {requests : Finset RequestId}
    (few : requests.card < 2 ^ 64) (among : ∀ x, (s.request x).pc ≠ .idle → x ∈ requests) :
    ∃ t, (machine.after s).ReachableVia (fun _ a => Unaided a = true) t ∧
      (t.request e).pc = .finished := by
  have served := reachable_served reached
  have running : (s.request e).pc ≠ .idle := by
    intro idle
    rw [reachable_idle reached e idle] at unregister
    cases unregister
  have serves := served.serves e running
  rw [unregister] at serves
  have waits : (s.request e).pc.Found → (s.request e).Took :=
    fun found => ⟨unregister, served.found e found⟩
  cases place : (s.request e).pc with
  | finished => exact ⟨s, .initial rfl, place⟩
  | reply => exact completes_reply place
  | dropData => exact completes_dropData place
  | trackerWait =>
      exact waiting_completes few reached among (waits (by rw [place]; trivial)) (.inl place)
  | refcount =>
      exact waiting_completes few reached among (waits (by rw [place]; trivial)) (.inr place)
  | trackerStop => exact trackerStop_completes few reached among place
  | mapRemove => exact mapRemove_completes few reached among place
  | startThread =>
      have enabled : Enabled s (.startThread e) := place
      apply Completes.step enabled rfl
      apply mapRemove_completes few (reachable_next reached enabled) (among_next enabled rfl among)
      simp [next, unregister, Task.threadHandler]
  | _ =>
      rw [place] at serves
      first | exact serves.elim | cases serves

/-- Two workers wait for a lock that nobody gives them, and a third one is being started, when
their registration is dropped. -/
def waitingRun : List Action :=
  let waits := fun e =>
    [.recv e (.lockCommand 0 .setLockBlocking ⟨.write, .start, 0, 10, 0⟩), .mapGet e, .spawn e,
      .track e, .spawnReturn e, .release e, .blockSignals e (.ok ()),
      .firstTry e (.failed Errno.AGAIN), .fetchInterrupt e, .insertInterrupt e, .replyFirst e,
      .unblockSignal e (.ok ())]
  [.recv 0 (.register (.file 7)), .acquireExit 0, .trackerNew 0, .fetchId 0, .insertId 0,
    .reply 0] ++ waits 1 ++ waits 2 ++
  [.recv 4 (.unregister 0), .startThread 4,
    .recv 3 (.lockCommand 0 .setLockBlocking ⟨.write, .start, 0, 10, 0⟩), .mapGet 3,
    .mapRemove 4, .trackerStop 4, .spawn 3]

theorem unregister_completes_waiting :
    ∃ s, machine.Reachable s ∧ (s.request 4).pc = .trackerWait ∧
      (s.request 1).pc = .setlkw ∧ (s.request 2).pc = .setlkw ∧ (s.request 3).pc = .childStart ∧
      ∃ t, (machine.after s).ReachableVia (fun _ a => Unaided a = true) t ∧
        (t.request 4).pc = .finished := by
  obtain ⟨s, ran, waits, one, two, three, message⟩ :
      ∃ s, machine.exec (fun _ _ => True) waitingRun initial = some s ∧
        (s.request 4).pc = .trackerWait ∧ (s.request 1).pc = .setlkw ∧
        (s.request 2).pc = .setlkw ∧ (s.request 3).pc = .childStart ∧
        task (s.request 4).message = .unregister :=
    Transition.Machine.exists_of_exec waitingRun (by decide +kernel)
  have reached : machine.Reachable s :=
    Transition.Machine.exec_reachableVia (.initial rfl) ran
  have among : ∀ x, (s.request x).pc ≠ .idle → x ∈ Finset.range 5 := by
    apply Transition.Machine.exec_invariant
      (fun state => ∀ x, (state.request x).pc ≠ .idle → x ∈ Finset.range 5) _ _ ran
    · intro x running
      exact (running rfl).elim
    · intro label member state old x running
      have small : ∀ label ∈ waitingRun, label.actor < 5 := by decide
      by_cases own : x = label.actor
      · rw [own, Finset.mem_range]
        exact small label member
      · rw [show machine.next = next from rfl, request_next_of_ne state own] at running
        exact old x running
  exact ⟨s, reached, waits, one, two, three,
    unregister_completes reached message (by rw [Finset.card_range]; decide) among⟩

end Ulockmgr.Owner
