import Ulockmgr.Manager

/-!
# The locks of the manager

The same functions as in the model of the manager, with the locks they take: the shards of the map,
the `communication` mutex of the manager, and that of each `Owner`.  The entry of an ID stays
locked while its owner is spawned, and the cleanup pass keeps a shard locked while it pings
the owners in it; every other lock is held for one `sendmsg`.  What the map contains and
how the exchanges come out is left open here, so every branch can be taken.
-/

namespace Ulockmgr.Manager.Locking

inductive Lock where
  | shard (k : Nat)
  | communication
  | owner (p : Process)
  deriving DecidableEq, Repr

/-- "Lock order: owner lock -> communication lock". -/
def Lock.rank : Lock → Nat
  | .shard _ => 1
  | .communication | .owner _ => 2

inductive Mode where
  | read
  | write
  deriving DecidableEq, Repr

/-- What an exchange with an owner is for. -/
inductive Purpose where
  /-- `owner.ping()` in `get_or_create_owner`. -/
  | ping
  /-- `owner.register(fd)` in `register`. -/
  | register
  /-- `owner.ping()` behind a failed registration. -/
  | check
  /-- A request of a `Lockable`. -/
  | request
  deriving DecidableEq, Repr

inductive Pc where
  | idle
  /-- In front of `owners.get`. -/
  | lookup (id : OwnerId)
  | looked (id : OwnerId)
  /-- In front of `owners.entry`. -/
  | entry (id : OwnerId)
  | entered (id : OwnerId)
  /-- In `or_try_insert_with`, in front of `communication.lock()`. -/
  | spawning (id : OwnerId)
  | sending (id : OwnerId)
  /-- The request has been sent, and its reply is awaited. -/
  | awaiting (id : OwnerId)
  /-- In front of the `communication` of an owner. -/
  | asking (purpose : Purpose) (id : OwnerId) (p : Process)
  | askSending (purpose : Purpose) (id : OwnerId) (p : Process)
  | askAwaiting (purpose : Purpose) (id : OwnerId) (p : Process)
  /-- In front of `owners.remove`. -/
  | removing (id : OwnerId)
  | removed (id : OwnerId)
  | returned
  /-- The cleanup thread in `recv_timeout`. -/
  | resting
  /-- In front of a shard. -/
  | sweep (k : Nat)
  /-- With the owners of the shard that are still to be pinged. -/
  | sweeping (k : Nat) (owners : List Process)
  | sweepSending (k : Nat) (p : Process) (owners : List Process)
  | sweepAwaiting (k : Nat) (owners : List Process)
  | ended
  deriving DecidableEq, Repr

section
variable (shards : Nat) (shardOf : OwnerId → Nat)

/-- The lock a thread is in front of. -/
def wants : Pc → Option (Lock × Mode)
  | .lookup id => some (.shard (shardOf id), .read)
  | .entry id | .removing id => some (.shard (shardOf id), .write)
  | .spawning _ => some (.communication, .write)
  | .asking _ _ p => some (.owner p, .write)
  | .sweep k => if k < shards then some (.shard k, .write) else none
  | .sweeping _ (p :: _) => some (.owner p, .write)
  | _ => none

/-- The locks a thread holds. -/
def holds : Pc → List (Lock × Mode)
  | .looked id => [(.shard (shardOf id), .read)]
  | .entered id | .spawning id | .awaiting id | .removed id => [(.shard (shardOf id), .write)]
  | .sending id => [(.shard (shardOf id), .write), (.communication, .write)]
  | .askSending _ _ p => [(.owner p, .write)]
  | .sweeping k _ | .sweepAwaiting k _ => [(.shard k, .write)]
  | .sweepSending k p _ => [(.shard k, .write), (.owner p, .write)]
  | _ => []

/-- What follows on an exchange with an owner. -/
def Follows (id : OwnerId) (p : Process) : Purpose → Pc → Prop
  | .ping, next => next = .returned ∨ next = .asking .register id p ∨ next = .removing id
  | .register, next => next = .returned ∨ next = .asking .check id p
  | .check, next => next = .returned ∨ next = .lookup id
  | .request, next => next = .returned

/-- The step of a thread, once it has the lock it is in front of. -/
def Goes : Pc → Pc → Prop
  | .idle, next => (∃ id, next = .lookup id) ∨ (∃ id p, next = .asking .request id p) ∨
      next = .resting
  | .lookup id, next => next = .looked id
  | .looked id, next => (∃ p, next = .asking .ping id p) ∨ next = .entry id
  | .entry id, next => next = .entered id
  | .entered id, next => (∃ p, next = .asking .ping id p) ∨ next = .spawning id
  | .spawning id, next => next = .sending id
  | .sending id, next => next = .awaiting id ∨ next = .returned
  -- a new owner with a zero TTL is not pinged
  | .awaiting id, next => (∃ p, next = .asking .ping id p) ∨ next = .returned
  | .asking purpose id p, next => next = .askSending purpose id p
  | .askSending purpose id p, next => next = .askAwaiting purpose id p ∨ Follows id p purpose next
  | .askAwaiting purpose id p, next => Follows id p purpose next
  | .removing id, next => next = .removed id
  | .removed id, next => next = .lookup id
  | .resting, next => next = .sweep 0 ∨ next = .ended
  | .sweep k, next =>
      (k < shards ∧ ∃ owners, next = .sweeping k owners) ∨ (shards ≤ k ∧ next = .resting)
  | .sweeping k [], next => next = .sweep (k + 1)
  | .sweeping k (p :: owners), next => next = .sweepSending k p owners
  | .sweepSending k _ owners, next => next = .sweepAwaiting k owners ∨ next = .sweeping k owners
  | .sweepAwaiting k owners, next => next = .sweeping k owners
  | .returned, _ | .ended, _ => False

/-- Two threads may hold a lock at once if both read. -/
def Conflict (mode other : Mode) : Prop := mode = .write ∨ other = .write

/-- Thread by thread. -/
abbrev State := Nat → Pc

structure Action where
  thread : Nat
  goes : Pc

def Enabled (s : State) (a : Action) : Prop :=
  Goes shards (s a.thread) a.goes ∧
    ∀ lock mode, wants shards shardOf (s a.thread) = some (lock, mode) →
      ∀ u, u ≠ a.thread → ∀ other, (lock, other) ∈ holds shardOf (s u) → ¬ Conflict mode other

def machine : Transition.Machine State Action where
  Initial s := ∀ t, s t = .idle
  Enabled := Enabled shards shardOf
  next s a := Function.update s a.thread a.goes

/-- A thread that is inside a function. -/
def Busy (pc : Pc) : Prop := pc ≠ .idle ∧ pc ≠ .returned ∧ pc ≠ .ended

variable {shards shardOf}

theorem holds_follows {id : OwnerId} {p : Process} {purpose : Purpose} {next : Pc}
    (follows : Follows id p purpose next) : holds shardOf next = [] := by
  cases purpose with
  | ping => rcases follows with rfl | rfl | rfl <;> rfl
  | register => rcases follows with rfl | rfl <;> rfl
  | check => rcases follows with rfl | rfl <;> rfl
  | request =>
      cases follows
      rfl

/-- A step takes no lock but the one it waited for. -/
theorem holds_goes {pc next : Pc} (goes : Goes shards pc next) {lock : Lock} {mode : Mode}
    (held : (lock, mode) ∈ holds shardOf next) :
    (lock, mode) ∈ holds shardOf pc ∨ wants shards shardOf pc = some (lock, mode) := by
  cases pc with
  | idle => rcases goes with ⟨id, rfl⟩ | ⟨id, p, rfl⟩ | rfl <;> cases held
  | lookup id =>
      cases goes
      exact .inr (by simpa [holds, wants, eq_comm] using held)
  | looked id => rcases goes with ⟨p, rfl⟩ | rfl <;> cases held
  | entry id =>
      cases goes
      exact .inr (by simpa [holds, wants, eq_comm] using held)
  | entered id =>
      rcases goes with ⟨p, rfl⟩ | rfl
      · cases held
      · exact .inl held
  | spawning id =>
      cases goes
      rcases List.mem_cons.mp held with first | second
      · exact .inl (List.mem_cons.mpr (.inl first))
      · exact .inr (by simpa [wants, eq_comm] using second)
  | sending id =>
      rcases goes with rfl | rfl
      · exact .inl (List.mem_cons.mpr (.inl (List.mem_singleton.mp held)))
      · cases held
  | awaiting id => rcases goes with ⟨p, rfl⟩ | rfl <;> cases held
  | asking purpose id p =>
      cases goes
      exact .inr (by simpa [holds, wants, eq_comm] using held)
  | askSending purpose id p =>
      rcases goes with rfl | follows
      · cases held
      · rw [holds_follows follows] at held
        cases held
  | askAwaiting purpose id p =>
      rw [holds_follows goes] at held
      cases held
  | removing id =>
      cases goes
      exact .inr (by simpa [holds, wants, eq_comm] using held)
  | removed id =>
      cases goes
      cases held
  | returned => exact goes.elim
  | resting => rcases goes with rfl | rfl <;> cases held
  | sweep k =>
      rcases goes with ⟨inside, owners, rfl⟩ | ⟨-, rfl⟩
      · exact .inr (by simpa [holds, wants, inside, eq_comm] using held)
      · cases held
  | sweeping k owners =>
      cases owners with
      | nil =>
          cases goes
          cases held
      | cons p owners =>
          cases goes
          rcases List.mem_cons.mp held with first | second
          · exact .inl (List.mem_singleton.mpr first)
          · exact .inr (by simpa [wants, eq_comm] using second)
  | sweepSending k p owners =>
      rcases goes with rfl | rfl <;>
        exact .inl (List.mem_cons.mpr (.inl (List.mem_singleton.mp held)))
  | sweepAwaiting k owners =>
      cases goes
      exact .inl held
  | ended => exact goes.elim

/-- No two threads hold a lock at once, unless both read. -/
def Exclusive (shardOf : OwnerId → Nat) (s : State) : Prop :=
  ∀ t u, t ≠ u → ∀ lock mode other, (lock, mode) ∈ holds shardOf (s t) →
    (lock, other) ∈ holds shardOf (s u) → ¬ Conflict mode other

theorem exclusive_next {s : State} {a : Action} (inv : Exclusive shardOf s)
    (enabled : Enabled shards shardOf s a) :
    Exclusive shardOf (Function.update s a.thread a.goes) := by
  obtain ⟨goes, free⟩ := enabled
  -- what the thread holds now, against a thread that has not moved
  have moved : ∀ u, u ≠ a.thread → ∀ lock mode other, (lock, mode) ∈ holds shardOf a.goes →
      (lock, other) ∈ holds shardOf (s u) → ¬ Conflict mode other := by
    intro u apart lock mode other own held
    rcases holds_goes goes own with before | wanted
    · exact inv _ u apart.symm lock mode other before held
    · exact free lock mode wanted u apart other held
  intro t u apart lock mode other own held
  by_cases first : t = a.thread
  · subst first
    rw [Function.update_self] at own
    rw [Function.update_of_ne apart.symm] at held
    exact moved u apart.symm lock mode other own held
  · rw [Function.update_of_ne first] at own
    by_cases second : u = a.thread
    · subst second
      rw [Function.update_self] at held
      intro conflict
      exact moved t first lock other mode held own conflict.symm
    · rw [Function.update_of_ne second] at held
      exact inv t u apart lock mode other own held

theorem reachable_exclusive {s : State} (reached : (machine shards shardOf).Reachable s) :
    Exclusive shardOf s := by
  refine reached.invariant ?_ fun _ _ => exclusive_next
  intro s starts t u _ lock mode other own
  rw [starts t] at own
  cases own

/-! ## Progress -/

variable (shards) in
/-- Every point inside a function has a step behind it. -/
theorem exists_goes {pc : Pc} (busy : Busy pc) : ∃ next, Goes shards pc next := by
  cases pc with
  | idle => exact (busy.1 rfl).elim
  | returned => exact (busy.2.1 rfl).elim
  | ended => exact (busy.2.2 rfl).elim
  | lookup id => exact ⟨_, rfl⟩
  | looked id => exact ⟨_, .inr rfl⟩
  | entry id => exact ⟨_, rfl⟩
  | entered id => exact ⟨_, .inr rfl⟩
  | spawning id => exact ⟨_, rfl⟩
  | sending id => exact ⟨_, .inl rfl⟩
  | awaiting id => exact ⟨_, .inr rfl⟩
  | asking purpose id p => exact ⟨_, rfl⟩
  | askSending purpose id p => exact ⟨_, .inl rfl⟩
  | askAwaiting purpose id p =>
      cases purpose with
      | ping => exact ⟨_, .inl rfl⟩
      | register => exact ⟨_, .inl rfl⟩
      | check => exact ⟨_, .inl rfl⟩
      | request => exact ⟨_, rfl⟩
  | removing id => exact ⟨_, rfl⟩
  | removed id => exact ⟨_, rfl⟩
  | resting => exact ⟨_, .inl rfl⟩
  | sweep k =>
      rcases Nat.lt_or_ge k shards with inside | past
      · exact ⟨_, .inl ⟨inside, [], rfl⟩⟩
      · exact ⟨_, .inr ⟨past, rfl⟩⟩
  | sweeping k owners =>
      cases owners with
      | nil => exact ⟨_, rfl⟩
      | cons p owners => exact ⟨_, rfl⟩
  | sweepSending k p owners => exact ⟨_, .inl rfl⟩
  | sweepAwaiting k owners => exact ⟨_, rfl⟩

/-- A thread waits for locks above those it holds. -/
theorem rank_lt {pc : Pc} {lock held : Lock} {mode other : Mode}
    (wanted : wants shards shardOf pc = some (lock, mode))
    (owns : (held, other) ∈ holds shardOf pc) : held.rank < lock.rank := by
  cases pc with
  | spawning id =>
      cases wanted
      cases List.mem_singleton.mp owns
      exact Nat.lt_succ_self 1
  | sweeping k owners =>
      cases owners with
      | nil => cases wanted
      | cons p owners =>
          cases wanted
          cases List.mem_singleton.mp owns
          exact Nat.lt_succ_self 1
  | sweep k => cases owns
  | lookup id | entry id | removing id | asking purpose id p => cases owns
  | _ => cases wanted

theorem busy_of_holds {pc : Pc} {lock : Lock} {mode : Mode}
    (owns : (lock, mode) ∈ holds shardOf pc) : Busy pc := by
  refine ⟨?_, ?_, ?_⟩ <;> rintro rfl <;> cases owns

/-- From a busy thread the way from a waiting thread to one that is in its way ends at a thread that
nobody is in the way of: the ranks of the locks they wait for rise. -/
theorem exists_enabled (s : State) (height : Nat) {t : Nat} (busy : Busy (s t))
    (above : ∀ lock mode, wants shards shardOf (s t) = some (lock, mode) → 2 < lock.rank + height) :
    ∃ u next, Busy (s u) ∧ Enabled shards shardOf s ⟨u, next⟩ := by
  induction height generalizing t with
  | zero =>
      obtain ⟨next, goes⟩ := exists_goes shards busy
      refine ⟨t, next, busy, goes, fun lock mode wanted => ?_⟩
      have high := above lock mode wanted
      cases lock <;> simp [Lock.rank] at high
  | succ height ih =>
      by_cases free : ∀ lock mode, wants shards shardOf (s t) = some (lock, mode) →
          ∀ u, u ≠ t → ∀ other, (lock, other) ∈ holds shardOf (s u) → ¬ Conflict mode other
      · obtain ⟨next, goes⟩ := exists_goes shards busy
        exact ⟨t, next, busy, goes, free⟩
      · simp only [not_forall, not_not] at free
        obtain ⟨lock, mode, wanted, u, -, other, owns, -⟩ := free
        refine ih (busy_of_holds owns) fun lock' mode' wanted' => ?_
        have rises := rank_lt wanted' owns
        have high := above lock mode wanted
        omega

/-- The locks of the manager exclude each other, so that an ID is spawned by one call at a time, and no
reachable state is stuck: while a call or the cleanup pass is under way, a thread that is inside one of
them can go on. -/
theorem locks_exclude_and_progress {s : State} (reached : (machine shards shardOf).Reachable s) :
    (∀ t u id, t ≠ u → (s t = .sending id ∨ s t = .awaiting id) →
      ¬ (s u = .sending id ∨ s u = .awaiting id)) ∧
      ∀ t, Busy (s t) → ∃ u next, Busy (s u) ∧ (machine shards shardOf).Enabled s ⟨u, next⟩ := by
  refine ⟨?_, fun t busy => ?_⟩
  · intro t u id apart first second
    have owns : ∀ v, s v = .sending id ∨ s v = .awaiting id →
        (.shard (shardOf id), .write) ∈ holds shardOf (s v) := by
      rintro v (here | here) <;> rw [here] <;> exact List.mem_cons_self
    exact reachable_exclusive reached t u apart _ _ _ (owns t first) (owns u second) (.inl rfl)
  · refine exists_enabled s 2 busy fun lock mode _ => ?_
    cases lock <;> simp [Lock.rank]

/-- One thread runs while the others are idle. -/
theorem reachable_alone {pc next : Pc}
    (reached : (machine shards shardOf).Reachable (Function.update (fun _ => .idle) 0 pc))
    (goes : Goes shards pc next) :
    (machine shards shardOf).Reachable (Function.update (fun _ => .idle) 0 next) := by
  have enabled : Enabled shards shardOf (Function.update (fun _ => .idle) 0 pc) ⟨0, next⟩ := by
    refine ⟨by simpa using goes, fun lock mode _ u apart other owns => ?_⟩
    rw [Function.update_of_ne apart] at owns
    cases owns
  have same : (machine shards shardOf).next (Function.update (fun _ => .idle) 0 pc) ⟨0, next⟩ =
      Function.update (fun _ => .idle) 0 next := Function.update_idem ..
  rw [← same]
  exact Transition.Machine.ReachableVia.step reached enabled trivial

end

/-- A call spawns an owner, and another one for the same ID waits for the entry. -/
theorem waiting_call_progresses :
    ∃ s : State, s 0 = .spawning 5 ∧ s 1 = .lookup 5 ∧
      ∃ u next, Busy (s u) ∧ (machine 1 fun _ => 0).Enabled s ⟨u, next⟩ := by
  have idle : (machine 1 fun _ => 0).Reachable (Function.update (fun _ => .idle) 0 .idle) :=
    .initial fun t => by simp
  have spawning : (machine 1 fun _ => 0).Reachable
      (Function.update (fun _ => .idle) 0 (.spawning 5)) :=
    reachable_alone (reachable_alone (reachable_alone (reachable_alone (reachable_alone idle
      (.inl ⟨5, rfl⟩)) rfl) (.inr rfl)) rfl) (.inr rfl)
  have starts : Enabled 1 (fun _ => 0) (Function.update (fun _ => .idle) 0 (.spawning 5))
      ⟨1, .lookup 5⟩ :=
    ⟨.inl ⟨5, rfl⟩, nofun⟩
  have both := Transition.Machine.ReachableVia.step spawning starts trivial
  refine ⟨_, rfl, rfl, (locks_exclude_and_progress both).2 1 ?_⟩
  exact ⟨nofun, nofun, nofun⟩

end Ulockmgr.Manager.Locking
