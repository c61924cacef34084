import Ulockmgr.Manager.OneOwner

/-!
# Registration and an owner that exits underneath it

A registration that fails with a broken pipe on an owner that is gone is tried
again on a fresh one.  A process that vanished gives that error at every point.
An owner whose exit flag is set and whose loop still answers reports its broken
pipe through `io_cvt`, which has no errno for that kind, so the client sees an
`EIO` from a process that answers pings, and gives up.
-/

namespace Ulockmgr.Manager

/-- The call that takes a step. -/
def Action.caller : Action → Option CallId
  | .start c _ _ _ => some c
  | .lookup c => some c
  | .entry c _ => some c
  | .entryFails c _ => some c
  | .ping c => some c
  | .remove c => some c
  | .registerSend c => some c
  | .registerAnswer c => some c
  | .registerLost c => some c
  | .registerCheck c => some c
  | .drop _ | .retain _ | .tryExit _ | .vanish _ => none

/-- The coordinator answers every spawn request with a new live owner. -/
def SpawnsAnswered (_ : State) : Action → Prop
  | .entryFails _ _ => False
  | _ => True

/-- A `Register` message is not read by an owner whose exit flag is set. -/
def ReadBeforeExit (s : State) : Action → Prop
  | .registerAnswer c => (s.process (s.call c).owner).exitLock.exited = false
  | _ => True

instance (s : State) (a : Action) : Decidable (SpawnsAnswered s a) :=
  match a with
  | .entryFails _ _ => isFalse not_false
  | .start _ _ _ _ | .lookup _ | .entry _ _ | .ping _ | .remove _ | .registerSend _
  | .registerAnswer _ | .registerLost _ | .registerCheck _ | .drop _ | .retain _ | .tryExit _
  | .vanish _ => isTrue trivial

instance (s : State) (a : Action) : Decidable (ReadBeforeExit s a) :=
  match a with
  | .registerAnswer _ => inferInstanceAs (Decidable (_ = false))
  | .start _ _ _ _ | .lookup _ | .entry _ _ | .entryFails _ _ | .ping _ | .remove _
  | .registerSend _ | .registerLost _ | .registerCheck _ | .drop _ | .retain _ | .tryExit _
  | .vanish _ => isTrue trivial

/-- A `register` call that returned holds a registration its owner accepted, an
attempt that failed goes round again, and a call that has not returned can go on. -/
def Survives (s : State) (c : CallId) : Prop :=
  ((s.call c).pc = .returned →
    ∃ p, (s.call c).result = some (.ok p) ∧ ((s.call c).ownerId, p) ∈ s.lockables) ∧
  ((s.call c).pc = .registerCheck → ((next s (.registerCheck c)).call c).pc = .lookup) ∧
  ((s.call c).pc ≠ .idle → (s.call c).pc ≠ .returned →
    ∃ a, Action.caller a = some c ∧ SpawnsAnswered s a ∧ Enabled s a)

def RegistrationsSurvive (s : State) : Prop :=
  ∀ c, (s.call c).kind = .register → Survives s c

/-! ## The failing run -/

/-- Owner 10 sets its exit flag between the ping and the `Register` message, and
its loop is still there to read the message. -/
def exitWindowRun : List Action :=
  [.start 0 .register 1 false, .lookup 0, .entry 0 10, .ping 0, .tryExit 10, .registerSend 0,
    .registerAnswer 0, .registerCheck 0]

theorem register_fails_in_exit_window :
    ∃ s, machine.ReachableVia SpawnsAnswered s ∧ (s.call 0).kind = .register ∧
      (s.call 0).pc = .returned ∧ (s.call 0).result = some (.error (.os Errno.INOUT)) ∧
      ¬ RegistrationsSurvive s := by
  have found : ∃ s, machine.ReachableVia SpawnsAnswered s ∧ ((s.call 0).kind = .register ∧
      (s.call 0).pc = .returned ∧ (s.call 0).result = some (.error (.os Errno.INOUT))) :=
    Transition.Machine.exists_reachableVia_of_exec exitWindowRun rfl (by decide +kernel)
  obtain ⟨s, reached, kind, returned, result⟩ := found
  refine ⟨s, reached, kind, returned, result, ?_⟩
  intro survive
  obtain ⟨p, accepted, _⟩ := (survive 0 kind).1 returned
  rw [result] at accepted
  cases accepted

/-! ## Runs in which exiting owners read no `Register` -/

/-- A registration that came back with an error did so because its owner is gone. -/
structure Surviving (s : State) : Prop where
  retries : ∀ c, (s.call c).pc = .registerCheck →
    (s.call c).error.kind = .brokenPipe ∧ (s.process (s.call c).owner).alive = false
  returned : ∀ c, (s.call c).kind = .register → (s.call c).pc = .returned →
    ∃ p, (s.call c).result = some (.ok p) ∧ ((s.call c).ownerId, p) ∈ s.lockables
  /-- There is always a process that does not exist yet. -/
  room : ∃ n, ∀ p, n ≤ p → (s.process p).born = false

theorem surviving_initial : Surviving initial where
  retries c fails := by cases fails
  returned c _ returns := by cases returns
  room := ⟨0, fun _ _ => rfl⟩

/-- `acquire_exit_lock` accepts every registration before the flag is set. -/
theorem registerReply_of_running {lock : Owner.ExitLock} (running : lock.exited = false)
    (reader : Nat) :
    registerReply lock reader = .ok { lock with readers := insert reader lock.readers } := by
  simp [registerReply, Owner.ExitLock.acquire, running, ioCvt, Except.mapError]

section SurvivingStep
variable {s : State} {a : Action} (inv : Surviving s) (enabled : Enabled s a)
include inv enabled

theorem Surviving.retries_next (named : Named s) (good : ReadBeforeExit s a) (c : CallId)
    (fails : ((next s a).call c).pc = .registerCheck) :
    ((next s a).call c).error.kind = .brokenPipe ∧
      ((next s a).process ((next s a).call c).owner).alive = false := by
  have old := inv.retries c
  have held := named.held c
  revert fails
  cases a with
  | registerAnswer d =>
      simp only [ReadBeforeExit] at good
      simp only [Enabled] at enabled
      simp only [next, registerReply_of_running good]
      grind
  | registerSend d =>
      have pipe : (IoError.os Errno.PIPE).kind = .brokenPipe := by decide
      simp only [Enabled] at enabled
      simp only [next]
      split <;> grind
  | registerLost d =>
      simp only [Enabled] at enabled
      simp only [next]
      grind [IoError.kind]
  | _ =>
      simp only [Enabled] at enabled
      simp only [next, Call.ownerFound]
      (repeat' split) <;> grind [Call.Holds]

theorem Surviving.returned_next (spawns : SpawnsAnswered s a) (good : ReadBeforeExit s a)
    (c : CallId) (kind : ((next s a).call c).kind = .register)
    (returns : ((next s a).call c).pc = .returned) :
    ∃ p, ((next s a).call c).result = some (.ok p) ∧
      (((next s a).call c).ownerId, p) ∈ (next s a).lockables := by
  have old := inv.returned c
  revert kind returns
  cases a with
  | registerAnswer d =>
      simp only [ReadBeforeExit] at good
      simp only [next, registerReply_of_running good]
      by_cases same : c = d
      · intro _ _
        exact ⟨(s.call d).owner, by simp [same]⟩
      · intro kind returns
        simp only [same, State.setCall_call, State.setProcess_call, if_false] at kind returns ⊢
        obtain ⟨p, result, registered⟩ := old kind returns
        exact ⟨p, result, List.mem_cons_of_mem _ registered⟩
  | entryFails d error => exact spawns.elim
  | registerCheck d =>
      -- a failed attempt is retried, so the error branch is dead
      have retried := inv.retries d
      simp only [Enabled] at enabled
      simp only [next]
      split <;> grind
  | _ =>
      simp only [Enabled] at enabled
      simp only [next, Call.ownerFound]
      (repeat' split) <;> grind [Call.idle]

theorem Surviving.room_next : ∃ n, ∀ p, n ≤ p → ((next s a).process p).born = false := by
  obtain ⟨n, unborn⟩ := inv.room
  cases a with
  | entry c q =>
      refine ⟨max n (q + 1), ?_⟩
      intro p large
      have old := unborn p (le_trans (le_max_left _ _) large)
      have apart : p ≠ q := (Nat.lt_of_succ_le (le_trans (le_max_right _ _) large)).ne'
      simp only [next]
      split <;> simp [apart, old]
  | registerAnswer c =>
      refine ⟨n, fun p large => ?_⟩
      have old := unborn p large
      simp only [next]
      split <;> simp only [State.setCall_process, State.setProcess_process] <;> grind
  | _ =>
      refine ⟨n, fun p large => ?_⟩
      have old := unborn p large
      simp only [next]
      (repeat' split) <;> grind

end SurvivingStep

theorem surviving_next {s : State} {a : Action} (named : Named s) (inv : Surviving s)
    (enabled : Enabled s a) (spawns : SpawnsAnswered s a) (good : ReadBeforeExit s a) :
    Surviving (next s a) where
  retries := inv.retries_next enabled named good
  returned := inv.returned_next enabled spawns good
  room := inv.room_next enabled

theorem reachable_surviving {s : State}
    (reached : machine.ReachableVia (fun s a => SpawnsAnswered s a ∧ ReadBeforeExit s a) s) :
    Surviving s := by
  have both : Named s ∧ Surviving s := by
    apply reached.invariant
    · rintro _ rfl
      exact ⟨named_initial, surviving_initial⟩
    · rintro state label ⟨named, surviving⟩ enabled ⟨spawns, good⟩
      exact ⟨named_next named enabled, surviving_next named surviving enabled spawns good⟩
  exact both.2

/-- No call is ever stuck: every `pc` has a step. -/
theorem exists_step {s : State} (inv : Surviving s) (c : CallId) (started : (s.call c).pc ≠ .idle)
    (going : (s.call c).pc ≠ .returned) :
    ∃ a, Action.caller a = some c ∧ SpawnsAnswered s a ∧ Enabled s a := by
  cases at_ : (s.call c).pc with
  | idle => exact (started at_).elim
  | returned => exact (going at_).elim
  | lookup => exact ⟨.lookup c, rfl, trivial, at_⟩
  | entry =>
      obtain ⟨n, unborn⟩ := inv.room
      exact ⟨.entry c n, rfl, trivial, at_, unborn n le_rfl⟩
  | ping => exact ⟨.ping c, rfl, trivial, at_⟩
  | remove => exact ⟨.remove c, rfl, trivial, at_⟩
  | registerSend => exact ⟨.registerSend c, rfl, trivial, at_⟩
  | registerWait =>
      by_cases answers : s.Answers (s.call c).owner
      · exact ⟨.registerAnswer c, rfl, trivial, at_, answers⟩
      · exact ⟨.registerLost c, rfl, trivial, at_, answers⟩
  | registerCheck => exact ⟨.registerCheck c, rfl, trivial, at_⟩

/-- In every run in which spawn requests are answered and no owner reads a
`Register` message after setting its exit flag, no `register` call fails. -/
theorem registrations_survive_of_readBeforeExit {s : State}
    (reached : machine.ReachableVia (fun s a => SpawnsAnswered s a ∧ ReadBeforeExit s a) s) :
    RegistrationsSurvive s := by
  have inv := reachable_surviving reached
  intro c kind
  refine ⟨inv.returned c kind, ?_, exists_step inv c⟩
  intro fails
  obtain ⟨broken, gone⟩ := inv.retries c fails
  simp [next, State.Answers, broken, gone]

theorem registration_survives_vanished_owner :
    ∃ s, machine.ReachableVia (fun s a => SpawnsAnswered s a ∧ ReadBeforeExit s a) s ∧
      (s.call 0).pc = .returned ∧ (s.process 10).alive = false ∧ (1, 11) ∈ s.lockables ∧
      RegistrationsSurvive s := by
  have found : ∃ s, machine.ReachableVia (fun s a => SpawnsAnswered s a ∧ ReadBeforeExit s a) s ∧
      ((s.call 0).pc = .returned ∧ (s.process 10).alive = false ∧ (1, 11) ∈ s.lockables) :=
    Transition.Machine.exists_reachableVia_of_exec
      [.start 0 .register 1 false, .lookup 0, .entry 0 10, .ping 0, .tryExit 10, .registerSend 0,
        .vanish 10, .registerLost 0, .registerCheck 0, .lookup 0, .ping 0, .remove 0, .lookup 0,
        .entry 0 11, .ping 0, .registerSend 0, .registerAnswer 0] rfl (by decide +kernel)
  obtain ⟨s, reached, returned, gone, registered⟩ := found
  exact ⟨s, reached, returned, gone, registered, registrations_survive_of_readBeforeExit reached⟩

end Ulockmgr.Manager
