import Ulockmgr.Manager

/-!
# One owner process per owner ID

The map and the locals of every call name processes by the ID they were spawned
for, and a process that is gone stays gone.  What `get_or_create_owner` removes
after a failed ping is whatever the map holds for the ID by then.  The map names
the live process of every ID as long as that is still the process whose ping
failed.
-/

namespace Ulockmgr.Manager

/-- The process a call is talking to. -/
def Call.Holds (call : Call) : Prop :=
  call.pc ≠ .idle ∧ call.pc ≠ .lookup ∧ call.pc ≠ .entry ∧ call.pc ≠ .returned

/-- Processes are named by the ID they were spawned for, everywhere. -/
structure Named (s : State) : Prop where
  alive : ∀ p, (s.process p).alive = true → (s.process p).born = true
  owners : ∀ id p, s.owners id = some p →
    (s.process p).born = true ∧ (s.process p).ownerId = id
  held : ∀ c, (s.call c).Holds → (s.process (s.call c).owner).born = true ∧
    (s.process (s.call c).owner).ownerId = (s.call c).ownerId
  lockables : ∀ id p, (id, p) ∈ s.lockables →
    (s.process p).born = true ∧ (s.process p).ownerId = id
  failed : ∀ c, (s.call c).pc = .remove → (s.process (s.call c).owner).alive = false

theorem named_initial : Named initial := by
  constructor <;> simp [initial, Proc.unborn, Call.idle, Call.Holds]

section NamedStep
variable {s : State} {a : Action} (inv : Named s) (enabled : Enabled s a)
include inv enabled

theorem Named.alive_next (p : Process) (alive : ((next s a).process p).alive = true) :
    ((next s a).process p).born = true := by
  have old := inv.alive p
  revert alive
  cases a <;> simp only [Enabled] at enabled <;> simp only [next] <;> (repeat' split) <;> grind

theorem Named.owners_next (id : OwnerId) (p : Process) (bound : (next s a).owners id = some p) :
    ((next s a).process p).born = true ∧ ((next s a).process p).ownerId = id := by
  have old := inv.owners id p
  revert bound
  cases a <;> simp only [Enabled] at enabled <;> simp only [next] <;> (repeat' split) <;> grind

theorem Named.held_next (c : CallId) (holds : ((next s a).call c).Holds) :
    ((next s a).process ((next s a).call c).owner).born = true ∧
      ((next s a).process ((next s a).call c).owner).ownerId = ((next s a).call c).ownerId := by
  have old := inv.held c
  have named := inv.owners (s.call c).ownerId
  revert holds
  cases a <;> simp only [Enabled] at enabled <;> simp only [next, Call.ownerFound] <;>
    (repeat' split) <;> grind [Call.Holds]

theorem Named.lockables_next (id : OwnerId) (p : Process)
    (registered : (id, p) ∈ (next s a).lockables) :
    ((next s a).process p).born = true ∧ ((next s a).process p).ownerId = id := by
  have old := inv.lockables id p
  revert registered
  cases a with
  | registerAnswer c =>
      have held := inv.held c
      simp only [Enabled] at enabled
      simp only [next]
      split <;> grind [Call.Holds]
  | _ =>
      simp only [Enabled] at enabled
      simp only [next]
      (repeat' split) <;> grind

/-- A ping fails only on a process that is gone, and no process comes back. -/
theorem Named.failed_next (c : CallId) (fails : ((next s a).call c).pc = .remove) :
    ((next s a).process ((next s a).call c).owner).alive = false := by
  have old := inv.failed c
  have born := inv.held c
  revert fails
  cases a <;> simp only [Enabled] at enabled <;> simp only [next, Call.ownerFound] <;>
    (repeat' split) <;> grind [Call.Holds]

end NamedStep

theorem named_next {s : State} {a : Action} (inv : Named s) (enabled : Enabled s a) :
    Named (next s a) where
  alive := inv.alive_next enabled
  owners := inv.owners_next enabled
  held := inv.held_next enabled
  lockables := inv.lockables_next enabled
  failed := inv.failed_next enabled

theorem reachable_named {s : State} (reached : machine.Reachable s) : Named s := by
  apply reached.invariant
  · rintro _ rfl
    exact named_initial
  · intro state label inv enabled
    exact named_next inv enabled

/-! ## The property and the failing run -/

/-- `Lockable`s of one ID whose processes are alive are attached to one process,
and the map has it. -/
def OneOwner (s : State) : Prop :=
  (∀ id p q, (id, p) ∈ s.lockables → (id, q) ∈ s.lockables → (s.process p).alive = true →
    (s.process q).alive = true → p = q) ∧
  ∀ id p, (id, p) ∈ s.lockables → (s.process p).alive = true → s.owners id = some p

/-- `owners.remove(&owner_id)` finds the process whose ping failed, or nothing. -/
def RemovesOwn (s : State) : Action → Prop
  | .remove c => s.owners (s.call c).ownerId = some (s.call c).owner ∨
      s.owners (s.call c).ownerId = none
  | _ => True

instance (s : State) (a : Action) : Decidable (RemovesOwn s a) :=
  match a with
  | .remove _ => inferInstanceAs (Decidable (_ ∨ _))
  | .start _ _ _ _ | .lookup _ | .entry _ _ | .entryFails _ _ | .ping _ | .registerSend _
  | .registerAnswer _ | .registerLost _ | .registerCheck _ | .drop _ | .retain _ | .tryExit _
  | .vanish _ => isTrue trivial

/-- Process 10 ends.  Calls 1 and 2 both find it dead; call 2 replaces it by
process 11 and registers there before call 1 gets to its removal. -/
def staleRemovalRun : List Action :=
  [.start 0 .getOrCreateOwner 1 false, .lookup 0, .entry 0 10, .ping 0, .vanish 10,
    .start 1 .register 1 false, .lookup 1, .ping 1,
    .start 2 .register 1 false, .lookup 2, .ping 2, .remove 2, .lookup 2, .entry 2 11, .ping 2,
    .registerSend 2, .registerAnswer 2,
    .remove 1, .lookup 1, .entry 1 12, .ping 1, .registerSend 1, .registerAnswer 1]

theorem two_owners_after_stale_removal :
    ∃ s, machine.Reachable s ∧ (1, 11) ∈ s.lockables ∧ (1, 12) ∈ s.lockables ∧
      (s.process 11).alive = true ∧ (s.process 12).alive = true ∧ ¬ OneOwner s := by
  have found : ∃ s, machine.Reachable s ∧ ((1, 11) ∈ s.lockables ∧ (1, 12) ∈ s.lockables ∧
      (s.process 11).alive = true ∧ (s.process 12).alive = true) :=
    Transition.Machine.exists_reachable_of_exec staleRemovalRun rfl (by decide +kernel)
  obtain ⟨s, reached, first, second, firstAlive, secondAlive⟩ := found
  refine ⟨s, reached, first, second, firstAlive, secondAlive, ?_⟩
  intro one
  have same := one.1 1 11 12 first second firstAlive secondAlive
  exact absurd same (by decide)

/-! ## Runs whose removals find what they looked up -/

/-- The map has every live process. -/
def Mapped (s : State) : Prop :=
  ∀ p, (s.process p).alive = true → s.owners (s.process p).ownerId = some p

theorem mapped_next {s : State} {a : Action} (named : Named s) (inv : Mapped s)
    (enabled : Enabled s a) (good : RemovesOwn s a) : Mapped (next s a) := by
  intro p alive
  have old := inv p
  revert alive
  cases a with
  | remove c =>
      -- the only live process the map could have for the ID is the one that was pinged
      have gone := named.failed c
      simp only [Enabled] at enabled
      simp only [RemovesOwn] at good
      simp only [next]
      grind
  | _ =>
      simp only [Enabled] at enabled
      simp only [next, Call.ownerFound]
      (repeat' split) <;> grind

theorem reachable_mapped {s : State} (reached : machine.ReachableVia RemovesOwn s) :
    Mapped s := by
  have both : Named s ∧ Mapped s := by
    apply reached.invariant
    · rintro _ rfl
      refine ⟨named_initial, ?_⟩
      intro p alive
      cases alive
    · rintro state label ⟨named, mapped⟩ enabled good
      exact ⟨named_next named enabled, mapped_next named mapped enabled good⟩
  exact both.2

/-- In every run whose removals by key find the process whose ping failed, or
nothing, there is one owner process per ID. -/
theorem oneOwner_of_removesOwn {s : State} (reached : machine.ReachableVia RemovesOwn s) :
    OneOwner s := by
  have named := reachable_named reached.reachable
  have mapped := reachable_mapped reached
  have current : ∀ id p, (id, p) ∈ s.lockables → (s.process p).alive = true →
      s.owners id = some p := by
    intro id p registered alive
    have bound := mapped p alive
    rwa [(named.lockables id p registered).2] at bound
  refine ⟨?_, current⟩
  intro id p q first second firstAlive secondAlive
  have same := (current id p first firstAlive).symm.trans (current id q second secondAlive)
  exact Option.some.inj same

theorem oneOwner_after_regeneration :
    ∃ s, machine.ReachableVia RemovesOwn s ∧ (1, 10) ∈ s.lockables ∧ (1, 11) ∈ s.lockables ∧
      (s.process 11).alive = true ∧ OneOwner s := by
  have found : ∃ s, machine.ReachableVia RemovesOwn s ∧ ((1, 10) ∈ s.lockables ∧
      (1, 11) ∈ s.lockables ∧ (s.process 11).alive = true) :=
    Transition.Machine.exists_reachableVia_of_exec
      [.start 0 .register 1 false, .lookup 0, .entry 0 10, .ping 0, .registerSend 0,
        .registerAnswer 0, .vanish 10, .start 1 .register 1 false, .lookup 1, .ping 1, .remove 1,
        .lookup 1, .entry 1 11, .ping 1, .registerSend 1, .registerAnswer 1] rfl (by decide +kernel)
  obtain ⟨s, reached, first, second, alive⟩ := found
  exact ⟨s, reached, first, second, alive, oneOwner_of_removesOwn reached⟩

end Ulockmgr.Manager
