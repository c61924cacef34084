import Mathlib.Data.Finset.Card
import Ulockmgr.Library.Machine
import Ulockmgr.Spawner

/-!
# Owner processes as children of the coordinator

`spawn_owner_process` step by step, with owners that exit at any time.  A child that has exited
is a zombie until a `waitpid` covers it, and the only `waitpid` for a child is made
right after its creation.
-/

namespace Ulockmgr.Spawner.Children

inductive Pc where
  /-- In `receive_request`. -/
  | receiving
  /-- In `spawn_owner_process`, before the process is created. -/
  | calling
  /-- In front of `waitpid` for the new process. -/
  | created (p : Process)
  /-- `run` has returned. -/
  | ended
  deriving DecidableEq, Repr

structure State where
  pc : Pc
  children : Finset Process
  exited : Finset Process
  reaped : Finset Process
  /-- The owners that exited when they were past the `waitpid` of their own spawn. -/
  late : Finset Process
  /-- What had exited when the current call started. -/
  atStart : Finset Process
  /-- What had exited when the last call that returned successfully started. -/
  covered : Finset Process
  deriving DecidableEq

def initial : State := ⟨.receiving, ∅, ∅, ∅, ∅, ∅, ∅⟩

inductive Action where
  | receive
  /-- The client closes the socket, or its request cannot be read. -/
  | hangUp
  /-- `socketpair` or the creation of the process fails. -/
  | fail
  | create (p : Process)
  | waitpid (p : Process) (result : Except Errno Unit)
  | exit (p : Process)
  deriving DecidableEq

def Enabled (s : State) : Action → Prop
  | .receive | .hangUp => s.pc = .receiving
  | .fail => s.pc = .calling
  | .create p => s.pc = .calling ∧ p ∉ s.children
  | .waitpid p _ => s.pc = .created p
  | .exit p => p ∈ s.children ∧ p ∉ s.exited

instance (s : State) (a : Action) : Decidable (Enabled s a) := by
  cases a <;> unfold Enabled <;> infer_instance

/-- `waitpid` with `NOHANG` on one child. -/
def reap (s : State) (p : Process) : Finset Process :=
  if p ∈ s.exited then insert p s.reaped else s.reaped

def next (s : State) : Action → State
  | .receive => { s with pc := .calling, atStart := s.exited }
  | .hangUp => { s with pc := .ended }
  | .fail => { s with pc := .ended }
  | .create p => { s with pc := .created p, children := insert p s.children }
  | .waitpid p (.ok ()) => { s with pc := .receiving, reaped := reap s p, covered := s.atStart }
  | .waitpid _ (.error _) => { s with pc := .ended }
  | .exit p =>
      { s with
        exited := insert p s.exited
        late := if s.pc = .created p then s.late else insert p s.late }

def machine : Transition.Machine State Action where
  Initial s := s = initial
  Enabled := Enabled
  next := next

instance (s : State) (a : Action) : Decidable (machine.Enabled s a) :=
  inferInstanceAs (Decidable (Enabled s a))

/-- What had exited before the last successful call started is reaped, so that there are no more
zombies than owners that exited since. -/
def Reaped (s : State) : Prop :=
  s.covered ⊆ s.reaped ∧ (s.exited \ s.reaped).card ≤ (s.exited \ s.covered).card

instance (s : State) : Decidable (Reaped s) := inferInstanceAs (Decidable (_ ∧ _))

/-- No call returns successfully that started after an owner exited past the `waitpid` of
its own spawn. -/
def Timely (s : State) : Action → Prop
  | .waitpid _ (.ok ()) => ∀ q ∈ s.atStart, q ∉ s.late
  | _ => True

instance (s : State) (a : Action) : Decidable (Timely s a) :=
  match a with
  | .waitpid _ (.ok ()) => inferInstanceAs (Decidable (∀ q ∈ s.atStart, q ∉ s.late))
  | .waitpid _ (.error _) => isTrue trivial
  | .receive => isTrue trivial
  | .hangUp => isTrue trivial
  | .fail => isTrue trivial
  | .create _ => isTrue trivial
  | .exit _ => isTrue trivial

/-- Where the children are: while the coordinator runs, a zombie exited late or is about to be
reaped. -/
structure Tracked (s : State) : Prop where
  exited : s.exited ⊆ s.children
  late : s.late ⊆ s.exited
  atStart : s.atStart ⊆ s.exited
  fresh : ∀ p, s.pc = .created p → p ∈ s.children ∧ p ∉ s.late ∧ p ∉ s.reaped
  reaped : s.reaped ⊆ s.exited
  zombie : ∀ p ∈ s.late, p ∉ s.reaped
  timely : s.pc ≠ .ended → ∀ p ∈ s.exited, p ∉ s.late → p ∈ s.reaped ∨ s.pc = .created p

theorem tracked_initial : Tracked initial := by
  constructor <;> simp [initial]

theorem tracked_create {s : State} {p : Process} (inv : Tracked s) (calling : s.pc = .calling)
    (new : p ∉ s.children) : Tracked (next s (.create p)) where
  exited := inv.exited.trans (Finset.subset_insert p _)
  late := inv.late
  atStart := inv.atStart
  reaped := inv.reaped
  zombie := inv.zombie
  fresh := by
    intro q created
    obtain rfl : p = q := by simpa [next] using created
    exact ⟨Finset.mem_insert_self p _, fun late => new (inv.exited (inv.late late)),
      fun reaped => new (inv.exited (inv.reaped reaped))⟩
  timely := by
    intro _ q exited prompt
    rcases inv.timely (by simp [calling]) q exited prompt with reaped | created
    · exact .inl reaped
    · rw [calling] at created
      cases created

theorem tracked_waitpid {s : State} {p : Process} (inv : Tracked s) (created : s.pc = .created p) :
    Tracked (next s (.waitpid p (.ok ()))) where
  exited := inv.exited
  late := inv.late
  atStart := inv.atStart
  reaped := by
    intro q member
    simp only [next, reap] at member
    split at member
    · next exited =>
        rcases Finset.mem_insert.mp member with rfl | old
        · exact exited
        · exact inv.reaped old
    · exact inv.reaped member
  fresh := by
    intro q later
    cases later
  zombie := by
    intro q late
    have old := inv.zombie q late
    have other : q ≠ p := fun same => (inv.fresh p created).2.1 (same ▸ late)
    simp only [next, reap]
    split
    · simp [other, old]
    · exact old
  timely := by
    intro _ q exited prompt
    have dead : q ∈ s.exited := exited
    refine .inl ?_
    simp only [next, reap]
    rcases inv.timely (by simp [created]) q dead prompt with reaped | own
    · split
      · exact Finset.mem_insert_of_mem reaped
      · exact reaped
    · obtain rfl : p = q := by
        rw [created] at own
        exact Pc.created.inj own
      rw [if_pos dead]
      exact Finset.mem_insert_self p _

theorem tracked_exit {s : State} {p : Process} (inv : Tracked s) (child : p ∈ s.children)
    (alive : p ∉ s.exited) : Tracked (next s (.exit p)) where
  exited := Finset.insert_subset child inv.exited
  late := by
    intro q late
    simp only [next] at late ⊢
    split at late
    · exact Finset.mem_insert_of_mem (inv.late late)
    · rcases Finset.mem_insert.mp late with rfl | old
      · exact Finset.mem_insert_self q _
      · exact Finset.mem_insert_of_mem (inv.late old)
  atStart := inv.atStart.trans (Finset.subset_insert p _)
  reaped := inv.reaped.trans (Finset.subset_insert p _)
  fresh := by
    intro q created
    have at_ : s.pc = .created q := created
    obtain ⟨here, prompt, unreaped⟩ := inv.fresh q at_
    refine ⟨here, ?_, unreaped⟩
    simp only [next]
    split
    · exact prompt
    · next other =>
        rw [Finset.mem_insert, not_or]
        exact ⟨fun same => other (same ▸ at_), prompt⟩
  zombie := by
    intro q late
    simp only [next] at late ⊢
    split at late
    · exact inv.zombie q late
    · rcases Finset.mem_insert.mp late with rfl | old
      · exact fun reaped => alive (inv.reaped reaped)
      · exact inv.zombie q old
  timely := by
    intro running q exited prompt
    simp only [next] at running exited prompt ⊢
    rcases Finset.mem_insert.mp exited with rfl | old
    · split at prompt
      · next created => exact .inr created
      · exact (prompt (Finset.mem_insert_self q _)).elim
    · split at prompt
      · exact inv.timely running q old prompt
      · exact inv.timely running q old fun late => prompt (Finset.mem_insert_of_mem late)

theorem tracked_receive {s : State} (inv : Tracked s) (receiving : s.pc = .receiving) :
    Tracked (next s .receive) where
  exited := inv.exited
  late := inv.late
  atStart := subset_rfl
  reaped := inv.reaped
  zombie := inv.zombie
  fresh := by
    intro p created
    cases created
  timely := by
    intro _ p exited prompt
    rcases inv.timely (by simp [receiving]) p exited prompt with reaped | created
    · exact .inl reaped
    · rw [receiving] at created
      cases created

theorem tracked_ended {s : State} (inv : Tracked s) : Tracked { s with pc := .ended } where
  exited := inv.exited
  late := inv.late
  atStart := inv.atStart
  reaped := inv.reaped
  zombie := inv.zombie
  fresh := by
    intro p created
    cases created
  timely := fun running => (running rfl).elim

theorem tracked_next {s : State} {a : Action} (inv : Tracked s) (enabled : Enabled s a) :
    Tracked (next s a) := by
  cases a with
  | receive => exact tracked_receive inv enabled
  | hangUp => exact tracked_ended inv
  | fail => exact tracked_ended inv
  | create p => exact tracked_create inv enabled.1 enabled.2
  | waitpid p result =>
      cases result with
      | ok _ => exact tracked_waitpid inv enabled
      | error errno => exact tracked_ended inv
  | exit p => exact tracked_exit inv enabled.1 enabled.2

theorem reachable_tracked {s : State} (reached : machine.Reachable s) : Tracked s := by
  apply reached.invariant
  · rintro _ rfl
    exact tracked_initial
  · intro state label inv enabled
    exact tracked_next inv enabled

theorem covered_next {s : State} {a : Action} (inv : Tracked s) (enabled : Enabled s a)
    (timely : Timely s a) (old : s.covered ⊆ s.reaped) :
    (next s a).covered ⊆ (next s a).reaped := by
  cases a with
  | waitpid p result =>
      cases result with
      | error errno => exact old
      | ok _ =>
          intro q member
          have later := tracked_waitpid inv enabled
          have exited := inv.atStart member
          rcases later.timely (by simp [next]) q exited (timely q member) with reaped | created
          · exact reaped
          · cases created
  | _ => exact old

theorem reachable_covered {s : State} (reached : machine.ReachableVia Timely s) :
    s.covered ⊆ s.reaped := by
  induction reached with
  | initial starts =>
      cases starts
      exact subset_rfl
  | step reached enabled timely ih =>
      exact covered_next (reachable_tracked reached.reachable) enabled timely ih

theorem reaped_of_subset {s : State} (subset : s.covered ⊆ s.reaped) : Reaped s :=
  ⟨subset, Finset.card_le_card (Finset.sdiff_subset_sdiff subset_rfl subset)⟩

/-- Every owner that has exited before a spawn starts is reaped when that spawn returns, as long as
no spawn returns that started after an owner had exited past the `waitpid` of its own spawn;
and such a spawn leaves that owner a zombie. -/
theorem zombies_reaped (s : State) :
    (machine.ReachableVia Timely s → Reaped s) ∧
      ∀ a, machine.Reachable s → machine.Enabled s a → ¬ Timely s a → ¬ Reaped (next s a) := by
  constructor
  · intro reached
    exact reaped_of_subset (reachable_covered reached)
  · intro a reached enabled hasty reaped
    have inv := reachable_tracked reached
    cases a with
    | waitpid p result =>
        cases result with
        | error errno => exact hasty trivial
        | ok _ =>
            simp only [Timely] at hasty
            push Not at hasty
            obtain ⟨q, before, late⟩ := hasty
            exact (tracked_waitpid inv enabled).zombie q late (reaped.1 before)
    | _ => exact hasty trivial

/-- An owner lives on, and exits before the next one is spawned. -/
def lateExit : List Action :=
  [.receive, .create 0, .waitpid 0 (.ok ()), .exit 0, .receive, .create 1, .waitpid 1 (.ok ())]

theorem late_exit_leaves_zombie : ∃ s, machine.Reachable s ∧ ¬ Reaped s ∧ 0 ∈ s.exited \ s.reaped := by
  exact Transition.Machine.exists_reachable_of_exec lateExit rfl (by decide +kernel)

end Ulockmgr.Spawner.Children
