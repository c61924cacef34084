import Ulockmgr.Processes

/-!
# Who has which end of a socket

The invariant of the descriptor tables.  Every entry of a process is marked close-on-exec,
except for the one number that the hook has prepared and the new program has not yet
marked again.  Hence a server starts with its own end of its own socket and nothing else, and
another program starts with nothing.
-/

namespace Ulockmgr.Processes

open Descriptors (Entry Table)

namespace State

section
variable (s : State) (p q : Pid) (n : RawFd) (x y : Socket) (e : End)

@[simp] theorem setProgram_program (program : Program) :
    (s.setProgram p program).program q = if q = p then program else s.program q :=
  Function.update_apply ..
@[simp] theorem setProgram_table (program : Program) :
    (s.setProgram p program).table = s.table := rfl
@[simp] theorem setProgram_call (program : Program) :
    (s.setProgram p program).call = s.call := rfl
@[simp] theorem setProgram_flight (program : Program) :
    (s.setProgram p program).flight = s.flight := rfl
@[simp] theorem setProgram_used (program : Program) :
    (s.setProgram p program).used = s.used := rfl

@[simp] theorem setTable_table (table : Table End) :
    (s.setTable p table).table q = if q = p then table else s.table q :=
  Function.update_apply ..
@[simp] theorem setTable_program (table : Table End) :
    (s.setTable p table).program = s.program := rfl
@[simp] theorem setTable_call (table : Table End) : (s.setTable p table).call = s.call := rfl
@[simp] theorem setTable_flight (table : Table End) : (s.setTable p table).flight = s.flight := rfl
@[simp] theorem setTable_used (table : Table End) : (s.setTable p table).used = s.used := rfl

@[simp] theorem setCall_call (call : Call) :
    (s.setCall x call).call y = if y = x then call else s.call y :=
  Function.update_apply ..
@[simp] theorem setCall_program (call : Call) : (s.setCall x call).program = s.program := rfl
@[simp] theorem setCall_table (call : Call) : (s.setCall x call).table = s.table := rfl
@[simp] theorem setCall_flight (call : Call) : (s.setCall x call).flight = s.flight := rfl
@[simp] theorem setCall_used (call : Call) : (s.setCall x call).used = s.used := rfl

@[simp] theorem setFlight_flight (f : End) (underWay : Bool) :
    (s.setFlight e underWay).flight f = if f = e then underWay else s.flight f :=
  Function.update_apply ..
@[simp] theorem setFlight_program (underWay : Bool) :
    (s.setFlight e underWay).program = s.program := rfl
@[simp] theorem setFlight_table (underWay : Bool) : (s.setFlight e underWay).table = s.table := rfl
@[simp] theorem setFlight_call (underWay : Bool) : (s.setFlight e underWay).call = s.call := rfl
@[simp] theorem setFlight_used (underWay : Bool) : (s.setFlight e underWay).used = s.used := rfl

end

end State

/-! ## The table of a process -/

/-- The table of a process, by what it executes. -/
def Fits (call : Socket → Call) (p : Pid) (table : Table End) : Program → Prop
  | .unborn | .foreign | .exited => table = Table.empty
  | .client | .copy => table.Closing fun _ => False
  | .forked x cleared =>
      (call x).spawned = some p ∧ table (call x).childFd = some ⟨.child x, !cleared⟩ ∧
        table.Closing fun n => n = (call x).childFd
  | .started x fd =>
      (call x).spawned = some p ∧ fd = (call x).childFd ∧
        table = Function.update Table.empty fd (some ⟨.child x, false⟩)
  | .server x =>
      (call x).spawned = some p ∧ table (call x).childFd = some ⟨.child x, true⟩ ∧
        table.Closing fun _ => False

namespace Fits

variable {call : Socket → Call} {p : Pid} {table : Table End} {program : Program}

theorem spawned (fits : Fits call p table program) {x : Socket} (serves : program.Serves x) :
    (call x).spawned = some p ∧ table.Holds (call x).childFd (.child x) := by
  cases program with
  | forked y cleared =>
      cases serves
      exact ⟨fits.1, _, fits.2.1⟩
  | started y fd =>
      cases serves
      obtain ⟨own, rfl, rfl⟩ := fits
      exact ⟨own, false, Function.update_self ..⟩
  | server y =>
      cases serves
      exact ⟨fits.1, _, fits.2.1⟩
  | _ => exact serves.elim

/-- Nothing depends on the calls but the number and the child of the own one. -/
theorem frame (fits : Fits call p table program) {call' : Socket → Call}
    (same : ∀ x, program.Serves x →
      (call' x).spawned = (call x).spawned ∧ (call' x).childFd = (call x).childFd) :
    Fits call' p table program := by
  cases program with
  | forked y cleared =>
      obtain ⟨child, number⟩ := same y rfl
      simp only [Fits] at fits ⊢
      rw [child, number]
      exact fits
  | started y fd =>
      obtain ⟨child, number⟩ := same y rfl
      simp only [Fits] at fits ⊢
      rw [child, number]
      exact fits
  | server y =>
      obtain ⟨child, number⟩ := same y rfl
      simp only [Fits] at fits ⊢
      rw [child, number]
      exact fits
  | _ => exact fits

/-- A running process opens and closes other numbers than that of its own socket. -/
theorem update (fits : Fits call p table program) (running : program.Running) (n : RawFd)
    {entry : Option (Entry End)} (marked : ∀ file, entry ≠ some ⟨file, false⟩)
    (other : ∀ x, program = .server x → n ≠ (call x).childFd) :
    Fits call p (Function.update table n entry) program := by
  cases program with
  | client => exact fits.update n marked
  | server x =>
      refine ⟨fits.1, ?_, fits.2.2.update n marked⟩
      rw [Function.update_of_ne (other x rfl).symm]
      exact fits.2.1
  | _ => exact running.elim

theorem closing (fits : Fits call p table program) (running : program.Running) :
    table.Closing fun _ => False := by
  cases program with
  | client => exact fits
  | server x => exact fits.2.2
  | _ => exact running.elim

/-- A number of a running process other than its own socket, where its entry tells it apart. -/
theorem other_of_entry (fits : Fits call p table program) {n : RawFd} {e : End}
    (holds : table.Holds n e) {x : Socket} (serves : program = .server x) (apart : e ≠ .child x) :
    n ≠ (call x).childFd := by
  rintro rfl
  cases serves
  obtain ⟨cloexec, entry⟩ := holds
  rw [fits.2.1] at entry
  cases entry
  exact apart rfl

theorem other_of_free (fits : Fits call p table program) {n : RawFd} (free : table n = none)
    {x : Socket} (serves : program = .server x) : n ≠ (call x).childFd := by
  rintro rfl
  cases serves
  rw [fits.2.1] at free
  cases free

end Fits

/-! ## The spawns -/

/-- What a spawn relies on: its process makes no other use of the two descriptors. -/
structure Sound (s : State) (x : Socket) : Prop where
  used : (s.call x).pc ≠ .idle → s.used x = true
  process : (s.call x).pc ≠ .idle →
    s.Runs x ∨ s.program (s.call x).process = .exited
  fresh : (s.call x).pc = .idle ∨ (s.call x).pc = .paired → (s.call x).spawned = none
  child : ∀ q, (s.call x).spawned = some q → q ≠ (s.call x).process ∧
    ((s.program q).Serves x ∨ s.program q = .exited)
  held : (s.call x).pc.Active → s.Runs x →
    s.table (s.call x).process (s.call x).parentFd = some ⟨.parent x, true⟩ ∧
      s.table (s.call x).process (s.call x).childFd = some ⟨.child x, true⟩

/-- Where the ends are.  The child's end of a spawn has its number in the process that spawns,
until it drops it, and in the process that was spawned; every other end is in one place at a time. -/
def State.Inherited (s : State) : End → Prop
  | .parent _ => False
  | .child x => (s.call x).pc ≠ .idle

/-- A place where an end is for good, and not the copy of a fork. -/
def State.Place (s : State) (e : End) (p : Pid) (n : RawFd) : Prop :=
  ¬ (s.program p).Forked ∧ (s.table p).Holds n e

structure Placed (s : State) (e : End) : Prop where
  used : (s.flight e = true ∨ ∃ p n, (s.table p).Holds n e) → s.used e.socket = true
  single : ¬ s.Inherited e → ∀ p n q m, s.Place e p n → s.Place e q m → p = q ∧ n = m
  flight : s.flight e = true → ¬ s.Inherited e ∧ ∀ p n, ¬ s.Place e p n
  inherited : s.Inherited e → ∀ p n, s.Place e p n →
    n = (s.call e.socket).childFd ∧
      ((s.call e.socket).pc.Active ∧ p = (s.call e.socket).process ∨
        (s.call e.socket).spawned = some p)

structure Inv (s : State) : Prop where
  fits : ∀ p, Fits s.call p (s.table p) (s.program p)
  sound : ∀ x, Sound s x
  placed : ∀ e, Placed s e

theorem inv_initial {s : State} (starts : Initial s) : Inv s where
  fits p := by
    rw [starts.table p]
    rcases starts.program p with client | unborn
    · rw [client]
      intro n file entry
      cases entry
    · rw [unborn]
      rfl
  sound x := by
    have idle := starts.call x
    constructor <;> simp [idle, Call.idle, Pc.Active]
  placed e := by
    have nowhere : ∀ p n, ¬ (s.table p).Holds n e := by
      intro p n
      rw [starts.table p]
      exact Table.not_holds_empty n e
    have grounded := starts.flight e
    refine ⟨?_, ?_, ?_, ?_⟩
    · rintro (under_way | ⟨p, n, holds⟩)
      · rw [grounded] at under_way
        cases under_way
      · exact (nowhere p n holds).elim
    · intro _ p n _ _ place
      exact (nowhere p n place.2).elim
    · intro under_way
      rw [grounded] at under_way
      cases under_way
    · intro _ p n place
      exact (nowhere p n place.2).elim

/-! ## Frames -/

/-- What may become of the program of a process. -/
def Program.Follows (before after : Program) : Prop :=
  after = .exited ∨
    before ≠ .exited ∧ (before.Running → after = before) ∧
      ∀ x, before.Serves x → after.Serves x

theorem Program.Follows.refl (program : Program) : program.Follows program := by
  by_cases gone : program = .exited
  · exact .inl gone
  · exact .inr ⟨gone, fun _ => rfl, fun _ serves => serves⟩

section
variable {s t : State}

/-- A step that does not concern a spawn leaves it alone. -/
theorem Sound.frame {x : Socket} (sound : Sound s x) (call : t.call x = s.call x)
    (used : s.used x = true → t.used x = true)
    (follows : ∀ p, (s.program p).Follows (t.program p))
    (kept : (s.call x).pc.Active → s.Runs x → (t.program (s.call x).process).Running →
      ∀ n, n = (s.call x).parentFd ∨ n = (s.call x).childFd →
        t.table (s.call x).process n = s.table (s.call x).process n) : Sound t x where
  used := by
    rw [call]
    exact fun busy => used (sound.used busy)
  process := by
    rw [State.Runs, call]
    intro busy
    rcases follows (s.call x).process with gone | ⟨alive, stays, -⟩
    · exact .inr gone
    · rcases sound.process busy with runs | exited
      · left
        rw [stays runs]
        exact runs
      · exact (alive exited).elim
  fresh := by
    rw [call]
    exact sound.fresh
  child := by
    rw [call]
    intro q born
    obtain ⟨other, serves⟩ := sound.child q born
    refine ⟨other, ?_⟩
    rcases follows q with gone | ⟨alive, -, goes_on⟩
    · exact .inr gone
    · rcases serves with serves | exited
      · exact .inl (goes_on x serves)
      · exact (alive exited).elim
  held := by
    rw [State.Runs, call]
    intro active runs
    have before : s.Runs x := by
      have busy : (s.call x).pc ≠ .idle := by
        intro idle
        rw [idle] at active
        exact active
      rcases follows (s.call x).process with gone | ⟨alive, stays, -⟩
      · rw [gone] at runs
        exact runs.elim
      · rcases sound.process busy with runs | exited
        · exact runs
        · exact (alive exited).elim
    rw [kept active before runs _ (.inl rfl), kept active before runs _ (.inr rfl)]
    exact sound.held active before

/-- The same for the ends: no new places, and the spawn has not changed its mind. -/
theorem Placed.frame {e : End} (placed : Placed s e)
    (used : s.used e.socket = true → t.used e.socket = true)
    (flight : t.flight e = true → s.flight e = true)
    (known : ∀ p n, (t.table p).Holds n e → ∃ q m, (s.table q).Holds m e)
    (inherits : t.Inherited e ↔ s.Inherited e)
    (places : ∀ p n, t.Place e p n → s.Place e p n)
    (calls : s.Inherited e → ∀ p n, t.Place e p n →
      (t.call e.socket).childFd = (s.call e.socket).childFd ∧
        ((s.call e.socket).pc.Active ∧ p = (s.call e.socket).process →
          (t.call e.socket).pc.Active ∧ p = (t.call e.socket).process) ∧
        ((s.call e.socket).spawned = some p → (t.call e.socket).spawned = some p)) :
    Placed t e where
  used := by
    rintro (under_way | ⟨p, n, holds⟩)
    · exact used (placed.used (.inl (flight under_way)))
    · obtain ⟨q, m, before⟩ := known p n holds
      exact used (placed.used (.inr ⟨q, m, before⟩))
  single := by
    intro other p n q m first second
    exact placed.single (fun inherited => other (inherits.mpr inherited)) p n q m
      (places p n first) (places q m second)
  flight := by
    intro under_way
    obtain ⟨other, nowhere⟩ := placed.flight (flight under_way)
    exact ⟨fun inherited => other (inherits.mp inherited),
      fun p n place => nowhere p n (places p n place)⟩
  inherited := by
    intro inherited p n place
    have before := inherits.mp inherited
    obtain ⟨number, creator, child⟩ := calls before p n place
    obtain ⟨own, who⟩ := placed.inherited before p n (places p n place)
    rw [number]
    exact ⟨own, who.imp creator child⟩

/-- Where the spawn of the socket stays as it is. -/
theorem Placed.frame_of_call {e : End} (placed : Placed s e)
    (call : t.call e.socket = s.call e.socket)
    (used : s.used e.socket = true → t.used e.socket = true)
    (flight : t.flight e = true → s.flight e = true)
    (known : ∀ p n, (t.table p).Holds n e → ∃ q m, (s.table q).Holds m e)
    (places : ∀ p n, t.Place e p n → s.Place e p n) : Placed t e := by
  refine placed.frame used flight known ?_ places ?_
  · cases e with
    | parent x => rfl
    | child x =>
        simp only [End.socket] at call
        simp only [State.Inherited, call]
  · intro _ p n _
    rw [call]
    exact ⟨rfl, id, id⟩

/-- The process of a spawn keeps its own socket apart from those of its spawns. -/
theorem Inv.apart (inv : Inv s) {x y : Socket} (active : (s.call x).pc.Active) (runs : s.Runs x)
    (serves : s.program (s.call x).process = .server y) :
    (s.call x).parentFd ≠ (s.call y).childFd ∧ (s.call x).childFd ≠ (s.call y).childFd := by
  obtain ⟨parent, child⟩ := (inv.sound x).held active runs
  have fits := inv.fits (s.call x).process
  refine ⟨fits.other_of_entry ⟨true, parent⟩ serves nofun,
    fits.other_of_entry ⟨true, child⟩ serves ?_⟩
  intro same
  cases same
  -- nobody spawns itself
  have own := (fits.spawned (x := x) (by rw [serves]; rfl)).1
  exact ((inv.sound x).child _ own).1 rfl

/-- The numbers of a spawn name ends of its own socket. -/
theorem Sound.own {x : Socket} (sound : Sound s x) (active : (s.call x).pc.Active)
    (runs : s.Runs x) {n : RawFd} (number : n = (s.call x).parentFd ∨ n = (s.call x).childFd) :
    ∃ e : End, e.socket = x ∧ s.table (s.call x).process n = some ⟨e, true⟩ := by
  obtain ⟨parent, child⟩ := sound.held active runs
  rcases number with rfl | rfl
  · exact ⟨.parent x, rfl, parent⟩
  · exact ⟨.child x, rfl, child⟩

/-- So they are apart from every number that names another socket. -/
theorem Sound.ne_of_holds {x : Socket} (sound : Sound s x) (active : (s.call x).pc.Active)
    (runs : s.Runs x) {n m : RawFd} (number : n = (s.call x).parentFd ∨ n = (s.call x).childFd)
    {p : Pid} {e : End} (holds : (s.table p).Holds m e)
    (other : (s.call x).process = p → e.socket ≠ x) : (s.call x).process = p → n ≠ m := by
  rintro rfl rfl
  obtain ⟨own, same, entry⟩ := sound.own active runs number
  obtain ⟨cloexec, found⟩ := holds
  rw [entry] at found
  cases found
  exact other rfl same

/-- And from every free one. -/
theorem Sound.ne_of_free {x : Socket} (sound : Sound s x) (active : (s.call x).pc.Active)
    (runs : s.Runs x) {n m : RawFd} (number : n = (s.call x).parentFd ∨ n = (s.call x).childFd)
    {p : Pid} (free : s.table p m = none) : (s.call x).process = p → n ≠ m := by
  rintro rfl rfl
  obtain ⟨own, -, entry⟩ := sound.own active runs number
  rw [free] at entry
  cases entry

theorem Inv.unserved (inv : Inv s) {x : Socket}
    (fresh : (s.call x).pc = .idle ∨ (s.call x).pc = .paired) (q : Pid) :
    ¬ (s.program q).Serves x := by
  intro serves
  have born := ((inv.fits q).spawned serves).1
  rw [(inv.sound x).fresh fresh] at born
  cases born

theorem Inv.idle_of_unused (inv : Inv s) {x : Socket} (unused : s.used x = false) :
    (s.call x).pc = .idle := by
  by_contra busy
  rw [(inv.sound x).used busy] at unused
  cases unused

theorem Inv.nowhere_of_unused (inv : Inv s) {e : End} (unused : s.used e.socket = false) :
    s.flight e = false ∧ ∀ p n, ¬ (s.table p).Holds n e := by
  have known := (inv.placed e).used
  rw [unused] at known
  refine ⟨?_, fun p n holds => Bool.false_ne_true (known (.inr ⟨p, n, holds⟩))⟩
  by_contra under_way
  exact Bool.false_ne_true (known (.inl (Bool.eq_true_of_not_eq_false under_way)))

end

end Ulockmgr.Processes
