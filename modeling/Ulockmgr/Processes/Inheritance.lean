import Ulockmgr.Processes.Preservation

/-!
# What is inherited, and when a socket is hung up

A new server has its own end of its own socket and no other, so the ends of all the other sockets
stay where the library has put them.  Hence the peer of an end sees the connection
terminated when the one place of the end is gone, as soon as no fork is under way: the
client sees it when the server exits, and the server when the client drops its end.
-/

namespace Ulockmgr.Processes

open Descriptors (Entry Table)

/-- In every interleaving a server starts with the end its command line names, which is its own end
of the socket made for it, and with nothing else; a program that another thread of the client
starts has no end at all; and whatever the library holds is marked close-on-exec. -/
theorem server_inherits_own_end {s : State} (reached : machine.Reachable s) :
    (∀ q x fd, s.program q = .started x fd → (s.call x).spawned = some q ∧
      fd = (s.call x).childFd ∧ ∀ n, s.table q n = if n = fd then some ⟨.child x, false⟩ else none) ∧
      (∀ q, s.program q = .foreign → ∀ n, s.table q n = none) ∧
      ∀ q, (s.program q).Running → ∀ n entry, s.table q n = some entry → entry.cloexec = true := by
  have inv := reachable_inv reached
  refine ⟨?_, ?_, ?_⟩
  · intro q x fd started
    have fits := inv.fits q
    rw [started] at fits
    obtain ⟨born, number, table⟩ := fits
    refine ⟨born, number, fun n => ?_⟩
    rw [table, Function.update_apply]
    rfl
  · intro q foreign n
    have fits := inv.fits q
    rw [foreign] at fits
    exact congrFun fits n
  · rintro q running n ⟨file, cloexec⟩ entry
    cases cloexec with
    | true => rfl
    | false => exact ((inv.fits q).closing running n file entry).elim

/-- The client starts a coordinator while another of its threads starts a program. -/
def startingRun : List Action :=
  [.socketpair .coordinator 0 0 3 4, .forkOther 0 2, .fork 0 1, .execOther 2, .preExec 0 1,
    .execve 0 1]

theorem reachable_startingRun : machine.Reachable (startingRun.foldl next initial) :=
  Transition.Machine.reachable_foldl startingRun initial_initial (by decide +kernel)

theorem coordinator_inherits_own_end :
    (startingRun.foldl next initial).program 1 = .started 0 4 ∧
      (startingRun.foldl next initial).program 2 = .foreign ∧
      (∀ n, (startingRun.foldl next initial).table 1 n =
        if n = 4 then some ⟨.child 0, false⟩ else none) ∧
      ∀ n, (startingRun.foldl next initial).table 2 n = none := by
  have started : (startingRun.foldl next initial).program 1 = .started 0 4 := by decide +kernel
  have foreign : (startingRun.foldl next initial).program 2 = .foreign := by decide +kernel
  obtain ⟨own, nothing, -⟩ := server_inherits_own_end reachable_startingRun
  exact ⟨started, foreign, (own 1 0 4 started).2.2, nothing 2 foreign⟩

/-- The spawning process has not yet dropped the end that its child has inherited. -/
def State.Handover (s : State) (e : End) (p q : Pid) : Prop :=
  s.Inherited e ∧ (s.call e.socket).pc.Active ∧
    (p = (s.call e.socket).process ∧ (s.call e.socket).spawned = some q ∨
      q = (s.call e.socket).process ∧ (s.call e.socket).spawned = some p)

/-- Some process has the end, or a message carries it: its peer is not told that the connection
is terminated. -/
def State.Open (s : State) (e : End) : Prop :=
  s.flight e = true ∨ ∃ p n, (s.table p).Holds n e

/-- A step that changes the table of one process. -/
theorem State.Open.before {s t : State} {e : End} (opened : t.Open e) (q : Pid)
    (flight : t.flight e = true → s.Open e) (others : ∀ r, r ≠ q → t.table r = s.table r)
    (own : ∀ k, (t.table q).Holds k e → s.Open e ∨ s.used e.socket = false) :
    s.Open e ∨ s.used e.socket = false := by
  rcases opened with under_way | ⟨r, k, holds⟩
  · exact .inl (flight under_way)
  · by_cases same : r = q
    · subst same
      exact own k holds
    · rw [others r same] at holds
      exact .inl (.inr ⟨r, k, holds⟩)

theorem open_newPair {s t : State} {p : Pid} {x : Socket} {n m : RawFd} {e : End}
    (opened : t.Open e) (flight : t.flight = s.flight)
    (table : t.table = (s.newPair p x n m).table) (unused : s.used x = false) : s.Open e ∨ s.used e.socket = false := by
  refine opened.before p ?_ ?_ ?_
  · rw [flight]
    exact .inl
  · intro r other
    rw [table]
    simp [State.newPair, other]
  · intro k holds
    rw [table] at holds
    rcases holds_newPair holds with before | ⟨-, ⟨-, rfl⟩ | ⟨-, rfl⟩⟩
    · exact .inl (.inr ⟨p, k, before⟩)
    · exact .inr unused
    · exact .inr unused

theorem open_becomes {s t : State} {q : Pid} {table : Table End} {e : End}
    (opened : t.Open e) (flight : t.flight = s.flight)
    (tables : ∀ r, t.table r = if r = q then table else s.table r)
    (part : ∀ k, table.Holds k e → s.Open e) : s.Open e ∨ s.used e.socket = false := by
  refine opened.before q ?_ ?_ ?_
  · rw [flight]
    exact .inl
  · intro r other
    rw [tables r, if_neg other]
  · intro k holds
    rw [tables q, if_pos rfl] at holds
    exact .inl (part k holds)

theorem open_shrinks {s t : State} {e : End} (opened : t.Open e)
    (flight : t.flight e = true → s.Open e)
    (shrinks : ∀ r k, (t.table r).Holds k e → (s.table r).Holds k e) : s.Open e := by
  rcases opened with under_way | ⟨r, k, holds⟩
  · exact flight under_way
  · exact .inr ⟨r, k, shrinks r k holds⟩

theorem holds_abandon {s : State} {x : Socket} {r : Pid} {k : RawFd} {e : End}
    (holds : ((s.abandon x).table r).Holds k e) : (s.table r).Holds k e :=
  (holds_closeFd.mp (holds_closeFd.mp holds).2).2

/-- Nothing is opened again: a step finds what it opens open, or makes a new socket. -/
theorem open_next {s : State} {a : Action} {e : End} (enabled : Enabled s a)
    (opened : (next s a).Open e) : s.Open e ∨ s.used e.socket = false := by
  cases a with
  | replySocket p x n m => exact open_newPair opened rfl rfl enabled.2.1
  | socketpair mode p x n m => exact open_newPair opened rfl rfl enabled.2.1
  | fork x q =>
      exact open_becomes opened rfl (fun _ => State.setTable_table ..)
        fun k holds => .inr ⟨_, k, holds⟩
  | forkOther p q =>
      exact open_becomes opened rfl (fun _ => State.setTable_table ..)
        fun k holds => .inr ⟨p, k, holds⟩
  | preExec x q =>
      exact open_becomes opened rfl (fun _ => State.setTable_table ..)
        fun k holds => .inr ⟨q, k, Table.holds_mark.mp holds⟩
  | hydrateForkedFd x q fd =>
      exact open_becomes opened rfl (fun _ => State.setTable_table ..)
        fun k holds => .inr ⟨q, k, Table.holds_mark.mp holds⟩
  | execve x q =>
      exact open_becomes opened rfl (fun _ => State.setTable_table ..)
        fun k ⟨cloexec, kept⟩ => .inr ⟨q, k, cloexec, (Table.exec_eq_some.mp kept).1⟩
  | execOther q =>
      exact open_becomes opened rfl (fun _ => State.setTable_table ..)
        fun k ⟨cloexec, kept⟩ => .inr ⟨q, k, cloexec, (Table.exec_eq_some.mp kept).1⟩
  | exit p =>
      exact open_becomes opened rfl (fun _ => State.setTable_table ..)
        fun k holds => (Table.not_holds_empty k e holds).elim
  | spawn x q ok =>
      cases ok with
      | true => exact .inl opened
      | false => exact .inl (open_shrinks opened .inl fun _ _ => holds_abandon)
  | waitpid x ok =>
      cases ok with
      | true => exact .inl opened
      | false => exact .inl (open_shrinks opened .inl fun _ _ => holds_abandon)
  | dropChildFd x =>
      exact .inl (open_shrinks opened .inl fun _ _ holds => (holds_closeFd.mp holds).2)
  | close p n f =>
      exact .inl (open_shrinks opened .inl fun _ _ holds => (holds_closeFd.mp holds).2)
  | send p n f =>
      refine .inl (open_shrinks opened ?_ fun _ _ holds => (holds_closeFd.mp holds).2)
      intro under_way
      simp only [next, State.setFlight_flight] at under_way
      split at under_way
      · next same =>
          rw [same]
          exact .inr ⟨p, n, holds_of_file enabled.2.1⟩
      · exact .inl under_way
  | lose f =>
      refine .inl (open_shrinks opened ?_ fun _ _ => id)
      intro under_way
      simp only [next, State.setFlight_flight] at under_way
      split at under_way
      · cases under_way
      · exact .inl under_way
  | receive p n f =>
      refine opened.before p ?_ ?_ ?_
      · intro under_way
        simp only [next, State.setFlight_flight] at under_way
        split at under_way
        · cases under_way
        · exact .inl under_way
      · intro r other
        simp [next, other]
      · intro k holds
        simp only [next, State.setFlight_table, State.setTable_table, if_true] at holds
        rcases Table.holds_update.mp holds with ⟨-, rfl⟩ | ⟨-, before⟩
        · exact .inl (.inl enabled.2.1)
        · exact .inl (.inr ⟨p, k, before⟩)

theorem used_next {s : State} (a : Action) {x : Socket} (used : s.used x = true) :
    (next s a).used x = true := by
  cases a with
  | replySocket p y n m | socketpair mode p y n m =>
      by_cases same : x = y <;> simp [next, State.newPair, same, used]
  | spawn y q ok | waitpid y ok => cases ok <;> exact used
  | _ => exact used

/-- What is hung up stays so. -/
theorem closed_after {s t : State} {e : End} (used : s.used e.socket = true)
    (closed : ¬ s.Open e) (later : (machine.after s).Reachable t) : ¬ t.Open e := by
  have both : t.used e.socket = true ∧ ¬ t.Open e := by
    induction later with
    | initial starts =>
        cases starts
        exact ⟨used, closed⟩
    | @step state a _ enabled _ ih =>
        refine ⟨used_next a ih.1, fun opened => ?_⟩
        rcases open_next enabled opened with before | unused
        · exact ih.2 before
        · rw [ih.1] at unused
          cases unused
  exact both.2

/-- No process is between `fork` and `execve`. -/
def State.Quiet (s : State) : Prop := ∀ p, ¬ (s.program p).Forked

/-- The coordinator is up, and the spawn has returned. -/
def servingRun : List Action :=
  startingRun ++ [.spawn 0 1 true, .waitpid 0 true, .dropChildFd 0, .hydrateForkedFd 0 1 4]

/-- No other process is ever born in this run. -/
theorem quiet_servingRun : (servingRun.foldl next initial).Quiet
  | 0 => by decide +kernel
  | 1 => by decide +kernel
  | 2 => by decide +kernel
  | _ + 3 => id

def exitingRun : List Action := servingRun ++ [.exit 1]

end Ulockmgr.Processes
