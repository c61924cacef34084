import Ulockmgr.Processes.Invariant

/-!
# Every step keeps the descriptors in their places

One lemma for each kind of step: new sockets, descriptors that are dropped, sent and
received, the steps of a spawn, and processes that are forked, go over to another program
and exit.
-/

namespace Ulockmgr.Processes

open Descriptors (Entry Table)

/-! ## New sockets -/

section
variable {s : State} {p : Pid} {x : Socket} {n m : RawFd}

theorem holds_newPair {q : Pid} {k : RawFd} {e : End}
    (holds : ((s.newPair p x n m).table q).Holds k e) :
    (s.table q).Holds k e ∨ q = p ∧ (k = n ∧ e = .parent x ∨ k = m ∧ e = .child x) := by
  by_cases same : q = p
  · subst same
    simp only [State.newPair, State.setTable_table, if_true] at holds
    rcases Table.holds_update.mp holds with ⟨rfl, rfl⟩ | ⟨-, before⟩
    · exact .inr ⟨rfl, .inr ⟨rfl, rfl⟩⟩
    · rcases Table.holds_update.mp before with ⟨rfl, rfl⟩ | ⟨-, before⟩
      · exact .inr ⟨rfl, .inl ⟨rfl, rfl⟩⟩
      · exact .inl before
  · simp only [State.newPair, State.setTable_table, if_neg same] at holds
    exact .inl holds

theorem fits_newPair (inv : Inv s) (running : (s.program p).Running) (vacant : s.Vacant p n m)
    (q : Pid) : Fits s.call q ((s.newPair p x n m).table q) (s.program q) := by
  have fits := inv.fits q
  by_cases same : q = p
  · subst same
    simp only [State.newPair, State.setTable_table, if_true]
    refine (fits.update running n (fun _ => by simp) ?_).update running m (fun _ => by simp) ?_
    · exact fun y serves => fits.other_of_free vacant.2.1 serves
    · exact fun y serves => fits.other_of_free vacant.2.2 serves
  · simp only [State.newPair, State.setTable_table, if_neg same]
    exact fits

theorem table_newPair {q : Pid} {k : RawFd} (first : q = p → k ≠ n) (second : q = p → k ≠ m) :
    (s.newPair p x n m).table q k = s.table q k := by
  by_cases same : q = p
  · subst same
    simp [State.newPair, Function.update_of_ne (first rfl), Function.update_of_ne (second rfl)]
  · simp [State.newPair, same]

/-- A new pair as one of the sockets, whatever the spawn it belongs to. -/
theorem placed_newPair (inv : Inv s) (unused : s.used x = false) (distinct : n ≠ m) {t : State}
    (program : t.program = s.program) (table : t.table = (s.newPair p x n m).table)
    (flight : t.flight = s.flight) (used : t.used = (s.newPair p x n m).used)
    (others : ∀ y, y ≠ x → t.call y = s.call y)
    (own : (t.call x).pc ≠ .idle →
      (t.call x).childFd = m ∧ (t.call x).pc.Active ∧ (t.call x).process = p) (e : End) :
    Placed t e := by
  by_cases same : e.socket = x
  · obtain ⟨grounded, nowhere⟩ := inv.nowhere_of_unused (same ▸ unused)
    have where_ : ∀ q k, t.Place e q k →
        q = p ∧ (k = n ∧ e = .parent x ∨ k = m ∧ e = .child x) := by
      rintro q k ⟨-, holds⟩
      rw [table] at holds
      exact (holds_newPair holds).resolve_left (nowhere q k)
    refine ⟨?_, ?_, ?_, ?_⟩
    · intro _
      rw [used, same]
      exact Function.update_self ..
    · intro _ q k r l first second
      obtain ⟨here, found⟩ := where_ q k first
      obtain ⟨there, found'⟩ := where_ r l second
      refine ⟨here.trans there.symm, ?_⟩
      rcases found with ⟨rfl, rfl⟩ | ⟨rfl, rfl⟩ <;>
        rcases found' with ⟨rfl, side⟩ | ⟨rfl, side⟩
      · rfl
      · cases side
      · cases side
      · rfl
    · intro under_way
      rw [flight, grounded] at under_way
      cases under_way
    · intro inherited q k place
      obtain ⟨rfl, found⟩ := where_ q k place
      rcases found with ⟨-, rfl⟩ | ⟨rfl, rfl⟩
      · exact inherited.elim
      · obtain ⟨number, active, process⟩ := own inherited
        exact ⟨number.symm, .inl ⟨active, process.symm⟩⟩
  · have old : ∀ q k, (t.table q).Holds k e → (s.table q).Holds k e := by
      intro q k holds
      rw [table] at holds
      refine (holds_newPair holds).resolve_right ?_
      rintro ⟨-, ⟨-, rfl⟩ | ⟨-, rfl⟩⟩ <;> exact same rfl
    refine (inv.placed e).frame_of_call (others _ same) ?_ ?_ ?_ ?_
    · intro known
      rw [used]
      simpa [State.newPair, same] using known
    · rw [flight]
      exact id
    · exact fun q k holds => ⟨q, k, old q k holds⟩
    · rintro q k ⟨settled, holds⟩
      rw [program] at settled
      exact ⟨settled, old q k holds⟩

theorem sound_newPair (inv : Inv s) (vacant : s.Vacant p n m) {t : State}
    (program : t.program = s.program) (table : t.table = (s.newPair p x n m).table)
    (used : t.used = (s.newPair p x n m).used) {y : Socket} (call : t.call y = s.call y) :
    Sound t y := by
  refine (inv.sound y).frame call ?_ ?_ ?_
  · intro known
    rw [used]
    by_cases same : y = x <;> simp [State.newPair, same, known]
  · intro q
    rw [program]
    exact .refl _
  · intro active runs _ k number
    rw [table]
    exact table_newPair ((inv.sound y).ne_of_free active runs number vacant.2.1)
      ((inv.sound y).ne_of_free active runs number vacant.2.2)

theorem inv_replySocket (inv : Inv s) (enabled : Enabled s (.replySocket p x n m)) :
    Inv (next s (.replySocket p x n m)) := by
  obtain ⟨client, unused, vacant⟩ := enabled
  have running : (s.program p).Running := by
    rw [client]
    trivial
  refine ⟨fits_newPair inv running vacant, fun y => ?_, fun e => ?_⟩
  · exact sound_newPair (t := s.newPair p x n m) inv vacant rfl rfl rfl rfl
  · refine placed_newPair (t := s.newPair p x n m) inv unused vacant.1 rfl rfl rfl rfl (fun _ _ => rfl) ?_ e
    intro busy
    exact (busy (inv.idle_of_unused unused)).elim

theorem State.Spawns.running {mode : Mode} (spawns : s.Spawns p mode) :
    (s.program p).Running := by
  cases mode with
  | coordinator =>
      have client : s.program p = .client := spawns
      rw [client]
      trivial
  | owner =>
      unfold State.Spawns at spawns
      cases program : s.program p with
      | server y => trivial
      | _ => simp [program] at spawns

theorem inv_socketpair {mode : Mode} (inv : Inv s) (enabled : Enabled s (.socketpair mode p x n m)) :
    Inv (next s (.socketpair mode p x n m)) := by
  obtain ⟨spawns, unused, vacant⟩ := enabled
  have running := spawns.running
  have idle := inv.idle_of_unused unused
  have call : (next s (.socketpair mode p x n m)).call x = ⟨mode, p, n, m, .paired, none⟩ := by
    simp [next]
  have others : ∀ y, y ≠ x → (next s (.socketpair mode p x n m)).call y = s.call y := by
    intro y other
    simp [next, other, State.newPair]
  refine ⟨fun q => ?_, fun y => ?_, fun e => ?_⟩
  · refine (fits_newPair inv running vacant q).frame fun y serves => ?_
    have other : y ≠ x := by
      rintro rfl
      exact inv.unserved (.inl idle) q serves
    rw [others y other]
    exact ⟨rfl, rfl⟩
  · by_cases same : y = x
    · subst same
      refine ⟨?_, ?_, ?_, ?_, ?_⟩
      · intro _
        exact Function.update_self ..
      · intro _
        rw [State.Runs, call]
        exact .inl running
      · intro _
        rw [call]
      · intro q born
        rw [call] at born
        cases born
      · intro _ _
        rw [call]
        have distinct := vacant.1
        simp [next, State.newPair, Function.update_of_ne distinct]
    · exact sound_newPair (t := next s (.socketpair mode p x n m)) inv vacant rfl rfl rfl
        (others y same)
  · refine placed_newPair (t := next s (.socketpair mode p x n m)) inv unused vacant.1 rfl rfl rfl
      rfl others ?_ e
    intro _
    rw [call]
    exact ⟨rfl, trivial, rfl⟩

end

/-! ## Descriptors that are dropped, sent and received -/

section
variable {s : State} {p : Pid} {n : RawFd} {e : End}

theorem holds_closeFd {q : Pid} {k : RawFd} {f : End} :
    ((s.closeFd p n).table q).Holds k f ↔ ¬ (q = p ∧ k = n) ∧ (s.table q).Holds k f := by
  by_cases same : q = p
  · subst same
    simp [State.closeFd, Table.holds_close]
  · simp [State.closeFd, same]

theorem table_closeFd {q : Pid} {k : RawFd} (other : q = p → k ≠ n) :
    (s.closeFd p n).table q k = s.table q k := by
  by_cases same : q = p
  · subst same
    simp [State.closeFd, Function.update_of_ne (other rfl)]
  · simp [State.closeFd, same]

theorem holds_of_file (named : (s.table p n).map Entry.file = some e) : (s.table p).Holds n e := by
  obtain ⟨⟨file, cloexec⟩, entry, rfl⟩ := Option.map_eq_some_iff.mp named
  exact ⟨cloexec, entry⟩

theorem fits_closeFd (inv : Inv s) (running : (s.program p).Running)
    (holds : (s.table p).Holds n e) (free : s.Free p e) (q : Pid) :
    Fits s.call q ((s.closeFd p n).table q) (s.program q) := by
  have fits := inv.fits q
  by_cases same : q = p
  · subst same
    simp only [State.closeFd, State.setTable_table, if_true]
    refine fits.update running n nofun fun y serves => ?_
    refine fits.other_of_entry holds serves ?_
    rintro rfl
    exact free.2 ⟨serves, rfl⟩
  · simp only [State.closeFd, State.setTable_table, if_neg same]
    exact fits

theorem sound_closeFd (inv : Inv s) (holds : (s.table p).Holds n e) (free : s.Free p e)
    {t : State} (program : t.program = s.program) (table : t.table = (s.closeFd p n).table)
    (call : t.call = s.call) (used : t.used = s.used) (x : Socket) : Sound t x := by
  refine (inv.sound x).frame (by rw [call]) (by rw [used]; exact id) ?_ ?_
  · intro q
    rw [program]
    exact .refl _
  · intro active runs _ k number
    rw [table]
    refine table_closeFd ((inv.sound x).ne_of_holds active runs number holds ?_)
    rintro process rfl
    exact free.1 ⟨active, process⟩

theorem inv_close (inv : Inv s) (enabled : Enabled s (.close p n e)) :
    Inv (next s (.close p n e)) := by
  obtain ⟨running, named, free⟩ := enabled
  have holds := holds_of_file named
  refine ⟨fits_closeFd inv running holds free, ?_, fun f => ?_⟩
  · exact sound_closeFd (t := s.closeFd p n) inv holds free rfl rfl rfl rfl
  · refine (inv.placed f).frame_of_call rfl id id ?_ ?_
    · exact fun q k later => ⟨q, k, (holds_closeFd.mp later).2⟩
    · exact fun q k place => ⟨place.1, (holds_closeFd.mp place.2).2⟩

/-- A free end is not that of a spawn. -/
theorem Inv.not_inherited (inv : Inv s) (running : (s.program p).Running)
    (holds : (s.table p).Holds n e) (free : s.Free p e) : ¬ s.Inherited e := by
  intro inherited
  have settled : ¬ (s.program p).Forked := by
    cases program : s.program p <;> simp_all [Program.Running, Program.Forked]
  obtain ⟨-, ⟨active, process⟩ | born⟩ := (inv.placed e).inherited inherited p n ⟨settled, holds⟩
  · exact free.1 ⟨active, process.symm⟩
  · cases e with
    | parent x => exact inherited
    | child x =>
        obtain ⟨-, serves | exited⟩ := (inv.sound x).child p born
        · cases program : s.program p with
          | server y =>
              rw [program] at serves
              cases serves
              exact free.2 ⟨program, rfl⟩
          | _ =>
              rw [program] at running serves
              first | exact running.elim | exact serves.elim
        · rw [exited] at running
          exact running

theorem State.Passes.running {sender : Bool} (passes : s.Passes sender p e) :
    (s.program p).Running := by
  unfold State.Passes at passes
  cases program : s.program p with
  | client | server => trivial
  | _ => simp [program] at passes

theorem Program.Running.not_forked {program : Program} (running : program.Running) :
    ¬ program.Forked := by
  cases program with
  | client | server => exact id
  | _ => exact running.elim

theorem inv_send (inv : Inv s) (enabled : Enabled s (.send p n e)) :
    Inv (next s (.send p n e)) := by
  obtain ⟨passes, named, free⟩ := enabled
  have running := passes.running
  have holds := holds_of_file named
  have other := inv.not_inherited running holds free
  refine ⟨fits_closeFd inv running holds free, ?_, fun f => ?_⟩
  · exact sound_closeFd (t := next s (.send p n e)) inv holds free rfl rfl rfl rfl
  · by_cases same : f = e
    · subst same
      have nowhere : ∀ q k, ¬ (next s (.send p n f)).Place f q k := by
        rintro q k ⟨settled, later⟩
        obtain ⟨elsewhere, before⟩ := holds_closeFd.mp later
        exact elsewhere ((inv.placed f).single other q k p n ⟨settled, before⟩
          ⟨running.not_forked, holds⟩)
      refine ⟨fun _ => (inv.placed f).used (.inr ⟨p, n, holds⟩), ?_, ?_, ?_⟩
      · exact fun _ q k _ _ place => (nowhere q k place).elim
      · exact fun _ => ⟨other, nowhere⟩
      · exact fun _ q k place => (nowhere q k place).elim
    · refine (inv.placed f).frame_of_call rfl id ?_ ?_ ?_
      · simp [next, same, State.closeFd]
      · exact fun q k later => ⟨q, k, (holds_closeFd.mp later).2⟩
      · exact fun q k place => ⟨place.1, (holds_closeFd.mp place.2).2⟩

theorem inv_lose (inv : Inv s) : Inv (next s (.lose e)) where
  fits := inv.fits
  sound x := (inv.sound x).frame rfl id (fun _ => .refl _) fun _ _ _ _ _ => rfl
  placed f := by
    refine (inv.placed f).frame_of_call rfl id ?_ (fun q k holds => ⟨q, k, holds⟩) fun _ _ => id
    simp only [next, State.setFlight_flight]
    split
    · exact nofun
    · exact id

theorem inv_receive (inv : Inv s) (enabled : Enabled s (.receive p n e)) :
    Inv (next s (.receive p n e)) := by
  obtain ⟨passes, under_way, vacant⟩ := enabled
  have running := passes.running
  obtain ⟨other, nowhere⟩ := (inv.placed e).flight under_way
  have holds_next : ∀ q k f, ((next s (.receive p n e)).table q).Holds k f →
      (s.table q).Holds k f ∨ q = p ∧ k = n ∧ f = e := by
    intro q k f holds
    by_cases same : q = p
    · subst same
      simp only [next, State.setFlight_table, State.setTable_table, if_true] at holds
      rcases Table.holds_update.mp holds with ⟨rfl, rfl⟩ | ⟨-, before⟩
      · exact .inr ⟨rfl, rfl, rfl⟩
      · exact .inl before
    · simp only [next, State.setFlight_table, State.setTable_table, if_neg same] at holds
      exact .inl holds
  refine ⟨fun q => ?_, fun x => ?_, fun f => ?_⟩
  · have fits := inv.fits q
    by_cases same : q = p
    · subst same
      simp only [next, State.setFlight_table, State.setTable_table, if_true]
      refine fits.update running n (fun _ => by simp) fun y serves => ?_
      exact fits.other_of_free vacant serves
    · simp only [next, State.setFlight_table, State.setTable_table, if_neg same]
      exact fits
  · refine (inv.sound x).frame rfl id (fun _ => .refl _) fun active runs _ k number => ?_
    have apart := (inv.sound x).ne_of_free active runs number vacant
    simp only [next, State.setFlight_table, State.setTable_table]
    split
    · next process =>
        rw [Function.update_of_ne (apart process), process]
    · rfl
  · by_cases same : f = e
    · subst same
      have here : ∀ q k, (next s (.receive p n f)).Place f q k → q = p ∧ k = n := by
        rintro q k ⟨settled, holds⟩
        rcases holds_next q k f holds with before | ⟨rfl, rfl, -⟩
        · exact (nowhere q k ⟨settled, before⟩).elim
        · exact ⟨rfl, rfl⟩
      refine ⟨fun _ => (inv.placed f).used (.inl under_way), ?_, ?_, ?_⟩
      · intro _ q k r l first second
        obtain ⟨rfl, rfl⟩ := here q k first
        obtain ⟨rfl, rfl⟩ := here r l second
        exact ⟨rfl, rfl⟩
      · intro still
        simp [next] at still
      · exact fun inherited => (other inherited).elim
    · have old : ∀ q k, ((next s (.receive p n e)).table q).Holds k f → (s.table q).Holds k f :=
        fun q k holds => (holds_next q k f holds).resolve_right fun found => same found.2.2
      refine (inv.placed f).frame_of_call rfl id ?_ ?_ ?_
      · simp [next, same]
      · exact fun q k holds => ⟨q, k, old q k holds⟩
      · exact fun q k place => ⟨place.1, old q k place.2⟩

end

/-! ## The steps of a spawn -/

section
variable {s t : State} {x : Socket}

/-- A spawn goes on without touching a descriptor. -/
theorem inv_goesOn (inv : Inv s) (active : (s.call x).pc.Active) {pc : Pc} (later : pc.Active)
    (past : pc ≠ .paired) : Inv (s.setCall x { s.call x with pc := pc }) where
  fits p := by
    refine (inv.fits p).frame fun y _ => ?_
    rw [State.setCall_call]
    split
    · next same =>
        subst same
        exact ⟨rfl, rfl⟩
    · exact ⟨rfl, rfl⟩
  sound y := by
    by_cases same : y = x
    · subst same
      have sound := inv.sound y
      have busy : (s.call y).pc ≠ .idle := by
        intro idle
        rw [idle] at active
        exact active
      constructor <;> simp only [State.setCall_call, if_true, State.Runs]
      · exact fun _ => sound.used busy
      · exact fun _ => sound.process busy
      · rintro (idle | paired)
        · rw [idle] at later
          exact later.elim
        · exact (past paired).elim
      · exact sound.child
      · exact fun _ => sound.held active
    · refine (inv.sound y).frame ?_ id (fun _ => .refl _) fun _ _ _ _ _ => rfl
      rw [State.setCall_call, if_neg same]
  placed e := by
    have busy : ∀ y, ((s.setCall x { s.call x with pc := pc }).call y).pc ≠ .idle ↔
        (s.call y).pc ≠ .idle := by
      intro y
      rw [State.setCall_call]
      split
      · next same =>
          subst same
          refine iff_of_true ?_ ?_ <;> rintro idle
          · rw [show pc = .idle from idle] at later
            exact later
          · rw [idle] at active
            exact active
      · rfl
    refine (inv.placed e).frame id id (fun q k holds => ⟨q, k, holds⟩) ?_ (fun _ _ => id) ?_
    · cases e with
      | parent y => rfl
      | child y => exact busy y
    · intro _ q k _
      rw [State.setCall_call]
      split
      · next same =>
          rw [same]
          exact ⟨rfl, fun creator => ⟨later, creator.2⟩, id⟩
      · exact ⟨rfl, id, id⟩

/-- A spawn is left: the child's end is dropped, and the other one with it or not. -/
theorem inv_leaves (inv : Inv s) (runs : s.Runs x) (active : (s.call x).pc.Active) {pc : Pc}
    (left : pc = .returned ∨ pc = .failed) (program : t.program = s.program)
    (flight : t.flight = s.flight) (used : t.used = s.used)
    (call : t.call = (s.setCall x { s.call x with pc := pc }).call)
    (fits : ∀ q, Fits s.call q (t.table q) (s.program q))
    (kept : ∀ q k, (q = (s.call x).process → k ≠ (s.call x).parentFd ∧ k ≠ (s.call x).childFd) →
      t.table q k = s.table q k)
    (shrinks : ∀ q k e, (t.table q).Holds k e → (s.table q).Holds k e)
    (dropped : ∀ e, ¬ (t.table (s.call x).process).Holds (s.call x).childFd e) : Inv t where
  fits q := by
    rw [program]
    refine (fits q).frame fun y _ => ?_
    rw [call, State.setCall_call]
    split
    · next same =>
        subst same
        exact ⟨rfl, rfl⟩
    · exact ⟨rfl, rfl⟩
  sound y := by
    by_cases same : y = x
    · subst same
      have sound := inv.sound y
      have busy : (s.call y).pc ≠ .idle := by
        intro idle
        rw [idle] at active
        exact active
      constructor <;> simp only [call, State.setCall_call, if_true, State.Runs, used, program]
      · exact fun _ => sound.used busy
      · exact fun _ => sound.process busy
      · rintro (idle | paired) <;> rcases left with rfl | rfl <;> simp_all
      · exact sound.child
      · intro still
        rcases left with rfl | rfl <;> exact still.elim
    · have other : t.call y = s.call y := by
        rw [call, State.setCall_call, if_neg same]
      refine (inv.sound y).frame other (by rw [used]; exact id) ?_ ?_
      · intro p
        rw [program]
        exact .refl _
      · intro active' runs' _ k number
        refine kept _ k fun process => ?_
        obtain ⟨parent, child⟩ := (inv.sound x).held active runs
        exact ⟨(inv.sound y).ne_of_holds active' runs' number ⟨true, parent⟩
            (fun _ equal => same equal.symm) process,
          (inv.sound y).ne_of_holds active' runs' number ⟨true, child⟩
            (fun _ equal => same equal.symm) process⟩
  placed e := by
    have busy : ∀ y, (t.call y).pc ≠ .idle ↔ (s.call y).pc ≠ .idle := by
      intro y
      rw [call, State.setCall_call]
      split
      · next same =>
          subst same
          refine iff_of_true ?_ ?_
          · rcases left with rfl | rfl <;> simp
          · intro idle
            rw [idle] at active
            exact active
      · rfl
    have places : ∀ p n, t.Place e p n → s.Place e p n := by
      rintro p n ⟨settled, holds⟩
      rw [program] at settled
      exact ⟨settled, shrinks p n e holds⟩
    refine (inv.placed e).frame (by rw [used]; exact id) (by rw [flight]; exact id)
      (fun q k holds => ⟨q, k, shrinks q k e holds⟩) ?_ places ?_
    · cases e with
      | parent y => rfl
      | child y => exact busy y
    · intro inherited q k place
      rw [call, State.setCall_call]
      split
      · next same =>
          refine ⟨by rw [same], ?_, by rw [same]; exact id⟩
          rintro ⟨-, process⟩
          -- the place of the creator is gone
          obtain ⟨number, -⟩ := (inv.placed e).inherited inherited q k (places q k place)
          rw [same] at process number
          subst process number
          exact (dropped e place.2).elim
      · exact ⟨rfl, id, id⟩

theorem inv_dropChildFd (inv : Inv s) (enabled : Enabled s (.dropChildFd x)) :
    Inv (next s (.dropChildFd x)) := by
  obtain ⟨runs, waited⟩ := enabled
  have active : (s.call x).pc.Active := by
    rw [waited]
    trivial
  obtain ⟨-, child⟩ := (inv.sound x).held active runs
  refine inv_leaves (t := next s (.dropChildFd x)) inv runs active (.inl rfl) rfl rfl rfl rfl ?_ ?_
    ?_ ?_
  · intro q
    have fits := inv.fits q
    by_cases same : q = (s.call x).process
    · subst same
      simp only [next, State.setCall_table, State.closeFd, State.setTable_table, if_true]
      exact fits.update runs _ nofun fun y serves => (inv.apart active runs serves).2
    · simp only [next, State.setCall_table, State.closeFd, State.setTable_table, if_neg same]
      exact fits
  · exact fun q k apart => table_closeFd fun same => (apart same).2
  · exact fun q k e holds => (holds_closeFd.mp holds).2
  · exact fun e holds => (holds_closeFd.mp holds).1 ⟨rfl, rfl⟩

theorem inv_abandon (inv : Inv s) (runs : s.Runs x) (active : (s.call x).pc.Active) :
    Inv (s.abandon x) := by
  refine inv_leaves (t := s.abandon x) inv runs active (.inr rfl) rfl rfl rfl rfl ?_ ?_ ?_ ?_
  · intro q
    have fits := inv.fits q
    by_cases same : q = (s.call x).process
    · subst same
      simp only [State.abandon, State.setCall_table, State.closeFd, State.setTable_table, if_true]
      refine (fits.update runs _ (fun _ => by simp) ?_).update runs _ (fun _ => by simp) ?_
      · exact fun y serves => (inv.apart active runs serves).1
      · exact fun y serves => (inv.apart active runs serves).2
    · simp only [State.abandon, State.setCall_table, State.closeFd, State.setTable_table,
        if_neg same]
      exact fits
  · intro q k apart
    exact (table_closeFd fun same => (apart same).2).trans
      (table_closeFd fun same => (apart same).1)
  · exact fun q k e holds => (holds_closeFd.mp (holds_closeFd.mp holds).2).2
  · exact fun e holds => (holds_closeFd.mp holds).1 ⟨rfl, rfl⟩

theorem inv_spawn {q : Pid} {ok : Bool} (inv : Inv s) (enabled : Enabled s (.spawn x q ok)) :
    Inv (next s (.spawn x q ok)) := by
  obtain ⟨runs, phase⟩ := enabled
  have active : (s.call x).pc.Active := by
    rcases phase with ⟨forked, -⟩ | ⟨paired, -⟩
    · rw [forked]
      trivial
    · rw [paired]
      trivial
  cases ok with
  | true => exact inv_goesOn inv active trivial nofun
  | false => exact inv_abandon inv runs active

theorem inv_waitpid {ok : Bool} (inv : Inv s) (enabled : Enabled s (.waitpid x ok)) :
    Inv (next s (.waitpid x ok)) := by
  obtain ⟨runs, spawned⟩ := enabled
  have active : (s.call x).pc.Active := by
    rw [spawned]
    trivial
  cases ok with
  | true => exact inv_goesOn inv active trivial nofun
  | false => exact inv_abandon inv runs active

end

/-! ## Processes come and go -/

section
variable {s : State} {p q : Pid} {x : Socket}

theorem not_running_of_unborn (unborn : s.program q = .unborn) (running : (s.program p).Running) :
    p ≠ q := by
  rintro rfl
  rw [unborn] at running
  exact running

/-- A step of a process that does not run the library leaves the spawns alone. -/
theorem sound_program (inv : Inv s) {t : State} {y : Socket} (call : t.call y = s.call y)
    (used : t.used = s.used) (idle : ¬ (s.program q).Running)
    (follows : (s.program q).Follows (t.program q))
    (programs : ∀ r, r ≠ q → t.program r = s.program r)
    (tables : ∀ r, r ≠ q → t.table r = s.table r) : Sound t y := by
  refine (inv.sound y).frame call (by rw [used]; exact id) ?_ ?_
  · intro r
    by_cases same : r = q
    · rw [same]
      exact follows
    · rw [programs r same]
      exact .refl _
  · intro _ runs _ k _
    have other : (s.call y).process ≠ q := by
      intro same
      rw [State.Runs, same] at runs
      exact idle runs
    rw [tables _ other]

theorem fits_others (inv : Inv s) {t : State} {r : Pid}
    (calls : ∀ y, (s.program r).Serves y → t.call y = s.call y)
    (program : t.program r = s.program r) (table : t.table r = s.table r) :
    Fits t.call r (t.table r) (t.program r) := by
  rw [program, table]
  refine (inv.fits r).frame fun y serves => ?_
  rw [calls y serves]
  exact ⟨rfl, rfl⟩

theorem inv_fork (inv : Inv s) (enabled : Enabled s (.fork x q)) : Inv (next s (.fork x q)) := by
  obtain ⟨runs, paired, unborn⟩ := enabled
  have other := not_running_of_unborn unborn runs
  have active : (s.call x).pc.Active := by
    rw [paired]
    trivial
  have busy : (s.call x).pc ≠ .idle := by
    rw [paired]
    simp
  have born := (inv.sound x).fresh (.inr paired)
  obtain ⟨parent, child⟩ := (inv.sound x).held active runs
  have call : (next s (.fork x q)).call x = { s.call x with pc := .forked, spawned := some q } := by
    simp [next]
  have calls : ∀ y, y ≠ x → (next s (.fork x q)).call y = s.call y := by
    intro y apart
    simp [next, apart]
  refine ⟨fun r => ?_, fun y => ?_, fun e => ?_⟩
  · by_cases same : r = q
    · subst same
      have closing := (inv.fits (s.call x).process).closing runs
      simp only [next, State.setCall_program, State.setTable_program, State.setProgram_program,
        State.setCall_table, State.setTable_table, if_true]
      refine ⟨by simp, by simpa using child, fun n file entry => (closing n file entry).elim⟩
    · refine fits_others inv (fun y serves => calls y ?_) ?_ ?_
      · rintro rfl
        exact inv.unserved (.inr paired) r serves
      · simp [next, same]
      · simp [next, same]
  · by_cases same : y = x
    · subst same
      have sound := inv.sound y
      constructor <;> simp only [call, State.Runs]
      · exact fun _ => sound.used busy
      · intro _
        simp only [next, State.setCall_program, State.setTable_program, State.setProgram_program,
          if_neg other]
        exact .inl runs
      · rintro (idle | idle) <;> cases idle
      · rintro r same
        cases same
        refine ⟨other.symm, .inl ?_⟩
        simp [next, Program.Serves]
      · intro _ _
        simp only [next, State.setCall_table, State.setTable_table, if_neg other]
        exact ⟨parent, child⟩
    · refine sound_program (t := next s (.fork x q)) (q := q) inv (calls y same) rfl ?_ ?_ ?_ ?_
      · rw [unborn]
        exact id
      · rw [unborn]
        exact .inr ⟨by simp, fun running => running.elim, fun _ serves => serves.elim⟩
      · intro r apart
        simp [next, apart]
      · intro r apart
        simp [next, apart]
  · have places : ∀ r k, (next s (.fork x q)).Place e r k → r ≠ q ∧ s.Place e r k := by
      rintro r k ⟨settled, holds⟩
      have apart : r ≠ q := by
        rintro rfl
        exact settled (by simp [next, Program.Forked])
      simp only [next, State.setCall_program, State.setTable_program, State.setProgram_program,
        State.setCall_table, State.setTable_table, if_neg apart] at settled holds
      exact ⟨apart, settled, holds⟩
    refine (inv.placed e).frame id id ?_ ?_ (fun r k place => (places r k place).2) ?_
    · intro r k holds
      simp only [next, State.setCall_table, State.setTable_table] at holds
      split at holds
      · exact ⟨_, k, holds⟩
      · exact ⟨r, k, holds⟩
    · cases e with
      | parent y => rfl
      | child y =>
          by_cases same : y = x
          · subst same
            simp [State.Inherited, call, busy]
          · simp only [State.Inherited, calls y same]
    · intro _ r k _
      by_cases same : e.socket = x
      · rw [same, call]
        refine ⟨rfl, fun creator => ⟨trivial, creator.2⟩, fun already => ?_⟩
        rw [born] at already
        cases already
      · rw [calls _ same]
        exact ⟨rfl, id, id⟩

theorem inv_forkOther (inv : Inv s) (enabled : Enabled s (.forkOther p q)) :
    Inv (next s (.forkOther p q)) := by
  obtain ⟨client, unborn⟩ := enabled
  have running : (s.program p).Running := by
    rw [client]
    trivial
  refine ⟨fun r => ?_, fun y => ?_, fun e => ?_⟩
  · by_cases same : r = q
    · subst same
      simp only [next, State.setTable_program, State.setProgram_program, State.setTable_table,
        if_true]
      exact (inv.fits p).closing running
    · refine fits_others inv (fun _ _ => rfl) ?_ ?_
      · simp [next, same]
      · simp [next, same]
  · refine sound_program (t := next s (.forkOther p q)) (q := q) inv rfl rfl ?_ ?_ ?_ ?_
    · rw [unborn]
      exact id
    · rw [unborn]
      exact .inr ⟨nofun, fun running => running.elim, fun _ serves => serves.elim⟩
    · intro r apart
      simp [next, apart]
    · intro r apart
      simp [next, apart]
  · refine (inv.placed e).frame_of_call rfl id id ?_ ?_
    · intro r k holds
      simp only [next, State.setTable_table] at holds
      split at holds
      · exact ⟨p, k, holds⟩
      · exact ⟨r, k, holds⟩
    · rintro r k ⟨settled, holds⟩
      have apart : r ≠ q := by
        rintro rfl
        exact settled (by simp [next, Program.Forked])
      simp only [next, State.setTable_program, State.setProgram_program, State.setTable_table,
        if_neg apart] at settled holds
      exact ⟨settled, holds⟩

/-- A process goes over to another program with a part of its table.  Where it had the copies
of a fork, the one end it may keep is that of its own socket. -/
theorem inv_becomes (inv : Inv s) {program : Program} {table : Table End}
    (ends : (s.program q).Running → program = .exited)
    (follows : (s.program q).Follows program) (fits : Fits s.call q table program)
    (part : ∀ k e, table.Holds k e → (s.table q).Holds k e)
    (places : ∀ k e, ¬ program.Forked → table.Holds k e → ¬ (s.program q).Forked ∨
      ∃ x, e = .child x ∧ program.Serves x ∧ k = (s.call x).childFd) :
    Inv ((s.setProgram q program).setTable q table) := by
  refine ⟨fun r => ?_, fun y => ?_, fun e => ?_⟩
  · by_cases same : r = q
    · subst same
      simpa using fits
    · refine fits_others inv (fun _ _ => rfl) ?_ ?_
      · simp [same]
      · simp [same]
  · refine (inv.sound y).frame rfl id ?_ ?_
    · intro r
      by_cases same : r = q
      · subst same
        simpa using follows
      · simpa [same] using Program.Follows.refl (s.program r)
    · intro _ runs still k _
      by_cases same : (s.call y).process = q
      · simp only [State.setTable_program, State.setProgram_program, if_pos same] at still
        rw [State.Runs, same] at runs
        rw [ends runs] at still
        exact still.elim
      · simp [same]
  · have held : ∀ r k, (((s.setProgram q program).setTable q table).table r).Holds k e →
        (s.table r).Holds k e := by
      intro r k holds
      rw [State.setTable_table] at holds
      split at holds
      · next same =>
          rw [same]
          exact part k e holds
      · exact holds
    have place : ∀ r k, ((s.setProgram q program).setTable q table).Place e r k →
        s.Place e r k ∨ r = q ∧ ∃ x, e = .child x ∧ program.Serves x ∧ k = (s.call x).childFd := by
      rintro r k ⟨settled, holds⟩
      have before := held r k holds
      by_cases same : r = q
      · subst same
        simp only [State.setTable_program, State.setProgram_program, State.setTable_table,
          if_true] at settled holds
        rcases places k e settled holds with whole | own
        · exact .inl ⟨whole, before⟩
        · exact .inr ⟨rfl, own⟩
      · simp only [State.setTable_program, State.setProgram_program, if_neg same] at settled
        exact .inl ⟨settled, before⟩
    -- the socket of a child is that of a spawn
    have inherited : ∀ x, program.Serves x → s.Inherited (.child x) := by
      intro x serves idle
      have born := (fits.spawned serves).1
      rw [(inv.sound x).fresh (.inl idle)] at born
      cases born
    refine ⟨?_, ?_, ?_, ?_⟩
    · rintro (under_way | ⟨r, k, holds⟩)
      · exact (inv.placed e).used (.inl under_way)
      · exact (inv.placed e).used (.inr ⟨r, k, held r k holds⟩)
    · intro other r k r' k' first second
      rcases place r k first with first | ⟨-, x, rfl, serves, -⟩
      · rcases place r' k' second with second | ⟨-, x, rfl, serves, -⟩
        · exact (inv.placed e).single other r k r' k' first second
        · exact (other (inherited x serves)).elim
      · exact (other (inherited x serves)).elim
    · intro under_way
      obtain ⟨other, nowhere⟩ := (inv.placed e).flight under_way
      refine ⟨other, fun r k now => ?_⟩
      rcases place r k now with before | ⟨-, x, rfl, serves, -⟩
      · exact nowhere r k before
      · exact other (inherited x serves)
    · intro child r k now
      rcases place r k now with before | ⟨rfl, x, rfl, serves, number⟩
      · exact (inv.placed e).inherited child r k before
      · exact ⟨number, .inr (fits.spawned serves).1⟩

theorem inv_preExec (inv : Inv s) (enabled : Enabled s (.preExec x q)) :
    Inv (next s (.preExec x q)) := by
  have forked := enabled.1
  have fits := inv.fits q
  rw [forked] at fits
  obtain ⟨born, child, closing⟩ := fits
  refine inv_becomes inv ?_ ?_ ⟨born, ?_, ?_⟩ (fun k e => Table.holds_mark.mp) ?_
  · rw [forked]
    exact fun running => running.elim
  · rw [forked]
    exact .inr ⟨nofun, fun running => running.elim, fun _ serves => serves⟩
  · rw [Table.mark_of_open ⟨_, child⟩]
    exact Function.update_self ..
  · intro n file entry
    by_contra other
    rw [Table.mark_of_open ⟨_, child⟩, Function.update_of_ne other] at entry
    exact other (closing n file entry)
  · exact fun k e settled => (settled trivial).elim

theorem inv_execve (inv : Inv s) (forked : Enabled s (.execve x q)) :
    Inv (next s (.execve x q)) := by
  have fits := inv.fits q
  rw [show s.program q = .forked x true from forked] at fits
  obtain ⟨born, child, closing⟩ := fits
  refine inv_becomes inv ?_ ?_ ⟨born, rfl, ?_⟩ ?_ ?_
  · rw [show s.program q = .forked x true from forked]
    exact fun running => running.elim
  · rw [show s.program q = .forked x true from forked]
    exact .inr ⟨nofun, fun running => running.elim, fun _ serves => serves⟩
  · funext n
    rw [Function.update_apply]
    split
    · next same =>
        rw [same]
        exact Table.exec_eq_some.mpr ⟨child, rfl⟩
    · next other =>
        cases kept : (s.table q).exec n with
        | none => rfl
        | some entry =>
            obtain ⟨file, cloexec⟩ := entry
            obtain ⟨before, survives⟩ := Table.exec_eq_some.mp kept
            cases survives
            exact (other (closing n file before)).elim
  · rintro k e ⟨cloexec, kept⟩
    exact ⟨cloexec, (Table.exec_eq_some.mp kept).1⟩
  · rintro k e - ⟨cloexec, kept⟩
    obtain ⟨before, survives⟩ := Table.exec_eq_some.mp kept
    cases survives
    obtain rfl := closing k e before
    rw [child] at before
    cases before
    exact .inr ⟨x, rfl, rfl, rfl⟩

theorem inv_execOther (inv : Inv s) (copy : Enabled s (.execOther q)) :
    Inv (next s (.execOther q)) := by
  have fits := inv.fits q
  rw [show s.program q = .copy from copy] at fits
  have nothing : (s.table q).exec = Table.empty := Table.exec_eq_empty fits
  refine inv_becomes inv ?_ ?_ nothing ?_ ?_
  · rw [show s.program q = .copy from copy]
    exact fun running => running.elim
  · rw [show s.program q = .copy from copy]
    exact .inr ⟨nofun, fun running => running.elim, fun _ serves => serves⟩
  · intro k e holds
    rw [nothing] at holds
    exact (Table.not_holds_empty k e holds).elim
  · intro k e _ holds
    rw [nothing] at holds
    exact (Table.not_holds_empty k e holds).elim

theorem inv_hydrateForkedFd {fd : RawFd} (inv : Inv s)
    (enabled : Enabled s (.hydrateForkedFd x q fd)) : Inv (next s (.hydrateForkedFd x q fd)) := by
  have started := enabled.1
  have fits := inv.fits q
  rw [started] at fits
  obtain ⟨born, number, table⟩ := fits
  have opened : (s.table q).Holds fd (.child x) := by
    rw [table]
    exact ⟨false, Function.update_self ..⟩
  have marked : (s.table q).mark fd true =
      Function.update Table.empty fd (some ⟨.child x, true⟩) := by
    rw [Table.mark_of_open opened, table, Function.update_idem]
  refine inv_becomes inv ?_ ?_ ⟨born, ?_, ?_⟩ (fun k e => Table.holds_mark.mp) ?_
  · rw [started]
    exact fun running => running.elim
  · rw [started]
    exact .inr ⟨nofun, fun running => running.elim, fun _ serves => serves⟩
  · rw [marked, ← number]
    exact Function.update_self ..
  · intro n file entry
    rw [marked, Function.update_apply] at entry
    split at entry <;> cases entry
  · intro _ _ _ _
    left
    rw [started]
    exact id

theorem inv_exit (inv : Inv s) : Inv (next s (.exit p)) := by
  refine inv_becomes inv (fun _ => rfl) (.inl rfl) rfl ?_ ?_
  · exact fun k e holds => (Table.not_holds_empty k e holds).elim
  · exact fun k e _ holds => (Table.not_holds_empty k e holds).elim

end

theorem inv_next {s : State} {a : Action} (inv : Inv s) (enabled : Enabled s a) :
    Inv (next s a) := by
  cases a with
  | replySocket => exact inv_replySocket inv enabled
  | socketpair => exact inv_socketpair inv enabled
  | fork => exact inv_fork inv enabled
  | preExec => exact inv_preExec inv enabled
  | execve => exact inv_execve inv enabled
  | spawn => exact inv_spawn inv enabled
  | waitpid => exact inv_waitpid inv enabled
  | dropChildFd => exact inv_dropChildFd inv enabled
  | hydrateForkedFd => exact inv_hydrateForkedFd inv enabled
  | send => exact inv_send inv enabled
  | receive => exact inv_receive inv enabled
  | lose => exact inv_lose inv
  | close => exact inv_close inv enabled
  | forkOther => exact inv_forkOther inv enabled
  | execOther => exact inv_execOther inv enabled
  | exit => exact inv_exit inv

theorem reachable_inv {s : State} (reached : machine.Reachable s) : Inv s :=
  reached.invariant (fun _ => inv_initial) fun _ _ => inv_next

end Ulockmgr.Processes
