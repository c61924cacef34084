import Ulockmgr.Owner.Unregister

/-!
# The owner does not give up a registered file

Every `FdData` keeps a read guard of the exit lock, so the exit flag can be set only
when none is alive, and from then on no registration gets a guard.  The one `Register`
that can still be answered `Ok` after that is one whose registration was already
undone by an `Unregister` that guessed its ID.
-/

namespace Ulockmgr.Owner

/-! ## Read guards -/

structure Guarded (s : State) : Prop where
  sound : s.exitLock.Sound
  /-- A registration that has no `FdData` yet. -/
  unborn : ∀ e, (s.request e).pc = .idle ∨ (s.request e).pc = .acquireExit ∨
    (s.request e).pc = .trackerNew → (s.data e).holders = ∅
  acquired : ∀ e, (s.request e).pc = .trackerNew → e ∈ s.exitLock.readers
  holders : ∀ r, (s.data r).holders ≠ ∅ → r ∈ s.exitLock.readers

theorem guarded_initial : Guarded initial := by
  constructor <;> simp [initial, Request.idle, FdData.dropped, ExitLock.sound_new]

/-- The guard of an `FdData` goes with its last clone. -/
theorem readers_dropClone {s : State} {r x : RequestId} {h : Holder}
    (guards : r ∈ s.exitLock.readers) :
    r ∈ (s.dropClone x h).exitLock.readers ∨ r = x ∧ ((s.dropClone x h).data r).holders = ∅ := by
  by_cases last : (s.data x).holders.erase h = ∅
  · by_cases same : r = x
    · exact .inr ⟨same, by simp [same, last]⟩
    · exact .inl (by simp [last, ExitLock.release, guards, same])
  · exact .inl (by simpa [last] using guards)

/-- A read guard is released with the last clone, or when the registration fails. -/
theorem readers_next {s : State} {a : Action} (served : Served s) (clones : Clones s)
    (enabled : Enabled s a) {r : RequestId} (guards : r ∈ s.exitLock.readers) :
    r ∈ (next s a).exitLock.readers ∨ (∃ error, a = .trackerNewFails r error) ∨
      (s.request r).Registered ∧ ((next s a).data r).holders = ∅ := by
  have dropped : ∀ e h, (s.request e).found = some true →
      r ∈ (s.dropClone (s.request e).data h).exitLock.readers ∨ (s.request r).Registered ∧
        ((s.dropClone (s.request e).data h).data r).holders = ∅ := by
    intro e h found
    rcases readers_dropClone guards with kept | ⟨same, last⟩
    · exact .inl kept
    · exact .inr ⟨same ▸ clones.found e found, last⟩
  cases a with
  | acquireExit e =>
      simp only [next, ExitLock.acquire]
      split <;> grind
  | tryExit =>
      simp only [next, ExitLock.tryExit]
      split <;> grind
  | trackerNewFails e error =>
      by_cases same : r = e
      · exact .inr (.inl ⟨error, by rw [same]⟩)
      · exact .inl (by simp [next, ExitLock.release, guards, same])
  | release e =>
      have lost := dropped e .loop (served.past e (.inr enabled)).1
      simp only [next]
      grind
  | dropData e =>
      have lost := dropped e (.unregister e) (served.found e (by rw [enabled]; trivial))
      simp only [next]
      grind
  | dropRefused e =>
      have lost := dropped e (.worker e) (served.found e (by rw [enabled]; trivial))
      simp only [next]
      grind
  | dropClone e =>
      have lost := dropped e (.worker e) (served.found e (by rw [enabled]; trivial))
      simp only [next]
      grind
  | _ =>
      simp only [next]
      (repeat' split) <;> grind

section GuardedStep
variable {s : State} {a : Action} (served : Served s) (clones : Clones s) (inv : Guarded s)
  (enabled : Enabled s a)
include served clones inv enabled

omit served clones enabled in
theorem Guarded.sound_next : (next s a).exitLock.Sound := by
  have sound := inv.sound
  have released := fun r => sound.release r
  cases a with
  | acquireExit e =>
      simp only [next]
      split
      · next lock taken => exact ExitLock.Sound.acquire taken
      · exact sound
  | tryExit =>
      simp only [next]
      split
      · next lock left => exact ExitLock.Sound.tryExit left
      · exact sound
  | _ =>
      simp only [next]
      (repeat' split) <;> grind

theorem Guarded.unborn_next (e : RequestId)
    (new : ((next s a).request e).pc = .idle ∨ ((next s a).request e).pc = .acquireExit ∨
      ((next s a).request e).pc = .trackerNew) : ((next s a).data e).holders = ∅ := by
  have before : (s.request e).pc = .idle ∨ (s.request e).pc = .acquireExit ∨
      (s.request e).pc = .trackerNew := by
    revert new
    cases a <;> simp only [Enabled] at enabled <;> simp only [next] <;> (repeat' split) <;> grind
  have old := inv.unborn e before
  apply Finset.eq_empty_of_forall_notMem
  intro h held
  rcases holders_cases held with earlier | gives
  · rw [old] at earlier
    exact Finset.notMem_empty _ earlier
  · rcases registered_of_gives served clones enabled gives with rfl | rfl | ⟨_, past⟩
    · simp [next] at new
    · simp only [Enabled] at enabled
      rw [enabled] at before
      simp at before
    · rcases past with past | past <;> rw [past] at before <;> simp at before

theorem Guarded.acquired_next (e : RequestId) (acquires : ((next s a).request e).pc = .trackerNew) :
    e ∈ (next s a).exitLock.readers := by
  have origin : (s.request e).pc = .trackerNew ∧ (∀ error, a ≠ .trackerNewFails e error) ∨
      a = .acquireExit e ∧ ∃ lock, s.exitLock.acquire e = .ok lock := by
    revert acquires
    cases a <;> simp only [Enabled] at enabled <;> simp only [next] <;> (repeat' split) <;> grind
  rcases origin with ⟨before, keeps⟩ | ⟨rfl, lock, taken⟩
  · rcases readers_next served clones enabled (inv.acquired e before) with kept | ⟨error, fails⟩ | lost
    · exact kept
    · exact (keeps error fails).elim
    · rcases lost.1.2 with past | past <;> rw [before] at past <;> cases past
  · simp only [next, taken]
    unfold ExitLock.acquire at taken
    split at taken
    · cases taken
    · cases taken
      simp

theorem Guarded.holders_next (r : RequestId) (alive : ((next s a).data r).holders ≠ ∅) :
    r ∈ (next s a).exitLock.readers := by
  obtain ⟨h, held⟩ := Finset.nonempty_iff_ne_empty.mpr alive
  have before : (s.data r).holders ≠ ∅ ∨ (s.request r).pc = .trackerNew ∧ a = .trackerNew r := by
    rcases holders_cases held with old | gives
    · exact .inl (Finset.ne_empty_of_mem old)
    · by_cases new : a = .trackerNew r
      · subst new
        exact .inr ⟨enabled, rfl⟩
      · rcases held_of_gives served clones enabled gives new with old | old <;>
          exact .inl (Finset.ne_empty_of_mem old)
  have guards : r ∈ s.exitLock.readers := by
    rcases before with old | ⟨new, _⟩
    · exact inv.holders r old
    · exact inv.acquired r new
  rcases readers_next served clones enabled guards with kept | ⟨error, rfl⟩ | ⟨_, lost⟩
  · exact kept
  · rcases before with old | ⟨_, new⟩
    · exact (old (inv.unborn r (.inr (.inr enabled)))).elim
    · cases new
  · exact (alive lost).elim

end GuardedStep

theorem reachable_guarded {s : State} (reached : machine.Reachable s) : Guarded s := by
  have all : Served s ∧ Clones s ∧ Guarded s := by
    apply reached.invariant
    · rintro _ rfl
      exact ⟨served_initial, clones_initial, guarded_initial⟩
    · rintro state label ⟨served, clones, inv⟩ enabled
      exact ⟨served_next served enabled, clones_next served clones enabled,
        { sound := inv.sound_next
          unborn := inv.unborn_next served clones enabled
          acquired := inv.acquired_next served clones enabled
          holders := inv.holders_next served clones enabled }⟩
  exact all.2.2

/-! ## Registrations are kept -/

/-- An `Unregister` of `id` has been received. -/
def Unregistered (s : State) (id : UInt64) : Prop :=
  ∃ e, (s.request e).message = .unregister id ∧ (s.request e).pc ≠ .idle

theorem Unregistered.next {s : State} {a : Action} {id : UInt64} (enabled : Enabled s a)
    (unregistered : Unregistered s id) : Unregistered (next s a) id := by
  obtain ⟨e, message, running⟩ := unregistered
  exact ⟨e, (message_next enabled running).trans message, running_next enabled running⟩

/-- The `Register` request is answered `Ok` with `id`, or is about to be. -/
def Request.Answers (request : Request) (id : UInt64) : Prop :=
  task request.message = .register ∧
    (request.pc = .reply ∧ request.out = .ok (.register id) ∨
      .ok (.register id) ∈ request.replies)

/-- A registration that is answered `Ok` is in the map until it is unregistered, and
the map has the descriptor that came with it. -/
structure Kept (s : State) : Prop where
  answers : ∀ e id, (s.request e).Answers id → s.descriptors id = some e ∨ Unregistered s id
  descriptor : ∀ e, (s.request e).pc = .fetchId ∨ (s.request e).pc = .insertId ∨
    (∃ id, s.descriptors id = some e) → (s.request e).message.fd = some (s.data e).descriptor

theorem kept_initial : Kept initial := by
  constructor <;> simp [initial, Request.idle, Request.Answers, task]

section KeptStep
variable {s : State} {a : Action} (served : Served s) (clones : Clones s) (inv : Kept s)
  (enabled : Enabled s a)
include served inv enabled

theorem Kept.answers_cases {e : RequestId} {id : UInt64}
    (answers : ((next s a).request e).Answers id) :
    (s.request e).Answers id ∨ (next s a).descriptors id = some e := by
  by_cases own : e = a.actor
  · subst own
    have serves := served.serves a.actor
    have fresh := served.silent a.actor
    revert answers
    cases a <;> simp only [Enabled, Action.actor] at enabled serves fresh ⊢ <;>
      simp only [next] <;> (repeat' split) <;>
      grind [Pc.Serves, Request.Answers, Request.idle, Task.handler]
  · rw [request_next_of_ne s own] at answers
    exact .inl answers

theorem Kept.answers_next (e : RequestId) (id : UInt64)
    (answers : ((next s a).request e).Answers id) :
    (next s a).descriptors id = some e ∨ Unregistered (next s a) id := by
  rcases inv.answers_cases served enabled answers with before | inserted
  · rcases inv.answers e id before with bound | unregistered
    · have forward : (next s a).descriptors id = some e ∨
          ∃ x, a = .mapRemove x ∧ (s.request x).message.id = id := descriptors_next bound
      rcases forward with kept | ⟨x, rfl, same⟩
      · exact .inl kept
      · -- the entry goes with the handler of an `Unregister` of this ID
        right
        apply Unregistered.next enabled
        have serves := served.serves x (by rw [enabled]; decide)
        rw [enabled] at serves
        refine ⟨x, ?_, by rw [enabled]; decide⟩
        cases message : (s.request x).message with
        | unregister id' =>
            rw [message] at same
            rw [← same]
            rfl
        | lockCommand id' action params =>
            rw [message] at serves
            cases action <;> cases serves
        | _ =>
            rw [message] at serves
            cases serves
    · exact .inr (unregistered.next enabled)
  · exact .inl inserted

include clones in
theorem Kept.descriptor_next (e : RequestId)
    (stored : ((next s a).request e).pc = .fetchId ∨ ((next s a).request e).pc = .insertId ∨
      ∃ id, (next s a).descriptors id = some e) :
    ((next s a).request e).message.fd = some ((next s a).data e).descriptor := by
  by_cases new : a = .trackerNew e
  · subst new
    have serves := served.serves e (by rw [enabled]; decide)
    rw [enabled] at serves
    cases message : (s.request e).message with
    | register fd => simp [next, message, Message.fd]
    | lockCommand id' action params =>
        rw [message] at serves
        cases action <;> cases serves
    | _ =>
        rw [message] at serves
        cases serves
  · have allocating : ((next s a).request e).pc = .fetchId ∨
        ((next s a).request e).pc = .insertId →
          (s.request e).pc = .fetchId ∨ (s.request e).pc = .insertId := by
      clear stored served clones inv
      cases a <;> simp only [Enabled] at enabled <;> simp only [next] <;> (repeat' split) <;> grind
    have before : (s.request e).pc = .fetchId ∨ (s.request e).pc = .insertId ∨
        ∃ id, s.descriptors id = some e := by
      rcases stored with allocates | allocates | ⟨id, bound⟩
      · exact or_assoc.mp (.inl (allocating (.inl allocates)))
      · exact or_assoc.mp (.inl (allocating (.inr allocates)))
      · rcases descriptors_cases bound with ⟨old, _⟩ | ⟨rfl, _, _⟩
        · exact .inr (.inr ⟨id, old⟩)
        · exact .inr (.inl enabled)
    have running : (s.request e).pc ≠ .idle := by
      rcases before with before | before | ⟨id, bound⟩
      · rw [before]
        decide
      · rw [before]
        decide
      · rcases (clones.registered id e bound).2 with past | past <;> rw [past] <;> decide
    rw [message_next enabled running, Owner.descriptor_next new]
    exact inv.descriptor e before

end KeptStep

theorem reachable_kept {s : State} (reached : machine.Reachable s) : Kept s := by
  have all : (Served s ∧ Clones s) ∧ Kept s := by
    apply reached.invariant
    · rintro _ rfl
      exact ⟨⟨served_initial, clones_initial⟩, kept_initial⟩
    · rintro state label ⟨⟨served, clones⟩, inv⟩ enabled
      exact ⟨⟨served_next served enabled, clones_next served clones enabled⟩,
        { answers := inv.answers_next served enabled
          descriptor := inv.descriptor_next served clones enabled }⟩
  exact all.2

/-! ## After the exit flag is set -/

theorem exited_next {s : State} {a : Action} (exited : s.exitLock.exited = true) :
    (next s a).exitLock.exited = true := by
  cases a <;> simp only [next, ExitLock.acquire, ExitLock.release, ExitLock.tryExit] <;>
    (repeat' split) <;> grind [ExitLock.release]

theorem dropped_of_exited {s : State} (reached : machine.Reachable s)
    (exited : s.exitLock.exited = true) (r : RequestId) : (s.data r).holders = ∅ := by
  by_contra alive
  have guarded := reachable_guarded reached
  have guards := guarded.holders r alive
  rw [guarded.sound exited] at guards
  exact Finset.notMem_empty r guards

theorem unbound_of_exited {s : State} (reached : machine.Reachable s)
    (exited : s.exitLock.exited = true) (id : UInt64) : s.descriptors id = none := by
  cases bound : s.descriptors id with
  | none => rfl
  | some r =>
      have held := (reachable_clones reached).map id r bound
      rw [dropped_of_exited reached exited r] at held
      cases Finset.notMem_empty _ held

/-- Only a registration that already had its ID when the flag was set is still answered
`Ok` afterwards. -/
theorem answers_after_exit {s t : State} (reached : machine.Reachable s)
    (exited : s.exitLock.exited = true) (continued : (machine.after s).Reachable t) :
    t.exitLock.exited = true ∧ ∀ e id, (t.request e).Answers id → (s.request e).Answers id := by
  induction continued with
  | initial starts =>
      cases starts
      exact ⟨exited, fun e id answers => answers⟩
  | @step state label continues enabled _ ih =>
      obtain ⟨still, back⟩ := ih
      have before := reached.trans continues
      have after : machine.Reachable (next state label) := .step before enabled trivial
      have set : (next state label).exitLock.exited = true := exited_next still
      refine ⟨set, ?_⟩
      intro e id answers
      rcases (reachable_kept before).answers_cases (reachable_served before) enabled answers with
        old | inserted
      · exact back e id old
      · have vacant := unbound_of_exited after set id
        rw [inserted] at vacant
        cases vacant

/-- The exit flag is set only when no `FdData` is alive, and from then on a `Register`
is answered `Ok` only if its registration has been undone by an `Unregister` already.
A file that was registered and not unregistered is kept, and the owner does not exit. -/
theorem owner_keeps_registered {s : State} (reached : machine.Reachable s) :
    (s.exitLock.exited = true →
      (∀ r, (s.data r).holders = ∅) ∧ (∀ id, s.descriptors id = none) ∧
        ∀ t, (machine.after s).Reachable t → t.exitLock.exited = true ∧
          ∀ e id, (t.request e).Answers id → (s.request e).Answers id ∧ Unregistered s id) ∧
      ∀ e id, task (s.request e).message = .register →
        .ok (.register id) ∈ (s.request e).replies → ¬ Unregistered s id →
          s.exitLock.exited = false ∧ s.descriptors id = some e ∧ .map ∈ (s.data e).holders ∧
            (s.request e).message.fd = some (s.data e).descriptor := by
  have kept := reachable_kept reached
  refine ⟨?_, ?_⟩
  · intro exited
    refine ⟨dropped_of_exited reached exited, unbound_of_exited reached exited, ?_⟩
    intro t continued
    obtain ⟨still, back⟩ := answers_after_exit reached exited continued
    refine ⟨still, ?_⟩
    intro e id answers
    have old := back e id answers
    refine ⟨old, ?_⟩
    rcases kept.answers e id old with bound | unregistered
    · rw [unbound_of_exited reached exited id] at bound
      cases bound
    · exact unregistered
  · intro e id register written here
    have bound := (kept.answers e id ⟨register, .inr written⟩).resolve_right here
    have running : s.exitLock.exited = false := by
      rw [Bool.eq_false_iff]
      intro exited
      rw [unbound_of_exited reached exited id] at bound
      cases bound
    exact ⟨running, bound, (reachable_clones reached).map id e bound,
      kept.descriptor e (.inr (.inr ⟨id, bound⟩))⟩

/-- An `Unregister` that guesses the ID undoes a registration before it is answered, and
the owner exits before the answer is written. -/
theorem register_answered_after_exit :
    ∃ s, machine.Reachable s ∧ s.exitLock.exited = true ∧ Enabled s (.reply 1) ∧
      task (s.request 1).message = .register ∧ (s.request 1).replies = [] ∧
        ((next s (.reply 1)).request 1).replies = [.ok (.register 0)] :=
  Transition.Machine.exists_reachable_of_exec
    [.recv 0 (.unregister 0), .startThread 0, .recv 1 (.register (.file 7)), .acquireExit 1,
      .trackerNew 1, .fetchId 1, .insertId 1, .mapRemove 0, .trackerStop 0, .trackerWait 0,
      .refcount 0, .dropData 0, .tryExit] rfl (by decide +kernel)

/-- Requests that a run does not name are still idle. -/
theorem idle_of_exec {labels : List Action} {s : State} {n : Nat}
    (named : ∀ label ∈ labels, label.actor < n)
    (ran : machine.exec (fun _ _ => True) labels initial = some s) (e : Nat) (fresh : n ≤ e) :
    s.request e = Request.idle := by
  refine Transition.Machine.exec_invariant (fun state => state.request e = Request.idle) rfl ?_ ran
  intro label member state idle
  have other : e ≠ label.actor := (lt_of_lt_of_le (named label member) fresh).ne'
  exact (request_next_of_ne state other).trans idle

/-- One of two registered files is given up; the TTL loop does not get the exit lock. -/
theorem owner_keeps_second_file :
    ∃ s, machine.Reachable s ∧ s.descriptors 0 = none ∧ ¬ Unregistered s 1 ∧
      s.exitLock.exited = false ∧ s.descriptors 1 = some 1 ∧ .map ∈ (s.data 1).holders ∧
        (s.request 1).message.fd = some (s.data 1).descriptor := by
  obtain ⟨s, final, register, written, gone, others⟩ : ∃ s, machine.exec (fun _ _ => True)
      [.recv 0 (.register (.file 7)), .acquireExit 0, .trackerNew 0, .fetchId 0, .insertId 0,
        .reply 0, .recv 1 (.register (.file 8)), .acquireExit 1, .trackerNew 1, .fetchId 1,
        .insertId 1, .reply 1, .recv 2 (.unregister 0), .startThread 2, .mapRemove 2,
        .trackerStop 2, .trackerWait 2, .refcount 2, .dropData 2, .reply 2, .tryExit] initial = some s ∧
      (task (s.request 1).message = .register ∧
        (.ok (.register 1) : Reply) ∈ (s.request 1).replies ∧ s.descriptors 0 = none ∧
          ∀ e : Nat, e < 3 → (s.request e).message ≠ .unregister 1) :=
    Transition.Machine.exists_of_exec _ (by decide +kernel)
  have reached : machine.Reachable s := Transition.Machine.exec_reachableVia (.initial rfl) final
  have here : ¬ Unregistered s 1 := by
    rintro ⟨e, message, running⟩
    by_cases named : e < 3
    · exact others e named message
    · rw [idle_of_exec (n := 3) (by decide) final e (Nat.not_lt.mp named)] at running
      exact running rfl
  exact ⟨s, reached, gone, here, (owner_keeps_registered reached).2 1 1 register written here⟩

end Ulockmgr.Owner
