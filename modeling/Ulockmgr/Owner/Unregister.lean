import Ulockmgr.Owner.Clones

/-!
# Unregistration is complete before it is acknowledged

The thread of an `Unregister` takes the entry out of the map, so nobody new finds it;
it waits until it is the last holder of a clone; from then on nobody can get one, since
every new clone is made from an existing one.  The descriptor is closed with the last
clone, before the reply.
-/

namespace Ulockmgr.Owner

/-! ## The last holder -/

/-- A clone is made of an `FdData` that is new or registered. -/
theorem registered_of_gives {s : State} {a : Action} {h : Holder} {r : RequestId}
    (served : Served s) (clones : Clones s) (enabled : Enabled s a) (gives : a.Gives s h r) :
    a = .trackerNew r ∨ a = .insertId r ∨ (s.request r).Registered := by
  cases a with
  | trackerNew e => exact .inl (by rw [gives.1])
  | insertId e => exact .inr (.inl (by rw [gives.1]))
  | mapGet e => exact .inr (.inr (clones.registered _ _ gives.1))
  | mapRemove e => exact .inr (.inr (clones.registered _ _ gives.1))
  | spawn e =>
      have found := clones.found e (served.found e (by rw [enabled]; trivial))
      rw [gives.1] at found
      exact .inr (.inr found)
  | _ => exact gives.elim

/-- Clones are made from the clone of the map or of the loop. -/
theorem held_of_gives {s : State} {a : Action} {h : Holder} {r : RequestId} (served : Served s)
    (clones : Clones s) (enabled : Enabled s a) (gives : a.Gives s h r)
    (old : a ≠ .trackerNew r) : .map ∈ (s.data r).holders ∨ .loop ∈ (s.data r).holders := by
  have onLoop : ∀ e, (s.request e).pc.OnLoop (task (s.request e).message) →
      (s.request e).pc.LoopHolds (s.request e).found → (s.request e).data = r →
        .loop ∈ (s.data r).holders := by
    rintro e runs holds rfl
    exact clones.busy e (served.onLoop e runs) holds
  cases a with
  | trackerNew e => exact (old (by rw [gives.1])).elim
  | insertId e =>
      have own := clones.own e (.inr enabled)
      exact .inr (onLoop e (by rw [enabled]; trivial) (by rw [enabled]; trivial)
        (own.trans gives.1))
  | mapGet e => exact .inl (clones.map _ _ gives.1)
  | mapRemove e => exact .inl (clones.map _ _ gives.1)
  | spawn e =>
      exact .inr (onLoop e (by rw [enabled]; trivial) (by rw [enabled]; trivial) gives.1)
  | _ => exact gives.elim

/-- An `FdData` that was dropped stays dropped. -/
theorem dropped_stable {s : State} {a : Action} {r : RequestId} (served : Served s)
    (clones : Clones s) (enabled : Enabled s a) (registered : (s.request r).Registered)
    (dropped : (s.data r).holders = ∅) : ((next s a).data r).holders = ∅ := by
  apply Finset.eq_empty_of_forall_notMem
  intro h held
  rcases holders_cases held with old | gives
  · rw [dropped] at old
    exact Finset.notMem_empty _ old
  · have established := (registered.not_allocating enabled).1
    have source := held_of_gives served clones enabled gives established
    rw [dropped] at source
    rcases source with wrong | wrong <;> exact Finset.notMem_empty _ wrong

structure LastHolder (s : State) : Prop where
  alone : ∀ e, (s.request e).pc = .dropData → (s.dataOf e).holders = {.unregister e}
  dropped : ∀ e, (s.request e).Took → (s.request e).pc = .reply ∨ (s.request e).pc = .finished →
    (s.dataOf e).holders = ∅

section LastHolderStep
variable {s : State} {a : Action} (served : Served s) (clones : Clones s) (inv : LastHolder s)
  (enabled : Enabled s a)
include served clones inv enabled

theorem LastHolder.alone_next (e : RequestId) (drops : ((next s a).request e).pc = .dropData) :
    ((next s a).dataOf e).holders = {.unregister e} := by
  have origin : ((s.request e).pc = .dropData ∧
      ((next s a).request e).data = (s.request e).data) ∨ a = .refcount e := by
    revert drops
    cases a <;> simp only [Enabled] at enabled <;> simp only [next] <;> (repeat' split) <;> grind
  rcases origin with ⟨before, same⟩ | rfl
  · have kept := clones.unregister_next served enabled e (by rw [drops]; trivial)
    have registered := clones.found e (served.found e (by rw [before]; trivial))
    apply Finset.eq_singleton_iff_unique_mem.mpr
    refine ⟨kept, ?_⟩
    intro h held
    rw [State.dataOf, same] at held
    have old := inv.alone e before
    rcases holders_cases held with earlier | gives
    · rw [State.dataOf] at old
      rw [old] at earlier
      exact Finset.mem_singleton.mp earlier
    · have established := (registered.not_allocating enabled).1
      have source := held_of_gives served clones enabled gives established
      rw [State.dataOf] at old
      rw [old] at source
      rcases source with wrong | wrong <;> cases Finset.mem_singleton.mp wrong
  · -- the reference count was 1, and the thread itself holds a clone
    obtain ⟨waits, one⟩ := enabled
    obtain ⟨h, only⟩ := Finset.card_eq_one.mp one
    have own := clones.unregister e (by rw [waits]; trivial)
    rw [only] at own
    rw [Finset.mem_singleton.mp own]
    simpa [next] using only

theorem LastHolder.dropped_next (e : RequestId) (took : ((next s a).request e).Took)
    (completed : ((next s a).request e).pc = .reply ∨ ((next s a).request e).pc = .finished) :
    ((next s a).dataOf e).holders = ∅ := by
  have origin : ((s.request e).pc = .reply ∨ (s.request e).pc = .finished) ∧
      ((next s a).request e).data = (s.request e).data ∧ (s.request e).Took ∨
        a = .dropData e := by
    by_cases own : e = a.actor
    · subst own
      have serves := served.serves a.actor
      have early := served.early a.actor
      revert took completed
      cases a <;> simp only [Enabled, Action.actor] at enabled serves early ⊢ <;>
        simp only [next] <;> (repeat' split) <;>
        grind [Pc.Serves, Pc.Early, Request.Took, Request.idle]
    · rw [request_next_of_ne s own] at took completed ⊢
      exact .inl ⟨completed, rfl, took⟩
  rcases origin with ⟨before, same, earlier⟩ | rfl
  · rw [State.dataOf, same]
    exact dropped_stable served clones enabled (clones.found e earlier.2)
      (inv.dropped e earlier before)
  · have only := inv.alone e enabled
    rw [State.dataOf] at only
    simp [next, only]

end LastHolderStep

theorem reachable_lastHolder {s : State} (reached : machine.Reachable s) :
    Served s ∧ Clones s ∧ LastHolder s := by
  apply reached.invariant
  · rintro _ rfl
    refine ⟨served_initial, clones_initial, ?_, ?_⟩ <;>
      simp [initial, Request.idle, Request.Took, task]
  · rintro state label ⟨served, clones, inv⟩ enabled
    exact ⟨served_next served enabled, clones_next served clones enabled,
      inv.alone_next served clones enabled, inv.dropped_next served clones enabled⟩

/-! ## The acknowledgement -/

/-- The `Ok` reply to an `Unregister` is written, or is the next thing its thread does. -/
def Acknowledged (s : State) (e : RequestId) : Prop :=
  task (s.request e).message = .unregister ∧
    ((s.request e).pc = .reply ∧ (s.request e).out = .ok .unit ∨
      .ok .unit ∈ (s.request e).replies)

/-- An `Unregister` that is answered `Ok` found its registration. -/
def Replies (s : State) : Prop := ∀ e, Acknowledged s e → (s.request e).Took

theorem replies_next {s : State} {a : Action} (served : Served s) (inv : Replies s)
    (enabled : Enabled s a) : Replies (next s a) := by
  intro e acknowledged
  by_cases own : e = a.actor
  · subst own
    have old := inv a.actor
    have fresh := served.silent a.actor
    have serves := served.serves a.actor
    have found := served.found a.actor
    revert acknowledged
    cases a <;> simp only [Enabled, Action.actor] at enabled old fresh serves found ⊢ <;>
      simp only [next] <;> (repeat' split) <;>
      grind [Pc.Serves, Pc.Found, Acknowledged, Request.Took, Request.idle, Task.handler]
  · rw [Acknowledged, request_next_of_ne s own] at acknowledged
    rw [request_next_of_ne s own]
    exact inv e acknowledged

theorem acknowledged_stable {s : State} {a : Action} (served : Served s) (inv : Replies s)
    (enabled : Enabled s a) {e : RequestId} (acknowledged : Acknowledged s e) :
    Acknowledged (next s a) e ∧ ((next s a).request e).data = (s.request e).data := by
  by_cases own : e = a.actor
  · subst own
    have fresh := served.silent a.actor
    have took := inv a.actor acknowledged
    have early := served.early a.actor
    revert acknowledged
    cases a <;> simp only [Enabled, Action.actor] at enabled fresh took early ⊢ <;>
      simp only [next] <;> (repeat' split) <;> grind [Pc.Early, Acknowledged, Request.Took]
  · rw [Acknowledged, request_next_of_ne s own]
    exact ⟨acknowledged, rfl⟩

/-! ## The IDs of registrations -/

/-- The `Register` request `r` is answered with `id`. -/
def Request.AnsweredWith (request : Request) (id : UInt64) : Prop :=
  request.Registered ∧ request.out = .ok (.register id)

structure Answered (s : State) : Prop where
  map : ∀ id r, s.descriptors id = some r → (s.request r).AnsweredWith id
  taken : ∀ e, (s.request e).Took →
    (s.request (s.request e).data).AnsweredWith (s.request e).message.id

theorem answeredWith_stable {s : State} {a : Action} (enabled : Enabled s a) {r : RequestId}
    {id : UInt64} (answered : (s.request r).AnsweredWith id) :
    ((next s a).request r).AnsweredWith id := by
  refine ⟨registered_stable enabled answered.1, ?_⟩
  obtain ⟨⟨register, past⟩, out⟩ := answered
  cases a <;> simp only [Enabled] at enabled <;> simp only [next] <;> (repeat' split) <;> grind

theorem answered_next {s : State} {a : Action} (served : Served s) (clones : Clones s)
    (inv : Answered s) (enabled : Enabled s a) : Answered (next s a) where
  map id r bound := by
    have registered := clones.registered_next served enabled id r bound
    rcases descriptors_cases bound with ⟨old, _⟩ | ⟨rfl, same, vacant⟩
    · exact answeredWith_stable enabled (inv.map id r old)
    · refine ⟨registered, ?_⟩
      simp [next, vacant, same]
  taken e took := by
    have running : (s.request e).pc ≠ .idle := by
      intro idle
      have none_ := served.early e (by rw [idle]; trivial)
      rcases took_cases served enabled e took with ⟨earlier, _⟩ | ⟨_, rfl⟩
      · rw [earlier.2] at none_
        cases none_
      · simp only [Enabled, idle] at enabled
        cases enabled
    rw [message_next enabled running]
    apply answeredWith_stable enabled
    rcases took_cases served enabled e took with ⟨earlier, same⟩ | ⟨bound, _⟩
    · rw [same]
      exact inv.taken e earlier
    · exact inv.map _ _ bound

/-! ## The results -/

/-- The step makes an `fcntl` call on the descriptor of `r`, or starts a worker for it. -/
def Action.Uses (s : State) (r : RequestId) : Action → Prop
  | .getlk e _ | .setlk e _ | .firstTry e _ | .setlkw e _ | .spawn e | .track e =>
      (s.request e).data = r
  | _ => False

/-- Whoever uses an `FdData` holds a clone of it. -/
theorem held_of_uses {s : State} {a : Action} {r : RequestId} (served : Served s)
    (clones : Clones s) (enabled : Enabled s a) (uses : a.Uses s r) :
    (s.data r).holders ≠ ∅ := by
  have onLoop : ∀ e, (s.request e).pc.OnLoop (task (s.request e).message) →
      (s.request e).pc.LoopHolds (s.request e).found → (s.request e).data = r →
        (s.data r).holders ≠ ∅ := by
    rintro e runs holds rfl
    exact Finset.ne_empty_of_mem (clones.busy e (served.onLoop e runs) holds)
  have onWorker : ∀ e, (s.request e).pc.WorkerHolds → (s.request e).data = r →
      (s.data r).holders ≠ ∅ := by
    rintro e holds rfl
    exact Finset.ne_empty_of_mem (clones.worker e holds)
  cases a with
  | getlk e _ => exact onLoop e (by rw [enabled]; trivial) (by rw [enabled]; trivial) uses
  | setlk e _ => exact onLoop e (by rw [enabled.1]; trivial) (by rw [enabled.1]; trivial) uses
  | spawn e => exact onLoop e (by rw [enabled]; trivial) (by rw [enabled]; trivial) uses
  | track e => exact onWorker e (by rw [enabled]; trivial) uses
  | firstTry e _ => exact onWorker e (by rw [enabled.1]; trivial) uses
  | setlkw e _ => exact onWorker e (by rw [enabled.1]; trivial) uses
  | _ => exact uses.elim

/-- What holds once `Ok` is the answer to the `Unregister` request `e`, which took the
registration `(s.request e).data` out of the map. -/
structure Complete (s : State) (e : RequestId) : Prop where
  registration : (s.request (s.request e).data).AnsweredWith (s.request e).message.id
  /-- No clone is alive, so the descriptor is closed. -/
  dropped : (s.dataOf e).holders = ∅
  unused : ∀ a, Enabled s a → ¬ a.Uses s (s.request e).data
  stays : ∀ a, Enabled s a →
    Acknowledged (next s a) e ∧ ((next s a).request e).data = (s.request e).data
  unique : ∀ e', Acknowledged s e' → (s.request e').data = (s.request e).data → e' = e

/-- The handler of `e` leaves the entries of all other IDs and their `FdData` alone. -/
def LeavesOthers (s : State) (e : RequestId) : Prop :=
  ∀ a, Enabled s a → a.actor = e → ∀ id, id ≠ (s.request e).message.id →
    (next s a).descriptors id = s.descriptors id ∧
      ∀ r, s.descriptors id = some r → (next s a).data r = s.data r

theorem leavesOthers {s : State} (served : Served s) (clones : Clones s) {e : RequestId}
    (unregister : task (s.request e).message = .unregister) (running : (s.request e).pc ≠ .idle) :
    LeavesOthers s e := by
  rintro a enabled rfl id other
  have serves := served.serves a.actor running
  have found := served.found a.actor
  have taken := clones.taken a.actor
  have single := clones.injective id
  have past := served.past a.actor
  refine ⟨?_, ?_⟩
  · cases a <;> simp only [Enabled, Action.actor] at enabled unregister serves other ⊢ <;>
      simp only [next] <;> (repeat' split) <;> grind [Pc.Serves]
  · intro r bound
    clear served clones
    cases a <;> simp only [Enabled, Action.actor] at * <;> simp only [next] <;>
      (repeat' split) <;> grind [Pc.Serves, Pc.Found, Request.Took]

theorem reachable_unregister {s : State} (reached : machine.Reachable s) :
    Replies s ∧ Answered s := by
  have all : (Served s ∧ Clones s) ∧ Replies s ∧ Answered s := by
    apply reached.invariant
    · rintro _ rfl
      refine ⟨⟨served_initial, clones_initial⟩, ?_, ?_, ?_⟩ <;>
        simp [initial, Request.idle, Request.Took, Replies, Acknowledged, task]
    · rintro state label ⟨⟨served, clones⟩, replies, answered⟩ enabled
      exact ⟨⟨served_next served enabled, clones_next served clones enabled⟩,
        replies_next served replies enabled, answered_next served clones answered enabled⟩
  exact all.2

end Ulockmgr.Owner
