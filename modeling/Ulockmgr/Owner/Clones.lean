import Ulockmgr.Owner.Invariant

/-!
# Who holds a clone of which `FdData`

The map holds one for every entry, the loop holds one inside a handler that looked an
entry up, a worker from before its start until the end of its closure, and the thread
of an `Unregister` the one it took out of the map.  An entry is taken out once.
-/

namespace Ulockmgr.Owner

/-- An `Unregister` that found its registration. -/
def Request.Took (request : Request) : Prop :=
  task request.message = .unregister ∧ request.found = some true

/-- A `Register` that has put its `FdData` into the map, or was refused. -/
def Request.Registered (request : Request) : Prop :=
  task request.message = .register ∧ (request.pc = .reply ∨ request.pc = .finished)

theorem registered_stable {s : State} {a : Action} (enabled : Enabled s a) {r : RequestId}
    (registered : (s.request r).Registered) : ((next s a).request r).Registered := by
  obtain ⟨register, past⟩ := registered
  have running : (s.request r).pc ≠ .idle := by
    rcases past with past | past <;> rw [past] <;> decide
  exact ⟨by rw [message_next enabled running]; exact register, over_next enabled past⟩

theorem Request.Registered.not_allocating {s : State} {a : Action} (enabled : Enabled s a)
    {r : RequestId} (registered : (s.request r).Registered) :
    a ≠ .trackerNew r ∧ a ≠ .insertId r := by
  obtain ⟨_, past⟩ := registered
  constructor <;> rintro rfl <;> simp only [Enabled] at enabled <;>
    rcases past with past | past <;> rw [enabled] at past <;> cases past

structure Clones (s : State) : Prop where
  own : ∀ e, (s.request e).pc = .fetchId ∨ (s.request e).pc = .insertId → (s.request e).data = e
  found : ∀ e, (s.request e).found = some true → (s.request (s.request e).data).Registered
  registered : ∀ id r, s.descriptors id = some r → (s.request r).Registered
  injective : ∀ id id' r, s.descriptors id = some r → s.descriptors id' = some r → id = id'
  taken : ∀ e, (s.request e).Took → ∀ id, s.descriptors id ≠ some (s.request e).data
  once : ∀ e e', (s.request e).Took → (s.request e').Took →
    (s.request e).data = (s.request e').data → e = e'
  map : ∀ id r, s.descriptors id = some r → .map ∈ (s.data r).holders
  busy : ∀ e, s.loop = .busy e → (s.request e).pc.LoopHolds (s.request e).found →
    .loop ∈ (s.dataOf e).holders
  past : ∀ e, s.loop = .awaiting e ∨ s.loop = .releasing e → .loop ∈ (s.dataOf e).holders
  worker : ∀ e, (s.request e).pc.WorkerHolds → .worker e ∈ (s.dataOf e).holders
  unregister : ∀ e, (s.request e).pc.UnregisterHolds → .unregister e ∈ (s.dataOf e).holders

theorem clones_initial : Clones initial := by
  constructor <;>
    simp [initial, Request.idle, Pc.LoopHolds, Pc.WorkerHolds, Pc.UnregisterHolds,
      Request.Took, task]

section ClonesStep
variable {s : State} {a : Action} (served : Served s) (inv : Clones s) (enabled : Enabled s a)
include served inv enabled

omit served in
theorem Clones.own_next (e : RequestId)
    (allocates : ((next s a).request e).pc = .fetchId ∨ ((next s a).request e).pc = .insertId) :
    ((next s a).request e).data = e := by
  have old := inv.own e
  revert allocates
  cases a <;> simp only [Enabled] at enabled <;> simp only [next] <;> (repeat' split) <;> grind

theorem Clones.found_next (e : RequestId) (found : ((next s a).request e).found = some true) :
    ((next s a).request ((next s a).request e).data).Registered := by
  apply registered_stable enabled
  rcases found_cases served enabled found with ⟨known, same⟩ | ⟨bound, _⟩
  · rw [same]
    exact inv.found e known
  · exact inv.registered _ _ bound

theorem Clones.registered_next (id : UInt64) (r : RequestId)
    (bound : (next s a).descriptors id = some r) : ((next s a).request r).Registered := by
  rcases descriptors_cases bound with ⟨old, _⟩ | ⟨rfl, _, vacant⟩
  · exact registered_stable enabled (inv.registered id r old)
  · have serves := served.serves r
    simp only [Enabled] at enabled
    grind [next, Pc.Serves, Request.Registered]

omit served in
theorem Clones.injective_next (id id' : UInt64) (r : RequestId)
    (bound : (next s a).descriptors id = some r) (bound' : (next s a).descriptors id' = some r) :
    id = id' := by
  rcases descriptors_cases bound with ⟨old, _⟩ | ⟨inserts, same, _⟩ <;>
    rcases descriptors_cases bound' with ⟨old', _⟩ | ⟨inserts', same', _⟩
  · exact inv.injective id id' r old old'
  · exact ((inv.registered id r old).not_allocating enabled).2 inserts' |>.elim
  · exact ((inv.registered id' r old').not_allocating enabled).2 inserts |>.elim
  · exact same.symm.trans same'

omit inv in
/-- An `Unregister` took its registration before, or takes it in this step. -/
theorem took_cases (e : RequestId) (took : ((next s a).request e).Took) :
    (s.request e).Took ∧ ((next s a).request e).data = (s.request e).data ∨
      s.descriptors (s.request e).message.id = some ((next s a).request e).data ∧
        a = .mapRemove e := by
  obtain ⟨unregister, found⟩ := took
  have taken : (s.request e).pc ≠ .idle := by
    intro idle
    have none_ := served.early e (by rw [idle]; trivial)
    rcases found_cases served enabled found with ⟨known, _⟩ | ⟨_, rfl | rfl⟩
    · rw [none_] at known
      cases known
    · simp only [Enabled, idle] at enabled
      cases enabled
    · simp only [Enabled, idle] at enabled
      cases enabled
  rw [message_next enabled taken] at unregister
  rcases found_cases served enabled found with ⟨known, same⟩ | ⟨bound, rfl | removes⟩
  · exact .inl ⟨⟨unregister, known⟩, same⟩
  · have locks := served.serves e taken
    simp only [Enabled] at enabled
    rw [enabled, unregister] at locks
    exact locks.elim
  · exact .inr ⟨bound, removes⟩

theorem Clones.taken_next (e : RequestId) (took : ((next s a).request e).Took) (id : UInt64) :
    (next s a).descriptors id ≠ some ((next s a).request e).data := by
  intro bound
  rcases took_cases served enabled e took with ⟨earlier, same⟩ | ⟨held, removes⟩ <;>
    rcases descriptors_cases bound with ⟨old, kept⟩ | ⟨inserts, _, _⟩
  · rw [same] at old
    exact inv.taken e earlier id old
  · rw [same] at inserts
    exact ((inv.found e earlier.2).not_allocating enabled).2 inserts
  · exact kept e removes (inv.injective _ _ _ held old)
  · rw [removes] at inserts
    cases inserts

theorem Clones.once_next (e e' : RequestId) (took : ((next s a).request e).Took)
    (took' : ((next s a).request e').Took)
    (same : ((next s a).request e).data = ((next s a).request e').data) : e = e' := by
  rcases took_cases served enabled e took with ⟨earlier, data⟩ | ⟨held, removes⟩ <;>
    rcases took_cases served enabled e' took' with ⟨earlier', data'⟩ | ⟨held', removes'⟩
  · exact inv.once e e' earlier earlier' (data.symm.trans (same.trans data'))
  · rw [← same, data] at held'
    exact (inv.taken e earlier _ held').elim
  · rw [same, data'] at held
    exact (inv.taken e' earlier' _ held).elim
  · rw [removes] at removes'
    cases removes'
    rfl

omit served in
theorem Clones.map_next (id : UInt64) (r : RequestId)
    (bound : (next s a).descriptors id = some r) : .map ∈ ((next s a).data r).holders := by
  rcases descriptors_cases bound with ⟨old, kept⟩ | ⟨rfl, same, vacant⟩
  · apply holders_next (inv.map id r old)
    intro drops
    rcases drops_map drops with new | ⟨e, removes, other⟩
    · exact ((inv.registered id r old).not_allocating enabled).1 new
    · exact kept e removes (inv.injective _ _ _ other old)
  · simp [next, same, vacant]

theorem Clones.worker_next (e : RequestId) (holds : ((next s a).request e).pc.WorkerHolds) :
    .worker e ∈ ((next s a).dataOf e).holders := by
  have origin : (s.request e).pc.WorkerHolds ∧
      ((next s a).request e).data = (s.request e).data ∨ a = .spawn e := by
    revert holds
    cases a <;> simp only [Enabled] at enabled <;> simp only [next] <;> (repeat' split) <;>
      grind [Pc.WorkerHolds]
  rcases origin with ⟨held, same⟩ | rfl
  · rw [State.dataOf, same]
    apply holders_next (inv.worker e held)
    intro drops
    rcases drops_worker drops with new | rfl | rfl
    · exact ((inv.found e (served.found e held.found)).not_allocating enabled).1 new
    · simp [next, Pc.WorkerHolds] at holds
    · simp [next, Pc.WorkerHolds] at holds
  · simp [next]

theorem Clones.unregister_next (e : RequestId)
    (holds : ((next s a).request e).pc.UnregisterHolds) :
    .unregister e ∈ ((next s a).dataOf e).holders := by
  have origin : (s.request e).pc.UnregisterHolds ∧
      ((next s a).request e).data = (s.request e).data ∨
        a = .mapRemove e ∧ ∃ r, s.descriptors (s.request e).message.id = some r := by
    revert holds
    cases a <;> simp only [Enabled] at enabled <;> simp only [next] <;> (repeat' split) <;>
      grind [Pc.UnregisterHolds]
  rcases origin with ⟨held, same⟩ | ⟨rfl, r, bound⟩
  · rw [State.dataOf, same]
    apply holders_next (inv.unregister e held)
    intro drops
    rcases drops_unregister drops with new | rfl
    · exact ((inv.found e (served.found e held.found)).not_allocating enabled).1 new
    · simp [next, Pc.UnregisterHolds] at holds
  · simp [next, bound]

theorem Clones.past_next (e : RequestId)
    (past : (next s a).loop = .awaiting e ∨ (next s a).loop = .releasing e) :
    .loop ∈ ((next s a).dataOf e).holders := by
  have origin : (s.loop = .awaiting e ∨ s.loop = .releasing e ∨
      s.loop = .busy e ∧ (s.request e).pc.LoopHolds (s.request e).found) ∧
        ((next s a).request e).data = (s.request e).data ∧
          ∀ x, a ≠ .trackerNew x ∧ a ≠ .insertId x ∧ a ≠ .release x := by
    have onLoop := served.onLoop a.actor
    have early := served.early e
    have outside := served.past e
    revert past
    cases a with
    | reply e' =>
        simp only [Enabled, Action.actor] at enabled onLoop
        rcases s.afterReply_cases e' with ⟨_, same⟩ | ⟨_, _, same⟩ | ⟨_, _, same⟩ <;>
          simp only [next, same] <;> grind [Pc.LoopHolds, Pc.OnLoop, Task.Locks]
    | _ =>
        simp only [Enabled, Action.actor] at enabled onLoop
        simp only [next]
        (repeat' split) <;> grind [Pc.LoopHolds, Pc.OnLoop, Pc.Early]
  obtain ⟨before, same, other⟩ := origin
  rw [State.dataOf, same]
  have held : .loop ∈ (s.dataOf e).holders := by
    rcases before with awaiting | releasing | ⟨busy, holds⟩
    · exact inv.past e (.inl awaiting)
    · exact inv.past e (.inr releasing)
    · exact inv.busy e busy holds
  apply holders_next held
  intro drops
  rcases drops_loop drops with new | ⟨inserts, _⟩ | ⟨x, released, _⟩
  · exact (other _).1 new
  · exact (other _).2.1 inserts
  · exact (other x).2.2 released

theorem Clones.busy_next (e : RequestId) (busy : (next s a).loop = .busy e)
    (holds : ((next s a).request e).pc.LoopHolds ((next s a).request e).found) :
    .loop ∈ ((next s a).dataOf e).holders := by
  have origin : (s.loop = .busy e ∧ (s.request e).pc.LoopHolds (s.request e).found ∧
      ((next s a).request e).data = (s.request e).data ∧
        ∀ x, a ≠ .trackerNew x ∧ a ≠ .release x ∧
          (a = .insertId x → s.descriptors (s.request x).id ≠ none)) ∨
      a = .trackerNew e ∨ a = .mapGet e ∧ ∃ r, s.descriptors (s.request e).message.id = some r := by
    have onLoop := served.onLoop a.actor
    have early := served.early e
    have runs := served.busy e
    revert busy holds
    cases a with
    | reply e' =>
        simp only [Enabled, Action.actor] at enabled onLoop
        rcases s.afterReply_cases e' with ⟨_, same⟩ | ⟨_, _, same⟩ | ⟨_, _, same⟩ <;>
          simp only [next, same] <;> grind [Pc.LoopHolds, Pc.OnLoop]
    | _ =>
        simp only [Enabled, Action.actor] at enabled onLoop
        simp only [next]
        (repeat' split) <;> grind [Pc.LoopHolds, Pc.OnLoop, Pc.Early, Request.idle]
  rcases origin with ⟨before, held, same, other⟩ | rfl | ⟨rfl, r, bound⟩
  · rw [State.dataOf, same]
    apply holders_next (inv.busy e before held)
    intro drops
    rcases drops_loop drops with new | ⟨inserts, vacant⟩ | ⟨x, released, _⟩
    · exact (other _).1 new
    · exact (other _).2.2 inserts vacant
    · exact (other x).2.1 released
  · simp [next]
  · simp [next, bound]

end ClonesStep

theorem clones_next {s : State} {a : Action} (served : Served s) (inv : Clones s)
    (enabled : Enabled s a) : Clones (next s a) where
  own := inv.own_next enabled
  found := inv.found_next served enabled
  registered := inv.registered_next served enabled
  injective := inv.injective_next enabled
  taken := inv.taken_next served enabled
  once := inv.once_next served enabled
  map := inv.map_next enabled
  busy := inv.busy_next served enabled
  past := inv.past_next served enabled
  worker := inv.worker_next served enabled
  unregister := inv.unregister_next served enabled

theorem reachable_clones {s : State} (reached : machine.Reachable s) : Clones s := by
  have both : Served s ∧ Clones s := by
    apply reached.invariant
    · rintro _ rfl
      exact ⟨served_initial, clones_initial⟩
    · rintro state label ⟨served, clones⟩ enabled
      exact ⟨served_next served enabled, clones_next served clones enabled⟩
  exact both.2

end Ulockmgr.Owner
