import Ulockmgr.Lockables
import Ulockmgr.Owner.Grants
import Ulockmgr.Owner.Reading

/-!
# Whose registrations are whose

Every `Lockable` has its own entry in the map of the owner, from the answer to its `Register` on.
Since only its own `drop` asks for the entry to be taken out, and asks once, every `Unregister`
finds an entry, and the one it finds is the right one.
-/

namespace Ulockmgr.Owner

/-! ## Registrations -/

theorem answeredWith_cases {s : State} {a : Action} (served : Served s) (enabled : Enabled s a)
    {r : RequestId} {id : UInt64} (answered : ((next s a).request r).AnsweredWith id) :
    (s.request r).AnsweredWith id ∨
      a = .insertId r ∧ (next s a).descriptors id = some r := by
  by_cases own : r = a.actor
  · subst own
    have serves := served.serves a.actor
    revert answered
    cases a with
    | recv e message =>
        simp only [next, Action.actor, State.setLoop_request, State.setRequest_request, if_pos]
        rintro ⟨⟨register, place⟩, _⟩
        simp [show task message = .register from register, Task.handler] at place
    | _ =>
        simp only [Enabled, Action.actor] at enabled serves ⊢
        simp only [next]
        (repeat' split) <;> grind [Pc.Serves, Task.Locks, Request.AnsweredWith, Request.Registered]
  · rw [request_next_of_ne s own] at answered
    exact .inl answered

/-- The answer to a `Register` that can be read is the one that was given. -/
theorem answeredWith_of_read {s : State} (reached : machine.Reachable s) {r : RequestId}
    {id : UInt64} (written : .ok (.register id) ∈ (s.request r).replies) :
    (s.request r).AnsweredWith id := by
  have kind := (reachable_typed reached r).replies _ written
  have register : task (s.request r).message = .register := by
    cases same : task (s.request r).message <;> rw [same] at kind <;> first | rfl | cases kind
  rcases reachable_once reached r (by rw [register]; decide) with nothing | ⟨one, finished⟩
  · rw [nothing] at written
    cases written
  · rw [one, List.mem_singleton] at written
    exact ⟨⟨register, .inr finished⟩, written.symm⟩

/-- An `Unregister` finds no entry only when there is none. -/
theorem missed_cases {s : State} {a : Action} (served : Served s) (enabled : Enabled s a)
    {e : RequestId} (unregister : task ((next s a).request e).message = .unregister)
    (missed : ((next s a).request e).found = some false) :
    task (s.request e).message = .unregister ∧ (s.request e).found = some false ∨
      a = .mapRemove e ∧ s.descriptors (s.request e).message.id = none := by
  by_cases own : e = a.actor
  · subst own
    have serves := served.serves a.actor
    revert unregister missed
    cases a <;> simp only [Enabled, Action.actor] at enabled serves ⊢ <;> simp only [next] <;>
      (repeat' split) <;> grind [Pc.Serves, Task.Locks, Request.idle]
  · rw [request_next_of_ne s own] at unregister missed
    exact .inl ⟨unregister, missed⟩

/-- An `Unregister` comes to its end through the map, or because its thread was not started. -/
def Looked (s : State) : Prop :=
  ∀ e, task (s.request e).message = .unregister →
    (s.request e).pc = .reply ∨ (s.request e).pc = .finished →
      (s.request e).found ≠ none ∨ s.loop = .ended

theorem looked_next {s : State} {a : Action} (served : Served s) (inv : Looked s)
    (enabled : Enabled s a) : Looked (next s a) := by
  intro e unregister done
  by_cases ended : s.loop = .ended
  · exact .inr (served.ended_next enabled ended)
  · by_cases own : e = a.actor
    · subst own
      have old := inv a.actor
      have serves := served.serves a.actor
      have found := served.found a.actor
      revert unregister done
      cases a <;> simp only [Enabled, Action.actor] at enabled old serves found ⊢ <;>
        simp only [next] <;> (repeat' split) <;>
        grind [Pc.Serves, Pc.Found, Task.handler, Task.Locks]
    · rw [request_next_of_ne s own] at unregister done ⊢
      exact .inl ((inv e unregister done).resolve_right ended)

theorem reachable_looked {s : State} (reached : machine.Reachable s) : Looked s := by
  have both : Served s ∧ Looked s := by
    apply reached.invariant
    · rintro _ rfl
      refine ⟨served_initial, ?_⟩
      rintro e unregister
      cases unregister
    · rintro state label ⟨served, inv⟩ enabled
      exact ⟨served_next served enabled, looked_next served inv enabled⟩
  exact both.2

/-- What was taken stays taken. -/
theorem took_stays {s : State} {a : Action} (served : Served s) (enabled : Enabled s a)
    {e : RequestId} (took : (s.request e).Took) :
    ((next s a).request e).Took ∧ ((next s a).request e).data = (s.request e).data := by
  have running : (s.request e).pc ≠ .idle := by
    intro idle
    have early := served.early e (by rw [idle]; trivial)
    rw [took.2] at early
    cases early
  obtain ⟨found, data⟩ := found_stays served enabled took.2
  exact ⟨⟨by rw [message_next enabled running]; exact took.1, found⟩, data⟩

end Ulockmgr.Owner

namespace Ulockmgr.Lockables

open Owner (RequestId Request task)

/-- The request that was sent to drop the `Lockable`. -/
def Pc.request : Pc → Option RequestId
  | .awaiting e | .dropped (.replied e) | .dropped (.interrupted e) => some e
  | .absent | .held | .dropped .unsent => none

structure Custody (s : State) : Prop where
  owner : Owner.machine.Reachable s.owner
  named : ∀ r, (s.lockable r).pc ≠ .absent →
    (s.owner.request r).AnsweredWith (s.lockable r).id
  drops : ∀ e r, s.drops e = some r ↔ (s.lockable r).pc.request = some e
  carries : ∀ e r, s.drops e = some r → (s.owner.request e).pc = .idle ∨
    (s.owner.request e).message = .unregister (s.lockable r).id
  sent : ∀ e, task (s.owner.request e).message = .unregister → ∃ r, s.drops e = some r
  entry : ∀ r id, (s.owner.request r).AnsweredWith id →
    s.owner.descriptors id = some r ∨ ∃ e, s.drops e = some r ∧ (s.owner.request e).Took
  taken : ∀ e r, s.drops e = some r → (s.owner.request e).Took → (s.owner.request e).data = r
  present : ∀ e, task (s.owner.request e).message = .unregister →
    (s.owner.request e).found ≠ some false
  replied : ∀ r e, (s.lockable r).pc = .dropped (.replied e) → (s.owner.request e).pc = .finished

theorem custody_initial : Custody initial where
  owner := .initial rfl
  named r held := (held rfl).elim
  drops e r := by simp [initial, Pc.request]
  carries e r sent := nomatch sent
  sent e unregister := nomatch unregister
  entry r id answered := nomatch answered.1.1
  taken e r sent := nomatch sent
  present e unregister := nomatch unregister
  replied r e replied := nomatch replied

/-! ## Steps of the owner -/

/-- The owner receives `Unregister` requests from `drop` only. -/
def State.Mail (s : State) (a : Owner.Action) : Prop :=
  ∀ e message, a = .recv e message →
    s.drops e = none ∧ task message ≠ .unregister ∨
      ∃ r, s.drops e = some r ∧ message = .unregister (s.lockable r).id

section OwnerStep
variable {s : State} {a : Owner.Action} (inv : Custody s) (enabled : Owner.Enabled s.owner a)
  (mail : s.Mail a)
include inv enabled

/-- The `drop` of a `Lockable` finds its entry. -/
theorem Custody.finds {e r : RequestId} (sent : s.drops e = some r) (removes : a = .mapRemove e) :
    s.owner.descriptors (s.owner.request e).message.id = some r := by
  subst removes
  have place : (s.owner.request e).pc = .mapRemove := enabled
  have untaken : ¬ (s.owner.request e).Took := by
    intro took
    have early := (Owner.reachable_served inv.owner).early e (by rw [place]; trivial)
    rw [took.2] at early
    cases early
  have message : (s.owner.request e).message = .unregister (s.lockable r).id := by
    rcases inv.carries e r sent with idle | message
    · rw [place] at idle
      cases idle
    · exact message
  have held : (s.lockable r).pc ≠ .absent := by
    intro absent
    have request := (inv.drops e r).mp sent
    rw [absent] at request
    cases request
  rw [message]
  rcases inv.entry r _ (inv.named r held) with bound | ⟨e', other, took⟩
  · exact bound
  · have same : some e' = some e :=
      ((inv.drops e' r).mp other).symm.trans ((inv.drops e r).mp sent)
    cases same
    exact (untaken took).elim

theorem Custody.named_owner (r : RequestId) (held : (s.lockable r).pc ≠ .absent) :
    ((Owner.next s.owner a).request r).AnsweredWith (s.lockable r).id :=
  Owner.answeredWith_stable enabled (inv.named r held)

theorem Custody.replied_owner (r e : RequestId)
    (replied : (s.lockable r).pc = .dropped (.replied e)) :
    ((Owner.next s.owner a).request e).pc = .finished :=
  (Owner.finished_replies enabled (inv.replied r e replied)).1

theorem Custody.entry_owner (r : RequestId) (id : UInt64)
    (answered : ((Owner.next s.owner a).request r).AnsweredWith id) :
    (Owner.next s.owner a).descriptors id = some r ∨
      ∃ e, s.drops e = some r ∧ ((Owner.next s.owner a).request e).Took := by
  have served := Owner.reachable_served inv.owner
  rcases Owner.answeredWith_cases served enabled answered with before | ⟨_, bound⟩
  · rcases inv.entry r id before with bound | ⟨e, sent, took⟩
    · rcases Owner.descriptors_next (a := a) bound with kept | ⟨e, rfl, same⟩
      · exact .inl kept
      · have place : (s.owner.request e).pc = .mapRemove := enabled
        have serves := served.serves e (by rw [place]; decide)
        rw [place] at serves
        obtain ⟨r', sent⟩ := inv.sent e serves
        have found := inv.finds enabled sent rfl
        rw [same, bound] at found
        cases found
        right
        refine ⟨e, sent, ?_, ?_⟩
        · rw [Owner.message_next enabled (by rw [place]; decide)]
          exact serves
        · simp [Owner.next, same, bound]
    · exact .inr ⟨e, sent, (Owner.took_stays served enabled took).1⟩
  · exact .inl bound

theorem Custody.taken_owner (e r : RequestId) (sent : s.drops e = some r)
    (took : ((Owner.next s.owner a).request e).Took) :
    ((Owner.next s.owner a).request e).data = r := by
  have served := Owner.reachable_served inv.owner
  rcases Owner.took_cases served enabled e took with ⟨before, same⟩ | ⟨bound, removes⟩
  · rw [same]
    exact inv.taken e r sent before
  · rw [inv.finds enabled sent removes] at bound
    cases bound
    rfl

theorem Custody.present_owner (e : RequestId)
    (unregister : task ((Owner.next s.owner a).request e).message = .unregister) :
    ((Owner.next s.owner a).request e).found ≠ some false := by
  intro missed
  have served := Owner.reachable_served inv.owner
  rcases Owner.missed_cases served enabled unregister missed with ⟨before, false_⟩ | ⟨rfl, none_⟩
  · exact inv.present e before false_
  · have place : (s.owner.request e).pc = .mapRemove := enabled
    have serves := served.serves e (by rw [place]; decide)
    rw [place] at serves
    obtain ⟨r, sent⟩ := inv.sent e serves
    rw [inv.finds enabled sent rfl] at none_
    cases none_

include mail

theorem Custody.carries_owner (e r : RequestId) (sent : s.drops e = some r) :
    ((Owner.next s.owner a).request e).pc = .idle ∨
      ((Owner.next s.owner a).request e).message = .unregister (s.lockable r).id := by
  by_cases idle : (s.owner.request e).pc = .idle
  · by_cases receives : ∃ message, a = .recv e message
    · obtain ⟨message, rfl⟩ := receives
      rcases mail e message rfl with ⟨nobody, _⟩ | ⟨r', sent', rfl⟩
      · rw [nobody] at sent
        cases sent
      · rw [sent] at sent'
        cases sent'
        right
        simp [Owner.next]
    · left
      exact Owner.idle_stays enabled (fun message same => receives ⟨message, same⟩) idle
  · right
    rw [Owner.message_next enabled idle]
    exact (inv.carries e r sent).resolve_left idle

theorem Custody.sent_owner (e : RequestId)
    (unregister : task ((Owner.next s.owner a).request e).message = .unregister) :
    ∃ r, s.drops e = some r := by
  by_cases idle : (s.owner.request e).pc = .idle
  · by_cases receives : ∃ message, a = .recv e message
    · obtain ⟨message, rfl⟩ := receives
      rcases mail e message rfl with ⟨_, other⟩ | ⟨r, sent, _⟩
      · exact (other (by simpa [Owner.next] using unregister)).elim
      · exact ⟨r, sent⟩
    · have still := Owner.idle_stays enabled (fun message same => receives ⟨message, same⟩) idle
      rw [Owner.reachable_idle (Owner.reachable_next inv.owner enabled) e still] at unregister
      cases unregister
  · rw [Owner.message_next enabled idle] at unregister
    exact inv.sent e unregister

theorem Custody.owner_next : Custody (s.setOwner (Owner.next s.owner a)) where
  owner := Owner.reachable_next inv.owner enabled
  named := inv.named_owner enabled
  drops := inv.drops
  carries := inv.carries_owner enabled mail
  sent := inv.sent_owner enabled mail
  entry := inv.entry_owner enabled
  taken := inv.taken_owner enabled
  present := inv.present_owner enabled
  replied := inv.replied_owner enabled

end OwnerStep

/-- Nothing but a `recv` brings mail. -/
theorem State.mail_fetch (s : State) (e : RequestId) (signal : Bool) :
    s.Mail (.fetch e signal) :=
  nofun

/-! ## Steps of the client -/

/-- A `Lockable` goes on, with the request it has sent or with none. -/
theorem Custody.setLockable {s : State} (inv : Custody s) {r : RequestId} {lockable : Lockable}
    (named : (s.owner.request r).AnsweredWith lockable.id)
    (request : lockable.pc.request = (s.lockable r).pc.request)
    (replied : ∀ e, lockable.pc = .dropped (.replied e) → (s.owner.request e).pc = .finished) :
    Custody (s.setLockable r lockable) where
  owner := inv.owner
  named x present := by
    by_cases same : x = r
    · rw [same]
      simpa using named
    · simpa [same] using inv.named x (by simpa [same] using present)
  drops e x := by
    by_cases same : x = r
    · rw [same]
      simpa [request] using inv.drops e r
    · simpa [same] using inv.drops e x
  carries e x sent := by
    by_cases same : x = r
    · subst same
      have held : (s.lockable x).pc ≠ .absent := by
        intro absent
        have sends := (inv.drops e x).mp sent
        rw [absent] at sends
        cases sends
      have id : lockable.id = (s.lockable x).id := by
        have out := named.2.symm.trans (inv.named x held).2
        simpa using out
      simpa [id] using inv.carries e x sent
    · simpa [same] using inv.carries e x sent
  sent := inv.sent
  entry := inv.entry
  taken := inv.taken
  present := inv.present
  replied x e place := by
    by_cases same : x = r
    · exact replied e (by simpa [same] using place)
    · exact inv.replied x e (by simpa [same] using place)

/-- `Owner::register` returns the ID under which the owner has the descriptor. -/
theorem Custody.registered {s : State} (inv : Custody s) {r : RequestId} {id : UInt64}
    (register : task (s.owner.request r).message = .register)
    (read : s.registered r = some id) : (s.owner.request r).AnsweredWith id := by
  obtain ⟨left, written, offers⟩ := Owner.reachable_offers inv.owner r
  have kind : (s.owner.request r).message.replyKind = .register := by
    rw [← Owner.replyKind_task, register]
    rfl
  have offered := offers false
  rw [kind] at offered
  rw [State.registered, offered] at read
  cases left with
  | nil =>
      simp only [Request.offers] at read
      grind
  | cons reply more =>
      have first : reply = .ok (.register id) := by
        simp only [Request.offers] at read
        cases reply with
        | error errno => cases read
        | ok data =>
            cases data <;> cases read
            rfl
      exact Owner.answeredWith_of_read inv.owner (written _ (first ▸ List.mem_cons_self))

theorem Custody.next_register {s : State} (inv : Custody s) {r : RequestId}
    (enabled : Enabled s (.register r)) : Custody (next s (.register r)) := by
  obtain ⟨register, absent, read⟩ := enabled
  obtain ⟨id, read⟩ := Option.isSome_iff_exists.mp read
  have answered := inv.registered register read
  have reads : Owner.Enabled s.owner (.fetch r false) := by
    intro blocks
    rw [← Owner.replyKind_task, register, Owner.Task.replyKind] at blocks
    simp [State.registered, blocks] at read
  have later := inv.owner_next reads (s.mail_fetch r false)
  simp only [next, read]
  apply later.setLockable
  · exact Owner.answeredWith_stable reads answered
  · simp [absent, Pc.request]
  · simp

theorem Custody.drops_send {s : State} (inv : Custody s) {r e : RequestId}
    (held : (s.lockable r).pc = .held) (nobody : s.drops e = none) (e' x : RequestId) :
    (next s (.send r e)).drops e' = some x ↔
      ((next s (.send r e)).lockable x).pc.request = some e' := by
  have unsent := inv.drops e' r
  have before := inv.drops e' x
  rw [held] at unsent
  by_cases own : e' = e
  · subst own
    rw [nobody] at before
    by_cases same : x = r
    · simp [next, same, Pc.request]
    · simpa [next, same, Ne.symm same] using before
  · by_cases same : x = r
    · simpa [next, same, own, Ne.symm own, Pc.request] using unsent
    · simpa [next, same, own] using before

theorem Custody.next_send {s : State} (inv : Custody s) {r e : RequestId}
    (enabled : Enabled s (.send r e)) : Custody (next s (.send r e)) := by
  obtain ⟨held, idle, nobody⟩ := enabled
  have ids : ∀ x, ((next s (.send r e)).lockable x).id = (s.lockable x).id := by
    intro x
    by_cases same : x = r <;> simp [next, same]
  have older : ∀ e' x, e' ≠ e → ((next s (.send r e)).drops e' = some x ↔ s.drops e' = some x) := by
    intro e' x other
    simp [next, other]
  have untaken : ¬ (s.owner.request e).Took := by
    rw [Owner.reachable_idle inv.owner e idle]
    exact fun took => nomatch took.2
  exact
    { owner := inv.owner
      named := by
        intro x present
        rw [ids]
        apply inv.named
        by_cases same : x = r
        · rw [same, held]
          decide
        · simpa [next, same] using present
      drops := inv.drops_send held nobody
      carries := by
        intro e' x sent
        rw [ids]
        by_cases own : e' = e
        · left
          rw [own]
          exact idle
        · exact inv.carries e' x ((older e' x own).mp sent)
      sent := by
        intro e' unregister
        obtain ⟨x, sent⟩ := inv.sent e' unregister
        by_cases own : e' = e
        · exact ⟨r, by simp [next, own]⟩
        · exact ⟨x, (older e' x own).mpr sent⟩
      entry := by
        intro x id answered
        rcases inv.entry x id answered with bound | ⟨e', sent, took⟩
        · exact .inl bound
        · have own : e' ≠ e := by
            rintro rfl
            exact untaken took
          exact .inr ⟨e', (older e' x own).mpr sent, took⟩
      taken := by
        intro e' x sent took
        have own : e' ≠ e := by
          rintro rfl
          exact untaken took
        exact inv.taken e' x ((older e' x own).mp sent) took
      present := inv.present
      replied := by
        intro x e' place
        by_cases same : x = r
        · simp [next, same] at place
        · exact inv.replied x e' (by simpa [next, same] using place) }

theorem State.answer_cases {s : State} {r e : RequestId} {signal : Bool} {item : Option Fetched}
    (read : s.answer r signal = some (e, item)) :
    (s.lockable r).pc = .awaiting e ∧
      ∃ rest, nextReply .unit (s.owner.request e).stream signal = .returns item rest := by
  unfold State.answer at read
  split at read
  · next place =>
      split at read
      · next returned =>
          cases read
          exact ⟨place, _, returned⟩
      · cases read
  · cases read
  · cases read
  · cases read

theorem Custody.replyKind {s : State} (inv : Custody s) {e r : RequestId}
    (sent : s.drops e = some r) : (s.owner.request e).message.replyKind = .unit := by
  rcases inv.carries e r sent with idle | message
  · rw [Owner.reachable_idle inv.owner e idle]
    rfl
  · rw [message]
    rfl

/-- The handler of a `drop` that has dropped its endpoint, or has answered, is done. -/
theorem Custody.finished {s : State} (inv : Custody s) {e r : RequestId}
    (sent : s.drops e = some r)
    (ends : (s.owner.request e).pc.Dropped ∨ (s.owner.request e).replies ≠ []) :
    (s.owner.request e).pc = .finished := by
  have running : (s.owner.request e).pc ≠ .idle := by
    intro idle
    rw [Owner.reachable_idle inv.owner e idle] at ends
    rcases ends with dropped | answered
    · exact dropped
    · exact answered rfl
  have unregister : task (s.owner.request e).message = .unregister := by
    rw [(inv.carries e r sent).resolve_left running]
    rfl
  rcases ends with dropped | answered
  · have serves := (Owner.reachable_served inv.owner).serves e running
    rw [unregister] at serves
    cases place : (s.owner.request e).pc <;> rw [place] at dropped serves <;>
      first | rfl | exact dropped.elim | cases serves
  · rcases Owner.reachable_once inv.owner e (by rw [unregister]; decide) with nothing | ⟨_, done⟩
    · exact (answered nothing).elim
    · exact done

/-- What `drop` reads as an answer, or as the end, is the last thing the owner does for it. -/
theorem Custody.ended {s : State} (inv : Custody s) {r e : RequestId} {signal : Bool}
    {item : Option Fetched} {rest : Wire.Stream Fd} (sent : s.drops e = some r)
    (returned : nextReply .unit (s.owner.request e).stream signal = .returns item rest)
    (ends : outcome e item = .replied e) : (s.owner.request e).pc = .finished := by
  apply inv.finished sent
  obtain ⟨left, written, offers⟩ := Owner.reachable_offers inv.owner e
  have offered := offers signal
  rw [inv.replyKind sent, returned] at offered
  cases left with
  | cons reply more => exact .inr (List.ne_nil_of_mem (written reply List.mem_cons_self))
  | nil =>
      left
      simp only [Request.offers] at offered
      split at offered
      · next closed => exact Owner.reachable_closed inv.owner e closed
      · split at offered
        · cases offered
          cases ends
        · cases offered

/-- Until then, a signal interrupts the wait of `drop`. -/
theorem Custody.interrupted {s : State} (inv : Custody s) {r e : RequestId}
    (sent : s.drops e = some r) (unanswered : (s.owner.request e).pc ≠ .finished) :
    ∃ rest, nextReply .unit (s.owner.request e).stream true =
      .returns (some (.error (.os Errno.INTR))) rest := by
  obtain ⟨left, written, offers⟩ := Owner.reachable_offers inv.owner e
  have offered := offers true
  rw [inv.replyKind sent] at offered
  rw [offered]
  cases left with
  | cons reply more =>
      have answered := List.ne_nil_of_mem (written reply List.mem_cons_self)
      exact (unanswered (inv.finished sent (.inr answered))).elim
  | nil =>
      have open_ : (s.owner.request e).stream.closed ≠ true := fun closed =>
        unanswered (inv.finished sent (.inl (Owner.reachable_closed inv.owner e closed)))
      refine ⟨(s.owner.request e).stream, ?_⟩
      simp only [Request.offers, if_neg open_, if_true]

theorem Custody.next_reply {s : State} (inv : Custody s) {r : RequestId} {signal : Bool}
    (enabled : Enabled s (.reply r signal)) : Custody (next s (.reply r signal)) := by
  obtain ⟨⟨e, item⟩, read⟩ := Option.isSome_iff_exists.mp enabled
  obtain ⟨place, rest, returned⟩ := State.answer_cases read
  have sent : s.drops e = some r := (inv.drops e r).mpr (by rw [place]; rfl)
  have reads : Owner.Enabled s.owner (.fetch e signal) := by
    intro blocks
    rw [inv.replyKind sent, returned] at blocks
    cases blocks
  have later := inv.owner_next reads (s.mail_fetch e signal)
  simp only [next, read]
  apply later.setLockable
  · exact later.named r (by simp [place])
  · simp only [State.setOwner_lockable, place]
    cases item with
    | none => rfl
    | some item => cases item <;> rfl
  · intro e' replied
    have same : outcome e item = .replied e' := by simpa using replied
    have own : e' = e := by
      cases item with
      | none => cases same; rfl
      | some item => cases item <;> cases same; rfl
    subst own
    exact (Owner.finished_replies reads (inv.ended sent returned same)).1

theorem custody_next {s : State} {a : Action} (inv : Custody s) (enabled : Enabled s a) :
    Custody (next s a) := by
  cases a with
  | owner a =>
      apply inv.owner_next enabled.1
      rintro e message rfl
      exact .inl enabled.2
  | register r => exact inv.next_register enabled
  | send r e => exact inv.next_send enabled
  | sendFails r =>
      have held : (s.lockable r).pc = .held := enabled
      apply inv.setLockable
      · exact inv.named r (by rw [held]; decide)
      · simp [held, Pc.request]
      · simp
  | deliver e =>
      obtain ⟨sent, receiving, idle⟩ := enabled
      obtain ⟨r, sent⟩ := Option.isSome_iff_exists.mp sent
      have receives : Owner.Enabled s.owner (.recv e (.unregister (s.lockable r).id)) :=
        ⟨receiving, idle⟩
      simp only [next, sent]
      apply inv.owner_next receives
      intro e' message same
      cases same
      exact .inr ⟨r, sent, rfl⟩
  | reply r signal => exact inv.next_reply enabled

theorem reachable_custody {s : State} (reached : machine.Reachable s) : Custody s := by
  apply reached.invariant
  · rintro _ rfl
    exact custody_initial
  · intro state label inv enabled
    exact custody_next inv enabled

end Ulockmgr.Lockables
