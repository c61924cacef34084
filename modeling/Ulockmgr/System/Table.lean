import Ulockmgr.System.Interrupts

/-!
# The interrupt table and the calls

The interrupt table of the owner holds one entry for every call that waits behind a
`Pending` reply, and nothing else, in every run: signals, failing system calls, the end of
the receiving loop and requests that cannot be sent included.  A call whose
`RemoveInterrupt` cannot be sent is the only one that leaves its entry behind.
-/

namespace Ulockmgr.System.Table

open Owner (RequestId Request)

/-! ## Requests that cannot be sent -/

inductive Action where
  | step (a : System.Action)
  /-- `send_request` fails to send the `Interrupt` of a call. -/
  | interruptFails (c : CallId) (error : IoError)
  /-- `send_request` fails to send the `RemoveInterrupt` of a call. -/
  | removeFails (c : CallId)

def Enabled (s : State) : Action → Prop
  | .step a => System.Enabled s a
  | .interruptFails c _ => (s.call c).pc = .sendInterrupt
  | .removeFails c => ∃ result, (s.call c).pc = .sendRemove result

instance (s : State) (a : Action) : Decidable (Enabled s a) :=
  match a with
  | .step a => inferInstanceAs (Decidable (System.Enabled s a))
  | .interruptFails c _ => inferInstanceAs (Decidable ((s.call c).pc = .sendInterrupt))
  | .removeFails c => inferInstanceAs (Decidable (System.Enabled s (.sendRemove c)))

def next (s : State) : Action → State
  | .step a => System.next s a
  | .interruptFails c error => s.setCall c { s.call c with pc := .sendRemove (.error error) }
  | .removeFails c =>
      match (s.call c).pc with
      | .sendRemove result => s.setCall c { s.call c with pc := .returned result }
      | _ => s

def machine : Transition.Machine State Action where
  Initial s := s = initial
  Enabled := Enabled
  next := next

instance (s : State) (a : Action) : Decidable (machine.Enabled s a) :=
  inferInstanceAs (Decidable (Enabled s a))

/-- A call goes on without the request it was to send. -/
inductive GivesUp (s : State) (c : CallId) : Pc → Prop where
  | interrupt (result : Returned) (place : (s.call c).pc = .sendInterrupt) :
      GivesUp s c (.sendRemove result)
  | remove (result : Returned) (place : (s.call c).pc = .sendRemove result) :
      GivesUp s c (.returned result)

theorem step_cases {s : State} {a : Action} (enabled : Enabled s a) :
    (∃ b, a = .step b ∧ System.Enabled s b) ∨
      ∃ c pc, GivesUp s c pc ∧ next s a = s.setCall c { s.call c with pc := pc } ∧
        ((∃ result, pc = .returned result) → a = .removeFails c) := by
  cases a with
  | step b => exact .inl ⟨b, rfl, enabled⟩
  | interruptFails c error =>
      exact .inr ⟨c, _, .interrupt (.error error) enabled, rfl, by simp⟩
  | removeFails c =>
      obtain ⟨result, place⟩ := enabled
      exact .inr ⟨c, _, .remove result place, by simp [next, place], by simp⟩

theorem queued_setCall {s : State} (queued : Queued s) (c : CallId) (call : Call) :
    Queued (s.setCall c call) :=
  queued.keep rfl rfl fun _ => Iff.rfl

section GivesUp
variable {s : State} {c : CallId} {pc : Pc} (gives : GivesUp s c pc)
include gives

theorem GivesUp.inside : (s.call c).pc.Inside := by
  cases gives with
  | interrupt result place => rw [place]; trivial
  | remove result place => rw [place]; trivial

/-- It waits for no answer, neither before nor after. -/
theorem GivesUp.awaits_nothing (x : RequestId) :
    ((s.call c).pc ≠ .awaitInterrupt x ∧ pc ≠ .awaitInterrupt x) ∧
      ∀ result, (s.call c).pc ≠ .awaitRemove x result ∧ pc ≠ .awaitRemove x result := by
  cases gives with
  | interrupt result place => simp [place]
  | remove result place => simp [place]

theorem GivesUp.not_returned (result : Returned) : (s.call c).pc ≠ .returned result := by
  cases gives with
  | interrupt _ place => simp [place]
  | remove _ place => simp [place]

theorem GivesUp.started : pc ≠ .idle ∧ pc ≠ .first := by
  cases gives with
  | interrupt _ _ => simp
  | remove _ _ => simp

theorem GivesUp.linked (linked : Linked s) : Linked (s.setCall c { s.call c with pc := pc }) := by
  have awaits := gives.awaits_nothing
  obtain ⟨e, endpoint⟩ := linked.endpoint gives.inside
  constructor
  · intro d above
    have other : d ≠ c := by
      rintro rfl
      rw [linked.unused d above] at endpoint
      cases endpoint
    simpa [other] using linked.unused d above
  · intro d unsent
    by_cases own : d = c
    · subst own
      simp [endpoint] at unsent
    · simp only [State.setCall_call, if_neg own] at unsent ⊢
      exact linked.sent d unsent
  · intro d x sent
    by_cases own : d = c
    · subst own
      simpa using gives.started.1
    · simp only [State.setCall_call, if_neg own] at sent ⊢
      exact linked.started d x sent
  · intro d inside
    by_cases own : d = c
    · subst own
      simpa using linked.inside d gives.inside
    · simp only [State.setCall_call, if_neg own] at inside ⊢
      exact linked.inside d inside
  · intro d x sent
    have before := linked.lock d x
    by_cases own : d = c
    · subst own
      simp only [State.setCall_call, if_pos] at sent ⊢
      exact before sent
    · simp only [State.setCall_call, if_neg own] at sent ⊢
      exact before sent
  · intro d x place
    by_cases own : d = c
    · subst own
      simp [awaits x] at place
    · simp only [State.setCall_call, if_neg own] at place ⊢
      exact linked.interrupt d x place
  · intro d x result place
    by_cases own : d = c
    · subst own
      simp [(awaits x).2 result] at place
    · simp only [State.setCall_call, if_neg own] at place ⊢
      exact linked.remove d x result place
  · intro x id carries
    obtain ⟨d, sender, same, place⟩ := linked.removers x id carries
    have other : d ≠ c := by
      rintro rfl
      rcases place with ⟨result, place⟩ | ⟨result, place⟩
      · exact ((awaits x).2 result).1 place
      · exact gives.not_returned result place
    refine ⟨d, sender, ?_⟩
    simp only [State.setCall_call, if_neg other]
    exact ⟨same, place⟩

end GivesUp

/-! ## The invariant -/

/-- The owner has handled the `RemoveInterrupt` of the call. -/
def Handled (s : State) (c : CallId) : Prop :=
  ∃ x, s.sender x = .remove c ∧
    ((s.owner.request x).pc = .reply ∨ (s.owner.request x).pc = .finished)

/-- The worker `e` of the call was given its ID, and the `RemoveInterrupt` of the call was not
handled yet. -/
structure Outstanding (s : State) (c : CallId) (e : RequestId) : Prop where
  endpoint : (s.call c).endpoint = some e
  inserted : (s.owner.request e).Inserted
  kept : ¬ Handled s c

/-- The call has received `Pending`. -/
structure Entered (s : State) (c : CallId) : Prop where
  past : (s.call c).pc ≠ .first
  answered : ∃ e, (s.call c).endpoint = some e ∧
    (s.owner.request e).replies.head? = some (pendingReply (s.call c).interruptId)

/-- The `Interrupt` request `x` of a call. -/
structure Asking (s : State) (c : CallId) (x : RequestId) : Prop where
  entered : Entered s c
  carries : Carries s x (.interrupt (s.call c).interruptId)
  place : (s.call c).pc = .awaitInterrupt x ∧ (s.owner.request x).Unread 0 ∨
    (s.owner.request x).pc = .finished
  target : (s.owner.request x).pc = .interruptStop →
    (s.call c).endpoint = some (s.owner.request x).target

/-- The `RemoveInterrupt` request `x` of a call. -/
structure Removing (s : State) (c : CallId) (x : RequestId) : Prop where
  entered : Entered s c
  carries : Carries s x (.removeInterrupt (s.call c).interruptId)
  place : (∃ result, (s.call c).pc = .awaitRemove x result) ∧ (s.owner.request x).Unread 0 ∨
    (∃ result, (s.call c).pc = .returned result) ∧ (s.owner.request x).pc = .finished

structure Matched (s : State) : Prop where
  lockers : ∀ x message, Carries s x message → (Owner.task message).Locks →
    ∃ c, (s.call c).endpoint = some x
  unheard : ∀ c e, (s.call c).endpoint = some e → (s.call c).pc = .first →
    (s.owner.request e).Unread 0
  entered : ∀ c, (s.call c).pc.Inside → Entered s c
  askers : ∀ x id, Carries s x (.interrupt id) → ∃ c, s.sender x = .interrupt c
  asks : ∀ c x, s.sender x = .interrupt c → Asking s c x
  removes : ∀ c x, s.sender x = .remove c → Removing s c x
  listed : ∀ c e, Outstanding s c e → s.owner.interrupts (s.owner.request e).id = some e
  owned : ∀ id e, s.owner.interrupts id = some e →
    (s.owner.request e).id = id ∧ ∃ c, Outstanding s c e

theorem matched_initial : Matched initial := by
  constructor <;>
    simp [initial, Owner.initial, Call.idle, Carries, Request.idle, Pc.Inside]
  rintro c e ⟨endpoint, _, _⟩
  cases endpoint

section Step
variable {s : State} {a : System.Action} (owner : Owner.machine.Reachable s.owner)
  (queued : Queued s) (linked : Linked s) (inv : Matched s) (enabled : System.Enabled s a)

include linked in
theorem Entered.made {c : CallId} (entered : Entered s c) : c ≠ s.calls := by
  intro fresh
  obtain ⟨e, endpoint, _⟩ := entered.answered
  rw [linked.unused c fresh.ge] at endpoint
  cases endpoint

include linked enabled in
theorem Entered.interruptId_step {c : CallId} (entered : Entered s c) :
    ((System.next s a).call c).interruptId = (s.call c).interruptId := by
  by_cases own : caller s a = some c
  · obtain ⟨_, _, _, same⟩ := (callStep enabled own).keeps.resolve_left (entered.made linked)
    exact same entered.past
  · rw [call_next_of_ne own]

include owner linked enabled in
theorem Entered.step {c : CallId} (entered : Entered s c) : Entered (System.next s a) c := by
  obtain ⟨e, endpoint, pending⟩ := entered.answered
  refine ⟨?_, e, (linked.keeps enabled endpoint).1, ?_⟩
  · intro first
    by_cases own : caller s a = some c
    · exact entered.made linked ((callStep enabled own).first first).2.1
    · rw [call_next_of_ne own] at first
      exact entered.past first
  · rw [entered.interruptId_step linked enabled]
    rcases owner_step enabled with same | ⟨b, step, moves⟩
    · rw [same]
      exact pending
    · rw [moves]
      exact Owner.head_next step (Owner.reachable_idle owner e) pending

include owner queued linked in
/-- Its worker is in the table under the ID it has received, or was. -/
theorem Entered.inserted {c : CallId} (entered : Entered s c) :
    ∃ e, (s.call c).endpoint = some e ∧ (s.owner.request e).Inserted ∧
      (s.call c).interruptId = (s.owner.request e).id := by
  obtain ⟨e, endpoint, pending⟩ := entered.answered
  exact ⟨e, endpoint, inserted_of_pending owner queued linked endpoint pending⟩

include inv in
/-- A call that waits for an answer was not handled before. -/
theorem Matched.not_handled {c : CallId} {x : RequestId}
    (running : (s.owner.request x).pc ≠ .reply ∧ (s.owner.request x).pc ≠ .finished)
    (awaits : (s.call c).pc = .awaitInterrupt x ∨
      ∃ result, (s.call c).pc = .awaitRemove x result) : ¬ Handled s c := by
  rintro ⟨y, sender, handled⟩
  rcases (inv.removes c y sender).place with ⟨⟨_, place⟩, _⟩ | ⟨⟨_, place⟩, _⟩
  · rcases awaits with awaits | ⟨_, awaits⟩ <;> rw [place] at awaits <;> cases awaits
    rcases handled with handled | handled
    · exact running.1 handled
    · exact running.2 handled
  · rcases awaits with awaits | ⟨_, awaits⟩ <;> rw [place] at awaits <;> cases awaits

include owner queued linked inv in
/-- The entry of a call that waits for the answer to a request of its own. -/
theorem Matched.entry {c : CallId} {x : RequestId}
    (running : (s.owner.request x).pc ≠ .reply ∧ (s.owner.request x).pc ≠ .finished)
    (awaits : (s.call c).pc = .awaitInterrupt x ∨
      ∃ result, (s.call c).pc = .awaitRemove x result) :
    ∃ e, (s.call c).endpoint = some e ∧ s.owner.interrupts (s.call c).interruptId = some e := by
  have inside : (s.call c).pc.Inside := by
    rcases awaits with awaits | ⟨_, awaits⟩ <;> rw [awaits] <;> trivial
  obtain ⟨e, endpoint, inserted, id⟩ := (inv.entered c inside).inserted owner queued linked
  refine ⟨e, endpoint, ?_⟩
  rw [id]
  exact inv.listed c e ⟨endpoint, inserted, inv.not_handled running awaits⟩

include queued inv enabled in
theorem Handled.step {c : CallId} (handled : Handled s c) : Handled (System.next s a) c := by
  obtain ⟨x, sender, place⟩ := handled
  refine ⟨x, ?_, ?_⟩
  · rw [sender_next enabled ((inv.removes c x sender).carries.bound queued)]
    exact sender
  · rcases owner_step enabled with same | ⟨b, step, moves⟩
    · rw [same]
      exact place
    · rw [moves]
      exact Owner.over_next step place

include queued enabled in
/-- The sender of a request is the one that sent it. -/
theorem sender_cases {x : RequestId} {sender : Sender}
    (sends : (System.next s a).sender x = sender) :
    s.sender x = sender ∨ x = s.sent ∧ ∃ message, posts s a = some (sender, message) ∧
      (System.next s a).owner.request x = s.owner.request x ∧
        (s.owner.request x).pc = .idle := by
  rcases posts_cases enabled with ⟨new, message, posted, same, _, _, senders⟩ | ⟨_, _, senders, _⟩
  · rw [senders] at sends
    split at sends
    · next fresh =>
        subst fresh sends
        exact .inr ⟨rfl, message, posted, by rw [same], queued.fresh _ le_rfl⟩
    · exact .inl sends
  · rw [senders] at sends
    exact .inl sends

include owner queued inv enabled in
/-- The `RemoveInterrupt` of a call is handled by the step that removes its entry. -/
theorem Handled.cases {c : CallId} (handled : Handled (System.next s a) c) :
    Handled s c ∨ ∃ x, s.sender x = .remove c ∧ Owner.Enabled s.owner (.removeInterrupt x) ∧
      (s.owner.request x).message.id = (s.call c).interruptId ∧
        (System.next s a).owner = Owner.next s.owner (.removeInterrupt x) := by
  obtain ⟨x, sends, place⟩ := handled
  rcases sender_cases queued enabled sends with sender | ⟨_, _, _, same, idle⟩
  · have carries := (inv.removes c x sender).carries
    have message := (carries.next enabled).received (queued_next queued enabled)
      (by rcases place with place | place <;> rw [place] <;> decide)
    rcases owner_step enabled with same | ⟨b, step, moves⟩
    · rw [same] at place
      exact .inl ⟨x, sender, place⟩
    · rw [moves] at message place
      rcases Owner.removed_cases (Owner.reachable_served owner) step message place with
        before | before | ⟨rfl, before⟩
      · exact .inl ⟨x, sender, .inl before⟩
      · exact .inl ⟨x, sender, .inr before⟩
      · refine .inr ⟨x, sender, step, ?_, moves⟩
        rw [before]
        rfl
  · rw [same, idle] at place
    rcases place with place | place <;> cases place

include owner queued linked inv enabled in
/-- Nobody's entry but its own is removed for a call. -/
theorem Outstanding.kept_entry {c : CallId} {e x : RequestId}
    (endpoint : (s.call c).endpoint = some e) (kept : ¬ Handled (System.next s a) c)
    (bound : s.owner.interrupts (s.owner.request x).message.id = some e)
    (step : (s.owner.request x).pc = .removeInterrupt)
    (moves : (System.next s a).owner = Owner.next s.owner (.removeInterrupt x)) : False := by
  have serves := (Owner.reachable_served owner).serves x (by rw [step]; decide)
  rw [step] at serves
  have carries : Carries s x (.removeInterrupt (s.owner.request x).message.id) := by
    refine .inr ⟨by rw [step]; decide, ?_⟩
    cases message : (s.owner.request x).message with
    | removeInterrupt id => rfl
    | lockCommand id action params =>
        rw [message] at serves
        cases action <;> cases serves
    | ping | interrupt id | register fd | unregister id =>
        rw [message] at serves
        cases serves
  obtain ⟨d, sender, id, _⟩ := linked.removers x _ carries
  have awaits : ∃ result, (s.call d).pc = .awaitRemove x result := by
    rcases (inv.removes d x sender).place with ⟨awaits, _⟩ | ⟨_, finished⟩
    · exact awaits
    · rw [step] at finished
      cases finished
  obtain ⟨e', endpoint', entry⟩ :=
    inv.entry owner queued linked (by rw [step]; decide) (.inr awaits)
  rw [id, bound] at entry
  cases entry
  have same := (linked.lock c e endpoint).1
  rw [(linked.lock d e endpoint').1] at same
  cases same
  refine kept ⟨x, ?_, .inl ?_⟩
  · rw [sender_next enabled (carries.bound queued)]
    exact sender
  · rw [moves]
    simp only [Owner.next]
    split <;> simp

include linked inv enabled in
theorem Matched.lockers_step (x : RequestId) (message : Message)
    (carries : Carries (System.next s a) x message) (locks : (Owner.task message).Locks) :
    ∃ c, ((System.next s a).call c).endpoint = some x := by
  rcases carries_cases enabled carries with before | ⟨rfl, sender, new⟩
  · obtain ⟨c, endpoint⟩ := inv.lockers x message before locks
    exact ⟨c, (linked.keeps enabled endpoint).1⟩
  · cases a with
    | call id action params => exact ⟨s.calls, by simp [System.next]⟩
    | send m =>
        cases new
        cases message with
        | lockCommand id action params => cases enabled
        | ping | interrupt id | removeInterrupt id | register fd | unregister id =>
            exact locks.elim
    | sendInterrupt c =>
        cases new
        exact locks.elim
    | sendRemove c =>
        cases new
        exact locks.elim
    | owner _ | deliver | callFails _ _ _ _ | firstReply _ | wait _ _ | unblockFails _ _
    | interruptReply _ | removeReply _ => cases new

/-- A request without a handler is unread. -/
theorem unread_of_idle {x : RequestId} (owner : Owner.machine.Reachable s.owner)
    (idle : (s.owner.request x).pc = .idle) : (s.owner.request x).Unread 0 := by
  rw [Owner.reachable_idle owner x idle]
  exact ⟨le_rfl, rfl⟩

include owner linked enabled in
/-- A request is read by the one that sent it. -/
theorem unread_step {x : RequestId} (reader : readerOf a ≠ some (s.sender x))
    (unread : (s.owner.request x).Unread 0) : ((System.next s a).owner.request x).Unread 0 :=
  (request_evolves owner enabled (mt linked.reader reader)).unread unread

include owner queued linked inv enabled in
theorem Matched.unheard_step (c : CallId) (e : RequestId)
    (endpoint : ((System.next s a).call c).endpoint = some e)
    (first : ((System.next s a).call c).pc = .first) :
    ((System.next s a).owner.request e).Unread 0 := by
  by_cases own : caller s a = some c
  · obtain ⟨⟨id, action, params, rfl⟩, _, sent⟩ := (callStep enabled own).first first
    rw [sent] at endpoint
    cases endpoint
    exact unread_of_idle owner (queued.fresh s.sent le_rfl)
  · rw [call_next_of_ne own] at endpoint first
    refine unread_step owner linked enabled ?_ (inv.unheard c e endpoint first)
    rw [(linked.lock c e endpoint).1]
    cases a <;> simp_all [readerOf, caller]

/-- A call comes to the loop of `set_lock_blocking` with its first reply. -/
theorem inside_cases {c : CallId} {after : Call} (step : CallStep s c after a)
    (inside : after.pc.Inside) :
    (s.call c).pc.Inside ∨ ∃ e item, a = .firstReply c ∧ (s.call c).pc = .first ∧
      (s.call c).endpoint = some e ∧ s.fetched .lockCommand e false = some item ∧
        after = gotFirst (s.call c) item := by
  cases step with
  | call _ _ _ _ becomes =>
      rw [becomes] at inside
      exact inside.elim
  | callFails _ _ _ _ _ becomes =>
      rw [becomes] at inside
      exact inside.elim
  | firstReply e item place endpoint read becomes =>
      exact .inr ⟨e, item, rfl, place, endpoint, read, becomes⟩
  | wait _ _ _ place _ _ _ _ | unblockFails _ place _ | sendInterrupt place _
  | interruptReply _ _ place _ _ | sendRemove _ place _ | removeReply _ _ place _ _ =>
      rw [place]
      exact .inl trivial

include owner queued linked inv enabled in
theorem Matched.entered_step (c : CallId) (inside : ((System.next s a).call c).pc.Inside) :
    Entered (System.next s a) c := by
  by_cases own : caller s a = some c
  · rcases inside_cases (callStep enabled own) inside with before |
      ⟨e, item, rfl, place, endpoint, read, becomes⟩
    · exact (inv.entered c before).step owner linked enabled
    · obtain ⟨rest, returned⟩ := fetched_some read
      have moves : (System.next s (.firstReply c)).owner.request e =
          { s.owner.request e with stream := rest } := by
        simpa [System.next, endpoint, read, State.fetch] using Owner.fetch_eq returned
      rcases serving owner queued linked endpoint with idle | serving
      · rw [idle] at returned
        cases returned
      · have heard := heard_first serving (inv.unheard c e endpoint place) returned
        rw [← becomes, ← moves] at heard
        refine ⟨?_, e, (linked.keeps enabled endpoint).1, heard.pending inside⟩
        intro first
        rw [first] at inside
        exact inside.elim
  · rw [call_next_of_ne own] at inside
    exact (inv.entered c inside).step owner linked enabled

include queued inv enabled in
/-- Nobody but a call asks for an interrupt. -/
theorem Matched.askers_step (x : RequestId) (id : UInt64)
    (carries : Carries (System.next s a) x (.interrupt id)) :
    ∃ c, (System.next s a).sender x = .interrupt c := by
  rcases carries_cases enabled carries with before | ⟨rfl, sender, new⟩
  · obtain ⟨c, same⟩ := inv.askers x id before
    exact ⟨c, (sender_next enabled (before.bound queued)).trans same⟩
  · cases a with
    | sendInterrupt c => exact ⟨c, (posted enabled rfl).1⟩
    | send message =>
        cases new
        cases enabled
    | owner _ | deliver | call _ _ _ | callFails _ _ _ _ | firstReply _ | wait _ _
    | unblockFails _ _ | interruptReply _ | sendRemove _ | removeReply _ => cases new

include enabled in
theorem finished_step {x : RequestId} (finished : (s.owner.request x).pc = .finished) :
    ((System.next s a).owner.request x).pc = .finished := by
  rcases owner_step enabled with same | ⟨b, step, moves⟩
  · rw [same]
    exact finished
  · rw [moves]
    exact (Owner.finished_replies step finished).1

include owner queued linked enabled in
theorem Asking.place_step {c : CallId} {x : RequestId} (asks : Asking s c x)
    (sender : s.sender x = .interrupt c) :
    ((System.next s a).call c).pc = .awaitInterrupt x ∧
        ((System.next s a).owner.request x).Unread 0 ∨
      ((System.next s a).owner.request x).pc = .finished := by
  rcases asks.place with ⟨awaits, unread⟩ | finished
  · by_cases own : caller s a = some c
    · have step := callStep enabled own
      cases step with
      | interruptReply y item place read becomes =>
          rw [awaits] at place
          cases place
          have once := asks.carries.once owner queued (by simp [Owner.task])
          exact .inr (finished_step enabled (read_finished owner once unread read))
      | call _ _ _ fresh _ | callFails _ _ _ _ fresh _ =>
          exact (asks.entered.made linked fresh).elim
      | firstReply _ _ place _ _ _ | wait _ _ _ place _ _ _ _ | unblockFails _ place _
      | sendInterrupt place _ | sendRemove _ place _ | removeReply _ _ place _ _ =>
          rw [awaits] at place
          cases place
    · left
      rw [call_next_of_ne own]
      refine ⟨awaits, unread_step owner linked enabled ?_ unread⟩
      rw [sender]
      cases a <;> simp_all [readerOf, caller]
  · exact .inr (finished_step enabled finished)

include owner queued linked inv enabled in
/-- The worker that an `Interrupt` finds is the one its sender waits for. -/
theorem Asking.target_step {c : CallId} {x : RequestId} (asks : Asking s c x)
    (stops : ((System.next s a).owner.request x).pc = .interruptStop) :
    ((System.next s a).call c).endpoint =
      some ((System.next s a).owner.request x).target := by
  rcases owner_step enabled with same | ⟨b, step, moves⟩
  · rw [same] at stops ⊢
    exact (linked.keeps enabled (asks.target stops)).1
  · rw [moves] at stops ⊢
    rcases Owner.stop_cases step stops with ⟨before, same⟩ | ⟨rfl, found⟩
    · rw [same]
      exact (linked.keeps enabled (asks.target before)).1
    · have looks : (s.owner.request x).pc = .interruptLookup := step
      have awaits : (s.call c).pc = .awaitInterrupt x := by
        rcases asks.place with ⟨awaits, _⟩ | finished
        · exact awaits
        · rw [looks] at finished
          cases finished
      obtain ⟨e, endpoint, entry⟩ :=
        inv.entry owner queued linked (by rw [looks]; decide) (.inl awaits)
      have message := asks.carries.received queued (by rw [looks]; decide)
      rw [message, Message.id, entry] at found
      rw [(linked.keeps enabled endpoint).1]
      exact found

include owner queued linked inv enabled in
theorem Matched.asks_step (c : CallId) (x : RequestId)
    (sends : (System.next s a).sender x = .interrupt c) : Asking (System.next s a) c x := by
  rcases sender_cases queued enabled sends with sender | ⟨rfl, message, new, same, idle⟩
  · have asks := inv.asks c x sender
    refine
      { entered := asks.entered.step owner linked enabled
        carries := ?_
        place := asks.place_step owner queued linked enabled sender
        target := asks.target_step owner queued linked inv enabled }
    rw [asks.entered.interruptId_step linked enabled]
    exact asks.carries.next enabled
  · cases a with
    | sendInterrupt d =>
        have carries := (posted enabled rfl).2
        cases new
        have entered := inv.entered c (by rw [show (s.call c).pc = .sendInterrupt from enabled]; trivial)
        rw [← entered.interruptId_step linked enabled] at carries
        refine ⟨entered.step owner linked enabled, carries, .inl ⟨by simp [System.next], ?_⟩, ?_⟩
        · rw [same]
          exact unread_of_idle owner idle
        · rw [same, idle]
          intro stops
          cases stops
    | owner _ | deliver | send _ | call _ _ _ | callFails _ _ _ _ | firstReply _ | wait _ _
    | unblockFails _ _ | interruptReply _ | sendRemove _ | removeReply _ => cases new

include owner queued linked enabled in
theorem Removing.place_step {c : CallId} {x : RequestId} (removes : Removing s c x)
    (sender : s.sender x = .remove c) :
    (∃ result, ((System.next s a).call c).pc = .awaitRemove x result) ∧
        ((System.next s a).owner.request x).Unread 0 ∨
      (∃ result, ((System.next s a).call c).pc = .returned result) ∧
        ((System.next s a).owner.request x).pc = .finished := by
  rcases removes.place with ⟨⟨result, awaits⟩, unread⟩ | ⟨⟨result, returned⟩, finished⟩
  · by_cases own : caller s a = some c
    · have step := callStep enabled own
      cases step with
      | removeReply y result' place read becomes =>
          rw [awaits] at place
          cases place
          obtain ⟨item, found⟩ := Option.isSome_iff_exists.mp read
          have once := removes.carries.once owner queued (by simp [Owner.task])
          refine .inr ⟨⟨result, by rw [becomes]⟩, ?_⟩
          exact finished_step enabled (read_finished owner once unread found)
      | call _ _ _ fresh _ | callFails _ _ _ _ fresh _ =>
          exact (removes.entered.made linked fresh).elim
      | firstReply _ _ place _ _ _ | wait _ _ _ place _ _ _ _ | unblockFails _ place _
      | sendInterrupt place _ | interruptReply _ _ place _ _ | sendRemove _ place _ =>
          rw [awaits] at place
          cases place
    · left
      rw [call_next_of_ne own]
      refine ⟨⟨result, awaits⟩, unread_step owner linked enabled ?_ unread⟩
      rw [sender]
      cases a <;> simp_all [readerOf, caller]
  · right
    rw [linked.returned_stays enabled returned]
    exact ⟨⟨result, returned⟩, finished_step enabled finished⟩

include owner queued linked inv enabled in
theorem Matched.removes_step (c : CallId) (x : RequestId)
    (sends : (System.next s a).sender x = .remove c) : Removing (System.next s a) c x := by
  rcases sender_cases queued enabled sends with sender | ⟨rfl, message, new, same, idle⟩
  · have removes := inv.removes c x sender
    refine ⟨removes.entered.step owner linked enabled, ?_,
      removes.place_step owner queued linked enabled sender⟩
    rw [removes.entered.interruptId_step linked enabled]
    exact removes.carries.next enabled
  · cases a with
    | sendRemove d =>
        have carries := (posted enabled rfl).2
        cases new
        obtain ⟨result, place⟩ := id enabled
        have entered := inv.entered c (by rw [place]; trivial)
        rw [← entered.interruptId_step linked enabled] at carries
        refine ⟨entered.step owner linked enabled, carries,
          .inl ⟨⟨result, by simp [System.next, place]⟩, ?_⟩⟩
        rw [same]
        exact unread_of_idle owner idle
    | owner _ | deliver | send _ | call _ _ _ | callFails _ _ _ _ | firstReply _ | wait _ _
    | unblockFails _ _ | sendInterrupt _ | interruptReply _ | removeReply _ => cases new

end Step

end Ulockmgr.System.Table
