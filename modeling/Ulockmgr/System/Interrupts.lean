import Ulockmgr.System.Replies

/-!
# Interrupted calls

The invariant of all runs in which the owner's loop does not end and the clients can set
their signal masks: what every call has heard, where its `Interrupt` and `RemoveInterrupt`
requests are, and that its worker stays in the interrupt table until the owner has
handled its `RemoveInterrupt`.
-/

namespace Ulockmgr.System

open Owner (RequestId Request)

/-- The steps of a run in which the receiving loop goes on and clients can unblock their
signals. -/
def Calm : Action → Bool
  | .unblockFails _ _ | .owner .hangUp | .owner (.startThreadFails _) => false
  | _ => true

/-- Where the `Interrupt` request of the call that waits for worker `e` can be. -/
def InterruptPlace (e : RequestId) (request : Request) : Prop :=
  request.pc = .idle ∨ request.pc = .startThread ∨ request.pc = .interruptLookup ∨
    request.pc = .interruptStop ∧ request.target = e ∨
      (request.pc = .reply ∨ request.pc = .finished) ∧ request.out = .ok .unit

/-- Where the `RemoveInterrupt` request of a call can be. -/
def RemovePlace (request : Request) : Prop :=
  request.pc = .idle ∨ request.pc = .removeInterrupt ∨
    (request.pc = .reply ∨ request.pc = .finished) ∧ request.out = .ok .unit

/-- The owner has handled the `RemoveInterrupt` of the call. -/
def Removed (s : State) (c : CallId) : Prop :=
  (∃ result, (s.call c).pc = .returned result) ∨
    ∃ x result, (s.call c).pc = .awaitRemove x result ∧
      ((s.owner.request x).pc = .reply ∨ (s.owner.request x).pc = .finished)

structure Dialogue (s : State) : Prop where
  alive : s.owner.loop ≠ .ended
  heard : ∀ c e, (s.call c).endpoint = some e → (s.call c).Heard (s.owner.request e)
  interrupt : ∀ c x e, (s.call c).pc = .awaitInterrupt x → (s.call c).endpoint = some e →
    (s.owner.request x).Unread 0 ∧ InterruptPlace e (s.owner.request x)
  remove : ∀ c x result, (s.call c).pc = .awaitRemove x result →
    (s.owner.request x).Unread 0 ∧ RemovePlace (s.owner.request x)
  removed : ∀ x id c, Carries s x (.removeInterrupt id) → s.sender x = .remove c →
    (∃ result, (s.call c).pc = .returned result) → (s.owner.request x).pc = .finished
  table : ∀ c e, (s.call c).endpoint = some e → (s.owner.request e).Inserted → ¬ Removed s c →
    s.owner.interrupts (s.owner.request e).id = some e

theorem dialogue_initial : Dialogue initial := by
  constructor <;> simp [initial, Owner.initial, Call.idle, Carries, Request.idle]

/-! ## Places of the requests of a call -/

theorem ended_cases {s : Owner.State} {a : Owner.Action} (ended : (Owner.next s a).loop = .ended) :
    s.loop = .ended ∨ a = .hangUp ∨ ∃ e, a = .startThreadFails e := by
  revert ended
  cases a with
  | reply e =>
      rcases s.afterReply_cases e with ⟨_, same⟩ | ⟨_, _, same⟩ | ⟨_, _, same⟩ <;>
        simp [Owner.next, same]
  | _ =>
      simp only [Owner.next]
      (repeat' split) <;> grind

theorem interruptPlace_next {s : Owner.State} {a : Owner.Action} (enabled : Owner.Enabled s a)
    {x e : RequestId} {id : UInt64} (known : s.interrupts id = some e)
    (message : ((Owner.next s a).request x).pc ≠ .idle →
      ((Owner.next s a).request x).message = .interrupt id)
    (alive : (Owner.next s a).loop ≠ .ended) (place : InterruptPlace e (s.request x)) :
    InterruptPlace e ((Owner.next s a).request x) := by
  by_cases own : x = a.actor
  · subst own
    cases a with
    | recv y m =>
        have interrupts := message (Owner.recv_running s y m)
        simp only [Owner.next, Owner.Action.actor, Owner.State.setLoop_request,
          Owner.State.setRequest_request, if_pos] at interrupts ⊢
        rw [interrupts]
        exact .inr (.inl rfl)
    | _ =>
        revert message alive
        simp only [Owner.Enabled, Owner.Action.actor] at enabled place ⊢
        simp only [Owner.next]
        (repeat' split) <;> grind [InterruptPlace, Owner.Task.threadHandler, Owner.task, Message.id]
  · rw [Owner.request_next_of_ne s own]
    exact place

theorem removePlace_next {s : Owner.State} {a : Owner.Action} (enabled : Owner.Enabled s a)
    {x e : RequestId} {id : UInt64} (known : (s.request x).pc = .removeInterrupt →
      s.interrupts id = some e)
    (message : ((Owner.next s a).request x).pc ≠ .idle →
      ((Owner.next s a).request x).message = .removeInterrupt id)
    (place : RemovePlace (s.request x)) : RemovePlace ((Owner.next s a).request x) := by
  by_cases own : x = a.actor
  · subst own
    cases a with
    | recv y m =>
        have interrupts := message (Owner.recv_running s y m)
        simp only [Owner.next, Owner.Action.actor, Owner.State.setLoop_request,
          Owner.State.setRequest_request, if_pos] at interrupts ⊢
        rw [interrupts]
        exact .inr (.inl rfl)
    | _ =>
        revert message
        simp only [Owner.Enabled, Owner.Action.actor] at enabled place known ⊢
        simp only [Owner.next]
        (repeat' split) <;> grind [RemovePlace, Message.id]
  · rw [Owner.request_next_of_ne s own]
    exact place

/-! ## One step -/

theorem Call.Heard.pending {call : Call} {request : Request} (heard : call.Heard request)
    (inside : call.pc.Inside) :
    request.replies.head? = some (pendingReply call.interruptId) := by
  have concluded : ∀ result, Concluded request call.interruptId result →
      request.replies.head? = some (pendingReply call.interruptId) := by
    rintro result ⟨last, rest, replies, _⟩
    rw [replies]
    rfl
  cases place : call.pc with
  | waiting | sendInterrupt | awaitInterrupt x =>
      simp only [Call.Heard, place] at heard
      exact heard.2
  | sendRemove result | awaitRemove x result =>
      simp only [Call.Heard, place] at heard
      exact concluded result heard
  | idle | first | returned result =>
      rw [place] at inside
      exact inside.elim

section DialogueStep
variable {s : State} {a : Action} (owner : Owner.machine.Reachable s.owner) (queued : Queued s)
  (linked : Linked s) (inv : Dialogue s) (enabled : Enabled s a) (calm : Calm a = true)

include owner queued linked in
/-- A worker that answered `Pending` was entered into the table under the ID in the answer. -/
theorem inserted_of_pending {c : CallId} {e : RequestId} {id : UInt64}
    (endpoint : (s.call c).endpoint = some e)
    (pending : (s.owner.request e).replies.head? = some (pendingReply id)) :
    (s.owner.request e).Inserted ∧ id = (s.owner.request e).id := by
  rcases serving owner queued linked endpoint with idle | serving
  · rw [idle] at pending
    cases pending
  · have locks : (Owner.task (s.owner.request e).message).Locks :=
      serving.message ▸ (s.call c).locks
    exact (serving.transcript.pending pending serving.serves locks).1

include owner queued linked inv in
theorem Dialogue.entry {c : CallId} {e : RequestId} (endpoint : (s.call c).endpoint = some e)
    (inside : (s.call c).pc.Inside) (kept : ¬ Removed s c) :
    s.owner.interrupts (s.call c).interruptId = some e := by
  have pending := (inv.heard c e endpoint).pending inside
  obtain ⟨inserted, same⟩ := inserted_of_pending owner queued linked endpoint pending
  rw [same]
  exact inv.table c e endpoint inserted kept

include inv enabled calm in
theorem Dialogue.alive_next : (next s a).owner.loop ≠ .ended := by
  intro ended
  rcases owner_cases enabled with same | ⟨b, rfl, _, _, moves⟩ | ⟨e, m, _, _, _, _, _, moves⟩ |
    ⟨x, signal, _, _, moves⟩
  · rw [same] at ended
    exact inv.alive ended
  all_goals
    rw [moves] at ended
    rcases ended_cases ended with before | hangs | ⟨y, fails⟩
  · exact inv.alive before
  · rw [hangs] at calm
    cases calm
  · rw [fails] at calm
    cases calm
  · exact inv.alive before
  · cases hangs
  · cases fails
  · exact inv.alive before
  · cases hangs
  · cases fails

include owner in
/-- A request with one reply is read when its handler is done. -/
theorem read_finished {x : RequestId} {kind : ReplyKind} {item : Option Fetched}
    (once : Owner.task (s.owner.request x).message ≠ .setLockBlocking)
    (unread : (s.owner.request x).Unread 0) (read : s.fetched kind x false = some item) :
    (s.owner.request x).pc = .finished := by
  have served := Owner.reachable_served owner
  obtain ⟨rest, returned⟩ := fetched_some read
  by_contra running
  have nothing : (s.owner.request x).replies.drop 0 = [] := served.silent x once running
  rw [unread.nextReply_nil nothing] at returned
  split at returned
  · next closed =>
      have dropped := Owner.reachable_closed owner x closed
      have serves := served.serves x
      cases place : (s.owner.request x).pc <;> rw [place] at dropped serves running <;>
        first
        | exact dropped.elim
        | exact running rfl
        | exact once (serves (by decide))
  · cases returned

include owner in
theorem read_once {x : RequestId} {kind : ReplyKind} {item : Option Fetched}
    (alive : s.owner.loop ≠ .ended)
    (once : Owner.task (s.owner.request x).message ≠ .setLockBlocking)
    (unread : (s.owner.request x).Unread 0)
    (typed : (s.owner.request x).pc = .finished → Reply.HasKind kind (s.owner.request x).out)
    (read : s.fetched kind x false = some item) :
    (s.owner.request x).pc = .finished ∧
      item = some (Reply.fetched (s.owner.request x).out []) := by
  have finished := read_finished owner once unread read
  obtain ⟨rest, returned⟩ := fetched_some read
  have answered := ((Owner.reachable_served owner).answered x once finished).resolve_right alive
  have left : (s.owner.request x).replies.drop 0 = [(s.owner.request x).out] := answered
  rw [unread.nextReply_cons (typed finished) left] at returned
  cases returned
  exact ⟨finished, rfl⟩

include queued in
theorem Carries.received {x : RequestId} {message : Message} (carries : Carries s x message)
    (running : (s.owner.request x).pc ≠ .idle) : (s.owner.request x).message = message := by
  rcases carries with waits | ⟨_, same⟩
  · exact (running (queued.idle x _ waits)).elim
  · exact same

include owner queued in
theorem Carries.once {x : RequestId} {message : Message} (carries : Carries s x message)
    (single : Owner.task message ≠ .setLockBlocking) :
    Owner.task (s.owner.request x).message ≠ .setLockBlocking := by
  by_cases idle : (s.owner.request x).pc = .idle
  · rw [Owner.reachable_idle owner x idle]
    decide
  · rw [carries.received queued idle]
    exact single

include linked in
theorem Linked.endpoint {c : CallId} (inside : (s.call c).pc.Inside) :
    ∃ e, (s.call c).endpoint = some e := by
  cases endpoint : (s.call c).endpoint with
  | some e => exact ⟨e, rfl⟩
  | none =>
      rcases linked.sent c endpoint with idle | ⟨result, returned⟩
      · rw [idle] at inside
        exact inside.elim
      · rw [returned] at inside
        exact inside.elim

include owner queued linked inv in
/-- The answer to the `Interrupt` request of a call is `Ok`. -/
theorem Dialogue.interrupt_ok {c : CallId} {x : RequestId} {item : Option Fetched}
    (place : (s.call c).pc = .awaitInterrupt x) (read : s.fetched .unit x false = some item) :
    (s.owner.request x).pc = .finished ∧ (s.owner.request x).replies = [.ok .unit] ∧
      item = some (Reply.fetched (.ok .unit) []) := by
  obtain ⟨e, endpoint⟩ := linked.endpoint (c := c) (by rw [place]; trivial)
  obtain ⟨unread, where_⟩ := inv.interrupt c x e place endpoint
  have out : (s.owner.request x).pc = .finished → (s.owner.request x).out = .ok .unit := by
    intro finished
    rcases where_ with place | place | place | ⟨place, _⟩ | ⟨_, out⟩
    · rw [finished] at place
      cases place
    · rw [finished] at place
      cases place
    · rw [finished] at place
      cases place
    · rw [finished] at place
      cases place
    · exact out
  have once := (linked.interrupt c x place).2.once owner queued nofun
  obtain ⟨finished, same⟩ := read_once owner inv.alive once unread
    (fun finished => by rw [out finished]; rfl) read
  have answered := ((Owner.reachable_served owner).answered x once finished).resolve_right inv.alive
  rw [out finished] at same answered
  exact ⟨finished, answered, same⟩

include owner queued linked inv in
/-- The answer to a `RemoveInterrupt` request is read when its handler is done. -/
theorem Dialogue.remove_read {c : CallId} {x : RequestId} {result : Returned}
    (place : (s.call c).pc = .awaitRemove x result) (read : (s.fetched .unit x false).isSome) :
    (s.owner.request x).pc = .finished := by
  obtain ⟨item, found⟩ := Option.isSome_iff_exists.mp read
  obtain ⟨unread, where_⟩ := inv.remove c x result place
  have typed : (s.owner.request x).pc = .finished →
      Reply.HasKind .unit (s.owner.request x).out := by
    intro finished
    rcases where_ with place | place | ⟨_, out⟩
    · rw [finished] at place
      cases place
    · rw [finished] at place
      cases place
    · rw [out]
      rfl
  have once := (linked.remove c x result place).2.once owner queued nofun
  exact (read_once owner inv.alive once unread typed found).1

include owner linked enabled in
theorem Call.Heard.other {call : Call} {x : RequestId} (reader : readerOf a ≠ some (s.sender x))
    (heard : call.Heard (s.owner.request x)) : call.Heard ((next s a).owner.request x) := by
  have other : ¬ Reads s x a := mt linked.reader reader
  exact heard.evolves (request_evolves owner enabled other) (finished_stays enabled other)

include owner queued linked inv enabled calm in
theorem Dialogue.heard_next (c : CallId) (e : RequestId)
    (endpoint : ((next s a).call c).endpoint = some e) :
    ((next s a).call c).Heard ((next s a).owner.request e) := by
  by_cases own : caller s a = some c
  · have step := callStep enabled own
    cases step with
    | call id action params fresh becomes =>
        rw [becomes] at endpoint ⊢
        cases endpoint
        have idle := Owner.reachable_idle owner s.sent (queued.fresh s.sent le_rfl)
        have same : (next s (.call id action params)).owner = s.owner := rfl
        rw [same, idle]
        exact ⟨le_rfl, rfl⟩
    | callFails id action params error fresh becomes =>
        rw [becomes] at endpoint
        cases endpoint
    | firstReply y item place before read becomes =>
        have keeps : (gotFirst (s.call c) item).endpoint = (s.call c).endpoint := by
          rcases gotFirst_cases (s.call c) item with ⟨_, same⟩ | ⟨_, _, same⟩ <;> rw [same]
        rw [becomes, keeps, before] at endpoint
        cases endpoint
        obtain ⟨rest, returned⟩ := fetched_some read
        have unread := inv.heard c e before
        simp only [Call.Heard, place] at unread
        have moves : (next s (.firstReply c)).owner.request e =
            { s.owner.request e with stream := rest } := by
          simpa [next, before, read, State.fetch] using Owner.fetch_eq returned
        rw [becomes, moves]
        rcases serving owner queued linked before with idle | serving
        · rw [idle] at returned
          cases returned
        · exact heard_first serving unread returned
    | wait signal y item place _ before read becomes =>
        have keeps : (gotNext (s.call c) item).endpoint = (s.call c).endpoint := by
          rcases gotNext_cases (s.call c) item with ⟨_, same⟩ | same <;> rw [same]
        rw [becomes, keeps, before] at endpoint
        cases endpoint
        obtain ⟨rest, returned⟩ := fetched_some read
        have unread := inv.heard c e before
        simp only [Call.Heard, place] at unread
        have moves : (next s (.wait c signal)).owner.request e =
            { s.owner.request e with stream := rest } := by
          simpa [next, before, read, State.fetch] using Owner.fetch_eq returned
        rw [becomes, moves]
        rcases serving owner queued linked before with idle | serving
        · rw [idle] at unread
          cases unread.2
        · exact System.heard_next serving unread.1 unread.2 returned
    | unblockFails errno place becomes => cases calm
    | sendInterrupt place becomes =>
        rw [becomes] at endpoint ⊢
        have heard := (inv.heard c e endpoint).other owner linked enabled (by simp [readerOf])
        simp only [Call.Heard, place] at heard ⊢
        exact heard
    | interruptReply x item place read becomes =>
        have same := (inv.interrupt_ok owner queued linked place read).2.2
        rw [becomes, same] at endpoint ⊢
        have reader := (linked.lock c e endpoint).1
        have heard := (inv.heard c e endpoint).other owner linked enabled
          (by simp [readerOf, reader])
        simp only [Call.Heard, place] at heard
        exact heard
    | sendRemove result place becomes =>
        rw [becomes] at endpoint ⊢
        have heard := (inv.heard c e endpoint).other owner linked enabled (by simp [readerOf])
        simp only [Call.Heard, place] at heard ⊢
        exact heard
    | removeReply x result place read becomes =>
        rw [becomes] at endpoint ⊢
        have reader := (linked.lock c e endpoint).1
        have heard := (inv.heard c e endpoint).other owner linked enabled
          (by simp [readerOf, reader])
        simp only [Call.Heard, place] at heard
        exact .inl heard
  · rw [call_next_of_ne own] at endpoint ⊢
    refine (inv.heard c e endpoint).other owner linked enabled ?_
    rw [(linked.lock c e endpoint).1]
    cases a <;> simp_all [readerOf, caller]

include owner queued linked inv enabled calm in
theorem Dialogue.interrupt_next (c : CallId) (x e : RequestId)
    (place : ((next s a).call c).pc = .awaitInterrupt x)
    (endpoint : ((next s a).call c).endpoint = some e) :
    ((next s a).owner.request x).Unread 0 ∧ InterruptPlace e ((next s a).owner.request x) := by
  by_cases own : caller s a = some c
  · obtain ⟨rfl, rfl, _⟩ := (callStep enabled own).awaitInterrupt place
    have idle := Owner.reachable_idle owner s.sent (queued.fresh s.sent le_rfl)
    have same : (next s (.sendInterrupt c)).owner = s.owner := rfl
    rw [same, idle]
    exact ⟨⟨le_rfl, rfl⟩, .inl rfl⟩
  · have carries := (linked.interrupt_next queued enabled c x place).2
    have alive := inv.alive_next enabled calm
    rw [call_next_of_ne own] at place endpoint carries
    have reader := (linked.interrupt c x place).1
    have other : ¬ Reads s x a := by
      apply mt linked.reader
      rw [reader]
      cases a <;> simp_all [readerOf, caller]
    obtain ⟨unread, where_⟩ := inv.interrupt c x e place endpoint
    refine ⟨(request_evolves owner enabled other).unread unread, ?_⟩
    have entry := inv.entry owner queued linked endpoint (by rw [place]; trivial)
      (by rintro (⟨_, returned⟩ | ⟨_, _, removes, _⟩) <;> simp_all)
    have message := carries.received (queued_next queued enabled)
    rcases owner_step enabled with same | ⟨b, step, moves⟩
    · rw [same]
      exact where_
    · rw [moves] at message alive ⊢
      exact interruptPlace_next step entry message alive where_

include owner queued linked inv enabled in
theorem Dialogue.remove_next (c : CallId) (x : RequestId) (result : Returned)
    (place : ((next s a).call c).pc = .awaitRemove x result) :
    ((next s a).owner.request x).Unread 0 ∧ RemovePlace ((next s a).owner.request x) := by
  by_cases own : caller s a = some c
  · obtain ⟨rfl, rfl, before, _⟩ := (callStep enabled own).awaitRemove place
    have idle := Owner.reachable_idle owner s.sent (queued.fresh s.sent le_rfl)
    have same : (next s (.sendRemove c)).owner = s.owner := by simp [next, before]
    rw [same, idle]
    exact ⟨⟨le_rfl, rfl⟩, .inl rfl⟩
  · have carries := (linked.remove_next queued enabled c x result place).2
    rw [call_next_of_ne own] at place carries
    have reader := (linked.remove c x result place).1
    have other : ¬ Reads s x a := by
      apply mt linked.reader
      rw [reader]
      cases a <;> simp_all [readerOf, caller]
    obtain ⟨unread, where_⟩ := inv.remove c x result place
    refine ⟨(request_evolves owner enabled other).unread unread, ?_⟩
    obtain ⟨e, endpoint⟩ := linked.endpoint (c := c) (by rw [place]; trivial)
    have entry : (s.owner.request x).pc = .removeInterrupt →
        s.owner.interrupts (s.call c).interruptId = some e := by
      intro handles
      refine inv.entry owner queued linked endpoint (by rw [place]; trivial) ?_
      rintro (⟨_, returned⟩ | ⟨y, _, removes, handled⟩)
      · rw [place] at returned
        cases returned
      · rw [place] at removes
        cases removes
        rcases handled with handled | handled <;> rw [handles] at handled <;> cases handled
    have message := carries.received (queued_next queued enabled)
    rcases owner_step enabled with same | ⟨b, step, moves⟩
    · rw [same]
      exact where_
    · rw [moves] at message ⊢
      exact removePlace_next step entry message where_

include owner queued linked inv enabled in
theorem Dialogue.removed_next (x : RequestId) (id : UInt64) (c : CallId)
    (carries : Carries (next s a) x (.removeInterrupt id)) (reader : (next s a).sender x = .remove c)
    (returned : ∃ result, ((next s a).call c).pc = .returned result) :
    ((next s a).owner.request x).pc = .finished := by
  have before : Carries s x (.removeInterrupt id) := by
    rcases carries_cases enabled carries with before | ⟨rfl, sender, new⟩
    · exact before
    · -- the call that sends the request waits for it
      exfalso
      obtain ⟨c', sender', _⟩ := linked.removers_next queued enabled _ _ carries
      cases a with
      | sendRemove c' =>
          cases new
          have reader' := (posted enabled rfl).1
          rw [reader] at reader'
          cases reader'
          obtain ⟨result, place⟩ := enabled
          obtain ⟨result', returned⟩ := returned
          simp [next, place] at returned
      | send message =>
          cases new
          cases enabled
      | _ => cases new
  rw [sender_next enabled (before.bound queued)] at reader
  obtain ⟨c', reader', _, place⟩ := linked.removers x id before
  rw [reader] at reader'
  cases reader'
  by_cases own : caller s a = some c
  · have step := callStep enabled own
    cases step with
    | removeReply y result awaits read becomes =>
        have same : y = x := by
          rcases place with ⟨_, place⟩ | ⟨_, place⟩ <;> rw [awaits] at place <;> cases place
          rfl
        subst same
        have finished := inv.remove_read owner queued linked awaits read
        have moves : (next s (.removeReply c)).owner = Owner.next s.owner (.fetch y false) := by
          simp [next, awaits, State.fetch]
        rw [moves]
        rcases Owner.fetch_cases s.owner y false with same | ⟨_, _, _, same⟩ <;> rw [same] <;>
          exact finished
    | call _ _ _ fresh _ | callFails _ _ _ _ fresh _ =>
        rw [linked.unused c fresh.ge] at place
        simp [Call.idle] at place
    | firstReply _ _ other _ _ _ | wait _ _ _ other _ _ _ _ | unblockFails _ other _
    | sendInterrupt other _ | interruptReply _ _ other _ _ | sendRemove _ other _ =>
        simp [other] at place
  · rw [call_next_of_ne own] at returned
    have finished := inv.removed x id c before reader returned
    have other : ¬ Reads s x a := by
      apply mt linked.reader
      rw [reader]
      cases a <;> simp_all [readerOf, caller]
    rw [finished_stays enabled other finished]
    exact finished

include linked enabled in
theorem Removed.next {c : CallId} (removed : Removed s c) : Removed (next s a) c := by
  rcases removed with ⟨result, returned⟩ | ⟨x, result, awaits, handled⟩
  · rw [Removed, linked.returned_stays enabled returned]
    exact .inl ⟨result, returned⟩
  · by_cases own : caller s a = some c
    · have step := callStep enabled own
      cases step with
      | removeReply _ result _ _ becomes => exact .inl ⟨result, by rw [becomes]⟩
      | call _ _ _ fresh _ | callFails _ _ _ _ fresh _ =>
          rw [linked.unused c fresh.ge] at awaits
          cases awaits
      | firstReply _ _ place _ _ _ | wait _ _ _ place _ _ _ _ | unblockFails _ place _
      | sendInterrupt place _ | interruptReply _ _ place _ _ | sendRemove _ place _ =>
          rw [awaits] at place
          cases place
    · rw [Removed, call_next_of_ne own]
      refine .inr ⟨x, result, awaits, ?_⟩
      rcases owner_step enabled with same | ⟨b, step, moves⟩
      · rw [same]
        exact handled
      · rw [moves]
        exact Owner.over_next step handled

include owner queued linked inv enabled in
/-- An entry that the owner removes was that of the call which asked for it. -/
theorem Dialogue.remove_own {c : CallId} {e x : RequestId}
    (endpoint : (s.call c).endpoint = some e) (kept : ¬ Removed (next s a) c)
    (bound : s.owner.interrupts (s.owner.request x).message.id = some e)
    (step : (s.owner.request x).pc = .removeInterrupt)
    (moves : (next s a).owner = Owner.next s.owner (.removeInterrupt x)) : False := by
  have serves := (Owner.reachable_served owner).serves x (by rw [step]; decide)
  rw [step] at serves
  have carries : Carries s x (.removeInterrupt (s.owner.request x).message.id) := by
    refine .inr ⟨by rw [step]; decide, ?_⟩
    cases message : (s.owner.request x).message with
    | removeInterrupt id => rfl
    | lockCommand id action params =>
        rw [message] at serves
        cases action <;> cases serves
    | _ =>
        rw [message] at serves
        cases serves
  obtain ⟨c', reader, id, place⟩ := linked.removers x _ carries
  have awaits : ∃ result, (s.call c').pc = .awaitRemove x result := by
    rcases place with awaits | returned
    · exact awaits
    · have finished := inv.removed x _ c' carries reader returned
      rw [step] at finished
      cases finished
  obtain ⟨result, awaits⟩ := awaits
  obtain ⟨e', endpoint'⟩ := linked.endpoint (c := c') (by rw [awaits]; trivial)
  have entry := inv.entry owner queued linked endpoint' (by rw [awaits]; trivial) (by
    rintro (⟨_, returned⟩ | ⟨y, _, removes, handled⟩)
    · rw [awaits] at returned
      cases returned
    · rw [awaits] at removes
      cases removes
      rcases handled with handled | handled <;> rw [step] at handled <;> cases handled)
  rw [id, bound] at entry
  cases entry
  have same := (linked.lock c e endpoint).1
  rw [(linked.lock c' e endpoint').1] at same
  cases same
  -- it is handled now
  apply kept
  by_cases own : caller s a = some c
  · have own_ := callStep enabled own
    cases own_ with
    | removeReply _ result _ _ becomes => exact .inl ⟨result, by rw [becomes]⟩
    | call _ _ _ fresh _ | callFails _ _ _ _ fresh _ =>
        rw [linked.unused c fresh.ge] at awaits
        cases awaits
    | firstReply _ _ place _ _ _ | wait _ _ _ place _ _ _ _ | unblockFails _ place _
    | sendInterrupt place _ | interruptReply _ _ place _ _ | sendRemove _ place _ =>
        rw [awaits] at place
        cases place
  · refine .inr ⟨x, result, by rw [call_next_of_ne own]; exact awaits, .inl ?_⟩
    rw [moves]
    simp only [Owner.next]
    split <;> simp

include owner queued linked inv enabled in
theorem Dialogue.table_next (c : CallId) (e : RequestId)
    (endpoint : ((next s a).call c).endpoint = some e)
    (inserted : ((next s a).owner.request e).Inserted) (kept : ¬ Removed (next s a) c) :
    (next s a).owner.interrupts ((next s a).owner.request e).id = some e := by
  have before : (s.call c).endpoint = some e := by
    by_cases own : caller s a = some c
    · have step := callStep enabled own
      rcases step.keeps with fresh | ⟨same, _⟩
      · cases step with
        | call id action params _ becomes =>
            rw [becomes] at endpoint
            cases endpoint
            have idle := Owner.reachable_idle owner s.sent (queued.fresh s.sent le_rfl)
            have same : (next s (.call id action params)).owner = s.owner := rfl
            rw [same, idle] at inserted
            cases inserted.1
        | callFails _ _ _ _ _ becomes =>
            rw [becomes] at endpoint
            cases endpoint
        | firstReply _ _ place _ _ _ | wait _ _ _ place _ _ _ _ | unblockFails _ place _
        | sendInterrupt place _ | interruptReply _ _ place _ _ | sendRemove _ place _
        | removeReply _ _ place _ _ =>
            rw [linked.unused c fresh.ge] at place
            cases place
      · exact same ▸ endpoint
    · exact call_next_of_ne own ▸ endpoint
  have table := inv.table c e before
  have still : ¬ Removed s c := mt (Removed.next linked enabled) kept
  rcases owner_step enabled with same | ⟨b, step, moves⟩
  · rw [same] at inserted ⊢
    exact table inserted still
  · rw [moves] at inserted ⊢
    rcases Owner.inserted_cases step (Owner.reachable_attempts owner e) inserted with
      ⟨old, id⟩ | ⟨_, entered⟩
    · rw [id]
      have bound := table old still
      rcases Owner.interrupts_next (a := b) bound with kept' | ⟨x, rfl, same⟩
      · exact kept'
      · rw [← same] at bound
        exact (inv.remove_own owner queued linked enabled before kept bound step moves).elim
    · exact entered

end DialogueStep

theorem dialogue_next {s : State} {a : Action} (owner : Owner.machine.Reachable s.owner)
    (queued : Queued s) (linked : Linked s) (inv : Dialogue s) (enabled : Enabled s a)
    (calm : Calm a = true) : Dialogue (next s a) where
  alive := inv.alive_next enabled calm
  heard := inv.heard_next owner queued linked enabled calm
  interrupt := inv.interrupt_next owner queued linked enabled calm
  remove := inv.remove_next owner queued linked enabled
  removed := inv.removed_next owner queued linked enabled
  table := inv.table_next owner queued linked enabled

theorem reachable_dialogue {Good : State → Action → Prop}
    (calm : ∀ s a, Good s a → Calm a = true) {s : State}
    (reached : machine.ReachableVia Good s) : Dialogue s := by
  have all : (Owner.machine.Reachable s.owner ∧ Queued s ∧ Linked s) ∧ Dialogue s := by
    apply reached.invariant
    · rintro _ rfl
      exact ⟨⟨.initial rfl, queued_initial, linked_initial⟩, dialogue_initial⟩
    · rintro state label ⟨⟨owner, queued, linked⟩, inv⟩ enabled good
      refine ⟨⟨?_, queued_next queued enabled, linked_next queued linked enabled⟩, ?_⟩
      · rcases owner_step enabled with same | ⟨b, step, moves⟩
        · exact same ▸ owner
        · exact moves ▸ Owner.reachable_next owner step
      · exact dialogue_next owner queued linked inv enabled (calm _ _ good)
  exact all.2

end Ulockmgr.System
