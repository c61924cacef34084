import Ulockmgr.System.Invariant

/-!
# Calls and the requests they wait for

Every request of a call is read by that call alone: the lock command, its `Interrupt`, and
the `RemoveInterrupt` of its destructor.  No other request removes an interrupt.
-/

namespace Ulockmgr.System

open Owner (RequestId Request)

/-! ## Steps of a call -/

theorem gotFirst_cases (call : Call) (item : Option Fetched) :
    (∃ result, gotFirst call item = { call with pc := .returned result }) ∨
      call.action = .setLockBlocking ∧
        ∃ id, gotFirst call item = { call with pc := .waiting, interruptId := id } := by
  have one : ∃ result, oneReply call item = { call with pc := .returned result } := by
    unfold oneReply
    (repeat' split) <;> exact ⟨_, rfl⟩
  unfold gotFirst
  split
  · exact .inl one
  · exact .inl one
  · next blocking =>
      unfold firstOfTwo
      (repeat' split)
      · exact .inl ⟨_, rfl⟩
      · exact .inl ⟨_, rfl⟩
      · exact .inl ⟨_, rfl⟩
      · exact .inr ⟨blocking, _, rfl⟩

theorem gotNext_cases (call : Call) (item : Option Fetched) :
    (∃ result, gotNext call item = { call with pc := .sendRemove result }) ∨
      gotNext call item = { call with pc := .sendInterrupt, interrupted := true } := by
  unfold gotNext
  (repeat' split)
  · exact .inl ⟨_, rfl⟩
  · exact .inr rfl
  · exact .inl ⟨_, rfl⟩
  · exact .inl ⟨_, rfl⟩
  · exact .inl ⟨_, rfl⟩
  · exact .inl ⟨_, rfl⟩

theorem gotInterrupt_cases (call : Call) (item : Option Fetched) :
    (∃ result, gotInterrupt call item = { call with pc := .sendRemove result }) ∨
      gotInterrupt call item = { call with pc := .waiting } := by
  unfold gotInterrupt
  split
  · exact .inl ⟨_, rfl⟩
  · exact .inl ⟨_, rfl⟩
  · exact .inl ⟨_, rfl⟩
  · exact .inr rfl

theorem call_next_of_ne {s : State} {a : Action} {c : CallId} (other : caller s a ≠ some c) :
    (next s a).call c = s.call c := by
  cases a <;> simp only [caller, ne_eq, Option.some.injEq] at other <;> simp only [next] <;>
    (repeat' split) <;> simp [State.fetch, Ne.symm other]

/-- All that a step can do to the call that takes it. -/
inductive CallStep (s : State) (c : CallId) (after : Call) : Action → Prop where
  | call (id : UInt64) (action : LockAction) (params : LockParams) (fresh : c = s.calls)
      (becomes : after = { newCall id action params with pc := .first, endpoint := some s.sent }) :
      CallStep s c after (.call id action params)
  | callFails (id : UInt64) (action : LockAction) (params : LockParams) (error : IoError)
      (fresh : c = s.calls)
      (becomes : after = { newCall id action params with pc := .returned (.error error) }) :
      CallStep s c after (.callFails id action params error)
  | firstReply (e : RequestId) (item : Option Fetched) (place : (s.call c).pc = .first)
      (endpoint : (s.call c).endpoint = some e) (read : s.fetched .lockCommand e false = some item)
      (becomes : after = gotFirst (s.call c) item) : CallStep s c after (.firstReply c)
  | wait (signal : Bool) (e : RequestId) (item : Option Fetched) (place : (s.call c).pc = .waiting)
      (deaf : signal = true → (s.call c).interrupted = false)
      (endpoint : (s.call c).endpoint = some e) (read : s.fetched .lockCommand e signal = some item)
      (becomes : after = gotNext (s.call c) item) : CallStep s c after (.wait c signal)
  | unblockFails (errno : Errno) (place : (s.call c).pc = .waiting)
      (becomes : after = { s.call c with pc := .sendRemove (.error (.os errno)) }) :
      CallStep s c after (.unblockFails c errno)
  | sendInterrupt (place : (s.call c).pc = .sendInterrupt)
      (becomes : after = { s.call c with
        pc := .awaitInterrupt s.sent, interrupts := (s.call c).interrupts ++ [s.sent] }) :
      CallStep s c after (.sendInterrupt c)
  | interruptReply (x : RequestId) (item : Option Fetched) (place : (s.call c).pc = .awaitInterrupt x)
      (read : s.fetched .unit x false = some item) (becomes : after = gotInterrupt (s.call c) item) :
      CallStep s c after (.interruptReply c)
  | sendRemove (result : Returned) (place : (s.call c).pc = .sendRemove result)
      (becomes : after = { s.call c with pc := .awaitRemove s.sent result }) :
      CallStep s c after (.sendRemove c)
  | removeReply (x : RequestId) (result : Returned) (place : (s.call c).pc = .awaitRemove x result)
      (read : (s.fetched .unit x false).isSome)
      (becomes : after = { s.call c with pc := .returned result }) :
      CallStep s c after (.removeReply c)

theorem callStep {s : State} {a : Action} {c : CallId} (enabled : Enabled s a)
    (own : caller s a = some c) : CallStep s c ((next s a).call c) a := by
  cases a with
  | call id action params =>
      cases own
      exact .call id action params rfl (by simp [next])
  | callFails id action params error =>
      cases own
      exact .callFails id action params error rfl (by simp [next])
  | firstReply c =>
      cases own
      obtain ⟨place, e, endpoint, read⟩ := enabled
      obtain ⟨item, found⟩ := Option.isSome_iff_exists.mp read
      exact .firstReply e item place endpoint found (by simp [next, endpoint, found])
  | wait c signal =>
      cases own
      obtain ⟨place, deaf, e, endpoint, read⟩ := enabled
      obtain ⟨item, found⟩ := Option.isSome_iff_exists.mp read
      exact .wait signal e item place deaf endpoint found (by simp [next, endpoint, found])
  | unblockFails c errno =>
      cases own
      exact .unblockFails errno enabled.1 (by simp [next])
  | sendInterrupt c =>
      cases own
      exact .sendInterrupt enabled (by simp [next])
  | interruptReply c =>
      cases own
      obtain ⟨x, place, read⟩ := enabled
      obtain ⟨item, found⟩ := Option.isSome_iff_exists.mp read
      exact .interruptReply x item place found (by simp [next, place, found])
  | sendRemove c =>
      cases own
      obtain ⟨result, place⟩ := enabled
      exact .sendRemove result place (by simp [next, place])
  | removeReply c =>
      cases own
      obtain ⟨x, result, place, read⟩ := enabled
      exact .removeReply x result place read (by simp [next, place])
  | _ => cases own

/-- Only the request itself leads to the wait for its answer. -/
theorem CallStep.awaitInterrupt {s : State} {c : CallId} {after : Call} {a : Action}
    (step : CallStep s c after a) {x : RequestId} (place : after.pc = .awaitInterrupt x) :
    a = .sendInterrupt c ∧ x = s.sent ∧ (s.call c).pc = .sendInterrupt ∧
      after.interruptId = (s.call c).interruptId := by
  cases step with
  | sendInterrupt before becomes =>
      rw [becomes] at place ⊢
      cases place
      exact ⟨rfl, rfl, before, rfl⟩
  | firstReply _ item _ _ _ becomes =>
      rcases gotFirst_cases (s.call c) item with ⟨_, same⟩ | ⟨_, _, same⟩ <;>
        simp [becomes, same] at place
  | wait _ _ item _ _ _ _ becomes =>
      rcases gotNext_cases (s.call c) item with ⟨_, same⟩ | same <;>
        simp [becomes, same] at place
  | interruptReply _ item _ _ becomes =>
      rcases gotInterrupt_cases (s.call c) item with ⟨_, same⟩ | same <;>
        simp [becomes, same] at place
  | call _ _ _ _ becomes | callFails _ _ _ _ _ becomes | unblockFails _ _ becomes
  | sendRemove _ _ becomes | removeReply _ _ _ _ becomes => simp [becomes] at place

theorem CallStep.awaitRemove {s : State} {c : CallId} {after : Call} {a : Action}
    (step : CallStep s c after a) {x : RequestId} {result : Returned}
    (place : after.pc = .awaitRemove x result) :
    a = .sendRemove c ∧ x = s.sent ∧ (s.call c).pc = .sendRemove result ∧
      after.interruptId = (s.call c).interruptId := by
  cases step with
  | sendRemove _ before becomes =>
      rw [becomes] at place ⊢
      cases place
      exact ⟨rfl, rfl, before, rfl⟩
  | firstReply _ item _ _ _ becomes =>
      rcases gotFirst_cases (s.call c) item with ⟨_, same⟩ | ⟨_, _, same⟩ <;>
        simp [becomes, same] at place
  | wait _ _ item _ _ _ _ becomes =>
      rcases gotNext_cases (s.call c) item with ⟨_, same⟩ | same <;>
        simp [becomes, same] at place
  | interruptReply _ item _ _ becomes =>
      rcases gotInterrupt_cases (s.call c) item with ⟨_, same⟩ | same <;>
        simp [becomes, same] at place
  | call _ _ _ _ becomes | callFails _ _ _ _ _ becomes | unblockFails _ _ becomes
  | sendInterrupt _ becomes | removeReply _ _ _ _ becomes => simp [becomes] at place

/-- Only a new call waits for its first reply. -/
theorem CallStep.first {s : State} {c : CallId} {after : Call} {a : Action}
    (step : CallStep s c after a) (place : after.pc = .first) :
    (∃ id action params, a = .call id action params) ∧ c = s.calls ∧
      after.endpoint = some s.sent := by
  cases step with
  | call id action params fresh becomes => exact ⟨⟨id, action, params, rfl⟩, fresh, by rw [becomes]⟩
  | firstReply _ item _ _ _ becomes =>
      rcases gotFirst_cases (s.call c) item with ⟨_, same⟩ | ⟨_, _, same⟩ <;>
        simp [becomes, same] at place
  | wait _ _ item _ _ _ _ becomes =>
      rcases gotNext_cases (s.call c) item with ⟨_, same⟩ | same <;>
        simp [becomes, same] at place
  | interruptReply _ item _ _ becomes =>
      rcases gotInterrupt_cases (s.call c) item with ⟨_, same⟩ | same <;>
        simp [becomes, same] at place
  | callFails _ _ _ _ _ becomes | unblockFails _ _ becomes | sendInterrupt _ becomes
  | sendRemove _ _ becomes | removeReply _ _ _ _ becomes => simp [becomes] at place

/-! ## Readers -/

/-- The places between the first reply and the return. -/
def Pc.Inside : Pc → Prop
  | .waiting | .sendInterrupt | .awaitInterrupt _ | .sendRemove _ | .awaitRemove _ _ => True
  | .idle | .first | .returned _ => False

structure Linked (s : State) : Prop where
  unused : ∀ c, s.calls ≤ c → s.call c = Call.idle
  sent : ∀ c, (s.call c).endpoint = none → (s.call c).pc = .idle ∨ ∃ r, (s.call c).pc = .returned r
  started : ∀ c e, (s.call c).endpoint = some e → (s.call c).pc ≠ .idle
  inside : ∀ c, (s.call c).pc.Inside → (s.call c).action = .setLockBlocking
  lock : ∀ c e, (s.call c).endpoint = some e →
    s.sender e = .lock c ∧ Carries s e (s.call c).message
  interrupt : ∀ c x, (s.call c).pc = .awaitInterrupt x →
    s.sender x = .interrupt c ∧ Carries s x (.interrupt (s.call c).interruptId)
  remove : ∀ c x result, (s.call c).pc = .awaitRemove x result →
    s.sender x = .remove c ∧ Carries s x (.removeInterrupt (s.call c).interruptId)
  removers : ∀ x id, Carries s x (.removeInterrupt id) →
    ∃ c, s.sender x = .remove c ∧ (s.call c).interruptId = id ∧
      ((∃ result, (s.call c).pc = .awaitRemove x result) ∨ ∃ result, (s.call c).pc = .returned result)

theorem linked_initial : Linked initial := by
  constructor <;> simp [initial, Call.idle, Pc.Inside, Carries, Owner.initial, Request.idle]

theorem sender_next {s : State} {a : Action} (enabled : Enabled s a) {x : RequestId}
    (old : x < s.sent) : (next s a).sender x = s.sender x := by
  rcases posts_cases enabled with ⟨_, _, _, _, _, _, senders⟩ | ⟨_, _, senders, _⟩
  · rw [senders, if_neg old.ne]
  · exact senders x

theorem posted {s : State} {a : Action} (enabled : Enabled s a) {sender : Sender}
    {message : Message} (posts_ : posts s a = some (sender, message)) :
    (next s a).sender s.sent = sender ∧ Carries (next s a) s.sent message := by
  rcases posts_cases enabled with ⟨_, _, same, _, grown, _, senders⟩ | ⟨none_, _⟩
  · rw [posts_] at same
    cases same
    refine ⟨by rw [senders, if_pos rfl], .inl ?_⟩
    rw [grown]
    simp
  · rw [posts_] at none_
    cases none_

/-- What a call keeps once it is made. -/
theorem CallStep.keeps {s : State} {c : CallId} {after : Call} {a : Action}
    (step : CallStep s c after a) :
    c = s.calls ∨
      after.endpoint = (s.call c).endpoint ∧ after.action = (s.call c).action ∧
        after.message = (s.call c).message ∧
          ((s.call c).pc ≠ .first → after.interruptId = (s.call c).interruptId) := by
  cases step with
  | call _ _ _ fresh _ => exact .inl fresh
  | callFails _ _ _ _ fresh _ => exact .inl fresh
  | firstReply _ item place _ _ becomes =>
      right
      rcases gotFirst_cases (s.call c) item with ⟨_, same⟩ | ⟨_, _, same⟩ <;>
        simp [becomes, same, place, Call.message]
  | wait _ _ item _ _ _ _ becomes =>
      right
      rcases gotNext_cases (s.call c) item with ⟨_, same⟩ | same <;>
        simp [becomes, same, Call.message]
  | interruptReply _ item _ _ becomes =>
      right
      rcases gotInterrupt_cases (s.call c) item with ⟨_, same⟩ | same <;>
        simp [becomes, same, Call.message]
  | unblockFails _ _ becomes => simp [becomes, Call.message]
  | sendInterrupt _ becomes => simp [becomes, Call.message]
  | sendRemove _ _ becomes => simp [becomes, Call.message]
  | removeReply _ _ _ _ becomes => simp [becomes, Call.message]

section LinkedStep
variable {s : State} {a : Action} (queued : Queued s) (inv : Linked s) (enabled : Enabled s a)
include inv enabled

theorem Linked.unused_next (c : CallId) (above : (next s a).calls ≤ c) :
    (next s a).call c = Call.idle := by
  have calls : s.calls ≤ (next s a).calls := by
    cases a <;> simp only [next] <;> (repeat' split) <;> simp [State.fetch]
  have before := inv.unused c (le_trans calls above)
  by_cases own : caller s a = some c
  · have step := callStep enabled own
    cases step with
    | call _ _ _ fresh _ | callFails _ _ _ _ fresh _ =>
        rw [fresh] at above
        exact (Nat.not_succ_le_self _ above).elim
    | firstReply _ _ place _ _ _ | wait _ _ _ place _ _ _ _ | unblockFails _ place _
    | sendInterrupt place _ | interruptReply _ _ place _ _ | sendRemove _ place _
    | removeReply _ _ place _ _ =>
        rw [before] at place
        cases place
  · rw [call_next_of_ne own]
    exact before

theorem Linked.sent_next (c : CallId) (none_ : ((next s a).call c).endpoint = none) :
    ((next s a).call c).pc = .idle ∨ ∃ r, ((next s a).call c).pc = .returned r := by
  by_cases own : caller s a = some c
  · have old := inv.sent c
    have step := callStep enabled own
    cases step with
    | call _ _ _ _ becomes =>
        rw [becomes] at none_
        cases none_
    | callFails _ _ _ _ _ becomes =>
        rw [becomes]
        exact .inr ⟨_, rfl⟩
    | removeReply _ _ _ _ becomes =>
        rw [becomes]
        exact .inr ⟨_, rfl⟩
    | firstReply _ item place endpoint _ becomes =>
        rcases gotFirst_cases (s.call c) item with ⟨_, same⟩ | ⟨_, _, same⟩ <;>
          simp [becomes, same, endpoint] at none_
    | wait _ _ item place _ endpoint _ becomes =>
        rcases gotNext_cases (s.call c) item with ⟨_, same⟩ | same <;>
          simp [becomes, same, endpoint] at none_
    | interruptReply _ item place _ becomes =>
        rcases gotInterrupt_cases (s.call c) item with ⟨_, same⟩ | same <;>
          simp_all
    | unblockFails _ place becomes => simp_all
    | sendInterrupt place becomes => simp_all
    | sendRemove _ place becomes => simp_all
  · rw [call_next_of_ne own] at none_ ⊢
    exact inv.sent c none_

theorem Linked.started_next (c : CallId) (e : RequestId)
    (endpoint : ((next s a).call c).endpoint = some e) : ((next s a).call c).pc ≠ .idle := by
  by_cases own : caller s a = some c
  · have step := callStep enabled own
    cases step with
    | firstReply _ item _ _ _ becomes =>
        rcases gotFirst_cases (s.call c) item with ⟨_, same⟩ | ⟨_, _, same⟩ <;>
          simp [becomes, same]
    | wait _ _ item _ _ _ _ becomes =>
        rcases gotNext_cases (s.call c) item with ⟨_, same⟩ | same <;> simp [becomes, same]
    | interruptReply _ item _ _ becomes =>
        rcases gotInterrupt_cases (s.call c) item with ⟨_, same⟩ | same <;> simp [becomes, same]
    | call _ _ _ _ becomes | callFails _ _ _ _ _ becomes | unblockFails _ _ becomes
    | sendInterrupt _ becomes | sendRemove _ _ becomes | removeReply _ _ _ _ becomes =>
        simp [becomes]
  · rw [call_next_of_ne own] at endpoint ⊢
    exact inv.started c e endpoint

theorem Linked.inside_next (c : CallId) (inside : ((next s a).call c).pc.Inside) :
    ((next s a).call c).action = .setLockBlocking := by
  by_cases own : caller s a = some c
  · have old := inv.inside c
    have step := callStep enabled own
    cases step with
    | firstReply _ item place _ _ becomes =>
        rcases gotFirst_cases (s.call c) item with ⟨_, same⟩ | ⟨blocking, _, same⟩
        · rw [becomes, same] at inside
          exact inside.elim
        · rw [becomes, same]
          exact blocking
    | call _ _ _ _ becomes =>
        rw [becomes] at inside
        exact inside.elim
    | callFails _ _ _ _ _ becomes =>
        rw [becomes] at inside
        exact inside.elim
    | wait _ _ item place _ _ _ becomes =>
        rw [place] at old
        rcases gotNext_cases (s.call c) item with ⟨_, same⟩ | same <;>
          simpa [becomes, same] using old trivial
    | interruptReply _ item place _ becomes =>
        rw [place] at old
        rcases gotInterrupt_cases (s.call c) item with ⟨_, same⟩ | same <;>
          simpa [becomes, same] using old trivial
    | unblockFails _ place becomes =>
        rw [place] at old
        simpa [becomes] using old trivial
    | sendInterrupt place becomes =>
        rw [place] at old
        simpa [becomes] using old trivial
    | sendRemove _ place becomes =>
        rw [place] at old
        simpa [becomes] using old trivial
    | removeReply _ _ place _ becomes =>
        rw [place] at old
        simpa [becomes] using old trivial
  · rw [call_next_of_ne own] at inside ⊢
    exact inv.inside c inside

include queued

theorem Linked.lock_next (c : CallId) (e : RequestId)
    (endpoint : ((next s a).call c).endpoint = some e) :
    (next s a).sender e = .lock c ∧ Carries (next s a) e ((next s a).call c).message := by
  have kept : (s.call c).endpoint = some e → ((next s a).call c).message = (s.call c).message →
      (next s a).sender e = .lock c ∧ Carries (next s a) e ((next s a).call c).message := by
    intro before message
    obtain ⟨reader, carries⟩ := inv.lock c e before
    rw [sender_next enabled (carries.bound queued), message]
    exact ⟨reader, carries.next enabled⟩
  by_cases own : caller s a = some c
  · have step := callStep enabled own
    rcases step.keeps with fresh | ⟨same, _, message, _⟩
    · cases step with
      | call id action params _ becomes =>
          rw [becomes] at endpoint ⊢
          cases endpoint
          rw [fresh]
          exact posted enabled rfl
      | callFails _ _ _ _ _ becomes =>
          rw [becomes] at endpoint
          cases endpoint
      | firstReply _ _ place _ _ _ | wait _ _ _ place _ _ _ _ | unblockFails _ place _
      | sendInterrupt place _ | interruptReply _ _ place _ _ | sendRemove _ place _
      | removeReply _ _ place _ _ =>
          rw [inv.unused c fresh.ge] at place
          cases place
    · exact kept (same ▸ endpoint) message
  · rw [call_next_of_ne own] at endpoint
    exact kept endpoint (by rw [call_next_of_ne own])

theorem Linked.interrupt_next (c : CallId) (x : RequestId)
    (place : ((next s a).call c).pc = .awaitInterrupt x) :
    (next s a).sender x = .interrupt c ∧
      Carries (next s a) x (.interrupt ((next s a).call c).interruptId) := by
  by_cases own : caller s a = some c
  · obtain ⟨rfl, rfl, _, id⟩ := (callStep enabled own).awaitInterrupt place
    rw [id]
    exact posted enabled rfl
  · rw [call_next_of_ne own] at place ⊢
    obtain ⟨reader, carries⟩ := inv.interrupt c x place
    rw [sender_next enabled (carries.bound queued)]
    exact ⟨reader, carries.next enabled⟩

theorem Linked.remove_next (c : CallId) (x : RequestId) (result : Returned)
    (place : ((next s a).call c).pc = .awaitRemove x result) :
    (next s a).sender x = .remove c ∧
      Carries (next s a) x (.removeInterrupt ((next s a).call c).interruptId) := by
  by_cases own : caller s a = some c
  · obtain ⟨rfl, rfl, _, id⟩ := (callStep enabled own).awaitRemove place
    rw [id]
    exact posted enabled rfl
  · rw [call_next_of_ne own] at place ⊢
    obtain ⟨reader, carries⟩ := inv.remove c x result place
    rw [sender_next enabled (carries.bound queued)]
    exact ⟨reader, carries.next enabled⟩

theorem Linked.removers_next (x : RequestId) (id : UInt64)
    (carries : Carries (next s a) x (.removeInterrupt id)) :
    ∃ c, (next s a).sender x = .remove c ∧ ((next s a).call c).interruptId = id ∧
      ((∃ result, ((next s a).call c).pc = .awaitRemove x result) ∨
        ∃ result, ((next s a).call c).pc = .returned result) := by
  rcases carries_cases enabled carries with before | ⟨rfl, sender, new⟩
  · obtain ⟨c, reader, same, place⟩ := inv.removers x id before
    refine ⟨c, ?_, ?_⟩
    · rw [sender_next enabled (before.bound queued)]
      exact reader
    · by_cases own : caller s a = some c
      · have step := callStep enabled own
        cases step with
        | removeReply y result _ _ becomes => simp [becomes, same]
        | call _ _ _ fresh _ | callFails _ _ _ _ fresh _ =>
            rw [inv.unused c fresh.ge] at place
            simp [Call.idle] at place
        | firstReply _ _ other _ _ _ | wait _ _ _ other _ _ _ _ | unblockFails _ other _
        | sendInterrupt other _ | interruptReply _ _ other _ _ | sendRemove _ other _ =>
            simp [other] at place
      · rw [call_next_of_ne own]
        exact ⟨same, place⟩
  · -- the only requests of this kind are those of a destructor
    cases a with
    | sendRemove c =>
        cases new
        have reader := (posted enabled rfl).1
        obtain ⟨result, place⟩ := enabled
        refine ⟨c, reader, ?_⟩
        simp [next, place]
    | send message =>
        cases new
        cases enabled
    | _ => cases new

end LinkedStep

theorem linked_next {s : State} {a : Action} (queued : Queued s) (inv : Linked s)
    (enabled : Enabled s a) : Linked (next s a) where
  unused := inv.unused_next enabled
  sent := inv.sent_next enabled
  started := inv.started_next enabled
  inside := inv.inside_next enabled
  lock := inv.lock_next queued enabled
  interrupt := inv.interrupt_next queued enabled
  remove := inv.remove_next queued enabled
  removers := inv.removers_next queued enabled

theorem reachable_linked {Good : State → Action → Prop} {s : State}
    (reached : machine.ReachableVia Good s) : Queued s ∧ Linked s := by
  apply reached.invariant
  · rintro _ rfl
    exact ⟨queued_initial, linked_initial⟩
  · rintro state label ⟨queued, linked⟩ enabled _
    exact ⟨queued_next queued enabled, linked_next queued linked enabled⟩

/-- A call keeps its request. -/
theorem Linked.keeps {s : State} {a : Action} (linked : Linked s) (enabled : Enabled s a)
    {c : CallId} {e : RequestId} (endpoint : (s.call c).endpoint = some e) :
    ((next s a).call c).endpoint = some e ∧
      ((next s a).call c).message = (s.call c).message := by
  by_cases own : caller s a = some c
  · rcases (callStep enabled own).keeps with fresh | ⟨same, _, message, _⟩
    · rw [linked.unused c fresh.ge] at endpoint
      cases endpoint
    · exact ⟨same.trans endpoint, message⟩
  · rw [call_next_of_ne own]
    exact ⟨endpoint, rfl⟩

/-- A call that has returned takes no more steps. -/
theorem Linked.returned_stays {s : State} {a : Action} (linked : Linked s) (enabled : Enabled s a)
    {c : CallId} {result : Returned} (returned : (s.call c).pc = .returned result) :
    (next s a).call c = s.call c := by
  by_cases own : caller s a = some c
  · have step := callStep enabled own
    cases step with
    | call _ _ _ fresh _ | callFails _ _ _ _ fresh _ =>
        rw [linked.unused c fresh.ge] at returned
        cases returned
    | firstReply _ _ place _ _ _ | wait _ _ _ place _ _ _ _ | unblockFails _ place _
    | sendInterrupt place _ | interruptReply _ _ place _ _ | sendRemove _ place _
    | removeReply _ _ place _ _ =>
        rw [returned] at place
        cases place
  · exact call_next_of_ne own

/-- Whose replies a step reads. -/
def readerOf : Action → Option Sender
  | .firstReply c | .wait c _ => some (.lock c)
  | .interruptReply c => some (.interrupt c)
  | .removeReply c => some (.remove c)
  | .owner _ | .deliver | .send _ | .call _ _ _ | .callFails _ _ _ _ | .unblockFails _ _
  | .sendInterrupt _ | .sendRemove _ => none

theorem Linked.reader {s : State} (linked : Linked s) {a : Action} {x : RequestId}
    (reads : Reads s x a) : readerOf a = some (s.sender x) := by
  cases a with
  | firstReply c => rw [(linked.lock c x reads).1, readerOf]
  | wait c signal => rw [(linked.lock c x reads).1, readerOf]
  | interruptReply c => rw [(linked.interrupt c x reads).1, readerOf]
  | removeReply c =>
      obtain ⟨result, place⟩ := reads
      rw [(linked.remove c x result place).1, readerOf]
  | _ => exact reads.elim

/-- A handler that is done stays so, and writes nothing. -/
theorem finished_stays {s : State} {a : Action} (enabled : Enabled s a) {x : RequestId}
    (other : ¬ Reads s x a) (finished : (s.owner.request x).pc = .finished) :
    (next s a).owner.request x = s.owner.request x := by
  rcases owner_cases enabled with same | ⟨b, _, internal, step, moves⟩ |
    ⟨e, m, _, _, _, _, step, moves⟩ | ⟨y, signal, reads, step, moves⟩
  · rw [same]
  · rw [moves]
    refine Owner.finished_next step finished ?_
    rintro signal rfl
    cases internal
  · rw [moves]
    exact Owner.finished_next step finished (by rintro signal ⟨⟩)
  · rw [moves]
    refine Owner.finished_next step finished ?_
    rintro signal same
    cases same
    exact other reads

end Ulockmgr.System
