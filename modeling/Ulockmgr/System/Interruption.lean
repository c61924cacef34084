import Ulockmgr.System.Progress

/-!
# Interruption loses and invents no lock

A blocking call that was answered `Pending` returns what the second attempt of its worker
came to, no matter when signals arrive and what the owner does in between.
-/

namespace Ulockmgr.System

open Owner (RequestId Request Outcome)

/-- The result a call has and will return. -/
def Pc.result : Pc → Option Returned
  | .sendRemove result | .awaitRemove _ result | .returned result => some result
  | .idle | .first | .waiting | .sendInterrupt | .awaitInterrupt _ => none

/-- What the result of `F_SETLKW` is to the caller. -/
def resultOf (params : LockParams) : Outcome → Returned
  | .ok () => .ok params
  | .error errno => .error (IoError.fromRawOsError errno)

/-! ## Interrupt requests -/

/-- A call asks for an interruption once, and the answer is `Ok`. -/
structure Asks (s : State) : Prop where
  asking : ∀ c, (s.call c).pc = .sendInterrupt → (s.call c).interrupted = true
  once : ∀ c, (s.call c).interrupts = [] ∨
    (∃ x, (s.call c).interrupts = [x]) ∧ (s.call c).interrupted = true ∧
      (s.call c).pc ≠ .sendInterrupt
  answered : ∀ c x, x ∈ (s.call c).interrupts → (s.call c).pc = .awaitInterrupt x ∨
    (s.owner.request x).pc = .finished ∧ (s.owner.request x).replies = [.ok .unit]

theorem asks_initial : Asks initial := by
  constructor <;> simp [initial, Call.idle]

/-- The worker of a call cannot fail to unblock its signal. -/
def Unmasked (s : State) : Prop :=
  ∀ e errno, (s.owner.request e).unmasked ≠ some (.error errno)

theorem unmasked_next {s : State} {a : Action} (inv : Unmasked s) (enabled : Enabled s a)
    (assumed : Assumed a = true) : Unmasked (next s a) := by
  intro e errno
  have cases_ : ∀ b, ((Owner.next s.owner b).request e).unmasked = some (.error errno) →
      (s.owner.request e).unmasked = some (.error errno) ∨ b = .unblockSignal e (.error errno) := by
    intro b
    by_cases own : e = b.actor
    · subst own
      cases b <;> simp only [Owner.Action.actor] <;> simp only [Owner.next] <;>
        (repeat' split) <;> grind [Request.idle]
    · rw [Owner.request_next_of_ne s.owner own]
      exact .inl
  have old := inv e errno
  rcases owner_cases enabled with same | ⟨b, rfl, _, _, moves⟩ | ⟨_, _, _, _, _, _, _, moves⟩ |
    ⟨_, _, _, _, moves⟩
  · rw [same]
    exact old
  · rw [moves]
    intro fails
    rcases cases_ b fails with before | rfl
    · exact old before
    · cases assumed
  · rw [moves]
    intro fails
    rcases cases_ _ fails with before | unblocks
    · exact old before
    · cases unblocks
  · rw [moves]
    intro fails
    rcases cases_ _ fails with before | unblocks
    · exact old before
    · cases unblocks

section AsksStep
variable {s : State} {a : Action} (owner : Owner.machine.Reachable s.owner) (queued : Queued s)
  (linked : Linked s) (dialogue : Dialogue s) (inv : Asks s) (enabled : Enabled s a)

include owner queued linked dialogue in
/-- A signal ends a wait, and nothing is taken off the socket. -/
theorem wait_interrupted {c : CallId} {signal : Bool} {e : RequestId} {item : Option Fetched}
    (place : (s.call c).pc = .waiting) (endpoint : (s.call c).endpoint = some e)
    (read : s.fetched .lockCommand e signal = some item)
    (asks : (gotNext (s.call c) item).pc = .sendInterrupt) :
    signal = true ∧ (s.fetch e signal).owner.request e = s.owner.request e := by
  have heard := dialogue.heard c e endpoint
  simp only [Call.Heard, place] at heard
  obtain ⟨unread, pending⟩ := heard
  obtain ⟨rest, returned⟩ := fetched_some read
  rcases serving owner queued linked endpoint with idle | serving
  · rw [idle] at pending
    cases pending
  · rcases wait_cases serving unread pending returned with
      ⟨signalled, _, rfl⟩ | ⟨last, answersLast, _, rfl⟩
    · exact ⟨signalled, Owner.fetch_eq returned⟩
    · obtain ⟨result, _, same⟩ := gotNext_terminal (s.call c) answersLast.terminal
      rw [same] at asks
      cases asks

include inv enabled in
theorem Asks.asking_next (c : CallId) (place : ((next s a).call c).pc = .sendInterrupt) :
    ((next s a).call c).interrupted = true := by
  by_cases own : caller s a = some c
  · have step := callStep enabled own
    cases step with
    | wait _ _ item _ _ _ _ becomes =>
        rcases gotNext_cases (s.call c) item with ⟨_, same⟩ | same
        · simp [becomes, same] at place
        · rw [becomes, same]
    | firstReply _ item _ _ _ becomes =>
        rcases gotFirst_cases (s.call c) item with ⟨_, same⟩ | ⟨_, _, same⟩ <;>
          simp [becomes, same] at place
    | interruptReply _ item _ _ becomes =>
        rcases gotInterrupt_cases (s.call c) item with ⟨_, same⟩ | same <;>
          simp [becomes, same] at place
    | call _ _ _ _ becomes | callFails _ _ _ _ _ becomes | unblockFails _ _ becomes
    | sendInterrupt _ becomes | sendRemove _ _ becomes | removeReply _ _ _ _ becomes =>
        simp [becomes] at place
  · rw [call_next_of_ne own] at place ⊢
    exact inv.asking c place

include owner queued linked dialogue inv enabled in
theorem Asks.once_next (c : CallId) :
    ((next s a).call c).interrupts = [] ∨
      (∃ x, ((next s a).call c).interrupts = [x]) ∧ ((next s a).call c).interrupted = true ∧
        ((next s a).call c).pc ≠ .sendInterrupt := by
  by_cases own : caller s a = some c
  · have old := inv.once c
    have moves : ∀ pc : Pc, pc ≠ .sendInterrupt → (s.call c).interrupts = [] ∨
        (∃ x, (s.call c).interrupts = [x]) ∧ (s.call c).interrupted = true ∧
          pc ≠ .sendInterrupt := by
      intro pc other
      rcases old with nothing | ⟨one, interrupted, _⟩
      · exact .inl nothing
      · exact .inr ⟨one, interrupted, other⟩
    have step := callStep enabled own
    cases step with
    | wait signal e item place deaf endpoint read becomes =>
        rcases gotNext_cases (s.call c) item with ⟨_, same⟩ | same
        · rw [becomes, same]
          exact moves _ (by simp)
        · have signalled := (wait_interrupted owner queued linked dialogue place endpoint read
            (by rw [same])).1
          rcases old with none_ | ⟨_, interrupted, _⟩
          · exact .inl (by simp [becomes, same, none_])
          · rw [deaf signalled] at interrupted
            cases interrupted
    | sendInterrupt place becomes =>
        rcases old with none_ | ⟨_, _, other⟩
        · refine .inr ⟨⟨s.sent, by simp [becomes, none_]⟩, ?_, by simp [becomes]⟩
          rw [becomes]
          exact inv.asking c place
        · exact (other place).elim
    | call _ _ _ _ becomes | callFails _ _ _ _ _ becomes =>
        exact .inl (by simp [becomes, newCall, Call.idle])
    | firstReply _ item _ _ _ becomes =>
        rcases gotFirst_cases (s.call c) item with ⟨_, same⟩ | ⟨_, _, same⟩ <;>
          rw [becomes, same] <;> exact moves _ (by simp)
    | interruptReply _ item _ _ becomes =>
        rcases gotInterrupt_cases (s.call c) item with ⟨_, same⟩ | same <;>
          rw [becomes, same] <;> exact moves _ (by simp)
    | unblockFails _ _ becomes | sendRemove _ _ becomes | removeReply _ _ _ _ becomes =>
        rw [becomes]
        exact moves _ (by simp)
  · rw [call_next_of_ne own]
    exact inv.once c

include owner queued linked dialogue inv enabled in
theorem Asks.answered_next (c : CallId) (x : RequestId)
    (member : x ∈ ((next s a).call c).interrupts) :
    ((next s a).call c).pc = .awaitInterrupt x ∨
      ((next s a).owner.request x).pc = .finished ∧
        ((next s a).owner.request x).replies = [.ok .unit] := by
  have stays : (s.owner.request x).pc = .finished ∧ (s.owner.request x).replies = [.ok .unit] →
      ((next s a).owner.request x).pc = .finished ∧
        ((next s a).owner.request x).replies = [.ok .unit] := by
    rintro ⟨finished, replies⟩
    rcases owner_step enabled with same | ⟨b, step, moves⟩
    · rw [same]
      exact ⟨finished, replies⟩
    · rw [moves]
      obtain ⟨finished', same⟩ := Owner.finished_replies step finished
      exact ⟨finished', same.trans replies⟩
  by_cases own : caller s a = some c
  · have old := inv.answered c x
    have step := callStep enabled own
    cases step with
    | sendInterrupt place becomes =>
        rcases inv.once c with none_ | ⟨_, _, other⟩
        · rw [becomes] at member ⊢
          rw [none_] at member
          cases List.mem_singleton.mp member
          exact .inl rfl
        · exact (other place).elim
    | interruptReply y item place read becomes =>
        right
        apply stays
        have before : x ∈ (s.call c).interrupts := by
          rcases gotInterrupt_cases (s.call c) item with ⟨_, same⟩ | same <;>
            rwa [becomes, same] at member
        rcases old before with awaits | done
        · rw [place] at awaits
          cases awaits
          obtain ⟨finished, replies, _⟩ := dialogue.interrupt_ok owner queued linked place read
          exact ⟨finished, replies⟩
        · exact done
    | call _ _ _ _ becomes | callFails _ _ _ _ _ becomes =>
        rw [becomes] at member
        cases member
    | firstReply _ item place _ _ becomes =>
        right
        apply stays
        rcases gotFirst_cases (s.call c) item with ⟨_, same⟩ | ⟨_, _, same⟩ <;>
          rw [becomes, same] at member <;> simpa [place] using old member
    | wait _ _ item place _ _ _ becomes =>
        right
        apply stays
        rcases gotNext_cases (s.call c) item with ⟨_, same⟩ | same <;>
          rw [becomes, same] at member <;> simpa [place] using old member
    | unblockFails _ place becomes | sendRemove _ place becomes | removeReply _ _ place _ becomes =>
        right
        apply stays
        rw [becomes] at member
        simpa [place] using old member
  · rw [call_next_of_ne own] at member ⊢
    exact (inv.answered c x member).imp_right stays

end AsksStep

theorem reachable_asks {s : State} (reached : machine.ReachableVia (fun _ a => Assumed a = true) s) :
    Asks s ∧ Unmasked s := by
  induction reached with
  | initial starts =>
      cases starts
      exact ⟨asks_initial, fun e errno => by simp [initial, Owner.initial, Request.idle]⟩
  | step reached enabled assumed ih =>
      have owner := reachable_owner reached
      obtain ⟨queued, linked⟩ := reachable_linked reached
      have dialogue := reachable_dialogue (fun _ _ => Assumed.calm) reached
      obtain ⟨asks, unmasked⟩ := ih
      exact ⟨⟨asks.asking_next enabled, asks.once_next owner queued linked dialogue enabled,
        asks.answered_next owner queued linked dialogue enabled⟩,
        unmasked_next unmasked enabled assumed⟩

/-! ## The result -/

theorem Call.Heard.concluded {call : Call} {request : Request} {id : UInt64} {result : Returned}
    (heard : call.Heard request) (pending : request.replies.head? = some (pendingReply id))
    (settled : call.pc.result = some result) : Concluded request call.interruptId result := by
  cases place : call.pc with
  | sendRemove r | awaitRemove x r =>
      rw [place] at settled
      cases settled
      simpa only [Call.Heard, place] using heard
  | returned r =>
      rw [place] at settled
      cases settled
      simp only [Call.Heard, place] at heard
      rcases heard with concluded | ⟨reply, rest, replies, settles⟩ | ⟨_, silent, _⟩
      · exact concluded
      · rw [replies] at pending
        cases pending
        rcases settles with ⟨_, done, _⟩ | ⟨_, fails, _⟩
        · cases done
        · cases fails
      · rw [silent] at pending
        cases pending
  | idle | first | waiting | sendInterrupt | awaitInterrupt x =>
      rw [place] at settled
      cases settled

theorem Settles.doneReply {request : Request} {params : LockParams} {outcome : Outcome}
    {result : Returned} (asked : request.message.params = params)
    (settles : Settles (request.doneReply outcome) result) : result = resultOf params outcome := by
  cases outcome with
  | ok done =>
      rcases settles with ⟨_, same, rfl⟩ | ⟨_, same, _⟩
      · cases same
        rw [asked]
        rfl
      · cases same
  | error errno =>
      rcases settles with ⟨_, same, _⟩ | ⟨_, same, rfl⟩
      · cases same
      · cases same
        rfl

section Result
variable {s : State} (reached : machine.ReachableVia (fun _ a => Assumed a = true) s)
  {c : CallId} {e : RequestId} (endpoint : (s.call c).endpoint = some e) {id : UInt64}
  (pending : (s.owner.request e).replies.head? = some (pendingReply id))
include reached endpoint pending

/-- A call that was answered `Pending` has the result of the second attempt of its worker. -/
theorem result_eq {result : Returned} (settled : (s.call c).pc.result = some result) :
    ∃ outcome, (s.owner.request e).second = some outcome ∧
      result = resultOf (s.call c).params outcome := by
  have owner := reachable_owner reached
  obtain ⟨queued, linked⟩ := reachable_linked reached
  have dialogue := reachable_dialogue (fun _ _ => Assumed.calm) reached
  obtain ⟨_, unmasked⟩ := reachable_asks reached
  obtain ⟨last, rest, replies, settles⟩ := (dialogue.heard c e endpoint).concluded pending settled
  rcases serving owner queued linked endpoint with idle | serving
  · rw [idle] at pending
    cases pending
  · have locks : (Owner.task (s.owner.request e).message).Locks :=
      serving.message ▸ (s.call c).locks
    obtain ⟨_, masked, ⟨one, _⟩ | ⟨last', answersLast, two⟩⟩ :=
      serving.transcript.pending pending serving.serves locks
    · rw [replies] at one
      cases one
    · rw [replies] at two
      cases two
      rcases answersLast with ⟨errno, blocked | unblocked, _⟩ | ⟨_, outcome, second, rfl⟩
      · rw [masked] at blocked
        cases blocked
      · exact (unmasked e errno unblocked).elim
      · refine ⟨outcome, second, settles.doneReply ?_⟩
        rw [serving.message]
        rfl

omit pending in
/-- An `Interrupt` request of a call is answered `Ok` or not yet. -/
theorem interrupt_replies {x : RequestId} (asks : x ∈ (s.call c).interrupts) :
    ∀ reply ∈ (s.owner.request x).replies, reply = .ok .unit := by
  have owner := reachable_owner reached
  obtain ⟨queued, linked⟩ := reachable_linked reached
  have dialogue := reachable_dialogue (fun _ _ => Assumed.calm) reached
  have served := Owner.reachable_served owner
  rcases (reachable_asks reached).1.answered c x asks with awaits | ⟨_, replies⟩
  · have once := (linked.interrupt c x awaits).2.once owner queued (by simp [Owner.task])
    obtain ⟨_, place⟩ := dialogue.interrupt c x e awaits endpoint
    by_cases finished : (s.owner.request x).pc = .finished
    · have out : (s.owner.request x).out = .ok .unit := by
        simpa [InterruptPlace, finished] using place
      have answered := (served.answered x once finished).resolve_right dialogue.alive
      simp [answered, out]
    · simp [served.silent x once finished]
  · simp [replies]

omit endpoint pending in
theorem interrupts_le : (s.call c).interrupts.length ≤ 1 := by
  rcases (reachable_asks reached).1.once c with nothing | ⟨⟨x, one⟩, _⟩
  · simp [nothing]
  · simp [one]

omit pending in
/-- A wait that ends with a signal takes no byte off the socket. -/
theorem interrupted_wait_eq {signal : Bool} (enabled : Enabled s (.wait c signal))
    (asks : ((next s (.wait c signal)).call c).pc = .sendInterrupt) :
    (next s (.wait c signal)).owner.request e = s.owner.request e := by
  have owner := reachable_owner reached
  obtain ⟨queued, linked⟩ := reachable_linked reached
  have dialogue := reachable_dialogue (fun _ _ => Assumed.calm) reached
  have step := callStep enabled rfl
  cases step with
  | wait _ y item place _ sent read becomes =>
      rw [endpoint] at sent
      cases sent
      rw [becomes] at asks
      have same := (wait_interrupted owner queued linked dialogue place endpoint read asks).2
      simpa [next, endpoint, read] using same

/-- Once `F_SETLKW` is over, the call goes on to return its result. -/
theorem returns_result {outcome : Outcome} (completed : (s.owner.request e).second = some outcome)
    (few : s.sent + 6 ≤ 2 ^ 64) :
    ∃ t, (machine.after s).ReachableVia (fun _ a => Assumed a = true) t ∧
      (t.call c).pc = .returned (resultOf (s.call c).params outcome) := by
  have rank : (s.call c).pc.rank ≤ 6 := by
    cases (s.call c).pc <;> simp [Pc.rank]
  have settling : Settling c e (s.call c).params outcome s :=
    ⟨reached, endpoint, rfl, ⟨id, pending⟩, completed, le_trans (Nat.add_le_add_left rank _) few⟩
  obtain ⟨t, continued, final, result, returned⟩ := settling.returns
  obtain ⟨id', pending'⟩ := final.pending
  have has : (t.call c).pc.result = some result := by
    rw [returned]
    rfl
  obtain ⟨outcome', completed', same⟩ := result_eq final.reached final.endpoint pending' has
  rw [final.settled] at completed'
  cases completed'
  rw [final.asked] at same
  exact ⟨t, continued, same ▸ returned⟩

end Result

/-- A call waits for a foreign lock and is interrupted. -/
def interruptedRun : List Action :=
  [.send (.register (.file 7)), .deliver, .owner (.acquireExit 0), .owner (.trackerNew 0),
    .owner (.fetchId 0), .owner (.insertId 0), .owner (.reply 0),
    .owner (.foreignLock 7 ⟨⟨0, 9⟩, .write⟩),
    .call 0 .setLockBlocking ⟨.write, .start, 0, 10, 0⟩, .deliver, .owner (.mapGet 1),
    .owner (.spawn 1), .owner (.track 1), .owner (.spawnReturn 1), .owner (.release 1),
    .owner (.blockSignals 1 (.ok ())), .owner (.firstTry 1 (.failed Errno.AGAIN)),
    .owner (.fetchInterrupt 1), .owner (.insertInterrupt 1), .owner (.replyFirst 1),
    .firstReply 0, .wait 0 true, .sendInterrupt 0, .deliver, .owner (.startThread 2),
    .owner (.interruptLookup 2), .owner (.unblockSignal 1 (.ok ())),
    .owner (.setlkw 1 (.failed Errno.INTR)), .owner (.replyLast 1), .owner (.endCall 1),
    .owner (.dropClone 1), .owner (.untrack 1), .owner (.markExited 1), .owner (.interruptStop 2),
    .owner (.reply 2), .interruptReply 0, .wait 0 false, .sendRemove 0, .deliver,
    .owner (.removeInterrupt 3), .owner (.reply 3), .removeReply 0]

end Ulockmgr.System
