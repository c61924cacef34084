import Ulockmgr.System.Table.Entries

/-!
# When the interrupt table is empty

A call that returns was settled by its first reply, and then its worker never had an
entry, or it has waited for the answer to its `RemoveInterrupt`.
-/

namespace Ulockmgr.System.Table

open Owner (RequestId Request)

/-- The steps of a run in which every `RemoveInterrupt` is sent. -/
def Delivers : Action → Bool
  | .removeFails _ => false
  | .step _ | .interruptFails _ _ => true

/-- A call that has returned was settled by its first reply, or it was handled. -/
def Settled (s : State) : Prop :=
  ∀ c e result, (s.call c).endpoint = some e → (s.call c).pc = .returned result →
    Decided (s.owner.request e) result ∨ Handled s c

/-- A call that returns with its first reply did not receive `Pending`. -/
theorem first_decided {call : Call} {request : Request} {item : Option Fetched}
    {rest : Wire.Stream Fd} {result : Returned} (serving : Serving call request)
    (unread : request.Unread 0)
    (read : nextReply .lockCommand request.stream false = .returns item rest)
    (returned : (gotFirst call item).pc = .returned result) :
    Decided { request with stream := rest } result := by
  have heard := heard_first serving unread read
  simp only [Call.Heard, returned] at heard
  rcases heard with ⟨last, more, replies, _⟩ | decided
  · exfalso
    generalize (gotFirst call item).interruptId = id at replies
    have left : request.replies.drop 0 = pendingReply id :: last :: more := replies
    have locks : (Owner.task request.message).Locks := serving.message ▸ call.locks
    have kind : Reply.HasKind .lockCommand (pendingReply id) := rfl
    rw [unread.nextReply_cons kind left] at read
    cases read
    rcases serving.transcript.head serving.serves locks replies with terminal | ⟨_, _, blocking⟩
    · exact terminal
    · have action : call.action = .setLockBlocking := by
        rw [serving.message, Call.message] at blocking
        cases action : call.action <;> rw [action] at blocking <;> cases blocking
      rw [gotFirst_pending action] at returned
      cases returned
  · exact decided

section Settling
variable {s : State} {a : System.Action} (inv : Consistent s) (settled : Settled s)
  (enabled : System.Enabled s a)
include inv enabled

theorem returned_stays_settled {c : CallId} {e : RequestId} {result : Returned}
    (endpoint : (s.call c).endpoint = some e) (returned : (s.call c).pc = .returned result)
    (old : Decided (s.owner.request e) result ∨ Handled s c) :
    Decided ((System.next s a).owner.request e) result ∨ Handled (System.next s a) c := by
  rcases old with decided | handled
  · left
    have other : ¬ Reads s e a := by
      apply mt inv.linked.reader
      rw [(inv.linked.lock c e endpoint).1]
      cases a with
      | firstReply d =>
          intro same
          cases same
          have place := enabled.1
          rw [returned] at place
          cases place
      | wait d signal =>
          intro same
          cases same
          have place := enabled.1
          rw [returned] at place
          cases place
      | owner _ | deliver | send _ | call _ _ _ | callFails _ _ _ _ | unblockFails _ _
      | sendInterrupt _ | interruptReply _ | sendRemove _ | removeReply _ => simp [readerOf]
    exact decided.evolves (request_evolves inv.owner enabled other) (finished_stays enabled other)
  · exact .inr (handled.step inv.queued inv.matched enabled)

include settled in
theorem settled_step : Settled (System.next s a) := by
  intro c e result endpoint returned
  by_cases own : caller s a = some c
  · have step := callStep enabled own
    cases step with
    | call _ _ _ _ becomes =>
        rw [becomes] at returned
        cases returned
    | callFails _ _ _ _ _ becomes =>
        rw [becomes] at endpoint
        cases endpoint
    | firstReply y item place before read becomes =>
        have kept := (inv.linked.keeps enabled before).1
        rw [endpoint] at kept
        cases kept
        obtain ⟨rest, read'⟩ := fetched_some read
        have moves : (System.next s (.firstReply c)).owner.request e =
            { s.owner.request e with stream := rest } := by
          simpa [System.next, before, read, State.fetch] using Owner.fetch_eq read'
        rw [becomes] at returned
        rcases serving inv.owner inv.queued inv.linked before with idle | serving
        · rw [idle] at read'
          cases read'
        · rw [moves]
          exact .inl (first_decided serving (inv.matched.unheard c e before place) read' returned)
    | removeReply x result' place _ becomes =>
        have linked := inv.linked.remove c x result' place
        have sender : (System.next s (.removeReply c)).sender x = .remove c := by
          rw [sender_next enabled (linked.2.bound inv.queued)]
          exact linked.1
        have after := inv.matched.removes_step inv.owner inv.queued inv.linked enabled c x sender
        rcases after.place with ⟨⟨_, awaits⟩, _⟩ | ⟨_, finished⟩
        · rw [returned] at awaits
          cases awaits
        · exact .inr ⟨x, sender, .inr finished⟩
    | wait _ _ item _ _ _ _ becomes =>
        rcases gotNext_cases (s.call c) item with ⟨_, same⟩ | same <;>
          simp [becomes, same] at returned
    | interruptReply _ item _ _ becomes =>
        rcases gotInterrupt_cases (s.call c) item with ⟨_, same⟩ | same <;>
          simp [becomes, same] at returned
    | unblockFails _ _ becomes | sendInterrupt _ becomes | sendRemove _ _ becomes =>
        simp [becomes] at returned
  · rw [call_next_of_ne own] at endpoint returned
    exact returned_stays_settled inv enabled endpoint returned
      (settled c e result endpoint returned)

end Settling

theorem settled_next {s : State} {a : Action} (inv : Consistent s) (settled : Settled s)
    (enabled : Enabled s a) (delivers : Delivers a = true) : Settled (next s a) := by
  rcases step_cases enabled with ⟨b, rfl, step⟩ | ⟨c, pc, gives, moves, fails⟩
  · exact settled_step inv settled step
  · rw [moves]
    intro d e result endpoint returned
    rw [gives.endpoint d] at endpoint
    rcases gives.call_cases d with same | ⟨_, same⟩ <;> rw [same] at returned
    · exact settled d e result endpoint returned
    · rw [fails ⟨result, returned⟩] at delivers
      cases delivers

theorem reachable_settled {s : State}
    (reached : machine.ReachableVia (fun _ a => Delivers a = true) s) : Settled s := by
  have all : Consistent s ∧ Settled s := by
    apply reached.invariant
    · rintro _ rfl
      exact ⟨consistent_initial, fun _ _ _ endpoint => nomatch endpoint⟩
    · rintro state label ⟨inv, settled⟩ enabled delivers
      exact ⟨consistent_next inv enabled, settled_next inv settled enabled delivers⟩
  exact all.2

/-- A call that was settled by its first reply has no entry. -/
theorem not_inserted_of_decided {s : State} (owner : Owner.machine.Reachable s.owner) {e : RequestId}
    {result : Returned} (decided : Decided (s.owner.request e) result) :
    ¬ (s.owner.request e).Inserted := by
  intro inserted
  rcases Owner.reachable_announces owner e inserted with ⟨place, nothing, _⟩ | pending
  · rcases decided with ⟨_, _, replies, _⟩ | ⟨finished, _⟩
    · rw [nothing] at replies
      cases replies
    · rw [place] at finished
      cases finished
  · rcases decided with ⟨reply, _, replies, settles⟩ | ⟨_, nothing, _⟩
    · rw [replies] at pending
      cases pending
      rcases settles with ⟨_, same, _⟩ | ⟨_, same, _⟩ <;> cases same
    · rw [nothing] at pending
      cases pending

/-- Only blocking calls have entries. -/
theorem Outstanding.blocking {s : State} (inv : Consistent s) {c : CallId} {e : RequestId}
    (outstanding : Outstanding s c e) : (s.call c).action = .setLockBlocking := by
  have announces := Owner.reachable_announces inv.owner e outstanding.inserted
  rcases serving inv.owner inv.queued inv.linked outstanding.endpoint with idle | serving
  · have first := outstanding.inserted.1
    rw [idle] at first
    cases first
  · have blocking : Owner.task (s.owner.request e).message = .setLockBlocking := by
      have serves := serving.serves
      rcases announces with ⟨place, _⟩ | pending
      · rw [place] at serves
        exact serves
      · obtain ⟨more, replies⟩ := List.head?_eq_some_iff.mp pending
        have locks : (Owner.task (s.owner.request e).message).Locks :=
          serving.message ▸ (s.call c).locks
        rcases serving.transcript.head serves locks replies with terminal | ⟨_, _, blocking⟩
        · exact terminal.elim
        · exact blocking
    rw [serving.message, Call.message] at blocking
    cases action : (s.call c).action <;> rw [action] at blocking <;> cases blocking

/-- Where no blocking call is outstanding, the table is empty. -/
theorem table_empty_of_returned {s : State}
    (reached : machine.ReachableVia (fun _ a => Delivers a = true) s)
    (quiet : ∀ c, (s.call c).action = .setLockBlocking →
      (s.call c).pc = .idle ∨ ∃ result, (s.call c).pc = .returned result) (id : UInt64) :
    s.owner.interrupts id = none := by
  have inv := reachable_consistent reached
  cases bound : s.owner.interrupts id with
  | none => rfl
  | some e =>
      exfalso
      obtain ⟨_, c, outstanding⟩ := inv.matched.owned id e bound
      rcases quiet c (outstanding.blocking inv) with idle | ⟨result, returned⟩
      · exact inv.linked.started c e outstanding.endpoint idle
      · rcases reachable_settled reached c e result outstanding.endpoint returned with
          decided | handled
        · exact not_inserted_of_decided inv.owner decided outstanding.inserted
        · exact outstanding.kept handled

/-- The interrupted call has returned. -/
def returnedRun : List Action := interruptedRun.map .step

theorem returned_call_unlisted :
    ∃ s, machine.ReachableVia (fun _ a => Delivers a = true) s ∧
      (s.owner.request 1).Inserted ∧ ∀ id, s.owner.interrupts id = none := by
  obtain ⟨s, reached, calls, inserted, returned⟩ :
      ∃ s, machine.ReachableVia (fun _ a => Delivers a = true) s ∧ (s.calls = 1 ∧
        ((s.owner.request 1).first = some (.error Errno.AGAIN) ∧
          (s.owner.request 1).pc = .finished) ∧
        (s.call 0).pc = .returned (.error (.os Errno.INTR))) :=
    Transition.Machine.exists_reachableVia_of_exec returnedRun rfl (by decide +kernel)
  refine ⟨s, reached, ⟨inserted.1, by rw [inserted.2]; decide, by rw [inserted.2]; decide⟩, ?_⟩
  apply table_empty_of_returned reached
  intro c _
  cases c with
  | zero => exact .inr ⟨_, returned⟩
  | succ c =>
      have unmade : s.calls ≤ c + 1 := by
        rw [calls]
        exact Nat.succ_le_succ (Nat.zero_le c)
      left
      rw [(reachable_consistent reached).linked.unused (c + 1) unmade]
      rfl

end Ulockmgr.System.Table
