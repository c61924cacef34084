import Ulockmgr.System.Calls

/-!
# What a call has heard

A blocking call that was answered `Pending` reads the last reply of its worker and nothing
else, and gets it also when its wait was interrupted: its own `Interrupt` request finds
the worker in the table, for only the destructor of the call removes it from there.
-/

namespace Ulockmgr.System

open Owner (RequestId Request Terminal)

/-- The reply `Pending(id)`. -/
abbrev pendingReply (id : UInt64) : Reply := .ok (.lockCommand (.pending id))

/-- What a call returns for a terminal reply. -/
def Settles (reply : Reply) (result : Returned) : Prop :=
  (∃ params, reply = .ok (.lockCommand (.done params)) ∧ result = .ok params) ∨
    ∃ errno, reply = .error errno ∧ result = .error (IoError.fromRawOsError errno)

/-- The worker answered `Pending` and then settled the call. -/
def Concluded (request : Request) (id : UInt64) (result : Returned) : Prop :=
  ∃ last rest, request.replies = pendingReply id :: last :: rest ∧ Settles last result

/-- The first reply settled the call, or there was none. -/
def Decided (request : Request) (result : Returned) : Prop :=
  (∃ reply rest, request.replies = reply :: rest ∧ Settles reply result) ∨
    request.pc = .finished ∧ request.replies = [] ∧ ∃ error, result = .error error

/-- What a call has read of the replies to its lock command. -/
def Call.Heard (call : Call) (request : Request) : Prop :=
  match call.pc with
  | .idle => True
  | .first => request.Unread 0
  | .waiting | .sendInterrupt | .awaitInterrupt _ =>
      request.Unread 1 ∧ request.replies.head? = some (pendingReply call.interruptId)
  | .sendRemove result | .awaitRemove _ result => Concluded request call.interruptId result
  | .returned result => Concluded request call.interruptId result ∨ Decided request result

theorem Concluded.evolves {request later : Request} (evolves : request.Evolves later)
    {id : UInt64} {result : Returned} (concluded : Concluded request id result) :
    Concluded later id result := by
  obtain ⟨last, rest, replies, settles⟩ := concluded
  obtain ⟨more, grown, _⟩ := evolves.writes
  exact ⟨last, rest ++ more, by rw [grown, replies]; rfl, settles⟩

theorem Decided.evolves {request later : Request} (evolves : request.Evolves later)
    (done : request.pc = .finished → later = request) {result : Returned}
    (decided : Decided request result) : Decided later result := by
  rcases decided with ⟨reply, rest, replies, settles⟩ | ⟨finished, silent⟩
  · obtain ⟨more, grown, _⟩ := evolves.writes
    exact .inl ⟨reply, rest ++ more, by rw [grown, replies]; rfl, settles⟩
  · rw [done finished]
    exact .inr ⟨finished, silent⟩

theorem Call.Heard.evolves {call : Call} {request later : Request} (evolves : request.Evolves later)
    (done : request.pc = .finished → later = request) (heard : call.Heard request) :
    call.Heard later := by
  have inside : ∀ id, request.Unread 1 ∧ request.replies.head? = some (pendingReply id) →
      later.Unread 1 ∧ later.replies.head? = some (pendingReply id) := by
    rintro id ⟨unread, pending⟩
    refine ⟨evolves.unread unread, ?_⟩
    obtain ⟨more, grown, _⟩ := evolves.writes
    rw [grown, List.head?_append, pending]
    rfl
  cases place : call.pc with
  | idle => simp [Call.Heard, place]
  | first =>
      simp only [Call.Heard, place] at heard ⊢
      exact evolves.unread heard
  | waiting | sendInterrupt | awaitInterrupt x =>
      simp only [Call.Heard, place] at heard ⊢
      exact inside _ heard
  | sendRemove result | awaitRemove x result =>
      simp only [Call.Heard, place] at heard ⊢
      exact heard.evolves evolves
  | returned result =>
      simp only [Call.Heard, place] at heard ⊢
      rcases heard with concluded | decided
      · exact .inl (concluded.evolves evolves)
      · exact .inr (decided.evolves evolves done)

/-! ## Reading a reply -/

theorem gotFirst_terminal (call : Call) {reply : Reply} (terminal : Terminal reply) :
    ∃ result, Settles reply result ∧
      gotFirst call (some (Reply.fetched reply [])) = { call with pc := .returned result } := by
  cases reply with
  | error errno =>
      refine ⟨_, .inr ⟨errno, rfl, rfl⟩, ?_⟩
      cases action : call.action <;>
        simp [gotFirst, action, oneReply, firstOfTwo, Reply.fetched, lockData]
  | ok data =>
      cases data with
      | lockCommand data =>
          cases data with
          | done params =>
              refine ⟨_, .inl ⟨params, rfl, rfl⟩, ?_⟩
              cases action : call.action <;>
                simp [gotFirst, action, oneReply, firstOfTwo, Reply.fetched, lockData]
          | pending id => exact terminal.elim
      | unit => exact terminal.elim
      | register id => exact terminal.elim

theorem gotFirst_none (call : Call) :
    ∃ error, gotFirst call none = { call with pc := .returned (.error error) } := by
  unfold gotFirst
  split <;> exact ⟨_, rfl⟩

theorem gotFirst_pending {call : Call} (blocking : call.action = .setLockBlocking) (id : UInt64) :
    gotFirst call (some (Reply.fetched (pendingReply id) [])) =
      { call with pc := .waiting, interruptId := id } := by
  simp [gotFirst, blocking, firstOfTwo, Reply.fetched, lockData]

theorem gotNext_terminal (call : Call) {reply : Reply} (terminal : Terminal reply) :
    ∃ result, Settles reply result ∧
      gotNext call (some (Reply.fetched reply [])) = { call with pc := .sendRemove result } := by
  cases reply with
  | error errno => exact ⟨_, .inr ⟨errno, rfl, rfl⟩, rfl⟩
  | ok data =>
      cases data with
      | lockCommand data =>
          cases data with
          | done params => exact ⟨_, .inl ⟨params, rfl, rfl⟩, rfl⟩
          | pending id => exact terminal.elim
      | unit => exact terminal.elim
      | register id => exact terminal.elim

theorem gotNext_interrupted (call : Call) :
    gotNext call (some (.error (.os Errno.INTR))) =
      { call with pc := .sendInterrupt, interrupted := true } := by
  have kind : (IoError.os Errno.INTR).kind = .interrupted := by decide
  simp [gotNext, kind]

/-- What the owner says of the lock command of a call. -/
structure Serving (call : Call) (request : Request) : Prop where
  message : request.message = call.message
  serves : request.pc.Serves (Owner.task request.message)
  transcript : request.Transcript
  closed : request.stream.closed = true → request.pc.Dropped

theorem Call.locks (call : Call) : (Owner.task call.message).Locks := by
  unfold Call.message
  cases call.action <;> trivial

theorem serving {s : State} (owner : Owner.machine.Reachable s.owner) (queued : Queued s)
    (linked : Linked s) {c : CallId} {e : RequestId} (endpoint : (s.call c).endpoint = some e) :
    s.owner.request e = Request.idle ∨ Serving (s.call c) (s.owner.request e) := by
  by_cases idle : (s.owner.request e).pc = .idle
  · exact .inl (Owner.reachable_idle owner e idle)
  · right
    have message : (s.owner.request e).message = (s.call c).message := by
      rcases (linked.lock c e endpoint).2 with waits | ⟨_, same⟩
      · exact (idle (queued.idle e _ waits)).elim
      · exact same
    exact
      { message := message
        serves := (Owner.reachable_served owner).serves e idle
        transcript := Owner.reachable_transcript owner e idle (message ▸ (s.call c).locks)
        closed := Owner.reachable_closed owner e }

theorem heard_first {call : Call} {request : Request} {item : Option Fetched}
    {rest : Wire.Stream Fd} (serving : Serving call request) (unread : request.Unread 0)
    (read : nextReply .lockCommand request.stream false = .returns item rest) :
    (gotFirst call item).Heard { request with stream := rest } := by
  have locks : (Owner.task request.message).Locks := serving.message ▸ call.locks
  cases replies : request.replies with
  | nil =>
      have nothing : request.replies.drop 0 = [] := replies
      rw [unread.nextReply_nil nothing] at read
      split at read
      · next closed =>
          -- the endpoint was dropped without a reply
          cases read
          have finished := serving.transcript.silent (serving.closed closed) replies
          obtain ⟨error, same⟩ := gotFirst_none call
          rw [same]
          exact .inr (.inr ⟨finished, rfl, error, rfl⟩)
      · cases read
  | cons reply more =>
      have left : request.replies.drop 0 = reply :: more := replies
      rcases serving.transcript.head serving.serves locks replies with
        terminal | ⟨id, rfl, blocking⟩
      · rw [unread.nextReply_cons terminal.hasKind left] at read
        cases read
        obtain ⟨result, settles, same⟩ := gotFirst_terminal call terminal
        rw [same]
        exact .inr (.inl ⟨reply, more, rfl, settles⟩)
      · rw [unread.nextReply_cons (show Reply.HasKind .lockCommand (pendingReply id) from rfl) left]
          at read
        cases read
        have action : call.action = .setLockBlocking := by
          rw [serving.message, Call.message] at blocking
          cases action : call.action <;> rw [action] at blocking <;> cases blocking
        rw [gotFirst_pending action]
        refine ⟨⟨?_, ?_⟩, ?_⟩ <;> simp

/-- A wait returns the last reply of the worker; or the worker is not done, and the wait was
interrupted and took nothing off the socket. -/
theorem wait_cases {call : Call} {request : Request} {item : Option Fetched} {signal : Bool}
    {rest : Wire.Stream Fd} (serving : Serving call request) (unread : request.Unread 1)
    {id : UInt64} (pending : request.replies.head? = some (pendingReply id))
    (read : nextReply .lockCommand request.stream signal = .returns item rest) :
    signal = true ∧ item = some (.error (.os Errno.INTR)) ∧ rest = request.stream ∨
      ∃ last, request.AnswersLast last ∧ request.replies = [pendingReply id, last] ∧
        item = some (Reply.fetched last []) := by
  have locks : (Owner.task request.message).Locks := serving.message ▸ call.locks
  obtain ⟨_, _, ⟨one, place⟩ | ⟨last, answersLast, two⟩⟩ :=
    serving.transcript.pending pending serving.serves locks
  · have nothing : request.replies.drop 1 = [] := by
      rw [one]
      rfl
    have opened : request.stream.closed ≠ true := by
      intro closed
      have dropped := serving.closed closed
      rcases place with place | place | ⟨place, _⟩ <;> rw [place] at dropped <;> exact dropped
    rw [unread.nextReply_nil nothing, if_neg opened] at read
    split at read
    · next signalled =>
        cases read
        exact .inl ⟨signalled, rfl, rfl⟩
    · cases read
  · have left : request.replies.drop 1 = [last] := by
      rw [two]
      rfl
    rw [unread.nextReply_cons answersLast.terminal.hasKind left] at read
    cases read
    exact .inr ⟨last, answersLast, two, rfl⟩

theorem heard_next {call : Call} {request : Request} {item : Option Fetched} {signal : Bool}
    {rest : Wire.Stream Fd} (serving : Serving call request) (unread : request.Unread 1)
    (pending : request.replies.head? = some (pendingReply call.interruptId))
    (read : nextReply .lockCommand request.stream signal = .returns item rest) :
    (gotNext call item).Heard { request with stream := rest } := by
  rcases wait_cases serving unread pending read with ⟨_, rfl, rfl⟩ | ⟨last, answersLast, two, rfl⟩
  · rw [gotNext_interrupted]
    exact ⟨unread, pending⟩
  · obtain ⟨result, settles, same⟩ := gotNext_terminal call answersLast.terminal
    rw [same]
    exact ⟨last, [], two, settles⟩

end Ulockmgr.System
