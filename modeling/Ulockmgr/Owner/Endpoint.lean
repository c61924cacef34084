import Ulockmgr.Owner.LockReplies

/-!
# What a client can read from an endpoint

The owner only adds to the replies of a request, and what it adds it also puts on the
socket; so the socket holds the replies that have not been read yet.  An endpoint is
closed only when its handler is done with it.
-/

namespace Ulockmgr.Owner

abbrev unreadSegment (reply : Reply) : Wire.Segment Fd := replySegment (reply, [])

theorem sendReply_eq (stream : Wire.Stream Fd) (reply : Reply) :
    sendReply stream reply =
      { stream with segments := stream.segments ++ [unreadSegment reply] } :=
  replyWithFds_eq stream (Nat.zero_le _)

attribute [local grind =] sendReply_eq Wire.Stream.close

/-- All replies but the first `read` ones are on the socket. -/
structure Request.Unread (request : Request) (read : Nat) : Prop where
  bound : read ≤ request.replies.length
  segments : request.stream.segments = (request.replies.drop read).map unreadSegment

/-- The owner has taken zero or more steps. -/
structure Request.Evolves (request later : Request) : Prop where
  taken : request.pc ≠ .idle → later.pc ≠ .idle ∧ later.message = request.message
  writes : ∃ more, later.replies = request.replies ++ more ∧
    later.stream.segments = request.stream.segments ++ more.map unreadSegment

theorem Request.Evolves.refl (request : Request) : request.Evolves request :=
  ⟨fun taken => ⟨taken, rfl⟩, [], by simp, by simp⟩

theorem Request.Evolves.unread {request later : Request} (evolves : request.Evolves later)
    {read : Nat} (unread : request.Unread read) : later.Unread read := by
  obtain ⟨more, replies, segments⟩ := evolves.writes
  refine ⟨?_, ?_⟩
  · rw [replies, List.length_append]
    exact Nat.le_add_right_of_le unread.bound
  · rw [replies, segments, unread.segments, List.drop_append_of_le_length unread.bound,
      List.map_append]

/-- A read takes something off the socket, and does nothing else. -/
theorem fetch_cases (s : State) (e : RequestId) (signal : Bool) :
    (next s (.fetch e signal)).request e = s.request e ∨
      ∃ item rest, nextReply (s.request e).message.replyKind (s.request e).stream signal =
          .returns item rest ∧
        (next s (.fetch e signal)).request e = { s.request e with stream := rest } := by
  simp only [next]
  split
  · next item rest read => exact .inr ⟨item, rest, read, by simp⟩
  · exact .inl rfl

theorem idle_next {s : State} {a : Action} (enabled : Enabled s a) {e : RequestId}
    (old : (s.request e).pc = .idle → s.request e = Request.idle)
    (idle : ((next s a).request e).pc = .idle) : (next s a).request e = Request.idle := by
  by_cases own : e = a.actor
  · subst own
    cases a with
    | fetch e signal =>
        simp only [Action.actor] at old idle ⊢
        rcases fetch_cases s e signal with same | ⟨item, rest, read, same⟩
        · rw [same] at idle ⊢
          exact old idle
        · rw [same] at idle ⊢
          have before := old idle
          have nothing : rest = Wire.Stream.empty := by
            have empty := nextReply_empty Request.idle.message.replyKind false signal
            rw [before, show Request.idle.stream = ⟨[], false⟩ from rfl, empty] at read
            cases signal <;> cases read
            rfl
          rw [before, nothing]
          rfl
    | recv e message => exact (recv_running s e message idle).elim
    | _ =>
        revert idle
        simp only [Enabled, Action.actor] at enabled old ⊢
        simp only [next]
        (repeat' split) <;> grind
  · rw [request_next_of_ne s own] at idle ⊢
    exact old idle

/-- A request that was not received has the record it started with. -/
theorem reachable_idle {s : State} (reached : machine.Reachable s) (e : RequestId) :
    (s.request e).pc = .idle → s.request e = Request.idle := by
  apply reached.invariant
  · rintro _ rfl _
    rfl
  · intro state label old enabled
    exact idle_next enabled old

/-- A step writes one reply or none; nobody but its reader takes anything off a socket. -/
theorem replies_cases {s : State} {a : Action} (enabled : Enabled s a) {e : RequestId}
    (fresh : (s.request e).pc = .idle → s.request e = Request.idle)
    (writer : ∀ signal, a ≠ .fetch e signal) :
    ((next s a).request e).replies = (s.request e).replies ∧
        ((next s a).request e).stream.segments = (s.request e).stream.segments ∨
      ((next s a).request e).replies = (s.request e).replies ++ [(s.request e).out] ∧
        ((next s a).request e).stream.segments =
          (s.request e).stream.segments ++ [unreadSegment (s.request e).out] := by
  by_cases own : e = a.actor
  · subst own
    cases a with
    | fetch e signal => exact (writer signal rfl).elim
    | recv e message =>
        simp only [Action.actor] at fresh ⊢
        left
        simp [next, fresh enabled.2, Request.idle]
    | _ =>
        simp only [Enabled, Action.actor] at enabled ⊢
        clear fresh writer
        simp only [next]
        (repeat' split) <;> simp_all [sendReply_eq, Wire.Stream.close]
  · rw [request_next_of_ne s own]
    exact .inl ⟨rfl, rfl⟩

theorem evolves_next {s : State} {a : Action} (enabled : Enabled s a) {e : RequestId}
    (fresh : (s.request e).pc = .idle → s.request e = Request.idle)
    (writer : ∀ signal, a ≠ .fetch e signal) :
    (s.request e).Evolves ((next s a).request e) where
  taken running := ⟨running_next enabled running, message_next enabled running⟩
  writes := by
    rcases replies_cases enabled fresh writer with ⟨same, quiet⟩ | ⟨one, written⟩
    · exact ⟨[], by simp [same], by simp [quiet]⟩
    · exact ⟨[(s.request e).out], one, by simpa using written⟩

/-- A handler that is done does not write any more. -/
theorem finished_next {s : State} {a : Action} (enabled : Enabled s a) {e : RequestId}
    (finished : (s.request e).pc = .finished) (writer : ∀ signal, a ≠ .fetch e signal) :
    (next s a).request e = s.request e := by
  by_cases own : e = a.actor
  · subst own
    cases a <;> simp only [Enabled, Action.actor] at enabled finished writer ⊢ <;>
      simp only [next] <;> (repeat' split) <;> simp_all
  · exact request_next_of_ne s own

theorem closed_next {s : State} {a : Action} (enabled : Enabled s a) {e : RequestId}
    (old : (s.request e).stream.closed = true → (s.request e).pc.Dropped)
    (closed : ((next s a).request e).stream.closed = true) :
    ((next s a).request e).pc.Dropped := by
  by_cases own : e = a.actor
  · subst own
    cases a with
    | fetch e signal =>
        simp only [Action.actor] at old closed ⊢
        rcases fetch_cases s e signal with same | ⟨item, rest, read, same⟩
        · rw [same] at closed ⊢
          exact old closed
        · rw [same] at closed ⊢
          exact old (nextReply_closed read ▸ closed)
    | _ =>
        revert closed
        simp only [Enabled, Action.actor] at enabled old ⊢
        simp only [next]
        (repeat' split) <;> simp_all [Pc.Dropped, Request.idle, Wire.Stream.empty, sendReply_eq]
  · rw [request_next_of_ne s own] at closed ⊢
    exact old closed

theorem finished_replies {s : State} {a : Action} (enabled : Enabled s a) {e : RequestId}
    (finished : (s.request e).pc = .finished) :
    ((next s a).request e).pc = .finished ∧
      ((next s a).request e).replies = (s.request e).replies := by
  by_cases reads : ∃ signal, a = .fetch e signal
  · obtain ⟨signal, rfl⟩ := reads
    rcases fetch_cases s e signal with same | ⟨_, _, _, same⟩ <;> rw [same] <;>
      exact ⟨finished, rfl⟩
  · rw [finished_next enabled finished (fun signal same => reads ⟨signal, same⟩)]
    exact ⟨finished, rfl⟩

/-- An endpoint is closed by its handler only. -/
theorem reachable_closed {s : State} (reached : machine.Reachable s) (e : RequestId) :
    (s.request e).stream.closed = true → (s.request e).pc.Dropped := by
  apply reached.invariant
  · rintro _ rfl closed
    cases closed
  · intro state label old enabled
    exact closed_next enabled old

/-! ## Reading -/

/-- A read returns the first reply that was not read before. -/
theorem Request.Unread.nextReply_cons {request : Request} {read : Nat} {reply : Reply}
    {more : List Reply} (unread : request.Unread read) {kind : ReplyKind}
    (typed : Reply.HasKind kind reply) (left : request.replies.drop read = reply :: more)
    (signal : Bool) :
    nextReply kind request.stream signal = .returns (some (Reply.fetched reply []))
      ⟨more.map unreadSegment, request.stream.closed⟩ := by
  have segments := unread.segments
  rw [left, List.map_cons] at segments
  have stream : request.stream =
      ⟨unreadSegment reply :: more.map unreadSegment, request.stream.closed⟩ := by
    rw [← segments]
  rw [stream]
  exact nextReply_segment typed (Nat.zero_le _) _ _ signal

/-- When everything was read, a read tells the end, waits, or is interrupted. -/
theorem Request.Unread.nextReply_nil {request : Request} {read : Nat}
    (unread : request.Unread read) (left : request.replies.drop read = []) (kind : ReplyKind)
    (signal : Bool) :
    nextReply kind request.stream signal =
      if request.stream.closed = true then .returns none request.stream
      else if signal = true then .returns (some (.error (.os Errno.INTR))) request.stream
      else .blocks := by
  have segments := unread.segments
  rw [left, List.map_nil] at segments
  have stream : request.stream = ⟨[], request.stream.closed⟩ := by
    rw [← segments]
  rw [stream, nextReply_empty]
  cases request.stream.closed <;> rfl

/-- What is left behind does not depend on how the reader decodes it. -/
theorem fetch_eq {s : State} {e : RequestId} {signal : Bool} {kind : ReplyKind}
    {item : Option Fetched} {rest : Wire.Stream Fd}
    (read : nextReply kind (s.request e).stream signal = .returns item rest) :
    (next s (.fetch e signal)).request e = { s.request e with stream := rest } := by
  have same : ∃ other,
      nextReply (s.request e).message.replyKind (s.request e).stream signal =
        .returns other rest := by
    unfold nextReply at read ⊢
    cases received : receiveRawMessage (s.request e).stream signal with
    | blocks =>
        rw [received] at read
        cases read
    | panics =>
        rw [received] at read
        cases read
    | returns result left =>
        rw [received] at read
        cases read
        exact ⟨_, rfl⟩
  obtain ⟨other, returned⟩ := same
  simp [next, returned]

/-! ## The interrupt table -/

/-- The places of a worker that has made its first attempt. -/
def Pc.Tried : Pc → Prop
  | .fetchInterrupt | .insertInterrupt | .replyFirst | .unblockSignal | .setlkw | .replyLast
  | .endCall | .dropClone | .untrack | .markExited | .finished => True
  | .idle | .startThread | .removeInterrupt | .acquireExit | .trackerNew | .fetchId | .insertId
  | .mapGet | .getlk | .setlk | .spawn | .interruptLookup | .interruptStop | .mapRemove
  | .trackerStop | .trackerWait | .refcount | .dropData | .reply | .childStart | .refused
  | .blockSignals | .firstTry => False

/-- The places of a worker that has made its second attempt. -/
def Pc.Late : Pc → Prop
  | .replyLast | .endCall | .dropClone | .untrack | .markExited | .finished => True
  | .idle | .startThread | .removeInterrupt | .acquireExit | .trackerNew | .fetchId | .insertId
  | .mapGet | .getlk | .setlk | .spawn | .interruptLookup | .interruptStop | .mapRemove
  | .trackerStop | .trackerWait | .refcount | .dropData | .reply | .childStart | .refused
  | .blockSignals | .firstTry | .fetchInterrupt | .insertInterrupt | .replyFirst | .unblockSignal
  | .setlkw => False

structure Attempts (request : Request) : Prop where
  tried : request.first ≠ none → request.pc.Tried
  late : request.second ≠ none → request.pc.Late
  exited : request.second ≠ none → request.pc = .finished → request.exited = true

theorem attempts_next {s : State} {a : Action} (enabled : Enabled s a) {e : RequestId}
    (old : Attempts (s.request e)) : Attempts ((next s a).request e) := by
  by_cases own : e = a.actor
  · subst own
    have tried := old.tried
    have late := old.late
    have exited := old.exited
    clear old
    constructor
    · cases a <;> simp only [Enabled, Action.actor] at enabled tried ⊢ <;> simp only [next] <;>
        (repeat' split) <;> simp_all [Pc.Tried, Request.idle]
    · cases a <;> simp only [Enabled, Action.actor] at enabled late ⊢ <;> simp only [next] <;>
        (repeat' split) <;> simp_all [Pc.Late, Request.idle]
    · cases a <;> simp only [Enabled, Action.actor] at enabled late exited ⊢ <;>
        simp only [next] <;> (repeat' split) <;> simp_all [Pc.Late, Request.idle]
  · rw [request_next_of_ne s own]
    exact old

theorem reachable_attempts {s : State} (reached : machine.Reachable s) (e : RequestId) :
    Attempts (s.request e) := by
  apply reached.invariant
  · rintro _ rfl
    constructor <;> simp [initial, Request.idle]
  · intro state label old enabled
    exact attempts_next enabled old

/-- The result of the second attempt stands. -/
theorem second_next {s : State} {a : Action} (enabled : Enabled s a) {e : RequestId}
    (attempts : Attempts (s.request e)) {outcome : Outcome}
    (settled : (s.request e).second = some outcome) :
    ((next s a).request e).second = some outcome := by
  by_cases own : e = a.actor
  · subst own
    have late := attempts.late
    clear attempts
    cases a <;> simp only [Enabled, Action.actor] at enabled late settled ⊢ <;>
      simp only [next] <;> (repeat' split) <;> simp_all [Pc.Late]
  · rw [request_next_of_ne s own]
    exact settled

/-- Replies are not taken back. -/
theorem head_next {s : State} {a : Action} (enabled : Enabled s a) {e : RequestId}
    (fresh : (s.request e).pc = .idle → s.request e = Request.idle) {reply : Reply}
    (first : (s.request e).replies.head? = some reply) :
    ((next s a).request e).replies.head? = some reply := by
  by_cases reads : ∃ signal, a = .fetch e signal
  · obtain ⟨signal, rfl⟩ := reads
    rcases fetch_cases s e signal with same | ⟨_, _, _, same⟩ <;> rw [same] <;> exact first
  · obtain ⟨more, grown, _⟩ :=
      (evolves_next enabled fresh (fun signal same => reads ⟨signal, same⟩)).writes
    rw [grown, List.head?_append, first]
    rfl

/-- A worker that found the lock taken and has its entry in the interrupt table. -/
def Request.Inserted (request : Request) : Prop :=
  request.first = some (.error Errno.AGAIN) ∧ request.pc ≠ .fetchInterrupt ∧
    request.pc ≠ .insertInterrupt

theorem inserted_cases {s : State} {a : Action} (enabled : Enabled s a) {e : RequestId}
    (attempts : Attempts (s.request e)) (inserted : ((next s a).request e).Inserted) :
    (s.request e).Inserted ∧ ((next s a).request e).id = (s.request e).id ∨
      a = .insertInterrupt e ∧ (next s a).interrupts ((next s a).request e).id = some e := by
  by_cases own : e = a.actor
  · subst own
    have tried := attempts.tried
    clear attempts
    revert inserted
    cases a <;> simp only [Enabled, Action.actor] at enabled tried ⊢ <;> simp only [next] <;>
      (repeat' split) <;> grind [Pc.Tried, Request.Inserted, Request.idle]
  · rw [request_next_of_ne s own] at inserted ⊢
    exact .inl ⟨inserted, rfl⟩

/-- An entry stays in the table until it is removed. -/
theorem interrupts_next {s : State} {a : Action} {id : UInt64} {e : RequestId}
    (bound : s.interrupts id = some e) :
    (next s a).interrupts id = some e ∨
      ∃ x, a = .removeInterrupt x ∧ (s.request x).message.id = id := by
  cases a <;> simp only [next] <;> (repeat' split) <;> grind

/-- A worker keeps its entry's ID. -/
theorem Request.Inserted.stays {s : State} {a : Action} (enabled : Enabled s a) {e : RequestId}
    (attempts : Attempts (s.request e)) (inserted : (s.request e).Inserted) :
    ((next s a).request e).Inserted ∧ ((next s a).request e).id = (s.request e).id := by
  by_cases own : e = a.actor
  · subst own
    have tried := attempts.tried (by rw [inserted.1]; decide)
    obtain ⟨again, fetched, entered⟩ := inserted
    clear attempts
    cases a <;> simp only [Enabled, Action.actor] at enabled tried again fetched entered ⊢ <;>
      simp only [next] <;> (repeat' split) <;> simp_all [Pc.Tried, Request.Inserted]
  · rw [request_next_of_ne s own]
    exact ⟨inserted, rfl⟩

/-- A worker with an entry answers `Pending` before anything else. -/
def Request.Announces (request : Request) : Prop :=
  request.pc = .replyFirst ∧ request.replies = [] ∧
      request.out = .ok (.lockCommand (.pending request.id)) ∨
    request.replies.head? = some (.ok (.lockCommand (.pending request.id)))

theorem announces_next {s : State} {a : Action} (enabled : Enabled s a) {e : RequestId}
    (attempts : Attempts (s.request e))
    (fresh : (s.request e).pc = .idle → s.request e = Request.idle)
    (silent : (s.request e).pc = .insertInterrupt → (s.request e).replies = [])
    (old : (s.request e).Inserted → (s.request e).Announces)
    (inserted : ((next s a).request e).Inserted) : ((next s a).request e).Announces := by
  rcases inserted_cases enabled attempts inserted with ⟨before, id⟩ | ⟨rfl, bound⟩
  · rcases old before with ⟨place, nothing, out⟩ | pending
    · by_cases own : e = a.actor
      · subst own
        cases a with
        | fetch e signal =>
            simp only [Action.actor] at id place nothing out ⊢
            left
            rcases fetch_cases s e signal with same | ⟨_, _, _, same⟩ <;> rw [same] <;>
              exact ⟨place, nothing, out⟩
        | replyFirst e =>
            simp only [Action.actor] at nothing out ⊢
            right
            simp [next, nothing, out]
        | hangUp | spawnReturn e | release e | foreignLock _ _ | foreignUnlock _ _ =>
            exact .inl ⟨place, nothing, out⟩
        | tryExit =>
            simp only [next]
            split <;> exact .inl ⟨place, nothing, out⟩
        | _ =>
            simp only [Enabled, Action.actor] at enabled place
            simp [place] at enabled
      · rw [request_next_of_ne s own]
        exact .inl ⟨place, nothing, out⟩
    · right
      rw [id]
      exact head_next enabled fresh pending
  · have nothing := silent enabled
    revert bound inserted
    simp only [next]
    split <;> simp_all [Request.Announces, Request.Inserted]

/-- The worker that asks for an ID has found the lock taken, and answered nothing. -/
theorem reachable_inserting {s : State} (reached : machine.Reachable s) {e : RequestId}
    (place : (s.request e).pc = .insertInterrupt) :
    (s.request e).replies = [] ∧ (s.request e).first = some (.error Errno.AGAIN) := by
  have serves := (reachable_served reached).serves e (by rw [place]; decide)
  rw [place] at serves
  have locks : (task (s.request e).message).Locks := by
    rw [show task (s.request e).message = .setLockBlocking from serves]
    trivial
  have transcript := reachable_transcript reached e (by rw [place]; decide) locks
  simp only [Request.Transcript, place] at transcript
  exact ⟨transcript.1, transcript.2.2.2⟩

theorem reachable_announces {s : State} (reached : machine.Reachable s) (e : RequestId)
    (inserted : (s.request e).Inserted) : (s.request e).Announces := by
  have all : machine.Reachable s ∧ ((s.request e).Inserted → (s.request e).Announces) := by
    apply reached.invariant
    · rintro _ rfl
      exact ⟨.initial rfl, fun inserted => nomatch inserted.1⟩
    · rintro state label ⟨before, old⟩ enabled
      refine ⟨reachable_next before enabled, ?_⟩
      exact announces_next enabled (reachable_attempts before e) (reachable_idle before e)
        (fun place => (reachable_inserting before place).1) old
  exact all.2 inserted

/-- A worker enters itself into the table, under an ID that was free. -/
theorem interrupts_cases {s : State} {a : Action} {id : UInt64} {e : RequestId}
    (bound : (next s a).interrupts id = some e) :
    s.interrupts id = some e ∨
      a = .insertInterrupt e ∧ (s.request e).id = id ∧ s.interrupts id = none := by
  revert bound
  cases a <;> simp only [next] <;> (repeat' split) <;> simp_all <;> grind

theorem removeInterrupt_interrupts (s : State) (x : RequestId) :
    (next s (.removeInterrupt x)).interrupts (s.request x).message.id = none := by
  simp only [next]
  split
  · simp
  · next absent => exact absent

/-- An `Interrupt` stops the worker it found in the table. -/
theorem stop_cases {s : State} {a : Action} (enabled : Enabled s a) {x : RequestId}
    (stops : ((next s a).request x).pc = .interruptStop) :
    (s.request x).pc = .interruptStop ∧
        ((next s a).request x).target = (s.request x).target ∨
      a = .interruptLookup x ∧
        s.interrupts (s.request x).message.id = some ((next s a).request x).target := by
  by_cases own : x = a.actor
  · subst own
    revert stops
    cases a with
    | recv e message =>
        have starts := Task.handler_cases (task message)
        simp only [next, Action.actor, State.setLoop_request, State.setRequest_request, if_pos]
        grind
    | startThread e =>
        have starts := Task.threadHandler_cases (task (s.request e).message)
        simp only [next, Action.actor, State.setLoop_request, State.setRequest_request, if_pos]
        grind
    | mapGet e =>
        have goes := Task.lockHandler_cases (task (s.request e).message)
        simp only [next, Action.actor]
        split <;> grind
    | _ =>
        simp only [Enabled, Action.actor] at enabled ⊢
        simp only [next]
        (repeat' split) <;> simp_all
  · rw [request_next_of_ne s own] at stops ⊢
    exact .inl ⟨stops, rfl⟩

/-- A `RemoveInterrupt` is answered when the entry is removed. -/
theorem removed_cases {s : State} {a : Action} (served : Served s) (enabled : Enabled s a)
    {x : RequestId} {id : UInt64} (message : ((next s a).request x).message = .removeInterrupt id)
    (handled : ((next s a).request x).pc = .reply ∨ ((next s a).request x).pc = .finished) :
    (s.request x).pc = .reply ∨ (s.request x).pc = .finished ∨
      a = .removeInterrupt x ∧ (s.request x).message = .removeInterrupt id := by
  by_cases own : x = a.actor
  · subst own
    have serves := served.serves a.actor
    revert message handled
    cases a <;> simp only [Enabled, Action.actor] at enabled serves ⊢ <;> simp only [next] <;>
      (repeat' split) <;> simp_all [Pc.Serves, task, Task.handler, Task.Locks] <;> grind [task, Task.handler]
  · rw [request_next_of_ne s own] at message handled
    rcases handled with handled | handled
    · exact .inl handled
    · exact .inr (.inl handled)

theorem Request.WorkerTranscript.pending {request : Request} (worker : request.WorkerTranscript)
    {id : UInt64} (pending : request.replies.head? = some (.ok (.lockCommand (.pending id)))) :
    (request.first = some (.error Errno.AGAIN) ∧ id = request.id) ∧
      request.masked = some (.ok ()) ∧ ∃ last, request.AnswersLast last ∧
        request.replies = [.ok (.lockCommand (.pending id)), last] := by
  obtain ⟨_, last, answersLast, ⟨_, one⟩ | ⟨masked, first, answers, two⟩⟩ := worker
  · rw [one] at pending
    cases pending
    exact answersLast.terminal.elim
  · rw [two] at pending
    cases pending
    exact ⟨answers.pending, masked, last, answersLast, two⟩

/-- A worker that has answered `Pending` has its entry under the ID it answered, and its
next reply is the last one. -/
theorem Request.Transcript.pending {request : Request} (transcript : request.Transcript)
    {id : UInt64} (pending : request.replies.head? = some (.ok (.lockCommand (.pending id))))
    (serves : request.pc.Serves (task request.message)) (locks : (task request.message).Locks) :
    (request.Inserted ∧ id = request.id) ∧ request.masked = some (.ok ()) ∧
      (request.replies = [.ok (.lockCommand (.pending id))] ∧
          (request.pc = .unblockSignal ∨ request.pc = .setlkw ∨
            request.pc = .replyLast ∧ request.AnswersLast request.out) ∨
        ∃ last, request.AnswersLast last ∧
          request.replies = [.ok (.lockCommand (.pending id)), last]) := by
  have single : ∀ first, request.AnswersFirst first → request.replies = [first] →
      (request.first = some (.error Errno.AGAIN) ∧ id = request.id) ∧
        request.replies = [.ok (.lockCommand (.pending id))] := by
    intro first answers one
    rw [one] at pending
    cases pending
    exact ⟨answers.pending, one⟩
  cases place : request.pc with
  | unblockSignal =>
      simp only [Request.Transcript, place] at transcript
      obtain ⟨_, masked, first, answers, one⟩ := transcript
      obtain ⟨⟨again, same⟩, shape⟩ := single first answers one
      exact ⟨⟨⟨again, by simp [place], by simp [place]⟩, same⟩, masked, .inl ⟨shape, .inl rfl⟩⟩
  | setlkw =>
      simp only [Request.Transcript, place] at transcript
      obtain ⟨_, masked, _, first, answers, one⟩ := transcript
      obtain ⟨⟨again, same⟩, shape⟩ := single first answers one
      exact ⟨⟨⟨again, by simp [place], by simp [place]⟩, same⟩, masked,
        .inl ⟨shape, .inr (.inl rfl)⟩⟩
  | replyLast =>
      simp only [Request.Transcript, place] at transcript
      obtain ⟨_, answersLast, ⟨_, nothing⟩ | ⟨masked, first, answers, one⟩⟩ := transcript
      · rw [nothing] at pending
        cases pending
      · obtain ⟨⟨again, same⟩, shape⟩ := single first answers one
        exact ⟨⟨⟨again, by simp [place], by simp [place]⟩, same⟩, masked,
          .inl ⟨shape, .inr (.inr ⟨rfl, answersLast⟩)⟩⟩
  | endCall | dropClone | untrack | markExited =>
      simp only [Request.Transcript, place] at transcript
      obtain ⟨⟨again, same⟩, masked, last, answersLast, two⟩ := transcript.pending pending
      exact ⟨⟨⟨again, by simp [place], by simp [place]⟩, same⟩, masked,
        .inr ⟨last, answersLast, two⟩⟩
  | finished =>
      simp only [Request.Transcript, place] at transcript
      rcases transcript with ⟨⟨last, terminal, one⟩, _⟩ | ⟨_, _, ⟨nothing, _⟩ | worker⟩
      · rw [one] at pending
        cases pending
        exact terminal.elim
      · rw [nothing] at pending
        cases pending
      · obtain ⟨⟨again, same⟩, masked, last, answersLast, two⟩ := worker.pending pending
        exact ⟨⟨⟨again, by simp [place], by simp [place]⟩, same⟩, masked,
          .inr ⟨last, answersLast, two⟩⟩
  | idle =>
      rw [place] at serves
      exact serves.elim
  | _ =>
      simp only [Request.Transcript, Pc.Serves, place] at transcript serves
      grind [Task.Locks]

/-- The first reply to a lock command is its last one, or the `Pending` of a worker. -/
theorem Request.Transcript.head {request : Request} (transcript : request.Transcript)
    (serves : request.pc.Serves (task request.message)) (locks : (task request.message).Locks)
    {reply : Reply} {more : List Reply} (replies : request.replies = reply :: more) :
    Terminal reply ∨
      ∃ id, reply = .ok (.lockCommand (.pending id)) ∧
        task request.message = .setLockBlocking := by
  have first : ∀ x, request.AnswersFirst x → Terminal x ∨ ∃ id, x = .ok (.lockCommand (.pending id)) := by
    rintro x (⟨_, same⟩ | ⟨_, terminal⟩)
    · exact .inr ⟨_, same⟩
    · exact .inl terminal
  have worker : request.WorkerTranscript →
      Terminal reply ∨ ∃ id, reply = .ok (.lockCommand (.pending id)) := by
    rintro ⟨_, last, answersLast, ⟨_, one⟩ | ⟨_, x, answers, two⟩⟩
    · rw [one] at replies
      cases replies
      exact .inl answersLast.terminal
    · rw [two] at replies
      cases replies
      exact first _ answers
  cases place : request.pc with
  | unblockSignal | setlkw | replyLast | endCall | dropClone | untrack | markExited =>
      simp only [Request.Transcript, Pc.Serves, place] at transcript serves
      simp only [serves, and_true]
      simp_all
  | finished =>
      simp only [Request.Transcript, place] at transcript
      rcases transcript with ⟨⟨last, terminal, one⟩, _⟩ | ⟨blocking, _, ⟨nothing, _⟩ | done⟩
      · rw [one] at replies
        cases replies
        exact .inl terminal
      · rw [nothing] at replies
        cases replies
      · simpa [blocking] using worker done
  | idle =>
      rw [place] at serves
      exact serves.elim
  | _ =>
      simp only [Request.Transcript, Pc.Serves, place] at transcript serves
      grind [Task.Locks]

theorem Terminal.hasKind {reply : Reply} (terminal : Terminal reply) :
    Reply.HasKind .lockCommand reply := by
  cases reply with
  | error errno => trivial
  | ok data =>
      cases data with
      | lockCommand data => rfl
      | unit => exact terminal.elim
      | register id => exact terminal.elim

/-- A lock command whose endpoint is dropped without a reply was not even started. -/
theorem Request.Transcript.silent {request : Request} (transcript : request.Transcript)
    (dropped : request.pc.Dropped) (nothing : request.replies = []) : request.pc = .finished := by
  have worker : ¬ request.WorkerTranscript := by
    rintro ⟨_, last, _, ⟨_, one⟩ | ⟨_, x, _, two⟩⟩
    · rw [nothing] at one
      cases one
    · rw [nothing] at two
      cases two
  cases place : request.pc with
  | finished => rfl
  | dropClone | untrack | markExited =>
      simp only [Request.Transcript, place] at transcript
      exact (worker transcript).elim
  | _ =>
      rw [place] at dropped
      exact dropped.elim

end Ulockmgr.Owner
