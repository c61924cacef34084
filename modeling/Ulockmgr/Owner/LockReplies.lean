import Ulockmgr.Owner.Invariant

/-!
# The replies to a lock command

`handle_lock_command` answers on the loop, or hands the reply endpoint over to a worker.
The transcript of a request says, for every place its handler can be at, what has been
written so far and which results of the system calls led there.  The stream is well formed
exactly for the requests that are served on the loop and for the workers that get as far
as `Pending` or cannot block their signals: a worker whose first attempt is settled
answers, and then answers again; a worker that is never run answers nothing.
-/

namespace Ulockmgr.Owner

/-- A reply after which the client expects nothing. -/
def Terminal : Reply → Prop
  | .ok (.lockCommand (.done _)) | .error _ => True
  | .ok (.lockCommand (.pending _)) | .ok .unit | .ok (.register _) => False

theorem terminal_lockReply (result : Except Errno Libc.Flock) : Terminal (lockReply result) := by
  unfold lockReply
  split
  · trivial
  · split <;> trivial

theorem terminal_doneReply (request : Request) (result : Outcome) :
    Terminal (request.doneReply result) := by
  cases result <;> trivial

namespace Request

/-- The first reply of a worker whose first attempt came out as `first` says. -/
def AnswersFirst (request : Request) (reply : Reply) : Prop :=
  request.first = some (.error Errno.AGAIN) ∧ reply = .ok (.lockCommand (.pending request.id)) ∨
    (∃ result, request.first = some result ∧ result ≠ .error Errno.AGAIN) ∧ Terminal reply

theorem AnswersFirst.pending {request : Request} {id : UInt64}
    (answers : request.AnswersFirst (.ok (.lockCommand (.pending id)))) :
    request.first = some (.error Errno.AGAIN) ∧ id = request.id := by
  rcases answers with ⟨again, same⟩ | ⟨_, terminal⟩
  · cases same
    exact ⟨again, rfl⟩
  · exact terminal.elim

/-- The last reply of a worker: the result of its second attempt, or of a signal mask that
could not be set. -/
def AnswersLast (request : Request) (reply : Reply) : Prop :=
  (∃ errno, (request.masked = some (.error errno) ∨ request.unmasked = some (.error errno)) ∧
      reply = .error errno) ∨
    request.unmasked = some (.ok ()) ∧
      ∃ outcome, request.second = some outcome ∧ reply = request.doneReply outcome

theorem AnswersLast.terminal {request : Request} {reply : Reply}
    (answers : request.AnswersLast reply) : Terminal reply := by
  rcases answers with ⟨errno, _, rfl⟩ | ⟨_, outcome, _, rfl⟩
  · trivial
  · exact terminal_doneReply request outcome

/-- What a worker has written when it is done. -/
def WorkerTranscript (request : Request) : Prop :=
  request.spawned = some .tracked ∧ ∃ last, request.AnswersLast last ∧
    ((∃ errno, request.masked = some (.error errno)) ∧ request.replies = [last] ∨
      request.masked = some (.ok ()) ∧
        ∃ first, request.AnswersFirst first ∧ request.replies = [first, last])

/-- What has been written to the endpoint of a lock command, by the place of its handler. -/
def Transcript (request : Request) : Prop :=
  match request.pc with
  | .idle | .startThread | .removeInterrupt | .acquireExit | .trackerNew | .fetchId | .insertId
  | .interruptLookup | .interruptStop | .mapRemove | .trackerStop | .trackerWait | .refcount
  | .dropData => True
  | .mapGet | .getlk | .setlk | .spawn | .childStart => request.replies = []
  | .reply =>
      request.replies = [] ∧ Terminal request.out ∧
        (task request.message ≠ .setLockBlocking ∨ request.found = some false)
  | .refused => request.replies = [] ∧ request.spawned = some .refused
  | .blockSignals => request.replies = [] ∧ request.spawned = some .tracked
  | .firstTry =>
      request.replies = [] ∧ request.spawned = some .tracked ∧ request.masked = some (.ok ())
  | .fetchInterrupt | .insertInterrupt =>
      request.replies = [] ∧ request.spawned = some .tracked ∧ request.masked = some (.ok ()) ∧
        request.first = some (.error Errno.AGAIN)
  | .replyFirst =>
      request.replies = [] ∧ request.spawned = some .tracked ∧ request.masked = some (.ok ()) ∧
        request.AnswersFirst request.out
  | .unblockSignal =>
      request.spawned = some .tracked ∧ request.masked = some (.ok ()) ∧
        ∃ first, request.AnswersFirst first ∧ request.replies = [first]
  | .setlkw =>
      request.spawned = some .tracked ∧ request.masked = some (.ok ()) ∧
        request.unmasked = some (.ok ()) ∧
          ∃ first, request.AnswersFirst first ∧ request.replies = [first]
  | .replyLast =>
      request.spawned = some .tracked ∧ request.AnswersLast request.out ∧
        ((∃ errno, request.masked = some (.error errno)) ∧ request.replies = [] ∨
          request.masked = some (.ok ()) ∧
            ∃ first, request.AnswersFirst first ∧ request.replies = [first])
  | .endCall | .dropClone | .untrack | .markExited => request.WorkerTranscript
  | .finished =>
      (∃ last, Terminal last ∧ request.replies = [last]) ∧
          (task request.message ≠ .setLockBlocking ∨ request.found = some false) ∨
        task request.message = .setLockBlocking ∧ request.found = some true ∧
          (request.replies = [] ∧
              (request.spawned = some .failed ∨ request.spawned = some .refused) ∨
            request.WorkerTranscript)

end Request

theorem Task.Locks.handler {t : Task} (locks : t.Locks) : t.handler = .mapGet := by
  cases t <;> first | exact locks.elim | rfl

theorem transcript_recv {s : State} {a : Action} (enabled : Enabled s a) {e : RequestId}
    (idle : (s.request e).pc = .idle) (running : ((next s a).request e).pc ≠ .idle)
    (locks : (task ((next s a).request e).message).Locks) :
    ((next s a).request e).Transcript := by
  have starts : ∃ message, a = .recv e message := by
    by_contra other
    rw [not_exists] at other
    exact running (idle_stays enabled other idle)
  obtain ⟨message, rfl⟩ := starts
  have handler := locks.handler
  simp only [next, State.setLoop_request, State.setRequest_request, if_pos] at handler ⊢
  simp [Request.Transcript, handler, Request.idle]

/-- The handlers of lock commands only; `recv` starts a transcript. -/
theorem transcript_next {s : State} {a : Action} (served : Served s)
    (enabled : Enabled s a) {e : RequestId} (running : (s.request e).pc ≠ .idle)
    (locks : (task (s.request e).message).Locks) (own : e = a.actor)
    (old : (s.request e).Transcript) : ((next s a).request e).Transcript := by
  subst own
  have serves := served.serves a.actor running
  have found := served.found a.actor
  have done := fun result => terminal_doneReply (s.request a.actor) result
  cases a with
  | recv e message => exact (running enabled.2).elim
  | fetch e signal =>
      simp only [next]
      split
      · rw [State.setRequest_request, Action.actor, if_pos rfl]
        exact old
      · exact old
  | firstTry e result =>
      simp only [Enabled, Action.actor] at *
      simp only [Request.Transcript, enabled] at old
      by_cases again : result = .failed Errno.AGAIN
      · simp [next, again, Request.Transcript, old, Fcntl.outcome]
      · have settled : result.outcome ≠ .error Errno.AGAIN := mt Fcntl.outcome_eq_error.mp again
        simp [next, again, Request.Transcript, old, Request.AnswersFirst, settled, done]
  | _ =>
      simp only [Enabled, Action.actor] at *
      try simp only [Request.Transcript, Pc.Serves, Pc.Found, enabled] at old serves found
      simp only [next]
      (repeat' split) <;>
        grind [Request.Transcript, Request.WorkerTranscript, Request.AnswersFirst,
          Request.AnswersLast, Task.Locks, terminal_lockReply, Terminal]

theorem reachable_transcript {s : State} (reached : machine.Reachable s) (e : RequestId)
    (running : (s.request e).pc ≠ .idle) (locks : (task (s.request e).message).Locks) :
    (s.request e).Transcript := by
  have all : Served s ∧ ∀ e, (s.request e).pc ≠ .idle → (task (s.request e).message).Locks →
      (s.request e).Transcript := by
    apply reached.invariant
    · rintro _ rfl
      exact ⟨served_initial, fun e running => (running rfl).elim⟩
    · rintro state label ⟨served, inv⟩ enabled
      refine ⟨served_next served enabled, ?_⟩
      intro e running locks
      by_cases own : e = label.actor
      · by_cases idle : (state.request e).pc = .idle
        · exact transcript_recv enabled idle running locks
        · have message := message_next enabled idle
          have before : (task (state.request e).message).Locks := message ▸ locks
          exact transcript_next served enabled idle before own (inv e idle before)
      · have same : (next state label).request e = state.request e := request_next_of_ne state own
        have kept := inv e
        rw [← same] at kept
        exact kept running locks
  exact all.2 e running locks

/-! ## Well-formed streams -/

/-- The handler has dropped the reply object. -/
def Pc.Dropped : Pc → Prop
  | .dropClone | .untrack | .markExited | .finished => True
  | .idle | .startThread | .removeInterrupt | .acquireExit | .trackerNew | .fetchId | .insertId
  | .mapGet | .getlk | .setlk | .spawn | .interruptLookup | .interruptStop | .mapRemove
  | .trackerStop | .trackerWait | .refcount | .dropData | .reply | .childStart | .refused
  | .blockSignals | .firstTry | .fetchInterrupt | .insertInterrupt | .replyFirst | .unblockSignal
  | .setlkw | .replyLast | .endCall => False

/-- One terminal reply, preceded by one `Pending` only if the command is blocking and the
first attempt reported `EAGAIN`. -/
def Request.WellFormed (request : Request) : Prop :=
  ∃ last, Terminal last ∧
    (request.replies = [last] ∨
      task request.message = .setLockBlocking ∧ request.first = some (.error Errno.AGAIN) ∧
        ∃ id, request.replies = [.ok (.lockCommand (.pending id)), last])

/-- The command is not blocking, or its ID is unknown, or its worker is run and either cannot
block its signals or finds the lock taken. -/
def Request.Regular (request : Request) : Prop :=
  task request.message ≠ .setLockBlocking ∨ request.found = some false ∨
    request.spawned = some .tracked ∧
      ((∃ errno, request.masked = some (.error errno)) ∨
        request.first = some (.error Errno.AGAIN))

theorem Request.WorkerTranscript.wellFormed_iff {request : Request}
    (worker : request.WorkerTranscript) (blocking : task request.message = .setLockBlocking)
    (known : request.found = some true) : request.WellFormed ↔ request.Regular := by
  obtain ⟨tracked, last, answersLast, written⟩ := worker
  have terminal := answersLast.terminal
  rcases written with ⟨failed, one⟩ | ⟨masked, first, answers, two⟩
  · exact ⟨fun _ => .inr (.inr ⟨tracked, .inl failed⟩), fun _ => ⟨last, terminal, .inl one⟩⟩
  · rcases answers with ⟨again, pending⟩ | ⟨⟨result, settled, other⟩, _⟩
    · refine ⟨fun _ => .inr (.inr ⟨tracked, .inr again⟩), fun _ => ⟨last, terminal, .inr ?_⟩⟩
      exact ⟨blocking, again, request.id, by rw [two, pending]⟩
    · -- the first reply was terminal already
      constructor
      · rintro ⟨_, _, one | ⟨_, again, _⟩⟩
        · rw [two] at one
          cases one
        · rw [settled] at again
          cases again
          exact (other rfl).elim
      · rintro (loop | unknown | ⟨_, ⟨errno, failed⟩ | again⟩)
        · exact (loop blocking).elim
        · rw [known] at unknown
          cases unknown
        · rw [masked] at failed
          cases failed
        · rw [settled] at again
          cases again
          exact (other rfl).elim

/-- When the endpoint of a lock command is dropped, its replies are well formed exactly
if the command was a regular one. -/
theorem lock_replies_wellFormed_iff {s : State} (reached : machine.Reachable s) (e : RequestId)
    (locks : (task (s.request e).message).Locks) (dropped : (s.request e).pc.Dropped) :
    (s.request e).WellFormed ↔ (s.request e).Regular := by
  have running : (s.request e).pc ≠ .idle := by
    intro idle
    rw [idle] at dropped
    exact dropped
  have transcript := reachable_transcript reached e running locks
  have served := reachable_served reached
  cases place : (s.request e).pc with
  | finished =>
      simp only [Request.Transcript, place] at transcript
      rcases transcript with ⟨⟨last, terminal, one⟩, loop⟩ | ⟨blocking, known, silent | worker⟩
      · refine ⟨fun _ => ?_, fun _ => ⟨last, terminal, .inl one⟩⟩
        exact loop.imp_right .inl
      · -- the closure with the endpoint was dropped without being run
        obtain ⟨nothing, failed⟩ := silent
        constructor
        · rintro ⟨last, _, one | ⟨_, _, id, two⟩⟩
          · rw [nothing] at one
            cases one
          · rw [nothing] at two
            cases two
        · rintro (loop | unknown | ⟨tracked, _⟩)
          · exact (loop blocking).elim
          · rw [known] at unknown
            cases unknown
          · rw [tracked] at failed
            rcases failed with failed | failed <;> cases failed
      · exact worker.wellFormed_iff blocking known
  | dropClone | untrack | markExited =>
      simp only [Request.Transcript, place] at transcript
      have blocking := served.serves e running
      rw [place] at blocking
      exact transcript.wellFormed_iff blocking (served.found e (by rw [place]; trivial))
  | _ =>
      rw [place] at dropped
      exact dropped.elim

/-- An uncontended blocking lock is answered `Done` by the first attempt and again by the
second one. -/
theorem uncontended_lock_answered_twice :
    ∃ s, machine.Reachable s ∧ (task (s.request 1).message).Locks ∧ (s.request 1).pc.Dropped ∧
      (s.request 1).replies = [.ok (.lockCommand (.done ⟨.write, .start, 0, 10, 0⟩)),
        .ok (.lockCommand (.done ⟨.write, .start, 0, 10, 0⟩))] ∧ ¬ (s.request 1).WellFormed := by
  have found : ∃ s, machine.Reachable s ∧
      ((s.request 1).pc = .dropClone ∧
        (s.request 1).message = .lockCommand 0 .setLockBlocking ⟨.write, .start, 0, 10, 0⟩ ∧
          (s.request 1).first = some (.ok ()) ∧
            (s.request 1).replies = [.ok (.lockCommand (.done ⟨.write, .start, 0, 10, 0⟩)),
              .ok (.lockCommand (.done ⟨.write, .start, 0, 10, 0⟩))]) :=
    Transition.Machine.exists_reachable_of_exec
      [.recv 0 (.register (.file 7)), .acquireExit 0, .trackerNew 0, .fetchId 0, .insertId 0,
        .reply 0, .recv 1 (.lockCommand 0 .setLockBlocking ⟨.write, .start, 0, 10, 0⟩), .mapGet 1,
        .spawn 1, .track 1, .spawnReturn 1, .release 1, .blockSignals 1 (.ok ()),
        .firstTry 1 (.granted 0 0), .replyFirst 1, .unblockSignal 1 (.ok ()),
        .setlkw 1 (.granted 0 0), .replyLast 1, .endCall 1] rfl (by decide +kernel)
  obtain ⟨s, reached, place, message, settled, replies⟩ := found
  refine ⟨s, reached, by rw [message]; trivial, by rw [place]; trivial, replies, ?_⟩
  rintro ⟨last, _, one | ⟨_, again, _⟩⟩
  · rw [replies] at one
    cases one
  · rw [settled] at again
    cases again

/-- A worker that finds the lock taken is interrupted while it waits. -/
theorem contended_lock_replies_wellFormed :
    ∃ s, machine.Reachable s ∧ (s.request 1).pc.Dropped ∧ (s.request 1).WellFormed ∧
      (s.request 1).replies = [.ok (.lockCommand (.pending 0)), .error Errno.INTR] := by
  have found : ∃ s, machine.Reachable s ∧
      ((s.request 1).pc = .finished ∧
        (s.request 1).message = .lockCommand 0 .setLockBlocking ⟨.write, .start, 0, 10, 0⟩ ∧
          ((s.request 1).spawned = some .tracked ∧
            (s.request 1).first = some (.error Errno.AGAIN)) ∧
            (s.request 1).replies = [.ok (.lockCommand (.pending 0)), .error Errno.INTR]) :=
    Transition.Machine.exists_reachable_of_exec
      [.recv 0 (.register (.file 7)), .acquireExit 0, .trackerNew 0, .fetchId 0, .insertId 0,
        .reply 0, .foreignLock 7 ⟨⟨0, 9⟩, .write⟩,
        .recv 1 (.lockCommand 0 .setLockBlocking ⟨.write, .start, 0, 10, 0⟩), .mapGet 1,
        .spawn 1, .track 1, .spawnReturn 1, .release 1, .blockSignals 1 (.ok ()),
        .firstTry 1 (.failed Errno.AGAIN), .fetchInterrupt 1, .insertInterrupt 1, .replyFirst 1,
        .unblockSignal 1 (.ok ()), .setlkw 1 (.failed Errno.INTR), .replyLast 1, .endCall 1,
        .dropClone 1, .untrack 1, .markExited 1] rfl (by decide +kernel)
  obtain ⟨s, reached, place, message, regular, replies⟩ := found
  have locks : (task (s.request 1).message).Locks := by
    rw [message]
    trivial
  have dropped : (s.request 1).pc.Dropped := by
    rw [place]
    trivial
  have wellFormed := (lock_replies_wellFormed_iff reached 1 locks dropped).mpr
    (.inr (.inr ⟨regular.1, .inr regular.2⟩))
  exact ⟨s, reached, dropped, wellFormed, replies⟩

end Ulockmgr.Owner
