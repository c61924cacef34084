import Ulockmgr.Owner.Endpoint

/-!
# Replies are read in order

Whoever reads from the endpoint of a request, and whenever he does: the replies come in the
order in which they were written, each once and with the type that belongs to the request, and
the end of the connection comes behind the last one.
-/

namespace Ulockmgr.Owner

/-! ## The type of a reply -/

/-- What the client of a message expects in a reply. -/
def Task.replyKind : Task → ReplyKind
  | .ping | .interrupt | .removeInterrupt | .unregister => .unit
  | .register => .register
  | .getLock | .setLock | .setLockBlocking => .lockCommand

theorem replyKind_task (message : Message) : (task message).replyKind = message.replyKind := by
  cases message with
  | lockCommand id action params => cases action <;> rfl
  | _ => rfl

theorem Task.Locks.replyKind {t : Task} (locks : t.Locks) : t.replyKind = .lockCommand := by
  cases t <;> first | exact locks.elim | rfl

/-- The places where the next thing is to write `out`. -/
def Pc.Writes : Pc → Prop
  | .reply | .replyFirst | .replyLast => True
  | .idle | .startThread | .removeInterrupt | .acquireExit | .trackerNew | .fetchId | .insertId
  | .mapGet | .getlk | .setlk | .spawn | .interruptLookup | .interruptStop | .mapRemove
  | .trackerStop | .trackerWait | .refcount | .dropData | .childStart | .refused | .blockSignals
  | .firstTry | .fetchInterrupt | .insertInterrupt | .unblockSignal | .setlkw | .endCall
  | .dropClone | .untrack | .markExited | .finished => False

structure Request.Typed (request : Request) : Prop where
  out : request.pc.Writes → Reply.HasKind (task request.message).replyKind request.out
  replies : ∀ reply ∈ request.replies, Reply.HasKind (task request.message).replyKind reply

theorem hasKind_doneReply (request : Request) (result : Outcome) :
    Reply.HasKind .lockCommand (request.doneReply result) :=
  (terminal_doneReply request result).hasKind

theorem hasKind_lockReply (result : Except Errno Libc.Flock) :
    Reply.HasKind .lockCommand (lockReply result) :=
  (terminal_lockReply result).hasKind

@[simp] theorem hasKind_error (kind : ReplyKind) (errno : Errno) :
    Reply.HasKind kind (.error errno) :=
  trivial

@[simp] theorem hasKind_ok {kind : ReplyKind} {data : ReplyData} :
    Reply.HasKind kind (.ok data) ↔ data.kind = kind :=
  Iff.rfl

/-- A handler comes to a place where it writes with a reply of the right type. -/
theorem typed_out {s : State} {a : Action} (served : Served s) (enabled : Enabled s a)
    (old : (s.request a.actor).Typed) (writes : ((next s a).request a.actor).pc.Writes) :
    Reply.HasKind (task ((next s a).request a.actor).message).replyKind
      ((next s a).request a.actor).out := by
  have out := old.out
  have serves := served.serves a.actor
  clear old served
  revert writes
  cases a with
  | recv e message =>
      simp only [next, Action.actor, State.setLoop_request, State.setRequest_request, if_pos]
      cases message with
      | ping => simp [Request.idle, task, Task.replyKind, ReplyData.kind]
      | lockCommand id action params => cases action <;> exact False.elim
      | _ => exact False.elim
  | fetch e signal =>
      simp only [Action.actor] at out ⊢
      rcases fetch_cases s e signal with same | ⟨_, _, _, same⟩ <;> rw [same] <;> exact out
  | startThread e =>
      have starts := Task.threadHandler_cases (task (s.request e).message)
      simp only [next, Action.actor, State.setLoop_request, State.setRequest_request, if_pos]
      rcases starts with ⟨_, place⟩ | ⟨_, place⟩ <;> rw [place] <;> exact False.elim
  | mapGet e =>
      have goes := Task.lockHandler_cases (task (s.request e).message)
      simp only [next, Action.actor]
      split
      · simp
      · simp only [State.setRequest_request, if_pos]
        rcases goes with ⟨_, place⟩ | ⟨_, place⟩ | ⟨_, _, place⟩ <;> rw [place] <;>
          exact False.elim
  | getlk e result =>
      simp only [Enabled, Action.actor] at enabled serves ⊢
      have get := serves (by rw [enabled]; decide)
      rw [enabled] at get
      simp only [next, State.setRequest_request, if_pos]
      intro _
      rw [show task (s.request e).message = .getLock from get]
      exact hasKind_lockReply _
  | setlk e result =>
      simp only [Enabled, Action.actor] at enabled serves ⊢
      have set := serves (by rw [enabled.1]; decide)
      rw [enabled.1] at set
      simp only [next, State.setRequest_request, if_pos]
      intro _
      rw [show task (s.request e).message = .setLock from set]
      exact hasKind_lockReply _
  | _ =>
      simp only [Enabled, Action.actor] at enabled out serves ⊢
      simp only [next]
      (repeat' split) <;>
        simp_all [Pc.Writes, Pc.Serves, Task.replyKind, ReplyData.kind, hasKind_doneReply]

theorem typed_replies {s : State} {a : Action} (enabled : Enabled s a)
    (old : (s.request a.actor).Typed) {reply : Reply}
    (written : reply ∈ ((next s a).request a.actor).replies) :
    Reply.HasKind (task ((next s a).request a.actor).message).replyKind reply := by
  have out := old.out
  have replies := old.replies
  clear old
  revert written
  cases a with
  | fetch e signal =>
      simp only [Action.actor] at replies ⊢
      rcases fetch_cases s e signal with same | ⟨_, _, _, same⟩ <;> rw [same] <;>
        exact replies reply
  | recv e message => simp [next, Action.actor, Request.idle]
  | _ =>
      simp only [Enabled, Action.actor] at enabled out replies ⊢
      simp only [next]
      (repeat' split) <;> simp_all [Pc.Writes, or_imp]

theorem reachable_typed {s : State} (reached : machine.Reachable s) (e : RequestId) :
    (s.request e).Typed := by
  have both : Served s ∧ (s.request e).Typed := by
    apply reached.invariant
    · rintro _ rfl
      exact ⟨served_initial, nofun, nofun⟩
    · rintro state label ⟨served, old⟩ enabled
      refine ⟨served_next served enabled, ?_⟩
      by_cases own : e = label.actor
      · subst own
        exact ⟨typed_out served enabled old, fun _ => typed_replies enabled old⟩
      · rw [show machine.next = next from rfl, request_next_of_ne state own]
        exact old
  exact both.2

/-! ## The only reply -/

/-- All but blocking lock commands are answered at the end, if at all. -/
def Request.Once (request : Request) : Prop :=
  task request.message ≠ .setLockBlocking →
    request.replies = [] ∨ request.replies = [request.out] ∧ request.pc = .finished

theorem once_next {s : State} {a : Action} (served : Served s) (enabled : Enabled s a)
    (old : (s.request a.actor).Once) : ((next s a).request a.actor).Once := by
  intro once
  have before := old
  have silent := served.silent a.actor
  have serves := served.serves a.actor
  clear served old
  revert once
  cases a with
  | fetch e signal =>
      simp only [Action.actor] at before ⊢
      rcases fetch_cases s e signal with same | ⟨_, _, _, same⟩ <;> rw [same] <;> exact before
  | recv e message =>
      intro _
      left
      simp [next, Action.actor, Request.idle]
  | _ =>
      simp only [Enabled, Action.actor, Request.Once] at enabled before silent serves ⊢
      simp only [next]
      (repeat' split) <;> simp_all [Pc.Serves]

theorem reachable_once {s : State} (reached : machine.Reachable s) (e : RequestId) :
    (s.request e).Once := by
  have both : Served s ∧ (s.request e).Once := by
    apply reached.invariant
    · rintro _ rfl
      exact ⟨served_initial, fun _ => .inl rfl⟩
    · rintro state label ⟨served, old⟩ enabled
      refine ⟨served_next served enabled, ?_⟩
      by_cases own : e = label.actor
      · subst own
        exact once_next served enabled old
      · rw [show machine.next = next from rfl, request_next_of_ne state own]
        exact old
  exact both.2

/-! ## Reading -/

/-- The reply, if any, that a step reads from the endpoint of `e`. -/
def State.reads (e : RequestId) (s : State) : Action → List Fetched
  | .fetch x signal =>
      if x = e then
        match nextReply (s.request e).message.replyKind (s.request e).stream signal with
        | .returns (some (.ok item)) _ => [.ok item]
        | _ => []
      else []
  | _ => []

/-- What a read returns when the given replies are unread. -/
def Request.offers (request : Request) (signal : Bool) : List Reply → Received (Option Fetched)
  | reply :: more =>
      .returns (some (Reply.fetched reply [])) ⟨more.map unreadSegment, request.stream.closed⟩
  | [] =>
      if request.stream.closed = true then .returns none request.stream
      else if signal = true then .returns (some (.error (.os Errno.INTR))) request.stream
      else .blocks

/-- The replies `left` are on the socket, and those before them have been read. -/
structure Request.Left (request : Request) (record : List Fetched) (left : List Reply) : Prop where
  read : ∃ read, request.replies = read ++ left ∧ record = read.map (Reply.fetched · [])
  segments : request.stream.segments = left.map unreadSegment

theorem Request.Left.offers {request : Request} {record : List Fetched} {left : List Reply}
    (unread : request.Left record left) (typed : request.Typed) (signal : Bool) :
    nextReply request.message.replyKind request.stream signal = request.offers signal left := by
  obtain ⟨⟨read, replies, _⟩, segments⟩ := unread
  have drops : request.replies.drop read.length = left := by
    rw [replies, List.drop_left]
  have behind : request.Unread read.length :=
    ⟨by rw [replies, List.length_append]; exact Nat.le_add_right _ _, by rw [segments, drops]⟩
  cases left with
  | nil => exact behind.nextReply_nil drops _ signal
  | cons reply more =>
      have member : reply ∈ request.replies := by
        rw [replies]
        exact List.mem_append_right _ List.mem_cons_self
      have kind := typed.replies reply member
      rw [replyKind_task] at kind
      exact behind.nextReply_cons kind drops signal

theorem Request.Evolves.left {request later : Request} (evolves : request.Evolves later)
    {record : List Fetched} {left : List Reply} (unread : request.Left record left) :
    ∃ more, later.Left record (left ++ more) := by
  obtain ⟨more, replies, segments⟩ := evolves.writes
  obtain ⟨⟨read, before, shown⟩, behind⟩ := unread
  refine ⟨more, ⟨read, ?_, shown⟩, ?_⟩
  · rw [replies, before, List.append_assoc]
  · rw [segments, behind, List.map_append]

/-- A read of an endpoint where nothing is left leaves it as it is. -/
theorem fetch_nothing {s : State} {e : RequestId} {signal : Bool}
    (offers : nextReply (s.request e).message.replyKind (s.request e).stream signal =
      (s.request e).offers signal []) :
    (next s (.fetch e signal)).request e = s.request e ∧
      s.reads e (.fetch e signal) = [] := by
  have cases_ : (s.request e).offers signal [] = .blocks ∨
      (s.request e).offers signal [] = .returns none (s.request e).stream ∨
      (s.request e).offers signal [] =
        .returns (some (.error (.os Errno.INTR))) (s.request e).stream := by
    simp only [Request.offers]
    (repeat' split) <;> simp
  rw [State.reads, if_pos rfl]
  rcases cases_ with waits | ends | interrupted
  · rw [waits] at offers
    simp [next, offers]
  · rw [ends] at offers
    simp [next, offers]
  · rw [interrupted] at offers
    simp [next, offers]

theorem fetch_left {s : State} {e : RequestId} {record : List Fetched} {left : List Reply}
    (typed : (s.request e).Typed) (unread : (s.request e).Left record left) (signal : Bool) :
    ∃ rest, ((next s (.fetch e signal)).request e).Left
      (record ++ s.reads e (.fetch e signal)) rest := by
  have offers := unread.offers typed signal
  cases left with
  | nil =>
      obtain ⟨same, nothing⟩ := fetch_nothing offers
      rw [same, nothing, List.append_nil]
      exact ⟨[], unread⟩
  | cons reply more =>
      obtain ⟨⟨read, replies, shown⟩, _⟩ := unread
      obtain ⟨item, succeeds⟩ : ∃ item, Reply.fetched reply [] = .ok item := by
        cases reply <;> exact ⟨_, rfl⟩
      have one : s.reads e (.fetch e signal) = [Reply.fetched reply []] := by
        rw [State.reads, if_pos rfl, offers]
        simp [Request.offers, succeeds]
      refine ⟨more, ⟨read ++ [reply], ?_, ?_⟩, ?_⟩
      · simpa [next, offers, Request.offers] using replies
      · rw [one, shown, List.map_append]
        rfl
      · simp [next, offers, Request.offers]

/-- Nothing is written behind the end of the connection. -/
theorem closed_replies {s : State} {a : Action} (enabled : Enabled s a) {e : RequestId}
    (dropped : (s.request e).pc.Dropped) :
    ((next s a).request e).replies = (s.request e).replies := by
  by_cases own : e = a.actor
  · subst own
    revert dropped
    cases a with
    | fetch e signal =>
        simp only [Action.actor]
        rcases fetch_cases s e signal with same | ⟨_, _, _, same⟩ <;> rw [same] <;>
          exact fun _ => rfl
    | _ =>
        simp only [Enabled, Action.actor] at enabled ⊢
        simp only [next]
        (repeat' split) <;> simp_all [Pc.Dropped]
  · rw [request_next_of_ne s own]

theorem reachable_left {e : RequestId} {state : State × List Fetched}
    (reached : (machine.recording (State.reads e)).Reachable state) :
    ∃ left, (state.1.request e).Left state.2 left := by
  have both : machine.Reachable state.1 ∧ ∃ left, (state.1.request e).Left state.2 left := by
    apply reached.invariant
    · rintro ⟨_, _⟩ ⟨rfl, rfl⟩
      exact ⟨.initial rfl, [], ⟨[], rfl, rfl⟩, rfl⟩
    · rintro ⟨s, record⟩ a ⟨before, left, unread⟩ enabled
      refine ⟨reachable_next before enabled, ?_⟩
      by_cases reads : ∃ signal, a = .fetch e signal
      · obtain ⟨signal, rfl⟩ := reads
        exact fetch_left (reachable_typed before e) unread signal
      · have writer : ∀ signal, a ≠ .fetch e signal := fun signal same => reads ⟨signal, same⟩
        have nothing : s.reads e a = [] := by
          cases a with
          | fetch x signal =>
              have other : x ≠ e := by
                rintro rfl
                exact writer signal rfl
              rw [State.reads, if_neg other]
          | _ => rfl
        obtain ⟨more, later⟩ :=
          (evolves_next enabled (reachable_idle before e) writer).left unread
        simp only [Transition.Machine.recording, nothing, List.append_nil]
        exact ⟨_, later⟩
  exact both.2

/-- A reply that can be read was written, and one that says the end is the last. -/
theorem reachable_offers {s : State} (reached : machine.Reachable s) (e : RequestId) :
    ∃ left, (∀ reply ∈ left, reply ∈ (s.request e).replies) ∧
      ∀ signal, nextReply (s.request e).message.replyKind (s.request e).stream signal =
        (s.request e).offers signal left := by
  obtain ⟨record, recorded⟩ := reached.recorded (State.reads e)
  obtain ⟨left, unread⟩ := reachable_left recorded
  refine ⟨left, ?_, unread.offers (reachable_typed reached e)⟩
  intro reply member
  obtain ⟨read, replies, _⟩ := unread.read
  rw [replies]
  exact List.mem_append_right _ member

/-- In every run, the reads of an endpoint have returned its replies from the first one on, in
order and each once, and the next read returns the next one.  The end is only told behind the
last of all. -/
theorem replies_read_in_order {e : RequestId} {s : State} {record : List Fetched}
    (reached : (machine.recording (State.reads e)).Reachable (s, record)) :
    (∃ read left, (s.request e).replies = read ++ left ∧
      record = read.map (Reply.fetched · []) ∧
      ∀ signal, nextReply (s.request e).message.replyKind (s.request e).stream signal =
        (s.request e).offers signal left) ∧
    ((s.request e).stream.closed = true → ∀ a, Enabled s a →
      ((next s a).request e).replies = (s.request e).replies) := by
  have plain : machine.Reachable s := Transition.Machine.Reachable.unrecorded reached
  obtain ⟨left, unread⟩ := reachable_left reached
  refine ⟨?_, ?_⟩
  · obtain ⟨read, replies, shown⟩ := unread.read
    exact ⟨read, left, replies, shown, unread.offers (reachable_typed plain e)⟩
  · intro closed a enabled
    exact closed_replies enabled (reachable_closed plain e closed)

instance (e : RequestId) (state : State × List Fetched) (a : Action) :
    Decidable ((machine.recording (State.reads e)).Enabled state a) :=
  inferInstanceAs (Decidable (Enabled state.1 a))

/-- A blocking lock command is told to wait, and later that the lock was granted. -/
theorem pending_then_done_read :
    ∃ s record, (machine.recording (State.reads 1)).Reachable (s, record) ∧
      record = [.ok (.ok (.lockCommand (.pending 0), [])),
        .ok (.ok (.lockCommand (.done ⟨.write, .start, 0, 10, 0⟩), []))] ∧
      (∃ read left, (s.request 1).replies = read ++ left ∧
        record = read.map (Reply.fetched · []) ∧
        ∀ signal, nextReply (s.request 1).message.replyKind (s.request 1).stream signal =
          (s.request 1).offers signal left) ∧
      ((s.request 1).stream.closed = true → ∀ a, Enabled s a →
        ((next s a).request 1).replies = (s.request 1).replies) := by
  have starts : (machine.recording (State.reads 1)).Initial (initial, []) := ⟨rfl, rfl⟩
  have found : ∃ state, (machine.recording (State.reads 1)).Reachable state ∧
      state.2 = [.ok (.ok (.lockCommand (.pending 0), [])),
        .ok (.ok (.lockCommand (.done ⟨.write, .start, 0, 10, 0⟩), []))] :=
    Transition.Machine.exists_reachable_of_exec
      [.recv 0 (.register (.file 7)), .acquireExit 0, .trackerNew 0, .fetchId 0, .insertId 0,
        .reply 0, .recv 1 (.lockCommand 0 .setLockBlocking ⟨.write, .start, 0, 10, 0⟩), .mapGet 1,
        .spawn 1, .track 1, .blockSignals 1 (.ok ()), .firstTry 1 (.failed Errno.AGAIN),
        .fetchInterrupt 1, .insertInterrupt 1, .replyFirst 1, .fetch 1 false,
        .unblockSignal 1 (.ok ()), .fetch 1 true, .setlkw 1 (.granted 0 100), .replyLast 1,
        .fetch 1 false, .endCall 1, .fetch 1 false] starts (by decide +kernel)
  obtain ⟨⟨s, record⟩, reached, shown⟩ := found
  exact ⟨s, record, reached, shown, replies_read_in_order reached⟩

end Ulockmgr.Owner
