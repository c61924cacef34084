import Ulockmgr.Channel

/-!
# The channel is faithful

Between the two ends of every socket are exactly the frames that were sent and not
read.  Requests therefore come out once each and in the order of the mutex, replies
once each and in the order they were written, and a reader that waits has seen
everything.
-/

namespace Ulockmgr.Channel

open Wire (Stream Segment)

/-! ## What the caller of the API is promised -/

/-- The result of `receive_request` for a request. -/
def okRequest (sent : EndpointId × Message) : Except IoError (Message × Fd) :=
  .ok (sent.2, .endpoint sent.1)

/-- Requests arrive once each, in the order of the mutex, with their own endpoint;
nothing is lost; endpoints are of one request each. -/
structure RequestsFaithful (s : State) : Prop where
  inOrder : s.received <+: s.order.map okRequest
  complete : s.holder = none → ¬ Enabled s .receive → s.received = s.order.map okRequest
  distinct : (s.order.map Prod.fst).Nodup

/-- Replies arrive once each and in order, with their data and descriptors, and the
iterator ends with the endpoint. -/
structure RepliesFaithful (s : State) (e : EndpointId) : Prop where
  inOrder : (s.endpoint e).yielded <+: (s.endpoint e).written.map fun r => Reply.fetched r.1 r.2
  complete : (s.endpoint e).created = true → (s.endpoint e).ended = false →
    ¬ Enabled s (.nextReply e) →
    (s.endpoint e).dropped = false ∧
      (s.endpoint e).yielded = (s.endpoint e).written.map fun r => Reply.fetched r.1 r.2
  ends : (s.endpoint e).created = true → (s.endpoint e).dropped = true →
    (s.endpoint e).ended = false →
    (s.endpoint e).yielded = (s.endpoint e).written.map (fun r => Reply.fetched r.1 r.2) →
      Enabled s (.nextReply e) ∧ ((next s (.nextReply e)).endpoint e).ended = true
  ended : (s.endpoint e).ended = true →
    (s.endpoint e).dropped = true ∧
      (s.endpoint e).yielded = (s.endpoint e).written.map fun r => Reply.fetched r.1 r.2

/-! ## The invariant -/

/-- The request of the holder has not been sent yet. -/
def State.held (s : State) : List (EndpointId × Message) :=
  match s.holder with
  | some (_, e, request) => [(e, request)]
  | none => []

/-- The socket holds the frames of the requests that were sent and not received. -/
def RequestsInTransit (s : State) (delivered waiting : List (EndpointId × Message)) : Prop :=
  s.order = delivered ++ waiting ++ s.held ∧ s.received = delivered.map okRequest ∧
    s.socket = ⟨waiting.map fun sent => requestSegment sent.1 sent.2, false⟩

/-- The stream of an endpoint holds the frames of the replies that were not read. -/
structure RepliesInTransit (endpoint : Endpoint) (seen waiting : List (Reply × List Fd)) : Prop where
  written : endpoint.written = seen ++ waiting
  yielded : endpoint.yielded = seen.map fun r => Reply.fetched r.1 r.2
  segments : endpoint.stream.segments = waiting.map replySegment
  sendable : ∀ r ∈ waiting, Reply.HasKind endpoint.kind r.1 ∧ r.2.length ≤ scmMaxFd
  ended : endpoint.ended = true → waiting = [] ∧ endpoint.dropped = true

structure InTransit (s : State) : Prop where
  requests : ∃ delivered waiting, RequestsInTransit s delivered waiting
  created : ∀ e, e ∈ s.order.map Prod.fst → (s.endpoint e).created = true
  distinct : (s.order.map Prod.fst).Nodup
  replies : ∀ e, ∃ seen waiting, RepliesInTransit (s.endpoint e) seen waiting

theorem repliesInTransit_new (kind : ReplyKind) (created : Bool) :
    RepliesInTransit { Endpoint.absent with created := created, kind := kind } [] [] := by
  constructor <;> simp [Endpoint.absent, Stream.empty]

theorem inTransit_initial : InTransit initial where
  requests := ⟨[], [], rfl, rfl, rfl⟩
  created e known := by cases known
  distinct := List.nodup_nil
  replies _ := ⟨[], [], repliesInTransit_new .unit false⟩

section RequestSteps
variable {s : State} {delivered waiting : List (EndpointId × Message)}

theorem RequestsInTransit.lock (transit : RequestsInTransit s delivered waiting) (t : Thread)
    (e : EndpointId) (request : Message) (free : s.holder = none) :
    RequestsInTransit (next s (.lock t e request)) delivered waiting := by
  obtain ⟨order, received, socket⟩ := transit
  refine ⟨?_, received, socket⟩
  have none_ : s.held = [] := by simp [State.held, free]
  rw [none_] at order
  simp [next, State.held, order]

theorem RequestsInTransit.send (transit : RequestsInTransit s delivered waiting) {t : Thread}
    {e : EndpointId} {request : Message} (holds : s.holder = some (t, e, request)) :
    RequestsInTransit (next s (.send t)) delivered (waiting ++ [(e, request)]) := by
  obtain ⟨order, received, socket⟩ := transit
  have held : s.held = [(e, request)] := by simp [State.held, holds]
  rw [held] at order
  simp only [next, holds, sendRequestIter_eq]
  refine ⟨?_, received, ?_⟩
  · simp [State.held, order]
  · simp [socket]

/-- A waiting request is received; with none waiting the owner waits. -/
theorem RequestsInTransit.receive {first : EndpointId × Message}
    (transit : RequestsInTransit s delivered (first :: waiting)) :
    Enabled s .receive ∧ RequestsInTransit (next s .receive) (delivered ++ [first]) waiting := by
  obtain ⟨order, received, socket⟩ := transit
  have read := receiveRequest_segment first.1 first.2
    (waiting.map fun sent => requestSegment sent.1 sent.2) false
  rw [List.map_cons] at socket
  refine ⟨?_, ?_⟩
  · simp [Enabled, socket, read]
  · simp only [next, socket, read]
    refine ⟨?_, ?_, rfl⟩
    · simp [order, State.held]
    · simp [received, okRequest]

theorem RequestsInTransit.blocks (transit : RequestsInTransit s delivered []) :
    ¬ Enabled s .receive := by
  have socket := transit.2.2
  simp [Enabled, socket, receiveRequest, receiveRawMessage_empty, Received.map]

end RequestSteps

section ReplySteps
variable {endpoint : Endpoint} {seen waiting : List (Reply × List Fd)}

theorem RepliesInTransit.reply (transit : RepliesInTransit endpoint seen waiting)
    (open_ : endpoint.dropped = false) {reply : Reply} {fds : List Fd}
    (typed : Reply.HasKind endpoint.kind reply) (few : fds.length ≤ scmMaxFd) :
    RepliesInTransit
      { endpoint with
        stream := replyWithFds endpoint.stream reply fds
        written := endpoint.written ++ [(reply, fds)] }
      seen (waiting ++ [(reply, fds)]) where
  written := by simp [transit.written]
  yielded := transit.yielded
  segments := by simp [replyWithFds_eq _ few, transit.segments]
  sendable r queued := by
    rcases List.mem_append.mp queued with old | new
    · exact transit.sendable r old
    · rw [List.mem_singleton] at new
      subst new
      exact ⟨typed, few⟩
  ended completed := by
    have closed := (transit.ended completed).2
    rw [open_] at closed
    cases closed

theorem RepliesInTransit.close (transit : RepliesInTransit endpoint seen waiting) :
    RepliesInTransit { endpoint with stream := endpoint.stream.close } seen waiting where
  written := transit.written
  yielded := transit.yielded
  segments := transit.segments
  sendable := transit.sendable
  ended completed := ⟨(transit.ended completed).1, rfl⟩

/-- The iterator returns the first reply that waits. -/
theorem RepliesInTransit.nextReply {first : Reply × List Fd}
    (transit : RepliesInTransit endpoint seen (first :: waiting)) :
    Ulockmgr.nextReply endpoint.kind endpoint.stream false =
      .returns (some (Reply.fetched first.1 first.2))
        ⟨waiting.map replySegment, endpoint.stream.closed⟩ := by
  have sendable := transit.sendable first List.mem_cons_self
  have segments := transit.segments
  rw [List.map_cons] at segments
  have shape : endpoint.stream =
      ⟨replySegment first :: waiting.map replySegment, endpoint.stream.closed⟩ := by
    rw [← segments]
  rw [shape]
  exact nextReply_segment sendable.1 sendable.2 _ _ _

theorem RepliesInTransit.nextReply_nil (transit : RepliesInTransit endpoint seen []) :
    Ulockmgr.nextReply endpoint.kind endpoint.stream false =
      if endpoint.dropped = true then .returns none ⟨[], true⟩ else .blocks := by
  have shape : endpoint.stream = ⟨[], endpoint.stream.closed⟩ := by
    rw [← List.map_nil, ← transit.segments]
  rw [shape, nextReply_empty]
  simp

theorem RepliesInTransit.read {first : Reply × List Fd}
    (transit : RepliesInTransit endpoint seen (first :: waiting)) :
    RepliesInTransit
      { endpoint with
        stream := ⟨waiting.map replySegment, endpoint.stream.closed⟩
        yielded := endpoint.yielded ++ [Reply.fetched first.1 first.2] }
      (seen ++ [first]) waiting where
  written := by simp [transit.written]
  yielded := by simp [transit.yielded]
  segments := rfl
  sendable r queued := transit.sendable r (List.mem_cons_of_mem _ queued)
  ended completed := by
    have nothing := (transit.ended completed).1
    cases nothing

theorem RepliesInTransit.finish (transit : RepliesInTransit endpoint seen []) :
    RepliesInTransit { endpoint with stream := ⟨[], true⟩, ended := true } seen [] where
  written := transit.written
  yielded := transit.yielded
  segments := rfl
  sendable r queued := by cases queued
  ended _ := ⟨rfl, rfl⟩

end ReplySteps

theorem inTransit_lock {s : State} (inv : InTransit s) {t : Thread} {e : EndpointId}
    {request : Message} (enabled : Enabled s (.lock t e request)) :
    InTransit (next s (.lock t e request)) where
  requests := by
    obtain ⟨delivered, waiting, transit⟩ := inv.requests
    exact ⟨delivered, waiting, transit.lock t e request enabled.1⟩
  created x known := by
    simp only [next, List.map_append, List.map_cons, List.map_nil, List.mem_append,
      List.mem_singleton, State.setEndpoint_endpoint] at known ⊢
    split
    · rfl
    · next other => exact inv.created x (known.resolve_right other)
  distinct := by
    have fresh : e ∉ s.order.map Prod.fst := by
      intro used
      have made := inv.created e used
      rw [enabled.2] at made
      cases made
    simp only [next, List.map_append, List.map_cons, List.map_nil]
    exact List.nodup_append.mpr ⟨inv.distinct, by simp, by
      intro x known y new
      rw [List.mem_singleton.mp new]
      rintro rfl
      exact fresh known⟩
  replies x := by
    simp only [next, State.setEndpoint_endpoint]
    split
    · exact ⟨[], [], repliesInTransit_new request.replyKind true⟩
    · exact inv.replies x

/-- Steps that change one endpoint and nothing of the request socket. -/
theorem inTransit_setEndpoint {s : State} (inv : InTransit s) {e : EndpointId}
    {endpoint : Endpoint} (kept : endpoint.created = (s.endpoint e).created)
    {seen waiting : List (Reply × List Fd)} (transit : RepliesInTransit endpoint seen waiting) :
    InTransit (s.setEndpoint e endpoint) where
  requests := inv.requests
  created x known := by
    rw [State.setEndpoint_endpoint]
    split
    · next same =>
        rw [kept, ← same]
        exact inv.created x known
    · exact inv.created x known
  distinct := inv.distinct
  replies x := by
    rw [State.setEndpoint_endpoint]
    split
    · exact ⟨seen, waiting, transit⟩
    · exact inv.replies x

theorem inTransit_receive {s : State} (inv : InTransit s) (enabled : Enabled s .receive) :
    InTransit (next s .receive) := by
  obtain ⟨delivered, waiting, transit⟩ := inv.requests
  cases waiting with
  | nil => exact (transit.blocks enabled).elim
  | cons first waiting =>
      have unchanged : (next s .receive).order = s.order ∧
          (next s .receive).endpoint = s.endpoint := by
        simp only [next]
        split <;> exact ⟨rfl, rfl⟩
      exact
        { requests := ⟨_, _, transit.receive.2⟩
          created := by
            rw [unchanged.1, unchanged.2]
            exact inv.created
          distinct := by
            rw [unchanged.1]
            exact inv.distinct
          replies := by
            rw [unchanged.2]
            exact inv.replies }

theorem inTransit_nextReply {s : State} (inv : InTransit s) {e : EndpointId}
    (enabled : Enabled s (.nextReply e)) : InTransit (next s (.nextReply e)) := by
  obtain ⟨seen, waiting, transit⟩ := inv.replies e
  cases waiting with
  | nil =>
      have result := transit.nextReply_nil
      by_cases closed : (s.endpoint e).dropped = true
      · rw [if_pos closed] at result
        simp only [next, result]
        exact inTransit_setEndpoint inv rfl transit.finish
      · rw [if_neg closed] at result
        exact (enabled.2.2 result).elim
  | cons first waiting =>
      simp only [next, transit.nextReply]
      exact inTransit_setEndpoint inv rfl transit.read

theorem inTransit_next {s : State} {a : Action} (inv : InTransit s) (enabled : Enabled s a) :
    InTransit (next s a) := by
  cases a with
  | lock t e request => exact inTransit_lock inv enabled
  | send t =>
      obtain ⟨⟨_, e, request⟩, holds, rfl⟩ := Option.map_eq_some_iff.mp enabled
      obtain ⟨delivered, waiting, transit⟩ := inv.requests
      have sent := transit.send holds
      simp only [next, holds, sendRequestIter_eq] at sent ⊢
      exact ⟨⟨_, _, sent⟩, inv.created, inv.distinct, inv.replies⟩
  | receive => exact inTransit_receive inv enabled
  | reply e reply fds =>
      obtain ⟨⟨_, open_⟩, typed, few⟩ := enabled
      obtain ⟨seen, waiting, transit⟩ := inv.replies e
      exact inTransit_setEndpoint inv rfl (transit.reply open_ typed few)
  | dropReply e =>
      obtain ⟨seen, waiting, transit⟩ := inv.replies e
      exact inTransit_setEndpoint inv rfl transit.close
  | nextReply e => exact inTransit_nextReply inv enabled

theorem reachable_inTransit {s : State} (reached : machine.Reachable s) : InTransit s := by
  apply reached.invariant
  · rintro _ rfl
    exact inTransit_initial
  · intro state label inv enabled
    exact inTransit_next inv enabled

/-! ## The promises hold -/

theorem requestsFaithful_of_inTransit {s : State} (inv : InTransit s) : RequestsFaithful s := by
  obtain ⟨delivered, waiting, transit⟩ := inv.requests
  obtain ⟨order, received, _⟩ := id transit
  refine ⟨?_, ?_, inv.distinct⟩
  · rw [received, order, List.map_append, List.map_append, List.append_assoc]
    exact List.prefix_append _ _
  · intro free stuck
    cases waiting with
    | nil =>
        have none_ : s.held = [] := by simp [State.held, free]
        rw [received, order, none_, List.append_nil, List.append_nil]
    | cons first waiting => exact (stuck transit.receive.1).elim

theorem repliesFaithful_of_inTransit {s : State} (inv : InTransit s) (e : EndpointId) :
    RepliesFaithful s e := by
  obtain ⟨seen, waiting, transit⟩ := inv.replies e
  have all : waiting = [] →
      (s.endpoint e).yielded = (s.endpoint e).written.map fun r => Reply.fetched r.1 r.2 := by
    rintro rfl
    rw [transit.yielded, transit.written, List.append_nil]
  constructor
  · rw [transit.yielded, transit.written, List.map_append]
    exact List.prefix_append _ _
  · intro created running stuck
    cases waiting with
    | nil =>
        refine ⟨?_, all rfl⟩
        by_contra closed
        rw [Bool.not_eq_false] at closed
        refine stuck ⟨created, running, ?_⟩
        simp [transit.nextReply_nil, closed]
    | cons first waiting =>
        refine (stuck ⟨created, running, ?_⟩).elim
        simp [transit.nextReply]
  · intro created closed running whole
    have none_ : waiting = [] := by
      have lengths := congrArg List.length whole
      rw [transit.yielded, transit.written] at lengths
      simp only [List.length_map, List.length_append] at lengths
      exact List.eq_nil_of_length_eq_zero (by omega)
    subst none_
    have result := transit.nextReply_nil
    rw [if_pos closed] at result
    exact ⟨⟨created, running, by simp [result]⟩, by simp [next, result]⟩
  · intro completed
    exact ⟨(transit.ended completed).2, all (transit.ended completed).1⟩

/-- In every reachable state of the channel, requests and replies are faithful. -/
theorem channel_faithful {s : State} (reached : machine.Reachable s) :
    RequestsFaithful s ∧ ∀ e, RepliesFaithful s e := by
  have inv := reachable_inTransit reached
  exact ⟨requestsFaithful_of_inTransit inv, repliesFaithful_of_inTransit inv⟩

/-- Two threads, a `Register` with its descriptor and a `LockCommand` that is answered
twice. -/
theorem channel_faithful_two_threads :
    ∃ s, machine.Reachable s ∧ s.received.length = 2 ∧ (s.endpoint 4).yielded.length = 2 ∧
      (s.endpoint 4).ended = true ∧ RequestsFaithful s ∧ ∀ e, RepliesFaithful s e := by
  have found : ∃ s, machine.Reachable s ∧ (s.received.length = 2 ∧
      (s.endpoint 4).yielded.length = 2 ∧ (s.endpoint 4).ended = true) :=
    Transition.Machine.exists_reachable_of_exec
      [.lock 0 3 (.register (.file 7)), .send 0,
        .lock 1 4 (.lockCommand 5 .setLockBlocking ⟨.write, .start, -1, 2, 3⟩), .send 1,
        .receive, .receive, .reply 4 (.ok (.lockCommand (.pending 9))) [], .nextReply 4,
        .reply 4 (.error Errno.INTR) [], .dropReply 4, .nextReply 4, .nextReply 4]
      rfl (by decide +kernel)
  obtain ⟨s, reached, requests, replies, ended⟩ := found
  obtain ⟨faithful, eachFaithful⟩ := channel_faithful reached
  exact ⟨s, reached, requests, replies, ended, faithful, eachFaithful⟩

end Ulockmgr.Channel
