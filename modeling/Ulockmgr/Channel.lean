import Ulockmgr.Library.Machine
import Ulockmgr.Messages.Framing

/-!
# The request channel of an owner

Any number of client threads send requests over one socket behind a mutex, and
read the replies from a socket pair of their own; the owner reads requests one by
one and writes replies to the endpoint that came with each.  Sockets hold bytes:
all steps go through the framing and the codecs.
-/

namespace Ulockmgr.Channel

open Wire (Stream Segment)

abbrev Thread := Nat
abbrev EndpointId := Nat

/-- The reply socket of one request, with what was written to it and what its
`ReplyIterator` returned. -/
structure Endpoint where
  created : Bool
  kind : ReplyKind
  stream : Stream Fd
  written : List (Reply × List Fd)
  yielded : List Fetched
  /-- The iterator has returned `None`. -/
  ended : Bool
  deriving DecidableEq

def Endpoint.absent : Endpoint := ⟨false, .unit, Stream.empty, [], [], false⟩

/-- The owner has dropped its end. -/
abbrev Endpoint.dropped (endpoint : Endpoint) : Bool := endpoint.stream.closed

structure State where
  socket : Stream Fd
  /-- The thread that holds the mutex of the socket, with its request. -/
  holder : Option (Thread × EndpointId × Message)
  /-- The requests in the order in which their senders took the mutex. -/
  order : List (EndpointId × Message)
  /-- What `receive_request` returned, call by call. -/
  received : List (Except IoError (Message × Fd))
  endpoint : EndpointId → Endpoint

def initial : State := ⟨Stream.empty, none, [], [], fun _ => Endpoint.absent⟩

def State.setEndpoint (s : State) (e : EndpointId) (endpoint : Endpoint) : State :=
  { s with endpoint := Function.update s.endpoint e endpoint }

section
variable (s : State) (e : EndpointId) (endpoint : Endpoint)

@[simp] theorem State.setEndpoint_endpoint (x : EndpointId) :
    (s.setEndpoint e endpoint).endpoint x = if x = e then endpoint else s.endpoint x := by
  simp [State.setEndpoint, Function.update_apply]

@[simp] theorem State.setEndpoint_socket : (s.setEndpoint e endpoint).socket = s.socket := rfl
@[simp] theorem State.setEndpoint_holder : (s.setEndpoint e endpoint).holder = s.holder := rfl
@[simp] theorem State.setEndpoint_order : (s.setEndpoint e endpoint).order = s.order := rfl
@[simp] theorem State.setEndpoint_received : (s.setEndpoint e endpoint).received = s.received := rfl

end

/-! ## Steps -/

inductive Action where
  /-- `communication.lock()` of a request. -/
  | lock (t : Thread) (e : EndpointId) (request : Message)
  /-- The send, and the release of the mutex. -/
  | send (t : Thread)
  | receive
  | reply (e : EndpointId) (reply : Reply) (fds : List Fd)
  | dropReply (e : EndpointId)
  | nextReply (e : EndpointId)

/-- The owner has received `e` and still holds its reply object. -/
def State.Held (s : State) (e : EndpointId) : Prop :=
  some (Fd.endpoint e) ∈ s.received.map (fun result => result.toOption.map Prod.snd) ∧
    (s.endpoint e).dropped = false

def Enabled (s : State) : Action → Prop
  | .lock _ e _ => s.holder = none ∧ (s.endpoint e).created = false
  | .send t => s.holder.map Prod.fst = some t
  | .receive => receiveRequest s.socket ≠ .blocks
  -- the type of the reply object fixes the kind; the kernel bounds the descriptors
  | .reply e reply fds => s.Held e ∧ Reply.HasKind (s.endpoint e).kind reply ∧
      fds.length ≤ scmMaxFd
  | .dropReply e => s.Held e
  | .nextReply e => (s.endpoint e).created = true ∧ (s.endpoint e).ended = false ∧
      Ulockmgr.nextReply (s.endpoint e).kind (s.endpoint e).stream false ≠ .blocks

instance (s : State) (a : Action) : Decidable (Enabled s a) := by
  cases a <;> unfold Enabled <;> (try unfold State.Held) <;> infer_instance

def next (s : State) : Action → State
  | .lock t e request =>
      { s.setEndpoint e { Endpoint.absent with created := true, kind := request.replyKind } with
        holder := some (t, e, request), order := s.order ++ [(e, request)] }
  | .send _ =>
      match s.holder with
      | some (_, e, request) =>
          match sendRequestIter s.socket request e with
          | .ok socket => { s with socket := socket, holder := none }
          | .error _ => { s with holder := none }
      | none => s
  | .receive =>
      match receiveRequest s.socket with
      | .returns result rest => { s with socket := rest, received := s.received ++ [result] }
      | _ => s
  | .reply e reply fds =>
      let endpoint := s.endpoint e
      s.setEndpoint e
        { endpoint with
          stream := replyWithFds endpoint.stream reply fds
          written := endpoint.written ++ [(reply, fds)] }
  | .dropReply e => s.setEndpoint e { s.endpoint e with stream := (s.endpoint e).stream.close }
  | .nextReply e =>
      let endpoint := s.endpoint e
      match Ulockmgr.nextReply endpoint.kind endpoint.stream false with
      | .returns (some item) rest =>
          s.setEndpoint e { endpoint with stream := rest, yielded := endpoint.yielded ++ [item] }
      | .returns none rest => s.setEndpoint e { endpoint with stream := rest, ended := true }
      | _ => s

-- every proof below unfolds the two: their equations are generated here, once
section
attribute [local simp] Enabled next
end

def machine : Transition.Machine State Action where
  Initial s := s = initial
  Enabled := Enabled
  next := next

instance (s : State) (a : Action) : Decidable (machine.Enabled s a) :=
  inferInstanceAs (Decidable (Enabled s a))

end Ulockmgr.Channel
