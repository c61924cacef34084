import Ulockmgr.Messages.Framing

/-!
# The receiving loop of an owner

`owner_receiving_loop` on the bytes of its socket.  What the handlers do is a parameter: a
request is dispatched with its reply endpoint, and the loop goes on.  A frame that cannot be
read as a request is logged and skipped, with whatever descriptors came with it; the loop
ends at the end of the stream and on every other error.
-/

namespace Ulockmgr.Receiving

open Wire (Bytes Stream Segment)

/-- One turn of the loop. -/
inductive Turn where
  | waits
  | panics
  | dispatches (message : Message) (reply : Fd) (rest : Stream Fd)
  | skips (rest : Stream Fd)
  | returns (result : Except IoError Unit)

/-- "Data from client is invalid. However, it is still recoverable." -/
def Recoverable (error : IoError) : Prop :=
  error.kind = .unexpectedEof ∨ error.kind = .invalidInput ∨ error.kind = .invalidData

instance (error : IoError) : Decidable (Recoverable error) :=
  inferInstanceAs (Decidable (_ ∨ _ ∨ _))

def turn (socket : Stream Fd) : Turn :=
  match receiveRequest socket with
  | .blocks => .waits
  | .panics => .panics
  | .returns (.ok (message, reply)) rest => .dispatches message reply rest
  | .returns (.error error) rest =>
      if error.kind = .brokenPipe then .returns (.ok ())
      else if Recoverable error then .skips rest
      else .returns (.error error)

/-- How the loop is left, and the state of the handlers then. -/
inductive Left (σ : Type) where
  | waits (state : σ)
  | panics (state : σ)
  | returns (result : Except IoError Unit) (state : σ)
  deriving DecidableEq

/-- How the loop is left at the end of a stream that has nothing left. -/
def atEnd {σ : Type} (closed : Bool) (state : σ) : Left σ :=
  if closed = true then .returns (.ok ()) state else .waits state

section
variable {σ : Type} (handle : σ → Message × Fd → σ)

/-- The loop, for at most `fuel` turns. -/
def loop : Nat → Stream Fd → σ → Option (Left σ)
  | 0, _, _ => none
  | fuel + 1, socket, state =>
      match turn socket with
      | .waits => some (.waits state)
      | .panics => some (.panics state)
      | .dispatches message reply rest => loop fuel rest (handle state (message, reply))
      | .skips rest => loop fuel rest state
      | .returns result => some (.returns result state)

variable {handle}

theorem loop_skips {socket rest : Stream Fd} (skips : turn socket = .skips rest) (fuel : Nat)
    (state : σ) : loop handle (fuel + 1) socket state = loop handle fuel rest state := by
  rw [loop, skips]

theorem loop_dispatches {socket rest : Stream Fd} {message : Message} {reply : Fd}
    (dispatches : turn socket = .dispatches message reply rest) (fuel : Nat) (state : σ) :
    loop handle (fuel + 1) socket state = loop handle fuel rest (handle state (message, reply)) := by
  rw [loop, dispatches]

end

/-- A request that is not accepted is one of the recoverable errors. -/
theorem parseRequest_recoverable {buffer : Bytes} {fds : List Fd} {error : IoError}
    (fails : parseRequest buffer fds = .error error) :
    Recoverable error ∧ error.kind ≠ .brokenPipe := by
  unfold parseRequest at fails
  split at fails
  · cases fails
    exact ⟨by decide, by decide⟩
  · split at fails
    · cases fails
      exact ⟨by decide, by decide⟩
    · next payload _ =>
        cases payload with
        | register =>
            unfold Message.deserialize at fails
            simp only at fails
            split at fails
            · cases fails
            · cases fails
              exact ⟨by decide, by decide⟩
        | _ => cases fails

/-- What becomes of a frame that was read. -/
theorem turn_of_frame {socket rest : Stream Fd} {buffer : Bytes} {fds : List Fd}
    (read : receiveRawMessage socket false = .returns (.ok (buffer, fds)) rest) :
    turn socket =
      match parseRequest buffer fds with
      | .ok (message, reply) => .dispatches message reply rest
      | .error _ => .skips rest := by
  unfold turn receiveRequest
  rw [read]
  cases parsed : parseRequest buffer fds with
  | ok request => simp [Received.map, Except.bind, parsed]
  | error error =>
      obtain ⟨recoverable, other⟩ := parseRequest_recoverable parsed
      simp [Received.map, Except.bind, parsed, recoverable, other]

theorem turn_of_error {socket rest : Stream Fd} {error : IoError}
    (read : receiveRawMessage socket false = .returns (.error error) rest) :
    turn socket =
      if error.kind = .brokenPipe then .returns (.ok ())
      else if Recoverable error then .skips rest
      else .returns (.error error) := by
  unfold turn receiveRequest
  rw [read]
  rfl

end Ulockmgr.Receiving
