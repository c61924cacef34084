import Ulockmgr.Messages.Decoding
import Ulockmgr.Receiving

/-!
# Where the dispatched requests come from

The receiving loop on any stream at all, also one that is out of step with its frames.
Every request it dispatches stands in the stream as a frame of its own; the frames of
different requests are apart and in the order of the stream; and the descriptors of a
request are its own, so no descriptor reaches two requests.
-/

namespace Ulockmgr.Receiving

open Wire (Bytes Stream)
open Wire.Stream (contents descriptors)

/-- The requests of the first `n` turns, and the stream behind them. -/
def turns : Nat → Stream Fd → List (Message × Fd) × Stream Fd
  | 0, socket => ([], socket)
  | n + 1, socket =>
      match turn socket with
      | .waits | .panics | .returns _ => ([], socket)
      | .dispatches message reply rest =>
          let (more, last) := turns n rest
          ((message, reply) :: more, last)
      | .skips rest => turns n rest

/-- The requests lie in the bytes and descriptors one behind the other, with what is lost
between them. -/
inductive Laid : List (Message × Fd) → Bytes → List Fd → Prop
  | rest (bytes : Bytes) (fds : List Fd) : Laid [] bytes fds
  | lost {requests : List (Message × Fd)} {bytes : Bytes} {fds : List Fd} (skipped : Bytes)
      (closed : List Fd) (later : Laid requests bytes fds) :
      Laid requests (skipped ++ bytes) (closed ++ fds)
  | request {requests : List (Message × Fd)} {bytes : Bytes} {fds : List Fd}
      {request : Message × Fd} {buffer : Bytes} {rights : List Fd}
      (carries : Carries request buffer rights) (later : Laid requests bytes fds) :
      Laid (request :: requests) (frame buffer rights ++ bytes) (rights ++ fds)

theorem turn_dispatches {socket rest : Stream Fd} {message : Message} {reply : Fd}
    (dispatches : turn socket = .dispatches message reply rest) :
    ∃ buffer rights, Carries (message, reply) buffer rights ∧
      contents socket.segments = frame buffer rights ++ contents rest.segments ∧
      descriptors socket.segments = rights ++ descriptors rest.segments := by
  cases received : receiveRawMessage socket false with
  | blocks => simp [turn, receiveRequest, received, Received.map] at dispatches
  | panics => simp [turn, receiveRequest, received, Received.map] at dispatches
  | returns result left =>
      cases result with
      | error error =>
          rw [turn_of_error received] at dispatches
          (repeat' split at dispatches) <;> cases dispatches
      | ok content =>
          obtain ⟨buffer, rights⟩ := content
          rw [turn_of_frame received] at dispatches
          cases parsed : parseRequest buffer rights with
          | error error =>
              rw [parsed] at dispatches
              cases dispatches
          | ok request =>
              rw [parsed] at dispatches
              cases dispatches
              exact ⟨buffer, rights, parseRequest_ok.mp parsed, receiveRawMessage_ok received⟩

theorem turn_skips {socket rest : Stream Fd} (skips : turn socket = .skips rest) :
    Shortens socket rest := by
  cases received : receiveRawMessage socket false with
  | blocks => simp [turn, receiveRequest, received, Received.map] at skips
  | panics => simp [turn, receiveRequest, received, Received.map] at skips
  | returns result left =>
      have shorter := shortens_receiveRawMessage received
      cases result with
      | error error =>
          rw [turn_of_error received] at skips
          (repeat' split at skips) <;> cases skips
          exact shorter
      | ok content =>
          rw [turn_of_frame received] at skips
          split at skips <;> cases skips
          exact shorter

theorem laid_turns (n : Nat) (socket : Stream Fd) :
    Laid (turns n socket).1 (contents socket.segments) (descriptors socket.segments) := by
  induction n generalizing socket with
  | zero => exact .rest _ _
  | succ n ih =>
      unfold turns
      cases now : turn socket with
      | waits => exact .rest _ _
      | panics => exact .rest _ _
      | returns result => exact .rest _ _
      | skips rest =>
          obtain ⟨lost, closed, bytes, fds⟩ := turn_skips now
          rw [bytes, fds]
          exact .lost lost closed (ih rest)
      | dispatches message reply rest =>
          obtain ⟨buffer, rights, carries, bytes, fds⟩ := turn_dispatches now
          rw [bytes, fds]
          exact .request carries (ih rest)

/-- The descriptors a handler is given: the reply socket and those of the message. -/
def handed (request : Message × Fd) : List Fd := request.2 :: request.1.serialize.2

theorem Laid.handed {requests : List (Message × Fd)} {bytes : Bytes} {fds : List Fd}
    (laid : Laid requests bytes fds) : (requests.flatMap handed).Sublist fds := by
  induction laid with
  | rest bytes fds => exact List.nil_sublist _
  | lost skipped closed later ih => exact ih.trans (List.sublist_append_right _ _)
  | request carries later ih =>
      obtain ⟨spare, rights, -⟩ := carries.fds
      rw [List.flatMap_cons, rights]
      refine List.Sublist.append ?_ ih
      exact List.sublist_append_left (_ :: _) spare

/-- The state of the handlers when the loop is left. -/
def Left.state {σ : Type} : Left σ → σ
  | .waits state | .panics state | .returns _ state => state

theorem loop_turns {σ : Type} (handle : σ → Message × Fd → σ) (fuel : Nat) (socket : Stream Fd)
    (state : σ) {left : Left σ} (ends : loop handle fuel socket state = some left) :
    left.state = (turns fuel socket).1.foldl handle state := by
  induction fuel generalizing socket state with
  | zero => cases ends
  | succ fuel ih =>
      unfold loop at ends
      unfold turns
      cases now : turn socket with
      | waits | panics | returns =>
          rw [now] at ends
          cases ends
          rfl
      | skips rest =>
          rw [now] at ends
          exact ih rest state ends
      | dispatches message reply rest =>
          rw [now] at ends
          exact ih rest _ ends

/-- On every stream and for every number of turns the requests dispatched so far are frames of the
stream, apart from each other and in its order, the descriptors handed out with them are taken
from the stream one after the other, and the handlers have seen these requests and no others. -/
theorem requests_read_off_stream (n : Nat) (socket : Stream Fd) :
    Laid (turns n socket).1 (contents socket.segments) (descriptors socket.segments) ∧
      ((turns n socket).1.flatMap handed).Sublist (descriptors socket.segments) ∧
      ∀ (σ : Type) (handle : σ → Message × Fd → σ) (state : σ) (left : Left σ),
        loop handle n socket state = some left →
          left.state = (turns n socket).1.foldl handle state :=
  ⟨laid_turns n socket, (laid_turns n socket).handed,
    fun _ handle state _ ends => loop_turns handle n socket state ends⟩

end Ulockmgr.Receiving
