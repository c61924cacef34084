import Ulockmgr.Receiving

/-!
# Invalid frames are skipped

A frame whose header states the length of its payload is read whole, whatever is in it and
whatever descriptors are attached to it.  So the loop dispatches the requests among
the frames, each from its own bytes and descriptors, and nothing else.
-/

namespace Ulockmgr.Receiving

open Wire (Bytes Codec Stream Segment)

/-- A frame with the right payload length; its payload, its declared number of descriptors and
the descriptors attached to it are arbitrary. -/
structure Frame where
  payload : Bytes
  count : UInt64
  fds : List Fd

namespace Frame

def header (frame : Frame) : Bytes :=
  Codec.u64.encode (UInt64.ofNat frame.payload.length) ++ Codec.u64.encode frame.count

def segment (frame : Frame) : Segment Fd := ⟨frame.header ++ frame.payload, frame.fds⟩

/-- The buffers for the frame can be allocated. -/
def Allocatable (frame : Frame) : Prop := SizesFit frame.payload.length frame.count.toNat

instance (frame : Frame) : Decidable frame.Allocatable := inferInstanceAs (Decidable (SizesFit _ _))

/-- What the kernel delivers of the attached descriptors. -/
def delivered (frame : Frame) : List Fd := frame.fds.take (ancillaryCapacity frame.count.toNat)

/-- The result of `receive_raw_message`. -/
def received (frame : Frame) : Except IoError (Bytes × List Fd) :=
  if frame.delivered.length ≠ frame.count.toNat then
    .error (.custom .unexpectedEof "not enough files sent")
  else .ok (frame.payload, frame.delivered)

/-- The request in a frame, if `receive_request` accepts it when it is given alone. -/
def accepted (frame : Frame) : Option (Message × Fd) :=
  match receiveRequest ⟨[frame.segment], true⟩ with
  | .returns (.ok request) _ => some request
  | _ => none

theorem length_header (frame : Frame) : frame.header.length = headerLength := by
  simp [header, headerLength]

theorem length_segment (frame : Frame) :
    frame.segment.bytes.length = headerLength + frame.payload.length := by
  rw [segment, List.length_append, length_header]

theorem segment_ne_nil (frame : Frame) : frame.segment.bytes ≠ [] := by
  apply List.ne_nil_of_length_pos
  rw [length_segment, headerLength]
  omega

theorem header_numbers {frame : Frame} (small : frame.payload.length < 2 ^ 64) :
    Wire.fromLittleEndian (frame.header.take 8) = frame.payload.length ∧
      Wire.fromLittleEndian (frame.header.drop 8) = frame.count.toNat := by
  have front : frame.header.take 8 = Codec.u64.encode (UInt64.ofNat frame.payload.length) :=
    List.take_left' (Codec.length_u64 _)
  have behind : frame.header.drop 8 = Codec.u64.encode frame.count :=
    List.drop_left' (Codec.length_u64 _)
  rw [front, behind]
  have count := fromLittleEndian_u64 frame.count.toNat_lt
  rw [UInt64.ofNat_toNat] at count
  exact ⟨fromLittleEndian_u64 small, count⟩

section
variable (frame : Frame) (fit : frame.Allocatable) (rest : List (Segment Fd)) (closed : Bool)
include fit

theorem receiveBody_segment :
    receiveBody ⟨frame.segment :: rest, closed⟩ frame.payload.length frame.count.toNat false =
      .returns frame.received ⟨rest, closed⟩ := by
  have whole := Stream.recvmsg_segment frame.fds rest closed false frame.segment_ne_nil
  rw [length_segment] at whole
  have body : frame.segment.bytes.drop headerLength = frame.payload :=
    List.drop_left' frame.length_header
  have segment : frame.segment = ⟨frame.segment.bytes, frame.fds⟩ := rfl
  have sizes : SizesFit frame.payload.length frame.count.toNat := fit
  unfold receiveBody
  rw [if_neg (not_not.mpr sizes), segment, whole]
  cases content : frame.segment.bytes with
  | nil => exact (frame.segment_ne_nil content).elim
  | cons byte more =>
      have length := frame.length_segment
      rw [content] at body length
      simp only [length, ne_eq, not_true, if_false, body]
      unfold received delivered
      split <;> rfl

/-- The frame at the front is read, and the stream behind it is left as it was. -/
theorem receiveRawMessage_segment :
    receiveRawMessage ⟨frame.segment :: rest, closed⟩ false =
      .returns frame.received ⟨rest, closed⟩ := by
  have small : frame.payload.length < 2 ^ 64 := lt_trans fit.1 (by decide)
  have numbers := header_numbers small
  have enough : headerLength ≤ frame.segment.bytes.length := by
    rw [length_segment]
    exact Nat.le_add_right _ _
  have peeks : Stream.peekmsg ⟨frame.segment :: rest, closed⟩ headerLength false =
      .delivers frame.header frame.fds ⟨frame.segment :: rest, closed⟩ := by
    have front := Stream.peekmsg_front frame.fds rest closed false (by decide) enough
    rwa [show frame.segment.bytes.take headerLength = frame.header from
      List.take_left' frame.length_header] at front
  unfold receiveRawMessage
  simp only [peeks]
  cases content : frame.header with
  | nil =>
      have length := frame.length_header
      rw [content] at length
      cases length
  | cons byte more =>
      have length := frame.length_header
      rw [content] at length numbers
      simp only [length, ne_eq, not_true, if_false, numbers.1, numbers.2]
      exact frame.receiveBody_segment fit rest closed

/-- A frame is dispatched if it is accepted alone, and skipped otherwise. -/
theorem turn_segment :
    turn ⟨frame.segment :: rest, closed⟩ =
      match frame.accepted with
      | some (message, reply) => .dispatches message reply ⟨rest, closed⟩
      | none => .skips ⟨rest, closed⟩ := by
  have alone := frame.receiveRawMessage_segment fit [] true
  have read := frame.receiveRawMessage_segment fit rest closed
  cases received : frame.received with
  | error error =>
      rw [received] at alone read
      have nothing : frame.accepted = none := by
        simp [accepted, receiveRequest, alone, Received.map, Except.bind]
      have short : error = .custom .unexpectedEof "not enough files sent" := by
        unfold Frame.received at received
        split at received
        · cases received
          rfl
        · cases received
      rw [turn_of_error read, nothing, short]
      rfl
  | ok content =>
      obtain ⟨buffer, fds⟩ := content
      rw [received] at alone read
      rw [turn_of_frame read]
      cases parsed : parseRequest buffer fds with
      | error error =>
          have nothing : frame.accepted = none := by
            simp [accepted, receiveRequest, alone, Received.map, Except.bind, parsed]
          rw [nothing]
      | ok request =>
          have something : frame.accepted = some request := by
            simp [accepted, receiveRequest, alone, Received.map, Except.bind, parsed]
          rw [something]

end

end Frame

theorem turn_nil (closed : Bool) :
    turn ⟨[], closed⟩ = if closed = true then .returns (.ok ()) else .waits := by
  cases closed with
  | true =>
      rw [turn_of_error (receiveRawMessage_empty true false)]
      rfl
  | false => rfl

/-- The loop serves the accepted frames and ends with the stream. -/
theorem loop_frames {σ : Type} (handle : σ → Message × Fd → σ) (closed : Bool)
    (frames : List Frame) (fit : ∀ frame ∈ frames, frame.Allocatable) (state : σ) :
    loop handle (frames.length + 1) ⟨frames.map Frame.segment, closed⟩ state =
      some (atEnd closed ((frames.filterMap Frame.accepted).foldl handle state)) := by
  induction frames generalizing state with
  | nil =>
      have ends := turn_nil closed
      cases closed <;> simp [loop, ends, atEnd]
  | cons frame rest ih =>
      have later := ih fun other member => fit other (List.mem_cons_of_mem _ member)
      have first := frame.turn_segment (fit frame List.mem_cons_self) (rest.map Frame.segment) closed
      cases accepted : frame.accepted with
      | none =>
          rw [accepted] at first
          rw [List.map_cons, List.length_cons, loop_skips first, later,
            List.filterMap_cons_none accepted]
      | some request =>
          rw [accepted] at first
          rw [List.map_cons, List.length_cons, loop_dispatches first, later,
            List.filterMap_cons_some accepted, List.foldl_cons]

/-- Frames that are not accepted are skipped without a trace: on every sequence of frames the
handlers, whatever their state is, end as they do on the accepted ones alone, which are
dispatched as they are when each is given alone, and the loop goes on to the end. -/
theorem invalid_frames_skipped {σ : Type} (handle : σ → Message × Fd → σ) (closed : Bool)
    (frames : List Frame) (fit : ∀ frame ∈ frames, frame.Allocatable) (state : σ) :
    loop handle (frames.length + 1) ⟨frames.map Frame.segment, closed⟩ state =
        some (atEnd closed ((frames.filterMap Frame.accepted).foldl handle state)) ∧
      ∃ fuel, loop handle fuel
          ⟨(frames.filter fun frame => frame.accepted.isSome).map Frame.segment, closed⟩ state =
        loop handle (frames.length + 1) ⟨frames.map Frame.segment, closed⟩ state := by
  have all := loop_frames handle closed frames fit state
  refine ⟨all, (frames.filter fun frame => frame.accepted.isSome).length + 1, ?_⟩
  rw [all, loop_frames handle closed _ (fun frame member => fit frame (List.mem_of_mem_filter member))]
  have same : (frames.filter fun frame => frame.accepted.isSome).filterMap Frame.accepted =
      frames.filterMap Frame.accepted := by
    rw [List.filterMap_filter]
    refine List.filterMap_congr fun frame _ => ?_
    cases accepted : frame.accepted <;> simp
  rw [same]

/-- Three bytes that are no request, sent without a descriptor. -/
def garbage : Frame := ⟨[1, 2, 3], 5, []⟩

/-- A register request without its file. -/
def fileless : Frame := ⟨RawMessage.codec.encode .register, 1, [.endpoint 0]⟩

def pinging : Frame := ⟨RawMessage.codec.encode .ping, 1, [.endpoint 1]⟩

theorem ping_behind_invalid :
    loop (fun requests request => requests ++ [request]) 4
        ⟨[garbage, fileless, pinging].map Frame.segment, true⟩ [] =
      some (.returns (.ok ()) [(.ping, .endpoint 1)]) := by
  have run := invalid_frames_skipped (fun requests request => requests ++ [request]) true
    [garbage, fileless, pinging] (by decide) []
  exact run.1.trans (by decide +kernel)

end Ulockmgr.Receiving
