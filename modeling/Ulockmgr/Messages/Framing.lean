import Ulockmgr.Messages

/-!
# Frames are read back

A frame that one `sendmsg` put at the front of a stream is read back whole by
`receive_raw_message`, with its own descriptors, and the stream behind it is left as
it was.  Requests and replies are instances.
-/

namespace Ulockmgr

open Wire (Codec Bytes Stream Segment)

theorem length_header (payload : Bytes) (fds : List Fd) :
    (header payload fds).length = headerLength := by
  simp [header, headerLength]

theorem length_frame (payload : Bytes) (fds : List Fd) :
    (frame payload fds).length = headerLength + payload.length := by
  rw [frame, List.length_append, length_header]

theorem frame_ne_nil (payload : Bytes) (fds : List Fd) : frame payload fds ≠ [] := by
  apply List.ne_nil_of_length_pos
  rw [length_frame, headerLength]
  omega

theorem fromLittleEndian_u64 {n : Nat} (bounded : n < 2 ^ 64) :
    Wire.fromLittleEndian (Codec.u64.encode (UInt64.ofNat n)) = n := by
  have small : (UInt64.ofNat n).toNat = n := by
    rw [UInt64.toNat_ofNat']
    exact Nat.mod_eq_of_lt bounded
  change Wire.fromLittleEndian (Wire.littleEndian 8 (UInt64.ofNat n).toNat) = n
  rw [small]
  exact Wire.fromLittleEndian_littleEndian bounded

/-- The two numbers of a header. -/
theorem header_numbers {payload : Bytes} {fds : List Fd} (small : payload.length < 2 ^ 64)
    (few : fds.length < 2 ^ 64) :
    Wire.fromLittleEndian ((header payload fds).take 8) = payload.length ∧
      Wire.fromLittleEndian ((header payload fds).drop 8) = fds.length := by
  have front : (header payload fds).take 8 = Codec.u64.encode (UInt64.ofNat payload.length) :=
    List.take_left' (Codec.length_u64 _)
  have behind : (header payload fds).drop 8 = Codec.u64.encode (UInt64.ofNat fds.length) :=
    List.drop_left' (Codec.length_u64 _)
  rw [front, behind]
  exact ⟨fromLittleEndian_u64 small, fromLittleEndian_u64 few⟩

theorem peekmsg_frame (payload : Bytes) (fds : List Fd) (rest : List (Segment Fd))
    (closed signal : Bool) :
    Stream.peekmsg ⟨⟨frame payload fds, fds⟩ :: rest, closed⟩ headerLength signal =
      .delivers (header payload fds) fds ⟨⟨frame payload fds, fds⟩ :: rest, closed⟩ := by
  have enough : headerLength ≤ (frame payload fds).length := by
    rw [length_frame]
    exact Nat.le_add_right _ _
  rw [Stream.peekmsg_front fds rest closed signal (by decide) enough]
  rw [frame, List.take_left' (length_header payload fds)]

theorem receiveBody_frame {payload : Bytes} {fds : List Fd}
    (fit : SizesFit payload.length fds.length) (rest : List (Segment Fd)) (closed signal : Bool) :
    receiveBody ⟨⟨frame payload fds, fds⟩ :: rest, closed⟩ payload.length fds.length signal =
      .returns (.ok (payload, fds)) ⟨rest, closed⟩ := by
  have whole := Stream.recvmsg_segment fds rest closed signal (frame_ne_nil payload fds)
  rw [length_frame] at whole
  have body : (frame payload fds).drop headerLength = payload :=
    List.drop_left' (length_header payload fds)
  have all : fds.take (ancillaryCapacity fds.length) = fds :=
    List.take_of_length_le (le_ancillaryCapacity fds.length)
  unfold receiveBody
  rw [if_neg (not_not.mpr fit), whole]
  cases content : frame payload fds with
  | nil => exact (frame_ne_nil payload fds content).elim
  | cons byte more =>
      have length := length_frame payload fds
      rw [content] at body length
      simp only [length, ne_eq, not_true, if_false, all, body]

theorem receiveRawMessage_frame {payload : Bytes} {fds : List Fd}
    (fit : SizesFit payload.length fds.length) (rest : List (Segment Fd)) (closed signal : Bool) :
    receiveRawMessage ⟨⟨frame payload fds, fds⟩ :: rest, closed⟩ signal =
      .returns (.ok (payload, fds)) ⟨rest, closed⟩ := by
  have small : payload.length < 2 ^ 64 := lt_trans fit.1 (by decide)
  have few : fds.length < 2 ^ 64 := by
    have bound := fit.2.1
    omega
  have numbers := header_numbers small few
  unfold receiveRawMessage
  simp only [peekmsg_frame]
  cases content : header payload fds with
  | nil =>
      have length := length_header payload fds
      rw [content] at length
      cases length
  | cons byte more =>
      have length := length_header payload fds
      rw [content] at length numbers
      simp only [length, ne_eq, not_true, if_false, numbers.1, numbers.2]
      exact receiveBody_frame fit rest closed signal

/-- A stream without a frame: its reader waits, and at the end it is told so. -/
theorem receiveRawMessage_empty (closed signal : Bool) :
    receiveRawMessage ⟨[], closed⟩ signal =
      if closed = true then .returns (.error connectionTerminated) ⟨[], true⟩
      else if signal = true then .returns (.error (.os Errno.INTR)) ⟨[], false⟩
      else .blocks := by
  cases closed with
  | true => simp [receiveRawMessage, Stream.peekmsg_eof]
  | false =>
      cases signal <;> simp [receiveRawMessage, Stream.peekmsg_empty _ (show 0 < headerLength by decide)]

/-- A read does not close the stream. -/
theorem receiveBody_closed {socket rest : Stream Fd} {bytes count : Nat} {signal : Bool}
    {result : Except IoError (Bytes × List Fd)}
    (read : receiveBody socket bytes count signal = .returns result rest) :
    rest.closed = socket.closed := by
  unfold receiveBody at read
  split at read
  · cases read
  · simp only at read
    split at read
    · cases read
    · cases read
      rfl
    · next delivered =>
        cases read
        split at delivered
        · next first => exact (Stream.recvmsg_closed delivered).trans (Stream.recvmsg_closed first)
        · exact Stream.recvmsg_closed delivered
    · next left _ delivered =>
        have same : left.closed = socket.closed := by
          split at delivered
          · next first =>
              exact (Stream.recvmsg_closed delivered).trans (Stream.recvmsg_closed first)
          · exact Stream.recvmsg_closed delivered
        (repeat' split at read) <;> cases read <;> exact same

theorem receiveRawMessage_closed {socket rest : Stream Fd} {signal : Bool}
    {result : Except IoError (Bytes × List Fd)}
    (read : receiveRawMessage socket signal = .returns result rest) :
    rest.closed = socket.closed := by
  unfold receiveRawMessage at read
  simp only at read
  split at read
  · cases read
  · cases read
    rfl
  · cases read
    rfl
  · split at read
    · cases read
      rfl
    · exact receiveBody_closed read

theorem nextReply_closed {kind : ReplyKind} {oneshot rest : Stream Fd} {signal : Bool}
    {item : Option Fetched} (read : nextReply kind oneshot signal = .returns item rest) :
    rest.closed = oneshot.closed := by
  unfold nextReply at read
  cases received : receiveRawMessage oneshot signal with
  | blocks =>
      rw [received] at read
      cases read
  | panics =>
      rw [received] at read
      cases read
  | returns result left =>
      rw [received] at read
      cases read
      exact receiveRawMessage_closed received

/-! ## Requests -/

/-- The frame of a request whose replies go to `endpoint`. -/
def requestSegment (endpoint : Nat) (request : Message) : Segment Fd :=
  let fds := Fd.endpoint endpoint :: request.serialize.2
  ⟨frame (RawMessage.codec.encode request.serialize.1) fds, fds⟩

theorem sendRequestIter_eq (socket : Stream Fd) (request : Message) (endpoint : Nat) :
    sendRequestIter socket request endpoint =
      .ok { socket with segments := socket.segments ++ [requestSegment endpoint request] } := by
  have few := request.length_serialize
  have fits : ¬ scmMaxFd < (Fd.endpoint endpoint :: request.serialize.2).length := by
    simp only [scmMaxFd, List.length_cons]
    omega
  simp only [sendRequestIter, sendRawMessage, if_neg fits]
  rfl

theorem parseRequest_serialize (endpoint : Nat) (request : Message) :
    parseRequest (RawMessage.codec.encode request.serialize.1)
      (Fd.endpoint endpoint :: request.serialize.2) = .ok (request, .endpoint endpoint) := by
  simp [parseRequest, Message.deserialize_serialize, Except.map]

theorem receiveRequest_segment (endpoint : Nat) (request : Message) (rest : List (Segment Fd))
    (closed : Bool) :
    receiveRequest ⟨requestSegment endpoint request :: rest, closed⟩ =
      .returns (.ok (request, .endpoint endpoint)) ⟨rest, closed⟩ := by
  have payload := RawMessage.length_codec request.serialize.1
  have few := request.length_serialize
  have fit : SizesFit (RawMessage.codec.encode request.serialize.1).length
      (Fd.endpoint endpoint :: request.serialize.2).length := by
    rw [List.length_cons]
    refine ⟨?_, ?_, ?_⟩ <;> omega
  rw [receiveRequest, requestSegment, receiveRawMessage_frame fit]
  simp only [Received.map, Except.bind, parseRequest_serialize]

/-! ## Replies -/

def replySegment (reply : Reply × List Fd) : Segment Fd :=
  ⟨frame (Reply.serialize reply.1) reply.2, reply.2⟩

theorem replyWithFds_eq (endpoint : Stream Fd) {reply : Reply} {fds : List Fd}
    (few : fds.length ≤ scmMaxFd) :
    replyWithFds endpoint reply fds =
      { endpoint with segments := endpoint.segments ++ [replySegment (reply, fds)] } := by
  have fits : ¬ scmMaxFd < fds.length := not_lt.mpr few
  simp only [replyWithFds, sendRawMessage, if_neg fits]
  rfl

theorem fetchReply_serialize {kind : ReplyKind} {reply : Reply} (typed : Reply.HasKind kind reply)
    (fds : List Fd) :
    fetchReply kind (.ok (Reply.serialize reply, fds)) = some (Reply.fetched reply fds) := by
  simp only [fetchReply, Reply.deserialize_serialize typed]
  cases reply <;> rfl

theorem nextReply_segment {kind : ReplyKind} {reply : Reply} {fds : List Fd}
    (typed : Reply.HasKind kind reply) (few : fds.length ≤ scmMaxFd) (rest : List (Segment Fd))
    (closed signal : Bool) :
    nextReply kind ⟨replySegment (reply, fds) :: rest, closed⟩ signal =
      .returns (some (Reply.fetched reply fds)) ⟨rest, closed⟩ := by
  have payload := Reply.length_serialize reply
  have fit : SizesFit (Reply.serialize reply).length fds.length := by
    unfold scmMaxFd at few
    refine ⟨?_, ?_, ?_⟩ <;> omega
  rw [nextReply, replySegment, receiveRawMessage_frame fit]
  simp only [Received.map, fetchReply_serialize typed]

theorem nextReply_empty (kind : ReplyKind) (closed signal : Bool) :
    nextReply kind ⟨[], closed⟩ signal =
      if closed = true then .returns none ⟨[], true⟩
      else if signal = true then .returns (some (.error (.os Errno.INTR))) ⟨[], false⟩
      else .blocks := by
  rw [nextReply, receiveRawMessage_empty]
  cases closed <;> cases signal <;> rfl

end Ulockmgr
