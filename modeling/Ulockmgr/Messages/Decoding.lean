import Ulockmgr.Messages.Framing

/-!
# What is accepted is well formed

The converse of the round trips.  `receive_raw_message` hands out a payload and
descriptors only if the stream starts with their frame, wherever the borders of the
writes are, and leaves the stream behind it.  The derived decoders accept nothing but
the bytes of the value they return, with anything behind them, so an accepted request
or reply can be read off the stream in one way only.
-/

namespace Ulockmgr

open Wire (Codec Bytes Stream Segment)
open Wire.Stream (contents descriptors takeBytes)

/-! ## Frames -/

theorem lt_ancillaryCapacity (count : Nat) : count < ancillaryCapacity count := by
  unfold ancillaryCapacity cmsgSpace
  omega

/-- A number that was read is the number that stands there. -/
theorem encode_fromLittleEndian {bytes : Bytes} (length : bytes.length = 8) :
    Codec.u64.encode (UInt64.ofNat (Wire.fromLittleEndian bytes)) = bytes := by
  have small := Wire.fromLittleEndian_lt bytes
  rw [length] at small
  change Wire.littleEndian 8 (UInt64.ofNat (Wire.fromLittleEndian bytes)).toNat = bytes
  rw [UInt64.toNat_ofNat_of_lt' small, ← length]
  exact Wire.littleEndian_fromLittleEndian bytes

/-- The second half of the reader, where the first read is not empty. -/
theorem receiveBody_ok {socket rest : Stream Fd} {bytes count : Nat} {signal : Bool}
    {buffer : Bytes} {fds : List Fd}
    (filled : headerLength ≤ (takeBytes (headerLength + bytes) socket.segments).1.length)
    (read : receiveBody socket bytes count signal = .returns (.ok (buffer, fds)) rest) :
    buffer.length = bytes ∧ fds.length = count ∧
      descriptors socket.segments = fds ++ descriptors rest.segments ∧
      ∃ head : Bytes, head.length = headerLength ∧
        contents socket.segments = head ++ (buffer ++ contents rest.segments) := by
  unfold receiveBody at read
  split at read
  · cases read
  cases first : socket.recvmsg (headerLength + bytes) signal with
  | blocks => simp [first] at read
  | interrupted => simp [first] at read
  | delivers whole rights left =>
      obtain ⟨taken, front, rights_front⟩ := Stream.recvmsg_delivers first
      rw [← taken] at filled
      cases whole with
      | nil => exact absurd filled (by decide)
      | cons byte more =>
          simp only [first] at read
          split at read
          · cases read
          · next exactly =>
              rw [not_not] at exactly
              split at read
              · cases read
              · next counted =>
                  rw [not_not] at counted
                  cases read
                  have none_lost : rights.length ≤ ancillaryCapacity count := by
                    have more := lt_ancillaryCapacity count
                    rw [List.length_take] at counted
                    omega
                  rw [List.take_of_length_le none_lost] at counted ⊢
                  refine ⟨?_, counted, rights_front.symm, (byte :: more).take headerLength, ?_, ?_⟩
                  · rw [List.length_drop, exactly, Nat.add_sub_cancel_left]
                  · exact List.length_take_of_le filled
                  · rw [← List.append_assoc, List.take_append_drop]
                    exact front.symm

theorem receiveRawMessage_ok {socket rest : Stream Fd} {signal : Bool} {buffer : Bytes}
    {fds : List Fd} (read : receiveRawMessage socket signal = .returns (.ok (buffer, fds)) rest) :
    contents socket.segments = frame buffer fds ++ contents rest.segments ∧
      descriptors socket.segments = fds ++ descriptors rest.segments := by
  unfold receiveRawMessage at read
  cases first : socket.peekmsg headerLength signal with
  | blocks => simp [first] at read
  | interrupted => simp [first] at read
  | delivers numbers rights left =>
      obtain ⟨taken, rfl⟩ := Stream.peekmsg_delivers first
      cases numbers with
      | nil => simp [first] at read
      | cons byte more =>
          simp only [first] at read
          split at read
          · cases read
          · next exactly =>
              rw [not_not] at exactly
              have front := Stream.takeBytes_contents headerLength left.segments
              rw [← taken] at front
              have filled : headerLength ≤ (takeBytes (headerLength +
                  Wire.fromLittleEndian ((byte :: more).take 8)) left.segments).1.length := by
                have longer := Stream.takeBytes_mono (Nat.le_add_right headerLength
                  (Wire.fromLittleEndian ((byte :: more).take 8))) left.segments
                rwa [← taken, exactly] at longer
              obtain ⟨length, count, rights_front, head, head_length, whole⟩ :=
                receiveBody_ok filled read
              refine ⟨?_, rights_front⟩
              have same : byte :: more = head := by
                rw [whole] at front
                exact (List.append_inj front (exactly.trans head_length.symm)).1
              have numbers : header buffer fds = byte :: more := by
                unfold header
                rw [length, count, encode_fromLittleEndian, encode_fromLittleEndian,
                  List.take_append_drop]
                · rw [List.length_drop, exactly]
                  rfl
                · exact List.length_take_of_le (exactly ▸ by decide)
              rw [whole, frame, numbers, same, List.append_assoc]

/-- Whatever becomes of a read, it takes bytes and descriptors off the front. -/
def Shortens (socket rest : Stream Fd) : Prop :=
  ∃ (lost : Bytes) (closed : List Fd), contents socket.segments = lost ++ contents rest.segments ∧
    descriptors socket.segments = closed ++ descriptors rest.segments

theorem Shortens.refl (socket : Stream Fd) : Shortens socket socket := ⟨[], [], rfl, rfl⟩

theorem Shortens.trans {socket middle rest : Stream Fd} (first : Shortens socket middle)
    (second : Shortens middle rest) : Shortens socket rest := by
  obtain ⟨lost₁, closed₁, bytes₁, fds₁⟩ := first
  obtain ⟨lost₂, closed₂, bytes₂, fds₂⟩ := second
  refine ⟨lost₁ ++ lost₂, closed₁ ++ closed₂, ?_, ?_⟩
  · rw [bytes₁, bytes₂, List.append_assoc]
  · rw [fds₁, fds₂, List.append_assoc]

theorem shortens_recvmsg {socket left : Stream Fd} {count : Nat} {signal : Bool} {bytes : Bytes}
    {rights : List Fd} (read : socket.recvmsg count signal = .delivers bytes rights left) :
    Shortens socket left := by
  obtain ⟨-, front, rights_front⟩ := Stream.recvmsg_delivers read
  exact ⟨bytes, rights, front.symm, rights_front.symm⟩

theorem shortens_receiveBody {socket rest : Stream Fd} {bytes count : Nat} {signal : Bool}
    {result : Except IoError (Bytes × List Fd)}
    (read : receiveBody socket bytes count signal = .returns result rest) :
    Shortens socket rest := by
  unfold receiveBody at read
  split at read
  · cases read
  · simp only at read
    split at read
    · cases read
    · cases read
      exact .refl _
    · next delivered =>
        cases read
        split at delivered
        · next first => exact (shortens_recvmsg first).trans (shortens_recvmsg delivered)
        · exact shortens_recvmsg delivered
    · next left _ delivered =>
        have shorter : Shortens socket left := by
          split at delivered
          · next first => exact (shortens_recvmsg first).trans (shortens_recvmsg delivered)
          · exact shortens_recvmsg delivered
        (repeat' split at read) <;> cases read <;> exact shorter

theorem shortens_receiveRawMessage {socket rest : Stream Fd} {signal : Bool}
    {result : Except IoError (Bytes × List Fd)}
    (read : receiveRawMessage socket signal = .returns result rest) : Shortens socket rest := by
  unfold receiveRawMessage at read
  simp only at read
  split at read
  · cases read
  · cases read
    exact .refl _
  · cases read
    exact .refl _
  · split at read
    · cases read
      exact .refl _
    · exact shortens_receiveBody read

/-! ## Payloads -/

theorem exact_enumCodec {α : Type} {index : α → UInt32} {variant : UInt32 → Option α}
    (back : ∀ value, variant (index value) = some value)
    (forth : ∀ tag value, variant tag = some value → tag = index value) :
    (enumCodec index variant back).Exact := by
  refine Codec.exact_tagged _ fun chosen bytes value rest selected => ?_
  obtain ⟨found, named, same⟩ := Option.map_eq_some_iff.mp selected
  cases same
  exact ⟨forth _ _ named, rfl⟩

theorem LockAction.exact_codec : LockAction.codec.Exact := by
  refine exact_enumCodec _ fun tag action named => ?_
  split at named <;> cases named <;> rfl

theorem LockType.exact_codec : LockType.codec.Exact := by
  refine exact_enumCodec _ fun tag type named => ?_
  split at named <;> cases named <;> rfl

theorem LockWhence.exact_codec : LockWhence.codec.Exact := by
  refine exact_enumCodec _ fun tag whence named => ?_
  split at named <;> cases named <;> rfl

theorem LockParams.exact_codec : LockParams.codec.Exact :=
  (LockType.exact_codec.pair (LockWhence.exact_codec.pair
    (Codec.exact_i64.pair (Codec.exact_i64.pair Codec.exact_i32)))).via _ fun _ => rfl

namespace RawMessage

theorem exact_lockCommandCodec : lockCommandCodec.Exact :=
  Codec.exact_u64.pair (LockAction.exact_codec.pair LockParams.exact_codec)

theorem index_of_select {chosen : UInt32} {bytes rest : Bytes} {message : RawMessage}
    (selected : select chosen bytes = some (message, rest)) :
    chosen = message.index ∧ bytes = message.fields ++ rest := by
  unfold select at selected
  split at selected
  · cases selected
    exact ⟨rfl, rfl⟩
  · obtain ⟨⟨id, behind⟩, read, same⟩ := Option.map_eq_some_iff.mp selected
    cases same
    exact ⟨rfl, Codec.exact_u64 read⟩
  · obtain ⟨⟨id, behind⟩, read, same⟩ := Option.map_eq_some_iff.mp selected
    cases same
    exact ⟨rfl, Codec.exact_u64 read⟩
  · cases selected
    exact ⟨rfl, rfl⟩
  · obtain ⟨⟨id, behind⟩, read, same⟩ := Option.map_eq_some_iff.mp selected
    cases same
    exact ⟨rfl, Codec.exact_u64 read⟩
  · obtain ⟨⟨⟨id, action, params⟩, behind⟩, read, same⟩ := Option.map_eq_some_iff.mp selected
    cases same
    exact ⟨rfl, exact_lockCommandCodec read⟩
  · cases selected

theorem exact_codec : codec.Exact :=
  Codec.exact_tagged _ fun _ _ _ _ => index_of_select

end RawMessage

/-! ## Requests -/

/-- The descriptors a message leaves unused: they are dropped, and `Register` has none. -/
def Message.Ignores : Message → List Fd → Prop
  | .register _, spare => spare = []
  | _, _ => True

theorem Message.deserialize_ok {payload : RawMessage} {fds : List Fd} {message : Message} :
    Message.deserialize payload fds = .ok message ↔
      payload = message.serialize.1 ∧
        ∃ spare, fds = message.serialize.2 ++ spare ∧ message.Ignores spare := by
  constructor
  · intro read
    cases payload with
    | register =>
        simp only [Message.deserialize] at read
        split at read
        · cases read
          exact ⟨rfl, [], rfl, rfl⟩
        · cases read
    | _ =>
        cases read
        exact ⟨rfl, fds, rfl, trivial⟩
  · rintro ⟨rfl, spare, rfl, ignores⟩
    cases message with
    | register fd =>
        have nothing : spare = [] := ignores
        rw [nothing]
        rfl
    | _ => rfl

/-- The bytes and descriptors of a request as they are accepted: its payload with anything behind
it, the reply socket in front, and descriptors it does not use. -/
structure Carries (request : Message × Fd) (buffer : Bytes) (fds : List Fd) : Prop where
  payload : ∃ trailing, buffer = RawMessage.codec.encode request.1.serialize.1 ++ trailing
  fds : ∃ spare, fds = request.2 :: (request.1.serialize.2 ++ spare) ∧ request.1.Ignores spare

theorem parseRequest_ok {buffer : Bytes} {fds : List Fd} {request : Message × Fd} :
    parseRequest buffer fds = .ok request ↔ Carries request buffer fds := by
  obtain ⟨message, reply⟩ := request
  constructor
  · intro parsed
    unfold parseRequest at parsed
    split at parsed
    · cases parsed
    · next replyFd more =>
        split at parsed
        · cases parsed
        · next payload decoded =>
            cases read : Message.deserialize payload more with
            | error error =>
                rw [read] at parsed
                cases parsed
            | ok found =>
                rw [read] at parsed
                cases parsed
                obtain ⟨rfl, spare, rfl, ignores⟩ := Message.deserialize_ok.mp read
                exact ⟨RawMessage.exact_codec.deserialize.mp decoded, spare, rfl, ignores⟩
  · rintro ⟨payload, spare, rfl, ignores⟩
    have decoded := RawMessage.exact_codec.deserialize.mpr payload
    have read := Message.deserialize_ok.mpr ⟨rfl, spare, rfl, ignores⟩
    simp [parseRequest, decoded, read, Except.map]

end Ulockmgr
