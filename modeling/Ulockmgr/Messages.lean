import Ulockmgr.Types
import Ulockmgr.Library.ByteStream

/-!
# Messages, frames and replies

`messages.rs`: a request is a payload and descriptors, the first of which is the
socket its replies go to; a frame is the payload behind two `u64` that tell its
length and the number of descriptors; a receiver peeks at the two numbers before it
reads the whole frame.
-/

namespace Ulockmgr

open Wire (Codec Bytes Stream)

/-- A descriptor, named after what it refers to: a file of the client, the owner's end of the
reply socket of a request, or the manager's end of the socket of an owner process. -/
inductive Fd where
  | file (n : Nat)
  | endpoint (n : Nat)
  | owner (n : Nat)
  deriving DecidableEq, Repr

/-! ## Requests -/

inductive RawMessage where
  | ping
  | interrupt (id : UInt64)
  | removeInterrupt (id : UInt64)
  | register
  | unregister (id : UInt64)
  | lockCommand (id : UInt64) (action : LockAction) (params : LockParams)
  deriving DecidableEq, Repr

inductive Message where
  | ping
  | interrupt (id : UInt64)
  | removeInterrupt (id : UInt64)
  | register (fd : Fd)
  | unregister (id : UInt64)
  | lockCommand (id : UInt64) (action : LockAction) (params : LockParams)
  deriving DecidableEq, Repr

/-- The ID a message carries; `Ping` and `Register` have none. -/
def Message.id : Message → UInt64
  | .interrupt id | .removeInterrupt id | .unregister id | .lockCommand id _ _ => id
  | .ping | .register _ => 0

/-- The parameters of a lock command; no other message has any. -/
def Message.params : Message → LockParams
  | .lockCommand _ _ params => params
  | _ => ⟨.unlock, .start, 0, 0, 0⟩

/-- The descriptor a `Register` message carries. -/
def Message.fd : Message → Option Fd
  | .register fd => some fd
  | _ => none

namespace RawMessage

def index : RawMessage → UInt32
  | .ping => 0
  | .interrupt _ => 1
  | .removeInterrupt _ => 2
  | .register => 3
  | .unregister _ => 4
  | .lockCommand _ _ _ => 5

def lockCommandCodec : Codec (UInt64 × LockAction × LockParams) :=
  Codec.u64.pair (LockAction.codec.pair LockParams.codec)

def fields : RawMessage → Bytes
  | .ping => []
  | .interrupt id => Codec.u64.encode id
  | .removeInterrupt id => Codec.u64.encode id
  | .register => []
  | .unregister id => Codec.u64.encode id
  | .lockCommand id action params => lockCommandCodec.encode (id, action, params)

def select (tag : UInt32) (bytes : Bytes) : Option (RawMessage × Bytes) :=
  match tag with
  | 0 => some (.ping, bytes)
  | 1 => (Codec.u64.decode bytes).map fun (id, rest) => (.interrupt id, rest)
  | 2 => (Codec.u64.decode bytes).map fun (id, rest) => (.removeInterrupt id, rest)
  | 3 => some (.register, bytes)
  | 4 => (Codec.u64.decode bytes).map fun (id, rest) => (.unregister id, rest)
  | 5 => (lockCommandCodec.decode bytes).map fun ((id, action, params), rest) =>
      (.lockCommand id action params, rest)
  | _ => none

theorem select_index (message : RawMessage) (rest : Bytes) :
    select message.index (message.fields ++ rest) = some (message, rest) := by
  cases message <;> simp [select, index, fields]

def codec : Codec RawMessage := .tagged index fields select select_index

theorem length_codec (message : RawMessage) : (codec.encode message).length ≤ 44 := by
  cases message <;> simp [codec, Codec.tagged, fields, lockCommandCodec, Codec.pair,
    LockAction.codec]

end RawMessage

namespace Message

def serialize : Message → RawMessage × List Fd
  | .ping => (.ping, [])
  | .interrupt id => (.interrupt id, [])
  | .removeInterrupt id => (.removeInterrupt id, [])
  | .register fd => (.register, [fd])
  | .unregister id => (.unregister id, [])
  | .lockCommand id action params => (.lockCommand id action params, [])

/-- `Register` is the one message that looks at its descriptors. -/
def deserialize (payload : RawMessage) (fds : List Fd) : Except IoError Message :=
  match payload with
  | .ping => .ok .ping
  | .interrupt id => .ok (.interrupt id)
  | .removeInterrupt id => .ok (.removeInterrupt id)
  | .register =>
      match fds with
      | [fd] => .ok (.register fd)
      | _ => .error (.custom .invalidInput "invalid number of file descriptors")
  | .unregister id => .ok (.unregister id)
  | .lockCommand id action params => .ok (.lockCommand id action params)

theorem deserialize_serialize (message : Message) :
    deserialize message.serialize.1 message.serialize.2 = .ok message := by
  cases message <;> rfl

theorem length_serialize (message : Message) : message.serialize.2.length ≤ 1 := by
  cases message <;> simp [serialize]

end Message

/-! ## Frames -/

/-- `receive_raw_message` and its callers: they wait, panic, or return with the
rest of the stream. -/
inductive Received (α : Type) where
  | blocks
  | panics
  | returns (result : α) (rest : Stream Fd)
  deriving DecidableEq

def Received.map {α β : Type} (f : α → β) : Received α → Received β
  | .blocks => .blocks
  | .panics => .panics
  | .returns result rest => .returns (f result) rest

def headerLength : Nat := 16

/-- The header of a frame: payload length and number of descriptors. -/
def header (payload : Bytes) (fds : List Fd) : Bytes :=
  Codec.u64.encode (UInt64.ofNat payload.length) ++ Codec.u64.encode (UInt64.ofNat fds.length)

def frame (payload : Bytes) (fds : List Fd) : Bytes := header payload fds ++ payload

/-- The most descriptors the kernel takes in one message. -/
def scmMaxFd : Nat := 253

def sendRawMessage (socket : Stream Fd) (buffer : Bytes) (fds : List Fd) :
    Except IoError (Stream Fd) :=
  if scmMaxFd < fds.length then .error (.os Errno.INVAL)
  else .ok (socket.send (frame buffer fds) fds)

/-- The sizes `receive_raw_message` computes do not panic: `vec!`, `Vec::with_capacity`
and the conversion to `u32` inside `cmsg_space!`. -/
def SizesFit (bytes count : Nat) : Prop :=
  bytes < 2 ^ 63 ∧ 4 * count < 2 ^ 63 ∧ 4 * count + 8 < 2 ^ 32

instance (bytes count : Nat) : Decidable (SizesFit bytes count) :=
  inferInstanceAs (Decidable (_ ∧ _ ∧ _))

/-- `cmsg_space!(ScmRights(count))`: an aligned header, the descriptors, and room to
align the buffer itself. -/
def cmsgSpace (count : Nat) : Nat := 16 + (4 * count + 8 + 7) / 8 * 8

/-- Descriptors that fit into such a buffer; the kernel closes the others. -/
def ancillaryCapacity (count : Nat) : Nat := (cmsgSpace count - 16) / 4

theorem le_ancillaryCapacity (count : Nat) : count ≤ ancillaryCapacity count := by
  unfold ancillaryCapacity cmsgSpace
  omega

def connectionTerminated : IoError := .custom .brokenPipe "connection terminated"

def shortMessage : IoError := .custom .unexpectedEof "short message received"

/-- The second half of `receive_raw_message`, once the header is known. -/
def receiveBody (socket : Stream Fd) (bytes count : Nat) (signal : Bool) :
    Received (Except IoError (Bytes × List Fd)) :=
  if ¬ SizesFit bytes count then .panics
  else
    let first := socket.recvmsg (headerLength + bytes) signal
    -- an empty read is made once more
    let second :=
      match first with
      | .delivers [] _ rest => rest.recvmsg (headerLength + bytes) signal
      | other => other
    match second with
    | .blocks => .blocks
    | .interrupted => .returns (.error (.os Errno.INTR)) socket
    | .delivers [] _ rest => .returns (.error connectionTerminated) rest
    | .delivers buffer fds rest =>
        if buffer.length ≠ headerLength + bytes then .returns (.error shortMessage) rest
        else
          let fds := fds.take (ancillaryCapacity count)
          if fds.length ≠ count then
            .returns (.error (.custom .unexpectedEof "not enough files sent")) rest
          else .returns (.ok (buffer.drop headerLength, fds)) rest

def receiveRawMessage (socket : Stream Fd) (signal : Bool) :
    Received (Except IoError (Bytes × List Fd)) :=
  let first := socket.peekmsg headerLength signal
  let second :=
    match first with
    | .delivers [] _ _ => socket.peekmsg headerLength signal
    | other => other
  match second with
  | .blocks => .blocks
  | .interrupted => .returns (.error (.os Errno.INTR)) socket
  | .delivers [] _ _ => .returns (.error connectionTerminated) socket
  | .delivers header _ _ =>
      if header.length ≠ headerLength then .returns (.error shortMessage) socket
      else
        receiveBody socket (Wire.fromLittleEndian (header.take 8))
          (Wire.fromLittleEndian (header.drop 8)) signal

/-! ## One request -/

/-- `send_request_iter_with_fds` with the mutex held: the owner's end of the new
socket pair goes in front of the descriptors of the request. -/
def sendRequestIter (socket : Stream Fd) (request : Message) (endpoint : Nat) :
    Except IoError (Stream Fd) :=
  let (payload, fds) := request.serialize
  sendRawMessage socket (RawMessage.codec.encode payload) (Fd.endpoint endpoint :: fds)

/-- `receive_request` after the frame has been read.  The text of a decoding error is
that of `bincode` and is not modelled. -/
def parseRequest (buffer : Bytes) (fds : List Fd) : Except IoError (Message × Fd) :=
  match fds with
  | [] => .error (.custom .invalidInput "no file descriptors received")
  | replyFd :: fds =>
      match RawMessage.codec.deserialize buffer with
      | none => .error (.custom .invalidData "")
      | some payload => (Message.deserialize payload fds).map fun message => (message, replyFd)

def receiveRequest (socket : Stream Fd) : Received (Except IoError (Message × Fd)) :=
  (receiveRawMessage socket false).map fun result =>
    result.bind fun (buffer, fds) => parseRequest buffer fds

/-! ## Replies -/

inductive ReplyLockCommandData where
  | pending (id : UInt64)
  | done (params : LockParams)
  deriving DecidableEq, Repr

/-- The `Reply::Type` of a message. -/
inductive ReplyKind where
  | unit
  | register
  | lockCommand
  deriving DecidableEq, Repr

/-- A value of one of the reply types. -/
inductive ReplyData where
  | unit
  | register (id : UInt64)
  | lockCommand (data : ReplyLockCommandData)
  deriving DecidableEq, Repr

def Message.replyKind : Message → ReplyKind
  | .ping | .interrupt _ | .removeInterrupt _ | .unregister _ => .unit
  | .register _ => .register
  | .lockCommand _ _ _ => .lockCommand

def ReplyData.kind : ReplyData → ReplyKind
  | .unit => .unit
  | .register _ => .register
  | .lockCommand _ => .lockCommand

def ReplyLockCommandData.codec : Codec ReplyLockCommandData :=
  .tagged (fun | .pending _ => 0 | .done _ => 1)
    (fun
      | .pending id => Codec.u64.encode id
      | .done params => LockParams.codec.encode params)
    (fun tag bytes =>
      match tag with
      | 0 => (Codec.u64.decode bytes).map fun (id, rest) => (.pending id, rest)
      | 1 => (LockParams.codec.decode bytes).map fun (params, rest) => (.done params, rest)
      | _ => none)
    fun data rest => by cases data <;> simp

/-- The derived codec of a reply type. -/
def ReplyKind.decode : ReplyKind → Bytes → Option (ReplyData × Bytes)
  | .unit, bytes => (Codec.unit.decode bytes).map fun (_, rest) => (.unit, rest)
  | .register, bytes => (Codec.u64.decode bytes).map fun (id, rest) => (.register id, rest)
  | .lockCommand, bytes =>
      (ReplyLockCommandData.codec.decode bytes).map fun (data, rest) => (.lockCommand data, rest)

def ReplyData.encode : ReplyData → Bytes
  | .unit => Codec.unit.encode ()
  | .register id => Codec.u64.encode id
  | .lockCommand data => ReplyLockCommandData.codec.encode data

theorem ReplyKind.decode_encode (data : ReplyData) (rest : Bytes) :
    data.kind.decode (data.encode ++ rest) = some (data, rest) := by
  cases data <;> simp [ReplyData.kind, ReplyKind.decode, ReplyData.encode]

theorem ReplyData.length_encode (data : ReplyData) : data.encode.length ≤ 32 := by
  cases data with
  | unit => simp [ReplyData.encode, Codec.unit]
  | register id => simp [ReplyData.encode]
  | lockCommand data =>
      cases data <;> simp [ReplyData.encode, ReplyLockCommandData.codec, Codec.tagged]

/-- `Result<R::Type, Errno>`, the argument of `Reply::reply`. -/
abbrev Reply := Except Errno ReplyData

/-- The serialised `Result<R::Type, i32>`. -/
def Reply.serialize : Reply → Bytes
  | .ok data => Codec.u32.encode 0 ++ data.encode
  | .error errno => Codec.u32.encode 1 ++ Codec.i32.encode errno

/-- Deserialisation at the reply type of `kind`. -/
def Reply.deserialize (kind : ReplyKind) (bytes : Bytes) : Option Reply := do
  let (tag, rest) ← Codec.u32.decode bytes
  match tag with
  | 0 => (kind.decode rest).map fun (data, _) => .ok data
  | 1 => (Codec.i32.decode rest).map fun (errno, _) => .error errno
  | _ => none

/-- The replies that may be written to an endpoint of the given kind. -/
def Reply.HasKind (kind : ReplyKind) : Reply → Prop
  | .ok data => data.kind = kind
  | .error _ => True

instance (kind : ReplyKind) (reply : Reply) : Decidable (Reply.HasKind kind reply) := by
  cases reply <;> unfold Reply.HasKind <;> infer_instance

theorem Reply.deserialize_serialize {kind : ReplyKind} {reply : Reply}
    (typed : Reply.HasKind kind reply) : Reply.deserialize kind (Reply.serialize reply) = some reply := by
  cases reply with
  | ok data =>
      have read := ReplyKind.decode_encode data []
      rw [List.append_nil, typed] at read
      simp [Reply.serialize, Reply.deserialize, read]
  | error errno =>
      have read := Codec.i32.decode_encode errno []
      rw [List.append_nil] at read
      simp [Reply.serialize, Reply.deserialize, read]

theorem Reply.length_serialize (reply : Reply) : (Reply.serialize reply).length ≤ 36 := by
  cases reply with
  | ok data =>
      have bound := data.length_encode
      simp only [Reply.serialize, List.length_append, Codec.length_u32]
      omega
  | error errno => simp [Reply.serialize]

/-- `Reply::reply_with_fds`; a failing send is logged and dropped. -/
def replyWithFds (endpoint : Stream Fd) (reply : Reply) (fds : List Fd) : Stream Fd :=
  match sendRawMessage endpoint (Reply.serialize reply) fds with
  | .ok endpoint => endpoint
  | .error _ => endpoint

/-- `Reply::reply`. -/
def sendReply (endpoint : Stream Fd) (reply : Reply) : Stream Fd := replyWithFds endpoint reply []

/-- `FetchedReplyResult<(R::Type, Vec<OwnedFd>)>`. -/
abbrev Fetched := Except IoError (Except IoError (ReplyData × List Fd))

/-- `ReplyIterator::next` behind the frame. -/
def fetchReply (kind : ReplyKind) (result : Except IoError (Bytes × List Fd)) : Option Fetched :=
  match result with
  | .error error => if error.kind = .brokenPipe then none else some (.error error)
  | .ok (raw, fds) =>
      match Reply.deserialize kind raw with
      | some (.ok item) => some (.ok (.ok (item, fds)))
      | some (.error errno) => some (.ok (.error (IoError.fromRawOsError errno)))
      | none => some (.error (.custom .invalidData ""))

/-- `ReplyIterator::next`. -/
def nextReply (kind : ReplyKind) (oneshot : Stream Fd) (signal : Bool) : Received (Option Fetched) :=
  (receiveRawMessage oneshot signal).map (fetchReply kind)

/-- What the caller is to see of a reply. -/
def Reply.fetched (reply : Reply) (fds : List Fd) : Fetched :=
  match reply with
  | .ok data => .ok (.ok (data, fds))
  | .error errno => .ok (.error (IoError.fromRawOsError errno))

end Ulockmgr
