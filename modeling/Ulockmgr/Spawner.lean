import Ulockmgr.Receiving

/-!
# The coordinator

`OwnerSpawner::run` of `owner_spawner.rs` on the bytes of its socket.  A request carries the TTL of
the new owner; the reply carries the manager's end of the socket of the new process.  How
`spawn_owner_process` comes out is decided outside: each of its system calls may fail.
-/

namespace Ulockmgr.Spawner

open Wire (Bytes Codec Stream Segment)
open Receiving (Left)

abbrev Process := Nat

/-- `std::time::Duration`. -/
structure Duration where
  secs : UInt64
  nanos : UInt32
  subsecond : nanos.toNat < 10 ^ 9
  deriving DecidableEq

namespace Duration

def zero : Duration := ⟨0, 0, by decide⟩

/-- `Duration::new`, which carries whole seconds over; `serde` rejects an overflow. -/
def new (secs : UInt64) (nanos : UInt32) : Option Duration :=
  if secs.toNat + nanos.toNat / 10 ^ 9 < 2 ^ 64 then
    some
      ⟨UInt64.ofNat (secs.toNat + nanos.toNat / 10 ^ 9), UInt32.ofNat (nanos.toNat % 10 ^ 9), by
        have small : nanos.toNat % 10 ^ 9 < 10 ^ 9 := Nat.mod_lt _ (by decide)
        rw [UInt32.toNat_ofNat', Nat.mod_eq_of_lt (lt_trans small (by decide))]
        exact small⟩
  else none

theorem new_self (duration : Duration) : new duration.secs duration.nanos = some duration := by
  obtain ⟨secs, nanos, subsecond⟩ := duration
  have whole : nanos.toNat / 10 ^ 9 = 0 := Nat.div_eq_of_lt subsecond
  have below := secs.toNat_lt
  simp only [new, whole, Nat.add_zero, Nat.mod_eq_of_lt subsecond, UInt64.ofNat_toNat,
    UInt32.ofNat_toNat]
  rw [if_pos below]

def codec : Codec Duration where
  encode duration := Codec.u64.encode duration.secs ++ Codec.u32.encode duration.nanos
  decode bytes := do
    let (secs, rest) ← Codec.u64.decode bytes
    let (nanos, rest) ← Codec.u32.decode rest
    let duration ← new secs nanos
    return (duration, rest)
  decode_encode duration rest := by simp [List.append_assoc, new_self]

theorem length_codec (duration : Duration) : (codec.encode duration).length = 12 := by
  simp [codec]

end Duration

/-! ## One request -/

/-- How the system calls of `spawn_owner_process` come out. -/
inductive SpawnOutcome where
  | socketpairFails (errno : Errno)
  | commandFails (error : IoError)
  /-- The process was created, but `waitpid` fails. -/
  | waitpidFails (p : Process) (errno : Errno)
  | spawned (p : Process)
  deriving DecidableEq

def spawnOwnerProcess (outcome : SpawnOutcome) : Except IoError Fd :=
  match outcome with
  | .socketpairFails errno => .error (.os errno)
  | .commandFails error => .error error
  | .waitpidFails _ errno => .error (.os errno)
  | .spawned p => .ok (.owner p)

def SpawnOutcome.Succeeds (outcome : SpawnOutcome) : Prop := ∃ p, outcome = .spawned p

instance (outcome : SpawnOutcome) : Decidable outcome.Succeeds :=
  match outcome with
  | .spawned p => isTrue ⟨p, rfl⟩
  | .socketpairFails _ => isFalse (by rintro ⟨_, ⟨⟩⟩)
  | .commandFails _ => isFalse (by rintro ⟨_, ⟨⟩⟩)
  | .waitpidFails _ _ => isFalse (by rintro ⟨_, ⟨⟩⟩)

/-- `receive_request` at the type `RequestSpawnOwner`, which ignores further descriptors. -/
def parseSpawnRequest (buffer : Bytes) (fds : List Fd) : Except IoError (Duration × Fd) :=
  match fds with
  | [] => .error (.custom .invalidInput "no file descriptors received")
  | replyFd :: _ =>
      match Duration.codec.deserialize buffer with
      | none => .error (.custom .invalidData "")
      | some ttl => .ok (ttl, replyFd)

def receiveSpawnRequest (socket : Stream Fd) : Received (Except IoError (Duration × Fd)) :=
  (receiveRawMessage socket false).map fun result =>
    result.bind fun (buffer, fds) => parseSpawnRequest buffer fds

/-- The frame of a request whose reply goes to `endpoint`. -/
def spawnSegment (endpoint : Nat) (ttl : Duration) : Segment Fd :=
  ⟨frame (Duration.codec.encode ttl) [.endpoint endpoint], [.endpoint endpoint]⟩

theorem receiveSpawnRequest_segment (endpoint : Nat) (ttl : Duration) (rest : List (Segment Fd))
    (closed : Bool) :
    receiveSpawnRequest ⟨spawnSegment endpoint ttl :: rest, closed⟩ =
      .returns (.ok (ttl, .endpoint endpoint)) ⟨rest, closed⟩ := by
  have fit : SizesFit (Duration.codec.encode ttl).length [Fd.endpoint endpoint].length := by
    rw [Duration.length_codec]
    show SizesFit 12 1
    decide
  rw [receiveSpawnRequest, spawnSegment, receiveRawMessage_frame fit]
  simp [Received.map, Except.bind, parseSpawnRequest]

/-! ## The loop -/

/-- The reply sockets of the requests, by endpoint. -/
abbrev Sockets := Nat → Stream Fd

/-- What is done with the reply object before it is dropped. -/
def answer (sockets : Sockets) (replyFd : Fd) (write : Stream Fd → Stream Fd) : Sockets :=
  match replyFd with
  | .endpoint e => Function.update sockets e (write (sockets e)).close
  | _ => sockets

/-- One turn of `OwnerSpawner::run`. -/
inductive Turn where
  | waits
  | panics
  | serves (sockets : Sockets) (rest : Stream Fd)
  | returns (result : Except IoError Unit) (sockets : Sockets)

def turn (outcome : SpawnOutcome) (socket : Stream Fd) (sockets : Sockets) : Turn :=
  match receiveSpawnRequest socket with
  | .blocks => .waits
  | .panics => .panics
  | .returns (.error error) _ =>
      if error.kind = .brokenPipe then .returns (.ok ()) sockets else .returns (.error error) sockets
  | .returns (.ok (_, replyFd)) rest =>
      match spawnOwnerProcess outcome with
      -- the question mark returns from `run`, and the reply object is dropped unused
      | .error error => .returns (.error error) (answer sockets replyFd id)
      | .ok parentFd =>
          .serves (answer sockets replyFd fun stream => replyWithFds stream (.ok .unit) [parentFd])
            rest

/-- `OwnerSpawner::run` for at most `fuel` turns, with the outcomes of its spawns. -/
def run : Nat → (Nat → SpawnOutcome) → Stream Fd → Sockets → Option (Left Sockets)
  | 0, _, _, _ => none
  | fuel + 1, outcome, socket, sockets =>
      match turn (outcome 0) socket sockets with
      | .waits => some (.waits sockets)
      | .panics => some (.panics sockets)
      | .serves sockets rest => run fuel (fun i => outcome (i + 1)) rest sockets
      | .returns result sockets => some (.returns result sockets)

end Ulockmgr.Spawner
