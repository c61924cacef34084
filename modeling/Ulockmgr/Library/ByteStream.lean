import Ulockmgr.Library.Codec

/-!
# Stream sockets that carry descriptors

The unread contents of one direction of a local stream socket, as a queue of what
its `sendmsg` calls put there.  Bytes are read in order and across the borders
of the sends.  The descriptors of a send go out with the first of its bytes that is
read, and a read stops behind the send whose descriptors it took.  A read that waits
for all its bytes returns fewer only in front of the end of the stream or of such a
border, and a signal can interrupt it only while there is nothing to deliver.
-/

namespace Wire

structure Segment (δ : Type) where
  bytes : Bytes
  fds : List δ
  deriving DecidableEq

structure Stream (δ : Type) where
  segments : List (Segment δ)
  /-- The writing end is closed. -/
  closed : Bool
  deriving DecidableEq

/-- What a read returns: it waits, a signal interrupted it, or it has bytes. -/
inductive Recv (δ : Type) where
  | blocks
  | interrupted
  | delivers (bytes : Bytes) (fds : List δ) (rest : Stream δ)
  deriving DecidableEq

namespace Stream

variable {δ : Type}

def empty : Stream δ := ⟨[], false⟩

def send (stream : Stream δ) (bytes : Bytes) (fds : List δ) : Stream δ :=
  { stream with segments := stream.segments ++ [⟨bytes, fds⟩] }

def close (stream : Stream δ) : Stream δ := { stream with closed := true }

/-- At most `count` bytes off the queue, with their descriptors and what is left. -/
def takeBytes : Nat → List (Segment δ) → Bytes × List δ × List (Segment δ)
  | 0, segments => ([], [], segments)
  | _, [] => ([], [], [])
  | count + 1, ⟨bytes, fds⟩ :: rest =>
      if count + 1 < bytes.length then
        (bytes.take (count + 1), fds, ⟨bytes.drop (count + 1), []⟩ :: rest)
      else if fds.isEmpty then
        let (more, rights, left) := takeBytes (count + 1 - bytes.length) rest
        (bytes ++ more, rights, left)
      else (bytes, fds, rest)

/-- `recvmsg` with `MSG_WAITALL`; `signal` tells whether a signal comes while it waits. -/
def recvmsg [DecidableEq δ] (stream : Stream δ) (count : Nat) (signal : Bool) : Recv δ :=
  let (bytes, fds, left) := takeBytes count stream.segments
  if bytes.length = count ∨ fds ≠ [] ∨ stream.closed = true then
    .delivers bytes fds { stream with segments := left }
  else if stream.segments = [] ∧ signal = true then .interrupted
  else .blocks

/-- `recvmsg` with `MSG_PEEK` in addition: nothing is consumed. -/
def peekmsg [DecidableEq δ] (stream : Stream δ) (count : Nat) (signal : Bool) : Recv δ :=
  match stream.recvmsg count signal with
  | .delivers bytes fds _ => .delivers bytes fds stream
  | other => other

@[simp] theorem takeBytes_zero (segments : List (Segment δ)) :
    takeBytes 0 segments = ([], [], segments) := by
  cases segments <;> rfl

/-- A read of exactly the bytes of the first send takes that send and nothing else. -/
theorem takeBytes_segment {bytes : Bytes} (some_ : bytes ≠ []) (fds : List δ)
    (rest : List (Segment δ)) :
    takeBytes bytes.length (⟨bytes, fds⟩ :: rest) = (bytes, fds, rest) := by
  cases bytes with
  | nil => exact (some_ rfl).elim
  | cons byte more => cases fds <;> simp [takeBytes]

/-- A shorter read takes bytes of the first send only. -/
theorem takeBytes_front {count : Nat} {bytes : Bytes} (positive : 0 < count)
    (short : count < bytes.length) (fds : List δ) (rest : List (Segment δ)) :
    takeBytes count (⟨bytes, fds⟩ :: rest) =
      (bytes.take count, fds, ⟨bytes.drop count, []⟩ :: rest) := by
  cases count with
  | zero => exact (lt_irrefl _ positive).elim
  | succ count => simp [takeBytes, short]

/-- The number of bytes in the queue. -/
def size : List (Segment δ) → Nat
  | [] => 0
  | ⟨bytes, _⟩ :: rest => bytes.length + size rest

/-- A longer read goes on behind a send that carries no descriptors. -/
theorem takeBytes_through {count : Nat} {bytes : Bytes} (positive : 0 < count)
    (enough : bytes.length ≤ count) (rest : List (Segment δ)) :
    takeBytes count (⟨bytes, []⟩ :: rest) =
      (bytes ++ (takeBytes (count - bytes.length) rest).1,
        (takeBytes (count - bytes.length) rest).2) := by
  cases count with
  | zero => exact (lt_irrefl _ positive).elim
  | succ count => simp [takeBytes, Nat.not_lt.mpr enough]

/-- It stops behind one that does. -/
theorem takeBytes_border {count : Nat} {bytes : Bytes} {fds : List δ} (positive : 0 < count)
    (enough : bytes.length ≤ count) (carries : fds ≠ []) (rest : List (Segment δ)) :
    takeBytes count (⟨bytes, fds⟩ :: rest) = (bytes, fds, rest) := by
  cases count with
  | zero => exact (lt_irrefl _ positive).elim
  | succ count => simp [takeBytes, Nat.not_lt.mpr enough, carries]

/-- The bytes that are read are those that go missing from the queue. -/
theorem takeBytes_size (count : Nat) (segments : List (Segment δ)) :
    (takeBytes count segments).1.length + size (takeBytes count segments).2.2 = size segments := by
  induction segments generalizing count with
  | nil => cases count <;> rfl
  | cons segment rest ih =>
      obtain ⟨bytes, fds⟩ := segment
      rcases Nat.eq_zero_or_pos count with rfl | positive
      · simp
      rcases Nat.lt_or_ge count bytes.length with short | enough
      · simp only [takeBytes_front positive short, size, List.length_take, List.length_drop]
        omega
      cases fds with
      | nil =>
          have more := ih (count - bytes.length)
          simp only [takeBytes_through positive enough, size, List.length_append]
          omega
      | cons fd fds => simp [takeBytes_border positive enough, size]

theorem takeBytes_length_le (count : Nat) (segments : List (Segment δ)) :
    (takeBytes count segments).1.length ≤ count := by
  induction segments generalizing count with
  | nil => cases count <;> exact Nat.zero_le _
  | cons segment rest ih =>
      obtain ⟨bytes, fds⟩ := segment
      rcases Nat.eq_zero_or_pos count with rfl | positive
      · simp
      rcases Nat.lt_or_ge count bytes.length with short | enough
      · simp [takeBytes_front positive short]
      cases fds with
      | nil =>
          have more := ih (count - bytes.length)
          simp only [takeBytes_through positive enough, List.length_append]
          omega
      | cons fd fds => simpa [takeBytes_border positive enough] using enough

/-- A longer read takes at least as much. -/
theorem takeBytes_mono {count other : Nat} (longer : count ≤ other) (segments : List (Segment δ)) :
    (takeBytes count segments).1.length ≤ (takeBytes other segments).1.length := by
  induction segments generalizing count other with
  | nil => cases count <;> exact Nat.zero_le _
  | cons segment rest ih =>
      obtain ⟨bytes, fds⟩ := segment
      rcases Nat.eq_zero_or_pos count with rfl | positive
      · simp
      have positive' : 0 < other := lt_of_lt_of_le positive longer
      rcases Nat.lt_or_ge other bytes.length with short | enough'
      · rw [takeBytes_front positive (lt_of_le_of_lt longer short), takeBytes_front positive' short]
        simp only [List.length_take]
        omega
      rcases Nat.lt_or_ge count bytes.length with short | enough
      · rw [takeBytes_front positive short]
        cases fds with
        | nil =>
            simp only [takeBytes_through positive' enough', List.length_take, List.length_append]
            omega
        | cons fd fds => simp [takeBytes_border positive' enough', Nat.le_of_lt short]
      cases fds with
      | nil =>
          have more := ih (Nat.sub_le_sub_right longer bytes.length)
          simp only [takeBytes_through positive enough, takeBytes_through positive' enough',
            List.length_append]
          omega
      | cons fd fds => simp [takeBytes_border positive enough, takeBytes_border positive' enough']

/-- The bytes of the queue, whatever the borders of its sends. -/
def contents (segments : List (Segment δ)) : Bytes := segments.flatMap Segment.bytes

/-- The descriptors under way in the queue. -/
def descriptors (segments : List (Segment δ)) : List δ := segments.flatMap Segment.fds

/-- A read takes bytes off the front. -/
theorem takeBytes_contents (count : Nat) (segments : List (Segment δ)) :
    (takeBytes count segments).1 ++ contents (takeBytes count segments).2.2 =
      contents segments := by
  induction segments generalizing count with
  | nil => cases count <;> rfl
  | cons segment rest ih =>
      obtain ⟨bytes, fds⟩ := segment
      rcases Nat.eq_zero_or_pos count with rfl | positive
      · simp
      rcases Nat.lt_or_ge count bytes.length with short | enough
      · simp [takeBytes_front positive short, contents, ← List.append_assoc]
      cases fds with
      | nil =>
          have more := ih (count - bytes.length)
          simp only [contents] at more
          simp [takeBytes_through positive enough, contents, more]
      | cons fd fds => simp [takeBytes_border positive enough, contents]

/-- It takes the descriptors of one send, the first that has any, or none. -/
theorem takeBytes_descriptors (count : Nat) (segments : List (Segment δ)) :
    (takeBytes count segments).2.1 ++ descriptors (takeBytes count segments).2.2 =
      descriptors segments := by
  induction segments generalizing count with
  | nil => cases count <;> rfl
  | cons segment rest ih =>
      obtain ⟨bytes, fds⟩ := segment
      rcases Nat.eq_zero_or_pos count with rfl | positive
      · simp
      rcases Nat.lt_or_ge count bytes.length with short | enough
      · simp [takeBytes_front positive short, descriptors]
      cases fds with
      | nil =>
          have more := ih (count - bytes.length)
          simp only [descriptors] at more
          simp [takeBytes_through positive enough, descriptors, more]
      | cons fd fds => simp [takeBytes_border positive enough, descriptors]

section
variable [DecidableEq δ] (fds : List δ) (rest : List (Segment δ)) (closed signal : Bool)

theorem recvmsg_segment {bytes : Bytes} (some_ : bytes ≠ []) :
    recvmsg ⟨⟨bytes, fds⟩ :: rest, closed⟩ bytes.length signal =
      .delivers bytes fds ⟨rest, closed⟩ := by
  simp [recvmsg, takeBytes_segment some_]

theorem peekmsg_front {count : Nat} {bytes : Bytes} (positive : 0 < count)
    (enough : count ≤ bytes.length) :
    peekmsg ⟨⟨bytes, fds⟩ :: rest, closed⟩ count signal =
      .delivers (bytes.take count) fds ⟨⟨bytes, fds⟩ :: rest, closed⟩ := by
  rcases Nat.lt_or_eq_of_le enough with short | whole
  · simp [peekmsg, recvmsg, takeBytes_front positive short, Nat.min_eq_left enough]
  · have some_ : bytes ≠ [] := List.ne_nil_of_length_pos (whole ▸ positive)
    subst whole
    simp [peekmsg, recvmsg, takeBytes_segment some_]

omit fds rest closed in
theorem recvmsg_closed {stream left : Stream δ} {count : Nat} {bytes : Bytes} {rights : List δ}
    {signal : Bool} (read : stream.recvmsg count signal = .delivers bytes rights left) :
    left.closed = stream.closed := by
  simp only [recvmsg] at read
  split at read
  · cases read
    rfl
  · split at read <;> cases read

omit fds rest closed in
theorem recvmsg_delivers {stream left : Stream δ} {count : Nat} {bytes : Bytes} {rights : List δ}
    {signal : Bool} (read : stream.recvmsg count signal = .delivers bytes rights left) :
    bytes = (takeBytes count stream.segments).1 ∧
      bytes ++ contents left.segments = contents stream.segments ∧
      rights ++ descriptors left.segments = descriptors stream.segments := by
  have bytes_taken := takeBytes_contents count stream.segments
  have rights_taken := takeBytes_descriptors count stream.segments
  simp only [recvmsg] at read
  split at read
  · cases read
    exact ⟨rfl, bytes_taken, rights_taken⟩
  · split at read <;> cases read

omit fds rest closed in
/-- A peek sees bytes of the front and leaves the stream alone. -/
theorem peekmsg_delivers {stream left : Stream δ} {count : Nat} {bytes : Bytes} {rights : List δ}
    {signal : Bool} (read : stream.peekmsg count signal = .delivers bytes rights left) :
    bytes = (takeBytes count stream.segments).1 ∧ left = stream := by
  unfold peekmsg at read
  cases received : stream.recvmsg count signal with
  | blocks =>
      rw [received] at read
      cases read
  | interrupted =>
      rw [received] at read
      cases read
  | delivers found rights' behind =>
      rw [received] at read
      cases read
      exact ⟨(recvmsg_delivers received).1, rfl⟩

/-- At the end of the stream every read returns nothing. -/
theorem peekmsg_eof {count : Nat} :
    peekmsg (⟨[], true⟩ : Stream δ) count signal = .delivers [] [] ⟨[], true⟩ := by
  cases count <;> simp [peekmsg, recvmsg, takeBytes]

/-- With nothing to read, a read waits or is interrupted. -/
theorem peekmsg_empty {count : Nat} (positive : 0 < count) :
    peekmsg (⟨[], false⟩ : Stream δ) count signal =
      if signal = true then .interrupted else .blocks := by
  cases count with
  | zero => exact (lt_irrefl _ positive).elim
  | succ count => cases signal <;> simp [peekmsg, recvmsg, takeBytes]

end

end Stream

end Wire
