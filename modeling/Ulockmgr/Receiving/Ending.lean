import Ulockmgr.Receiving

/-!
# How the receiving loop is left

The two numbers at the front of the stream decide a turn.  A whole header is followed by a
read of as many bytes as it states, so the loop goes from one such place to the next one; a part of a
header in front of the end is peeked at and left where it is.
-/

namespace Ulockmgr.Receiving

open Wire (Bytes Stream Segment)

/-- The bytes of the header that `receive_raw_message` peeks at. -/
def peeked (socket : Stream Fd) : Bytes := (Stream.takeBytes headerLength socket.segments).1

def payloadLength (socket : Stream Fd) : Nat := Wire.fromLittleEndian ((peeked socket).take 8)

def fdCount (socket : Stream Fd) : Nat := Wire.fromLittleEndian ((peeked socket).drop 8)

/-- The numbers in the header at the front, if it is there, can be allocated. -/
def Fits (socket : Stream Fd) : Prop :=
  (peeked socket).length = headerLength → SizesFit (payloadLength socket) (fdCount socket)

/-- What is left once as much is read as the header states. -/
def behind (socket : Stream Fd) : Option (Stream Fd) :=
  match socket.recvmsg (headerLength + payloadLength socket) false with
  | .delivers _ _ rest => some rest
  | _ => none

/-- The places in the stream at which a header is looked for. -/
inductive Boundary : Stream Fd → Stream Fd → Prop where
  | here (socket : Stream Fd) : Boundary socket socket
  | next {socket rest last : Stream Fd} (whole : (peeked socket).length = headerLength)
      (left : behind socket = some rest) (further : Boundary rest last) : Boundary socket last

/-- Every header of the stream can be allocated. -/
def Allocatable (socket : Stream Fd) : Prop := ∀ rest, Boundary socket rest → Fits rest

/-- Behind the last frame there are bytes, but no whole header. -/
def Cut (socket : Stream Fd) : Prop :=
  ∃ rest, Boundary socket rest ∧ 0 < (peeked rest).length ∧ (peeked rest).length < headerLength

theorem length_peeked_le (socket : Stream Fd) : (peeked socket).length ≤ headerLength :=
  Stream.takeBytes_length_le headerLength socket.segments

/-! ## One turn -/

section
variable {socket : Stream Fd}

theorem peekmsg_whole (whole : (peeked socket).length = headerLength) (signal : Bool) :
    socket.peekmsg headerLength signal =
      .delivers (peeked socket) (Stream.takeBytes headerLength socket.segments).2.1 socket := by
  unfold peeked at whole
  simp [Stream.peekmsg, Stream.recvmsg, whole, peeked]

theorem receiveRawMessage_whole (whole : (peeked socket).length = headerLength) (signal : Bool) :
    receiveRawMessage socket signal =
      receiveBody socket (payloadLength socket) (fdCount socket) signal := by
  have nonempty : peeked socket ≠ [] := by
    intro empty
    rw [empty] at whole
    cases whole
  obtain ⟨byte, more, front⟩ := List.exists_cons_of_ne_nil nonempty
  have peeks := peekmsg_whole whole signal
  unfold receiveRawMessage payloadLength fdCount
  rw [front] at whole peeks ⊢
  simp only [peeks, whole, ne_eq, not_true, if_false]

theorem peekmsg_part (part : (peeked socket).length ≠ headerLength) (signal : Bool) :
    socket.peekmsg headerLength signal = .blocks ∧ socket.closed = false ∨
      socket.peekmsg headerLength signal = .interrupted ∧ signal = true ∨
      ∃ fds, socket.peekmsg headerLength signal = .delivers (peeked socket) fds socket := by
  unfold peeked at part
  simp only [Stream.peekmsg, Stream.recvmsg, part, false_or, peeked]
  by_cases delivers : (Stream.takeBytes headerLength socket.segments).2.1 ≠ [] ∨ socket.closed = true
  · rw [if_pos delivers]
    exact .inr (.inr ⟨_, rfl⟩)
  · have open_ : socket.closed = false := by
      cases closed : socket.closed with
      | true => exact (delivers (.inr closed)).elim
      | false => rfl
    rw [if_neg delivers]
    by_cases alone : socket.segments = [] ∧ signal = true
    · rw [if_pos alone]
      exact .inr (.inl ⟨rfl, alone.2⟩)
    · rw [if_neg alone]
      exact .inl ⟨rfl, open_⟩

/-- Without a whole header nothing is consumed. -/
theorem receiveRawMessage_part (part : (peeked socket).length ≠ headerLength) (signal : Bool) :
    receiveRawMessage socket signal = .blocks ∧ socket.closed = false ∨
      receiveRawMessage socket signal = .returns (.error (.os Errno.INTR)) socket ∧ signal = true ∨
      receiveRawMessage socket signal =
        .returns (.error (if peeked socket = [] then connectionTerminated else shortMessage)) socket := by
  unfold receiveRawMessage
  rcases peekmsg_part part signal with ⟨peeks, open_⟩ | ⟨peeks, signalled⟩ | ⟨fds, peeks⟩
  · simp [peeks, open_]
  · exact .inr (.inl ⟨by simp only [peeks], signalled⟩)
  · cases front : peeked socket with
    | nil => simp [peeks, front]
    | cons byte more =>
        rw [front] at part
        simp only [peeks, front, ne_eq, part, not_false_iff, if_true]
        exact .inr (.inr (by simp))

theorem turn_part (part : (peeked socket).length ≠ headerLength) :
    turn socket = .waits ∧ socket.closed = false ∨
      turn socket = if peeked socket = [] then .returns (.ok ()) else .skips socket := by
  rcases receiveRawMessage_part part false with ⟨read, open_⟩ | ⟨-, signalled⟩ | read
  · refine .inl ⟨?_, open_⟩
    unfold turn receiveRequest
    rw [read]
    rfl
  · cases signalled
  · refine .inr ?_
    rw [turn_of_error read]
    split <;> rfl

/-- With numbers that can be allocated the rest of the function does not panic. -/
theorem receiveBody_returns {bytes count : Nat} (fit : SizesFit bytes count) (signal : Bool) :
    receiveBody socket bytes count signal ≠ .panics := by
  intro panics
  unfold receiveBody at panics
  rw [if_neg (not_not.mpr fit)] at panics
  simp only at panics
  repeat' split at panics
  all_goals cases panics

/-- A frame that can be allocated is read, and so are the bytes in front of the end if
there are too few for it. -/
theorem receiveBody_whole (whole : (peeked socket).length = headerLength)
    (fit : SizesFit (payloadLength socket) (fdCount socket)) :
    receiveBody socket (payloadLength socket) (fdCount socket) false = .blocks ∧
        behind socket = none ∨
      ∃ result rest, behind socket = some rest ∧
        receiveBody socket (payloadLength socket) (fdCount socket) false = .returns result rest ∧
        ∀ error, result = .error error → Recoverable error ∧ error.kind ≠ .brokenPipe := by
  have taken := Stream.takeBytes_mono (Nat.le_add_right headerLength (payloadLength socket))
    socket.segments
  unfold peeked at whole
  rw [whole] at taken
  unfold receiveBody behind
  rw [if_neg (not_not.mpr fit)]
  cases reads : socket.recvmsg (headerLength + payloadLength socket) false with
  | blocks => simp
  | interrupted =>
      simp only [Stream.recvmsg] at reads
      split at reads
      · cases reads
      · simp at reads
  | delivers buffer fds rest =>
      have bytes : buffer = (Stream.takeBytes (headerLength + payloadLength socket)
          socket.segments).1 := by
        simp only [Stream.recvmsg] at reads
        split at reads
        · cases reads
          rfl
        · simp at reads
      rw [← bytes] at taken
      cases buffer with
      | nil => cases taken
      | cons byte more =>
          refine .inr ?_
          simp only [Option.some.injEq, exists_eq_left']
          split
          · exact ⟨_, rfl, fun error same => by cases same; exact ⟨by decide, by decide⟩⟩
          · split
            · exact ⟨_, rfl, fun error same => by cases same; exact ⟨by decide, by decide⟩⟩
            · exact ⟨_, rfl, fun error same => by cases same⟩

theorem turn_whole (whole : (peeked socket).length = headerLength)
    (fit : SizesFit (payloadLength socket) (fdCount socket)) :
    turn socket = .waits ∧ behind socket = none ∨
      ∃ rest, behind socket = some rest ∧
        (turn socket = .skips rest ∨ ∃ message reply, turn socket = .dispatches message reply rest) := by
  have read := receiveRawMessage_whole whole false
  rcases receiveBody_whole whole fit with ⟨body, nothing⟩ | ⟨result, rest, left, body, errors⟩
  · refine .inl ⟨?_, nothing⟩
    unfold turn receiveRequest
    rw [read, body]
    rfl
  · refine .inr ⟨rest, left, ?_⟩
    rw [body] at read
    cases result with
    | error error =>
        obtain ⟨recoverable, other⟩ := errors error rfl
        rw [turn_of_error read, if_neg other, if_pos recoverable]
        exact .inl rfl
    | ok content =>
        obtain ⟨buffer, fds⟩ := content
        rw [turn_of_frame read]
        cases parseRequest buffer fds with
        | ok request => exact .inr ⟨_, _, rfl⟩
        | error error => exact .inl rfl

theorem turn_unfit (whole : (peeked socket).length = headerLength)
    (unfit : ¬ SizesFit (payloadLength socket) (fdCount socket)) : turn socket = .panics := by
  have read := receiveRawMessage_whole whole false
  unfold receiveBody at read
  rw [if_pos unfit] at read
  unfold turn receiveRequest
  rw [read]
  rfl

/-- Each frame takes bytes away. -/
theorem behind_size (whole : (peeked socket).length = headerLength) {rest : Stream Fd}
    (left : behind socket = some rest) :
    Stream.size rest.segments + headerLength ≤ Stream.size socket.segments ∧
      rest.closed = socket.closed := by
  have taken := Stream.takeBytes_mono (Nat.le_add_right headerLength (payloadLength socket))
    socket.segments
  have sizes := Stream.takeBytes_size (headerLength + payloadLength socket) socket.segments
  unfold peeked at whole
  rw [whole] at taken
  unfold behind Stream.recvmsg at left
  generalize Stream.takeBytes (headerLength + payloadLength socket) socket.segments = read
    at taken sizes left
  obtain ⟨bytes, fds, segments⟩ := read
  simp only at taken sizes left
  split at left
  · next reads =>
      split at reads
      · cases reads
        cases left
        refine ⟨?_, rfl⟩
        show Stream.size segments + headerLength ≤ _
        omega
      · split at reads <;> cases reads
  · cases left

/-- In front of the end of the stream no read waits. -/
theorem behind_closed (closed : socket.closed = true) : behind socket ≠ none := by
  simp [behind, Stream.recvmsg, closed]

end

/-! ## The whole loop -/

/-- The loop ends by returning. -/
def Returns {σ : Type} (handle : σ → Message × Fd → σ) (socket : Stream Fd) (state : σ) : Prop :=
  ∃ fuel result final, loop handle fuel socket state = some (.returns result final)

/-- The loop ends in a panic. -/
def Panics {σ : Type} (handle : σ → Message × Fd → σ) (socket : Stream Fd) (state : σ) : Prop :=
  ∃ fuel final, loop handle fuel socket state = some (.panics final)

section
variable {σ : Type} (handle : σ → Message × Fd → σ)

/-- A part of a header keeps the loop busy for ever. -/
theorem loop_part {socket : Stream Fd} (some_ : peeked socket ≠ [])
    (part : (peeked socket).length ≠ headerLength) (closed : socket.closed = true) (fuel : Nat)
    (state : σ) : loop handle fuel socket state = none := by
  have again : turn socket = .skips socket := by
    rcases turn_part part with ⟨-, open_⟩ | same
    · rw [closed] at open_
      cases open_
    · rwa [if_neg some_] at same
  induction fuel with
  | zero => rfl
  | succ fuel ih => rw [loop_skips again, ih]

/-- A turn that reads a frame goes on behind it. -/
theorem loop_whole {socket rest : Stream Fd} (whole : (peeked socket).length = headerLength)
    (fit : SizesFit (payloadLength socket) (fdCount socket)) (left : behind socket = some rest)
    (state : σ) :
    ∃ next, ∀ fuel, loop handle (fuel + 1) socket state = loop handle fuel rest next := by
  rcases turn_whole whole fit with ⟨-, nothing⟩ | ⟨rest', left', reads⟩
  · rw [left] at nothing
    cases nothing
  · obtain rfl : rest' = rest := by
      rw [left] at left'
      exact (Option.some.inj left').symm
    rcases reads with skips | ⟨message, reply, dispatches⟩
    · exact ⟨state, fun fuel => loop_skips skips fuel state⟩
    · exact ⟨_, fun fuel => loop_dispatches dispatches fuel state⟩

theorem Allocatable.behind {socket rest : Stream Fd} (fits : Allocatable socket)
    (whole : (peeked socket).length = headerLength) (left : behind socket = some rest) :
    Allocatable rest :=
  fun last further => fits last (.next whole left further)

theorem Boundary.closed {socket last : Stream Fd} (boundary : Boundary socket last) :
    last.closed = socket.closed := by
  induction boundary with
  | here socket => rfl
  | next whole left _ ih => rw [ih, (behind_size whole left).2]

/-- A stream that breaks off in a header is not read to its end. -/
theorem loop_cut {socket last : Stream Fd} (boundary : Boundary socket last)
    (fits : Allocatable socket) (closed : socket.closed = true) (some_ : peeked last ≠ [])
    (part : (peeked last).length ≠ headerLength) (fuel : Nat) (state : σ) :
    loop handle fuel socket state = none := by
  induction boundary generalizing fuel state with
  | here socket => exact loop_part handle some_ part closed fuel state
  | next whole left _ ih =>
      cases fuel with
      | zero => rfl
      | succ fuel =>
          obtain ⟨next, goesOn⟩ := loop_whole handle whole (fits _ (.here _) whole) left state
          rw [goesOn fuel]
          exact ih (fits.behind whole left) ((behind_size whole left).2.trans closed) some_ part
            fuel next

/-- Every other stream is: the number of unread bytes falls with each frame. -/
theorem loop_returns {socket : Stream Fd} (fits : Allocatable socket)
    (closed : socket.closed = true) (entire : ¬ Cut socket) (state : σ) :
    Returns handle socket state := by
  induction size : Stream.size socket.segments using Nat.strongRecOn generalizing socket state with
  | ind size_ ih =>
      by_cases whole : (peeked socket).length = headerLength
      · obtain ⟨rest, left⟩ := Option.ne_none_iff_exists'.mp (behind_closed closed)
        have smaller := behind_size whole left
        have entire' : ¬ Cut rest := fun ⟨last, further, cut⟩ =>
          entire ⟨last, .next whole left further, cut⟩
        obtain ⟨next, goesOn⟩ := loop_whole handle whole (fits _ (.here _) whole) left state
        obtain ⟨fuel, result, final, ends⟩ := ih (Stream.size rest.segments)
          (by rw [← size]; simp only [headerLength] at smaller; omega) (fits.behind whole left)
          (smaller.2.trans closed) entire' next rfl
        exact ⟨fuel + 1, result, final, (goesOn fuel).trans ends⟩
      · have nothing : peeked socket = [] := by
          by_contra some_
          have few := length_peeked_le socket
          exact entire ⟨socket, .here socket, List.length_pos_iff.mpr some_,
            lt_of_le_of_ne few whole⟩
        rcases turn_part whole with ⟨-, open_⟩ | ends
        · rw [closed] at open_
          cases open_
        · rw [if_pos nothing] at ends
          exact ⟨1, .ok (), state, by rw [loop, ends]⟩

theorem unfit_of_panics {fuel : Nat} {socket : Stream Fd} {state final : σ}
    (panics : loop handle fuel socket state = some (.panics final)) :
    ∃ rest, Boundary socket rest ∧ ¬ Fits rest := by
  induction fuel generalizing socket state with
  | zero => cases panics
  | succ fuel ih =>
      by_cases whole : (peeked socket).length = headerLength
      · by_cases fit : SizesFit (payloadLength socket) (fdCount socket)
        · rcases turn_whole whole fit with ⟨waits, -⟩ | ⟨rest, left, -⟩
          · rw [loop, waits] at panics
            cases panics
          · obtain ⟨next, goesOn⟩ := loop_whole handle whole fit left state
            rw [goesOn fuel] at panics
            obtain ⟨last, further, unfit⟩ := ih panics
            exact ⟨last, .next whole left further, unfit⟩
        · exact ⟨socket, .here socket, fun fits => fit (fits whole)⟩
      · rcases turn_part whole with ⟨waits, -⟩ | same
        · rw [loop, waits] at panics
          cases panics
        · by_cases nothing : peeked socket = []
          · rw [if_pos nothing] at same
            rw [loop, same] at panics
            cases panics
          · rw [if_neg nothing] at same
            rw [loop_skips same] at panics
            exact ih panics

theorem panics_of_unfit {socket last : Stream Fd} (boundary : Boundary socket last)
    (unfit : ¬ Fits last) (state : σ) : Panics handle socket state := by
  induction boundary generalizing state with
  | here socket =>
      obtain ⟨whole, sizes⟩ := Classical.not_imp.mp unfit
      exact ⟨1, state, by rw [loop, turn_unfit whole sizes]⟩
  | @next socket rest last whole left _ ih =>
      by_cases fit : SizesFit (payloadLength socket) (fdCount socket)
      · obtain ⟨next, goesOn⟩ := loop_whole handle whole fit left state
        obtain ⟨fuel, final, panics⟩ := ih unfit next
        exact ⟨fuel + 1, final, (goesOn fuel).trans panics⟩
      · exact ⟨1, state, by rw [loop, turn_unfit whole fit]⟩

theorem not_panics_iff (socket : Stream Fd) (state : σ) :
    ¬ Panics handle socket state ↔ Allocatable socket := by
  constructor
  · intro never rest boundary
    by_contra unfit
    exact never (panics_of_unfit handle boundary unfit state)
  · intro fits panics
    obtain ⟨fuel, final, panics⟩ := panics
    obtain ⟨rest, boundary, unfit⟩ := unfit_of_panics handle panics
    exact unfit (fits rest boundary)

end

/-- On a closed stream the loop returns, unless the stream breaks off in a header. -/
theorem loop_returns_iff {σ : Type} (handle : σ → Message × Fd → σ) (segments : List (Segment Fd))
    (fits : Allocatable ⟨segments, true⟩) (state : σ) :
    Returns handle ⟨segments, true⟩ state ↔ ¬ Cut ⟨segments, true⟩ := by
  constructor
  · intro returns cut
    obtain ⟨fuel, result, final, ends⟩ := returns
    obtain ⟨last, boundary, some_, part⟩ := cut
    rw [loop_cut handle boundary fits rfl (List.length_pos_iff.mp some_) (ne_of_lt part)] at ends
    cases ends
  · intro entire
    exact loop_returns handle fits rfl entire state

instance (socket : Stream Fd) : Decidable (Fits socket) := inferInstanceAs (Decidable (_ → _))

/-- A ping in front of the end of the stream. -/
def pingFrame : Segment Fd := requestSegment 0 .ping

theorem boundary_empty {last : Stream Fd} (boundary : Boundary ⟨[], true⟩ last) :
    last = ⟨[], true⟩ := by
  cases boundary with
  | here => rfl
  | next whole => cases whole

theorem boundary_pingFrame {last : Stream Fd} (boundary : Boundary ⟨[pingFrame], true⟩ last) :
    last = ⟨[pingFrame], true⟩ ∨ last = ⟨[], true⟩ := by
  cases boundary with
  | here => exact .inl rfl
  | next whole left further =>
      obtain rfl := Option.some.inj ((by decide +kernel : behind ⟨[pingFrame], true⟩ =
        some ⟨[], true⟩).symm.trans left)
      exact .inr (boundary_empty further)

theorem ping_loop_returns :
    Returns (fun requests request => requests ++ [request]) ⟨[pingFrame], true⟩ [] := by
  refine (loop_returns_iff _ [pingFrame] ?_ []).mpr ?_
  · intro rest boundary
    rcases boundary_pingFrame boundary with rfl | rfl <;> decide +kernel
  · rintro ⟨rest, boundary, some_, part⟩
    rcases boundary_pingFrame boundary with rfl | rfl
    · exact absurd part (by decide +kernel)
    · exact absurd some_ (by decide +kernel)

/-- One byte in front of the end is peeked at for ever. -/
theorem single_byte_never_ends :
    Allocatable ⟨[⟨[0], []⟩], true⟩ ∧
      ¬ Returns (fun requests request => requests ++ [request]) ⟨[⟨[0], []⟩], true⟩ [] := by
  have part : (peeked ⟨[⟨[0], []⟩], true⟩).length ≠ headerLength := by decide
  constructor
  · intro rest boundary
    cases boundary with
    | here => exact fun whole => absurd whole part
    | next whole => exact absurd whole part
  · rintro ⟨fuel, result, final, ends⟩
    rw [loop_part _ (by decide) part rfl] at ends
    cases ends

/-- A payload of `2 ^ 63` bytes is more than a vector can hold. -/
def oversized : Segment Fd := ⟨[0, 0, 0, 0, 0, 0, 0, 128, 0, 0, 0, 0, 0, 0, 0, 0], []⟩

end Ulockmgr.Receiving
