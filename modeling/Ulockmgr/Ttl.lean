import Ulockmgr.Library.Timer
import Ulockmgr.Messages

/-!
# The TTL of an owner

`DaemonOwner::start` waits for tokens from the receiving loop, and tries to exit when
none comes for the TTL.  The receiving loop sends a token for each message, whatever
message it is, so the pings of the cleanup thread count as well.
-/

namespace Ulockmgr.Ttl

/-- Messages with the time of their arrival. -/
structure Arrivals where
  list : List (Nat × Message)
  ordered : (list.map Prod.fst).Pairwise (· ≤ ·)

/-- How `ttl_recv.recv_timeout(ttl)` returns. -/
inductive Recv where
  | ok (time : Nat) (rest : List (Nat × Message))
  | timeout (time : Nat)

/-- `recv_timeout`, called at the given time, against the `try_send` that the receiving loop makes
for each message.  The token of a message that finds the channel full is lost, but then
the call returns at the same time for the token that fills it. -/
def recvTimeout (ttl called : Nat) : List (Nat × Message) → Recv
  | [] => .timeout (called + ttl)
  | (time, _) :: rest =>
      if time ≤ called + ttl then .ok (max called time) rest else .timeout (called + ttl)

/-- When the loop of `start` first gets to `try_exit`, from a call of `recv_timeout` on; there are
at most `fuel` tokens. -/
def tryExitAt (ttl : Nat) : Nat → Nat → List (Nat × Message) → Option Nat
  | 0, _, _ => none
  | fuel + 1, called, arrivals =>
      match recvTimeout ttl called arrivals with
      | .ok time rest => tryExitAt ttl fuel time rest
      | .timeout time => some time

namespace Arrivals

def firstTryExit (ttl : Nat) (arrivals : Arrivals) : Option Nat :=
  tryExitAt ttl (arrivals.list.length + 1) 0 arrivals.list

/-- All times of arrival. -/
def times (arrivals : Arrivals) : List Nat := arrivals.list.map Prod.fst

def isPing (message : Message) : Bool := message = .ping

/-- The messages other than `Ping`. -/
def withoutPings (arrivals : Arrivals) : Arrivals where
  list := arrivals.list.filter fun arrival => ¬ isPing arrival.2
  ordered := arrivals.ordered.sublist (List.filter_sublist.map _)

end Arrivals

theorem tryExitAt_eq (ttl : Nat) {fuel : Nat} {arrivals : List (Nat × Message)}
    (enough : arrivals.length < fuel) (called : Nat) :
    tryExitAt ttl fuel called arrivals =
      some (Timer.last ttl called (arrivals.map Prod.fst) + ttl) := by
  induction arrivals generalizing fuel called with
  | nil =>
      obtain ⟨fuel, rfl⟩ := Nat.exists_eq_succ_of_ne_zero (Nat.ne_of_gt enough)
      rfl
  | cons arrival rest ih =>
      obtain ⟨fuel, rfl⟩ := Nat.exists_eq_succ_of_ne_zero (Nat.ne_of_gt (Nat.zero_lt_of_lt enough))
      rw [Nat.succ_eq_add_one, tryExitAt, recvTimeout, List.map_cons, Timer.last]
      by_cases within : arrival.1 ≤ called + ttl
      · simp only [if_pos within]
        exact ih (Nat.lt_of_succ_lt_succ enough) _
      · simp only [if_neg within]

namespace Arrivals

variable (ttl : Nat) (arrivals : Arrivals)

theorem firstTryExit_eq :
    arrivals.firstTryExit ttl = some (Timer.last ttl 0 arrivals.times + ttl) :=
  tryExitAt_eq ttl (Nat.lt_succ_self _) 0

theorem firstGap :
    Timer.FirstGap ttl 0 arrivals.times (Timer.last ttl 0 arrivals.times) :=
  Timer.firstGap_last arrivals.ordered fun _ _ => Nat.zero_le _

theorem mem_withoutPings {time : Nat} :
    time ∈ arrivals.withoutPings.times ↔ ∃ message ≠ .ping, (time, message) ∈ arrivals.list := by
  simp only [times, withoutPings, List.mem_map, List.mem_filter, isPing]
  constructor
  · rintro ⟨⟨_, message⟩, ⟨member, other⟩, rfl⟩
    exact ⟨message, by simpa using other, member⟩
  · rintro ⟨message, other, member⟩
    exact ⟨(time, message), ⟨member, by simpa using other⟩, rfl⟩

theorem mem_times {time : Nat} :
    time ∈ arrivals.times ↔
      time ∈ arrivals.withoutPings.times ∨ (time, Message.ping) ∈ arrivals.list := by
  rw [mem_withoutPings]
  simp only [times, List.mem_map]
  constructor
  · rintro ⟨⟨_, message⟩, member, rfl⟩
    by_cases ping : message = .ping
    · exact .inr (ping ▸ member)
    · exact .inl ⟨message, ping, member⟩
  · rintro (⟨message, -, member⟩ | member)
    · exact ⟨_, member, rfl⟩
    · exact ⟨_, member, rfl⟩

/-- No ping comes behind the first of the other messages (or the start) that none of them follows within
the TTL, until the TTL has passed. -/
def Unpinged : Prop :=
  ∀ c, Timer.FirstGap ttl 0 arrivals.withoutPings.times c →
    ∀ time, (time, Message.ping) ∈ arrivals.list → c < time → c + ttl < time

variable {ttl arrivals} in
/-- With no ping in the first gap between the other messages, that is the first gap of all. -/
theorem Unpinged.firstGap (unpinged : arrivals.Unpinged ttl) {c : Nat}
    (gap : Timer.FirstGap ttl 0 arrivals.withoutPings.times c) :
    Timer.FirstGap ttl 0 arrivals.times c where
  here := gap.here.imp_right fun member => arrivals.mem_times.mpr (.inl member)
  quiet := by
    intro time member after
    rcases arrivals.mem_times.mp member with other | ping
    · exact gap.quiet time other after
    · exact unpinged c gap time ping after
  first := by
    intro b _ less
    -- a ping is no further from the next message than the message in front of it
    obtain ⟨d, known, before, greatest⟩ := Timer.exists_last_le arrivals.withoutPings.times b
    obtain ⟨time, member, after, within⟩ := gap.first d known (Nat.lt_of_le_of_lt before less)
    refine ⟨time, arrivals.mem_times.mpr (.inl member), ?_, by omega⟩
    by_contra early
    have bound := greatest time member (by omega)
    omega

end Arrivals

/-- The pings make no difference to the first attempt to exit exactly when none of them comes in
the first gap between the other messages that is longer than the TTL, before the TTL has
passed. -/
theorem first_try_exit_iff (ttl : Nat) (arrivals : Arrivals) :
    arrivals.firstTryExit ttl = arrivals.withoutPings.firstTryExit ttl ↔ arrivals.Unpinged ttl := by
  have gap := arrivals.firstGap ttl
  have gap' := arrivals.withoutPings.firstGap ttl
  rw [arrivals.firstTryExit_eq, arrivals.withoutPings.firstTryExit_eq]
  constructor
  · intro same c first time ping after
    have equal : Timer.last ttl 0 arrivals.times = Timer.last ttl 0 arrivals.withoutPings.times :=
      Nat.add_right_cancel (Option.some.inj same)
    obtain rfl := first.unique gap'
    rw [equal] at gap
    exact gap.quiet time (arrivals.mem_times.mpr (.inr ping)) after
  · intro unpinged
    rw [gap.unique (unpinged.firstGap gap')]

/-! ## The pings of the cleanup thread -/

/-- Nothing but the pings of the cleanup thread, `n` of them. -/
def cleanupPings (period n : Nat) : Arrivals where
  list := (List.range n).map fun k => ((k + 1) * period, .ping)
  ordered := by
    rw [List.map_map, List.pairwise_map]
    refine List.pairwise_lt_range.imp fun less => ?_
    exact Nat.mul_le_mul_right period (Nat.succ_le_succ (Nat.le_of_lt less))

theorem times_cleanupPings (period n : Nat) :
    (cleanupPings period n).times = (List.range n).map fun k => (k + 1) * period := by
  simp [Arrivals.times, cleanupPings, List.map_map, Function.comp_def]

/-- Pings that come within the TTL keep an owner that nobody uses. -/
theorem firstTryExit_cleanupPings {ttl period : Nat} (often : period ≤ ttl) (n : Nat) :
    (cleanupPings period n).firstTryExit ttl = some (n * period + ttl) := by
  have gap : Timer.FirstGap ttl 0 (cleanupPings period n).times (n * period) := by
    rw [times_cleanupPings]
    refine ⟨?_, ?_, ?_⟩
    · cases n with
      | zero => exact .inl (Nat.zero_mul period)
      | succ n => exact .inr (List.mem_map.mpr ⟨n, List.mem_range.mpr (Nat.lt_succ_self n), rfl⟩)
    · intro time member after
      obtain ⟨k, low, rfl⟩ := List.mem_map.mp member
      have bound : (k + 1) * period ≤ n * period :=
        Nat.mul_le_mul_right period (Nat.succ_le_of_lt (List.mem_range.mp low))
      omega
    · intro b known less
      obtain ⟨j, rfl⟩ : ∃ j, b = j * period := by
        rcases known with rfl | member
        · exact ⟨0, (Nat.zero_mul period).symm⟩
        · obtain ⟨k, -, rfl⟩ := List.mem_map.mp member
          exact ⟨k + 1, rfl⟩
      have low : j < n := Nat.lt_of_mul_lt_mul_right less
      have positive : 0 < period := Nat.pos_of_mul_pos_left (Nat.zero_lt_of_lt less)
      refine ⟨(j + 1) * period, List.mem_map.mpr ⟨j, List.mem_range.mpr low, rfl⟩, ?_, ?_⟩ <;>
        rw [Nat.succ_mul] <;> omega
  rw [(cleanupPings period n).firstTryExit_eq, gap.unique ((cleanupPings period n).firstGap ttl)]

/-- A TTL of five seconds and a ping each second: an owner that could leave after five seconds
is still there after twelve. -/
theorem pings_delay_exit :
    (cleanupPings 1 8).firstTryExit 5 = some 13 ∧
      (cleanupPings 1 8).withoutPings.firstTryExit 5 = some 5 := by
  decide +kernel

end Ulockmgr.Ttl
