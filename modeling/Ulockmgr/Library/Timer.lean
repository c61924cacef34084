import Mathlib.Data.List.Basic

/-!
# A timer that is set back

A timer runs for a fixed time and is set back by each event that comes in time.  It
fires after the first gap between the events that is longer than its time.
-/

namespace Timer

/-- The last time the timer is set, when it is set at `start` and again by the events. -/
def last (ttl : Nat) : Nat → List Nat → Nat
  | start, [] => start
  | start, time :: rest => if time ≤ start + ttl then last ttl (max start time) rest else start

/-- The first of the given times behind which nothing comes within `ttl`. -/
structure FirstGap (ttl start : Nat) (times : List Nat) (c : Nat) : Prop where
  here : c = start ∨ c ∈ times
  quiet : ∀ time ∈ times, c < time → c + ttl < time
  first : ∀ b, b = start ∨ b ∈ times → b < c → ∃ time ∈ times, b < time ∧ time ≤ b + ttl

theorem FirstGap.unique {ttl start : Nat} {times : List Nat} {b c : Nat}
    (first : FirstGap ttl start times b) (other : FirstGap ttl start times c) : b = c := by
  rcases Nat.lt_trichotomy b c with less | same | greater
  · obtain ⟨time, member, after, within⟩ := other.first b first.here less
    have late := first.quiet time member after
    omega
  · exact same
  · obtain ⟨time, member, after, within⟩ := first.first c other.here greater
    have late := other.quiet time member after
    omega

/-- The timer fires after the first gap. -/
theorem firstGap_last {ttl start : Nat} {times : List Nat} (ordered : times.Pairwise (· ≤ ·))
    (later : ∀ time ∈ times, start ≤ time) : FirstGap ttl start times (last ttl start times) := by
  induction times generalizing start with
  | nil =>
      refine ⟨.inl rfl, fun time member => absurd member List.not_mem_nil, ?_⟩
      rintro b (rfl | member) less
      · exact (Nat.lt_irrefl _ less).elim
      · cases member
  | cons time rest ih =>
      obtain ⟨bounds, ordered'⟩ := List.pairwise_cons.mp ordered
      have from_ : start ≤ time := later time List.mem_cons_self
      by_cases within : time ≤ start + ttl
      · have gap := ih ordered' bounds
        rw [last, if_pos within, Nat.max_eq_right from_]
        generalize last ttl time rest = c at gap
        have above : time ≤ c := by
          rcases gap.here with rfl | member
          · exact Nat.le_refl _
          · exact bounds c member
        refine ⟨?_, ?_, ?_⟩
        · rcases gap.here with rfl | member
          · exact .inr List.mem_cons_self
          · exact .inr (List.mem_cons_of_mem _ member)
        · intro t member after
          rcases List.mem_cons.mp member with rfl | old
          · omega
          · exact gap.quiet t old after
        · intro b known less
          by_cases short : b < time
          · obtain rfl : b = start := by
              rcases known with same | member
              · exact same
              · rcases List.mem_cons.mp member with rfl | old
                · omega
                · have := bounds b old
                  omega
            exact ⟨time, List.mem_cons_self, short, within⟩
          · have known' : b = time ∨ b ∈ rest := by
              rcases known with rfl | member
              · exact .inl (by omega)
              · exact List.mem_cons.mp member
            obtain ⟨t, member, after, close⟩ := gap.first b known' less
            exact ⟨t, List.mem_cons_of_mem _ member, after, close⟩
      · rw [last, if_neg within]
        refine ⟨.inl rfl, ?_, ?_⟩
        · intro t member after
          rcases List.mem_cons.mp member with rfl | old
          · omega
          · have := bounds t old
            omega
        · intro b known less
          rcases known with rfl | member
          · exact (Nat.lt_irrefl _ less).elim
          · have := later b member
            omega

/-- The last of the given times that is not later than `b`. -/
theorem exists_last_le (times : List Nat) (b : Nat) :
    ∃ d, (d = 0 ∨ d ∈ times) ∧ d ≤ b ∧ ∀ time ∈ times, time ≤ b → time ≤ d := by
  induction times with
  | nil => exact ⟨0, .inl rfl, Nat.zero_le b, fun time member => absurd member List.not_mem_nil⟩
  | cons time rest ih =>
      obtain ⟨d, known, before, greatest⟩ := ih
      by_cases better : time ≤ b ∧ d ≤ time
      · refine ⟨time, .inr List.mem_cons_self, better.1, fun t member low => ?_⟩
        rcases List.mem_cons.mp member with rfl | old
        · exact Nat.le_refl t
        · exact Nat.le_trans (greatest t old low) better.2
      · refine ⟨d, known.imp_right (List.mem_cons_of_mem _), before, fun t member low => ?_⟩
        rcases List.mem_cons.mp member with rfl | old
        · omega
        · exact greatest t old low

end Timer
