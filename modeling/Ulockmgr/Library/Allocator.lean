import Mathlib.Data.Finset.Card
import Mathlib.Data.Nat.Count
import Mathlib.Data.UInt

/-!
# Numbers from a wrapping counter

A table whose keys come from a 64-bit counter.  A caller fetches a number, which
advances the counter, and inserts its value later if the number is not in use; in between
other callers fetch and insert, and entries are removed.
-/

namespace Allocation

@[ext] structure State (κ ν : Type) where
  counter : UInt64
  /-- The number a caller has fetched and not tried yet. -/
  candidate : κ → Option UInt64
  entries : UInt64 → Option ν

inductive Event (κ ν : Type) where
  | fetch (caller : κ)
  | insert (caller : κ) (value : ν)
  | remove (id : UInt64)
  | other

def Event.isFetch {κ ν : Type} : Event κ ν → Bool
  | .fetch _ => true
  | _ => false

/-- The entries after an insertion, which changes nothing where there is an entry. -/
def bind {ν : Type} (entries : UInt64 → Option ν) (id : UInt64) (value : ν) : UInt64 → Option ν :=
  match entries id with
  | none => Function.update entries id (some value)
  | some _ => entries

section
variable {κ ν : Type} [DecidableEq κ]

def apply (s : State κ ν) : Event κ ν → State κ ν
  | .fetch caller =>
      { s with
        counter := s.counter + 1
        candidate := Function.update s.candidate caller (some s.counter) }
  | .insert caller value =>
      match s.candidate caller with
      | none => s
      | some id =>
          { s with
            candidate := Function.update s.candidate caller none
            entries := bind s.entries id value }
  | .remove id => { s with entries := Function.update s.entries id none }
  | .other => s

/-- The event gives the caller the number `id` for its value. -/
def Allocates (s : State κ ν) (event : Event κ ν) (caller : κ) (value : ν) (id : UInt64) : Prop :=
  event = .insert caller value ∧ s.candidate caller = some id ∧ s.entries id = none

/-! ## One event -/

theorem bind_kept {entries : UInt64 → Option ν} {id : UInt64} {value : ν}
    (present : entries id = some value) (other : UInt64) (newer : ν) :
    bind entries other newer id = some value := by
  cases found : entries other with
  | none =>
      have different : id ≠ other := by
        rintro rfl
        rw [present] at found
        cases found
      simp only [bind, found, Function.update_of_ne different, present]
  | some _ => simp only [bind, found, present]

theorem bind_vacant {entries : UInt64 → Option ν} {id : UInt64} (vacant : entries id = none)
    (value : ν) : bind entries id value id = some value := by
  simp [bind, vacant]

theorem apply_insert (s : State κ ν) (caller : κ) (value : ν) :
    apply s (.insert caller value) =
      match s.candidate caller with
      | none => s
      | some id =>
          { s with
            candidate := Function.update s.candidate caller none
            entries := bind s.entries id value } := rfl

/-- Only a removal takes an entry away. -/
theorem apply_entries {s : State κ ν} {id : UInt64} {value : ν}
    (present : s.entries id = some value) {event : Event κ ν} (kept : event ≠ .remove id) :
    (apply s event).entries id = some value := by
  cases event with
  | fetch caller => exact present
  | insert caller newer =>
      rw [apply_insert]
      cases s.candidate caller with
      | none => exact present
      | some other => exact bind_kept present other newer
  | remove other =>
      have different : id ≠ other := fun same => kept (by rw [same])
      exact (Function.update_of_ne different _ _).trans present
  | other => exact present

theorem apply_counter (s : State κ ν) (event : Event κ ν) :
    (apply s event).counter = s.counter + if event.isFetch then 1 else 0 := by
  cases event with
  | insert caller value =>
      rw [apply_insert]
      cases s.candidate caller <;> simp [Event.isFetch]
  | _ => simp [apply, Event.isFetch]

/-- A candidate is the number fetched last. -/
theorem apply_candidate {s : State κ ν} {event : Event κ ν} {caller : κ} {id : UInt64}
    (candidate : (apply s event).candidate caller = some id) :
    event = .fetch caller ∧ s.counter = id ∨ s.candidate caller = some id := by
  cases event with
  | fetch other =>
      by_cases same : caller = other
      · subst same
        exact .inl ⟨rfl, by simpa [apply] using candidate⟩
      · exact .inr (by simpa [apply, Function.update_of_ne same] using candidate)
  | insert other value =>
      refine .inr ?_
      rw [apply_insert] at candidate
      cases tried : s.candidate other with
      | none =>
          rw [tried] at candidate
          exact candidate
      | some number =>
          rw [tried] at candidate
          by_cases same : caller = other
          · subst same
            simp at candidate
          · simpa [Function.update_of_ne same] using candidate
  | remove _ => exact .inr candidate
  | other => exact .inr candidate

theorem Allocates.spent {s : State κ ν} {event : Event κ ν} {caller : κ} {value : ν} {id : UInt64}
    (allocates : Allocates s event caller value id) : (apply s event).candidate caller = none := by
  obtain ⟨rfl, candidate, -⟩ := allocates
  simp [apply, candidate]

theorem Allocates.bound {s : State κ ν} {event : Event κ ν} {caller : κ} {value : ν} {id : UInt64}
    (allocates : Allocates s event caller value id) : (apply s event).entries id = some value := by
  obtain ⟨rfl, candidate, vacant⟩ := allocates
  simp only [apply, candidate]
  exact bind_vacant vacant value

/-! ## Runs -/

variable {state : Nat → State κ ν} {event : Nat → Event κ ν} {n : Nat}
  (follows : ∀ i < n, state (i + 1) = apply (state i) (event i))
include follows

theorem entries_kept {i j : Nat} (later : i ≤ j) (within : j ≤ n) {id : UInt64} {value : ν}
    (present : (state i).entries id = some value)
    (kept : ∀ k, i ≤ k → k < j → event k ≠ .remove id) : (state j).entries id = some value := by
  induction j, later using Nat.le_induction with
  | base => exact present
  | succ j later ih =>
      have before := ih (Nat.le_of_succ_le within) fun k from_ below => kept k from_ (by omega)
      rw [follows j within]
      exact apply_entries before (kept j later (Nat.lt_succ_self j))

/-- A number that is given out twice was removed in between. -/
theorem removed_between {i j : Nat} (later : i < j) (within : j < n) {caller caller' : κ}
    {value value' : ν} {id : UInt64} (first : Allocates (state i) (event i) caller value id)
    (second : Allocates (state j) (event j) caller' value' id) :
    ∃ k, i < k ∧ k < j ∧ event k = .remove id := by
  by_contra none
  have bound := first.bound
  rw [← follows i (later.trans within)] at bound
  have kept := entries_kept follows later within.le bound fun k after before removed =>
    none ⟨k, after, before, removed⟩
  rw [second.2.2] at kept
  cases kept

/-- A candidate stays what its last fetch returned. -/
theorem fetched_before {i : Nat} (within : i ≤ n) {caller : κ} {id : UInt64}
    (idle : (state 0).candidate caller = none) (candidate : (state i).candidate caller = some id) :
    ∃ p < i, event p = .fetch caller ∧ (state p).counter = id ∧
      ∀ k, p < k → k ≤ i → (state k).candidate caller = some id := by
  induction i with
  | zero =>
      rw [idle] at candidate
      cases candidate
  | succ i ih =>
      have step := candidate
      rw [follows i within] at step
      rcases apply_candidate step with ⟨fetch, counter⟩ | earlier
      · refine ⟨i, Nat.lt_succ_self i, fetch, counter, fun k after before => ?_⟩
        rwa [show k = i + 1 by omega]
      · obtain ⟨p, before, fetch, counter, since⟩ := ih (Nat.le_of_succ_le within) earlier
        refine ⟨p, Nat.lt_succ_of_lt before, fetch, counter, fun k after until_ => ?_⟩
        rcases Nat.lt_or_eq_of_le until_ with below | rfl
        · exact since k after (Nat.le_of_lt_succ below)
        · exact candidate

theorem counter_eq {i : Nat} (within : i ≤ n) :
    (state i).counter =
      (state 0).counter + UInt64.ofNat (Nat.count (fun k => (event k).isFetch) i) := by
  induction i with
  | zero => simp
  | succ i ih =>
      rw [follows i within, apply_counter, ih (Nat.le_of_succ_le within), Nat.count_succ]
      split <;> simp [add_assoc]

omit follows in
/-- A counter that goes up by one takes every value below the one it has. -/
theorem exists_count_eq {p : Nat → Prop} [DecidablePred p] {target last : Nat}
    (below : target < Nat.count p last) : ∃ k < last, p k ∧ Nat.count p k = target := by
  induction last with
  | zero => simp at below
  | succ last ih =>
      by_cases earlier : target < Nat.count p last
      · obtain ⟨k, before, found⟩ := ih earlier
        exact ⟨k, Nat.lt_succ_of_lt before, found⟩
      · rw [Nat.count_succ] at below
        split at below
        · next here => exact ⟨last, Nat.lt_succ_self last, here, by omega⟩
        · omega

/-- Two fetches return the same number only if all others were fetched in between. -/
theorem all_fetched_between {p q : Nat} (later : p < q) (within : q ≤ n) {id : UInt64}
    (first : (event p).isFetch) (same : (state p).counter = id) (again : (state q).counter = id)
    {value : UInt64} (other : value ≠ id) :
    ∃ k, p < k ∧ k < q ∧ (event k).isFetch ∧ (state k).counter = value := by
  set fetches : Nat → Nat := Nat.count fun k => (event k).isFetch with fetches_eq
  have counter : ∀ i ≤ n, (state i).counter = (state 0).counter + UInt64.ofNat (fetches i) :=
    fun i bound => counter_eq follows bound
  have more : fetches p < fetches q := Nat.count_strict_mono first later
  have rounds : UInt64.ofNat (fetches q - fetches p) = 0 := by
    have equal := (counter q within).symm.trans (again.trans (same.symm.trans (counter p (by omega))))
    rw [show fetches q = fetches p + (fetches q - fetches p) by omega, UInt64.ofNat_add,
      ← add_assoc] at equal
    simpa using equal
  have whole : 2 ^ 64 ≤ fetches q - fetches p := by
    have zero := congrArg UInt64.toNat rounds
    rw [UInt64.toNat_ofNat'] at zero
    exact Nat.le_of_dvd (by omega) (Nat.dvd_of_mod_eq_zero zero)
  set distance := (value - id).toNat with distance_eq
  have small : distance < 2 ^ 64 := (value - id).toNat_lt
  have positive : 0 < distance := by
    rw [Nat.pos_iff_ne_zero]
    intro zero
    exact other (sub_eq_zero.mp (UInt64.toNat_inj.mp (by simpa using zero)))
  obtain ⟨k, before, fetch, count⟩ := exists_count_eq
    (show fetches p + distance < fetches q by omega)
  have after : p < k := by
    by_contra not
    have less : fetches k ≤ fetches p := Nat.count_monotone _ (not_lt.mp not)
    simp only [fetches_eq] at less positive count
    omega
  refine ⟨k, after, before, fetch, ?_⟩
  have value_eq : UInt64.ofNat distance = value - id := by rw [distance_eq, UInt64.ofNat_toNat]
  have reached : fetches k = fetches p + distance := count
  rw [counter k (by omega), reached, UInt64.ofNat_add, ← add_assoc, ← counter p (by omega), same,
    value_eq, add_sub_cancel]

end

/-! ## The loop of one caller -/

/-- Not every one of `card + 1` numbers in a row is in use. -/
theorem exists_vacant (occupied : Finset UInt64) (room : occupied.card < 2 ^ 64) (start : UInt64) :
    ∃ k ≤ occupied.card, start + UInt64.ofNat k ∉ occupied ∧
      ∀ j < k, start + UInt64.ofNat j ∈ occupied := by
  have vacant : ∃ k ≤ occupied.card, start + UInt64.ofNat k ∉ occupied := by
    by_contra none
    push Not at none
    have injective : Set.InjOn (fun k => start + UInt64.ofNat k)
        (Finset.range (occupied.card + 1)) := by
      intro i low j high equal
      rw [Finset.mem_coe, Finset.mem_range] at low high
      have same := congrArg UInt64.toNat (add_left_cancel equal)
      rw [UInt64.toNat_ofNat', UInt64.toNat_ofNat', Nat.mod_eq_of_lt (by omega),
        Nat.mod_eq_of_lt (by omega)] at same
      exact same
    have image : (Finset.range (occupied.card + 1)).card ≤ occupied.card :=
      Finset.card_le_card_of_injOn _
        (fun k low => none k (Nat.lt_succ_iff.mp (Finset.mem_range.mp low))) injective
    rw [Finset.card_range] at image
    omega
  classical
  obtain ⟨bound, free⟩ := Nat.find_spec vacant
  refine ⟨Nat.find vacant, bound, free, fun j less => ?_⟩
  by_contra free'
  exact Nat.find_min vacant less ⟨by omega, free'⟩

end Allocation
