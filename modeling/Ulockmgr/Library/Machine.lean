import Mathlib.Order.WellFounded

/-!
# Labelled machines and their runs

A machine is an enabling predicate and a total successor function over labels.
Every result about a run is an induction over its steps, packaged here once:
an invariant holds initially and along every step; a run may be restricted to
steps that meet a condition on the state before the step; and a measure that
some enabled step always decreases gives a run to the goal.
-/

namespace Transition

structure Machine (σ α : Type*) where
  Initial : σ → Prop
  Enabled : σ → α → Prop
  next : σ → α → σ

namespace Machine

variable {σ α : Type*} (M : Machine σ α)

/-- States reached by runs whose steps all meet `Good` before they are taken. -/
inductive ReachableVia (Good : σ → α → Prop) : σ → Prop where
  | initial {state : σ} (starts : M.Initial state) : ReachableVia Good state
  | step {state : σ} {label : α} (reached : ReachableVia Good state)
      (enabled : M.Enabled state label) (good : Good state label) :
      ReachableVia Good (M.next state label)

def Reachable : σ → Prop := M.ReachableVia fun _ _ => True

variable {M}

theorem ReachableVia.mono {Good Weaker : σ → α → Prop}
    (weaken : ∀ state label, Good state label → Weaker state label) {state : σ}
    (reached : M.ReachableVia Good state) : M.ReachableVia Weaker state := by
  induction reached with
  | initial starts => exact .initial starts
  | step _ enabled good ih => exact .step ih enabled (weaken _ _ good)

theorem ReachableVia.reachable {Good : σ → α → Prop} {state : σ}
    (reached : M.ReachableVia Good state) : M.Reachable state :=
  reached.mono fun _ _ _ => trivial

/-- The invariant rule for runs restricted to good steps. -/
theorem ReachableVia.invariant {Good : σ → α → Prop} {Inv : σ → Prop}
    (base : ∀ state, M.Initial state → Inv state)
    (preserved : ∀ state label, Inv state → M.Enabled state label → Good state label →
      Inv (M.next state label))
    {state : σ} (reached : M.ReachableVia Good state) : Inv state := by
  induction reached with
  | initial starts => exact base _ starts
  | step _ enabled good ih => exact preserved _ _ ih enabled good

/-- The invariant rule for all runs. -/
theorem Reachable.invariant {Inv : σ → Prop}
    (base : ∀ state, M.Initial state → Inv state)
    (preserved : ∀ state label, Inv state → M.Enabled state label → Inv (M.next state label))
    {state : σ} (reached : M.Reachable state) : Inv state :=
  ReachableVia.invariant base (fun state label inv enabled _ => preserved state label inv enabled)
    reached

/-! ## Going on from a state -/

variable (M) in
/-- The machine that goes on from a given state. -/
def after (state : σ) : Machine σ α := { M with Initial := fun first => first = state }

theorem Reachable.trans {first last : σ} (reached : M.Reachable first)
    (continued : (M.after first).Reachable last) : M.Reachable last := by
  induction continued with
  | initial starts =>
      cases starts
      exact reached
  | step _ enabled _ ih => exact .step ih enabled trivial

theorem ReachableVia.trans {Good : σ → α → Prop} {state middle last : σ}
    (reached : (M.after state).ReachableVia Good middle)
    (continued : (M.after middle).ReachableVia Good last) :
    (M.after state).ReachableVia Good last := by
  induction continued with
  | initial starts =>
      cases starts
      exact reached
  | step _ enabled good ih => exact .step ih enabled good

theorem ReachableVia.cons {Good : σ → α → Prop} {state last : σ} {label : α}
    (enabled : M.Enabled state label) (good : Good state label)
    (continued : (M.after (M.next state label)).ReachableVia Good last) :
    (M.after state).ReachableVia Good last := by
  induction continued with
  | initial starts =>
      cases starts
      exact .step (.initial rfl) enabled good
  | step _ enabled good ih => exact .step ih enabled good

/-- The progress rule: where some good step always decreases a measure, a run goes on to
the goal. -/
theorem exists_reachableVia_of_measure {Good : σ → α → Prop} {Inv Goal : σ → Prop} {β : Type*}
    [LT β] [WellFoundedLT β] (measure : σ → β)
    (decreases : ∀ state, Inv state → Goal state ∨ ∃ label, M.Enabled state label ∧
      Good state label ∧ Inv (M.next state label) ∧ measure (M.next state label) < measure state)
    (state : σ) (inv : Inv state) :
    ∃ last, (M.after state).ReachableVia Good last ∧ Inv last ∧ Goal last := by
  induction bound : measure state using WellFoundedLT.induction generalizing state with
  | ind value ih =>
      rcases decreases state inv with goal | ⟨label, enabled, good, kept, less⟩
      · exact ⟨state, .initial rfl, inv, goal⟩
      · obtain ⟨last, continued, final⟩ := ih _ (bound ▸ less) _ kept rfl
        exact ⟨last, .cons enabled good continued, final⟩

/-! ## Runs by position -/

variable (M) in
/-- A run of `n` steps, from any state. -/
structure Run (n : Nat) where
  state : Nat → σ
  label : Nat → α
  enabled : ∀ i < n, M.Enabled (state i) (label i)
  follows : ∀ i < n, state (i + 1) = M.next (state i) (label i)

/-! ## Recording what the steps of a run show -/

variable (M) in
/-- The machine with a record of what is observed at its steps. -/
def recording {β : Type*} (observe : σ → α → List β) : Machine (σ × List β) α where
  Initial state := M.Initial state.1 ∧ state.2 = []
  Enabled state label := M.Enabled state.1 label
  next state label := (M.next state.1 label, state.2 ++ observe state.1 label)

theorem Reachable.unrecorded {β : Type*} {observe : σ → α → List β} {state : σ × List β}
    (reached : (M.recording observe).Reachable state) : M.Reachable state.1 := by
  induction reached with
  | initial starts => exact .initial starts.1
  | step _ enabled _ ih => exact .step ih enabled trivial

theorem Reachable.recorded {β : Type*} (observe : σ → α → List β) {state : σ}
    (reached : M.Reachable state) : ∃ record, (M.recording observe).Reachable (state, record) := by
  induction reached with
  | initial starts => exact ⟨[], .initial ⟨starts, rfl⟩⟩
  | @step state label _ enabled _ ih =>
      obtain ⟨record, before⟩ := ih
      exact ⟨record ++ observe state label, .step before enabled trivial⟩

/-! ## Executing a list of labels -/

section Exec
variable (M) (Good : σ → α → Prop) [∀ state label, Decidable (M.Enabled state label)]
  [∀ state label, Decidable (Good state label)]

/-- Execute the labels in order; `none` when one of them is not enabled or not good. -/
def exec : List α → σ → Option σ
  | [], state => some state
  | label :: rest, state =>
      if M.Enabled state label ∧ Good state label then exec rest (M.next state label) else none

variable {M Good}

theorem exec_reachableVia {labels : List α} {first last : σ} (reached : M.ReachableVia Good first)
    (ran : M.exec Good labels first = some last) : M.ReachableVia Good last := by
  induction labels generalizing first with
  | nil =>
      cases ran
      exact reached
  | cons label rest ih =>
      unfold exec at ran
      split at ran
      · next taken => exact ih (.step reached taken.1 taken.2) ran
      · cases ran

/-- Where every label of the list can be taken, the last state is known. -/
theorem exec_eq_foldl {labels : List α} {first : σ}
    (ran : (M.exec Good labels first).isSome = true) :
    M.exec Good labels first = some (labels.foldl M.next first) := by
  induction labels generalizing first with
  | nil => rfl
  | cons label rest ih =>
      unfold exec at ran ⊢
      split at ran
      · next taken =>
          rw [if_pos taken]
          exact ih ran
      · cases ran

/-- What every label of the list preserves holds at the end. -/
theorem exec_invariant (Inv : σ → Prop) {labels : List α} {first last : σ} (starts : Inv first)
    (preserved : ∀ label ∈ labels, ∀ state, Inv state → Inv (M.next state label))
    (ran : M.exec Good labels first = some last) : Inv last := by
  induction labels generalizing first with
  | nil =>
      cases ran
      exact starts
  | cons label rest ih =>
      unfold exec at ran
      split at ran
      · have kept := preserved label List.mem_cons_self first starts
        exact ih kept (fun later member => preserved later (List.mem_cons_of_mem _ member)) ran
      · cases ran

/-- A closed run that ends in a state with the given property. -/
theorem exists_of_exec (labels : List α) {first : σ} {P : σ → Prop} [DecidablePred P]
    (ran : (M.exec Good labels first).any (fun last => decide (P last)) = true) :
    ∃ last, M.exec Good labels first = some last ∧ P last := by
  cases final : M.exec Good labels first with
  | none => rw [final] at ran; cases ran
  | some last =>
      rw [final] at ran
      exact ⟨last, rfl, of_decide_eq_true ran⟩

theorem exists_reachableVia_of_exec (labels : List α) {first : σ} {P : σ → Prop}
    [DecidablePred P] (starts : M.Initial first)
    (ran : (M.exec Good labels first).any (fun last => decide (P last)) = true) :
    ∃ last, M.ReachableVia Good last ∧ P last := by
  obtain ⟨last, final, holds⟩ := exists_of_exec labels ran
  exact ⟨last, exec_reachableVia (.initial starts) final, holds⟩

end Exec

theorem exists_reachable_of_exec [∀ state label, Decidable (M.Enabled state label)]
    (labels : List α) {first : σ} {P : σ → Prop} [DecidablePred P] (starts : M.Initial first)
    (ran : (M.exec (fun _ _ => True) labels first).any (fun last => decide (P last)) = true) :
    ∃ last, M.Reachable last ∧ P last :=
  exists_reachableVia_of_exec labels starts ran

theorem reachable_foldl [∀ state label, Decidable (M.Enabled state label)] (labels : List α)
    {first : σ} (starts : M.Initial first)
    (ran : (M.exec (fun _ _ => True) labels first).isSome = true) :
    M.Reachable (labels.foldl M.next first) :=
  exec_reachableVia (.initial starts) (exec_eq_foldl ran)

end Machine

end Transition
