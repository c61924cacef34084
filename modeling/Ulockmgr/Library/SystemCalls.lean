import Mathlib.Data.List.Basic

/-!
# System calls under a setting

Programs that make system calls, may fail, and change a setting of their thread for the
extent of a scope, as a guard does that puts the old setting back when it is dropped.  The
system answers each call as it likes, with the whole history before it.  The rules at
the end bound what a program does, call by call: under which setting it makes which call,
how often, and with what result it returns.
-/

namespace SystemCalls

/-- A thread: its setting, and the calls it has made, each with the setting at the time. -/
structure Thread (μ κ : Type) where
  setting : μ
  calls : List (κ × μ)

/-- The answer to the last call of a history. -/
abbrev World (μ κ ω : Type) := List (κ × μ) → ω

/-- A program that returns a value or an error, or is still running. -/
def Prog (μ κ ω ε α : Type) := World μ κ ω → Thread μ κ → Option (Except ε α) × Thread μ κ

namespace Prog

variable {μ κ ω ε α β : Type}

def pure (value : α) : Prog μ κ ω ε α := fun _ thread => (some (.ok value), thread)

def fail (error : ε) : Prog μ κ ω ε α := fun _ thread => (some (.error error), thread)

/-- Still running. -/
def running : Prog μ κ ω ε α := fun _ thread => (none, thread)

def call (what : κ) : Prog μ κ ω ε ω := fun world thread =>
  let calls := thread.calls ++ [(what, thread.setting)]
  (some (.ok (world calls)), { thread with calls := calls })

def bind (first : Prog μ κ ω ε α) (rest : α → Prog μ κ ω ε β) : Prog μ κ ω ε β :=
  fun world thread =>
    match first world thread with
    | (none, thread) => (none, thread)
    | (some (.error error), thread) => (some (.error error), thread)
    | (some (.ok value), thread) => rest value world thread

/-- A destructor: it runs when the body has returned, and cannot change the result. -/
def dropping (body : Prog μ κ ω ε α) (destructor : Prog μ κ ω ε β) : Prog μ κ ω ε α :=
  fun world thread =>
    match body world thread with
    | (none, thread) => (none, thread)
    | (some result, thread) =>
        match destructor world thread with
        | (none, thread) => (none, thread)
        | (some _, thread) => (some result, thread)

/-- The setting is changed, and put back when the body has returned. -/
def guarded (change : μ → μ) (body : Prog μ κ ω ε α) : Prog μ κ ω ε α := fun world thread =>
  match body world { thread with setting := change thread.setting } with
  | (none, last) => (none, last)
  | (some result, last) => (some result, { last with setting := thread.setting })

instance : Monad (Prog μ κ ω ε) where
  pure := pure
  bind := bind

end Prog

/-! ## Rules -/

/-- What the calls of a program may be: allowed under their setting, and at most so many that
count. -/
structure Budget (μ κ : Type) where
  Allowed : κ → μ → Prop
  counts : κ → Bool

section
variable {μ κ ω ε α β : Type}

/-- The calls that have come on top of those before. -/
def Within (budget : Budget μ κ) (n : Nat) (before after : List (κ × μ)) : Prop :=
  ∃ made, after = before ++ made ∧ (∀ call ∈ made, budget.Allowed call.1 call.2) ∧
    made.countP (fun call => budget.counts call.1) ≤ n

theorem Within.none {budget : Budget μ κ} (before : List (κ × μ)) : Within budget 0 before before :=
  ⟨[], by simp, by simp, by simp⟩

theorem Within.trans {budget : Budget μ κ} {n m : Nat} {before middle after : List (κ × μ)}
    (first : Within budget n before middle) (second : Within budget m middle after) :
    Within budget (n + m) before after := by
  obtain ⟨made, rfl, allowed, bound⟩ := first
  obtain ⟨more, rfl, allowed', bound'⟩ := second
  refine ⟨made ++ more, List.append_assoc .., ?_, ?_⟩
  · intro call member
    rcases List.mem_append.mp member with early | late
    · exact allowed call early
    · exact allowed' call late
  · rw [List.countP_append]
    exact Nat.add_le_add bound bound'

theorem Within.mono {budget : Budget μ κ} {n m : Nat} {before after : List (κ × μ)}
    (within : Within budget n before after) (le : n ≤ m) : Within budget m before after := by
  obtain ⟨made, same, allowed, bound⟩ := within
  exact ⟨made, same, allowed, Nat.le_trans bound le⟩

/-- Under a setting and in a world of the given kind a program keeps to its budget, and returns
with the setting it was started with and a value as described. -/
def Spec (Real : World μ κ ω → Prop) (budget : Budget μ κ) (setting : μ) (n : Nat)
    (prog : Prog μ κ ω ε α) (Post : α → Prop) : Prop :=
  ∀ world, Real world → ∀ thread : Thread μ κ, thread.setting = setting →
    Within budget n thread.calls (prog world thread).2.calls ∧
      ∀ result, (prog world thread).1 = some result →
        (prog world thread).2.setting = setting ∧ ∀ value, result = .ok value → Post value

variable {Real : World μ κ ω → Prop} {budget : Budget μ κ} {setting : μ} {n m : Nat}

namespace Spec

theorem pure {value : α} {Post : α → Prop} (post : Post value) :
    Spec Real budget setting 0 (Pure.pure value : Prog μ κ ω ε α) Post := by
  intro world _ thread same
  refine ⟨.none _, fun result returns => ⟨same, fun found equal => ?_⟩⟩
  cases returns
  cases equal
  exact post

theorem fail {error : ε} {Post : α → Prop} :
    Spec Real budget setting 0 (Prog.fail error : Prog μ κ ω ε α) Post := by
  intro world _ thread same
  refine ⟨.none _, fun result returns => ⟨same, fun found equal => ?_⟩⟩
  cases returns
  cases equal

theorem running {Post : α → Prop} :
    Spec Real budget setting 0 (Prog.running : Prog μ κ ω ε α) Post := by
  intro world _ thread same
  exact ⟨.none _, nofun⟩

theorem call {what : κ} (allowed : budget.Allowed what setting) {Post : ω → Prop}
    (post : ∀ world, Real world → ∀ before, Post (world (before ++ [(what, setting)]))) :
    Spec Real budget setting (budget.counts what).toNat (Prog.call what : Prog μ κ ω ε ω) Post := by
  rintro world real thread rfl
  have bound : [(what, thread.setting)].countP (fun call => budget.counts call.1) ≤
      (budget.counts what).toNat := by
    cases counted : budget.counts what <;> simp [counted]
  refine ⟨⟨[_], rfl, by simpa using allowed, bound⟩, fun result returns => ⟨rfl, ?_⟩⟩
  intro value equal
  cases returns
  cases equal
  exact post world real thread.calls

theorem bind {first : Prog μ κ ω ε α} {rest : α → Prog μ κ ω ε β} {Mid : α → Prop} {Post : β → Prop}
    (spec : Spec Real budget setting n first Mid)
    (later : ∀ value, Mid value → Spec Real budget setting m (rest value) Post) :
    Spec Real budget setting (n + m) (first >>= rest) Post := by
  intro world real thread same
  obtain ⟨within, returns⟩ := spec world real thread same
  simp only [Bind.bind, Prog.bind]
  rcases ran : first world thread with ⟨_ | _ | value, middle⟩
  · rw [ran] at within
    exact ⟨within.mono (Nat.le_add_right n m), nofun⟩
  · rw [ran] at within returns
    obtain ⟨back, -⟩ := returns _ rfl
    refine ⟨within.mono (Nat.le_add_right n m), fun result equal => ⟨back, fun value ok => ?_⟩⟩
    cases equal
    cases ok
  · rw [ran] at within returns
    obtain ⟨back, mid⟩ := returns _ rfl
    obtain ⟨more, final⟩ := later value (mid value rfl) world real middle back
    exact ⟨within.trans more, final⟩

/-- The same, where the first part makes no call that counts. -/
theorem seq {first : Prog μ κ ω ε α} {rest : α → Prog μ κ ω ε β} {Mid : α → Prop} {Post : β → Prop}
    (spec : Spec Real budget setting 0 first Mid)
    (later : ∀ value, Mid value → Spec Real budget setting m (rest value) Post) :
    Spec Real budget setting m (first >>= rest) Post := by
  have whole := spec.bind later
  rwa [Nat.zero_add] at whole

theorem dropping {body : Prog μ κ ω ε α} {destructor : Prog μ κ ω ε β} {Post : α → Prop}
    {Any : β → Prop} (spec : Spec Real budget setting n body Post)
    (drop : Spec Real budget setting m destructor Any) :
    Spec Real budget setting (n + m) (Prog.dropping body destructor) Post := by
  intro world real thread same
  obtain ⟨within, returns⟩ := spec world real thread same
  unfold Prog.dropping
  rcases ran : body world thread with ⟨_ | result, middle⟩
  · rw [ran] at within
    exact ⟨within.mono (Nat.le_add_right n m), nofun⟩
  · rw [ran] at within returns
    obtain ⟨back, post⟩ := returns _ rfl
    obtain ⟨more, final⟩ := drop world real middle back
    rcases ran' : destructor world middle with ⟨_ | _, last⟩
    · rw [ran'] at more
      simp only [ran']
      exact ⟨within.trans more, nofun⟩
    · rw [ran'] at more final
      simp only [ran']
      refine ⟨within.trans more, fun result equal => ⟨(final _ rfl).1, ?_⟩⟩
      cases equal
      exact post

theorem guarded {change : μ → μ} {body : Prog μ κ ω ε α} {Post : α → Prop}
    (spec : Spec Real budget (change setting) n body Post) :
    Spec Real budget setting n (Prog.guarded change body) Post := by
  rintro world real thread rfl
  obtain ⟨within, returns⟩ :=
    spec world real { thread with setting := change thread.setting } rfl
  unfold Prog.guarded
  rcases ran : body world { thread with setting := change thread.setting } with ⟨_ | result, last⟩
  · rw [ran] at within
    exact ⟨within, nofun⟩
  · rw [ran] at within returns
    refine ⟨within, fun result equal => ⟨rfl, ?_⟩⟩
    cases equal
    exact (returns _ rfl).2

theorem mono {prog : Prog μ κ ω ε α} {Post : α → Prop} (spec : Spec Real budget setting n prog Post)
    (le : n ≤ m) : Spec Real budget setting m prog Post := by
  intro world real thread same
  obtain ⟨within, returns⟩ := spec world real thread same
  exact ⟨within.mono le, returns⟩

end Spec

end

end SystemCalls
