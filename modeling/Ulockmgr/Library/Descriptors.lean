import Mathlib.Logic.Function.Basic

/-!
# Descriptor tables

The table of a process: numbers, the open files behind them, and the flag that closes
an entry when the process executes another program.
-/

namespace Descriptors

structure Entry (φ : Type) where
  file : φ
  cloexec : Bool
  deriving DecidableEq, Repr

abbrev Table (φ : Type) := Nat → Option (Entry φ)

namespace Table

variable {φ : Type}

def empty : Table φ := fun _ => none

/-- `execve`: the marked entries are closed. -/
def exec (table : Table φ) : Table φ := fun n => (table n).filter fun entry => !entry.cloexec

/-- `fcntl(F_SETFD)` on an open descriptor. -/
def mark (table : Table φ) (n : Nat) (cloexec : Bool) : Table φ :=
  Function.update table n ((table n).map fun entry => { entry with cloexec := cloexec })

/-- The file is open under the number. -/
def Holds (table : Table φ) (n : Nat) (file : φ) : Prop := ∃ cloexec, table n = some ⟨file, cloexec⟩

/-- Nothing but the exception survives `execve`. -/
def Closing (table : Table φ) (exception : Nat → Prop) : Prop :=
  ∀ n file, table n = some ⟨file, false⟩ → exception n

@[simp] theorem not_holds_empty (n : Nat) (file : φ) : ¬ (empty : Table φ).Holds n file := by
  rintro ⟨cloexec, entry⟩
  cases entry

theorem holds_update {table : Table φ} {n m : Nat} {entry : Entry φ} {file : φ} :
    Holds (Function.update table n (some entry)) m file ↔
      (m = n ∧ entry.file = file) ∨ (m ≠ n ∧ table.Holds m file) := by
  unfold Holds
  rw [Function.update_apply]
  split
  · next same =>
      obtain ⟨found, flag⟩ := entry
      simp [same]
  · next other => simp [other]

theorem holds_close {table : Table φ} {n m : Nat} {file : φ} :
    Holds (Function.update table n none) m file ↔ m ≠ n ∧ table.Holds m file := by
  unfold Holds
  rw [Function.update_apply]
  split
  · next same => simp [same]
  · next other => simp [other]

theorem exec_eq_some {table : Table φ} {n : Nat} {entry : Entry φ} :
    table.exec n = some entry ↔ table n = some entry ∧ entry.cloexec = false := by
  simp [exec, Option.filter_eq_some_iff]

theorem exec_eq_empty {table : Table φ} (closing : table.Closing fun _ => False) :
    table.exec = empty := by
  funext n
  cases kept : table.exec n with
  | none => rfl
  | some entry =>
      obtain ⟨same, survives⟩ := exec_eq_some.mp kept
      obtain ⟨file, cloexec⟩ := entry
      cases survives
      exact (closing n file same).elim

theorem mark_of_open {table : Table φ} {n : Nat} {file : φ} (opened : table.Holds n file)
    (cloexec : Bool) : table.mark n cloexec = Function.update table n (some ⟨file, cloexec⟩) := by
  obtain ⟨before, entry⟩ := opened
  simp [mark, entry]

theorem holds_mark {table : Table φ} {n m : Nat} {cloexec : Bool} {file : φ} :
    (table.mark n cloexec).Holds m file ↔ table.Holds m file := by
  unfold mark Holds
  rw [Function.update_apply]
  split
  · next same =>
      rw [same]
      cases table n with
      | none => simp
      | some entry =>
          obtain ⟨found, flag⟩ := entry
          simp
  · rfl

theorem Closing.update {table : Table φ} {exception : Nat → Prop} (closing : table.Closing exception)
    (n : Nat) {entry : Option (Entry φ)} (marked : ∀ file, entry ≠ some ⟨file, false⟩) :
    Closing (Function.update table n entry) exception := by
  intro m file found
  rw [Function.update_apply] at found
  split at found
  · exact (marked file found).elim
  · exact closing m file found

end Table

end Descriptors
