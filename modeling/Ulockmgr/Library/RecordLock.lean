import Mathlib.Logic.Function.Basic
import Mathlib.Data.List.Basic

/-!
# POSIX record locks

The locks of one process on one file are a function from offsets to lock kinds: a
new lock on a range replaces whatever the process had there, and unlocking a range
clears it.  Locks of different processes on a common offset are both read locks.
-/

namespace RecordLock

inductive Kind where
  | read
  | write
  deriving DecidableEq, Repr

/-- A range of offsets, both ends included. -/
structure Range where
  first : Nat
  last : Nat
  deriving DecidableEq, Repr

namespace Range

def Covers (range : Range) (offset : Nat) : Prop := range.first ≤ offset ∧ offset ≤ range.last

instance (range : Range) (offset : Nat) : Decidable (range.Covers offset) :=
  inferInstanceAs (Decidable (_ ∧ _))

def Overlaps (range other : Range) : Prop :=
  range.first ≤ other.last ∧ other.first ≤ range.last

instance (range other : Range) : Decidable (range.Overlaps other) :=
  inferInstanceAs (Decidable (_ ∧ _))

end Range

/-- Two processes may not hold these on a common offset. -/
def Conflict (kind other : Kind) : Prop := kind = .write ∨ other = .write

instance (kind other : Kind) : Decidable (Conflict kind other) :=
  inferInstanceAs (Decidable (_ ∨ _))

/-- The locks of one process on one file. -/
abbrev Table := Nat → Option Kind

namespace Table

def empty : Table := fun _ => none

/-- Lock a range, or unlock it with `none`. -/
def set (table : Table) (range : Range) (kind : Option Kind) : Table :=
  fun offset => if range.Covers offset then kind else table offset

end Table

/-- A lock of another process. -/
structure Lock where
  range : Range
  kind : Kind
  deriving DecidableEq, Repr

/-- A request does not conflict with the locks of the other processes. -/
def Grantable (others : List Lock) (range : Range) : Option Kind → Prop
  | none => True
  | some kind => ∀ lock ∈ others, lock.range.Overlaps range → ¬ Conflict kind lock.kind

instance (others : List Lock) (range : Range) (kind : Option Kind) :
    Decidable (Grantable others range kind) := by
  cases kind <;> unfold Grantable <;> infer_instance

/-- A lock of another process does not conflict with a table. -/
def Table.Admits (table : Table) (lock : Lock) : Prop :=
  ∀ offset, offset ≤ lock.range.last → lock.range.first ≤ offset →
    (table offset).all (fun kind => ¬ Conflict kind lock.kind)

instance (table : Table) (lock : Lock) : Decidable (table.Admits lock) :=
  inferInstanceAs (Decidable (∀ offset, offset ≤ lock.range.last → _))

end RecordLock
