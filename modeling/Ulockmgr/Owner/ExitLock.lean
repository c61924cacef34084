import Mathlib.Data.Finset.Basic
import Ulockmgr.Errors

/-!
# The exit lock of an owner

`exit_lock : Arc<RwLock<bool>>` as a value: the flag and the set of read guards
that are alive.  A registration keeps its read guard inside its `FdData`, so the
guards are named after registrations.
-/

namespace Ulockmgr.Owner

structure ExitLock where
  exited : Bool
  readers : Finset Nat
  deriving DecidableEq

namespace ExitLock

/-- `RwLock::new(false)`. -/
def new : ExitLock := ⟨false, ∅⟩

/-- `acquire_exit_lock`, keeping the read guard under the name `reader`. -/
def acquire (lock : ExitLock) (reader : Nat) : Except IoError ExitLock :=
  if lock.exited then
    .error (.custom .brokenPipe "owner already exited")
  else .ok { lock with readers := insert reader lock.readers }

/-- Drop of a read guard. -/
def release (lock : ExitLock) (reader : Nat) : ExitLock :=
  { lock with readers := lock.readers.erase reader }

/-- `try_exit`: `try_write` succeeds when no read guard is alive. -/
def tryExit (lock : ExitLock) : Except IoError ExitLock :=
  if lock.readers = ∅ then .ok { lock with exited := true }
  else .error (.custom .resourceBusy "there are still registered files")

/-- No read guard outlives the flag. -/
def Sound (lock : ExitLock) : Prop := lock.exited = true → lock.readers = ∅

theorem sound_new : new.Sound := by
  intro exited
  cases exited

theorem Sound.acquire {lock acquired : ExitLock} {reader : Nat}
    (taken : lock.acquire reader = .ok acquired) : acquired.Sound := by
  unfold ExitLock.acquire at taken
  split at taken
  · cases taken
  · next running =>
      cases taken
      intro exited
      exact (running exited).elim

theorem Sound.release {lock : ExitLock} (sound : lock.Sound) (reader : Nat) :
    (lock.release reader).Sound := by
  intro exited
  have empty := sound exited
  simp [ExitLock.release, empty]

theorem Sound.tryExit {lock final : ExitLock} (left : lock.tryExit = .ok final) : final.Sound := by
  unfold ExitLock.tryExit at left
  split at left
  · next empty =>
      cases left
      exact fun _ => empty
  · cases left

end ExitLock

end Ulockmgr.Owner
