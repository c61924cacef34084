import Ulockmgr.Library.RecordLock
import Ulockmgr.Messages

/-!
# The kernel as an owner process sees it

`fcntl` record locks on the files behind the descriptors of one owner process, next
to the locks of all other processes.  A range is made absolute when the lock is
granted, from the position and the size the file has then.  Closing any descriptor of
a file releases all locks of the process on it.
-/

namespace Ulockmgr

open RecordLock (Kind Range Table Lock)

/-- The largest offset. -/
def offsetMax : Int := 2 ^ 63 - 1

/-- The offset that `l_whence` refers to. -/
def Libc.Flock.base (flock : Libc.Flock) (position size : Nat) : Option Int :=
  match LockWhence.tryFrom flock.lWhence.toInt32 with
  | .ok .start => some 0
  | .ok .current => some position
  | .ok .end => some size
  | .error _ => none

/-- The absolute range of a request: a negative length counts backwards from the
start, and a zero length extends to the largest offset. -/
def Libc.Flock.range (flock : Libc.Flock) (position size : Nat) : Option Range := do
  let base ← flock.base position size
  let start := base + flock.lStart.toInt
  let len := flock.lLen.toInt
  if offsetMax < start ∨ start < 0 then none
  else if 0 < len then
    if offsetMax < start + (len - 1) then none else some ⟨start.toNat, (start + (len - 1)).toNat⟩
  else if len < 0 then
    if start + len < 0 then none else some ⟨(start + len).toNat, (start - 1).toNat⟩
  else some ⟨start.toNat, offsetMax.toNat⟩

/-- The kind of lock a request asks for, `some none` for an unlock. -/
def Libc.Flock.kind (flock : Libc.Flock) : Option (Option Kind) :=
  match LockType.tryFrom flock.lType.toInt32 with
  | .ok .read => some (some .read)
  | .ok .write => some (some .write)
  | .ok .unlock => some none
  | .error _ => none

/-- A granted lock operation: the file, the absolute range, the kind. -/
structure Grant where
  file : Nat
  range : Range
  kind : Option Kind
  deriving DecidableEq, Repr

/-- The locks of the owner process and of all other processes, file by file. -/
structure Kernel where
  held : Nat → Table
  foreign : Nat → List Lock

namespace Kernel

def initial : Kernel := ⟨fun _ => Table.empty, fun _ => []⟩

/-- What a request comes to if it is granted now. -/
def grant (kernel : Kernel) (fd : Fd) (flock : Libc.Flock) (position size : Nat) :
    Option Grant :=
  match fd, flock.range position size, flock.kind with
  | .file n, some range, some kind =>
      if RecordLock.Grantable (kernel.foreign n) range kind then some ⟨n, range, kind⟩ else none
  | _, _, _ => none

/-- The effect of a granted operation on the locks of the owner process. -/
def applyGrant (held : Nat → Table) (grant : Grant) : Nat → Table :=
  Function.update held grant.file ((held grant.file).set grant.range grant.kind)

def perform (kernel : Kernel) (grant : Grant) : Kernel :=
  { kernel with held := applyGrant kernel.held grant }

/-- `close` of a descriptor of the owner process. -/
def close (kernel : Kernel) : Fd → Kernel
  | .file n => { kernel with held := Function.update kernel.held n Table.empty }
  | .endpoint _ | .owner _ => kernel

/-- Another process takes a lock. -/
def foreignLock (kernel : Kernel) (file : Nat) (lock : Lock) : Kernel :=
  { kernel with foreign := Function.update kernel.foreign file (lock :: kernel.foreign file) }

/-- Another process gives a lock up. -/
def foreignUnlock (kernel : Kernel) (file : Nat) (lock : Lock) : Kernel :=
  { kernel with
    foreign := Function.update kernel.foreign file ((kernel.foreign file).erase lock) }

end Kernel

end Ulockmgr
