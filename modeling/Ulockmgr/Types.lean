import Ulockmgr.Errors
import Ulockmgr.Library.Codec

/-!
# Lock parameters

The wrapper types of `types.rs`, their conversions from and to the raw values of
the C library, and their derived serialisation.  A variant is serialised as its
position in the declaration, which is not its raw value.
-/

namespace Ulockmgr

namespace Libc

def F_GETLK : Int32 := 5
def F_SETLK : Int32 := 6
def F_SETLKW : Int32 := 7

def F_RDLCK : Int32 := 0
def F_WRLCK : Int32 := 1
def F_UNLCK : Int32 := 2

def SEEK_SET : Int32 := 0
def SEEK_CUR : Int32 := 1
def SEEK_END : Int32 := 2

/-- `libc::flock`. -/
structure Flock where
  lType : Int16
  lWhence : Int16
  lStart : Int64
  lLen : Int64
  lPid : Int32
  deriving DecidableEq, Repr

end Libc

inductive LockAction where
  | setLockNonBlocking
  | setLockBlocking
  | getLockStatus
  deriving DecidableEq, Repr

inductive LockType where
  | read
  | write
  | unlock
  deriving DecidableEq, Repr

inductive LockWhence where
  | start
  | current
  | «end»
  deriving DecidableEq, Repr

structure LockParams where
  lockType : LockType
  whence : LockWhence
  start : Int64
  len : Int64
  pid : Int32
  deriving DecidableEq, Repr

/-! ## Raw values -/

/-- The three `TryFrom<i32>` implementations, which differ in their table and message. -/
def tryFromRaw {α : Type} (table : List (Int32 × α)) (message : String) (value : Int32) :
    Except IoError α :=
  match table.lookup value with
  | some variant => .ok variant
  | none => .error (.custom .invalidInput message)

namespace LockAction

def raw : LockAction → Int32
  | .setLockNonBlocking => Libc.F_SETLK
  | .setLockBlocking => Libc.F_SETLKW
  | .getLockStatus => Libc.F_GETLK

def tryFrom : Int32 → Except IoError LockAction :=
  tryFromRaw [(Libc.F_SETLK, .setLockNonBlocking), (Libc.F_SETLKW, .setLockBlocking),
    (Libc.F_GETLK, .getLockStatus)] "Invalid lock command"

theorem tryFrom_raw (action : LockAction) : tryFrom action.raw = .ok action := by
  cases action <;> rfl

end LockAction

namespace LockType

/-- `From<LockType> for i16`. -/
def raw : LockType → Int16
  | .read => Libc.F_RDLCK.toInt16
  | .write => Libc.F_WRLCK.toInt16
  | .unlock => Libc.F_UNLCK.toInt16

def tryFrom : Int32 → Except IoError LockType :=
  tryFromRaw [(Libc.F_RDLCK, .read), (Libc.F_WRLCK, .write), (Libc.F_UNLCK, .unlock)]
    "Invalid lock type"

theorem tryFrom_raw (type : LockType) : tryFrom type.raw.toInt32 = .ok type := by
  cases type <;> rfl

end LockType

namespace LockWhence

/-- `From<LockWhence> for i16`. -/
def raw : LockWhence → Int16
  | .start => Libc.SEEK_SET.toInt16
  | .current => Libc.SEEK_CUR.toInt16
  | .end => Libc.SEEK_END.toInt16

def tryFrom : Int32 → Except IoError LockWhence :=
  tryFromRaw [(Libc.SEEK_SET, .start), (Libc.SEEK_CUR, .current), (Libc.SEEK_END, .end)]
    "Invalid lock whence"

theorem tryFrom_raw (whence : LockWhence) : tryFrom whence.raw.toInt32 = .ok whence := by
  cases whence <;> rfl

end LockWhence

namespace LockParams

/-- `From<LockParams> for libc::flock`. -/
def toFlock (params : LockParams) : Libc.Flock :=
  ⟨params.lockType.raw, params.whence.raw, params.start, params.len, params.pid⟩

/-- `TryFrom<libc::flock> for LockParams`; wrapping an error keeps its text. -/
def tryFrom (value : Libc.Flock) : Except IoError LockParams := do
  let lockType ← LockType.tryFrom value.lType.toInt32
  let whence ← LockWhence.tryFrom value.lWhence.toInt32
  return ⟨lockType, whence, value.lStart, value.lLen, value.lPid⟩

/-- The parameters a granted request echoes are the ones it was made with. -/
theorem tryFrom_toFlock (params : LockParams) : tryFrom params.toFlock = .ok params := by
  simp only [tryFrom, toFlock, LockType.tryFrom_raw, LockWhence.tryFrom_raw]
  rfl

end LockParams

/-! ## Serialisation -/

open Wire (Codec Bytes)

/-- A derived enumeration without fields: `variants` in the order of declaration. -/
def enumCodec {α : Type} (index : α → UInt32) (variant : UInt32 → Option α)
    (back : ∀ value, variant (index value) = some value) : Codec α :=
  .tagged index (fun _ => []) (fun tag rest => (variant tag).map fun value => (value, rest))
    fun value rest => by simp [back]

@[simp] theorem length_enumCodec {α : Type} (index : α → UInt32) (variant : UInt32 → Option α)
    (back : ∀ value, variant (index value) = some value) (value : α) :
    ((enumCodec index variant back).encode value).length = 4 := by
  simp [enumCodec, Codec.tagged]

def LockAction.codec : Codec LockAction :=
  enumCodec
    (fun | .setLockNonBlocking => 0 | .setLockBlocking => 1 | .getLockStatus => 2)
    (fun
      | 0 => some .setLockNonBlocking
      | 1 => some .setLockBlocking
      | 2 => some .getLockStatus
      | _ => none)
    fun action => by cases action <;> rfl

def LockType.codec : Codec LockType :=
  enumCodec
    (fun | .read => 0 | .write => 1 | .unlock => 2)
    (fun | 0 => some .read | 1 => some .write | 2 => some .unlock | _ => none)
    fun type => by cases type <;> rfl

def LockWhence.codec : Codec LockWhence :=
  enumCodec
    (fun | .start => 0 | .current => 1 | .end => 2)
    (fun | 0 => some .start | 1 => some .current | 2 => some .end | _ => none)
    fun whence => by cases whence <;> rfl

/-- The fields in the order of declaration. -/
def LockParams.codec : Codec LockParams :=
  (LockType.codec.pair (LockWhence.codec.pair (Codec.i64.pair (Codec.i64.pair Codec.i32)))).via
    (fun params => (params.lockType, params.whence, params.start, params.len, params.pid))
    (fun (lockType, whence, start, len, pid) => ⟨lockType, whence, start, len, pid⟩)
    fun _ => rfl

@[simp] theorem LockParams.length_codec (params : LockParams) :
    (LockParams.codec.encode params).length = 28 := by
  simp [LockParams.codec, Codec.via, Codec.pair, LockType.codec, LockWhence.codec]

end Ulockmgr
