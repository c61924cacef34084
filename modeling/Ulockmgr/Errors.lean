import Mathlib.Data.List.Basic

/-!
# I/O errors and their passage over the wire

An owner converts the error of a request to an errno (`io_cvt`), the errno is
serialised, and the client rebuilds an error from it.  The conversion is not
injective: what arrives is decided by the errno alone.
-/

namespace Ulockmgr

/-- A raw error number; the type of `Errno::raw_os_error`. -/
abbrev Errno := Int32

namespace Errno

def PERM : Errno := 1
def NOENT : Errno := 2
def INTR : Errno := 4
/-- `Errno::IO`. -/
def INOUT : Errno := 5
def AGAIN : Errno := 11
def EXIST : Errno := 17
def INVAL : Errno := 22
def PIPE : Errno := 32
def DEADLOCK : Errno := 35
def OVERFLOW : Errno := 75
def ADDRINUSE : Errno := 98
def ADDRNOTAVAIL : Errno := 99
def CONNABORTED : Errno := 103
def CONNRESET : Errno := 104
def NOTCONN : Errno := 107
def TIMEDOUT : Errno := 110
def CONNREFUSED : Errno := 111

end Errno

/-- `std::io::ErrorKind`. -/
inductive ErrorKind where
  | notFound
  | permissionDenied
  | connectionRefused
  | connectionReset
  | hostUnreachable
  | networkUnreachable
  | connectionAborted
  | notConnected
  | addrInUse
  | addrNotAvailable
  | networkDown
  | brokenPipe
  | alreadyExists
  | wouldBlock
  | notADirectory
  | isADirectory
  | directoryNotEmpty
  | readOnlyFilesystem
  | filesystemLoop
  | staleNetworkFileHandle
  | invalidInput
  | invalidData
  | timedOut
  | writeZero
  | storageFull
  | notSeekable
  | quotaExceeded
  | fileTooLarge
  | resourceBusy
  | executableFileBusy
  | deadlock
  | crossesDevices
  | tooManyLinks
  | invalidFilename
  | argumentListTooLong
  | interrupted
  | unsupported
  | unexpectedEof
  | outOfMemory
  | inProgress
  | other
  | uncategorized
  deriving DecidableEq, Repr

/-- The table of the standard library for Linux. -/
def errorKinds : List (Errno × ErrorKind) :=
  [(7, .argumentListTooLong), (98, .addrInUse), (99, .addrNotAvailable), (16, .resourceBusy),
    (103, .connectionAborted), (111, .connectionRefused), (104, .connectionReset), (35, .deadlock),
    (122, .quotaExceeded), (17, .alreadyExists), (27, .fileTooLarge), (113, .hostUnreachable),
    (4, .interrupted), (22, .invalidInput), (21, .isADirectory), (40, .filesystemLoop),
    (2, .notFound), (12, .outOfMemory), (28, .storageFull), (38, .unsupported),
    (31, .tooManyLinks), (36, .invalidFilename), (100, .networkDown), (101, .networkUnreachable),
    (107, .notConnected), (20, .notADirectory), (39, .directoryNotEmpty), (32, .brokenPipe),
    (30, .readOnlyFilesystem), (29, .notSeekable), (116, .staleNetworkFileHandle),
    (110, .timedOut), (26, .executableFileBusy), (18, .crossesDevices), (115, .inProgress),
    (95, .unsupported), (13, .permissionDenied), (1, .permissionDenied), (11, .wouldBlock)]

def decodeErrorKind (errno : Errno) : ErrorKind :=
  (errorKinds.lookup errno).getD .uncategorized

/-- `std::io::Error`: either a raw error number or a kind with a message. -/
inductive IoError where
  | os (errno : Errno)
  | custom (kind : ErrorKind) (message : String)
  deriving DecidableEq, Repr

/-- The inner match of `io_cvt`. -/
def ErrorKind.toErrno : ErrorKind → Errno
  | .notFound => Errno.NOENT
  | .permissionDenied => Errno.PERM
  | .connectionRefused => Errno.CONNREFUSED
  | .connectionReset => Errno.CONNRESET
  | .connectionAborted => Errno.CONNABORTED
  | .notConnected => Errno.NOTCONN
  | .addrInUse => Errno.ADDRINUSE
  | .addrNotAvailable => Errno.ADDRNOTAVAIL
  | .timedOut => Errno.TIMEDOUT
  | .wouldBlock => Errno.AGAIN
  | .alreadyExists => Errno.EXIST
  | .invalidInput => Errno.INVAL
  | .invalidData => Errno.INVAL
  | .deadlock => Errno.DEADLOCK
  | .other => Errno.INOUT
  | _ => Errno.INOUT

/-- No kind is converted to the errno of a broken pipe, broken pipe included. -/
theorem ErrorKind.decode_toErrno_ne_brokenPipe (kind : ErrorKind) :
    decodeErrorKind kind.toErrno ≠ .brokenPipe := by
  cases kind <;> decide

namespace IoError

def kind : IoError → ErrorKind
  | .os errno => decodeErrorKind errno
  | .custom kind _ => kind

def rawOsError : IoError → Option Errno
  | .os errno => some errno
  | .custom _ _ => none

/-- `io::Error::from_raw_os_error`. -/
def fromRawOsError (errno : Errno) : IoError := .os errno

/-- `io::Error::other`. -/
def ofMessage (message : String) : IoError := .custom .other message

/-- The error half of `io_cvt`. -/
def toErrno (error : IoError) : Errno :=
  match error.rawOsError with
  | some errno => errno
  | none => error.kind.toErrno

end IoError

def ioCvt {α : Type} (result : Except IoError α) : Except Errno α :=
  result.mapError IoError.toErrno

/-- The error a client sees for an error of the owner. -/
def IoError.received (error : IoError) : IoError := fromRawOsError error.toErrno

theorem IoError.received_os (errno : Errno) : (IoError.os errno).received = .os errno := rfl

/-- Broken pipe is the one kind the client retries on, and no error that the owner
reports by kind arrives as one. -/
theorem IoError.received_kind_ne_brokenPipe (kind : ErrorKind) (message : String) :
    (IoError.custom kind message).received.kind ≠ .brokenPipe :=
  kind.decode_toErrno_ne_brokenPipe

end Ulockmgr
