import Mathlib.Algebra.Ring.Nat
import Mathlib.Algebra.Ring.Int.Defs
import Mathlib.Data.List.Basic

/-!
# The file-system interface

The values a `FileSystem` implementation hands back to the server and to `Vfs`: the attributes
of an inode (`stat64`), a lookup `Entry`, a `DirEntry` of a directory stream, the caller's
`Context`, and the `io::Error`s the operations fail with. User and group ids are `u32`, as
`libc::uid_t` and `libc::gid_t` are; inode numbers, sizes and times are unbounded.
-/

namespace FuseBackend.Api

/-- The inode number of the root of every file system the server exports. -/
def rootId : Nat := 1

/-! ## `errno` values of Linux -/

def eperm : Nat := 1
def enoent : Nat := 2
def eintr : Nat := 4
def eio : Nat := 5
def ebadf : Nat := 9
def ewouldblock : Nat := 11
def enomem : Nat := 12
def eacces : Nat := 13
def eexist : Nat := 17
def enotdir : Nat := 20
def eisdir : Nat := 21
def einval : Nat := 22
def enotty : Nat := 25
def erofs : Nat := 30
def enametoolong : Nat := 36
def enosys : Nat := 38
def enotempty : Nat := 39
def eproto : Nat := 71
def eoverflow : Nat := 75

/-- The kinds of `std::io::ErrorKind` the modelled code builds errors with or tells apart. -/
inductive ErrorKind where
  | notFound
  | permissionDenied
  | interrupted
  | alreadyExists
  | wouldBlock
  | other
  | invalidData
  | invalidInput
  | unexpectedEof
  deriving DecidableEq, Repr

/-- `std::io::Error`: an OS error number, or a kind with a message. -/
inductive IoError where
  | os (errno : Nat)
  | custom (kind : ErrorKind) (msg : String)
  deriving DecidableEq, Repr

/-- `io::Error::raw_os_error`. -/
def IoError.rawOsError : IoError → Option Nat
  | .os errno => some errno
  | .custom _ _ => none

structure Duration where
  secs : Nat
  nanos : Nat := 0
  deriving DecidableEq, Repr

/-- `libc::stat64`, with the fields the library reads or writes. -/
structure Stat64 where
  stIno : Nat := 0
  stMode : Nat := 0
  stNlink : Nat := 0
  stUid : UInt32 := 0
  stGid : UInt32 := 0
  stRdev : Nat := 0
  stSize : Nat := 0
  stBlksize : Nat := 0
  stBlocks : Nat := 0
  stAtime : Nat := 0
  stMtime : Nat := 0
  stCtime : Nat := 0
  deriving DecidableEq, Repr

structure Entry where
  inode : Nat
  generation : Nat
  attr : Stat64
  attrFlags : Nat
  attrTimeout : Duration
  entryTimeout : Duration
  deriving DecidableEq, Repr

structure DirEntry where
  ino : Nat
  offset : Nat
  type_ : Nat
  name : String
  deriving DecidableEq, Repr

/-- `DirEntry` with its name as the bytes it is, as the passthrough and overlay file systems hand
it on. -/
structure DirEntryBytes where
  ino : Nat
  offset : Nat
  type_ : Nat
  name : List UInt8
  deriving DecidableEq, Repr

structure Context where
  uid : UInt32 := 0
  gid : UInt32 := 0
  pid : Int := 0
  deriving DecidableEq, Repr

/-! ## File types of `st_mode` -/

def sIfmt : Nat := 0o170000
def sIfdir : Nat := 0o040000
def sIfchr : Nat := 0o020000
def sIfreg : Nat := 0o100000
def sIflnk : Nat := 0o120000
def sIrwxu : Nat := 0o700
def sIrwxg : Nat := 0o070
def sIrwxo : Nat := 0o007

/-- `flags & !mask` of the code's bit operations on modes and flags. -/
def clearBits (flags mask : Nat) : Nat := flags ^^^ (flags &&& mask)

end FuseBackend.Api
