import Mathlib.Data.List.Basic
import FuseBackend.Api.Filesystem

/-!
# The FUSE ABI as the server reads and writes it

`src/abi/fuse_abi_linux.rs` and `src/abi/virtio_fs.rs`: the opcodes, the `#[repr(C)]` structs of
requests and replies, and the flag bits the server tests. A request struct is decoded from its
little-endian bytes at the offsets of its layout, keeping the fields the server reads. A reply
struct keeps the fields the server fills in; what is written into a reply buffer is a `Slice`,
which knows its size on the wire.
-/

namespace FuseBackend.Api

/-! ## Little-endian fields -/

/-- The little-endian number held by `bytes`. -/
def leNat : List UInt8 → Nat
  | [] => 0
  | b :: bs => b.toNat + 256 * leNat bs

/-- The `width`-byte little-endian field at offset `off`. -/
def field (bytes : List UInt8) (off width : Nat) : Nat := leNat ((bytes.drop off).take width)

/-- The little-endian bytes of `n`, `width` of them. -/
def leBytes (n : Nat) : Nat → List UInt8
  | 0 => []
  | width + 1 => UInt8.ofNat (n % 256) :: leBytes (n / 256) width

/-! ## Opcodes -/

inductive Opcode where
  | lookup | forget | getattr | setattr | readlink | symlink | mknod | mkdir | unlink | rmdir
  | rename | link | open_ | read | write | statfs | release | fsync | setxattr | getxattr
  | listxattr | removexattr | flush | init | opendir | readdir | releasedir | fsyncdir | getlk
  | setlk | setlkw | access | create | interrupt | bmap | destroy | ioctl | poll | notifyReply
  | batchForget | fallocate | readdirplus | rename2 | lseek | copyFileRange | setupMapping
  | removeMapping
  deriving DecidableEq, Repr

namespace Opcode

def code : Opcode → Nat
  | lookup => 1 | forget => 2 | getattr => 3 | setattr => 4 | readlink => 5 | symlink => 6
  | mknod => 8 | mkdir => 9 | unlink => 10 | rmdir => 11 | rename => 12 | link => 13
  | open_ => 14 | read => 15 | write => 16 | statfs => 17 | release => 18 | fsync => 20
  | setxattr => 21 | getxattr => 22 | listxattr => 23 | removexattr => 24 | flush => 25
  | init => 26 | opendir => 27 | readdir => 28 | releasedir => 29 | fsyncdir => 30
  | getlk => 31 | setlk => 32 | setlkw => 33 | access => 34 | create => 35 | interrupt => 36
  | bmap => 37 | destroy => 38 | ioctl => 39 | poll => 40 | notifyReply => 41
  | batchForget => 42 | fallocate => 43 | readdirplus => 44 | rename2 => 45 | lseek => 46
  | copyFileRange => 47 | setupMapping => 48 | removeMapping => 49

/-- The opcode a request header names, if it names one. -/
def ofCode : Nat → Option Opcode
  | 1 => some lookup | 2 => some forget | 3 => some getattr | 4 => some setattr
  | 5 => some readlink | 6 => some symlink | 8 => some mknod | 9 => some mkdir
  | 10 => some unlink | 11 => some rmdir | 12 => some rename | 13 => some link
  | 14 => some open_ | 15 => some read | 16 => some write | 17 => some statfs
  | 18 => some release | 20 => some fsync | 21 => some setxattr | 22 => some getxattr
  | 23 => some listxattr | 24 => some removexattr | 25 => some flush | 26 => some init
  | 27 => some opendir | 28 => some readdir | 29 => some releasedir | 30 => some fsyncdir
  | 31 => some getlk | 32 => some setlk | 33 => some setlkw | 34 => some access
  | 35 => some create | 36 => some interrupt | 37 => some bmap | 38 => some destroy
  | 39 => some ioctl | 40 => some poll | 41 => some notifyReply | 42 => some batchForget
  | 43 => some fallocate | 44 => some readdirplus | 45 => some rename2 | 46 => some lseek
  | 47 => some copyFileRange | 48 => some setupMapping | 49 => some removeMapping
  | _ => none

@[simp] theorem ofCode_code (op : Opcode) : ofCode op.code = some op := by
  cases op <;> rfl

end Opcode

/-! ## Headers -/

def inHeaderSize : Nat := 40
def outHeaderSize : Nat := 16

structure InHeader where
  len : Nat
  opcode : Nat
  unique : Nat
  nodeid : Nat
  uid : Nat
  gid : Nat
  pid : Nat
  deriving DecidableEq, Repr

def InHeader.ofBytes (b : List UInt8) : InHeader :=
  ⟨field b 0 4, field b 4 4, field b 8 8, field b 16 8, field b 24 4, field b 28 4, field b 32 4⟩

/-- The bytes of a header with these fields and zero padding. -/
def InHeader.toBytes (h : InHeader) : List UInt8 :=
  leBytes h.len 4 ++ leBytes h.opcode 4 ++ leBytes h.unique 8 ++ leBytes h.nodeid 8 ++
    leBytes h.uid 4 ++ leBytes h.gid 4 ++ leBytes h.pid 4 ++ leBytes 0 4

/-- `pid as i32`. -/
def i32OfU32 (n : Nat) : Int := if n < 2 ^ 31 then n else (n : Int) - 2 ^ 32

/-- `Context::from(&InHeader)`. -/
def Context.ofInHeader (h : InHeader) : Context :=
  { uid := UInt32.ofNat h.uid, gid := UInt32.ofNat h.gid, pid := i32OfU32 h.pid }

structure OutHeader where
  len : Nat
  error : Int
  unique : Nat
  deriving DecidableEq, Repr

/-! ## Request structs

Each keeps the fields the server reads; `size` is `size_of` of the struct. -/

def forgetInSize : Nat := 8
def getattrInSize : Nat := 16
def setattrInSize : Nat := 88
def mknodInSize : Nat := 16
def mkdirInSize : Nat := 8
def renameInSize : Nat := 8
def rename2InSize : Nat := 16
def linkInSize : Nat := 8
def openInSize : Nat := 8
def createInSize : Nat := 16
def readInSize : Nat := 40
def writeInSize : Nat := 40
def releaseInSize : Nat := 24
def fsyncInSize : Nat := 16
def setxattrInSize : Nat := 8
def getxattrInSize : Nat := 8
def flushInSize : Nat := 24
def initInSize : Nat := 16
def initIn2Size : Nat := 48
def lkInSize : Nat := 48
def accessInSize : Nat := 8
def bmapInSize : Nat := 16
def ioctlInSize : Nat := 32
def pollInSize : Nat := 24
def batchForgetInSize : Nat := 8
def forgetOneSize : Nat := 16
def fallocateInSize : Nat := 32
def lseekInSize : Nat := 24
def setupmappingInSize : Nat := 40
def removemappingInSize : Nat := 4
def removemappingOneSize : Nat := 16
def direntSize : Nat := 24

/-- `SetattrIn`, with the fields `From<SetattrIn> for stat64` and the server read. -/
structure SetattrIn where
  valid : Nat
  fh : Nat
  size : Nat
  atime : Nat
  mtime : Nat
  ctime : Nat
  mode : Nat
  uid : Nat
  gid : Nat
  deriving DecidableEq, Repr

def SetattrIn.ofBytes (b : List UInt8) : SetattrIn :=
  ⟨field b 0 4, field b 8 8, field b 16 8, field b 32 8, field b 40 8, field b 48 8,
    field b 68 4, field b 76 4, field b 80 4⟩

/-- `From<SetattrIn> for stat64`: a zeroed `stat64` with the fields a `setattr` carries. -/
def SetattrIn.toStat64 (s : SetattrIn) : Stat64 :=
  { stMode := s.mode, stUid := UInt32.ofNat s.uid, stGid := UInt32.ofNat s.gid,
    stSize := s.size, stAtime := s.atime, stMtime := s.mtime, stCtime := s.ctime }

structure CreateIn where
  flags : Nat
  mode : Nat
  umask : Nat
  fuseFlags : Nat
  deriving DecidableEq, Repr

def CreateIn.ofBytes (b : List UInt8) : CreateIn :=
  ⟨field b 0 4, field b 4 4, field b 8 4, field b 12 4⟩

structure FileLock where
  start : Nat
  end_ : Nat
  lockType : Nat
  pid : Nat
  deriving DecidableEq, Repr

def FileLock.ofBytes (b : List UInt8) : FileLock :=
  ⟨field b 0 8, field b 8 8, field b 16 4, field b 20 4⟩

/-! ## Reply structs -/

/-- `Attr::with_flags(st, flags)`, which copies the fields of `st`. -/
structure Attr where
  stat : Stat64
  flags : Nat
  deriving DecidableEq, Repr

structure EntryOut where
  nodeid : Nat
  generation : Nat
  entryValid : Nat
  attrValid : Nat
  entryValidNsec : Nat
  attrValidNsec : Nat
  attr : Attr
  deriving DecidableEq, Repr

/-- `From<Entry> for EntryOut`. -/
def EntryOut.ofEntry (e : Entry) : EntryOut :=
  ⟨e.inode, e.generation, e.entryTimeout.secs, e.attrTimeout.secs, e.entryTimeout.nanos,
    e.attrTimeout.nanos, ⟨e.attr, e.attrFlags⟩⟩

structure AttrOut where
  attrValid : Nat
  attrValidNsec : Nat
  attr : Attr
  deriving DecidableEq, Repr

structure OpenOut where
  fh : Nat
  openFlags : Nat
  passthrough : Nat
  deriving DecidableEq, Repr

/-- `statvfs64`, with the fields `From<statvfs64> for Kstatfs` reads. -/
structure Statvfs where
  blocks : Nat
  bfree : Nat
  bavail : Nat
  files : Nat
  ffree : Nat
  bsize : Nat
  namemax : Nat
  frsize : Nat
  deriving DecidableEq, Repr

structure InitOut where
  major : Nat
  minor : Nat
  maxReadahead : Nat := 0
  flags : Nat := 0
  maxBackground : Nat := 0
  congestionThreshold : Nat := 0
  maxWrite : Nat := 0
  timeGran : Nat := 0
  maxPages : Nat := 0
  mapAlignment : Nat := 0
  flags2 : Nat := 0
  deriving DecidableEq, Repr

def initOutSize : Nat := 64
def fuseCompatInitOutSize : Nat := 8
def fuseCompat22InitOutSize : Nat := 24

structure Dirent where
  ino : Nat
  off : Nat
  namelen : Nat
  type_ : Nat
  deriving DecidableEq, Repr

/-- What the server writes into a reply buffer: a reply struct, the first `len` bytes of an
`InitOut`, or raw bytes. -/
inductive Slice where
  | outHeader (h : OutHeader)
  | entryOut (o : EntryOut)
  | attrOut (o : AttrOut)
  | openOut (o : OpenOut)
  | writeOut (size : Nat)
  | kstatfs (st : Statvfs)
  | getxattrOut (size : Nat)
  | lkOut (lk : FileLock)
  | initOut (o : InitOut) (len : Nat)
  | bmapOut (block : Nat)
  | ioctlOut (result : Int)
  | pollOut (revents : Nat)
  | lseekOut (offset : Nat)
  | dirent (d : Dirent)
  | bytes (data : List UInt8)
  deriving DecidableEq, Repr

/-- The size of a slice on the wire. -/
def Slice.size : Slice → Nat
  | outHeader _ => outHeaderSize
  | entryOut _ => 128
  | attrOut _ => 104
  | openOut _ => 16
  | writeOut _ => 8
  | kstatfs _ => 80
  | getxattrOut _ => 8
  | lkOut _ => 24
  | initOut _ len => len
  | bmapOut _ => 8
  | ioctlOut _ => 16
  | pollOut _ => 8
  | lseekOut _ => 8
  | dirent _ => direntSize
  | bytes data => data.length

/-- The bytes a list of slices takes. -/
def sizes (ss : List Slice) : Nat := (ss.map Slice.size).sum

@[simp] theorem sizes_nil : sizes [] = 0 := rfl

@[simp] theorem sizes_cons (s : Slice) (ss : List Slice) : sizes (s :: ss) = s.size + sizes ss := by
  simp [sizes]

@[simp] theorem sizes_append (ss ts : List Slice) : sizes (ss ++ ts) = sizes ss + sizes ts := by
  simp [sizes]

/-! ## Flag bits -/

def getattrFh : Nat := 1
def fattrMode : Nat := 0x1
def fattrUid : Nat := 0x2
def fattrGid : Nat := 0x4
def fattrSize : Nat := 0x8
def fattrAtime : Nat := 0x10
def fattrMtime : Nat := 0x20
def fattrFh : Nat := 0x40
/-- The bits of `SetattrValid`. -/
def setattrValidAll : Nat := 0xdbf
def readLockowner : Nat := 2
def writeCache : Nat := 1
def writeLockowner : Nat := 2
def releaseFlush : Nat := 1
def releaseFlockUnlock : Nat := 2
/-- `RENAME_EXCHANGE | RENAME_NOREPLACE | RENAME_WHITEOUT`. -/
def renameFlagsMask : Nat := 7

/-- The `FsOptions` bits `init` tests. -/
def fsOptionsBigWrites : Nat := 0x20
def fsOptionsMaxPages : Nat := 0x40_0000
def fsOptionsInitExt : Nat := 0x4000_0000
/-- The bits of `FsOptions`, which `from_bits_truncate` keeps. -/
def fsOptionsAll : Nat := 0x1fff_ffff ||| 0x4000_0000 ||| 0x2_0000_0000 ||| 2 ^ 39 ||| 2 ^ 63

def kernelVersion : Nat := 7
def kernelMinorVersion : Nat := 33
def kernelMinorVersionInitOutSize : Nat := 5
def kernelMinorVersionInit22OutSize : Nat := 23
def kernelMinorVersionLookupNegativeEntryZero : Nat := 4

end FuseBackend.Api
