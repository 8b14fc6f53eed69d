import FuseBackend.Api.Abi
import FuseBackend.Passthrough.Lookup

/-!
# Opening and writing files

The calls of `PassthroughFs` that open a host file or reach one through a handle
(`passthrough/sync_io.rs`): `open`, `read`, `write`, `fallocate`, the size change of `setattr`
and `release`, with `open_inode`, `get_data`, `check_fd_flags` and `seal_size_check`
(`passthrough/mod.rs`).

The host is an oracle with the POSIX semantics of what these calls do to a file's size:
`openat` with `O_TRUNC` empties the file, `pwrite` on a descriptor with `O_APPEND` writes at the
end of the file whatever the offset (Linux), `fallocate` grows the file to the end of the range
unless `FALLOC_FL_KEEP_SIZE` is given, and `ftruncate` sets the size. A descriptor is an open
file description: the file and its status flags, of which `F_SETFL` changes `O_APPEND`,
`O_ASYNC`, `O_DIRECT`, `O_NOATIME` and `O_NONBLOCK`. Files are known by their `InodeId`, and
only their sizes are kept.
-/

namespace FuseBackend.Passthrough

open Api

/-! ## `open(2)` flags and `fallocate(2)` modes of Linux -/

def oAccmode : Nat := 0o3
def oRdonly : Nat := 0
def oWronly : Nat := 0o1
def oRdwr : Nat := 0o2
def oTrunc : Nat := 0o1000
def oAppend : Nat := 0o2000
def oNonblock : Nat := 0o4000
def oAsync : Nat := 0o20000
def oDirect : Nat := 0o40000
def oNoatime : Nat := 0o1000000
def oCloexec : Nat := 0o2000000

/-- The status flags `F_SETFL` changes on Linux. -/
def setflMask : Nat := oAppend ||| oAsync ||| oDirect ||| oNoatime ||| oNonblock

def fallocFlKeepSize : Nat := 0x01
def fallocFlPunchHole : Nat := 0x02
def fallocFlCollapseRange : Nat := 0x08
def fallocFlZeroRange : Nat := 0x10
def fallocFlInsertRange : Nat := 0x20
def fallocFlUnshareRange : Nat := 0x40

def eopnotsupp : Nat := 95

/-- `flags & bit != 0`. -/
def hasFlag (flags bit : Nat) : Bool := flags &&& bit != 0

/-- `is_safe_inode`: only regular files and directories are opened without `O_PATH`. -/
def isSafeInode (mode : Nat) : Bool := mode &&& sIfmt == sIfreg || mode &&& sIfmt == sIfdir

/-! ## The host -/

/-- An open file description: the file it is on and its status flags. -/
structure OpenFile where
  id : InodeId
  flags : Nat
  deriving DecidableEq, Repr

/-- What the host holds for these calls: the size of each file and the open descriptors. -/
structure HostFiles where
  size : InodeId → Nat
  fds : Nat → Option OpenFile
  nextFd : Nat

namespace HostFiles

/-- `openat` of a file, also through `/proc/self/fd` or by its handle: a new descriptor.
`O_TRUNC` empties the file. -/
def openFile (h : HostFiles) (id : InodeId) (flags : Nat) : Nat × HostFiles :=
  (h.nextFd,
    { size := if hasFlag flags oTrunc then Function.update h.size id 0 else h.size
      fds := Function.update h.fds h.nextFd (some ⟨id, flags⟩)
      nextFd := h.nextFd + 1 })

/-- `fcntl(fd, F_SETFL, flags)`. -/
def setfl (h : HostFiles) (fd flags : Nat) : Except IoError HostFiles :=
  match h.fds fd with
  | some f =>
    .ok { h with
      fds := Function.update h.fds fd
        (some { f with flags := clearBits f.flags setflMask ||| flags &&& setflMask }) }
  | none => .error (.os ebadf)

/-- `fstat(fd).st_size`. -/
def fstat (h : HostFiles) (fd : Nat) : Except IoError Nat :=
  match h.fds fd with
  | some f => .ok (h.size f.id)
  | none => .error (.os ebadf)

/-- `pread`: the count read at `offset`. -/
def pread (h : HostFiles) (fd n offset : Nat) : Except IoError Nat :=
  match h.fds fd with
  | some f => .ok (min n (h.size f.id - offset))
  | none => .error (.os ebadf)

/-- `pwrite` of `n` bytes at `offset`. On a descriptor with `O_APPEND` Linux writes them at the
end of the file, whatever the offset. -/
def pwrite (h : HostFiles) (fd n offset : Nat) : Except IoError (Nat × HostFiles) :=
  match h.fds fd with
  | some f =>
    let size := h.size f.id
    let size' :=
      if n = 0 then size
      else if hasFlag f.flags oAppend then size + n
      else max size (offset + n)
    .ok (n, { h with size := Function.update h.size f.id size' })
  | none => .error (.os ebadf)

/-- `fallocate`: collapsing takes the range out and inserting adds one; the other modes grow the
file to the end of the range unless `FALLOC_FL_KEEP_SIZE` is given, which punching a hole needs. -/
def fallocate (h : HostFiles) (fd mode offset len : Nat) : Except IoError HostFiles :=
  match h.fds fd with
  | some f =>
    let size := h.size f.id
    if len = 0 then .error (.os einval)
    else if hasFlag mode fallocFlPunchHole && !hasFlag mode fallocFlKeepSize then
      .error (.os eopnotsupp)
    else
      let size' :=
        if hasFlag mode fallocFlCollapseRange then size - len
        else if hasFlag mode fallocFlInsertRange then size + len
        else if hasFlag mode fallocFlKeepSize then size
        else max size (offset + len)
      .ok { h with size := Function.update h.size f.id size' }
  | none => .error (.os ebadf)

/-- `ftruncate`. -/
def ftruncate (h : HostFiles) (fd len : Nat) : Except IoError HostFiles :=
  match h.fds fd with
  | some f => .ok { h with size := Function.update h.size f.id len }
  | none => .error (.os ebadf)

/-- `close`, when the last `Arc` of a handle's file is dropped. -/
def close (h : HostFiles) (fd : Nat) : HostFiles := { h with fds := Function.update h.fds fd none }

end HostFiles

/-! ## The calls -/

/-- `seal_size_check`: under `seal_size` no write or allocation may reach past the end of the
file, and collapsing or inserting a range is refused. -/
def sealSizeCheck (opcode : Opcode) (fileSize offset size mode : Nat) : Except IoError Unit :=
  if offset + size > u64Max then .error (.os einval)
  else
    match opcode with
    | .write => if size + offset > fileSize then .error (.os eperm) else .ok ()
    | .fallocate =>
      let op := clearBits mode (fallocFlKeepSize ||| fallocFlUnshareRange)
      if op = 0 ∨ op = fallocFlPunchHole ∨ op = fallocFlZeroRange then
        if size + offset > fileSize then .error (.os eperm) else .ok ()
      else if op = fallocFlCollapseRange ∨ op = fallocFlInsertRange then .error (.os eperm)
      else .error (.os einval)
    | _ => .error (.os enosys)

/-- `HandleMap::get`: the handle's data, if it was opened on `inode`. -/
def getHandle (handles : Nat → Option HandleData) (handle inode : Nat) : Except IoError HandleData :=
  match handles handle with
  | some hd => if hd.inode = inode then .ok hd else .error (.os ebadf)
  | none => .error (.os ebadf)

/-- `check_fd_flags`: where the request's flags are not the handle's, they are set on the
descriptor with `F_SETFL` and kept as the handle's. -/
def checkFdFlags (data : HandleData) (host : HostFiles) (flags : Nat) :
    Except IoError (HandleData × HostFiles) :=
  if data.openFlags != flags then
    match host.setfl data.file flags with
    | .ok host' => .ok ({ data with openFlags := flags }, host')
    | .error e => .error e
  else .ok (data, host)

namespace PassthroughFs

/-- `get_writeback_open_flags`: with writeback caching a write-only open also reads, and
`O_APPEND` is left to the kernel. -/
def getWritebackOpenFlags (fs : PassthroughFs) (flags : Nat) : Nat :=
  let newFlags :=
    if fs.writeback && flags &&& oAccmode == oWronly then clearBits flags oAccmode ||| oRdwr
    else flags
  if fs.writeback && hasFlag flags oAppend then clearBits newFlags oAppend else newFlags

/-- `open_inode`: a new descriptor on the inode's host file. -/
def openInode (fs : PassthroughFs) (host : HostFiles) (inode flags : Nat) :
    Except IoError (Nat × HostFiles) :=
  match fs.inodeMap.get inode with
  | none => .error (.os ebadf)
  | some data =>
    if !isSafeInode data.mode then .error (.os ebadf)
    else
      let newFlags := fs.getWritebackOpenFlags flags
      let newFlags :=
        if !fs.cfg.allowDirectIo && hasFlag flags oDirect then clearBits newFlags oDirect
        else newFlags
      .ok (host.openFile data.id (newFlags ||| oCloexec))

/-- `get_data`: the handle's data, or with `no_open` the data of a descriptor opened for the
call. -/
def getData (fs : PassthroughFs) (host : HostFiles) (handle inode flags : Nat) :
    Except IoError (HandleData × HostFiles) :=
  if !fs.noOpen then (getHandle fs.handleMap handle inode).map fun hd => (hd, host)
  else (fs.openInode host inode flags).map fun (fd, host') => (⟨inode, fd, flags⟩, host')

/-- The data of a handle written back after `check_fd_flags` changed its flags through the
`Arc` the map shares; with `no_open` the data was the call's own. -/
def keepHandle (fs : PassthroughFs) (handle : Nat) (data : HandleData) : PassthroughFs :=
  if fs.noOpen then fs else { fs with handleMap := Function.update fs.handleMap handle (some data) }

/-- `do_open`: a new handle on a new descriptor, with the request's flags. -/
def doOpen (fs : PassthroughFs) (host : HostFiles) (inode flags : Nat) :
    Except IoError Nat × PassthroughFs × HostFiles :=
  match fs.openInode host inode flags with
  | .error e => (.error e, fs, host)
  | .ok (fd, host') =>
    (.ok fs.nextHandle,
      { fs with
        handleMap := Function.update fs.handleMap fs.nextHandle (some ⟨inode, fd, flags⟩)
        nextHandle := fs.nextHandle + 1 },
      host')

/-- `open`. -/
def open_ (fs : PassthroughFs) (host : HostFiles) (inode flags : Nat) :
    Except IoError Nat × PassthroughFs × HostFiles :=
  if fs.noOpen then (.error (.os enosys), fs, host) else fs.doOpen host inode flags

/-- `read`: the count read at `offset`, after `check_fd_flags`. -/
def read (fs : PassthroughFs) (host : HostFiles) (inode handle size offset flags : Nat) :
    Except IoError Nat × PassthroughFs × HostFiles :=
  match fs.getData host handle inode oRdonly with
  | .error e => (.error e, fs, host)
  | .ok (data, host₁) =>
    match checkFdFlags data host₁ flags with
    | .error e => (.error e, fs, host₁)
    | .ok (data, host₂) => (host₂.pread data.file size offset, fs.keepHandle handle data, host₂)

/-- The size check of `write` and `fallocate`, made only under `seal_size`, on the size of the
descriptor's file. -/
def sealed (fs : PassthroughFs) (host : HostFiles) (opcode : Opcode) (fd offset size mode : Nat) :
    Except IoError Unit :=
  if fs.sealSize then (host.fstat fd).bind fun st => sealSizeCheck opcode st offset size mode
  else .ok ()

/-- `write`: `size` bytes of the request at `offset`, through the descriptor after
`check_fd_flags`. -/
def write (fs : PassthroughFs) (host : HostFiles) (inode handle size offset flags : Nat) :
    Except IoError Nat × PassthroughFs × HostFiles :=
  match fs.getData host handle inode oRdwr with
  | .error e => (.error e, fs, host)
  | .ok (data, host₁) =>
    match checkFdFlags data host₁ flags with
    | .error e => (.error e, fs, host₁)
    | .ok (data, host₂) =>
      let fs' := fs.keepHandle handle data
      match fs.sealed host₂ .write data.file offset size 0 with
      | .error e => (.error e, fs', host₂)
      | .ok () =>
        match host₂.pwrite data.file size offset with
        | .ok (n, host₃) => (.ok n, fs', host₃)
        | .error e => (.error e, fs', host₂)

/-- `fallocate`. -/
def fallocate (fs : PassthroughFs) (host : HostFiles) (inode handle mode offset length : Nat) :
    Except IoError Unit × HostFiles :=
  match fs.getData host handle inode oRdwr with
  | .error e => (.error e, host)
  | .ok (data, host₁) =>
    match fs.sealed host₁ .fallocate data.file offset length mode with
    | .error e => (.error e, host₁)
    | .ok () =>
      match host₁.fallocate data.file mode offset length with
      | .ok host₂ => (.ok (), host₂)
      | .error e => (.error e, host₁)

/-- The size change of `setattr`: refused under `seal_size`, or else `ftruncate` on the handle's
descriptor, or on one opened for the call when there is no handle or `no_open` is set. -/
def setattrSize (fs : PassthroughFs) (host : HostFiles) (inode : Nat) (handle : Option Nat)
    (size : Nat) : Except IoError Unit × HostFiles :=
  match fs.inodeMap.get inode with
  | none => (.error (.os ebadf), host)
  | some _ =>
    let data : Except IoError (Option HandleData) :=
      if fs.noOpen then .ok none
      else
        match handle with
        | some h => (getHandle fs.handleMap h inode).map some
        | none => .ok none
    match data with
    | .error e => (.error e, host)
    | .ok data =>
      if fs.sealSize then (.error (.os eperm), host)
      else
        match data with
        | some hd =>
          match host.ftruncate hd.file size with
          | .ok host' => (.ok (), host')
          | .error e => (.error e, host)
        | none =>
          match fs.openInode host inode (oNonblock ||| oRdwr) with
          | .error e => (.error e, host)
          | .ok (fd, host₁) =>
            match host₁.ftruncate fd size with
            | .ok host₂ => (.ok (), host₂)
            | .error e => (.error e, host₁)

/-- `release`, through `HandleMap::release`: the handle goes, and its descriptor is closed. -/
def release (fs : PassthroughFs) (host : HostFiles) (inode handle : Nat) :
    Except IoError Unit × PassthroughFs × HostFiles :=
  if fs.noOpen then (.error (.os enosys), fs, host)
  else
    match getHandle fs.handleMap handle inode with
    | .error e => (.error e, fs, host)
    | .ok hd =>
      (.ok (), { fs with handleMap := Function.update fs.handleMap handle none }, host.close hd.file)

end PassthroughFs

end FuseBackend.Passthrough
