import FuseBackend.Api.Vfs
import FuseBackend.Passthrough.InodeStore

/-!
# `PassthroughFs`: lookup and forget

How `passthrough/mod.rs` hands out inode numbers. `do_lookup` asks the host to open the name
under the parent (`open_file_and_handle`), looks the file up by its alternate key
(`get_alt_locked`), and when the file is new takes a number from `allocate_inode` and inserts it
with a refcount of 1. `forget_one` takes references away and removes the entry at 0, keeping its
keys when the number is to be handed out again to the same file. With `use_host_ino` the number
is built from the host's by `UniqueInodeGenerator` (`passthrough/util.rs`).

The host is an oracle: what it answers `open_file_and_handle` is the argument of `do_lookup`,
the `statx` of the file and the handle `FileHandle::from_fd` gives for it. The calls run one at a
time, so the atomics are plain fields, and the compare-and-swap loops succeed at their first
round; the search loop of `do_lookup`, which retries while the entry it found has a refcount of
0, never ends in that case, and `do_lookup` returns `none` for it.
-/

namespace FuseBackend.Passthrough

open Api

/-- `MAX_HOST_INO`. -/
def maxHostIno : Nat := 0x7fffffffffff
/-- `VIRTUAL_INODE_FLAG`. -/
def virtualInodeFlag : Nat := 1 <<< 55
/-- `u64::MAX`. -/
def u64Max : Nat := 2 ^ 64 - 1
/-- `FUSE_ATTR_DAX`. -/
def fuseAttrDax : Nat := 1 <<< 1
/-- `S_IFMT` and `S_IFDIR`. -/
def sIfmt : Nat := 0o170000
def sIfdir : Nat := 0o040000

def isDir (mode : Nat) : Bool := mode &&& sIfmt == sIfdir

/-- The fields of `passthrough::Config` the modelled calls read, with their defaults. -/
structure Config where
  entryTimeout : Duration := ⟨5, 0⟩
  attrTimeout : Duration := ⟨5, 0⟩
  dirEntryTimeout : Option Duration := none
  dirAttrTimeout : Option Duration := none
  inodeFileHandles : Bool := false
  sealSize : Bool := false
  daxFileSize : Option Nat := none
  useHostIno : Bool := false
  allowDirectIo : Bool := true
  noReaddir : Bool := false
  deriving DecidableEq, Repr

/-- `StatExt`: the `stat64` of a file with its `st_dev`, and the mount id `statx` reports. -/
structure StatExt where
  st : Stat64
  dev : Nat
  mntId : Nat
  deriving DecidableEq, Repr

def InodeId.fromStat (st : StatExt) : InodeId := ⟨st.st.stIno, st.dev, st.mntId⟩

/-- What the host answers `open_file_and_handle` for a name: the `statx` of the file it opened
and the file handle `FileHandle::from_fd` gives for it, `None` where the host has none. -/
structure HostEntry where
  st : StatExt
  handle : Option FileHandle
  deriving DecidableEq, Repr

/-- `UniqueInodeGenerator`: the small id of each `(dev, mnt_id)` pair seen, and the counters. -/
structure UniqueInodeGenerator where
  devMntidMap : Nat × Nat → Option Nat
  nextUniqueId : Nat
  nextVirtualInode : Nat

namespace UniqueInodeGenerator

def new : UniqueInodeGenerator := ⟨fun _ => none, 1, rootId + 1⟩

/-- The small id of a `(dev, mnt_id)` pair, handed out at the pair's first use. -/
def uniqueIdOf (g : UniqueInodeGenerator) (pair : Nat × Nat) :
    Except IoError (Nat × UniqueInodeGenerator) :=
  match g.devMntidMap pair with
  | some v => .ok (v, g)
  | none =>
    if g.nextUniqueId = 255 then
      .error (.custom .other "the number of combinations of dev and mntid exceeds 255")
    else
      .ok (g.nextUniqueId, { g with
        devMntidMap := Function.update g.devMntidMap pair (some g.nextUniqueId)
        nextUniqueId := g.nextUniqueId + 1 })

/-- `get_unique_inode`: the small id of the pair in the bits from 47 up, and below them the host
inode number, or for a host number above `MAX_HOST_INO` a virtual one with `VIRTUAL_INODE_FLAG`.
A new pair keeps its small id even when the virtual numbers have run out. -/
def getUniqueInode (g : UniqueInodeGenerator) (id : InodeId) :
    Except IoError Nat × UniqueInodeGenerator :=
  match g.uniqueIdOf (id.dev, id.mnt) with
  | .error e => (.error e, g)
  | .ok (uniqueId, g) =>
    if id.ino ≤ maxHostIno then (.ok (uniqueId <<< 47 ||| id.ino), g)
    else if g.nextVirtualInode > maxHostIno then
      (.error (.custom .other "the virtual inode excess 140737488355327"), g)
    else
      (.ok (uniqueId <<< 47 ||| (g.nextVirtualInode ||| virtualInodeFlag)),
        { g with nextVirtualInode := g.nextVirtualInode + 1 })

end UniqueInodeGenerator

/-- `HandleData`: the inode a handle was opened on, the host descriptor and its open flags. -/
structure HandleData where
  inode : Nat
  file : Nat
  openFlags : Nat
  deriving DecidableEq, Repr

structure PassthroughFs where
  inodeMap : InodeStore
  nextInode : Nat
  handleMap : Nat → Option HandleData
  nextHandle : Nat
  inoAllocator : UniqueInodeGenerator
  writeback : Bool
  noOpen : Bool
  sealSize : Bool
  perfileDax : Bool
  dirEntryTimeout : Duration
  dirAttrTimeout : Duration
  cfg : Config

namespace PassthroughFs

/-- `PassthroughFs::new`. -/
def new (cfg : Config) : PassthroughFs :=
  let dirTimeouts :=
    match cfg.dirEntryTimeout, cfg.dirAttrTimeout with
    | some e, some a => (e, a)
    | some e, none => (e, cfg.attrTimeout)
    | none, some a => (cfg.entryTimeout, a)
    | none, none => (cfg.entryTimeout, cfg.attrTimeout)
  { inodeMap := .empty, nextInode := rootId + 1, handleMap := fun _ => none, nextHandle := 1,
    inoAllocator := .new, writeback := false, noOpen := false, sealSize := cfg.sealSize,
    perfileDax := false, dirEntryTimeout := dirTimeouts.1, dirAttrTimeout := dirTimeouts.2,
    cfg := cfg }

/-- `open_file_and_handle`: the handle is asked for only with `inode_file_handles`. -/
def openFileAndHandle (fs : PassthroughFs) (ans : Except IoError HostEntry) :
    Except IoError (StatExt × Option FileHandle) :=
  ans.map fun a => (a.st, if fs.cfg.inodeFileHandles then a.handle else none)

def inodeHandle : Option FileHandle → InodeHandle
  | some h => .handle h
  | none => .file

/-- `import`: the root directory under `ROOT_ID`, with the refcount of 2 libfuse gives it. -/
def importRoot (fs : PassthroughFs) (root : Except IoError HostEntry) :
    Except IoError PassthroughFs := do
  let (st, handleOpt) ← fs.openFileAndHandle root
  let root := InodeData.new rootId (inodeHandle handleOpt) 2 (.fromStat st) st.st.stMode
  pure { fs with inodeMap := fs.inodeMap.insert root }

end PassthroughFs

namespace InodeMap

/-- `get_inode_locked`: the number kept under the handle, or under the id without one. -/
def getInodeLocked (inodes : InodeStore) (id : InodeId) (handle : Option FileHandle) : Option Nat :=
  match handle with
  | some h => inodes.inodeByHandle h
  | none => inodes.inodeById id

/-- `get_alt_locked`: the entry under the handle, or else the entry under the id, which is
taken for a file with a handle only if that entry has none. -/
def getAltLocked (inodes : InodeStore) (id : InodeId) (handle : Option FileHandle) :
    Option InodeData :=
  (handle.bind inodes.getByHandle).or
    ((inodes.getById id).filter fun data => handle.isNone || data.handle.fileHandle.isNone)

end InodeMap

namespace PassthroughFs

open InodeMap

def uniqueInode (fs : PassthroughFs) (id : InodeId) : Except IoError Nat × PassthroughFs :=
  let (r, g) := fs.inoAllocator.getUniqueInode id
  (r, { fs with inoAllocator := g })

/-- `allocate_inode`. Without `use_host_ino` a number kept for the key is used again and a new
one comes from `next_inode`; with it, only a host number above `MAX_HOST_INO` looks for a kept
one. -/
def allocateInode (fs : PassthroughFs) (id : InodeId) (handleOpt : Option FileHandle) :
    Except IoError Nat × PassthroughFs :=
  if !fs.cfg.useHostIno then
    match getInodeLocked fs.inodeMap id handleOpt with
    | some ino => (.ok ino, fs)
    | none => (.ok fs.nextInode, { fs with nextInode := fs.nextInode + 1 })
  else if id.ino > maxHostIno then
    match getInodeLocked fs.inodeMap id handleOpt with
    | some ino => (.ok ino, fs)
    | none => fs.uniqueInode id
  else fs.uniqueInode id

/-- The inode number of `do_lookup`: the search loop, then under the write lock the search again
and the insertion. -/
def lookupInode (fs : PassthroughFs) (id : InodeId) (handleOpt : Option FileHandle) (mode : Nat) :
    Option (Except IoError Nat × PassthroughFs) :=
  match getAltLocked fs.inodeMap id handleOpt with
  | some data =>
    if data.refcount = 0 then none
    else
      some (.ok data.inode,
        { fs with inodeMap := fs.inodeMap.setRefcount data (min (data.refcount + 1) u64Max) })
  | none =>
    match getAltLocked fs.inodeMap id handleOpt with
    | some data =>
      some (.ok data.inode,
        { fs with inodeMap := fs.inodeMap.setRefcount data ((data.refcount + 1) % 2 ^ 64) })
    | none =>
      match fs.allocateInode id handleOpt with
      | (.error e, fs) => some (.error e, fs)
      | (.ok inode, fs) =>
        if inode > vfsMaxIno then
          some (.error (.custom .other "max inode number reached: 72057594037927935"), fs)
        else
          some (.ok inode,
            { fs with inodeMap := fs.inodeMap.insert (.new inode (inodeHandle handleOpt) 1 id mode) })

/-- The `Entry` `do_lookup` answers for an inode and the `statx` of its file. -/
def entry (fs : PassthroughFs) (inode : Nat) (st : StatExt) : Entry :=
  let timeouts :=
    if isDir st.st.stMode then (fs.dirEntryTimeout, fs.dirAttrTimeout)
    else (fs.cfg.entryTimeout, fs.cfg.attrTimeout)
  let attrFlags :=
    match fs.cfg.daxFileSize with
    | some daxFileSize => if fs.perfileDax && daxFileSize ≤ st.st.stSize then fuseAttrDax else 0
    | none => 0
  ⟨inode, 0, st.st, attrFlags, timeouts.2, timeouts.1⟩

/-- `do_lookup` of a name under `parent`, for which the host answered `ans`. -/
def doLookup (fs : PassthroughFs) (parent : Nat) (ans : Except IoError HostEntry) :
    Option (Except IoError Entry × PassthroughFs) :=
  match fs.inodeMap.get parent with
  | none => some (.error (.os ebadf), fs)
  | some _ =>
    match fs.openFileAndHandle ans with
    | .error e => some (.error e, fs)
    | .ok (st, handleOpt) =>
      (fs.lookupInode (.fromStat st) handleOpt st.st.stMode).map fun (r, fs') =>
        (r.map fun inode => fs.entry inode st, fs')

/-- `forget_one`. The root is never forgotten. At a refcount of 0 the entry goes, and its keys
stay unless `use_host_ino` built its number from a host number up to `MAX_HOST_INO`. -/
def forgetOne (fs : PassthroughFs) (inodes : InodeStore) (inode count : Nat) : InodeStore :=
  if inode = rootId then inodes
  else
    match inodes.get inode with
    | none => inodes
    | some data =>
      let new := data.refcount - count
      let inodes := inodes.setRefcount data new
      if new = 0 then
        let keepMapping := !fs.cfg.useHostIno || decide (data.id.ino > maxHostIno)
        (inodes.remove inode keepMapping).2
      else inodes

def forget (fs : PassthroughFs) (inode count : Nat) : PassthroughFs :=
  { fs with inodeMap := fs.forgetOne fs.inodeMap inode count }

def batchForget (fs : PassthroughFs) (requests : List (Nat × Nat)) : PassthroughFs :=
  { fs with inodeMap := requests.foldl (fun inodes r => fs.forgetOne inodes r.1 r.2) fs.inodeMap }

end PassthroughFs

end FuseBackend.Passthrough
