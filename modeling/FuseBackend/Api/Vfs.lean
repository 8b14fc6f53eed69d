import Mathlib.Logic.Function.Basic
import Mathlib.Data.UInt
import FuseBackend.Lib.RangeShift
import FuseBackend.Api.PseudoFs

/-!
# `Vfs`

The union file system of `api/vfs`: a `PseudoFs` holds the directories leading to the mount
points, `mountpoints` maps a pseudo-fs inode to the file system mounted on it, and `superblocks`
holds the mounted file systems by their 8-bit index. An inode number the kernel sees carries the
index in its top 8 bits and the backend's own number in the 56 below; index 0 is the pseudo fs.

A backend is any `β` with a `BackendFileSystem` instance, the model of the trait object: its
methods are taken at the moment of the call, and what they do inside the backend is not part of
the `Vfs` state. `VfsIndex` is `u8` as `Fin 256`, with its wrapping addition; ids are `u32` as
`UInt32`, whose addition and subtraction wrap as release builds do. The lock and the copy-on-write
`ArcSwap`s serialise the updates; the model performs each call as one step.
-/

namespace FuseBackend.Api

/-- `VfsIndex`, a `u8`. -/
abbrev VfsIndex := Fin 256

def vfsMaxIno : Nat := 0xffffffffffffff
def vfsIndexShift : Nat := 56
def vfsPseudoFsIdx : VfsIndex := 0
def maxVfsIndex : Nat := 256

/-- `VfsInode`, the `u64` inode number the kernel sees. -/
structure VfsInode where
  val : Nat
  deriving DecidableEq, Repr

namespace VfsInode

/-- `VfsInode::new`. Its `assert_eq!(ino & !VFS_MAX_INO, 0)` is the hypothesis. -/
def new (fsIdx : VfsIndex) (ino : Nat) (_h : ino ≤ vfsMaxIno) : VfsInode :=
  ⟨fsIdx.val <<< vfsIndexShift ||| ino⟩

def fsIdx (i : VfsInode) : VfsIndex := Fin.ofNat 256 (i.val >>> vfsIndexShift)

def isPseudoFs (i : VfsInode) : Bool := i.fsIdx == vfsPseudoFsIdx

def ino (i : VfsInode) : Nat := i.val &&& vfsMaxIno

end VfsInode

/-- The variants of `VfsError` that mounting and unmounting return. `Initialize` carries the
options and the error the code formats into its message. -/
inductive VfsError where
  | mount (e : IoError)
  | inodeIndex (msg : String)
  | fsIndex (e : IoError)
  | pathWalk (e : IoError)
  | notFound (msg : String)
  | initialize_ (opts : Nat) (e : IoError)
  deriving DecidableEq, Repr

/-- The trait `BackendFileSystem`, with the methods of its supertraits `FileSystem` and
`AsyncFileSystem` that `Vfs` calls. `FsOptions` and `SetattrValid` are their bits. -/
class BackendFileSystem (β : Type) where
  mount : β → Except IoError (Entry × Nat)
  init : β → Nat → Except IoError Nat
  lookup : β → Context → Nat → String → Except IoError Entry
  getattr : β → Context → Nat → Option Nat → Except IoError (Stat64 × Duration)
  setattr : β → Context → Nat → Stat64 → Option Nat → Nat → Except IoError (Stat64 × Duration)
  readdir {σ : Type} : β → Context → Nat → Nat → Nat → Nat →
    (σ → DirEntry → Except IoError Nat × σ) → σ → Except IoError Unit × σ
  readdirplus {σ : Type} : β → Context → Nat → Nat → Nat → Nat →
    (σ → DirEntry → Entry → Except IoError Nat × σ) → σ → Except IoError Unit × σ
  asyncLookup : β → Context → Nat → String → Except IoError Entry
  asyncGetattr : β → Context → Nat → Option Nat → Except IoError (Stat64 × Duration)
  asyncSetattr : β → Context → Nat → Stat64 → Option Nat → Nat → Except IoError (Stat64 × Duration)

/-- The options `Vfs` reads: the flags a backend is initialised with, and the id mapping
`(internal, external, range)`. -/
structure VfsOptions where
  outOpts : Nat
  idMapping : UInt32 × UInt32 × UInt32
  deriving DecidableEq, Repr

/-- `MountPointData`. The backend's root inode number passed `convert_inode`, so it fits in the
56 bits of a `VfsInode`. -/
structure MountPointData where
  fsIdx : VfsIndex
  ino : Nat
  rootEntry : Entry
  path : List Char
  ino_le : ino ≤ vfsMaxIno

structure Vfs (β : Type) where
  nextSuper : VfsIndex
  root : PseudoFs
  mountpoints : AList (fun _ : Nat => MountPointData)
  superblocks : VfsIndex → Option β
  opts : VfsOptions
  initialized : Bool
  removePseudoRoot : Bool
  idMapping : Option (UInt32 × UInt32 × UInt32)

namespace Vfs

variable {β : Type}

def new (opts : VfsOptions) : Vfs β where
  nextSuper := vfsPseudoFsIdx + 1
  root := PseudoFs.new
  mountpoints := ∅
  superblocks := fun _ => none
  opts := opts
  initialized := false
  removePseudoRoot := false
  idMapping := if opts.idMapping.2.2 = 0 then none else some opts.idMapping

def convertInode (fsIdx : VfsIndex) (inode : Nat) : Except IoError Nat :=
  -- a negative entry is not hashed
  if inode = 0 then .ok inode
  else if inode > vfsMaxIno then
    .error (.custom .other
      ("Inode number " ++ toString inode ++ " too large, max supported " ++ toString vfsMaxIno))
  else .ok (fsIdx.val <<< vfsIndexShift ||| inode)

def convertEntry (v : Vfs β) (fsIdx : VfsIndex) (inode : Nat) (entry : Entry) :
    Except IoError Entry :=
  (convertInode fsIdx inode).map fun ino =>
    let attr := { entry.attr with stIno := ino }
    let attr :=
      match v.idMapping with
      | some (internalId, externalId, range) =>
        { attr with
          stUid := RangeShift.shift internalId externalId range attr.stUid
          stGid := RangeShift.shift internalId externalId range attr.stGid }
      | none => attr
    { entry with inode := ino, attr := attr }

/-- `remap_attr_id`: internal ids to external ones, or back. -/
def remapAttrId (v : Vfs β) (mapInternalToExternal : Bool) (attr : Stat64) : Stat64 :=
  match v.idMapping with
  | none => attr
  | some (internalId, externalId, range) =>
    if mapInternalToExternal then
      { attr with
        stUid := RangeShift.shift internalId externalId range attr.stUid
        stGid := RangeShift.shift internalId externalId range attr.stGid }
    else
      { attr with
        stUid := RangeShift.shift externalId internalId range attr.stUid
        stGid := RangeShift.shift externalId internalId range attr.stGid }

/-! ## The id mapping in a debug build

The same three functions as a debug build runs them, where `u32` arithmetic that overflows
panics: `none` is the panic. `convert_entry` moves the ids with the code of `remap_attr_id(true)`.
-/

/-- One id moved from `[src, src + range)` to `dst` on, on the `u32` values. -/
def remapIdChecked (src dst range id : UInt32) : Option UInt32 :=
  (RangeShift.shiftChecked 32 src.toNat dst.toNat range.toNat id.toNat).map UInt32.ofNat

def remapAttrIdChecked (v : Vfs β) (mapInternalToExternal : Bool) (attr : Stat64) :
    Option Stat64 :=
  match v.idMapping with
  | none => some attr
  | some (internalId, externalId, range) =>
    if mapInternalToExternal then do
      let uid ← remapIdChecked internalId externalId range attr.stUid
      let gid ← remapIdChecked internalId externalId range attr.stGid
      return { attr with stUid := uid, stGid := gid }
    else do
      let uid ← remapIdChecked externalId internalId range attr.stUid
      let gid ← remapIdChecked externalId internalId range attr.stGid
      return { attr with stUid := uid, stGid := gid }

def idRemapChecked (v : Vfs β) (ctx : Context) : Option Context :=
  match v.idMapping with
  | none => some ctx
  | some (internalId, externalId, range) => do
    let uid ← remapIdChecked externalId internalId range ctx.uid
    let gid ← remapIdChecked externalId internalId range ctx.gid
    return { ctx with uid := uid, gid := gid }

theorem convertInode_le {fsIdx : VfsIndex} {inode ino : Nat}
    (h : convertInode fsIdx inode = .ok ino) : inode ≤ vfsMaxIno := by
  unfold convertInode at h
  split_ifs at h with h0 hmax
  · simp [h0]
  · exact Nat.le_of_not_lt hmax

theorem convertEntry_le {v : Vfs β} {fsIdx : VfsIndex} {inode : Nat} {entry e : Entry}
    (h : v.convertEntry fsIdx inode entry = .ok e) : inode ≤ vfsMaxIno := by
  unfold convertEntry at h
  cases hc : convertInode fsIdx inode with
  | error err => simp [hc, Except.map] at h
  | ok ino => exact convertInode_le hc

/-! ## Mounting -/

def vfsMaximumMountpointsReached : IoError := .custom .other "vfs maximum mountpoints reached"

/-- The loop of `allocate_fs_idx` at the round where `fetch_add` hands out `index`; `found`
records that `start` was handed out before. Returns the result and the counter after the loop.
Every index is handed out once in the first 256 rounds and `start` again in the 257th, so that
much `fuel` is never used up. An index is always below the vector's length of 256, so that
test is left out. -/
def allocateLoop (superblocks : VfsIndex → Option β) (start : VfsIndex) :
    Nat → Bool → VfsIndex → Except IoError VfsIndex × VfsIndex
  | 0, _, index => (.error vfsMaximumMountpointsReached, index)
  | fuel + 1, found, index =>
    if index = start ∧ found then (.error vfsMaximumMountpointsReached, index + 1)
    else if index = vfsPseudoFsIdx ∨ (superblocks index).isSome then
      allocateLoop superblocks start fuel (found || decide (index = start)) (index + 1)
    else (.ok index, index + 1)

def allocateFsIdx (v : Vfs β) : Except IoError VfsIndex × Vfs β :=
  let (r, nextSuper) := allocateLoop v.superblocks v.nextSuper (maxVfsIndex + 1) false v.nextSuper
  (r, { v with nextSuper := nextSuper })

def getFsByIdx (v : Vfs β) (fsIdx : VfsIndex) : Except IoError β :=
  match v.superblocks fsIdx with
  | some fs => .ok fs
  | none => .error (.os enoent)

/-- `insert_mount_locked`. The directories the pseudo fs creates stay, also when converting the
root entry fails afterwards. -/
def insertMountLocked (v : Vfs β) (fs : β) (entry : Entry) (fsIdx : VfsIndex) (path : List Char) :
    Option (Except IoError Unit × Vfs β) :=
  (v.root.mount path).map fun (r, root) =>
    let v := { v with root := root }
    match r with
    | .error e => (.error e, v)
    | .ok inode =>
      match hc : v.convertEntry fsIdx entry.inode entry with
      | .error e => (.error e, v)
      | .ok rootEntry =>
        -- an over-mount invalidates the file system mounted there before
        let superblocks :=
          match v.mountpoints.lookup inode with
          | some mnt => Function.update v.superblocks mnt.fsIdx none
          | none => v.superblocks
        let mnt : MountPointData := ⟨fsIdx, entry.inode, rootEntry, path, convertEntry_le hc⟩
        (.ok (), { v with
          superblocks := Function.update superblocks fsIdx (some fs)
          mountpoints := v.mountpoints.insert inode mnt })

def unsupportedMaxIno (ino : Nat) : String :=
  "Unsupported max inode number, requested " ++ toString ino ++ " supported " ++ toString vfsMaxIno

variable [BackendFileSystem β]

def mount (v : Vfs β) (fs : β) (path : List Char) : Option (Except VfsError VfsIndex × Vfs β) :=
  match BackendFileSystem.mount fs with
  | .error e => some (.error (.mount e), v)
  | .ok (entry, ino) =>
    if ino > vfsMaxIno then some (.error (.inodeIndex (unsupportedMaxIno ino)), v)
    else
      let init : Except IoError Unit :=
        if v.initialized then (BackendFileSystem.init fs v.opts.outOpts).map fun _ => ()
        else .ok ()
      match init with
      | .error e => some (.error (.initialize_ v.opts.outOpts e), v)
      | .ok () =>
        match v.allocateFsIdx with
        | (.error e, v) => some (.error (.fsIndex e), v)
        | (.ok index, v) =>
          (v.insertMountLocked fs entry index path).map fun (r, v) =>
            match r with
            | .ok () => (.ok index, v)
            | .error e => (.error (.mount e), v)

/-- `restore_mount`: mounts at an index saved before, which is not checked. -/
def restoreMount (v : Vfs β) (fs : β) (fsIdx : VfsIndex) (path : List Char) :
    Option (Except IoError Unit × Vfs β) :=
  match BackendFileSystem.mount fs with
  | .error e => some (.error e, v)
  | .ok (entry, ino) =>
    if ino > vfsMaxIno then some (.error (.custom .other (unsupportedMaxIno ino)), v)
    else v.insertMountLocked fs entry fsIdx path

/-- `umount`: returns the inode of the mount point and its parent. With `remove_pseudo_root`
the mount point's pseudo-fs inode is evicted. -/
def umount (v : Vfs β) (path : List Char) : Option (Except VfsError (Nat × Nat) × Vfs β) := do
  match ← v.root.pathWalk path with
  | .error e => return (.error (.pathWalk e), v)
  | .ok none => return (.error (.notFound (String.ofList path)), v)
  | .ok (some inode) =>
    match v.root.getParentInode inode with
    | none => return (.error (.notFound (toString inode ++ "'s parent inode does not exist")), v)
    | some parent =>
      match v.mountpoints.lookup inode with
      | none => return (.error (.notFound (String.ofList path)), v)
      | some mnt =>
        let root ← if v.removePseudoRoot then v.root.evictInode inode else pure v.root
        return (.ok (inode, parent), { v with
          root := root
          mountpoints := v.mountpoints.erase inode
          superblocks := Function.update v.superblocks mnt.fsIdx none })

/-! ## Routing requests -/

/-- `get_real_rootfs`: the pseudo fs (`inl`) or the backend (`inr`) an inode belongs to, and the
inode to pass on. -/
def getRealRootfs (v : Vfs β) (inode : VfsInode) : Except IoError ((PseudoFs ⊕ β) × VfsInode) :=
  if inode.isPseudoFs then
    -- a file system mounted on the root of the `Vfs` answers for `ROOT_ID`
    if inode.ino = rootId then
      match v.mountpoints.lookup inode.ino with
      | some mnt =>
        (v.getFsByIdx mnt.fsIdx).map fun fs => (.inr fs, VfsInode.new mnt.fsIdx mnt.ino mnt.ino_le)
      | none => .ok (.inl v.root, inode)
    else .ok (.inl v.root, inode)
  else (v.getFsByIdx inode.fsIdx).map fun fs => (.inr fs, inode)

/-- `lookup_pseudo`: an entry that is a mount point is answered with the root entry stored at
mount time. -/
def lookupPseudo (v : Vfs β) (fs : PseudoFs) (now : Nat) (idata : VfsInode) (name : String) :
    Except IoError Entry :=
  match fs.lookup now idata.ino name with
  | .error e => .error e
  | .ok entry =>
    match v.mountpoints.lookup entry.inode with
    | some mnt => v.convertEntry mnt.fsIdx mnt.ino mnt.rootEntry
    | none => v.convertEntry idata.fsIdx entry.inode entry

/-- `lookup`. `.` and `..` are let through for NFS export. -/
def lookup (v : Vfs β) (now : Nat) (ctx : Context) (parent : VfsInode) (name : String) :
    Except IoError Entry :=
  if name.toList.contains '/' then .error (.os einval)
  else
    match v.getRealRootfs parent with
    | .error e => .error e
    | .ok (.inl fs, idata) => v.lookupPseudo fs now idata name
    | .ok (.inr fs, idata) =>
      match BackendFileSystem.lookup fs ctx idata.ino name with
      | .error e => .error e
      | .ok entry => v.convertEntry idata.fsIdx entry.inode entry

def getattr (v : Vfs β) (now : Nat) (ctx : Context) (inode : VfsInode) (handle : Option Nat) :
    Except IoError (Stat64 × Duration) :=
  match v.getRealRootfs inode with
  | .error e => .error e
  | .ok (.inl fs, idata) => fs.getattr now idata.ino
  | .ok (.inr fs, idata) =>
    (BackendFileSystem.getattr fs ctx idata.ino handle).map fun (attr, duration) =>
      (v.remapAttrId true { attr with stIno := idata.val }, duration)

/-- `setattr`. The pseudo fs does not implement it, so the trait's default answers `ENOSYS`. -/
def setattr (v : Vfs β) (ctx : Context) (inode : VfsInode) (attr : Stat64) (handle : Option Nat)
    (valid : Nat) : Except IoError (Stat64 × Duration) :=
  match v.getRealRootfs inode with
  | .error e => .error e
  | .ok (.inl _, _) => .error (.os enosys)
  | .ok (.inr fs, idata) =>
    (BackendFileSystem.setattr fs ctx idata.ino (v.remapAttrId false attr) handle valid).map
      fun (attr, duration) => (v.remapAttrId true { attr with stIno := idata.val }, duration)

def readdir {σ : Type} (v : Vfs β) (ctx : Context) (inode : VfsInode) (handle size offset : Nat)
    (addEntry : σ → DirEntry → Except IoError Nat × σ) (st : σ) : Except IoError Unit × σ :=
  match v.getRealRootfs inode with
  | .error e => (.error e, st)
  | .ok (.inl fs, idata) =>
    -- `PseudoFs::readdir` is `do_readdir`; a mount point is listed with its root inode
    fs.doReaddir idata.ino size offset (fun st dirEntry =>
      let ino :=
        match v.mountpoints.lookup dirEntry.ino with
        | some mnt => convertInode mnt.fsIdx mnt.ino
        | none => convertInode idata.fsIdx dirEntry.ino
      match ino with
      | .error e => (.error e, st)
      | .ok ino => addEntry st { dirEntry with ino := ino }) st
  | .ok (.inr fs, idata) =>
    BackendFileSystem.readdir fs ctx idata.ino handle size offset (fun st dirEntry =>
      match convertInode idata.fsIdx dirEntry.ino with
      | .error e => (.error e, st)
      | .ok ino => addEntry st { dirEntry with ino := ino }) st

def readdirplus {σ : Type} (v : Vfs β) (now : Nat) (ctx : Context) (inode : VfsInode)
    (handle size offset : Nat) (addEntry : σ → DirEntry → Entry → Except IoError Nat × σ)
    (st : σ) : Except IoError Unit × σ :=
  match v.getRealRootfs inode with
  | .error e => (.error e, st)
  | .ok (.inl fs, idata) =>
    fs.readdirplus now idata.ino size offset (fun st dirEntry entry =>
      -- a mount point is listed with the root entry stored at mount time
      let converted :=
        match v.mountpoints.lookup dirEntry.ino with
        | some mnt => (convertInode mnt.fsIdx mnt.ino).map fun ino => (ino, mnt.rootEntry)
        | none => (convertInode idata.fsIdx dirEntry.ino).map fun ino => (ino, { entry with inode := ino })
      match converted with
      | .error e => (.error e, st)
      | .ok (ino, entry) =>
        addEntry st { dirEntry with ino := ino } { entry with attr := { entry.attr with stIno := entry.inode } })
      st
  | .ok (.inr fs, idata) =>
    BackendFileSystem.readdirplus fs ctx idata.ino handle size offset (fun st dirEntry entry =>
      match convertInode idata.fsIdx entry.inode with
      | .error e => (.error e, st)
      | .ok ino =>
        addEntry st { dirEntry with ino := ino }
          { entry with inode := ino, attr := v.remapAttrId true { entry.attr with stIno := ino } })
      st

/-- `id_remap`: the caller's external ids become internal ones. -/
def idRemap (v : Vfs β) (ctx : Context) : Except IoError Context :=
  match v.idMapping with
  | none => .ok ctx
  | some (internalId, externalId, range) =>
    .ok { ctx with
      uid := RangeShift.shift externalId internalId range ctx.uid
      gid := RangeShift.shift externalId internalId range ctx.gid }

/-! ## `AsyncFileSystem` -/

def asyncLookup (v : Vfs β) (now : Nat) (ctx : Context) (parent : VfsInode) (name : String) :
    Except IoError Entry :=
  if name.toList.contains '/' then .error (.os einval)
  else
    match v.getRealRootfs parent with
    | .error e => .error e
    | .ok (.inl fs, idata) => v.lookupPseudo fs now idata name
    | .ok (.inr fs, idata) =>
      match BackendFileSystem.asyncLookup fs ctx idata.ino name with
      | .error e => .error e
      | .ok entry => v.convertEntry idata.fsIdx entry.inode entry

/-- `async_getattr`: the backend's answer is passed on as it is. -/
def asyncGetattr (v : Vfs β) (now : Nat) (ctx : Context) (inode : VfsInode) (handle : Option Nat) :
    Except IoError (Stat64 × Duration) :=
  match v.getRealRootfs inode with
  | .error e => .error e
  | .ok (.inl fs, idata) => fs.getattr now idata.ino
  | .ok (.inr fs, idata) => BackendFileSystem.asyncGetattr fs ctx idata.ino handle

/-- `async_setattr`: the attributes go to the backend, and come back, as they are. -/
def asyncSetattr (v : Vfs β) (ctx : Context) (inode : VfsInode) (attr : Stat64)
    (handle : Option Nat) (valid : Nat) : Except IoError (Stat64 × Duration) :=
  match v.getRealRootfs inode with
  | .error e => .error e
  | .ok (.inl _, _) => .error (.os enosys)
  | .ok (.inr fs, idata) => BackendFileSystem.asyncSetattr fs ctx idata.ino attr handle valid

end Vfs

end FuseBackend.Api
