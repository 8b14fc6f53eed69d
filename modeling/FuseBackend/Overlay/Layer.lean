import FuseBackend.Api.Abi
import FuseBackend.Lib.Utf8
import Mathlib.Data.List.AList

/-!
# Layers of an overlay

A layer is a file system behind the `Layer` trait of `api/filesystem/overlay.rs`. The overlay
reads every layer through `lookup`, `getattr`, `readdir`, `readlink`, `read` and `getxattr`, and
writes the upper one through `mkdir`, `mknod`, `create`, `symlink`, `link`, `write`, `setattr`,
`unlink`, `rmdir`, `setxattr` and `removexattr`. `Layer` is such a file system as a passthrough layer over a POSIX host keeps it:
a table of nodes, each with its attributes, extended attributes, directory entries by byte name
and data. A node a request creates belongs to the caller (`set_creds`) and gets the requested
mode less the `umask` of the request; the daemon's own umask is 0.

The trait's provided methods `create_whiteout`, `delete_whiteout`, `is_whiteout`, `set_opaque`
and `is_opaque` are translated over these operations.

Two assumptions about the host stand in this model of a layer. A call fails only with the errors
the table itself gives (`EBADF` for an unknown node, `ENOENT`, `ENOTDIR`, `EISDIR`, `EEXIST`,
`ENOTEMPTY`, `ENODATA`, `ERANGE`, `EINVAL`, `EPERM`): the host never answers `EIO`, `EACCES` or
another error of its own. And nothing outside the overlay changes a layer between two calls: the upper layer changes
only by the overlay's writes, the lower ones never.
-/

namespace FuseBackend.Overlay

open Api

def erange : Nat := 34
def enodata : Nat := 61

/-- `utils::is_dir`. -/
def isDir (st : Stat64) : Bool := st.stMode &&& sIfmt == sIfdir

def isChardev (st : Stat64) : Bool := st.stMode &&& sIfmt == sIfchr

/-- glibc's `major` and `minor` of a 64-bit device number. -/
def major (dev : Nat) : Nat := (dev >>> 8) &&& 0xfff ||| (dev >>> 32) % 2 ^ 32 &&& 0xfffff000
def minor (dev : Nat) : Nat := dev &&& 0xff ||| (dev >>> 12) % 2 ^ 32 &&& 0xffffff00

/-- A whiteout is a character device with device number 0/0. -/
def isWhiteout (st : Stat64) : Bool :=
  isChardev st && major st.stRdev == 0 && minor st.stRdev == 0

/-- `OPAQUE_XATTR_LEN` and the three names of the opaque attribute. -/
def opaqueXattrLen : Nat := 16
def opaqueXattr : List Char := "user.fuseoverlayfs.opaque".toList
def unprivilegedOpaqueXattr : List Char := "user.overlay.opaque".toList
def privilegedOpaqueXattr : List Char := "trusted.overlay.opaque".toList

/-- `u8::to_ascii_lowercase`. -/
def toAsciiLowercase (b : UInt8) : UInt8 := if 65 ≤ b.toNat ∧ b.toNat ≤ 90 then b + 32 else b

inductive GetxattrReply where
  | value (buf : List UInt8)
  | count (n : Nat)
  deriving DecidableEq, Repr

structure LayerNode where
  attr : Stat64
  xattrs : AList (fun _ : List UInt8 => List UInt8) := ∅
  entries : AList (fun _ : List UInt8 => Nat) := ∅
  data : List UInt8 := []

structure Layer where
  nodes : Nat → Option LayerNode
  rootInode : Nat
  nextInode : Nat

/-- The `Entry` a layer answers for the node `n` numbered `ino`. -/
def entryOf (ino : Nat) (n : LayerNode) : Entry :=
  { inode := ino, generation := 0, attr := n.attr, attrFlags := 0, attrTimeout := ⟨0, 0⟩,
    entryTimeout := ⟨0, 0⟩ }

namespace Layer

variable (l : Layer)

def node (ino : Nat) : Except IoError LayerNode :=
  match l.nodes ino with
  | some n => .ok n
  | none => .error (.os ebadf)

def setNode (ino : Nat) (n : LayerNode) : Layer :=
  { l with nodes := Function.update l.nodes ino (some n) }

def getattr (ino : Nat) : Except IoError Stat64 := do
  return (← l.node ino).attr

def lookup (parent : Nat) (name : List UInt8) : Except IoError Entry := do
  let p ← l.node parent
  if !isDir p.attr then throw (.os enotdir)
  match p.entries.lookup name with
  | some ino => return entryOf ino (← l.node ino)
  | none => throw (.os enoent)

/-- The names of a directory's entries, as `readdir` lists them until it returns no more. -/
def readdir (ino : Nat) : Except IoError (List (List UInt8)) := do
  let n ← l.node ino
  if !isDir n.attr then throw (.os enotdir)
  return n.entries.keys

def readlink (ino : Nat) : Except IoError (List UInt8) := do
  let n ← l.node ino
  if n.attr.stMode &&& sIfmt != sIflnk then throw (.os einval)
  return n.data

/-- A file's bytes, as `read` returns them from offset 0 until it returns no more. -/
def read (ino : Nat) : Except IoError (List UInt8) := do
  return (← l.node ino).data

def getxattr (ino : Nat) (name : List UInt8) (size : Nat) : Except IoError GetxattrReply := do
  let n ← l.node ino
  match n.xattrs.lookup name with
  | none => throw (.os enodata)
  | some v =>
    if size = 0 then return .count v.length
    else if size < v.length then throw (.os erange)
    else return .value v

/-! ## Writing a layer -/

/-- Enters a new node under `name` in the directory `parent`, numbered `nextInode`. -/
def addNode (parent : Nat) (name : List UInt8) (attr : Stat64) (data : List UInt8) :
    Except IoError (Entry × Layer) := do
  let p ← l.node parent
  if !isDir p.attr then throw (.os enotdir)
  if (p.entries.lookup name).isSome then throw (.os eexist)
  let ino := l.nextInode
  let n : LayerNode := { attr := { attr with stIno := ino }, data }
  return (entryOf ino n,
    { (l.setNode parent { p with entries := p.entries.insert name ino }).setNode ino n with
      nextInode := ino + 1 })

/-- The attributes of a node the caller `ctx` creates with `mode`. -/
def newAttr (ctx : Context) (mode : Nat) : Stat64 := { stMode := mode, stUid := ctx.uid, stGid := ctx.gid }

def mkdir (ctx : Context) (parent : Nat) (name : List UInt8) (mode umask : Nat) :
    Except IoError (Entry × Layer) :=
  l.addNode parent name { newAttr ctx (sIfdir ||| clearBits mode umask &&& 0o1777) with stNlink := 2 } []

def mknod (ctx : Context) (parent : Nat) (name : List UInt8) (mode rdev umask : Nat) :
    Except IoError (Entry × Layer) :=
  l.addNode parent name
    { newAttr ctx (mode &&& sIfmt ||| clearBits mode umask &&& 0o7777) with stRdev := rdev, stNlink := 1 } []

/-- `create` of a new file, with the `mode` and `umask` of its `CreateIn`. -/
def create (ctx : Context) (parent : Nat) (name : List UInt8) (mode umask : Nat) :
    Except IoError (Entry × Layer) :=
  l.addNode parent name
    { newAttr ctx (sIfreg ||| clearBits mode (umask &&& 0o777) &&& 0o7777) with stNlink := 1 } []

def symlink (ctx : Context) (linkname : List UInt8) (parent : Nat) (name : List UInt8) :
    Except IoError (Entry × Layer) :=
  l.addNode parent name
    { newAttr ctx (sIflnk ||| 0o777) with stSize := linkname.length, stNlink := 1 } linkname

/-- `write` of `data` at offset 0 of an empty file. -/
def write (ino : Nat) (data : List UInt8) : Except IoError Layer := do
  let n ← l.node ino
  return l.setNode ino { n with data, attr := { n.attr with stSize := data.length } }

def unlink (parent : Nat) (name : List UInt8) : Except IoError Layer := do
  let p ← l.node parent
  if !isDir p.attr then throw (.os enotdir)
  match p.entries.lookup name with
  | none => throw (.os enoent)
  | some ino =>
    if isDir (← l.node ino).attr then throw (.os eisdir)
    return l.setNode parent { p with entries := p.entries.erase name }

def rmdir (parent : Nat) (name : List UInt8) : Except IoError Layer := do
  let p ← l.node parent
  if !isDir p.attr then throw (.os enotdir)
  match p.entries.lookup name with
  | none => throw (.os enoent)
  | some ino =>
    let c ← l.node ino
    if !isDir c.attr then throw (.os enotdir)
    if c.entries.keys ≠ [] then throw (.os enotempty)
    return l.setNode parent { p with entries := p.entries.erase name }

/-- `link`: the node `ino` under one more name, in the directory `newparent`. A directory cannot
be linked. -/
def link (ino newparent : Nat) (name : List UInt8) : Except IoError (Entry × Layer) := do
  let n ← l.node ino
  if isDir n.attr then throw (.os eperm)
  let p ← l.node newparent
  if !isDir p.attr then throw (.os enotdir)
  if (p.entries.lookup name).isSome then throw (.os eexist)
  let n := { n with attr := { n.attr with stNlink := n.attr.stNlink + 1 } }
  return (entryOf ino n,
    (l.setNode newparent { p with entries := p.entries.insert name ino }).setNode ino n)

/-- `setattr` of the fields `valid` selects: the permission bits, the owner, the group, the times,
and the size, which cuts the data or fills it with zero bytes. A directory cannot be resized; the
model refuses that before it changes anything. -/
def setattr (ino : Nat) (attr : Stat64) (valid : Nat) : Except IoError (Stat64 × Layer) := do
  let n ← l.node ino
  let a := n.attr
  let a := if valid &&& fattrMode ≠ 0 then { a with stMode := a.stMode &&& sIfmt ||| attr.stMode &&& 0o7777 } else a
  let a := if valid &&& fattrUid ≠ 0 then { a with stUid := attr.stUid } else a
  let a := if valid &&& fattrGid ≠ 0 then { a with stGid := attr.stGid } else a
  let a := if valid &&& fattrAtime ≠ 0 then { a with stAtime := attr.stAtime } else a
  let a := if valid &&& fattrMtime ≠ 0 then { a with stMtime := attr.stMtime } else a
  if valid &&& fattrSize ≠ 0 then
    if isDir n.attr then throw (.os eisdir)
    let a := { a with stSize := attr.stSize }
    let data := n.data.take attr.stSize ++ List.replicate (attr.stSize - n.data.length) 0
    return (a, l.setNode ino { n with attr := a, data })
  return (a, l.setNode ino { n with attr := a })

def setxattr (ino : Nat) (name value : List UInt8) : Except IoError Layer := do
  let n ← l.node ino
  return l.setNode ino { n with xattrs := n.xattrs.insert name value }

def xattrCreate : Nat := 1
def xattrReplace : Nat := 2

/-- `setxattr` with its `flags`: `XATTR_CREATE` refuses a name that is set, `XATTR_REPLACE` one
that is not. -/
def setxattrFlags (ino : Nat) (name value : List UInt8) (flags : Nat) : Except IoError Layer := do
  let present := ((← l.node ino).xattrs.lookup name).isSome
  if flags &&& xattrCreate ≠ 0 ∧ present then throw (.os eexist)
  if flags &&& xattrReplace ≠ 0 ∧ !present then throw (.os enodata)
  l.setxattr ino name value

def removexattr (ino : Nat) (name : List UInt8) : Except IoError Layer := do
  let n ← l.node ino
  if (n.xattrs.lookup name).isNone then throw (.os enodata)
  return l.setNode ino { n with xattrs := n.xattrs.erase name }

/-! ## The provided methods of the `Layer` trait -/

def createWhiteout (ctx : Context) (parent : Nat) (name : List UInt8) :
    Except IoError (Entry × Layer) := do
  match l.lookup parent name with
  | .ok v =>
    if Overlay.isWhiteout v.attr then return (v, l)
    if v.inode ≠ 0 then throw (.os eexist)
  | .error e =>
    match e.rawOsError with
    | some rawError => if rawError ≠ enoent then throw e
    | none => throw e
  l.mknod ctx parent name (sIfchr ||| 0o777) 0 0

def deleteWhiteout (parent : Nat) (name : List UInt8) : Except IoError Layer := do
  match l.lookup parent name with
  | .ok v =>
    if Overlay.isWhiteout v.attr then return ← l.unlink parent name
    if v.inode ≠ 0 then throw (.os einval)
  | .error e =>
    match e.rawOsError with
    | some rawError => if rawError ≠ enoent then throw e
    | none => throw e
  return l

def isWhiteout (ino : Nat) : Except IoError Bool := do
  return Overlay.isWhiteout (← l.getattr ino)

def setOpaque (ino : Nat) : Except IoError Layer := do
  if !isDir (← l.getattr ino) then throw (.os enotdir)
  l.setxattr ino (Utf8.encode opaqueXattr) (Utf8.encode ['y'])

/-- `check_attr` of `is_opaque`: the attribute holds one byte that is `y` in either case. -/
def checkAttr (ino : Nat) (attrName : List Char) (attrSize : Nat) : Except IoError Bool :=
  match l.getxattr ino (Utf8.encode attrName) attrSize with
  | .ok (.value [b]) => .ok (toAsciiLowercase b == 121)
  | .ok _ => .ok false
  | .error e =>
    match e.rawOsError with
    | some rawError => if rawError = enodata then .ok false else .error e
    | none => .error e

def isOpaque (ino : Nat) : Except IoError Bool := do
  if !isDir (← l.getattr ino) then throw (.os enotdir)
  if ← l.checkAttr ino opaqueXattr opaqueXattrLen then return true
  if ← l.checkAttr ino privilegedOpaqueXattr opaqueXattrLen then return true
  if ← l.checkAttr ino unprivilegedOpaqueXattr opaqueXattrLen then return true
  return false

end Layer

/-! ## Layers built from node lists -/

def dirNode (ino : Nat) (uid : UInt32) (entries : List (List UInt8 × Nat)) : LayerNode :=
  { attr := { stIno := ino, stMode := sIfdir ||| 0o755, stNlink := 2, stUid := uid, stGid := uid }
    entries := (entries.map fun e => (⟨e.1, e.2⟩ : Sigma fun _ : List UInt8 => Nat)).toAList }

def fileNode (ino : Nat) (data : List UInt8) : LayerNode :=
  { attr := { stIno := ino, stMode := sIfreg ||| 0o644, stNlink := 1, stSize := data.length }
    data }

/-- A layer of the nodes `ns`, numbered from 1, with its root at 1. -/
def layerOf (ns : List LayerNode) : Layer :=
  ⟨fun i => if i = 0 then none else ns[i - 1]?, 1, ns.length + 1⟩

/-- A layer whose root holds one file, named `c`. -/
def oneFile (c : Char) : Layer := layerOf [dirNode 1 0 [(Utf8.encode [c], 2)], fileNode 2 []]

theorem lookup_dirNode_single {i : Nat} {uid : UInt32} {k name : List UInt8} {v ino : Nat}
    (h : (dirNode i uid [(k, v)]).entries.lookup name = some ino) : name = k ∧ ino = v := by
  simp only [dirNode, List.map_cons, List.map_nil, AList.lookup_to_alist] at h
  by_cases hn : name = k
  · subst hn
    simp only [List.dlookup_cons_eq, Option.some.injEq] at h
    exact ⟨rfl, h.symm⟩
  · rw [List.dlookup_cons_ne _ (⟨k, v⟩ : Sigma fun _ : List UInt8 => Nat) hn] at h
    simp at h

end FuseBackend.Overlay
