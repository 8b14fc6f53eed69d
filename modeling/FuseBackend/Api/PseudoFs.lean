import Mathlib.Data.List.AList
import Mathlib.Data.List.Sort
import FuseBackend.Lib.Path
import FuseBackend.Api.Filesystem

/-!
# `PseudoFs`

The directory-only file system `Vfs` uses to walk to its mount points (`api/pseudo_fs.rs`).
Each `PseudoInode` is a shared object holding its number, its parent's number, its name and the
list of its children; the file system keeps a map from numbers to these objects and a counter of
numbers to hand out. The map is an `AList`. A child in the list is the child object itself; what
the code reads of it there is its number and its name, which never change, so the list holds
these two. Everything else of a child is read through the map, as the code does.

Where the code `unwrap`s a missing map entry or child, it panics: the model returns `none`.
`SystemTime::now()` in `get_entry` is a parameter `now`.
-/

namespace FuseBackend.Api

open Path

/-- The first number handed out: 0 is the invalid inode and 1 the root. -/
def pseudofsNextInode : Nat := 2
def pseudofsDefaultAttrTimeout : Nat := 2 ^ 32
def pseudofsDefaultEntryTimeout : Nat := pseudofsDefaultAttrTimeout

structure PseudoInode where
  ino : Nat
  parent : Nat
  children : List (Nat × String)
  name : String
  deriving DecidableEq, Repr

namespace PseudoInode

def new (ino parent : Nat) (name : String) : PseudoInode := ⟨ino, parent, [], name⟩

def insertChild (self child : PseudoInode) : PseudoInode :=
  { self with children := self.children ++ [(child.ino, child.name)] }

/-- Removes the first child of `child`'s name; the code's `unwrap` panics when there is none. -/
def removeChild (self child : PseudoInode) : Option PseudoInode :=
  (self.children.findIdx? (fun x => x.2 == child.name)).map fun pos =>
    { self with children := self.children.eraseIdx pos }

end PseudoInode

abbrev InodeMap := AList (fun _ : Nat => PseudoInode)

structure PseudoFs where
  nextInode : Nat
  inodes : InodeMap

namespace PseudoFs

/-- `root_inode`: the object the map holds under `ROOT_ID`, which `new` and `restore_from_state`
put there and `evict_inode` never removes. -/
def rootInode (fs : PseudoFs) : PseudoInode :=
  (fs.inodes.lookup rootId).getD (PseudoInode.new rootId rootId "/")

def new : PseudoFs :=
  ⟨pseudofsNextInode, (∅ : InodeMap).insert rootId (PseudoInode.new rootId rootId "/")⟩

def newInode (fs : PseudoFs) (parent : Nat) (name : String) : PseudoInode × PseudoFs :=
  (PseudoInode.new fs.nextInode parent name, { fs with nextInode := fs.nextInode + 1 })

def insertInode (fs : PseudoFs) (inode : PseudoInode) : PseudoFs :=
  { fs with inodes := fs.inodes.insert inode.ino inode }

/-- `create_inode`. The parent object, which `mount` always took from the map, gets the child;
the model writes it back under its number. -/
def createInode (fs : PseudoFs) (name : String) (parent : PseudoInode) : PseudoInode × PseudoFs :=
  let (inode, fs) := fs.newInode parent.ino name
  let fs := fs.insertInode inode
  (inode, fs.insertInode (parent.insertChild inode))

def removeInode (fs : PseudoFs) (inode : PseudoInode) : PseudoFs :=
  { fs with inodes := fs.inodes.erase inode.ino }

/-- The first child of the given name. -/
def findChild (inode : PseudoInode) (name : String) : Option (Nat × String) :=
  inode.children.find? (fun child => child.2 == name)

/-- The loop of `mount` from `inode`: missing components are created on the way. -/
def mountWalk (fs : PseudoFs) (inode : PseudoInode) : List Component → Option (PseudoFs × PseudoInode)
  | [] => some (fs, inode)
  | .rootDir :: cs => mountWalk fs inode cs
  | .curDir :: cs => mountWalk fs inode cs
  | .parentDir :: cs => (fs.inodes.lookup inode.parent).bind fun p => mountWalk fs p cs
  | .normal name :: cs =>
    match findChild inode name with
    | some child => (fs.inodes.lookup child.1).bind fun c => mountWalk fs c cs
    | none =>
      let (newNode, fs) := fs.createInode name inode
      (fs.inodes.lookup newNode.ino).bind fun c => mountWalk fs c cs

/-- `mount`: creates the directories of `mountpoint` from the root and returns the last one's
number. -/
def mount (fs : PseudoFs) (mountpoint : List Char) : Option (Except IoError Nat × PseudoFs) :=
  if !hasRoot mountpoint then some (.error (.os einval), fs)
  else (mountWalk fs fs.rootInode (components mountpoint)).map fun (fs', inode) => (.ok inode.ino, fs')

/-- The loop of `path_walk` from `inode`: `some none` when a component is missing. -/
def pathWalkGo (fs : PseudoFs) (inode : PseudoInode) : List Component → Option (Option Nat)
  | [] => some (some inode.ino)
  | .rootDir :: cs => pathWalkGo fs inode cs
  | .curDir :: cs => pathWalkGo fs inode cs
  | .parentDir :: cs => (fs.inodes.lookup inode.parent).bind fun p => pathWalkGo fs p cs
  | .normal name :: cs =>
    match findChild inode name with
    | some child => (fs.inodes.lookup child.1).bind fun c => pathWalkGo fs c cs
    | none => some none

def pathWalk (fs : PseudoFs) (mountpoint : List Char) : Option (Except IoError (Option Nat)) :=
  if !hasRoot mountpoint then some (.error (.os einval))
  else (pathWalkGo fs fs.rootInode (components mountpoint)).map .ok

def getParentInode (fs : PseudoFs) (ino : Nat) : Option Nat :=
  (fs.inodes.lookup ino).map (·.parent)

/-- `evict_inode`: unlinks the inode from its parent and drops it from the map; the root (its own
parent) stays. Panics on an unknown number, an unknown parent, or a parent without the child. -/
def evictInode (fs : PseudoFs) (ino : Nat) : Option PseudoFs := do
  let inode ← fs.inodes.lookup ino
  if ino = inode.parent then
    return fs
  let parent ← fs.inodes.lookup inode.parent
  let parent' ← parent.removeChild inode
  return { fs with inodes := (fs.inodes.insert inode.parent parent').erase inode.ino }

/-! ## The `FileSystem` operations -/

def getEntry (now : Nat) (ino : Nat) : Entry :=
  { inode := ino
    generation := 0
    attr :=
      { stIno := ino
        stMode := sIfdir ||| sIrwxu ||| sIrwxg ||| sIrwxo
        stAtime := now
        stMtime := now
        stCtime := now
        stBlksize := 4096 }
    attrFlags := 0
    attrTimeout := ⟨pseudofsDefaultAttrTimeout, 0⟩
    entryTimeout := ⟨pseudofsDefaultEntryTimeout, 0⟩ }

def lookup (fs : PseudoFs) (now : Nat) (parent : Nat) (name : String) : Except IoError Entry :=
  match fs.inodes.lookup parent with
  | none => .error (.os enoent)
  | some pinode =>
    let ino :=
      if name = "." then pinode.ino
      else if name = ".." then pinode.parent
      else ((findChild pinode name).map (·.1)).getD 0
    if ino = 0 then .error (.os enoent) else .ok (getEntry now ino)

def getattr (fs : PseudoFs) (now : Nat) (inode : Nat) : Except IoError (Stat64 × Duration) :=
  match fs.inodes.lookup inode with
  | none => .error (.os enoent)
  | some i => let entry := getEntry now i.ino; .ok (entry.attr, entry.attrTimeout)

/-- The loop of `do_readdir`: hands each child to `addEntry` until it returns 0 or fails. The
callback's state is threaded through. -/
def readdirLoop {σ : Type} (addEntry : σ → DirEntry → Except IoError Nat × σ) (st : σ) (next : Nat) :
    List (Nat × String) → Except IoError Unit × σ
  | [] => (.ok (), st)
  | (ino, name) :: rest =>
    match addEntry st ⟨ino, next, 0, name⟩ with
    | (.ok 0, st) => (.ok (), st)
    | (.ok _, st) => readdirLoop addEntry st (next + 1) rest
    | (.error e, st) => (.error e, st)

def doReaddir {σ : Type} (fs : PseudoFs) (parent size offset : Nat)
    (addEntry : σ → DirEntry → Except IoError Nat × σ) (st : σ) : Except IoError Unit × σ :=
  if size = 0 then (.ok (), st)
  else
    match fs.inodes.lookup parent with
    | none => (.error (.os enoent), st)
    | some inode =>
      if offset ≥ inode.children.length then (.ok (), st)
      else readdirLoop addEntry st (offset + 1) (inode.children.drop offset)

def readdirplus {σ : Type} (fs : PseudoFs) (now parent size offset : Nat)
    (addEntry : σ → DirEntry → Entry → Except IoError Nat × σ) (st : σ) : Except IoError Unit × σ :=
  fs.doReaddir parent size offset (fun st d => addEntry st d (getEntry now d.ino)) st

/-! ## `do_readdir` in a debug build

`doReaddir` adds on `Nat`, as a release build does wherever the sum is used. A debug build panics
when a `u64` addition overflows: `none` is the panic. -/

/-- `u64` addition as a debug build evaluates it. -/
def addU64 (a b : Nat) : Option Nat := if a + b < 2 ^ 64 then some (a + b) else none

def readdirLoopChecked {σ : Type} (addEntry : σ → DirEntry → Except IoError Nat × σ) (st : σ)
    (next : Nat) : List (Nat × String) → Option (Except IoError Unit × σ)
  | [] => some (.ok (), st)
  | (ino, name) :: rest =>
    match addEntry st ⟨ino, next, 0, name⟩ with
    | (.ok 0, st) => some (.ok (), st)
    | (.ok _, st) => (addU64 next 1).bind fun next => readdirLoopChecked addEntry st next rest
    | (.error e, st) => some (.error e, st)

/-- `next = offset + 1` is computed before `offset` is compared with the number of children. -/
def doReaddirChecked {σ : Type} (fs : PseudoFs) (parent size offset : Nat)
    (addEntry : σ → DirEntry → Except IoError Nat × σ) (st : σ) : Option (Except IoError Unit × σ) :=
  if size = 0 then some (.ok (), st)
  else
    match fs.inodes.lookup parent with
    | none => some (.error (.os enoent), st)
    | some inode =>
      (addU64 offset 1).bind fun next =>
        if offset ≥ inode.children.length then some (.ok (), st)
        else readdirLoopChecked addEntry st next (inode.children.drop offset)

/-! ## Saving and restoring -/

structure PseudoInodeState where
  ino : Nat
  parent : Nat
  name : String
  deriving DecidableEq, Repr

structure PseudoFsState where
  nextInode : Nat
  inodes : List PseudoInodeState
  deriving DecidableEq, Repr

/-- The state `save_to_bytes` serialises: every inode but the root, in the map's order. -/
def saveState (fs : PseudoFs) : PseudoFsState :=
  ⟨fs.nextInode, ((fs.inodes.entries.map (·.2)).filter (·.ino ≠ rootId)).map
    fun inode => ⟨inode.ino, inode.parent, inode.name⟩⟩

/-- The first loop of `restore_from_state`: one fresh object for each saved inode, a later one
replacing an earlier one of the same number. -/
def buildInodeMap (states : List PseudoInodeState) : InodeMap :=
  states.foldl (fun m s => m.insert s.ino (PseudoInode.new s.ino s.parent s.name)) ∅

def invalidInode (ino : Nat) : IoError :=
  .custom .invalidData ("invalid inode " ++ toString ino)

def invalidParentInode (parent ino : Nat) : IoError :=
  .custom .invalidData ("invalid parent inode " ++ toString parent ++ " for inode " ++ toString ino)

/-- The second loop of `restore_from_state`: each saved inode, in the sorted order, is added to
its parent's children. The map is returned also on failure, since the objects were changed. -/
def connect (m : InodeMap) : List PseudoInodeState → Except IoError Unit × InodeMap
  | [] => (.ok (), m)
  | s :: rest =>
    match m.lookup s.ino with
    | none => (.error (invalidInode s.ino), m)
    | some inode =>
      match m.lookup inode.parent with
      | none => (.error (invalidParentInode inode.parent inode.ino), m)
      | some parent => connect (m.insert inode.parent (parent.insertChild inode)) rest

/-- `restore_from_state`. On failure the map and the counter are kept, but the root object, shared
with the new map, has already been given the children connected before the failure. -/
def restoreFromState (fs : PseudoFs) (state : PseudoFsState) : Except IoError Unit × PseudoFs :=
  let m := (buildInodeMap state.inodes).insert fs.rootInode.ino fs.rootInode
  -- `sort_by` is a stable sort, and all stable sorts agree
  let sorted := state.inodes.insertionSort (fun a b => a.ino ≤ b.ino)
  match connect m sorted with
  | (.ok (), m) => (.ok (), ⟨state.nextInode, m⟩)
  | (.error e, m) =>
    (.error e, { fs with inodes := fs.inodes.insert rootId ((m.lookup fs.rootInode.ino).getD fs.rootInode) })

end PseudoFs

end FuseBackend.Api
