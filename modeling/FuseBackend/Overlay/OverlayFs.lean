import FuseBackend.Api.Vfs
import FuseBackend.Overlay.Layer
import FuseBackend.Overlay.Union
import FuseBackend.Lib.ExceptState

/-!
# `OverlayFs`: the union of the layers

The in-memory tree of `overlayfs/mod.rs` and its `InodeStore` (`overlayfs/inode_store.rs`).
An `OverlayInode` holds the inodes of the layers that make it up (`real_inodes`, upper first),
its children by name once its directory is loaded, and its lookup count. Directories are loaded
on first use: `scan_childrens` reads the directories of the node's layers from the top and
stops at a whiteout, a non-directory or an opaque directory; `new_from_real_inodes` does the
same for the layers of one name. Inode numbers come from `alloc_inode`, which gives a path the
number it had before.

The shared `Arc`s of the code are object ids in `OverlayFs.nodes`, and a node's `Weak` parent
is the id it points to; the model keeps every node, so the upgrade of a parent always
succeeds. Layers are indices of `OverlayFs.layers`. The calls run one at a time, so locks and
atomics are plain fields. Open handles are not modelled: `do_readdir` finds the directory as it
does without a handle, and a copy-up copies the bytes of the lower file in one step.

`create_upper_dir` and `empty_node_directory` recurse along parent and child links; the model
bounds the recursion by the number of nodes ever made, more than the depth of any tree of a
reachable state, and stops with `outOfFuel` past it.

The FUSE requests of `overlayfs/sync_io.rs` take names as bytes and turn them into strings with
`to_string_lossy`; the layers are given names back as the UTF-8 of those strings.
-/

namespace FuseBackend.Overlay

open Api Utf8

/-- `RealInode`: the inode of one layer under an overlay node. -/
structure RealInode where
  layer : Nat
  inUpperLayer : Bool
  inode : Nat
  whiteout : Bool
  opaqueDir : Bool
  stat : Option Stat64

/-- `OverlayInode`, with the fields of `OverlayInode::default()`. -/
structure OverlayInode where
  childrens : AList (fun _ : List Char => Nat) := ∅
  parent : Option Nat := none
  realInodes : List RealInode := []
  inode : Nat := 0
  path : List Char := []
  name : List Char := []
  lookups : Nat := 0
  whiteout : Bool := false
  loaded : Bool := false

/-- `overlayfs::InodeStore`. -/
structure InodeStore where
  inodes : Nat → Option Nat := fun _ => none
  deleted : Nat → Option Nat := fun _ => none
  pathMapping : List Char → Option Nat := fun _ => none
  nextInode : Nat := 1

/-- The fields of `overlayfs::config::Config` the modelled calls read. -/
structure Config where
  noReaddir : Bool := false
  attrTimeout : Duration := ⟨0, 0⟩
  entryTimeout : Duration := ⟨0, 0⟩

structure OverlayFs where
  config : Config := {}
  layers : Nat → Layer
  upperLayer : Option Nat
  lowerLayers : List Nat
  nodes : Nat → OverlayInode := fun _ => {}
  nextNode : Nat := 0
  inodes : InodeStore := {}

abbrev OvM := ExceptT IoError (StateM OverlayFs)

/-- Where the model stops a recursion that the code would follow further. -/
def outOfFuel : IoError := .custom .other "recursion deeper than the node table"

def noParent : IoError := .custom .other "no parent?"

/-- `utils::to_cstring`: a name's UTF-8 if it holds no NUL. -/
def toCstring (name : List Char) : Except IoError (List UInt8) :=
  if name.contains '\x00' then
    .error (.custom .invalidData
      ("nul byte found in provided data at position: " ++ toString ((encode name).idxOf 0)))
  else .ok (encode name)

/-- The path `format!("{}/{}", path, name)`. -/
def childPath (path name : List Char) : List Char := path ++ '/' :: name

/-! ## State access -/

def liftE {α : Type} : Except IoError α → OvM α
  | .ok a => pure a
  | .error e => throw e

def getNode (id : Nat) : OvM OverlayInode := return (← get).nodes id

def modifyNode (id : Nat) (f : OverlayInode → OverlayInode) : OvM Unit :=
  modify fun fs => { fs with nodes := Function.update fs.nodes id (f (fs.nodes id)) }

/-- `Arc::new`: a fresh object id for `n`. -/
def newNode (n : OverlayInode) : OvM Nat := do
  let fs ← get
  set { fs with nodes := Function.update fs.nodes fs.nextNode n, nextNode := fs.nextNode + 1 }
  return fs.nextNode

def getLayer (i : Nat) : OvM Layer := return (← get).layers i

/-- Runs an operation that writes the layer `i`. -/
def updateLayer {α : Type} (i : Nat) (f : Layer → Except IoError (α × Layer)) : OvM α := do
  let fs ← get
  match f (fs.layers i) with
  | .ok (a, l) =>
    set { fs with layers := Function.update fs.layers i l }
    return a
  | .error e => throw e

def updateLayer_ (i : Nat) (f : Layer → Except IoError Layer) : OvM Unit :=
  updateLayer i fun l => (f l).map (fun l' => ((), l'))

/-! ## `InodeStore` -/

namespace InodeStore

variable (s : InodeStore)

/-- The loop of `alloc_unique_inode`, from `ino` with `n` rounds left. -/
def allocUniqueInodeLoop (ino : Nat) : Nat → Except IoError (Nat × InodeStore)
  | 0 => .error (.custom .other ("maximum inode number " ++ toString vfsMaxIno ++ " reached"))
  | n + 1 =>
    let ino := if ino > vfsMaxIno then 1 else ino
    if (s.inodes ino).isNone && (s.deleted ino).isNone then .ok (ino, { s with nextInode := ino + 1 })
    else allocUniqueInodeLoop (ino + 1) n

def allocUniqueInode : Except IoError (Nat × InodeStore) :=
  s.allocUniqueInodeLoop s.nextInode vfsMaxIno

/-- The loop of `alloc_unique_inode` in a debug build, where a `u64` addition that overflows
panics: `none`. -/
def allocUniqueInodeLoopChecked (ino : Nat) : Nat → Option (Except IoError (Nat × InodeStore))
  | 0 => some (.error (.custom .other ("maximum inode number " ++ toString vfsMaxIno ++ " reached")))
  | n + 1 =>
    let ino := if ino > vfsMaxIno then 1 else ino
    if (s.inodes ino).isNone && (s.deleted ino).isNone then
      (PseudoFs.addU64 ino 1).map fun next => .ok (ino, { s with nextInode := next })
    else (PseudoFs.addU64 ino 1).bind fun next => allocUniqueInodeLoopChecked next n

def allocUniqueInodeChecked : Option (Except IoError (Nat × InodeStore)) :=
  s.allocUniqueInodeLoopChecked s.nextInode vfsMaxIno

def allocInode (path : List Char) : Except IoError (Nat × InodeStore) :=
  match s.pathMapping path with
  | some v => .ok (v, s)
  | none => s.allocUniqueInode

def insertInode (inode id : Nat) (node : OverlayInode) : InodeStore :=
  { s with
    pathMapping := Function.update s.pathMapping node.path (some inode)
    inodes := Function.update s.inodes inode (some id) }

def getInode (inode : Nat) : Option Nat := s.inodes inode

def getDeletedInode (inode : Nat) : Option Nat := s.deleted inode

def removePath : Option (List Char) → InodeStore
  | some path => { s with pathMapping := Function.update s.pathMapping path none }
  | none => s

/-- `remove_inode`: the node if it is gone from both maps. A node that is still looked up is
parked in `deleted`, and then its path keeps its number. -/
def removeInode (nodes : Nat → OverlayInode) (inode : Nat) (pathRemoved : Option (List Char)) :
    Option Nat × InodeStore :=
  match s.inodes inode with
  | some v =>
    let s' := { s with inodes := Function.update s.inodes inode none }
    if (nodes v).lookups > 0 then (none, { s' with deleted := Function.update s.deleted inode (some v) })
    else (some v, s'.removePath pathRemoved)
  | none =>
    match s.deleted inode with
    | some v =>
      if (nodes v).lookups = 0 then
        (some v, ({ s with deleted := Function.update s.deleted inode none } : InodeStore).removePath pathRemoved)
      else (none, s.removePath pathRemoved)
    | none => (none, s.removePath pathRemoved)

end InodeStore

/-! ## `RealInode` -/

namespace RealInode

def stat64 (ri : RealInode) : OvM Stat64 := do
  if ri.inode = 0 then throw (.os enoent)
  liftE ((← getLayer ri.layer).getattr ri.inode)

def stat64IgnoreEnoent (ri : RealInode) : OvM (Option Stat64) :=
  tryCatch (some <$> ri.stat64) fun e =>
    match e.rawOsError with
    -- `raw_error != ENOENT || raw_error != ENAMETOOLONG` holds of every number
    | some rawError => if rawError ≠ enoent ∨ rawError ≠ enametoolong then pure none else throw e
    | none => throw e

/-- `RealInode::new`: a failure to stat the inode is logged and leaves `stat` empty. -/
def new (layer : Nat) (inUpperLayer : Bool) (inode : Nat) (whiteout opaqueDir : Bool) :
    OvM RealInode := do
  let ri : RealInode := { layer, inUpperLayer, inode, whiteout, opaqueDir, stat := none }
  tryCatch (do return { ri with stat := ← ri.stat64IgnoreEnoent }) fun _ => pure ri

/-- `match ri.stat { Some(v) => v, None => ri.stat64(ctx)? }`. -/
def cachedStat (ri : RealInode) : OvM Stat64 :=
  match ri.stat with
  | some v => pure v
  | none => ri.stat64

def lookupChildIgnoreEnoent (ri : RealInode) (name : List Char) : OvM (Option Entry) := do
  let cname ← liftE (toCstring name)
  match (← getLayer ri.layer).lookup ri.inode cname with
  | .ok v => return if v.inode = 0 then none else some v
  | .error e =>
    if let some rawError := e.rawOsError then
      if rawError = enoent ∨ rawError = enametoolong then return none
    throw e

def lookupChild (ri : RealInode) (name : List Char) : OvM (Option RealInode) := do
  if ri.whiteout then return none
  let l ← getLayer ri.layer
  match ← ri.lookupChildIgnoreEnoent name with
  | some v =>
    let (whiteout, opaqueDir) ←
      if isDir v.attr then do pure (false, ← liftE (l.isOpaque v.inode))
      else do pure (← liftE (l.isWhiteout v.inode), false)
    return some {
      layer := ri.layer, inUpperLayer := ri.inUpperLayer, inode := v.inode, whiteout, opaqueDir,
      stat := some v.attr }
  | none => return none

/-- The last loop of `readdir`: each name that `lookup_child` finds, into the map. -/
def lookupChildren (ri : RealInode) :
    List (List Char) → AList (fun _ : List Char => RealInode) →
      OvM (AList (fun _ : List Char => RealInode))
  | [], m => pure m
  | name :: names, m => do
    match ← ri.lookupChild name with
    | some child => ri.lookupChildren names (m.insert name child)
    | none => ri.lookupChildren names m

def readdir (ri : RealInode) : OvM (AList (fun _ : List Char => RealInode)) := do
  if ri.whiteout then throw (.os enoent)
  let stat ← ri.cachedStat
  if !isDir stat then throw (.os enotdir)
  let names ← liftE ((← getLayer ri.layer).readdir ri.inode)
  -- `String::from_utf8_lossy` of each name, `.` and `..` left out
  let childNames := (names.map decodeLossy).filter fun n => n != ['.'] && n != ['.', '.']
  ri.lookupChildren childNames ∅

def createWhiteout (ri : RealInode) (ctx : Context) (name : List Char) : OvM RealInode := do
  if !ri.inUpperLayer then throw (.os erofs)
  let cname ← liftE (toCstring name)
  let entry ← updateLayer ri.layer (·.createWhiteout ctx ri.inode cname)
  return {
    layer := ri.layer, inUpperLayer := true, inode := entry.inode, whiteout := true,
    opaqueDir := false, stat := some entry.attr }

def mkdir (ri : RealInode) (ctx : Context) (name : List Char) (mode umask : Nat) : OvM RealInode := do
  if !ri.inUpperLayer then throw (.os erofs)
  let cname ← liftE (toCstring name)
  let entry ← updateLayer ri.layer (·.mkdir ctx ri.inode cname mode umask)
  return {
    layer := ri.layer, inUpperLayer := true, inode := entry.inode, whiteout := false,
    opaqueDir := false, stat := some entry.attr }

/-- `create` with a `CreateIn` of `mode` and `umask`; the handle it opens is not modelled. -/
def create (ri : RealInode) (ctx : Context) (name : List Char) (mode umask : Nat) : OvM RealInode := do
  if !ri.inUpperLayer then throw (.os erofs)
  let cname ← liftE (toCstring name)
  let entry ← updateLayer ri.layer (·.create ctx ri.inode cname mode umask)
  return {
    layer := ri.layer, inUpperLayer := true, inode := entry.inode, whiteout := false,
    opaqueDir := false, stat := some entry.attr }

def symlink (ri : RealInode) (ctx : Context) (linkName filename : List Char) : OvM RealInode := do
  if !ri.inUpperLayer then throw (.os erofs)
  let clink ← liftE (toCstring linkName)
  let cname ← liftE (toCstring filename)
  let entry ← updateLayer ri.layer (·.symlink ctx clink ri.inode cname)
  return {
    layer := ri.layer, inUpperLayer := ri.inUpperLayer, inode := entry.inode, whiteout := false,
    opaqueDir := false, stat := some entry.attr }

end RealInode

/-! ## `OverlayInode` -/

namespace OverlayInode

def newFromRealInode (name : List Char) (ino : Nat) (path : List Char) (ri : RealInode) :
    OverlayInode :=
  { inode := ino, path, name, whiteout := ri.whiteout, lookups := 1, realInodes := [ri] }

/-- The loop of `new_from_real_inodes` past the first layer. -/
def pushLowers (new : OverlayInode) : List RealInode → OvM OverlayInode
  | [] => pure new
  | ri :: ris => do
    let stat ← ri.cachedStat
    if ri.whiteout then return new
    if !isDir stat then return new
    let new := { new with realInodes := new.realInodes ++ [ri] }
    if ri.opaqueDir then return new
    pushLowers new ris

def newFromRealInodes (name : List Char) (ino : Nat) (path : List Char) :
    List RealInode → OvM OverlayInode
  | [] => throw (.os einval)
  | ri :: ris => do
    let stat ← ri.cachedStat
    let new := newFromRealInode name ino path ri
    if ri.whiteout then return new
    if !isDir stat then return new
    if ri.opaqueDir then return new
    pushLowers new ris

/-- The loop of `stat64`: the first layer that has the inode. -/
def stat64Of : List RealInode → OvM Stat64
  | [] => throw (.os enoent)
  | l :: ls => do
    match ← l.stat64IgnoreEnoent with
    | some v => pure v
    | none => stat64Of ls

def stat64 (n : OverlayInode) : OvM Stat64 := stat64Of n.realInodes

def countEntriesAndWhiteout (n : OverlayInode) : OvM (Nat × Nat) := do
  let st ← n.stat64
  if !isDir st then throw (.os enotdir)
  let nodes := (← get).nodes
  return (n.childrens.entries.countP fun c => !(nodes c.2).whiteout,
    n.childrens.entries.countP fun c => (nodes c.2).whiteout)

def inUpperLayer (n : OverlayInode) : Bool :=
  match n.realInodes.head? with
  | some v => v.inUpperLayer
  | none => false

def upperLayerOnly (n : OverlayInode) : Bool :=
  match n.realInodes.head? with
  | some v => if !v.inUpperLayer then false else n.realInodes.length == 1
  | none => false

/-- `first_layer_inode`, which panics on a node without layers. -/
def firstLayerInode (n : OverlayInode) : OvM (Nat × Bool × Nat) :=
  match n.realInodes.head? with
  | some v => pure (v.layer, v.inUpperLayer, v.inode)
  | none => throw (.custom .other "BUG: dangling OverlayInode")

def child (n : OverlayInode) (name : List Char) : Option Nat := n.childrens.lookup name

def removeChild (id : Nat) (name : List Char) : OvM Unit :=
  modifyNode id fun n => { n with childrens := n.childrens.erase name }

def insertChild (id : Nat) (name : List Char) (node : Nat) : OvM Unit :=
  modifyNode id fun n => { n with childrens := n.childrens.insert name node }

def addUpperInode (id : Nat) (ri : RealInode) (clearLowers : Bool) : OvM Unit :=
  modifyNode id fun n =>
    { n with whiteout := ri.whiteout, realInodes := ri :: if clearLowers then [] else n.realInodes }

/-- `handle_upper_inode_locked`: `f` of the first layer's inode if it is an upper one. -/
def handleUpperInodeLocked {α : Type} (n : OverlayInode) (f : Option RealInode → OvM α) : OvM α :=
  match n.realInodes.head? with
  | some v => if v.inUpperLayer then f (some v) else f none
  | none =>
    throw (.custom .other
      ("BUG: dangling OverlayInode " ++ toString n.inode ++ " without any backend inode"))

/-- Adds one layer's entries to `all_layer_inodes`, after those of the layers above. -/
def mergeEntries (acc : AList (fun _ : List Char => List RealInode)) :
    List (Sigma fun _ : List Char => RealInode) → AList (fun _ : List Char => List RealInode)
  | [] => acc
  | e :: es =>
    match acc.lookup e.1 with
    | some v => mergeEntries (acc.replace e.1 (v ++ [e.2])) es
    | none => mergeEntries (acc.insert e.1 [e.2]) es

/-- The loop of `scan_childrens` over the layers, from the top. -/
def mergeLayers :
    List RealInode → AList (fun _ : List Char => List RealInode) →
      OvM (AList (fun _ : List Char => List RealInode))
  | [], acc => pure acc
  | ri :: ris, acc => do
    if ri.whiteout then return acc
    let stat ← ri.cachedStat
    if !isDir stat then return acc
    let entries ← ri.readdir
    let acc := mergeEntries acc entries.entries
    if ri.opaqueDir then return acc
    mergeLayers ris acc

def scanChildrens (n : OverlayInode) : OvM (List OverlayInode) := do
  let st ← n.stat64
  if !isDir st then throw (.os enotdir)
  let allLayerInodes ← mergeLayers n.realInodes ∅
  allLayerInodes.entries.mapM fun e => newFromRealInodes e.1 0 (childPath n.path e.1) e.2

def createUpperDir (ctx : Context) : Nat → Nat → Option (Nat × Nat) → OvM Unit
  | 0, _, _ => throw outOfFuel
  | fuel + 1, id, modeUmask => do
    let node ← getNode id
    let st ← node.stat64
    if !isDir st then throw (.os enotdir)
    if node.inUpperLayer then return
    let some pnode := node.parent | throw noParent
    if !(← getNode pnode).inUpperLayer then createUpperDir ctx fuel pnode none
    let child ← (← getNode pnode).handleUpperInodeLocked fun
      | some parentRi =>
        match modeUmask with
        | some (mode, umask) => parentRi.mkdir ctx node.name mode umask
        | none => parentRi.mkdir ctx node.name st.stMode 0
      | none => throw (.os einval)
    addUpperInode id child false

end OverlayInode

/-! ## `OverlayFs` -/

namespace OverlayFs

open OverlayInode

/-- `entry_type_from_mode`. -/
def entryTypeFromMode (mode : Nat) : Nat :=
  match mode &&& sIfmt with
  | 0o060000 => 6
  | 0o020000 => 2
  | 0o040000 => 4
  | 0o010000 => 1
  | 0o120000 => 10
  | 0o100000 => 8
  | 0o140000 => 12
  | _ => 0

def new (layers : Nat → Layer) (upper : Option Nat) (lowers : List Nat) (params : Config) :
    OverlayFs :=
  { config := params, layers, upperLayer := upper, lowerLayers := lowers }

def fuel : OvM Nat := return (← get).nextNode

def allocInode (path : List Char) : OvM Nat := do
  let fs ← get
  match fs.inodes.allocInode path with
  | .ok (ino, s) =>
    set { fs with inodes := s }
    return ino
  | .error e => throw e

def insertInode (inode id : Nat) : OvM Unit :=
  modify fun fs => { fs with inodes := fs.inodes.insertInode inode id (fs.nodes id) }

def getActiveInode (inode : Nat) : OvM (Option Nat) := return (← get).inodes.getInode inode

def getAllInode (inode : Nat) : OvM (Option Nat) := do
  let s := (← get).inodes
  match s.getInode inode with
  | some n => return some n
  | none => return s.getDeletedInode inode

def removeInode (inode : Nat) (pathRemoved : Option (List Char)) : OvM (Option Nat) := do
  let fs ← get
  let (removed, s) := fs.inodes.removeInode fs.nodes inode pathRemoved
  set { fs with inodes := s }
  return removed

def rootNode : OvM Nat := do
  match ← getActiveInode rootId with
  | some v => return v
  | none => throw (.custom .other "called Option::unwrap() on a None value")

/-- The loop of `load_directory`: each child gets a number and the parent link. -/
def loadChildren (id : Nat) : List OverlayInode → OvM Unit
  | [] => pure ()
  | child :: childrens => do
    let ino ← allocInode child.path
    let cid ← newNode { child with inode := ino, parent := some id }
    insertChild id child.name cid
    insertInode ino cid
    loadChildren id childrens

def loadDirectory (id : Nat) : OvM Unit := do
  let node ← getNode id
  if node.loaded then return
  let childrens ← node.scanChildrens
  loadChildren id childrens
  modifyNode id fun n => { n with loaded := true }

def import_ : OvM Unit := do
  let fs ← get
  let upper ← match fs.upperLayer with
    | some layer => do
      let ino := (fs.layers layer).rootInode
      let opaqueDir ← liftE ((fs.layers layer).isOpaque ino)
      pure [← RealInode.new layer true ino false opaqueDir]
    | none => pure []
  let lowers ← fs.lowerLayers.mapM fun layer => do
    let ino := (fs.layers layer).rootInode
    let opaqueDir ← liftE ((fs.layers layer).isOpaque ino)
    RealInode.new layer false ino false opaqueDir
  let rootNode ← newNode { inode := rootId, path := [], name := [], lookups := 2, realInodes := upper ++ lowers }
  insertInode rootId rootNode
  loadDirectory rootNode

def lookupNode (parent : Nat) (name : List Char) : OvM Nat := do
  if name.contains '/' then throw (.os einval)
  let some pnode ← getActiveInode parent | throw (.os enoent)
  let pn ← getNode pnode
  if pn.whiteout then throw (.os enoent)
  let st ← pn.stat64
  if isDir st && !pn.loaded then loadDirectory pnode
  if name = ['.'] ∨ (parent = rootId ∧ name = ['.', '.']) ∨ name = [] then return pnode
  match (← getNode pnode).child name with
  | some v => return v
  | none => throw (.os enoent)

def lookupNodeIgnoreEnoent (parent : Nat) (name : List Char) : OvM (Option Nat) :=
  tryCatch (some <$> lookupNode parent name) fun e =>
    if e.rawOsError = some enoent then pure none else throw e

def forgetOne (inode count : Nat) : OvM Unit := do
  if inode = rootId ∨ inode = 0 then return
  let some v ← getAllInode inode | return
  let node ← getNode v
  let lookups := if node.lookups < count then 0 else node.lookups - count
  modifyNode v fun n => { n with lookups := lookups }
  if lookups = 0 then
    let _ ← removeInode inode none
    if let some p := node.parent then removeChild p node.name

def doLookup (parent : Nat) (name : List Char) : OvM Entry := do
  let id ← lookupNode parent name
  let node ← getNode id
  if node.whiteout then throw (.os enoent)
  let st ← node.stat64
  if isDir st && !node.loaded then loadDirectory id
  modifyNode id fun n => { n with lookups := n.lookups + 1 }
  let config := (← get).config
  return {
    inode := node.inode, generation := 0, attr := st, attrFlags := 0,
    attrTimeout := config.attrTimeout, entryTimeout := config.entryTimeout }

/-- The loop of `do_readdir` over the entries from index `index` on, `len` being the sum of the
lengths `add_entry` answered so far. For `readdirplus` the entry's node takes a lookup before
`add_entry` is called. The loop stops at an answer of 0, once `len as u32` reaches `size`, and at
an error, which it returns only when nothing was added. -/
def readdirLoop {σ : Type} (isReaddirplus : Bool) (size : Nat)
    (addEntry : σ → DirEntryBytes → Option Entry → Except IoError Nat × σ) :
    Nat → Nat → List (List Char × Nat) → σ → OvM σ
  | _, _, [], out => pure out
  | index, len, (name, child) :: rest, out => do
    let st ← (← getNode child).stat64
    let dirEntry : DirEntryBytes := {
      ino := st.stIno, offset := index + 1, type_ := entryTypeFromMode st.stMode,
      name := encode name }
    let entry ← if isReaddirplus then do
        modifyNode child fun n => { n with lookups := n.lookups + 1 }
        let config := (← get).config
        pure (some {
          inode := (← getNode child).inode, generation := 0, attr := st, attrFlags := 0,
          attrTimeout := config.attrTimeout, entryTimeout := config.entryTimeout })
      else pure none
    match addEntry out dirEntry entry with
    | (.ok 0, out) => pure out
    | (.ok l, out) =>
      if (len + l) % 2 ^ 32 ≥ size then pure out
      else readdirLoop isReaddirplus size addEntry (index + 1) (len + l) rest out
    | (.error e, out) => if len = 0 then throw e else pure out

/-- `do_readdir`: `.` is the directory, `..` its parent or else the root, then the children that
are not whiteouts, from index `offset` on, each handed to `add_entry` with the caller's state
`out`. -/
def doReaddir {σ : Type} (inode size offset : Nat) (isReaddirplus : Bool)
    (addEntry : σ → DirEntryBytes → Option Entry → Except IoError Nat × σ) (out : σ) : OvM σ := do
  if size = 0 then return out
  let ovlInode ← lookupNode inode ['.']
  let node ← getNode ovlInode
  let st ← node.stat64
  if !isDir st then throw (.os enotdir)
  let parentNode ← match node.parent with
    | some p => pure p
    | none => rootNode
  let nodes := (← get).nodes
  let childrens := (['.'], ovlInode) :: (['.', '.'], parentNode) ::
    (node.childrens.entries.filter fun c => !(nodes c.2).whiteout).map fun c => ((nodes c.2).name, c.2)
  if offset ≥ childrens.length then return out
  readdirLoop isReaddirplus size addEntry offset 0 (childrens.drop offset) out

/-! ## Copy-up -/

def copySymlinkUp (ctx : Context) (id : Nat) : OvM Nat := do
  let node ← getNode id
  if node.inUpperLayer then return id
  let some parentNode := node.parent | throw noParent
  let (selfLayer, _, selfInode) ← node.firstLayerInode
  if !(← getNode parentNode).inUpperLayer then createUpperDir ctx (← fuel) parentNode none
  let path ← liftE ((← getLayer selfLayer).readlink selfInode)
  let some path := decode path | throw (.os einval)
  let newUpperReal ← (← getNode parentNode).handleUpperInodeLocked fun
    | some parentRealInode => parentRealInode.symlink ctx path node.name
    | none => throw (.os erofs)
  addUpperInode id newUpperReal true
  return id

def copyRegfileUp (ctx : Context) (id : Nat) : OvM Nat := do
  let node ← getNode id
  if node.inUpperLayer then return id
  let some parentNode := node.parent | throw noParent
  let st ← node.stat64
  let (lowerLayer, _, lowerInode) ← node.firstLayerInode
  if !(← getNode parentNode).inUpperLayer then createUpperDir ctx (← fuel) parentNode none
  -- `CreateIn { flags: O_WRONLY, mode: st.st_mode, umask: 0, fuse_flags: 0 }`
  let upperRealInode ← (← getNode parentNode).handleUpperInodeLocked fun
    | some parentRealInode => parentRealInode.create ctx node.name st.stMode 0
    | none => throw (.os einval)
  let data ← liftE ((← getLayer lowerLayer).read lowerInode)
  updateLayer_ upperRealInode.layer (·.write upperRealInode.inode data)
  addUpperInode id upperRealInode true
  return id

def copyNodeUp (ctx : Context) (id : Nat) : OvM Nat := do
  let node ← getNode id
  if node.inUpperLayer then return id
  let st ← node.stat64
  if isDir st then
    createUpperDir ctx (← fuel) id none
    return id
  if st.stMode &&& sIfmt = sIflnk then return ← copySymlinkUp ctx id
  copyRegfileUp ctx id

/-! ## Directories -/

def doMkdir (ctx : Context) (parentNode : Nat) (name : List Char) (mode umask : Nat) : OvM Unit := do
  if (← get).upperLayer.isNone then throw (.os erofs)
  let pn ← getNode parentNode
  if pn.whiteout then throw (.os enoent)
  let (deleteWhiteout, setOpaque) ← match ← lookupNodeIgnoreEnoent pn.inode name with
    | some n => do
      let n ← getNode n
      if !n.whiteout then throw (.os eexist)
      -- the name was removed: drop the upper whiteout, and hide the lower layers if any
      pure (n.inUpperLayer, !n.upperLayerOnly)
    | none => pure (false, false)
  let pnode ← copyNodeUp ctx parentNode
  let path := childPath (← getNode pnode).path name
  let newNode' ← (← getNode pnode).handleUpperInodeLocked fun
    | none => throw (.os einval)
    | some parentRealInode => do
      if deleteWhiteout then
        let cname ← liftE (toCstring name)
        tryCatch (updateLayer_ parentRealInode.layer (·.deleteWhiteout parentRealInode.inode cname))
          fun _ => pure ()
      let ino ← allocInode path
      let childDir ← parentRealInode.mkdir ctx name mode umask
      if setOpaque then updateLayer_ parentRealInode.layer (·.setOpaque childDir.inode)
      return newFromRealInode name ino path childDir
  let arcNode ← newNode newNode'
  insertInode newNode'.inode arcNode
  insertChild pnode name arcNode

/-- `empty_node_directory`: removes the upper entries of a directory, depth first. -/
def emptyNodeDirectory (ctx : Context) : Nat → Nat → OvM Unit
  | 0, _ => throw outOfFuel
  | fuel + 1, id => do
    let node ← getNode id
    let st ← node.stat64
    if !isDir st then throw (.os enotdir)
    let (layer, inUpper, inode) ← node.firstLayerInode
    if !inUpper then return
    for child in node.childrens.entries.map (·.2) do
      let c ← getNode child
      if c.inUpperLayer then
        if c.whiteout then
          let cname ← liftE (toCstring c.name)
          updateLayer_ layer (·.deleteWhiteout inode cname)
        else
          let s ← c.stat64
          let cname ← liftE (toCstring c.name)
          if isDir s then
            let (count, whiteouts) ← c.countEntriesAndWhiteout
            if count + whiteouts > 0 then emptyNodeDirectory ctx fuel child
            updateLayer_ layer (·.rmdir inode cname)
          else
            updateLayer_ layer (·.unlink inode cname)
        let _ ← removeInode c.inode (some c.path)
        removeChild id c.name

def doRm (ctx : Context) (parent : Nat) (name : List UInt8) (dir : Bool) : OvM Unit := do
  if (← get).upperLayer.isNone then throw (.os erofs)
  let pnode ← lookupNode parent []
  if (← getNode pnode).whiteout then throw (.os enoent)
  let sname := decodeLossy name
  let node ← lookupNode parent sname
  if (← getNode node).whiteout then throw (.os enoent)
  if dir then
    loadDirectory node
    let (count, whiteouts) ← (← getNode node).countEntriesAndWhiteout
    if count > 0 then throw (.os enotempty)
    if whiteouts > 0 && (← getNode node).inUpperLayer then emptyNodeDirectory ctx (← fuel) node
  let pnode ← copyNodeUp ctx pnode
  let n ← getNode node
  let (needWhiteout, pathRemoved) ←
    if n.inUpperLayer then do
      let parentOpaque ← (← getNode pnode).handleUpperInodeLocked fun
        | none => throw (.os einval)
        | some parentRealInode => do
          if dir then updateLayer_ parentRealInode.layer (·.rmdir parentRealInode.inode name)
          else updateLayer_ parentRealInode.layer (·.unlink parentRealInode.inode name)
          return parentRealInode.opaqueDir
      pure (!n.upperLayerOnly && !parentOpaque, some n.path)
    else pure (!n.upperLayerOnly, none)
  -- `fetch_sub(1)` of a `u64`
  modifyNode node fun n => { n with lookups := (n.lookups + 2 ^ 64 - 1) % 2 ^ 64 }
  let _ ← removeInode n.inode pathRemoved
  removeChild pnode n.name
  if needWhiteout then
    (← getNode pnode).handleUpperInodeLocked fun
      | none => throw (.os einval)
      | some parentRealInode => do
        let childRi ← parentRealInode.createWhiteout ctx sname
        let path := childPath (← getNode pnode).path sname
        let ino ← allocInode path
        let ovi ← newNode (newFromRealInode sname ino path childRi)
        insertInode ino ovi
        insertChild pnode sname ovi

/-! ## FUSE requests of `sync_io.rs` -/

def lookup (parent : Nat) (name : List UInt8) : OvM Entry := doLookup parent (decodeLossy name)

def forget (inode count : Nat) : OvM Unit := forgetOne inode count

def batchForget : List (Nat × Nat) → OvM Unit
  | [] => pure ()
  | (inode, count) :: requests => do
    forgetOne inode count
    batchForget requests

def getattr (inode : Nat) : OvM (Stat64 × Duration) := do
  let node ← lookupNode inode []
  let (layer, _, inode) ← (← getNode node).firstLayerInode
  let st ← liftE ((← getLayer layer).getattr inode)
  return (st, (← get).config.attrTimeout)

def mkdir (ctx : Context) (parent : Nat) (name : List UInt8) (mode umask : Nat) : OvM Entry := do
  let sname := decodeLossy name
  let pnode ← lookupNode parent []
  if (← getNode pnode).whiteout then throw (.os enoent)
  doMkdir ctx pnode sname mode umask
  doLookup parent sname

def rmdir (ctx : Context) (parent : Nat) (name : List UInt8) : OvM Unit := doRm ctx parent name true

def unlink (ctx : Context) (parent : Nat) (name : List UInt8) : OvM Unit := doRm ctx parent name false

def readdir {σ : Type} (inode size offset : Nat) (addEntry : σ → DirEntryBytes → Except IoError Nat × σ)
    (out : σ) : OvM σ := do
  if (← get).config.noReaddir then return out
  doReaddir inode size offset false (fun out d _ => addEntry out d) out

def readdirplus {σ : Type} (inode size offset : Nat)
    (addEntry : σ → DirEntryBytes → Entry → Except IoError Nat × σ) (out : σ) : OvM σ := do
  if (← get).config.noReaddir then return out
  doReaddir inode size offset true (fun out d entry =>
    match entry with
    | some e => addEntry out d e
    | none => (.error (.os enoent), out)) out

end OverlayFs

/-! ## Runs of requests

What a client sees of an `OverlayFs`: `listing path` looks the names of `path` up from the root
and lists the directory it reaches; `remount` is a fresh `OverlayFs` over the same layers, which
`import` loads again. The runs below stand beside the requests they exercise.

* `lossy_name_missing_from_view`: a name that is not UTF-8 is in no listing and no lookup finds
  it. `readdir` of the layer gives the bytes `FF`, `from_utf8_lossy` turns them into U+FFFD, and
  `lookup_child` asks the layer for the UTF-8 of U+FFFD, which it does not have.
* `remount_shows_entry_removed_before_mkdir`: `unlink d/f`, `rmdir d`, `mkdir d` over a lower
  `d/f` leave `d` empty in the running view, and a remount shows `f` again. `do_mkdir` sets the
  new directory opaque only if the whiteout node of `d` has lower layers, and the whiteout that
  `do_rm` created has none.
* `copy_up_gives_directory_to_caller`: `create_upper_dir` creates the upper copy with the
  caller's `Context` and never sets its owner, so a user who makes a directory in a lower
  directory of root becomes the owner of the copied-up directory.
-/

section Runs

open ExceptState OverlayFs

/-- The names `readdir` lists in the directory that `lookup` reaches along `path`. -/
def listing (path : List (List UInt8)) : OvM (List (List UInt8)) := do
  let ino ← path.foldlM (fun ino name => do return (← lookup ino name).inode) rootId
  readdir ino 4096 0 (fun names d => (.ok 1, names ++ [d.name])) []

/-- A new `OverlayFs` over the layers of `fs`, before `import`. -/
def remount (fs : OverlayFs) : OverlayFs :=
  OverlayFs.new fs.layers fs.upperLayer fs.lowerLayers fs.config

/-- The overlay of layer 0 over layer 1. -/
def stackOf (upper lower : Layer) : OverlayFs :=
  OverlayFs.new (fun i => if i = 0 then upper else lower) (some 0) [1] {}

/-- An upper layer holding one file, named by the byte `FF`. -/
def lossyStack : OverlayFs :=
  stackOf (layerOf [dirNode 1 0 [([0xFF], 2)], fileNode 2 []]) (layerOf [dirNode 1 0 []])

theorem lossy_name_missing_from_view :
    Union.visible lossyStack.layers (Union.root lossyStack.layers (some 0) [1]) = [[0xFF]] ∧
    (run (import_ *> listing []) lossyStack).1 = .ok [encode ['.'], encode ['.', '.']] ∧
    (run (import_ *> lookup rootId [0xFF]) lossyStack).1 = .error (.os enoent) := by
  decide +kernel

/-- A lower layer holding `d/f`, under an empty upper layer. -/
def lowerDirStack : OverlayFs :=
  stackOf (layerOf [dirNode 1 0 []])
    (layerOf [dirNode 1 0 [(encode ['d'], 2)], dirNode 2 0 [(encode ['f'], 3)], fileNode 3 []])

def removeThenMkdir : OvM (List (List UInt8)) := do
  let d ← lookup rootId (encode ['d'])
  unlink {} d.inode (encode ['f'])
  rmdir {} rootId (encode ['d'])
  let _ ← mkdir {} rootId (encode ['d']) 0o755 0
  listing [encode ['d']]

theorem remount_shows_entry_removed_before_mkdir :
    (run (import_ *> removeThenMkdir) lowerDirStack).1 = .ok [encode ['.'], encode ['.', '.']] ∧
    (run (import_ *> listing [encode ['d']]) (remount (run (import_ *> removeThenMkdir) lowerDirStack).2)).1 =
      .ok [encode ['.'], encode ['.', '.'], encode ['f']] := by
  decide +kernel

end Runs

end FuseBackend.Overlay
