import FuseBackend.Overlay.OverlayFs

/-!
# Creating nodes, and changing them in place

`do_mknod`, `do_create`, `do_symlink` and `do_link` of `overlayfs/mod.rs`, with the requests of
`overlayfs/sync_io.rs` built on them, and the requests that change a node where it is:
`setattr`, `setxattr` and `removexattr` copy the node up first and then write its upper inode.
`readlink` and `getxattr` read the node's first layer.

A new name either replaces a whiteout of the same name, whose node then takes the new upper inode
(`add_upper_inode` with `clear_lowers`), or gets a fresh node with an inode number from
`alloc_inode`. `do_mknod` and `do_symlink` do exactly this around the call that makes the child,
so they are `makeChild` of that call; `do_create` makes the child before it allocates the number,
and `do_link` copies both nodes up before it looks the name up, so each keeps its own body.

Open handles are not modelled (see `OverlayFs`): a layer's `create` opens none here, so `do_create`
gives no handle, and a request that names a handle finds no entry for it in the handle table and
takes the path through the node.
-/

namespace FuseBackend.Overlay

open Api Utf8

namespace RealInode

def mknod (ri : RealInode) (ctx : Context) (name : List Char) (mode rdev umask : Nat) :
    OvM RealInode := do
  if !ri.inUpperLayer then throw (.os erofs)
  let cname ← liftE (toCstring name)
  let entry ← updateLayer ri.layer (·.mknod ctx ri.inode cname mode rdev umask)
  return {
    layer := ri.layer, inUpperLayer := true, inode := entry.inode, whiteout := false,
    opaqueDir := false, stat := some entry.attr }

/-- `link`: the layer's inode `ino` under `name` in this directory. -/
def link (ri : RealInode) (ino : Nat) (name : List Char) : OvM RealInode := do
  if !ri.inUpperLayer then throw (.os erofs)
  let cname ← liftE (toCstring name)
  let entry ← updateLayer ri.layer (·.link ino ri.inode cname)
  let opaqueDir ← if isDir entry.attr then liftE ((← getLayer ri.layer).isOpaque entry.inode)
    else pure false
  return {
    layer := ri.layer, inUpperLayer := true, inode := entry.inode, whiteout := false, opaqueDir,
    stat := some entry.attr }

end RealInode

namespace OverlayFs

open OverlayInode

/-- `let _ = layer.delete_whiteout(ctx, parent, utils::to_cstring(name)?)`: a name that is not a
C string fails the request, a failure of the layer is ignored. -/
def dropWhiteout (parentRealInode : RealInode) (name : List Char) : OvM Unit := do
  let cname ← liftE (toCstring name)
  tryCatch (updateLayer_ parentRealInode.layer (·.deleteWhiteout parentRealInode.inode cname))
    fun _ => pure ()

/-- The body of `do_mknod` and `do_symlink`, with `make` the call that makes the child in the
parent's upper inode. -/
def makeChild (ctx : Context) (parentNode : Nat) (name : List Char)
    (make : RealInode → OvM RealInode) : OvM Unit := do
  if (← get).upperLayer.isNone then throw (.os erofs)
  let pn ← getNode parentNode
  if pn.whiteout then throw (.os enoent)
  match ← lookupNodeIgnoreEnoent pn.inode name with
  | some n =>
    if !(← getNode n).whiteout then throw (.os eexist)
    let pnode ← copyNodeUp ctx parentNode
    (← getNode pnode).handleUpperInodeLocked fun
      | none => throw (.os einval)
      | some parentRealInode => do
        if (← getNode n).inUpperLayer then dropWhiteout parentRealInode name
        let childRi ← make parentRealInode
        addUpperInode n childRi true
  | none =>
    let pnode ← copyNodeUp ctx parentNode
    let path := childPath (← getNode pnode).path name
    let newNode' ← (← getNode pnode).handleUpperInodeLocked fun
      | none => throw (.os einval)
      | some parentRealInode => do
        let ino ← allocInode path
        let childRi ← make parentRealInode
        return newFromRealInode name ino path childRi
    let arcNode ← newNode newNode'
    insertInode newNode'.inode arcNode
    insertChild pnode name arcNode

def doMknod (ctx : Context) (parentNode : Nat) (name : List Char) (mode rdev umask : Nat) :
    OvM Unit :=
  makeChild ctx parentNode name (·.mknod ctx name mode rdev umask)

def doSymlink (ctx : Context) (linkname : List Char) (parentNode : Nat) (name : List Char) :
    OvM Unit :=
  makeChild ctx parentNode name (·.symlink ctx linkname name)

/-- `do_create`, with the `mode` and `umask` of its `CreateIn`. -/
def doCreate (ctx : Context) (parentNode : Nat) (name : List Char) (mode umask : Nat) : OvM Unit := do
  if (← get).upperLayer.isNone then throw (.os erofs)
  let pn ← getNode parentNode
  if pn.whiteout then throw (.os enoent)
  match ← lookupNodeIgnoreEnoent pn.inode name with
  | some n =>
    if !(← getNode n).whiteout then throw (.os eexist)
    let pnode ← copyNodeUp ctx parentNode
    (← getNode pnode).handleUpperInodeLocked fun
      | none => throw (.os einval)
      | some parentRealInode => do
        if (← getNode n).inUpperLayer then dropWhiteout parentRealInode name
        let childRi ← parentRealInode.create ctx name mode umask
        addUpperInode n childRi true
  | none =>
    let pnode ← copyNodeUp ctx parentNode
    let path := childPath (← getNode pnode).path name
    let newNode' ← (← getNode pnode).handleUpperInodeLocked fun
      | none => throw (.os einval)
      | some parentRealInode => do
        -- the file is made before its number is allocated
        let childRi ← parentRealInode.create ctx name mode umask
        let ino ← allocInode path
        return newFromRealInode name ino path childRi
    let arcNode ← newNode newNode'
    insertInode newNode'.inode arcNode
    insertChild pnode name arcNode

def doLink (ctx : Context) (srcNode newParent : Nat) (name : List Char) : OvM Unit := do
  if (← get).upperLayer.isNone then throw (.os erofs)
  if (← getNode srcNode).whiteout || (← getNode newParent).whiteout then throw (.os enoent)
  let st ← (← getNode srcNode).stat64
  if isDir st then throw (.os eperm)
  let srcNode ← copyNodeUp ctx srcNode
  let newParent ← copyNodeUp ctx newParent
  let (_, _, srcIno) ← (← getNode srcNode).firstLayerInode
  match ← lookupNodeIgnoreEnoent (← getNode newParent).inode name with
  | some n =>
    if !(← getNode n).whiteout then throw (.os eexist)
    (← getNode newParent).handleUpperInodeLocked fun
      | none => throw (.os einval)
      | some parentRealInode => do
        if (← getNode n).inUpperLayer then dropWhiteout parentRealInode name
        let childRi ← parentRealInode.link srcIno name
        addUpperInode n childRi true
  | none =>
    let newNode' ← (← getNode newParent).handleUpperInodeLocked fun
      | none => throw (.os einval)
      | some parentRealInode => do
        let path := childPath (← getNode newParent).path name
        let ino ← allocInode path
        let childRi ← parentRealInode.link srcIno name
        return newFromRealInode name ino path childRi
    let arcNode ← newNode newNode'
    insertInode newNode'.inode arcNode
    insertChild newParent name arcNode

/-! ## FUSE requests of `sync_io.rs` -/

def mknod (ctx : Context) (parent : Nat) (name : List UInt8) (mode rdev umask : Nat) : OvM Entry := do
  let sname := decodeLossy name
  let pnode ← lookupNode parent []
  if (← getNode pnode).whiteout then throw (.os enoent)
  doMknod ctx pnode sname mode rdev umask
  doLookup parent sname

/-- `create`: the entry of the new file and the handle `do_create` gives, which is none here. -/
def create (ctx : Context) (parent : Nat) (name : List UInt8) (mode umask : Nat) :
    OvM (Entry × Option Nat) := do
  let sname := decodeLossy name
  let pnode ← lookupNode parent []
  if (← getNode pnode).whiteout then throw (.os enoent)
  doCreate ctx pnode sname mode umask
  return (← doLookup parent sname, none)

def link (ctx : Context) (inode newparent : Nat) (name : List UInt8) : OvM Entry := do
  let sname := decodeLossy name
  let node ← lookupNode inode []
  if (← getNode node).whiteout then throw (.os enoent)
  let newpnode ← lookupNode newparent []
  if (← getNode newpnode).whiteout then throw (.os enoent)
  doLink ctx node newpnode sname
  doLookup newparent sname

def symlink (ctx : Context) (linkname : List UInt8) (parent : Nat) (name : List UInt8) :
    OvM Entry := do
  let sname := decodeLossy name
  let slinkname := decodeLossy linkname
  let pnode ← lookupNode parent []
  doSymlink ctx slinkname pnode sname
  doLookup parent sname

def readlink (inode : Nat) : OvM (List UInt8) := do
  let node ← lookupNode inode []
  if (← getNode node).whiteout then throw (.os enoent)
  let (layer, _, inode) ← (← getNode node).firstLayerInode
  liftE ((← getLayer layer).readlink inode)

/-- `find_real_inode`: the first layer's inode of an active node. -/
def findRealInode (inode : Nat) : OvM (Nat × Nat) := do
  match ← getActiveInode inode with
  | some n =>
    let (firstLayer, _, firstInode) ← (← getNode n).firstLayerInode
    return (firstLayer, firstInode)
  | none => throw (.os enoent)

def getxattr (inode : Nat) (name : List UInt8) (size : Nat) : OvM GetxattrReply := do
  let node ← lookupNode inode []
  if (← getNode node).whiteout then throw (.os enoent)
  let (layer, realInode) ← findRealInode inode
  liftE ((← getLayer layer).getxattr realInode name size)

/-- `setattr` without a handle of an open file (see the module docstring). -/
def setattr (ctx : Context) (inode : Nat) (attr : Stat64) (valid : Nat) :
    OvM (Stat64 × Duration) := do
  if (← get).upperLayer.isNone then throw (.os erofs)
  let node ← lookupNode inode []
  let node ← if !(← getNode node).inUpperLayer then copyNodeUp ctx node else pure node
  let (layer, _, realInode) ← (← getNode node).firstLayerInode
  let st ← updateLayer layer (·.setattr realInode attr valid)
  return (st, (← get).config.attrTimeout)

/-- The body of `setxattr` and `removexattr`: the node is copied up if it is not upper, and `f`
writes the first layer's inode on that layer. -/
def writeXattr (ctx : Context) (inode : Nat) (f : Nat → Layer → Except IoError Layer) : OvM Unit := do
  let node ← lookupNode inode []
  if (← getNode node).whiteout then throw (.os enoent)
  if !(← getNode node).inUpperLayer then discard <| copyNodeUp ctx node
  let (layer, _, realInode) ← (← getNode node).firstLayerInode
  updateLayer_ layer (f realInode)

def setxattr (ctx : Context) (inode : Nat) (name value : List UInt8) (flags : Nat) : OvM Unit :=
  writeXattr ctx inode fun realInode l => l.setxattrFlags realInode name value flags

def removexattr (ctx : Context) (inode : Nat) (name : List UInt8) : OvM Unit :=
  writeXattr ctx inode fun ino l => l.removexattr ino name

end OverlayFs

end FuseBackend.Overlay
