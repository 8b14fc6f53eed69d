import FuseBackend.Overlay.Layer

/-!
# The union of layers, as overlayfs specifies it

What a stack of layers should show, stated over the layers alone. A merged directory is made of
directories of the layers, upper first (its constituents). A name is visible in it iff the
topmost constituent that has the name has a node there that is not a whiteout; the visible node
is that one. A visible directory is made of that directory and the same-named directories of the
constituents below, stopping after the first opaque one and at the first constituent where the
name is a whiteout or not a directory. The root is made of the roots of the layers, upper first,
stopping after the first opaque one.

A directory is opaque when one of the three opaque attributes holds `y`.
-/

namespace FuseBackend.Overlay

open Api

/-- The directories making up a merged directory, upper first, as (layer, inode) pairs. -/
abbrev Constituents := List (Nat × Nat)

def LayerNode.isOpaqueDir (n : LayerNode) : Bool :=
  [opaqueXattr, privilegedOpaqueXattr, unprivilegedOpaqueXattr].any fun x =>
    n.xattrs.lookup (Utf8.encode x) == some (Utf8.encode ['y'])

/-- The node that the directory `dir` of a layer has under `name`. -/
def Layer.child (l : Layer) (dir : Nat) (name : List UInt8) : Option (Nat × LayerNode) := do
  let d ← l.nodes dir
  let ino ← d.entries.lookup name
  let n ← l.nodes ino
  return (ino, n)

namespace Union

variable (layers : Nat → Layer)

/-- Keeps the directories of `ds` up to and including the first opaque one. -/
def throughOpaque : Constituents → Constituents
  | [] => []
  | (i, d) :: ds =>
    (i, d) :: if ((layers i).nodes d).any LayerNode.isOpaqueDir then [] else throughOpaque ds

/-- The root of the union of the layers `upper` and `lowers`. -/
def root (upper : Option Nat) (lowers : List Nat) : Constituents :=
  throughOpaque layers ((upper.toList ++ lowers).map fun i => (i, (layers i).rootInode))

/-- The directories named `name` in the constituents `ds` below the topmost one that has it. -/
def lowerDirs (name : List UInt8) : Constituents → Constituents
  | [] => []
  | (i, d) :: ds =>
    match (layers i).child d name with
    | none => lowerDirs name ds
    | some (ino, n) =>
      if isWhiteout n.attr || !isDir n.attr then []
      else (i, ino) :: if n.isOpaqueDir then [] else lowerDirs name ds

/-- The visible node under `name` in the merged directory `ds`, with its constituents when it
is a directory. -/
def child (name : List UInt8) : Constituents → Option (LayerNode × Constituents)
  | [] => none
  | (i, d) :: ds =>
    match (layers i).child d name with
    | none => child name ds
    | some (ino, n) =>
      if isWhiteout n.attr then none
      else if !isDir n.attr then some (n, [])
      else some (n, (i, ino) :: if n.isOpaqueDir then [] else lowerDirs layers name ds)

/-- The merged directory at `path` below the merged directory `ds`. -/
def resolve : Constituents → List (List UInt8) → Option Constituents
  | ds, [] => some ds
  | ds, name :: path =>
    match child layers name ds with
    | some (n, ds') => if isDir n.attr then resolve ds' path else none
    | none => none

/-- The names the constituents `ds` hold, each once, in the order they are first met. -/
def names (ds : Constituents) : List (List UInt8) :=
  (ds.flatMap fun (i, d) => ((layers i).nodes d).elim [] fun n => n.entries.keys).dedup

/-- The names visible in the merged directory `ds`. -/
def visible (ds : Constituents) : List (List UInt8) :=
  (names layers ds).filter fun name => (child layers name ds).isSome

end Union

end FuseBackend.Overlay
