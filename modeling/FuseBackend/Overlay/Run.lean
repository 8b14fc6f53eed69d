import FuseBackend.Overlay.OverlayFs

/-!
# Running the overlay's operations

What the state accesses of `OverlayFs` do under `ExceptState.run`, and which operations only read
the state. Proofs about runs of requests take their steps from these lemmas instead of
unfolding the monad.
-/

namespace FuseBackend.Overlay

open Api Utf8 ExceptState

@[simp] theorem run_getNode (id : Nat) (fs : OverlayFs) :
    run (getNode id) fs = (.ok (fs.nodes id), fs) := rfl

@[simp] theorem run_modifyNode (id : Nat) (f : OverlayInode → OverlayInode) (fs : OverlayFs) :
    run (modifyNode id f) fs =
      (.ok (), { fs with nodes := Function.update fs.nodes id (f (fs.nodes id)) }) := rfl

@[simp] theorem run_newNode (n : OverlayInode) (fs : OverlayFs) :
    run (newNode n) fs =
      (.ok fs.nextNode,
        { fs with nodes := Function.update fs.nodes fs.nextNode n, nextNode := fs.nextNode + 1 }) :=
  rfl

@[simp] theorem run_getLayer (i : Nat) (fs : OverlayFs) :
    run (getLayer i) fs = (.ok (fs.layers i), fs) := rfl

@[simp] theorem run_liftE {α : Type} (x : Except IoError α) (fs : OverlayFs) :
    run (liftE x) fs = (x, fs) := by
  cases x <;> rfl

theorem run_updateLayer {α : Type} (i : Nat) (f : Layer → Except IoError (α × Layer)) (fs : OverlayFs) :
    run (updateLayer i f) fs =
      match f (fs.layers i) with
      | .ok (a, l) => (.ok a, { fs with layers := Function.update fs.layers i l })
      | .error e => (.error e, fs) := by
  unfold updateLayer
  simp only [run_bind, run_get]
  rcases f (fs.layers i) with e | ⟨a, l⟩ <;> rfl

/-! ## Operations that only read -/

theorem getNode_readOnly (id : Nat) : ReadOnly (getNode id) := fun _ => rfl

theorem getLayer_readOnly (i : Nat) : ReadOnly (getLayer i) := fun _ => rfl

theorem liftE_readOnly {α : Type} (x : Except IoError α) : ReadOnly (liftE x) := fun fs => by
  rw [run_liftE]

theorem getActiveInode_readOnly (inode : Nat) : ReadOnly (OverlayFs.getActiveInode inode) :=
  fun _ => rfl

theorem rootNode_readOnly : ReadOnly OverlayFs.rootNode := by
  apply ReadOnly.bind (getActiveInode_readOnly rootId)
  intro o
  cases o with
  | some v => exact ReadOnly.pure v
  | none => exact ReadOnly.throw _

namespace RealInode

theorem run_stat64 (ri : RealInode) (fs : OverlayFs) :
    run ri.stat64 fs =
      (if ri.inode = 0 then .error (.os enoent) else (fs.layers ri.layer).getattr ri.inode, fs) := by
  unfold stat64
  by_cases h : ri.inode = 0 <;> simp [h, run_bind, getLayer]

theorem stat64_readOnly (ri : RealInode) : ReadOnly ri.stat64 := by
  intro fs
  rw [run_stat64]

theorem stat64IgnoreEnoent_readOnly (ri : RealInode) : ReadOnly ri.stat64IgnoreEnoent := by
  apply ReadOnly.tryCatch (ReadOnly.map (stat64_readOnly ri))
  intro e
  split
  · split
    · exact ReadOnly.pure _
    · exact ReadOnly.throw _
  · exact ReadOnly.throw _

end RealInode

namespace OverlayInode

theorem stat64Of_readOnly : ∀ ris : List RealInode, ReadOnly (stat64Of ris)
  | [] => ReadOnly.throw _
  | ri :: ris => by
    apply ReadOnly.bind (RealInode.stat64IgnoreEnoent_readOnly ri)
    intro v
    cases v with
    | some v => exact ReadOnly.pure v
    | none => exact stat64Of_readOnly ris

theorem stat64_readOnly (n : OverlayInode) : ReadOnly n.stat64 := stat64Of_readOnly n.realInodes

theorem firstLayerInode_readOnly (n : OverlayInode) : ReadOnly n.firstLayerInode := by
  unfold firstLayerInode
  split
  · exact ReadOnly.pure _
  · exact ReadOnly.throw _

/-- The attributes of a node are those of its first layer's inode, when that layer has it. -/
theorem run_stat64_of_head {n : OverlayInode} {ri : RealInode} {ris : List RealInode} {ln : LayerNode}
    (fs : OverlayFs) (hri : n.realInodes = ri :: ris) (hino : ri.inode ≠ 0)
    (hln : (fs.layers ri.layer).nodes ri.inode = some ln) :
    run n.stat64 fs = (.ok ln.attr, fs) := by
  have hget : run ri.stat64 fs = (.ok ln.attr, fs) := by
    simp [RealInode.run_stat64, hino, Layer.getattr, Layer.node, hln]
  simp only [stat64, hri, stat64Of, run_bind, RealInode.stat64IgnoreEnoent, run_tryCatch, run_map, hget]
  rfl

end OverlayInode

end FuseBackend.Overlay
