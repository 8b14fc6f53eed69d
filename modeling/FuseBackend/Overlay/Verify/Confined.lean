import FuseBackend.Overlay.Run
import FuseBackend.Overlay.Create
import FuseBackend.Lib.AList

/-!
# Writes go to the upper layer

Every write of `overlayfs` to a layer goes to the layer of a `RealInode` whose `in_upper_layer`
is set: the writing methods of `RealInode` refuse any other (`EROFS`), and the callers in
`OverlayFs` take the inode from `handle_upper_inode_locked` or check the flag of
`first_layer_inode`. That such an inode is on the upper layer is an invariant of the node table.
A real inode comes from `import` (the upper layer's root, flagged, or a lower layer's root, not
flagged), from a lookup in the directory of another real inode (whose layer and flag it takes),
or from a write to a flagged real inode (whose layer it takes, flagged).

`Confined u L fs` is that invariant for the upper layer `u`, together with the frame that every
layer other than `u` holds what it holds in `L`. `Confines u R m` says that `m` keeps it, whether
it returns or fails, and returns a value satisfying `R`; it is built up like a Hoare triple, by
`Confines.bind` over the steps of a computation. This module proves it of the state accesses and
of the operations of `RealInode` and `OverlayInode`; `LowerLayers` of the requests.
-/

namespace FuseBackend.Overlay

open Api ExceptState

variable {α β : Type} {u : Option Nat}

/-- A real inode flagged as upper is on the layer `u`. -/
def RealInode.Tagged (u : Option Nat) (ri : RealInode) : Prop :=
  ri.inUpperLayer = true → u = some ri.layer

def OverlayInode.Tagged (u : Option Nat) (n : OverlayInode) : Prop :=
  ∀ ri ∈ n.realInodes, ri.Tagged u

/-- A real inode flagged as upper, on the layer `u`: what a write returns. -/
def RealInode.Upper (u : Option Nat) (ri : RealInode) : Prop :=
  ri.inUpperLayer = true ∧ u = some ri.layer

/-- The state of an overlay over the layers `L` with the upper layer `u`, as far as the
requests can change it. -/
structure Confined (u : Option Nat) (L : Nat → Layer) (fs : OverlayFs) : Prop where
  upper : fs.upperLayer = u
  tagged : ∀ id, (fs.nodes id).Tagged u
  lower : ∀ i, u ≠ some i → fs.layers i = L i

/-- `m` keeps every state `Confined` and, when it returns, returns a value satisfying `R`. -/
def Confines (u : Option Nat) (R : α → Prop) (m : OvM α) : Prop :=
  ∀ L, Triple (Confined u L) m (fun a fs => Confined u L fs ∧ R a) (fun _ => Confined u L)

/-! ## Tags -/

theorem RealInode.Upper.tagged {ri : RealInode} (h : ri.Upper u) : ri.Tagged u := fun _ => h.2

theorem OverlayInode.Tagged.head {n : OverlayInode} (hn : n.Tagged u) {ri : RealInode}
    (h : n.realInodes.head? = some ri) : ri.Tagged u :=
  hn ri (List.mem_of_head? h)

theorem Confined.update_nodes {L : Nat → Layer} {fs : OverlayFs} (hfs : Confined u L fs)
    {n : OverlayInode} (hn : n.Tagged u) (id : Nat) :
    Confined u L { fs with nodes := Function.update fs.nodes id n } where
  upper := hfs.upper
  tagged id' := by
    show (Function.update fs.nodes id n id').Tagged u
    rw [Function.update_apply]
    split_ifs
    · exact hn
    · exact hfs.tagged id'
  lower := hfs.lower

/-! ## Rules -/

namespace Confines

variable {R Q : α → Prop} {m : OvM α}

theorem pure {a : α} (h : R a) : Confines u R (Pure.pure a) := fun _ _ hfs => ⟨hfs, h⟩

theorem throw (e : IoError) : Confines u R (MonadExcept.throw e : OvM α) := fun _ _ hfs => hfs

theorem throw_bind {e : IoError} {f : α → OvM β} {Q : β → Prop} :
    Confines u Q (MonadExcept.throw e >>= f) :=
  fun _ => Triple.throw_bind fun _ h => h

theorem bind {f : α → OvM β} {Q : β → Prop} (hm : Confines u R m)
    (hf : ∀ a, R a → Confines u Q (f a)) : Confines u Q (m >>= f) :=
  fun L => Triple.bind (hm L) fun a fs hfs => hf a hfs.2 L fs hfs.1

theorem mono (hm : Confines u R m) (h : ∀ a, R a → Q a) : Confines u Q m :=
  fun L => Triple.conseq (fun _ h => h) (hm L) (fun a _ hfs => ⟨hfs.1, h a hfs.2⟩)
    (fun _ _ h => h)

theorem ite {c : Prop} [Decidable c] {t e : OvM α} (ht : c → Confines u R t)
    (he : ¬c → Confines u R e) : Confines u R (if c then t else e) :=
  fun L => Triple.ite (fun hc => ht hc L) (fun hc => he hc L)

theorem tryCatch {h : IoError → OvM α} (hm : Confines u R m) (hh : ∀ e, Confines u R (h e)) :
    Confines u R (MonadExcept.tryCatch m h) :=
  fun L => Triple.tryCatch (hm L) fun e => hh e L

theorem of_readOnly (hm : ReadOnly m) (h : ∀ a, R a) : Confines u R m := by
  intro L fs hfs
  rw [hm.run_eq]
  rcases (run m fs).1 with e | a
  · exact hfs
  · exact ⟨hfs, h a⟩

theorem get : Confines u (fun fs : OverlayFs => fs.upperLayer = u) MonadState.get :=
  fun _ _ hfs => ⟨hfs, hfs.upper⟩

theorem mapM {f : α → OvM β} {Q : β → Prop} :
    ∀ {l : List α}, (∀ a ∈ l, Confines u Q (f a)) → Confines u (fun bs => ∀ b ∈ bs, Q b) (l.mapM f)
  | [], _ => pure fun _ h => nomatch h
  | a :: l, h => by
    rw [List.mapM_cons]
    refine bind (h a List.mem_cons_self) fun b hb => ?_
    refine bind (mapM fun a ha => h a (List.mem_cons_of_mem _ ha)) fun bs hbs => ?_
    refine pure fun x hx => ?_
    rcases List.mem_cons.mp hx with rfl | hx
    · exact hb
    · exact hbs x hx

theorem pure_bind {a : α} {f : α → OvM β} {Q : β → Prop} (h : Confines u Q (f a)) :
    Confines u Q (Pure.pure a >>= f) := by
  rw [LawfulMonad.pure_bind]
  exact h

/-- A guard that fails the computation: what follows runs when it passes. -/
theorem guard {c : Prop} [Decidable c] {e : IoError} {k : Unit → OvM α} (h : ¬c → Confines u R (k ())) :
    Confines u R (if c then MonadExcept.throw e >>= k else k ()) :=
  ite (fun _ => throw_bind) h

/-- An action taken only when `c` holds, before the rest. -/
theorem optional {c : Prop} [Decidable c] {a : OvM Unit} {k : Unit → OvM α}
    (ha : c → Confines u (fun _ => True) a) (hk : Confines u R (k ())) :
    Confines u R (if c then a >>= k else k ()) :=
  ite (fun hc => bind (ha hc) fun _ _ => hk) fun _ => hk

theorem forIn {γ : Type} {f : α → γ → OvM (ForInStep γ)}
    (h : ∀ a b, Confines u (fun _ => True) (f a b)) :
    ∀ (l : List α) (b : γ), Confines u (fun _ => True) (ForIn.forIn l b f)
  | [], _ => pure trivial
  | a :: l, b => by
    rw [List.forIn_cons]
    refine bind (h a b) fun r _ => ?_
    rcases r with b' | b'
    · exact pure trivial
    · exact forIn h l b'

theorem map {g : α → β} {Q : β → Prop} (hm : Confines u R m) (h : ∀ a, R a → Q (g a)) :
    Confines u Q (g <$> m) := by
  rw [map_eq_pure_bind]
  exact bind hm fun a ha => pure (h a ha)

end Confines

/-- The state a confining computation leaves is confined, whether it returns or fails. -/
theorem Confines.confined_run {R : α → Prop} {m : OvM α} (hm : Confines u R m) {L : Nat → Layer}
    {fs : OverlayFs} (hfs : Confined u L fs) : Confined u L (run m fs).2 := by
  have h := hm L fs hfs
  rcases hr : run m fs with ⟨e | a, fs'⟩ <;> rw [hr] at h
  · exact h
  · exact h.1

/-- A triple about a confined state runs on through a computation that keeps it confined. -/
theorem Confines.bind_triple {R : α → Prop} {m : OvM α} {f : α → OvM β} {L : Nat → Layer}
    {Q : β → OverlayFs → Prop} (hm : Confines u R m)
    (hf : ∀ a, R a → Triple (Confined u L) (f a) Q (fun _ => Confined u L)) :
    Triple (Confined u L) (m >>= f) Q (fun _ => Confined u L) :=
  Triple.bind (hm L) fun a fs hfs => hf a hfs.2 fs hfs.1

/-! ## State accesses -/

theorem liftE_confines (x : Except IoError α) : Confines u (fun _ => True) (liftE x) :=
  Confines.of_readOnly (fun fs => by rw [run_liftE]) fun _ => trivial

theorem getNode_confines (id : Nat) : Confines u (OverlayInode.Tagged u) (getNode id) :=
  fun _ _ hfs => ⟨hfs, hfs.tagged id⟩

/-- `getNode` returns the node the state holds. -/
theorem getNode_triple {P : OverlayFs → Prop} {E : IoError → OverlayFs → Prop} (id : Nat) :
    Triple P (getNode id) (fun n fs => P fs ∧ fs.nodes id = n) E :=
  fun _ hfs => ⟨hfs, rfl⟩

/-- A triple after a read of a node runs from a state holding the node read, which is tagged. -/
theorem Confined.getNode_bind {L : Nat → Layer} {id : Nat} {f : OverlayInode → OvM β}
    {Q : β → OverlayFs → Prop}
    (hf : ∀ n, n.Tagged u →
      Triple (fun fs => Confined u L fs ∧ fs.nodes id = n) (f n) Q (fun _ => Confined u L)) :
    Triple (Confined u L) (getNode id >>= f) Q (fun _ => Confined u L) := by
  intro fs hfs
  rw [run_bind, run_getNode]
  exact hf _ (hfs.tagged id) fs ⟨hfs, rfl⟩

theorem getLayer_confines (i : Nat) : Confines u (fun _ => True) (getLayer i) :=
  fun _ _ hfs => ⟨hfs, trivial⟩

theorem modifyNode_confines {f : OverlayInode → OverlayInode}
    (hf : ∀ n, n.Tagged u → (f n).Tagged u) (id : Nat) :
    Confines u (fun _ => True) (modifyNode id f) :=
  fun _ _ hfs => ⟨hfs.update_nodes (hf _ (hfs.tagged id)) id, trivial⟩

/-- A change of a node's other fields than its real inodes. -/
theorem modifyNode_keeps_confines {f : OverlayInode → OverlayInode}
    (hf : ∀ n, (f n).realInodes = n.realInodes) (id : Nat) :
    Confines u (fun _ => True) (modifyNode id f) :=
  modifyNode_confines (fun n hn ri hri => hn ri (hf n ▸ hri)) id

theorem newNode_confines {n : OverlayInode} (hn : n.Tagged u) :
    Confines u (fun _ => True) (newNode n) :=
  fun _ fs hfs => ⟨{ hfs.update_nodes hn fs.nextNode with }, trivial⟩

/-- A write of the layer `i` keeps the frame when `i` is the upper layer. -/
theorem updateLayer_confines {i : Nat} (hi : u = some i) (f : Layer → Except IoError (α × Layer)) :
    Confines u (fun _ => True) (updateLayer i f) := by
  intro L fs hfs
  rw [run_updateLayer]
  rcases f (fs.layers i) with e | ⟨a, l⟩
  · exact hfs
  · refine ⟨⟨hfs.upper, hfs.tagged, fun j hj => ?_⟩, trivial⟩
    have hji : j ≠ i := fun h => hj (h ▸ hi)
    show Function.update fs.layers i l j = L j
    rw [Function.update_of_ne hji]
    exact hfs.lower j hj

theorem updateLayer_unit_confines {i : Nat} (hi : u = some i) (f : Layer → Except IoError Layer) :
    Confines u (fun _ => True) (updateLayer_ i f) :=
  updateLayer_confines hi _

/-! ## `RealInode` -/

namespace RealInode

variable (ri : RealInode)

theorem cachedStat_confines : Confines u (fun _ => True) ri.cachedStat := by
  unfold cachedStat
  split
  · exact Confines.pure trivial
  · exact Confines.of_readOnly (stat64_readOnly ri) fun _ => trivial

theorem new_confines {layer : Nat} {inUpperLayer : Bool} (inode : Nat) (whiteout opaqueDir : Bool)
    (h : inUpperLayer = true → u = some layer) :
    Confines u (Tagged u) (RealInode.new layer inUpperLayer inode whiteout opaqueDir) := by
  unfold RealInode.new
  refine Confines.tryCatch ?_ fun _ => Confines.pure h
  exact Confines.bind (Confines.of_readOnly (stat64IgnoreEnoent_readOnly _) fun _ => trivial)
    fun _ _ => Confines.pure h

theorem lookupChildIgnoreEnoent_confines (name : List Char) :
    Confines u (fun _ => True) (ri.lookupChildIgnoreEnoent name) := by
  unfold lookupChildIgnoreEnoent
  refine Confines.bind (liftE_confines _) fun cname _ => ?_
  refine Confines.bind (getLayer_confines _) fun l _ => ?_
  split
  · exact Confines.pure trivial
  · split
    · split
      · exact Confines.pure trivial
      · exact Confines.throw _
    · exact Confines.throw _

theorem lookupChild_confines (hri : ri.Tagged u) (name : List Char) :
    Confines u (fun o => ∀ c ∈ o, Tagged u c) (ri.lookupChild name) := by
  unfold lookupChild
  split
  · exact Confines.pure fun _ h => absurd h (Option.not_mem_none _)
  · refine Confines.bind (getLayer_confines _) fun l _ => ?_
    refine Confines.bind (lookupChildIgnoreEnoent_confines ri name) fun o _ => ?_
    rcases o with _ | v
    · exact Confines.pure fun _ h => absurd h (Option.not_mem_none _)
    · -- the child is on the directory's layer, with its flag, whichever attribute is read
      dsimp only
      split <;>
      · refine Confines.bind (liftE_confines _) fun _ _ => ?_
        refine Confines.bind (Confines.pure (R := fun _ => True) trivial) fun _ _ => ?_
        refine Confines.pure fun c hc => ?_
        cases hc
        exact hri

/-- The children `lookupChildren` adds to a map of tagged inodes are tagged. -/
theorem lookupChildren_confines (hri : ri.Tagged u) :
    ∀ (names : List (List Char)) (m : AList fun _ : List Char => RealInode),
      (∀ e ∈ m.entries, e.2.Tagged u) →
        Confines u (fun m' => ∀ e ∈ m'.entries, e.2.Tagged u) (ri.lookupChildren names m)
  | [], m, hm => Confines.pure hm
  | name :: names, m, hm => by
    rw [lookupChildren]
    refine Confines.bind (lookupChild_confines ri hri name) fun o ho => ?_
    rcases o with _ | child
    · exact lookupChildren_confines hri names m hm
    · refine lookupChildren_confines hri names _ fun e he => ?_
      rcases AList.mem_entries_insert he with rfl | he
      · exact ho child rfl
      · exact hm e he

theorem readdir_confines (hri : ri.Tagged u) :
    Confines u (fun m => ∀ e ∈ m.entries, e.2.Tagged u) ri.readdir := by
  unfold readdir
  split
  · exact Confines.throw _
  · refine Confines.bind (cachedStat_confines ri) fun stat _ => ?_
    split
    · exact Confines.throw _
    · refine Confines.bind (getLayer_confines _) fun l _ => ?_
      refine Confines.bind (liftE_confines _) fun names _ => ?_
      exact lookupChildren_confines ri hri _ ∅ fun _ h => nomatch h

/-- A writing method runs on an inode flagged as upper, and so on the upper layer. -/
theorem upper_of_not_not {ri : RealInode} (hri : ri.Tagged u) (h : ¬(!ri.inUpperLayer) = true) :
    u = some ri.layer :=
  hri (by simpa using h)

theorem createWhiteout_confines (hri : ri.Tagged u) (ctx : Context) (name : List Char) :
    Confines u (Upper u) (ri.createWhiteout ctx name) := by
  unfold createWhiteout
  split
  · exact Confines.throw _
  · next hup =>
    have hlayer := upper_of_not_not hri hup
    refine Confines.bind (liftE_confines _) fun _ _ => ?_
    refine Confines.bind (updateLayer_confines hlayer _) fun _ _ => ?_
    exact Confines.pure ⟨rfl, hlayer⟩

theorem mkdir_confines (hri : ri.Tagged u) (ctx : Context) (name : List Char) (mode umask : Nat) :
    Confines u (Upper u) (ri.mkdir ctx name mode umask) := by
  unfold mkdir
  split
  · exact Confines.throw _
  · next hup =>
    have hlayer := upper_of_not_not hri hup
    refine Confines.bind (liftE_confines _) fun _ _ => ?_
    refine Confines.bind (updateLayer_confines hlayer _) fun _ _ => ?_
    exact Confines.pure ⟨rfl, hlayer⟩

theorem create_confines (hri : ri.Tagged u) (ctx : Context) (name : List Char) (mode umask : Nat) :
    Confines u (Upper u) (ri.create ctx name mode umask) := by
  unfold create
  split
  · exact Confines.throw _
  · next hup =>
    have hlayer := upper_of_not_not hri hup
    refine Confines.bind (liftE_confines _) fun _ _ => ?_
    refine Confines.bind (updateLayer_confines hlayer _) fun _ _ => ?_
    exact Confines.pure ⟨rfl, hlayer⟩

theorem symlink_confines (hri : ri.Tagged u) (ctx : Context) (linkName filename : List Char) :
    Confines u (Upper u) (ri.symlink ctx linkName filename) := by
  unfold symlink
  split
  · exact Confines.throw _
  · next hup =>
    have hlayer := upper_of_not_not hri hup
    refine Confines.bind (liftE_confines _) fun _ _ => ?_
    refine Confines.bind (liftE_confines _) fun _ _ => ?_
    refine Confines.bind (updateLayer_confines hlayer _) fun _ _ => ?_
    -- `symlink` copies the flag of the directory, which is set
    exact Confines.pure ⟨by simpa using hup, hlayer⟩

theorem mknod_confines (hri : ri.Tagged u) (ctx : Context) (name : List Char) (mode rdev umask : Nat) :
    Confines u (Upper u) (ri.mknod ctx name mode rdev umask) := by
  unfold mknod
  split
  · exact Confines.throw _
  · next hup =>
    have hlayer := upper_of_not_not hri hup
    refine Confines.bind (liftE_confines _) fun _ _ => ?_
    refine Confines.bind (updateLayer_confines hlayer _) fun _ _ => ?_
    exact Confines.pure ⟨rfl, hlayer⟩

theorem link_confines (hri : ri.Tagged u) (ino : Nat) (name : List Char) :
    Confines u (Upper u) (ri.link ino name) := by
  unfold link
  split
  · exact Confines.throw _
  · next hup =>
    have hlayer := upper_of_not_not hri hup
    refine Confines.bind (liftE_confines _) fun _ _ => ?_
    refine Confines.bind (updateLayer_confines hlayer _) fun entry _ => ?_
    dsimp only
    split
    · refine Confines.bind (getLayer_confines _) fun _ _ => ?_
      exact Confines.bind (liftE_confines _) fun _ _ => Confines.pure ⟨rfl, hlayer⟩
    · exact Confines.bind (Confines.pure (R := fun _ => True) trivial) fun _ _ =>
        Confines.pure ⟨rfl, hlayer⟩

end RealInode

/-! ## `OverlayInode` -/

namespace OverlayInode

theorem newFromRealInode_tagged {ri : RealInode} (hri : ri.Tagged u) (name : List Char) (ino : Nat)
    (path : List Char) : (newFromRealInode name ino path ri).Tagged u := by
  intro r hr
  rw [List.mem_singleton.mp hr]
  exact hri

theorem stat64_confines (n : OverlayInode) : Confines u (fun _ => True) n.stat64 :=
  Confines.of_readOnly (stat64_readOnly n) fun _ => trivial

theorem pushLowers_confines :
    ∀ {new : OverlayInode} {ris : List RealInode}, new.Tagged u → (∀ ri ∈ ris, ri.Tagged u) →
      Confines u (Tagged u) (pushLowers new ris)
  | _, [], hnew, _ => Confines.pure hnew
  | new, ri :: ris, hnew, hris => by
    rw [pushLowers]
    -- the inode joins the node, and the rest of the layers may follow
    have hnew' : ({ new with realInodes := new.realInodes ++ [ri] } : OverlayInode).Tagged u := by
      intro r hr
      rcases List.mem_append.mp hr with hr | hr
      · exact hnew r hr
      · exact List.mem_singleton.mp hr ▸ hris ri List.mem_cons_self
    refine Confines.bind (ri.cachedStat_confines) fun stat _ => ?_
    split
    · exact Confines.pure hnew
    · split
      · exact Confines.pure hnew
      · split
        · exact Confines.pure hnew'
        · exact pushLowers_confines hnew' fun r hr => hris r (List.mem_cons_of_mem _ hr)

theorem newFromRealInodes_confines (name : List Char) (ino : Nat) (path : List Char) :
    ∀ {ris : List RealInode}, (∀ ri ∈ ris, ri.Tagged u) →
      Confines u (Tagged u) (newFromRealInodes name ino path ris)
  | [], _ => Confines.throw _
  | ri :: ris, hris => by
    rw [newFromRealInodes]
    have hnew := newFromRealInode_tagged (hris ri List.mem_cons_self) name ino path
    refine Confines.bind (ri.cachedStat_confines) fun stat _ => ?_
    split
    · exact Confines.pure hnew
    · split
      · exact Confines.pure hnew
      · split
        · exact Confines.pure hnew
        · exact pushLowers_confines hnew fun r hr => hris r (List.mem_cons_of_mem _ hr)

theorem countEntriesAndWhiteout_confines (n : OverlayInode) :
    Confines u (fun _ => True) n.countEntriesAndWhiteout := by
  unfold countEntriesAndWhiteout
  refine Confines.bind (stat64_confines n) fun st _ => ?_
  split
  · exact Confines.throw _
  · exact Confines.bind Confines.get fun _ _ => Confines.pure trivial

/-- The first layer's inode, which is on the upper layer if it is flagged so. -/
theorem firstLayerInode_confines {n : OverlayInode} (hn : n.Tagged u) :
    Confines u (fun x : Nat × Bool × Nat => x.2.1 = true → u = some x.1) n.firstLayerInode := by
  unfold firstLayerInode
  split
  · next v hv => exact Confines.pure (hn.head hv)
  · exact Confines.throw _

/-- The first layer's inode of an upper node is on the upper layer. -/
theorem firstLayerInode_upper {n : OverlayInode} (hn : n.Tagged u) (hup : n.inUpperLayer = true) :
    Confines u (fun x : Nat × Bool × Nat => u = some x.1) n.firstLayerInode := by
  unfold firstLayerInode
  split
  · next v hv =>
    have hv' : v.inUpperLayer = true := by simpa [inUpperLayer, hv] using hup
    exact Confines.pure (hn.head hv hv')
  · exact Confines.throw _

theorem removeChild_confines (id : Nat) (name : List Char) :
    Confines u (fun _ => True) (removeChild id name) := by
  unfold removeChild
  refine modifyNode_confines ?_ id
  exact fun _ hn => hn

theorem insertChild_confines (id : Nat) (name : List Char) (node : Nat) :
    Confines u (fun _ => True) (insertChild id name node) := by
  unfold insertChild
  refine modifyNode_confines ?_ id
  exact fun _ hn => hn

theorem addUpperInode_confines {ri : RealInode} (hri : ri.Tagged u) (id : Nat) (clearLowers : Bool) :
    Confines u (fun _ => True) (addUpperInode id ri clearLowers) := by
  refine modifyNode_confines (fun n hn r hr => ?_) id
  rcases List.mem_cons.mp hr with rfl | hr
  · exact hri
  · split at hr
    · nomatch hr
    · exact hn r hr

/-- `handle_upper_inode_locked` hands `f` the node's upper inode, if it has one. -/
theorem handleUpperInodeLocked_confines {R : α → Prop} {n : OverlayInode} (hn : n.Tagged u)
    {f : Option RealInode → OvM α} (hf : ∀ o, (∀ ri ∈ o, ri.Upper u) → Confines u R (f o)) :
    Confines u R (n.handleUpperInodeLocked f) := by
  unfold handleUpperInodeLocked
  split
  · next v hv =>
    split
    · next hup =>
      refine hf _ fun ri hri => ?_
      cases hri
      exact ⟨hup, hn.head hv hup⟩
    · exact hf none fun _ h => absurd h (Option.not_mem_none _)
  · exact Confines.throw _

/-- Every layer's list of inodes for a name, in the merged map, is tagged. -/
def MergedTagged (u : Option Nat) (acc : AList fun _ : List Char => List RealInode) : Prop :=
  ∀ e ∈ acc.entries, ∀ ri ∈ e.2, ri.Tagged u

theorem mergeEntries_tagged :
    ∀ {acc : AList fun _ : List Char => List RealInode} {es : List (Sigma fun _ : List Char => RealInode)},
      MergedTagged u acc → (∀ e ∈ es, e.2.Tagged u) → MergedTagged u (mergeEntries acc es)
  | _, [], hacc, _ => hacc
  | acc, e :: es, hacc, hes => by
    rw [mergeEntries]
    have he := hes e List.mem_cons_self
    have hes' : ∀ e' ∈ es, e'.2.Tagged u := fun e' h => hes e' (List.mem_cons_of_mem _ h)
    split
    · next v hv =>
      refine mergeEntries_tagged (fun x hx ri hri => ?_) hes'
      rcases AList.mem_entries_replace hx with rfl | hx
      · rcases List.mem_append.mp hri with hri | hri
        · exact hacc _ (AList.mem_lookup_iff.mp hv) ri hri
        · exact List.mem_singleton.mp hri ▸ he
      · exact hacc x hx ri hri
    · refine mergeEntries_tagged (fun x hx ri hri => ?_) hes'
      rcases AList.mem_entries_insert hx with rfl | hx
      · exact List.mem_singleton.mp hri ▸ he
      · exact hacc x hx ri hri

theorem mergeLayers_confines :
    ∀ {ris : List RealInode} {acc : AList fun _ : List Char => List RealInode},
      (∀ ri ∈ ris, ri.Tagged u) → MergedTagged u acc → Confines u (MergedTagged u) (mergeLayers ris acc)
  | [], _, _, hacc => Confines.pure hacc
  | ri :: ris, acc, hris, hacc => by
    rw [mergeLayers]
    have hri := hris ri List.mem_cons_self
    split
    · exact Confines.pure hacc
    · refine Confines.bind (ri.cachedStat_confines) fun stat _ => ?_
      split
      · exact Confines.pure hacc
      · refine Confines.bind (ri.readdir_confines hri) fun entries hentries => ?_
        have hacc' := mergeEntries_tagged hacc hentries
        split
        · exact Confines.pure hacc'
        · exact mergeLayers_confines (fun r hr => hris r (List.mem_cons_of_mem _ hr)) hacc'

theorem scanChildrens_confines {n : OverlayInode} (hn : n.Tagged u) :
    Confines u (fun cs => ∀ c ∈ cs, c.Tagged u) n.scanChildrens := by
  unfold scanChildrens
  refine Confines.bind (stat64_confines n) fun st _ => ?_
  split
  · exact Confines.throw _
  · refine Confines.bind (mergeLayers_confines hn fun _ h => nomatch h) fun all hall => ?_
    exact Confines.mapM fun e he => newFromRealInodes_confines _ _ _ (hall e he)

/-- An upper inode put first makes the node upper. -/
theorem addUpperInode_upper {ri : RealInode} (hri : ri.Upper u) (id : Nat) (clearLowers : Bool)
    (L : Nat → Layer) :
    Triple (Confined u L) (addUpperInode id ri clearLowers)
      (fun _ fs => Confined u L fs ∧ (fs.nodes id).inUpperLayer = true) (fun _ => Confined u L) := by
  intro fs hfs
  refine ⟨(addUpperInode_confines hri.tagged id clearLowers L fs hfs).1, ?_⟩
  simp [inUpperLayer, hri.1]

/-- `create_upper_dir` leaves the directory upper. -/
theorem createUpperDir_upper (ctx : Context) (L : Nat → Layer) :
    ∀ (fuel id : Nat) (modeUmask : Option (Nat × Nat)),
      Triple (Confined u L) (createUpperDir ctx fuel id modeUmask)
        (fun _ fs => Confined u L fs ∧ (fs.nodes id).inUpperLayer = true) (fun _ => Confined u L)
  | 0, _, _ => fun _ hfs => hfs
  | fuel + 1, id, modeUmask => by
    rw [createUpperDir]
    refine Triple.bind (getNode_triple id) fun node => ?_
    refine Triple.bind_of_error (Triple.of_readOnly (stat64_readOnly node)) (fun _ _ h => h.1)
      fun st => ?_
    dsimp only
    split
    · exact Triple.throw_bind fun _ h => h.1
    · split
      · -- already upper: the state is the one the node was read from
        next hup => exact fun _ h => ⟨h.1, h.2 ▸ hup⟩
      · refine Triple.conseq (fun _ h => h.1) ?_ (fun _ _ h => h) (fun _ _ h => h)
        cases node.parent with
        | none => exact fun _ hfs => hfs
        | some pnode =>
          refine Confines.bind_triple (getNode_confines pnode) fun _ _ => ?_
          -- the parent is made upper first if it is not, then the directory is made in it
          split <;> try refine Triple.bind ((createUpperDir_upper ctx L fuel pnode none).conseq
            (fun _ h => h) (fun _ _ h => h.1) (fun _ _ h => h)) fun _ => ?_
          all_goals
            refine Confines.bind_triple (getNode_confines pnode) fun pn hpn => ?_
            refine Confines.bind_triple (handleUpperInodeLocked_confines hpn fun o ho => ?_)
              fun child hchild => addUpperInode_upper hchild id false L
            rcases o with _ | parentRi
            · exact Confines.throw _
            · have hp := (ho parentRi rfl).tagged
              dsimp only
              split <;> exact parentRi.mkdir_confines hp _ _ _ _

theorem createUpperDir_confines (ctx : Context) (fuel id : Nat) (modeUmask : Option (Nat × Nat)) :
    Confines u (fun _ => True) (createUpperDir ctx fuel id modeUmask) :=
  fun L => (createUpperDir_upper ctx L fuel id modeUmask).conseq (fun _ h => h)
    (fun _ _ h => ⟨h.1, trivial⟩) (fun _ _ h => h)

end OverlayInode

end FuseBackend.Overlay
