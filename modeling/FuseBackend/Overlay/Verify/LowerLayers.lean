import FuseBackend.Overlay.Verify.Confined

/-!
# The lower layers are never written

An overlay writes only its upper layer: whatever requests it serves, from the state `new` builds
over some layers, every layer other than the upper one holds what it held at the start
(`lower_layers_unchanged`). With no upper layer every layer is read-only.

The requests of `sync_io.rs` that the model has are listed by `Request`, and `Served` are the states
an overlay reaches by serving them, each of which may fail. That each request `Confines` the
state (`request_confines`) is assembled here from one lemma per operation of `OverlayFs`, over
those of `Confined` for the operations they call. The requests that write a node in place
(`setattr`, `setxattr`, `removexattr`) write the layer of the node's first inode without checking
its flag; that this is the upper layer rests on the node being upper after `copy_node_up`
(`copyNodeUp_upper`).
-/

namespace FuseBackend.Overlay

open Api ExceptState

variable {α : Type} {u : Option Nat}

theorem Confined.of_frame {L : Nat → Layer} {fs fs' : OverlayFs} (hfs : Confined u L fs)
    (hu : fs'.upperLayer = fs.upperLayer) (hn : fs'.nodes = fs.nodes) (hl : fs'.layers = fs.layers) :
    Confined u L fs' where
  upper := hu.trans hfs.upper
  tagged := hn ▸ hfs.tagged
  lower := hl ▸ hfs.lower

/-- A computation that leaves the upper layer, the nodes and the layers as they are, such as a
change of the inode table. -/
theorem Confines.of_frame {R : α → Prop} {m : OvM α}
    (hm : ∀ fs, (run m fs).2.upperLayer = fs.upperLayer ∧ (run m fs).2.nodes = fs.nodes ∧
      (run m fs).2.layers = fs.layers)
    (hR : ∀ a, R a) : Confines u R m := by
  intro L fs hfs
  obtain ⟨hu, hn, hl⟩ := hm fs
  have hfs' := hfs.of_frame hu hn hl
  rcases hrun : run m fs with ⟨e | a, fs'⟩
  · rw [hrun] at hfs'
    exact hfs'
  · rw [hrun] at hfs'
    exact ⟨hfs', hR a⟩

namespace OverlayFs

open OverlayInode

/-! ## The node and inode tables -/

theorem fuel_confines : Confines u (fun _ => True) fuel :=
  Confines.bind Confines.get fun _ _ => Confines.pure trivial

theorem allocInode_confines (path : List Char) : Confines u (fun _ => True) (allocInode path) := by
  refine Confines.of_frame (fun fs => ?_) fun _ => trivial
  simp only [allocInode, run_bind, run_get]
  split <;> simp [run_map]

theorem insertInode_confines (inode id : Nat) : Confines u (fun _ => True) (insertInode inode id) :=
  Confines.of_frame (fun _ => ⟨rfl, rfl, rfl⟩) fun _ => trivial

theorem removeInode_confines (inode : Nat) (pathRemoved : Option (List Char)) :
    Confines u (fun _ => True) (removeInode inode pathRemoved) :=
  Confines.of_frame (fun _ => ⟨rfl, rfl, rfl⟩) fun _ => trivial

theorem getActiveInode_confines (inode : Nat) : Confines u (fun _ => True) (getActiveInode inode) :=
  Confines.of_readOnly (fun _ => rfl) fun _ => trivial

theorem getAllInode_confines (inode : Nat) : Confines u (fun _ => True) (getAllInode inode) := by
  refine Confines.of_readOnly (fun fs => ?_) fun _ => trivial
  simp only [getAllInode, run_bind, run_get]
  split <;> rfl

theorem rootNode_confines : Confines u (fun _ => True) rootNode := by
  unfold rootNode
  refine Confines.bind (getActiveInode_confines _) fun o _ => ?_
  split
  · exact Confines.pure trivial
  · exact Confines.throw _

/-! ## Loading directories -/

theorem loadChildren_confines (id : Nat) :
    ∀ {childrens : List OverlayInode}, (∀ c ∈ childrens, c.Tagged u) →
      Confines u (fun _ => True) (loadChildren id childrens)
  | [], _ => Confines.pure trivial
  | child :: childrens, h => by
    rw [loadChildren]
    refine Confines.bind (allocInode_confines _) fun ino _ => ?_
    -- the child keeps its real inodes, with a number and its parent
    refine Confines.bind (newNode_confines (h child List.mem_cons_self)) fun cid _ => ?_
    refine Confines.bind (insertChild_confines _ _ _) fun _ _ => ?_
    refine Confines.bind (insertInode_confines _ _) fun _ _ => ?_
    exact loadChildren_confines id fun c hc => h c (List.mem_cons_of_mem _ hc)

theorem loadDirectory_confines (id : Nat) : Confines u (fun _ => True) (loadDirectory id) := by
  unfold loadDirectory
  refine Confines.bind (getNode_confines id) fun node hnode => ?_
  split
  · exact Confines.pure trivial
  · refine Confines.bind (scanChildrens_confines hnode) fun childrens hcs => ?_
    refine Confines.bind (loadChildren_confines id hcs) fun _ _ => ?_
    exact modifyNode_keeps_confines (by exact fun _ => rfl) id

/-- The root node takes the upper layer's root, flagged, and the lower layers' roots. -/
theorem import_confines : Confines u (fun _ => True) import_ := by
  unfold import_
  refine Confines.bind Confines.get fun fs hup => ?_
  extract_lets jp
  -- the root node, over the upper root if any and the lower roots
  have hjp : ∀ upper : List RealInode, (∀ ri ∈ upper, ri.Tagged u) →
      Confines u (fun _ => True) (jp upper) := by
    intro upper hupper
    refine Confines.bind (Confines.mapM (Q := RealInode.Tagged u) fun layer _ => ?_)
      fun lowers hlowers => ?_
    · refine Confines.bind (liftE_confines _) fun _ _ => ?_
      exact RealInode.new_confines _ _ _ fun h => nomatch h
    · have hroot : ∀ ri ∈ upper ++ lowers, ri.Tagged u := by
        intro ri hri
        rcases List.mem_append.mp hri with hri | hri
        · exact hupper ri hri
        · exact hlowers ri hri
      refine Confines.bind (newNode_confines hroot) fun root _ => ?_
      refine Confines.bind (insertInode_confines _ _) fun _ _ => ?_
      exact loadDirectory_confines root
  split
  · next layer hlayer =>
    refine Confines.bind (liftE_confines _) fun _ _ => ?_
    refine Confines.bind (RealInode.new_confines _ _ _ fun _ => hup.symm.trans hlayer) fun ri hri => ?_
    exact Confines.bind (Confines.pure fun r hr => List.mem_singleton.mp hr ▸ hri) hjp
  · exact Confines.bind (Confines.pure fun _ h => nomatch h) hjp

/-! ## Lookups -/

theorem lookupNode_confines (parent : Nat) (name : List Char) :
    Confines u (fun _ => True) (lookupNode parent name) := by
  unfold lookupNode
  dsimp only
  split
  · exact Confines.throw_bind
  · refine Confines.bind (getActiveInode_confines _) fun o _ => ?_
    rcases o with _ | pnode
    · exact Confines.throw _
    · dsimp only
      refine Confines.bind (getNode_confines pnode) fun pn _ => ?_
      split
      · exact Confines.throw_bind
      · refine Confines.bind (stat64_confines pn) fun st _ => ?_
        split <;> try refine Confines.bind (loadDirectory_confines pnode) fun _ _ => ?_
        all_goals
          split
          · exact Confines.pure trivial
          · refine Confines.bind (getNode_confines pnode) fun _ _ => ?_
            split
            · exact Confines.pure trivial
            · exact Confines.throw _

theorem lookupNodeIgnoreEnoent_confines (parent : Nat) (name : List Char) :
    Confines u (fun _ => True) (lookupNodeIgnoreEnoent parent name) := by
  unfold lookupNodeIgnoreEnoent
  refine Confines.tryCatch ((lookupNode_confines parent name).map fun _ _ => trivial) fun _ => ?_
  split
  · exact Confines.pure trivial
  · exact Confines.throw _

theorem forgetOne_confines (inode count : Nat) : Confines u (fun _ => True) (forgetOne inode count) := by
  unfold forgetOne
  split
  · exact Confines.pure trivial
  · refine Confines.bind (getAllInode_confines inode) fun o _ => ?_
    rcases o with _ | v
    · exact Confines.pure trivial
    · dsimp only
      refine Confines.bind (getNode_confines v) fun node _ => ?_
      refine Confines.bind (modifyNode_keeps_confines (by exact fun _ => rfl) v) fun _ _ => ?_
      -- the node leaves the tables with its last lookup
      refine Confines.ite (fun _ => ?_) fun _ => Confines.pure trivial
      refine Confines.bind (removeInode_confines _ _) fun _ _ => ?_
      split
      · exact removeChild_confines _ _
      · exact Confines.pure trivial

theorem doLookup_confines (parent : Nat) (name : List Char) :
    Confines u (fun _ => True) (doLookup parent name) := by
  unfold doLookup
  refine Confines.bind (lookupNode_confines parent name) fun id _ => ?_
  refine Confines.bind (getNode_confines id) fun node _ => ?_
  dsimp only
  split
  · exact Confines.throw_bind
  · refine Confines.bind (stat64_confines node) fun st _ => ?_
    split <;> try refine Confines.bind (loadDirectory_confines id) fun _ _ => ?_
    all_goals
      refine Confines.bind (modifyNode_keeps_confines (by exact fun _ => rfl) id) fun _ _ => ?_
      exact Confines.bind Confines.get fun _ _ => Confines.pure trivial

/-! ## Reading directories -/

theorem readdirLoop_confines {σ : Type} (isReaddirplus : Bool) (size : Nat)
    (addEntry : σ → DirEntryBytes → Option Entry → Except IoError Nat × σ) :
    ∀ (index len : Nat) (entries : List (List Char × Nat)) (out : σ),
      Confines u (fun _ => True) (readdirLoop isReaddirplus size addEntry index len entries out)
  | _, _, [], _ => Confines.pure trivial
  | index, len, (name, child) :: rest, out => by
    rw [readdirLoop]
    refine Confines.bind (getNode_confines child) fun c _ => ?_
    refine Confines.bind (stat64_confines c) fun st _ => ?_
    extract_lets dirEntry jp
    have hjp : ∀ entry, Confines u (fun _ => True) (jp entry) := by
      intro entry
      dsimp only [jp]
      split
      · exact Confines.pure trivial
      · split
        · exact Confines.pure trivial
        · exact readdirLoop_confines isReaddirplus size addEntry _ _ rest _
      · split
        · exact Confines.throw _
        · exact Confines.pure trivial
    -- `readdirplus` takes a lookup of the entry's node before the entry is added
    split
    · refine Confines.bind (modifyNode_keeps_confines (by exact fun _ => rfl) child) fun _ _ => ?_
      refine Confines.bind Confines.get fun _ _ => ?_
      refine Confines.bind (getNode_confines child) fun _ _ => ?_
      exact Confines.pure_bind (hjp _)
    · exact Confines.pure_bind (hjp _)

theorem doReaddir_confines {σ : Type} (inode size offset : Nat) (isReaddirplus : Bool)
    (addEntry : σ → DirEntryBytes → Option Entry → Except IoError Nat × σ) (out : σ) :
    Confines u (fun _ => True) (doReaddir inode size offset isReaddirplus addEntry out) := by
  unfold doReaddir
  split
  · exact Confines.pure trivial
  · refine Confines.bind (lookupNode_confines inode _) fun ovlInode _ => ?_
    refine Confines.bind (getNode_confines ovlInode) fun node _ => ?_
    refine Confines.bind (stat64_confines node) fun st _ => ?_
    extract_lets jp rest
    have hjp : ∀ parentNode, Confines u (fun _ => True) (jp parentNode) := by
      intro parentNode
      refine Confines.bind Confines.get fun _ _ => ?_
      dsimp only
      split
      · exact Confines.pure trivial
      · exact readdirLoop_confines _ _ _ _ _ _ _
    split
    · exact Confines.throw_bind
    · -- `..` is the parent, or else the root
      dsimp only [rest]
      split
      · exact Confines.pure_bind (hjp _)
      · exact Confines.bind rootNode_confines fun p _ => hjp p

/-! ## Copy-up

Each copy-up leaves the node upper: `create_upper_dir` a directory, `copy_symlink_up` and
`copy_regfile_up` the other nodes, by putting the inode they make in the upper parent first. -/

theorem copySymlinkUp_upper (ctx : Context) (id : Nat) (L : Nat → Layer) :
    Triple (Confined u L) (copySymlinkUp ctx id)
      (fun r fs => Confined u L fs ∧ r = id ∧ (fs.nodes id).inUpperLayer = true)
      (fun _ => Confined u L) := by
  unfold copySymlinkUp
  refine Confined.getNode_bind fun node hnode => ?_
  split
  · next hup => exact fun _ h => ⟨h.1, rfl, h.2 ▸ hup⟩
  · refine Triple.conseq (fun _ h => h.1) ?_ (fun _ _ h => h) (fun _ _ h => h)
    split
    · next parentNode _ =>
      refine Confines.bind_triple (firstLayerInode_confines hnode) fun x _ => ?_
      obtain ⟨selfLayer, _, selfInode⟩ := x
      refine Confines.bind_triple (getNode_confines parentNode) fun _ _ => ?_
      extract_lets jp
      have hjp : ∀ r, Triple (Confined u L) (jp r)
          (fun r fs => Confined u L fs ∧ r = id ∧ (fs.nodes id).inUpperLayer = true)
          (fun _ => Confined u L) := by
        intro r
        refine Confines.bind_triple (getLayer_confines _) fun _ _ => ?_
        refine Confines.bind_triple (liftE_confines _) fun path _ => ?_
        split
        · refine Confines.bind_triple (getNode_confines parentNode) fun pn hpn => ?_
          refine Confines.bind_triple
            (handleUpperInodeLocked_confines (R := RealInode.Upper u) hpn fun o ho => ?_) fun ri hri => ?_
          · rcases o with _ | parentRi
            · exact Confines.throw _
            · exact parentRi.symlink_confines (ho parentRi rfl).tagged _ _ _
          · exact Triple.bind (addUpperInode_upper hri id true L) fun _ _ h => ⟨h.1, rfl, h.2⟩
        · exact fun _ hfs => hfs
      -- the parent is made upper first if it is not
      split
      · refine Confines.bind_triple fuel_confines fun f _ => ?_
        exact Confines.bind_triple (createUpperDir_confines ctx f parentNode none) fun r _ => hjp r
      · exact hjp ()
    · exact fun _ hfs => hfs

theorem copyRegfileUp_upper (ctx : Context) (id : Nat) (L : Nat → Layer) :
    Triple (Confined u L) (copyRegfileUp ctx id)
      (fun r fs => Confined u L fs ∧ r = id ∧ (fs.nodes id).inUpperLayer = true)
      (fun _ => Confined u L) := by
  unfold copyRegfileUp
  refine Confined.getNode_bind fun node hnode => ?_
  split
  · next hup => exact fun _ h => ⟨h.1, rfl, h.2 ▸ hup⟩
  · refine Triple.conseq (fun _ h => h.1) ?_ (fun _ _ h => h) (fun _ _ h => h)
    split
    · next parentNode _ =>
      refine Confines.bind_triple (stat64_confines node) fun st _ => ?_
      refine Confines.bind_triple (firstLayerInode_confines hnode) fun x _ => ?_
      obtain ⟨lowerLayer, _, lowerInode⟩ := x
      refine Confines.bind_triple (getNode_confines parentNode) fun _ _ => ?_
      extract_lets jp
      have hjp : ∀ r, Triple (Confined u L) (jp r)
          (fun r fs => Confined u L fs ∧ r = id ∧ (fs.nodes id).inUpperLayer = true)
          (fun _ => Confined u L) := by
        intro r
        refine Confines.bind_triple (getNode_confines parentNode) fun pn hpn => ?_
        refine Confines.bind_triple
          (handleUpperInodeLocked_confines (R := RealInode.Upper u) hpn fun o ho => ?_) fun ri hri => ?_
        · rcases o with _ | parentRi
          · exact Confines.throw _
          · exact parentRi.create_confines (ho parentRi rfl).tagged _ _ _ _
        · -- the bytes are written to the new upper file
          refine Confines.bind_triple (getLayer_confines _) fun _ _ => ?_
          refine Confines.bind_triple (liftE_confines _) fun _ _ => ?_
          refine Confines.bind_triple (updateLayer_unit_confines hri.2 _) fun _ _ => ?_
          exact Triple.bind (addUpperInode_upper hri id true L) fun _ _ h => ⟨h.1, rfl, h.2⟩
      split
      · refine Confines.bind_triple fuel_confines fun f _ => ?_
        exact Confines.bind_triple (createUpperDir_confines ctx f parentNode none) fun r _ => hjp r
      · exact hjp ()
    · exact fun _ hfs => hfs

/-- `copy_node_up` returns the node it was given, and leaves it upper. -/
theorem copyNodeUp_upper (ctx : Context) (id : Nat) (L : Nat → Layer) :
    Triple (Confined u L) (copyNodeUp ctx id)
      (fun r fs => Confined u L fs ∧ r = id ∧ (fs.nodes id).inUpperLayer = true)
      (fun _ => Confined u L) := by
  unfold copyNodeUp
  refine Confined.getNode_bind fun node _ => ?_
  split
  · next hup => exact fun _ h => ⟨h.1, rfl, h.2 ▸ hup⟩
  · refine Triple.conseq (fun _ h => h.1) ?_ (fun _ _ h => h) (fun _ _ h => h)
    refine Confines.bind_triple (stat64_confines node) fun st _ => ?_
    split
    · refine Confines.bind_triple fuel_confines fun f _ => ?_
      exact Triple.bind (createUpperDir_upper ctx L f id none) fun _ _ h => ⟨h.1, rfl, h.2⟩
    · split
      · exact copySymlinkUp_upper ctx id L
      · exact copyRegfileUp_upper ctx id L

theorem copyNodeUp_confines (ctx : Context) (id : Nat) :
    Confines u (fun _ => True) (copyNodeUp ctx id) :=
  fun L => (copyNodeUp_upper ctx id L).conseq (fun _ h => h) (fun _ _ h => ⟨h.1, trivial⟩)
    (fun _ _ h => h)

/-! ## Making and removing directories -/

theorem doMkdir_confines (ctx : Context) (parentNode : Nat) (name : List Char) (mode umask : Nat) :
    Confines u (fun _ => True) (doMkdir ctx parentNode name mode umask) := by
  unfold doMkdir
  refine Confines.bind Confines.get fun _ _ => ?_
  refine Confines.guard fun _ => ?_
  refine Confines.bind (getNode_confines parentNode) fun pn _ => ?_
  refine Confines.guard fun _ => ?_
  refine Confines.bind (lookupNodeIgnoreEnoent_confines _ _) fun o _ => ?_
  extract_lets jp
  -- the directory is made in the parent's upper inode, after its whiteout is dropped
  have hjp : ∀ x, Confines u (fun _ => True) (jp x) := by
    rintro ⟨deleteWhiteout, setOpaque⟩
    refine Confines.bind (copyNodeUp_confines ctx parentNode) fun pnode _ => ?_
    refine Confines.bind (getNode_confines pnode) fun _ _ => ?_
    refine Confines.bind (getNode_confines pnode) fun pn hpn => ?_
    refine Confines.bind (handleUpperInodeLocked_confines (R := OverlayInode.Tagged u) hpn
      fun o ho => ?_) fun newNode' hnew => ?_
    · rcases o with _ | parentRi
      · exact Confines.throw _
      · have hp := ho parentRi rfl
        dsimp -zeta only
        extract_lets mk
        have hmk : ∀ r, Confines u (OverlayInode.Tagged u) (mk r) := by
          intro r
          refine Confines.bind (allocInode_confines _) fun ino _ => ?_
          refine Confines.bind (parentRi.mkdir_confines hp.tagged _ _ _ _) fun childDir hchild => ?_
          have hnode := newFromRealInode_tagged hchild.tagged name ino
          split
          · exact Confines.bind (updateLayer_unit_confines hp.2 _) fun _ _ => Confines.pure (hnode _)
          · exact Confines.pure (hnode _)
        split
        · refine Confines.bind (liftE_confines _) fun _ _ => ?_
          refine Confines.bind (Confines.tryCatch (updateLayer_unit_confines hp.2 _)
            fun _ => Confines.pure trivial) fun r _ => hmk r
        · exact hmk ()
    · refine Confines.bind (newNode_confines hnew) fun _ _ => ?_
      refine Confines.bind (insertInode_confines _ _) fun _ _ => ?_
      exact insertChild_confines _ _ _
  split
  · refine Confines.bind (getNode_confines _) fun n _ => ?_
    refine Confines.guard fun _ => ?_
    exact Confines.pure_bind (hjp (n.inUpperLayer, !n.upperLayerOnly))
  · exact Confines.pure_bind (hjp (false, false))

/-- `empty_node_directory` removes entries from the directory's first inode only when that inode
is upper. -/
theorem emptyNodeDirectory_confines (ctx : Context) :
    ∀ (fuel id : Nat), Confines u (fun _ => True) (emptyNodeDirectory ctx fuel id)
  | 0, _ => Confines.throw _
  | fuel + 1, id => by
    rw [emptyNodeDirectory]
    refine Confines.bind (getNode_confines id) fun node hnode => ?_
    refine Confines.bind (stat64_confines node) fun st _ => ?_
    refine Confines.guard fun _ => ?_
    refine Confines.bind (firstLayerInode_confines hnode) fun x hx => ?_
    obtain ⟨layer, inUpper, inode⟩ := x
    dsimp -zeta only
    split
    · exact Confines.pure trivial
    · next hup =>
      have hlayer : u = some layer := hx (by simpa using hup)
      refine Confines.bind (Confines.forIn (fun child _ => ?_) _ _) fun _ _ => Confines.pure trivial
      refine Confines.bind (getNode_confines child) fun c _ => ?_
      split
      · extract_lets rm
        have hrm : ∀ r, Confines u (fun _ => True) (rm r) := by
          intro r
          refine Confines.bind (removeInode_confines _ _) fun _ _ => ?_
          exact Confines.bind (removeChild_confines _ _) fun _ _ => Confines.pure trivial
        split
        · refine Confines.bind (liftE_confines _) fun _ _ => ?_
          exact Confines.bind (updateLayer_unit_confines hlayer _) fun r _ => hrm r
        · refine Confines.bind (stat64_confines c) fun _ _ => ?_
          refine Confines.bind (liftE_confines _) fun _ _ => ?_
          split
          · -- a directory with entries is emptied first
            refine Confines.bind (countEntriesAndWhiteout_confines c) fun y _ => ?_
            obtain ⟨count, whiteouts⟩ := y
            dsimp -zeta only
            extract_lets rmdir
            have hrmdir : ∀ r, Confines u (fun _ => True) (rmdir r) :=
              fun _ => Confines.bind (updateLayer_unit_confines hlayer _) fun r _ => hrm r
            split
            · exact Confines.bind (emptyNodeDirectory_confines ctx fuel child) fun r _ => hrmdir r
            · exact hrmdir ()
          · exact Confines.bind (updateLayer_unit_confines hlayer _) fun r _ => hrm r
      · exact Confines.pure trivial

theorem doRm_confines (ctx : Context) (parent : Nat) (name : List UInt8) (dir : Bool) :
    Confines u (fun _ => True) (doRm ctx parent name dir) := by
  unfold doRm
  refine Confines.bind Confines.get fun _ _ => ?_
  refine Confines.guard fun _ => ?_
  refine Confines.bind (lookupNode_confines _ _) fun pnode _ => ?_
  refine Confines.bind (getNode_confines pnode) fun _ _ => ?_
  refine Confines.guard fun _ => ?_
  refine Confines.bind (lookupNode_confines _ _) fun node _ => ?_
  refine Confines.bind (getNode_confines node) fun _ _ => ?_
  refine Confines.guard fun _ => ?_
  extract_lets rm
  -- the entry goes from the parent's upper inode, and a whiteout hides the lower ones
  have hrm : ∀ r, Confines u (fun _ => True) (rm r) := by
    intro r
    refine Confines.bind (copyNodeUp_confines ctx pnode) fun pnode' _ => ?_
    refine Confines.bind (getNode_confines node) fun n _ => ?_
    extract_lets finish
    have hfinish : ∀ x, Confines u (fun _ => True) (finish x) := by
      rintro ⟨needWhiteout, pathRemoved⟩
      refine Confines.bind (modifyNode_keeps_confines (by exact fun _ => rfl) node) fun _ _ => ?_
      refine Confines.bind (removeInode_confines _ _) fun _ _ => ?_
      refine Confines.bind (removeChild_confines _ _) fun _ _ => ?_
      split
      · refine Confines.bind (getNode_confines pnode') fun pn hpn => ?_
        refine handleUpperInodeLocked_confines hpn fun o ho => ?_
        rcases o with _ | parentRi
        · exact Confines.throw _
        · have hp := ho parentRi rfl
          dsimp -zeta only
          refine Confines.bind (parentRi.createWhiteout_confines hp.tagged _ _) fun childRi hchild => ?_
          refine Confines.bind (getNode_confines pnode') fun _ _ => ?_
          refine Confines.bind (allocInode_confines _) fun ino _ => ?_
          refine Confines.bind (newNode_confines (newFromRealInode_tagged hchild.tagged _ ino _))
            fun _ _ => ?_
          refine Confines.bind (insertInode_confines _ _) fun _ _ => ?_
          exact insertChild_confines _ _ _
      · exact Confines.pure trivial
    split
    · refine Confines.bind (getNode_confines pnode') fun pn hpn => ?_
      refine Confines.bind (handleUpperInodeLocked_confines (R := fun _ => True) hpn fun o ho => ?_)
        fun parentOpaque _ => Confines.pure_bind (hfinish (!n.upperLayerOnly && !parentOpaque, some n.path))
      rcases o with _ | parentRi
      · exact Confines.throw _
      · have hp := ho parentRi rfl
        dsimp only
        split <;> exact Confines.bind (updateLayer_unit_confines hp.2 _) fun _ _ => Confines.pure trivial
    · exact Confines.pure_bind (hfinish (!n.upperLayerOnly, none))
  split
  · refine Confines.bind (loadDirectory_confines node) fun _ _ => ?_
    refine Confines.bind (getNode_confines node) fun _ _ => ?_
    refine Confines.bind (countEntriesAndWhiteout_confines _) fun x _ => ?_
    obtain ⟨count, whiteouts⟩ := x
    dsimp -zeta only
    refine Confines.guard fun _ => ?_
    refine Confines.bind (getNode_confines node) fun _ _ => ?_
    split
    · refine Confines.bind fuel_confines fun f _ => ?_
      exact Confines.bind (emptyNodeDirectory_confines ctx f node) fun r _ => hrm r
    · exact hrm ()
  · exact hrm ()

/-! ## Requests of `sync_io.rs` -/

theorem batchForget_confines :
    ∀ requests : List (Nat × Nat), Confines u (fun _ => True) (batchForget requests)
  | [] => Confines.pure trivial
  | (inode, count) :: requests =>
    Confines.bind (forgetOne_confines inode count) fun _ _ => batchForget_confines requests

theorem getattr_confines (inode : Nat) : Confines u (fun _ => True) (getattr inode) := by
  unfold getattr
  refine Confines.bind (lookupNode_confines _ _) fun node _ => ?_
  refine Confines.bind (getNode_confines node) fun n hn => ?_
  refine Confines.bind (firstLayerInode_confines hn) fun x _ => ?_
  obtain ⟨layer, _, ino⟩ := x
  refine Confines.bind (getLayer_confines layer) fun _ _ => ?_
  refine Confines.bind (liftE_confines _) fun _ _ => ?_
  exact Confines.bind Confines.get fun _ _ => Confines.pure trivial

theorem mkdir_confines (ctx : Context) (parent : Nat) (name : List UInt8) (mode umask : Nat) :
    Confines u (fun _ => True) (mkdir ctx parent name mode umask) := by
  unfold mkdir
  refine Confines.bind (lookupNode_confines _ _) fun pnode _ => ?_
  refine Confines.bind (getNode_confines pnode) fun _ _ => ?_
  refine Confines.guard fun _ => ?_
  refine Confines.bind (doMkdir_confines ctx pnode _ mode umask) fun _ _ => ?_
  exact doLookup_confines parent _

theorem readdir_confines {σ : Type} (inode size offset : Nat)
    (addEntry : σ → DirEntryBytes → Except IoError Nat × σ) (out : σ) :
    Confines u (fun _ => True) (readdir inode size offset addEntry out) := by
  unfold readdir
  refine Confines.bind Confines.get fun _ _ => ?_
  split
  · exact Confines.pure trivial
  · exact doReaddir_confines _ _ _ _ _ _

theorem readdirplus_confines {σ : Type} (inode size offset : Nat)
    (addEntry : σ → DirEntryBytes → Entry → Except IoError Nat × σ) (out : σ) :
    Confines u (fun _ => True) (readdirplus inode size offset addEntry out) := by
  unfold readdirplus
  refine Confines.bind Confines.get fun _ _ => ?_
  split
  · exact Confines.pure trivial
  · exact doReaddir_confines _ _ _ _ _ _

/-! ## Making nodes, and changing them in place -/

theorem dropWhiteout_confines {ri : RealInode} (hri : ri.Upper u) (name : List Char) :
    Confines u (fun _ => True) (dropWhiteout ri name) := by
  unfold dropWhiteout
  refine Confines.bind (liftE_confines _) fun _ _ => ?_
  exact Confines.tryCatch (updateLayer_unit_confines hri.2 _) fun _ => Confines.pure trivial

/-- The body of `do_mknod` and `do_symlink` keeps the state confined when the call that makes the
child in an upper directory does. -/
theorem makeChild_confines {make : RealInode → OvM RealInode}
    (hmake : ∀ ri, ri.Upper u → Confines u (RealInode.Upper u) (make ri))
    (ctx : Context) (parentNode : Nat) (name : List Char) :
    Confines u (fun _ => True) (makeChild ctx parentNode name make) := by
  unfold makeChild
  refine Confines.bind Confines.get fun _ _ => ?_
  refine Confines.guard fun _ => ?_
  refine Confines.bind (getNode_confines parentNode) fun pn _ => ?_
  refine Confines.guard fun _ => ?_
  refine Confines.bind (lookupNodeIgnoreEnoent_confines _ _) fun o _ => ?_
  rcases o with _ | n
  · -- a fresh name gets a fresh node
    dsimp -zeta only
    refine Confines.bind (copyNodeUp_confines ctx parentNode) fun pnode _ => ?_
    refine Confines.bind (getNode_confines pnode) fun _ _ => ?_
    refine Confines.bind (getNode_confines pnode) fun pn hpn => ?_
    refine Confines.bind (handleUpperInodeLocked_confines (R := OverlayInode.Tagged u) hpn
      fun o ho => ?_) fun newNode' hnew => ?_
    · rcases o with _ | parentRi
      · exact Confines.throw _
      · dsimp -zeta only
        refine Confines.bind (allocInode_confines _) fun ino _ => ?_
        refine Confines.bind (hmake parentRi (ho parentRi rfl)) fun childRi hchild => ?_
        exact Confines.pure (newFromRealInode_tagged hchild.tagged _ ino _)
    · refine Confines.bind (newNode_confines hnew) fun _ _ => ?_
      refine Confines.bind (insertInode_confines _ _) fun _ _ => ?_
      exact insertChild_confines _ _ _
  · -- the whiteout of the name takes the new upper inode
    dsimp -zeta only
    refine Confines.bind (getNode_confines n) fun _ _ => ?_
    refine Confines.guard fun _ => ?_
    refine Confines.bind (copyNodeUp_confines ctx parentNode) fun pnode _ => ?_
    refine Confines.bind (getNode_confines pnode) fun pn hpn => ?_
    refine handleUpperInodeLocked_confines hpn fun o ho => ?_
    rcases o with _ | parentRi
    · exact Confines.throw _
    · have hp := ho parentRi rfl
      dsimp -zeta only
      refine Confines.bind (getNode_confines n) fun _ _ => ?_
      refine Confines.optional (fun _ => dropWhiteout_confines hp name) ?_
      refine Confines.bind (hmake parentRi hp) fun childRi hchild => ?_
      exact addUpperInode_confines hchild.tagged n true

theorem doCreate_confines (ctx : Context) (parentNode : Nat) (name : List Char) (mode umask : Nat) :
    Confines u (fun _ => True) (doCreate ctx parentNode name mode umask) := by
  unfold doCreate
  refine Confines.bind Confines.get fun _ _ => ?_
  refine Confines.guard fun _ => ?_
  refine Confines.bind (getNode_confines parentNode) fun pn _ => ?_
  refine Confines.guard fun _ => ?_
  refine Confines.bind (lookupNodeIgnoreEnoent_confines _ _) fun o _ => ?_
  rcases o with _ | n
  · dsimp -zeta only
    refine Confines.bind (copyNodeUp_confines ctx parentNode) fun pnode _ => ?_
    refine Confines.bind (getNode_confines pnode) fun _ _ => ?_
    refine Confines.bind (getNode_confines pnode) fun pn hpn => ?_
    refine Confines.bind (handleUpperInodeLocked_confines (R := OverlayInode.Tagged u) hpn
      fun o ho => ?_) fun newNode' hnew => ?_
    · rcases o with _ | parentRi
      · exact Confines.throw _
      · dsimp -zeta only
        refine Confines.bind (parentRi.create_confines (ho parentRi rfl).tagged _ _ _ _)
          fun childRi hchild => ?_
        refine Confines.bind (allocInode_confines _) fun ino _ => ?_
        exact Confines.pure (newFromRealInode_tagged hchild.tagged _ ino _)
    · refine Confines.bind (newNode_confines hnew) fun _ _ => ?_
      refine Confines.bind (insertInode_confines _ _) fun _ _ => ?_
      exact insertChild_confines _ _ _
  · dsimp -zeta only
    refine Confines.bind (getNode_confines n) fun _ _ => ?_
    refine Confines.guard fun _ => ?_
    refine Confines.bind (copyNodeUp_confines ctx parentNode) fun pnode _ => ?_
    refine Confines.bind (getNode_confines pnode) fun pn hpn => ?_
    refine handleUpperInodeLocked_confines hpn fun o ho => ?_
    rcases o with _ | parentRi
    · exact Confines.throw _
    · have hp := ho parentRi rfl
      dsimp -zeta only
      refine Confines.bind (getNode_confines n) fun _ _ => ?_
      refine Confines.optional (fun _ => dropWhiteout_confines hp name) ?_
      refine Confines.bind (parentRi.create_confines hp.tagged _ _ _ _) fun childRi hchild => ?_
      exact addUpperInode_confines hchild.tagged n true

theorem doLink_confines (ctx : Context) (srcNode newParent : Nat) (name : List Char) :
    Confines u (fun _ => True) (doLink ctx srcNode newParent name) := by
  unfold doLink
  refine Confines.bind Confines.get fun _ _ => ?_
  refine Confines.guard fun _ => ?_
  refine Confines.bind (getNode_confines srcNode) fun _ _ => ?_
  refine Confines.bind (getNode_confines newParent) fun _ _ => ?_
  refine Confines.guard fun _ => ?_
  refine Confines.bind (getNode_confines srcNode) fun src _ => ?_
  refine Confines.bind (stat64_confines src) fun _ _ => ?_
  refine Confines.guard fun _ => ?_
  refine Confines.bind (copyNodeUp_confines ctx srcNode) fun srcNode' _ => ?_
  refine Confines.bind (copyNodeUp_confines ctx newParent) fun newParent' _ => ?_
  refine Confines.bind (getNode_confines srcNode') fun _ hsrc => ?_
  refine Confines.bind (firstLayerInode_confines hsrc) fun x _ => ?_
  obtain ⟨_, _, srcIno⟩ := x
  dsimp -zeta only
  refine Confines.bind (getNode_confines newParent') fun _ _ => ?_
  refine Confines.bind (lookupNodeIgnoreEnoent_confines _ _) fun o _ => ?_
  rcases o with _ | n
  · dsimp -zeta only
    refine Confines.bind (getNode_confines newParent') fun pn hpn => ?_
    refine Confines.bind (handleUpperInodeLocked_confines (R := OverlayInode.Tagged u) hpn
      fun o ho => ?_) fun newNode' hnew => ?_
    · rcases o with _ | parentRi
      · exact Confines.throw _
      · dsimp -zeta only
        refine Confines.bind (getNode_confines newParent') fun _ _ => ?_
        refine Confines.bind (allocInode_confines _) fun ino _ => ?_
        refine Confines.bind (parentRi.link_confines (ho parentRi rfl).tagged _ _)
          fun childRi hchild => ?_
        exact Confines.pure (newFromRealInode_tagged hchild.tagged _ ino _)
    · refine Confines.bind (newNode_confines hnew) fun _ _ => ?_
      refine Confines.bind (insertInode_confines _ _) fun _ _ => ?_
      exact insertChild_confines _ _ _
  · dsimp -zeta only
    refine Confines.bind (getNode_confines n) fun _ _ => ?_
    refine Confines.guard fun _ => ?_
    refine Confines.bind (getNode_confines newParent') fun pn hpn => ?_
    refine handleUpperInodeLocked_confines hpn fun o ho => ?_
    rcases o with _ | parentRi
    · exact Confines.throw _
    · have hp := ho parentRi rfl
      dsimp -zeta only
      refine Confines.bind (getNode_confines n) fun _ _ => ?_
      refine Confines.optional (fun _ => dropWhiteout_confines hp name) ?_
      refine Confines.bind (parentRi.link_confines hp.tagged _ _) fun childRi hchild => ?_
      exact addUpperInode_confines hchild.tagged n true

theorem mknod_confines (ctx : Context) (parent : Nat) (name : List UInt8) (mode rdev umask : Nat) :
    Confines u (fun _ => True) (mknod ctx parent name mode rdev umask) := by
  unfold mknod
  refine Confines.bind (lookupNode_confines _ _) fun pnode _ => ?_
  refine Confines.bind (getNode_confines pnode) fun _ _ => ?_
  refine Confines.guard fun _ => ?_
  refine Confines.bind (makeChild_confines (fun ri hri => ri.mknod_confines hri.tagged _ _ _ _ _)
    ctx pnode _) fun _ _ => ?_
  exact doLookup_confines parent _

theorem create_confines (ctx : Context) (parent : Nat) (name : List UInt8) (mode umask : Nat) :
    Confines u (fun _ => True) (create ctx parent name mode umask) := by
  unfold create
  refine Confines.bind (lookupNode_confines _ _) fun pnode _ => ?_
  refine Confines.bind (getNode_confines pnode) fun _ _ => ?_
  refine Confines.guard fun _ => ?_
  refine Confines.bind (doCreate_confines ctx pnode _ mode umask) fun _ _ => ?_
  exact Confines.bind (doLookup_confines parent _) fun _ _ => Confines.pure trivial

theorem link_confines (ctx : Context) (inode newparent : Nat) (name : List UInt8) :
    Confines u (fun _ => True) (link ctx inode newparent name) := by
  unfold link
  refine Confines.bind (lookupNode_confines _ _) fun node _ => ?_
  refine Confines.bind (getNode_confines node) fun _ _ => ?_
  refine Confines.guard fun _ => ?_
  refine Confines.bind (lookupNode_confines _ _) fun newpnode _ => ?_
  refine Confines.bind (getNode_confines newpnode) fun _ _ => ?_
  refine Confines.guard fun _ => ?_
  refine Confines.bind (doLink_confines ctx node newpnode _) fun _ _ => ?_
  exact doLookup_confines newparent _

theorem symlink_confines (ctx : Context) (linkname : List UInt8) (parent : Nat) (name : List UInt8) :
    Confines u (fun _ => True) (symlink ctx linkname parent name) := by
  unfold symlink
  refine Confines.bind (lookupNode_confines _ _) fun pnode _ => ?_
  refine Confines.bind (makeChild_confines (fun ri hri => ri.symlink_confines hri.tagged _ _ _)
    ctx pnode _) fun _ _ => ?_
  exact doLookup_confines parent _

theorem readlink_confines (inode : Nat) : Confines u (fun _ => True) (readlink inode) := by
  unfold readlink
  refine Confines.bind (lookupNode_confines _ _) fun node _ => ?_
  refine Confines.bind (getNode_confines node) fun _ _ => ?_
  refine Confines.guard fun _ => ?_
  refine Confines.bind (getNode_confines node) fun _ hn => ?_
  refine Confines.bind (firstLayerInode_confines hn) fun x _ => ?_
  obtain ⟨layer, _, ino⟩ := x
  exact Confines.bind (getLayer_confines layer) fun _ _ => liftE_confines _

theorem findRealInode_confines (inode : Nat) : Confines u (fun _ => True) (findRealInode inode) := by
  unfold findRealInode
  refine Confines.bind (getActiveInode_confines inode) fun o _ => ?_
  rcases o with _ | n
  · exact Confines.throw _
  · refine Confines.bind (getNode_confines n) fun _ hn => ?_
    exact Confines.bind (firstLayerInode_confines hn) fun _ _ => Confines.pure trivial

theorem getxattr_confines (inode : Nat) (name : List UInt8) (size : Nat) :
    Confines u (fun _ => True) (getxattr inode name size) := by
  unfold getxattr
  refine Confines.bind (lookupNode_confines _ _) fun node _ => ?_
  refine Confines.bind (getNode_confines node) fun _ _ => ?_
  refine Confines.guard fun _ => ?_
  refine Confines.bind (findRealInode_confines inode) fun x _ => ?_
  obtain ⟨layer, ino⟩ := x
  exact Confines.bind (getLayer_confines layer) fun _ _ => liftE_confines _

/-! The in-place writes take the layer of the node's first inode unchecked: it is the upper layer
because the node is upper when it is read, having been copied up if it was not. -/

/-- The first layer's inode of a node that is upper in the state is on the upper layer. -/
theorem firstLayerInode_of_upper {β : Type} {L : Nat → Layer} {id : Nat}
    {f : Nat × Bool × Nat → OvM β} {Q : β → OverlayFs → Prop}
    (hf : ∀ x : Nat × Bool × Nat, u = some x.1 → Triple (Confined u L) (f x) Q (fun _ => Confined u L)) :
    Triple (fun fs => Confined u L fs ∧ (fs.nodes id).inUpperLayer = true)
      (getNode id >>= fun n => n.firstLayerInode >>= f) Q (fun _ => Confined u L) := by
  intro fs ⟨hfs, hup⟩
  rw [run_bind, run_getNode]
  exact Confines.bind_triple (firstLayerInode_upper (hfs.tagged id) hup) hf fs hfs

/-- A node read from a state it is upper in. -/
theorem upper_of_getNode {L : Nat → Layer} {id : Nat} {n : OverlayInode} {fs : OverlayFs}
    (h : Confined u L fs ∧ fs.nodes id = n) (hup : ¬(!n.inUpperLayer) = true) :
    Confined u L fs ∧ (fs.nodes id).inUpperLayer = true :=
  ⟨h.1, by rw [h.2]; simpa using hup⟩

theorem setattr_confines (ctx : Context) (inode : Nat) (attr : Stat64) (valid : Nat) :
    Confines u (fun _ => True) (setattr ctx inode attr valid) := by
  unfold setattr
  refine Confines.bind Confines.get fun _ _ => ?_
  refine Confines.guard fun _ => ?_
  refine Confines.bind (lookupNode_confines _ _) fun node _ => ?_
  intro L
  refine Confined.getNode_bind fun n _ => ?_
  extract_lets write
  have hwrite : ∀ id, Triple (fun fs => Confined u L fs ∧ (fs.nodes id).inUpperLayer = true)
      (write id) (fun _ fs => Confined u L fs ∧ True) (fun _ => Confined u L) := by
    intro id
    refine firstLayerInode_of_upper fun x hx => ?_
    obtain ⟨layer, _, ri⟩ := x
    refine Confines.bind_triple (updateLayer_confines hx _) fun _ _ => ?_
    exact Confines.bind Confines.get (fun _ _ => Confines.pure trivial) L
  split
  · refine Triple.bind ((copyNodeUp_upper ctx node L).conseq (fun _ h => h.1) (fun _ _ h => ?_)
      (fun _ _ h => h)) hwrite
    exact ⟨h.1, h.2.1 ▸ h.2.2⟩
  · next hup =>
    rw [LawfulMonad.pure_bind]
    exact (hwrite node).conseq (fun _ h => upper_of_getNode h hup) (fun _ _ h => h) (fun _ _ h => h)

theorem writeXattr_confines (ctx : Context) (inode : Nat) (f : Nat → Layer → Except IoError Layer) :
    Confines u (fun _ => True) (writeXattr ctx inode f) := by
  unfold writeXattr
  refine Confines.bind (lookupNode_confines _ _) fun node _ => ?_
  refine Confines.bind (getNode_confines node) fun _ _ => ?_
  refine Confines.guard fun _ => ?_
  intro L
  refine Confined.getNode_bind fun n _ => ?_
  extract_lets write
  have hwrite : Triple (fun fs => Confined u L fs ∧ (fs.nodes node).inUpperLayer = true)
      (write ()) (fun _ fs => Confined u L fs ∧ True) (fun _ => Confined u L) := by
    refine firstLayerInode_of_upper fun x hx => ?_
    obtain ⟨layer, _, ri⟩ := x
    exact updateLayer_unit_confines hx _ L
  split
  · -- the copy-up's value is dropped, the node it leaves upper is not
    have hcopy : Triple (fun fs => Confined u L fs ∧ fs.nodes node = n) (copyNodeUp ctx node)
        (fun _ fs => Confined u L fs ∧ (fs.nodes node).inUpperLayer = true) (fun _ => Confined u L) :=
      (copyNodeUp_upper ctx node L).conseq (fun _ h => h.1) (fun _ _ h => ⟨h.1, h.2.2⟩)
        (fun _ _ h => h)
    rw [Functor.discard, LawfulFunctor.map_const, Function.comp_apply, map_eq_pure_bind]
    refine Triple.bind ?_ fun _ => hwrite
    exact Triple.bind hcopy fun _ _ h => h
  · next hup =>
    exact hwrite.conseq (fun _ h => upper_of_getNode h hup) (fun _ _ h => h) (fun _ _ h => h)

/-! ## Runs of requests -/

/-- The requests of `sync_io.rs` that the model has, as computations on the overlay's state:
`init` imports the layers (with `do_import` set), the others are the methods of the same names. -/
inductive Request : {α : Type} → OvM α → Prop
  | init : Request import_
  | lookup (parent : Nat) (name : List UInt8) : Request (lookup parent name)
  | forget (inode count : Nat) : Request (forget inode count)
  | batchForget (requests : List (Nat × Nat)) : Request (batchForget requests)
  | getattr (inode : Nat) : Request (getattr inode)
  | setattr (ctx : Context) (inode : Nat) (attr : Stat64) (valid : Nat) :
      Request (setattr ctx inode attr valid)
  | readlink (inode : Nat) : Request (readlink inode)
  | symlink (ctx : Context) (linkname : List UInt8) (parent : Nat) (name : List UInt8) :
      Request (symlink ctx linkname parent name)
  | mknod (ctx : Context) (parent : Nat) (name : List UInt8) (mode rdev umask : Nat) :
      Request (mknod ctx parent name mode rdev umask)
  | mkdir (ctx : Context) (parent : Nat) (name : List UInt8) (mode umask : Nat) :
      Request (mkdir ctx parent name mode umask)
  | unlink (ctx : Context) (parent : Nat) (name : List UInt8) : Request (unlink ctx parent name)
  | rmdir (ctx : Context) (parent : Nat) (name : List UInt8) : Request (rmdir ctx parent name)
  | link (ctx : Context) (inode newparent : Nat) (name : List UInt8) :
      Request (link ctx inode newparent name)
  | create (ctx : Context) (parent : Nat) (name : List UInt8) (mode umask : Nat) :
      Request (create ctx parent name mode umask)
  | readdir {σ : Type} (inode size offset : Nat)
      (addEntry : σ → DirEntryBytes → Except IoError Nat × σ) (out : σ) :
      Request (readdir inode size offset addEntry out)
  | readdirplus {σ : Type} (inode size offset : Nat)
      (addEntry : σ → DirEntryBytes → Entry → Except IoError Nat × σ) (out : σ) :
      Request (readdirplus inode size offset addEntry out)
  | setxattr (ctx : Context) (inode : Nat) (name value : List UInt8) (flags : Nat) :
      Request (setxattr ctx inode name value flags)
  | getxattr (inode : Nat) (name : List UInt8) (size : Nat) : Request (getxattr inode name size)
  | removexattr (ctx : Context) (inode : Nat) (name : List UInt8) :
      Request (removexattr ctx inode name)

/-- The states an overlay reaches from `fs` by serving requests, each of which may fail. -/
inductive Served (fs : OverlayFs) : OverlayFs → Prop
  | start : Served fs fs
  | serve {fs' : OverlayFs} {α : Type} {m : OvM α} : Served fs fs' → Request m →
      Served fs (run m fs').2

theorem request_confines {m : OvM α} (h : Request m) : Confines u (fun _ => True) m := by
  cases h with
  | init => exact import_confines
  | lookup parent name => exact doLookup_confines parent _
  | forget inode count => exact forgetOne_confines inode count
  | batchForget requests => exact batchForget_confines requests
  | getattr inode => exact getattr_confines inode
  | setattr ctx inode attr valid => exact setattr_confines ctx inode attr valid
  | readlink inode => exact readlink_confines inode
  | symlink ctx linkname parent name => exact symlink_confines ctx linkname parent name
  | mknod ctx parent name mode rdev umask => exact mknod_confines ctx parent name mode rdev umask
  | mkdir ctx parent name mode umask => exact mkdir_confines ctx parent name mode umask
  | unlink ctx parent name => exact doRm_confines ctx parent name false
  | rmdir ctx parent name => exact doRm_confines ctx parent name true
  | link ctx inode newparent name => exact link_confines ctx inode newparent name
  | create ctx parent name mode umask => exact create_confines ctx parent name mode umask
  | readdir inode size offset addEntry out => exact readdir_confines inode size offset addEntry out
  | readdirplus inode size offset addEntry out =>
    exact readdirplus_confines inode size offset addEntry out
  | setxattr ctx inode name value flags => exact writeXattr_confines ctx inode _
  | getxattr inode name size => exact getxattr_confines inode name size
  | removexattr ctx inode name => exact writeXattr_confines ctx inode _

/-- Every state served from a confined one is confined. -/
theorem Served.confined {L : Nat → Layer} {fs fs' : OverlayFs} (h : Served fs fs')
    (hfs : Confined u L fs) : Confined u L fs' := by
  induction h with
  | start => exact hfs
  | serve _ hm ih => exact (request_confines hm).confined_run ih

/-- A new overlay is confined to its upper layer: it has no nodes yet. -/
theorem new_confined (layers : Nat → Layer) (upper : Option Nat) (lowers : List Nat)
    (params : Config) : Confined upper layers (new layers upper lowers params) where
  upper := rfl
  tagged _ _ h := nomatch h
  lower _ _ := rfl

/-- Whatever requests an overlay serves, every layer but its upper one keeps what it held. -/
theorem lower_layers_unchanged {layers : Nat → Layer} {upper : Option Nat} {lowers : List Nat}
    {params : Config} {fs : OverlayFs} (h : Served (new layers upper lowers params) fs) (i : Nat)
    (hi : upper ≠ some i) : fs.layers i = layers i :=
  (h.confined (new_confined layers upper lowers params)).lower i hi

/-- Two layers, each holding an empty root directory at inode 1. -/
def rootDirs : Nat → Layer := fun _ =>
  ⟨fun i => if i = 1 then some { attr := { stIno := 1, stMode := sIfdir ||| 0o755 } } else none, 1, 2⟩

/-- After `init` and a `mkdir` of `d` in the root, the upper layer 0 holds the new directory at
its inode 2, and the lower layer 1 is as it was. -/
theorem lower_layer_after_mkdir :
    ((run (mkdir { uid := 0, gid := 0 } rootId [0x64] 0o755 0o022)
        (run import_ (new rootDirs (some 0) [1] {})).2).2.layers 0).nextInode = 3 ∧
      (run (mkdir { uid := 0, gid := 0 } rootId [0x64] 0o755 0o022)
        (run import_ (new rootDirs (some 0) [1] {})).2).2.layers 1 = rootDirs 1 :=
  ⟨by decide +kernel,
    lower_layers_unchanged ((Served.start.serve Request.init).serve (Request.mkdir _ _ _ _ _)) 1
      (by decide)⟩

/-- In every state an overlay serves, a node flagged as upper has its first inode on the upper
layer: `in_upper_layer` tells the truth, which the writes of `setattr`, `setxattr` and
`removexattr` rely on. -/
theorem in_upper_layer_is_upper {layers : Nat → Layer} {upper : Option Nat} {lowers : List Nat}
    {params : Config} {fs : OverlayFs} (h : Served (new layers upper lowers params) fs) (id : Nat)
    (hup : (fs.nodes id).inUpperLayer = true) :
    ∃ ri, (fs.nodes id).realInodes.head? = some ri ∧ upper = some ri.layer := by
  have hc := h.confined (new_confined layers upper lowers params)
  unfold OverlayInode.inUpperLayer at hup
  split at hup
  · next ri hri => exact ⟨ri, hri, hc.tagged id ri (List.mem_of_head? hri) hup⟩
  · cases hup

/-- The root node after `init` over an upper and a lower layer, each holding an empty root
directory. -/
theorem root_upper_after_init :
    ∃ ri, ((run import_ (new (fun _ => ⟨fun i => if i = 1 then
        some { attr := { stIno := 1, stMode := sIfdir ||| 0o755 } } else none, 1, 2⟩)
        (some 0) [1] {})).2.nodes 0).realInodes.head? = some ri ∧ some 0 = some ri.layer :=
  in_upper_layer_is_upper (Served.start.serve Request.init) 0 (by decide +kernel)

end OverlayFs

end FuseBackend.Overlay
