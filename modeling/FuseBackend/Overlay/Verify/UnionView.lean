import FuseBackend.Overlay.Verify.Merge
import FuseBackend.Overlay.Verify.InodeNumbers
import FuseBackend.Lib.ListSplit
import FuseBackend.Overlay.Verify.Readdir
import FuseBackend.Overlay.Create

/-!
# An overlay that is only read shows the union

Every inode number the overlay hands out stands for a name of the union `Union` specifies: the
node it maps to in the `InodeStore` sits at a list of names from the root (`At`), and shows what
`Union.child` finds there. `Mirrors` is that invariant over a whole `OverlayFs`: it holds of each
node the store maps, of the children that node has loaded, each known to the store by its number,
and of the path mapping that `alloc_inode` reads. `import` sets it up, and every request that only
reads keeps it (`lookup`, `getattr`, `readlink`, `getxattr`, `readdir`, `readdirplus`), also when
the store runs out of numbers halfway through loading a directory.

The store is keyed by path, and the path of a node is its names joined by `/`. So the invariant
needs layers whose names hold no `/` (`Layer.SlashFree`), as POSIX directories have: two nodes at
different names of the union then have different paths, and a number the store hands out again
for a path is one whose node sat at the same names.
-/

namespace FuseBackend.Overlay

open Api Utf8 ExceptState RealInode OverlayInode

/-- A layer whose directory entries hold no `/`. -/
def Layer.SlashFree (l : Layer) : Prop :=
  ∀ {d : Nat} {n : LayerNode} {name : List UInt8} {ino : Nat},
    l.nodes d = some n → n.entries.lookup name = some ino → ∀ cs, encode cs = name → '/' ∉ cs

theorem oneFile_slashFree {c : Char} (h : c ≠ '/') : (oneFile c).SlashFree := by
  intro d n name ino hd he cs hcs
  rcases d with _ | _ | _ | d <;> simp only [oneFile, layerOf] at hd <;> simp at hd <;> subst hd
  · obtain ⟨rfl, -⟩ := lookup_dirNode_single he
    obtain rfl : cs = [c] :=
      Function.LeftInverse.injective decodeLossy_encode (hcs.trans (by simp [encode]))
    simpa using Ne.symm h
  · simp [fileNode] at he

/-! ## Names in the union -/

namespace Union

variable (layers : Nat → Layer)

theorem resolve_append_single (name : List UInt8) :
    ∀ (ds : Constituents) (ps : List (List UInt8)),
      resolve layers ds (ps ++ [name]) = (resolve layers ds ps).bind fun ds' =>
        match child layers name ds' with
        | some (n, ds'') => if isDir n.attr then some ds'' else none
        | none => none
  | ds, [] => by
    rcases h : child layers name ds with _ | ⟨n, ds''⟩ <;> simp [resolve, h]
  | ds, p :: ps => by
    simp only [List.cons_append, resolve]
    rcases child layers p ds with _ | ⟨n, ds'⟩
    · rfl
    · by_cases h : isDir n.attr
      · simp only [h, if_true]
        exact resolve_append_single name ds' ps
      · simp [h]

/-- The directory a child directory resolves to. -/
theorem resolve_append_of_child {ds ds' : Constituents} {ps : List (List UInt8)} {name : List UInt8}
    {m : LayerNode} {ds'' : Constituents} (hds : resolve layers ds ps = some ds')
    (hc : child layers name ds' = some (m, ds'')) (hdir : isDir m.attr = true) :
    resolve layers ds (ps ++ [name]) = some ds'' := by
  simp [resolve_append_single, hds, hc, hdir]

theorem child_node {l : Layer} {dir ino : Nat} {name : List UInt8} {n : LayerNode}
    (h : l.child dir name = some (ino, n)) : l.nodes ino = some n := by
  simp only [Layer.child, Option.bind_eq_bind, Option.bind_eq_some_iff, Option.pure_def,
    Option.some.injEq, Prod.mk.injEq] at h
  obtain ⟨_, _, _, _, n', hn', rfl, rfl⟩ := h
  exact hn'

/-- `lowerDirs` lists directories, and stops after an opaque one. -/
theorem lowerDirs_dirs (name : List UInt8) :
    ∀ ds : Constituents, (∀ p ∈ lowerDirs layers name ds, ∃ n, (layers p.1).nodes p.2 = some n ∧
      isDir n.attr = true) ∧ throughOpaque layers (lowerDirs layers name ds) = lowerDirs layers name ds
  | [] => by simp [lowerDirs, throughOpaque]
  | (i, d) :: ds => by
    obtain ⟨ih, ih'⟩ := lowerDirs_dirs name ds
    simp only [lowerDirs]
    rcases hc : (layers i).child d name with _ | ⟨ino, n⟩
    · exact ⟨ih, ih'⟩
    · have hn := child_node hc
      by_cases hstop : (isWhiteout n.attr || !isDir n.attr) = true
      · simp [hstop, throughOpaque]
      · have hdir : isDir n.attr = true := by simp_all
        simp only [hstop, Bool.false_eq_true, if_false]
        refine ⟨fun p hp => ?_, ?_⟩
        · rcases List.mem_cons.mp hp with rfl | hp
          · exact ⟨n, hn, hdir⟩
          · split_ifs at hp
            · simp at hp
            · exact ih p hp
        · cases hop : n.isOpaqueDir <;> simp [throughOpaque, hn, hop, ih']

/-- What `child` finds for a directory is made of directories, through the first opaque one. -/
theorem child_dirs {name : List UInt8} {ds ds' : Constituents} {m : LayerNode}
    (h : child layers name ds = some (m, ds')) :
    (∀ p ∈ ds', ∃ n, (layers p.1).nodes p.2 = some n ∧ isDir n.attr = true) ∧
      throughOpaque layers ds' = ds' := by
  induction ds with
  | nil => simp [child] at h
  | cons p ds ih =>
    obtain ⟨i, d⟩ := p
    simp only [child] at h
    rcases hc : (layers i).child d name with _ | ⟨ino, n⟩
    · rw [hc] at h
      exact ih h
    · rw [hc] at h
      dsimp only at h
      have hn := child_node hc
      obtain ⟨hlow, hlow'⟩ := lowerDirs_dirs layers name ds
      by_cases hwh : isWhiteout n.attr = true
      · simp [hwh] at h
      by_cases hdir : isDir n.attr = true
      · simp only [hwh, hdir, Bool.not_true, Bool.false_eq_true, if_false, Option.some.injEq,
          Prod.mk.injEq] at h
        obtain ⟨rfl, rfl⟩ := h
        refine ⟨fun p hp => ?_, ?_⟩
        · rcases List.mem_cons.mp hp with rfl | hp
          · exact ⟨_, hn, hdir⟩
          · split_ifs at hp
            · simp at hp
            · exact hlow p hp
        · split_ifs with hop <;> simp [throughOpaque, hn, hop, hlow']
      · simp only [hwh, hdir, Bool.not_false, if_true, Bool.false_eq_true, if_false,
          Option.some.injEq, Prod.mk.injEq] at h
        obtain ⟨rfl, rfl⟩ := h
        simp [throughOpaque]

end Union

/-! ## Where a node sits in the union -/

/-- The path the overlay gives the node at the names `ps`: each name after a `/`. -/
def pathOf (ps : List (List Char)) : List Char := ps.flatMap fun s => '/' :: s

theorem pathOf_append_single (ps : List (List Char)) (s : List Char) :
    pathOf (ps ++ [s]) = childPath (pathOf ps) s := by
  simp [pathOf, childPath]

theorem pathOf_inj {ps qs : List (List Char)} (hps : ∀ s ∈ ps, '/' ∉ s) (hqs : ∀ s ∈ qs, '/' ∉ s)
    (h : pathOf ps = pathOf qs) : ps = qs :=
  List.flatMap_cons_inj (p := fun c => c == '/') (by decide)
    (fun s hs c hc => by
      have hc' : c ≠ '/' := fun h => hps s hs (h ▸ hc)
      simpa using hc')
    (fun s hs c hc => by
      have hc' : c ≠ '/' := fun h => hqs s hs (h ▸ hc)
      simpa using hc') h

section Positions

variable (layers : Nat → Layer) (root : Constituents)

/-- The node `nd` is a directory of the overlay whose inodes each stand for a directory of its
layer, and from which `scan_childrens` reads the union's merged directory `ds`. -/
structure DirOf (nd : OverlayInode) (ds : Constituents) : Prop where
  whiteout : nd.whiteout = false
  ne : nd.realInodes ≠ []
  dirs : ∀ ri ∈ nd.realInodes, ∃ d, Of layers ri d ∧ isDir d.attr = true
  constituents : Union.throughOpaque layers (pairs nd.realInodes) = ds

/-- The node `nd` is the overlay's node for `Union.child`'s answer `o`: a whiteout where the union
shows nothing, and otherwise a node whose first inode stands for a node with the visible node's
attributes and which, for a directory, is a directory of the constituents `Union.child` lists. -/
def ShowsAt (nd : OverlayInode) : Option (LayerNode × Constituents) → Prop
  | none => nd.whiteout = true
  | some (m, ds) => nd.whiteout = false ∧
      (∃ ri ∈ nd.realInodes.head?, ∃ n, Of layers ri n ∧ n.attr = m.attr) ∧
      (isDir m.attr = true → DirOf layers nd ds)

/-- The node `nd` is the overlay's node at the names `ps` of the union whose root directory is
`root`: the root directory, or what `Union.child` finds under the last name in the directory the
names before it resolve to. Its path is the names joined, none of which holds a `/`. -/
inductive At : OverlayInode → List (List Char) → Prop
  | root {nd : OverlayInode} : nd.path = [] → DirOf layers nd root → At nd []
  | child {nd : OverlayInode} {ps : List (List Char)} {s : List Char} {ds : Constituents} :
      (∀ t ∈ ps ++ [s], '/' ∉ t) → nd.path = pathOf (ps ++ [s]) →
      Union.resolve layers root (ps.map encode) = some ds →
      ShowsAt layers nd (Union.child layers (encode s) ds) → At nd (ps ++ [s])

variable {layers root}

theorem DirOf.congr {nd nd' : OverlayInode} {ds : Constituents} (h : DirOf layers nd ds)
    (hw : nd'.whiteout = nd.whiteout) (hr : nd'.realInodes = nd.realInodes) : DirOf layers nd' ds := by
  obtain ⟨h1, h2, h3, h4⟩ := h
  exact ⟨hw ▸ h1, hr ▸ h2, hr ▸ h3, hr ▸ h4⟩

theorem ShowsAt.congr {nd nd' : OverlayInode} {o : Option (LayerNode × Constituents)}
    (h : ShowsAt layers nd o) (hw : nd'.whiteout = nd.whiteout) (hr : nd'.realInodes = nd.realInodes) :
    ShowsAt layers nd' o := by
  rcases o with _ | ⟨m, ds⟩
  · exact hw.trans h
  · obtain ⟨h1, h2, h3⟩ := h
    exact ⟨hw.trans h1, hr ▸ h2, fun hd => (h3 hd).congr hw hr⟩

/-- Where a node sits depends on its path, its whiteout flag and its inodes only. -/
theorem At.congr {nd nd' : OverlayInode} {ps : List (List Char)} (h : At layers root nd ps)
    (hp : nd'.path = nd.path) (hw : nd'.whiteout = nd.whiteout)
    (hr : nd'.realInodes = nd.realInodes) : At layers root nd' ps := by
  cases h with
  | root hpath hdir => exact .root (hp.trans hpath) (hdir.congr hw hr)
  | child hs hpath hres hshows => exact .child hs (hp.trans hpath) hres (hshows.congr hw hr)

theorem At.path_eq {nd : OverlayInode} {ps : List (List Char)} (h : At layers root nd ps) :
    nd.path = pathOf ps := by
  cases h with
  | root hpath => exact hpath
  | child _ hpath => exact hpath

theorem At.slashFree {nd : OverlayInode} {ps : List (List Char)} (h : At layers root nd ps) :
    ∀ t ∈ ps, '/' ∉ t := by
  cases h with
  | root => simp
  | child hs => exact hs

/-- Nodes with one path sit at the same names. -/
theorem At.names_eq {nd nd' : OverlayInode} {ps qs : List (List Char)} (h : At layers root nd ps)
    (h' : At layers root nd' qs) (hpath : nd.path = nd'.path) : ps = qs :=
  pathOf_inj h.slashFree h'.slashFree (h.path_eq.symm.trans (hpath.trans h'.path_eq))

end Positions

/-! ## Nodes the scan makes -/

section Scan

variable {layers : Nat → Layer} {root : Constituents}

theorem RealInode.Of.node_eq {ri : RealInode} {n n' : LayerNode} (h : Of layers ri n) (h' : Of layers ri n') :
    n = n' :=
  Option.some.inj (h.node.symm.trans h'.node)

theorem DirOf.constituents_eq {nd : OverlayInode} {ds ds' : Constituents} (h : DirOf layers nd ds)
    (h' : DirOf layers nd ds') : ds = ds' :=
  h.constituents.symm.trans h'.constituents

/-- A node that shows a visible node has its attributes. -/
theorem ShowsAt.run_stat64 {nd : OverlayInode} {m : LayerNode} {ds : Constituents}
    (h : ShowsAt layers nd (some (m, ds))) (fs : OverlayFs) (hl : fs.layers = layers) :
    run nd.stat64 fs = (.ok m.attr, fs) := by
  obtain ⟨-, ⟨ri, hri, n, hn, hattr⟩, -⟩ := h
  obtain ⟨ris, hris⟩ : ∃ ris, nd.realInodes = ri :: ris := by
    cases h : nd.realInodes with
    | nil => simp [h] at hri
    | cons r ris => simp only [h, List.head?_cons, Option.mem_def, Option.some.injEq] at hri; exact ⟨ris, hri ▸ rfl⟩
  subst hl
  rw [run_stat64_of_head fs hris hn.inode_ne hn.node, hattr]

/-- A directory of the overlay has the attributes of a directory. -/
theorem DirOf.run_stat64 {nd : OverlayInode} {ds : Constituents} (h : DirOf layers nd ds)
    (fs : OverlayFs) (hl : fs.layers = layers) :
    ∃ st, run nd.stat64 fs = (.ok st, fs) ∧ isDir st = true := by
  obtain ⟨ri, ris, hris⟩ := List.exists_cons_of_ne_nil h.ne
  obtain ⟨d, hd, hdir⟩ := h.dirs ri (hris ▸ List.mem_cons_self)
  subst hl
  exact ⟨d.attr, run_stat64_of_head fs hris hd.inode_ne hd.node, hdir⟩

/-- A directory of the overlay is a directory of what its names resolve to. -/
theorem At.resolve_of_dirOf {nd : OverlayInode} {ps : List (List Char)} {ds : Constituents}
    (h : At layers root nd ps) (hdir : DirOf layers nd ds) :
    Union.resolve layers root (ps.map encode) = some ds := by
  cases h with
  | root _ hroot => rw [hroot.constituents_eq hdir]; rfl
  | child hslash hpath hres hshows =>
    rename_i qs s dsq
    rcases hc : Union.child layers (encode s) dsq with _ | ⟨m, ds'⟩
    · rw [hc] at hshows
      exact absurd (hdir.whiteout.symm.trans hshows) (by decide)
    · rw [hc] at hshows
      obtain ⟨-, ⟨ri, hri, n, hn, hattr⟩, hd⟩ := hshows
      -- the first inode stands for a directory, so the union shows a directory here
      obtain ⟨d, hd', hdd⟩ := hdir.dirs ri (List.mem_of_head? hri)
      have hmdir : isDir m.attr = true := by rw [← hattr, hn.node_eq hd']; exact hdd
      rw [List.map_append, List.map_singleton, Union.resolve_append_of_child layers hres hc hmdir,
        (hd hmdir).constituents_eq hdir]

/-- A node at some names that is no whiteout and has the attributes of a directory is a
directory of the overlay. -/
theorem At.dirOf_of_stat {nd : OverlayInode} {ps : List (List Char)} (h : At layers root nd ps)
    (hw : nd.whiteout = false) {fs : OverlayFs} (hl : fs.layers = layers) {st : Stat64}
    (hst : (run nd.stat64 fs).1 = .ok st) (hdir : isDir st = true) : ∃ ds, DirOf layers nd ds := by
  cases h with
  | root _ hroot => exact ⟨_, hroot⟩
  | child hslash hpath hres hshows =>
    rename_i qs s dsq
    rcases hc : Union.child layers (encode s) dsq with _ | ⟨m, ds'⟩
    · rw [hc] at hshows
      exact absurd (hw.symm.trans hshows) (by decide)
    · rw [hc] at hshows
      rw [hshows.run_stat64 fs hl] at hst
      obtain rfl : m.attr = st := by simpa using hst
      exact ⟨ds', hshows.2.2 hdir⟩

variable (hwf : ∀ i, (layers i).Wf)
include hwf

/-- An inode `lookup_child` found stands for the node it was found as. -/
theorem of_mem_filterMap_childAt {ris : List RealInode}
    (hris : ∀ ri ∈ ris, ∃ d, Of layers ri d ∧ isDir d.attr = true) {name : List Char} {r : RealInode}
    (hr : r ∈ ris.filterMap (childAt layers · name)) : ∃ m, Of layers r m ∧ r.stat = some m.attr := by
  obtain ⟨ri, hri, hc⟩ := List.mem_filterMap.mp hr
  obtain ⟨d, hd, -⟩ := hris ri hri
  simp only [childAt, child_of_dir hd, Option.map_eq_some_iff, Option.bind_eq_some_iff] at hc
  obtain ⟨⟨ino, m⟩, ⟨ino', hino, hm⟩, rfl⟩ := hc
  simp only [Prod.mk.injEq] at hm
  obtain ⟨m', hm', rfl, rfl⟩ := hm
  exact ⟨m', childOf_of hm' ((hwf ri.layer).entry hd.node hino).1, rfl⟩

/-- A node the scan made shows `Union.child` with inodes that stand for nodes of their layers. -/
theorem Made.showsAt {ris : List RealInode}
    (hris : ∀ ri ∈ ris, ∃ d, Of layers ri d ∧ isDir d.attr = true) {name path : List Char}
    {c : OverlayInode} (h : Made layers name path ris c) :
    ShowsAt layers c (Union.child layers (encode name) (pairs ris)) := by
  have hshows := h.shows
  rcases hc : Union.child layers (encode name) (pairs ris) with _ | ⟨m, ds'⟩
  · rw [hc] at hshows
    exact hshows
  · rw [hc] at hshows
    obtain ⟨hwh, hhead, hpairs⟩ := hshows
    have hof : ∀ r ∈ c.realInodes, ∃ n, Of layers r n ∧ r.stat = some n.attr :=
      fun r hr => of_mem_filterMap_childAt hwf hris (h.found r hr)
    obtain ⟨r, hr, hrstat⟩ := Option.bind_eq_some_iff.mp hhead
    obtain ⟨n, hn, hnstat⟩ := hof r (List.mem_of_head? hr)
    refine ⟨hwh, ⟨r, hr, n, hn, Option.some.inj (hnstat.symm.trans hrstat)⟩, fun hdir => ?_⟩
    obtain ⟨hdirs, hclosed⟩ := Union.child_dirs layers hc
    refine ⟨hwh, List.ne_nil_of_mem (List.mem_of_head? hr), fun r' hr' => ?_, ?_⟩
    · -- each inode is one of the directories `Union.child` lists
      obtain ⟨n', hn', -⟩ := hof r' hr'
      have hmem : (r'.layer, r'.inode) ∈ ds' := by
        rw [← hpairs hdir]
        exact List.mem_map_of_mem hr'
      obtain ⟨d, hd, hdd⟩ := hdirs _ hmem
      exact ⟨n', hn', by rw [Option.some.inj (hn'.node.symm.trans hd)]; exact hdd⟩
    · rw [hpairs hdir, hclosed]

omit hwf in
/-- A child a layer's directory holds has a name free of `/`. -/
theorem slash_not_mem_of_childAt (hsf : ∀ i, (layers i).SlashFree) {ri : RealInode} {d : LayerNode}
    (hd : Of layers ri d) {name : List Char} {r : RealInode} (h : childAt layers ri name = some r) :
    '/' ∉ name := by
  simp only [childAt, child_of_dir hd, Option.map_eq_some_iff, Option.bind_eq_some_iff] at h
  obtain ⟨_, ⟨ino, hino, -⟩, -⟩ := h
  exact hsf ri.layer hd.node hino name rfl

/-- The children `scan_childrens` makes for a directory at the names `ps` sit one level below,
with nothing loaded. -/
theorem at_of_scanned (hsf : ∀ i, (layers i).SlashFree) {nd : OverlayInode} {ps : List (List Char)}
    {ds : Constituents} (hat : At layers root nd ps) (hdir : DirOf layers nd ds) {cs : List OverlayInode}
    (hmem : ∀ s, s ∈ cs.map (·.name) ↔
      (throughOpaque nd.realInodes).filterMap (childAt layers · s) ≠ [])
    (hcs : ∀ c ∈ cs, Made layers c.name (childPath nd.path c.name) (throughOpaque nd.realInodes) c) :
    ∀ c ∈ cs, At layers root c (ps ++ [c.name]) ∧ c.childrens = ∅ ∧ c.loaded = false := by
  intro c hc
  have hmade := hcs c hc
  have hthrough : ∀ ri ∈ throughOpaque nd.realInodes, ∃ d, Of layers ri d ∧ isDir d.attr = true :=
    fun ri hri => hdir.dirs ri ((throughOpaque_sublist _).subset hri)
  -- the name is one a layer's directory holds
  have hslash : '/' ∉ c.name := by
    obtain ⟨r, hr⟩ := List.exists_mem_of_ne_nil _ ((hmem c.name).mp (List.mem_map_of_mem hc))
    obtain ⟨ri, hri, hc'⟩ := List.mem_filterMap.mp hr
    obtain ⟨d, hd, -⟩ := hthrough ri hri
    exact slash_not_mem_of_childAt hsf hd hc'
  have hshows := Made.showsAt hwf hthrough hmade
  rw [pairs_throughOpaque _ hdir.dirs, hdir.constituents] at hshows
  refine ⟨.child ?_ ?_ (hat.resolve_of_dirOf hdir) hshows, hmade.childrens, hmade.loaded⟩
  · intro t ht
    rcases List.mem_append.mp ht with ht | ht
    · exact hat.slashFree t ht
    · rw [List.mem_singleton.mp ht]
      exact hslash
  · rw [hmade.path_eq, hat.path_eq, pathOf_append_single]

end Scan

/-! ## The invariant -/

section Invariant

variable (layers : Nat → Layer) (root : Constituents)

/-- The node `nd` of `fs` sits at the names `ps`, and so do the children it has loaded, each one
level down under its key and known to the store by a number whose node sits there too.
Once loaded, a directory holds every name of the union's merged directory. -/
structure NodeAt (fs : OverlayFs) (nd : OverlayInode) (ps : List (List Char)) : Prop where
  at_ : At layers root nd ps
  children : ∀ s c, nd.childrens.lookup s = some c →
    c < fs.nextNode ∧ At layers root (fs.nodes c) (ps ++ [s]) ∧
      ∃ c', fs.inodes.inodes (fs.nodes c).inode = some c' ∧ At layers root (fs.nodes c') (ps ++ [s])
  loaded : nd.loaded = true → ∀ ds, DirOf layers nd ds →
    ∀ s, encode s ∈ Union.names layers ds → s ∈ nd.childrens

/-- The overlay `fs` mirrors the union of `layers` whose root directory is `root`: every node it
made sits somewhere in the union; each number the store maps is its node's own and the one the
path mapping gives the node's path; every path the mapping holds is that of the node its number
maps to; nothing is parked as deleted. -/
structure Mirrors (fs : OverlayFs) : Prop where
  layers_eq : fs.layers = layers
  nodes : ∀ id < fs.nextNode, ∃ ps, NodeAt layers root fs (fs.nodes id) ps
  store : ∀ ino id, fs.inodes.inodes ino = some id →
    id < fs.nextNode ∧ (fs.nodes id).inode = ino ∧ fs.inodes.pathMapping (fs.nodes id).path = some ino
  paths : ∀ path ino, fs.inodes.pathMapping path = some ino →
    ∃ id, fs.inodes.inodes ino = some id ∧ (fs.nodes id).path = path
  deleted : ∀ ino, fs.inodes.deleted ino = none

end Invariant

/-! ## Runs that only read -/

/-- `n'` is the node `n` with other children, flags or counts: the same number, path and inodes. -/
structure OverlayInode.Like (n n' : OverlayInode) : Prop where
  inode : n'.inode = n.inode
  path : n'.path = n.path
  whiteout : n'.whiteout = n.whiteout
  realInodes : n'.realInodes = n.realInodes

theorem OverlayInode.Like.refl (n : OverlayInode) : n.Like n := ⟨rfl, rfl, rfl, rfl⟩

theorem OverlayInode.Like.trans {n n' n'' : OverlayInode} (h : n.Like n') (h' : n'.Like n'') :
    n.Like n'' :=
  ⟨h'.inode.trans h.inode, h'.path.trans h.path, h'.whiteout.trans h.whiteout,
    h'.realInodes.trans h.realInodes⟩

section Frame

variable (layers : Nat → Layer) (root : Constituents)

/-- `fs'` follows `fs` in a run that only reads: the nodes of `fs` keep their number, their path,
their inodes and their children, and a number the store gave a node somewhere still leads to a
node there. -/
structure Grows (fs fs' : OverlayFs) : Prop where
  next_le : fs.nextNode ≤ fs'.nextNode
  like : ∀ j < fs.nextNode, (fs.nodes j).Like (fs'.nodes j)
  keys : ∀ j < fs.nextNode, ∀ s ∈ (fs.nodes j).childrens, s ∈ (fs'.nodes j).childrens
  store : ∀ ino c ps, fs.inodes.inodes ino = some c → At layers root (fs.nodes c) ps →
    ∃ c', fs'.inodes.inodes ino = some c' ∧ At layers root (fs'.nodes c') ps

variable {layers root}

theorem At.like {nd nd' : OverlayInode} {ps : List (List Char)} (h : At layers root nd ps)
    (hl : nd.Like nd') : At layers root nd' ps :=
  h.congr hl.path hl.whiteout hl.realInodes

theorem Grows.refl (fs : OverlayFs) : Grows layers root fs fs :=
  ⟨le_rfl, fun _ _ => .refl _, fun _ _ _ h => h, fun _ c _ h hat => ⟨c, h, hat⟩⟩

theorem Grows.trans {fs fs' fs'' : OverlayFs} (h : Grows layers root fs fs')
    (h' : Grows layers root fs' fs'') : Grows layers root fs fs'' where
  next_le := h.next_le.trans h'.next_le
  like j hj := (h.like j hj).trans (h'.like j (lt_of_lt_of_le hj h.next_le))
  keys j hj s hs := h'.keys j (lt_of_lt_of_le hj h.next_le) s (h.keys j hj s hs)
  store ino c ps hc hat := by
    obtain ⟨c', hc', hat'⟩ := h.store ino c ps hc hat
    exact h'.store ino c' ps hc' hat'

theorem Grows.at_ {fs fs' : OverlayFs} (h : Grows layers root fs fs') {j : Nat} (hj : j < fs.nextNode)
    {ps : List (List Char)} (hat : At layers root (fs.nodes j) ps) : At layers root (fs'.nodes j) ps :=
  hat.like (h.like j hj)

/-- Changing a node's other fields than its number, path, inodes and children. -/
theorem grows_update (fs : OverlayFs) (id : Nat) {n : OverlayInode} (hn : (fs.nodes id).Like n)
    (hch : n.childrens = (fs.nodes id).childrens) :
    Grows layers root fs { fs with nodes := Function.update fs.nodes id n } := by
  have hlike : ∀ j, (fs.nodes j).Like (Function.update fs.nodes id n j) := by
    intro j
    by_cases hj : j = id
    · subst hj
      simpa using hn
    · simpa [Function.update_of_ne hj] using OverlayInode.Like.refl (fs.nodes j)
  refine ⟨le_rfl, fun j _ => hlike j, fun j _ s hs => ?_,
    fun ino c ps hc h => ⟨c, hc, h.like (hlike c)⟩⟩
  by_cases hj : j = id
  · subst hj
    simpa [hch] using hs
  · simpa [Function.update_of_ne hj] using hs

/-- A node keeps its place in the union over a run when its children do, and stays complete
if it is loaded. -/
theorem NodeAt.grows_of {fs fs' : OverlayFs} {nd nd' : OverlayInode} {ps : List (List Char)}
    (h : NodeAt layers root fs nd ps) (hg : Grows layers root fs fs') (hn : nd.Like nd')
    (hch : nd'.childrens = nd.childrens)
    (hl : nd'.loaded = true → ∀ ds, DirOf layers nd' ds →
      ∀ s, encode s ∈ Union.names layers ds → s ∈ nd'.childrens) :
    NodeAt layers root fs' nd' ps where
  at_ := h.at_.like hn
  children s c hs := by
    rw [hch] at hs
    obtain ⟨hlt, hat, c', hc', hat'⟩ := h.children s c hs
    refine ⟨lt_of_lt_of_le hlt hg.next_le, hg.at_ hlt hat, ?_⟩
    rw [(hg.like c hlt).inode]
    exact hg.store _ c' _ hc' hat'
  loaded := hl

theorem NodeAt.grows {fs fs' : OverlayFs} {nd nd' : OverlayInode} {ps : List (List Char)}
    (h : NodeAt layers root fs nd ps) (hg : Grows layers root fs fs') (hn : nd.Like nd')
    (hch : nd'.childrens = nd.childrens) (hl : nd'.loaded = nd.loaded) :
    NodeAt layers root fs' nd' ps := by
  refine h.grows_of hg hn hch fun hl' ds hd s hs => ?_
  rw [hch]
  exact h.loaded (hl ▸ hl') ds (hd.congr hn.whiteout.symm hn.realInodes.symm) s hs

/-- Entering a child into a directory not yet loaded. -/
theorem NodeAt.insert {fs : OverlayFs} {nd : OverlayInode} {ps : List (List Char)} {s : List Char}
    {c : Nat} (h : NodeAt layers root fs nd ps) (hl : nd.loaded = false) (hc : c < fs.nextNode)
    (hat : At layers root (fs.nodes c) (ps ++ [s]))
    (hst : ∃ c', fs.inodes.inodes (fs.nodes c).inode = some c' ∧ At layers root (fs.nodes c') (ps ++ [s])) :
    NodeAt layers root fs { nd with childrens := nd.childrens.insert s c } ps where
  at_ := h.at_.congr rfl rfl rfl
  children s' c' hs := by
    rw [AList.lookup_insert_ite] at hs
    split_ifs at hs with hs'
    · cases hs
      subst hs'
      exact ⟨hc, hat, hst⟩
    · exact h.children s' c' hs
  loaded hl' := absurd (hl.symm.trans hl') (by decide)

/-- Changing a node's other fields than its number, path, inodes and children keeps the overlay
a mirror, if the node, once loaded, is complete. -/
theorem Mirrors.update {fs : OverlayFs} (hM : Mirrors layers root fs) (id : Nat) {n : OverlayInode}
    (hn : (fs.nodes id).Like n) (hch : n.childrens = (fs.nodes id).childrens)
    (hl : id < fs.nextNode → n.loaded = true → ∀ ds, DirOf layers n ds →
      ∀ s, encode s ∈ Union.names layers ds → s ∈ n.childrens) :
    Mirrors layers root { fs with nodes := Function.update fs.nodes id n } := by
  have hg : Grows layers root fs _ := grows_update fs id hn hch
  have hlike : ∀ j, (fs.nodes j).Like (Function.update fs.nodes id n j) := by
    intro j
    by_cases hj : j = id
    · subst hj
      simpa using hn
    · simpa [Function.update_of_ne hj] using OverlayInode.Like.refl (fs.nodes j)
  refine ⟨hM.layers_eq, fun j hj => ?_, fun ino j h => ?_, fun p ino h => ?_, hM.deleted⟩
  · obtain ⟨qs, hq⟩ := hM.nodes j hj
    refine ⟨qs, ?_⟩
    by_cases hji : j = id
    · subst hji
      simpa using hq.grows_of hg hn hch (hl hj)
    · simpa [Function.update_of_ne hji] using hq.grows hg (.refl _) rfl rfl
  · obtain ⟨hlt, hino, hpm⟩ := hM.store ino j h
    exact ⟨hlt, (hlike j).inode.trans hino, by rw [(hlike j).path]; exact hpm⟩
  · obtain ⟨j, hj, hjp⟩ := hM.paths p ino h
    exact ⟨j, hj, (hlike j).path.trans hjp⟩

theorem grows_update_lookups (fs : OverlayFs) (id k : Nat) :
    Grows layers root fs
      { fs with nodes := Function.update fs.nodes id { fs.nodes id with lookups := k } } :=
  grows_update fs id ⟨rfl, rfl, rfl, rfl⟩ rfl

/-- Counting a lookup of a node keeps the overlay a mirror. -/
theorem Mirrors.update_lookups {fs : OverlayFs} (hM : Mirrors layers root fs) (id k : Nat) :
    Mirrors layers root
      { fs with nodes := Function.update fs.nodes id { fs.nodes id with lookups := k } } := by
  refine hM.update id ⟨rfl, rfl, rfl, rfl⟩ rfl fun hid hl ds hd s hs => ?_
  obtain ⟨qs, hq⟩ := hM.nodes id hid
  exact hq.loaded hl ds (hd.congr rfl rfl) s hs

/-- Taking a lookup of each node in a list. -/
theorem Mirrors.bumpLookups {fs : OverlayFs} (hM : Mirrors layers root fs) :
    ∀ ids : List Nat, Mirrors layers root (bumpLookups ids fs) ∧ Grows layers root fs (bumpLookups ids fs)
  | [] => ⟨hM, .refl fs⟩
  | id :: ids => by
    simp only [FuseBackend.Overlay.bumpLookups, List.foldl_cons]
    obtain ⟨hM', hg'⟩ := Mirrors.bumpLookups (hM.update_lookups id ((fs.nodes id).lookups + 1)) ids
    exact ⟨hM', (grows_update_lookups fs id _).trans hg'⟩

end Frame

/-! ## Loading a directory -/

/-- A number from `alloc_inode` is the one the path had, or one the store does not map; the maps
are left as they were. -/
theorem InodeStore.allocInode_cases {s s' : InodeStore} {path : List Char} {ino : Nat}
    (h : s.allocInode path = .ok (ino, s')) :
    s'.inodes = s.inodes ∧ s'.pathMapping = s.pathMapping ∧ s'.deleted = s.deleted ∧
      (s.pathMapping path = some ino ∨ (s.pathMapping path = none ∧ s.inodes ino = none)) := by
  unfold InodeStore.allocInode at h
  split at h
  · rename_i v hv
    simp only [Except.ok.injEq, Prod.mk.injEq] at h
    obtain ⟨rfl, rfl⟩ := h
    exact ⟨rfl, rfl, rfl, .inl hv⟩
  · rename_i hv
    obtain ⟨hi, -, rfl⟩ := InodeStore.allocUniqueInode_free h
    exact ⟨rfl, rfl, rfl, .inr ⟨hv, hi⟩⟩

/-- `alloc_inode` fails only with an error of its own, which has no OS error number. -/
theorem InodeStore.allocInode_rawOsError {s : InodeStore} {path : List Char} {e : IoError}
    (h : s.allocInode path = .error e) : e.rawOsError = none := by
  unfold InodeStore.allocInode InodeStore.allocUniqueInode at h
  split at h
  · cases h
  · rw [InodeStore.allocUniqueInodeLoop_eq] at h
    split at h
    · cases h
    · cases h
      rfl

namespace OverlayFs

/-- The state after `load_directory` enters the child `c` of the node `id` under the number
`ino`, `s` being the store after `alloc_inode`. -/
def addChild (fs : OverlayFs) (id : Nat) (c : OverlayInode) (ino : Nat) (s : InodeStore) : OverlayFs :=
  let nodes := Function.update fs.nodes fs.nextNode { c with inode := ino, parent := some id }
  let nodes := Function.update nodes id
    { nodes id with childrens := (nodes id).childrens.insert c.name fs.nextNode }
  { fs with
    nodes := nodes
    nextNode := fs.nextNode + 1
    inodes := s.insertInode ino fs.nextNode (nodes fs.nextNode) }

theorem run_loadChildren_cons (id : Nat) (c : OverlayInode) (cs : List OverlayInode) (fs : OverlayFs) :
    run (loadChildren id (c :: cs)) fs =
      match fs.inodes.allocInode c.path with
      | .ok (ino, s) => run (loadChildren id cs) (addChild fs id c ino s)
      | .error e => (.error e, fs) := by
  simp only [loadChildren, allocInode, run_bind, run_get]
  rcases fs.inodes.allocInode c.path with e | ⟨ino, s⟩
  · rfl
  · simp only [run_bind, run_set, run_pure, run_newNode, insertChild, run_modifyNode, insertInode,
      run_modify]
    rfl

end OverlayFs

namespace OverlayFs

section AddChild

variable {fs : OverlayFs} {id : Nat} {c : OverlayInode} {ino : Nat} {s : InodeStore}

@[simp] theorem addChild_layers : (fs.addChild id c ino s).layers = fs.layers := rfl

@[simp] theorem addChild_nextNode : (fs.addChild id c ino s).nextNode = fs.nextNode + 1 := rfl

@[simp] theorem addChild_inodes :
    (fs.addChild id c ino s).inodes.inodes = Function.update s.inodes ino (some fs.nextNode) := rfl

@[simp] theorem addChild_deleted : (fs.addChild id c ino s).inodes.deleted = s.deleted := rfl

theorem addChild_pathMapping :
    (fs.addChild id c ino s).inodes.pathMapping = Function.update s.pathMapping c.path (some ino) := by
  by_cases h : id = fs.nextNode
  · simp [addChild, InodeStore.insertInode, h]
  · simp [addChild, InodeStore.insertInode, Function.update_of_ne (Ne.symm h)]

theorem addChild_nodes_of_ne {j : Nat} (h1 : j ≠ id) (h2 : j ≠ fs.nextNode) :
    (fs.addChild id c ino s).nodes j = fs.nodes j := by
  simp [addChild, Function.update_of_ne h1, Function.update_of_ne h2]

theorem addChild_nodes_next (h : id ≠ fs.nextNode) :
    (fs.addChild id c ino s).nodes fs.nextNode = { c with inode := ino, parent := some id } := by
  simp [addChild, Function.update_of_ne (Ne.symm h)]

theorem addChild_nodes_self (h : id ≠ fs.nextNode) :
    (fs.addChild id c ino s).nodes id =
      { fs.nodes id with childrens := (fs.nodes id).childrens.insert c.name fs.nextNode } := by
  simp [addChild, Function.update_of_ne h]

variable {layers : Nat → Layer} {root : Constituents} {ps : List (List Char)}
  (hM : Mirrors layers root fs) (hc : At layers root c (ps ++ [c.name]))
  (ha : fs.inodes.allocInode c.path = .ok (ino, s))
include hM hc ha

omit hc in
/-- A node the store reaches by the child's number has the child's path. -/
theorem path_of_store {j : Nat} (h : fs.inodes.inodes ino = some j) : (fs.nodes j).path = c.path := by
  obtain ⟨-, -, -, hcase⟩ := InodeStore.allocInode_cases ha
  rcases hcase with hp | ⟨-, hnone⟩
  · obtain ⟨j', hj', hpath⟩ := hM.paths _ _ hp
    rw [h] at hj'
    cases hj'
    exact hpath
  · rw [hnone] at h
    cases h

omit hM hc in
/-- A path the store maps to another number than the child's is not the child's path. -/
theorem path_ne_of_pathMapping {p : List Char} {ino' : Nat} (h : fs.inodes.pathMapping p = some ino')
    (hi : ino' ≠ ino) : p ≠ c.path := by
  rintro rfl
  obtain ⟨-, -, -, hcase⟩ := InodeStore.allocInode_cases ha
  rcases hcase with hp | ⟨hp, -⟩
  · rw [hp] at h
    exact hi (Option.some.inj h).symm
  · rw [hp] at h
    cases h

theorem grows_addChild (hid : id < fs.nextNode) : Grows layers root fs (fs.addChild id c ino s) := by
  have hne : id ≠ fs.nextNode := hid.ne
  -- below the new node only the directory changes, and only by a child more
  have hold : ∀ j < fs.nextNode, ∃ ch, (fs.addChild id c ino s).nodes j =
      { fs.nodes j with childrens := ch } ∧ ∀ t ∈ (fs.nodes j).childrens, t ∈ ch := by
    intro j hj
    by_cases hji : j = id
    · subst hji
      exact ⟨_, addChild_nodes_self hne, fun t ht => (AList.mem_insert _).mpr (.inr ht)⟩
    · exact ⟨_, addChild_nodes_of_ne hji hj.ne, fun t ht => ht⟩
  have hlike : ∀ j < fs.nextNode, (fs.nodes j).Like ((fs.addChild id c ino s).nodes j) := by
    intro j hj
    obtain ⟨ch, hch, -⟩ := hold j hj
    rw [hch]
    exact ⟨rfl, rfl, rfl, rfl⟩
  refine ⟨by simp, hlike, fun j hj t ht => ?_, fun ino' j qs h hq => ?_⟩
  · obtain ⟨ch, hch, hkeys⟩ := hold j hj
    rw [hch]
    exact hkeys t ht
  · obtain ⟨hlt, -⟩ := hM.store ino' j h
    by_cases hi : ino' = ino
    · -- the number now leads to the child, which sits where the node it led to did
      rw [hi] at h
      have hq' : qs = ps ++ [c.name] := hq.names_eq hc (path_of_store hM ha h)
      subst hq'
      refine ⟨fs.nextNode, by simp [hi], ?_⟩
      rw [addChild_nodes_next hne]
      exact hc.congr rfl rfl rfl
    · refine ⟨j, ?_, hq.like (hlike j hlt)⟩
      rw [addChild_inodes, Function.update_of_ne hi, (InodeStore.allocInode_cases ha).1]
      exact h

theorem nodeAt_addChild (hid : id < fs.nextNode) (hN : NodeAt layers root fs (fs.nodes id) ps)
    (hl : (fs.nodes id).loaded = false) :
    NodeAt layers root (fs.addChild id c ino s) ((fs.addChild id c ino s).nodes id) ps := by
  have hne : id ≠ fs.nextNode := hid.ne
  have hnew : (fs.addChild id c ino s).nodes fs.nextNode = _ := addChild_nodes_next hne
  rw [addChild_nodes_self hne]
  refine (hN.grows (grows_addChild hM hc ha hid) (.refl _) rfl rfl).insert hl (by simp) ?_
    ⟨fs.nextNode, ?_, ?_⟩
  · rw [hnew]
    exact hc.congr rfl rfl rfl
  · rw [hnew]
    simp
  · rw [hnew]
    exact hc.congr rfl rfl rfl

/-- One round of the loop of `load_directory` keeps the overlay a mirror of the union. -/
theorem mirrors_addChild (hid : id < fs.nextNode) (hat : At layers root (fs.nodes id) ps)
    (hl : (fs.nodes id).loaded = false) (hce : c.childrens = ∅) (hcl : c.loaded = false) :
    Mirrors layers root (fs.addChild id c ino s) := by
  obtain ⟨hi, hp, hd, -⟩ := InodeStore.allocInode_cases ha
  have hne : id ≠ fs.nextNode := hid.ne
  have hnew : (fs.addChild id c ino s).nodes fs.nextNode = _ := addChild_nodes_next hne
  have hg := grows_addChild hM hc ha hid
  refine ⟨hM.layers_eq, fun j hj => ?_, fun ino' j h => ?_, fun p ino' h => ?_,
    fun ino' => by simp [hd, hM.deleted]⟩
  · rcases Nat.lt_succ_iff_lt_or_eq.mp hj with hj | rfl
    · obtain ⟨qs, hq⟩ := hM.nodes j hj
      by_cases hji : j = id
      · subst hji
        have hqs : qs = ps := hq.at_.names_eq hat rfl
        subst hqs
        exact ⟨qs, nodeAt_addChild hM hc ha hid hq hl⟩
      · rw [addChild_nodes_of_ne hji hj.ne]
        exact ⟨qs, hq.grows hg (.refl _) rfl rfl⟩
    · -- the child: no children of its own yet
      refine ⟨ps ++ [c.name], ?_⟩
      rw [hnew]
      exact ⟨hc.congr rfl rfl rfl, by simp [hce], by simp [hcl]⟩
  · by_cases hi' : ino' = ino
    · subst hi'
      rw [addChild_inodes, Function.update_self] at h
      cases h
      refine ⟨by simp, by rw [hnew], ?_⟩
      rw [hnew, addChild_pathMapping]
      simp
    · rw [addChild_inodes, Function.update_of_ne hi', hi] at h
      obtain ⟨hlt, hino, hpm⟩ := hM.store ino' j h
      refine ⟨by simp; omega, (hg.like j hlt).inode.trans hino, ?_⟩
      rw [(hg.like j hlt).path, addChild_pathMapping, Function.update_of_ne (path_ne_of_pathMapping ha hpm hi'), hp]
      exact hpm
  · rw [addChild_pathMapping, hp] at h
    by_cases hpc : p = c.path
    · subst hpc
      rw [Function.update_self] at h
      cases h
      exact ⟨fs.nextNode, by simp, by rw [hnew]⟩
    · rw [Function.update_of_ne hpc] at h
      obtain ⟨j, hj, hjp⟩ := hM.paths p ino' h
      have hlt := (hM.store ino' j hj).1
      have hi' : ino' ≠ ino := fun he => hpc (hjp.symm.trans (path_of_store hM ha (he ▸ hj)))
      refine ⟨j, ?_, (hg.like j hlt).path.trans hjp⟩
      rw [addChild_inodes, Function.update_of_ne hi', hi]
      exact hj

end AddChild

/-- What the loop of `load_directory` over the directory `id`, at the names `ps`, keeps from round
to round. -/
structure Loading (layers : Nat → Layer) (root : Constituents) (id : Nat) (ps : List (List Char))
    (fs : OverlayFs) : Prop where
  mirrors : Mirrors layers root fs
  lt : id < fs.nextNode
  at_ : At layers root (fs.nodes id) ps
  loaded : (fs.nodes id).loaded = false

section LoadChildren

variable {layers : Nat → Layer} {root : Constituents} {id : Nat} {ps : List (List Char)}

/-- The loop of `load_directory` enters each child, unless the store runs out of numbers. -/
theorem loading_loadChildren :
    ∀ (cs : List OverlayInode) (fs : OverlayFs),
      (∀ c ∈ cs, At layers root c (ps ++ [c.name]) ∧ c.childrens = ∅ ∧ c.loaded = false) →
      Loading layers root id ps fs →
      Loading layers root id ps (run (loadChildren id cs) fs).2 ∧
        Grows layers root fs (run (loadChildren id cs) fs).2 ∧
        ((run (loadChildren id cs) fs).1 = .ok () →
          ∀ c ∈ cs, c.name ∈ ((run (loadChildren id cs) fs).2.nodes id).childrens) ∧
        ∀ e, (run (loadChildren id cs) fs).1 = .error e → e.rawOsError = none
  | [], fs, _, hL => by
    simp only [loadChildren, run_pure]
    exact ⟨hL, .refl fs, fun _ c hc => (nomatch hc), fun _ h => nomatch h⟩
  | c :: cs, fs, hcs, hL => by
    obtain ⟨hc, hce, hcl⟩ := hcs c List.mem_cons_self
    have hne : id ≠ fs.nextNode := hL.lt.ne
    rw [run_loadChildren_cons]
    rcases ha : fs.inodes.allocInode c.path with e | ⟨ino, s⟩
    · refine ⟨hL, .refl fs, fun h => (nomatch h), fun e' he => ?_⟩
      cases he
      exact InodeStore.allocInode_rawOsError ha
    · -- the round enters `c`; the rest of the loop runs from there
      have hL' : Loading layers root id ps (fs.addChild id c ino s) :=
        ⟨mirrors_addChild hL.mirrors hc ha hL.lt hL.at_ hL.loaded hce hcl,
          by rw [addChild_nextNode]; exact Nat.lt_succ_of_lt hL.lt,
          (grows_addChild hL.mirrors hc ha hL.lt).at_ hL.lt hL.at_,
          by rw [addChild_nodes_self hne]; exact hL.loaded⟩
      have hmem : c.name ∈ ((fs.addChild id c ino s).nodes id).childrens := by
        rw [addChild_nodes_self hne]
        exact (AList.mem_insert _).mpr (.inl rfl)
      obtain ⟨hL'', hg, hkeys, herr⟩ :=
        loading_loadChildren cs _ (fun c' hc' => hcs c' (List.mem_cons_of_mem _ hc')) hL'
      refine ⟨hL'', (grows_addChild hL.mirrors hc ha hL.lt).trans hg, fun hr c' hc' => ?_, herr⟩
      rcases List.mem_cons.mp hc' with rfl | hc'
      · exact hg.keys id hL'.lt _ hmem
      · exact hkeys hr c' hc'

end LoadChildren

section LoadDirectory

variable {layers : Nat → Layer} {root : Constituents} (hwf : ∀ i, (layers i).Wf)
  (hsf : ∀ i, (layers i).SlashFree)
include hwf hsf

/-- `load_directory` of a directory at the names `ps` keeps the overlay a mirror of the union;
unless the store runs out of numbers, the directory then holds every name of its merged
directory. -/
theorem loadDirectory_mirrors {fs : OverlayFs} (hM : Mirrors layers root fs) {id : Nat}
    {ps : List (List Char)} {ds : Constituents} (hid : id < fs.nextNode)
    (hat : At layers root (fs.nodes id) ps) (hdir : DirOf layers (fs.nodes id) ds) :
    Mirrors layers root (run (loadDirectory id) fs).2 ∧
      Grows layers root fs (run (loadDirectory id) fs).2 ∧
      ((run (loadDirectory id) fs).1 = .ok () →
        ((run (loadDirectory id) fs).2.nodes id).loaded = true) ∧
      ∀ e, (run (loadDirectory id) fs).1 = .error e → e.rawOsError = none := by
  have hl := hM.layers_eq
  subst hl
  simp only [loadDirectory, run_bind, run_getNode]
  by_cases hld : (fs.nodes id).loaded = true
  · rw [if_pos hld, run_pure]
    exact ⟨hM, .refl fs, fun _ => hld, fun _ h => nomatch h⟩
  rw [if_neg hld, run_bind]
  obtain ⟨cs, hrun, -, hmem, hcs⟩ := run_scanChildrens fs hwf (fs.nodes id) hdir.ne hdir.dirs
  rw [hrun]
  dsimp only
  rw [run_bind]
  obtain ⟨hL, hg, hkeys, herr⟩ := loading_loadChildren cs fs
    (at_of_scanned hwf hsf hat hdir hmem hcs) ⟨hM, hid, hat, by simpa using hld⟩
  rcases hr : run (loadChildren id cs) fs with ⟨e | u, fs'⟩
  · rw [hr] at hL hg herr
    exact ⟨hL.mirrors, hg, fun h => (nomatch h), herr⟩
  rw [hr] at hL hg hkeys
  dsimp only
  rw [run_modifyNode]
  -- the directory now holds every name of the merged directory
  have hall : ∀ s, encode s ∈ Union.names fs.layers ds → s ∈ (fs'.nodes id).childrens := by
    intro s hs
    have hthrough : ∀ ri ∈ throughOpaque (fs.nodes id).realInodes,
        ∃ d, Of fs.layers ri d ∧ isDir d.attr = true :=
      fun ri hri => hdir.dirs ri ((throughOpaque_sublist _).subset hri)
    rw [← hdir.constituents, ← pairs_throughOpaque _ hdir.dirs, mem_names_iff hwf hthrough] at hs
    obtain ⟨s', hs', hne⟩ := hs
    obtain rfl : s' = s := Function.LeftInverse.injective decodeLossy_encode hs'
    obtain ⟨c, hc, rfl⟩ := List.mem_map.mp ((hmem s').mpr hne)
    exact hkeys rfl c hc
  have hdir' : DirOf fs.layers (fs'.nodes id) ds :=
    hdir.congr (hg.like id hid).whiteout (hg.like id hid).realInodes
  refine ⟨hL.mirrors.update id ⟨rfl, rfl, rfl, rfl⟩ rfl fun _ _ ds' hd' s hs => ?_,
    hg.trans (grows_update fs' id ⟨rfl, rfl, rfl, rfl⟩ rfl), fun _ => by simp, fun _ h => nomatch h⟩
  rw [hd'.constituents_eq (hdir'.congr rfl rfl)] at hs
  exact hall s hs

end LoadDirectory

/-- `lookup_node` in one equation: the checks, the load of a directory not yet loaded, and the
lookup among its children. -/
theorem run_lookupNode (p : Nat) (name : List Char) (fs : OverlayFs) :
    run (lookupNode p name) fs =
      if name.contains '/' = true then (.error (.os einval), fs) else
      match fs.inodes.inodes p with
      | none => (.error (.os enoent), fs)
      | some pnode =>
        if (fs.nodes pnode).whiteout = true then (.error (.os enoent), fs) else
        match (run (fs.nodes pnode).stat64 fs).1 with
        | .error e => (.error e, fs)
        | .ok st =>
          match (if (isDir st && !(fs.nodes pnode).loaded) = true then run (loadDirectory pnode) fs
            else (.ok (), fs)) with
          | (.error e, fs') => (.error e, fs')
          | (.ok _, fs') =>
            if name = ['.'] ∨ p = rootId ∧ name = ['.', '.'] ∨ name = [] then (.ok pnode, fs')
            else match (fs'.nodes pnode).child name with
              | some v => (.ok v, fs')
              | none => (.error (.os enoent), fs') := by
  unfold lookupNode
  by_cases h1 : name.contains '/' = true
  · rw [if_pos h1, if_pos h1, run_bind, run_throw]
  rw [if_neg h1, if_neg h1]
  simp only [run_bind, run_get, getActiveInode, InodeStore.getInode, run_pure]
  rcases fs.inodes.inodes p with _ | pnode
  · rfl
  dsimp only
  rw [run_bind, run_getNode]
  dsimp only
  by_cases h2 : (fs.nodes pnode).whiteout = true
  · rw [if_pos h2, if_pos h2, run_bind, run_throw]
  rw [if_neg h2, if_neg h2, run_bind, ReadOnly.run_eq (OverlayInode.stat64_readOnly _)]
  rcases (run (fs.nodes pnode).stat64 fs).1 with e | st
  · rfl
  dsimp only
  -- the rest reads the children of the state the load left
  by_cases h3 : (isDir st && !(fs.nodes pnode).loaded) = true
  · rw [if_pos h3, if_pos h3, run_bind]
    rcases run (loadDirectory pnode) fs with ⟨e | u, fs'⟩
    · rfl
    · dsimp only
      split_ifs
      · rfl
      · rw [run_bind, run_getNode]
        dsimp only
        rcases (fs'.nodes pnode).child name with _ | v <;> rfl
  · rw [if_neg h3, if_neg h3]
    split_ifs
    · rfl
    · rw [run_bind, run_getNode]
      dsimp only
      rcases (fs.nodes pnode).child name with _ | v <;> rfl

/-- `do_lookup` in one equation: the node `lookup_node` returns, its attributes, the load of a
directory not yet loaded, and the lookup it takes. -/
theorem run_doLookup (parent : Nat) (name : List Char) (fs : OverlayFs) :
    run (doLookup parent name) fs =
      match run (lookupNode parent name) fs with
      | (.error e, fs₁) => (.error e, fs₁)
      | (.ok id, fs₁) =>
        if (fs₁.nodes id).whiteout = true then (.error (.os enoent), fs₁) else
        match (run (fs₁.nodes id).stat64 fs₁).1 with
        | .error e => (.error e, fs₁)
        | .ok st =>
          match (if (isDir st && !(fs₁.nodes id).loaded) = true then run (loadDirectory id) fs₁
            else (.ok (), fs₁)) with
          | (.error e, fs₂) => (.error e, fs₂)
          | (.ok _, fs₂) =>
            (.ok
              { inode := (fs₁.nodes id).inode, generation := 0, attr := st, attrFlags := 0,
                attrTimeout := fs₂.config.attrTimeout, entryTimeout := fs₂.config.entryTimeout },
              { fs₂ with
                nodes := Function.update fs₂.nodes id
                  { fs₂.nodes id with lookups := (fs₂.nodes id).lookups + 1 } }) := by
  unfold doLookup
  rw [run_bind]
  rcases run (lookupNode parent name) fs with ⟨e | id, fs₁⟩
  · rfl
  dsimp only
  rw [run_bind, run_getNode]
  dsimp only
  by_cases h1 : (fs₁.nodes id).whiteout = true
  · rw [if_pos h1, if_pos h1, run_bind, run_throw]
  rw [if_neg h1, if_neg h1, run_bind, ReadOnly.run_eq (OverlayInode.stat64_readOnly _)]
  rcases (run (fs₁.nodes id).stat64 fs₁).1 with e | st
  · rfl
  dsimp only
  by_cases h2 : (isDir st && !(fs₁.nodes id).loaded) = true
  · rw [if_pos h2, if_pos h2, run_bind]
    rcases run (loadDirectory id) fs₁ with ⟨e | u, fs₂⟩
    · rfl
    · simp only [run_bind, run_modifyNode, run_get, run_pure]
  · rw [if_neg h2, if_neg h2]
    simp only [run_bind, run_modifyNode, run_get, run_pure]

section Lookup

variable {layers : Nat → Layer} {root : Constituents} (hwf : ∀ i, (layers i).Wf)
  (hsf : ∀ i, (layers i).SlashFree)
include hwf hsf

/-- The load `lookup_node` makes of a directory it reads keeps the overlay a mirror, and leaves
the directory loaded unless the store runs out of numbers. -/
theorem mirrors_loadIfDir {fs : OverlayFs} (hM : Mirrors layers root fs) {pnode : Nat}
    (hlt : pnode < fs.nextNode) (hw : (fs.nodes pnode).whiteout = false) {st : Stat64}
    (hst : (run (fs.nodes pnode).stat64 fs).1 = .ok st) {r : Except IoError Unit × OverlayFs}
    (hr : (if (isDir st && !(fs.nodes pnode).loaded) = true then run (loadDirectory pnode) fs
      else (.ok (), fs)) = r) :
    Mirrors layers root r.2 ∧ Grows layers root fs r.2 ∧
      (r.1 = .ok () → isDir st = true → (r.2.nodes pnode).loaded = true) ∧
      ∀ e, r.1 = .error e → e.rawOsError = none := by
  subst hr
  obtain ⟨qs, hq⟩ := hM.nodes pnode hlt
  by_cases h : (isDir st && !(fs.nodes pnode).loaded) = true
  · rw [if_pos h]
    obtain ⟨hdir, -⟩ := Bool.and_eq_true_iff.mp h
    obtain ⟨ds, hds⟩ := hq.at_.dirOf_of_stat hw hM.layers_eq hst hdir
    obtain ⟨hM', hg, hld, herr⟩ := loadDirectory_mirrors hwf hsf hM hlt hq.at_ hds
    exact ⟨hM', hg, fun hok _ => hld hok, herr⟩
  · rw [if_neg h]
    refine ⟨hM, .refl fs, fun _ hdir => ?_, fun _ h => nomatch h⟩
    simpa [hdir] using h

/-- `lookup_node` keeps the overlay a mirror of the union, and returns a node it made. -/
theorem lookupNode_mirrors {fs : OverlayFs} (hM : Mirrors layers root fs) (p : Nat)
    (name : List Char) :
    Mirrors layers root (run (lookupNode p name) fs).2 ∧
      Grows layers root fs (run (lookupNode p name) fs).2 ∧
      ∀ v, (run (lookupNode p name) fs).1 = .ok v → v < (run (lookupNode p name) fs).2.nextNode := by
  rw [run_lookupNode]
  by_cases h1 : name.contains '/' = true
  · rw [if_pos h1]
    exact ⟨hM, .refl fs, fun _ h => nomatch h⟩
  rw [if_neg h1]
  rcases hp : fs.inodes.inodes p with _ | pnode
  · exact ⟨hM, .refl fs, fun _ h => nomatch h⟩
  have hlt := (hM.store p pnode hp).1
  dsimp only
  by_cases h2 : (fs.nodes pnode).whiteout = true
  · rw [if_pos h2]
    exact ⟨hM, .refl fs, fun _ h => nomatch h⟩
  rw [if_neg h2]
  rcases hst : (run (fs.nodes pnode).stat64 fs).1 with e | st
  · exact ⟨hM, .refl fs, fun _ h => nomatch h⟩
  dsimp only
  generalize hr : (if (isDir st && !(fs.nodes pnode).loaded) = true then run (loadDirectory pnode) fs
    else (.ok (), fs)) = r
  obtain ⟨hM', hg, -, -⟩ := mirrors_loadIfDir hwf hsf hM hlt (by simpa using h2) hst hr
  rcases r with ⟨e | u, fs'⟩
  · exact ⟨hM', hg, fun _ h => nomatch h⟩
  have hlt' : pnode < fs'.nextNode := lt_of_lt_of_le hlt hg.next_le
  dsimp only at hM' hg ⊢
  split_ifs
  · exact ⟨hM', hg, fun v hv => by cases hv; exact hlt'⟩
  rcases hc : (fs'.nodes pnode).child name with _ | v
  · exact ⟨hM', hg, fun _ h => nomatch h⟩
  -- a child of a node is a node made before
  obtain ⟨qs, hq⟩ := hM'.nodes pnode hlt'
  exact ⟨hM', hg, fun v' hv => by cases hv; exact (hq.children name v hc).1⟩

/-- `do_lookup` keeps the overlay a mirror of the union. -/
theorem doLookup_mirrors {fs : OverlayFs} (hM : Mirrors layers root fs) (p : Nat) (name : List Char) :
    Mirrors layers root (run (doLookup p name) fs).2 ∧ Grows layers root fs (run (doLookup p name) fs).2 := by
  obtain ⟨hM₁, hg₁, hlt⟩ := lookupNode_mirrors hwf hsf hM p name
  rw [run_doLookup]
  rcases hr : run (lookupNode p name) fs with ⟨e | id, fs₁⟩
  · rw [hr] at hM₁ hg₁
    exact ⟨hM₁, hg₁⟩
  rw [hr] at hM₁ hg₁ hlt
  dsimp only at hM₁ hg₁ hlt ⊢
  have hid : id < fs₁.nextNode := hlt id rfl
  by_cases hw : (fs₁.nodes id).whiteout = true
  · rw [if_pos hw]
    exact ⟨hM₁, hg₁⟩
  rw [if_neg hw]
  rcases hst : (run (fs₁.nodes id).stat64 fs₁).1 with e | st
  · exact ⟨hM₁, hg₁⟩
  dsimp only
  generalize hr' : (if (isDir st && !(fs₁.nodes id).loaded) = true then run (loadDirectory id) fs₁
    else (.ok (), fs₁)) = r
  obtain ⟨hM₂, hg₂, -, -⟩ := mirrors_loadIfDir hwf hsf hM₁ hid (by simpa using hw) hst hr'
  rcases r with ⟨e | u, fs₂⟩
  · exact ⟨hM₂, hg₁.trans hg₂⟩
  · exact ⟨hM₂.update_lookups id _, (hg₁.trans hg₂).trans (grows_update_lookups fs₂ id _)⟩

end Lookup


/-! ## Requests that only read -/

/-- `m` keeps the overlay a mirror of the union, and follows on from every state it started after,
whether it returns or fails. -/
def KeepsMirror (layers : Nat → Layer) (root : Constituents) {α : Type} (m : OvM α) : Prop :=
  ∀ fs₀, Triple (fun fs => Mirrors layers root fs ∧ Grows layers root fs₀ fs) m
    (fun _ fs => Mirrors layers root fs ∧ Grows layers root fs₀ fs)
    (fun _ fs => Mirrors layers root fs ∧ Grows layers root fs₀ fs)

namespace KeepsMirror

variable {layers : Nat → Layer} {root : Constituents} {α β : Type} {m : OvM α}

theorem of_run (h : ∀ fs, Mirrors layers root fs →
    Mirrors layers root (run m fs).2 ∧ Grows layers root fs (run m fs).2) : KeepsMirror layers root m := by
  intro fs₀ fs ⟨hM, hg⟩
  obtain ⟨hM', hg'⟩ := h fs hM
  exact (holds_const_iff (P := fun fs => Mirrors layers root fs ∧ Grows layers root fs₀ fs) _).mpr
    ⟨hM', hg.trans hg'⟩

theorem mirrors_run (h : KeepsMirror layers root m) {fs : OverlayFs} (hM : Mirrors layers root fs) :
    Mirrors layers root (run m fs).2 ∧ Grows layers root fs (run m fs).2 :=
  (holds_const_iff _).mp (h fs fs ⟨hM, .refl fs⟩)

theorem of_readOnly (hm : ReadOnly m) : KeepsMirror layers root m := fun _ => Triple.of_readOnly hm

theorem pure (a : α) : KeepsMirror layers root (Pure.pure a : OvM α) :=
  fun fs₀ => Triple.pure (Q := fun _ fs => Mirrors layers root fs ∧ Grows layers root fs₀ fs) a

theorem bind {f : α → OvM β} (hm : KeepsMirror layers root m) (hf : ∀ a, KeepsMirror layers root (f a)) :
    KeepsMirror layers root (m >>= f) :=
  fun fs₀ => Triple.bind (hm fs₀) fun a => hf a fs₀

theorem throw_bind {e : IoError} {f : α → OvM β} :
    KeepsMirror layers root (MonadExcept.throw e >>= f) :=
  fun _ => Triple.throw_bind fun _ h => h

end KeepsMirror

section Requests

variable {layers : Nat → Layer} {root : Constituents}

/-- The loop of `do_readdir`: `readdir` only reads, `readdirplus` takes lookups. -/
theorem readdirLoop_keeps {σ : Type} (isReaddirplus : Bool) (size : Nat)
    (addEntry : σ → DirEntryBytes → Option Entry → Except IoError Nat × σ) (index len : Nat)
    (es : List (List Char × Nat)) (out : σ) :
    KeepsMirror layers root (readdirLoop isReaddirplus size addEntry index len es out) := by
  cases isReaddirplus with
  | false => exact .of_readOnly (readdirLoop_readOnly size addEntry index len es out)
  | true =>
    refine .of_run fun fs hM => ?_
    obtain ⟨k, -, h⟩ := readdirLoop_plus_run size addEntry index len es out fs
    rw [h]
    exact hM.bumpLookups _

theorem findRealInode_readOnly (inode : Nat) : ReadOnly (findRealInode inode) := by
  unfold findRealInode
  apply ReadOnly.bind (getActiveInode_readOnly inode)
  intro o
  cases o with
  | some n =>
    apply ReadOnly.bind (getNode_readOnly n)
    intro node
    exact ReadOnly.bind (OverlayInode.firstLayerInode_readOnly node) fun _ => ReadOnly.pure _
  | none => exact ReadOnly.throw _

variable (hwf : ∀ i, (layers i).Wf) (hsf : ∀ i, (layers i).SlashFree)
include hwf hsf

theorem lookupNode_keeps (p : Nat) (name : List Char) : KeepsMirror layers root (lookupNode p name) :=
  .of_run fun _ hM => ⟨(lookupNode_mirrors hwf hsf hM p name).1, (lookupNode_mirrors hwf hsf hM p name).2.1⟩

theorem lookup_keeps (p : Nat) (name : List UInt8) : KeepsMirror layers root (lookup p name) :=
  .of_run fun _ hM => doLookup_mirrors hwf hsf hM p _

theorem getattr_keeps (inode : Nat) : KeepsMirror layers root (getattr inode) := by
  unfold getattr
  refine .bind (lookupNode_keeps hwf hsf _ _) fun node => .of_readOnly ?_
  refine ReadOnly.bind (getNode_readOnly node) fun n => ?_
  refine ReadOnly.bind (OverlayInode.firstLayerInode_readOnly n) fun x => ?_
  obtain ⟨layer, _, ino⟩ := x
  refine ReadOnly.bind (getLayer_readOnly layer) fun _ => ?_
  refine ReadOnly.bind (liftE_readOnly _) fun _ => ?_
  exact ReadOnly.bind ReadOnly.get fun _ => ReadOnly.pure _

theorem readlink_keeps (inode : Nat) : KeepsMirror layers root (readlink inode) := by
  unfold readlink
  refine .bind (lookupNode_keeps hwf hsf _ _) fun node => .of_readOnly ?_
  refine ReadOnly.bind (getNode_readOnly node) fun n => ?_
  split
  · exact fun _ => rfl
  · refine ReadOnly.bind (getNode_readOnly node) fun n' => ?_
    refine ReadOnly.bind (OverlayInode.firstLayerInode_readOnly n') fun x => ?_
    obtain ⟨layer, _, ino⟩ := x
    exact ReadOnly.bind (getLayer_readOnly layer) fun _ => liftE_readOnly _

theorem getxattr_keeps (inode : Nat) (name : List UInt8) (size : Nat) :
    KeepsMirror layers root (getxattr inode name size) := by
  unfold getxattr
  refine .bind (lookupNode_keeps hwf hsf _ _) fun node => .of_readOnly ?_
  refine ReadOnly.bind (getNode_readOnly node) fun n => ?_
  split
  · exact fun _ => rfl
  · refine ReadOnly.bind (findRealInode_readOnly inode) fun x => ?_
    obtain ⟨layer, ino⟩ := x
    exact ReadOnly.bind (getLayer_readOnly layer) fun _ => liftE_readOnly _

theorem doReaddir_keeps {σ : Type} (inode size offset : Nat) (isReaddirplus : Bool)
    (addEntry : σ → DirEntryBytes → Option Entry → Except IoError Nat × σ) (out : σ) :
    KeepsMirror layers root (doReaddir inode size offset isReaddirplus addEntry out) := by
  unfold doReaddir
  split
  · exact .pure _
  refine .bind (lookupNode_keeps hwf hsf inode _) fun ovlInode => ?_
  refine .bind (.of_readOnly (getNode_readOnly ovlInode)) fun node => ?_
  refine .bind (.of_readOnly (OverlayInode.stat64_readOnly node)) fun st => ?_
  extract_lets jp rest
  have hjp : ∀ parentNode, KeepsMirror layers root (jp parentNode) := by
    intro parentNode
    refine .bind (.of_readOnly ReadOnly.get) fun _ => ?_
    dsimp only
    split
    · exact .pure _
    · exact readdirLoop_keeps _ _ _ _ _ _ _
  split
  · exact .throw_bind
  · -- `..` is the parent, or else the root
    dsimp only [rest]
    split
    · rw [LawfulMonad.pure_bind]
      exact hjp _
    · exact .bind (.of_readOnly rootNode_readOnly) hjp

theorem readdir_keeps {σ : Type} (inode size offset : Nat)
    (addEntry : σ → DirEntryBytes → Except IoError Nat × σ) (out : σ) :
    KeepsMirror layers root (readdir inode size offset addEntry out) := by
  unfold readdir
  refine .bind (.of_readOnly ReadOnly.get) fun _ => ?_
  split
  · exact .pure _
  · exact doReaddir_keeps hwf hsf _ _ _ _ _ _

theorem readdirplus_keeps {σ : Type} (inode size offset : Nat)
    (addEntry : σ → DirEntryBytes → Entry → Except IoError Nat × σ) (out : σ) :
    KeepsMirror layers root (readdirplus inode size offset addEntry out) := by
  unfold readdirplus
  refine .bind (.of_readOnly ReadOnly.get) fun _ => ?_
  split
  · exact .pure _
  · exact doReaddir_keeps hwf hsf _ _ _ _ _ _

end Requests


end OverlayFs

/-! ## Mounting -/

/-- A layer whose root is a directory, numbered other than 0. -/
def Layer.RootDir (l : Layer) : Prop :=
  l.rootInode ≠ 0 ∧ ∃ d, l.nodes l.rootInode = some d ∧ isDir d.attr = true

theorem oneFile_rootDir (c : Char) : (oneFile c).RootDir :=
  ⟨by simp [oneFile, layerOf], _, rfl, by simp only [dirNode]; decide⟩

/-- A layer holding `a` over a layer holding `b`. -/
def twoFiles : Nat → Layer := fun i => if i = 0 then oneFile 'a' else oneFile 'b'

theorem twoFiles_wf (i : Nat) : (twoFiles i).Wf := by
  by_cases h : i = 0
  · simp only [twoFiles, h, if_true]
    exact oneFile_wf (by decide) (by decide)
  · simp only [twoFiles, h, if_false]
    exact oneFile_wf (by decide) (by decide)

theorem twoFiles_slashFree (i : Nat) : (twoFiles i).SlashFree := by
  by_cases h : i = 0
  · simp only [twoFiles, h, if_true]
    exact oneFile_slashFree (by decide)
  · simp only [twoFiles, h, if_false]
    exact oneFile_slashFree (by decide)

theorem twoFiles_rootDir : ∀ i ∈ (some 0).toList ++ [1], (twoFiles i).RootDir := by
  intro i hi
  simp only [Option.toList_some, List.singleton_append, List.mem_cons, List.not_mem_nil,
    or_false] at hi
  rcases hi with rfl | rfl
  · exact oneFile_rootDir 'a'
  · exact oneFile_rootDir 'b'

/-- The real inode `import` makes of a directory `ino` of the layer `i`. -/
theorem run_new_of_dir (fs : OverlayFs) {i ino : Nat} {d : LayerNode}
    (hd : (fs.layers i).nodes ino = some d) (hino : ino ≠ 0) (up op : Bool) :
    run (RealInode.new i up ino false op) fs =
      (.ok
        { layer := i, inUpperLayer := up, inode := ino, whiteout := false, opaqueDir := op,
          stat := some d.attr }, fs) := by
  simp [RealInode.new, run_tryCatch, RealInode.stat64IgnoreEnoent, run_map, RealInode.run_stat64,
    hino, Layer.getattr_of_node hd]

theorem RealInode.of_root {layers : Nat → Layer} {i ino : Nat} {d : LayerNode}
    (hd : (layers i).nodes ino = some d) (hino : ino ≠ 0) (hdir : isDir d.attr = true) (up : Bool) :
    Of layers
      { layer := i, inUpperLayer := up, inode := ino, whiteout := false,
        opaqueDir := d.isOpaqueDir, stat := some d.attr } d where
  node := hd
  inode_ne := hino
  whiteout := by simp [hdir]
  opaqueDir := by simp [hdir]
  stat _ h := (Option.some.inj h).symm

section Import

open OverlayFs

variable {layers : Nat → Layer} (hwf : ∀ i, (layers i).Wf) (hsf : ∀ i, (layers i).SlashFree)
  {upper : Option Nat} {lowers : List Nat}
include hwf hsf

/-- What `import` makes of a layer: the real inode of its root. -/
def RootOf (layers : Nat → Layer) (i : Nat) (ri : RealInode) : Prop :=
  ri.layer = i ∧ ri.inode = (layers i).rootInode ∧ ∃ d, Of layers ri d ∧ isDir d.attr = true

omit hsf in
/-- The root inode `import` makes of each layer. -/
theorem run_rootOf (fs : OverlayFs) (hl : fs.layers = layers) {i : Nat} (hi : (layers i).RootDir)
    (up : Bool) : ∃ ri, run (liftE ((fs.layers i).isOpaque (fs.layers i).rootInode) >>= fun op =>
      RealInode.new i up (fs.layers i).rootInode false op) fs = (.ok ri, fs) ∧ RootOf layers i ri := by
  subst hl
  obtain ⟨hino, d, hd, hdir⟩ := hi
  refine ⟨_, ?_, rfl, rfl, d, RealInode.of_root hd hino hdir up, hdir⟩
  rw [run_bind, run_liftE, Layer.isOpaque_of_wf (hwf i) hd hdir]
  exact run_new_of_dir fs hd hino up _

omit hwf hsf in
/-- The overlay whose one node is the root directory, not yet loaded and known to the store as the
root, mirrors the union. -/
theorem mirrors_root_alone {root : Constituents} (fs : OverlayFs) (hl : fs.layers = layers)
    (hn : fs.nextNode = 0) (hi : fs.inodes = {}) {nd : OverlayInode} (hat : At layers root nd []) (hino : nd.inode = rootId)
    (hch : nd.childrens = ∅) (hld : nd.loaded = false) :
    Mirrors layers root
      { fs with
        nodes := Function.update fs.nodes fs.nextNode nd
        nextNode := fs.nextNode + 1
        inodes := fs.inodes.insertInode rootId fs.nextNode
          (Function.update fs.nodes fs.nextNode nd fs.nextNode) } := by
  have hpath : nd.path = [] := hat.path_eq
  refine ⟨hl, fun j hj => ⟨[], ?_⟩, fun ino j h => ?_, fun path ino h => ?_, fun ino => ?_⟩
  · -- the only node is the root, with no children yet
    have hj' : j < fs.nextNode + 1 := hj
    obtain rfl : j = fs.nextNode := by omega
    simp only [Function.update_self]
    exact ⟨hat, fun s c h => by simp [hch] at h, fun h => by simp [hld] at h⟩
  · simp only [InodeStore.insertInode, hi, Function.update_apply] at h
    split_ifs at h with hr
    cases h
    subst hr
    simp [InodeStore.insertInode, hino, hpath]
  · simp only [InodeStore.insertInode, hi, Function.update_self, Function.update_apply] at h
    split_ifs at h with hp
    cases h
    subst hp
    exact ⟨fs.nextNode, by simp [InodeStore.insertInode], by simp [hpath]⟩
  · simp [InodeStore.insertInode, hi]

/-- The part of `import` after the upper layer's root: the lower layers' roots, the root node
with them all, and the load of the root directory. -/
theorem import_tail (fs : OverlayFs) (hl : fs.layers = layers) (hn : fs.nextNode = 0)
    (hi : fs.inodes = {}) (g : Nat → OvM RealInode)
    (hg : ∀ i ∈ lowers, ∃ ri, run (g i) fs = (.ok ri, fs) ∧ RootOf layers i ri)
    (ups : List RealInode) (hups : List.Forall₂ (RootOf layers) upper.toList ups)
    (hne : upper.toList ++ lowers ≠ []) :
    let r := run (lowers.mapM g >>= fun lws =>
      newNode
        { inode := rootId, path := [], name := [], lookups := 2, realInodes := ups ++ lws } >>=
        fun rootNode => insertInode rootId rootNode >>= fun _ => loadDirectory rootNode) fs
    Mirrors layers (Union.root layers upper lowers) r.2 ∧
      ∃ pid, r.2.inodes.inodes rootId = some pid ∧
        At layers (Union.root layers upper lowers) (r.2.nodes pid) [] := by
  intro r
  obtain ⟨lws, hrun, hlws⟩ := run_mapM_of_forall lowers hg
  have hall : List.Forall₂ (RootOf layers) (upper.toList ++ lowers) (ups ++ lws) :=
    List.rel_append hups hlws
  -- the root node is a directory of the union's root
  have hdir : DirOf layers
      { inode := rootId, path := [], name := [], lookups := 2, realInodes := ups ++ lws }
      (Union.root layers upper lowers) := by
    refine ⟨rfl, fun h => hne ?_, fun ri hri => ?_, ?_⟩
    · have h' : ups ++ lws = [] := h
      rw [h'] at hall
      exact List.forall₂_nil_right_iff.mp hall
    · obtain ⟨i, -, -, -, hof⟩ := exists_mem_of_forall₂ hall hri
      exact hof
    · have hpairs : pairs (ups ++ lws) = (upper.toList ++ lowers).map fun i => (i, (layers i).rootInode) :=
        map_eq_of_forall₂ (hall.imp fun i ri h => by rw [h.1, h.2.1])
      rw [hpairs]
      rfl
  simp only [r]
  rw [run_bind, hrun]
  dsimp only
  rw [run_bind, run_newNode]
  dsimp only
  rw [run_bind, insertInode, run_modify]
  dsimp only
  generalize hnode :
    ({ inode := rootId, path := [], name := [], lookups := 2, realInodes := ups ++ lws } :
      OverlayInode) = nd at hdir
  -- the state with the root node alone, known to the store as the root
  have hat : At layers (Union.root layers upper lowers) nd [] := .root (by rw [← hnode]) hdir
  set fs₁ : OverlayFs :=
    { fs with
      nodes := Function.update fs.nodes fs.nextNode nd
      nextNode := fs.nextNode + 1
      inodes := fs.inodes.insertInode rootId fs.nextNode
        (Function.update fs.nodes fs.nextNode nd fs.nextNode) }
  have hnd : fs₁.nodes fs.nextNode = nd := by simp [fs₁]
  have hM : Mirrors layers (Union.root layers upper lowers) fs₁ :=
    mirrors_root_alone fs hl hn hi hat (by rw [← hnode]) (by rw [← hnode]) (by rw [← hnode])
  obtain ⟨hM', hg, -, -⟩ := loadDirectory_mirrors hwf hsf hM (show fs.nextNode < fs₁.nextNode by simp [fs₁])
    (by rw [hnd]; exact hat) (by rw [hnd]; exact hdir)
  exact ⟨hM', hg.store rootId fs.nextNode [] (by simp [fs₁, InodeStore.insertInode])
    (by rw [hnd]; exact hat)⟩

/-- `import` makes the root node of the union's root directory, known to the store as the root,
and loads it; the overlay it leaves mirrors the union. -/
theorem import_mirrors (hroot : ∀ i ∈ upper.toList ++ lowers, (layers i).RootDir)
    (hne : upper.toList ++ lowers ≠ []) (params : Config) :
    Mirrors layers (Union.root layers upper lowers) (run import_ (new layers upper lowers params)).2 ∧
      ∃ pid, (run import_ (new layers upper lowers params)).2.inodes.inodes rootId = some pid ∧
        At layers (Union.root layers upper lowers)
          ((run import_ (new layers upper lowers params)).2.nodes pid) [] := by
  have hlow := fun i hi => run_rootOf hwf (new layers upper lowers params) rfl
    (hroot i (List.mem_append_right _ hi)) false
  unfold import_
  simp only [run_bind, run_get]
  cases upper with
  | none =>
    dsimp only [OverlayFs.new]
    rw [run_bind, run_pure]
    exact import_tail hwf hsf _ rfl rfl rfl _ hlow [] .nil hne
  | some u =>
    -- the upper layer's root comes first
    obtain ⟨hino, d, hd, hdir⟩ := hroot u (by simp)
    dsimp only [OverlayFs.new]
    rw [run_bind, run_liftE, Layer.isOpaque_of_wf (hwf u) hd hdir]
    dsimp only
    rw [run_bind, run_new_of_dir _ hd hino]
    dsimp only
    rw [run_bind, run_pure]
    exact import_tail hwf hsf _ rfl rfl rfl _ hlow _
      (.cons ⟨rfl, rfl, d, RealInode.of_root hd hino hdir true, hdir⟩ .nil) hne

end Import

/-! ## Runs of requests that only read -/

/-- The requests of `sync_io.rs` that only read the layers and the overlay's view of them:
`lookup`, `getattr`, `readlink`, `getxattr`, `readdir` and `readdirplus`. -/
inductive ReadRequest : {α : Type} → OvM α → Prop
  | lookup (parent : Nat) (name : List UInt8) : ReadRequest (OverlayFs.lookup parent name)
  | getattr (inode : Nat) : ReadRequest (OverlayFs.getattr inode)
  | readlink (inode : Nat) : ReadRequest (OverlayFs.readlink inode)
  | getxattr (inode : Nat) (name : List UInt8) (size : Nat) :
      ReadRequest (OverlayFs.getxattr inode name size)
  | readdir {σ : Type} (inode size offset : Nat)
      (addEntry : σ → DirEntryBytes → Except IoError Nat × σ) (out : σ) :
      ReadRequest (OverlayFs.readdir inode size offset addEntry out)
  | readdirplus {σ : Type} (inode size offset : Nat)
      (addEntry : σ → DirEntryBytes → Entry → Except IoError Nat × σ) (out : σ) :
      ReadRequest (OverlayFs.readdirplus inode size offset addEntry out)

/-- The states an overlay reaches from `fs` by serving requests that only read, each of which may
fail. -/
inductive Browsed (fs : OverlayFs) : OverlayFs → Prop
  | start : Browsed fs fs
  | serve {fs' : OverlayFs} {α : Type} {m : OvM α} : Browsed fs fs' → ReadRequest m →
      Browsed fs (run m fs').2

section Browse

open OverlayFs

variable {layers : Nat → Layer} {root : Constituents} (hwf : ∀ i, (layers i).Wf)
  (hsf : ∀ i, (layers i).SlashFree)
include hwf hsf

theorem ReadRequest.keeps {α : Type} {m : OvM α} (h : ReadRequest m) : KeepsMirror layers root m := by
  cases h with
  | lookup parent name => exact lookup_keeps hwf hsf parent name
  | getattr inode => exact getattr_keeps hwf hsf inode
  | readlink inode => exact readlink_keeps hwf hsf inode
  | getxattr inode name size => exact getxattr_keeps hwf hsf inode name size
  | readdir inode size offset addEntry out => exact readdir_keeps hwf hsf inode size offset addEntry out
  | readdirplus inode size offset addEntry out =>
    exact readdirplus_keeps hwf hsf inode size offset addEntry out

/-- Serving requests that only read keeps the overlay a mirror of the union, each state following
on from the one before. -/
theorem Browsed.mirrors {fs fs' : OverlayFs} (h : Browsed fs fs') (hM : Mirrors layers root fs) :
    Mirrors layers root fs' ∧ Grows layers root fs fs' := by
  induction h with
  | start => exact ⟨hM, .refl fs⟩
  | serve _ hm ih =>
    obtain ⟨hM', hg'⟩ := (hm.keeps hwf hsf).mirrors_run ih.1
    exact ⟨hM', ih.2.trans hg'⟩

/-- Every state an overlay reaches after `import` by requests that only read mirrors the union
of its layers: each node it made sits at some names of the union, loaded directories hold the
union's merged directories, every number the store hands out leads to a node at the names it was
handed out for, and the root's number leads to the root directory. -/
theorem reads_mirror_union {upper : Option Nat} {lowers : List Nat}
    (hroot : ∀ i ∈ upper.toList ++ lowers, (layers i).RootDir) (hne : upper.toList ++ lowers ≠ [])
    (params : Config) {fs : OverlayFs} (h : Browsed (run import_ (new layers upper lowers params)).2 fs) :
    Mirrors layers (Union.root layers upper lowers) fs ∧
      ∃ pid, fs.inodes.inodes rootId = some pid ∧
        At layers (Union.root layers upper lowers) (fs.nodes pid) [] := by
  obtain ⟨hM₀, pid, hp, hat⟩ := import_mirrors hwf hsf hroot hne params
  obtain ⟨hM, hg⟩ := h.mirrors hwf hsf hM₀
  exact ⟨hM, hg.store rootId pid [] hp hat⟩

omit hwf hsf in
/-- The stack of a layer holding `a` over a layer holding `b`, after a lookup of `a`. -/
theorem twoFiles_after_lookup_mirror_union :
    Mirrors twoFiles (Union.root twoFiles (some 0) [1])
        (run (lookup rootId (encode ['a'])) (run import_ (new twoFiles (some 0) [1] {})).2).2 ∧
      ∃ pid, (run (lookup rootId (encode ['a']))
          (run import_ (new twoFiles (some 0) [1] {})).2).2.inodes.inodes rootId = some pid ∧
        At twoFiles (Union.root twoFiles (some 0) [1])
          ((run (lookup rootId (encode ['a'])) (run import_ (new twoFiles (some 0) [1] {})).2).2.nodes pid)
          [] :=
  reads_mirror_union twoFiles_wf twoFiles_slashFree twoFiles_rootDir (by simp) {}
    (.serve .start (.lookup rootId (encode ['a'])))

end Browse

/-! ## What a lookup answers -/

section LookupAnswers

open OverlayFs

variable {layers : Nat → Layer} {root : Constituents} (hwf : ∀ i, (layers i).Wf)
  (hsf : ∀ i, (layers i).SlashFree)
include hwf hsf

end LookupAnswers

end FuseBackend.Overlay
