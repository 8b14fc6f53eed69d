import FuseBackend.Overlay.Run
import FuseBackend.Overlay.Union
import FuseBackend.Lib.AList

/-!
# Merged directories are the union of their layers

`scan_childrens` builds the children of a merged directory from the directories of its layers:
`readdir` of each layer's directory, through the first opaque one, merged name by name upper
first (`merge_layers`), and each name's inodes made into one node (`new_from_real_inodes`). This
module proves that what it builds is the union `Union` specifies (`scanChildrens_union`): one
child for each name any of the directories holds, visible exactly when `Union.child` finds a node
under the name, and, when that node is a directory, made of the directories `Union.child` lists.

That holds of layers the overlay can read as the union reads them (`Layer.Wf`): their entries
name nodes that exist by the UTF-8 of names a C string can carry, and their opaque attributes fit
the 16 bytes `is_opaque` reads and are not `Y`, which `is_opaque` takes for `y`.
-/

namespace FuseBackend.Overlay

open Api Utf8 ExceptState

/-! ## Layers the overlay reads as the union does -/

/-- The three attributes that make a directory opaque, in the order `is_opaque` reads them. -/
def opaqueXattrs : List (List Char) := [opaqueXattr, privilegedOpaqueXattr, unprivilegedOpaqueXattr]

/-- A layer whose entries name existing nodes, by nonzero numbers and by the UTF-8 of names that
hold no NUL and are not `.` or `..`, and whose opaque attributes hold at most 16 bytes, never the
one byte `Y`. -/
structure Layer.Wf (l : Layer) : Prop where
  entry : ∀ {d : Nat} {n : LayerNode} {name : List UInt8} {ino : Nat},
    l.nodes d = some n → n.entries.lookup name = some ino → ino ≠ 0 ∧ (l.nodes ino).isSome
  name : ∀ {d : Nat} {n : LayerNode} {name : List UInt8} {ino : Nat},
    l.nodes d = some n → n.entries.lookup name = some ino →
      ∃ cs, encode cs = name ∧ '\x00' ∉ cs ∧ cs ≠ ['.'] ∧ cs ≠ ['.', '.']
  opaqueAttr : ∀ {ino : Nat} {n : LayerNode} {x : List Char} {v : List UInt8},
    l.nodes ino = some n → x ∈ opaqueXattrs → n.xattrs.lookup (encode x) = some v →
      v.length ≤ opaqueXattrLen ∧ v ≠ [89]

theorem isWhiteout_of_isDir {st : Stat64} (h : isDir st = true) : isWhiteout st = false := by
  simp only [isDir, beq_iff_eq] at h
  simp [isWhiteout, isChardev, h, sIfdir, sIfchr]

/-- Lowercasing reads a byte other than `Y` as `y` only if it is `y`. -/
theorem toAsciiLowercase_beq_y {b : UInt8} (hb : b ≠ 89) : (toAsciiLowercase b == 121) = (b == 121) := by
  have hb' : b.toNat ≠ 89 := fun h => hb (UInt8.toNat_inj.mp h)
  unfold toAsciiLowercase
  split
  · simp only [beq_eq_beq, ← UInt8.toNat_inj, UInt8.toNat_add]
    simp
    omega
  · rfl

namespace Layer

variable {l : Layer} {ino : Nat} {n : LayerNode}

theorem getattr_of_node (hn : l.nodes ino = some n) : l.getattr ino = .ok n.attr := by
  simp [getattr, node, hn]

theorem readdir_of_dir (hn : l.nodes ino = some n) (hdir : isDir n.attr = true) :
    l.readdir ino = .ok n.entries.keys := by
  simp [readdir, node, hn, hdir, bind, Except.bind, pure, Except.pure]

theorem lookup_of_entry {d : Nat} {name : List UInt8} {m : LayerNode} (hd : l.nodes d = some n)
    (hdir : isDir n.attr = true) (he : n.entries.lookup name = some ino)
    (hm : l.nodes ino = some m) : l.lookup d name = .ok (entryOf ino m) := by
  simp [lookup, node, hd, hdir, he, hm, bind, Except.bind, pure, Except.pure]

theorem lookup_of_missing {d : Nat} {name : List UInt8} (hd : l.nodes d = some n)
    (hdir : isDir n.attr = true) (he : n.entries.lookup name = none) :
    l.lookup d name = .error (.os enoent) := by
  simp [lookup, node, hd, hdir, he, bind, Except.bind, throw, throwThe, MonadExceptOf.throw]

theorem isWhiteout_of_node (hn : l.nodes ino = some n) :
    l.isWhiteout ino = .ok (Overlay.isWhiteout n.attr) := by
  simp [isWhiteout, getattr_of_node hn, bind, Except.bind, pure, Except.pure]

/-- `check_attr` reads an opaque attribute as the union does: set when it holds `y`. -/
theorem checkAttr_of_wf (hl : l.Wf) (hn : l.nodes ino = some n) {x : List Char}
    (hx : x ∈ opaqueXattrs) :
    l.checkAttr ino x opaqueXattrLen = .ok (n.xattrs.lookup (encode x) == some (encode ['y'])) := by
  unfold checkAttr
  rcases hv : n.xattrs.lookup (encode x) with _ | v
  · simp [getxattr, node, hn, hv, bind, Except.bind, throw, throwThe, MonadExceptOf.throw,
      IoError.rawOsError]
  · obtain ⟨hlen, hY⟩ := hl.opaqueAttr hn hx hv
    have hget : l.getxattr ino (encode x) opaqueXattrLen = .ok (.value v) := by
      have hsize : ¬16 < v.length := by rw [opaqueXattrLen] at hlen; omega
      simp [getxattr, node, hn, hv, bind, Except.bind, pure, Except.pure, hsize, opaqueXattrLen]
    have hy : encode ['y'] = [121] := rfl
    rw [hget, hy]
    -- only a one-byte value can be `y`; the byte `Y` is left out by `Wf`
    rcases v with _ | ⟨b, _ | ⟨c, v⟩⟩
    · rfl
    · have hb : b ≠ 89 := fun h => hY (h ▸ rfl)
      simp [toAsciiLowercase_beq_y hb]
    · simp

/-- `is_opaque` of a directory of a well-formed layer is `isOpaqueDir`. -/
theorem isOpaque_of_wf (hl : l.Wf) (hn : l.nodes ino = some n) (hdir : isDir n.attr = true) :
    l.isOpaque ino = .ok n.isOpaqueDir := by
  have hc : ∀ x ∈ opaqueXattrs, l.checkAttr ino x opaqueXattrLen = _ :=
    fun x hx => checkAttr_of_wf hl hn hx
  simp only [opaqueXattrs, List.mem_cons, List.not_mem_nil, or_false, forall_eq_or_imp,
    forall_eq] at hc
  obtain ⟨h1, h2, h3⟩ := hc
  simp only [isOpaque, getattr_of_node hn, hdir, h1, h2, h3, LayerNode.isOpaqueDir, bind,
    Except.bind, pure, Except.pure, Bool.not_true, Bool.false_eq_true, if_false, List.any_cons,
    List.any_nil, Bool.or_false]
  cases (n.xattrs.lookup (encode opaqueXattr) == some (encode ['y'])) <;>
    cases (n.xattrs.lookup (encode privilegedOpaqueXattr) == some (encode ['y'])) <;>
    cases (n.xattrs.lookup (encode unprivilegedOpaqueXattr) == some (encode ['y'])) <;> rfl

end Layer

/-- A layer whose root holds one file is well formed, if the file's name is a C string other than
`.` and `..`. -/
theorem oneFile_wf {c : Char} (h0 : c ≠ '\x00') (hd : c ≠ '.') : (oneFile c).Wf where
  entry := by
    intro d n name ino hd he
    rcases d with _ | _ | _ | d <;> simp only [oneFile, layerOf] at hd <;> simp at hd <;> subst hd
    · obtain ⟨-, rfl⟩ := lookup_dirNode_single he
      simp [oneFile, layerOf]
    · simp [fileNode] at he
  name := by
    intro d n name ino hd he
    rcases d with _ | _ | _ | d <;> simp only [oneFile, layerOf] at hd <;> simp at hd <;> subst hd
    · obtain ⟨rfl, -⟩ := lookup_dirNode_single he
      exact ⟨[c], by simp [encode], by simpa using Ne.symm h0, by simpa using hd, by simp⟩
    · simp [fileNode] at he
  opaqueAttr := by
    intro ino n x v hn hx hv
    rcases ino with _ | _ | _ | ino <;> simp [oneFile, layerOf] at hn <;> subst hn
    · simp [dirNode] at hv
    · simp [fileNode] at hv

theorem toCstring_of_not_mem {s : List Char} (hs : '\x00' ∉ s) : toCstring s = .ok (encode s) := by
  simp [toCstring, hs]

/-! ## Real inodes standing for nodes of their layers -/

namespace RealInode

/-- The real inode `ri` stands for the node `n` of its layer, flagged as `lookup_child` flags it:
a whiteout is a non-directory whiteout node, an opaque directory a directory with `y` in an opaque
attribute. -/
structure Of (layers : Nat → Layer) (ri : RealInode) (n : LayerNode) : Prop where
  node : (layers ri.layer).nodes ri.inode = some n
  inode_ne : ri.inode ≠ 0
  whiteout : ri.whiteout = (!isDir n.attr && isWhiteout n.attr)
  opaqueDir : ri.opaqueDir = (isDir n.attr && n.isOpaqueDir)
  stat : ∀ st ∈ ri.stat, st = n.attr

/-- The real inode `lookup_child` makes of the node `m`, numbered `ino`, in the directory `ri`. -/
def childOf (ri : RealInode) (ino : Nat) (m : LayerNode) : RealInode :=
  { layer := ri.layer, inUpperLayer := ri.inUpperLayer, inode := ino,
    whiteout := !isDir m.attr && isWhiteout m.attr, opaqueDir := isDir m.attr && m.isOpaqueDir,
    stat := some m.attr }

/-- What `lookup_child` finds under `name` in the directory `ri`. -/
def childAt (layers : Nat → Layer) (ri : RealInode) (name : List Char) : Option RealInode :=
  ((layers ri.layer).child ri.inode (encode name)).map fun p => ri.childOf p.1 p.2

@[simp] theorem childOf_layer (ri : RealInode) (ino : Nat) (m : LayerNode) :
    (ri.childOf ino m).layer = ri.layer := rfl
@[simp] theorem childOf_inode (ri : RealInode) (ino : Nat) (m : LayerNode) :
    (ri.childOf ino m).inode = ino := rfl
@[simp] theorem childOf_whiteout (ri : RealInode) (ino : Nat) (m : LayerNode) :
    (ri.childOf ino m).whiteout = (!isDir m.attr && isWhiteout m.attr) := rfl
@[simp] theorem childOf_opaqueDir (ri : RealInode) (ino : Nat) (m : LayerNode) :
    (ri.childOf ino m).opaqueDir = (isDir m.attr && m.isOpaqueDir) := rfl
@[simp] theorem childOf_stat (ri : RealInode) (ino : Nat) (m : LayerNode) :
    (ri.childOf ino m).stat = some m.attr := rfl

variable {layers : Nat → Layer} {ri : RealInode} {d : LayerNode}

theorem Of.whiteout_false (h : Of layers ri d) (hdir : isDir d.attr = true) : ri.whiteout = false := by
  simp [h.whiteout, hdir]

theorem Of.opaqueDir_eq (h : Of layers ri d) (hdir : isDir d.attr = true) :
    ri.opaqueDir = d.isOpaqueDir := by
  simp [h.opaqueDir, hdir]

theorem childOf_of {ino : Nat} {m : LayerNode} (hm : (layers ri.layer).nodes ino = some m)
    (hino : ino ≠ 0) : Of layers (ri.childOf ino m) m :=
  ⟨hm, hino, rfl, rfl, fun _ h => (Option.mem_some_iff.mp h).symm⟩

theorem child_of_dir {name : List UInt8} (h : Of layers ri d) :
    (layers ri.layer).child ri.inode name =
      (d.entries.lookup name).bind fun ino => ((layers ri.layer).nodes ino).map (ino, ·) := by
  simp only [Layer.child, h.node, Option.bind_eq_bind, Option.bind_some, Option.pure_def,
    Option.map_eq_bind]
  rfl

theorem run_cachedStat (fs : OverlayFs) (h : Of fs.layers ri d) :
    run ri.cachedStat fs = (.ok d.attr, fs) := by
  unfold cachedStat
  rcases hst : ri.stat with _ | st
  · simp [run_stat64, h.inode_ne, Layer.getattr_of_node h.node]
  · simp [h.stat st hst]

section Lookup

variable (fs : OverlayFs) (hd : Of fs.layers ri d) (hdir : isDir d.attr = true)
  (hl : (fs.layers ri.layer).Wf)
include hd hdir hl

theorem run_lookupChildIgnoreEnoent {name : List Char} (hs : '\x00' ∉ name) :
    run (ri.lookupChildIgnoreEnoent name) fs =
      (.ok (((fs.layers ri.layer).child ri.inode (encode name)).map fun p => entryOf p.1 p.2), fs) := by
  unfold lookupChildIgnoreEnoent
  simp only [run_bind, toCstring_of_not_mem hs, run_liftE, run_getLayer, child_of_dir hd]
  rcases he : d.entries.lookup (encode name) with _ | ino
  · simp [Layer.lookup_of_missing hd.node hdir he, IoError.rawOsError]
  · obtain ⟨hino, hm⟩ := hl.entry hd.node he
    obtain ⟨m, hm⟩ := Option.isSome_iff_exists.mp hm
    simp [Layer.lookup_of_entry hd.node hdir he hm, entryOf, hino, hm]

/-- `lookup_child` in a directory of a well-formed layer finds what the layer holds under the
name, flagged by `childOf`. -/
theorem run_lookupChild {name : List Char} (hs : '\x00' ∉ name) :
    run (ri.lookupChild name) fs = (.ok (childAt fs.layers ri name), fs) := by
  unfold lookupChild
  simp only [hd.whiteout_false hdir, Bool.false_eq_true, if_false, run_bind, run_getLayer,
    run_lookupChildIgnoreEnoent fs hd hdir hl hs, childAt, child_of_dir hd]
  rcases he : d.entries.lookup (encode name) with _ | ino
  · rfl
  · obtain ⟨-, hm⟩ := hl.entry hd.node he
    obtain ⟨m, hm⟩ := Option.isSome_iff_exists.mp hm
    simp only [hm, Option.bind_some, Option.map_some, entryOf]
    -- a directory is asked whether it is opaque, any other node whether it is a whiteout
    cases hmd : isDir m.attr
    · simp [run_map, Layer.isWhiteout_of_node hm, childOf, hmd]
    · simp [run_map, Layer.isOpaque_of_wf hl hm hmd, childOf, hmd]

/-- The loop of `readdir` adds what `lookup_child` finds under each name, and keeps what the map
held under the names it finds nothing under. -/
theorem run_lookupChildren : ∀ (names : List (List Char)) (m : AList fun _ : List Char => RealInode),
    (∀ s ∈ names, '\x00' ∉ s) →
      ∃ m', run (ri.lookupChildren names m) fs = (.ok m', fs) ∧
        ∀ s, m'.lookup s = (if s ∈ names then childAt fs.layers ri s else none).or (m.lookup s)
  | [], m, _ => ⟨m, rfl, fun s => by simp⟩
  | name :: names, m, hs => by
    have hnames : ∀ s ∈ names, '\x00' ∉ s := fun s h => hs s (List.mem_cons_of_mem _ h)
    rw [lookupChildren, run_bind, run_lookupChild fs hd hdir hl (hs name List.mem_cons_self)]
    rcases hc : childAt fs.layers ri name with _ | c
    · obtain ⟨m', hrun, hm'⟩ := run_lookupChildren names m hnames
      refine ⟨m', hrun, fun s => ?_⟩
      rw [hm']
      by_cases h : s = name
      · subst h
        simp [hc]
      · simp [h]
    · obtain ⟨m', hrun, hm'⟩ := run_lookupChildren names (m.insert name c) hnames
      refine ⟨m', hrun, fun s => ?_⟩
      rw [hm', AList.lookup_insert_ite]
      by_cases h : s = name
      · subst h
        by_cases hin : s ∈ names <;> simp [hc, hin]
      · simp [h]

omit hdir in
/-- Each name of a directory of a well-formed layer is the UTF-8 of a name that `readdir` keeps. -/
theorem name_of_key {b : List UInt8} (hb : b ∈ d.entries.keys) :
    ∃ cs, encode cs = b ∧ '\x00' ∉ cs ∧ cs ≠ ['.'] ∧ cs ≠ ['.', '.'] := by
  obtain ⟨ino, hino⟩ := Option.isSome_iff_exists.mp (AList.lookup_isSome.mpr (AList.mem_keys.mpr hb))
  exact hl.name hd.node hino

/-- `readdir` of a directory of a well-formed layer maps each name to what `lookup_child` finds
under it. -/
theorem run_readdir :
    ∃ M, run ri.readdir fs = (.ok M, fs) ∧ ∀ s, M.lookup s = childAt fs.layers ri s := by
  have hfilter : ((d.entries.keys.map decodeLossy).filter fun n => n != ['.'] && n != ['.', '.']) =
      d.entries.keys.map decodeLossy := by
    refine List.filter_eq_self.mpr fun n hn => ?_
    obtain ⟨b, hb, rfl⟩ := List.mem_map.mp hn
    obtain ⟨cs, rfl, -, h1, h2⟩ := name_of_key fs hd hl hb
    simp [decodeLossy_encode, h1, h2]
  have hnul : ∀ s ∈ d.entries.keys.map decodeLossy, '\x00' ∉ s := by
    intro s hs
    obtain ⟨b, hb, rfl⟩ := List.mem_map.mp hs
    obtain ⟨cs, rfl, hcs, -⟩ := name_of_key fs hd hl hb
    rwa [decodeLossy_encode]
  obtain ⟨M, hrun, hM⟩ := run_lookupChildren fs hd hdir hl _ ∅ hnul
  refine ⟨M, ?_, fun s => ?_⟩
  · simp only [readdir, hd.whiteout_false hdir, Bool.false_eq_true, if_false, run_bind,
      run_cachedStat fs hd, hdir, Bool.not_true, run_getLayer, Layer.readdir_of_dir hd.node hdir,
      run_liftE, hfilter, hrun]
  · rw [hM, AList.lookup_empty, Option.or_none]
    split_ifs with hs
    · rfl
    · -- a name the directory holds is among those `readdir` lists
      symm
      simp only [childAt, child_of_dir hd, Option.map_eq_none_iff, Option.bind_eq_none_iff]
      intro ino hino
      refine absurd (List.mem_map.mpr ⟨encode s, ?_, decodeLossy_encode s⟩) hs
      exact AList.mem_keys.mp (AList.lookup_isSome.mp (Option.isSome_iff_exists.mpr ⟨ino, hino⟩))

end Lookup

end RealInode

/-! ## Merging the layers' entries -/

/-- A name's inodes after one more layer: that layer's inode under the name, if it has one, after
those of the layers above. -/
def appendLayer (above : Option (List RealInode)) : Option RealInode → Option (List RealInode)
  | some ri => some (above.getD [] ++ [ri])
  | none => above

/-- Folding `appendLayer` over the layers collects the inodes they have, if any. -/
theorem foldl_appendLayer {α : Type} (f : α → Option RealInode) :
    ∀ (xs : List α) (o : Option (List RealInode)),
      xs.foldl (fun o x => appendLayer o (f x)) o =
        if xs.filterMap f = [] then o else some (o.getD [] ++ xs.filterMap f)
  | [], o => by simp
  | x :: xs, o => by
    rw [List.foldl_cons, foldl_appendLayer f xs]
    rcases hx : f x with _ | ri
    · simp [appendLayer, hx]
    · simp [appendLayer, hx]

/-- The directories `merge_layers` reads: up to and including the first opaque one. -/
def RealInode.throughOpaque : List RealInode → List RealInode
  | [] => []
  | ri :: ris => ri :: if ri.opaqueDir then [] else RealInode.throughOpaque ris

/-- The constituents of a list of real inodes. -/
def RealInode.pairs (ris : List RealInode) : Constituents := ris.map fun ri => (ri.layer, ri.inode)

@[simp] theorem RealInode.pairs_nil : pairs [] = [] := rfl
@[simp] theorem RealInode.pairs_cons (ri : RealInode) (ris : List RealInode) :
    pairs (ri :: ris) = (ri.layer, ri.inode) :: pairs ris := rfl
@[simp] theorem RealInode.pairs_append (ris ris' : List RealInode) :
    pairs (ris ++ ris') = pairs ris ++ pairs ris' := List.map_append

theorem RealInode.throughOpaque_sublist : ∀ ris : List RealInode, (throughOpaque ris).Sublist ris
  | [] => .slnil
  | ri :: ris => by
    unfold throughOpaque
    split_ifs
    · exact (List.nil_sublist ris).cons_cons ri
    · exact (throughOpaque_sublist ris).cons_cons ri

theorem RealInode.pairs_throughOpaque {layers : Nat → Layer} :
    ∀ ris : List RealInode, (∀ ri ∈ ris, ∃ d, Of layers ri d ∧ isDir d.attr = true) →
      pairs (throughOpaque ris) = Union.throughOpaque layers (pairs ris)
  | [], _ => rfl
  | ri :: ris, h => by
    obtain ⟨d, hd, hdir⟩ := h ri List.mem_cons_self
    have ih := pairs_throughOpaque ris fun r hr => h r (List.mem_cons_of_mem _ hr)
    simp only [pairs_cons, throughOpaque, Union.throughOpaque, hd.node, Option.any_some,
      hd.opaqueDir_eq hdir] at ih ⊢
    split_ifs <;> simp [ih]

namespace OverlayInode

open RealInode

theorem lookup_mergeEntries (s : List Char) :
    ∀ (acc : AList fun _ : List Char => List RealInode) (es : List (Sigma fun _ : List Char => RealInode)),
      es.NodupKeys → (mergeEntries acc es).lookup s = appendLayer (acc.lookup s) (es.dlookup s)
  | acc, [], _ => rfl
  | acc, e :: es, hnd => by
    obtain ⟨he, hnd⟩ := List.nodupKeys_cons.mp hnd
    have hrest := fun acc' => lookup_mergeEntries s acc' es hnd
    by_cases hs : s = e.1
    · -- the name `e` adds: no later entry has it
      subst hs
      have hnone : es.dlookup e.1 = none := List.dlookup_eq_none.mpr he
      have hhead : List.dlookup e.1 (e :: es) = some e.2 := List.dlookup_cons_eq es e.1 e.2
      rcases hv : acc.lookup e.1 with _ | v
      · simp [mergeEntries, hv, hrest, hnone, hhead, appendLayer, AList.lookup_insert]
      · have hmem : e.1 ∈ acc := AList.lookup_isSome.mp (by simp [hv])
        simp [mergeEntries, hv, hrest, hnone, hhead, appendLayer, AList.lookup_replace_ite _ _ hmem]
    · have hne : List.dlookup s (e :: es) = es.dlookup s := List.dlookup_cons_ne _ e hs
      rcases hv : acc.lookup e.1 with _ | v
      · simp [mergeEntries, hv, hrest, hne, hs]
      · have hmem : e.1 ∈ acc := AList.lookup_isSome.mp (by simp [hv])
        simp [mergeEntries, hv, hrest, hne, AList.lookup_replace_ite _ _ hmem, hs]

/-! ## One node for each name -/

/-- The node `c` shows what the union shows under a name, as `Union.child` finds it there: a
whiteout where the union shows nothing, and otherwise the attributes of the visible node and, for
a directory, the directories it is made of. -/
def Shows (c : OverlayInode) : Option (LayerNode × Constituents) → Prop
  | none => c.whiteout = true
  | some (m, ds) => c.whiteout = false ∧ (c.realInodes.head?.bind RealInode.stat = some m.attr) ∧
      (isDir m.attr = true → pairs c.realInodes = ds)

theorem Shows.whiteout_eq {c : OverlayInode} :
    ∀ {o : Option (LayerNode × Constituents)}, Shows c o → c.whiteout = o.isNone
  | none, h => h
  | some _, h => h.1

theorem cachedStat_childOf (fs : OverlayFs) (ri : RealInode) (ino : Nat) (m : LayerNode) :
    run (ri.childOf ino m).cachedStat fs = (.ok m.attr, fs) := rfl

theorem filterMap_childAt_cons {layers : Nat → Layer} {ri : RealInode} {ris : List RealInode}
    {s : List Char} {ino : Nat} {m : LayerNode}
    (hc : (layers ri.layer).child ri.inode (encode s) = some (ino, m)) :
    (ri :: ris).filterMap (childAt layers · s) = ri.childOf ino m :: ris.filterMap (childAt layers · s) := by
  simp [childAt, hc]

theorem filterMap_childAt_skip {layers : Nat → Layer} {ri : RealInode} {ris : List RealInode}
    {s : List Char} (hc : (layers ri.layer).child ri.inode (encode s) = none) :
    (ri :: ris).filterMap (childAt layers · s) = ris.filterMap (childAt layers · s) := by
  simp [childAt, hc]

/-- The loop of `new_from_real_inodes` adds the directories `Union.lowerDirs` lists, each an
inode `lookup_child` found. -/
theorem run_pushLowers (fs : OverlayFs) (s : List Char) :
    ∀ (new : OverlayInode) (ris : List RealInode),
      ∃ X, run (pushLowers new (ris.filterMap (childAt fs.layers · s))) fs =
          (.ok { new with realInodes := new.realInodes ++ X }, fs) ∧
        pairs X = Union.lowerDirs fs.layers (encode s) (pairs ris) ∧
        ∀ r ∈ X, r ∈ ris.filterMap (childAt fs.layers · s)
  | new, [] => ⟨[], by simp [pushLowers], rfl, by simp⟩
  | new, ri :: ris => by
    rcases hc : (fs.layers ri.layer).child ri.inode (encode s) with _ | ⟨ino, m⟩
    · obtain ⟨X, hX, hXs, hXf⟩ := run_pushLowers fs s new ris
      rw [filterMap_childAt_skip hc]
      exact ⟨X, hX, by simp [hXs, Union.lowerDirs, hc], hXf⟩
    · rw [filterMap_childAt_cons hc]
      simp only [pushLowers, run_bind, cachedStat_childOf]
      cases hdir : isDir m.attr
      · -- a whiteout or a file ends the directory's layers
        refine ⟨[], ?_, ?_, by simp⟩
        · cases isWhiteout m.attr <;> simp [hdir]
        · simp [Union.lowerDirs, hc, hdir]
      · have hwh : isWhiteout m.attr = false := isWhiteout_of_isDir hdir
        cases hop : m.isOpaqueDir
        · obtain ⟨X, hX, hXs, hXf⟩ := run_pushLowers fs s
            { new with realInodes := new.realInodes ++ [ri.childOf ino m] } ris
          refine ⟨ri.childOf ino m :: X, ?_, ?_, ?_⟩
          · simp only [childOf_whiteout, childOf_opaqueDir, hdir, hop, Bool.not_true,
              Bool.false_and, Bool.false_eq_true, if_false, Bool.and_false]
            rw [hX]
            simp
          · simp [Union.lowerDirs, hc, hdir, hwh, hop, ← hXs]
          · intro r hr
            rcases List.mem_cons.mp hr with rfl | hr
            · exact List.mem_cons_self
            · exact List.mem_cons_of_mem _ (hXf r hr)
        · refine ⟨[ri.childOf ino m], ?_, ?_, by simp⟩
          · simp [hdir, hop]
          · simp [Union.lowerDirs, hc, hdir, hwh, hop]

/-- What `new_from_real_inodes` makes of the inodes the directories `ris` have under `name`: a
node with the name and the path it was given and nothing loaded, made of inodes `lookup_child`
found, that shows what `Union.child` finds under the name. -/
structure Made (layers : Nat → Layer) (name path : List Char) (ris : List RealInode)
    (c : OverlayInode) : Prop where
  name_eq : c.name = name
  path_eq : c.path = path
  childrens : c.childrens = ∅
  loaded : c.loaded = false
  found : ∀ r ∈ c.realInodes, r ∈ ris.filterMap (childAt layers · name)
  shows : Shows c (Union.child layers (encode name) (pairs ris))

theorem run_newFromRealInodes (fs : OverlayFs) (name : List Char) (inode : Nat) (path : List Char) :
    ∀ ris : List RealInode, ris.filterMap (childAt fs.layers · name) ≠ [] →
      ∃ c, run (newFromRealInodes name inode path (ris.filterMap (childAt fs.layers · name))) fs =
          (.ok c, fs) ∧ Made fs.layers name path ris c
  | [], h => absurd rfl h
  | ri :: ris, h => by
    rcases hc : (fs.layers ri.layer).child ri.inode (encode name) with _ | ⟨ino, m⟩
    · rw [filterMap_childAt_skip hc] at h ⊢
      obtain ⟨c, hrun, hmade⟩ := run_newFromRealInodes fs name inode path ris h
      refine ⟨c, hrun, { hmade with found := ?_, shows := ?_ }⟩
      · simpa [filterMap_childAt_skip hc] using hmade.found
      · simpa [Union.child, hc] using hmade.shows
    · rw [filterMap_childAt_cons hc]
      simp only [newFromRealInodes, run_bind, cachedStat_childOf]
      -- the first inode found is the node's own
      have hfirst : ∀ r ∈ [ri.childOf ino m], r ∈ (ri :: ris).filterMap (childAt fs.layers · name) := by
        simp [filterMap_childAt_cons hc]
      cases hdir : isDir m.attr
      · -- a whiteout hides the name, any other file is shown alone
        cases hwh : isWhiteout m.attr
        · refine ⟨_, by simp [hdir, hwh]; rfl, ⟨rfl, rfl, rfl, rfl, hfirst, ?_⟩⟩
          simp [Shows, Union.child, hc, hdir, hwh, newFromRealInode]
        · refine ⟨_, by simp [hdir, hwh]; rfl, ⟨rfl, rfl, rfl, rfl, hfirst, ?_⟩⟩
          simp [Shows, Union.child, hc, hdir, hwh, newFromRealInode]
      · have hwh : isWhiteout m.attr = false := isWhiteout_of_isDir hdir
        cases hop : m.isOpaqueDir
        · obtain ⟨X, hX, hXs, hXf⟩ := run_pushLowers fs name
            (newFromRealInode name inode path (ri.childOf ino m)) ris
          refine ⟨{ newFromRealInode name inode path (ri.childOf ino m) with
            realInodes := [ri.childOf ino m] ++ X }, ?_, ⟨rfl, rfl, rfl, rfl, ?_, ?_⟩⟩
          · simp only [childOf_whiteout, childOf_opaqueDir, hdir, hop, Bool.not_true,
              Bool.false_and, Bool.false_eq_true, if_false, Bool.and_false]
            exact hX
          · intro r hr
            rw [filterMap_childAt_cons hc]
            rcases List.mem_cons.mp hr with rfl | hr
            · exact List.mem_cons_self
            · exact List.mem_cons_of_mem _ (hXf r hr)
          · simp [Shows, Union.child, hc, hdir, hwh, hop, ← hXs, newFromRealInode]
        · refine ⟨_, by simp [hdir, hop]; rfl, ⟨rfl, rfl, rfl, rfl, hfirst, ?_⟩⟩
          simp [Shows, Union.child, hc, hdir, hwh, hop, newFromRealInode]

section Scan

variable (fs : OverlayFs) (hwf : ∀ i, (fs.layers i).Wf)
include hwf

/-- `merge_layers` collects under each name the inodes of the directories through the first
opaque one, upper first. -/
theorem run_mergeLayers :
    ∀ (ris : List RealInode) (acc : AList fun _ : List Char => List RealInode),
      (∀ ri ∈ ris, ∃ d, Of fs.layers ri d ∧ isDir d.attr = true) →
      ∃ A, run (mergeLayers ris acc) fs = (.ok A, fs) ∧
        ∀ s, A.lookup s =
          (throughOpaque ris).foldl (fun o ri => appendLayer o (childAt fs.layers ri s)) (acc.lookup s)
  | [], acc, _ => ⟨acc, rfl, fun _ => rfl⟩
  | ri :: ris, acc, h => by
    obtain ⟨d, hd, hdir⟩ := h ri List.mem_cons_self
    obtain ⟨M, hM, hMs⟩ := run_readdir fs hd hdir (hwf ri.layer)
    have hmerge : ∀ s, (mergeEntries acc M.entries).lookup s =
        appendLayer (acc.lookup s) (childAt fs.layers ri s) := fun s => by
      rw [lookup_mergeEntries s acc M.entries M.nodupKeys, ← hMs s]
      rfl
    have hrun : run (mergeLayers (ri :: ris) acc) fs =
        if ri.opaqueDir then (.ok (mergeEntries acc M.entries), fs)
        else run (mergeLayers ris (mergeEntries acc M.entries)) fs := by
      simp only [mergeLayers, hd.whiteout_false hdir, Bool.false_eq_true, if_false, run_bind,
        run_cachedStat fs hd, hdir, Bool.not_true, hM]
      split_ifs <;> rfl
    rw [hrun]
    split_ifs with hop
    · exact ⟨_, rfl, fun s => by simp [throughOpaque, hop, hmerge]⟩
    · obtain ⟨A, hA, hAs⟩ := run_mergeLayers ris _ fun r hr => h r (List.mem_cons_of_mem _ hr)
      exact ⟨A, hA, fun s => by simp [throughOpaque, hop, hAs, hmerge]⟩

/-- `scan_childrens` of a merged directory makes one node for each name its directories hold
through the first opaque one, each showing what `Union.child` finds there. -/
theorem run_scanChildrens (n : OverlayInode) (hne : n.realInodes ≠ [])
    (hris : ∀ ri ∈ n.realInodes, ∃ d, Of fs.layers ri d ∧ isDir d.attr = true) :
    ∃ cs, run n.scanChildrens fs = (.ok cs, fs) ∧ (cs.map (·.name)).Nodup ∧
      (∀ s, s ∈ cs.map (·.name) ↔
        (throughOpaque n.realInodes).filterMap (childAt fs.layers · s) ≠ []) ∧
      ∀ c ∈ cs, Made fs.layers c.name (childPath n.path c.name) (throughOpaque n.realInodes) c := by
  obtain ⟨ri, ris, hri⟩ := List.exists_cons_of_ne_nil hne
  obtain ⟨d, hd, hdir⟩ := hris ri (hri ▸ List.mem_cons_self)
  obtain ⟨A, hA, hAs⟩ := run_mergeLayers fs hwf n.realInodes ∅ hris
  -- a name has an entry only if some directory holds it, and the entry lists its inodes
  have hentry : ∀ s, A.lookup s =
      if (throughOpaque n.realInodes).filterMap (childAt fs.layers · s) = [] then none
      else some ((throughOpaque n.realInodes).filterMap (childAt fs.layers · s)) := fun s => by
    rw [hAs s, foldl_appendLayer]
    simp
  have hloop : ∀ e ∈ A.entries, ∃ c,
      run (newFromRealInodes e.1 0 (childPath n.path e.1) e.2) fs = (.ok c, fs) ∧
        Made fs.layers e.1 (childPath n.path e.1) (throughOpaque n.realInodes) c := by
    intro e he
    have hl : A.lookup e.1 = some e.2 := AList.mem_lookup_iff.mpr he
    rw [hentry] at hl
    split_ifs at hl with hfm
    rw [← Option.some.inj hl]
    exact run_newFromRealInodes fs e.1 0 _ _ hfm
  obtain ⟨cs, hcs, hP⟩ := run_mapM_of_forall A.entries hloop
  have hnames : cs.map (·.name) = A.keys := map_eq_of_forall₂ (hP.imp fun _ _ h => h.name_eq)
  refine ⟨cs, ?_, ?_, fun s => ?_, fun c hc => ?_⟩
  · simp only [scanChildrens, run_bind, run_stat64_of_head fs hri hd.inode_ne hd.node, hdir,
      Bool.not_true, Bool.false_eq_true, if_false, hA, hcs]
  · rw [hnames]
    exact A.keys_nodup
  · rw [hnames, ← AList.mem_keys, ← AList.lookup_isSome, hentry]
    split_ifs with hfm <;> simp [hfm]
  · obtain ⟨e, -, hmade⟩ := exists_mem_of_forall₂ hP hc
    rw [hmade.name_eq]
    exact hmade

end Scan

/-- A name is in the union of the directories `ris` exactly when one of them has a node under it:
`Union.names` lists the UTF-8 of these names. -/
theorem mem_names_iff {layers : Nat → Layer} (hwf : ∀ i, (layers i).Wf) {ris : List RealInode}
    (hris : ∀ ri ∈ ris, ∃ d, Of layers ri d ∧ isDir d.attr = true) {b : List UInt8} :
    b ∈ Union.names layers (pairs ris) ↔ ∃ s, encode s = b ∧ ris.filterMap (childAt layers · s) ≠ [] := by
  simp only [Union.names, List.mem_dedup, List.mem_flatMap, pairs, List.mem_map, ne_eq,
    List.filterMap_eq_nil_iff, not_forall, Option.ne_none_iff_exists']
  constructor
  · rintro ⟨_, ⟨ri, hri, rfl⟩, hb⟩
    obtain ⟨d, hd, -⟩ := hris ri hri
    simp only [hd.node, Option.elim_some] at hb
    obtain ⟨ino, hino⟩ := Option.isSome_iff_exists.mp (AList.lookup_isSome.mpr (AList.mem_keys.mpr hb))
    obtain ⟨s, rfl, -⟩ := (hwf ri.layer).name hd.node hino
    obtain ⟨m, hm⟩ := Option.isSome_iff_exists.mp ((hwf ri.layer).entry hd.node hino).2
    exact ⟨s, rfl, ri, hri, ri.childOf ino m, by simp [childAt, child_of_dir hd, hino, hm]⟩
  · rintro ⟨s, rfl, ri, hri, c, hc⟩
    obtain ⟨d, hd, -⟩ := hris ri hri
    simp only [childAt, child_of_dir hd, Option.map_eq_some_iff, Option.bind_eq_some_iff] at hc
    obtain ⟨-, ⟨ino, hino, -⟩, -⟩ := hc
    refine ⟨_, ⟨ri, hri, rfl⟩, ?_⟩
    simp only [hd.node, Option.elim_some]
    exact AList.mem_keys.mp (AList.lookup_isSome.mp (by simp [hino]))

/-- `scan_childrens` of a merged directory, whose directories stand for directories of well-formed
layers, builds the union of the directories through the first opaque one: a node for each name the
union holds, the visible ones for exactly the names it shows, each showing what `Union.child`
finds under its name. -/
theorem scanChildrens_union (fs : OverlayFs) (hwf : ∀ i, (fs.layers i).Wf) (n : OverlayInode)
    (hne : n.realInodes ≠ [])
    (hris : ∀ ri ∈ n.realInodes, ∃ d, RealInode.Of fs.layers ri d ∧ isDir d.attr = true) :
    ∃ cs, run n.scanChildrens fs = (.ok cs, fs) ∧
      (cs.map fun c => encode c.name).Perm
        (Union.names fs.layers (Union.throughOpaque fs.layers (pairs n.realInodes))) ∧
      ((cs.filter fun c => !c.whiteout).map fun c => encode c.name).Perm
        (Union.visible fs.layers (Union.throughOpaque fs.layers (pairs n.realInodes))) ∧
      ∀ c ∈ cs, c.path = childPath n.path c.name ∧
        Shows c (Union.child fs.layers (encode c.name)
          (Union.throughOpaque fs.layers (pairs n.realInodes))) := by
  obtain ⟨cs, hrun, hnodup, hmem, hcs⟩ := run_scanChildrens fs hwf n hne hris
  have hthrough : ∀ ri ∈ throughOpaque n.realInodes, ∃ d, Of fs.layers ri d ∧ isDir d.attr = true :=
    fun ri hri => hris ri (throughOpaque_sublist n.realInodes |>.subset hri)
  rw [← pairs_throughOpaque n.realInodes hris]
  -- the names: both lists are free of duplicates and hold the same names
  have hnames : (cs.map fun c => encode c.name).Perm
      (Union.names fs.layers (pairs (throughOpaque n.realInodes))) := by
    have hnd : (cs.map fun c => encode c.name).Nodup := by
      simpa [List.map_map, Function.comp_def] using
        hnodup.map (Function.LeftInverse.injective decodeLossy_encode)
    have hnd' : (Union.names fs.layers (pairs (throughOpaque n.realInodes))).Nodup :=
      List.nodup_dedup _
    refine (List.perm_ext_iff_of_nodup hnd hnd').mpr fun b => ?_
    rw [mem_names_iff hwf hthrough]
    constructor
    · rintro hb
      obtain ⟨c, hc, rfl⟩ := List.mem_map.mp hb
      exact ⟨c.name, rfl, (hmem c.name).mp (List.mem_map_of_mem hc)⟩
    · rintro ⟨s, rfl, hs⟩
      obtain ⟨c, hc, rfl⟩ := List.mem_map.mp ((hmem s).mpr hs)
      exact List.mem_map_of_mem hc
  refine ⟨cs, hrun, hnames, ?_, fun c hc => ⟨(hcs c hc).path_eq, (hcs c hc).shows⟩⟩
  -- the visible names: a node is no whiteout exactly when the union shows its name
  have hfilter : (cs.filter fun c => !c.whiteout) = cs.filter fun c =>
      (Union.child fs.layers (encode c.name) (pairs (throughOpaque n.realInodes))).isSome := by
    refine List.filter_congr fun c hc => ?_
    rw [(hcs c hc).shows.whiteout_eq]
    cases Union.child fs.layers (encode c.name) (pairs (throughOpaque n.realInodes)) <;> rfl
  have hvisible := hnames.filter fun b =>
    (Union.child fs.layers b (pairs (throughOpaque n.realInodes))).isSome
  rw [List.filter_map] at hvisible
  rw [hfilter]
  exact hvisible

theorem scan_two_names_shows_both :
    ∃ cs, run ({ realInodes := [⟨0, true, 1, false, false, none⟩, ⟨1, false, 1, false, false, none⟩] } :
        OverlayInode).scanChildrens (stackOf (oneFile 'a') (oneFile 'b')) =
          (.ok cs, stackOf (oneFile 'a') (oneFile 'b')) ∧
      (cs.map fun c => encode c.name).Perm [encode ['a'], encode ['b']] ∧
      ∀ c ∈ cs, c.whiteout = false := by
  have hwf : ∀ i, ((stackOf (oneFile 'a') (oneFile 'b')).layers i).Wf := fun i => by
    by_cases hi : i = 0
    · simpa [stackOf, OverlayFs.new, hi] using oneFile_wf (c := 'a') (by decide) (by decide)
    · simpa [stackOf, OverlayFs.new, hi] using oneFile_wf (c := 'b') (by decide) (by decide)
  obtain ⟨cs, hrun, hnames, -, hcs⟩ := scanChildrens_union _ hwf
    { realInodes := [⟨0, true, 1, false, false, none⟩, ⟨1, false, 1, false, false, none⟩] } (by simp) (by
    intro ri hri
    simp only [List.mem_cons, List.not_mem_nil, or_false] at hri
    rcases hri with rfl | rfl
    · exact ⟨_, ⟨rfl, by decide, by decide, by decide, by simp⟩, by decide⟩
    · exact ⟨_, ⟨rfl, by decide, by decide, by decide, by simp⟩, by decide⟩)
  have hn : Union.names (stackOf (oneFile 'a') (oneFile 'b')).layers
      (Union.throughOpaque (stackOf (oneFile 'a') (oneFile 'b')).layers
        (pairs [⟨0, true, 1, false, false, none⟩, ⟨1, false, 1, false, false, none⟩])) =
      [encode ['a'], encode ['b']] := by decide
  refine ⟨cs, hrun, hn ▸ hnames, fun c hc => ?_⟩
  have hmem : encode c.name ∈ [encode ['a'], encode ['b']] :=
    (hn ▸ hnames).subset (List.mem_map_of_mem hc)
  rw [(hcs c hc).2.whiteout_eq]
  simp only [List.mem_cons, List.not_mem_nil, or_false] at hmem
  rcases hmem with h | h <;> rw [h] <;> decide


end OverlayInode

end FuseBackend.Overlay
