import FuseBackend.Api.Verify.PseudoFsWalk
import FuseBackend.Lib.Transition

/-!
# `PseudoFs`: saving and restoring

`save_to_bytes` keeps the number, the parent and the name of every inode but the root, and
`restore_from_state` rebuilds the child lists from the parent numbers. The tree comes back when
the child lists of the running file system are the parent numbers read backwards (`Linked`):
every inode but the root is in its parent's list, under its name, once, and nothing else is.
`mount` keeps `Linked`, and so does `evict_inode` of an inode without children; `evict_inode` of
any inode keeps the weaker `Tree`, which leaves out where the parents are. Under `Linked`
the restore succeeds, keeps the counter and gives every path the same walk (`restore_saveState`).

`evict_inode` of an inode with children leaves them in the map under a parent that is gone, and
`restore_from_state` then fails.
-/

namespace FuseBackend.Api

open Path

namespace PseudoFs

/-- The parent and the name of the inode filed under `k`: all a child list records of it. -/
def label (fs : PseudoFs) (k : Nat) : Option (Nat × String) :=
  (fs.inodes.lookup k).map fun i => (i.parent, i.name)

/-- The child lists are the parent numbers read backwards. -/
structure Linked (fs : PseudoFs) : Prop extends Wf fs where
  rootLabel : fs.label rootId = some (rootId, "/")
  parentMem : ∀ {k p n}, fs.label k = some (p, n) → p ∈ fs.inodes
  children : ∀ {k i}, fs.inodes.lookup k = some i →
    ∀ c : Nat × String, c ∈ i.children ↔ c.1 ≠ rootId ∧ fs.label c.1 = some (k, c.2)
  namesNodup : ∀ {k i}, fs.inodes.lookup k = some i → (i.children.map Prod.snd).Nodup

/-- `Linked` without the parents: what `evict_inode` of any inode keeps. An inode whose parent is
evicted stays filed under a parent number that was handed out before. -/
structure Tree (fs : PseudoFs) : Prop extends Wf fs where
  rootLabel : fs.label rootId = some (rootId, "/")
  parentLt : ∀ {k p n}, fs.label k = some (p, n) → p < fs.nextInode
  children : ∀ {k i}, fs.inodes.lookup k = some i →
    ∀ c : Nat × String, c ∈ i.children ↔ c.1 ≠ rootId ∧ fs.label c.1 = some (k, c.2)
  namesNodup : ∀ {k i}, fs.inodes.lookup k = some i → (i.children.map Prod.snd).Nodup

theorem Linked.toTree {fs : PseudoFs} (hL : fs.Linked) : fs.Tree where
  toWf := hL.toWf
  rootLabel := hL.rootLabel
  parentLt := fun h => hL.fresh (hL.parentMem h)
  children := hL.children
  namesNodup := hL.namesNodup

theorem label_eq_some {fs : PseudoFs} {k : Nat} {i : PseudoInode} (h : fs.inodes.lookup k = some i) :
    fs.label k = some (i.parent, i.name) := by
  simp [label, h]

theorem mem_of_label {fs : PseudoFs} {k : Nat} {l : Nat × String} (h : fs.label k = some l) :
    k ∈ fs.inodes := by
  obtain ⟨i, hi, -⟩ := Option.map_eq_some_iff.mp h
  exact mem_of_lookup hi

theorem linked_new : new.Linked where
  toWf := wf_new
  rootLabel := by simp [label, lookup_new, PseudoInode.new]
  parentMem := by
    intro k p n h
    simp only [label, lookup_new] at h
    split at h
    · simp only [Option.map_some, Option.some.injEq, Prod.mk.injEq, PseudoInode.new] at h
      rw [← h.1]
      exact wf_new.rootMem
    · cases h
  children := by
    intro k i hi c
    rw [lookup_new] at hi
    split at hi
    · cases hi
      simp only [PseudoInode.new, List.not_mem_nil, false_iff, not_and]
      intro hc hl
      simp [label, lookup_new, hc] at hl
    · cases hi
  namesNodup := by
    intro k i hi
    rw [lookup_new] at hi
    split at hi
    · cases hi
      exact List.nodup_nil
    · cases hi

/-! ## `create_inode` keeps `Linked` -/

section Create

variable {fs : PseudoFs} {name : String} {i : PseudoInode}

theorem label_createInode (hwf : fs.Wf) (hi : fs.inodes.lookup i.ino = some i) (k : Nat) :
    (fs.createInode name i).2.label k =
      if k = fs.nextInode then some (i.ino, name) else fs.label k := by
  have hne : i.ino ≠ fs.nextInode := (ino_lt_nextInode hwf hi).ne
  unfold label
  rw [lookup_createInode]
  by_cases h₁ : k = i.ino
  · subst h₁
    simp [hne, hi, PseudoInode.insertChild]
  · by_cases h₂ : k = fs.nextInode
    · simp [h₂, Ne.symm hne, PseudoInode.new]
    · simp [h₁, h₂]

theorem mem_createInode (hwf : fs.Wf) (hi : fs.inodes.lookup i.ino = some i) {k : Nat}
    (hk : k ∈ fs.inodes) : k ∈ (fs.createInode name i).2.inodes := by
  obtain ⟨j, hj, -⟩ := @createInode_extends _ name _ hwf hi k _
    (Option.get_mem (AList.lookup_isSome.mpr hk))
  exact mem_of_lookup hj

/-- No inode has the counter as its parent. -/
theorem Tree.label_ne_nextInode (hT : fs.Tree) {k p : Nat} {s : String}
    (h : fs.label k = some (p, s)) : p ≠ fs.nextInode :=
  (hT.parentLt h).ne

theorem createInode_tree (hT : fs.Tree) (hi : fs.inodes.lookup i.ino = some i)
    (hc : findChild i name = none) : (fs.createInode name i).2.Tree where
  toWf := createInode_wf hT.toWf hi
  parentLt := by
    intro k q n h
    rw [label_createInode hT.toWf hi] at h
    rw [createInode_nextInode]
    split at h
    · cases h
      have := ino_lt_nextInode hT.toWf hi
      omega
    · have := hT.parentLt h
      omega
  rootLabel := by
    rw [label_createInode hT.toWf hi, if_neg (hT.fresh hT.rootMem).ne]
    exact hT.rootLabel
  children := by
    intro k j hj c
    have hlt := ino_lt_nextInode hT.toWf hi
    rw [label_createInode hT.toWf hi]
    rw [lookup_createInode] at hj
    split_ifs at hj with h₁ h₂
    · -- the parent gains the new child at the end of its list
      cases hj
      subst h₁
      simp only [PseudoInode.insertChild, PseudoInode.new, List.mem_append, List.mem_singleton]
      by_cases hn : c.1 = fs.nextInode
      · have hold : c ∉ i.children := by
          intro hmem
          have := hT.fresh (mem_of_label ((hT.children hi c).mp hmem).2)
          omega
        simp only [hold, false_or, hn, if_true, Option.some.injEq, Prod.mk.injEq, true_and]
        constructor
        · rintro rfl
          exact ⟨(hT.fresh hT.rootMem).ne', rfl⟩
        · rintro ⟨-, hname⟩
          exact Prod.ext hn hname.symm
      · have hnot : c ≠ (fs.nextInode, name) := fun h => hn (by rw [h])
        simp only [hnot, or_false, hn, if_false]
        exact hT.children hi c
    · -- the new inode has no children, and no inode names it as parent
      cases hj
      simp only [PseudoInode.new, List.not_mem_nil, false_iff, not_and]
      intro _ hl
      split at hl
      · simp only [Option.some.injEq, Prod.mk.injEq] at hl
        omega
      · exact hT.label_ne_nextInode hl h₂
    · -- any other inode keeps its list, and the new inode is not its child
      rw [hT.children hj c]
      constructor
      · rintro ⟨hroot, hl⟩
        refine ⟨hroot, ?_⟩
        have hn : c.1 ≠ fs.nextInode := by
          intro hn
          have := hT.fresh (mem_of_label hl)
          omega
        rw [if_neg hn]
        exact hl
      · rintro ⟨hroot, hl⟩
        refine ⟨hroot, ?_⟩
        split at hl
        · simp only [Option.some.injEq, Prod.mk.injEq] at hl
          exact absurd hl.1.symm h₁
        · exact hl
  namesNodup := by
    intro k j hj
    rw [lookup_createInode] at hj
    split_ifs at hj with h₁ h₂
    · cases hj
      have hfresh : name ∉ i.children.map Prod.snd := by
        intro hmem
        obtain ⟨x, hx, hxn⟩ := List.mem_map.mp hmem
        have := List.find?_eq_none.mp hc x hx
        simp [hxn] at this
      simp only [PseudoInode.insertChild, PseudoInode.new, List.map_append, List.map_cons,
        List.map_nil]
      exact List.nodup_append.mpr ⟨hT.namesNodup hi, List.nodup_singleton _,
        fun a ha b hb => by rw [List.mem_singleton] at hb; rw [hb]; exact fun h => hfresh (h ▸ ha)⟩
    · cases hj
      exact List.nodup_nil
    · exact hT.namesNodup hj

theorem createInode_linked (hL : fs.Linked) (hi : fs.inodes.lookup i.ino = some i)
    (hc : findChild i name = none) : (fs.createInode name i).2.Linked :=
  have hT := createInode_tree hL.toTree hi hc
  { toWf := hT.toWf
    rootLabel := hT.rootLabel
    parentMem := by
      intro k p n h
      rw [label_createInode hL.toWf hi] at h
      split at h
      · cases h
        exact mem_createInode hL.toWf hi (mem_of_lookup hi)
      · exact mem_createInode hL.toWf hi (hL.parentMem h)
    children := hT.children
    namesNodup := hT.namesNodup }

end Create

theorem mount_linked {fs : PseudoFs} (hL : fs.Linked) {path : List Char} {r : Except IoError Nat}
    {fs' : PseudoFs} (h : fs.mount path = some (r, fs')) : fs'.Linked :=
  mount_preserves (fun hL => hL.toWf) (fun hL hi hc => createInode_linked hL hi hc) hL h

theorem mount_tree {fs : PseudoFs} (hT : fs.Tree) {path : List Char} {r : Except IoError Nat}
    {fs' : PseudoFs} (h : fs.mount path = some (r, fs')) : fs'.Tree :=
  mount_preserves (fun hT => hT.toWf) (fun hT hi hc => createInode_tree hT hi hc) hT h

/-! ## `evict_inode` keeps `Tree`, and `Linked` when it evicts a leaf -/

/-- In a list with distinct names, erasing the first entry of a name erases every entry of it. -/
theorem mem_eraseP_name {l : List (Nat × String)} (hnd : (l.map Prod.snd).Nodup) {n : String}
    {d : Nat × String} : d ∈ l.eraseP (fun x => x.2 == n) ↔ d ∈ l ∧ d.2 ≠ n := by
  by_cases hd : d.2 = n
  · simp only [hd, ne_eq, not_true_eq_false, and_false, iff_false]
    intro hmem
    have hdl := List.mem_of_mem_eraseP hmem
    obtain ⟨a, l₁, l₂, h₁, ha, hl, he⟩ := List.exists_of_eraseP hdl (p := fun x => x.2 == n)
      (by simp [hd])
    rw [he, List.mem_append] at hmem
    rcases hmem with hmem | hmem
    · exact h₁ d hmem (by simp [hd])
    · have hal : a ∈ l := by rw [hl]; simp
      have hda : d = a := List.inj_on_of_nodup_map hnd hdl hal (by simp at ha; rw [hd, ha])
      have hnd' : (l₁ ++ a :: l₂).Nodup := by rw [← hl]; exact hnd.of_map _
      rw [List.nodup_append, List.nodup_cons] at hnd'
      exact hnd'.2.1.1 (hda ▸ hmem)
  · rw [List.mem_eraseP_of_neg (by simp [hd])]
    simp [hd]

theorem removeChild_eq {p child p' : PseudoInode} (h : p.removeChild child = some p') :
    p' = { p with children := p.children.eraseP (fun x => x.2 == child.name) } := by
  unfold PseudoInode.removeChild at h
  obtain ⟨pos, hpos, rfl⟩ := Option.map_eq_some_iff.mp h
  rw [List.eraseP_eq_eraseIdx, hpos]

/-- What `evict_inode` can do: nothing to the root (its own parent), and otherwise erase the
inode from its parent's list and from the map. -/
theorem evictInode_cases {fs fs' : PseudoFs} {ino : Nat} (h : fs.evictInode ino = some fs') :
    ∃ x, fs.inodes.lookup ino = some x ∧
      (ino = x.parent ∧ fs' = fs ∨
        ino ≠ x.parent ∧ ∃ p, fs.inodes.lookup x.parent = some p ∧
          fs' = { fs with inodes := (fs.inodes.insert x.parent
            { p with children := p.children.eraseP (fun c => c.2 == x.name) }).erase x.ino }) := by
  unfold evictInode at h
  obtain ⟨x, hx, h⟩ := Option.bind_eq_some_iff.mp h
  refine ⟨x, hx, ?_⟩
  by_cases hroot : ino = x.parent
  · simp only [hroot, if_true] at h
    exact .inl ⟨hroot, (Option.some.inj h).symm⟩
  · simp only [hroot, if_false] at h
    obtain ⟨p, hp, h⟩ := Option.bind_eq_some_iff.mp h
    obtain ⟨p', hp', h⟩ := Option.bind_eq_some_iff.mp h
    refine .inr ⟨hroot, p, hp, ?_⟩
    rw [← Option.some.inj h, removeChild_eq hp']

section Evict

variable {fs : PseudoFs} {x p : PseudoInode}

/-- The file system after `x` is evicted from its parent `p`. -/
def evicted (fs : PseudoFs) (x p : PseudoInode) : PseudoFs :=
  { fs with inodes := (fs.inodes.insert x.parent
      { p with children := p.children.eraseP (fun c => c.2 == x.name) }).erase x.ino }

theorem lookup_evicted (k : Nat) :
    (evicted fs x p).inodes.lookup k =
      if k = x.ino then none
      else if k = x.parent then some { p with children := p.children.eraseP (fun c => c.2 == x.name) }
      else fs.inodes.lookup k := by
  unfold evicted
  by_cases hk : k = x.ino
  · subst hk
    simp [AList.lookup_erase]
  · simp only [AList.lookup_erase_ne hk, AList.lookup_insert_ite, hk, if_false]

variable (hp : fs.inodes.lookup x.parent = some p)
include hp

theorem label_evicted (k : Nat) :
    (evicted fs x p).label k = if k = x.ino then none else fs.label k := by
  unfold label
  rw [lookup_evicted]
  by_cases h₁ : k = x.ino
  · simp [h₁]
  · by_cases h₂ : k = x.parent
    · subst h₂
      simp [h₁, hp]
    · simp [h₁, h₂]

theorem mem_evicted {k : Nat} : k ∈ (evicted fs x p).inodes ↔ k ≠ x.ino ∧ k ∈ fs.inodes := by
  rw [← AList.lookup_isSome, ← AList.lookup_isSome, lookup_evicted]
  by_cases h₁ : k = x.ino
  · simp [h₁]
  · by_cases h₂ : k = x.parent
    · subst h₂
      simp [h₁, hp]
    · simp [h₁, h₂]

variable (hne : x.ino ≠ x.parent) (hT : fs.Tree) (hx : fs.inodes.lookup x.ino = some x)
include hne hT hx

omit hp in
/-- A leaf is nobody's parent. -/
theorem Tree.label_ne_leaf (hleaf : x.children = []) {k q : Nat} {n : String}
    (h : fs.label k = some (q, n)) : q ≠ x.ino := by
  rintro rfl
  by_cases hk : k = rootId
  · rw [hk, hT.rootLabel] at h
    simp only [Option.some.injEq, Prod.mk.injEq] at h
    have hxl := label_eq_some hx
    rw [← h.1, hT.rootLabel] at hxl
    simp only [Option.some.injEq, Prod.mk.injEq] at hxl
    exact hne (by rw [← hxl.1, h.1])
  · have := (hT.children hx (k, n)).mpr ⟨hk, h⟩
    rw [hleaf] at this
    exact List.not_mem_nil this

omit hp in
/-- Only the root is its own parent. -/
theorem Tree.ino_ne_rootId : x.ino ≠ rootId := by
  intro h
  have hxl := label_eq_some hx
  rw [h, hT.rootLabel] at hxl
  simp only [Option.some.injEq, Prod.mk.injEq] at hxl
  exact hne (h.trans hxl.1)

theorem evicted_wf : (evicted fs x p).Wf where
  keyIno := by
    intro k j hj
    rw [lookup_evicted] at hj
    split_ifs at hj with h₁ h₂
    · cases hj
      exact (hT.keyIno hp).trans h₂.symm
    · exact hT.keyIno hj
  fresh := fun hk => hT.fresh ((mem_evicted hp).mp hk).2
  rootMem := (mem_evicted hp).mpr ⟨(hT.ino_ne_rootId hne hx).symm, hT.rootMem⟩

theorem evicted_tree : (evicted fs x p).Tree := by
  have hroot := hT.ino_ne_rootId hne hx
  have hxmem : (x.ino, x.name) ∈ p.children :=
    (hT.children hp (x.ino, x.name)).mpr ⟨hroot, label_eq_some hx⟩
  refine
    { toWf := evicted_wf hp hne hT hx, rootLabel := ?_, parentLt := ?_, children := ?_,
      namesNodup := ?_ }
  · rw [label_evicted hp, if_neg hroot.symm]
    exact hT.rootLabel
  · intro k q n h
    rw [label_evicted hp] at h
    split at h
    · cases h
    · exact hT.parentLt h
  · intro k j hj c
    rw [label_evicted hp]
    rw [lookup_evicted] at hj
    split_ifs at hj with h₁ h₂
    · -- the parent loses exactly the evicted inode
      cases hj
      subst h₂
      rw [mem_eraseP_name (hT.namesNodup hp), hT.children hp c]
      constructor
      · rintro ⟨⟨hcr, hl⟩, hname⟩
        refine ⟨hcr, ?_⟩
        have hci : c.1 ≠ x.ino := by
          intro hc
          rw [hc, label_eq_some hx] at hl
          simp only [Option.some.injEq, Prod.mk.injEq] at hl
          exact hname hl.2.symm
        rw [if_neg hci]
        exact hl
      · rintro ⟨hcr, hl⟩
        split at hl
        · cases hl
        · rename_i hci
          refine ⟨⟨hcr, hl⟩, fun hname => hci ?_⟩
          have hcmem := (hT.children hp c).mpr ⟨hcr, hl⟩
          rw [List.inj_on_of_nodup_map (hT.namesNodup hp) hcmem hxmem hname]
    · -- any other inode keeps its list, which never held the evicted inode
      rw [hT.children hj c]
      constructor
      · rintro ⟨hcr, hl⟩
        refine ⟨hcr, ?_⟩
        have hci : c.1 ≠ x.ino := by
          intro hc
          rw [hc, label_eq_some hx] at hl
          simp only [Option.some.injEq, Prod.mk.injEq] at hl
          exact h₂ hl.1.symm
        rw [if_neg hci]
        exact hl
      · rintro ⟨hcr, hl⟩
        split at hl
        · cases hl
        · exact ⟨hcr, hl⟩
  · intro k j hj
    rw [lookup_evicted] at hj
    split_ifs at hj with h₁ h₂
    · cases hj
      subst h₂
      exact (hT.namesNodup hp).sublist (List.eraseP_sublist.map _)
    · exact hT.namesNodup hj

theorem evicted_linked (hL : fs.Linked) (hleaf : x.children = []) : (evicted fs x p).Linked :=
  have hT' := evicted_tree hp hne hT hx
  { toWf := hT'.toWf
    rootLabel := hT'.rootLabel
    parentMem := by
      intro k q n h
      rw [label_evicted hp] at h
      split at h
      · cases h
      · exact (mem_evicted hp).mpr ⟨hT.label_ne_leaf hne hx hleaf h, hL.parentMem h⟩
    children := hT'.children
    namesNodup := hT'.namesNodup }

end Evict

/-- `evict_inode` of an inode without children keeps `Linked`. -/
theorem evictInode_linked {fs fs' : PseudoFs} (hL : fs.Linked) {ino : Nat}
    (hleaf : ∀ x, fs.inodes.lookup ino = some x → x.children = [])
    (h : fs.evictInode ino = some fs') : fs'.Linked := by
  obtain ⟨x, hx, (⟨-, rfl⟩ | ⟨hne, p, hp, rfl⟩)⟩ := evictInode_cases h
  · exact hL
  · have hxi : x.ino = ino := hL.keyIno hx
    rw [← hxi] at hx hne
    exact evicted_linked hp hne hL.toTree hx hL (hleaf x (hxi ▸ hx))

/-- `evict_inode` of any inode keeps `Tree`. -/
theorem evictInode_tree {fs fs' : PseudoFs} (hT : fs.Tree) {ino : Nat}
    (h : fs.evictInode ino = some fs') : fs'.Tree := by
  obtain ⟨x, hx, (⟨-, rfl⟩ | ⟨hne, p, hp, rfl⟩)⟩ := evictInode_cases h
  · exact hT
  · have hxi : x.ino = ino := hT.keyIno hx
    rw [← hxi] at hx hne
    exact evicted_tree hp hne hT hx

/-! ## What is saved -/

theorem mem_saveState {fs : PseudoFs} (hwf : fs.Wf) {s : PseudoInodeState} :
    s ∈ fs.saveState.inodes ↔ s.ino ≠ rootId ∧ fs.label s.ino = some (s.parent, s.name) := by
  simp only [saveState, List.mem_map, List.mem_filter, decide_eq_true_eq]
  constructor
  · rintro ⟨i, ⟨⟨e, he, rfl⟩, hroot⟩, rfl⟩
    have hl : fs.inodes.lookup e.1 = some e.2 := AList.mem_lookup_iff.mpr he
    refine ⟨hroot, ?_⟩
    show fs.label e.2.ino = some (e.2.parent, e.2.name)
    rw [hwf.keyIno hl]
    exact label_eq_some hl
  · rintro ⟨hroot, hl⟩
    obtain ⟨i, hi, hpn⟩ := Option.map_eq_some_iff.mp hl
    simp only [Prod.mk.injEq] at hpn
    refine ⟨i, ⟨⟨⟨s.ino, i⟩, AList.mem_lookup_iff.mp hi, rfl⟩, by rwa [hwf.keyIno hi]⟩, ?_⟩
    rw [hwf.keyIno hi, hpn.1, hpn.2]

theorem saveState_ino_nodup {fs : PseudoFs} (hwf : fs.Wf) :
    (fs.saveState.inodes.map (·.ino)).Nodup := by
  have hkeys : (fs.inodes.entries.map (·.2)).map (·.ino) = fs.inodes.keys := by
    rw [List.map_map, AList.keys, List.keys]
    apply List.map_congr_left
    intro e he
    exact hwf.keyIno (AList.mem_lookup_iff.mpr he)
  have hmap : fs.saveState.inodes.map (·.ino) =
      ((fs.inodes.entries.map (·.2)).filter (fun i => i.ino ≠ rootId)).map (·.ino) := by
    simp only [saveState, List.map_map]
    rfl
  rw [hmap]
  exact (hkeys ▸ fs.inodes.keys_nodup).sublist (List.filter_sublist.map _)

/-! ## The two loops of `restore_from_state` -/

/-- With distinct numbers, the first loop files each saved inode under its number. -/
theorem lookup_foldl_insert : ∀ (l : List PseudoInodeState) (m : InodeMap),
    (l.map (·.ino)).Nodup → ∀ k : Nat,
      (l.foldl (fun m s => m.insert s.ino (PseudoInode.new s.ino s.parent s.name)) m).lookup k =
        ((l.find? (fun s => s.ino = k)).map fun s => PseudoInode.new s.ino s.parent s.name).or
          (m.lookup k)
  | [], m, _, k => by simp
  | s :: rest, m, hnd, k => by
    rw [List.map_cons, List.nodup_cons] at hnd
    rw [List.foldl_cons, lookup_foldl_insert rest _ hnd.2 k, AList.lookup_insert_ite]
    by_cases hk : s.ino = k
    · -- no later inode has the number `k`
      subst hk
      have hnone : rest.find? (fun s' => s'.ino = s.ino) = none := by
        refine List.find?_eq_none.mpr fun s' hs' h => hnd.1 ?_
        exact List.mem_map.mpr ⟨s', hs', of_decide_eq_true h⟩
      simp [hnone]
    · simp [hk, Ne.symm hk]

/-- The children `connect` gives the inode filed under `k`: the saved inodes whose parent is `k`,
in the order of the list. -/
def addedChildren (l : List PseudoInodeState) (k : Nat) : List (Nat × String) :=
  (l.filter (fun s => s.parent = k)).map fun s => (s.ino, s.name)

/-- When every saved inode is filed with its own number, parent and name, and every parent is
filed, `connect` succeeds and appends to each inode the saved inodes naming it as parent. -/
theorem connect_spec : ∀ (l : List PseudoInodeState) (m : InodeMap),
    (∀ s ∈ l, (m.lookup s.ino).map (fun b => (b.ino, b.parent, b.name)) =
      some (s.ino, s.parent, s.name)) →
    (∀ s ∈ l, s.parent ∈ m) →
    ∃ m', connect m l = (.ok (), m') ∧
      ∀ k, m'.lookup k = (m.lookup k).map fun b => { b with children := b.children ++ addedChildren l k }
  | [], m, _, _ => ⟨m, rfl, fun k => by cases m.lookup k <;> simp [addedChildren]⟩
  | s :: rest, m, hfile, hpar => by
    obtain ⟨b, hb, hbs⟩ := Option.map_eq_some_iff.mp (hfile s List.mem_cons_self)
    simp only [Prod.mk.injEq] at hbs
    obtain ⟨hbi, hbp, hbn⟩ := hbs
    obtain ⟨p, hp⟩ := Option.isSome_iff_exists.mp
      (AList.lookup_isSome.mpr (hpar s List.mem_cons_self))
    -- one step files `b` as the last child of its parent and changes nothing else
    set m₁ := m.insert s.parent (p.insertChild b)
    have hstep : connect m (s :: rest) = connect m₁ rest := by
      simp only [connect, hb, m₁]
      rw [hbp, hp]
    have htriple : ∀ k, (m₁.lookup k).map (fun b => (b.ino, b.parent, b.name)) =
        (m.lookup k).map (fun b => (b.ino, b.parent, b.name)) := by
      intro k
      simp only [m₁, AList.lookup_insert_ite]
      split_ifs with hk
      · subst hk
        simp [hp, PseudoInode.insertChild]
      · rfl
    obtain ⟨m', hm', hlook⟩ := connect_spec rest m₁
      (fun s' hs' => by rw [htriple]; exact hfile s' (List.mem_cons_of_mem _ hs'))
      (fun s' hs' => (AList.mem_insert _).mpr (.inr (hpar s' (List.mem_cons_of_mem _ hs'))))
    refine ⟨m', hstep.trans hm', fun k => ?_⟩
    rw [hlook k]
    simp only [m₁, AList.lookup_insert_ite]
    split_ifs with hk
    · subst hk
      simp [hp, addedChildren, PseudoInode.insertChild, hbi, hbn]
    · have : ¬ s.parent = k := fun h => hk h.symm
      simp [addedChildren, this]

/-! ## Walks do not see the order of the child lists -/

/-- Same number and parent, and the same children in some order. -/
def Similar (i j : PseudoInode) : Prop :=
  j.ino = i.ino ∧ j.parent = i.parent ∧ j.children.Perm i.children

/-- Two file systems filing similar inodes under the same numbers. -/
def Mirrors (fs fs' : PseudoFs) : Prop :=
  ∀ k, Option.Rel Similar (fs.inodes.lookup k) (fs'.inodes.lookup k)

/-- Among children of distinct names, the first of a name does not depend on the order. -/
theorem findChild_of_perm {i j : PseudoInode} (hp : j.children.Perm i.children)
    (hnd : (i.children.map Prod.snd).Nodup) (name : String) :
    findChild j name = findChild i name := by
  unfold findChild
  cases hc : i.children.find? (fun child => child.2 == name) with
  | none =>
    rw [List.find?_eq_none] at hc ⊢
    exact fun x hx => hc x (hp.subset hx)
  | some c =>
    have hmem := List.mem_of_find?_eq_some hc
    have hname := List.find?_some hc
    have hsome : (j.children.find? (fun child => child.2 == name)).isSome :=
      List.find?_isSome.mpr ⟨c, hp.symm.subset hmem, hname⟩
    obtain ⟨d, hd⟩ := Option.isSome_iff_exists.mp hsome
    have hdmem := hp.subset (List.mem_of_find?_eq_some hd)
    have hdname := List.find?_some hd
    simp only [beq_iff_eq] at hname hdname
    rw [hd, List.inj_on_of_nodup_map hnd hdmem hmem (hdname.trans hname.symm)]

theorem Mirrors.bind_eq {β : Type} {fs fs' : PseudoFs} (hm : Mirrors fs fs') (k : Nat)
    {f g : PseudoInode → Option β}
    (hfg : ∀ i j, fs.inodes.lookup k = some i → Similar i j → g j = f i) :
    (fs'.inodes.lookup k).bind g = (fs.inodes.lookup k).bind f := by
  have h := hm k
  revert hfg h
  generalize fs.inodes.lookup k = a
  generalize fs'.inodes.lookup k = b
  intro hfg h
  cases h with
  | none => rfl
  | some hs => exact hfg _ _ rfl hs

/-- Walks agree in mirrored file systems. -/
theorem pathWalkGo_of_mirrors {fs fs' : PseudoFs} (hm : Mirrors fs fs')
    (hnd : ∀ {k i}, fs.inodes.lookup k = some i → (i.children.map Prod.snd).Nodup) :
    ∀ (cs : List Component) {i j : PseudoInode}, (i.children.map Prod.snd).Nodup → Similar i j →
      pathWalkGo fs' j cs = pathWalkGo fs i cs
  | [], i, j, _, hs => by simp [pathWalkGo, hs.1]
  | .rootDir :: cs, i, j, hi, hs => pathWalkGo_of_mirrors hm hnd cs hi hs
  | .curDir :: cs, i, j, hi, hs => pathWalkGo_of_mirrors hm hnd cs hi hs
  | .parentDir :: cs, i, j, hi, hs => by
    simp only [pathWalkGo]
    rw [hs.2.1]
    exact hm.bind_eq _ fun p p' hp hsp => pathWalkGo_of_mirrors hm hnd cs (hnd hp) hsp
  | .normal name :: cs, i, j, hi, hs => by
    simp only [pathWalkGo, findChild_of_perm hs.2.2 hi]
    cases findChild i name with
    | none => rfl
    | some c =>
      exact hm.bind_eq _ fun ci ci' hci hsc => pathWalkGo_of_mirrors hm hnd cs (hnd hci) hsc

/-! ## Restoring a saved `Linked` file system -/

theorem new_rootInode : new.rootInode = PseudoInode.new rootId rootId "/" := by
  simp [rootInode, lookup_new]

/-- The map after the first loop and the root, before any child is connected. -/
def restoreBase (fs : PseudoFs) : InodeMap :=
  (buildInodeMap fs.saveState.inodes).insert new.rootInode.ino new.rootInode

/-- The number, the parent and the name of an inode. -/
def header (i : PseudoInode) : Nat × Nat × String := (i.ino, i.parent, i.name)

section Restore

variable {fs : PseudoFs} (hL : fs.Linked)
include hL

theorem lookup_restoreBase (k : Nat) :
    (restoreBase fs).lookup k =
      if k = rootId then some (PseudoInode.new rootId rootId "/")
      else (fs.saveState.inodes.find? (fun s => s.ino = k)).map
        fun s => PseudoInode.new s.ino s.parent s.name := by
  rw [restoreBase, new_rootInode, AList.lookup_insert_ite]
  by_cases hk : k = rootId
  · simp [hk, PseudoInode.new]
  · rw [if_neg hk, if_neg (show ¬k = (PseudoInode.new rootId rootId "/").ino from hk), buildInodeMap, lookup_foldl_insert _ _ (saveState_ino_nodup hL.toWf),
      AList.lookup_empty, Option.or_none]

/-- The first loop files every inode with its own number, parent and name, and no children. -/
theorem restoreBase_header (k : Nat) :
    ((restoreBase fs).lookup k).map header = (fs.inodes.lookup k).map header ∧
      ∀ b, (restoreBase fs).lookup k = some b → b.children = [] := by
  rw [lookup_restoreBase hL]
  split_ifs with hk
  · -- the root comes from the fresh file system
    subst hk
    obtain ⟨r, hr⟩ := Option.isSome_iff_exists.mp (AList.lookup_isSome.mpr hL.rootMem)
    have hrl := hL.rootLabel
    rw [label_eq_some hr] at hrl
    simp only [Option.some.injEq, Prod.mk.injEq] at hrl
    refine ⟨?_, fun b hb => by cases hb; rfl⟩
    simp [hr, header, PseudoInode.new, hL.keyIno hr, hrl.1, hrl.2]
  · cases hf : fs.saveState.inodes.find? (fun s => s.ino = k) with
    | some s =>
      have hs := List.mem_of_find?_eq_some hf
      have hsk : s.ino = k := by simpa using List.find?_some hf
      obtain ⟨-, hl⟩ := (mem_saveState hL.toWf).mp hs
      obtain ⟨i, hi, hpn⟩ := Option.map_eq_some_iff.mp hl
      simp only [Prod.mk.injEq] at hpn
      refine ⟨?_, fun b hb => by cases hb; rfl⟩
      rw [← hsk, hi]
      simp [header, PseudoInode.new, hL.keyIno hi, hpn.1, hpn.2]
    | none =>
      -- an inode filed under `k` would have been saved with the number `k`
      refine ⟨?_, fun b hb => by cases hb⟩
      cases hi : fs.inodes.lookup k with
      | none => rfl
      | some i =>
        have hs : (⟨k, i.parent, i.name⟩ : PseudoInodeState) ∈ fs.saveState.inodes :=
          (mem_saveState hL.toWf).mpr ⟨hk, label_eq_some hi⟩
        exact absurd (decide_eq_true rfl) (List.find?_eq_none.mp hf _ hs)

/-- The restored child lists are the running ones, in another order. -/
theorem addedChildren_perm {k : Nat} {i : PseudoInode} (hi : fs.inodes.lookup k = some i)
    {sorted : List PseudoInodeState} (hperm : sorted.Perm fs.saveState.inodes) :
    (addedChildren sorted k).Perm i.children := by
  have hnd : (sorted.map (·.ino)).Nodup := (hperm.map _).nodup_iff.mpr (saveState_ino_nodup hL.toWf)
  have hnd₁ : (addedChildren sorted k).Nodup := by
    unfold addedChildren
    refine List.Nodup.of_map Prod.fst ?_
    rw [List.map_map]
    exact hnd.sublist (List.filter_sublist.map _)
  refine (List.perm_ext_iff_of_nodup hnd₁ ((hL.namesNodup hi).of_map _)).mpr fun c => ?_
  rw [hL.children hi c]
  simp only [addedChildren, List.mem_map, List.mem_filter, decide_eq_true_eq, hperm.mem_iff,
    mem_saveState hL.toWf]
  constructor
  · rintro ⟨s, ⟨⟨hroot, hl⟩, rfl⟩, rfl⟩
    exact ⟨hroot, hl⟩
  · rintro ⟨hroot, hl⟩
    exact ⟨⟨c.1, k, c.2⟩, ⟨⟨hroot, hl⟩, rfl⟩, rfl⟩

/-- Under `Linked`, restoring the saved state into a fresh `PseudoFs` succeeds, keeps the counter,
and gives every path the walk it had. -/
theorem restore_saveState :
    ∃ fs', new.restoreFromState fs.saveState = (.ok (), fs') ∧ fs'.nextInode = fs.nextInode ∧
      ∀ path, fs'.pathWalk path = fs.pathWalk path := by
  set sorted := fs.saveState.inodes.insertionSort (fun a b => a.ino ≤ b.ino)
  have hperm : sorted.Perm fs.saveState.inodes := List.perm_insertionSort _ _
  -- every saved inode is filed with its header, and its parent is filed
  have hfile : ∀ s ∈ sorted, ((restoreBase fs).lookup s.ino).map header = some (s.ino, s.parent, s.name) := by
    intro s hs
    obtain ⟨-, hl⟩ := (mem_saveState hL.toWf).mp (hperm.subset hs)
    obtain ⟨i, hi, hpn⟩ := Option.map_eq_some_iff.mp hl
    simp only [Prod.mk.injEq] at hpn
    rw [(restoreBase_header hL s.ino).1, hi]
    simp [header, hL.keyIno hi, hpn.1, hpn.2]
  have hpar : ∀ s ∈ sorted, s.parent ∈ restoreBase fs := by
    intro s hs
    obtain ⟨-, hl⟩ := (mem_saveState hL.toWf).mp (hperm.subset hs)
    have hsome := congrArg Option.isSome (restoreBase_header hL s.parent).1
    rw [Option.isSome_map, Option.isSome_map] at hsome
    rw [← AList.lookup_isSome, hsome]
    exact AList.lookup_isSome.mpr (hL.parentMem hl)
  obtain ⟨m', hconn, hlook⟩ := connect_spec sorted (restoreBase fs) hfile hpar
  have hres : new.restoreFromState fs.saveState = (.ok (), ⟨fs.nextInode, m'⟩) := by
    have : connect (restoreBase fs) sorted = (.ok (), m') := hconn
    simp only [restoreFromState, restoreBase] at this ⊢
    rw [this]
    rfl
  -- the restored map files the same inodes, with the same children in sorted order
  have hmirror : Mirrors fs ⟨fs.nextInode, m'⟩ := by
    intro k
    show Option.Rel Similar (fs.inodes.lookup k) (m'.lookup k)
    rw [hlook k]
    obtain ⟨hhead, hnil⟩ := restoreBase_header hL k
    cases hi : fs.inodes.lookup k with
    | none =>
      rw [hi, Option.map_none, Option.map_eq_none_iff] at hhead
      rw [hhead]
      exact .none
    | some i =>
      rw [hi] at hhead
      obtain ⟨b, hb, hbh⟩ := Option.map_eq_some_iff.mp hhead
      simp only [header, Prod.mk.injEq] at hbh
      rw [hb]
      refine .some ⟨hbh.1, hbh.2.1, ?_⟩
      simp only [hnil b hb, List.nil_append]
      exact addedChildren_perm hL hi hperm
  refine ⟨_, hres, rfl, fun path => ?_⟩
  unfold pathWalk
  split
  · rfl
  · obtain ⟨hr, -⟩ := hL.rootInode_eq
    have hroot := hmirror rootId
    rw [hr] at hroot
    obtain ⟨r', hr', hs⟩ : ∃ r', (⟨fs.nextInode, m'⟩ : PseudoFs).inodes.lookup rootId = some r' ∧
        Similar fs.rootInode r' := by
      revert hroot
      generalize (⟨fs.nextInode, m'⟩ : PseudoFs).inodes.lookup rootId = o
      intro hroot
      cases hroot with
      | some hs => exact ⟨_, rfl, hs⟩
    have hroot' : (⟨fs.nextInode, m'⟩ : PseudoFs).rootInode = r' := by simp [rootInode, hr']
    rw [hroot', pathWalkGo_of_mirrors hmirror hL.namesNodup _ (hL.namesNodup hr) hs]

end Restore

/-! ## Runs of `mount` and `evict_inode` -/

/-- A call a client makes on a `PseudoFs`. -/
inductive Call where
  | mount (path : List Char)
  | evictInode (ino : Nat)

/-- The file system after a call, whatever the call returned; `none` where it panics. -/
def step (fs : PseudoFs) : Call → Option PseudoFs
  | .mount path => (fs.mount path).map (·.2)
  | .evictInode ino => fs.evictInode ino

/-- Mounting `/a/b` and evicting `/a` leaves `b` filed under a parent that is gone, and the saved
state no longer restores. -/
theorem restore_fails_after_evicting_parent :
    (Transition.run step new [.mount "/a/b".toList, .evictInode 2]).map
        (fun fs => (new.restoreFromState fs.saveState).1) =
      some (.error (invalidParentInode 2 3)) := by
  decide

/-- The calls of a run that evicts only inodes without children. -/
def leafStep (fs : PseudoFs) : Call → Option PseudoFs
  | .mount path => fs.step (.mount path)
  | .evictInode ino =>
    if (fs.inodes.lookup ino).all (·.children.isEmpty) then fs.step (.evictInode ino) else none

theorem linked_of_leafStep : Transition.Preserved leafStep Linked := by
  intro fs c fs' hL h
  cases c with
  | mount path =>
    obtain ⟨⟨r, fs₁⟩, hm, rfl⟩ := Option.map_eq_some_iff.mp h
    exact mount_linked hL hm
  | evictInode ino =>
    simp only [leafStep] at h
    split at h
    · rename_i hleaf
      refine evictInode_linked hL (fun x hx => ?_) h
      rw [hx] at hleaf
      simpa using hleaf
    · cases h

/-- In every run of mounts and evictions of inodes without children, the state saved restores
into a fresh `PseudoFs` with the same counter and the same walks. -/
theorem restore_of_leafStep_run {fs : PseudoFs} (h : Transition.Reachable leafStep new fs) :
    ∃ fs', new.restoreFromState fs.saveState = (.ok (), fs') ∧ fs'.nextInode = fs.nextInode ∧
      ∀ path, fs'.pathWalk path = fs.pathWalk path :=
  restore_saveState (h.induction linked_new linked_of_leafStep)

theorem restore_after_leaf_eviction :
    ∃ fs : PseudoFs, Transition.run leafStep new [.mount "/a/b".toList, .evictInode 3] = some fs ∧
      ∃ fs', new.restoreFromState fs.saveState = (.ok (), fs') ∧ fs'.nextInode = fs.nextInode ∧
        ∀ path, fs'.pathWalk path = fs.pathWalk path := by
  obtain ⟨fs, hfs⟩ : ∃ fs : PseudoFs,
      Transition.run leafStep new [.mount "/a/b".toList, .evictInode 3] = some fs := ⟨_, rfl⟩
  exact ⟨fs, hfs, restore_of_leafStep_run (Transition.reachable_of_run hfs)⟩

end PseudoFs

end FuseBackend.Api
