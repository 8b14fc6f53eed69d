import FuseBackend.Api.PseudoFs
import FuseBackend.Lib.AList

/-!
# `PseudoFs`: what a walk reaches

`mount` only adds to a `PseudoFs`: inodes under fresh numbers, and children at the end of a
child list. `Extends` is that order. A walk that reaches an inode reaches it in every extension
(`pathWalkGo_of_extends`), and `path_walk` of a path reaches the inode `mount` returned for it,
in the file system `mount` left and in every extension of it (`mount_spec`).
-/

namespace FuseBackend.Api

open Path

namespace PseudoFs

theorem mem_of_lookup {s : InodeMap} {k : Nat} {i : PseudoInode} (h : s.lookup k = some i) :
    k ∈ s :=
  AList.lookup_isSome.mp (by rw [h]; rfl)

/-! ## Well-formed maps -/

/-- Every inode is filed under its own number, every number is below the counter, and the root
is there. -/
structure Wf (fs : PseudoFs) : Prop where
  keyIno : ∀ {k i}, fs.inodes.lookup k = some i → i.ino = k
  fresh : ∀ {k}, k ∈ fs.inodes → k < fs.nextInode
  rootMem : rootId ∈ fs.inodes

theorem lookup_new (k : Nat) :
    new.inodes.lookup k = if k = rootId then some (PseudoInode.new rootId rootId "/") else none := by
  simp only [new]
  rw [AList.lookup_insert_ite, AList.lookup_empty]

theorem wf_new : new.Wf where
  keyIno := by
    intro k i h
    rw [lookup_new] at h
    split at h
    · cases h
      simp_all [PseudoInode.new]
    · cases h
  fresh := by
    intro k hk
    rw [← AList.lookup_isSome, lookup_new] at hk
    split at hk
    · simp_all [rootId, new, pseudofsNextInode]
    · simp at hk
  rootMem := mem_of_lookup (by rw [lookup_new, if_pos rfl])

theorem Wf.rootInode_eq {fs : PseudoFs} (hwf : fs.Wf) :
    fs.inodes.lookup rootId = some fs.rootInode ∧ fs.rootInode.ino = rootId := by
  obtain ⟨r, hr⟩ := Option.isSome_iff_exists.mp (AList.lookup_isSome.mpr hwf.rootMem)
  have hroot : fs.rootInode = r := by simp [rootInode, hr]
  rw [hroot]
  exact ⟨hr, hwf.keyIno hr⟩

/-! ## Growing -/

/-- `j` is `i` with children added at the end. -/
def Grows (i j : PseudoInode) : Prop :=
  j.ino = i.ino ∧ j.parent = i.parent ∧ j.name = i.name ∧ i.children <+: j.children

/-- Every inode of `fs` is in `fs'` under the same number, grown. -/
def Extends (fs fs' : PseudoFs) : Prop :=
  ∀ k i, fs.inodes.lookup k = some i → ∃ j, fs'.inodes.lookup k = some j ∧ Grows i j

theorem Grows.refl (i : PseudoInode) : Grows i i := ⟨rfl, rfl, rfl, List.prefix_refl _⟩

theorem Grows.trans {i j l : PseudoInode} (h₁ : Grows i j) (h₂ : Grows j l) : Grows i l :=
  ⟨h₂.1.trans h₁.1, h₂.2.1.trans h₁.2.1, h₂.2.2.1.trans h₁.2.2.1, h₁.2.2.2.trans h₂.2.2.2⟩

theorem grows_insertChild (i c : PseudoInode) : Grows i (i.insertChild c) :=
  ⟨rfl, rfl, rfl, List.prefix_append _ _⟩

theorem Extends.refl (fs : PseudoFs) : Extends fs fs := fun _ _ h => ⟨_, h, Grows.refl _⟩

theorem Extends.trans {fs₁ fs₂ fs₃ : PseudoFs} (h₁ : Extends fs₁ fs₂) (h₂ : Extends fs₂ fs₃) :
    Extends fs₁ fs₃ := by
  intro k i hi
  obtain ⟨j, hj, hij⟩ := h₁ k i hi
  obtain ⟨l, hl, hjl⟩ := h₂ k j hj
  exact ⟨l, hl, hij.trans hjl⟩

/-- A child found by name stays the first of its name when children are added after it. -/
theorem findChild_of_grows {i j : PseudoInode} (h : Grows i j) {name : String} {c : Nat × String}
    (hc : findChild i name = some c) : findChild j name = some c := by
  obtain ⟨t, ht⟩ := h.2.2.2
  unfold findChild at hc ⊢
  rw [← ht, List.find?_append, hc]
  rfl

/-! ## `create_inode` -/

section Create

variable {fs : PseudoFs} {name : String} {i : PseudoInode}

theorem lookup_createInode (k : Nat) :
    (fs.createInode name i).2.inodes.lookup k =
      if k = i.ino then some (i.insertChild (PseudoInode.new fs.nextInode i.ino name))
      else if k = fs.nextInode then some (PseudoInode.new fs.nextInode i.ino name)
      else fs.inodes.lookup k := by
  simp only [createInode, newInode, insertInode, AList.lookup_insert_ite, PseudoInode.insertChild,
    PseudoInode.new]

theorem createInode_fst : (fs.createInode name i).1 = PseudoInode.new fs.nextInode i.ino name := rfl

theorem createInode_nextInode : (fs.createInode name i).2.nextInode = fs.nextInode + 1 := rfl

variable (hwf : fs.Wf) (hi : fs.inodes.lookup i.ino = some i)
include hwf hi

theorem ino_lt_nextInode : i.ino < fs.nextInode := hwf.fresh (mem_of_lookup hi)

theorem createInode_extends : Extends fs (fs.createInode name i).2 := by
  intro k j hj
  have hlt := ino_lt_nextInode hwf hi
  rw [lookup_createInode]
  by_cases hk : k = i.ino
  · subst hk
    rw [hi] at hj
    cases hj
    exact ⟨_, if_pos rfl, grows_insertChild _ _⟩
  · have hne : k ≠ fs.nextInode := by
      have := hwf.fresh (mem_of_lookup hj)
      omega
    exact ⟨j, by rw [if_neg hk, if_neg hne, hj], Grows.refl _⟩

theorem createInode_wf : (fs.createInode name i).2.Wf where
  keyIno := by
    intro k j hj
    rw [lookup_createInode] at hj
    split_ifs at hj with h₁ h₂
    · cases hj
      exact h₁.symm
    · cases hj
      exact h₂.symm
    · exact hwf.keyIno hj
  fresh := by
    intro k hk
    have hlt := ino_lt_nextInode hwf hi
    rw [← AList.lookup_isSome, lookup_createInode] at hk
    rw [createInode_nextInode]
    split_ifs at hk with h₁ h₂
    · omega
    · omega
    · have := hwf.fresh (AList.lookup_isSome.mp hk)
      omega
  rootMem := by
    rw [← AList.lookup_isSome, lookup_createInode]
    split_ifs
    · rfl
    · rfl
    · exact AList.lookup_isSome.mpr hwf.rootMem

theorem lookup_createInode_new :
    (fs.createInode name i).2.inodes.lookup (fs.createInode name i).1.ino =
      some (fs.createInode name i).1 := by
  have hne : fs.nextInode ≠ i.ino := by
    have := ino_lt_nextInode hwf hi
    omega
  rw [lookup_createInode, createInode_fst]
  simp [PseudoInode.new, hne]

end Create

/-! ## Walks -/

/-- What the walk of `mount` leaves: a well-formed extension in which the inode it returns is
filed, and from which on every walk of the same components reaches that inode. -/
theorem mountWalk_spec :
    ∀ (cs : List Component) {fs : PseudoFs} {i : PseudoInode}, fs.Wf →
      fs.inodes.lookup i.ino = some i → ∀ {fs' : PseudoFs} {j : PseudoInode},
      mountWalk fs i cs = some (fs', j) →
        fs'.Wf ∧ Extends fs fs' ∧ fs'.inodes.lookup j.ino = some j ∧
          ∀ fs'', Extends fs' fs'' →
            ∃ i'', fs''.inodes.lookup i.ino = some i'' ∧ pathWalkGo fs'' i'' cs = some (some j.ino)
  | [], fs, i, hwf, hi, fs', j, h => by
    simp only [mountWalk, Option.some.injEq, Prod.mk.injEq] at h
    obtain ⟨rfl, rfl⟩ := h
    refine ⟨hwf, Extends.refl _, hi, fun fs'' hext => ?_⟩
    obtain ⟨i'', hi'', hg⟩ := hext _ _ hi
    exact ⟨i'', hi'', by simp [pathWalkGo, hg.1]⟩
  | .rootDir :: cs, fs, i, hwf, hi, fs', j, h => mountWalk_spec cs hwf hi h
  | .curDir :: cs, fs, i, hwf, hi, fs', j, h => mountWalk_spec cs hwf hi h
  | .parentDir :: cs, fs, i, hwf, hi, fs', j, h => by
    simp only [mountWalk] at h
    obtain ⟨p, hp, hwalk⟩ := Option.bind_eq_some_iff.mp h
    have hpk : fs.inodes.lookup p.ino = some p := by rw [hwf.keyIno hp]; exact hp
    obtain ⟨hwf', hext, hj, hreach⟩ := mountWalk_spec cs hwf hpk hwalk
    refine ⟨hwf', hext, hj, fun fs'' hext' => ?_⟩
    obtain ⟨i'', hi'', hg⟩ := hext.trans hext' _ _ hi
    obtain ⟨p'', hp'', hwalk''⟩ := hreach fs'' hext'
    refine ⟨i'', hi'', ?_⟩
    simp only [pathWalkGo]
    rw [hg.2.1, ← hwf.keyIno hp, hp'', Option.bind_some]
    exact hwalk''
  | .normal name :: cs, fs, i, hwf, hi, fs', j, h => by
    simp only [mountWalk] at h
    cases hc : findChild i name with
    | some c =>
      -- the component exists: the walk goes on in the same file system
      simp only [hc] at h
      obtain ⟨ci, hci, hwalk⟩ := Option.bind_eq_some_iff.mp h
      have hck : fs.inodes.lookup ci.ino = some ci := by rw [hwf.keyIno hci]; exact hci
      obtain ⟨hwf', hext, hj, hreach⟩ := mountWalk_spec cs hwf hck hwalk
      refine ⟨hwf', hext, hj, fun fs'' hext' => ?_⟩
      obtain ⟨i'', hi'', hg⟩ := hext.trans hext' _ _ hi
      obtain ⟨ci'', hci'', hwalk''⟩ := hreach fs'' hext'
      refine ⟨i'', hi'', ?_⟩
      simp only [pathWalkGo, findChild_of_grows hg hc]
      rw [← hwf.keyIno hci, hci'', Option.bind_some]
      exact hwalk''
    | none =>
      -- the component is created as the last child of `i` and the walk goes on from it
      simp only [hc] at h
      have hnew := @lookup_createInode_new _ name _ hwf hi
      simp only [hnew, Option.bind_some] at h
      obtain ⟨hwf', hext, hj, hreach⟩ :=
        mountWalk_spec cs (createInode_wf hwf hi) hnew h
      refine ⟨hwf', Extends.trans (createInode_extends hwf hi) hext, hj, fun fs'' hext' => ?_⟩
      have hparent : (fs.createInode name i).2.inodes.lookup i.ino =
          some (i.insertChild (PseudoInode.new fs.nextInode i.ino name)) := by
        rw [lookup_createInode, if_pos rfl]
      obtain ⟨i'', hi'', hg⟩ := hext.trans hext' _ _ hparent
      obtain ⟨n'', hn'', hwalk''⟩ := hreach fs'' hext'
      refine ⟨i'', hi'', ?_⟩
      have hfind : findChild i'' name = some (fs.nextInode, name) := by
        obtain ⟨t, ht⟩ := hg.2.2.2
        unfold findChild at hc ⊢
        rw [← ht]
        simp [PseudoInode.insertChild, PseudoInode.new, List.find?_append, hc]
      simp only [pathWalkGo, hfind]
      rw [createInode_fst] at hn''
      simp only [PseudoInode.new] at hn''
      rw [hn'', Option.bind_some]
      exact hwalk''

/-- A property kept by every `create_inode` of a missing child is kept by the walk of `mount`. -/
theorem mountWalk_preserves {P : PseudoFs → Prop} (hwf : ∀ {fs}, P fs → fs.Wf)
    (hcreate : ∀ {fs : PseudoFs} {i : PseudoInode} {name : String}, P fs →
      fs.inodes.lookup i.ino = some i → findChild i name = none → P (fs.createInode name i).2) :
    ∀ (cs : List Component) {fs : PseudoFs} {i : PseudoInode}, P fs →
      fs.inodes.lookup i.ino = some i → ∀ {fs' : PseudoFs} {j : PseudoInode},
      mountWalk fs i cs = some (fs', j) → P fs' ∧ fs'.inodes.lookup j.ino = some j
  | [], fs, i, hP, hi, fs', j, h => by
    simp only [mountWalk, Option.some.injEq, Prod.mk.injEq] at h
    obtain ⟨rfl, rfl⟩ := h
    exact ⟨hP, hi⟩
  | .rootDir :: cs, fs, i, hP, hi, fs', j, h => mountWalk_preserves hwf hcreate cs hP hi h
  | .curDir :: cs, fs, i, hP, hi, fs', j, h => mountWalk_preserves hwf hcreate cs hP hi h
  | .parentDir :: cs, fs, i, hP, hi, fs', j, h => by
    simp only [mountWalk] at h
    obtain ⟨p, hp, hwalk⟩ := Option.bind_eq_some_iff.mp h
    have hpk : fs.inodes.lookup p.ino = some p := by rw [(hwf hP).keyIno hp]; exact hp
    exact mountWalk_preserves hwf hcreate cs hP hpk hwalk
  | .normal name :: cs, fs, i, hP, hi, fs', j, h => by
    simp only [mountWalk] at h
    cases hc : findChild i name with
    | some c =>
      simp only [hc] at h
      obtain ⟨ci, hci, hwalk⟩ := Option.bind_eq_some_iff.mp h
      have hck : fs.inodes.lookup ci.ino = some ci := by rw [(hwf hP).keyIno hci]; exact hci
      exact mountWalk_preserves hwf hcreate cs hP hck hwalk
    | none =>
      simp only [hc] at h
      have hnew := @lookup_createInode_new _ name _ (hwf hP) hi
      simp only [hnew, Option.bind_some] at h
      exact mountWalk_preserves hwf hcreate cs (hcreate hP hi hc) hnew h

theorem mount_preserves {P : PseudoFs → Prop} (hwf : ∀ {fs}, P fs → fs.Wf)
    (hcreate : ∀ {fs : PseudoFs} {i : PseudoInode} {name : String}, P fs →
      fs.inodes.lookup i.ino = some i → findChild i name = none → P (fs.createInode name i).2)
    {fs : PseudoFs} (hP : P fs) {path : List Char} {r : Except IoError Nat} {fs' : PseudoFs}
    (h : fs.mount path = some (r, fs')) : P fs' := by
  unfold mount at h
  split at h
  · simp only [Option.some.injEq, Prod.mk.injEq] at h
    rw [← h.2]
    exact hP
  · obtain ⟨⟨fs₁, j⟩, hw, hres⟩ := Option.map_eq_some_iff.mp h
    simp only [Prod.mk.injEq] at hres
    obtain ⟨hr, hrino⟩ := (hwf hP).rootInode_eq
    rw [← hres.2]
    exact (mountWalk_preserves hwf hcreate _ hP (by rw [hrino]; exact hr) hw).1

/-! ## `mount` and `path_walk` -/

/-- `mount(path)` leaves a well-formed extension, and when it returns an inode, `path_walk(path)`
reaches that inode from then on, in every extension. -/
theorem mount_spec {fs : PseudoFs} (hwf : fs.Wf) {path : List Char} {r : Except IoError Nat}
    {fs' : PseudoFs} (h : fs.mount path = some (r, fs')) :
    fs'.Wf ∧ Extends fs fs' ∧
      ∀ ino, r = .ok ino → ∀ fs'', Extends fs' fs'' → fs''.pathWalk path = some (.ok (some ino)) := by
  unfold mount at h
  split at h
  · -- a path without a root is refused before anything changes
    simp only [Option.some.injEq, Prod.mk.injEq] at h
    obtain ⟨rfl, rfl⟩ := h
    exact ⟨hwf, Extends.refl _, fun ino hino => by cases hino⟩
  · rename_i hroot
    obtain ⟨⟨fs₁, j⟩, hw, hres⟩ := Option.map_eq_some_iff.mp h
    simp only [Prod.mk.injEq] at hres
    obtain ⟨rfl, rfl⟩ := hres
    obtain ⟨hr, hrino⟩ := hwf.rootInode_eq
    obtain ⟨hwf', hext, -, hreach⟩ := mountWalk_spec _ hwf (by rw [hrino]; exact hr) hw
    refine ⟨hwf', hext, fun ino hino fs'' hext' => ?_⟩
    cases hino
    obtain ⟨r'', hr'', hwalk⟩ := hreach fs'' hext'
    rw [hrino] at hr''
    have hroot'' : fs''.rootInode = r'' := by simp [rootInode, hr'']
    simp only [pathWalk, hroot, hroot'', hwalk, Bool.false_eq_true, if_false, Option.map_some]

end PseudoFs

end FuseBackend.Api
