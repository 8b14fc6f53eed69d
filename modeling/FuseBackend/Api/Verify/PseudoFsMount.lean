import FuseBackend.Api.Verify.PseudoFsPersist

/-!
# `PseudoFs`: `mount` against the resolved path

In every state a run of `mount` and `evict_inode` calls reaches, the child lists are the
parent numbers read backwards (`Tree`), so a list of names leads from the root to at most one
inode (`walkNames`), and going to the parent of where a list of names leads is dropping its
last name (`parent_walkNames`). The loop of `mount` then lands where the resolved path leads
(`mountWalk_resolve`): a second mount of a path, or a mount of another spelling of it, returns
the inode the first one did, and a mount of a path that already walks creates nothing
(`mountWalk_of_pathWalkGo`).
-/

namespace FuseBackend.Api

open Path

namespace PseudoFs

/-! ## Walking by names -/

/-- The child of `i` of the given name, as the map holds it. -/
def childNamed (fs : PseudoFs) (i : PseudoInode) (name : String) : Option PseudoInode :=
  (findChild i name).bind fun c => fs.inodes.lookup c.1

/-- Where a list of names leads from `i`. -/
def walkNames (fs : PseudoFs) (i : PseudoInode) : List String → Option PseudoInode
  | [] => some i
  | name :: names => (fs.childNamed i name).bind fun c => fs.walkNames c names

theorem walkNames_append_single (fs : PseudoFs) (name : String) :
    ∀ (names : List String) (i : PseudoInode),
      fs.walkNames i (names ++ [name]) = (fs.walkNames i names).bind fun j => fs.childNamed j name
  | [], i => by simp [walkNames]
  | n :: names, i => by
    simp only [List.cons_append, walkNames]
    cases fs.childNamed i n with
    | none => rfl
    | some c => exact walkNames_append_single fs name names c

section Walk

variable {fs : PseudoFs}

theorem childNamed_filed (hwf : fs.Wf) {i c : PseudoInode} {name : String}
    (h : fs.childNamed i name = some c) : fs.inodes.lookup c.ino = some c := by
  obtain ⟨ch, -, hc⟩ := Option.bind_eq_some_iff.mp h
  rw [hwf.keyIno hc]
  exact hc

/-- Every inode a walk reaches from a filed inode is filed. -/
theorem walkNames_filed (hwf : fs.Wf) :
    ∀ (names : List String) {i j : PseudoInode}, fs.inodes.lookup i.ino = some i →
      fs.walkNames i names = some j → fs.inodes.lookup j.ino = some j
  | [], i, j, hi, h => by
    cases h
    exact hi
  | name :: names, i, j, _, h => by
    obtain ⟨c, hc, hwalk⟩ := Option.bind_eq_some_iff.mp h
    exact walkNames_filed hwf names (childNamed_filed hwf hc) hwalk

/-- The child of a given name points back to the inode whose list holds it. -/
theorem Tree.childNamed_parent (hT : fs.Tree) {i c : PseudoInode} {name : String}
    (hi : fs.inodes.lookup i.ino = some i) (h : fs.childNamed i name = some c) :
    c.parent = i.ino := by
  obtain ⟨ch, hch, hc⟩ := Option.bind_eq_some_iff.mp h
  have hmem : ch ∈ i.children := List.mem_of_find?_eq_some hch
  have hl := ((hT.children hi ch).mp hmem).2
  rw [label_eq_some hc] at hl
  simp only [Option.some.injEq, Prod.mk.injEq] at hl
  exact hl.1

/-- The parent of where a list of names leads is where the list without its last name leads;
the root is its own parent. -/
theorem Tree.parent_walkNames (hT : fs.Tree) {names : List String} {j : PseudoInode}
    (h : fs.walkNames fs.rootInode names = some j) :
    ∃ p, fs.inodes.lookup j.parent = some p ∧ fs.walkNames fs.rootInode names.dropLast = some p := by
  obtain ⟨hr, hrino⟩ := hT.rootInode_eq
  have hrk : fs.inodes.lookup fs.rootInode.ino = some fs.rootInode := by rw [hrino]; exact hr
  rcases List.eq_nil_or_concat names with rfl | ⟨names, name, rfl⟩
  · -- the root's label names itself as parent
    cases h
    have hl := label_eq_some hr
    rw [hT.rootLabel] at hl
    simp only [Option.some.injEq, Prod.mk.injEq] at hl
    exact ⟨fs.rootInode, by rw [← hl.1]; exact hr, rfl⟩
  · rw [List.concat_eq_append, walkNames_append_single] at h
    rw [List.concat_eq_append]
    obtain ⟨p, hp, hc⟩ := Option.bind_eq_some_iff.mp h
    have hpk := walkNames_filed hT.toWf names hrk hp
    refine ⟨p, ?_, by rw [List.dropLast_concat]; exact hp⟩
    rw [hT.childNamed_parent hpk hc]
    exact hpk

/-- A walk by names reaches, in every extension, the grown inode. -/
theorem walkNames_of_extends {fs' : PseudoFs} (hext : Extends fs fs') :
    ∀ (names : List String) {i i' j : PseudoInode}, Grows i i' → fs.walkNames i names = some j →
      ∃ j', fs'.walkNames i' names = some j' ∧ Grows j j'
  | [], i, i', j, hg, h => by
    cases h
    exact ⟨i', rfl, hg⟩
  | name :: names, i, i', j, hg, h => by
    obtain ⟨c, hc, hwalk⟩ := Option.bind_eq_some_iff.mp h
    obtain ⟨ch, hch, hcl⟩ := Option.bind_eq_some_iff.mp hc
    obtain ⟨c', hc', hgc⟩ := hext _ _ hcl
    obtain ⟨j', hj', hgj⟩ := walkNames_of_extends hext names hgc hwalk
    refine ⟨j', ?_, hgj⟩
    simp only [walkNames, childNamed, findChild_of_grows hg hch, Option.bind_some, hc']
    exact hj'

theorem Extends.rootInode {fs' : PseudoFs} (hwf : fs.Wf) (hext : Extends fs fs') :
    Grows fs.rootInode fs'.rootInode := by
  obtain ⟨hr, -⟩ := hwf.rootInode_eq
  obtain ⟨r', hr', hg⟩ := hext _ _ hr
  have hroot' : fs'.rootInode = r' := by simp [PseudoFs.rootInode, hr']
  rw [hroot']
  exact hg

end Walk

/-! ## The loop of `mount` -/

/-- The walk of `mount` from the inode a list of names leads to lands where the resolved
components lead, in a `Tree` that extends the one it started from. -/
theorem mountWalk_resolve :
    ∀ (cs : List Component) {fs : PseudoFs} {names : List String} {y : PseudoInode}, fs.Tree →
      fs.walkNames fs.rootInode names = some y →
      ∃ fs' j, fs.mountWalk y cs = some (fs', j) ∧ fs'.Tree ∧ Extends fs fs' ∧
        fs'.walkNames fs'.rootInode (resolve names cs) = some j
  | [], fs, names, y, hT, h => ⟨fs, y, rfl, hT, Extends.refl _, h⟩
  | .rootDir :: cs, fs, names, y, hT, h => mountWalk_resolve cs hT h
  | .curDir :: cs, fs, names, y, hT, h => mountWalk_resolve cs hT h
  | .parentDir :: cs, fs, names, y, hT, h => by
    obtain ⟨p, hp, hwalk⟩ := hT.parent_walkNames h
    simp only [mountWalk, hp, Option.bind_some, resolve]
    exact mountWalk_resolve cs hT hwalk
  | .normal name :: cs, fs, names, y, hT, h => by
    obtain ⟨hr, hrino⟩ := hT.rootInode_eq
    have hy := walkNames_filed hT.toWf names (by rw [hrino]; exact hr) h
    simp only [mountWalk, resolve]
    cases hc : findChild y name with
    | some c =>
      -- the component exists: the walk goes on to the child the map holds
      have hmem : c ∈ y.children := List.mem_of_find?_eq_some hc
      obtain ⟨ci, hci, -⟩ := Option.map_eq_some_iff.mp ((hT.children hy c).mp hmem).2
      have hnext : fs.walkNames fs.rootInode (names ++ [name]) = some ci := by
        simp [walkNames_append_single, h, childNamed, hc, hci]
      simp only [hci, Option.bind_some]
      exact mountWalk_resolve cs hT hnext
    | none =>
      -- the component is created as the last child of `y`, and the names reach it
      have hwf₁ : (fs.createInode name y).2.Wf := createInode_wf hT.toWf hy
      have hext₁ : Extends fs (fs.createInode name y).2 := createInode_extends hT.toWf hy
      have hnew : (fs.createInode name y).2.inodes.lookup (fs.createInode name y).1.ino =
          some (fs.createInode name y).1 := lookup_createInode_new hT.toWf hy
      simp only [hnew, Option.bind_some]
      obtain ⟨y', hy', hgy⟩ := walkNames_of_extends hext₁ names (hext₁.rootInode hT.toWf) h
      have hy'k := walkNames_filed hwf₁ names
        (by obtain ⟨hr₁, hrino₁⟩ := hwf₁.rootInode_eq; rw [hrino₁]; exact hr₁) hy'
      have hyy : y' = y.insertChild (PseudoInode.new fs.nextInode y.ino name) := by
        rw [hgy.1, lookup_createInode, if_pos rfl] at hy'k
        exact (Option.some.inj hy'k).symm
      have hnext : (fs.createInode name y).2.walkNames (fs.createInode name y).2.rootInode
          (names ++ [name]) = some (fs.createInode name y).1 := by
        rw [walkNames_append_single, hy', Option.bind_some, hyy, childNamed]
        have hfind : findChild (y.insertChild (PseudoInode.new fs.nextInode y.ino name)) name =
            some (fs.nextInode, name) := by
          unfold findChild at hc ⊢
          simp [PseudoInode.insertChild, PseudoInode.new, List.find?_append, hc]
        rw [hfind, Option.bind_some, ← hnew, createInode_fst]
        rfl
      obtain ⟨fs', j, hm, hT', hext, hres⟩ :=
        mountWalk_resolve cs (createInode_tree hT hy hc) hnext
      exact ⟨fs', j, hm, hT', hext₁.trans hext, hres⟩

/-- Where a path already walks, the walk of `mount` creates nothing. -/
theorem mountWalk_of_pathWalkGo {fs : PseudoFs} (hwf : fs.Wf) :
    ∀ (cs : List Component) {i : PseudoInode}, fs.inodes.lookup i.ino = some i → ∀ {k : Nat},
      pathWalkGo fs i cs = some (some k) → ∃ j, fs.mountWalk i cs = some (fs, j) ∧ j.ino = k
  | [], i, _, k, h => by
    simp only [pathWalkGo, Option.some.injEq] at h
    exact ⟨i, rfl, h⟩
  | .rootDir :: cs, i, hi, k, h => mountWalk_of_pathWalkGo hwf cs hi h
  | .curDir :: cs, i, hi, k, h => mountWalk_of_pathWalkGo hwf cs hi h
  | .parentDir :: cs, i, _, k, h => by
    simp only [pathWalkGo] at h
    obtain ⟨p, hp, hwalk⟩ := Option.bind_eq_some_iff.mp h
    have hpk : fs.inodes.lookup p.ino = some p := by rw [hwf.keyIno hp]; exact hp
    simp only [mountWalk, hp, Option.bind_some]
    exact mountWalk_of_pathWalkGo hwf cs hpk hwalk
  | .normal name :: cs, i, _, k, h => by
    simp only [pathWalkGo] at h
    cases hc : findChild i name with
    | none => simp [hc] at h
    | some c =>
      simp only [hc] at h
      obtain ⟨ci, hci, hwalk⟩ := Option.bind_eq_some_iff.mp h
      have hck : fs.inodes.lookup ci.ino = some ci := by rw [hwf.keyIno hci]; exact hci
      simp only [mountWalk, hc, hci, Option.bind_some]
      exact mountWalk_of_pathWalkGo hwf cs hck hwalk

/-! ## Runs of `mount` and `evict_inode` -/

theorem tree_new : new.Tree := linked_new.toTree

theorem tree_of_step : Transition.Preserved step Tree := by
  intro fs c fs' hT h
  cases c with
  | mount path =>
    obtain ⟨⟨r, fs₁⟩, hm, rfl⟩ := Option.map_eq_some_iff.mp h
    exact mount_tree hT hm
  | evictInode ino => exact evictInode_tree hT h

/-- `mount` of an absolute path returns the inode the resolved path leads to afterwards. -/
theorem mount_resolve {fs : PseudoFs} (hT : fs.Tree) {path : List Char}
    (hroot : hasRoot path = true) :
    ∃ fs' j, fs.mount path = some (.ok j.ino, fs') ∧ fs'.Tree ∧ Extends fs fs' ∧
      fs'.walkNames fs'.rootInode (resolve [] (components path)) = some j := by
  obtain ⟨fs', j, hm, hT', hext, hres⟩ := mountWalk_resolve (components path) hT
    (show fs.walkNames fs.rootInode [] = some fs.rootInode from rfl)
  refine ⟨fs', j, ?_, hT', hext, hres⟩
  simp [mount, hroot, hm]

/-- In every state a run of mounts and evictions reaches, `mount` and `path_walk` agree: an
absolute path is mounted, walks to the inode `mount` returned, mounts again to it without change,
and so does every path that resolves to the same names; a relative path is refused by both. -/
theorem mount_agrees_with_resolved_path {fs : PseudoFs} (hreach : Transition.Reachable step new fs)
    (p : List Char) :
    (hasRoot p = true → ∃ i fs', fs.mount p = some (.ok i, fs') ∧
        fs'.pathWalk p = some (.ok (some i)) ∧ fs'.mount p = some (.ok i, fs') ∧
        ∀ q, hasRoot q = true → resolve [] (components q) = resolve [] (components p) →
          ∃ fs'', fs'.mount q = some (.ok i, fs'')) ∧
    (hasRoot p = false →
        fs.mount p = some (.error (.os einval), fs) ∧ fs.pathWalk p = some (.error (.os einval))) := by
  have hT := hreach.induction tree_new tree_of_step
  refine ⟨fun hroot => ?_, fun hroot => by simp [mount, pathWalk, hroot]⟩
  obtain ⟨fs', j, hm, hT', hext, hres⟩ := mount_resolve hT hroot
  have hpw := (mount_spec hT.toWf hm).2.2 j.ino rfl fs' (Extends.refl _)
  refine ⟨j.ino, fs', hm, hpw, ?_, fun q hq hqp => ?_⟩
  · -- the path walks now, so the second mount creates nothing
    obtain ⟨hr, hrino⟩ := hT'.rootInode_eq
    simp only [pathWalk, hroot, Bool.not_true, Bool.false_eq_true, if_false] at hpw
    obtain ⟨w, hw, hwk⟩ := Option.map_eq_some_iff.mp hpw
    cases hwk
    obtain ⟨j', hm', hj'⟩ := mountWalk_of_pathWalkGo hT'.toWf _ (by rw [hrino]; exact hr) hw
    simp [mount, hroot, hm', hj']
  · -- the other spelling leads, in the extension it leaves, to the grown inode of the first
    obtain ⟨fs'', j'', hm'', -, hext'', hres''⟩ := mount_resolve hT' hq
    obtain ⟨j₂, hj₂, hg⟩ := walkNames_of_extends hext'' _ (hext''.rootInode hT'.toWf) hres
    rw [hqp, hj₂] at hres''
    refine ⟨fs'', ?_⟩
    rw [hm'', ← Option.some.inj hres'', hg.1]

theorem mount_agrees_at_new :
    ∃ i fs', new.mount "/a".toList = some (.ok i, fs') ∧
      fs'.pathWalk "/a".toList = some (.ok (some i)) ∧ fs'.mount "/a".toList = some (.ok i, fs') ∧
      ∀ q, hasRoot q = true → resolve [] (components q) = resolve [] (components "/a".toList) →
        ∃ fs'', fs'.mount q = some (.ok i, fs'') :=
  (mount_agrees_with_resolved_path Transition.Reachable.init "/a".toList).1 rfl

/-! ## Walks past an evicted inode -/

/-- The walk of the components from `inode` stands on the inode `k` at some point. -/
def walkVisits (fs : PseudoFs) (k : Nat) (inode : PseudoInode) : List Component → Bool
  | [] => inode.ino == k
  | .rootDir :: cs => walkVisits fs k inode cs
  | .curDir :: cs => walkVisits fs k inode cs
  | .parentDir :: cs =>
    inode.ino == k ||
      match fs.inodes.lookup inode.parent with
      | some q => walkVisits fs k q cs
      | none => false
  | .normal name :: cs =>
    inode.ino == k ||
      match findChild inode name with
      | some child =>
        match fs.inodes.lookup child.1 with
        | some c => walkVisits fs k c cs
        | none => false
      | none => false

section EvictWalk

variable {fs : PseudoFs} {x p : PseudoInode} (hp : fs.inodes.lookup x.parent = some p)
  (hne : x.ino ≠ x.parent) (hT : fs.Tree) (hx : fs.inodes.lookup x.ino = some x)
include hp hne hT hx

end EvictWalk

/-! ## Inodes a walk reaches -/

/-- The inodes a walk from the root can reach: the root, and a filed inode whose parent is one. -/
inductive Rooted (fs : PseudoFs) : PseudoInode → Prop
  | root {r : PseudoInode} : fs.inodes.lookup rootId = some r → Rooted fs r
  | child {a c : PseudoInode} : Rooted fs a → fs.inodes.lookup c.ino = some c → c.parent = a.ino →
      Rooted fs c

section Rooted

variable {fs : PseudoFs} (hT : fs.Tree)
include hT

theorem Rooted.lookup {a : PseudoInode} (ha : Rooted fs a) : fs.inodes.lookup a.ino = some a := by
  cases ha with
  | root hr => rw [hT.keyIno hr]; exact hr
  | child _ hc _ => exact hc

/-- The parent of a reached inode is filed and reached; the root is its own parent. -/
theorem Rooted.parent {c : PseudoInode} (hc : Rooted fs c) :
    ∃ q, fs.inodes.lookup c.parent = some q ∧ Rooted fs q := by
  cases hc with
  | root hr =>
    have hl := label_eq_some hr
    rw [hT.rootLabel, Option.some.injEq, Prod.mk.injEq] at hl
    exact ⟨_, hl.1 ▸ hr, .root hr⟩
  | child ha _ hpar => exact ⟨_, hpar ▸ ha.lookup hT, ha⟩

/-- `evict_inode` finds everything it looks up for a reached inode. -/
theorem Rooted.evictInode {c : PseudoInode} (hc : Rooted fs c) : (fs.evictInode c.ino).isSome := by
  have hl := hc.lookup hT
  unfold PseudoFs.evictInode
  simp only [hl, Option.bind_eq_bind, Option.bind_some]
  by_cases hroot : c.ino = c.parent
  · simp [hroot]
  obtain ⟨q, hq, -⟩ := hc.parent hT
  -- the parent's list holds the child under its name
  have hmem : (c.ino, c.name) ∈ q.children :=
    (hT.children hq _).mpr ⟨Tree.ino_ne_rootId hroot hT hl, label_eq_some hl⟩
  have hidx : (q.children.findIdx? fun y => y.2 == c.name).isSome := by
    rw [List.findIdx?_isSome, List.any_eq_true]
    exact ⟨_, hmem, by simp⟩
  obtain ⟨pos, hpos⟩ := Option.isSome_iff_exists.mp hidx
  simp [hroot, hq, PseudoInode.removeChild, hpos]

end Rooted

end PseudoFs

end FuseBackend.Api
