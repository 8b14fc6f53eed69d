import FuseBackend.Passthrough.Lookup
import FuseBackend.Lib.Transition

/-!
# `PassthroughFs`: what a lookup finds and what it inserts

One lemma per function of the lookup path: what `get_alt_locked` finds under a key, what
`allocate_inode` returns in each configuration, and the four ways `do_lookup` can end (it finds
an entry, it fails to allocate, the number is too large, or it inserts a new entry). The server's
calls that change the table are `Op`s; over every run of them from `import` every entry keeps a
refcount of at least 1, so the search loop of `do_lookup` always ends.

With `use_host_ino` the number of a host inode up to `MAX_HOST_INO` depends on the host number
only: a second file that the host reports under the same `InodeId` with another handle while the
first is still referenced gets the same number, and `insert` overwrites the live entry.
-/

namespace FuseBackend.Passthrough

open Api InodeMap

/-! ## `get_alt_locked` -/

section GetAlt

variable {s : InodeStore} {id : InodeId} {h : Option FileHandle} {m : Nat} {d : InodeData}

@[simp] theorem getInodeLocked_some (s : InodeStore) (id : InodeId) (fh : FileHandle) :
    getInodeLocked s id (some fh) = s.byHandle fh := rfl

@[simp] theorem getInodeLocked_none (s : InodeStore) (id : InodeId) :
    getInodeLocked s id none = s.byId id := rfl

/-- An entry under the key is what `get_alt_locked` finds. -/
theorem getAltLocked_of_key (hk : getInodeLocked s id h = some m) (hd : s.data m = some d) :
    getAltLocked s id h = some d := by
  cases h with
  | none =>
    simp only [getInodeLocked_none] at hk
    simp [getAltLocked, InodeStore.getById, InodeStore.inodeById, InodeStore.get, hk, hd]
  | some fh =>
    simp only [getInodeLocked_some] at hk
    simp [getAltLocked, InodeStore.getByHandle, InodeStore.inodeByHandle, InodeStore.get, hk, hd]

/-- `get_alt_locked` finds the entry under the key, or, for a file with a handle, an entry without
one under the id. -/
theorem getAltLocked_eq_some (hg : getAltLocked s id h = some d) :
    (∃ m, getInodeLocked s id h = some m ∧ s.data m = some d) ∨
      (h.isSome ∧ d.handle.fileHandle = none ∧ ∃ m, s.byId id = some m ∧ s.data m = some d) := by
  simp only [getAltLocked, Option.or_eq_some_iff, Option.filter_eq_some_iff, InodeStore.getById,
    InodeStore.getByHandle, InodeStore.inodeById, InodeStore.inodeByHandle, InodeStore.get,
    Option.bind_eq_some_iff] at hg
  rcases hg with hk | ⟨-, hi, hf⟩
  · cases h with
    | none => simp at hk
    | some fh => exact .inl (by simpa using hk)
  · cases h with
    | none => exact .inl hi
    | some fh => exact .inr ⟨rfl, by simpa using hf, hi⟩

/-- What `get_alt_locked` finds is live under its own number. -/
theorem data_of_getAltLocked (hg : getAltLocked s id h = some d) : s.data d.inode = some d := by
  rcases getAltLocked_eq_some hg with ⟨m, -, hm⟩ | ⟨-, -, m, -, hm⟩
  all_goals rw [s.data_inode hm]; exact hm

end GetAlt

/-! ## `get_unique_inode` and `allocate_inode` -/

namespace UniqueInodeGenerator

variable {g g₁ g' : UniqueInodeGenerator} {p : Nat × Nat} {v k : Nat} {id : InodeId}
  {r : Except IoError Nat}

/-- The small ids are distinct, from 1 up to 254 and below the next one; the next virtual number
is at most one above `MAX_HOST_INO`. -/
structure Wf (g : UniqueInodeGenerator) : Prop where
  map_pos : ∀ {p v}, g.devMntidMap p = some v → 1 ≤ v
  map_lt : ∀ {p v}, g.devMntidMap p = some v → v < g.nextUniqueId
  map_inj : ∀ {p q v}, g.devMntidMap p = some v → g.devMntidMap q = some v → p = q
  next_pos : 1 ≤ g.nextUniqueId
  next_le : g.nextUniqueId ≤ 255
  virtual_le : g.nextVirtualInode ≤ maxHostIno + 1

theorem wf_new : new.Wf where
  map_pos h := by cases h
  map_lt h := by cases h
  map_inj h := by cases h
  next_pos := le_refl 1
  next_le := by decide
  virtual_le := by decide

theorem Wf.map_lt_255 (hw : g.Wf) (hv : g.devMntidMap p = some v) : v < 255 :=
  lt_of_lt_of_le (hw.map_lt hv) hw.next_le

theorem update_eq_some {f : Nat × Nat → Option Nat} {a w : Nat} {q : Nat × Nat}
    (h : Function.update f p (some a) q = some w) : (q = p ∧ w = a) ∨ (q ≠ p ∧ f q = some w) := by
  by_cases hq : q = p
  · subst hq
    simp only [Function.update_self, Option.some.injEq] at h
    exact .inl ⟨rfl, h.symm⟩
  · rw [Function.update_of_ne hq] at h
    exact .inr ⟨hq, h⟩

/-- The pair gets its small id, kept or new; the other pairs keep theirs. -/
theorem uniqueIdOf_ok (hu : g.uniqueIdOf p = .ok (v, g₁)) :
    g₁.devMntidMap p = some v ∧
      (∀ {q w}, g.devMntidMap q = some w → g₁.devMntidMap q = some w) ∧
      g₁.nextVirtualInode = g.nextVirtualInode ∧ (g.Wf → g₁.Wf) := by
  simp only [uniqueIdOf] at hu
  split at hu
  · rename_i w hw
    cases hu
    exact ⟨hw, fun hq => hq, rfl, fun hg => hg⟩
  · rename_i hnone
    split at hu
    · cases hu
    · rename_i h255
      cases hu
      refine ⟨by simp, fun {q w} hq => ?_, rfl, fun hg => ?_⟩
      · have hne : q ≠ p := by
          rintro rfl
          rw [hnone] at hq
          cases hq
        simpa [Function.update_of_ne hne] using hq
      · have hlt : g.nextUniqueId < 255 := lt_of_le_of_ne hg.next_le h255
        refine ⟨fun {q w} hq => ?_, fun {q w} hq => ?_, fun {q q' w} hq hq' => ?_, by simp,
          by simp; omega, hg.virtual_le⟩
        · rcases update_eq_some hq with ⟨-, rfl⟩ | ⟨-, hq⟩
          · exact hg.next_pos
          · exact hg.map_pos hq
        · rcases update_eq_some hq with ⟨-, rfl⟩ | ⟨-, hq⟩
          · simp
          · have := hg.map_lt hq
            simp only
            omega
        · rcases update_eq_some hq with ⟨hqp, hw⟩ | ⟨-, hq₀⟩ <;>
            rcases update_eq_some hq' with ⟨hqp', hw'⟩ | ⟨-, hq₀'⟩
          · exact hqp.trans hqp'.symm
          · exact absurd (hg.map_lt hq₀') (by omega)
          · exact absurd (hg.map_lt hq₀) (by omega)
          · exact hg.map_inj hq₀ hq₀'

/-- `get_unique_inode` fails on the pair and leaves the generator, or the pair has its small id
and the number is the host number below it, or above `MAX_HOST_INO` the next virtual number, if
there is one left. -/
theorem getUniqueInode_cases (hg : g.getUniqueInode id = (r, g')) :
    (g' = g ∧ ∀ k, r ≠ .ok k) ∨
      ∃ v g₁, g.uniqueIdOf (id.dev, id.mnt) = .ok (v, g₁) ∧
        ((id.ino ≤ maxHostIno ∧ g' = g₁ ∧ r = .ok (v <<< 47 ||| id.ino)) ∨
          (maxHostIno < id.ino ∧ maxHostIno < g₁.nextVirtualInode ∧ g' = g₁ ∧ ∀ k, r ≠ .ok k) ∨
          (maxHostIno < id.ino ∧ g₁.nextVirtualInode ≤ maxHostIno ∧
            g' = { g₁ with nextVirtualInode := g₁.nextVirtualInode + 1 } ∧
            r = .ok (v <<< 47 ||| (g₁.nextVirtualInode ||| virtualInodeFlag)))) := by
  simp only [getUniqueInode] at hg
  split at hg
  · cases hg
    exact .inl ⟨rfl, fun k hk => by cases hk⟩
  · rename_i v g₁ hu
    refine .inr ⟨v, g₁, hu, ?_⟩
    split at hg
    · rename_i hle
      cases hg
      exact .inl ⟨hle, rfl, rfl⟩
    · rename_i hgt
      split at hg
      · rename_i hv
        cases hg
        exact .inr (.inl ⟨by omega, hv, rfl, fun k hk => by cases hk⟩)
      · rename_i hv
        cases hg
        exact .inr (.inr ⟨by omega, by omega, rfl, rfl⟩)

/-- What `get_unique_inode` keeps of the generator. -/
theorem getUniqueInode_grows (hg : g.getUniqueInode id = (r, g')) :
    (∀ {p v}, g.devMntidMap p = some v → g'.devMntidMap p = some v) ∧
      g.nextVirtualInode ≤ g'.nextVirtualInode ∧ (g.Wf → g'.Wf) := by
  rcases getUniqueInode_cases hg with ⟨rfl, -⟩ | ⟨v, g₁, hu, hcase⟩
  · exact ⟨fun hv => hv, le_refl _, fun hw => hw⟩
  · obtain ⟨-, hmap, hvirt, hwf⟩ := uniqueIdOf_ok hu
    rcases hcase with ⟨-, rfl, -⟩ | ⟨-, -, rfl, -⟩ | ⟨-, hle, rfl, -⟩
    · exact ⟨hmap, hvirt.ge, hwf⟩
    · exact ⟨hmap, hvirt.ge, hwf⟩
    · refine ⟨hmap, by simp only; omega, fun hw => ?_⟩
      have hw₁ := hwf hw
      exact ⟨hw₁.map_pos, hw₁.map_lt, hw₁.map_inj, hw₁.next_pos, hw₁.next_le,
        by simp only; omega⟩

/-- A host number up to `MAX_HOST_INO` comes back with the pair's small id above it. -/
theorem getUniqueInode_of_le (hg : g.getUniqueInode id = (.ok k, g')) (hi : id.ino ≤ maxHostIno) :
    ∃ v, g'.devMntidMap (id.dev, id.mnt) = some v ∧ k = v <<< 47 ||| id.ino := by
  rcases getUniqueInode_cases hg with ⟨-, hne⟩ | ⟨v, g₁, hu, hcase⟩
  · exact absurd rfl (hne k)
  · rcases hcase with ⟨-, rfl, hk⟩ | ⟨hgt, -⟩ | ⟨hgt, -⟩
    · cases hk
      exact ⟨v, (uniqueIdOf_ok hu).1, rfl⟩
    · omega
    · omega

/-- Above `MAX_HOST_INO` the number is the next virtual one, with the pair's small id above it. -/
theorem getUniqueInode_of_gt (hg : g.getUniqueInode id = (.ok k, g')) (hi : maxHostIno < id.ino) :
    ∃ v, g'.devMntidMap (id.dev, id.mnt) = some v ∧ g.nextVirtualInode ≤ maxHostIno ∧
      g'.nextVirtualInode = g.nextVirtualInode + 1 ∧
      k = v <<< 47 ||| (g.nextVirtualInode ||| virtualInodeFlag) := by
  rcases getUniqueInode_cases hg with ⟨-, hne⟩ | ⟨v, g₁, hu, hcase⟩
  · exact absurd rfl (hne k)
  · obtain ⟨hmap, -, hvirt, -⟩ := uniqueIdOf_ok hu
    rcases hcase with ⟨hle, -⟩ | ⟨-, -, -, hne⟩ | ⟨-, hle, rfl, hk⟩
    · omega
    · exact absurd rfl (hne k)
    · cases hk
      exact ⟨v, hmap, hvirt ▸ hle, by simp [hvirt], by rw [hvirt]⟩

/-- Once the pair has its small id, the number of a host number up to `MAX_HOST_INO` is fixed. -/
theorem getUniqueInode_of_map (hv : g.devMntidMap (id.dev, id.mnt) = some v)
    (hi : id.ino ≤ maxHostIno) : g.getUniqueInode id = (.ok (v <<< 47 ||| id.ino), g) := by
  simp [getUniqueInode, uniqueIdOf, hv, hi]

theorem le_shiftLeft_or (hv : 1 ≤ v) (x : Nat) : 2 ^ 47 ≤ v <<< 47 ||| x := by
  have h₁ : 2 ^ 47 ≤ v <<< 47 := by
    rw [Nat.shiftLeft_eq]
    exact Nat.le_mul_of_pos_left _ hv
  exact le_trans h₁ Nat.left_le_or

theorem getUniqueInode_ge (hw : g.Wf) (hg : g.getUniqueInode id = (.ok k, g')) : 2 ^ 47 ≤ k := by
  rcases getUniqueInode_cases hg with ⟨-, hne⟩ | ⟨v, g₁, hu, hcase⟩
  · exact absurd rfl (hne k)
  · have hv : 1 ≤ v := ((uniqueIdOf_ok hu).2.2.2 hw).map_pos (uniqueIdOf_ok hu).1
    rcases hcase with ⟨-, -, hk⟩ | ⟨-, -, -, hne⟩ | ⟨-, -, -, hk⟩
    · cases hk
      exact le_shiftLeft_or hv _
    · exact absurd rfl (hne k)
    · cases hk
      exact le_shiftLeft_or hv _

end UniqueInodeGenerator

namespace PassthroughFs

open UniqueInodeGenerator

variable {fs fs' : PassthroughFs} {id : InodeId} {h : Option FileHandle} {r : Except IoError Nat}

/-- What `allocate_inode` may change: the counter grows, and the generator keeps its small ids
and its invariant while its virtual numbers grow. -/
structure Grows (fs fs' : PassthroughFs) : Prop where
  inodeMap : fs'.inodeMap = fs.inodeMap
  cfg : fs'.cfg = fs.cfg
  nextInode : fs.nextInode ≤ fs'.nextInode
  devMntidMap : ∀ {p v}, fs.inoAllocator.devMntidMap p = some v →
    fs'.inoAllocator.devMntidMap p = some v
  nextVirtualInode : fs.inoAllocator.nextVirtualInode ≤ fs'.inoAllocator.nextVirtualInode
  wf : fs.inoAllocator.Wf → fs'.inoAllocator.Wf

theorem Grows.refl (fs : PassthroughFs) : Grows fs fs :=
  ⟨rfl, rfl, le_refl _, fun hv => hv, le_refl _, fun hw => hw⟩

theorem uniqueInode_grows (hu : fs.uniqueInode id = (r, fs')) : Grows fs fs' := by
  simp only [uniqueInode, Prod.mk.injEq] at hu
  obtain ⟨hr, rfl⟩ := hu
  obtain ⟨hmap, hvirt, hwf⟩ := getUniqueInode_grows (Prod.ext hr rfl)
  exact ⟨rfl, rfl, le_refl _, hmap, hvirt, hwf⟩

theorem allocateInode_grows (ha : fs.allocateInode id h = (r, fs')) : Grows fs fs' := by
  simp only [allocateInode] at ha
  split at ha
  · split at ha <;> cases ha
    · exact Grows.refl fs
    · exact ⟨rfl, rfl, Nat.le_succ _, fun hv => hv, le_refl _, fun hw => hw⟩
  · split at ha
    · split at ha
      · cases ha
        exact Grows.refl fs
      · exact uniqueInode_grows ha
    · exact uniqueInode_grows ha

/-- Without `use_host_ino`, or above `MAX_HOST_INO`, the number kept for the key comes back. -/
theorem allocateInode_of_key (hk : getInodeLocked fs.inodeMap id h = some m)
    (hc : fs.cfg.useHostIno = false ∨ maxHostIno < id.ino) :
    fs.allocateInode id h = (.ok m, fs) := by
  rcases hc with hc | hc
  · simp [allocateInode, hc, hk]
  · by_cases hu : fs.cfg.useHostIno
    · simp [allocateInode, hu, hc, hk]
    · simp [allocateInode, hu, hk]

/-- With `use_host_ino`, a host number up to `MAX_HOST_INO` is numbered by the generator alone. -/
theorem allocateInode_of_le (hu : fs.cfg.useHostIno = true) (hi : id.ino ≤ maxHostIno) :
    fs.allocateInode id h = fs.uniqueInode id := by
  simp [allocateInode, hu, Nat.not_lt.mpr hi]

/-- What `allocate_inode` hands out: a number kept for the key, the counter, or a number of the
generator. -/
theorem allocateInode_ok (ha : fs.allocateInode id h = (.ok k, fs')) :
    (getInodeLocked fs.inodeMap id h = some k ∧ fs' = fs) ∨
      (fs.cfg.useHostIno = false ∧ k = fs.nextInode ∧ fs' = { fs with nextInode := fs.nextInode + 1 }) ∨
      (fs.cfg.useHostIno = true ∧ fs.inoAllocator.getUniqueInode id = (.ok k, fs'.inoAllocator) ∧
        fs' = { fs with inoAllocator := fs'.inoAllocator }) := by
  have hq : ∀ {fs'}, fs.uniqueInode id = (.ok k, fs') →
      fs.inoAllocator.getUniqueInode id = (.ok k, fs'.inoAllocator) ∧
        fs' = { fs with inoAllocator := fs'.inoAllocator } := by
    intro fs' hq
    simp only [uniqueInode, Prod.mk.injEq] at hq
    obtain ⟨hr, rfl⟩ := hq
    exact ⟨Prod.ext hr rfl, rfl⟩
  simp only [allocateInode] at ha
  split at ha
  · rename_i hu
    split at ha <;> cases ha
    · exact .inl ⟨by assumption, rfl⟩
    · exact .inr (.inl ⟨by simpa using hu, rfl, rfl⟩)
  · rename_i hu
    have hu' : fs.cfg.useHostIno = true := by simpa using hu
    split at ha
    · split at ha
      · cases ha
        exact .inl ⟨by assumption, rfl⟩
      · exact .inr (.inr ⟨hu', hq ha⟩)
    · exact .inr (.inr ⟨hu', hq ha⟩)

end PassthroughFs

/-! ## `do_lookup` -/

/-- The handle `do_lookup` works with for what the host answered. -/
def HostEntry.fileHandleIn (cfg : Config) (a : HostEntry) : Option FileHandle :=
  if cfg.inodeFileHandles then a.handle else none

namespace PassthroughFs

variable {fs fs' : PassthroughFs} {id : InodeId} {h : Option FileHandle} {mode : Nat}
  {r : Except IoError Nat}

@[simp] theorem openFileAndHandle_ok (a : HostEntry) :
    fs.openFileAndHandle (.ok a) = .ok (a.st, a.fileHandleIn fs.cfg) := rfl

/-- The message of the error for a number above `VFS_MAX_INO`. -/
def maxInodeReached : IoError := .custom .other "max inode number reached: 72057594037927935"

/-- The four ways the number of `do_lookup` comes out: the search finds a referenced entry and
takes a reference, or nothing is found and `allocate_inode` fails, or hands out a number above
`VFS_MAX_INO`, or one that is inserted with a refcount of 1. -/
theorem lookupInode_cases (hl : fs.lookupInode id h mode = some (r, fs')) :
    (∃ d, getAltLocked fs.inodeMap id h = some d ∧ d.refcount ≠ 0 ∧ r = .ok d.inode ∧
        fs' = { fs with inodeMap := fs.inodeMap.setRefcount d (min (d.refcount + 1) u64Max) }) ∨
      (getAltLocked fs.inodeMap id h = none ∧
        ((∃ e, fs.allocateInode id h = (.error e, fs') ∧ r = .error e) ∨
          (∃ k, fs.allocateInode id h = (.ok k, fs') ∧ vfsMaxIno < k ∧ r = .error maxInodeReached) ∨
          (∃ k fs₁, fs.allocateInode id h = (.ok k, fs₁) ∧ k ≤ vfsMaxIno ∧ r = .ok k ∧
            fs' = { fs₁ with inodeMap := fs₁.inodeMap.insert (.new k (inodeHandle h) 1 id mode) }))) := by
  unfold lookupInode at hl
  split at hl
  · rename_i d hd
    split at hl
    · cases hl
    · rename_i hr
      cases hl
      exact .inl ⟨d, hd, hr, rfl, rfl⟩
  · rename_i hd
    simp only at hl
    refine .inr ⟨hd, ?_⟩
    split at hl
    · rename_i e fs₁ ha
      cases hl
      exact .inl ⟨e, ha, rfl⟩
    · rename_i k fs₁ ha
      split at hl
      · rename_i hk
        cases hl
        exact .inr (.inl ⟨k, ha, hk, rfl⟩)
      · rename_i hk
        cases hl
        exact .inr (.inr ⟨k, fs₁, ha, Nat.le_of_not_lt hk, rfl, rfl⟩)

/-- The search loop spins exactly on an entry with no reference left. -/
theorem lookupInode_eq_none :
    fs.lookupInode id h mode = none ↔ ∃ d, getAltLocked fs.inodeMap id h = some d ∧ d.refcount = 0 := by
  unfold lookupInode
  constructor
  · intro hl
    split at hl
    · rename_i d hd
      split at hl
      · exact ⟨d, hd, by assumption⟩
      · cases hl
    · simp only at hl
      split at hl
      · cases hl
      · split at hl <;> cases hl
  · rintro ⟨d, hd, h0⟩
    simp [hd, h0]

/-- `do_lookup` fails before it looks at the table, or it ends as `lookupInode` does. -/
theorem doLookup_cases {parent : Nat} {ans : Except IoError HostEntry} {res : Except IoError Entry}
    (hl : fs.doLookup parent ans = some (res, fs')) :
    fs' = fs ∨ ∃ a r, ans = .ok a ∧
      fs.lookupInode (.fromStat a.st) (a.fileHandleIn fs.cfg) a.st.st.stMode = some (r, fs') ∧
      res = r.map fun inode => fs.entry inode a.st := by
  unfold doLookup at hl
  split at hl
  · cases hl
    exact .inl rfl
  · cases ans with
    | error e =>
      cases hl
      exact .inl rfl
    | ok a =>
      simp only [openFileAndHandle_ok, Option.map_eq_some_iff, Prod.mk.injEq] at hl
      obtain ⟨⟨r, fs₁⟩, hr, hres, rfl⟩ := hl
      exact .inr ⟨a, r, rfl, hr, hres.symm⟩

theorem doLookup_eq_none {parent : Nat} {ans : Except IoError HostEntry}
    (hl : fs.doLookup parent ans = none) :
    ∃ a, ans = .ok a ∧
      fs.lookupInode (.fromStat a.st) (a.fileHandleIn fs.cfg) a.st.st.stMode = none := by
  unfold doLookup at hl
  split at hl
  · cases hl
  · cases ans with
    | error e => cases hl
    | ok a => exact ⟨a, rfl, by simpa using hl⟩

/-- A lookup that answers an entry answers the number `lookupInode` came out with. -/
theorem doLookup_ok {parent : Nat} {a : HostEntry} {e : Entry}
    (hl : fs.doLookup parent (.ok a) = some (.ok e, fs')) :
    fs.lookupInode (.fromStat a.st) (a.fileHandleIn fs.cfg) a.st.st.stMode = some (.ok e.inode, fs') := by
  unfold doLookup at hl
  split at hl
  · cases hl
  · simp only [openFileAndHandle_ok, Option.map_eq_some_iff, Prod.mk.injEq] at hl
    obtain ⟨⟨r, fs₁⟩, hr, hres, rfl⟩ := hl
    cases r with
    | error e' => cases hres
    | ok k =>
      cases hres
      exact hr

/-! ## `forget_one` -/

/-- `forget_one` leaves the table, or takes `count` references from a live entry that is not the
root, and removes it when none is left. -/
theorem forgetOne_cases (fs : PassthroughFs) (s : InodeStore) (inode count : Nat) :
    fs.forgetOne s inode count = s ∨
      ∃ d, inode ≠ rootId ∧ s.data inode = some d ∧
        ((count < d.refcount ∧ fs.forgetOne s inode count = s.setRefcount d (d.refcount - count)) ∨
          (d.refcount ≤ count ∧ fs.forgetOne s inode count =
            ((s.setRefcount d 0).remove inode
              (!fs.cfg.useHostIno || decide (maxHostIno < d.id.ino))).2)) := by
  unfold forgetOne
  split
  · exact .inl rfl
  · rename_i hroot
    split
    · exact .inl rfl
    · rename_i d hd
      refine .inr ⟨d, hroot, hd, ?_⟩
      dsimp only
      split
      · rename_i h0
        exact .inr ⟨by omega, by rw [← h0]⟩
      · rename_i h0
        exact .inl ⟨by omega, rfl⟩

/-- `forget_one` leaves every entry but the one of `inode`. -/
theorem forgetOne_data_of_ne (fs : PassthroughFs) (s : InodeStore) {inode k : Nat} (count : Nat)
    (hk : k ≠ inode) : (fs.forgetOne s inode count).data k = s.data k := by
  rcases forgetOne_cases fs s inode count with heq | ⟨d, -, hd, ⟨-, heq⟩ | ⟨-, heq⟩⟩
  · rw [heq]
  · rw [heq, InodeStore.setRefcount_data, Function.update_of_ne (s.data_inode hd ▸ hk)]
  · have hset : (s.setRefcount d 0).data k = s.data k := by
      rw [InodeStore.setRefcount_data, Function.update_of_ne (s.data_inode hd ▸ hk)]
    rw [heq, InodeStore.remove_snd_data, Function.update_of_ne hk, hset]

/-- An entry `forget_one` leaves is an entry of the table before, with another refcount. -/
theorem forgetOne_data (fs : PassthroughFs) (s : InodeStore) {inode k count : Nat} {d : InodeData}
    (hd : (fs.forgetOne s inode count).data k = some d) :
    ∃ e, s.data k = some e ∧ d = { e with refcount := d.refcount } := by
  by_cases hk : k = inode
  · subst hk
    rcases forgetOne_cases fs s k count with heq | ⟨e, -, he, ⟨-, heq⟩ | ⟨-, heq⟩⟩
    · rw [heq] at hd
      exact ⟨d, hd, rfl⟩
    · have hi : e.inode = k := s.data_inode he
      rw [heq, InodeStore.setRefcount_data, ← hi, Function.update_self] at hd
      cases hd
      exact ⟨e, he, rfl⟩
    · rw [heq, InodeStore.remove_snd_data, Function.update_self] at hd
      cases hd
  · rw [forgetOne_data_of_ne fs s count hk] at hd
    exact ⟨d, hd, rfl⟩

/-- A property of the table that every `forget_one` keeps is kept by `batch_forget`. -/
theorem foldl_forgetOne {P : InodeStore → Prop} (hP : ∀ s i c, P s → P (fs.forgetOne s i c)) :
    ∀ (reqs : List (Nat × Nat)) (s : InodeStore), P s →
      P (reqs.foldl (fun inodes r => fs.forgetOne inodes r.1 r.2) s) := by
  intro reqs
  induction reqs with
  | nil => exact fun s hs => hs
  | cons r reqs ih => exact fun s hs => ih _ (hP s r.1 r.2 hs)

end PassthroughFs

/-! ## Runs of lookups and forgets -/

/-- The calls of the server that change the inode table: `lookup`, with the host's answer for the
name, and the two forgets. -/
inductive Op where
  | lookup (parent : Nat) (ans : Except IoError HostEntry)
  | forget (inode count : Nat)
  | batchForget (requests : List (Nat × Nat))

/-- The file system after a call, whatever the call answered; `none` where `do_lookup` spins. -/
def step (fs : PassthroughFs) : Op → Option PassthroughFs
  | .lookup parent ans => (fs.doLookup parent ans).map Prod.snd
  | .forget inode count => some (fs.forget inode count)
  | .batchForget requests => some (fs.batchForget requests)

/-- Every entry is referenced. -/
def Referenced (s : InodeStore) : Prop := ∀ {n d}, s.data n = some d → 0 < d.refcount

namespace Referenced

variable {s : InodeStore}

theorem insert (hs : Referenced s) {d : InodeData} (hd : 0 < d.refcount) : Referenced (s.insert d) := by
  intro n e he
  by_cases hn : n = d.inode
  · subst hn
    simp only [InodeStore.insert_data, Function.update_self, Option.some.injEq] at he
    exact he ▸ hd
  · simp only [InodeStore.insert_data, Function.update_of_ne hn] at he
    exact hs he

theorem setRefcount (hs : Referenced s) (d : InodeData) {r : Nat} (hr : 0 < r) :
    Referenced (s.setRefcount d r) := by
  intro n e he
  by_cases hn : n = d.inode
  · subst hn
    simp only [InodeStore.setRefcount_data, Function.update_self, Option.some.injEq] at he
    exact he ▸ hr
  · simp only [InodeStore.setRefcount_data, Function.update_of_ne hn] at he
    exact hs he

theorem forgetOne (fs : PassthroughFs) (hs : Referenced s) (inode count : Nat) :
    Referenced (fs.forgetOne s inode count) := by
  rcases PassthroughFs.forgetOne_cases fs s inode count with heq | ⟨d, -, hd, ⟨hlt, heq⟩ | ⟨-, heq⟩⟩
  · rw [heq]
    exact hs
  · rw [heq]
    exact hs.setRefcount d (by omega)
  · rw [heq]
    intro n e he
    have hdi : d.inode = inode := s.data_inode hd
    cases hk : !fs.cfg.useHostIno || decide (maxHostIno < d.id.ino) <;>
      simp only [hk, InodeStore.remove, Bool.false_eq_true, if_false, if_true] at he
    all_goals
      try split at he
      all_goals
        simp only [InodeStore.eraseKeys_data, InodeStore.eraseData_data] at he
        by_cases hn : n = inode
        · subst hn
          simp at he
        · rw [Function.update_of_ne hn, InodeStore.setRefcount_data,
            Function.update_of_ne (hdi ▸ hn)] at he
          exact hs he

end Referenced

namespace PassthroughFs

variable {fs fs' : PassthroughFs}

theorem lookupInode_referenced (hs : Referenced fs.inodeMap) {id : InodeId} {h : Option FileHandle}
    {mode : Nat} {r : Except IoError Nat} (hl : fs.lookupInode id h mode = some (r, fs')) :
    Referenced fs'.inodeMap := by
  rcases lookupInode_cases hl with ⟨d, -, hr, -, rfl⟩ | ⟨-, ⟨e, ha, -⟩ | ⟨k, ha, -, -⟩ | ⟨k, fs₁, ha, -, -, rfl⟩⟩
  · exact hs.setRefcount d (lt_min (Nat.succ_pos _) (by decide))
  · rw [(allocateInode_grows ha).inodeMap]
    exact hs
  · rw [(allocateInode_grows ha).inodeMap]
    exact hs
  · rw [(allocateInode_grows ha).inodeMap]
    exact hs.insert (Nat.succ_pos 0)

theorem step_referenced (hs : Referenced fs.inodeMap) {op : Op} (hstep : step fs op = some fs') :
    Referenced fs'.inodeMap := by
  cases op with
  | lookup parent ans =>
    obtain ⟨⟨res, fs₁⟩, hl, rfl⟩ := Option.map_eq_some_iff.mp hstep
    rcases doLookup_cases hl with rfl | ⟨a, r, -, hr, -⟩
    · exact hs
    · exact lookupInode_referenced hs hr
  | forget inode count =>
    cases hstep
    exact hs.forgetOne fs inode count
  | batchForget requests =>
    cases hstep
    exact foldl_forgetOne (P := Referenced) (fun s i c hs => Referenced.forgetOne fs hs i c)
      requests _ hs

theorem importRoot_referenced {root : Except IoError HostEntry} {cfg : Config}
    (h₀ : (new cfg).importRoot root = .ok fs) : Referenced fs.inodeMap := by
  cases root with
  | error e => cases h₀
  | ok a =>
    cases h₀
    exact Referenced.insert (fun h => by cases h) Nat.zero_lt_two

/-- Over every run of lookups and forgets from `import`, in every configuration, every entry keeps
a reference, and so the search loop of `do_lookup` always ends. -/
theorem doLookup_ne_none {cfg : Config} {root : Except IoError HostEntry} {fs₀ : PassthroughFs}
    (h₀ : (new cfg).importRoot root = .ok fs₀) (hreach : Transition.Reachable step fs₀ fs)
    (parent : Nat) (ans : Except IoError HostEntry) : fs.doLookup parent ans ≠ none := by
  have hs : Referenced fs.inodeMap :=
    Transition.Reachable.induction (P := fun fs => Referenced fs.inodeMap)
      (importRoot_referenced h₀) (fun _ _ _ hs hstep => step_referenced hs hstep) hreach
  intro hl
  obtain ⟨a, -, hn⟩ := doLookup_eq_none hl
  obtain ⟨d, hd, h0⟩ := lookupInode_eq_none.mp hn
  rcases getAltLocked_eq_some hd with ⟨m, -, hm⟩ | ⟨-, -, m, -, hm⟩
  all_goals
    have := hs hm
    omega

theorem lookup_after_import_answers :
    ∃ fs₀ : PassthroughFs,
      (new {}).importRoot (.ok ⟨⟨{ stIno := 2, stMode := sIfdir }, 1, 1⟩, none⟩) = .ok fs₀ ∧
        fs₀.doLookup rootId (.ok ⟨⟨{ stIno := 5, stMode := 0o100644 }, 1, 1⟩, none⟩) ≠ none := by
  obtain ⟨fs₀, h₀⟩ : ∃ fs₀ : PassthroughFs,
      (new {}).importRoot (.ok ⟨⟨{ stIno := 2, stMode := sIfdir }, 1, 1⟩, none⟩) = .ok fs₀ :=
    ⟨_, rfl⟩
  exact ⟨fs₀, h₀, doLookup_ne_none h₀ .init rootId _⟩

end PassthroughFs

/-! ## A reused host inode number under `use_host_ino` -/

def hostInoCfg : Config := { inodeFileHandles := true, useHostIno := true }

def sharedRoot : HostEntry := ⟨⟨{ stIno := 2, stMode := sIfdir }, 1, 1⟩, some ⟨1, [0]⟩⟩

/-- A file the host numbers 5, and a second file the host gives the same number and another
handle: the first was unlinked while the guest still holds it, and the host reused its number. -/
def reusedFirst : HostEntry := ⟨⟨{ stIno := 5, stMode := 0o100644 }, 1, 1⟩, some ⟨1, [1]⟩⟩

def reusedSecond : HostEntry := ⟨⟨{ stIno := 5, stMode := 0o100644 }, 1, 1⟩, some ⟨1, [2]⟩⟩

theorem lookup_overwrites_live_inode :
    ∃ fs₁ fs₂ fs₃ e₁ e₂,
      (PassthroughFs.new hostInoCfg).importRoot (.ok sharedRoot) = .ok fs₁ ∧
      fs₁.doLookup rootId (.ok reusedFirst) = some (.ok e₁, fs₂) ∧
      fs₂.doLookup rootId (.ok reusedSecond) = some (.ok e₂, fs₃) ∧
      e₂.inode = e₁.inode ∧
      fs₂.inodeMap.get e₁.inode = some (.new e₁.inode (.handle ⟨1, [1]⟩) 1 ⟨5, 1, 1⟩ 0o100644) ∧
      fs₃.inodeMap.get e₁.inode = some (.new e₁.inode (.handle ⟨1, [2]⟩) 1 ⟨5, 1, 1⟩ 0o100644) :=
  ⟨_, _, _, _, _, rfl, rfl, rfl, rfl, rfl, rfl⟩

end FuseBackend.Passthrough
