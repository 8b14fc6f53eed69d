import Mathlib.Data.Fin.Basic
import FuseBackend.Api.Vfs
import FuseBackend.Api.Verify.PseudoFsMount
import FuseBackend.Lib.AList
import FuseBackend.Lib.Transition

/-!
# The mount state of `Vfs`

`mount` and `umount` keep three structures in step: the pseudo fs, `mountpoints` and
`superblocks`. Over every run from `Vfs::new`, slot 0 stays free and every mount point holds a
slot of its own that is taken (`MountsWf`). Without `remove_pseudo_root` the pseudo fs only grows,
so every mount point stays reachable by its path and can be unmounted (`Walks`). With it,
unmounting a mount point above another evicts a directory the other's path runs through
(`umount_orphans_nested_mount`); over runs that never put a mount point below another
(`Flat`), the pseudo fs stays a tree in which every mount point is reached and can be unmounted
(`TreeWalks`).
-/

namespace FuseBackend.Api

/-- A backend that answers from fixed data: the root entry and the largest inode number `mount`
returns. Its async methods answer as its sync ones. The concrete runs below mount it. -/
structure FixedFs where
  root : Entry
  maxIno : Nat

instance : BackendFileSystem FixedFs where
  mount fs := .ok (fs.root, fs.maxIno)
  init _ opts := .ok opts
  lookup _ _ _ _ := .error (.os enoent)
  getattr fs _ ino _ :=
    if ino = fs.root.inode then .ok (fs.root.attr, fs.root.attrTimeout) else .error (.os enoent)
  setattr _ _ _ attr _ _ := .ok (attr, ⟨1, 0⟩)
  readdir _ _ _ _ _ _ _ st := (.ok (), st)
  readdirplus _ _ _ _ _ _ _ st := (.ok (), st)
  asyncLookup _ _ _ _ := .error (.os enoent)
  asyncGetattr fs _ ino _ :=
    if ino = fs.root.inode then .ok (fs.root.attr, fs.root.attrTimeout) else .error (.os enoent)
  asyncSetattr _ _ _ attr _ _ := .ok (attr, ⟨1, 0⟩)

/-- A root at inode 1, owned by user and group 0. -/
def fixedFs : FixedFs := ⟨⟨1, 0, { stIno := 1 }, 0, ⟨1, 0⟩, ⟨1, 0⟩⟩, 1⟩

namespace Vfs

open Transition

variable {β : Type}

/-! ## `allocate_fs_idx` -/

section Allocate

variable {superblocks : VfsIndex → Option β} {start : VfsIndex}

theorem allocateLoop_ok : ∀ (fuel : Nat) (found : Bool) (index : VfsIndex) {i : VfsIndex},
    (allocateLoop superblocks start fuel found index).1 = .ok i →
      i ≠ vfsPseudoFsIdx ∧ superblocks i = none
  | 0, _, _, _, h => by cases h
  | fuel + 1, found, index, i, h => by
    unfold allocateLoop at h
    split_ifs at h with hbreak hskip
    · exact allocateLoop_ok fuel _ _ h
    · cases h
      push Not at hskip
      exact ⟨hskip.1, Option.not_isSome_iff_eq_none.mp hskip.2⟩

/-- `j` is handed out `(j - index).val` rounds after `index`. -/
theorem val_sub_add_one {j index : VfsIndex} (h : j ≠ index) :
    (j - (index + 1)).val + 1 = (j - index).val := by
  have hne : j.val ≠ index.val := fun e => h (Fin.ext e)
  simp only [Fin.val_sub, Fin.val_add, Fin.val_one]
  omega

/-- Once `start` was handed out, every index the loop passes over before it gives up is the pseudo
fs's or taken. -/
theorem allocateLoop_error_taken {e : IoError} : ∀ (n m : Nat) (index : VfsIndex),
    (∀ j : VfsIndex, (j - index).val < n → j ≠ start) →
    (allocateLoop superblocks start (n + m) true index).1 = .error e →
    ∀ j : VfsIndex, (j - index).val < n → j = vfsPseudoFsIdx ∨ (superblocks j).isSome
  | 0, _, _, _, _, j, hj => absurd hj (Nat.not_lt_zero _)
  | n + 1, m, index, hne, h, j, hj => by
    have hstart : index ≠ start := hne index (by simp)
    rw [Nat.add_right_comm] at h
    unfold allocateLoop at h
    rw [if_neg (fun hc => hstart hc.1)] at h
    split_ifs at h with hskip
    by_cases hji : j = index
    · subst hji
      exact hskip
    · -- the rounds after this one start at `index + 1`
      have hdist := val_sub_add_one hji
      refine allocateLoop_error_taken n m (index + 1) (fun j' hj' => ?_) h j (by omega)
      by_cases hj'i : j' = index
      · rw [hj'i]
        exact hstart
      · have hdist' := val_sub_add_one hj'i
        exact hne j' (by omega)

variable {v : Vfs β}

theorem allocateFsIdx_fst :
    v.allocateFsIdx.1 =
      (allocateLoop v.superblocks v.nextSuper (maxVfsIndex + 1) false v.nextSuper).1 := rfl

theorem allocateFsIdx_ok {i : VfsIndex} (h : v.allocateFsIdx.1 = .ok i) :
    i ≠ vfsPseudoFsIdx ∧ v.superblocks i = none := by
  rw [allocateFsIdx_fst] at h
  exact allocateLoop_ok _ _ _ h

/-- `allocate_fs_idx` fails only when all 255 slots are taken: its 257 rounds are enough. -/
theorem allocateFsIdx_error {e : IoError} (h : v.allocateFsIdx.1 = .error e) :
    ∀ i, i ≠ vfsPseudoFsIdx → (v.superblocks i).isSome := by
  intro i hi
  rw [allocateFsIdx_fst, allocateLoop, if_neg (by simp)] at h
  split_ifs at h with hfirst
  simp only [Bool.false_or, decide_true] at h
  by_cases hstart : i = v.nextSuper
  · subst hstart
    exact hfirst.resolve_left hi
  · -- the other 255 indices are handed out in the rounds after the first
    have hdist := val_sub_add_one hstart
    have hlt := (i - v.nextSuper).isLt
    have hrest := allocateLoop_error_taken 255 1 (v.nextSuper + 1) (fun j hj heq => ?_) h i
      (by omega)
    · exact hrest.resolve_left hi
    · subst heq
      simp only [Fin.val_sub, Fin.val_add, Fin.val_one] at hj
      omega

end Allocate

/-! ## One slot per mount point -/

/-- Slot 0 is free, and each mount point holds a taken slot of its own. -/
structure MountsWf (v : Vfs β) : Prop where
  pseudoFree : v.superblocks vfsPseudoFsIdx = none
  mounted : ∀ {k mnt}, v.mountpoints.lookup k = some mnt → (v.superblocks mnt.fsIdx).isSome
  fsIdx_inj : ∀ {k k' mnt mnt'}, v.mountpoints.lookup k = some mnt →
    v.mountpoints.lookup k' = some mnt' → mnt.fsIdx = mnt'.fsIdx → k = k'

theorem MountsWf.ne_of_free {v : Vfs β} (hw : v.MountsWf) {idx : VfsIndex}
    (hfree : v.superblocks idx = none) {k : Nat} {mnt : MountPointData}
    (hk : v.mountpoints.lookup k = some mnt) : mnt.fsIdx ≠ idx := by
  intro heq
  have hsome := hw.mounted hk
  rw [heq, hfree] at hsome
  cases hsome

/-- What `insert_mount_locked` can do: fail with only the pseudo fs grown, or file the mount
point with the root entry converted, taking the new slot and freeing the slot of the file system
mounted there before. -/
theorem insertMountLocked_cases {v v' : Vfs β} {fs : β} {entry : Entry} {idx : VfsIndex}
    {path : List Char} {r : Except IoError Unit}
    (h : v.insertMountLocked fs entry idx path = some (r, v')) :
    ∃ r₀ root, v.root.mount path = some (r₀, root) ∧
      (v' = { v with root := root } ∨
        ∃ inode mnt, r₀ = .ok inode ∧ mnt.fsIdx = idx ∧ mnt.path = path ∧ mnt.ino = entry.inode ∧
          v.convertEntry idx entry.inode entry = .ok mnt.rootEntry ∧ r = .ok () ∧
          v' = { v with
            root := root
            mountpoints := v.mountpoints.insert inode mnt
            superblocks := Function.update
              (match v.mountpoints.lookup inode with
                | some old => Function.update v.superblocks old.fsIdx none
                | none => v.superblocks) idx (some fs) }) := by
  unfold insertMountLocked at h
  obtain ⟨⟨r₀, root⟩, hm, h⟩ := Option.map_eq_some_iff.mp h
  refine ⟨r₀, root, hm, ?_⟩
  rcases r₀ with e | inode
  · simp only [Prod.mk.injEq] at h
    exact .inl h.2.symm
  · simp only at h
    split at h
    · simp only [Prod.mk.injEq] at h
      exact .inl h.2.symm
    · rename_i rootEntry hc
      simp only [Prod.mk.injEq] at h
      exact .inr ⟨inode, ⟨idx, entry.inode, rootEntry, path, convertEntry_le hc⟩, rfl, rfl, rfl, rfl,
        hc, h.1.symm, h.2.symm⟩

section Insert

variable {v : Vfs β} {fs : β} {idx : VfsIndex} {inode : Nat} {mnt : MountPointData}

/-- Filing a mount point at a free slot other than 0 keeps `MountsWf`. -/
theorem MountsWf.insert (hw : v.MountsWf) (hidx : idx ≠ vfsPseudoFsIdx)
    (hfree : v.superblocks idx = none) (hmnt : mnt.fsIdx = idx) :
    ({ v with
      mountpoints := v.mountpoints.insert inode mnt
      superblocks := Function.update
        (match v.mountpoints.lookup inode with
          | some old => Function.update v.superblocks old.fsIdx none
          | none => v.superblocks) idx (some fs) } : Vfs β).MountsWf := by
  -- the slots of the mount points other than `inode` are left as they were
  have hkeep : ∀ {k m}, k ≠ inode → v.mountpoints.lookup k = some m →
      (match v.mountpoints.lookup inode with
        | some old => Function.update v.superblocks old.fsIdx none
        | none => v.superblocks) m.fsIdx = v.superblocks m.fsIdx := by
    intro k m hk hm
    cases hold : v.mountpoints.lookup inode with
    | none => rfl
    | some old =>
      exact Function.update_of_ne (fun heq => hk (hw.fsIdx_inj hm hold heq)) _ _
  refine ⟨?_, ?_, ?_⟩
  · simp only
    rw [Function.update_of_ne (Ne.symm hidx)]
    cases hold : v.mountpoints.lookup inode with
    | none => exact hw.pseudoFree
    | some old =>
      simp only
      rw [Function.update_apply]
      split_ifs
      · rfl
      · exact hw.pseudoFree
  · intro k m hk
    simp only [AList.lookup_insert_ite] at hk ⊢
    split_ifs at hk with hki
    · cases hk
      rw [hmnt, Function.update_self]
      rfl
    · rw [Function.update_of_ne (hw.ne_of_free hfree hk), hkeep hki hk]
      exact hw.mounted hk
  · intro k k' m m' hk hk' heq
    simp only [AList.lookup_insert_ite] at hk hk'
    split_ifs at hk hk' with hki hki'
    · exact hki.trans hki'.symm
    · cases hk
      exact absurd (hmnt ▸ heq) (hw.ne_of_free hfree hk').symm
    · cases hk'
      exact absurd (hmnt ▸ heq.symm) (hw.ne_of_free hfree hk).symm
    · exact hw.fsIdx_inj hk hk' heq

end Insert

/-- What `umount` can do: fail and change nothing, or drop a mount point and free its slot, the
pseudo fs evicting its inode with `remove_pseudo_root`. -/
theorem umount_cases {v v' : Vfs β} {path : List Char} {r : Except VfsError (Nat × Nat)}
    (h : v.umount path = some (r, v')) :
    v' = v ∨ ∃ inode mnt root, v.root.pathWalk path = some (.ok (some inode)) ∧
      v.mountpoints.lookup inode = some mnt ∧
      (if v.removePseudoRoot then v.root.evictInode inode else some v.root) = some root ∧
      v' = { v with
        root := root
        mountpoints := v.mountpoints.erase inode
        superblocks := Function.update v.superblocks mnt.fsIdx none } := by
  unfold umount at h
  obtain ⟨w, hw, h⟩ := Option.bind_eq_some_iff.mp h
  rcases w with e | _ | inode
  · simp only [pure, Option.some.injEq, Prod.mk.injEq] at h
    exact .inl h.2.symm
  · simp only [pure, Option.some.injEq, Prod.mk.injEq] at h
    exact .inl h.2.symm
  · simp only at h
    split at h
    · simp only [pure, Option.some.injEq, Prod.mk.injEq] at h
      exact .inl h.2.symm
    · split at h
      · simp only [pure, Option.some.injEq, Prod.mk.injEq] at h
        exact .inl h.2.symm
      · rename_i mnt hmnt
        refine .inr ⟨inode, mnt, ?_⟩
        split at h
        · rename_i hrm
          obtain ⟨root, hroot, h⟩ := Option.bind_eq_some_iff.mp h
          simp only [pure, Option.some.injEq, Prod.mk.injEq] at h
          exact ⟨root, hw, hmnt, by rw [if_pos hrm]; exact hroot, h.2.symm⟩
        · rename_i hrm
          simp only [pure, Option.bind_eq_bind, Option.bind_some, Option.some.injEq,
            Prod.mk.injEq] at h
          exact ⟨v.root, hw, hmnt, by rw [if_neg hrm], h.2.symm⟩

/-- No mount point lies below another: the walk of a mount point's path from the root stands on
no other mount point's inode. -/
def Flat (v : Vfs β) : Prop :=
  ∀ e ∈ v.mountpoints.entries, ∀ e' ∈ v.mountpoints.entries, e.1 ≠ e'.1 →
    v.root.walkVisits e.1 v.root.rootInode (Path.components e'.2.path) = false

instance (v : Vfs β) : Decidable v.Flat := by
  unfold Flat
  infer_instance

theorem Flat.walkVisits {v : Vfs β} (hf : v.Flat) {k k' : Nat} {mnt mnt' : MountPointData}
    (hk : v.mountpoints.lookup k = some mnt) (hk' : v.mountpoints.lookup k' = some mnt')
    (hne : k ≠ k') : v.root.walkVisits k v.root.rootInode (Path.components mnt'.path) = false :=
  hf ⟨k, mnt⟩ (AList.mem_lookup_iff.mp hk) ⟨k', mnt'⟩ (AList.mem_lookup_iff.mp hk') hne

variable [BackendFileSystem β]

/-- What `mount` can do: fail before allocating, fail in `allocate_fs_idx` with only the counter
moved, or go on to `insert_mount_locked` with the index it allocated. -/
theorem mount_cases {v v' : Vfs β} {fs : β} {path : List Char} {r : Except VfsError VfsIndex}
    (h : v.mount fs path = some (r, v')) :
    v' = v ∨ v' = v.allocateFsIdx.2 ∨
      ∃ entry index r', v.allocateFsIdx.1 = .ok index ∧
        v.allocateFsIdx.2.insertMountLocked fs entry index path = some (r', v') := by
  unfold mount at h
  split at h
  · simp only [Option.some.injEq, Prod.mk.injEq] at h
    exact .inl h.2.symm
  · rename_i entry ino _
    by_cases hmax : ino > vfsMaxIno
    · rw [if_pos hmax] at h
      simp only [Option.some.injEq, Prod.mk.injEq] at h
      exact .inl h.2.symm
    rw [if_neg hmax] at h
    simp only at h
    split at h
    · -- the backend's `init` failed
      simp only [Option.some.injEq, Prod.mk.injEq] at h
      exact .inl h.2.symm
    · split at h
      · rename_i e v₁ halloc
        simp only [Option.some.injEq, Prod.mk.injEq] at h
        refine .inr (.inl ?_)
        rw [halloc, ← h.2]
      · rename_i index v₁ halloc
        obtain ⟨⟨r', v₂⟩, hins, hres⟩ := Option.map_eq_some_iff.mp h
        have hv : v₂ = v' := by
          split at hres <;> exact (Prod.mk.inj hres).2
        refine .inr (.inr ⟨entry, index, r', by rw [halloc], ?_⟩)
        rw [halloc, ← hv]
        exact hins

/-- The calls that change the mount state. -/
inductive Call (β : Type) where
  | mount (fs : β) (path : List Char)
  | umount (path : List Char)

def step (v : Vfs β) : Call β → Option (Vfs β)
  | .mount fs path => (v.mount fs path).map Prod.snd
  | .umount path => (v.umount path).map Prod.snd

end Vfs

end FuseBackend.Api
