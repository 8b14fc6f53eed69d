import FuseBackend.Api.Verify.VfsMount

/-!
# Attributes through `Vfs`

What the kernel is told about an inode of a mounted file system: its `VfsInode` number, and its
ids under the id mapping. `insert_mount_locked` stores the backend's root entry converted once,
and `readdirplus` hands that stored entry out as it is; `lookup_pseudo` converts it once more, so
a lookup that crosses into a mount point maps the ids twice. The async `getattr` and `setattr`
pass the backend's attributes through unconverted, where the sync ones convert them.
-/

namespace FuseBackend.Api

namespace Vfs

open Transition

variable {β : Type}

/-! ## Converting entries -/

theorem remapAttrId_stUid {v : Vfs β} {i x r : UInt32} (hm : v.idMapping = some (i, x, r))
    (attr : Stat64) : (v.remapAttrId true attr).stUid = RangeShift.shift i x r attr.stUid := by
  simp [remapAttrId, hm]

/-- `convert_entry` maps the ids as `remap_attr_id(true)` does. -/
theorem convertEntry_eq (v : Vfs β) (fsIdx : VfsIndex) (inode : Nat) (entry : Entry) :
    v.convertEntry fsIdx inode entry = (convertInode fsIdx inode).map fun ino =>
      { entry with inode := ino, attr := v.remapAttrId true { entry.attr with stIno := ino } } := by
  unfold convertEntry remapAttrId
  rcases hm : v.idMapping with _ | ⟨i, x, r⟩ <;> simp

theorem convertInode_ok (fsIdx : VfsIndex) {inode : Nat} (h : inode ≤ vfsMaxIno) :
    ∃ ino, convertInode fsIdx inode = .ok ino := by
  unfold convertInode
  split_ifs with h0 hmax
  · exact ⟨_, rfl⟩
  · exact absurd hmax (Nat.not_lt_of_le h)
  · exact ⟨_, rfl⟩

theorem convertEntry_stUid {v : Vfs β} {i x r : UInt32} (hm : v.idMapping = some (i, x, r))
    {fsIdx : VfsIndex} {inode : Nat} {entry e : Entry} (h : v.convertEntry fsIdx inode entry = .ok e) :
    e.attr.stUid = RangeShift.shift i x r entry.attr.stUid := by
  rw [convertEntry_eq] at h
  cases hc : convertInode fsIdx inode with
  | error err => simp [hc, Except.map] at h
  | ok ino =>
    simp only [hc, Except.map, Except.ok.injEq] at h
    rw [← h, remapAttrId_stUid hm]

/-! ## Root entries of the mount points -/

/-- Every mount point stores the root entry its backend returned, converted once. -/
def RootEntries (v : Vfs β) : Prop :=
  ∀ k mnt, v.mountpoints.lookup k = some mnt →
    ∃ e : Entry, e.inode = mnt.ino ∧ v.convertEntry mnt.fsIdx e.inode e = .ok mnt.rootEntry

theorem rootEntries_new (opts : VfsOptions) : (new opts : Vfs β).RootEntries := by
  intro k mnt h
  cases h

theorem rootEntries_of_step [BackendFileSystem β] : Preserved (step (β := β)) RootEntries := by
  intro v c v' hr h
  cases c with
  | mount fs path =>
    obtain ⟨⟨r, v''⟩, hm, rfl⟩ := Option.map_eq_some_iff.mp h
    obtain rfl | rfl | ⟨entry, index, r', -, hins⟩ := mount_cases hm
    · exact hr
    · exact hr
    · obtain ⟨r₀, root, -, rfl | ⟨inode, mnt, -, hidx, -, hino, hconv, -, rfl⟩⟩ :=
        insertMountLocked_cases hins
      · exact hr
      · intro k m hk
        simp only [AList.lookup_insert_ite] at hk
        split_ifs at hk with hki
        · cases hk
          refine ⟨entry, hino.symm, ?_⟩
          rw [hidx]
          exact hconv
        · exact hr _ _ hk
  | umount path =>
    obtain ⟨⟨r, v''⟩, hm, rfl⟩ := Option.map_eq_some_iff.mp h
    obtain rfl | ⟨inode, mnt, root, -, -, -, rfl⟩ := umount_cases hm
    · exact hr
    · intro k m hk
      simp only [AList.lookup_erase_ite] at hk
      split_ifs at hk
      exact hr _ _ hk

/-- Under an id mapping, a lookup that crosses into a mount point maps the ids of the backend's
root twice, while the stored root entry, which `readdirplus` hands out, has them mapped once. -/
theorem lookupPseudo_maps_ids_twice [BackendFileSystem β] {opts : VfsOptions} {v : Vfs β}
    (hv : Reachable step (new opts) v) {i x r : UInt32} (hmap : v.idMapping = some (i, x, r))
    {k : Nat} {mnt : MountPointData} (hk : v.mountpoints.lookup k = some mnt) {now : Nat}
    {idata : VfsInode} {name : String} {entry : Entry}
    (hl : v.root.lookup now idata.ino name = .ok entry) (he : entry.inode = k) :
    ∃ u : UInt32, mnt.rootEntry.attr.stUid = RangeShift.shift i x r u ∧
      (v.lookupPseudo v.root now idata name).map (·.attr.stUid) =
        .ok (RangeShift.shift i x r (RangeShift.shift i x r u)) := by
  obtain ⟨e, -, hconv⟩ := Reachable.induction (rootEntries_new opts) rootEntries_of_step hv _ _ hk
  refine ⟨e.attr.stUid, convertEntry_stUid hmap hconv, ?_⟩
  -- the crossing answers with the stored entry converted again
  have hcross : v.lookupPseudo v.root now idata name =
      v.convertEntry mnt.fsIdx mnt.ino mnt.rootEntry := by
    subst he
    simp only [lookupPseudo, hl, hk]
  obtain ⟨ino, hino⟩ := convertInode_ok mnt.fsIdx mnt.ino_le
  have hagain : v.convertEntry mnt.fsIdx mnt.ino mnt.rootEntry =
      .ok { mnt.rootEntry with
        inode := ino, attr := v.remapAttrId true { mnt.rootEntry.attr with stIno := ino } } := by
    rw [convertEntry_eq, hino]
    rfl
  rw [hcross, hagain, ← convertEntry_stUid hmap hconv]
  simp only [Except.map, remapAttrId_stUid hmap]

theorem crossing_lookup_maps_root_owner_twice :
    ∃ (v : Vfs FixedFs) (entry : Entry) (mnt : MountPointData),
      run step (new ⟨0, (0, 1, 65536)⟩) [.mount fixedFs "/a".toList] = some v ∧
      v.root.lookup 0 (⟨rootId⟩ : VfsInode).ino "a" = .ok entry ∧
      v.mountpoints.lookup entry.inode = some mnt ∧
      ∃ u : UInt32, mnt.rootEntry.attr.stUid = RangeShift.shift 0 1 65536 u ∧
        (v.lookupPseudo v.root 0 ⟨rootId⟩ "a").map (·.attr.stUid) =
          .ok (RangeShift.shift 0 1 65536 (RangeShift.shift 0 1 65536 u)) := by
  obtain ⟨v, entry, mnt, hv, hl, hk, hmap⟩ : ∃ (v : Vfs FixedFs) (entry : Entry) (mnt : MountPointData),
      run step (new ⟨0, (0, 1, 65536)⟩) [.mount fixedFs "/a".toList] = some v ∧
      v.root.lookup 0 (⟨rootId⟩ : VfsInode).ino "a" = .ok entry ∧
      v.mountpoints.lookup entry.inode = some mnt ∧ v.idMapping = some (0, 1, 65536) :=
    ⟨_, _, _, rfl, rfl, rfl, rfl⟩
  exact ⟨v, entry, mnt, hv, hl, hk, lookupPseudo_maps_ids_twice (reachable_of_run hv) hmap hk hl rfl⟩

/-- With the documented mapping `(0, 1, 65536)` and a backend whose root is owned by user 0,
mounted at `/a`: looking up `a` in the root reports user 2, while `readdirplus` of the root and
`getattr` of the mount's root report user 1. -/
theorem lookup_maps_mount_root_twice :
    ((run step (new ⟨0, (0, 1, 65536)⟩ : Vfs FixedFs) [.mount fixedFs "/a".toList]).map fun v =>
      ((v.lookup 0 {} ⟨rootId⟩ "a").map (·.attr.stUid),
        (v.readdirplus 0 {} ⟨rootId⟩ 0 4096 0 (fun acc _ e => (.ok 1, acc ++ [e.attr.stUid])) []).2,
        (v.getattr 0 {} ⟨2 ^ 56 + 1⟩ none).map (·.1.stUid))) =
      some (.ok 2, [1], .ok 1) := by
  decide

/-! ## The async entry points -/

variable [BackendFileSystem β]

/-- A backend mounted at `/a` as file system 1 reports its root as inode 1 of user 0. Under the
mapping `(0, 1, 65536)`, `getattr` of the mount's root reports inode `1 << 56 | 1` of user 1,
and `async_getattr` inode 1 of user 0. -/
theorem async_getattr_skips_conversion :
    ((run step (new ⟨0, (0, 1, 65536)⟩ : Vfs FixedFs) [.mount fixedFs "/a".toList]).map fun v =>
      ((v.getattr 0 {} ⟨2 ^ 56 + 1⟩ none).map fun a => (a.1.stIno, a.1.stUid),
        (v.asyncGetattr 0 {} ⟨2 ^ 56 + 1⟩ none).map fun a => (a.1.stIno, a.1.stUid))) =
      some (.ok (2 ^ 56 + 1, 1), .ok (1, 0)) := by
  decide

end Vfs

end FuseBackend.Api
