import FuseBackend.Api.Verify.VfsMount

/-!
# Inode numbers and file-system indices of `Vfs`

`convert_inode` packs a backend's index into the top 8 bits of the inode number the kernel sees
and the backend's own number into the 56 bits below; the accessors of `VfsInode` read both back,
so the packing is injective, and `get_real_rootfs` routes the number to the backend it came from
(`convert_inode_packs_and_routes`).

`allocate_fs_idx` advances the 8-bit counter from where it stands, through all 256 values and
back to its start, skipping the index of the pseudo fs and the occupied ones. Round `k` of the
loop looks at `start + k`; the loop stops at round 256 at the latest, so 257 rounds of fuel are
never used up (`allocateLoop_fuel`). With what `allocateFsIdx_ok` and `allocateFsIdx_error` say,
it finds a free index whenever there is one (`allocate_fs_idx_finds_free`).
-/

namespace FuseBackend.Api

namespace Vfs

variable {β : Type}

/-! ## Packing an inode number -/

theorem vfsMaxIno_eq : vfsMaxIno = 2 ^ vfsIndexShift - 1 := by decide

theorem lt_of_le_vfsMaxIno {ino : Nat} (h : ino ≤ vfsMaxIno) : ino < 2 ^ vfsIndexShift := by
  have hpos := Nat.two_pow_pos vfsIndexShift
  rw [vfsMaxIno_eq] at h
  omega

/-- The packed number as arithmetic: the index times `2 ^ 56`, plus the backend's number. -/
theorem pack_eq (fsIdx : VfsIndex) {ino : Nat} (h : ino ≤ vfsMaxIno) :
    fsIdx.val <<< vfsIndexShift ||| ino = fsIdx.val * 2 ^ vfsIndexShift + ino := by
  rw [← Nat.shiftLeft_add_eq_or_of_lt (lt_of_le_vfsMaxIno h), Nat.shiftLeft_eq]

theorem fsIdx_pack (fsIdx : VfsIndex) {ino : Nat} (h : ino ≤ vfsMaxIno) :
    (VfsInode.mk (fsIdx.val * 2 ^ vfsIndexShift + ino)).fsIdx = fsIdx := by
  have hdiv : (fsIdx.val * 2 ^ vfsIndexShift + ino) / 2 ^ vfsIndexShift = fsIdx.val := by
    rw [Nat.add_comm, Nat.add_mul_div_right _ _ (Nat.two_pow_pos _),
      Nat.div_eq_of_lt (lt_of_le_vfsMaxIno h), Nat.zero_add]
  rw [VfsInode.fsIdx, Nat.shiftRight_eq_div_pow, hdiv, Fin.ofNat_val_eq_self]

theorem ino_pack (fsIdx : VfsIndex) {ino : Nat} (h : ino ≤ vfsMaxIno) :
    (VfsInode.mk (fsIdx.val * 2 ^ vfsIndexShift + ino)).ino = ino := by
  rw [VfsInode.ino, vfsMaxIno_eq, Nat.and_two_pow_sub_one_eq_mod, Nat.mul_add_mod_self_right,
    Nat.mod_eq_of_lt (lt_of_le_vfsMaxIno h)]

theorem convertInode_of_pos (fsIdx : VfsIndex) {ino : Nat} (hpos : 0 < ino) (h : ino ≤ vfsMaxIno) :
    convertInode fsIdx ino = .ok (fsIdx.val * 2 ^ vfsIndexShift + ino) := by
  unfold convertInode
  rw [if_neg (Nat.ne_of_gt hpos), if_neg (Nat.not_lt_of_le h), pack_eq fsIdx h]

theorem convertInode_zero (fsIdx : VfsIndex) : convertInode fsIdx 0 = .ok 0 := by
  simp [convertInode]

theorem convertInode_error_iff (fsIdx : VfsIndex) (ino : Nat) :
    (∃ e, convertInode fsIdx ino = .error e) ↔ vfsMaxIno < ino := by
  unfold convertInode
  split_ifs with h0 hmax
  · simp only [exists_false, false_iff, not_lt, h0]
    exact Nat.zero_le _
  · simp [hmax]
  · simp [hmax]

/-- A number of the pseudo fs' index stays with the pseudo fs; any other index routes the number
to the backend in its slot. -/
theorem getRealRootfs_of_slot (v : Vfs β) {inode : VfsInode} {fs : β}
    (hidx : inode.fsIdx ≠ vfsPseudoFsIdx) (hslot : v.superblocks inode.fsIdx = some fs) :
    v.getRealRootfs inode = .ok (.inr fs, inode) := by
  have hpseudo : inode.isPseudoFs = false := beq_false_of_ne hidx
  simp [getRealRootfs, hpseudo, getFsByIdx, hslot, Except.map]

/-- `convert_inode` packs an index other than the pseudo fs' and a number in `(0, VFS_MAX_INO]`
into a number that decodes to both and routes to the backend in the slot; the packing is
injective; 0 stays 0; and only numbers above `VFS_MAX_INO` are refused. -/
theorem convert_inode_packs_and_routes :
    (∀ (fsIdx : VfsIndex) (ino : Nat), fsIdx ≠ vfsPseudoFsIdx → 0 < ino → ino ≤ vfsMaxIno →
      ∃ v, convertInode fsIdx ino = .ok v ∧ (VfsInode.mk v).fsIdx = fsIdx ∧
        (VfsInode.mk v).ino = ino ∧ (VfsInode.mk v).isPseudoFs = false ∧
        ∀ (vfs : Vfs β) (fs : β), vfs.superblocks fsIdx = some fs →
          vfs.getRealRootfs ⟨v⟩ = .ok (.inr fs, ⟨v⟩)) ∧
    (∀ (f₁ f₂ : VfsIndex) (i₁ i₂ v : Nat), 0 < i₁ → 0 < i₂ →
      convertInode f₁ i₁ = .ok v → convertInode f₂ i₂ = .ok v → f₁ = f₂ ∧ i₁ = i₂) ∧
    (∀ fsIdx : VfsIndex, convertInode fsIdx 0 = .ok 0) ∧
    (∀ (fsIdx : VfsIndex) (ino : Nat), (∃ e, convertInode fsIdx ino = .error e) ↔ vfsMaxIno < ino) := by
  refine ⟨fun fsIdx ino hidx hpos hle => ?_, fun f₁ f₂ i₁ i₂ v hp₁ hp₂ h₁ h₂ => ?_,
    convertInode_zero, convertInode_error_iff⟩
  · have hf := fsIdx_pack fsIdx hle
    refine ⟨_, convertInode_of_pos fsIdx hpos hle, hf, ino_pack fsIdx hle, ?_,
      fun vfs fs hslot => getRealRootfs_of_slot vfs (by rw [hf]; exact hidx) (by rw [hf]; exact hslot)⟩
    rw [VfsInode.isPseudoFs, hf]
    exact beq_false_of_ne hidx
  · -- both numbers are in range, so each decodes to its own index and number
    have hle₁ := convertInode_le h₁
    have hle₂ := convertInode_le h₂
    rw [convertInode_of_pos f₁ hp₁ hle₁] at h₁
    rw [convertInode_of_pos f₂ hp₂ hle₂] at h₂
    have hv := (Except.ok.inj h₁).trans (Except.ok.inj h₂).symm
    refine ⟨?_, ?_⟩
    · rw [← fsIdx_pack f₁ hle₁, ← fsIdx_pack f₂ hle₂, hv]
    · rw [← ino_pack f₁ hle₁, ← ino_pack f₂ hle₂, hv]

theorem convert_inode_one_five :
    ∃ v, convertInode 1 5 = .ok v ∧ (VfsInode.mk v).fsIdx = 1 ∧ (VfsInode.mk v).ino = 5 ∧
      (VfsInode.mk v).isPseudoFs = false ∧
      ∀ (vfs : Vfs Unit) (fs : Unit), vfs.superblocks 1 = some fs →
        vfs.getRealRootfs ⟨v⟩ = .ok (.inr fs, ⟨v⟩) :=
  (convert_inode_packs_and_routes (β := Unit)).1 1 5 (by decide) (by decide) (by decide)

/-! ## Allocating an index -/

theorem add_ofNat_eq_self_iff (start : VfsIndex) {k : Nat} (hk : k ≤ 256) :
    start + Fin.ofNat 256 k = start ↔ k = 0 ∨ k = 256 := by
  rw [Fin.ext_iff, Fin.val_add, Fin.val_ofNat]
  omega

theorem add_ofNat_succ (start : VfsIndex) (k : Nat) :
    start + Fin.ofNat 256 k + 1 = start + Fin.ofNat 256 (k + 1) := by
  rw [Fin.ext_iff, Fin.val_add, Fin.val_add, Fin.val_add, Fin.val_ofNat, Fin.val_ofNat]
  simp only [Fin.val_one]
  omega

section Allocate

variable (superblocks : VfsIndex → Option β) (start : VfsIndex)

/-- The flag the loop carries at round `k`: `start` has been handed out once. -/
theorem found_step {k : Nat} (found : Bool) (hfound : found = decide (1 ≤ k)) :
    (found || decide (start + Fin.ofNat 256 k = start)) = decide (1 ≤ k + 1) := by
  subst hfound
  rcases Nat.eq_zero_or_pos k with rfl | hk
  · simp [Fin.ofNat]
  · simp [Nat.one_le_iff_ne_zero.mpr (Nat.ne_of_gt hk)]

/-- From round `k` on, the loop ends within `257 - k` rounds: more fuel changes nothing. -/
theorem allocateLoop_fuel :
    ∀ (n k : Nat), k ≤ 256 → 257 ≤ n + k →
      allocateLoop superblocks start n (decide (1 ≤ k)) (start + Fin.ofNat 256 k) =
        allocateLoop superblocks start (257 - k) (decide (1 ≤ k)) (start + Fin.ofNat 256 k)
  | 0, k, hk, hn => absurd hn (by omega)
  | n + 1, k, hk, hn => by
    have hrounds : 257 - k = (256 - k) + 1 := by omega
    rw [hrounds]
    simp only [allocateLoop]
    split_ifs with hstop hskip
    · rfl
    · -- round `k` skips its index; round 256 would have stopped, so `k < 256`
      have hk' : k < 256 := by
        by_contra hge
        have h256 : k = 256 := by omega
        subst h256
        exact hstop ⟨(add_ofNat_eq_self_iff start le_rfl).mpr (.inr rfl), by decide⟩
      rw [found_step start _ rfl, add_ofNat_succ]
      have := allocateLoop_fuel n (k + 1) hk' (by omega)
      rw [this, show 257 - (k + 1) = 256 - k by omega]
    · rfl

end Allocate

/-- `allocate_fs_idx` needs no more than 257 rounds (the loop terminates); what it returns is
free and not index 0; it succeeds whenever some index is free; and it fails only when every index
other than 0 is taken. -/
theorem allocate_fs_idx_finds_free (v : Vfs β) :
    (∀ fuel, maxVfsIndex + 1 ≤ fuel →
      allocateLoop v.superblocks v.nextSuper fuel false v.nextSuper =
        allocateLoop v.superblocks v.nextSuper (maxVfsIndex + 1) false v.nextSuper) ∧
    (∀ i v', v.allocateFsIdx = (.ok i, v') → i ≠ vfsPseudoFsIdx ∧ v.superblocks i = none) ∧
    ((∃ i, i ≠ vfsPseudoFsIdx ∧ v.superblocks i = none) →
      ∃ i v', v.allocateFsIdx = (.ok i, v')) ∧
    (∀ e v', v.allocateFsIdx = (.error e, v') →
      ∀ i, i ≠ vfsPseudoFsIdx → (v.superblocks i).isSome) := by
  have hstart : v.nextSuper + Fin.ofNat 256 0 = v.nextSuper := by simp [Fin.ofNat]
  refine ⟨fun fuel hle => ?_, fun i v' h => ?_, ?_, fun e v' h => ?_⟩
  · have h := allocateLoop_fuel v.superblocks v.nextSuper fuel 0 (by omega) hle
    rw [hstart] at h
    exact h
  · exact allocateFsIdx_ok (by rw [h])
  · rintro ⟨i, hi, hfree⟩
    cases hr : v.allocateFsIdx with
    | mk r v' =>
      cases r with
      | ok j => exact ⟨j, v', rfl⟩
      | error e =>
        have hsome := allocateFsIdx_error (by rw [hr]) i hi
        rw [hfree] at hsome
        cases hsome
  · exact allocateFsIdx_error (by rw [h])

theorem allocate_fs_idx_on_new :
    ∃ i v', (Vfs.new ⟨0, (0, 0, 0)⟩ : Vfs Unit).allocateFsIdx = (.ok i, v') :=
  (allocate_fs_idx_finds_free (Vfs.new ⟨0, (0, 0, 0)⟩ : Vfs Unit)).2.2.1 ⟨1, by decide, rfl⟩

end Vfs

end FuseBackend.Api
