import FuseBackend.Passthrough.Verify.Lookup

/-!
# `PassthroughFs`: a file keeps its inode number

`do_lookup` and `forget_one` are to give a host file the same inode number every time it is looked
up, also after it was forgotten: without `use_host_ino` through the keys `remove` keeps, with it
through the number the generator builds from the host's, and above `MAX_HOST_INO` through the
kept keys again.

That holds when the host reports its files consistently: a file handle always with the same
`InodeId`, and an `InodeId` always with a handle or always without (`Host.Reports`). Then every
number is tied to one `InodeId` (`Owned`), and the number a file got is kept under its key or,
where `use_host_ino` dropped the key, is the number the generator gives back (`Pinned`).

The host `open_file_and_handle` reads from is such a host: `name_to_handle_at` answers
`EOPNOTSUPP` for every file of a file system that has no handles and a handle for every file of one
that has, and a handle names one file.
-/

namespace FuseBackend.Passthrough

open Api InodeMap UniqueInodeGenerator

/-! ## Keys and a consistent host -/

/-- The key a file is found under: its handle, or its id when it has none. -/
def keyOf (id : InodeId) : Option FileHandle → FileHandle ⊕ InodeId
  | some fh => .inl fh
  | none => .inr id

/-- The number the table keeps under a key. -/
def InodeStore.keyed (s : InodeStore) : FileHandle ⊕ InodeId → Option Nat
  | .inl fh => s.byHandle fh
  | .inr id => s.byId id

theorem getInodeLocked_eq_keyed (s : InodeStore) (id : InodeId) (h : Option FileHandle) :
    getInodeLocked s id h = s.keyed (keyOf id h) := by
  cases h <;> rfl

/-- What a host hands out with its files: the `InodeId` of each file handle, and whether an
`InodeId` comes with a handle. -/
structure Host where
  idOf : FileHandle → InodeId
  hasHandle : InodeId → Bool

namespace Host

/-- The host reports the file `id` with the handle `h`, as it always does. -/
def Reports (host : Host) (id : InodeId) (h : Option FileHandle) : Prop :=
  h.isSome = host.hasHandle id ∧ ∀ fh, h = some fh → host.idOf fh = id

variable {host : Host} {id id₁ id₂ : InodeId} {h h₁ h₂ : Option FileHandle}

/-- Two reports under one key are reports of one file. -/
theorem Reports.eq_of_keyOf (r₁ : host.Reports id₁ h₁) (r₂ : host.Reports id₂ h₂)
    (hk : keyOf id₁ h₁ = keyOf id₂ h₂) : id₁ = id₂ ∧ h₁ = h₂ := by
  cases h₁ with
  | none =>
    cases h₂ with
    | none =>
      simp only [keyOf, Sum.inr.injEq] at hk
      exact ⟨hk, rfl⟩
    | some _ => cases hk
  | some fh₁ =>
    cases h₂ with
    | none => cases hk
    | some fh₂ =>
      simp only [keyOf, Sum.inl.injEq] at hk
      subst hk
      exact ⟨(r₁.2 fh₁ rfl).symm.trans (r₂.2 fh₁ rfl), rfl⟩

theorem Reports.isSome_eq (r₁ : host.Reports id h₁) (r₂ : host.Reports id h₂) :
    h₁.isSome = h₂.isSome :=
  r₁.1.trans r₂.1.symm

end Host

namespace InodeStore

variable {host : Host} {s : InodeStore} {d : InodeData} {id : InodeId} {h : Option FileHandle}

/-- Under a consistent host an entry written changes the number of a key only if the key is the
entry's. -/
theorem keyed_insert (hd : host.Reports d.id d.handle.fileHandle) (hk : host.Reports id h) :
    (s.insert d).keyed (keyOf id h) =
      if keyOf d.id d.handle.fileHandle = keyOf id h then some d.inode else s.keyed (keyOf id h) := by
  cases h with
  | some fh =>
    simp only [keyed, keyOf, insert_byHandle]
    cases d.handle.fileHandle <;> simp
  | none =>
    simp only [keyed, keyOf, insert_byId, Function.update_apply]
    by_cases hid : id = d.id
    · subst hid
      have hnone : d.handle.fileHandle = none :=
        Option.not_isSome_iff_eq_none.mp (by simpa using hd.isSome_eq hk)
      simp [hnone]
    · cases d.handle.fileHandle <;> simp [hid, Ne.symm hid]

theorem keyed_eraseKeys (hd : host.Reports d.id d.handle.fileHandle) (hk : host.Reports id h) :
    (s.eraseKeys d).keyed (keyOf id h) =
      if keyOf d.id d.handle.fileHandle = keyOf id h then none else s.keyed (keyOf id h) := by
  cases h with
  | some fh =>
    simp only [keyed, keyOf, eraseKeys_byHandle]
    cases d.handle.fileHandle <;> simp
  | none =>
    simp only [keyed, keyOf, eraseKeys_byId, Function.update_apply]
    by_cases hid : id = d.id
    · subst hid
      have hnone : d.handle.fileHandle = none :=
        Option.not_isSome_iff_eq_none.mp (by simpa using hd.isSome_eq hk)
      simp [hnone]
    · cases d.handle.fileHandle <;> simp [hid, Ne.symm hid]

@[simp] theorem keyed_eraseData (s : InodeStore) (n : Nat) (K : FileHandle ⊕ InodeId) :
    (s.eraseData n).keyed K = s.keyed K := by
  cases K <;> rfl

@[simp] theorem keyed_setRefcount (s : InodeStore) (d : InodeData) (r : Nat) (K : FileHandle ⊕ InodeId) :
    (s.setRefcount d r).keyed K = s.keyed K := by
  cases K <;> rfl

end InodeStore

/-! ## The `InodeId` a number is tied to -/

/-- `X` is an id the table ties to the number `k`: under `by_id`, through a handle of `X`, or as
the id of the entry. -/
def IdAt (host : Host) (s : InodeStore) (k : Nat) (X : InodeId) : Prop :=
  s.byId X = some k ∨ (∃ fh, s.byHandle fh = some k ∧ host.idOf fh = X) ∨
    ∃ d, s.data k = some d ∧ d.id = X

namespace IdAt

variable {host : Host} {s : InodeStore} {k n r : Nat} {X id : InodeId} {h : Option FileHandle}
  {d : InodeData}

theorem of_keyed (hr : host.Reports id h) (hk : s.keyed (keyOf id h) = some k) : IdAt host s k id := by
  cases h with
  | none => exact .inl hk
  | some fh => exact .inr (.inl ⟨fh, hk, hr.2 fh rfl⟩)

theorem of_data (hd : s.data k = some d) : IdAt host s k d.id := .inr (.inr ⟨d, hd, rfl⟩)

/-- After an entry is written, an id is tied to a number as before, or it is the entry's. -/
theorem of_insert (hd : host.Reports d.id d.handle.fileHandle)
    (ha : IdAt host (s.insert d) k X) : IdAt host s k X ∨ (k = d.inode ∧ X = d.id) := by
  rcases ha with hi | ⟨fh, hb, hx⟩ | ⟨e, he, hx⟩
  · simp only [InodeStore.insert_byId, Function.update_apply] at hi
    split at hi
    · rename_i hX
      cases hi
      exact .inr ⟨rfl, hX⟩
    · exact .inl (.inl hi)
  · rw [InodeStore.insert_byHandle] at hb
    split at hb
    · rename_i hf
      cases hb
      exact .inr ⟨rfl, hx ▸ hd.2 fh hf⟩
    · exact .inl (.inr (.inl ⟨fh, hb, hx⟩))
  · simp only [InodeStore.insert_data, Function.update_apply] at he
    split at he
    · rename_i hk
      cases he
      exact .inr ⟨hk, hx.symm⟩
    · exact .inl (.inr (.inr ⟨e, he, hx⟩))

theorem of_setRefcount (hd : s.data d.inode = some d) (ha : IdAt host (s.setRefcount d r) k X) :
    IdAt host s k X := by
  rcases ha with hi | hb | ⟨e, he, hx⟩
  · exact .inl hi
  · exact .inr (.inl hb)
  · simp only [InodeStore.setRefcount_data, Function.update_apply] at he
    split at he
    · rename_i hk
      cases he
      subst hk
      exact .inr (.inr ⟨d, hd, hx⟩)
    · exact .inr (.inr ⟨e, he, hx⟩)

theorem of_eraseData (ha : IdAt host (s.eraseData n) k X) : IdAt host s k X := by
  rcases ha with hi | hb | ⟨e, he, hx⟩
  · exact .inl hi
  · exact .inr (.inl hb)
  · simp only [InodeStore.eraseData_data, Function.update_apply] at he
    split at he
    · cases he
    · exact .inr (.inr ⟨e, he, hx⟩)

theorem of_eraseKeys (ha : IdAt host (s.eraseKeys d) k X) : IdAt host s k X := by
  rcases ha with hi | ⟨fh, hb, hx⟩ | he
  · simp only [InodeStore.eraseKeys_byId, Function.update_apply] at hi
    split at hi
    · cases hi
    · exact .inl hi
  · rw [InodeStore.eraseKeys_byHandle] at hb
    split at hb
    · cases hb
    · exact .inr (.inl ⟨fh, hb, hx⟩)
  · exact .inr (.inr he)

/-- `forget_one` only unties. -/
theorem of_forgetOne (fs : PassthroughFs) {i c : Nat} (ha : IdAt host (fs.forgetOne s i c) k X) :
    IdAt host s k X := by
  rcases PassthroughFs.forgetOne_cases fs s i c with heq | ⟨e, -, he, ⟨-, heq⟩ | ⟨-, heq⟩⟩
  · rwa [heq] at ha
  · rw [heq] at ha
    exact of_setRefcount (s.data_inode he ▸ he) ha
  · rw [heq] at ha
    have hi : e.inode = i := s.data_inode he
    have he' : s.data e.inode = some e := hi ▸ he
    have hset : (s.setRefcount e 0).data i = some { e with refcount := 0 } := by
      simp [← hi]
    cases hk : !fs.cfg.useHostIno || decide (maxHostIno < e.id.ino)
    · rw [hk, InodeStore.remove_false_of_some hset] at ha
      exact of_setRefcount he' (of_eraseData (of_eraseKeys ha))
    · rw [hk, InodeStore.remove_true] at ha
      exact of_setRefcount he' (of_eraseData ha)

end IdAt

/-! ## Where a number comes from -/

theorem pack_eq {u x : Nat} (hx : x < 2 ^ 47) : u <<< 47 ||| x = u * 2 ^ 47 + x := by
  rw [← Nat.shiftLeft_add_eq_or_of_lt hx, Nat.shiftLeft_eq]

theorem virtual_eq {u v : Nat} (hu : u < 256) (hv : v < 2 ^ 47) :
    u <<< 47 ||| (v ||| virtualInodeFlag) = (u + 256) * 2 ^ 47 + v := by
  have hflag : virtualInodeFlag = 256 <<< 47 := by decide
  have h256 : u ||| 256 = u + 256 := Nat.or_two_pow_eq_add_of_lt (n := 8) hu
  rw [hflag, Nat.or_comm v, ← Nat.or_assoc, ← Nat.shiftLeft_or_distrib, h256, pack_eq hv]

theorem maxHostIno_eq : maxHostIno = 2 ^ 47 - 1 := rfl

namespace PassthroughFs

/-- The number the generator gives a host number up to `MAX_HOST_INO`, once its pair has a small
id. -/
def hostInode (fs : PassthroughFs) (X : InodeId) : Option Nat :=
  (fs.inoAllocator.devMntidMap (X.dev, X.mnt)).map (· <<< 47 ||| X.ino)

/-- A virtual number the generator has handed out. -/
def VirtualInode (fs : PassthroughFs) (k : Nat) : Prop :=
  ∃ u v, u < 255 ∧ v < fs.inoAllocator.nextVirtualInode ∧ k = u <<< 47 ||| (v ||| virtualInodeFlag)

/-- Where a number tied to `X` comes from: without `use_host_ino` the counter has passed it; with
it, it is the root's, or the generator's number for `X`, or above `MAX_HOST_INO` a virtual number
the generator has handed out. -/
def Placed (fs : PassthroughFs) (k : Nat) (X : InodeId) : Prop :=
  if fs.cfg.useHostIno then
    k = rootId ∨ (X.ino ≤ maxHostIno ∧ fs.hostInode X = some k) ∨
      (maxHostIno < X.ino ∧ fs.VirtualInode k)
  else k < fs.nextInode

variable {fs fs' : PassthroughFs} {k : Nat} {X Y : InodeId}

theorem hostInode_eq (hw : fs.inoAllocator.Wf) (hX : X.ino ≤ maxHostIno)
    (hk : fs.hostInode X = some k) :
    ∃ u, 1 ≤ u ∧ u < 255 ∧ fs.inoAllocator.devMntidMap (X.dev, X.mnt) = some u ∧
      k = u * 2 ^ 47 + X.ino := by
  obtain ⟨u, hu, rfl⟩ := Option.map_eq_some_iff.mp hk
  exact ⟨u, hw.map_pos hu, hw.map_lt_255 hu, hu, pack_eq (by rw [maxHostIno_eq] at hX; omega)⟩

theorem virtualInode_eq (hw : fs.inoAllocator.Wf) (hk : fs.VirtualInode k) :
    ∃ u v, v < fs.inoAllocator.nextVirtualInode ∧ k = (u + 256) * 2 ^ 47 + v := by
  obtain ⟨u, v, hu, hv, rfl⟩ := hk
  have hle := hw.virtual_le
  rw [maxHostIno_eq] at hle
  exact ⟨u, v, hv, virtual_eq (by omega) (by omega)⟩

/-- The generator's numbers for host numbers up to `MAX_HOST_INO` are distinct. -/
theorem hostInode_inj (hw : fs.inoAllocator.Wf) (hX : X.ino ≤ maxHostIno)
    (hY : Y.ino ≤ maxHostIno) (h₁ : fs.hostInode X = some k) (h₂ : fs.hostInode Y = some k) :
    X = Y := by
  obtain ⟨u, -, -, hu, rfl⟩ := hostInode_eq hw hX h₁
  obtain ⟨u', -, -, hu', hk⟩ := hostInode_eq hw hY h₂
  rw [maxHostIno_eq] at hX hY
  have hino : X.ino = Y.ino := by omega
  have huu : u = u' := by omega
  subst huu
  have hpair := hw.map_inj hu hu'
  simp only [Prod.mk.injEq] at hpair
  cases X
  cases Y
  simp_all

theorem Placed.mono (hg : Grows fs fs') (hp : fs.Placed k X) : fs'.Placed k X := by
  unfold Placed at hp ⊢
  rw [hg.cfg]
  by_cases hu : fs.cfg.useHostIno = true
  · rw [if_pos hu] at hp ⊢
    rcases hp with hp | ⟨hX, hh⟩ | ⟨hX, u, v, hu, hv, hk⟩
    · exact .inl hp
    · obtain ⟨u, hu, rfl⟩ := Option.map_eq_some_iff.mp hh
      exact .inr (.inl ⟨hX, by simp [hostInode, hg.devMntidMap hu]⟩)
    · exact .inr (.inr ⟨hX, u, v, hu, lt_of_lt_of_le hv hg.nextVirtualInode, hk⟩)
  · rw [if_neg hu] at hp ⊢
    exact lt_of_lt_of_le hp hg.nextInode

end PassthroughFs

open PassthroughFs

/-- Every number is tied to one `InodeId`, and comes from where `Placed` says; the entries are the
host's reports, and the root is there. -/
structure Owned (host : Host) (fs : PassthroughFs) : Prop where
  wf : fs.inoAllocator.Wf
  rootLive : fs.inodeMap.data rootId ≠ none
  reports : ∀ {k d}, fs.inodeMap.data k = some d → host.Reports d.id d.handle.fileHandle
  oneId : ∀ {k X Y}, IdAt host fs.inodeMap k X → IdAt host fs.inodeMap k Y → X = Y
  placed : ∀ {k X}, IdAt host fs.inodeMap k X → fs.Placed k X

namespace Owned

variable {host : Host} {fs fs₁ : PassthroughFs} {s : InodeStore} {id : InodeId}
  {h : Option FileHandle} {k mode : Nat}

theorem grows (ho : Owned host fs) (hg : Grows fs fs₁) : Owned host fs₁ where
  wf := hg.wf ho.wf
  rootLive := hg.inodeMap ▸ ho.rootLive
  reports := hg.inodeMap ▸ ho.reports
  oneId := hg.inodeMap ▸ ho.oneId
  placed ha := Placed.mono hg (ho.placed (hg.inodeMap ▸ ha))

theorem setRefcount (ho : Owned host fs) {d : InodeData} (hd : fs.inodeMap.data d.inode = some d)
    (r : Nat) : Owned host { fs with inodeMap := fs.inodeMap.setRefcount d r } where
  wf := ho.wf
  rootLive := by
    simp only [InodeStore.setRefcount_data, Function.update_apply]
    split
    · simp
    · exact ho.rootLive
  reports := by
    intro k e he
    simp only [InodeStore.setRefcount_data, Function.update_apply] at he
    split at he
    · cases he
      show host.Reports d.id d.handle.fileHandle
      exact ho.reports hd
    · exact ho.reports he
  oneId hX hY := ho.oneId (IdAt.of_setRefcount hd hX) (IdAt.of_setRefcount hd hY)
  placed ha := ho.placed (IdAt.of_setRefcount hd ha)

theorem inodeHandle_fileHandle (h : Option FileHandle) : (inodeHandle h).fileHandle = h := by
  cases h <;> rfl

/-- A new entry keeps the invariant when no other id is tied to its number, the number comes
from where `Placed` says, and it is not the root's. -/
theorem insert (ho : Owned host fs₁) (hr : host.Reports id h)
    (hfree : ∀ X, IdAt host fs₁.inodeMap k X → X = id) (hplaced : fs₁.Placed k id)
    (hk : k ≠ rootId) :
    Owned host
      { fs₁ with inodeMap := fs₁.inodeMap.insert (.new k (inodeHandle h) 1 id mode) } := by
  have hd : host.Reports (InodeData.new k (inodeHandle h) 1 id mode).id
      (InodeData.new k (inodeHandle h) 1 id mode).handle.fileHandle := by
    simpa [inodeHandle_fileHandle] using hr
  refine ⟨ho.wf, ?_, ?_, ?_, ?_⟩
  · simpa [Function.update_apply, Ne.symm hk] using ho.rootLive
  · intro m e he
    simp only [InodeStore.insert_data, Function.update_apply] at he
    split at he
    · cases he
      exact hd
    · exact ho.reports he
  · intro m X Y hX hY
    rcases IdAt.of_insert hd hX with hX₀ | ⟨hmX, hXid⟩ <;>
      rcases IdAt.of_insert hd hY with hY₀ | ⟨hmY, hYid⟩
    · exact ho.oneId hX₀ hY₀
    · simp only [InodeData.new_inode, InodeData.new_id] at hmY hYid
      subst hmY
      exact hYid ▸ hfree X hX₀
    · simp only [InodeData.new_inode, InodeData.new_id] at hmX hXid
      subst hmX
      exact hXid ▸ (hfree Y hY₀).symm
    · simp only [InodeData.new_id] at hXid hYid
      rw [hXid, hYid]
  · intro m X hX
    rcases IdAt.of_insert hd hX with hX₀ | ⟨hmX, hXid⟩
    · exact ho.placed hX₀
    · simp only [InodeData.new_inode, InodeData.new_id] at hmX hXid
      subst hmX hXid
      exact hplaced

/-- The number `allocate_inode` hands out to a file that is not in the table is tied to no other
id, comes from where `Placed` says, and is not the root's. -/
theorem allocate (ho : Owned host fs) (hr : host.Reports id h)
    (hg : getAltLocked fs.inodeMap id h = none) (ha : fs.allocateInode id h = (.ok k, fs₁)) :
    (∀ X, IdAt host fs₁.inodeMap k X → X = id) ∧ fs₁.Placed k id ∧ k ≠ rootId := by
  have hgrow := allocateInode_grows ha
  have hroot : ∀ {m}, fs.inodeMap.keyed (keyOf id h) = some m → m ≠ rootId := by
    rintro m hm rfl
    obtain ⟨d, hd⟩ := Option.ne_none_iff_exists'.mp ho.rootLive
    rw [getAltLocked_of_key ((getInodeLocked_eq_keyed _ _ _).trans hm) hd] at hg
    cases hg
  rw [hgrow.inodeMap]
  rcases allocateInode_ok ha with ⟨hk, rfl⟩ | ⟨hu, rfl, rfl⟩ | ⟨hu, hq, -⟩
  · rw [getInodeLocked_eq_keyed] at hk
    have hid : IdAt host _ k id := IdAt.of_keyed hr hk
    exact ⟨fun X hX => ho.oneId hX hid, ho.placed hid, hroot hk⟩
  · have hlt : ∀ {m X}, IdAt host fs.inodeMap m X → m < fs.nextInode := by
      intro m X hX
      have := ho.placed hX
      simpa [Placed, hu] using this
    obtain ⟨d, hd⟩ := Option.ne_none_iff_exists'.mp ho.rootLive
    have hroot₁ := hlt (IdAt.of_data hd)
    refine ⟨fun X hX => absurd (hlt hX) (lt_irrefl _), ?_, by omega⟩
    simp [Placed, hu]
  · have hw₁ : fs₁.inoAllocator.Wf := hgrow.wf ho.wf
    have hge := getUniqueInode_ge ho.wf hq
    have hcfg : fs₁.cfg.useHostIno = true := hgrow.cfg ▸ hu
    have hplaced : ∀ {m X}, IdAt host fs.inodeMap m X →
        m = rootId ∨ (X.ino ≤ maxHostIno ∧ fs.hostInode X = some m) ∨
          (maxHostIno < X.ino ∧ fs.VirtualInode m) := by
      intro m X hX
      simpa [Placed, hu] using ho.placed hX
    by_cases hi : id.ino ≤ maxHostIno
    · obtain ⟨u, hu₁, hk⟩ := getUniqueInode_of_le hq hi
      have hhost : fs₁.hostInode id = some k := by simp [hostInode, hu₁, hk]
      obtain ⟨u', -, hu', -, hk'⟩ := hostInode_eq hw₁ hi hhost
      refine ⟨fun X hX => ?_, ?_, by simp only [rootId]; omega⟩
      · rcases hplaced hX with rfl | ⟨hX', hh⟩ | ⟨-, hv⟩
        · simp only [rootId] at hge
          omega
        · obtain ⟨w, hw, hw'⟩ := Option.map_eq_some_iff.mp hh
          exact hostInode_inj hw₁ hX' hi (by simp [hostInode, hgrow.devMntidMap hw, hw']) hhost
        · obtain ⟨a, b, -, hkab⟩ := virtualInode_eq ho.wf hv
          rw [maxHostIno_eq] at hi
          omega
      · simp only [Placed, hcfg, if_true]
        exact .inr (.inl ⟨hi, hhost⟩)
    · have hgt : maxHostIno < id.ino := by omega
      obtain ⟨u, hu₁, hle, hnext, hk⟩ := getUniqueInode_of_gt hq hgt
      have hu255 : u < 255 := hw₁.map_lt_255 hu₁
      rw [maxHostIno_eq] at hle
      have hvk : k = (u + 256) * 2 ^ 47 + fs.inoAllocator.nextVirtualInode := by
        rw [hk, virtual_eq (by omega) (by omega)]
      refine ⟨fun X hX => ?_, ?_, by simp only [rootId]; omega⟩
      · rcases hplaced hX with rfl | ⟨hX', hh⟩ | ⟨-, hv⟩
        · simp only [rootId] at hge
          omega
        · obtain ⟨a, -, ha, -, hka⟩ := hostInode_eq ho.wf hX' hh
          rw [maxHostIno_eq] at hX'
          omega
        · obtain ⟨a, b, hb, hkab⟩ := virtualInode_eq ho.wf hv
          omega
      · simp only [Placed, hcfg, if_true]
        exact .inr (.inr ⟨hgt, u, fs.inoAllocator.nextVirtualInode, hu255, by omega, hk⟩)

end Owned

namespace Owned

variable {host : Host} {fs fs' : PassthroughFs} {s : InodeStore} {id : InodeId}
  {h : Option FileHandle} {mode : Nat} {r : Except IoError Nat}

theorem lookupInode (ho : Owned host fs) (hr : host.Reports id h)
    (hl : fs.lookupInode id h mode = some (r, fs')) : Owned host fs' := by
  rcases lookupInode_cases hl with ⟨d, hd, -, -, rfl⟩ |
    ⟨hg, ⟨e, ha, -⟩ | ⟨k, ha, -, -⟩ | ⟨k, fs₁, ha, -, -, rfl⟩⟩
  · exact ho.setRefcount (data_of_getAltLocked hd) _
  · exact ho.grows (allocateInode_grows ha)
  · exact ho.grows (allocateInode_grows ha)
  · obtain ⟨hfree, hplaced, hk⟩ := ho.allocate hr hg ha
    exact (ho.grows (allocateInode_grows ha)).insert hr hfree hplaced hk

theorem forgetOne (ho : Owned host { fs with inodeMap := s }) (inode count : Nat) :
    Owned host { fs with inodeMap := fs.forgetOne s inode count } where
  wf := ho.wf
  rootLive := by
    by_cases hi : rootId = inode
    · subst hi
      simpa [PassthroughFs.forgetOne] using ho.rootLive
    · rw [forgetOne_data_of_ne fs s count hi]
      exact ho.rootLive
  reports := by
    intro k d hd
    obtain ⟨e, he, hde⟩ := forgetOne_data fs s hd
    have hid : d.id = e.id := by rw [hde]
    have hh : d.handle = e.handle := by rw [hde]
    rw [hid, hh]
    exact ho.reports he
  oneId hX hY := ho.oneId (IdAt.of_forgetOne fs hX) (IdAt.of_forgetOne fs hY)
  placed hX := ho.placed (IdAt.of_forgetOne fs hX)

end Owned

theorem IdAt.not_empty {host : Host} {k : Nat} {X : InodeId} : ¬IdAt host InodeStore.empty k X := by
  rintro (h | ⟨_, h, _⟩ | ⟨_, h, _⟩) <;> cases h

/-- The host's answer in a call is one of its consistent reports. -/
def Op.ReportedBy (host : Host) (cfg : Config) : Op → Prop
  | .lookup _ (.ok a) => host.Reports (.fromStat a.st) (a.fileHandleIn cfg)
  | _ => True

namespace PassthroughFs

variable {host : Host} {cfg : Config} {fs fs' : PassthroughFs}

theorem lookupInode_cfg {id : InodeId} {h : Option FileHandle} {mode : Nat} {r : Except IoError Nat}
    (hl : fs.lookupInode id h mode = some (r, fs')) : fs'.cfg = fs.cfg := by
  rcases lookupInode_cases hl with ⟨d, -, -, -, rfl⟩ |
    ⟨-, ⟨e, ha, -⟩ | ⟨k, ha, -, -⟩ | ⟨k, fs₁, ha, -, -, rfl⟩⟩
  · rfl
  · exact (allocateInode_grows ha).cfg
  · exact (allocateInode_grows ha).cfg
  · exact (allocateInode_grows ha).cfg

theorem step_cfg {op : Op} (hstep : step fs op = some fs') : fs'.cfg = fs.cfg := by
  cases op with
  | lookup parent ans =>
    obtain ⟨⟨res, fs₁⟩, hl, rfl⟩ := Option.map_eq_some_iff.mp hstep
    rcases doLookup_cases hl with rfl | ⟨a, r, -, hr, -⟩
    · rfl
    · exact lookupInode_cfg hr
  | forget inode count =>
    cases hstep
    rfl
  | batchForget requests =>
    cases hstep
    rfl

/-- The root entry `import` writes for the host's answer. -/
def rootData (cfg : Config) (root : HostEntry) : InodeData :=
  .new rootId (inodeHandle (root.fileHandleIn cfg)) 2 (.fromStat root.st) root.st.st.stMode

theorem importRoot_ok (cfg : Config) (root : HostEntry) :
    (new cfg).importRoot (.ok root) =
      .ok { new cfg with inodeMap := InodeStore.empty.insert (rootData cfg root) } := rfl

theorem rootData_reports {root : HostEntry}
    (hr : host.Reports (.fromStat root.st) (root.fileHandleIn cfg)) :
    host.Reports (rootData cfg root).id (rootData cfg root).handle.fileHandle := by
  simpa [rootData, Owned.inodeHandle_fileHandle] using hr

theorem importRoot_owned {root : HostEntry}
    (hr : host.Reports (.fromStat root.st) (root.fileHandleIn cfg))
    (h₀ : (new cfg).importRoot (.ok root) = .ok fs) : Owned host fs := by
  rw [importRoot_ok] at h₀
  cases h₀
  have hrep := rootData_reports hr
  have hat : ∀ {k X}, IdAt host (InodeStore.empty.insert (rootData cfg root)) k X →
      k = rootId ∧ X = (rootData cfg root).id := by
    intro k X hX
    rcases IdAt.of_insert hrep hX with hX | hk
    · exact absurd hX IdAt.not_empty
    · exact hk
  refine ⟨wf_new, by simp [rootData], ?_, ?_, ?_⟩
  · intro k d hd
    simp only [InodeStore.insert_data, Function.update_apply] at hd
    split at hd
    · cases hd
      exact hrep
    · cases hd
  · intro k X Y hX hY
    rw [(hat hX).2, (hat hY).2]
  · intro k X hX
    rw [(hat hX).1]
    unfold Placed
    split
    · exact .inl rfl
    · simp [new, rootId]

theorem step_owned (ho : Owned host fs) {op : Op} (hop : op.ReportedBy host fs.cfg)
    (hstep : step fs op = some fs') : Owned host fs' := by
  cases op with
  | lookup parent ans =>
    obtain ⟨⟨res, fs₁⟩, hl, rfl⟩ := Option.map_eq_some_iff.mp hstep
    rcases doLookup_cases hl with rfl | ⟨a, r, rfl, hr, -⟩
    · exact ho
    · exact ho.lookupInode hop hr
  | forget inode count =>
    cases hstep
    exact Owned.forgetOne (s := fs.inodeMap) ho inode count
  | batchForget requests =>
    cases hstep
    exact foldl_forgetOne (P := fun s => Owned host { fs with inodeMap := s })
      (fun s i c hs => Owned.forgetOne hs i c) requests fs.inodeMap ho

end PassthroughFs

/-! ## The number of one file -/

/-- The live entries of the file with key `K` are where the key points. -/
def KeyLive (s : InodeStore) (K : FileHandle ⊕ InodeId) : Prop :=
  ∀ m d, s.data m = some d → keyOf d.id d.handle.fileHandle = K → s.keyed K = some m

/-- The number `n` is kept under the key of the file `(X, h)`, or, where `use_host_ino` dropped
the key, it is the number the generator gives `X`. -/
def Pinned (fs : PassthroughFs) (X : InodeId) (h : Option FileHandle) (n : Nat) : Prop :=
  fs.inodeMap.keyed (keyOf X h) = some n ∨
    (fs.inodeMap.keyed (keyOf X h) = none ∧ fs.cfg.useHostIno = true ∧ X.ino ≤ maxHostIno ∧
      fs.hostInode X = some n)

namespace KeyLive

variable {host : Host} {s : InodeStore} {K : FileHandle ⊕ InodeId} {X id : InodeId}
  {h h' : Option FileHandle} {d : InodeData}

theorem empty : KeyLive InodeStore.empty K := fun _ _ hd => by cases hd

theorem setRefcount (hs : KeyLive s K) (hd : s.data d.inode = some d) (r : Nat) :
    KeyLive (s.setRefcount d r) K := by
  intro m e he hk
  rw [InodeStore.keyed_setRefcount]
  simp only [InodeStore.setRefcount_data, Function.update_apply] at he
  split at he
  · rename_i hm
    cases he
    rw [hm]
    exact hs _ _ hd hk
  · exact hs _ _ he hk

theorem eraseData (hs : KeyLive s K) (n : Nat) : KeyLive (s.eraseData n) K := by
  intro m e he hk
  rw [InodeStore.keyed_eraseData]
  simp only [InodeStore.eraseData_data, Function.update_apply] at he
  split at he
  · cases he
  · exact hs _ _ he hk

/-- An entry written where the lookup found nothing keeps the file's entries where its key
points. -/
theorem insert (hs : KeyLive s (keyOf X h)) (hd : host.Reports d.id d.handle.fileHandle)
    (hK : host.Reports X h) (hg : getAltLocked s d.id d.handle.fileHandle = none) :
    KeyLive (s.insert d) (keyOf X h) := by
  intro m e he hk
  rw [InodeStore.keyed_insert hd hK]
  simp only [InodeStore.insert_data, Function.update_apply] at he
  split at he
  · rename_i hm
    cases he
    rw [if_pos hk, hm]
  · have hold := hs _ _ he hk
    split
    · rename_i hdk
      have hkey : getInodeLocked s d.id d.handle.fileHandle = some m := by
        rw [getInodeLocked_eq_keyed, hdk]
        exact hold
      rw [getAltLocked_of_key hkey he] at hg
      cases hg
    · exact hold

/-- `forget_one` keeps the file's entries where its key points: an entry it removes with its key
was the only one. -/
theorem forgetOne (fs : PassthroughFs) (hs : KeyLive s (keyOf X h))
    (hrep : ∀ {k d}, s.data k = some d → host.Reports d.id d.handle.fileHandle)
    (hK : host.Reports X h) (inode count : Nat) : KeyLive (fs.forgetOne s inode count) (keyOf X h) := by
  rcases PassthroughFs.forgetOne_cases fs s inode count with heq | ⟨e, -, he, ⟨-, heq⟩ | ⟨-, heq⟩⟩
  · rw [heq]
    exact hs
  · rw [heq]
    exact hs.setRefcount (s.data_inode he ▸ he) _
  · rw [heq]
    have hi : e.inode = inode := s.data_inode he
    have he' : s.data e.inode = some e := hi ▸ he
    cases !fs.cfg.useHostIno || decide (maxHostIno < e.id.ino)
    · have hset : (s.setRefcount e 0).data inode = some { e with refcount := 0 } := by
        simp [← hi]
      rw [InodeStore.remove_false_of_some hset]
      intro m d hd hk
      dsimp only at hd ⊢
      have hre : host.Reports { e with refcount := 0 }.id
          { e with refcount := 0 }.handle.fileHandle := hrep (d := e) he
      rw [InodeStore.keyed_eraseKeys hre hK, InodeStore.keyed_eraseData,
        InodeStore.keyed_setRefcount]
      simp only [InodeStore.eraseKeys_data, InodeStore.eraseData_data, Function.update_apply] at hd
      split at hd
      · cases hd
      · rename_i hm
        rw [InodeStore.setRefcount_data, Function.update_of_ne (hi ▸ hm)] at hd
        have hold := hs _ _ hd hk
        split
        · rename_i hek
          rw [hs _ _ he hek] at hold
          cases hold
          exact absurd rfl hm
        · exact hold
    · rw [InodeStore.remove_true]
      exact KeyLive.eraseData (KeyLive.setRefcount hs he' 0) inode

end KeyLive

namespace Owned

variable {host : Host} {fs : PassthroughFs} {X : InodeId} {h : Option FileHandle} {d : InodeData}

/-- Under a consistent host, what `get_alt_locked` finds for a file is the entry under its key: the
fall-back to the id finds an entry without a handle, which a file with a handle cannot share its
id with. -/
theorem getAltLocked_key (ho : Owned host fs) (hr : host.Reports X h)
    (hg : getAltLocked fs.inodeMap X h = some d) : fs.inodeMap.keyed (keyOf X h) = some d.inode := by
  rcases getAltLocked_eq_some hg with ⟨m, hk, hm⟩ | ⟨hsome, hnone, m, hid, hm⟩
  · rw [getInodeLocked_eq_keyed] at hk
    rw [fs.inodeMap.data_inode hm]
    exact hk
  · have hX : d.id = X := ho.oneId (IdAt.of_data hm) (.inl hid)
    have hpres := (hX ▸ ho.reports hm).isSome_eq hr
    rw [hnone, hsome] at hpres
    cases hpres

end Owned

namespace Pinned

variable {host : Host} {fs fs' fs₁ : PassthroughFs} {s : InodeStore} {X id : InodeId}
  {h h' : Option FileHandle} {n k mode : Nat} {r : Except IoError Nat}

theorem grows (hp : Pinned fs X h n) (hg : Grows fs fs₁) : Pinned fs₁ X h n := by
  unfold Pinned at hp ⊢
  rw [hg.inodeMap, hg.cfg]
  rcases hp with hp | ⟨hnone, hu, hX, hh⟩
  · exact .inl hp
  · obtain ⟨u, hu', hn⟩ := Option.map_eq_some_iff.mp hh
    exact .inr ⟨hnone, hu, hX, by simp [hostInode, hg.devMntidMap hu', hn]⟩

theorem setRefcount (hp : Pinned fs X h n) (d : InodeData) (r : Nat) :
    Pinned { fs with inodeMap := fs.inodeMap.setRefcount d r } X h n := by
  unfold Pinned at hp ⊢
  simpa [hostInode] using hp

/-- The number `allocate_inode` hands a pinned file that is not in the table is its own. -/
theorem allocate (hp : Pinned fs X h n) (ho : Owned host fs) (hr : host.Reports X h)
    (hg : getAltLocked fs.inodeMap X h = none) (ha : fs.allocateInode X h = (.ok k, fs₁)) :
    k = n := by
  have hnotroot : fs.inodeMap.keyed (keyOf X h) ≠ some rootId := by
    intro hk
    obtain ⟨d, hd⟩ := Option.ne_none_iff_exists'.mp ho.rootLive
    rw [getAltLocked_of_key ((getInodeLocked_eq_keyed _ _ _).trans hk) hd] at hg
    cases hg
  have hhost : fs.cfg.useHostIno = true → X.ino ≤ maxHostIno → fs.hostInode X = some n →
      k = n := by
    intro hu hX hh
    obtain ⟨u, hu', rfl⟩ := Option.map_eq_some_iff.mp hh
    rw [allocateInode_of_le hu hX] at ha
    simp only [uniqueInode, getUniqueInode_of_map hu' hX, Prod.mk.injEq, Except.ok.injEq] at ha
    exact ha.1.symm
  rcases hp with hkey | ⟨-, hu, hX, hh⟩
  · by_cases hc : fs.cfg.useHostIno = false ∨ maxHostIno < X.ino
    · rw [allocateInode_of_key ((getInodeLocked_eq_keyed _ _ _).trans hkey) hc] at ha
      cases ha
      rfl
    · have hu : fs.cfg.useHostIno = true := by
        cases hcu : fs.cfg.useHostIno
        · exact absurd (.inl hcu) hc
        · rfl
      have hX : X.ino ≤ maxHostIno := Nat.le_of_not_lt fun hlt => hc (.inr hlt)
      refine hhost hu hX ?_
      have hpl := ho.placed (IdAt.of_keyed hr hkey)
      simp only [Placed, hu, if_true] at hpl
      rcases hpl with hpl | ⟨-, hh⟩ | ⟨hX', -⟩
      · exact absurd (hpl ▸ hkey) hnotroot
      · exact hh
      · omega
  · exact hhost hu hX hh

/-- A lookup of a pinned file answers its number. -/
theorem lookupInode_eq (hp : Pinned fs X h n) (ho : Owned host fs) (hr : host.Reports X h)
    (hl : fs.lookupInode X h mode = some (.ok k, fs')) : k = n := by
  rcases lookupInode_cases hl with ⟨d, hd, -, hk, -⟩ |
    ⟨hg, ⟨e, -, hk⟩ | ⟨k', -, -, hk⟩ | ⟨k', fs₁, ha, -, hk, -⟩⟩
  · cases hk
    have hkey := ho.getAltLocked_key hr hd
    rcases hp with hp | ⟨hnone, -⟩
    · rw [hp] at hkey
      cases hkey
      rfl
    · rw [hnone] at hkey
      cases hkey
  · cases hk
  · cases hk
  · cases hk
    exact hp.allocate ho hr hg ha

end Pinned

open Pinned in
/-- The first lookup of a file pins the number it answers. -/
theorem lookupInode_pins {host : Host} {fs fs' : PassthroughFs} {X : InodeId}
    {h : Option FileHandle} {mode k : Nat} (ho : Owned host fs) (hr : host.Reports X h)
    (hl : fs.lookupInode X h mode = some (.ok k, fs')) : Pinned fs' X h k := by
  rcases lookupInode_cases hl with ⟨d, hd, -, hk, rfl⟩ |
    ⟨-, ⟨e, -, hk⟩ | ⟨k', -, -, hk⟩ | ⟨k', fs₁, -, -, hk, rfl⟩⟩
  · cases hk
    left
    simpa using ho.getAltLocked_key hr hd
  · cases hk
  · cases hk
  · cases hk
    left
    have hrep : host.Reports (InodeData.new k (inodeHandle h) 1 X mode).id
        (InodeData.new k (inodeHandle h) 1 X mode).handle.fileHandle := by
      simpa [Owned.inodeHandle_fileHandle] using hr
    show (fs₁.inodeMap.insert _).keyed (keyOf X h) = some k
    rw [InodeStore.keyed_insert hrep hr, if_pos (by simp [Owned.inodeHandle_fileHandle])]
    rfl

namespace KeyLive

variable {host : Host} {fs fs' : PassthroughFs} {X id : InodeId} {h h' : Option FileHandle}
  {mode : Nat} {r : Except IoError Nat}

theorem lookupInode (hs : KeyLive fs.inodeMap (keyOf X h)) (hrX : host.Reports X h)
    (hr : host.Reports id h') (hl : fs.lookupInode id h' mode = some (r, fs')) :
    KeyLive fs'.inodeMap (keyOf X h) := by
  rcases lookupInode_cases hl with ⟨d, hd, -, -, rfl⟩ |
    ⟨hg, ⟨e, ha, -⟩ | ⟨k, ha, -, -⟩ | ⟨k, fs₁, ha, -, -, rfl⟩⟩
  · exact hs.setRefcount (data_of_getAltLocked hd) _
  · rw [(allocateInode_grows ha).inodeMap]
    exact hs
  · rw [(allocateInode_grows ha).inodeMap]
    exact hs
  · have hmap := (allocateInode_grows ha).inodeMap
    have hrep : host.Reports (InodeData.new k (inodeHandle h') 1 id mode).id
        (InodeData.new k (inodeHandle h') 1 id mode).handle.fileHandle := by
      simpa [Owned.inodeHandle_fileHandle] using hr
    refine KeyLive.insert (hmap ▸ hs) hrep hrX ?_
    simpa [Owned.inodeHandle_fileHandle, hmap] using hg

theorem step (ho : Owned host fs) (hs : KeyLive fs.inodeMap (keyOf X h)) (hrX : host.Reports X h)
    {op : Op} (hop : op.ReportedBy host fs.cfg) (hstep : step fs op = some fs') :
    KeyLive fs'.inodeMap (keyOf X h) := by
  cases op with
  | lookup parent ans =>
    obtain ⟨⟨res, fs₁⟩, hl, rfl⟩ := Option.map_eq_some_iff.mp hstep
    rcases doLookup_cases hl with rfl | ⟨a, r, rfl, hr, -⟩
    · exact hs
    · exact hs.lookupInode hrX hop hr
  | forget inode count =>
    cases hstep
    exact hs.forgetOne fs ho.reports hrX inode count
  | batchForget requests =>
    cases hstep
    exact (foldl_forgetOne
      (P := fun s => Owned host { fs with inodeMap := s } ∧ KeyLive s (keyOf X h))
      (fun s i c hs => ⟨Owned.forgetOne hs.1 i c, hs.2.forgetOne fs hs.1.reports hrX i c⟩)
      requests fs.inodeMap ⟨ho, hs⟩).2

end KeyLive

namespace Pinned

variable {host : Host} {fs fs' : PassthroughFs} {s : InodeStore} {X id : InodeId}
  {h h' : Option FileHandle} {n mode : Nat} {r : Except IoError Nat}

/-- A lookup of any file keeps a pinned number: where it writes the pinned file's key, it writes
the pinned number. -/
theorem lookupInode (hp : Pinned fs X h n) (ho : Owned host fs) (hrX : host.Reports X h)
    (hr : host.Reports id h') (hl : fs.lookupInode id h' mode = some (r, fs')) :
    Pinned fs' X h n := by
  rcases lookupInode_cases hl with ⟨d, -, -, -, rfl⟩ |
    ⟨hg, ⟨e, ha, -⟩ | ⟨k, ha, -, -⟩ | ⟨k, fs₁, ha, -, -, rfl⟩⟩
  · exact hp.setRefcount _ _
  · exact hp.grows (allocateInode_grows ha)
  · exact hp.grows (allocateInode_grows ha)
  · have hp₁ := hp.grows (allocateInode_grows ha)
    have hrep : host.Reports (InodeData.new k (inodeHandle h') 1 id mode).id
        (InodeData.new k (inodeHandle h') 1 id mode).handle.fileHandle := by
      simpa [Owned.inodeHandle_fileHandle] using hr
    unfold Pinned at hp₁ ⊢
    dsimp only
    rw [InodeStore.keyed_insert hrep hrX]
    split
    · rename_i hK
      obtain ⟨rfl, rfl⟩ := hr.eq_of_keyOf hrX (by simpa [Owned.inodeHandle_fileHandle] using hK)
      left
      rw [hp.allocate ho hrX hg ha, InodeData.new_inode]
    · exact hp₁

/-- `forget_one` keeps a pinned number. Where it drops the file's key, `use_host_ino` is on and the
number is at most `MAX_HOST_INO`, so the number is the generator's for the file. -/
theorem forgetOne (hp : Pinned { fs with inodeMap := s } X h n)
    (ho : Owned host { fs with inodeMap := s }) (hs : KeyLive s (keyOf X h))
    (hrX : host.Reports X h) (inode count : Nat) :
    Pinned { fs with inodeMap := fs.forgetOne s inode count } X h n := by
  rcases PassthroughFs.forgetOne_cases fs s inode count with heq | ⟨e, hroot, he, ⟨-, heq⟩ | ⟨-, heq⟩⟩
  · rw [heq]
    exact hp
  · rw [heq]
    exact hp.setRefcount _ _
  · rw [heq]
    have hi : e.inode = inode := s.data_inode he
    cases hkeep : !fs.cfg.useHostIno || decide (maxHostIno < e.id.ino)
    · have hset : (s.setRefcount e 0).data inode = some { e with refcount := 0 } := by
        simp [← hi]
      rw [InodeStore.remove_false_of_some hset]
      have hre : host.Reports { e with refcount := 0 }.id
          { e with refcount := 0 }.handle.fileHandle := ho.reports (d := e) he
      unfold Pinned at hp ⊢
      dsimp only at hp ⊢
      rw [InodeStore.keyed_eraseKeys hre hrX, InodeStore.keyed_eraseData,
        InodeStore.keyed_setRefcount]
      split
      · rename_i hK
        obtain ⟨hX, -⟩ := hre.eq_of_keyOf hrX hK
        have hu : fs.cfg.useHostIno = true ∧ e.id.ino ≤ maxHostIno := by simpa using hkeep
        have hkey : s.keyed (keyOf X h) = some inode := hs _ _ he hK
        have hn : inode = n := by
          rcases hp with hp | ⟨hnone, -⟩
          · rw [hkey] at hp
            cases hp
            rfl
          · rw [hkey] at hnone
            cases hnone
        subst hn
        have hpl := ho.placed (IdAt.of_keyed hrX hkey)
        simp only [Placed, hu.1, if_true] at hpl
        refine .inr ⟨rfl, hu.1, hX ▸ hu.2, ?_⟩
        rcases hpl with hpl | ⟨-, hh⟩ | ⟨hX', -⟩
        · exact absurd hpl hroot
        · exact hh
        · have := hX ▸ hu.2
          omega
      · exact hp
    · rw [InodeStore.remove_true]
      unfold Pinned at hp ⊢
      simpa [hostInode] using hp

theorem step (hp : Pinned fs X h n) (ho : Owned host fs) (hs : KeyLive fs.inodeMap (keyOf X h))
    (hrX : host.Reports X h) {op : Op} (hop : op.ReportedBy host fs.cfg)
    (hstep : step fs op = some fs') : Pinned fs' X h n := by
  cases op with
  | lookup parent ans =>
    obtain ⟨⟨res, fs₁⟩, hl, rfl⟩ := Option.map_eq_some_iff.mp hstep
    rcases doLookup_cases hl with rfl | ⟨a, r, rfl, hr, -⟩
    · exact hp
    · exact hp.lookupInode ho hrX hop hr
  | forget inode count =>
    cases hstep
    exact Pinned.forgetOne (s := fs.inodeMap) hp ho hs hrX inode count
  | batchForget requests =>
    cases hstep
    exact (foldl_forgetOne
      (P := fun s => Owned host { fs with inodeMap := s } ∧ KeyLive s (keyOf X h) ∧
        Pinned { fs with inodeMap := s } X h n)
      (fun s i c hs => ⟨Owned.forgetOne hs.1 i c, hs.2.1.forgetOne fs hs.1.reports hrX i c,
        hs.2.2.forgetOne hs.1 hs.2.1 hrX i c⟩)
      requests fs.inodeMap ⟨ho, hs, hp⟩).2.2

end Pinned

/-- What a run of calls the host reports keeps, watched from the file `(X, h)`. -/
structure Tracks (host : Host) (cfg : Config) (X : InodeId) (h : Option FileHandle)
    (fs : PassthroughFs) : Prop where
  cfg_eq : fs.cfg = cfg
  owned : Owned host fs
  keyLive : KeyLive fs.inodeMap (keyOf X h)

namespace Tracks

variable {host : Host} {cfg : Config} {X : InodeId} {h : Option FileHandle} {fs fs' : PassthroughFs}
  {n : Nat}

theorem importRoot {root : HostEntry} (hr : host.Reports (.fromStat root.st) (root.fileHandleIn cfg))
    (hrX : host.Reports X h) (h₀ : (PassthroughFs.new cfg).importRoot (.ok root) = .ok fs) :
    Tracks host cfg X h fs := by
  refine ⟨?_, importRoot_owned hr h₀, ?_⟩ <;> rw [importRoot_ok] at h₀ <;> cases h₀
  · rfl
  · refine KeyLive.insert KeyLive.empty (rootData_reports hr) hrX ?_
    apply Option.eq_none_iff_forall_ne_some.mpr
    intro d hd
    cases data_of_getAltLocked hd

theorem step (ht : Tracks host cfg X h fs) (hrX : host.Reports X h) {op : Op}
    (hop : op.ReportedBy host cfg) (hstep : Passthrough.step fs op = some fs') :
    Tracks host cfg X h fs' where
  cfg_eq := (step_cfg hstep).trans ht.cfg_eq
  owned := step_owned ht.owned (ht.cfg_eq ▸ hop) hstep
  keyLive := ht.keyLive.step ht.owned hrX (ht.cfg_eq ▸ hop) hstep

theorem run (ht : Tracks host cfg X h fs) (hrX : host.Reports X h) {ops : List Op}
    (hops : ∀ op ∈ ops, op.ReportedBy host cfg)
    (hrun : Transition.run Passthrough.step fs ops = some fs') : Tracks host cfg X h fs' :=
  Transition.run_induction (fun _ _ _ ht hop hstep => ht.step hrX hop hstep) hops hrun ht

/-- A pinned number stays pinned over a run. -/
theorem run_pinned (ht : Tracks host cfg X h fs) (hp : Pinned fs X h n) (hrX : host.Reports X h)
    {ops : List Op} (hops : ∀ op ∈ ops, op.ReportedBy host cfg)
    (hrun : Transition.run Passthrough.step fs ops = some fs') : Pinned fs' X h n :=
  (Transition.run_induction (P := fun fs => Tracks host cfg X h fs ∧ Pinned fs X h n)
    (fun _ _ _ hs hop hstep =>
      ⟨hs.1.step hrX hop hstep,
        hs.2.step hs.1.owned hs.1.keyLive hrX (hs.1.cfg_eq ▸ hop) hstep⟩)
    hops hrun ⟨ht, hp⟩).2

end Tracks

/-- Two lookups of one file under one key answer one number, whatever ran between them, when the
host reports each file always with its handle or always without. -/
theorem lookup_stable_for_consistent_host {host : Host} {cfg : Config} {root a₁ a₂ : HostEntry}
    {ops₁ ops₂ : List Op} {fs₀ fs₁ fs₁' fs₂ fs₂' : PassthroughFs} {p₁ p₂ : Nat} {e₁ e₂ : Entry}
    (hroot : host.Reports (.fromStat root.st) (root.fileHandleIn cfg))
    (hops : ∀ op ∈ ops₁ ++ ops₂, op.ReportedBy host cfg)
    (hr₁ : host.Reports (.fromStat a₁.st) (a₁.fileHandleIn cfg))
    (hr₂ : host.Reports (.fromStat a₂.st) (a₂.fileHandleIn cfg))
    (hsame : keyOf (.fromStat a₂.st) (a₂.fileHandleIn cfg) =
      keyOf (.fromStat a₁.st) (a₁.fileHandleIn cfg))
    (h₀ : (PassthroughFs.new cfg).importRoot (.ok root) = .ok fs₀)
    (h₁ : Transition.run step fs₀ ops₁ = some fs₁)
    (hl₁ : fs₁.doLookup p₁ (.ok a₁) = some (.ok e₁, fs₁'))
    (h₂ : Transition.run step fs₁' ops₂ = some fs₂)
    (hl₂ : fs₂.doLookup p₂ (.ok a₂) = some (.ok e₂, fs₂')) :
    e₂.inode = e₁.inode := by
  obtain ⟨hX, hh⟩ := hr₂.eq_of_keyOf hr₁ hsame
  have ht₁ := (Tracks.importRoot hroot hr₁ h₀).run hr₁
    (fun op hop => hops op (List.mem_append_left _ hop)) h₁
  have hl₁' := doLookup_ok hl₁
  rw [ht₁.cfg_eq] at hl₁'
  have hstep₁ : step fs₁ (.lookup p₁ (.ok a₁)) = some fs₁' := by
    simp only [step, hl₁, Option.map_some]
  have ht₁' := ht₁.step hr₁ (show Op.ReportedBy host cfg (.lookup p₁ (.ok a₁)) from hr₁) hstep₁
  have hops₂ : ∀ op ∈ ops₂, op.ReportedBy host cfg :=
    fun op hop => hops op (List.mem_append_right _ hop)
  have hp := ht₁'.run_pinned (lookupInode_pins ht₁.owned hr₁ hl₁') hr₁ hops₂ h₂
  have ht₂ := ht₁'.run hr₁ hops₂ h₂
  have hl₂' := doLookup_ok hl₂
  rw [ht₂.cfg_eq, hX, hh] at hl₂'
  exact hp.lookupInode_eq ht₂.owned hr₁ hl₂'

/-- A root on a file system with handles. -/
def handleRoot : HostEntry := ⟨⟨{ stIno := 2, stMode := sIfdir }, 1, 1⟩, some ⟨1, [0]⟩⟩

/-- A file with a handle. -/
def handledFile : HostEntry := ⟨⟨{ stIno := 7, stMode := 0o100644 }, 1, 1⟩, some ⟨1, [7]⟩⟩

/-- With handles off, a host that reports no handle for any file is consistent. -/
def handleFreeHost : Host := ⟨fun _ => ⟨0, 0, 0⟩, fun _ => false⟩

theorem handleFreeHost_reports (a : HostEntry) :
    handleFreeHost.Reports (.fromStat a.st) (a.fileHandleIn {}) :=
  ⟨rfl, fun _ h => by simp [HostEntry.fileHandleIn] at h⟩

theorem lookup_stable_after_full_forget :
    ∃ fs₀ fs₁ fs₂ fs₃ e₁ e₂,
      (PassthroughFs.new {}).importRoot (.ok handleRoot) = .ok fs₀ ∧
      fs₀.doLookup rootId (.ok handledFile) = some (.ok e₁, fs₁) ∧
      Transition.run step fs₁ [.forget 2 1] = some fs₂ ∧ fs₂.inodeMap.get 2 = none ∧
      fs₂.doLookup rootId (.ok handledFile) = some (.ok e₂, fs₃) ∧ e₂.inode = e₁.inode := by
  refine ⟨_, _, _, _, _, _, rfl, rfl, rfl, rfl, rfl, ?_⟩
  have hops : ∀ op ∈ ([] : List Op) ++ [.forget 2 1], op.ReportedBy handleFreeHost {} := by
    intro op hop
    simp only [List.nil_append, List.mem_singleton] at hop
    subst hop
    trivial
  -- the parents of the two lookups are fixed by the types of their proofs
  exact lookup_stable_for_consistent_host (handleFreeHost_reports handleRoot) hops
    (handleFreeHost_reports handledFile) (handleFreeHost_reports handledFile) rfl rfl rfl
    (rfl : PassthroughFs.doLookup _ rootId _ = _) rfl (rfl : PassthroughFs.doLookup _ rootId _ = _)

end FuseBackend.Passthrough
