import Mathlib.Data.Nat.Bitwise
import FuseBackend.Passthrough.FileOps
import FuseBackend.Passthrough.Verify.Lookup

/-!
# `seal_size`

With `seal_size`, `write` and `fallocate` compare the end of the range with the size of the file
and `setattr` refuses to change the size. What the checks do not see: `check_fd_flags` sets the
request's flags on the descriptor before the check, and `pwrite` on a descriptor with `O_APPEND`
writes at the end of the file whatever the offset; `open_inode` passes `O_TRUNC` to the host.
A write of one byte at offset 0 to a file of one byte, with `O_APPEND` in the request's flags,
passes the check and grows the file (`sealed_append_write_grows_file`).

What holds: every run of requests in which no open asks for `O_TRUNC` and no write for
`O_APPEND` keeps the size of every host file (`sealed_run_keeps_sizes`). It rests on one
invariant of the handles: a descriptor has `O_APPEND` only if its handle's flags have it
(`FlagsKept`), which `check_fd_flags` keeps by setting the flags it records.
-/

namespace FuseBackend.Passthrough

open Api

/-! ## Flag bits -/

theorem hasFlag_two_pow (x k : Nat) : hasFlag x (2 ^ k) = x.testBit k := by
  rw [hasFlag, Nat.and_comm, Nat.two_pow_and]
  cases x.testBit k <;> simp

theorem testBit_clearBits (x m i : Nat) :
    (clearBits x m).testBit i = (x.testBit i && !m.testBit i) := by
  rw [clearBits, Nat.testBit_xor, Nat.testBit_and]
  cases x.testBit i <;> cases m.testBit i <;> rfl

@[simp] theorem hasFlag_oAppend (x : Nat) : hasFlag x oAppend = x.testBit 10 :=
  hasFlag_two_pow x 10

@[simp] theorem hasFlag_oTrunc (x : Nat) : hasFlag x oTrunc = x.testBit 9 :=
  hasFlag_two_pow x 9

@[simp] theorem hasFlag_fallocFlCollapseRange (x : Nat) :
    hasFlag x fallocFlCollapseRange = x.testBit 3 :=
  hasFlag_two_pow x 3

@[simp] theorem hasFlag_fallocFlInsertRange (x : Nat) :
    hasFlag x fallocFlInsertRange = x.testBit 5 :=
  hasFlag_two_pow x 5

/-! The bits of the constants that the flags below are built from. -/

@[simp] theorem testBit_oAccmode : oAccmode.testBit 10 = false ∧ oAccmode.testBit 9 = false := by
  decide

@[simp] theorem testBit_oRdonly : oRdonly.testBit 10 = false ∧ oRdonly.testBit 9 = false := by
  decide

@[simp] theorem testBit_oRdwr : oRdwr.testBit 10 = false ∧ oRdwr.testBit 9 = false := by decide

@[simp] theorem testBit_oAppend : oAppend.testBit 10 = true ∧ oAppend.testBit 9 = false := by
  decide

@[simp] theorem testBit_oDirect : oDirect.testBit 10 = false ∧ oDirect.testBit 9 = false := by
  decide

@[simp] theorem testBit_oCloexec : oCloexec.testBit 10 = false ∧ oCloexec.testBit 9 = false := by
  decide

@[simp] theorem testBit_setflMask : setflMask.testBit 10 = true := by decide

@[simp] theorem testBit_fallocFlKeepSize :
    fallocFlKeepSize.testBit 3 = false ∧ fallocFlKeepSize.testBit 5 = false := by
  decide

@[simp] theorem testBit_fallocFlUnshareRange :
    fallocFlUnshareRange.testBit 3 = false ∧ fallocFlUnshareRange.testBit 5 = false := by
  decide

/-- `F_SETFL` sets the request's `O_APPEND` on the descriptor. -/
theorem hasFlag_setfl (f flags : Nat) :
    hasFlag (clearBits f setflMask ||| flags &&& setflMask) oAppend = hasFlag flags oAppend := by
  simp [testBit_clearBits]

namespace PassthroughFs

variable (fs : PassthroughFs) (flags : Nat)

/-- Writeback caching takes `O_APPEND` away, never adds it. -/
theorem getWritebackOpenFlags_append :
    hasFlag (fs.getWritebackOpenFlags flags) oAppend → hasFlag flags oAppend := by
  rw [getWritebackOpenFlags]
  split_ifs <;> simp [testBit_clearBits]

theorem getWritebackOpenFlags_trunc :
    hasFlag (fs.getWritebackOpenFlags flags) oTrunc = hasFlag flags oTrunc := by
  rw [getWritebackOpenFlags]
  split_ifs <;> simp [testBit_clearBits]

end PassthroughFs

/-! ## The host -/

namespace HostFiles

variable {h h' : HostFiles} {id : InodeId} {fd flags n offset mode len : Nat}

@[simp] theorem openFile_fst : (h.openFile id flags).1 = h.nextFd := rfl

@[simp] theorem openFile_fds :
    (h.openFile id flags).2.fds = Function.update h.fds h.nextFd (some ⟨id, flags⟩) := rfl

@[simp] theorem openFile_nextFd : (h.openFile id flags).2.nextFd = h.nextFd + 1 := rfl

theorem openFile_size (ht : hasFlag flags oTrunc = false) : (h.openFile id flags).2.size = h.size := by
  simp [openFile, ht]

@[simp] theorem close_fds : (h.close fd).fds = Function.update h.fds fd none := rfl

@[simp] theorem close_size : (h.close fd).size = h.size := rfl

@[simp] theorem close_nextFd : (h.close fd).nextFd = h.nextFd := rfl

theorem setfl_ok (hs : h.setfl fd flags = .ok h') :
    ∃ f, h.fds fd = some f ∧ h' = { h with
      fds := Function.update h.fds fd
        (some { f with flags := clearBits f.flags setflMask ||| flags &&& setflMask }) } := by
  unfold setfl at hs
  split at hs
  · rename_i f hf
    cases hs
    exact ⟨f, hf, rfl⟩
  · cases hs

theorem fstat_ok {st : Nat} (hs : h.fstat fd = .ok st) : ∃ f, h.fds fd = some f ∧ st = h.size f.id := by
  unfold fstat at hs
  split at hs
  · rename_i f hf
    cases hs
    exact ⟨f, hf, rfl⟩
  · cases hs

/-- A `pwrite` without `O_APPEND` that ends inside the file keeps every size. -/
theorem pwrite_ok (hw : h.pwrite fd n offset = .ok (m, h')) :
    ∃ f, h.fds fd = some f ∧ h'.fds = h.fds ∧ h'.nextFd = h.nextFd ∧
      (hasFlag f.flags oAppend = false → offset + n ≤ h.size f.id → h'.size = h.size) := by
  unfold pwrite at hw
  split at hw
  · rename_i f hf
    cases hw
    refine ⟨f, hf, rfl, rfl, fun happ hle => ?_⟩
    have hsize : (if n = 0 then h.size f.id else if hasFlag f.flags oAppend then h.size f.id + n
        else max (h.size f.id) (offset + n)) = h.size f.id := by
      split_ifs <;> simp_all
    simp only [hsize, Function.update_eq_self]
  · cases hw

/-- A `fallocate` that neither collapses nor inserts and ends inside the file keeps every size. -/
theorem fallocate_ok (hf : h.fallocate fd mode offset len = .ok h') :
    ∃ f, h.fds fd = some f ∧ h'.fds = h.fds ∧ h'.nextFd = h.nextFd ∧
      (mode.testBit 3 = false → mode.testBit 5 = false → offset + len ≤ h.size f.id →
        h'.size = h.size) := by
  unfold fallocate at hf
  split at hf
  · rename_i f hfd
    split at hf
    · cases hf
    split at hf
    · cases hf
    cases hf
    refine ⟨f, hfd, rfl, rfl, fun h3 h5 hle => ?_⟩
    have hsize : (if hasFlag mode fallocFlCollapseRange then h.size f.id - len
        else if hasFlag mode fallocFlInsertRange then h.size f.id + len
        else if hasFlag mode fallocFlKeepSize then h.size f.id
        else max (h.size f.id) (offset + len)) = h.size f.id := by
      simp only [hasFlag_fallocFlCollapseRange, hasFlag_fallocFlInsertRange, h3, h5]
      split_ifs <;> simp_all
    simp only [hsize, Function.update_eq_self]
  · cases hf

end HostFiles

/-! ## The checks -/

variable {st offset size mode : Nat}

theorem sealSizeCheck_write (hc : sealSizeCheck .write st offset size mode = .ok ()) :
    size + offset ≤ st := by
  unfold sealSizeCheck at hc
  split_ifs at hc with h₁ h₂
  exact Nat.le_of_not_lt h₂

/-- What `seal_size_check` lets `fallocate` do: neither collapse nor insert, and end inside the
file. -/
theorem sealSizeCheck_fallocate (hc : sealSizeCheck .fallocate st offset size mode = .ok ()) :
    size + offset ≤ st ∧ mode.testBit 3 = false ∧ mode.testBit 5 = false := by
  unfold sealSizeCheck at hc
  dsimp only at hc
  split_ifs at hc with h₁ hop h₂
  have h3 : (clearBits mode (fallocFlKeepSize ||| fallocFlUnshareRange)).testBit 3 =
      mode.testBit 3 := by simp [testBit_clearBits]
  have h5 : (clearBits mode (fallocFlKeepSize ||| fallocFlUnshareRange)).testBit 5 =
      mode.testBit 5 := by simp [testBit_clearBits]
  refine ⟨Nat.le_of_not_lt h₂, ?_, ?_⟩
  · rw [← h3]
    rcases hop with hop | hop | hop <;> rw [hop] <;> decide
  · rw [← h5]
    rcases hop with hop | hop | hop <;> rw [hop] <;> decide

/-- A handle's descriptor has `O_APPEND` only if the handle's flags have it. -/
def DataKept (host : HostFiles) (data : HandleData) : Prop :=
  ∀ f, host.fds data.file = some f → hasFlag f.flags oAppend → hasFlag data.openFlags oAppend

theorem getHandle_ok {handles : Nat → Option HandleData} {handle inode : Nat} {hd : HandleData}
    (hg : getHandle handles handle inode = .ok hd) : handles handle = some hd ∧ hd.inode = inode := by
  unfold getHandle at hg
  split at hg
  · rename_i hd' hh
    split at hg
    · cases hg
      exact ⟨hh, ‹_›⟩
    · cases hg
  · cases hg

variable {data data' : HandleData} {host host' host₁ : HostFiles} {flags : Nat}

/-- `check_fd_flags` records the request's flags and sets them on the descriptor, and only
there. -/
theorem checkFdFlags_ok (hc : checkFdFlags data host flags = .ok (data', host')) :
    data' = { data with openFlags := flags } ∧ host'.size = host.size ∧
      host'.nextFd = host.nextFd ∧ (∀ x, x ≠ data.file → host'.fds x = host.fds x) ∧
      (DataKept host data → DataKept host' data') := by
  unfold checkFdFlags at hc
  split at hc
  · split at hc
    · rename_i host₂ hs
      cases hc
      obtain ⟨f, hf, rfl⟩ := HostFiles.setfl_ok hs
      refine ⟨rfl, rfl, rfl, fun x hx => Function.update_of_ne hx _ _, fun _ g hg happ => ?_⟩
      simp only [Function.update_self, Option.some.injEq] at hg
      rw [← hg, hasFlag_setfl] at happ
      exact happ
    · cases hc
  · rename_i hflags
    cases hc
    have hfl : data.openFlags = flags := by simpa using hflags
    refine ⟨by rw [← hfl], rfl, rfl, fun _ _ => rfl, id⟩

/-! ## What the handles keep -/

/-- The handles are below `next_handle`, their descriptors are open ones of their own, and a
descriptor has `O_APPEND` only if its handle's flags have it. -/
structure FlagsKept (fs : PassthroughFs) (host : HostFiles) : Prop where
  handle_lt : ∀ {h hd}, fs.handleMap h = some hd → h < fs.nextHandle
  fd_lt : ∀ {h hd}, fs.handleMap h = some hd → hd.file < host.nextFd
  fd_inj : ∀ {h₁ h₂ hd₁ hd₂}, fs.handleMap h₁ = some hd₁ → fs.handleMap h₂ = some hd₂ →
    hd₁.file = hd₂.file → h₁ = h₂
  kept : ∀ {h hd}, fs.handleMap h = some hd → DataKept host hd

namespace FlagsKept

variable {fs : PassthroughFs}

/-- The host changed away from the handles' descriptors. -/
theorem frame (hk : FlagsKept fs host) (hnext : host.nextFd ≤ host'.nextFd)
    (hfds : ∀ {h hd}, fs.handleMap h = some hd → host'.fds hd.file = host.fds hd.file) :
    FlagsKept fs host' where
  handle_lt := hk.handle_lt
  fd_lt hh := lt_of_lt_of_le (hk.fd_lt hh) hnext
  fd_inj := hk.fd_inj
  kept hh f hf := hk.kept hh f (hfds hh ▸ hf)

theorem openFile (hk : FlagsKept fs host) (id : InodeId) (f : Nat) :
    FlagsKept fs (host.openFile id f).2 :=
  hk.frame (Nat.le_succ _) fun hh => Function.update_of_ne (hk.fd_lt hh).ne _ _

theorem of_fds (hk : FlagsKept fs host) (hfds : host'.fds = host.fds)
    (hnext : host'.nextFd = host.nextFd) : FlagsKept fs host' :=
  hk.frame hnext.ge fun _ => by rw [hfds]

/-- The data a call works on: the handle's own, or with `no_open` one whose descriptor no handle
has. -/
def Owns (fs : PassthroughFs) (handle : Nat) (data : HandleData) : Prop :=
  if fs.noOpen then ∀ {h hd}, fs.handleMap h = some hd → hd.file ≠ data.file
  else fs.handleMap handle = some data

/-- The data written back after `check_fd_flags`, with the host changed only at its descriptor. -/
theorem keepHandle (hk : FlagsKept fs host) {handle : Nat} (hown : Owns fs handle data)
    (hnext : host.nextFd ≤ host'.nextFd) (hfds : ∀ x, x ≠ data.file → host'.fds x = host.fds x)
    (hdata : DataKept host' data') (hfile : data'.file = data.file) :
    FlagsKept (fs.keepHandle handle data') host' := by
  unfold Owns at hown
  unfold PassthroughFs.keepHandle
  split
  · rename_i hno
    rw [if_pos hno] at hown
    exact hk.frame hnext fun hh => hfds _ (hown hh)
  · rename_i hno
    rw [if_neg hno] at hown
    have hother : ∀ {h hd}, h ≠ handle → fs.handleMap h = some hd → hd.file ≠ data.file :=
      fun hne hh hfd => hne (hk.fd_inj hh hown hfd)
    refine ⟨fun {h hd} hh => ?_, fun {h hd} hh => ?_, fun {h₁ h₂ hd₁ hd₂} hh₁ hh₂ hfd => ?_,
      fun {h hd} hh => ?_⟩ <;> dsimp only at *
    · by_cases he : h = handle
      · subst he
        exact hk.handle_lt hown
      · rw [Function.update_of_ne he] at hh
        exact hk.handle_lt hh
    · by_cases he : h = handle
      · subst he
        simp only [Function.update_self, Option.some.injEq] at hh
        rw [← hh, hfile]
        exact lt_of_lt_of_le (hk.fd_lt hown) hnext
      · rw [Function.update_of_ne he] at hh
        exact lt_of_lt_of_le (hk.fd_lt hh) hnext
    · by_cases he₁ : h₁ = handle <;> by_cases he₂ : h₂ = handle
      · rw [he₁, he₂]
      · subst he₁
        simp only [Function.update_self, Option.some.injEq] at hh₁
        rw [Function.update_of_ne he₂] at hh₂
        rw [← hh₁, hfile] at hfd
        exact absurd hfd.symm (hother he₂ hh₂)
      · subst he₂
        simp only [Function.update_self, Option.some.injEq] at hh₂
        rw [Function.update_of_ne he₁] at hh₁
        rw [← hh₂, hfile] at hfd
        exact absurd hfd (hother he₁ hh₁)
      · rw [Function.update_of_ne he₁] at hh₁
        rw [Function.update_of_ne he₂] at hh₂
        exact hk.fd_inj hh₁ hh₂ hfd
    · by_cases he : h = handle
      · subst he
        simp only [Function.update_self, Option.some.injEq] at hh
        rw [← hh]
        exact hdata
      · rw [Function.update_of_ne he] at hh
        intro f hf
        rw [hfds _ (hother he hh)] at hf
        exact hk.kept hh f hf

end FlagsKept

namespace FlagsKept

variable {fs : PassthroughFs} {id : InodeId} {f inode : Nat}

theorem empty (hh : fs.handleMap = fun _ => none) : FlagsKept fs host where
  handle_lt hd := by simp [hh] at hd
  fd_lt hd := by simp [hh] at hd
  fd_inj hd := by simp [hh] at hd
  kept hd := by simp [hh] at hd

/-- `do_open` adds a handle under `next_handle` on the new descriptor. -/
theorem insert (hk : FlagsKept fs host) (hf : hasFlag f oAppend → hasFlag flags oAppend) :
    FlagsKept { fs with
      handleMap := Function.update fs.handleMap fs.nextHandle (some ⟨inode, host.nextFd, flags⟩)
      nextHandle := fs.nextHandle + 1 } (host.openFile id f).2 := by
  have hk₁ := hk.openFile id f
  refine ⟨fun {h hd} hh => ?_, fun {h hd} hh => ?_, fun {h₁ h₂ hd₁ hd₂} hh₁ hh₂ hfd => ?_,
    fun {h hd} hh => ?_⟩ <;> dsimp only at *
  · by_cases he : h = fs.nextHandle
    · omega
    · rw [Function.update_of_ne he] at hh
      exact Nat.lt_succ_of_lt (hk.handle_lt hh)
  · by_cases he : h = fs.nextHandle
    · subst he
      simp only [Function.update_self, Option.some.injEq] at hh
      rw [← hh]
      simp
    · rw [Function.update_of_ne he] at hh
      exact hk₁.fd_lt hh
  · by_cases he₁ : h₁ = fs.nextHandle <;> by_cases he₂ : h₂ = fs.nextHandle
    · rw [he₁, he₂]
    · subst he₁
      simp only [Function.update_self, Option.some.injEq] at hh₁
      rw [Function.update_of_ne he₂] at hh₂
      rw [← hh₁] at hfd
      exact absurd hfd (hk.fd_lt hh₂).ne'
    · subst he₂
      simp only [Function.update_self, Option.some.injEq] at hh₂
      rw [Function.update_of_ne he₁] at hh₁
      rw [← hh₂] at hfd
      exact absurd hfd (hk.fd_lt hh₁).ne
    · rw [Function.update_of_ne he₁] at hh₁
      rw [Function.update_of_ne he₂] at hh₂
      exact hk.fd_inj hh₁ hh₂ hfd
  · by_cases he : h = fs.nextHandle
    · subst he
      simp only [Function.update_self, Option.some.injEq] at hh
      intro g hg
      rw [← hh] at hg ⊢
      simp only [HostFiles.openFile_fds, Function.update_self, Option.some.injEq] at hg
      rw [← hg]
      exact hf
    · rw [Function.update_of_ne he] at hh
      exact hk₁.kept hh

/-- `release` drops a handle and closes its descriptor. -/
theorem erase (hk : FlagsKept fs host) {handle : Nat} {hd : HandleData}
    (hh : fs.handleMap handle = some hd) :
    FlagsKept { fs with handleMap := Function.update fs.handleMap handle none } (host.close hd.file) := by
  have hold : ∀ {h hd'}, Function.update fs.handleMap handle none h = some hd' →
      h ≠ handle ∧ fs.handleMap h = some hd' := by
    intro h hd' hh'
    by_cases he : h = handle
    · subst he
      simp at hh'
    · rw [Function.update_of_ne he] at hh'
      exact ⟨he, hh'⟩
  refine ⟨fun hh' => hk.handle_lt (hold hh').2, fun hh' => hk.fd_lt (hold hh').2,
    fun hh₁ hh₂ hfd => hk.fd_inj (hold hh₁).2 (hold hh₂).2 hfd, fun {h hd'} hh' g hg => ?_⟩
  obtain ⟨hne, hh'⟩ := hold hh'
  have hfd : hd'.file ≠ hd.file := fun hfd => hne (hk.fd_inj hh' hh hfd)
  simp only [HostFiles.close_fds, Function.update_of_ne hfd] at hg
  exact hk.kept hh' g hg

end FlagsKept

namespace PassthroughFs

variable {fs fs' : PassthroughFs} {inode handle fd oflags size offset mode length : Nat}
  {r : Except IoError Nat}

/-- What `open_inode` opens: a new descriptor on the inode's file, with `O_APPEND` only if asked
for and `O_TRUNC` as asked. -/
theorem openInode_ok (ho : fs.openInode host inode flags = .ok (fd, host')) :
    ∃ d f, fs.inodeMap.get inode = some d ∧ fd = host.nextFd ∧ host' = (host.openFile d.id f).2 ∧
      (hasFlag f oAppend → hasFlag flags oAppend) ∧ hasFlag f oTrunc = hasFlag flags oTrunc := by
  unfold openInode at ho
  split at ho
  · cases ho
  · rename_i d hd
    split at ho
    · cases ho
    · cases ho
      refine ⟨d, _, hd, rfl, rfl, fun happ => ?_, ?_⟩
      · apply getWritebackOpenFlags_append fs
        split_ifs at happ <;> simp_all [testBit_clearBits]
      · rw [← getWritebackOpenFlags_trunc fs flags]
        split_ifs <;> simp [testBit_clearBits]

/-- What `get_data` hands a call: data it owns, whose descriptor keeps its flags, without
changing a size when it asks for neither `O_APPEND` nor `O_TRUNC`. -/
theorem getData_kept (hk : FlagsKept fs host)
    (hg : fs.getData host handle inode oflags = .ok (data, host₁))
    (happ : hasFlag oflags oAppend = false) (htr : hasFlag oflags oTrunc = false) :
    host₁.size = host.size ∧ FlagsKept fs host₁ ∧ FlagsKept.Owns fs handle data ∧
      DataKept host₁ data := by
  unfold getData at hg
  unfold FlagsKept.Owns
  split at hg
  · rename_i hno
    rw [if_neg (by simpa using hno)]
    cases hgh : getHandle fs.handleMap handle inode with
    | error e =>
      rw [hgh] at hg
      cases hg
    | ok hd =>
      rw [hgh] at hg
      cases hg
      have hh := (getHandle_ok hgh).1
      exact ⟨rfl, hk, hh, hk.kept hh⟩
  · rename_i hno
    rw [if_pos (by simpa using hno)]
    cases ho : fs.openInode host inode oflags with
    | error e =>
      rw [ho] at hg
      cases hg
    | ok p =>
      rcases p with ⟨fd, host₂⟩
      rw [ho] at hg
      cases hg
      obtain ⟨d, f, -, hfd, rfl, hfa, hft⟩ := openInode_ok ho
      refine ⟨HostFiles.openFile_size (hft.trans htr), hk.openFile d.id f,
        fun hh => hfd ▸ (hk.fd_lt hh).ne, fun g hg hga => ?_⟩
      simp only [hfd, HostFiles.openFile_fds, Function.update_self, Option.some.injEq] at hg
      rw [← hg] at hga
      exact absurd (hfa hga) (by simp [happ])

theorem keepHandle_sealSize (data : HandleData) :
    (fs.keepHandle handle data).sealSize = fs.sealSize := by
  unfold keepHandle
  split <;> rfl

theorem sealed_write (hseal : fs.sealSize = true)
    (hs : fs.sealed host .write fd offset size 0 = .ok ()) :
    ∃ f, host.fds fd = some f ∧ offset + size ≤ host.size f.id := by
  rw [sealed, if_pos hseal] at hs
  cases hst : host.fstat fd with
  | error e =>
    rw [hst] at hs
    cases hs
  | ok st =>
    rw [hst] at hs
    obtain ⟨f, hf, rfl⟩ := HostFiles.fstat_ok hst
    have hcheck : sealSizeCheck .write (host.size f.id) offset size 0 = .ok () := hs
    have hle := sealSizeCheck_write hcheck
    exact ⟨f, hf, by omega⟩

theorem sealed_fallocate (hseal : fs.sealSize = true)
    (hs : fs.sealed host .fallocate fd offset length mode = .ok ()) :
    ∃ f, host.fds fd = some f ∧ offset + length ≤ host.size f.id ∧ mode.testBit 3 = false ∧
      mode.testBit 5 = false := by
  rw [sealed, if_pos hseal] at hs
  cases hst : host.fstat fd with
  | error e =>
    rw [hst] at hs
    cases hs
  | ok st =>
    rw [hst] at hs
    obtain ⟨f, hf, rfl⟩ := HostFiles.fstat_ok hst
    have hcheck : sealSizeCheck .fallocate (host.size f.id) offset length mode = .ok () := hs
    obtain ⟨hle, h3, h5⟩ := sealSizeCheck_fallocate hcheck
    exact ⟨f, hf, by omega, h3, h5⟩

end PassthroughFs

/-! ## One request -/

namespace PassthroughFs

variable {fs fs' : PassthroughFs} {inode handle size offset mode length : Nat}
  {r : Except IoError Nat}

/-- Under `seal_size`, a write without `O_APPEND` in its flags keeps every size: after
`check_fd_flags` its descriptor has no `O_APPEND`, and the check keeps the range inside the file. -/
theorem write_keeps (hseal : fs.sealSize = true) (hk : FlagsKept fs host)
    (happ : hasFlag flags oAppend = false)
    (hw : fs.write host inode handle size offset flags = (r, fs', host')) :
    host'.size = host.size ∧ FlagsKept fs' host' ∧ fs'.sealSize = true := by
  unfold write at hw
  split at hw
  · cases hw
    exact ⟨rfl, hk, hseal⟩
  rename_i data host₁ hg
  obtain ⟨hsize₁, hk₁, hown, hdata⟩ := getData_kept hk hg (by simp) (by simp)
  split at hw
  · cases hw
    exact ⟨hsize₁, hk₁, hseal⟩
  rename_i data' host₂ hc
  obtain ⟨rfl, hsize₂, hnext₂, hfds₂, hkeep⟩ := checkFdFlags_ok hc
  have hk₂ := hk₁.keepHandle hown hnext₂.ge hfds₂ (hkeep hdata) rfl
  have hseal₂ : (fs.keepHandle handle { data with openFlags := flags }).sealSize = true :=
    (keepHandle_sealSize _).trans hseal
  dsimp only at hw
  split at hw
  · cases hw
    exact ⟨hsize₂.trans hsize₁, hk₂, hseal₂⟩
  rename_i hs
  split at hw
  · rename_i n host₃ hpw
    cases hw
    obtain ⟨f, hf, hfds₃, hnext₃, hsz⟩ := HostFiles.pwrite_ok hpw
    obtain ⟨f', hf', hle⟩ := sealed_write hseal hs
    rw [hf] at hf'
    cases hf'
    have hnoapp : hasFlag f.flags oAppend = false := by
      cases hfa : hasFlag f.flags oAppend
      · rfl
      · have := hkeep hdata f hf hfa
        simp_all
    exact ⟨(hsz hnoapp hle).trans (hsize₂.trans hsize₁), hk₂.of_fds hfds₃ hnext₃, hseal₂⟩
  · cases hw
    exact ⟨hsize₂.trans hsize₁, hk₂, hseal₂⟩

/-- `read` sets its flags on the descriptor and records them, and changes no size. -/
theorem read_keeps (hk : FlagsKept fs host)
    (hr : fs.read host inode handle size offset flags = (r, fs', host')) :
    host'.size = host.size ∧ FlagsKept fs' host' ∧ fs'.sealSize = fs.sealSize := by
  unfold read at hr
  split at hr
  · cases hr
    exact ⟨rfl, hk, rfl⟩
  rename_i data host₁ hg
  obtain ⟨hsize₁, hk₁, hown, hdata⟩ := getData_kept hk hg (by simp) (by simp)
  split at hr
  · cases hr
    exact ⟨hsize₁, hk₁, rfl⟩
  rename_i data' host₂ hc
  cases hr
  obtain ⟨rfl, hsize₂, hnext₂, hfds₂, hkeep⟩ := checkFdFlags_ok hc
  exact ⟨hsize₂.trans hsize₁, hk₁.keepHandle hown hnext₂.ge hfds₂ (hkeep hdata) rfl,
    keepHandle_sealSize _⟩

/-- Under `seal_size`, `fallocate` keeps every size: the check lets through neither collapse nor
insert, and no range past the end of the file. -/
theorem fallocate_keeps (hseal : fs.sealSize = true) (hk : FlagsKept fs host)
    {res : Except IoError Unit}
    (hf : fs.fallocate host inode handle mode offset length = (res, host')) :
    host'.size = host.size ∧ FlagsKept fs host' := by
  unfold fallocate at hf
  split at hf
  · cases hf
    exact ⟨rfl, hk⟩
  rename_i data host₁ hg
  obtain ⟨hsize₁, hk₁, -, -⟩ := getData_kept hk hg (by simp) (by simp)
  split at hf
  · cases hf
    exact ⟨hsize₁, hk₁⟩
  rename_i hs
  split at hf
  · rename_i host₂ hfa
    cases hf
    obtain ⟨f, hfd, hfds₂, hnext₂, hsz⟩ := HostFiles.fallocate_ok hfa
    obtain ⟨f', hf', hle, h3, h5⟩ := sealed_fallocate hseal hs
    rw [hfd] at hf'
    cases hf'
    exact ⟨(hsz h3 h5 hle).trans hsize₁, hk₁.of_fds hfds₂ hnext₂⟩
  · cases hf
    exact ⟨hsize₁, hk₁⟩

/-- Under `seal_size`, `setattr` with a size leaves the host as it was. -/
theorem setattrSize_sealed (hseal : fs.sealSize = true) (handle : Option Nat) :
    (fs.setattrSize host inode handle size).2 = host := by
  unfold setattrSize
  split
  · rfl
  · dsimp only
    split
    · rfl
    · rw [if_pos hseal]

theorem open_keeps (hk : FlagsKept fs host) (htr : hasFlag flags oTrunc = false)
    (ho : fs.open_ host inode flags = (r, fs', host')) :
    host'.size = host.size ∧ FlagsKept fs' host' ∧ fs'.sealSize = fs.sealSize := by
  unfold open_ doOpen at ho
  split at ho
  · cases ho
    exact ⟨rfl, hk, rfl⟩
  split at ho
  · cases ho
    exact ⟨rfl, hk, rfl⟩
  rename_i fd host₁ hoi
  cases ho
  obtain ⟨d, f, -, rfl, rfl, hfa, hft⟩ := openInode_ok hoi
  exact ⟨HostFiles.openFile_size (hft.trans htr), hk.insert hfa, rfl⟩

theorem release_keeps (hk : FlagsKept fs host) {res : Except IoError Unit}
    (hr : fs.release host inode handle = (res, fs', host')) :
    host'.size = host.size ∧ FlagsKept fs' host' ∧ fs'.sealSize = fs.sealSize := by
  unfold release at hr
  split at hr
  · cases hr
    exact ⟨rfl, hk, rfl⟩
  split at hr
  · cases hr
    exact ⟨rfl, hk, rfl⟩
  rename_i hd hg
  cases hr
  exact ⟨rfl, hk.erase (getHandle_ok hg).1, rfl⟩

end PassthroughFs

/-! ## Runs -/

namespace PassthroughFs

/-- What the calls of the inode table leave alone. -/
structure SameHandles (fs fs' : PassthroughFs) : Prop where
  handleMap : fs'.handleMap = fs.handleMap
  nextHandle : fs'.nextHandle = fs.nextHandle
  sealSize : fs'.sealSize = fs.sealSize

theorem SameHandles.trans {fs₁ fs₂ fs₃ : PassthroughFs} (h₁ : SameHandles fs₁ fs₂)
    (h₂ : SameHandles fs₂ fs₃) : SameHandles fs₁ fs₃ :=
  ⟨h₂.handleMap.trans h₁.handleMap, h₂.nextHandle.trans h₁.nextHandle,
    h₂.sealSize.trans h₁.sealSize⟩

variable {fs fs' : PassthroughFs} {id : InodeId} {h : Option FileHandle}

theorem allocateInode_sameHandles (fs : PassthroughFs) (id : InodeId) (h : Option FileHandle) :
    SameHandles fs (fs.allocateInode id h).2 := by
  unfold allocateInode uniqueInode
  split_ifs
  · split <;> exact ⟨rfl, rfl, rfl⟩
  · split <;> exact ⟨rfl, rfl, rfl⟩
  · exact ⟨rfl, rfl, rfl⟩

theorem lookupInode_sameHandles {mode : Nat} {r : Except IoError Nat}
    (hl : fs.lookupInode id h mode = some (r, fs')) : SameHandles fs fs' := by
  rcases lookupInode_cases hl with ⟨d, -, -, -, rfl⟩ |
    ⟨-, ⟨e, ha, -⟩ | ⟨k, ha, -, -⟩ | ⟨k, fs₁, ha, -, -, rfl⟩⟩
  · exact ⟨rfl, rfl, rfl⟩
  · simpa [ha] using allocateInode_sameHandles fs id h
  · simpa [ha] using allocateInode_sameHandles fs id h
  · have hs : SameHandles fs fs₁ := by simpa [ha] using allocateInode_sameHandles fs id h
    exact hs.trans ⟨rfl, rfl, rfl⟩

theorem step_sameHandles {op : Op} (hstep : step fs op = some fs') : SameHandles fs fs' := by
  cases op with
  | lookup parent ans =>
    obtain ⟨⟨res, fs₁⟩, hl, rfl⟩ := Option.map_eq_some_iff.mp hstep
    rcases doLookup_cases hl with rfl | ⟨a, r, -, hr, -⟩
    · exact ⟨rfl, rfl, rfl⟩
    · exact lookupInode_sameHandles hr
  | forget inode count =>
    cases hstep
    exact ⟨rfl, rfl, rfl⟩
  | batchForget requests =>
    cases hstep
    exact ⟨rfl, rfl, rfl⟩

end PassthroughFs

theorem FlagsKept.of_sameHandles {fs fs' : PassthroughFs} (hk : FlagsKept fs host)
    (hs : PassthroughFs.SameHandles fs fs') : FlagsKept fs' host := by
  obtain ⟨hmap, hnext, -⟩ := hs
  exact ⟨fun hh => hnext ▸ hk.handle_lt (hmap ▸ hh), fun hh => hk.fd_lt (hmap ▸ hh),
    fun hh₁ hh₂ => hk.fd_inj (hmap ▸ hh₁) (hmap ▸ hh₂), fun hh => hk.kept (hmap ▸ hh)⟩

/-- The requests of a run: those of the inode table, and those that reach a host file through
a handle. -/
inductive Request where
  | inodes (op : Op)
  | open_ (inode flags : Nat)
  | read (inode handle size offset flags : Nat)
  | write (inode handle size offset flags : Nat)
  | fallocate (inode handle mode offset length : Nat)
  | setattrSize (inode : Nat) (handle : Option Nat) (size : Nat)
  | release (inode handle : Nat)

/-- The file system and the host after a request, whatever it answered; `none` where
`do_lookup` spins. -/
def serve (s : PassthroughFs × HostFiles) : Request → Option (PassthroughFs × HostFiles)
  | .inodes op => (step s.1 op).map fun fs => (fs, s.2)
  | .open_ inode flags => some (s.1.open_ s.2 inode flags).2
  | .read inode handle size offset flags => some (s.1.read s.2 inode handle size offset flags).2
  | .write inode handle size offset flags => some (s.1.write s.2 inode handle size offset flags).2
  | .fallocate inode handle mode offset length =>
    some (s.1, (s.1.fallocate s.2 inode handle mode offset length).2)
  | .setattrSize inode handle size => some (s.1, (s.1.setattrSize s.2 inode handle size).2)
  | .release inode handle => some (s.1.release s.2 inode handle).2

/-- A request that asks neither to truncate nor to append. -/
def Request.Plain : Request → Prop
  | .open_ _ flags => hasFlag flags oTrunc = false
  | .write _ _ _ _ flags => hasFlag flags oAppend = false
  | _ => True

/-- What a sealed run keeps: `seal_size`, the handles' flags and every size. -/
structure SealedKept (size : InodeId → Nat) (s : PassthroughFs × HostFiles) : Prop where
  sealSize : s.1.sealSize = true
  flags : FlagsKept s.1 s.2
  size_eq : s.2.size = size

open PassthroughFs in
theorem SealedKept.serve {size : InodeId → Nat} {s s' : PassthroughFs × HostFiles} {q : Request}
    (hs : SealedKept size s) (hq : q.Plain) (hserve : serve s q = some s') : SealedKept size s' := by
  obtain ⟨fs, host⟩ := s
  obtain ⟨hseal, hk, rfl⟩ := hs
  cases q with
  | inodes op =>
    obtain ⟨fs', hstep, rfl⟩ := Option.map_eq_some_iff.mp hserve
    have hsame := step_sameHandles hstep
    exact ⟨hsame.sealSize.trans hseal, hk.of_sameHandles hsame, rfl⟩
  | open_ inode flags =>
    cases hserve
    obtain ⟨hsz, hk', hseal'⟩ := open_keeps hk hq (Prod.ext rfl rfl)
    exact ⟨hseal'.trans hseal, hk', hsz⟩
  | read inode handle size offset flags =>
    cases hserve
    obtain ⟨hsz, hk', hseal'⟩ := read_keeps hk (Prod.ext rfl rfl)
    exact ⟨hseal'.trans hseal, hk', hsz⟩
  | write inode handle size offset flags =>
    cases hserve
    obtain ⟨hsz, hk', hseal'⟩ := write_keeps hseal hk hq (Prod.ext rfl rfl)
    exact ⟨hseal', hk', hsz⟩
  | fallocate inode handle mode offset length =>
    cases hserve
    obtain ⟨hsz, hk'⟩ := fallocate_keeps hseal hk (Prod.ext rfl rfl)
    exact ⟨hseal, hk', hsz⟩
  | setattrSize inode handle size =>
    cases hserve
    refine ⟨hseal, ?_, ?_⟩ <;> dsimp only <;> rw [setattrSize_sealed hseal]
    exact hk
  | release inode handle =>
    cases hserve
    obtain ⟨hsz, hk', hseal'⟩ := release_keeps hk (Prod.ext rfl rfl)
    exact ⟨hseal'.trans hseal, hk', hsz⟩

/-- Under `seal_size`, a run of requests none of which opens with `O_TRUNC` or writes with
`O_APPEND` keeps the size of every host file. -/
theorem sealed_run_keeps_sizes {fs fs' : PassthroughFs} {host host' : HostFiles}
    {qs : List Request} (hseal : fs.sealSize = true) (hk : FlagsKept fs host)
    (hplain : ∀ q ∈ qs, q.Plain) (hrun : Transition.run serve (fs, host) qs = some (fs', host')) :
    host'.size = host.size :=
  (Transition.run_induction (P := SealedKept host.size)
    (fun _ _ _ hs hq hserve => hs.serve hq hserve) hplain hrun ⟨hseal, hk, rfl⟩).size_eq

theorem importRoot_handleMap {cfg : Config} {root : HostEntry} {fs : PassthroughFs}
    (h₀ : (PassthroughFs.new cfg).importRoot (.ok root) = .ok fs) : fs.handleMap = fun _ => none := by
  cases h₀
  rfl

/-- From `import` with `seal_size` configured, on any host, a run of requests none of which opens
with `O_TRUNC` or writes with `O_APPEND` keeps the size of every host file. -/
theorem sealed_import_run_keeps_sizes {cfg : Config} {root : HostEntry} {fs₀ fs : PassthroughFs}
    {host host' : HostFiles} {qs : List Request} (hcfg : cfg.sealSize = true)
    (h₀ : (PassthroughFs.new cfg).importRoot (.ok root) = .ok fs₀)
    (hplain : ∀ q ∈ qs, q.Plain) (hrun : Transition.run serve (fs₀, host) qs = some (fs, host')) :
    host'.size = host.size := by
  have hseal : fs₀.sealSize = true := by
    cases h₀
    exact hcfg
  exact sealed_run_keeps_sizes hseal (FlagsKept.empty (importRoot_handleMap h₀)) hplain hrun

/-- A shared directory with one regular file of one byte, under `seal_size`. -/
def sealRoot : HostEntry := ⟨⟨{ stIno := 2, stMode := sIfdir }, 1, 1⟩, none⟩

def sealedFile : HostEntry := ⟨⟨{ stIno := 3, stMode := 0o100644, stSize := 1 }, 1, 1⟩, none⟩

def sealedHost : HostFiles :=
  ⟨fun id => if id = .fromStat sealedFile.st then 1 else 0, fun _ => none, 3⟩

/-- A lookup of the file, a read-write open, a one-byte write and the release of the handle leave
the file one byte long. -/
theorem sealed_lookup_open_write_keeps_size :
    ∃ fs₀ fs host', (PassthroughFs.new { sealSize := true }).importRoot (.ok sealRoot) = .ok fs₀ ∧
      Transition.run serve (fs₀, sealedHost)
          [.inodes (.lookup rootId (.ok sealedFile)), .open_ 2 oRdwr, .write 2 1 1 0 oRdwr,
            .release 2 1] = some (fs, host') ∧
      host'.size = sealedHost.size := by
  obtain ⟨fs₀, s, h₀, hrun⟩ : ∃ fs₀ s,
      (PassthroughFs.new { sealSize := true }).importRoot (.ok sealRoot) = .ok fs₀ ∧
      Transition.run serve (fs₀, sealedHost)
          [.inodes (.lookup rootId (.ok sealedFile)), .open_ 2 oRdwr, .write 2 1 1 0 oRdwr,
            .release 2 1] = some s := ⟨_, _, rfl, rfl⟩
  have hplain : ∀ q ∈ [Request.inodes (.lookup rootId (.ok sealedFile)), .open_ 2 oRdwr,
      .write 2 1 1 0 oRdwr, .release 2 1], q.Plain := by
    intro q hq
    simp only [List.mem_cons, List.not_mem_nil, or_false] at hq
    rcases hq with rfl | rfl | rfl | rfl <;> simp only [Request.Plain] <;> decide
  exact ⟨fs₀, s.1, s.2, h₀, hrun, sealed_import_run_keeps_sizes rfl h₀ hplain hrun⟩

/-- Under `seal_size`, a write of one byte at offset 0 to a file of one byte passes the check,
and with `O_APPEND` in the request's flags `check_fd_flags` puts it on the descriptor, so the
byte goes to the end and the file grows; an open with `O_TRUNC` empties the file. -/
theorem sealed_append_write_grows_file :
    ∃ fs₀ fs₁ fs₂ fs₃ e h₂ h₃,
      (PassthroughFs.new { sealSize := true }).importRoot (.ok sealRoot) = .ok fs₀ ∧
      fs₀.doLookup rootId (.ok sealedFile) = some (.ok e, fs₁) ∧
      fs₁.open_ sealedHost e.inode oRdwr = (.ok 1, fs₂, h₂) ∧
      fs₂.write h₂ e.inode 1 1 0 (oRdwr ||| oAppend) = (.ok 1, fs₃, h₃) ∧
      sealedHost.size (.fromStat sealedFile.st) = 1 ∧ h₃.size (.fromStat sealedFile.st) = 2 ∧
      (fs₁.open_ sealedHost e.inode (oRdwr ||| oTrunc)).2.2.size (.fromStat sealedFile.st) = 0 :=
  ⟨_, _, _, _, _, _, _, rfl, rfl, rfl, rfl, rfl, rfl, rfl⟩

end FuseBackend.Passthrough
