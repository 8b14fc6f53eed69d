import FuseBackend.Api.PseudoFs

/-!
# `PseudoFs`: listing a directory page by page

`do_readdir` hands the children from `offset` on to `add_entry`, each with the position after its
own (`entriesFrom`), and the entries `add_entry` takes are a prefix of them
(`doReaddir_logged`). A client that resumes each call at the offset of the last entry it took
therefore sees the children in order, none twice and none skipped (`resumeRun_eq_take`), and all
of them when every call takes at least one entry (`resumeRun_complete`).

The sum `offset + 1` is formed before `offset` is compared with the number of children. Below
`u64::MAX` a debug build computes what the release build does (`doReaddirChecked_eq_some`); at
`u64::MAX` it panics (`do_readdir_overflows_at_max_offset`).
-/

namespace FuseBackend.Api

namespace PseudoFs

variable {σ : Type} {addEntry : σ → DirEntry → Except IoError Nat × σ}

/-! ## The debug build -/

theorem readdirLoopChecked_eq_some (st : σ) (next : Nat) (cs : List (Nat × String))
    (h : next + cs.length < 2 ^ 64) :
    readdirLoopChecked addEntry st next cs = some (readdirLoop addEntry st next cs) := by
  induction cs generalizing st next with
  | nil => rfl
  | cons c rest ih =>
    obtain ⟨ino, name⟩ := c
    simp only [List.length_cons] at h
    simp only [readdirLoopChecked, readdirLoop]
    rcases addEntry st ⟨ino, next, 0, name⟩ with ⟨_ | _ | n, st'⟩
    · rfl
    · rfl
    · have hnext : addU64 next 1 = some (next + 1) := if_pos (by omega)
      simp only [hnext, Option.bind_some]
      exact ih st' (next + 1) (by omega)

/-- Where neither sum reaches `2 ^ 64` the debug build lists what the release build lists. -/
theorem doReaddirChecked_eq_some (fs : PseudoFs) (parent size offset : Nat) (st : σ)
    (hoff : offset + 1 < 2 ^ 64)
    (hlen : ∀ inode, fs.inodes.lookup parent = some inode → inode.children.length + 1 < 2 ^ 64) :
    fs.doReaddirChecked parent size offset addEntry st =
      some (fs.doReaddir parent size offset addEntry st) := by
  unfold doReaddirChecked doReaddir
  split_ifs with hsize
  · rfl
  · rcases hp : fs.inodes.lookup parent with _ | inode
    · rfl
    · have hnext : addU64 offset 1 = some (offset + 1) := if_pos hoff
      have hl := hlen inode hp
      simp only [hnext, Option.bind_some]
      split_ifs with hge
      · rfl
      · exact readdirLoopChecked_eq_some st _ _ (by simp only [List.length_drop]; omega)

theorem debug_readdir_of_new_root :
    new.doReaddirChecked rootId 4096 0 (fun (n : Nat) _ => (.ok 1, n + 1)) 0 =
      some (new.doReaddir rootId 4096 0 (fun (n : Nat) _ => (.ok 1, n + 1)) 0) :=
  doReaddirChecked_eq_some new rootId 4096 0 0 (by decide) fun inode h => by
    have hroot : new.inodes.lookup rootId = some (PseudoInode.new rootId rootId "/") := rfl
    rw [hroot] at h
    cases h
    decide

theorem do_readdir_overflows_at_max_offset (fs : PseudoFs) (parent size : Nat) (st : σ)
    (hsize : size ≠ 0) (hparent : (fs.inodes.lookup parent).isSome) :
    fs.doReaddirChecked parent size (2 ^ 64 - 1) addEntry st = none := by
  obtain ⟨inode, hp⟩ := Option.isSome_iff_exists.mp hparent
  have hover : addU64 (2 ^ 64 - 1) 1 = none := if_neg (by omega)
  unfold doReaddirChecked
  rw [if_neg hsize, hp]
  simp only [hover, Option.bind_none]

theorem do_readdir_overflows_on_new_root :
    new.doReaddirChecked rootId 4096 (2 ^ 64 - 1) (fun (n : Nat) _ => (.ok 1, n)) 0 = none :=
  do_readdir_overflows_at_max_offset new rootId 4096 0 (by decide) rfl

/-! ## The entries of one call -/

/-- The children as the loop numbers them from `next` on. -/
def numbered (next : Nat) : List (Nat × String) → List DirEntry
  | [] => []
  | (ino, name) :: rest => ⟨ino, next, 0, name⟩ :: numbered (next + 1) rest

/-- The children from `offset` on, each with the position after its own. -/
def entriesFrom (children : List (Nat × String)) (offset : Nat) : List DirEntry :=
  numbered (offset + 1) (children.drop offset)

/-- `addEntry` with a record of the entries it took: those it answered with a size. -/
def logged (addEntry : σ → DirEntry → Except IoError Nat × σ) (s : σ × List DirEntry)
    (d : DirEntry) : Except IoError Nat × (σ × List DirEntry) :=
  match addEntry s.1 d with
  | (.ok 0, st) => (.ok 0, (st, s.2))
  | (.ok n, st) => (.ok n, (st, s.2 ++ [d]))
  | (.error e, st) => (.error e, (st, s.2))

theorem numbered_drop (next : Nat) (cs : List (Nat × String)) (k : Nat) :
    (numbered next cs).drop k = numbered (next + k) (cs.drop k) := by
  induction cs generalizing next k with
  | nil => simp [numbered]
  | cons c rest ih =>
    cases k with
    | zero => rfl
    | succ k =>
      simp only [numbered, List.drop_succ_cons, ih]
      rw [Nat.add_right_comm, Nat.add_assoc]

theorem length_numbered (next : Nat) (cs : List (Nat × String)) :
    (numbered next cs).length = cs.length := by
  induction cs generalizing next with
  | nil => rfl
  | cons c rest ih => simp [numbered, ih]

/-- The offset the next call resumes at: that of the last entry taken, or `offset` when none
was. -/
theorem resumeOffset_take (offset : Nat) (cs : List (Nat × String)) (k : Nat) :
    ((((numbered (offset + 1) cs).take k).getLast?.map (·.offset)).getD offset) =
      offset + min k cs.length := by
  induction cs generalizing offset k with
  | nil => simp [numbered]
  | cons c rest ih =>
    obtain ⟨ino, name⟩ := c
    cases k with
    | zero => simp
    | succ k =>
      have hd : ∀ l : List DirEntry, (l.getLast?.getD ⟨ino, offset + 1, 0, name⟩).offset =
          (l.getLast?.map (·.offset)).getD (offset + 1) := fun l => (Option.getD_map ..).symm
      simp only [numbered, List.take_succ_cons, List.getLast?_cons, Option.map_some,
        Option.getD_some, hd, ih, List.length_cons]
      omega

theorem entriesFrom_add (cs : List (Nat × String)) (offset k : Nat) :
    entriesFrom cs (offset + k) = (entriesFrom cs offset).drop k := by
  rw [entriesFrom, entriesFrom, numbered_drop, List.drop_drop, Nat.add_right_comm]

/-- One pass of the loop: `add_entry` takes a prefix of the children, numbered in order. -/
theorem readdirLoop_logged (addEntry : σ → DirEntry → Except IoError Nat × σ) (st : σ) (log : List DirEntry) (next : Nat) (cs : List (Nat × String)) :
    ∃ k, (readdirLoop (logged addEntry) (st, log) next cs).2.2 = log ++ (numbered next cs).take k := by
  induction cs generalizing st log next with
  | nil => exact ⟨0, by simp [readdirLoop]⟩
  | cons c rest ih =>
    obtain ⟨ino, name⟩ := c
    rcases h : addEntry st ⟨ino, next, 0, name⟩ with ⟨_ | _ | n, st'⟩
    · exact ⟨0, by simp [readdirLoop, logged, h]⟩
    · exact ⟨0, by simp [readdirLoop, logged, h]⟩
    · obtain ⟨k, hk⟩ := ih st' (log ++ [⟨ino, next, 0, name⟩]) (next + 1)
      refine ⟨k + 1, ?_⟩
      simp [readdirLoop, logged, h, hk, numbered]

/-- One call: `add_entry` takes a prefix of the children from `offset` on. -/
theorem doReaddir_logged (addEntry : σ → DirEntry → Except IoError Nat × σ) (fs : PseudoFs)
    (parent size offset : Nat) (st : σ) {inode : PseudoInode}
    (hp : fs.inodes.lookup parent = some inode) :
    ∃ k, (fs.doReaddir parent size offset (logged addEntry) (st, [])).2.2 =
      (entriesFrom inode.children offset).take k := by
  unfold doReaddir
  split_ifs with hsize
  · exact ⟨0, rfl⟩
  · rw [hp]
    dsimp only
    split_ifs with hge
    · exact ⟨0, rfl⟩
    · simpa [entriesFrom] using readdirLoop_logged addEntry st [] (offset + 1) (inode.children.drop offset)

/-- A call that gets a child and whose buffer takes the first entry takes it. -/
theorem doReaddir_logged_ne_nil (fs : PseudoFs) (parent size offset : Nat) (st : σ)
    {inode : PseudoInode} (hp : fs.inodes.lookup parent = some inode) (hsize : size ≠ 0)
    (hoff : offset < inode.children.length) (htake : ∀ d, ∃ n, (addEntry st d).1 = .ok (n + 1)) :
    (fs.doReaddir parent size offset (logged addEntry) (st, [])).2.2 ≠ [] := by
  obtain ⟨⟨ino, name⟩, rest, hcs⟩ : ∃ c rest, inode.children.drop offset = c :: rest :=
    List.exists_cons_of_ne_nil (by simp only [ne_eq, List.drop_eq_nil_iff]; omega)
  obtain ⟨n, hn⟩ := htake ⟨ino, offset + 1, 0, name⟩
  rcases h : addEntry st ⟨ino, offset + 1, 0, name⟩ with ⟨r, st'⟩
  rw [h] at hn
  subst hn
  have hstep : readdirLoop (logged addEntry) (st, []) (offset + 1) ((ino, name) :: rest) =
      readdirLoop (logged addEntry) (st', [⟨ino, offset + 1, 0, name⟩]) (offset + 1 + 1) rest := by
    simp [readdirLoop, logged, h]
  obtain ⟨k, hk⟩ := readdirLoop_logged addEntry st' [⟨ino, offset + 1, 0, name⟩]
    (offset + 1 + 1) rest
  unfold doReaddir
  rw [if_neg hsize, hp]
  dsimp only
  rw [if_neg (by omega), hcs, hstep, hk]
  simp

/-! ## A client reading page by page -/

/-- A client reading the directory with one call per buffer of `sts`, each call resuming at the
offset of the last entry the call before it took: the entries it was given, in order. -/
def resumeRun (fs : PseudoFs) (parent size : Nat)
    (addEntry : σ → DirEntry → Except IoError Nat × σ) : Nat → List σ → List DirEntry
  | _, [] => []
  | offset, st :: sts =>
    let page := (fs.doReaddir parent size offset (logged addEntry) (st, [])).2.2
    page ++ resumeRun fs parent size addEntry ((page.getLast?.map (·.offset)).getD offset) sts

section Run

variable (fs : PseudoFs) (parent size : Nat) {inode : PseudoInode}

/-- One call of the run: its page, then the rest resumed after the page's last entry. -/
theorem resumeRun_cons {offset k : Nat} {st : σ} (sts : List σ)
    (hk : (fs.doReaddir parent size offset (logged addEntry) (st, [])).2.2 =
      (entriesFrom inode.children offset).take k) :
    resumeRun fs parent size addEntry offset (st :: sts) =
      (entriesFrom inode.children offset).take (min k (inode.children.length - offset)) ++
        resumeRun fs parent size addEntry (offset + min k (inode.children.length - offset)) sts := by
  have htake : (entriesFrom inode.children offset).take k =
      (entriesFrom inode.children offset).take (min k (inode.children.length - offset)) := by
    rw [List.take_eq_take_min, entriesFrom, length_numbered, List.length_drop]
  simp only [resumeRun]
  rw [hk, entriesFrom, resumeOffset_take, List.length_drop, ← entriesFrom, htake]

variable (hp : fs.inodes.lookup parent = some inode)
include hp

/-- The entries the run is given are the children from `offset` on, in order, each once. -/
theorem resumeRun_eq_take (offset : Nat) (sts : List σ) :
    ∃ k, resumeRun fs parent size addEntry offset sts = (entriesFrom inode.children offset).take k := by
  induction sts generalizing offset with
  | nil => exact ⟨0, rfl⟩
  | cons st sts ih =>
    obtain ⟨k₁, hk₁⟩ := doReaddir_logged addEntry fs parent size offset st hp
    obtain ⟨k₂, hk₂⟩ := ih (offset + min k₁ (inode.children.length - offset))
    refine ⟨min k₁ (inode.children.length - offset) + k₂, ?_⟩
    rw [resumeRun_cons fs parent size sts hk₁, hk₂, entriesFrom_add, List.take_add]

/-- When every buffer takes the first entry it is offered, each call with children left is given
one at least. -/
theorem resumeRun_length (hsize : size ≠ 0) {sts : List σ}
    (htake : ∀ st ∈ sts, ∀ d, ∃ n, (addEntry st d).1 = .ok (n + 1)) (offset : Nat) :
    min sts.length (inode.children.length - offset) ≤
      (resumeRun fs parent size addEntry offset sts).length := by
  induction sts generalizing offset with
  | nil => simp
  | cons st sts ih =>
    obtain ⟨k₁, hk₁⟩ := doReaddir_logged addEntry fs parent size offset st hp
    have hm : offset < inode.children.length → 1 ≤ min k₁ (inode.children.length - offset) := by
      intro hlt
      have hne := doReaddir_logged_ne_nil fs parent size offset st hp hsize hlt
        (htake st List.mem_cons_self)
      rw [hk₁] at hne
      have hpos := List.length_pos_of_ne_nil hne
      rw [List.length_take, entriesFrom, length_numbered, List.length_drop] at hpos
      omega
    have hrest := ih (fun st' h => htake st' (List.mem_cons_of_mem _ h))
      (offset + min k₁ (inode.children.length - offset))
    rw [resumeRun_cons fs parent size sts hk₁, List.length_append, List.length_take, entriesFrom,
      length_numbered, List.length_drop, List.length_cons]
    omega

/-- A client with a buffer per child that takes at least one entry is given every child once,
in order. -/
theorem resumeRun_complete (hsize : size ≠ 0) {sts : List σ}
    (htake : ∀ st ∈ sts, ∀ d, ∃ n, (addEntry st d).1 = .ok (n + 1))
    (hcalls : inode.children.length ≤ sts.length) :
    resumeRun fs parent size addEntry 0 sts = entriesFrom inode.children 0 := by
  obtain ⟨k, hk⟩ := resumeRun_eq_take fs parent size hp 0 sts
  have hlen := resumeRun_length fs parent size hp hsize htake 0
  rw [hk, List.length_take, entriesFrom, length_numbered] at hlen
  rw [hk]
  apply List.take_of_length_le
  rw [entriesFrom, length_numbered]
  simp only [List.drop_zero, Nat.sub_zero] at hlen ⊢
  omega

end Run

/-- The root with the children `a` and `b`. -/
def twoChildren : PseudoFs :=
  ⟨4, (∅ : InodeMap).insert rootId ⟨rootId, rootId, [(2, "a"), (3, "b")], "/"⟩⟩

/-- Two calls whose buffers take one entry each are given `a` and then `b`. -/
theorem two_calls_list_both_children :
    resumeRun twoChildren rootId 4096 (fun (_ : Unit) _ => (.ok 1, ())) 0 [(), ()] =
      entriesFrom [(2, "a"), (3, "b")] 0 :=
  resumeRun_complete twoChildren rootId 4096
    (show twoChildren.inodes.lookup rootId = some ⟨rootId, rootId, [(2, "a"), (3, "b")], "/"⟩ from rfl)
    (by decide) (fun _ _ _ => ⟨0, rfl⟩) (by decide)

end PseudoFs

end FuseBackend.Api
