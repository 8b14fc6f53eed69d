import FuseBackend.Overlay.Run

/-!
# Listing a directory of the overlay

`do_readdir` lists `.` (the directory), `..` (its parent, or the root when it has none) and the
children that are not whiteouts, from the offset on, and hands each to `add_entry`. For
`readdirplus` it takes a lookup of the entry's node before the call, whatever `add_entry`
answers (`readdirLoop_plus_run`); `readdir` changes nothing (`readdirLoop_readOnly`).

* `readdirplus_takes_lookup_for_dot`: the kernel takes no reference for `.` and `..`, and none
  for an entry that `add_entry` refused, but the node of `.` gains a lookup either way, which no
  `FORGET` takes back.
* `readdir_dotdot_of_new_directory_is_root`: only `load_directory` sets a node's parent, so the
  `..` of a directory made by `mkdir` in a subdirectory carries the root's inode number.
-/

namespace FuseBackend.Overlay

open Api Utf8 ExceptState OverlayFs

/-- The state after a lookup of each node of `ids` was taken, in turn. -/
def bumpLookups (ids : List Nat) (fs : OverlayFs) : OverlayFs :=
  ids.foldl (fun fs id =>
    { fs with nodes := Function.update fs.nodes id { fs.nodes id with lookups := (fs.nodes id).lookups + 1 } })
    fs

/-- The loop of `readdirplus` changes the nodes only by a lookup of each entry it handed to
`add_entry`: the entries up to the one it stopped at, whatever `add_entry` answered them. -/
theorem readdirLoop_plus_run {σ : Type} (size : Nat)
    (addEntry : σ → DirEntryBytes → Option Entry → Except IoError Nat × σ) :
    ∀ (index len : Nat) (es : List (List Char × Nat)) (out : σ) (fs : OverlayFs),
      ∃ k ≤ es.length, (run (readdirLoop true size addEntry index len es out) fs).2 =
        bumpLookups ((es.take k).map Prod.snd) fs := by
  intro index len es
  induction es generalizing index len with
  | nil =>
    intro out fs
    exact ⟨0, le_refl _, rfl⟩
  | cons e es ih =>
    intro out fs
    obtain ⟨name, child⟩ := e
    simp only [readdirLoop, run_bind, run_getNode]
    rw [ReadOnly.run_eq (OverlayInode.stat64_readOnly _)]
    rcases (run (fs.nodes child).stat64 fs).1 with err | st
    · exact ⟨0, Nat.zero_le _, rfl⟩
    · dsimp only
      rw [if_pos trivial]
      simp only [run_bind, run_modifyNode, run_get, run_getNode, run_pure]
      -- the lookup is taken; `add_entry` decides only whether the loop goes on
      split
      · exact ⟨1, by simp, rfl⟩
      · split
        · exact ⟨1, by simp, rfl⟩
        · obtain ⟨k, hk, heq⟩ := ih (index + 1) _ _ _
          exact ⟨k + 1, by simp; omega, heq⟩
      · split
        · exact ⟨1, by simp, rfl⟩
        · exact ⟨1, by simp, rfl⟩

/-- The loop of `readdir` only reads the state. -/
theorem readdirLoop_readOnly {σ : Type} (size : Nat)
    (addEntry : σ → DirEntryBytes → Option Entry → Except IoError Nat × σ) :
    ∀ (index len : Nat) (es : List (List Char × Nat)) (out : σ),
      ReadOnly (readdirLoop false size addEntry index len es out)
  | _, _, [], _ => ReadOnly.pure _
  | index, len, (name, child) :: rest, out => by
    apply ReadOnly.bind (getNode_readOnly child)
    intro node
    apply ReadOnly.bind (OverlayInode.stat64_readOnly node)
    intro st
    rw [if_neg Bool.false_ne_true]
    apply ReadOnly.bind (ReadOnly.pure _)
    intro entry
    dsimp only
    split
    · exact ReadOnly.pure _
    · split
      · exact ReadOnly.pure _
      · exact readdirLoop_readOnly size addEntry (index + 1) _ rest _
    · split
      · exact ReadOnly.throw _
      · exact ReadOnly.pure _

/-! ## Lookups taken for `.` -/

/-- A `readdirplus` of `d` in `lowerDirStack` whose `add_entry` answers `answer` to every entry:
the lookups of the node of `d` after its lookup, after the `readdirplus`, and after the kernel's
`FORGET` of the one reference its lookup gave. -/
def readdirplusOfD (answer : Nat) : OvM (Nat × Nat × Nat) := do
  let d ← lookup rootId (encode ['d'])
  let some id ← getActiveInode d.inode | throw (.os enoent)
  let before := (← getNode id).lookups
  let _ ← readdirplus d.inode 4096 0 (fun (n : Nat) _ _ => (.ok answer, n + 1)) 0
  let after := (← getNode id).lookups
  forget d.inode 1
  return (before, after, (← getNode id).lookups)

theorem readdirplus_takes_lookup_for_dot :
    (run (import_ *> readdirplusOfD 0) lowerDirStack).1 = .ok (2, 3, 2) ∧
    (run (import_ *> readdirplusOfD 32) lowerDirStack).1 = .ok (2, 3, 2) := by
  decide +kernel

/-! ## `..` of a new directory -/

/-- Empty upper and lower layers. -/
def emptyStack : OverlayFs := stackOf (layerOf [dirNode 1 0 []]) (layerOf [dirNode 1 0 []])

/-- `mkdir a`, `mkdir a/b`, then the entries `readdir` gives for `b`, with the inode numbers of
the root and of `a`. -/
def mkdirThenReaddir : OvM (Nat × Nat × List (List UInt8 × Nat)) := do
  let a ← mkdir {} rootId (encode ['a']) 0o755 0
  let b ← mkdir {} a.inode (encode ['b']) 0o755 0
  let entries ← readdir b.inode 4096 0 (fun es d => (.ok 1, es ++ [(d.name, d.ino)])) []
  return ((← getattr rootId).1.stIno, a.attr.stIno, entries)

theorem readdir_dotdot_of_new_directory_is_root :
    (run (import_ *> mkdirThenReaddir) emptyStack).1 =
      .ok (1, 2, [(encode ['.'], 3), (encode ['.', '.'], 1)]) := by
  decide +kernel

end FuseBackend.Overlay
