import FuseBackend.Overlay.OverlayFs
import FuseBackend.Lib.CyclicSearch
import FuseBackend.Lib.Transition

/-!
# Inode numbers of the overlay

`alloc_unique_inode` hands out only numbers that neither map of the store holds
(`allocUniqueInode_free`). `alloc_inode` first gives a path the number it had before, and
that number need not be free: `remove_inode` parks a node
that the kernel still references in `deleted` and keeps its path's number, and `do_rm` removes
the path only for nodes with an upper inode.

The loop of `alloc_unique_inode` is the search of `CyclicSearch` over `1..=VFS_MAX_INO` for a
free number (`allocUniqueInodeLoop_eq`). Its start `next_inode` lies in `1..=VFS_MAX_INO + 1` in
every store that the store's calls reach from `InodeStore::new` (`nextInRange_of_reachable`), and
from such a start it hands out the first free number in cyclic order, fails only when every number
is taken, and in a debug build never panics (`allocUniqueInodeLoopChecked_eq`).

`unlink_reuses_number_of_parked_node`: the kernel looks up a file of the lower layer and it is
unlinked. The node stays in `deleted` under its number, and the whiteout that replaces it gets
the same number in `inodes`. The kernel's `FORGET` for the file then takes the whiteout's
reference, and the file's node stays parked with its reference forever.
-/

namespace FuseBackend.Overlay

open Api Utf8 ExceptState OverlayFs CyclicSearch

namespace InodeStore

theorem allocUniqueInodeLoop_free {s s' : InodeStore} {start n ino : Nat}
    (h : s.allocUniqueInodeLoop start n = .ok (ino, s')) :
    s.inodes ino = none ∧ s.deleted ino = none ∧ s' = { s with nextInode := ino + 1 } := by
  induction n generalizing start with
  | zero => cases h
  | succ n ih =>
    simp only [allocUniqueInodeLoop] at h
    -- the number tried in this round, after the wrap above `VFS_MAX_INO`
    generalize (if start > vfsMaxIno then 1 else start) = k at h
    split at h
    · rename_i hfree
      simp only [Except.ok.injEq, Prod.mk.injEq] at h
      obtain ⟨rfl, rfl⟩ := h
      simp only [Bool.and_eq_true, Option.isNone_iff_eq_none] at hfree
      exact ⟨hfree.1, hfree.2, rfl⟩
    · exact ih h

theorem allocUniqueInode_free {s s' : InodeStore} {ino : Nat} (h : s.allocUniqueInode = .ok (ino, s')) :
    s.inodes ino = none ∧ s.deleted ino = none ∧ s' = { s with nextInode := ino + 1 } :=
  allocUniqueInodeLoop_free h

/-! ## The search of `alloc_unique_inode` -/

/-- A number neither map of the store holds. -/
def Free (s : InodeStore) (i : Nat) : Prop := s.inodes i = none ∧ s.deleted i = none

instance (s : InodeStore) : DecidablePred s.Free := fun _ => inferInstanceAs (Decidable (_ ∧ _))

/-- The test of the loop is that a number is free. -/
theorem isNone_and_isNone_iff {s : InodeStore} {i : Nat} :
    ((s.inodes i).isNone && (s.deleted i).isNone) = true ↔ s.Free i := by
  rw [Bool.and_eq_true, Option.isNone_iff_eq_none, Option.isNone_iff_eq_none]
  rfl

/-- The loop of `alloc_unique_inode` is the cyclic search of `[1, VFS_MAX_INO]` for a free
number, which then becomes the start of the next call. -/
theorem allocUniqueInodeLoop_eq (s : InodeStore) (ino k : Nat) :
    s.allocUniqueInodeLoop ino k =
      match search vfsMaxIno (fun i => (s.inodes i).isNone && (s.deleted i).isNone) ino k with
      | some i => .ok (i, { s with nextInode := i + 1 })
      | none => .error (.custom .other ("maximum inode number " ++ toString vfsMaxIno ++ " reached")) := by
  induction k generalizing ino with
  | zero => rfl
  | succ k ih =>
    simp only [allocUniqueInodeLoop, search, wrap]
    -- both sides try the same number, wrapped to 1 past `VFS_MAX_INO`, and go on from the next
    split_ifs with hwrap hfree hfree
    · rfl
    · exact ih _
    · rfl
    · exact ih _

/-- In a debug build the loop never panics: it adds 1 only to a number it has wrapped to at most
`VFS_MAX_INO`, whatever the start. -/
theorem allocUniqueInodeLoopChecked_eq (s : InodeStore) (ino k : Nat) :
    s.allocUniqueInodeLoopChecked ino k = some (s.allocUniqueInodeLoop ino k) := by
  induction k generalizing ino with
  | zero => rfl
  | succ k ih =>
    simp only [allocUniqueInodeLoopChecked, allocUniqueInodeLoop]
    have hw : (if ino > vfsMaxIno then 1 else ino) ≤ vfsMaxIno := by
      unfold vfsMaxIno
      split_ifs <;> omega
    generalize (if ino > vfsMaxIno then 1 else ino) = w at hw ⊢
    have hfit : PseudoFs.addU64 w 1 = some (w + 1) := if_pos (by unfold vfsMaxIno at hw; omega)
    rw [hfit]
    split_ifs
    · rfl
    · exact ih _

theorem alloc_unique_inode_finds_first_free (s : InodeStore) (hpos : 1 ≤ s.nextInode)
    (hle : s.nextInode ≤ vfsMaxIno + 1) :
    ((∃ i, 1 ≤ i ∧ i ≤ vfsMaxIno ∧ s.Free i) →
      ∃ i j, j < vfsMaxIno ∧ i = cyclicFrom vfsMaxIno s.nextInode j ∧
        s.allocUniqueInode = .ok (i, { s with nextInode := i + 1 }) ∧
        1 ≤ i ∧ i ≤ vfsMaxIno ∧ s.Free i ∧ ∀ j' < j, ¬s.Free (cyclicFrom vfsMaxIno s.nextInode j')) ∧
    (∀ e, s.allocUniqueInode = .error e →
      e = .custom .other ("maximum inode number " ++ toString vfsMaxIno ++ " reached") ∧
        ∀ i, 1 ≤ i → i ≤ vfsMaxIno → ¬s.Free i) ∧
    s.allocUniqueInodeChecked = some s.allocUniqueInode := by
  have hn : 0 < vfsMaxIno := by decide
  have hloop := allocUniqueInodeLoop_eq s s.nextInode vfsMaxIno
  refine ⟨fun hex => ?_, fun e he => ?_, allocUniqueInodeLoopChecked_eq s _ _⟩
  · -- a free number exists, so the search does not run out, and it stops at the first
    rcases hsearch : search vfsMaxIno (fun i => (s.inodes i).isNone && (s.deleted i).isNone)
        s.nextInode vfsMaxIno with _ | i
    · obtain ⟨i, hi, hin, hfree⟩ := hex
      have hnot := (search_eq_none_iff_forall hn hpos hle).mp hsearch i hi hin
      exact absurd (isNone_and_isNone_iff.mpr hfree) (Bool.eq_false_iff.mp hnot)
    · obtain ⟨j, hj, rfl, hpi, hfirst⟩ := (search_eq_some_iff hn hpos hle).mp hsearch
      refine ⟨_, j, hj, rfl, ?_, one_le_cyclicFrom j, cyclicFrom_le hn j, isNone_and_isNone_iff.mp hpi,
        fun j' hj' hfree => ?_⟩
      · rw [allocUniqueInode, hloop, hsearch]
      · exact absurd (isNone_and_isNone_iff.mpr hfree) (Bool.eq_false_iff.mp (hfirst j' hj'))
  · -- an error means the search ran out, and then no number was free
    rw [allocUniqueInode, hloop] at he
    rcases hsearch : search vfsMaxIno (fun i => (s.inodes i).isNone && (s.deleted i).isNone)
        s.nextInode vfsMaxIno with _ | i
    · rw [hsearch] at he
      refine ⟨(Except.error.inj he).symm, fun i hi hin hfree => ?_⟩
      have hnot := (search_eq_none_iff_forall hn hpos hle).mp hsearch i hi hin
      exact absurd (isNone_and_isNone_iff.mpr hfree) (Bool.eq_false_iff.mp hnot)
    · rw [hsearch] at he
      cases he

/-- A store with nothing in it whose last call handed out `VFS_MAX_INO`. -/
def wrappedStore : InodeStore := { nextInode := vfsMaxIno + 1 }

theorem alloc_unique_inode_after_max :
    1 ≤ wrappedStore.nextInode ∧ wrappedStore.nextInode ≤ vfsMaxIno + 1 ∧
    ((∃ i, 1 ≤ i ∧ i ≤ vfsMaxIno ∧ wrappedStore.Free i) →
      ∃ i j, j < vfsMaxIno ∧ i = cyclicFrom vfsMaxIno wrappedStore.nextInode j ∧
        wrappedStore.allocUniqueInode = .ok (i, { wrappedStore with nextInode := i + 1 }) ∧
        1 ≤ i ∧ i ≤ vfsMaxIno ∧ wrappedStore.Free i ∧
        ∀ j' < j, ¬wrappedStore.Free (cyclicFrom vfsMaxIno wrappedStore.nextInode j')) ∧
    (∀ e, wrappedStore.allocUniqueInode = .error e →
      e = .custom .other ("maximum inode number " ++ toString vfsMaxIno ++ " reached") ∧
        ∀ i, 1 ≤ i → i ≤ vfsMaxIno → ¬wrappedStore.Free i) ∧
    wrappedStore.allocUniqueInodeChecked = some wrappedStore.allocUniqueInode :=
  ⟨by decide, by decide, alloc_unique_inode_finds_first_free wrappedStore (by decide) (by decide)⟩

/-! ## Where every call starts -/

/-- The calls that change an `InodeStore`. -/
inductive Op where
  | allocInode (path : List Char)
  | insertInode (inode id : Nat) (node : OverlayInode)
  | removeInode (nodes : Nat → OverlayInode) (inode : Nat) (pathRemoved : Option (List Char))

/-- One call; a failed `alloc_inode` leaves the store as it was. -/
def step (s : InodeStore) : Op → Option InodeStore
  | .allocInode path =>
    match s.allocInode path with
    | .ok (_, s') => some s'
    | .error _ => some s
  | .insertInode inode id node => some (s.insertInode inode id node)
  | .removeInode nodes inode pathRemoved => some (s.removeInode nodes inode pathRemoved).2

/-- `next_inode` lies where `alloc_unique_inode` can start its search. -/
def NextInRange (s : InodeStore) : Prop := 1 ≤ s.nextInode ∧ s.nextInode ≤ vfsMaxIno + 1

theorem removePath_nextInode (s : InodeStore) (path : Option (List Char)) :
    (s.removePath path).nextInode = s.nextInode := by
  cases path <;> rfl

theorem removeInode_nextInode (s : InodeStore) (nodes : Nat → OverlayInode) (inode : Nat)
    (pathRemoved : Option (List Char)) :
    (s.removeInode nodes inode pathRemoved).2.nextInode = s.nextInode := by
  unfold removeInode
  split
  · split
    · rfl
    · exact removePath_nextInode _ pathRemoved
  · split
    · split
      · exact removePath_nextInode _ pathRemoved
      · exact removePath_nextInode s pathRemoved
    · exact removePath_nextInode s pathRemoved

/-- A number handed out from a start in range lies in `1..=VFS_MAX_INO`. -/
theorem allocUniqueInode_range {s s' : InodeStore} {i : Nat} (h : s.NextInRange)
    (ha : s.allocUniqueInode = .ok (i, s')) : 1 ≤ i ∧ i ≤ vfsMaxIno := by
  rw [allocUniqueInode, allocUniqueInodeLoop_eq] at ha
  rcases hsearch : search vfsMaxIno (fun i => (s.inodes i).isNone && (s.deleted i).isNone)
      s.nextInode vfsMaxIno with _ | k
  · rw [hsearch] at ha
    cases ha
  · rw [hsearch] at ha
    obtain ⟨j, -, rfl, -, -⟩ := (search_eq_some_iff (by decide) h.1 h.2).mp hsearch
    simp only [Except.ok.injEq, Prod.mk.injEq] at ha
    rw [← ha.1]
    exact ⟨one_le_cyclicFrom j, cyclicFrom_le (by decide) j⟩

theorem step_nextInRange : Transition.Preserved step NextInRange := by
  intro s op s' h hstep
  cases op with
  | allocInode path =>
    simp only [step] at hstep
    rcases ha : s.allocInode path with e | ⟨i, s₁⟩ <;> rw [ha] at hstep <;> cases hstep
    · exact h
    · unfold allocInode at ha
      split at ha
      · simp only [Except.ok.injEq, Prod.mk.injEq] at ha
        rw [← ha.2]
        exact h
      · -- a new number: the next search starts right after it
        obtain ⟨-, -, rfl⟩ := allocUniqueInode_free ha
        have hi := allocUniqueInode_range h ha
        exact ⟨by dsimp only; omega, by dsimp only; omega⟩
  | insertInode inode id node =>
    cases hstep
    exact h
  | removeInode nodes inode pathRemoved =>
    cases hstep
    unfold NextInRange
    rw [removeInode_nextInode]
    exact h

/-- Every store a run of calls reaches from the empty one of `InodeStore::new` starts its next
search in `1..=VFS_MAX_INO + 1`. -/
theorem nextInRange_of_reachable {s : InodeStore} (h : Transition.Reachable step {} s) :
    s.NextInRange :=
  Transition.Reachable.induction ⟨le_refl 1, by decide⟩ step_nextInRange h

theorem next_in_range_after_two_allocations :
    ∃ s : InodeStore, Transition.run step {} [.allocInode "/a".toList, .allocInode "/b".toList] = some s ∧
      s.NextInRange := by
  obtain ⟨s, hs⟩ : ∃ s : InodeStore,
      Transition.run step {} [.allocInode "/a".toList, .allocInode "/b".toList] = some s := ⟨_, rfl⟩
  exact ⟨s, hs, nextInRange_of_reachable (Transition.reachable_of_run hs)⟩

end InodeStore

/-! ## A number held twice -/

/-- A lower layer holding the file `f`, under an empty upper layer. -/
def lowerFileStack : OverlayFs :=
  stackOf (layerOf [dirNode 1 0 []]) (layerOf [dirNode 1 0 [(encode ['f'], 2)], fileNode 2 []])

def lookupThenUnlink : OvM Nat := do
  let f ← lookup rootId (encode ['f'])
  unlink {} rootId (encode ['f'])
  return f.inode

def afterUnlink : Except IoError Nat × OverlayFs := run (import_ *> lookupThenUnlink) lowerFileStack

theorem unlink_reuses_number_of_parked_node :
    ∃ ino whiteout parked,
      afterUnlink.1 = .ok ino ∧
      afterUnlink.2.inodes.inodes ino = some whiteout ∧ (afterUnlink.2.nodes whiteout).whiteout ∧
      afterUnlink.2.inodes.deleted ino = some parked ∧ whiteout ≠ parked ∧
      (afterUnlink.2.nodes parked).lookups = 1 ∧
      ((run (forget ino 1) afterUnlink.2).2.nodes parked).lookups = 1 ∧
      ((run (forget ino 1) afterUnlink.2).2.nodes whiteout).lookups = 0 := by
  refine ⟨2, 2, 1, ?_⟩
  decide +kernel

end FuseBackend.Overlay
