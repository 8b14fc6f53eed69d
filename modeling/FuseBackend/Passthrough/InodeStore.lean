import Mathlib.Logic.Function.Basic

/-!
# `InodeStore`

The table of inodes `PassthroughFs` has handed out (`passthrough/inode_store.rs`): the
`InodeData` of each by its number, and two alternate keys to find a number again, the host's
`InodeId` and, for an inode held by a file handle, that handle. The `BTreeMap`s are functions to
`Option`, updated with `Function.update`; the modelled code never iterates them.

An `InodeData` is shared through an `Arc` and its `refcount` is an atomic that `do_lookup` and
`forget_one` change in place. The model keeps the count in the entry and writes the entry back
under its number, which is where `insert` put it: that a data entry is the entry of its own
number is a field of the store.
-/

namespace FuseBackend.Passthrough

/-- `InodeId`: the host inode, its device and its mount. -/
structure InodeId where
  ino : Nat
  dev : Nat
  mnt : Nat
  deriving DecidableEq, Repr

/-- `FileHandle`: the mount it was taken on and the bytes `name_to_handle_at` gave. -/
structure FileHandle where
  mntId : Nat
  handle : List UInt8
  deriving DecidableEq, Repr

/-- `InodeHandle`: an `O_PATH` file, or a file handle that can be opened again. -/
inductive InodeHandle where
  | file
  | handle (fh : FileHandle)
  deriving DecidableEq, Repr

def InodeHandle.fileHandle : InodeHandle → Option FileHandle
  | .file => none
  | .handle fh => some fh

structure InodeData where
  inode : Nat
  handle : InodeHandle
  id : InodeId
  refcount : Nat
  mode : Nat
  deriving DecidableEq, Repr

/-- `InodeData::new`, whose arguments come in another order than the fields. -/
def InodeData.new (inode : Nat) (f : InodeHandle) (refcount : Nat) (id : InodeId) (mode : Nat) :
    InodeData :=
  ⟨inode, f, id, refcount, mode⟩

@[simp] theorem InodeData.new_inode (inode : Nat) (f : InodeHandle) (refcount : Nat) (id : InodeId)
    (mode : Nat) : (InodeData.new inode f refcount id mode).inode = inode := rfl

@[simp] theorem InodeData.new_handle (inode : Nat) (f : InodeHandle) (refcount : Nat) (id : InodeId)
    (mode : Nat) : (InodeData.new inode f refcount id mode).handle = f := rfl

@[simp] theorem InodeData.new_id (inode : Nat) (f : InodeHandle) (refcount : Nat) (id : InodeId)
    (mode : Nat) : (InodeData.new inode f refcount id mode).id = id := rfl

@[simp] theorem InodeData.new_refcount (inode : Nat) (f : InodeHandle) (refcount : Nat)
    (id : InodeId) (mode : Nat) : (InodeData.new inode f refcount id mode).refcount = refcount := rfl

structure InodeStore where
  data : Nat → Option InodeData
  byId : InodeId → Option Nat
  byHandle : FileHandle → Option Nat
  data_inode : ∀ {n d}, data n = some d → d.inode = n

namespace InodeStore

def empty : InodeStore where
  data _ := none
  byId _ := none
  byHandle _ := none
  data_inode h := by cases h

/-- Writing an entry under its own number keeps every entry under its own number. -/
theorem data_inode_update {f : Nat → Option InodeData} (hf : ∀ {n d}, f n = some d → d.inode = n)
    (d : InodeData) {n : Nat} {e : InodeData} (h : Function.update f d.inode (some d) n = some e) :
    e.inode = n := by
  by_cases hn : n = d.inode
  · subst hn
    simp only [Function.update_self, Option.some.injEq] at h
    rw [← h]
  · rw [Function.update_of_ne hn] at h
    exact hf h

theorem data_inode_erase {f : Nat → Option InodeData} (hf : ∀ {n d}, f n = some d → d.inode = n)
    (m : Nat) {n : Nat} {e : InodeData} (h : Function.update f m none n = some e) : e.inode = n := by
  by_cases hn : n = m
  · subst hn
    simp at h
  · rw [Function.update_of_ne hn] at h
    exact hf h

/-- The handle key of an entry changed, when the entry is held by a handle: the
`if let InodeHandle::Handle(handle)` of `insert` and `remove`. -/
def updateHandle (f : FileHandle → Option Nat) (handle : Option FileHandle) (v : Option Nat) :
    FileHandle → Option Nat :=
  match handle with
  | some h => Function.update f h v
  | none => f

theorem updateHandle_apply (f : FileHandle → Option Nat) (handle : Option FileHandle)
    (v : Option Nat) (h : FileHandle) :
    updateHandle f handle v h = if handle = some h then v else f h := by
  cases handle with
  | none => simp [updateHandle]
  | some h' =>
    by_cases hh : h = h'
    · simp [updateHandle, hh]
    · simp [updateHandle, hh, Ne.symm hh]

/-- `insert`. The caller is to make sure that no live inode has the number of `data`, or the old
one is lost. -/
def insert (s : InodeStore) (data : InodeData) : InodeStore where
  data := Function.update s.data data.inode (some data)
  byId := Function.update s.byId data.id (some data.inode)
  byHandle := updateHandle s.byHandle data.handle.fileHandle (some data.inode)
  data_inode := data_inode_update s.data_inode data

/-- The data entry of `inode` taken out, its keys left. -/
def eraseData (s : InodeStore) (inode : Nat) : InodeStore where
  data := Function.update s.data inode none
  byId := s.byId
  byHandle := s.byHandle
  data_inode := data_inode_erase s.data_inode inode

/-- The two keys of `data` taken out. -/
def eraseKeys (s : InodeStore) (data : InodeData) : InodeStore where
  data := s.data
  byId := Function.update s.byId data.id none
  byHandle := updateHandle s.byHandle data.handle.fileHandle none
  data_inode := s.data_inode

/-- `remove`: the data entry goes, and its two keys with it unless `remove_data_only` is set. -/
def remove (s : InodeStore) (inode : Nat) (removeDataOnly : Bool) : Option InodeData × InodeStore :=
  let data := s.data inode
  let s' := s.eraseData inode
  if removeDataOnly then (data, s')
  else
    match data with
    | some d => (data, s'.eraseKeys d)
    | none => (data, s')

/-- An entry's `refcount` changed through its `Arc`. -/
def setRefcount (s : InodeStore) (data : InodeData) (refcount : Nat) : InodeStore where
  data := Function.update s.data data.inode (some { data with refcount := refcount })
  byId := s.byId
  byHandle := s.byHandle
  data_inode := data_inode_update s.data_inode { data with refcount := refcount }

def get (s : InodeStore) (inode : Nat) : Option InodeData := s.data inode

def inodeById (s : InodeStore) (id : InodeId) : Option Nat := s.byId id

def inodeByHandle (s : InodeStore) (handle : FileHandle) : Option Nat := s.byHandle handle

def getById (s : InodeStore) (id : InodeId) : Option InodeData := (s.inodeById id).bind s.get

def getByHandle (s : InodeStore) (handle : FileHandle) : Option InodeData :=
  (s.inodeByHandle handle).bind s.get

/-! ## What each update leaves in the three tables -/

@[simp] theorem insert_data (s : InodeStore) (d : InodeData) :
    (s.insert d).data = Function.update s.data d.inode (some d) := rfl

@[simp] theorem insert_byId (s : InodeStore) (d : InodeData) :
    (s.insert d).byId = Function.update s.byId d.id (some d.inode) := rfl

theorem insert_byHandle (s : InodeStore) (d : InodeData) (h : FileHandle) :
    (s.insert d).byHandle h =
      if d.handle.fileHandle = some h then some d.inode else s.byHandle h :=
  updateHandle_apply _ _ _ h

@[simp] theorem eraseData_data (s : InodeStore) (n : Nat) :
    (s.eraseData n).data = Function.update s.data n none := rfl

@[simp] theorem eraseData_byId (s : InodeStore) (n : Nat) : (s.eraseData n).byId = s.byId := rfl

@[simp] theorem eraseData_byHandle (s : InodeStore) (n : Nat) :
    (s.eraseData n).byHandle = s.byHandle := rfl

@[simp] theorem eraseKeys_data (s : InodeStore) (d : InodeData) : (s.eraseKeys d).data = s.data :=
  rfl

@[simp] theorem eraseKeys_byId (s : InodeStore) (d : InodeData) :
    (s.eraseKeys d).byId = Function.update s.byId d.id none := rfl

theorem eraseKeys_byHandle (s : InodeStore) (d : InodeData) (h : FileHandle) :
    (s.eraseKeys d).byHandle h = if d.handle.fileHandle = some h then none else s.byHandle h :=
  updateHandle_apply _ _ _ h

@[simp] theorem setRefcount_data (s : InodeStore) (d : InodeData) (r : Nat) :
    (s.setRefcount d r).data = Function.update s.data d.inode (some { d with refcount := r }) := rfl

@[simp] theorem setRefcount_byId (s : InodeStore) (d : InodeData) (r : Nat) :
    (s.setRefcount d r).byId = s.byId := rfl

@[simp] theorem setRefcount_byHandle (s : InodeStore) (d : InodeData) (r : Nat) :
    (s.setRefcount d r).byHandle = s.byHandle := rfl

theorem remove_true (s : InodeStore) (n : Nat) : s.remove n true = (s.data n, s.eraseData n) :=
  rfl

@[simp] theorem remove_snd_data (s : InodeStore) (n : Nat) (b : Bool) :
    (s.remove n b).2.data = Function.update s.data n none := by
  unfold remove
  split
  · rfl
  · dsimp only
    split <;> rfl

theorem remove_false_of_some {s : InodeStore} {n : Nat} {d : InodeData} (h : s.data n = some d) :
    s.remove n false = (some d, (s.eraseData n).eraseKeys d) := by
  simp [remove, h]

end InodeStore

end FuseBackend.Passthrough
