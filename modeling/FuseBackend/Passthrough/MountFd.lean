import FuseBackend.Passthrough.FileOps

/-!
# Mount file descriptors

`MountFds` (`passthrough/mount_fd.rs`) hands out, for a mount id, a shared `MountFd`: a file
open on the root of that mount, which `open_by_handle_at` needs. `get_mount_root` finds the
mount point in `/proc/self/mountinfo` and strips the configured prefix from it; `get` opens the
mount point with `O_PATH`, checks its mount id and file type, reopens it for reading and files
the result in the map under a `Weak` reference; the last `Arc<MountFd>` to go takes the entry out
again in `MountFd::drop`.

The process's descriptors are the list of those open now. `libc::open` with `O_PATH` and
`statx` are oracles on the mount point's path, and `reopen_fd` is the caller's closure, which on
success returns a `File` on a new descriptor. An `Arc<MountFd>` is an index into the list of
allocations, each with its strong count; the map's `Weak` is such an index. The map's weak
reference to itself, which `MountFd::drop` upgrades, is taken to live as long as `MountFds`.
Each operation runs as one step; `get` reads the map twice, as the code does.
-/

namespace FuseBackend.Passthrough

open Api

def oNofollow : Nat := 0o400000

/-! ## `MPRError` -/

/-- The description of an `MPRError`: the text of the error it was made from, a text set in its
place, or a prefix before another description. -/
inductive Description where
  | ofError (e : IoError)
  | text (s : String)
  | prefixed (s : String) (d : Description)
  deriving DecidableEq, Repr

structure MPRError where
  io : IoError
  description : Description
  silent : Bool
  fsMountId : Option Nat
  fsMountRoot : Option (List Char)
  deriving DecidableEq, Repr

namespace MPRError

/-- `MPRError::from` an `io::Error`. -/
def ofIoError (e : IoError) : MPRError := ⟨e, .ofError e, false, none, none⟩

/-- `MPRError::from` the `NulError` of `CString::new`, with the position of the first nul. -/
def ofNulError (pos : Nat) : MPRError :=
  ⟨.custom .invalidInput "data provided contains a nul byte",
    .text ("nul byte found in provided data at position: " ++ toString pos), false, none, none⟩

def setDesc (err : MPRError) (s : String) : MPRError := { err with description := .text s }

/-- `MPRError::prefix`. -/
def withPrefix (err : MPRError) (s : String) : MPRError :=
  { err with description := .prefixed s err.description }

def setMountId (err : MPRError) (mountId : Nat) : MPRError := { err with fsMountId := some mountId }

def setMountRoot (err : MPRError) (mountRoot : List Char) : MPRError :=
  { err with fsMountRoot := some mountRoot }

def silence (err : MPRError) : MPRError := { err with silent := true }

end MPRError

/-! ## `MountFds` and `get_mount_root` -/

/-- `/proc/self/mountinfo` as `get_mount_root` reads it: what `rewind` and `read_to_string`
return. -/
structure MountInfoFile where
  rewind : Except IoError Unit
  contents : Except IoError (List Char)

structure MountFds where
  map : Nat → Option Nat
  mountInfo : MountInfoFile
  mountPrefix : Option (List Char)
  errorLogged : List Nat

/-- `char::is_whitespace`: the characters with the Unicode property `White_Space`. -/
def isWhitespace (c : Char) : Bool :=
  let n := c.toNat
  (0x09 ≤ n && n ≤ 0x0D) || n == 0x20 || n == 0x85 || n == 0xA0 || n == 0x1680 ||
    (0x2000 ≤ n && n ≤ 0x200A) || n == 0x2028 || n == 0x2029 || n == 0x202F || n == 0x205F ||
    n == 0x3000

/-- `u64::from_str`: an optional `+`, then one decimal digit or more, of a value below
`2 ^ 64`. -/
def parseU64 (s : List Char) : Option Nat :=
  let digits := match s with
    | '+' :: rest => rest
    | _ => s
  if digits ≠ [] ∧ digits.all Char.isDigit then
    let v := digits.foldl (fun n c => 10 * n + (c.toNat - '0'.toNat)) 0
    if v < 2 ^ 64 then some v else none
  else none

/-- The closure `get_mount_root` hands to `find_map`: the fifth column of a line whose first
column is the mount id. -/
def mountPointOfLine (mountId : Nat) (line : List Char) : Option (List Char) :=
  match line.splitOnP isWhitespace with
  | [] => none
  | first :: columns =>
    match parseU64 first with
    | none => none
    | some id => if id ≠ mountId then none else columns[3]?

def findMountPoint (mountinfo : List Char) (mountId : Nat) : Option (List Char) :=
  (mountinfo.splitOn '\n').findSome? (mountPointOfLine mountId)

namespace MountFds

/-- `error_for_nolookup`: the error gets the mount id, and is silenced when one was made for
that mount id before. `err` is `MPRError::from` of the error. -/
def errorForNolookup (fds : MountFds) (mountId : Nat) (err : MPRError) : MPRError × MountFds :=
  let err := err.setMountId mountId
  if mountId ∈ fds.errorLogged then (err.silence, fds)
  else (err, { fds with errorLogged := mountId :: fds.errorLogged })

/-- `get_mount_root`: the mount point of the mount id, with `mount_prefix` stripped; `/` when
that leaves nothing or the prefix is not there. -/
def getMountRoot (fds : MountFds) (mountId : Nat) : Except MPRError (List Char) × MountFds :=
  match fds.mountInfo.rewind with
  | .error e =>
    let (err, fds) := fds.errorForNolookup mountId (.ofIoError e)
    (.error (err.withPrefix "Failed to access /proc/self/mountinfo"), fds)
  | .ok () =>
    match fds.mountInfo.contents with
    | .error e =>
      let (err, fds) := fds.errorForNolookup mountId (.ofIoError e)
      (.error (err.withPrefix "Failed to read /proc/self/mountinfo"), fds)
    | .ok mountinfo =>
      match findMountPoint mountinfo mountId with
      | some p =>
        match fds.mountPrefix with
        | some mountPrefix =>
          match (p.dropPrefix? mountPrefix).filter (fun s => !s.isEmpty) with
          | some suffix => (.ok suffix, fds)
          | none => (.ok ['/'], fds)
        | none => (.ok p, fds)
      | none =>
        let (err, fds) := fds.errorForNolookup mountId (.ofIoError (.os einval))
        (.error (err.setDesc ("Failed to find mount root for mount ID " ++ toString mountId)), fds)

/-- `error_for`: an error that is not silenced also gets the mount root, when there is one. -/
def errorFor (fds : MountFds) (mountId : Nat) (err : MPRError) : MPRError × MountFds :=
  let (err, fds) := fds.errorForNolookup mountId err
  if err.silent then (err, fds)
  else
    match fds.getMountRoot mountId with
    | (.ok mountRoot, fds) => (err.setMountRoot mountRoot, fds)
    | (.error _, fds) => (err, fds)

end MountFds

/-! ## The descriptors and `get` -/

/-- What `validate_mount_id` reads of `statx`. -/
structure Statx where
  mntId : Nat
  stMode : Nat
  deriving DecidableEq, Repr

/-- The host: the descriptors open now, the next one to hand out, and what `open(O_PATH)` (the
errno it fails with, if it does) and `statx` answer on a path. -/
structure MountHost where
  openFds : List Nat
  nextFd : Nat
  openPath : List Char → Option Nat
  statx : List Char → Except IoError Statx

namespace MountHost

def openFd (h : MountHost) : Nat × MountHost :=
  (h.nextFd, { h with openFds := h.nextFd :: h.openFds, nextFd := h.nextFd + 1 })

def close (h : MountHost) (fd : Nat) : MountHost := { h with openFds := h.openFds.erase fd }

end MountHost

structure MountFd where
  file : Nat
  mountId : Nat
  deriving DecidableEq, Repr

/-- An allocation of `Arc<MountFd>` and its strong count. -/
structure ArcCell where
  value : MountFd
  strong : Nat
  deriving DecidableEq, Repr

structure MountState where
  fds : MountFds
  host : MountHost
  arcs : List ArcCell

namespace MountState

/-- `Weak::strong_count`. -/
def strongCount (s : MountState) (i : Nat) : Nat := (s.arcs[i]?.map (·.strong)).getD 0

def setStrong (s : MountState) (i n : Nat) : MountState :=
  { s with arcs := s.arcs.modify i fun c => { c with strong := n } }

/-- `Weak::upgrade` on the map's entry: the allocation, when a strong reference is left. -/
def upgrade (s : MountState) : Option Nat → Option Nat
  | none => none
  | some i => if 0 < s.strongCount i then some i else none

/-- `validate_mount_id`: the mode of the mount point, if it is on the mount id. -/
def validateMountId (s : MountState) (mountId : Nat) (mountPoint : List Char) :
    Except MPRError Nat × MountFds :=
  match s.host.statx mountPoint with
  | .error e =>
    let (err, fds) := s.fds.errorFor mountId (.ofIoError e)
    (.error (err.withPrefix ("Failed to stat mount point \"" ++ String.ofList mountPoint ++ "\"")),
      fds)
  | .ok stx =>
    if stx.mntId ≠ mountId then
      let (err, fds) := s.fds.errorFor mountId (.ofIoError (.os eio))
      (.error (err.setDesc ("Mount point's (" ++ String.ofList mountPoint ++ ") mount ID (" ++
        toString stx.mntId ++ ") does not match expected value (" ++ toString mountId ++ ")")), fds)
    else (.ok stx.stMode, s.fds)

/-- `MountFds::get`: an `Arc` on the mount's `MountFd`, the one in the map if it is still alive,
else a new one. The descriptor `libc::open` returns is a bare number, which no path closes. -/
def get (s : MountState) (mountId : Nat) (reopenFd : Nat → Nat → Nat → Except IoError Unit) :
    Except MPRError Nat × MountState :=
  match s.upgrade (s.fds.map mountId) with
  | some i => (.ok i, s.setStrong i (s.strongCount i + 1))
  | none =>
    match s.fds.getMountRoot mountId with
    | (.error e, fds) => (.error e, { s with fds })
    | (.ok mountPoint, fds) =>
      let s := { s with fds }
      let mp := String.ofList mountPoint
      match mountPoint.idxOf? '\x00' with
      | some pos =>
        let (err, fds) := s.fds.errorFor mountId (.ofNulError pos)
        (.error (err.withPrefix ("Failed to convert \"" ++ mp ++ "\" to a CString")), { s with fds })
      | none =>
        match s.host.openPath mountPoint with
        | some errno =>
          let (err, fds) := s.fds.errorFor mountId (.ofIoError (.os errno))
          (.error (err.withPrefix ("Failed to open mount point \"" ++ mp ++ "\"")), { s with fds })
        | none =>
          let (mountPointFd, host) := s.host.openFd
          let s := { s with host }
          match s.validateMountId mountId mountPoint with
          | (.error e, fds) => (.error e, { s with fds })
          | (.ok stMode, fds) =>
            let s := { s with fds }
            let fileType := stMode &&& sIfmt
            if !isSafeInode fileType then
              let (err, fds) := s.fds.errorFor mountId (.ofIoError (.os eio))
              (.error (err.setDesc ("Mount point \"" ++ mp ++ "\" is not a regular file or directory")),
                { s with fds })
            else
              match reopenFd mountPointFd (oRdonly ||| oNofollow ||| oCloexec) stMode with
              | .error e =>
                let (err, fds) := s.fds.errorFor mountId (.ofIoError e)
                (.error (err.withPrefix ("Failed to reopen mount point \"" ++ mp ++ "\" for reading")),
                  { s with fds })
              | .ok () =>
                let (file, host) := s.host.openFd
                let s := { s with host }
                match s.upgrade (s.fds.map mountId) with
                | some i =>
                  -- a `MountFd` was filed in the meantime: `file` is dropped
                  (.ok i, { s.setStrong i (s.strongCount i + 1) with host := s.host.close file })
                | none =>
                  (.ok s.arcs.length,
                    { s with
                      arcs := s.arcs ++ [⟨⟨file, mountId⟩, 1⟩]
                      fds := { s.fds with map := Function.update s.fds.map mountId (some s.arcs.length) } })

/-- Dropping an `Arc<MountFd>`. The last one runs `MountFd::drop`, which takes the map's entry
out only when that holds no strong reference either, and then the `File` closes its
descriptor. -/
def dropArc (s : MountState) (i : Nat) : MountState :=
  match s.arcs[i]? with
  | none => s
  | some c =>
    if c.strong = 1 then
      let s := s.setStrong i 0
      let fds :=
        if (s.fds.map c.value.mountId).map s.strongCount = some 0 then
          { s.fds with map := Function.update s.fds.map c.value.mountId none }
        else s.fds
      { s with fds, host := s.host.close c.value.file }
    else s.setStrong i (c.strong - 1)

end MountState

end FuseBackend.Passthrough
