import FuseBackend.Api.Server
import FuseBackend.Passthrough.Lookup

/-!
# Listing a directory of the host

`do_readdir` of `passthrough/sync_io.rs`: the records `getdents64` returned for the directory
from the offset on are handed to the callback one by one. `.` and `..` are skipped but count as
consumed; a name is cut at its first NUL (`bytes_to_cstr`), and a name without one fails the
call with `EINVAL`. The loop stops at an answer of 0; an error of the callback is returned when
no record was consumed yet, and otherwise ends the listing as a success.

`readdir` and `readdirplus` look each name up with `do_lookup`. `readdir` gives the reference
back at once with `forget_one` and reports the FUSE inode number; `readdirplus` keeps it for the
kernel, reports the host's `st_ino` with the `Entry`, and gives it back only when `add_entry`
answers 0.

The host is an oracle: what it answers for the directory (the records of `getdents64`, or the
error of `get_dirdata`, `lseek64` or `getdents64`), and what `open_file_and_handle` answers for
each name.
-/

namespace FuseBackend.Passthrough

open Api

/-- A record of `getdents64`: `d_ino`, `d_off`, `d_type`, and the name up to `d_reclen`, with the
NUL bytes the kernel pads it with. -/
structure LinuxDirent64 where
  ino : Nat
  off : Nat
  type_ : Nat
  name : List UInt8
  deriving DecidableEq, Repr

/-- `CURRENT_DIR_CSTR` and `PARENT_DIR_CSTR`. -/
def currentDirCstr : List UInt8 := [46, 0]
def parentDirCstr : List UInt8 := [46, 46, 0]

namespace PassthroughFs

/-- The loop of `do_readdir` over the records left; `first` holds while none was consumed. -/
def readdirLoop {τ : Type} (addEntry : τ → DirEntryBytes → Option (Except IoError Nat × τ)) :
    Bool → List LinuxDirent64 → τ → Option (Except IoError Unit × τ)
  | _, [], t => some (.ok (), t)
  | first, d :: ds, t =>
    if currentDirCstr.isPrefixOf d.name || parentDirCstr.isPrefixOf d.name then
      readdirLoop addEntry false ds t
    else
      match Server.bytesToCstr d.name with
      | .error _ => some (.error (.os einval), t)
      | .ok name => do
        let (res, t) ← addEntry t ⟨d.ino, d.off, d.type_, name⟩
        match res with
        | .ok 0 => some (.ok (), t)
        | .ok _ => readdirLoop addEntry false ds t
        | .error e => some (if first then .error e else .ok (), t)

/-- `do_readdir`, for what the host answered for the directory. -/
def doReaddir {τ : Type} (size : Nat) (listing : Except IoError (List LinuxDirent64))
    (addEntry : τ → DirEntryBytes → Option (Except IoError Nat × τ)) (t : τ) :
    Option (Except IoError Unit × τ) :=
  if size = 0 then some (.ok (), t)
  else
    match listing with
    | .error e => some (.error e, t)
    | .ok ds => readdirLoop addEntry true ds t

/-- The callback `readdirplus` gives `do_readdir`: the lookup of the name, `add_entry` with the
host's `st_ino`, and `forget_one` of the lookup's reference when `add_entry` answers 0. -/
def plusEntry {σ : Type} (parent : Nat) (host : List UInt8 → Except IoError HostEntry)
    (addEntry : σ → DirEntryBytes → Entry → Except IoError Nat × σ) :
    PassthroughFs × σ → DirEntryBytes → Option (Except IoError Nat × (PassthroughFs × σ))
  | (fs, out), d => do
    let (r, fs) ← fs.doLookup parent (host d.name)
    match r with
    | .error e => some (.error e, fs, out)
    | .ok entry =>
      match addEntry out { d with ino := entry.attr.stIno } entry with
      | (.ok 0, out) => some (.ok 0, { fs with inodeMap := fs.forgetOne fs.inodeMap entry.inode 1 }, out)
      | (res, out) => some (res, fs, out)

/-- The callback `readdir` gives `do_readdir`: the lookup of the name for its FUSE inode number,
whose reference `forget_one` gives back at once, then `add_entry`. -/
def plainEntry {σ : Type} (parent : Nat) (host : List UInt8 → Except IoError HostEntry)
    (addEntry : σ → DirEntryBytes → Except IoError Nat × σ) :
    PassthroughFs × σ → DirEntryBytes → Option (Except IoError Nat × (PassthroughFs × σ))
  | (fs, out), d => do
    let (r, fs) ← fs.doLookup parent (host d.name)
    match r with
    | .error e => some (.error e, fs, out)
    | .ok entry =>
      let fs := { fs with inodeMap := fs.forgetOne fs.inodeMap entry.inode 1 }
      let (res, out) := addEntry out { d with ino := entry.inode }
      some (res, fs, out)

def readdir {σ : Type} (fs : PassthroughFs) (inode size : Nat) (listing : Except IoError (List LinuxDirent64))
    (host : List UInt8 → Except IoError HostEntry) (addEntry : σ → DirEntryBytes → Except IoError Nat × σ)
    (out : σ) : Option (Except IoError Unit × PassthroughFs × σ) :=
  if fs.cfg.noReaddir then some (.ok (), fs, out)
  else doReaddir size listing (plainEntry inode host addEntry) (fs, out)

def readdirplus {σ : Type} (fs : PassthroughFs) (inode size : Nat)
    (listing : Except IoError (List LinuxDirent64)) (host : List UInt8 → Except IoError HostEntry)
    (addEntry : σ → DirEntryBytes → Entry → Except IoError Nat × σ) (out : σ) :
    Option (Except IoError Unit × PassthroughFs × σ) :=
  if fs.cfg.noReaddir then some (.ok (), fs, out)
  else doReaddir size listing (plusEntry inode host addEntry) (fs, out)

end PassthroughFs

end FuseBackend.Passthrough
