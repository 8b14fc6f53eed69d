import FuseBackend.Passthrough.Readdir
import FuseBackend.Passthrough.Verify.Lookup

/-!
# References taken by `readdirplus`

`readdirplus` looks each name up before it calls `add_entry`, and gives the reference back only
when `add_entry` answers 0. For a file the table holds, one entry leaves it one reference more
unless `add_entry` answered 0 (`plusEntry_refcount`): the kernel takes a reference for an entry
it was given, and none for one that failed, whose reference then stays.

`readdirplus_error_keeps_lookup_reference`: a listing of `.`, `..` and a file `a`, whose entry
`add_entry` fails on. `.` was consumed, so the listing ends as a success; the lookup of `a`
inserted it with a refcount of 1, which no `FORGET` will take back. An answer of 0 instead
leaves no entry.
-/

namespace FuseBackend.Passthrough

open Api InodeMap

namespace PassthroughFs

variable {fs : PassthroughFs}

end PassthroughFs

/-! ## A failed entry after `.` -/

def hostDir : HostEntry := ⟨⟨{ stIno := 2, stMode := sIfdir }, 1, 1⟩, none⟩

def hostFile : HostEntry := ⟨⟨{ stIno := 5, stMode := 0o100644 }, 1, 1⟩, none⟩

/-- `.`, `..` and the file `a`, as `getdents64` pads their names. -/
def rootListing : List LinuxDirent64 :=
  [⟨2, 1, 4, [46, 0, 0, 0, 0]⟩, ⟨1, 2, 4, [46, 46, 0, 0, 0]⟩, ⟨5, 3, 8, [97, 0, 0, 0, 0]⟩]

theorem readdirplus_error_keeps_lookup_reference :
    ∃ fs₁ fs₂ fs₃ d,
      (PassthroughFs.new {}).importRoot (.ok hostDir) = .ok fs₁ ∧
      fs₁.inodeMap.get 2 = none ∧
      fs₁.readdirplus rootId 4096 (.ok rootListing) (fun _ => .ok hostFile)
        (fun (n : Nat) _ _ => (.error (.os eio), n)) 0 = some (.ok (), fs₂, 0) ∧
      fs₂.inodeMap.get 2 = some d ∧ d.refcount = 1 ∧
      fs₁.readdirplus rootId 4096 (.ok rootListing) (fun _ => .ok hostFile)
        (fun (n : Nat) _ _ => (.ok 0, n)) 0 = some (.ok (), fs₃, 0) ∧
      fs₃.inodeMap.get 2 = none :=
  ⟨_, _, _, _, rfl, rfl, rfl, rfl, rfl, rfl, rfl⟩

end FuseBackend.Passthrough
