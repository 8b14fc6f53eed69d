import FuseBackend.Lib.ByteMemory
import FuseBackend.Api.Filesystem
import FuseBackend.Transport.IoBuffers

/-!
# `FileVolatileSlice`

`FileVolatileSlice` (`common/file_buf.rs`) is a window of `size` bytes at `addr` in the
process's memory. Its `Bytes<usize>` implementation hands each call to the vm-memory
`VolatileSlice` over the same window.

vm-memory is a dependency, so the `VolatileSlice` calls are a parameter of the model
(`VolatileBytes`), and what the proofs take from them is the documented contract of `Bytes`
(`VolatileBytes.Contract`): `write_slice` writes all of a buffer that fits and fails on a
non-empty one that does not, and `read` of a buffer that fits fills it. `vmMemory` is vm-memory 0.10's
implementation: `write` and `read` move as many bytes as fit, `write_slice` and `read_slice` fail
when not all of the buffer fits (after moving what fits), the calls on a reader or a writer fail
when the range does not lie in the slice, and an atomic access also when it is not aligned. A
call that reads the slice returns no memory; a `Read` source is the bytes its `read` yields, a
`Write` sink how many bytes its `write` takes.
-/

namespace FuseBackend.Common

open Api ByteMemory

/-- `vm_memory::volatile_memory::Error`, the variants these calls return. -/
inductive VError where
  | outOfBounds (addr : Nat)
  | overflow (base offset : Nat)
  | partialBuffer (expected completed : Nat)
  | misaligned (addr alignment : Nat)
  | ioError (e : IoError)
  deriving DecidableEq, Repr

/-- A `VolatileSlice` without dirty-page tracking: `size` bytes at `addr`. -/
structure VolatileSlice where
  addr : Nat
  size : Nat
  deriving DecidableEq, Repr

namespace VolatileSlice

variable (s : VolatileSlice) (mem : Nat → UInt8)

/-- `compute_end_offset`: the end of `count` bytes at `a`, when it lies in the slice. -/
def computeEndOffset (a count : Nat) : Except VError Nat :=
  if a + count > Transport.usizeMax then .error (.overflow a count)
  else if a + count > s.size then .error (.outOfBounds (a + count))
  else .ok (a + count)

def write (buf : List UInt8) (a : Nat) : Except VError Nat × (Nat → UInt8) :=
  if buf.isEmpty then (.ok 0, mem)
  else if a ≥ s.size then (.error (.outOfBounds a), mem)
  else
    let total := min buf.length (s.size - a)
    (.ok total, store mem (s.addr + a) (buf.take total))

/-- The count read and the buffer after it. -/
def read (buf : List UInt8) (a : Nat) : Except VError Nat × List UInt8 :=
  if buf.isEmpty then (.ok 0, buf)
  else if a ≥ s.size then (.error (.outOfBounds a), buf)
  else
    let total := min buf.length (s.size - a)
    (.ok total, window mem (s.addr + a) total ++ buf.drop total)

def writeSlice (buf : List UInt8) (a : Nat) : Except VError Unit × (Nat → UInt8) :=
  match s.write mem buf a with
  | (.error e, mem) => (.error e, mem)
  | (.ok len, mem) =>
    if len ≠ buf.length then (.error (.partialBuffer buf.length len), mem) else (.ok (), mem)

/-- `read_from`: one `read` of the source, into the slice at `a`. -/
def readFrom (a : Nat) (src : Except IoError (List UInt8)) (count : Nat) :
    Except VError Nat × (Nat → UInt8) :=
  match s.computeEndOffset a count with
  | .error e => (.error e, mem)
  | .ok _ =>
    match src with
    | .error e => (.error (.ioError e), mem)
    | .ok bytes =>
      let bytes := bytes.take count
      (.ok bytes.length, store mem (s.addr + a) bytes)

def readExactFrom (a : Nat) (src : Except IoError (List UInt8)) (count : Nat) :
    Except VError Unit × (Nat → UInt8) :=
  match s.readFrom mem a src count with
  | (.error e, mem) => (.error e, mem)
  | (.ok n, mem) => if n ≠ count then (.error (.partialBuffer count n), mem) else (.ok (), mem)

/-- `write_to`: one `write` of the sink, which takes `taken` bytes at most; the count and the
bytes it was handed. -/
def writeTo (a : Nat) (taken : Except IoError Nat) (count : Nat) :
    Except VError Nat × List UInt8 :=
  match s.computeEndOffset a count with
  | .error e => (.error e, [])
  | .ok _ =>
    match taken with
    | .error e => (.error (.ioError e), [])
    | .ok k => (.ok (min k count), window mem (s.addr + a) (min k count))

def writeAllTo (a : Nat) (fails : Option IoError) (count : Nat) : Except VError Unit × List UInt8 :=
  match s.computeEndOffset a count with
  | .error e => (.error e, [])
  | .ok _ =>
    match fails with
    | some e => (.error (.ioError e), [])
    | none => (.ok (), window mem (s.addr + a) count)

/-- `get_atomic_ref`: `width` bytes at `a`, aligned to their width. -/
def checkAtomic (width a : Nat) : Except VError Unit :=
  match s.computeEndOffset a width with
  | .error e => .error e
  | .ok _ => if (s.addr + a) % width ≠ 0 then .error (.misaligned (s.addr + a) width) else .ok ()

/-- `store` of a value whose bytes are `val`. -/
def storeAtomic (val : List UInt8) (a : Nat) : Except VError Unit × (Nat → UInt8) :=
  match s.checkAtomic val.length a with
  | .error e => (.error e, mem)
  | .ok () => (.ok (), store mem (s.addr + a) val)

/-- `load` of a value of `width` bytes: its bytes. -/
def load (width a : Nat) : Except VError (List UInt8) :=
  (s.checkAtomic width a).map fun () => window mem (s.addr + a) width

end VolatileSlice

/-- The `Bytes<usize>` calls of a `VolatileSlice` that `FileVolatileSlice` hands on. -/
structure VolatileBytes where
  write : VolatileSlice → (Nat → UInt8) → List UInt8 → Nat → Except VError Nat × (Nat → UInt8)
  read : VolatileSlice → (Nat → UInt8) → List UInt8 → Nat → Except VError Nat × List UInt8
  writeSlice : VolatileSlice → (Nat → UInt8) → List UInt8 → Nat → Except VError Unit × (Nat → UInt8)
  readFrom : VolatileSlice → (Nat → UInt8) → Nat → Except IoError (List UInt8) → Nat →
    Except VError Nat × (Nat → UInt8)
  readExactFrom : VolatileSlice → (Nat → UInt8) → Nat → Except IoError (List UInt8) → Nat →
    Except VError Unit × (Nat → UInt8)
  writeTo : VolatileSlice → (Nat → UInt8) → Nat → Except IoError Nat → Nat →
    Except VError Nat × List UInt8
  writeAllTo : VolatileSlice → (Nat → UInt8) → Nat → Option IoError → Nat →
    Except VError Unit × List UInt8
  storeAtomic : VolatileSlice → (Nat → UInt8) → List UInt8 → Nat → Except VError Unit × (Nat → UInt8)
  load : VolatileSlice → (Nat → UInt8) → Nat → Nat → Except VError (List UInt8)

/-- What the documentation of `Bytes` promises of the calls the proofs use: `write_slice` writes
the entire buffer at the address when it fits and is an error when a non-empty one does not, and
`read` of a buffer that fits fills it from the address. -/
structure VolatileBytes.Contract (V : VolatileBytes) : Prop where
  writeSlice_of_fit : ∀ {s : VolatileSlice} {mem : Nat → UInt8} {buf : List UInt8} {a : Nat},
    a + buf.length ≤ s.size → V.writeSlice s mem buf a = (.ok (), store mem (s.addr + a) buf)
  writeSlice_of_not_fit : ∀ {s : VolatileSlice} {mem : Nat → UInt8} {buf : List UInt8} {a : Nat},
    buf ≠ [] → s.size < a + buf.length → ∃ e, (V.writeSlice s mem buf a).1 = .error e
  read_of_fit : ∀ {s : VolatileSlice} {mem : Nat → UInt8} {buf : List UInt8} {a : Nat},
    a + buf.length ≤ s.size → V.read s mem buf a = (.ok buf.length, window mem (s.addr + a) buf.length)

/-- vm-memory 0.10's `VolatileSlice`. -/
def vmMemory : VolatileBytes :=
  ⟨VolatileSlice.write, VolatileSlice.read, VolatileSlice.writeSlice, VolatileSlice.readFrom,
    VolatileSlice.readExactFrom, VolatileSlice.writeTo, VolatileSlice.writeAllTo,
    VolatileSlice.storeAtomic, VolatileSlice.load⟩

/-- `file_buf::Error`. -/
inductive Error where
  | outOfBounds (addr : Nat)
  | overflow (base offset : Nat)
  | volatileSlice (e : VError)
  deriving DecidableEq, Repr

structure FileVolatileSlice where
  addr : Nat
  size : Nat
  deriving DecidableEq, Repr

namespace FileVolatileSlice

variable (V : VolatileBytes) (s : FileVolatileSlice) (mem : Nat → UInt8)

/-- The bytes of the slice. -/
def bytes : List UInt8 := window mem s.addr s.size

def asVolatileSlice : VolatileSlice := ⟨s.addr, s.size⟩

/-- `offset`: the slice from `count` bytes on. -/
def offset (count : Nat) : Except Error FileVolatileSlice :=
  if s.addr + count > Transport.usizeMax then .error (.overflow s.addr count)
  else if s.size < count then .error (.outOfBounds (s.addr + count))
  else .ok ⟨s.addr + count, s.size - count⟩

/-! ## `Bytes<usize>` -/

def write (buf : List UInt8) (a : Nat) : Except VError Nat × (Nat → UInt8) :=
  V.write s.asVolatileSlice mem buf a

def read (buf : List UInt8) (a : Nat) : Except VError Nat × List UInt8 :=
  V.read s.asVolatileSlice mem buf a

def writeSlice (buf : List UInt8) (a : Nat) : Except VError Unit × (Nat → UInt8) :=
  V.writeSlice s.asVolatileSlice mem buf a

/-- `read_slice` hands its buffer to `VolatileSlice::write_slice`: the buffer after the call and
the memory after it. -/
def readSlice (buf : List UInt8) (a : Nat) : Except VError Unit × List UInt8 × (Nat → UInt8) :=
  let (r, mem) := V.writeSlice s.asVolatileSlice mem buf a
  (r, buf, mem)

def readFrom (a : Nat) (src : Except IoError (List UInt8)) (count : Nat) :
    Except VError Nat × (Nat → UInt8) :=
  V.readFrom s.asVolatileSlice mem a src count

def readExactFrom (a : Nat) (src : Except IoError (List UInt8)) (count : Nat) :
    Except VError Unit × (Nat → UInt8) :=
  V.readExactFrom s.asVolatileSlice mem a src count

def writeTo (a : Nat) (taken : Except IoError Nat) (count : Nat) : Except VError Nat × List UInt8 :=
  V.writeTo s.asVolatileSlice mem a taken count

def writeAllTo (a : Nat) (fails : Option IoError) (count : Nat) : Except VError Unit × List UInt8 :=
  V.writeAllTo s.asVolatileSlice mem a fails count

def storeAtomic (val : List UInt8) (a : Nat) : Except VError Unit × (Nat → UInt8) :=
  V.storeAtomic s.asVolatileSlice mem val a

def load (width a : Nat) : Except VError (List UInt8) :=
  V.load s.asVolatileSlice mem width a

end FileVolatileSlice

end FuseBackend.Common
