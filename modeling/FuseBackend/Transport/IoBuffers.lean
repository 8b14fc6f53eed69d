import Mathlib.Algebra.Ring.Nat
import Mathlib.Algebra.Ring.Int.Defs
import Mathlib.Data.List.Basic
import FuseBackend.Lib.Store

/-!
# Transport buffers: guest-memory slices, `IoBuffers`, `Reader` and `VirtioFsWriter`

`src/transport/mod.rs` reads FUSE requests from, and writes replies into, a deque of
`VolatileSlice`s: the readable (or writable) descriptors of a virtio chain, or the single buffer of
a `/dev/fuse` read. A slice is modelled as the address range it covers in guest memory, and memory
as a byte-valued function on addresses. `IoBuffers` keeps the deque as a list together with its
`bytes_consumed` counter; `usize` arithmetic is over `Nat`, with `checked_add` made explicit
against `usize::MAX`.

The dirty-page bitmap that `consume(mark_dirty = true, ..)` updates is not modelled: nothing here
reads it.

`VolatileSlice::subslice` and `VolatileSlice::offset` belong to vm-memory. They are defined here as
its documentation states them, which leaves no choice: the range they return, or an error when it
does not lie in the slice. An overflow of `offset + count` needs a range past `usize::MAX`, which
no slice has, so the model's `Nat` sum fails at the same inputs.
-/

namespace FuseBackend.Transport

/-- Guest memory, byte-addressed. -/
abbrev Memory := Nat → UInt8

/-- `usize::MAX` on the 64-bit targets the crate supports. -/
def usizeMax : Nat := 2 ^ 64 - 1

/-- The `io::Error`s the transport code raises. -/
inductive IoError where
  /-- `io::ErrorKind::InvalidData` wrapping `Error::DescriptorChainOverflow` (`mark_used`). -/
  | descriptorChainOverflow
  /-- `io::ErrorKind::InvalidData`, "buffer size is too big" (`check_available_space`). -/
  | bufferSizeTooBig
  /-- `io::ErrorKind::InvalidData`, "data out of range, available .. requested .." -/
  | dataOutOfRange (available requested : Nat)
  /-- An error returned by a caller-supplied closure or file. -/
  | other (code : Nat)
  /-- `io::ErrorKind::WriteZero`, "failed to write whole buffer" (`Write::write_all`). -/
  | writeZero
  /-- The errno of a `write(2)` or `writev(2)` on `/dev/fuse`. -/
  | device (errno : Nat)
  deriving DecidableEq, Repr

/-- The transport `Error`s that `split_at` can return. -/
inductive TransportError where
  | descriptorChainOverflow
  | splitOutOfBounds (offset : Nat)
  | volatileMemoryError
  deriving DecidableEq, Repr

/-- A `VolatileSlice` of guest memory: `len` bytes starting at `addr`. -/
structure VolatileSlice where
  addr : Nat
  len : Nat
  deriving DecidableEq, Repr

namespace VolatileSlice

/-- The addresses the slice covers, in order. -/
def positions (s : VolatileSlice) : List Nat := List.range' s.addr s.len

/-- `VolatileSlice::subslice(offset, count)`: the `count` bytes from `offset`, or an error when
they run past the end. -/
def subslice (s : VolatileSlice) (offset count : Nat) : Option VolatileSlice :=
  if offset + count ≤ s.len then some ⟨s.addr + offset, count⟩ else none

/-- `VolatileSlice::offset(count)`: the slice without its first `count` bytes. -/
def offset (s : VolatileSlice) (count : Nat) : Option VolatileSlice :=
  if count ≤ s.len then some ⟨s.addr + count, s.len - count⟩ else none

@[simp] theorem length_positions (s : VolatileSlice) : s.positions.length = s.len := by
  simp [positions]

theorem subslice_zero {s : VolatileSlice} {count : Nat} (h : count ≤ s.len) :
    s.subslice 0 count = some ⟨s.addr, count⟩ := by
  simp [subslice, h]

theorem offset_of_le {s : VolatileSlice} {count : Nat} (h : count ≤ s.len) :
    s.offset count = some ⟨s.addr + count, s.len - count⟩ := by
  simp [offset, h]

theorem positions_take_slice (s : VolatileSlice) {count : Nat} (h : count ≤ s.len) :
    (⟨s.addr, count⟩ : VolatileSlice).positions = s.positions.take count := by
  simp only [positions]
  rw [List.take_range'_of_length_ge h]

theorem positions_drop_slice (s : VolatileSlice) (count : Nat) :
    (⟨s.addr + count, s.len - count⟩ : VolatileSlice).positions = s.positions.drop count := by
  simp [positions, List.drop_range']

end VolatileSlice

/-- `IoBuffers`: the slices still to be read or written, and how many bytes were already. -/
structure IoBuffers where
  buffers : List VolatileSlice
  bytesConsumed : Nat
  deriving DecidableEq, Repr

namespace IoBuffers

/-- `available_bytes`: the summed length of the remaining slices. -/
def availableBytes (self : IoBuffers) : Nat :=
  self.buffers.foldl (fun count buf => count + buf.len) 0

/-- The loop of `allocate_file_volatile_slice`: take slices until `rem` bytes are covered,
truncating the last one. -/
def allocateGo : List VolatileSlice → Nat → List VolatileSlice
  | [], _ => []
  | buf :: rest, rem =>
    if rem = 0 then []
    else
      -- `buf.subslice(0, rem).unwrap()` cannot fail here, as `rem < buf.len()`
      let localBuf := if buf.len > rem then (buf.subslice 0 rem).getD buf else buf
      localBuf :: allocateGo rest (rem - localBuf.len)

/-- `allocate_file_volatile_slice(count)`: the slices holding the first `count` bytes. -/
def allocateFileVolatileSlice (self : IoBuffers) (count : Nat) : List VolatileSlice :=
  allocateGo self.buffers count

/-- The `while let Some(buf) = self.buffers.pop_front()` loop of `mark_used`. -/
def markUsedGo : List VolatileSlice → Nat → List VolatileSlice
  | [], _ => []
  | buf :: rest, rem =>
    -- `buf.offset(rem).unwrap()` cannot fail here, as `rem < buf.len()`
    if rem < buf.len then (buf.offset rem).getD buf :: rest
    else markUsedGo rest (rem - buf.len)

/-- `mark_used(bytes_consumed)`: drop the first `bytesConsumed` bytes; the counter is advanced by
`checked_add`, whose failure leaves the buffers untouched. -/
def markUsed (self : IoBuffers) (bytesConsumed : Nat) : Except IoError IoBuffers :=
  if self.bytesConsumed + bytesConsumed > usizeMax then .error .descriptorChainOverflow
  else .ok ⟨markUsedGo self.buffers bytesConsumed, self.bytesConsumed + bytesConsumed⟩

/-- `consume(mark_dirty, count, f)`: hands `f` the slices of the first `count` bytes and, when `f`
succeeds with `n`, marks `n` bytes used. The middle component is what `f` produced, when it ran
and succeeded: the closures of `Reader::read` and `VirtioFsWriter::write` fill a buffer or guest
memory there. -/
def consume {α : Type} (self : IoBuffers) (count : Nat)
    (f : List VolatileSlice → Except IoError (Nat × α)) :
    Except IoError Nat × Option α × IoBuffers :=
  let bufs := self.allocateFileVolatileSlice count
  if bufs.isEmpty then (.ok 0, none, self)
  else
    match f bufs with
    | .error e => (.error e, none, self)
    | .ok (n, a) =>
      match self.markUsed n with
      | .error e => (.error e, some a, self)
      | .ok b => (.ok n, some a, b)

/-- The `position` search of `split_at`: the index of the first slice that `rem` falls inside,
and the value `rem` has when the search stops. -/
def findSplit : List VolatileSlice → Nat → Option Nat × Nat
  | [], rem => (none, rem)
  | buf :: rest, rem =>
    if rem < buf.len then (some 0, rem)
    else
      let r := findSplit rest (rem - buf.len)
      (r.1.map (· + 1), r.2)

/-- `split_at(offset)`: keeps the first `offset` bytes in `self` and returns the rest, with a
fresh `bytes_consumed`. The second component is `self` afterwards. -/
def splitAt (self : IoBuffers) (offset : Nat) : Except TransportError IoBuffers × IoBuffers :=
  match findSplit self.buffers offset with
  | (some pos, rem) =>
    let kept := self.buffers.take pos
    let other := self.buffers.drop pos
    if rem > 0 then
      match other with
      -- `other.pop_front().expect(..)`: the search stopped inside a slice, so `other` is not empty
      | [] => (.error .volatileMemoryError, { self with buffers := kept })
      | front :: rest =>
        match front.subslice 0 rem, front.offset rem with
        | some head, some tail =>
          (.ok ⟨tail :: rest, 0⟩, { self with buffers := kept ++ [head] })
        | _, _ => (.error .volatileMemoryError, { self with buffers := kept })
    else (.ok ⟨other, 0⟩, { self with buffers := kept })
  | (none, rem) =>
    if rem = 0 then (.ok ⟨[], 0⟩, self) else (.error (.splitOutOfBounds offset), self)

end IoBuffers

/-- A `Reader` over the readable descriptors. -/
structure Reader where
  buffers : IoBuffers
  deriving DecidableEq, Repr

/-- The closure of `Reader::read`: copies from the slices into `buf`, `min(rem.len(), len)` bytes
per slice. Returns the total and the buffer afterwards. -/
def readCopy (mem : Memory) : List VolatileSlice → List UInt8 → Nat × List UInt8
  | [], rem => (0, rem)
  | buf :: rest, rem =>
    let copyLen := min rem.length buf.len
    let r := readCopy mem rest (rem.drop copyLen)
    (copyLen + r.1, (buf.positions.take copyLen).map mem ++ r.2)

namespace Reader

/-- `available_bytes`. -/
def availableBytes (r : Reader) : Nat := r.buffers.availableBytes

/-- `bytes_read`. -/
def bytesRead (r : Reader) : Nat := r.buffers.bytesConsumed

/-- `<Reader as io::Read>::read(buf)`: returns the count, `buf` afterwards and the reader. -/
def read (r : Reader) (mem : Memory) (buf : List UInt8) : Except IoError Nat × List UInt8 × Reader :=
  let res := r.buffers.consume buf.length (fun bufs => .ok (readCopy mem bufs buf))
  (res.1, res.2.1.getD buf, ⟨res.2.2⟩)

/-- `Reader::split_at(offset)`. -/
def splitAt (r : Reader) (offset : Nat) : Except TransportError Reader × Reader :=
  let res := r.buffers.splitAt offset
  (res.1.map Reader.mk, ⟨res.2⟩)

end Reader

/-- The closure of `VirtioFsWriter::write`: copies `rem` into the slices, `min(rem.len(), len)`
bytes per slice. Returns the total and guest memory afterwards. -/
def writeCopy : List VolatileSlice → List UInt8 → Memory → Nat × Memory
  | [], _, mem => (0, mem)
  | buf :: rest, rem, mem =>
    let copyLen := min rem.length buf.len
    let r := writeCopy rest (rem.drop copyLen)
      (Store.storeAll mem (buf.positions.take copyLen) (rem.take copyLen))
    (copyLen + r.1, r.2)

/-- A `VirtioFsWriter` over the writable descriptors. -/
structure VirtioFsWriter where
  buffers : IoBuffers
  deriving DecidableEq, Repr

namespace VirtioFsWriter

/-- `available_bytes`. -/
def availableBytes (w : VirtioFsWriter) : Nat := w.buffers.availableBytes

/-- `bytes_written`. -/
def bytesWritten (w : VirtioFsWriter) : Nat := w.buffers.bytesConsumed

/-- `check_available_space(len1, len2, len3)`: the two `checked_add`s, then the bound. -/
def checkAvailableSpace (w : VirtioFsWriter) (len1 len2 len3 : Nat) : Except IoError Unit :=
  if len1 + len2 > usizeMax then .error .bufferSizeTooBig
  else if len1 + len2 + len3 > usizeMax then .error .bufferSizeTooBig
  else if len1 + len2 + len3 > w.availableBytes then
    .error (.dataOutOfRange w.availableBytes (len1 + len2 + len3))
  else .ok ()

/-- `<VirtioFsWriter as io::Write>::write(buf)`: returns the count, guest memory and the writer. -/
def write (w : VirtioFsWriter) (mem : Memory) (buf : List UInt8) :
    Except IoError Nat × Memory × VirtioFsWriter :=
  match w.checkAvailableSpace buf.length 0 0 with
  | .error e => (.error e, mem, w)
  | .ok () =>
    let res := w.buffers.consume buf.length (fun bufs => .ok (writeCopy bufs buf mem))
    (res.1, res.2.1.getD mem, ⟨res.2.2⟩)

/-- The `for buf in bufs.iter().filter(|b| !b.is_empty())` loop of `write_vectored`, adding each
`self.write(buf)?` to `count`. -/
def writeEach (w : VirtioFsWriter) (mem : Memory) (count : Nat) :
    List (List UInt8) → Except IoError Nat × Memory × VirtioFsWriter
  | [] => (.ok count, mem, w)
  | buf :: bufs =>
    match w.write mem buf with
    | (.ok n, mem', w') => writeEach w' mem' (count + n) bufs
    | (.error e, mem', w') => (.error e, mem', w')

/-- `<VirtioFsWriter as io::Write>::write_vectored(bufs)`. The lengths are summed by a plain
`fold`; as `Nat` it cannot wrap. -/
def writeVectored (w : VirtioFsWriter) (mem : Memory) (bufs : List (List UInt8)) :
    Except IoError Nat × Memory × VirtioFsWriter :=
  match w.checkAvailableSpace (bufs.foldl (fun acc x => acc + x.length) 0) 0 0 with
  | .error e => (.error e, mem, w)
  | .ok () => w.writeEach mem 0 (bufs.filter (fun b => !b.isEmpty))

/-- `VirtioFsWriter::split_at(offset)`. -/
def splitAt (w : VirtioFsWriter) (offset : Nat) : Except TransportError VirtioFsWriter × VirtioFsWriter :=
  let res := w.buffers.splitAt offset
  (res.1.map VirtioFsWriter.mk, ⟨res.2⟩)

end VirtioFsWriter

end FuseBackend.Transport
