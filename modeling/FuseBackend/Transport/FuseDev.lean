import FuseBackend.Transport.IoBuffers

/-!
# `FuseDevWriter`

The writer of `transport/fusedev` builds a reply for `/dev/fuse` in a buffer it borrows. Its `Vec`
is a view of that buffer, rebuilt by `Vec::from_raw_parts`: it starts at `start`, holds `len`
written bytes and has room for `cap`. `split_at` cuts the view in two, and the writers derived
from one buffer share it, so the buffer is one `Memory` addressed by the offset into it.

A writer that was never split is not buffered: `write` sends the bytes to the device at once and
only counts them in `len`. A buffered writer copies them into its view (`extend_from_slice`), and
`commit` sends its view and another writer's. The device is a function from a message to the
count it reports written or an errno; the messages it was sent are kept in order.
-/

namespace FuseBackend.Transport

structure FuseDevWriter where
  buffered : Bool
  start : Nat
  len : Nat
  cap : Nat
  deriving DecidableEq, Repr

/-- The borrowed buffer and the messages written to the device so far. -/
structure FuseDev where
  mem : Memory
  sent : List (List UInt8)

/-- `write(2)` and `writev(2)` on `/dev/fuse`: the count written, or an errno. -/
abbrev Device := List UInt8 → Except Nat Nat

/-- One message to the device. `do_write` and `commit` both turn the errno into an `io::Error`. -/
def FuseDev.send (dev : Device) (d : FuseDev) (msg : List UInt8) : Except IoError Nat × FuseDev :=
  match dev msg with
  | .ok n => (.ok n, { d with sent := d.sent ++ [msg.take n] })
  | .error e => (.error (.device e), d)

namespace FuseDevWriter

/-- `FuseDevWriter::new`: an empty view of the whole buffer. -/
def new (bufLen : Nat) : FuseDevWriter := ⟨false, 0, 0, bufLen⟩

def bytesWritten (w : FuseDevWriter) : Nat := w.len

def availableBytes (w : FuseDevWriter) : Nat := w.cap - w.len

/-- What the view holds: its first `len` bytes. -/
def bytes (w : FuseDevWriter) (mem : Memory) : List UInt8 :=
  (List.range' w.start w.len).map mem

/-- `check_available_space`; `none` is the panic of its `assert!`. -/
def checkAvailableSpace (w : FuseDevWriter) (sz : Nat) : Option (Except IoError Unit) :=
  if w.buffered || w.len == 0 then
    if sz > w.availableBytes then some (.error (.dataOutOfRange w.availableBytes sz))
    else some (.ok ())
  else none

/-- `extend_from_slice` on the view: the bytes go after the written ones. -/
def extend (w : FuseDevWriter) (mem : Memory) (data : List UInt8) : FuseDevWriter × Memory :=
  ({ w with len := w.len + data.length },
    Store.storeAll mem (List.range' (w.start + w.len) data.length) data)

/-- `Write::write`. -/
def write (dev : Device) (w : FuseDevWriter) (d : FuseDev) (data : List UInt8) :
    Option (Except IoError Nat × FuseDevWriter × FuseDev) :=
  (w.checkAvailableSpace data.length).map fun
    | .error e => (.error e, w, d)
    | .ok () =>
      if w.buffered then
        let (w', mem) := w.extend d.mem data
        (.ok data.length, w', { d with mem := mem })
      else
        -- `account_written` counts what the device took; the view is not written
        match d.send dev data with
        | (.ok x, d') => (.ok x, { w with len := w.len + x }, d')
        | (.error e, d') => (.error e, w, d')

/-- The loop of a buffered `write_vectored`: every non-empty slice is appended in turn. -/
def extendAll (w : FuseDevWriter) (mem : Memory) : List (List UInt8) → Nat × FuseDevWriter × Memory
  | [] => (0, w, mem)
  | b :: bs =>
    let (w, mem) := w.extend mem b
    let (count, w, mem) := w.extendAll mem bs
    (b.length + count, w, mem)

/-- `Write::write_vectored`. -/
def writeVectored (dev : Device) (w : FuseDevWriter) (d : FuseDev) (bufs : List (List UInt8)) :
    Option (Except IoError Nat × FuseDevWriter × FuseDev) :=
  (w.checkAvailableSpace (bufs.foldl (fun acc x => acc + x.length) 0)).map fun
    | .error e => (.error e, w, d)
    | .ok () =>
      if w.buffered then
        let (count, w', mem) := w.extendAll d.mem (bufs.filter fun b => !b.isEmpty)
        (.ok count, w', { d with mem := mem })
      else if bufs.isEmpty then (.ok 0, w, d)
      else
        match d.send dev bufs.flatten with
        | (.ok x, d') => (.ok x, { w with len := w.len + x }, d')
        | (.error e, d') => (.error e, w, d')

/-- `Write::write_all`, which `write_obj` calls on the object's bytes: `write` until all is
written. Every round that goes on takes at least one byte. -/
def writeAll (dev : Device) (w : FuseDevWriter) (d : FuseDev) (buf : List UInt8) :
    Option (Except IoError Unit × FuseDevWriter × FuseDev) :=
  if _hbuf : buf = [] then some (.ok (), w, d)
  else
    match w.write dev d buf with
    | none => none
    | some (.ok 0, w', d') => some (.error .writeZero, w', d')
    | some (.ok (n + 1), w', d') => writeAll dev w' d' (buf.drop (n + 1))
    | some (.error e, w', d') => some (.error e, w', d')
termination_by buf.length
decreasing_by
  have := List.length_pos_iff.mpr _hbuf
  simp only [List.length_drop]
  omega

/-- `split_at`: the view keeps its first `offset` bytes of room, and a new buffered writer gets
the rest, with the written bytes beyond `offset`. -/
def splitAt (w : FuseDevWriter) (offset : Nat) : Except TransportError (FuseDevWriter × FuseDevWriter) :=
  if w.cap < offset then .error (.splitOutOfBounds offset)
  else
    let (len1, len2) := if w.len > offset then (offset, w.len - offset) else (w.len, 0)
    .ok (⟨true, w.start, len1, offset⟩, ⟨true, w.start + offset, len2, w.cap - offset⟩)

/-- `commit(Some(other))`, or `commit(None)` with `other` empty: one message of the two views. -/
def commit (dev : Device) (w : FuseDevWriter) (d : FuseDev) (other : Option FuseDevWriter) :
    Except IoError Nat × FuseDev :=
  if !w.buffered then (.ok 0, d)
  else
    let o := (other.map fun o => o.bytes d.mem).getD []
    match (w.bytes d.mem).length, o.length with
    | 0, 0 => (.ok 0, d)
    | 0, _ => d.send dev o
    | _, 0 => d.send dev (w.bytes d.mem)
    | _, _ => d.send dev (w.bytes d.mem ++ o)

end FuseDevWriter

end FuseBackend.Transport
