import FuseBackend.Transport.IoBuffers

/-!
# `IoBuffers` refines a queue of guest-memory cells

The abstract view of an `IoBuffers` is the list of guest addresses its slices cover, in deque
order (`positions`); a reader's bytes are the memory at those addresses. Every operation acts on
that list as a queue: `allocate_file_volatile_slice` hands out its prefix, `mark_used` drops a
prefix, `split_at` cuts it in two, `Reader::read` copies a prefix out and `VirtioFsWriter::write`
stores into a prefix. Slices of any length, empty ones included, and cuts at slice edges all fall
under the one statement.

The counter `bytes_consumed` is advanced with `checked_add`, so the refinement holds for buffers
whose counter and remaining length together fit in a `usize` (`Bounded`): every chain accepted by
`from_descriptor_chain` is, and every operation keeps it.
-/

namespace FuseBackend.Transport

open VolatileSlice

/-- The abstract state: a queue of guest addresses and how many were already taken from it. -/
structure CellQueue where
  cells : List Nat
  consumed : Nat
  deriving DecidableEq, Repr

namespace CellQueue

/-- Taking `k` cells off the front. -/
def advance (q : CellQueue) (k : Nat) : CellQueue := ⟨q.cells.drop k, q.consumed + k⟩

@[simp] theorem advance_zero (q : CellQueue) : q.advance 0 = q := by
  simp [advance]

theorem advance_advance (q : CellQueue) (j k : Nat) : (q.advance j).advance k = q.advance (j + k) := by
  simp [advance, Nat.add_assoc]

end CellQueue

namespace IoBuffers

/-- The guest addresses still to be read or written, in order. -/
def positions (b : IoBuffers) : List Nat := b.buffers.flatMap VolatileSlice.positions

/-- The abstraction: the queue of addresses and the counter. -/
def view (b : IoBuffers) : CellQueue := ⟨b.positions, b.bytesConsumed⟩

/-- The counter and what is left fit in a `usize`. -/
def Bounded (b : IoBuffers) : Prop := b.bytesConsumed + b.availableBytes ≤ usizeMax

/-! ## The remaining length -/

theorem foldl_len_eq (l : List VolatileSlice) (n : Nat) :
    l.foldl (fun count buf => count + buf.len) n = n + (l.flatMap VolatileSlice.positions).length := by
  induction l generalizing n with
  | nil => simp
  | cons buf rest ih =>
    rw [List.foldl_cons, ih, List.flatMap_cons, List.length_append, length_positions]
    omega

theorem availableBytes_eq_length (b : IoBuffers) : b.availableBytes = b.positions.length := by
  simp [availableBytes, positions, foldl_len_eq]

/-! ## `allocate_file_volatile_slice` hands out a prefix -/

@[simp] theorem allocateGo_zero (l : List VolatileSlice) : allocateGo l 0 = [] := by
  cases l <;> simp [allocateGo]

theorem allocateGo_positions (l : List VolatileSlice) (rem : Nat) :
    (allocateGo l rem).flatMap VolatileSlice.positions =
      (l.flatMap VolatileSlice.positions).take rem := by
  induction l generalizing rem with
  | nil => simp [allocateGo]
  | cons buf rest ih =>
    by_cases hz : rem = 0
    · simp [allocateGo, hz]
    by_cases hlt : buf.len > rem
    · -- the slice is cut to `rem` bytes, which exhausts the count
      have hcut : (buf.subslice 0 rem).getD buf = ⟨buf.addr, rem⟩ := by
        rw [subslice_zero (Nat.le_of_lt hlt)]; rfl
      have hle : rem ≤ buf.positions.length := by simp; omega
      simp only [allocateGo, hz, hlt, if_true, if_false, hcut, Nat.sub_self, allocateGo_zero,
        List.flatMap_cons, List.flatMap_nil, List.append_nil]
      rw [positions_take_slice buf (Nat.le_of_lt hlt), List.take_append_of_le_length hle]
    · -- the whole slice is handed out and the count goes on to the next ones
      have hle : buf.positions.length ≤ rem := by simp; omega
      simp only [allocateGo, hz, hlt, if_false, List.flatMap_cons]
      rw [ih, List.take_append, List.take_of_length_le hle, length_positions]

theorem allocateFileVolatileSlice_positions (b : IoBuffers) (count : Nat) :
    (b.allocateFileVolatileSlice count).flatMap VolatileSlice.positions = b.positions.take count :=
  allocateGo_positions b.buffers count

/-! ## `mark_used` drops a prefix -/

theorem markUsedGo_positions (l : List VolatileSlice) (rem : Nat) :
    (markUsedGo l rem).flatMap VolatileSlice.positions =
      (l.flatMap VolatileSlice.positions).drop rem := by
  induction l generalizing rem with
  | nil => simp [markUsedGo]
  | cons buf rest ih =>
    by_cases hlt : rem < buf.len
    · -- the slice is cut after `rem` bytes and the rest of the deque stays
      have hcut : (buf.offset rem).getD buf = ⟨buf.addr + rem, buf.len - rem⟩ := by
        rw [offset_of_le (Nat.le_of_lt hlt)]; rfl
      have hle : rem ≤ buf.positions.length := by simp; omega
      simp only [markUsedGo, hlt, if_true, hcut, List.flatMap_cons]
      rw [positions_drop_slice, List.drop_append_of_le_length hle]
    · -- the whole slice is used up
      have hle : buf.positions.length ≤ rem := by simp; omega
      simp only [markUsedGo, hlt, if_false, List.flatMap_cons]
      rw [ih, List.drop_append, List.drop_of_length_le hle, List.nil_append, length_positions]

theorem markUsed_ok {b : IoBuffers} (hb : b.Bounded) {n : Nat} (hn : n ≤ b.positions.length) :
    b.markUsed n = .ok ⟨markUsedGo b.buffers n, b.bytesConsumed + n⟩ := by
  have : ¬ b.bytesConsumed + n > usizeMax := by
    unfold Bounded at hb
    rw [availableBytes_eq_length] at hb
    omega
  simp [markUsed, this]

theorem bounded_iff (b : IoBuffers) : b.Bounded ↔ b.view.consumed + b.view.cells.length ≤ usizeMax := by
  simp [Bounded, view, availableBytes_eq_length]

theorem bounded_of_view {b b' : IoBuffers} (hb : b.Bounded) {k : Nat} (hk : k ≤ b.positions.length)
    (hv : b'.view = b.view.advance k) : b'.Bounded := by
  rw [bounded_iff] at hb ⊢
  rw [hv]
  simp only [view, CellQueue.advance, List.length_drop] at hb ⊢
  omega

/-! ## `consume` -/

section Consume

variable {α : Type} (b : IoBuffers) (count : Nat) (f : List VolatileSlice → Except IoError (Nat × α))

/-- With nothing to hand out (`count = 0` or no slices left), `f` is not called. -/
theorem consume_of_nil (h : b.allocateFileVolatileSlice count = []) :
    b.consume count f = (.ok 0, none, b) := by
  simp [consume, h]

/-- A failing `f` leaves the buffers as they were. -/
theorem consume_of_error {e : IoError}
    (h : f (b.allocateFileVolatileSlice count) = .error e) :
    ∃ a, b.consume count f = (a, none, b) := by
  unfold consume
  by_cases he : (b.allocateFileVolatileSlice count).isEmpty
  · exact ⟨.ok 0, by simp [he]⟩
  · exact ⟨.error e, by simp [he, h]⟩

/-- When `f` reports `k` of the bytes it was given, exactly `k` cells leave the queue. -/
theorem consume_of_ok (hb : b.Bounded) {k : Nat} {a : α}
    (hne : b.allocateFileVolatileSlice count ≠ [])
    (h : f (b.allocateFileVolatileSlice count) = .ok (k, a))
    (hk : k ≤ ((b.allocateFileVolatileSlice count).flatMap VolatileSlice.positions).length) :
    ∃ b', b.consume count f = (.ok k, some a, b') ∧ b'.view = b.view.advance k := by
  have hkl : k ≤ b.positions.length := by
    rw [allocateFileVolatileSlice_positions, List.length_take] at hk
    omega
  refine ⟨⟨markUsedGo b.buffers k, b.bytesConsumed + k⟩, ?_, ?_⟩
  · have he : (b.allocateFileVolatileSlice count).isEmpty = false := by
      cases hb' : b.allocateFileVolatileSlice count
      · exact absurd hb' hne
      · rfl
    simp [consume, he, h, markUsed_ok hb hkl]
  · simp [view, CellQueue.advance, positions, markUsedGo_positions]

end Consume

/-! ## `split_at` -/

theorem findSplit_some {l : List VolatileSlice} {off pos rem : Nat}
    (h : findSplit l off = (some pos, rem)) :
    ∃ front, l[pos]? = some front ∧ rem < front.len ∧
      ((l.take pos).flatMap VolatileSlice.positions).length + rem = off := by
  induction l generalizing off pos with
  | nil => simp [findSplit] at h
  | cons buf rest ih =>
    unfold findSplit at h
    by_cases hlt : off < buf.len
    · -- the offset falls inside the first slice
      simp only [hlt, if_true, Prod.mk.injEq, Option.some.injEq] at h
      obtain ⟨rfl, rfl⟩ := h
      exact ⟨buf, rfl, hlt, by simp⟩
    · -- the search goes on past the first slice, with the offset reduced by its length
      simp only [hlt, if_false, Prod.mk.injEq] at h
      obtain ⟨h1, h2⟩ := h
      obtain ⟨p, hp, rfl⟩ := Option.map_eq_some_iff.mp h1
      obtain ⟨front, hfront, hrem, hlen⟩ := ih (Prod.ext hp h2)
      refine ⟨front, by simpa using hfront, hrem, ?_⟩
      simp only [List.take_succ_cons, List.flatMap_cons, List.length_append, length_positions]
      omega

theorem findSplit_none {l : List VolatileSlice} {off rem : Nat}
    (h : findSplit l off = (none, rem)) :
    (l.flatMap VolatileSlice.positions).length + rem = off := by
  induction l generalizing off with
  | nil => simp only [findSplit, Prod.mk.injEq] at h; simp [h.2]
  | cons buf rest ih =>
    unfold findSplit at h
    by_cases hlt : off < buf.len
    · simp [hlt] at h
    · simp only [hlt, if_false, Prod.mk.injEq, Option.map_eq_none_iff] at h
      have := ih (Prod.ext h.1 h.2)
      simp only [List.flatMap_cons, List.length_append, length_positions]
      omega

/-- The slices before position `pos`, the slice there and the rest. -/
theorem positions_split_at {l : List VolatileSlice} {pos : Nat} {front : VolatileSlice}
    (h : l[pos]? = some front) :
    l.drop pos = front :: l.drop (pos + 1) ∧
      l.flatMap VolatileSlice.positions = (l.take pos).flatMap VolatileSlice.positions ++
        (front.positions ++ (l.drop (pos + 1)).flatMap VolatileSlice.positions) := by
  obtain ⟨hlt, rfl⟩ := List.getElem?_eq_some_iff.mp h
  have hd := List.drop_eq_getElem_cons hlt
  refine ⟨hd, ?_⟩
  calc l.flatMap VolatileSlice.positions
      = (l.take pos ++ l.drop pos).flatMap VolatileSlice.positions := by rw [List.take_append_drop]
    _ = _ := by rw [hd, List.flatMap_append, List.flatMap_cons]

/-- `split_at(off)` with `off` within the queue keeps the first `off` cells and hands out the
rest, in order, with a fresh counter. -/
theorem splitAt_of_le (b : IoBuffers) {off : Nat} (h : off ≤ b.positions.length) :
    ∃ other, (b.splitAt off).1 = .ok other ∧
      (b.splitAt off).2.view = ⟨b.positions.take off, b.bytesConsumed⟩ ∧
      other.view = ⟨b.positions.drop off, 0⟩ := by
  rcases hf : findSplit b.buffers off with ⟨_ | pos, rem⟩
  · -- no slice contains the offset: it is the end of the queue
    have hlen := findSplit_none hf
    have hrem : rem = 0 := by
      simp only [positions] at h
      omega
    have hoff : off = b.positions.length := by simp only [positions]; omega
    subst hrem
    have hres : b.splitAt off = (.ok ⟨[], 0⟩, b) := by simp [splitAt, hf]
    refine ⟨⟨[], 0⟩, by rw [hres], ?_, ?_⟩
    · rw [hres]
      simp [view, hoff]
    · simp [view, positions, hoff]
  · obtain ⟨front, hfront, hrem, hlen⟩ := findSplit_some hf
    obtain ⟨hd, hsplit⟩ := positions_split_at hfront
    by_cases hpos : rem > 0
    · -- the offset cuts `front` in two
      have hsub := subslice_zero (s := front) (Nat.le_of_lt hrem)
      have hoffs := offset_of_le (s := front) (Nat.le_of_lt hrem)
      have hfl : rem ≤ front.positions.length := by simp; omega
      have hres : b.splitAt off =
          (.ok ⟨⟨front.addr + rem, front.len - rem⟩ :: b.buffers.drop (pos + 1), 0⟩,
            { b with buffers := b.buffers.take pos ++ [⟨front.addr, rem⟩] }) := by
        simp only [splitAt, hf, hpos, if_true, hd, hsub, hoffs]
      refine ⟨_, by rw [hres], ?_, ?_⟩
      · simp only [hres, view, positions, List.flatMap_append, List.flatMap_cons,
          List.flatMap_nil, List.append_nil, CellQueue.mk.injEq, and_true]
        rw [hsplit, positions_take_slice front (Nat.le_of_lt hrem), ← hlen,
          List.take_length_add_append, List.take_append_of_le_length hfl]
      · simp only [view, positions, List.flatMap_cons, CellQueue.mk.injEq, and_true]
        rw [hsplit, positions_drop_slice, ← hlen, List.drop_length_add_append,
          List.drop_append_of_le_length hfl]
    · -- the offset is a slice edge
      have hz : rem = 0 := by omega
      subst hz
      have hA : ((b.buffers.take pos).flatMap VolatileSlice.positions).length = off := hlen
      have hres : b.splitAt off =
          (.ok ⟨b.buffers.drop pos, 0⟩, { b with buffers := b.buffers.take pos }) := by
        simp only [splitAt, hf, gt_iff_lt, Nat.lt_irrefl, if_false]
      refine ⟨_, by rw [hres], ?_, ?_⟩
      · simp only [hres, view, positions, CellQueue.mk.injEq, and_true]
        rw [hsplit, ← hA, List.take_left]
      · simp only [view, positions, CellQueue.mk.injEq, and_true]
        rw [hsplit, hd, ← hA, List.drop_left, List.flatMap_cons]

/-- `split_at(off)` past the end fails and leaves `self` as it was. -/
theorem splitAt_of_lt (b : IoBuffers) {off : Nat} (h : b.positions.length < off) :
    b.splitAt off = (.error (.splitOutOfBounds off), b) := by
  unfold splitAt
  rcases hf : findSplit b.buffers off with ⟨_ | pos, rem⟩
  · have hlen := findSplit_none hf
    have hrem : rem ≠ 0 := by simp only [positions] at h; omega
    simp [hrem]
  · -- a slice containing the offset would put it inside the queue
    obtain ⟨front, hfront, hrem, hlen⟩ := findSplit_some hf
    obtain ⟨-, hsplit⟩ := positions_split_at hfront
    have : b.positions.length ≥ off := by
      simp only [positions] at h ⊢
      rw [hsplit]
      simp only [List.length_append, length_positions]
      omega
    omega

end IoBuffers

/-! ## The copying closures -/

/-- The closure of `Reader::read` fills `buf` with the cells of the slices, in order, as far as
both go. -/
theorem readCopy_eq (mem : Memory) (bufs : List VolatileSlice) (buf : List UInt8) :
    readCopy mem bufs buf =
      (min buf.length (bufs.flatMap VolatileSlice.positions).length,
        ((bufs.flatMap VolatileSlice.positions).take buf.length).map mem ++
          buf.drop (bufs.flatMap VolatileSlice.positions).length) := by
  induction bufs generalizing buf with
  | nil => simp [readCopy]
  | cons s rest ih =>
    simp only [readCopy, ih, List.flatMap_cons, List.length_append, length_positions,
      List.length_drop, Prod.mk.injEq]
    by_cases hle : buf.length ≤ s.len
    · -- `buf` is filled from the first slice alone
      have hc : min buf.length s.len = buf.length := Nat.min_eq_left hle
      rw [hc, List.drop_eq_nil_of_le (Nat.le_refl _)]
      refine ⟨by omega, ?_⟩
      rw [List.take_append_of_le_length (by simpa using hle),
        List.drop_eq_nil_of_le (by omega : buf.length ≤ s.len + _)]
      simp
    · -- the first slice is copied whole, the rest comes from the following ones
      have hc : min buf.length s.len = s.len := Nat.min_eq_right (by omega)
      have h1 : s.positions.length ≤ buf.length := by rw [length_positions]; omega
      have h2 : s.positions.length ≤ s.len := Nat.le_of_eq (length_positions s)
      rw [hc]
      refine ⟨by omega, ?_⟩
      rw [List.take_append, List.take_of_length_le h1, List.take_of_length_le h2,
        length_positions, List.drop_drop, List.map_append, List.append_assoc]

/-- The closure of `VirtioFsWriter::write` stores the data at the cells of the slices, in order,
as far as both go. -/
theorem writeCopy_eq (bufs : List VolatileSlice) (data : List UInt8) (mem : Memory) :
    writeCopy bufs data mem =
      (min data.length (bufs.flatMap VolatileSlice.positions).length,
        Store.storeAll mem (bufs.flatMap VolatileSlice.positions) data) := by
  induction bufs generalizing data mem with
  | nil => simp [writeCopy]
  | cons s rest ih =>
    simp only [writeCopy, ih, List.flatMap_cons, List.length_append, length_positions,
      List.length_drop, Prod.mk.injEq]
    by_cases hle : data.length ≤ s.len
    · -- the data ends inside the first slice
      have hc : min data.length s.len = data.length := Nat.min_eq_left hle
      rw [hc, List.drop_eq_nil_of_le (Nat.le_refl _), Store.storeAll_nil_right, List.take_length]
      refine ⟨by omega, ?_⟩
      rw [Store.storeAll_take_length, ← Store.storeAll_take_length mem (s.positions ++ _),
        List.take_append_of_le_length (by simpa using hle), Store.storeAll_take_length]
    · -- the first slice is filled, the rest of the data goes on
      have hc : min data.length s.len = s.len := Nat.min_eq_right (by omega)
      have h2 : s.positions.length ≤ s.len := Nat.le_of_eq (length_positions s)
      rw [hc, List.take_of_length_le h2]
      refine ⟨by omega, ?_⟩
      conv_rhs => rw [← List.take_append_drop s.len data]
      rw [Store.storeAll_append _ (by simp; omega)]

/-! ## `Reader::read` -/

namespace Reader

/-- `Reader::read(buf)` copies the first `min(buf.len(), length)` cells of the queue into `buf`
and takes them off the queue. -/
theorem read_spec (r : Reader) (hb : r.buffers.Bounded) (mem : Memory) (buf : List UInt8) :
    (r.read mem buf).1 = .ok (min buf.length r.buffers.positions.length) ∧
      (r.read mem buf).2.1 = (r.buffers.positions.take buf.length).map mem ++
        buf.drop (min buf.length r.buffers.positions.length) ∧
      (r.read mem buf).2.2.buffers.view =
        r.buffers.view.advance (min buf.length r.buffers.positions.length) := by
  have hall := IoBuffers.allocateFileVolatileSlice_positions r.buffers buf.length
  by_cases hnil : r.buffers.allocateFileVolatileSlice buf.length = []
  · -- nothing to copy: `buf` is empty or no slice is left
    have hn : min buf.length r.buffers.positions.length = 0 := by
      rw [hnil, List.flatMap_nil] at hall
      have := congrArg List.length hall
      simp only [List.length_nil, List.length_take] at this
      omega
    have hbuf : (r.buffers.positions.take buf.length).map mem = [] := by
      rw [← hall, hnil]; rfl
    simp [read, IoBuffers.consume_of_nil _ _ _ hnil, hn, hbuf]
  · -- the closure copies the prefix handed to it
    let bufs := r.buffers.allocateFileVolatileSlice buf.length
    have hlen : (bufs.flatMap VolatileSlice.positions).length =
        min buf.length r.buffers.positions.length := by
      simp only [bufs, hall, List.length_take]
    have hk : (readCopy mem bufs buf).1 = min buf.length r.buffers.positions.length := by
      rw [readCopy_eq, hlen]
      omega
    obtain ⟨b', hc, hv⟩ := IoBuffers.consume_of_ok r.buffers buf.length
      (fun bufs => .ok (readCopy mem bufs buf)) hb hnil rfl (Nat.le_of_eq (hk.trans hlen.symm))
    have hread : r.read mem buf = (.ok (readCopy mem bufs buf).1, (readCopy mem bufs buf).2, ⟨b'⟩) := by
      simp only [read, bufs, hc]
      rfl
    refine ⟨by rw [hread, hk], ?_, by rw [hread, hv, hk]⟩
    rw [hread, readCopy_eq, hlen]
    simp only [bufs, hall, List.take_take, Nat.min_self]

end Reader

/-! ## `VirtioFsWriter::write` and `write_vectored` -/

namespace VirtioFsWriter

theorem checkAvailableSpace_ok {w : VirtioFsWriter} (hb : w.buffers.Bounded) {n : Nat}
    (h : n ≤ w.availableBytes) : w.checkAvailableSpace n 0 0 = .ok () := by
  have : n ≤ usizeMax := by
    unfold IoBuffers.Bounded at hb
    unfold availableBytes at h
    omega
  simp [checkAvailableSpace, Nat.not_lt.mpr this, Nat.not_lt.mpr h]

theorem checkAvailableSpace_error (w : VirtioFsWriter) {n : Nat} (h : w.availableBytes < n) :
    ∃ e, w.checkAvailableSpace n 0 0 = .error e := by
  by_cases h1 : n > usizeMax
  · exact ⟨.bufferSizeTooBig, by simp [checkAvailableSpace, h1]⟩
  · exact ⟨.dataOutOfRange w.availableBytes n, by simp [checkAvailableSpace, h1, h]⟩

/-- `write(data)` within the available space stores `data` at the next cells of the queue, in
order, and takes them off the queue. -/
theorem write_spec (w : VirtioFsWriter) (hb : w.buffers.Bounded) (mem : Memory) (data : List UInt8)
    (h : data.length ≤ w.availableBytes) :
    (w.write mem data).1 = .ok data.length ∧
      (w.write mem data).2.1 = Store.storeAll mem w.buffers.positions data ∧
      (w.write mem data).2.2.buffers.view = w.buffers.view.advance data.length := by
  have hP : data.length ≤ w.buffers.positions.length := by
    rwa [availableBytes, IoBuffers.availableBytes_eq_length] at h
  have hall := IoBuffers.allocateFileVolatileSlice_positions w.buffers data.length
  have hcheck := checkAvailableSpace_ok hb h
  by_cases hnil : w.buffers.allocateFileVolatileSlice data.length = []
  · -- only an empty `data` gets no slice
    have hd : data = [] := by
      rw [hnil, List.flatMap_nil] at hall
      have := congrArg List.length hall
      simp only [List.length_nil, List.length_take] at this
      exact List.eq_nil_of_length_eq_zero (by omega)
    subst hd
    simp only [List.length_nil] at hnil hcheck
    simp [write, hcheck, IoBuffers.consume_of_nil _ _ _ hnil]
  · let bufs := w.buffers.allocateFileVolatileSlice data.length
    have hlen : (bufs.flatMap VolatileSlice.positions).length = data.length := by
      simp only [bufs, hall, List.length_take]
      omega
    have hk : (writeCopy bufs data mem).1 = data.length := by
      rw [writeCopy_eq, hlen, Nat.min_self]
    obtain ⟨b', hc, hv⟩ := IoBuffers.consume_of_ok w.buffers data.length
      (fun bufs => .ok (writeCopy bufs data mem)) hb hnil rfl (Nat.le_of_eq (hk.trans hlen.symm))
    have hwrite : w.write mem data =
        (.ok (writeCopy bufs data mem).1, (writeCopy bufs data mem).2, ⟨b'⟩) := by
      simp only [write, hcheck, bufs, hc]
      rfl
    refine ⟨by rw [hwrite, hk], ?_, by rw [hwrite, hv, hk]⟩
    rw [hwrite, writeCopy_eq]
    simp only [bufs, hall, Store.storeAll_take_length]

/-- `write(data)` past the available space fails and changes nothing. -/
theorem write_of_lt (w : VirtioFsWriter) (mem : Memory) {data : List UInt8}
    (h : w.availableBytes < data.length) : ∃ e, w.write mem data = (.error e, mem, w) := by
  obtain ⟨e, he⟩ := checkAvailableSpace_error w h
  exact ⟨e, by simp [write, he]⟩

/-- The write loop of `write_vectored`: each buffer is stored after the ones before it. -/
theorem writeEach_spec (bufs : List (List UInt8)) :
    ∀ (w : VirtioFsWriter) (mem : Memory) (count : Nat), w.buffers.Bounded →
      bufs.flatten.length ≤ w.availableBytes →
      ∃ w', w.writeEach mem count bufs =
          (.ok (count + bufs.flatten.length), Store.storeAll mem w.buffers.positions bufs.flatten, w') ∧
        w'.buffers.view = w.buffers.view.advance bufs.flatten.length := by
  induction bufs with
  | nil => intro w mem count _ _; exact ⟨w, by simp [writeEach], by simp⟩
  | cons buf rest ih =>
    intro w mem count hb h
    have hP : (buf ++ rest.flatten).length ≤ w.buffers.positions.length := by
      rwa [List.flatten_cons, availableBytes, IoBuffers.availableBytes_eq_length] at h
    have hbuf : buf.length ≤ w.availableBytes := by
      simp only [List.length_append] at hP
      rw [availableBytes, IoBuffers.availableBytes_eq_length]
      omega
    obtain ⟨h1, h2, h3⟩ := write_spec w hb mem buf hbuf
    -- the first write leaves the rest of the queue for the others
    set w₁ := (w.write mem buf).2.2
    have hb₁ : w₁.buffers.Bounded :=
      IoBuffers.bounded_of_view hb (by simp only [List.length_append] at hP; omega) h3
    have hrest : rest.flatten.length ≤ w₁.availableBytes := by
      have hpos : w₁.buffers.positions = w.buffers.positions.drop buf.length :=
        congrArg CellQueue.cells h3
      rw [availableBytes, IoBuffers.availableBytes_eq_length, hpos, List.length_drop]
      simp only [List.length_append] at hP
      omega
    obtain ⟨w', he, hv⟩ := ih w₁ (w.write mem buf).2.1 (count + buf.length) hb₁ hrest
    have hw : w.write mem buf = (.ok buf.length, (w.write mem buf).2.1, w₁) := by
      rw [← h1]
    refine ⟨w', ?_, ?_⟩
    · have hpos : w₁.buffers.positions = w.buffers.positions.drop buf.length :=
        congrArg CellQueue.cells h3
      have hle : buf.length ≤ w.buffers.positions.length := by
        simp only [List.length_append] at hP
        omega
      rw [writeEach, hw]
      dsimp only
      rw [he, h2, hpos, List.flatten_cons, Store.storeAll_append_values _ _ _ hle,
        List.length_append, Nat.add_assoc]
    · rw [hv, h3, CellQueue.advance_advance, List.flatten_cons, List.length_append]

theorem foldl_length_eq (bufs : List (List UInt8)) (n : Nat) :
    bufs.foldl (fun acc x => acc + x.length) n = n + bufs.flatten.length := by
  induction bufs generalizing n with
  | nil => simp
  | cons buf rest ih => simp only [List.foldl_cons, ih, List.flatten_cons, List.length_append]; omega

/-- `write_vectored(bufs)` within the available space stores the buffers, concatenated, at the
next cells of the queue and takes them off the queue. -/
theorem writeVectored_spec (w : VirtioFsWriter) (hb : w.buffers.Bounded) (mem : Memory)
    (bufs : List (List UInt8)) (h : bufs.flatten.length ≤ w.availableBytes) :
    ∃ w', w.writeVectored mem bufs =
        (.ok bufs.flatten.length, Store.storeAll mem w.buffers.positions bufs.flatten, w') ∧
      w'.buffers.view = w.buffers.view.advance bufs.flatten.length := by
  have hflat : (bufs.filter (fun b => !b.isEmpty)).flatten = bufs.flatten :=
    List.flatten_filter_not_isEmpty
  obtain ⟨w', he, hv⟩ := writeEach_spec (bufs.filter (fun b => !b.isEmpty)) w mem 0 hb
    (by rwa [hflat])
  refine ⟨w', ?_, by rw [hv, hflat]⟩
  rw [writeVectored, foldl_length_eq, Nat.zero_add, checkAvailableSpace_ok hb h]
  simp only [he, hflat, Nat.zero_add]

/-- `write_vectored(bufs)` past the available space fails and changes nothing. -/
theorem writeVectored_of_lt (w : VirtioFsWriter) (mem : Memory) {bufs : List (List UInt8)}
    (h : w.availableBytes < bufs.flatten.length) :
    ∃ e, w.writeVectored mem bufs = (.error e, mem, w) := by
  obtain ⟨e, he⟩ := checkAvailableSpace_error w h
  refine ⟨e, ?_⟩
  rw [writeVectored, foldl_length_eq, Nat.zero_add, he]

end VirtioFsWriter

/-! ## The refinement -/

/-- An `IoBuffers` whose counter fits in a `usize` together with what is left (every chain
accepted by `from_descriptor_chain`, and all that the operations below make of it) behaves as
the queue of its cells: `available_bytes` is the queue's length, `consume` hands its callback a
prefix and drops what the callback reports, `split_at` cuts the queue, and a reader or writer over
these buffers reads or stores at the front of the queue. -/
theorem ioBuffers_refines_cellQueue (b : IoBuffers) (hb : b.Bounded) :
    b.availableBytes = b.view.cells.length ∧
    (∀ count : Nat,
      (b.allocateFileVolatileSlice count).flatMap VolatileSlice.positions =
        b.view.cells.take count) ∧
    (∀ {α : Type} (count : Nat) (f : List VolatileSlice → Except IoError (Nat × α)),
      b.allocateFileVolatileSlice count = [] → b.consume count f = (.ok 0, none, b)) ∧
    (∀ {α : Type} (count : Nat) (f : List VolatileSlice → Except IoError (Nat × α)) (k : Nat) (a : α),
      b.allocateFileVolatileSlice count ≠ [] →
      f (b.allocateFileVolatileSlice count) = .ok (k, a) →
      k ≤ ((b.allocateFileVolatileSlice count).flatMap VolatileSlice.positions).length →
      ∃ b', b.consume count f = (.ok k, some a, b') ∧ b'.view = b.view.advance k) ∧
    (∀ {α : Type} (count : Nat) (f : List VolatileSlice → Except IoError (Nat × α)) (e : IoError),
      f (b.allocateFileVolatileSlice count) = .error e → ∃ r, b.consume count f = (r, none, b)) ∧
    (∀ off : Nat, off ≤ b.view.cells.length →
      ∃ other, (b.splitAt off).1 = .ok other ∧
        (b.splitAt off).2.view = ⟨b.view.cells.take off, b.view.consumed⟩ ∧
        other.view = ⟨b.view.cells.drop off, 0⟩) ∧
    (∀ off : Nat, b.view.cells.length < off →
      b.splitAt off = (.error (.splitOutOfBounds off), b)) ∧
    (∀ (mem : Memory) (buf : List UInt8),
      let n := min buf.length b.view.cells.length
      (Reader.read ⟨b⟩ mem buf).1 = .ok n ∧
        (Reader.read ⟨b⟩ mem buf).2.1 = (b.view.cells.take n).map mem ++ buf.drop n ∧
        (Reader.read ⟨b⟩ mem buf).2.2.buffers.view = b.view.advance n) ∧
    (∀ (mem : Memory) (bufs : List (List UInt8)),
      bufs.flatten.length ≤ b.availableBytes →
      (VirtioFsWriter.write ⟨b⟩ mem bufs.flatten).1 = .ok bufs.flatten.length ∧
        (VirtioFsWriter.write ⟨b⟩ mem bufs.flatten).2.1 =
          Store.storeAll mem b.view.cells bufs.flatten ∧
        (VirtioFsWriter.write ⟨b⟩ mem bufs.flatten).2.2.buffers.view =
          b.view.advance bufs.flatten.length ∧
        ∃ w', VirtioFsWriter.writeVectored ⟨b⟩ mem bufs =
            (.ok bufs.flatten.length, Store.storeAll mem b.view.cells bufs.flatten, w') ∧
          w'.buffers.view = b.view.advance bufs.flatten.length) ∧
    (∀ (mem : Memory) (bufs : List (List UInt8)),
      b.availableBytes < bufs.flatten.length →
      (∃ e, VirtioFsWriter.write ⟨b⟩ mem bufs.flatten = (.error e, mem, ⟨b⟩)) ∧
        ∃ e, VirtioFsWriter.writeVectored ⟨b⟩ mem bufs = (.error e, mem, ⟨b⟩)) := by
  refine ⟨IoBuffers.availableBytes_eq_length b, IoBuffers.allocateFileVolatileSlice_positions b,
    fun count f h => IoBuffers.consume_of_nil b count f h,
    fun count f _ _ hne h hk => IoBuffers.consume_of_ok b count f hb hne h hk,
    fun count f _ h => IoBuffers.consume_of_error b count f h,
    fun off h => IoBuffers.splitAt_of_le b h, fun off h => IoBuffers.splitAt_of_lt b h,
    fun mem buf => ?_, fun mem bufs h => ?_, fun mem bufs h => ?_⟩
  · obtain ⟨h1, h2, h3⟩ := Reader.read_spec ⟨b⟩ hb mem buf
    refine ⟨h1, ?_, h3⟩
    rw [h2, ← List.take_take, List.take_length]
    rfl
  · obtain ⟨h1, h2, h3⟩ := VirtioFsWriter.write_spec ⟨b⟩ hb mem _ h
    exact ⟨h1, h2, h3, VirtioFsWriter.writeVectored_spec ⟨b⟩ hb mem bufs h⟩
  · exact ⟨VirtioFsWriter.write_of_lt ⟨b⟩ mem h, VirtioFsWriter.writeVectored_of_lt ⟨b⟩ mem h⟩

/-- Three slices, the middle one empty: the split at the edge after the first slice keeps its two
cells and hands out the other three. -/
theorem ioBuffers_split_at_edge :
    IoBuffers.Bounded ⟨[⟨0, 2⟩, ⟨10, 0⟩, ⟨20, 3⟩], 0⟩ ∧
      ∃ other, (IoBuffers.splitAt ⟨[⟨0, 2⟩, ⟨10, 0⟩, ⟨20, 3⟩], 0⟩ 2).1 = .ok other ∧
        (IoBuffers.splitAt ⟨[⟨0, 2⟩, ⟨10, 0⟩, ⟨20, 3⟩], 0⟩ 2).2.view = ⟨[0, 1], 0⟩ ∧
        other.view = ⟨[20, 21, 22], 0⟩ := by
  have hb : IoBuffers.Bounded ⟨[⟨0, 2⟩, ⟨10, 0⟩, ⟨20, 3⟩], 0⟩ := by
    unfold IoBuffers.Bounded
    decide
  exact ⟨hb, (ioBuffers_refines_cellQueue _ hb).2.2.2.2.2.1 2 (by decide)⟩

end FuseBackend.Transport
