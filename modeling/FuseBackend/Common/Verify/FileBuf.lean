import FuseBackend.Common.FileBuf

/-!
# `FileVolatileSlice`: what a write leaves for a read

vm-memory 0.10's `VolatileSlice` keeps the contract of `Bytes` (`vmMemory_contract`). Over any
`VolatileSlice` that does, `FileVolatileSlice` hands `read` on to `read` and so reads back what
`write_slice` stored (`FileVolatileSlice.read_writeSlice`), but it hands `read_slice` to
`VolatileSlice::write_slice`, which writes the caller's buffer into the slice and leaves the
buffer as it was (`read_slice_overwrites_slice`).
-/

namespace FuseBackend.Common

open ByteMemory

namespace VolatileSlice

variable {s : VolatileSlice} {mem : Nat → UInt8} {buf : List UInt8} {a : Nat}

theorem write_of_fit (hfit : a + buf.length ≤ s.size) :
    s.write mem buf a = (.ok buf.length, store mem (s.addr + a) buf) := by
  by_cases hb : buf = []
  · subst hb
    simp [write]
  have hpos := List.length_pos_of_ne_nil hb
  have hmin : min buf.length (s.size - a) = buf.length := by omega
  simp only [write, List.isEmpty_iff, hb, if_false, ge_iff_le, hmin, List.take_length]
  rw [if_neg (by omega)]

theorem read_of_fit (hfit : a + buf.length ≤ s.size) :
    s.read mem buf a = (.ok buf.length, window mem (s.addr + a) buf.length) := by
  by_cases hb : buf = []
  · subst hb
    simp [read, window]
  have hpos := List.length_pos_of_ne_nil hb
  have hmin : min buf.length (s.size - a) = buf.length := by omega
  simp only [read, List.isEmpty_iff, hb, if_false, ge_iff_le, hmin, List.drop_length,
    List.append_nil]
  rw [if_neg (by omega)]

theorem writeSlice_of_fit (hfit : a + buf.length ≤ s.size) :
    s.writeSlice mem buf a = (.ok (), store mem (s.addr + a) buf) := by
  simp only [writeSlice, write_of_fit hfit, ne_eq, not_true_eq_false, if_false]

/-- A buffer that does not fit is refused, whole or in part. -/
theorem writeSlice_error_of_not_fit (hb : buf ≠ []) (hfit : s.size < a + buf.length) :
    ∃ e, (s.writeSlice mem buf a).1 = .error e := by
  unfold writeSlice write
  simp only [List.isEmpty_iff, hb, if_false]
  split_ifs with hge
  · exact ⟨_, rfl⟩
  · dsimp only
    rw [if_pos (by omega)]
    exact ⟨_, rfl⟩

end VolatileSlice

theorem vmMemory_contract : vmMemory.Contract where
  writeSlice_of_fit := VolatileSlice.writeSlice_of_fit
  writeSlice_of_not_fit := VolatileSlice.writeSlice_error_of_not_fit
  read_of_fit := VolatileSlice.read_of_fit

namespace FileVolatileSlice

theorem read_slice_overwrites_slice (V : VolatileBytes) (hV : V.Contract) (s : FileVolatileSlice)
    (mem : Nat → UInt8) (b buf : List UInt8) (a : Nat) (hfit : a + b.length ≤ s.size)
    (hlen : buf.length = b.length) :
    s.writeSlice V mem b a = (.ok (), store mem (s.addr + a) b) ∧
      s.readSlice V (store mem (s.addr + a) b) buf a =
        (.ok (), buf, store (store mem (s.addr + a) b) (s.addr + a) buf) ∧
      window (store (store mem (s.addr + a) b) (s.addr + a) buf) (s.addr + a) b.length = buf := by
  refine ⟨hV.writeSlice_of_fit hfit, ?_, ?_⟩
  · have hbuf : V.writeSlice s.asVolatileSlice (store mem (s.addr + a) b) buf a =
        (.ok (), store (store mem (s.addr + a) b) (s.addr + a) buf) :=
      hV.writeSlice_of_fit (by rw [hlen]; exact hfit)
    rw [readSlice, hbuf]
  · rw [← hlen, window_store_self]

theorem read_slice_after_write_of_two_bytes :
    (⟨0, 2⟩ : FileVolatileSlice).writeSlice vmMemory (fun _ => 0) [1, 2] 0 =
        (.ok (), store (fun _ => 0) 0 [1, 2]) ∧
      (⟨0, 2⟩ : FileVolatileSlice).readSlice vmMemory (store (fun _ => 0) 0 [1, 2]) [0, 0] 0 =
        (.ok (), [0, 0], store (store (fun _ => 0) 0 [1, 2]) 0 [0, 0]) ∧
      window (store (store (fun _ => (0 : UInt8)) 0 [1, 2]) 0 [0, 0]) 0 2 = ([0, 0] : List UInt8) :=
  read_slice_overwrites_slice vmMemory vmMemory_contract ⟨0, 2⟩ (fun _ => 0) [1, 2] [0, 0] 0
    (by decide) rfl

end FileVolatileSlice

end FuseBackend.Common
