import FuseBackend.Transport.FuseDev
import FuseBackend.Transport.Verify.ByteQueue
import FuseBackend.Lib.Transition

/-!
# `FuseDevWriter` against a writer of byte lists

What a writer is for (`Spec`): the bytes written into it and its room. A write that fits appends,
one that does not fails; `split_at` cuts the bytes and the room at the offset; `commit` sends one
writer's bytes followed by the other's. A buffered `FuseDevWriter` holds its spec's bytes in its
view of the shared buffer (`Holds`), every operation keeps that (`write_writesAs`,
`write_too_big`, `splitAt_holds`, `commit_eq`), and a write through one view leaves the views beside it alone
(`bytes_extend_of_disjoint`).

The writers the crate builds are split before they are written: a reply splits the fresh writer
at the header (`split_at`, fusedev/mod.rs:78-83 asks for that and for one `commit`), and a writer
that is never split is written once, unbuffered, straight to the device. The writers split from
one buffer are kept as a list whose rooms lie apart (`Pool`); every `write`, `write_vectored`,
`write_obj` and `split_at` keeps each of them holding its spec (`Pool.step`, `Pool.run`), and
`split_writers_refine_specs` puts this together from the first split on.
-/

namespace FuseBackend.Transport

/-- A writer of byte lists: the bytes written, and the room. -/
structure Spec where
  data : List UInt8
  cap : Nat
  deriving DecidableEq, Repr

namespace Spec

def write (s : Spec) (d : List UInt8) : Option Spec :=
  if d.length ≤ s.cap - s.data.length then some ⟨s.data ++ d, s.cap⟩ else none

def splitAt (s : Spec) (off : Nat) : Option (Spec × Spec) :=
  if off ≤ s.cap then some (⟨s.data.take off, off⟩, ⟨s.data.drop off, s.cap - off⟩) else none

end Spec

namespace FuseDevWriter

/-! ## The view -/

theorem range'_add (s a b : Nat) :
    List.range' s (a + b) = List.range' s a ++ List.range' (s + a) b := by
  rw [← List.range'_append, Nat.one_mul]

/-- Storing at addresses keeps every value outside them. -/
theorem map_storeAll_of_disjoint (mem : Memory) (addrs : List Nat) (data : List UInt8)
    {l : List Nat} (hl : ∀ a ∈ l, a ∉ addrs) :
    l.map (Store.storeAll mem addrs data) = l.map mem :=
  List.map_congr_left fun a ha => Store.storeAll_of_not_mem mem data (hl a ha)

/-- Storing at distinct addresses puts the values there, in order. -/
theorem map_storeAll_self (mem : Memory) {addrs : List Nat} {data : List UInt8}
    (hnd : addrs.Nodup) (hlen : addrs.length = data.length) :
    addrs.map (Store.storeAll mem addrs data) = data := by
  apply List.ext_getElem (by rw [List.length_map, hlen])
  intro i h₁ h₂
  rw [List.getElem_map]
  exact Store.storeAll_getElem mem hnd (by simpa using h₁) h₂

/-- `extend_from_slice` appends to the bytes of the view. -/
theorem bytes_extend (w : FuseDevWriter) (mem : Memory) (data : List UInt8) :
    (w.extend mem data).1.bytes (w.extend mem data).2 = w.bytes mem ++ data := by
  simp only [extend, bytes, range'_add, List.map_append]
  congr 1
  · apply map_storeAll_of_disjoint
    intro a ha hmem
    rw [List.mem_range'_1] at ha hmem
    omega
  · exact map_storeAll_self mem List.nodup_range' List.length_range'

/-- A write through one view leaves a view that does not overlap the bytes written. -/
theorem bytes_extend_of_disjoint (w o : FuseDevWriter) (mem : Memory) (data : List UInt8)
    (hdisj : o.start + o.len ≤ w.start + w.len ∨ w.start + w.len + data.length ≤ o.start) :
    o.bytes (w.extend mem data).2 = o.bytes mem := by
  apply map_storeAll_of_disjoint
  intro a ha hmem
  rw [List.mem_range'_1] at ha hmem
  omega

/-! ## The operations on a buffered writer -/

/-- The view holds the spec's bytes, and the room is the spec's. -/
def Holds (w : FuseDevWriter) (mem : Memory) (s : Spec) : Prop :=
  w.buffered = true ∧ w.cap = s.cap ∧ w.len = s.data.length ∧ s.data.length ≤ s.cap ∧
    w.bytes mem = s.data

section Buffered

variable {w : FuseDevWriter} {mem : Memory} {s : Spec}

/-- `check_available_space` of a writer that may write: an error exactly when the bytes do not
fit. -/
theorem checkAvailableSpace_of_may (hmay : (w.buffered || w.len == 0) = true) (sz : Nat) :
    w.checkAvailableSpace sz =
      some (if sz > w.availableBytes then .error (.dataOutOfRange w.availableBytes sz) else .ok ()) := by
  simp only [checkAvailableSpace, hmay, if_true]
  split <;> rfl

/-- A write that does not fit fails and changes nothing; the spec refuses it too. -/
theorem write_too_big (dev : Device) (d : FuseDev) (hw : w.Holds d.mem s) {data : List UInt8}
    (hbig : s.cap - s.data.length < data.length) :
    w.write dev d data =
        some (.error (.dataOutOfRange (s.cap - s.data.length) data.length), w, d) ∧
      s.write data = none := by
  obtain ⟨hbuf, hcap, hlen, -, -⟩ := hw
  have havail : w.availableBytes = s.cap - s.data.length := by simp [availableBytes, hcap, hlen]
  have hspace := checkAvailableSpace_of_may (w := w) (by simp [hbuf]) data.length
  rw [if_pos (by omega), havail] at hspace
  refine ⟨by simp [write, hspace], ?_⟩
  simp [Spec.write]
  omega

end Buffered

/-- `split_at` within the room: the first writer keeps the view up to the offset, and the new
one's view starts there. -/
theorem splitAt_of_le (w : FuseDevWriter) {off : Nat} (hoff : off ≤ w.cap) :
    w.splitAt off =
      .ok (⟨true, w.start, min w.len off, off⟩, ⟨true, w.start + off, w.len - off, w.cap - off⟩) := by
  by_cases hlt : w.len > off
  · simp [splitAt, hlt, Nat.not_lt.mpr hoff, Nat.min_eq_right (Nat.le_of_lt hlt)]
  · simp only [splitAt, hlt, Nat.not_lt.mpr hoff, if_false]
    congr 3 <;> omega

/-- The bytes before the offset stay in the first view. -/
theorem bytes_splitAt_fst (w : FuseDevWriter) (mem : Memory) (b : Bool) (off cap : Nat) :
    (⟨b, w.start, min w.len off, cap⟩ : FuseDevWriter).bytes mem = (w.bytes mem).take off := by
  simp only [bytes, ← List.map_take]
  rcases Nat.le_total off w.len with h | h
  · rw [List.take_range'_of_length_ge h, Nat.min_eq_right h]
  · rw [List.take_of_length_le (by simpa using h), Nat.min_eq_left h]

/-- The bytes after the offset move to the second view, in order. -/
theorem bytes_splitAt_snd (w : FuseDevWriter) (mem : Memory) (b : Bool) (off cap : Nat) :
    (⟨b, w.start + off, w.len - off, cap⟩ : FuseDevWriter).bytes mem = (w.bytes mem).drop off := by
  simp [bytes, ← List.map_drop, List.drop_range']

theorem splitAt_holds {w : FuseDevWriter} {mem : Memory} {s : Spec} (hw : w.Holds mem s) {off : Nat}
    (hoff : off ≤ s.cap) :
    ∃ a b sa sb, w.splitAt off = .ok (a, b) ∧ s.splitAt off = some (sa, sb) ∧
      a.Holds mem sa ∧ b.Holds mem sb := by
  obtain ⟨hbuf, hcap, hlen, hle, hbytes⟩ := hw
  refine ⟨_, _, ⟨s.data.take off, off⟩, ⟨s.data.drop off, s.cap - off⟩,
    splitAt_of_le w (by omega), by simp [Spec.splitAt, hoff], ⟨rfl, rfl, ?_, ?_, ?_⟩,
    ⟨rfl, by simp [hcap], ?_, ?_, ?_⟩⟩
  · simp [hlen, Nat.min_comm]
  · simp only [List.length_take]
    omega
  · rw [bytes_splitAt_fst, hbytes]
  · simp [hlen]
  · simp only [List.length_drop]
    omega
  · rw [bytes_splitAt_snd, hbytes]

/-- `commit` of a buffered writer sends its bytes followed by the other's, as one message. -/
theorem commit_eq (dev : Device) {w : FuseDevWriter} (hbuf : w.buffered = true) (d : FuseDev)
    (o : FuseDevWriter) :
    w.commit dev d (some o) =
      if w.bytes d.mem ++ o.bytes d.mem = [] then (.ok 0, d)
      else d.send dev (w.bytes d.mem ++ o.bytes d.mem) := by
  simp only [commit, hbuf, Bool.not_true, Bool.false_eq_true, if_false, Option.map_some,
    Option.getD_some]
  rcases hw : w.bytes d.mem with _ | ⟨x, xs⟩ <;> rcases ho : o.bytes d.mem with _ | ⟨y, ys⟩ <;>
    simp

/-! ## The three writes of a buffered writer -/

theorem Holds.buffered {w : FuseDevWriter} {mem : Memory} {s : Spec} (h : w.Holds mem s) :
    w.buffered = true := by
  obtain ⟨h, -⟩ := h
  exact h

theorem availableBytes_of_holds {w : FuseDevWriter} {mem : Memory} {s : Spec} (hw : w.Holds mem s) :
    w.availableBytes = s.cap - s.data.length := by
  obtain ⟨-, hcap, hlen, -, -⟩ := hw
  simp [availableBytes, hcap, hlen]

theorem extend_extend (w : FuseDevWriter) (mem : Memory) (a b : List UInt8) :
    (w.extend mem a).1.extend (w.extend mem a).2 b = w.extend mem (a ++ b) := by
  simp only [extend, List.length_append]
  rw [range'_add, Store.storeAll_append _ List.length_range']
  simp only [Nat.add_assoc]

/-- The loop of `write_vectored` appends the slices one after the other. -/
theorem extendAll_eq (w : FuseDevWriter) (mem : Memory) :
    ∀ bufs : List (List UInt8),
      w.extendAll mem bufs = (bufs.flatten.length, w.extend mem bufs.flatten)
  | [] => rfl
  | b :: bs => by
    rcases h : w.extend mem b with ⟨w₁, m₁⟩
    have ih : w₁.extendAll m₁ bs = (bs.flatten.length, w.extend mem (b ++ bs.flatten)) := by
      rw [← extend_extend, h]
      exact extendAll_eq w₁ m₁ bs
    simp only [extendAll, h, ih, List.flatten_cons, List.length_append]

theorem flatten_filter_isEmpty (bufs : List (List UInt8)) :
    (bufs.filter fun b => !b.isEmpty).flatten = bufs.flatten := by
  induction bufs with
  | nil => rfl
  | cons b bs ih => cases b <;> simp [ih]

/-- What a write through a buffered writer does to it: when the bytes fit, they are appended to
its view; when they do not, the writer and the buffer stay as they were. -/
def WritesAs {α : Type} (f : FuseDevWriter → Option (α × FuseDevWriter × FuseDev)) (d : FuseDev)
    (data : List UInt8) : Prop :=
  ∀ w s, w.Holds d.mem s →
    (data.length ≤ s.cap - s.data.length →
      ∃ r, f w = some (r, (w.extend d.mem data).1, { d with mem := (w.extend d.mem data).2 })) ∧
    (s.cap - s.data.length < data.length → ∃ r, f w = some (r, w, d))

theorem write_writesAs (dev : Device) (d : FuseDev) (data : List UInt8) :
    WritesAs (fun w => w.write dev d data) d data := by
  intro w s hw
  refine ⟨fun hfit => ⟨.ok data.length, ?_⟩, fun hbig => ⟨_, (write_too_big dev d hw hbig).1⟩⟩
  have hspace := checkAvailableSpace_of_may (w := w) (by simp [hw.buffered]) data.length
  rw [availableBytes_of_holds hw, if_neg (by omega)] at hspace
  simp [write, hspace, hw.buffered]

theorem writeVectored_writesAs (dev : Device) (d : FuseDev) (bufs : List (List UInt8)) :
    WritesAs (fun w => w.writeVectored dev d bufs) d bufs.flatten := by
  intro w s hw
  have hsum : bufs.foldl (fun acc x => acc + x.length) 0 = bufs.flatten.length := by
    rw [VirtioFsWriter.foldl_length_eq, Nat.zero_add]
  have hspace := checkAvailableSpace_of_may (w := w) (by simp [hw.buffered])
    (bufs.foldl (fun acc x => acc + x.length) 0)
  rw [availableBytes_of_holds hw, hsum] at hspace
  refine ⟨fun hfit => ⟨.ok bufs.flatten.length, ?_⟩,
    fun hbig => ⟨.error (.dataOutOfRange (s.cap - s.data.length) bufs.flatten.length), ?_⟩⟩
  · rw [if_neg (by omega)] at hspace
    dsimp only
    rw [writeVectored, hsum, hspace]
    simp [hw.buffered, extendAll_eq, flatten_filter_isEmpty]
  · rw [if_pos hbig] at hspace
    dsimp only
    rw [writeVectored, hsum, hspace]
    rfl

theorem writeAll_writesAs (dev : Device) (d : FuseDev) (obj : List UInt8) :
    WritesAs (fun w => w.writeAll dev d obj) d obj := by
  intro w s hw
  have hspace := checkAvailableSpace_of_may (w := w) (by simp [hw.buffered]) obj.length
  rw [availableBytes_of_holds hw] at hspace
  rcases obj with _ | ⟨b, bs⟩
  · refine ⟨fun _ => ⟨.ok (), ?_⟩, fun h => absurd h (by simp)⟩
    dsimp only
    rw [writeAll, dif_pos rfl]
    rfl
  refine ⟨fun hfit => ⟨.ok (), ?_⟩, fun hbig => ⟨.error (.dataOutOfRange (s.cap - s.data.length) (b :: bs).length), ?_⟩⟩
  · -- one round writes it all, and the next has nothing left
    rw [if_neg (by omega)] at hspace
    have hw₁ : w.write dev d (b :: bs) = some (.ok (b :: bs).length, (w.extend d.mem (b :: bs)).1,
        { d with mem := (w.extend d.mem (b :: bs)).2 }) := by
      rw [write, hspace]
      simp [hw.buffered]
    dsimp only
    rw [writeAll, dif_neg (List.cons_ne_nil b bs), hw₁, List.length_cons]
    simp only [List.drop_succ_cons, List.drop_length]
    rw [writeAll, dif_pos rfl]
  · rw [if_pos hbig] at hspace
    have hw₁ : w.write dev d (b :: bs) =
        some (.error (.dataOutOfRange (s.cap - s.data.length) (b :: bs).length), w, d) := by
      rw [write, hspace]
      rfl
    dsimp only
    rw [writeAll, dif_neg (List.cons_ne_nil b bs), hw₁]

/-! ## The writers split from one buffer -/

/-- Two writers whose rooms lie apart in the buffer. -/
def Apart (w o : FuseDevWriter) : Prop := w.start + w.cap ≤ o.start ∨ o.start + o.cap ≤ w.start

/-- The writers split from one buffer against their specs: a spec for each writer, each writer
holding its spec's bytes, and the rooms of any two lying apart. -/
structure Pool (mem : Memory) (ws : List FuseDevWriter) (ss : List Spec) : Prop where
  length_eq : ws.length = ss.length
  holds : ∀ {i : Nat} {w : FuseDevWriter} {s : Spec}, ws[i]? = some w → ss[i]? = some s →
    w.Holds mem s
  apart : ∀ {i j : Nat} {w o : FuseDevWriter}, i ≠ j → ws[i]? = some w → ws[j]? = some o →
    Apart w o

/-- What is done to the writers split from one buffer: a `write`, a `write_vectored`, a
`write_obj` (through `write_all`) or a `split_at` of the writer `i`; the writer `split_at` makes
joins the end of the list. -/
inductive WriterOp where
  | write (i : Nat) (data : List UInt8)
  | writeVectored (i : Nat) (bufs : List (List UInt8))
  | writeObj (i : Nat) (obj : List UInt8)
  | splitAt (i off : Nat)

/-- The writer `i` replaced by what a write leaves of it; `none` is a panic. -/
def writeAt {α : Type} (ws : List FuseDevWriter) (i : Nat)
    (f : FuseDevWriter → Option (α × FuseDevWriter × FuseDev)) (d : FuseDev) :
    Option (List FuseDevWriter × FuseDev) :=
  match ws[i]? with
  | none => some (ws, d)
  | some w => (f w).map fun r => (ws.set i r.2.1, r.2.2)

def WriterOp.step (dev : Device) :
    List FuseDevWriter × FuseDev → WriterOp → Option (List FuseDevWriter × FuseDev)
  | (ws, d), .write i data => writeAt ws i (fun w => w.write dev d data) d
  | (ws, d), .writeVectored i bufs => writeAt ws i (fun w => w.writeVectored dev d bufs) d
  | (ws, d), .writeObj i obj => writeAt ws i (fun w => w.writeAll dev d obj) d
  | (ws, d), .splitAt i off =>
    match ws[i]? with
    | none => some (ws, d)
    | some w =>
      match w.splitAt off with
      | .ok (a, b) => some (ws.set i a ++ [b], d)
      | .error _ => some (ws, d)

/-- The spec `i` after a write of `data`. -/
def Spec.writeAt (ss : List Spec) (i : Nat) (data : List UInt8) : List Spec :=
  match ss[i]?.bind (·.write data) with
  | some s' => ss.set i s'
  | none => ss

/-- The same operations on the specs. -/
def WriterOp.specStep : List Spec → WriterOp → List Spec
  | ss, .write i data => Spec.writeAt ss i data
  | ss, .writeVectored i bufs => Spec.writeAt ss i bufs.flatten
  | ss, .writeObj i obj => Spec.writeAt ss i obj
  | ss, .splitAt i off =>
    match ss[i]?.bind (·.splitAt off) with
    | some (a, b) => ss.set i a ++ [b]
    | none => ss

section Pool

variable {mem : Memory} {ws : List FuseDevWriter} {ss : List Spec} {i : Nat} {w : FuseDevWriter}
  {s : Spec}

theorem Pool.spec_of_writer (hP : Pool mem ws ss) (hw : ws[i]? = some w) :
    ∃ s, ss[i]? = some s := by
  have hi : i < ss.length := hP.length_eq ▸ (List.getElem?_eq_some_iff.mp hw).1
  exact ⟨_, List.getElem?_eq_getElem hi⟩

theorem Pool.spec_none (hP : Pool mem ws ss) (hw : ws[i]? = none) : ss[i]? = none := by
  rw [List.getElem?_eq_none_iff] at hw ⊢
  exact hP.length_eq ▸ hw

theorem Holds.of_bytes {o : FuseDevWriter} {mem' : Memory} {t : Spec} (h : o.Holds mem t)
    (hb : o.bytes mem' = o.bytes mem) : o.Holds mem' t := by
  obtain ⟨h₁, h₂, h₃, h₄, h₅⟩ := h
  exact ⟨h₁, h₂, h₃, h₄, hb.trans h₅⟩

theorem set_of_getElem? {l : List FuseDevWriter} (h : l[i]? = some w) : l.set i w = l := by
  apply List.ext_getElem?
  intro j
  by_cases hj : i = j
  · subst hj
    rw [List.getElem?_set_self (List.getElem?_eq_some_iff.mp h).1, h]
  · rw [List.getElem?_set_ne hj]

/-- The room of `o` lies within the room of `o₀`. -/
def Inside (o o₀ : FuseDevWriter) : Prop := o₀.start ≤ o.start ∧ o.start + o.cap ≤ o₀.start + o₀.cap

theorem Apart.mono {o o' o₀ o₀' : FuseDevWriter} (h : Apart o₀ o₀') (h₁ : Inside o o₀)
    (h₂ : Inside o' o₀') : Apart o o' := by
  unfold Apart Inside at *
  omega

/-- A writer in the list after one was replaced by a writer within its room lies within the
room of the writer that stood there before. -/
theorem inside_of_set {w' o : FuseDevWriter} {j : Nat} (hw : ws[i]? = some w) (hin : Inside w' w)
    (ho : (ws.set i w')[j]? = some o) : ∃ o₀, ws[j]? = some o₀ ∧ Inside o o₀ := by
  by_cases hj : i = j
  · subst hj
    rw [List.getElem?_set_self (List.getElem?_eq_some_iff.mp hw).1] at ho
    cases ho
    exact ⟨w, hw, hin⟩
  · rw [List.getElem?_set_ne hj] at ho
    exact ⟨o, ho, le_refl _, le_refl _⟩

/-- An append that fits through one writer keeps every writer holding its spec. -/
theorem Pool.append (hP : Pool mem ws ss) (hw : ws[i]? = some w) (hs : ss[i]? = some s)
    {data : List UInt8} (hfit : data.length ≤ s.cap - s.data.length) :
    Pool (w.extend mem data).2 (ws.set i (w.extend mem data).1) (ss.set i ⟨s.data ++ data, s.cap⟩) := by
  obtain ⟨hbuf, hcap, hlen, hle, hbytes⟩ := hP.holds hw hs
  have hi : i < ws.length := (List.getElem?_eq_some_iff.mp hw).1
  have hin : Inside (w.extend mem data).1 w := by simp [Inside, extend]
  refine ⟨by simp [hP.length_eq], fun {j o t} ho ht => ?_, fun {j k o o'} hjk ho ho' => ?_⟩
  · by_cases hj : i = j
    · subst hj
      rw [List.getElem?_set_self hi] at ho
      rw [List.getElem?_set_self (hP.length_eq ▸ hi)] at ht
      cases ho
      cases ht
      refine ⟨by simp [FuseDevWriter.extend, hbuf], by simp [FuseDevWriter.extend, hcap],
        by simp [FuseDevWriter.extend, hlen], ?_, ?_⟩
      · simp only [List.length_append]
        omega
      · rw [bytes_extend, hbytes]
    · rw [List.getElem?_set_ne hj] at ho ht
      -- another writer's bytes lie outside the room of this one
      obtain ⟨-, hocap, holen, hole, -⟩ := hP.holds ho ht
      refine (hP.holds ho ht).of_bytes (bytes_extend_of_disjoint w o mem data ?_)
      rcases hP.apart hj hw ho with hap | hap
      · right
        omega
      · left
        omega
  · -- the rooms do not move
    obtain ⟨o₀, ho₀, hin₀⟩ := inside_of_set hw hin ho
    obtain ⟨o₀', ho₀', hin₀'⟩ := inside_of_set hw hin ho'
    exact (hP.apart hjk ho₀ ho₀').mono hin₀ hin₀'

theorem getElem?_split {a b o : FuseDevWriter} {j : Nat} (hw : ws[i]? = some w) (ha : Inside a w)
    (ho : (ws.set i a ++ [b])[j]? = some o) :
    (∃ o₀, ws[j]? = some o₀ ∧ Inside o o₀) ∧ j < ws.length ∨ j = ws.length ∧ o = b := by
  by_cases hj : j < ws.length
  · rw [List.getElem?_append_left (by simpa using hj)] at ho
    exact .inl ⟨inside_of_set hw ha ho, hj⟩
  · rw [List.getElem?_append_right (by simp; omega)] at ho
    simp only [List.length_set, List.getElem?_singleton] at ho
    split_ifs at ho with hz
    · cases ho
      exact .inr ⟨by omega, rfl⟩

/-- A split within the room keeps every writer holding its spec, the two halves included. -/
theorem Pool.split (hP : Pool mem ws ss) (hw : ws[i]? = some w) (hs : ss[i]? = some s)
    {off : Nat} (hoff : off ≤ s.cap) :
    ∃ a b sa sb, w.splitAt off = .ok (a, b) ∧ s.splitAt off = some (sa, sb) ∧
      Pool mem (ws.set i a ++ [b]) (ss.set i sa ++ [sb]) := by
  have hwh := hP.holds hw hs
  obtain ⟨a, b, sa, sb, hab, hsab, ha, hb⟩ := splitAt_holds hwh hoff
  have hcap : w.cap = s.cap := by obtain ⟨-, h, -⟩ := hwh; exact h
  have hi : i < ws.length := (List.getElem?_eq_some_iff.mp hw).1
  -- the two halves are the two parts of the room, one after the other
  rw [splitAt_of_le w (hcap ▸ hoff), Except.ok.injEq, Prod.mk.injEq] at hab
  obtain ⟨rfl, rfl⟩ := hab
  have hina : Inside ⟨true, w.start, min w.len off, off⟩ w := by simp [Inside]; omega
  have hinb : Inside ⟨true, w.start + off, w.len - off, w.cap - off⟩ w := by simp [Inside]; omega
  refine ⟨_, _, sa, sb, splitAt_of_le w (hcap ▸ hoff), hsab, by simp [hP.length_eq], ?_, ?_⟩
  · intro j o t ho ht
    rcases getElem?_split hw hina ho with ⟨-, hj⟩ | ⟨hj, rfl⟩
    · rw [List.getElem?_append_left (by simpa using hj)] at ho
      rw [List.getElem?_append_left (by simpa [← hP.length_eq] using hj)] at ht
      by_cases hij : i = j
      · subst hij
        rw [List.getElem?_set_self hi] at ho
        rw [List.getElem?_set_self (hP.length_eq ▸ hi)] at ht
        cases ho
        cases ht
        exact ha
      · rw [List.getElem?_set_ne hij] at ho ht
        exact hP.holds ho ht
    · subst hj
      rw [List.getElem?_append_right (by simp [hP.length_eq]), List.length_set, hP.length_eq,
        Nat.sub_self, List.getElem?_singleton, if_pos rfl] at ht
      cases ht
      exact hb
  · intro j k o o' hjk ho ho'
    rcases getElem?_split hw hina ho with ⟨⟨o₀, ho₀, hin₀⟩, hj⟩ | ⟨hj, rfl⟩ <;>
      rcases getElem?_split hw hina ho' with ⟨⟨o₀', ho₀', hin₀'⟩, hk⟩ | ⟨hk, rfl⟩
    · exact (hP.apart hjk ho₀ ho₀').mono hin₀ hin₀'
    · -- `b` against a writer of the list: `a` when it stands at `i`, or one apart from `w`
      by_cases hji : j = i
      · subst hji
        rw [List.getElem?_append_left (by simpa using hj), List.getElem?_set_self hi] at ho
        cases ho
        left
        simp
      · exact (hP.apart hji ho₀ hw).mono hin₀ hinb
    · by_cases hki : k = i
      · subst hki
        rw [List.getElem?_append_left (by simpa using hk), List.getElem?_set_self hi] at ho'
        cases ho'
        right
        simp
      · exact (hP.apart (Ne.symm hki) hw ho₀').mono hinb hin₀'
    · omega

/-- A write through the writer `i` keeps the writers holding their specs, the spec `i` taking
the write; it sends nothing. -/
theorem Pool.writeThrough {α : Type} {d : FuseDev} {f : FuseDevWriter → Option (α × FuseDevWriter × FuseDev)}
    {data : List UInt8} (hP : Pool d.mem ws ss) (hf : WritesAs f d data) :
    ∃ ws' d', writeAt ws i f d = some (ws', d') ∧ d'.sent = d.sent ∧
      Pool d'.mem ws' (Spec.writeAt ss i data) := by
  rcases hw : ws[i]? with _ | w
  · refine ⟨ws, d, by simp [writeAt, hw], rfl, ?_⟩
    simpa [Spec.writeAt, hP.spec_none hw] using hP
  obtain ⟨s, hs⟩ := hP.spec_of_writer hw
  obtain ⟨hfit, hbig⟩ := hf w s (hP.holds hw hs)
  by_cases h : data.length ≤ s.cap - s.data.length
  · obtain ⟨r, hr⟩ := hfit h
    refine ⟨ws.set i (w.extend d.mem data).1, { d with mem := (w.extend d.mem data).2 },
      by simp [writeAt, hw, hr], rfl, ?_⟩
    have hspec : Spec.writeAt ss i data = ss.set i ⟨s.data ++ data, s.cap⟩ := by
      simp [Spec.writeAt, hs, Spec.write, h]
    rw [hspec]
    exact hP.append hw hs h
  · obtain ⟨r, hr⟩ := hbig (by omega)
    refine ⟨ws, d, by simp [writeAt, hw, hr, set_of_getElem? hw], rfl, ?_⟩
    have hspec : Spec.writeAt ss i data = ss := by
      simp [Spec.writeAt, hs, Spec.write, h]
    rw [hspec]
    exact hP

/-- Every operation keeps the writers holding their specs, the specs doing the same operation,
and sends nothing to the device. -/
theorem Pool.step (dev : Device) {d : FuseDev} (hP : Pool d.mem ws ss) (op : WriterOp) :
    ∃ ws' d', WriterOp.step dev (ws, d) op = some (ws', d') ∧ d'.sent = d.sent ∧
      Pool d'.mem ws' (op.specStep ss) := by
  cases op with
  | write i data => exact hP.writeThrough (write_writesAs dev d data)
  | writeVectored i bufs => exact hP.writeThrough (writeVectored_writesAs dev d bufs)
  | writeObj i obj => exact hP.writeThrough (writeAll_writesAs dev d obj)
  | splitAt i off =>
    rcases hw : ws[i]? with _ | w
    · refine ⟨ws, d, by simp [WriterOp.step, hw], rfl, ?_⟩
      simpa [WriterOp.specStep, hP.spec_none hw] using hP
    obtain ⟨s, hs⟩ := hP.spec_of_writer hw
    have hcap : w.cap = s.cap := by obtain ⟨-, h, -⟩ := hP.holds hw hs; exact h
    by_cases hoff : off ≤ s.cap
    · obtain ⟨a, b, sa, sb, hab, hsab, hP'⟩ := hP.split hw hs hoff
      exact ⟨ws.set i a ++ [b], d, by simp [WriterOp.step, hw, hab], rfl,
        by simpa [WriterOp.specStep, hs, hsab] using hP'⟩
    · refine ⟨ws, d, by simp [WriterOp.step, hw, splitAt, hcap, Nat.lt_of_not_le hoff], rfl, ?_⟩
      simpa [WriterOp.specStep, hs, Spec.splitAt, hoff] using hP

/-- The specs after a list of operations. -/
def WriterOp.specRun (ss : List Spec) (ops : List WriterOp) : List Spec := ops.foldl WriterOp.specStep ss

/-- Over every list of operations the writers keep holding their specs, and nothing is sent. -/
theorem Pool.run (dev : Device) :
    ∀ (ops : List WriterOp) {ws : List FuseDevWriter} {ss : List Spec} {d : FuseDev},
      Pool d.mem ws ss → ∃ ws' d', Transition.run (WriterOp.step dev) (ws, d) ops = some (ws', d') ∧
        d'.sent = d.sent ∧ Pool d'.mem ws' (WriterOp.specRun ss ops)
  | [], ws, _, d, hP => ⟨ws, d, rfl, rfl, hP⟩
  | op :: ops, _, _, _, hP => by
    obtain ⟨ws₁, d₁, h₁, hs₁, hP₁⟩ := hP.step dev op
    obtain ⟨ws', d', h', hs', hP'⟩ := Pool.run dev ops hP₁
    exact ⟨ws', d', by rw [Transition.run_cons, h₁]; exact h', hs'.trans hs₁, hP'⟩

theorem Holds.bytes_eq {o : FuseDevWriter} {t : Spec} (h : o.Holds mem t) : o.bytes mem = t.data := by
  obtain ⟨-, -, -, -, h⟩ := h
  exact h

/-- The two halves of a fresh writer split within its room, both empty. -/
theorem pool_new_split (c off : Nat) (mem : Memory) :
    Pool mem [⟨true, 0, 0, off⟩, ⟨true, off, 0, c - off⟩] [⟨[], off⟩, ⟨[], c - off⟩] := by
  refine ⟨rfl, fun {i w s} hw hs => ?_, fun {i j w o} hij hw ho => ?_⟩
  · rcases i with _ | _ | i <;> simp at hw hs <;> subst hw hs <;>
      exact ⟨rfl, rfl, rfl, Nat.zero_le _, rfl⟩
  · rcases i with _ | _ | i <;> rcases j with _ | _ | j <;> simp at hw ho hij <;> subst hw ho <;>
      simp [Apart]

end Pool

/-- The writers a reply splits from a fresh writer over a buffer of capacity `c`, at an offset
within it, refine writers of byte lists over every list of `write`, `write_vectored`,
`write_obj` and `split_at`: each keeps its bytes in its view within its room, a write that does
not fit fails and changes nothing, `split_at` within the room leaves the first `off` bytes of room
and of the written bytes to the writer and the rest to the new one, and `commit` sends the two
writers' bytes, in order, as one message. -/
theorem split_writers_refine_specs (dev : Device) {c off : Nat} (hoff : off ≤ c) (d : FuseDev)
    (ops : List WriterOp) :
    (FuseDevWriter.new c).splitAt off = .ok (⟨true, 0, 0, off⟩, ⟨true, off, 0, c - off⟩) ∧
    ∃ ws d', Transition.run (WriterOp.step dev) ([⟨true, 0, 0, off⟩, ⟨true, off, 0, c - off⟩], d)
        ops = some (ws, d') ∧ d'.sent = d.sent ∧
      Pool d'.mem ws (WriterOp.specRun [⟨[], off⟩, ⟨[], c - off⟩] ops) ∧
      (∀ w ∈ ws, w.bytesWritten ≤ w.cap) ∧
      (∀ (i : Nat) (w : FuseDevWriter) (data : List UInt8), ws[i]? = some w →
        w.availableBytes < data.length →
        w.write dev d' data = some (.error (.dataOutOfRange w.availableBytes data.length), w, d')) ∧
      (∀ (i : Nat) (w : FuseDevWriter) (off' : Nat), ws[i]? = some w → off' ≤ w.cap →
        ∃ a b, w.splitAt off' = .ok (a, b) ∧
        a.cap = off' ∧ b.cap = w.cap - off' ∧ a.bytes d'.mem = (w.bytes d'.mem).take off' ∧
        b.bytes d'.mem = (w.bytes d'.mem).drop off') ∧
      (∀ (i j : Nat) (w o : FuseDevWriter) (s t : Spec), ws[i]? = some w → ws[j]? = some o →
        (WriterOp.specRun [⟨[], off⟩, ⟨[], c - off⟩] ops)[i]? = some s →
        (WriterOp.specRun [⟨[], off⟩, ⟨[], c - off⟩] ops)[j]? = some t →
        w.commit dev d' (some o) =
          if s.data ++ t.data = [] then (.ok 0, d') else d'.send dev (s.data ++ t.data)) := by
  refine ⟨by simp [FuseDevWriter.new, splitAt, Nat.not_lt.mpr hoff], ?_⟩
  obtain ⟨ws, d', hrun, hsent, hP⟩ := Pool.run dev ops (pool_new_split c off d.mem)
  refine ⟨ws, d', hrun, hsent, hP, fun w hw => ?_, fun i w data hw hbig => ?_,
    fun i w off' hw hoff' => ?_, fun i j w o s t hw ho hs ht => ?_⟩
  · obtain ⟨i, hi⟩ := List.mem_iff_getElem?.mp hw
    obtain ⟨s, hs⟩ := hP.spec_of_writer hi
    obtain ⟨-, hcap, hlen, hle, -⟩ := hP.holds hi hs
    simp only [bytesWritten]
    omega
  · obtain ⟨s, hs⟩ := hP.spec_of_writer hw
    have hwh := hP.holds hw hs
    rw [availableBytes_of_holds hwh] at hbig ⊢
    exact (write_too_big dev d' hwh hbig).1
  · exact ⟨_, _, splitAt_of_le w hoff', rfl, rfl, bytes_splitAt_fst w d'.mem true off' off',
      bytes_splitAt_snd w d'.mem true off' (w.cap - off')⟩
  · have hwh := hP.holds hw hs
    rw [commit_eq dev hwh.buffered, hwh.bytes_eq, (hP.holds ho ht).bytes_eq]

/-- A device that takes every message whole. -/
def takesAll : Device := fun msg => .ok msg.length

/-- A 16-byte buffer split at 2: two bytes into the first writer, one into the second, which is
split at 4, and two slices through `write_vectored` into the third. -/
theorem split_writers_after_writes :
    (FuseDevWriter.new 16).splitAt 2 = .ok (⟨true, 0, 0, 2⟩, ⟨true, 2, 0, 16 - 2⟩) ∧
    ∃ ws d', Transition.run (WriterOp.step takesAll) ([⟨true, 0, 0, 2⟩, ⟨true, 2, 0, 16 - 2⟩],
        ⟨fun _ => 0, []⟩) [.write 0 [1, 2], .write 1 [3], .splitAt 1 4, .writeVectored 2 [[4], [5]]] =
        some (ws, d') ∧ d'.sent = (⟨fun _ => 0, []⟩ : FuseDev).sent ∧
      Pool d'.mem ws (WriterOp.specRun [⟨[], 2⟩, ⟨[], 16 - 2⟩]
        [.write 0 [1, 2], .write 1 [3], .splitAt 1 4, .writeVectored 2 [[4], [5]]]) ∧
      (∀ w ∈ ws, w.bytesWritten ≤ w.cap) ∧
      (∀ (i : Nat) (w : FuseDevWriter) (data : List UInt8), ws[i]? = some w →
        w.availableBytes < data.length →
        w.write takesAll d' data = some (.error (.dataOutOfRange w.availableBytes data.length), w, d')) ∧
      (∀ (i : Nat) (w : FuseDevWriter) (off' : Nat), ws[i]? = some w → off' ≤ w.cap →
        ∃ a b, w.splitAt off' = .ok (a, b) ∧
        a.cap = off' ∧ b.cap = w.cap - off' ∧ a.bytes d'.mem = (w.bytes d'.mem).take off' ∧
        b.bytes d'.mem = (w.bytes d'.mem).drop off') ∧
      (∀ (i j : Nat) (w o : FuseDevWriter) (s t : Spec), ws[i]? = some w → ws[j]? = some o →
        (WriterOp.specRun [⟨[], 2⟩, ⟨[], 16 - 2⟩]
          [.write 0 [1, 2], .write 1 [3], .splitAt 1 4, .writeVectored 2 [[4], [5]]])[i]? = some s →
        (WriterOp.specRun [⟨[], 2⟩, ⟨[], 16 - 2⟩]
          [.write 0 [1, 2], .write 1 [3], .splitAt 1 4, .writeVectored 2 [[4], [5]]])[j]? = some t →
        w.commit takesAll d' (some o) =
          if s.data ++ t.data = [] then (.ok 0, d') else d'.send takesAll (s.data ++ t.data)) :=
  split_writers_refine_specs takesAll (by decide) ⟨fun _ => 0, []⟩
    [.write 0 [1, 2], .write 1 [3], .splitAt 1 4, .writeVectored 2 [[4], [5]]]

end FuseDevWriter

end FuseBackend.Transport
