import FuseBackend.Api.Server
import FuseBackend.Lib.ExceptState
import FuseBackend.Lib.ListSplit

/-!
# The server's codecs

How the server reads the names of a request and writes the records of a `readdir` reply.

`bytes_to_cstr` takes the bytes before the first NUL and fails when there is none;
`extract_two_cstrs` takes the two names that end at the first two NULs
(`name_decoders_split_at_first_nuls`).

`add_dirent` writes the record of an entry, after its `EntryOut` for `readdirplus`, when it fits
in the `size` bytes the kernel asked for. A reply body is read back as the kernel reads it
(`decodeDirents`): each struct whole, then the name and the zero bytes up to a multiple of 8.
Over a cursor with room for `size` bytes, the records of the accepted entries read back in order
(`addDirents_decode`). `do_readdir` checks the reply buffer against `size` alone, and the cursor
it splits off is the 16 bytes of the header shorter: a record that passes the check of
`add_dirent` is then cut after its `Dirent`, and the file systems that end a listing without an
error after a failed entry send the cut record (`readdir_reply_keeps_rejected_dirent`).
-/

namespace FuseBackend.Api

/-! ## Names -/

namespace Server

/-- Where the first NUL of `buf` is, `buf` is the bytes before it, the NUL and the rest. -/
theorem findIdx?_nul_eq_some_iff {buf : List UInt8} {pos : Nat} :
    buf.findIdx? (· == 0) = some pos ↔ ∃ c r, buf = c ++ 0 :: r ∧ 0 ∉ c ∧ c.length = pos := by
  rw [List.findIdx?_eq_some_iff_append]
  constructor
  · rintro ⟨c, x, r, rfl, hc, hx, rfl⟩
    refine ⟨c, r, ?_, fun h => by simpa using hc 0 h, rfl⟩
    rw [beq_iff_eq.mp hx]
  · rintro ⟨c, r, rfl, hc, rfl⟩
    refine ⟨c, 0, r, rfl, fun y hy => ?_, rfl, rfl⟩
    simpa using fun h : y = 0 => hc (h ▸ hy)

theorem bytesToCstr_ok_iff {buf c : List UInt8} :
    bytesToCstr buf = .ok c ↔ ∃ tail, 0 ∉ c ∧ buf = c ++ 0 :: tail := by
  unfold bytesToCstr
  constructor
  · intro h
    split at h
    · rename_i pos hpos
      obtain ⟨c', r, rfl, hc', rfl⟩ := findIdx?_nul_eq_some_iff.mp hpos
      cases h
      exact ⟨r, by simpa using hc', by simp⟩
    · cases h
  · rintro ⟨tail, hc, rfl⟩
    rw [findIdx?_nul_eq_some_iff.mpr ⟨c, tail, rfl, hc, rfl⟩]
    simp

theorem bytesToCstr_error_iff {buf : List UInt8} : (∃ e, bytesToCstr buf = .error e) ↔ 0 ∉ buf := by
  unfold bytesToCstr
  constructor
  · rintro ⟨e, h⟩ hmem
    split at h
    · cases h
    · rename_i hnone
      simpa using List.findIdx?_eq_none_iff.mp hnone 0 hmem
  · intro hbuf
    have hnone : buf.findIdx? (· == 0) = none :=
      List.findIdx?_eq_none_iff.mpr fun x hx => by
        simpa using fun h : x = 0 => hbuf (h ▸ hx)
    rw [hnone]
    exact ⟨_, rfl⟩

theorem extractTwoCstrs_ok_iff {buf a b : List UInt8} :
    extractTwoCstrs buf = .ok (a, b) ↔ ∃ tail, 0 ∉ a ∧ 0 ∉ b ∧ buf = a ++ 0 :: (b ++ 0 :: tail) := by
  unfold extractTwoCstrs
  constructor
  · intro h
    split at h
    · rename_i pos hpos
      obtain ⟨a', r, rfl, ha', rfl⟩ := findIdx?_nul_eq_some_iff.mp hpos
      split at h
      · rw [List.drop_length_succ_append_cons] at h
        rcases hb : bytesToCstr r with e | b'
        · rw [hb] at h
          cases h
        · rw [hb] at h
          simp only [Except.map, Except.ok.injEq, Prod.mk.injEq, List.take_left'] at h
          obtain ⟨rfl, rfl⟩ := h
          obtain ⟨tail, hb', rfl⟩ := bytesToCstr_ok_iff.mp hb
          exact ⟨tail, ha', hb', rfl⟩
      · cases h
    · cases h
  · rintro ⟨tail, ha, hb, rfl⟩
    rw [findIdx?_nul_eq_some_iff.mpr ⟨a, _, rfl, ha, rfl⟩]
    dsimp only
    rw [if_pos (by simp only [List.length_append, List.length_cons]; omega),
      List.drop_length_succ_append_cons,
      bytesToCstr_ok_iff.mpr ⟨tail, hb, rfl⟩]
    simp [Except.map]

theorem name_decoders_split_at_first_nuls :
    (∀ buf a b, extractTwoCstrs buf = .ok (a, b) ↔
      ∃ tail, 0 ∉ a ∧ 0 ∉ b ∧ buf = a ++ 0 :: (b ++ 0 :: tail)) ∧
    (∀ buf c, bytesToCstr buf = .ok c ↔ ∃ tail, 0 ∉ c ∧ buf = c ++ 0 :: tail) ∧
    (∀ buf, (∃ e, bytesToCstr buf = .error e) ↔ 0 ∉ buf) :=
  ⟨fun _ _ _ => extractTwoCstrs_ok_iff, fun _ _ => bytesToCstr_ok_iff, fun _ => bytesToCstr_error_iff⟩

end Server

/-! ## The records of a `readdir` reply, as the kernel reads them -/

/-- A reply body as the kernel reads it: each struct whole, and the bytes one by one. -/
inductive Token where
  | struct (s : Slice)
  | byte (b : UInt8)
  deriving DecidableEq, Repr

def Slice.tokens : Slice → List Token
  | .bytes data => data.map .byte
  | s => [.struct s]

def tokens (ss : List Slice) : List Token := ss.flatMap Slice.tokens

@[simp] theorem tokens_nil : tokens [] = [] := rfl

@[simp] theorem tokens_cons (s : Slice) (ss : List Slice) : tokens (s :: ss) = s.tokens ++ tokens ss :=
  rfl

@[simp] theorem tokens_append (ss ts : List Slice) : tokens (ss ++ ts) = tokens ss ++ tokens ts := by
  simp [tokens]

/-- `FUSE_DIRENT_ALIGN`: `len` rounded up to a multiple of 8. -/
def direntAlign (len : Nat) : Nat := (len + 7) / 8 * 8

theorem direntAlign_spec (len : Nat) :
    direntAlign len % 8 = 0 ∧ len ≤ direntAlign len ∧ direntAlign len < len + 8 := by
  unfold direntAlign
  omega

/-- The `n` bytes at the front of `ts`. -/
def takeBytes : Nat → List Token → Option (List UInt8 × List Token)
  | 0, ts => some ([], ts)
  | n + 1, .byte b :: ts => (takeBytes n ts).map fun (bs, ts) => (b :: bs, ts)
  | _ + 1, _ => none

@[simp] theorem takeBytes_map_append (bs : List UInt8) (ts : List Token) :
    takeBytes bs.length (bs.map .byte ++ ts) = some (bs, ts) := by
  induction bs with
  | nil => rfl
  | cons b bs ih => simp [takeBytes, ih]

@[simp] theorem takeBytes_replicate_append (n : Nat) (b : UInt8) (ts : List Token) :
    takeBytes n (List.replicate n (.byte b) ++ ts) = some (List.replicate n b, ts) := by
  induction n with
  | zero => rfl
  | succ n ih => simp [List.replicate_succ, takeBytes, ih]

/-- A record as the kernel reads it: its `EntryOut` for `readdirplus`, its `Dirent` and name. -/
abbrev DirentRecord := Option EntryOut × Dirent × List UInt8

/-- One record at the front of a reply body: for `readdirplus` an `EntryOut`, then a `Dirent`,
`namelen` bytes of name and zero bytes up to a multiple of 8. -/
def readDirent (plus : Bool) (ts : List Token) : Option (DirentRecord × List Token) := do
  let (o, ts) ← if plus then
      match ts with
      | .struct (.entryOut o) :: ts => some (some o, ts)
      | _ => none
    else some (none, ts)
  match ts with
  | .struct (.dirent d) :: ts =>
    let (name, ts) ← takeBytes d.namelen ts
    let (pad, ts) ← takeBytes (direntAlign (direntSize + d.namelen) - (direntSize + d.namelen)) ts
    if pad.all (· == 0) then some ((o, d, name), ts) else none
  | _ => none

/-- The records of a reply body, one after another to its end; `fuel` bounds their number. -/
def readDirents (plus : Bool) : Nat → List Token → Option (List DirentRecord)
  | _, [] => some []
  | 0, _ :: _ => none
  | fuel + 1, t :: ts => do
    let (r, ts) ← readDirent plus (t :: ts)
    return r :: (← readDirents plus fuel ts)

/-- The entries the kernel reads from the body `ss` of a `readdir` reply. -/
def decodeDirents (plus : Bool) (ss : List Slice) : Option (List DirentRecord) :=
  readDirents plus (tokens ss).length (tokens ss)

theorem readDirents_cons_append {plus : Bool} {fuel : Nat} {ts rest : List Token} {r : DirentRecord}
    (hne : ts ≠ []) (hr : readDirent plus (ts ++ rest) = some (r, rest)) :
    readDirents plus (fuel + 1) (ts ++ rest) = (readDirents plus fuel rest).map (r :: ·) := by
  obtain ⟨t, ts, rfl⟩ := List.exists_cons_of_ne_nil hne
  simp only [List.cons_append, readDirents] at hr ⊢
  rw [hr]
  cases h : readDirents plus fuel rest <;> simp [h]

/-- The record `add_dirent` writes for `d`. -/
def DirEntry.record (d : DirEntry) (entry : Option Entry) : DirentRecord :=
  (entry.map EntryOut.ofEntry, ⟨d.ino, d.offset, d.name.toUTF8.toList.length, d.type_⟩,
    d.name.toUTF8.toList)

/-! ## `add_dirent` -/

namespace Writer

/-- What a writer can hold: its free space and what it has written. -/
def capacity (w : Writer) : Nat := w.avail + w.bytesWritten

theorem writeEach_of_fits {w : Writer} {ss : List Slice} (h : sizes ss ≤ w.avail) :
    w.writeEach ss = (.ok (), ⟨w.avail - sizes ss, w.written ++ ss⟩) := by
  induction ss generalizing w with
  | nil => simp [writeEach]
  | cons s ss ih =>
    simp only [sizes_cons] at h
    have hw : w.write [s] = .ok ⟨w.avail - s.size, w.written ++ [s]⟩ := by
      simp [write, show ¬ s.size > w.avail by omega]
    simp only [writeEach, hw]
    rw [ih (by simp; omega)]
    simp only [List.append_assoc, List.singleton_append, sizes_cons, Nat.sub_sub]

/-- `write_all` of each slice in turn leaves the slices before the first that did not fit. -/
theorem writeEach_prefix (w : Writer) (ss : List Slice) :
    ∃ pre, pre <+: ss ∧ (w.writeEach ss).2 = ⟨w.avail - sizes pre, w.written ++ pre⟩ ∧
      sizes pre ≤ w.avail := by
  induction ss generalizing w with
  | nil => exact ⟨[], List.prefix_rfl, by simp [writeEach], by simp⟩
  | cons s ss ih =>
    by_cases hs : s.size > w.avail
    · refine ⟨[], List.nil_prefix, ?_, by simp⟩
      simp [writeEach, write, hs]
    · obtain ⟨pre, hpre, heq, hle⟩ := ih ⟨w.avail - s.size, w.written ++ [s]⟩
      dsimp only at hle
      refine ⟨s :: pre, List.cons_prefix_cons.mpr ⟨rfl, hpre⟩, ?_, by simp; omega⟩
      simp only [writeEach, write, sizes_cons, sizes_nil, Nat.add_zero, hs, if_false]
      rw [heq]
      simp [Nat.sub_sub]

end Writer

theorem sizes_le_of_prefix {pre ss : List Slice} (h : pre <+: ss) : sizes pre ≤ sizes ss := by
  obtain ⟨t, rfl⟩ := h
  simp

namespace Server

/-- The length of the record of `d`, with its `EntryOut` for `readdirplus`. -/
def recordLen (d : DirEntry) (entry : Option Entry) : Nat :=
  let paddedDirentLen := direntAlign (direntSize + d.name.toUTF8.toList.length)
  if entry.isSome then paddedDirentLen + 128 else paddedDirentLen

/-- The slices `add_dirent` writes for `d`. -/
def direntSlices (d : DirEntry) (entry : Option Entry) : List Slice :=
  let name := d.name.toUTF8.toList
  let direntLen := direntSize + name.length
  let padding := direntAlign direntLen - direntLen
  (entry.map fun e => Slice.entryOut (.ofEntry e)).toList ++
    [.dirent ⟨d.ino, d.offset, name.length, d.type_⟩, .bytes name] ++
    (if padding > 0 then [.bytes (List.replicate padding 0)] else [])

theorem addDirent_eq (c : Writer) (max : Nat) (d : DirEntry) (entry : Option Entry) :
    addDirent c max d entry =
      if max - c.bytesWritten < recordLen d entry then (.ok 0, c)
      else match c.writeEach (direntSlices d entry) with
        | (.ok (), c) => (.ok (recordLen d entry), c)
        | (.error e, c) => (.error e, c) := rfl

/-- The padding slice stands for the zero bytes that bring the record to a multiple of 8. -/
theorem tokens_padding (len : Nat) :
    tokens (if direntAlign len - len > 0 then [.bytes (List.replicate (direntAlign len - len) 0)]
      else []) = (List.replicate (direntAlign len - len) (0 : UInt8)).map .byte := by
  split_ifs with h
  · simp [Slice.tokens]
  · simp [show direntAlign len - len = 0 by omega]

theorem sizes_direntSlices (d : DirEntry) (entry : Option Entry) :
    sizes (direntSlices d entry) = recordLen d entry := by
  simp only [direntSlices, recordLen]
  generalize d.name.toUTF8.toList = name
  have h := (direntAlign_spec (direntSize + name.length)).2.1
  cases entry <;> by_cases hp : direntAlign (direntSize + name.length) - (direntSize + name.length) > 0 <;>
    simp [hp, Slice.size] <;> omega

theorem direntSize_le_recordLen (d : DirEntry) (entry : Option Entry) : direntSize ≤ recordLen d entry := by
  have := (direntAlign_spec (direntSize + d.name.toUTF8.toList.length)).2.1
  dsimp only [recordLen]
  split <;> omega

/-- The record is the `EntryOut` for `readdirplus`, the `Dirent`, the name, and zero bytes up to a
multiple of 8. -/
theorem tokens_direntSlices (d : DirEntry) (entry : Option Entry) :
    ∃ pad, tokens (direntSlices d entry) =
      (entry.map fun e => Token.struct (.entryOut (.ofEntry e))).toList ++
        .struct (.dirent ⟨d.ino, d.offset, d.name.toUTF8.toList.length, d.type_⟩) ::
        (d.name.toUTF8.toList ++ List.replicate pad 0).map .byte ∧
      (direntSize + d.name.toUTF8.toList.length + pad) % 8 = 0 ∧ pad < 8 := by
  simp only [direntSlices]
  generalize d.name.toUTF8.toList = name
  obtain ⟨h8, hle, hlt⟩ := direntAlign_spec (direntSize + name.length)
  refine ⟨direntAlign (direntSize + name.length) - (direntSize + name.length), ?_, by omega, by omega⟩
  rw [tokens_append, tokens_padding]
  cases entry <;> simp [Slice.tokens]

theorem tokens_direntSlices_ne_nil (d : DirEntry) (entry : Option Entry) :
    tokens (direntSlices d entry) ≠ [] := by
  obtain ⟨pad, h, -⟩ := tokens_direntSlices d entry
  rw [h]
  simp

theorem readDirent_direntSlices (d : DirEntry) (entry : Option Entry) (rest : List Token) :
    readDirent entry.isSome (tokens (direntSlices d entry) ++ rest) = some (d.record entry, rest) := by
  simp only [direntSlices, DirEntry.record]
  generalize d.name.toUTF8.toList = name
  rw [tokens_append, tokens_padding]
  cases entry <;> simp [Slice.tokens, readDirent]

/-- The records of `add_dirent` read back, one entry after another. -/
theorem readDirents_flatMap {plus : Bool} (xs : List (DirEntry × Option Entry))
    (hplus : ∀ x ∈ xs, x.2.isSome = plus) (fuel : Nat)
    (hfuel : (tokens (xs.flatMap fun x => direntSlices x.1 x.2)).length ≤ fuel) :
    readDirents plus fuel (tokens (xs.flatMap fun x => direntSlices x.1 x.2)) =
      some (xs.map fun x => x.1.record x.2) := by
  induction xs generalizing fuel with
  | nil => cases fuel <;> rfl
  | cons x xs ih =>
    obtain ⟨d, e⟩ := x
    have hx : e.isSome = plus := hplus _ List.mem_cons_self
    have hne := tokens_direntSlices_ne_nil d e
    have hpos := List.length_pos_iff.mpr hne
    simp only [List.flatMap_cons, tokens_append, List.length_append] at hfuel ⊢
    obtain ⟨fuel, rfl⟩ : ∃ f, fuel = f + 1 := Nat.exists_eq_add_one.mpr (by omega)
    rw [readDirents_cons_append hne (hx ▸ readDirent_direntSlices d e _),
      ih (fun y hy => hplus y (List.mem_cons_of_mem _ hy)) fuel (by omega)]
    rfl

/-- `add_dirent` never takes the cursor past `max`. -/
theorem addDirent_bytesWritten_le {c : Writer} {max : Nat} (d : DirEntry) (entry : Option Entry)
    (hc : c.bytesWritten ≤ max) : (addDirent c max d entry).2.bytesWritten ≤ max := by
  rw [addDirent_eq]
  split
  · exact hc
  · rename_i hfit
    obtain ⟨pre, hpre, heq, -⟩ := c.writeEach_prefix (direntSlices d entry)
    have hsize := sizes_le_of_prefix hpre
    rw [sizes_direntSlices] at hsize
    -- the cursor is what the writes left, whether the last one failed or not
    have hcursor : (match c.writeEach (direntSlices d entry) with
        | (.ok (), c) => ((.ok (recordLen d entry), c) : Except IoError Nat × Writer)
        | (.error e, c) => (.error e, c)).2 = (c.writeEach (direntSlices d entry)).2 := by
      rcases c.writeEach (direntSlices d entry) with ⟨_ | _, _⟩ <;> rfl
    rw [hcursor, heq]
    show sizes (c.written ++ pre) ≤ max
    rw [sizes_append]
    change c.bytesWritten + sizes pre ≤ max
    omega

/-- With room for `max` bytes, `add_dirent` writes the whole record or nothing. -/
theorem addDirent_of_capacity {c : Writer} {max : Nat} (d : DirEntry) (entry : Option Entry)
    (hcap : max ≤ c.capacity) (hc : c.bytesWritten ≤ max) :
    (addDirent c max d entry = (.ok 0, c) ∧ max - c.bytesWritten < recordLen d entry) ∨
      (addDirent c max d entry =
        (.ok (recordLen d entry), ⟨c.avail - recordLen d entry, c.written ++ direntSlices d entry⟩) ∧
        recordLen d entry ≤ max - c.bytesWritten ∧ 0 < recordLen d entry) := by
  rw [addDirent_eq]
  split
  · exact .inl ⟨rfl, by assumption⟩
  · rename_i hfit
    have hfits : sizes (direntSlices d entry) ≤ c.avail := by
      rw [sizes_direntSlices]
      unfold Writer.capacity at hcap
      omega
    right
    rw [Writer.writeEach_of_fits hfits, sizes_direntSlices]
    exact ⟨rfl, by omega, Nat.lt_of_lt_of_le (by decide) (direntSize_le_recordLen d entry)⟩

/-! ## Runs of `add_dirent` -/

/-- `add_dirent` called on each entry of `ds` in turn: what it answered each, and the cursor. -/
def addDirents (max : Nat) (c : Writer) :
    List (DirEntry × Option Entry) → List (Except IoError Nat) × Writer
  | [] => ([], c)
  | (d, e) :: ds =>
    let (r, c) := addDirent c max d e
    let (rs, c) := addDirents max c ds
    (r :: rs, c)

/-- The entries `add_dirent` answered with a length that is not 0. -/
def accepted (ds : List (DirEntry × Option Entry)) (rs : List (Except IoError Nat)) :
    List (DirEntry × Option Entry) :=
  ((ds.zip rs).filter fun (_, r) => match r with | .ok n => n != 0 | .error _ => false).map Prod.fst

theorem accepted_cons_zero (x : DirEntry × Option Entry) (ds : List (DirEntry × Option Entry))
    (rs : List (Except IoError Nat)) : accepted (x :: ds) (.ok 0 :: rs) = accepted ds rs := rfl

theorem accepted_cons_pos (x : DirEntry × Option Entry) (ds : List (DirEntry × Option Entry))
    (rs : List (Except IoError Nat)) {n : Nat} (hn : 0 < n) :
    accepted (x :: ds) (.ok n :: rs) = x :: accepted ds rs := by
  simp [accepted, Nat.pos_iff_ne_zero.mp hn]

theorem mem_of_mem_accepted {x : DirEntry × Option Entry} {ds : List (DirEntry × Option Entry)}
    {rs : List (Except IoError Nat)} (h : x ∈ accepted ds rs) : x ∈ ds := by
  obtain ⟨⟨y, r⟩, hmem, rfl⟩ := List.mem_map.mp h
  exact (List.of_mem_zip (List.mem_filter.mp hmem).1).1

theorem addDirents_bytesWritten_le {c : Writer} {max : Nat} (ds : List (DirEntry × Option Entry))
    (hc : c.bytesWritten ≤ max) : (addDirents max c ds).2.bytesWritten ≤ max := by
  induction ds generalizing c with
  | nil => exact hc
  | cons x ds ih => exact ih (addDirent_bytesWritten_le x.1 x.2 hc)

/-- With room for `max` bytes, every call succeeds and the cursor gains the records of the
accepted entries, in order. -/
theorem addDirents_of_capacity {c : Writer} {max : Nat} (ds : List (DirEntry × Option Entry))
    (hcap : max ≤ c.capacity) (hc : c.bytesWritten ≤ max) :
    (∀ r ∈ (addDirents max c ds).1, ∃ n, r = .ok n) ∧
      (addDirents max c ds).2.written =
        c.written ++ (accepted ds (addDirents max c ds).1).flatMap fun x => direntSlices x.1 x.2 := by
  induction ds generalizing c with
  | nil => simp [addDirents, accepted]
  | cons x ds ih =>
    obtain ⟨d, e⟩ := x
    rcases addDirent_of_capacity d e hcap hc with ⟨h, -⟩ | ⟨h, hfit, hpos⟩
    · obtain ⟨hok, hw⟩ := ih hcap hc
      simp only [addDirents, h, accepted_cons_zero, List.mem_cons]
      refine ⟨?_, hw⟩
      rintro r (rfl | hr)
      · exact ⟨0, rfl⟩
      · exact hok r hr
    · have hsize : sizes (direntSlices d e) = recordLen d e := sizes_direntSlices d e
      have hcap' : max ≤ Writer.capacity ⟨c.avail - recordLen d e, c.written ++ direntSlices d e⟩ := by
        show max ≤ c.avail - recordLen d e + sizes (c.written ++ direntSlices d e)
        unfold Writer.capacity Writer.bytesWritten at *
        rw [sizes_append, hsize]
        omega
      have hc' : Writer.bytesWritten ⟨c.avail - recordLen d e, c.written ++ direntSlices d e⟩ ≤ max := by
        show sizes (c.written ++ direntSlices d e) ≤ max
        unfold Writer.bytesWritten at *
        rw [sizes_append, hsize]
        omega
      obtain ⟨hok, hw⟩ := ih hcap' hc'
      simp only [addDirents, h, accepted_cons_pos _ _ _ hpos, List.mem_cons, List.flatMap_cons]
      refine ⟨?_, by rw [hw, List.append_assoc]⟩
      rintro r (rfl | hr)
      · exact ⟨_, rfl⟩
      · exact hok r hr

/-- Fed through a cursor with room for `max` bytes and nothing written yet, `add_dirent` writes
at most `max` bytes, which read back as exactly the accepted entries, in order. -/
theorem addDirents_decode {c : Writer} {max : Nat} {plus : Bool} (ds : List (DirEntry × Option Entry))
    (hplus : ∀ x ∈ ds, x.2.isSome = plus) (hc : c.written = []) (hcap : max ≤ c.avail) :
    (addDirents max c ds).2.bytesWritten ≤ max ∧
      decodeDirents plus (addDirents max c ds).2.written =
        some ((accepted ds (addDirents max c ds).1).map fun x => x.1.record x.2) := by
  have hbw : c.bytesWritten = 0 := by simp [Writer.bytesWritten, hc]
  have hcap' : max ≤ c.capacity := by simp [Writer.capacity, hbw, hcap]
  refine ⟨addDirents_bytesWritten_le ds (by omega), ?_⟩
  rw [(addDirents_of_capacity ds hcap' (by omega)).2, hc, List.nil_append, decodeDirents]
  exact readDirents_flatMap _ (fun x hx => hplus x (mem_of_mem_accepted hx)) _ (Nat.le_refl _)

/-- Two entries of 32 bytes each into a cursor of 48: the first is taken, the second is refused. -/
theorem dirents_of_one_page_decode :
    (addDirents 48 ⟨48, []⟩ [(⟨2, 1, 8, "a"⟩, none), (⟨3, 2, 8, "b"⟩, none)]).2.bytesWritten ≤ 48 ∧
      decodeDirents false (addDirents 48 ⟨48, []⟩ [(⟨2, 1, 8, "a"⟩, none), (⟨3, 2, 8, "b"⟩, none)]).2.written =
        some ((accepted [(⟨2, 1, 8, "a"⟩, none), (⟨3, 2, 8, "b"⟩, none)]
          (addDirents 48 ⟨48, []⟩ [(⟨2, 1, 8, "a"⟩, none), (⟨3, 2, 8, "b"⟩, none)]).1).map
            fun x => x.1.record x.2) :=
  addDirents_decode _ (by simp) rfl (Nat.le_refl 48)

end Server

/-! ## A reply buffer of exactly the size asked for -/

/-- A file system whose directories list `entries`, fed to `add_entry` as the passthrough and
overlay file systems feed theirs: up to the first answer of 0, and an error after the first
entry ends the listing without one. -/
structure ListingFs where
  entries : List DirEntry

namespace ListingFs

def feed (add : Writer → DirEntry → Except IoError Nat × Writer) (first : Bool) :
    List DirEntry → Writer → Except IoError Unit × Writer
  | [], c => (.ok (), c)
  | d :: ds, c =>
    match add c d with
    | (.ok 0, c) => (.ok (), c)
    | (.ok _, c) => feed add false ds c
    | (.error e, c) => (if first then .error e else .ok (), c)

def call : (q : Request) → ListingFs → q.Response × ListingFs
  | .readdir _ _ _ _ _ add cursor, fs => (feed add true fs.entries cursor, fs)
  | q, fs => (q.defaultResponse, fs)

instance : FileSystem ListingFs where
  call := call
  idRemap _ ctx := .ok ctx

end ListingFs

namespace Server

open ExceptState

/-- The body of a `READDIR` of `size` bytes at offset 0. -/
def readdirIn (size : Nat) : List UInt8 := leBytes 0 8 ++ leBytes 0 8 ++ leBytes size 4 ++ leBytes 0 20

def shortReplyCtx : SrvContext := .new ⟨80, Opcode.readdir.code, 1, 1, 0, 0, 0⟩

/-- The entries `a`, and a name of 30 bytes. -/
def shortReplyEntries : List DirEntry :=
  [⟨1, 1, 8, "a"⟩, ⟨2, 2, 8, "bbbbbbbbbbbbbbbbbbbbbbbbbbbbbb"⟩]

/-- A directory of `shortReplyEntries`, read into a reply buffer of the 96 bytes asked for. -/
def shortReplySrv : Srv ListingFs := ⟨⟨shortReplyEntries⟩, ⟨7, 31⟩, readdirIn 96, ⟨96, []⟩⟩

theorem readdir_reply_keeps_rejected_dirent :
    ∃ e body,
      addDirents 96 ⟨80, []⟩ (shortReplyEntries.map (·, none)) = ([.ok 32, .error e], ⟨24, body⟩) ∧
      (run (readdir shortReplyCtx) shortReplySrv).1 = .ok 72 ∧
      (run (readdir shortReplyCtx) shortReplySrv).2.w.written = .outHeader ⟨72, 0, 1⟩ :: body ∧
      body = [.dirent ⟨1, 1, 1, 8⟩, .bytes [97], .bytes (List.replicate 7 0), .dirent ⟨2, 2, 30, 8⟩] ∧
      decodeDirents false body = none := by
  refine ⟨Writer.dataOutOfRange 24 30,
    [.dirent ⟨1, 1, 1, 8⟩, .bytes [97], .bytes (List.replicate 7 0), .dirent ⟨2, 2, 30, 8⟩], ?_⟩
  decide +kernel

end Server

end FuseBackend.Api
