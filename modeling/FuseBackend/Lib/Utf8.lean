import Mathlib.Tactic.SplitIfs

/-!
# UTF-8 encoding and lossy decoding

`encode` writes characters as UTF-8. `decodeLossy` reads bytes back as Rust's
`String::from_utf8_lossy` does: every maximal prefix of a well-formed sequence that is not
completed (the "maximal subpart" practice of the Unicode standard, Table 3-7) becomes one
U+FFFD, and decoding goes on at the byte after it.

`decodeLossy_encode`: decoding what was encoded gives the characters back. The converse fails:
`decodeLossy` maps every ill-formed sequence to U+FFFD, so distinct byte strings decode alike.
-/

namespace Utf8

/-- U+FFFD REPLACEMENT CHARACTER. -/
def replacement : Char := Char.ofNat 0xFFFD

def encode (cs : List Char) : List UInt8 := cs.flatMap String.utf8EncodeChar

/-- A continuation byte `10xxxxxx`. -/
def isCont (b : UInt8) : Bool := 0x80 ≤ b.toNat && b.toNat ≤ 0xBF

/-- The length of a sequence that `b` leads, `0` if `b` leads none. -/
def width (b : UInt8) : Nat :=
  if b.toNat < 0x80 then 1
  else if b.toNat < 0xC2 then 0
  else if b.toNat < 0xE0 then 2
  else if b.toNat < 0xF0 then 3
  else if b.toNat < 0xF5 then 4
  else 0

/-- Whether `c` may follow the lead byte `b`: no overlong form, surrogate, or value above
U+10FFFF. -/
def secondOk (b c : UInt8) : Bool :=
  if b.toNat = 0xE0 then 0xA0 ≤ c.toNat && c.toNat ≤ 0xBF
  else if b.toNat = 0xED then 0x80 ≤ c.toNat && c.toNat ≤ 0x9F
  else if b.toNat = 0xF0 then 0x90 ≤ c.toNat && c.toNat ≤ 0xBF
  else if b.toNat = 0xF4 then 0x80 ≤ c.toNat && c.toNat ≤ 0x8F
  else isCont c

def decodeLossy : List UInt8 → List Char
  | [] => []
  | b :: bs =>
    if width b = 1 then Char.ofNat b.toNat :: decodeLossy bs
    else if width b = 0 then replacement :: decodeLossy bs
    else match bs with
      | [] => [replacement]
      | c :: cs =>
        if !secondOk b c then replacement :: decodeLossy (c :: cs)
        else if width b = 2 then Char.ofNat (b.toNat % 32 * 64 + c.toNat % 64) :: decodeLossy cs
        else match cs with
          | [] => [replacement]
          | d :: ds =>
            if !isCont d then replacement :: decodeLossy (d :: ds)
            else if width b = 3 then
              Char.ofNat (b.toNat % 16 * 4096 + c.toNat % 64 * 64 + d.toNat % 64) :: decodeLossy ds
            else match ds with
              | [] => [replacement]
              | e :: es =>
                if !isCont e then replacement :: decodeLossy (e :: es)
                else
                  Char.ofNat (b.toNat % 8 * 262144 + c.toNat % 64 * 4096 + d.toNat % 64 * 64 +
                    e.toNat % 64) :: decodeLossy es

/-- `std::str::from_utf8`: the characters of a well-formed byte string, which is one that the
encoding of its lossy decoding gives back. -/
def decode (bs : List UInt8) : Option (List Char) :=
  if encode (decodeLossy bs) = bs then some (decodeLossy bs) else none

@[simp] theorem encode_nil : encode [] = [] := rfl

@[simp] theorem encode_cons (c : Char) (cs : List Char) :
    encode (c :: cs) = String.utf8EncodeChar c ++ encode cs := rfl

/-! ## One well-formed sequence at a time -/

theorem decodeLossy_one {b : UInt8} (bs : List UInt8) (hw : width b = 1) :
    decodeLossy (b :: bs) = Char.ofNat b.toNat :: decodeLossy bs := by
  rw [decodeLossy.eq_def]
  simp [hw]

theorem decodeLossy_two {b c : UInt8} (bs : List UInt8) (hw : width b = 2)
    (hc : secondOk b c = true) :
    decodeLossy (b :: c :: bs) = Char.ofNat (b.toNat % 32 * 64 + c.toNat % 64) :: decodeLossy bs := by
  rw [decodeLossy.eq_def]
  simp [hw, hc]

theorem decodeLossy_three {b c d : UInt8} (bs : List UInt8) (hw : width b = 3)
    (hc : secondOk b c = true) (hd : isCont d = true) :
    decodeLossy (b :: c :: d :: bs) =
      Char.ofNat (b.toNat % 16 * 4096 + c.toNat % 64 * 64 + d.toNat % 64) :: decodeLossy bs := by
  rw [decodeLossy.eq_def]
  simp [hw, hc, hd]

theorem decodeLossy_four {b c d e : UInt8} (bs : List UInt8) (hw : width b = 4)
    (hc : secondOk b c = true) (hd : isCont d = true) (he : isCont e = true) :
    decodeLossy (b :: c :: d :: e :: bs) =
      Char.ofNat (b.toNat % 8 * 262144 + c.toNat % 64 * 4096 + d.toNat % 64 * 64 + e.toNat % 64) ::
        decodeLossy bs := by
  rw [decodeLossy.eq_def]
  simp [hw, hc, hd, he]

/-! ## Decoding inverts encoding -/

theorem toNat_ofNat_lt {n : Nat} (h : n < 256) : (UInt8.ofNat n).toNat = n := by
  simp [Nat.mod_eq_of_lt h]

/-- A character's scalar value is below the surrogates or above them and at most U+10FFFF. -/
theorem toNat_valid (c : Char) : c.toNat < 0xD800 ∨ (0xDFFF < c.toNat ∧ c.toNat < 0x110000) :=
  c.valid

theorem width_ofNat_one {n : Nat} (h : n < 0x80) : width (UInt8.ofNat n) = 1 := by
  unfold width
  rw [toNat_ofNat_lt (by omega), if_pos h]

theorem width_ofNat_two {n : Nat} (h1 : 0xC2 ≤ n) (h2 : n < 0xE0) : width (UInt8.ofNat n) = 2 := by
  unfold width
  rw [toNat_ofNat_lt (by omega), if_neg (by omega), if_neg (by omega), if_pos h2]

theorem width_ofNat_three {n : Nat} (h1 : 0xE0 ≤ n) (h2 : n < 0xF0) : width (UInt8.ofNat n) = 3 := by
  unfold width
  rw [toNat_ofNat_lt (by omega), if_neg (by omega), if_neg (by omega), if_neg (by omega), if_pos h2]

theorem width_ofNat_four {n : Nat} (h1 : 0xF0 ≤ n) (h2 : n < 0xF5) : width (UInt8.ofNat n) = 4 := by
  unfold width
  rw [toNat_ofNat_lt (by omega), if_neg (by omega), if_neg (by omega), if_neg (by omega),
    if_neg (by omega), if_pos h2]

/-- The low six bits of a value, as a continuation byte. -/
theorem isCont_cont (v : Nat) : isCont (UInt8.ofNat (v % 64 + 128)) = true := by
  unfold isCont
  rw [toNat_ofNat_lt (by omega)]
  simp only [Bool.and_eq_true, decide_eq_true_eq]
  omega

/-- After the lead byte of a two-byte sequence any continuation byte may follow. -/
theorem secondOk_ofNat_two {n : Nat} (h1 : 0xC2 ≤ n) (h2 : n < 0xE0) (c : UInt8) :
    secondOk (UInt8.ofNat n) c = isCont c := by
  unfold secondOk
  rw [toNat_ofNat_lt (by omega), if_neg (by omega), if_neg (by omega), if_neg (by omega),
    if_neg (by omega)]

theorem decodeLossy_encodeChar (c : Char) (bs : List UInt8) :
    decodeLossy (String.utf8EncodeChar c ++ bs) = c :: decodeLossy bs := by
  have hv : c.val.toNat < 0xD800 ∨ (0xDFFF < c.val.toNat ∧ c.val.toNat < 0x110000) := toNat_valid c
  have hc : Char.ofNat c.val.toNat = c := Char.ofNat_toNat c
  simp only [String.utf8EncodeChar]
  generalize c.val.toNat = v at *
  subst hc
  split_ifs with h1 h2 h3
  · have e1 := toNat_ofNat_lt (show v < 256 by omega)
    rw [List.singleton_append, decodeLossy_one _ (width_ofNat_one (by omega)), e1]
  · have e1 := toNat_ofNat_lt (show v / 64 % 32 + 192 < 256 by omega)
    have e2 := toNat_ofNat_lt (show v % 64 + 128 < 256 by omega)
    have hval : (v / 64 % 32 + 192) % 32 * 64 + (v % 64 + 128) % 64 = v := by omega
    rw [List.cons_append, List.singleton_append,
      decodeLossy_two _ (width_ofNat_two (by omega) (by omega))
        ((secondOk_ofNat_two (by omega) (by omega) _).trans (isCont_cont v)),
      e1, e2, hval]
  · have e1 := toNat_ofNat_lt (show v / 4096 % 16 + 224 < 256 by omega)
    have e2 := toNat_ofNat_lt (show v / 64 % 64 + 128 < 256 by omega)
    have e3 := toNat_ofNat_lt (show v % 64 + 128 < 256 by omega)
    -- after `E0` and `ED` the second byte keeps clear of overlong forms and surrogates
    have hc : secondOk (UInt8.ofNat (v / 4096 % 16 + 224)) (UInt8.ofNat (v / 64 % 64 + 128)) := by
      unfold secondOk isCont
      rw [e1, e2]
      split_ifs <;> simp <;> omega
    have hval : (v / 4096 % 16 + 224) % 16 * 4096 + (v / 64 % 64 + 128) % 64 * 64 +
        (v % 64 + 128) % 64 = v := by omega
    rw [List.cons_append, List.cons_append, List.singleton_append,
      decodeLossy_three _ (width_ofNat_three (by omega) (by omega)) hc (isCont_cont v),
      e1, e2, e3, hval]
  · have e1 := toNat_ofNat_lt (show v / 262144 % 8 + 240 < 256 by omega)
    have e2 := toNat_ofNat_lt (show v / 4096 % 64 + 128 < 256 by omega)
    have e3 := toNat_ofNat_lt (show v / 64 % 64 + 128 < 256 by omega)
    have e4 := toNat_ofNat_lt (show v % 64 + 128 < 256 by omega)
    -- after `F0` and `F4` the second byte keeps clear of overlong forms and values past U+10FFFF
    have hc : secondOk (UInt8.ofNat (v / 262144 % 8 + 240)) (UInt8.ofNat (v / 4096 % 64 + 128)) := by
      unfold secondOk isCont
      rw [e1, e2]
      split_ifs <;> simp <;> omega
    have hval : (v / 262144 % 8 + 240) % 8 * 262144 + (v / 4096 % 64 + 128) % 64 * 4096 +
        (v / 64 % 64 + 128) % 64 * 64 + (v % 64 + 128) % 64 = v := by omega
    rw [List.cons_append, List.cons_append, List.cons_append, List.singleton_append,
      decodeLossy_four _ (width_ofNat_four (by omega) (by omega)) hc (isCont_cont (v / 64))
        (isCont_cont v),
      e1, e2, e3, e4, hval]

theorem decodeLossy_encode (cs : List Char) : decodeLossy (encode cs) = cs := by
  induction cs with
  | nil => rfl
  | cons c cs ih => rw [encode_cons, decodeLossy_encodeChar, ih]

end Utf8
