import Mathlib.Algebra.Group.Nat.Defs
import Mathlib.Algebra.Group.Basic

/-!
# Shifting a range of values

An id mapping moves the values of one interval `[src, src + range)` to `dst` on, and keeps every
other value: `shift src dst range x`. The arithmetic is that of an additive group, so on machine
words the addition wraps as the words do. The shift from `dst` back to `src` undoes one whose
image stays in `[dst, dst + range)`.

`shiftChecked` is the same test and move on the values of `w`-bit words as a debug build
evaluates them, where an addition or a subtraction that leaves `[0, 2 ^ w)` panics.
-/

namespace RangeShift

variable {α : Type} [AddCommGroup α] [LE α] [LT α] [DecidableRel (α := α) (· ≤ ·)]
  [DecidableRel (α := α) (· < ·)]

/-- Moves `x` by `dst - src` when `src ≤ x < src + range`. -/
def shift (src dst range x : α) : α :=
  if src ≤ x ∧ x < src + range then x + (dst - src) else x

/-- `x` lies in the interval the shift moves. -/
def InRange (src range x : α) : Prop := src ≤ x ∧ x < src + range

instance (src range x : α) : Decidable (InRange src range x) :=
  inferInstanceAs (Decidable (_ ∧ _))

variable {src dst range x : α}

theorem shift_of_inRange (h : InRange src range x) : shift src dst range x = x + (dst - src) :=
  if_pos h

@[simp] theorem shift_self (src range x : α) : shift src src range x = x := by
  unfold shift
  split <;> simp

/-- Shifting back undoes a shift whose image lands in the target interval. -/
theorem shift_shift_back (hx : InRange src range x) (hy : InRange dst range (x + (dst - src))) :
    shift dst src range (shift src dst range x) = x := by
  rw [shift_of_inRange hx, shift_of_inRange hy, add_assoc, sub_add_sub_cancel, sub_self, add_zero]

end RangeShift

namespace RangeShift

/-! ## As a debug build evaluates it -/

/-- The test and the move of `shift` on the values of `w`-bit words, in the code's order, with
`none` for a panic on overflow: `src + range` is computed only once `src ≤ x` holds, and
`dst - src` and the sum only once `x` lies in the interval. -/
def shiftChecked (w src dst range x : Nat) : Option Nat :=
  if src ≤ x then
    if 2 ^ w ≤ src + range then none
    else if x < src + range then
      if dst < src then none
      else if 2 ^ w ≤ x + (dst - src) then none
      else some (x + (dst - src))
    else some x
  else some x

theorem shiftChecked_eq_none_iff {w src dst range x : Nat} :
    shiftChecked w src dst range x = none ↔
      src ≤ x ∧ (2 ^ w ≤ src + range ∨ x < src + range ∧ (dst < src ∨ 2 ^ w ≤ x + (dst - src))) := by
  unfold shiftChecked
  split_ifs <;> simp only [true_iff, false_iff] <;> omega

end RangeShift
