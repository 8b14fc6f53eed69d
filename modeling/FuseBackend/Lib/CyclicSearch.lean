import Mathlib.Data.List.Basic

/-!
# Searching `[1, n]` round from a start

A search of `[1, n]` that starts at `s` and goes up, wrapping from `n` back to 1, tries the
numbers in the order `cyclicFrom n s 0, cyclicFrom n s 1, …`, that is `s, s + 1, …, n, 1, …,
s - 1`, a start of `n + 1` counting as 1. `search` is such a loop: each round takes a number past
`n` back to 1, tests it, and goes on from the next one.

From a start in `[1, n + 1]` the rounds of `search` try the numbers in that order
(`search_eq_find?`), so it returns the first that passes (`search_eq_some_iff`). The first `n`
numbers of the order are all of `[1, n]` (`exists_cyclicFrom_eq`), so `n` rounds fail exactly when
no number of `[1, n]` passes (`search_eq_none_iff_forall`).
-/

namespace CyclicSearch

/-- The `j`-th number of `[1, n]` in cyclic order from `s`. -/
def cyclicFrom (n s j : Nat) : Nat := (s - 1 + j) % n + 1

/-- A number past `n` starts again at 1. -/
def wrap (n x : Nat) : Nat := if x > n then 1 else x

/-- Up to `k` rounds from `x`: wrap the number, test it, and go on from the next one. -/
def search (n : Nat) (p : Nat → Bool) (x : Nat) : Nat → Option Nat
  | 0 => none
  | k + 1 => if p (wrap n x) then some (wrap n x) else search n p (wrap n x + 1) k

variable {n s : Nat}

theorem one_le_cyclicFrom (j : Nat) : 1 ≤ cyclicFrom n s j := Nat.le_add_left 1 _

theorem cyclicFrom_le (hn : 0 < n) (j : Nat) : cyclicFrom n s j ≤ n := Nat.mod_lt _ hn

/-- Going on from the `i`-th number keeps to the same order. -/
theorem cyclicFrom_cyclicFrom_add_one (i j : Nat) :
    cyclicFrom n (cyclicFrom n s i + 1) j = cyclicFrom n s (i + j + 1) := by
  unfold cyclicFrom
  rw [show (s - 1 + i) % n + 1 + 1 - 1 + j = (s - 1 + i) % n + (j + 1) by omega, Nat.mod_add_mod,
    show s - 1 + i + (j + 1) = s - 1 + (i + j + 1) by omega]

/-- From a start in `[1, n + 1]` the first round tries the first number of the order. -/
theorem wrap_eq_cyclicFrom_zero (hs : 1 ≤ s) (hsn : s ≤ n + 1) : wrap n s = cyclicFrom n s 0 := by
  unfold wrap cyclicFrom
  split_ifs with h
  · rw [show s - 1 + 0 = n by omega, Nat.mod_self]
  · rw [Nat.add_zero, Nat.mod_eq_of_lt (by omega)]
    omega

/-- The first `n` numbers of the order are all of `[1, n]`. -/
theorem exists_cyclicFrom_eq (hn : 0 < n) {i : Nat} (hi : 1 ≤ i) (hin : i ≤ n) :
    ∃ j < n, cyclicFrom n s j = i := by
  refine ⟨(i - 1 + n - (s - 1) % n) % n, Nat.mod_lt _ hn, ?_⟩
  unfold cyclicFrom
  -- the start less its remainder is a multiple of `n`, and the rest is `i - 1` past one more
  have hr : (s - 1) % n < n := Nat.mod_lt _ hn
  have hle : (s - 1) % n ≤ s - 1 := Nat.mod_le _ _
  have hmul : (s - 1 - (s - 1) % n) % n = 0 := Nat.mod_eq_zero_of_dvd (Nat.dvd_sub_mod _)
  rw [Nat.add_mod_mod,
    show s - 1 + (i - 1 + n - (s - 1) % n) = s - 1 - (s - 1) % n + (i - 1 + n) by omega,
    Nat.add_mod, hmul, Nat.zero_add, Nat.mod_mod, Nat.add_mod_right, Nat.mod_eq_of_lt (by omega)]
  omega

/-- The rounds of `search` try the numbers in cyclic order from the start, one each. -/
theorem search_eq_find? (hn : 0 < n) (p : Nat → Bool) (k : Nat) (hs : 1 ≤ s) (hsn : s ≤ n + 1) :
    search n p s k = ((List.range k).map (cyclicFrom n s)).find? p := by
  induction k generalizing s with
  | zero => rfl
  | succ k ih =>
    have hw := wrap_eq_cyclicFrom_zero hs hsn
    have hle := cyclicFrom_le hn 0 (s := s)
    have hrest : (List.range k).map (cyclicFrom n (cyclicFrom n s 0 + 1)) =
        (List.range k).map (fun j => cyclicFrom n s (j + 1)) := by
      apply List.map_congr_left
      intro j _
      rw [cyclicFrom_cyclicFrom_add_one, Nat.zero_add]
    rw [List.range_succ_eq_map, List.map_cons, List.map_map, List.find?_cons]
    simp only [search, hw]
    cases hp : p (cyclicFrom n s 0) with
    | true => rfl
    | false =>
      simp only [Bool.false_eq_true, if_false]
      rw [ih (by omega) (by omega), hrest]
      rfl

section Answers

variable (hn : 0 < n) (hs : 1 ≤ s) (hsn : s ≤ n + 1) {p : Nat → Bool} {k : Nat}
include hn hs hsn

/-- `search` returns the first number in cyclic order that passes. -/
theorem search_eq_some_iff {i : Nat} :
    search n p s k = some i ↔
      ∃ j < k, i = cyclicFrom n s j ∧ p i ∧ ∀ j' < j, p (cyclicFrom n s j') = false := by
  rw [search_eq_find? hn p k hs hsn, List.find?_map, Option.map_eq_some_iff]
  constructor
  · rintro ⟨j, hj, rfl⟩
    obtain ⟨hpj, hmem, hfirst⟩ := List.find?_range_eq_some.mp hj
    refine ⟨j, List.mem_range.mp hmem, rfl, hpj, fun j' hj' => ?_⟩
    simpa using hfirst j' hj'
  · rintro ⟨j, hjk, rfl, hpj, hfirst⟩
    refine ⟨j, List.find?_range_eq_some.mpr ⟨hpj, List.mem_range.mpr hjk, fun j' hj' => ?_⟩, rfl⟩
    simpa using hfirst j' hj'

/-- `search` fails exactly when no number it tries passes. -/
theorem search_eq_none_iff : search n p s k = none ↔ ∀ j < k, p (cyclicFrom n s j) = false := by
  rw [search_eq_find? hn p k hs hsn, List.find?_eq_none]
  constructor
  · intro h j hj
    simpa using h _ (List.mem_map_of_mem (List.mem_range.mpr hj))
  · intro h x hx
    obtain ⟨j, hj, rfl⟩ := List.mem_map.mp hx
    simpa using h j (List.mem_range.mp hj)

/-- `n` rounds fail exactly when no number of `[1, n]` passes. -/
theorem search_eq_none_iff_forall : search n p s n = none ↔ ∀ i, 1 ≤ i → i ≤ n → p i = false := by
  rw [search_eq_none_iff hn hs hsn]
  constructor
  · intro h i hi hin
    obtain ⟨j, hj, rfl⟩ := exists_cyclicFrom_eq (s := s) hn hi hin
    exact h j hj
  · intro h j _
    exact h _ (one_le_cyclicFrom j) (cyclicFrom_le hn j)

end Answers

end CyclicSearch
