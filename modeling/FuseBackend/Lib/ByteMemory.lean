import Mathlib.Data.List.Basic

/-!
# Memory addressed by numbers

A memory gives a value at every address. `window mem a n` reads the `n` values from `a` on, and
`store mem a vs` writes `vs` from `a` on. A window over a store reads back what was stored
(`window_store_self`).
-/

namespace ByteMemory

variable {α : Type}

def window (mem : Nat → α) (a n : Nat) : List α := (List.range n).map fun i => mem (a + i)

def store (mem : Nat → α) (a : Nat) (vs : List α) : Nat → α :=
  fun x => if a ≤ x then vs[x - a]?.getD (mem x) else mem x

variable {mem : Nat → α} {a b n : Nat} {vs : List α}

@[simp] theorem length_window : (window mem a n).length = n := by simp [window]

theorem getElem_window {i : Nat} (hi : i < (window mem a n).length) :
    (window mem a n)[i] = mem (a + i) := by
  simp [window]

@[simp] theorem store_nil (mem : Nat → α) (a : Nat) : store mem a [] = mem := by
  funext x
  simp [store]

theorem store_of_mem {i : Nat} (hi : i < vs.length) : store mem a vs (a + i) = vs[i] := by
  simp [store, hi]

/-- The window over the stored values reads them back. -/
theorem window_store_self : window (store mem a vs) a vs.length = vs := by
  apply List.ext_getElem (by simp)
  intro i h₁ h₂
  rw [getElem_window, store_of_mem h₂]

end ByteMemory
