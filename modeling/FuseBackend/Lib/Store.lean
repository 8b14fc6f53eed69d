import Mathlib.Logic.Function.Basic
import Mathlib.Data.List.Basic

/-!
# Storing a list of values at a list of addresses

A memory is a function from addresses to values. `storeAll m as vs` writes `vs` at `as`, pairwise
and in order, later writes winning. The lemmas say how two stores compose, what a store leaves
alone, and what it puts where when the addresses are distinct.
-/

namespace Store

variable {α β : Type} [DecidableEq α]

/-- Writes `vs` at `as`, one pair at a time, stopping at the shorter list. -/
def storeAll (m : α → β) : List α → List β → α → β
  | a :: as, v :: vs => storeAll (Function.update m a v) as vs
  | _, _ => m

@[simp] theorem storeAll_nil_left (m : α → β) (vs : List β) : storeAll m [] vs = m := rfl

@[simp] theorem storeAll_nil_right (m : α → β) (as : List α) : storeAll m as [] = m := by
  cases as <;> rfl

@[simp] theorem storeAll_cons (m : α → β) (a : α) (as : List α) (v : β) (vs : List β) :
    storeAll m (a :: as) (v :: vs) = storeAll (Function.update m a v) as vs := rfl

/-- Two stores of matching lengths compose into the store of the concatenations. -/
theorem storeAll_append (m : α → β) {as₁ : List α} {vs₁ : List β} (h : as₁.length = vs₁.length)
    (as₂ : List α) (vs₂ : List β) :
    storeAll m (as₁ ++ as₂) (vs₁ ++ vs₂) = storeAll (storeAll m as₁ vs₁) as₂ vs₂ := by
  induction as₁ generalizing m vs₁ with
  | nil =>
    have : vs₁ = [] := List.eq_nil_of_length_eq_zero h.symm
    subst this
    rfl
  | cons a as ih =>
    cases vs₁ with
    | nil => simp at h
    | cons v vs =>
      simp only [List.length_cons, Nat.add_right_cancel_iff] at h
      exact ih (Function.update m a v) h

/-- A store reads only as many addresses as it has values. -/
theorem storeAll_take_length (m : α → β) (as : List α) (vs : List β) :
    storeAll m (as.take vs.length) vs = storeAll m as vs := by
  induction as generalizing m vs with
  | nil => simp
  | cons a as ih =>
    cases vs with
    | nil => simp
    | cons v vs => simp [ih]

/-- Storing `vs₁ ++ vs₂` at `as` stores `vs₁` first, then `vs₂` at the addresses after them. -/
theorem storeAll_append_values (m : α → β) (as : List α) {vs₁ : List β} (vs₂ : List β)
    (h : vs₁.length ≤ as.length) :
    storeAll m as (vs₁ ++ vs₂) = storeAll (storeAll m as vs₁) (as.drop vs₁.length) vs₂ := by
  have hlen : (as.take vs₁.length).length = vs₁.length := by simp [h]
  conv_lhs => rw [← List.take_append_drop vs₁.length as]
  rw [storeAll_append m hlen, storeAll_take_length]

/-- An address the store does not name keeps its value. -/
theorem storeAll_of_not_mem (m : α → β) {as : List α} (vs : List β) {x : α} (hx : x ∉ as) :
    storeAll m as vs x = m x := by
  induction as generalizing m vs with
  | nil => rfl
  | cons a as ih =>
    cases vs with
    | nil => rfl
    | cons v vs =>
      have hxa : x ≠ a := fun h => hx (h ▸ List.mem_cons_self)
      have hxs : x ∉ as := fun h => hx (List.mem_cons_of_mem a h)
      rw [storeAll_cons, ih _ _ hxs, Function.update_of_ne hxa]

/-- With distinct addresses, the `i`-th address holds the `i`-th value. -/
theorem storeAll_getElem (m : α → β) {as : List α} {vs : List β} (hnd : as.Nodup)
    {i : Nat} (hi : i < as.length) (hv : i < vs.length) :
    storeAll m as vs as[i] = vs[i] := by
  induction as generalizing m vs i with
  | nil => simp at hi
  | cons a as ih =>
    cases vs with
    | nil => simp at hv
    | cons v vs =>
      obtain ⟨hna, hnd'⟩ := List.nodup_cons.mp hnd
      cases i with
      | zero =>
        rw [storeAll_cons, List.getElem_cons_zero, storeAll_of_not_mem _ _ hna]
        simp
      | succ i =>
        simp only [List.getElem_cons_succ, storeAll_cons]
        exact ih _ hnd' (by simpa using hi) (by simpa using hv)

end Store
