import Mathlib.Data.List.Basic

/-!
# Splitting a list at an element

The first element of a list that satisfies a test splits the list into the part before it, with
no such element, the element, and the rest. `List.findIdx?` finds that element; the lemmas here
restate what it answers as that split, which is the form the decoders of names and records are
specified in. `List.splitOnP` cuts a list at every such element; it undoes the joining of pieces
that hold none (`splitOnP_intercalate`), so that pieces each written after one such element can be
read back apart (`flatMap_cons_inj`).
-/

namespace List

variable {α : Type} {p : α → Bool}

theorem findIdx?_eq_some_iff_append {l : List α} {i : Nat} :
    l.findIdx? p = some i ↔
      ∃ a x r, l = a ++ x :: r ∧ (∀ y ∈ a, p y = false) ∧ p x = true ∧ a.length = i := by
  induction l generalizing i with
  | nil => simp
  | cons x l ih =>
    rw [findIdx?_cons]
    by_cases hx : p x = true
    · simp only [hx, if_true, Option.some.injEq]
      constructor
      · rintro rfl
        exact ⟨[], x, l, rfl, by simp, hx, rfl⟩
      · rintro ⟨_ | ⟨y, a⟩, x', r, heq, hnone, -, rfl⟩
        · rfl
        · obtain ⟨rfl, -⟩ := List.cons.inj heq
          simp [hnone _ List.mem_cons_self] at hx
    · simp only [hx, Bool.false_eq_true, if_false, Option.map_eq_some_iff, ih]
      constructor
      · rintro ⟨j, ⟨a, x', r, rfl, hnone, hx', rfl⟩, rfl⟩
        refine ⟨x :: a, x', r, rfl, ?_, hx', rfl⟩
        simpa [hx] using hnone
      · rintro ⟨_ | ⟨y, a⟩, x', r, heq, hnone, hx', rfl⟩
        · obtain ⟨rfl, -⟩ := List.cons.inj heq
          exact absurd hx' hx
        · obtain ⟨rfl, rfl⟩ := List.cons.inj heq
          exact ⟨a.length, ⟨a, x', r, rfl, fun z hz => hnone z (List.mem_cons_of_mem _ hz), hx', rfl⟩,
            rfl⟩

/-- Splitting at the elements that satisfy `p` undoes joining with one such element, when no piece
holds one. -/
theorem splitOnP_intercalate {ls : List (List α)} {x : α} (hx : p x = true)
    (hls : ∀ l ∈ ls, ∀ y ∈ l, p y = false) (hne : ls ≠ []) :
    ([x].intercalate ls).splitOnP p = ls := by
  induction ls with
  | nil => exact absurd rfl hne
  | cons hd tl ih =>
    match tl with
    | [] => simpa using splitOnP_eq_singleton (hls hd mem_cons_self)
    | t :: tl =>
      rw [intercalate_cons_cons, append_assoc, singleton_append,
        splitOnP_append_cons_of_forall_mem (hls hd mem_cons_self) x hx,
        ih (fun l hl => hls l (mem_cons_of_mem _ hl)) (cons_ne_nil _ _)]

theorem drop_length_succ_append_cons (a r : List α) (x : α) : (a ++ x :: r).drop (a.length + 1) = r := by
  simp

theorem flatMap_cons_eq_cons_intercalate (x : α) :
    ∀ {ls : List (List α)}, ls ≠ [] → ls.flatMap (x :: ·) = x :: [x].intercalate ls
  | [], h => absurd rfl h
  | [l], _ => by simp
  | l :: m :: ls, _ => by
    rw [flatMap_cons, flatMap_cons_eq_cons_intercalate x (cons_ne_nil m ls), intercalate_cons_cons]
    simp

/-- Pieces joined each after one separator come back apart when no piece holds a separator. -/
theorem flatMap_cons_inj {x : α} (hx : p x = true) {ls ms : List (List α)}
    (hls : ∀ l ∈ ls, ∀ y ∈ l, p y = false) (hms : ∀ l ∈ ms, ∀ y ∈ l, p y = false)
    (h : ls.flatMap (x :: ·) = ms.flatMap (x :: ·)) : ls = ms := by
  by_cases hl : ls = [] <;> by_cases hm : ms = []
  · rw [hl, hm]
  · subst hl
    rw [flatMap_cons_eq_cons_intercalate x hm] at h
    simp at h
  · subst hm
    rw [flatMap_cons_eq_cons_intercalate x hl] at h
    simp at h
  · rw [flatMap_cons_eq_cons_intercalate x hl, flatMap_cons_eq_cons_intercalate x hm] at h
    have h' := congrArg (splitOnP p) (List.cons.inj h).2
    rwa [splitOnP_intercalate hx hls hl, splitOnP_intercalate hx hms hm] at h'
end List
