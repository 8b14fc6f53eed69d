import Mathlib.Data.List.AList

/-!
# Lookups in an association list with one value type

After an insertion, an erasure or a replacement, a lookup either hits the key that was changed
or sees the list as it was. Stated as one `if`, this is the form the invariant proofs split on.
-/

namespace AList

variable {α β : Type} [DecidableEq α]

theorem lookup_insert_ite (s : AList (fun _ : α => β)) (a k : α) (b : β) :
    (s.insert a b).lookup k = if k = a then some b else s.lookup k := by
  by_cases h : k = a
  · subst h
    simp [lookup_insert]
  · simp [lookup_insert_ne h, h]

theorem lookup_erase_ite (s : AList (fun _ : α => β)) (a k : α) :
    (s.erase a).lookup k = if k = a then none else s.lookup k := by
  by_cases h : k = a
  · subst h
    simp [lookup_erase]
  · simp [lookup_erase_ne h, h]

/-- Replacing the value of a key the list holds changes the lookup of that key only. -/
theorem lookup_replace_ite {s : AList (fun _ : α => β)} {a : α} (b : β) (k : α) (h : a ∈ s) :
    (s.replace a b).lookup k = if k = a then some b else s.lookup k := by
  obtain ⟨l, hl⟩ := s
  simp only [replace, lookup, mem_keys, keys, List.kreplace] at h ⊢
  induction l with
  | nil => simp at h
  | cons x l ih =>
    obtain ⟨c, v⟩ := x
    obtain ⟨hx, hl⟩ := List.nodupKeys_cons.mp hl
    rw [List.lookmap_cons]
    by_cases hac : a = c
    · subst hac
      rw [if_pos rfl]
      dsimp only
      by_cases hk : k = a
      · rw [hk, if_pos rfl]
        exact List.dlookup_cons_eq l a b
      · rw [if_neg hk, List.dlookup_cons_ne l (⟨a, b⟩ : Sigma fun _ : α => β) hk,
          List.dlookup_cons_ne l (⟨a, v⟩ : Sigma fun _ : α => β) hk]
    · have ha : a ∈ l.keys := by simpa [hac] using h
      rw [if_neg hac]
      dsimp only
      by_cases hk : k = c
      · subst hk
        simp [Ne.symm hac]
      · rw [List.dlookup_cons_ne _ (⟨c, v⟩ : Sigma fun _ : α => β) hk,
          List.dlookup_cons_ne _ (⟨c, v⟩ : Sigma fun _ : α => β) hk, ih hl ha]

/-- An entry after a replacement is the new one or was there before. -/
theorem mem_entries_replace {s : AList (fun _ : α => β)} {a : α} {b : β} {x : Sigma fun _ : α => β}
    (h : x ∈ (s.replace a b).entries) : x = ⟨a, b⟩ ∨ x ∈ s.entries := by
  obtain ⟨l, hl⟩ := s
  simp only [replace, List.kreplace] at h ⊢
  clear hl
  induction l with
  | nil => simp at h
  | cons y l ih =>
    rw [List.lookmap_cons] at h
    split at h
    · rcases List.mem_cons.mp h with rfl | hx
      · exact .inr List.mem_cons_self
      · exact (ih hx).imp_right (List.mem_cons_of_mem _)
    · split_ifs at * with hy
      simp only [Option.some.injEq] at *
      rcases List.mem_cons.mp h with rfl | hx
      · exact .inl (by simp_all)
      · exact .inr (List.mem_cons_of_mem _ hx)

/-- An entry after an insertion is the new one or was there before. -/
theorem mem_entries_insert {s : AList (fun _ : α => β)} {a : α} {b : β} {x : Sigma fun _ : α => β}
    (h : x ∈ (s.insert a b).entries) : x = ⟨a, b⟩ ∨ x ∈ s.entries := by
  rw [entries_insert] at h
  rcases List.mem_cons.mp h with rfl | hx
  · exact .inl rfl
  · exact .inr ((List.kerase_sublist a s.entries).subset hx)

end AList
