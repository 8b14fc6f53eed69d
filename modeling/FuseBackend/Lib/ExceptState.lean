import Mathlib.Logic.Basic
import Mathlib.Data.List.Forall2

/-!
# Triples for computations that fail over a state that survives failure

A computation of `ExceptT ε (StateM σ)` reads and writes a state and may stop with an error; the
state it reached stays. `Triple P m Q E` says that from every state satisfying `P`, `m` returns a
value `a` in a state satisfying `Q a`, or fails with `e` in a state satisfying `E e`. Such
computations always terminate, so the triple is one of total correctness.

The rules are those of Hoare logic with exceptions: `pure` and `throw`, sequencing through `bind`,
the state operations, the case splits of `if` and `match`, `tryCatch`, and consequence.
-/

namespace ExceptState

variable {ε σ α β : Type}

/-- The outcome of running `m` from `s`. -/
def run (m : ExceptT ε (StateM σ) α) (s : σ) : Except ε α × σ := m.run.run s

@[simp] theorem run_pure (a : α) (s : σ) :
    run (pure a : ExceptT ε (StateM σ) α) s = (.ok a, s) := rfl

@[simp] theorem run_throw (e : ε) (s : σ) :
    run (throw e : ExceptT ε (StateM σ) α) s = (.error e, s) := rfl

@[simp] theorem run_get (s : σ) : run (get : ExceptT ε (StateM σ) σ) s = (.ok s, s) := rfl

@[simp] theorem run_set (s s' : σ) :
    run (set s' : ExceptT ε (StateM σ) PUnit) s = (.ok ⟨⟩, s') := rfl

@[simp] theorem run_modify (f : σ → σ) (s : σ) :
    run (modify f : ExceptT ε (StateM σ) PUnit) s = (.ok ⟨⟩, f s) := rfl

theorem run_bind (m : ExceptT ε (StateM σ) α) (f : α → ExceptT ε (StateM σ) β) (s : σ) :
    run (m >>= f) s =
      match run m s with
      | (.ok a, s') => run (f a) s'
      | (.error e, s') => (.error e, s') := by
  simp only [run, ExceptT.run_bind, StateT.run_bind]
  rcases m.run.run s with ⟨_ | a, s'⟩ <;> rfl

theorem run_map (g : α → β) (m : ExceptT ε (StateM σ) α) (s : σ) :
    run (g <$> m) s =
      match run m s with
      | (.ok a, s') => (.ok (g a), s')
      | (.error e, s') => (.error e, s') := by
  rw [map_eq_pure_bind, run_bind]
  rcases run m s with ⟨_ | a, s'⟩ <;> rfl

theorem run_tryCatch (m : ExceptT ε (StateM σ) α) (h : ε → ExceptT ε (StateM σ) α) (s : σ) :
    run (tryCatch m h) s =
      match run m s with
      | (.ok a, s') => (.ok a, s')
      | (.error e, s') => run (h e) s' := by
  show (ExceptT.tryCatch m h).run.run s = _
  simp only [run, ExceptT.tryCatch, ExceptT.run_mk, StateT.run_bind]
  change _ = match (StateT.run m s : Except ε α × σ) with
      | (Except.ok a, s') => (Except.ok a, s')
      | (Except.error e, s') => StateT.run (h e) s'
  rcases StateT.run m s with ⟨_ | a, s'⟩ <;> rfl

theorem run_bind_of_ok {m : ExceptT ε (StateM σ) α} {f : α → ExceptT ε (StateM σ) β} {s s' : σ}
    {a : α} (h : run m s = (.ok a, s')) : run (m >>= f) s = run (f a) s' := by
  rw [run_bind, h]

/-- A loop over a list whose every round returns and leaves the state alone returns, with the
state as it was, one result for each element. -/
theorem run_mapM_of_forall {f : α → ExceptT ε (StateM σ) β} {P : α → β → Prop} {s : σ} :
    ∀ l : List α, (∀ a ∈ l, ∃ b, run (f a) s = (.ok b, s) ∧ P a b) →
      ∃ bs, run (l.mapM f) s = (.ok bs, s) ∧ List.Forall₂ P l bs
  | [], _ => ⟨[], rfl, .nil⟩
  | a :: l, h => by
    obtain ⟨b, hb, hP⟩ := h a List.mem_cons_self
    obtain ⟨bs, hbs, hPs⟩ := run_mapM_of_forall l fun a ha => h a (List.mem_cons_of_mem _ ha)
    refine ⟨b :: bs, ?_, .cons hP hPs⟩
    rw [List.mapM_cons, run_bind_of_ok hb, run_bind_of_ok hbs]
    rfl

/-- Each result of such a loop is related to an element of the list. -/
theorem exists_mem_of_forall₂ {P : α → β → Prop} {l : List α} {bs : List β}
    (h : List.Forall₂ P l bs) {b : β} (hb : b ∈ bs) : ∃ a ∈ l, P a b := by
  induction h with
  | nil => simp at hb
  | cons hab _ ih =>
    rcases List.mem_cons.mp hb with rfl | hb
    · exact ⟨_, List.mem_cons_self, hab⟩
    · obtain ⟨a, ha, hP⟩ := ih hb
      exact ⟨a, List.mem_cons_of_mem _ ha, hP⟩

/-- Results that each keep a key of their element keep the keys in order. -/
theorem map_eq_of_forall₂ {γ : Type} {f : α → γ} {g : β → γ} {l : List α} {bs : List β}
    (h : List.Forall₂ (fun a b => g b = f a) l bs) : bs.map g = l.map f := by
  induction h with
  | nil => rfl
  | cons hab _ ih => simp [hab, ih]

/-- `m` leaves the state as it found it, whether it returns or fails. -/
def ReadOnly (m : ExceptT ε (StateM σ) α) : Prop := ∀ s, (run m s).2 = s

namespace ReadOnly

variable {m : ExceptT ε (StateM σ) α}

theorem run_eq (hm : ReadOnly m) (s : σ) : run m s = ((run m s).1, s) := by
  have h := hm s
  rcases hr : run m s with ⟨r, s'⟩
  rw [hr] at h
  cases h
  rfl

theorem pure (a : α) : ReadOnly (Pure.pure a : ExceptT ε (StateM σ) α) := fun _ => rfl

theorem throw (e : ε) : ReadOnly (MonadExcept.throw e : ExceptT ε (StateM σ) α) := fun _ => rfl

theorem get : ReadOnly (MonadState.get : ExceptT ε (StateM σ) σ) := fun _ => rfl

theorem bind {f : α → ExceptT ε (StateM σ) β} (hm : ReadOnly m) (hf : ∀ a, ReadOnly (f a)) :
    ReadOnly (m >>= f) := by
  intro s
  rw [run_bind, hm.run_eq]
  rcases (run m s).1 with e | a
  · rfl
  · exact hf a s

theorem tryCatch {h : ε → ExceptT ε (StateM σ) α} (hm : ReadOnly m) (hh : ∀ e, ReadOnly (h e)) :
    ReadOnly (MonadExcept.tryCatch m h) := by
  intro s
  rw [run_tryCatch, hm.run_eq]
  rcases (run m s).1 with e | a
  · exact hh e s
  · rfl

theorem map {g : α → β} (hm : ReadOnly m) : ReadOnly (g <$> m) := by
  rw [map_eq_pure_bind]
  exact hm.bind fun a => pure (g a)

end ReadOnly

/-- An outcome meets a postcondition for values and one for errors. -/
def Holds : Except ε α × σ → (α → σ → Prop) → (ε → σ → Prop) → Prop
  | (.ok a, s), Q, _ => Q a s
  | (.error e, s), _, E => E e s

@[simp] theorem holds_ok (a : α) (s : σ) (Q : α → σ → Prop) (E : ε → σ → Prop) :
    Holds (.ok a, s) Q E = Q a s := rfl

@[simp] theorem holds_error (e : ε) (s : σ) (Q : α → σ → Prop) (E : ε → σ → Prop) :
    Holds (.error e, s) Q E = E e s := rfl

/-- An outcome meets postconditions that ignore it when the state it leaves does. -/
theorem holds_const_iff {P : σ → Prop} (r : Except ε α × σ) :
    Holds r (fun _ => P) (fun _ => P) ↔ P r.2 := by
  rcases r with ⟨e | a, s⟩ <;> rfl

/-- From a state satisfying `P`, `m` returns into `Q` or fails into `E`. -/
def Triple (P : σ → Prop) (m : ExceptT ε (StateM σ) α) (Q : α → σ → Prop)
    (E : ε → σ → Prop) : Prop :=
  ∀ s, P s → Holds (run m s) Q E

namespace Triple

variable {P P' : σ → Prop} {Q Q' : α → σ → Prop} {E E' : ε → σ → Prop}
  {m : ExceptT ε (StateM σ) α}

theorem pure (a : α) : Triple (Q a) (Pure.pure a : ExceptT ε (StateM σ) α) Q E :=
  fun _ h => h

theorem throw (e : ε) : Triple (E e) (MonadExcept.throw e : ExceptT ε (StateM σ) α) Q E :=
  fun _ h => h

theorem get {Q : σ → σ → Prop} : Triple (fun s => Q s s) (MonadState.get : ExceptT ε (StateM σ) σ) Q E :=
  fun _ h => h

theorem bind {R : α → σ → Prop} {f : α → ExceptT ε (StateM σ) β} {Q : β → σ → Prop}
    (hm : Triple P m R E) (hf : ∀ a, Triple (R a) (f a) Q E) : Triple P (m >>= f) Q E := by
  intro s hs
  have h := hm s hs
  rw [run_bind]
  rcases hr : run m s with ⟨_ | a, s'⟩
  · rw [hr] at h
    exact h
  · rw [hr] at h
    exact hf a s' h

/-- Sequencing where the first step fails into a stronger postcondition than the whole. -/
theorem bind_of_error {R : α → σ → Prop} {E₀ : ε → σ → Prop} {f : α → ExceptT ε (StateM σ) β}
    {Q : β → σ → Prop} (hm : Triple P m R E₀) (hE : ∀ e s, E₀ e s → E e s)
    (hf : ∀ a, Triple (R a) (f a) Q E) : Triple P (m >>= f) Q E :=
  bind (fun s hs => by
    have h := hm s hs
    rcases hr : run m s with ⟨_ | a, s'⟩ <;> rw [hr] at h
    · exact hE _ _ h
    · exact h) hf

/-- A fact about the values a computation was built from moves into the context. -/
theorem pure_pre {c : Prop} (h : c → Triple P m Q E) : Triple (fun s => P s ∧ c) m Q E :=
  fun s ⟨hs, hc⟩ => h hc s hs

/-- What follows a `throw` never runs. -/
theorem throw_bind {e : ε} {f : α → ExceptT ε (StateM σ) β} {Q : β → σ → Prop}
    (h : ∀ s, P s → E e s) : Triple P (MonadExcept.throw e >>= f) Q E := by
  intro s hs
  rw [run_bind, run_throw]
  exact h s hs

/-- Reading the state: the rest runs from the state that was read. -/
theorem get_bind {f : σ → ExceptT ε (StateM σ) β} {Q : β → σ → Prop}
    (h : ∀ s₀, Triple (fun s => P s ∧ s = s₀) (f s₀) Q E) :
    Triple P (MonadState.get >>= f) Q E :=
  bind (R := fun a s => P s ∧ s = a) (m := (MonadState.get : ExceptT ε (StateM σ) σ))
    (fun _ hs => ⟨hs, rfl⟩) fun s₀ => h s₀

/-- A loop over a list keeps an invariant that every round keeps, whether it stops early or not. -/
theorem mapM_inv {f : α → ExceptT ε (StateM σ) β} {I : σ → Prop}
    (h : ∀ a, Triple I (f a) (fun _ => I) (fun _ => I)) :
    ∀ l : List α, Triple I (l.mapM f) (fun _ => I) (fun _ => I)
  | [] => fun _ hs => hs
  | a :: l => by
    rw [List.mapM_cons]
    exact (h a).bind fun _ => (mapM_inv h l).bind fun _ _ hs => hs

theorem tryCatch {R : ε → σ → Prop} {h : ε → ExceptT ε (StateM σ) α}
    (hm : Triple P m Q R) (hh : ∀ e, Triple (R e) (h e) Q E) :
    Triple P (MonadExcept.tryCatch m h) Q E := by
  intro s hs
  have hr := hm s hs
  rw [run_tryCatch]
  rcases hrun : run m s with ⟨_ | a, s'⟩
  · rw [hrun] at hr
    exact hh _ s' hr
  · rw [hrun] at hr
    exact hr

theorem conseq (hP : ∀ s, P' s → P s) (hm : Triple P m Q E) (hQ : ∀ a s, Q a s → Q' a s)
    (hE : ∀ e s, E e s → E' e s) : Triple P' m Q' E' := by
  intro s hs
  have h := hm s (hP s hs)
  rcases hr : run m s with ⟨_ | a, s'⟩ <;> rw [hr] at h
  · exact hE _ _ h
  · exact hQ _ _ h

theorem ite {c : Prop} [Decidable c] {t e : ExceptT ε (StateM σ) α} (ht : c → Triple P t Q E)
    (he : ¬c → Triple P e Q E) : Triple P (if c then t else e) Q E := by
  by_cases hc : c
  · rw [if_pos hc]
    exact ht hc
  · rw [if_neg hc]
    exact he hc

/-- A computation that leaves the state alone keeps every assertion about it. -/
theorem of_readOnly (hm : ReadOnly m) : Triple P m (fun _ => P) (fun _ => P) := by
  intro s hs
  rw [hm.run_eq]
  rcases (run m s).1 with e | a <;> exact hs

/-- Two triples about one computation combine. -/
theorem and {P₂ : σ → Prop} {Q₂ : α → σ → Prop} {E₂ : ε → σ → Prop}
    (h₁ : Triple P m Q E) (h₂ : Triple P₂ m Q₂ E₂) :
    Triple (fun s => P s ∧ P₂ s) m (fun a s => Q a s ∧ Q₂ a s) (fun e s => E e s ∧ E₂ e s) := by
  intro s ⟨hs, hs₂⟩
  have h := h₁ s hs
  have h' := h₂ s hs₂
  rcases hr : run m s with ⟨_ | a, s'⟩ <;> rw [hr] at h h' <;> exact ⟨h, h'⟩

end Triple

end ExceptState
