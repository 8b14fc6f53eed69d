import Mathlib.Data.List.Infix

/-!
# Runs of a partial step function

A system with states `σ` and actions `α` whose step may fail: `none` is a step after which there
is no state (the code panics). `run` performs a list of actions; `Reachable init s` says some list
of actions leads from `init` to `s`. A property that holds of `init` and that every step keeps
(`Preserved`) holds of every reachable state (`Reachable.induction`). A property that only the
steps between states with `P` keep holds of every state reached through such states
(`ReachableWithin.induction`); a run whose every prefix ends in a state with `P` is one
(`ReachableWithin.of_run`).
-/

namespace Transition

variable {σ α : Type} (step : σ → α → Option σ)

def run : σ → List α → Option σ
  | s, [] => some s
  | s, a :: as => (step s a).bind fun s' => run s' as

inductive Reachable (init : σ) : σ → Prop
  | init : Reachable init init
  | step {s s' : σ} (a : α) : Reachable init s → step s a = some s' → Reachable init s'

/-- Reachable through states that all have `P`, `init` among them. -/
inductive ReachableWithin (P : σ → Prop) (init : σ) : σ → Prop
  | init : P init → ReachableWithin P init init
  | step {s s' : σ} (a : α) : ReachableWithin P init s → step s a = some s' → P s' →
      ReachableWithin P init s'

/-- Every step from a state with `P` leads to a state with `P`. -/
def Preserved (P : σ → Prop) : Prop := ∀ s a s', P s → step s a = some s' → P s'

variable {step}

@[simp] theorem run_nil (s : σ) : run step s [] = some s := rfl

theorem run_cons (s : σ) (a : α) (as : List α) :
    run step s (a :: as) = (step s a).bind fun s' => run step s' as := rfl

theorem Reachable.induction {init : σ} {P : σ → Prop} (h0 : P init) (hstep : Preserved step P)
    {s : σ} (h : Reachable step init s) : P s := by
  induction h with
  | init => exact h0
  | step a _ hs ih => exact hstep _ a _ ih hs

theorem Reachable.run_of {init s : σ} (h : Reachable step init s) :
    ∀ {as : List α} {s' : σ}, run step s as = some s' → Reachable step init s' := by
  intro as
  induction as generalizing s with
  | nil =>
    intro s' hrun
    cases hrun
    exact h
  | cons a as ih =>
    intro s' hrun
    rw [run_cons] at hrun
    obtain ⟨s₁, hs₁, hrun⟩ := Option.bind_eq_some_iff.mp hrun
    exact ih (h.step a hs₁) hrun

theorem reachable_of_run {init s : σ} {as : List α} (h : run step init as = some s) :
    Reachable step init s :=
  Reachable.init.run_of h

/-- A property that every step by an allowed action keeps holds after a run of allowed actions. -/
theorem run_induction {P : σ → Prop} {Q : α → Prop}
    (hstep : ∀ s a s', P s → Q a → step s a = some s' → P s') :
    ∀ {as : List α} {s s' : σ}, (∀ a ∈ as, Q a) → run step s as = some s' → P s → P s' := by
  intro as
  induction as with
  | nil =>
    intro s s' _ hrun hs
    cases hrun
    exact hs
  | cons a as ih =>
    intro s s' hq hrun hs
    rw [run_cons] at hrun
    obtain ⟨s₁, hs₁, hrun⟩ := Option.bind_eq_some_iff.mp hrun
    exact ih (fun b hb => hq b (List.mem_cons_of_mem a hb)) hrun
      (hstep s a s₁ hs (hq a List.mem_cons_self) hs₁)

section Within

variable {P : σ → Prop} {init : σ}

theorem ReachableWithin.induction {Q : σ → Prop} (h0 : P init → Q init)
    (hstep : ∀ s a s', P s → Q s → step s a = some s' → Q s') {s : σ}
    (h : ReachableWithin step P init s) : Q s ∧ P s := by
  induction h with
  | init hP => exact ⟨h0 hP, hP⟩
  | step a _ hs hP ih => exact ⟨hstep _ a _ ih.2 ih.1 hs, hP⟩

/-- A run from a state reached through `P`, every prefix of which ends in a state with `P`. -/
theorem ReachableWithin.run_of [DecidablePred P] {s : σ} (h : ReachableWithin step P init s) :
    ∀ {as : List α} {s' : σ}, (∀ bs ∈ as.inits, ((run step s bs).all fun t => decide (P t)) = true) →
      run step s as = some s' → ReachableWithin step P init s' := by
  intro as
  induction as generalizing s with
  | nil =>
    intro s' _ hrun
    cases hrun
    exact h
  | cons a as ih =>
    intro s' hP hrun
    rw [run_cons] at hrun
    obtain ⟨s₁, hs₁, hrun⟩ := Option.bind_eq_some_iff.mp hrun
    -- the prefix `[a]` ends in the state after the first step
    have hP₁ : P s₁ := by
      have := hP [a] (List.mem_inits _ _ |>.mpr (List.cons_prefix_cons.mpr ⟨rfl, List.nil_prefix⟩))
      simpa [run_cons, hs₁] using this
    refine ih (h.step a hs₁ hP₁) (fun bs hbs => ?_) hrun
    have := hP (a :: bs) ((List.mem_inits _ _).mpr
      (List.cons_prefix_cons.mpr ⟨rfl, (List.mem_inits _ _).mp hbs⟩))
    simpa [run_cons, hs₁] using this

theorem ReachableWithin.of_run [DecidablePred P] {as : List α} {s : σ}
    (hP : ∀ bs ∈ as.inits, ((run step init bs).all fun t => decide (P t)) = true)
    (h : run step init as = some s) : ReachableWithin step P init s := by
  have hinit : P init := by simpa using hP [] ((List.mem_inits _ _).mpr List.nil_prefix)
  exact (ReachableWithin.init hinit).run_of hP h

end Within

end Transition
