import Mathlib.Data.List.Basic

/-!
# Runs of a step function

A system is a step function `step : σ → α → Option σ`: an action is enabled in a state when the
step has a result. `run step s acts` is the state after a list of actions. `EachStep` says that
every step of a run satisfies a condition on the state before it and its action.

`run_invariant` is the induction over a run; `EachStep.run_invariant` is the induction over a run
whose steps satisfy a condition; `exists_step` finds the step that first made something true.
-/

namespace Runs

variable {σ α : Type} {step : σ → α → Option σ} {s s' s'' : σ} {a : α} {acts acts' : List α}

/-- The state after the actions, when each of them is enabled. -/
def run (step : σ → α → Option σ) (s : σ) (acts : List α) : Option σ := acts.foldlM step s

@[simp] theorem run_nil : run step s [] = some s := rfl

theorem run_cons : run step s (a :: acts) = (step s a).bind fun s' => run step s' acts := by
  rw [run]
  rw [List.foldlM_cons]
  rfl

theorem run_cons_eq_some : run step s (a :: acts) = some s'' ↔
    ∃ s', step s a = some s' ∧ run step s' acts = some s'' := by
  rw [run_cons, Option.bind_eq_some_iff]

theorem run_append : run step s (acts ++ acts') =
    (run step s acts).bind fun s' => run step s' acts' := by
  rw [run]
  rw [List.foldlM_append]
  rfl

theorem run_append_eq_some : run step s (acts ++ acts') = some s'' ↔
    ∃ s', run step s acts = some s' ∧ run step s' acts' = some s'' := by
  rw [run_append, Option.bind_eq_some_iff]

/-- What every step preserves, a run preserves. -/
theorem run_invariant {I : σ → Prop} (hstep : ∀ s a s', I s → step s a = some s' → I s')
    (h : run step s acts = some s') (hs : I s) : I s' := by
  induction acts generalizing s with
  | nil =>
    injection h with h
    exact h ▸ hs
  | cons a acts ih =>
    obtain ⟨s₁, h₁, h₂⟩ := run_cons_eq_some.mp h
    exact ih h₂ (hstep s a s₁ hs h₁)

/-- Every step of the run satisfies a condition on the state before it and its action. -/
def EachStep (step : σ → α → Option σ) (good : σ → α → Prop) (s : σ) (acts : List α) : Prop :=
  ∀ before a after s', acts = before ++ a :: after → run step s before = some s' → good s' a

variable {good : σ → α → Prop}

theorem EachStep.head (h : EachStep step good s (a :: acts)) : good s a :=
  h [] a acts s rfl rfl

theorem EachStep.tail (h : EachStep step good s (a :: acts)) (hs : step s a = some s') :
    EachStep step good s' acts := by
  rintro before b after s'' rfl hrun
  exact h (a :: before) b after s'' rfl (run_cons_eq_some.mpr ⟨s', hs, hrun⟩)

theorem EachStep.nil : EachStep step good s [] :=
  fun _ _ _ _ h _ => absurd h.symm (List.append_ne_nil_of_right_ne_nil _ (List.cons_ne_nil _ _))

theorem EachStep.cons (h : good s a)
    (htail : ∀ s', step s a = some s' → EachStep step good s' acts) :
    EachStep step good s (a :: acts) := by
  rintro before b after s' heq hrun
  cases before with
  | nil =>
    cases heq
    cases hrun
    exact h
  | cons c before =>
    cases heq
    obtain ⟨s₁, h₁, h₂⟩ := run_cons_eq_some.mp hrun
    exact htail s₁ h₁ before b after s' rfl h₂

theorem EachStep.of_forall (h : ∀ a ∈ acts, ∀ s, good s a) : EachStep step good s acts := by
  rintro before a after s' rfl _
  exact h a (List.mem_append_right _ List.mem_cons_self) s'

/-- The condition holds of the steps of a part of the run. -/
theorem EachStep.part {before during after : List α}
    (h : EachStep step good s (before ++ during ++ after)) (hs : run step s before = some s') :
    EachStep step good s' during := by
  rintro first a rest s'' rfl hrun
  refine h (before ++ first) a (rest ++ after) s'' ?_ (run_append_eq_some.mpr ⟨s', hs, hrun⟩)
  simp

/-- What every step that satisfies the condition preserves, such a run preserves. -/
theorem EachStep.run_invariant {I : σ → Prop} (hgood : EachStep step good s acts)
    (hstep : ∀ s a s', I s → good s a → step s a = some s' → I s')
    (h : run step s acts = some s') (hs : I s) : I s' := by
  induction acts generalizing s with
  | nil =>
    injection h with h
    exact h ▸ hs
  | cons a acts ih =>
    obtain ⟨s₁, h₁, h₂⟩ := run_cons_eq_some.mp h
    exact ih (hgood.tail h₁) h₂ (hstep s a s₁ hs hgood.head h₁)

/-- What was not true at the start of a run and is at its end became true in one of its steps. -/
theorem exists_step {P : σ → Prop} (h : run step s acts = some s') (hs : ¬P s) (hs' : P s') :
    ∃ before a after s₁ s₂, acts = before ++ a :: after ∧ run step s before = some s₁ ∧
      step s₁ a = some s₂ ∧ run step s₂ after = some s' ∧ ¬P s₁ ∧ P s₂ := by
  induction acts generalizing s with
  | nil =>
    injection h with h
    exact absurd (h ▸ hs') hs
  | cons a acts ih =>
    obtain ⟨s₁, h₁, h₂⟩ := run_cons_eq_some.mp h
    by_cases hp : P s₁
    · exact ⟨[], a, acts, s, s₁, rfl, rfl, h₁, h₂, hs, hp⟩
    · obtain ⟨before, b, after, s₂, s₃, rfl, hbefore, hb, hafter, hn, hp'⟩ := ih h₂ hp
      exact ⟨a :: before, b, after, s₂, s₃, rfl, run_cons_eq_some.mpr ⟨s₁, h₁, hbefore⟩, hb,
        hafter, hn, hp'⟩

end Runs
