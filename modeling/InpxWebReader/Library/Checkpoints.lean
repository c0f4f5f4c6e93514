import InpxWebReader.Library.Program

/-!
# Programs with checkpoints

A long computation calls a checkpoint now and then, and the checkpoint may end it with an exception.
`Checked checkpoint c R` says that this is all the checkpoint can do: unless it throws, the program
`c` returns, with a result in `R`.
-/

namespace Program

variable {ε σ α β : Type} {checkpoint : EStateM ε σ Unit}

/-- The program returns with `R`, or throws what the checkpoint threw. -/
def Checked (checkpoint : EStateM ε σ Unit) (c : EStateM ε σ α) (R : α → Prop) : Prop :=
  ∀ s, match c s with
    | .ok a _ => R a
    | .error e s' => ∃ s₀, checkpoint s₀ = .error e s'

/-- The checkpoint lets every program go on. -/
def NeverThrows (checkpoint : EStateM ε σ Unit) : Prop := ∀ s, ∃ s', checkpoint s = .ok () s'

theorem neverThrows_modify (f : σ → σ) : NeverThrows (modify f : EStateM ε σ Unit) :=
  fun s => ⟨f s, rfl⟩

namespace Checked

theorem of_pure {a : α} {R : α → Prop} (h : R a) :
    Checked checkpoint (pure a : EStateM ε σ α) R :=
  fun _ => h

theorem of_checkpoint : Checked checkpoint checkpoint fun _ => True := by
  intro s
  cases hr : checkpoint s with
  | ok _ _ => trivial
  | error e s' => exact ⟨s, hr⟩

theorem bind {c : EStateM ε σ α} {f : α → EStateM ε σ β} {M : α → Prop} {R : β → Prop}
    (hc : Checked checkpoint c M) (hf : ∀ a, M a → Checked checkpoint (f a) R) :
    Checked checkpoint (c >>= f) R := by
  intro s
  have h := hc s
  cases hr : c s with
  | ok a s' =>
    rw [hr] at h
    rw [bind_ok hr]
    exact hf a h s'
  | error e s' =>
    rw [hr] at h
    rw [bind_error hr]
    exact h

theorem after_checkpoint {c : EStateM ε σ α} {R : α → Prop} (h : Checked checkpoint c R) :
    Checked checkpoint (do checkpoint; c) R :=
  of_checkpoint.bind fun _ _ => h

theorem mono {c : EStateM ε σ α} {R R' : α → Prop} (h : Checked checkpoint c R)
    (hR : ∀ a, R a → R' a) : Checked checkpoint c R' := by
  intro s
  have hs := h s
  cases hr : c s with
  | ok a s' =>
    rw [hr] at hs
    exact hR a hs
  | error e s' =>
    rw [hr] at hs
    exact hs

theorem result {c : EStateM ε σ α} {R : α → Prop} (h : Checked checkpoint c R) {s s' : σ} {a : α}
    (hr : c s = .ok a s') : R a := by
  have hs := h s
  rw [hr] at hs
  exact hs

/-- Where the checkpoint never throws, the program returns. -/
theorem returns {c : EStateM ε σ α} {a : α} (h : Checked checkpoint c fun b => b = a)
    (hcheckpoint : NeverThrows checkpoint) (s : σ) : ∃ s', c s = .ok a s' := by
  have hs := h s
  cases hr : c s with
  | ok b s' =>
    rw [hr] at hs
    rw [← hs]
    exact ⟨s', rfl⟩
  | error e s' =>
    rw [hr] at hs
    obtain ⟨s₀, hthrow⟩ := hs
    obtain ⟨s₁, hok⟩ := hcheckpoint s₀
    rw [hok] at hthrow
    cases hthrow

end Checked

end Program
