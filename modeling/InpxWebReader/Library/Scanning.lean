import Mathlib.Data.List.Basic
import Mathlib.Order.Basic

/-!
# Scanning from left to right

`firstWhere` reads items with a state up to the first one that it accepts, and
`firstWhere_eq_some_iff` says which one that is.

`Reached next start` are the positions of a scan that goes from each position to the next one,
always forward. What lies between a reached position and the next one is not reached
(`Reached.not_between`).
-/

namespace Scanning

/-! ### The first accepted item -/

section FirstWhere

variable {σ α : Type} {step : σ → α → σ} {accept : σ → α → Bool}

/-- Where the first item is that is accepted in the state after those before it. -/
def firstWhere (step : σ → α → σ) (accept : σ → α → Bool) : σ → List α → Option Nat
  | _, [] => none
  | s, a :: as => if accept s a then some 0 else (firstWhere step accept (step s a) as).map (· + 1)

/-- The item is accepted, and no item before it is. -/
structure FirstAt (step : σ → α → σ) (accept : σ → α → Bool) (s : σ) (as : List α) (n : Nat) :
    Prop where
  accepted : ∃ a, as[n]? = some a ∧ accept ((as.take n).foldl step s) a = true
  first : ∀ m < n, ∀ a, as[m]? = some a → accept ((as.take m).foldl step s) a = false

theorem FirstAt.lt {s : σ} {as : List α} {n : Nat} (h : FirstAt step accept s as n) :
    n < as.length := by
  obtain ⟨a, ha, -⟩ := h.accepted
  exact (List.getElem?_eq_some_iff.mp ha).1

theorem firstAt_zero {s : σ} {a : α} {as : List α} :
    FirstAt step accept s (a :: as) 0 ↔ accept s a = true := by
  constructor
  · rintro ⟨⟨b, hb, haccept⟩, -⟩
    cases hb
    exact haccept
  · exact fun h => ⟨⟨a, rfl, h⟩, fun m hm => absurd hm (Nat.not_lt_zero m)⟩

theorem firstAt_succ {s : σ} {a : α} {as : List α} {n : Nat} :
    FirstAt step accept s (a :: as) (n + 1) ↔
      accept s a = false ∧ FirstAt step accept (step s a) as n := by
  constructor
  · rintro ⟨haccepted, hfirst⟩
    exact ⟨hfirst 0 (Nat.succ_pos n) a rfl, haccepted, fun m hm => hfirst (m + 1) (by omega)⟩
  · rintro ⟨ha, haccepted, hfirst⟩
    refine ⟨haccepted, fun m hm b hb => ?_⟩
    cases m with
    | zero =>
      cases hb
      exact ha
    | succ m => exact hfirst m (by omega) b hb

theorem firstWhere_eq_some_iff {s : σ} {as : List α} {n : Nat} :
    firstWhere step accept s as = some n ↔ FirstAt step accept s as n := by
  induction as generalizing s n with
  | nil => exact ⟨(fun h => by cases h), fun h => absurd h.lt (Nat.not_lt_zero n)⟩
  | cons a as ih =>
    rw [firstWhere]
    cases n with
    | zero =>
      rw [firstAt_zero]
      split
      · rename_i ha
        exact ⟨fun _ => ha, fun _ => rfl⟩
      · rename_i ha
        simp [ha]
    | succ n =>
      rw [firstAt_succ, ← ih]
      split
      · rename_i ha
        simp [ha]
      · rename_i ha
        simp [ha]

end FirstWhere

/-! ### The positions of a scan -/

section Reached

variable {α : Type} {next : α → α} {start p q : α}

/-- The positions that a scan comes to. -/
inductive Reached (next : α → α) (start : α) : α → Prop
  | start : Reached next start start
  | step {p : α} (prior : Reached next start p) : Reached next start (next p)

namespace Reached

theorem trans (h : Reached next start p) (g : Reached next p q) : Reached next start q := by
  induction g with
  | start => exact h
  | step prior ih => exact .step ih

/-- A scan stands still or goes on from the next position. -/
theorem eq_or_next (h : Reached next start p) : start = p ∨ Reached next (next start) p := by
  induction h with
  | start => exact .inl rfl
  | @step p prior ih =>
    rcases ih with rfl | ih
    · exact .inr .start
    · exact .inr (.step ih)

/-- Of two positions of a scan one is reached from the other. -/
theorem total (hp : Reached next start p) (hq : Reached next start q) :
    Reached next p q ∨ Reached next q p := by
  induction hp with
  | start => exact .inl hq
  | @step p prior ih =>
    rcases ih with ih | ih
    · rcases ih.eq_or_next with rfl | ih
      · exact .inr (.step .start)
      · exact .inl ih
    · exact .inr (.step ih)

variable [Preorder α]

theorem le (hnext : ∀ p, p < next p) (h : Reached next start p) : start ≤ p := by
  induction h with
  | start => exact le_rfl
  | @step p prior ih => exact ih.trans (hnext p).le

/-- What lies between a reached position and the next one is not reached. -/
theorem not_between (hnext : ∀ p, p < next p) (hp : Reached next start p)
    (hq : Reached next start q) : ¬(p < q ∧ q < next p) := by
  rintro ⟨hlow, hhigh⟩
  rcases hp.total hq with h | h
  · rcases h.eq_or_next with rfl | h
    · exact lt_irrefl p hlow
    · exact (h.le hnext).not_gt hhigh
  · exact (h.le hnext).not_gt hlow

end Reached

end Reached

end Scanning
