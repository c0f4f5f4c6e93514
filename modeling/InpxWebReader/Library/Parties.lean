import InpxWebReader.Library.Runs
import Mathlib.Algebra.Order.BigOperators.Group.List
import Mathlib.Algebra.Order.Ring.Nat

/-!
# Parties side by side

The parties of a system stand in a list, and a step changes one of them: the party at its place is
set to another. What is counted or summed over the parties changes by what that party counts for
(`countP_set`, `sum_set`). `Distinct key` says that no two parties have the same key, where a party
has one.

`exists_run` brings a system to its rest, when some step always lessens what is left to do.
-/

namespace Parties

open Runs

variable {α κ σ : Type} {xs : List α} {i : Nat} {x y : α}

theorem forall_set {P : α → Prop} (h : ∀ x ∈ xs, P x) (hy : P y) : ∀ x ∈ xs.set i y, P x := by
  intro x hx
  rcases List.mem_or_eq_of_mem_set hx with hold | rfl
  · exact h x hold
  · exact hy

theorem forall_append {P : α → Prop} (h : ∀ x ∈ xs, P x) (hy : P y) : ∀ x ∈ xs ++ [y], P x := by
  intro x hx
  rcases List.mem_append.mp hx with hold | hnew
  · exact h x hold
  · rw [List.mem_singleton.mp hnew]
    exact hy

theorem countP_set {p : α → Bool} (h : xs[i]? = some x) :
    (xs.set i y).countP p + (p x).toNat = xs.countP p + (p y).toNat := by
  obtain ⟨hi, rfl⟩ := List.getElem?_eq_some_iff.mp h
  rw [List.countP_set hi]
  cases hx : p xs[i] with
  | false => cases p y <;> rfl
  | true =>
    have hpos : 0 < xs.countP p := List.countP_pos_iff.mpr ⟨xs[i], List.getElem_mem hi, hx⟩
    cases p y with
    | false =>
      show xs.countP p - 1 + 0 + 1 = xs.countP p + 0
      omega
    | true =>
      show xs.countP p - 1 + 1 + 1 = xs.countP p + 1
      omega

/-- A party that counts for the one and not for the other makes the difference. -/
theorem countP_lt {p q : α → Bool} (h : ∀ x ∈ xs, p x = true → q x = true) (hx : x ∈ xs)
    (hp : p x = false) (hq : q x = true) : xs.countP p < xs.countP q := by
  obtain ⟨before, after, rfl⟩ := List.append_of_mem hx
  have hbefore : before.countP p ≤ before.countP q :=
    List.countP_mono_left fun y hy => h y (List.mem_append_left _ hy)
  have hafter : after.countP p ≤ after.countP q :=
    List.countP_mono_left fun y hy =>
      h y (List.mem_append_right _ (List.mem_cons_of_mem _ hy))
  rw [List.countP_append, List.countP_append, List.countP_cons_of_neg (by rw [hp]; decide),
    List.countP_cons_of_pos hq]
  omega

theorem sum_set {f : α → Nat} (h : xs[i]? = some x) :
    ((xs.set i y).map f).sum + f x = (xs.map f).sum + f y := by
  induction xs generalizing i with
  | nil => cases h
  | cons z xs ih =>
    cases i with
    | zero =>
      cases h
      simp only [List.set_cons_zero, List.map_cons, List.sum_cons]
      omega
    | succ i =>
      have htail := ih (i := i) h
      simp only [List.set_cons_succ, List.map_cons, List.sum_cons]
      omega

/-- No two parties have the same key. -/
def Distinct (key : α → Option κ) (xs : List α) : Prop :=
  ∀ (i j : Nat) (x y : α) (k : κ), xs[i]? = some x → xs[j]? = some y →
    key x = some k → key y = some k → i = j

namespace Distinct

variable {key : α → Option κ} {k : κ}

theorem nil : Distinct key ([] : List α) := by
  intro i j x y k h
  cases h

theorem append (h : Distinct key xs) (hy : key y = none) : Distinct key (xs ++ [y]) := by
  have hold : ∀ (i : Nat) (x : α) (k : κ), (xs ++ [y])[i]? = some x → key x = some k →
      xs[i]? = some x := by
    intro i x k hx hk
    rw [List.getElem?_append] at hx
    split at hx
    · exact hx
    · obtain ⟨_, heq⟩ := List.getElem?_eq_some_iff.mp hx
      rw [List.getElem_singleton] at heq
      rw [← heq, hy] at hk
      cases hk
  intro i j x z k hx hz hkx hkz
  exact h i j x z k (hold i x k hx hkx) (hold j z k hz hkz) hkx hkz

theorem set_same (h : Distinct key xs) (hx : xs[i]? = some x) (hkey : key y = key x) :
    Distinct key (xs.set i y) := by
  have hold : ∀ (j : Nat) (z : α) (k : κ), (xs.set i y)[j]? = some z → key z = some k →
      ∃ z', xs[j]? = some z' ∧ key z' = some k := by
    intro j z k hz hk
    by_cases hij : i = j
    · subst hij
      rw [List.getElem?_set_self (List.getElem?_eq_some_iff.mp hx).1] at hz
      cases hz
      exact ⟨x, hx, hkey ▸ hk⟩
    · rw [List.getElem?_set_ne hij] at hz
      exact ⟨z, hz, hk⟩
  intro a b z w k hz hw hkz hkw
  obtain ⟨z', hz', hkz'⟩ := hold a z k hz hkz
  obtain ⟨w', hw', hkw'⟩ := hold b w k hw hkw
  exact h a b z' w' k hz' hw' hkz' hkw'

theorem set_fresh (h : Distinct key xs) (hkey : key y = some k)
    (hfresh : ∀ x ∈ xs, key x ≠ some k) : Distinct key (xs.set i y) := by
  have hother : ∀ (j : Nat) (z : α), (xs.set i y)[j]? = some z → i ≠ j → xs[j]? = some z := by
    intro j z hz hij
    rwa [List.getElem?_set_ne hij] at hz
  have hself : ∀ (z : α) (l : κ), (xs.set i y)[i]? = some z → key z = some l → l = k := by
    intro z l hz hl
    rw [List.getElem?_set] at hz
    rw [if_pos rfl] at hz
    split at hz
    · cases hz
      rw [hkey] at hl
      cases hl
      rfl
    · cases hz
  intro a b z w l hz hw hkz hkw
  by_cases ha : i = a
  · subst ha
    by_cases hb : i = b
    · exact hb
    · refine absurd ?_ (hfresh w (List.mem_of_getElem? (hother b w hw hb)))
      rw [hkw, hself z l hz hkz]
  · by_cases hb : i = b
    · subst hb
      refine absurd ?_ (hfresh z (List.mem_of_getElem? (hother a z hz ha)))
      rw [hkz, hself w l hw hkw]
    · exact h a b z w l (hother a z hz ha) (hother b w hw hb) hkz hkw

end Distinct

/-- A system that can always do less than before comes to its rest. -/
theorem exists_run {step : σ → α → Option σ} {I : σ → Prop} {allowed : α → Prop} (left : σ → Nat)
    (hstep : ∀ s, I s → 0 < left s →
      ∃ a s', allowed a ∧ step s a = some s' ∧ I s' ∧ left s' < left s) (s : σ) (hs : I s) :
    ∃ acts s', (∀ a ∈ acts, allowed a) ∧ run step s acts = some s' ∧ left s' = 0 := by
  induction hn : left s using Nat.strong_induction_on generalizing s with
  | _ n ih =>
    rcases Nat.eq_zero_or_pos n with rfl | hpos
    · exact ⟨[], s, List.forall_mem_nil _, rfl, hn⟩
    · obtain ⟨a, s₁, ha, hsa, hs₁, hless⟩ := hstep s hs (hn ▸ hpos)
      obtain ⟨acts, s', hacts, hrun, hleft⟩ := ih (left s₁) (hn ▸ hless) s₁ hs₁ rfl
      exact ⟨a :: acts, s', List.forall_mem_cons.mpr ⟨ha, hacts⟩,
        run_cons_eq_some.mpr ⟨s₁, hsa, hrun⟩, hleft⟩

end Parties
