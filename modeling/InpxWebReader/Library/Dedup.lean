import Mathlib.Algebra.BigOperators.Group.List.Basic
import Mathlib.Algebra.Order.Ring.Int
import Mathlib.Algebra.Order.Ring.Nat
import Mathlib.Data.List.Nodup
import Mathlib.Data.List.Sublists

/-!
# First occurrences

`firsts seen xs` walks through a list with the set of what it has met and keeps each element at its
first occurrence, which is how a program removes repeats with a hash set. The result is free of
repeats, and it is the whole list exactly when the list had none (`firsts_eq_self_iff`).
-/

namespace List

variable {α : Type} [DecidableEq α]

/-- The elements of a list at their first occurrence, without those in `seen`. -/
def firsts (seen : List α) : List α → List α
  | [] => []
  | x :: xs => if x ∈ seen then firsts seen xs else x :: firsts (x :: seen) xs

@[simp] theorem firsts_nil (seen : List α) : firsts seen [] = [] := rfl

theorem firsts_cons_of_mem {seen xs : List α} {x : α} (h : x ∈ seen) :
    firsts seen (x :: xs) = firsts seen xs := if_pos h

theorem firsts_cons_of_notMem {seen xs : List α} {x : α} (h : x ∉ seen) :
    firsts seen (x :: xs) = x :: firsts (x :: seen) xs := if_neg h

theorem firsts_sublist (seen xs : List α) : firsts seen xs <+ xs := by
  induction xs generalizing seen with
  | nil => exact Sublist.refl _
  | cons y ys ih =>
    by_cases hy : y ∈ seen
    · rw [firsts_cons_of_mem hy]
      exact (ih seen).cons y
    · rw [firsts_cons_of_notMem hy]
      exact (ih _).cons_cons y

/-- Nothing is removed exactly from a list without repeats. -/
theorem firsts_eq_self_iff {xs : List α} : firsts [] xs = xs ↔ xs.Nodup := by
  suffices h : ∀ seen : List α, firsts seen xs = xs ↔ xs.Nodup ∧ ∀ x ∈ xs, x ∉ seen by
    rw [h []]
    exact ⟨fun h => h.1, fun h => ⟨h, fun _ _ => not_mem_nil⟩⟩
  induction xs with
  | nil => simp
  | cons y ys ih =>
    intro seen
    by_cases hy : y ∈ seen
    · rw [firsts_cons_of_mem hy]
      constructor
      · intro he
        have hlen := (firsts_sublist seen ys).length_le
        rw [he, length_cons] at hlen
        omega
      · rintro ⟨_, hs⟩
        exact absurd hy (hs y (mem_cons_self ..))
    · rw [firsts_cons_of_notMem hy, cons.injEq, ih, nodup_cons]
      constructor
      · rintro ⟨_, hn, hs⟩
        refine ⟨⟨fun hm => hs y hm (mem_cons_self ..), hn⟩, ?_⟩
        intro x hx
        rcases mem_cons.mp hx with rfl | hx
        · exact hy
        · exact fun hm => hs x hx (mem_cons_of_mem _ hm)
      · rintro ⟨⟨hny, hn⟩, hs⟩
        refine ⟨rfl, hn, ?_⟩
        intro x hx hm
        rcases mem_cons.mp hm with rfl | hm
        · exact hny hx
        · exact hs x (mem_cons_of_mem _ hx) hm

/-- A proper sublist has a smaller sum of positive weights. -/
theorem Sublist.sum_map_lt {w : α → Nat} {xs ys : List α} (h : xs <+ ys) (hne : xs ≠ ys)
    (hw : ∀ y ∈ ys, 0 < w y) : (xs.map w).sum < (ys.map w).sum := by
  induction h with
  | slnil => exact absurd rfl hne
  | @cons xs ys y h ih =>
    have hy := hw y (mem_cons_self ..)
    rw [map_cons, sum_cons]
    by_cases he : xs = ys
    · rw [he]
      omega
    · have := ih he fun z hz => hw z (mem_cons_of_mem _ hz)
      omega
  | @cons_cons xs ys y h ih =>
    rw [map_cons, map_cons, sum_cons, sum_cons]
    have := ih (fun he => hne (by rw [he])) fun z hz => hw z (mem_cons_of_mem _ hz)
    omega

end List
