import Mathlib.Data.List.Destutter
import Mathlib.Data.List.Sort

/-!
# Sorting by a comparison

`orderBy cmp xs` is the list `xs` in the order of a three-way comparison. Where the comparison
tells the elements of the list apart there is only one such list (`orderBy_unique`), so whatever
sorts by that comparison gives the same result.
-/

namespace Sorting

open Std

variable {α : Type} {cmp : α → α → Ordering} {xs ys : List α}

/-- The list in the order of `cmp`. -/
def orderBy (cmp : α → α → Ordering) (xs : List α) : List α :=
  xs.insertionSort fun a b => (cmp a b).isLE = true

theorem orderBy_perm (cmp : α → α → Ordering) (xs : List α) : (orderBy cmp xs).Perm xs :=
  List.perm_insertionSort _ xs

@[simp] theorem mem_orderBy {a : α} : a ∈ orderBy cmp xs ↔ a ∈ xs :=
  (orderBy_perm cmp xs).mem_iff

@[simp] theorem length_orderBy : (orderBy cmp xs).length = xs.length :=
  (orderBy_perm cmp xs).length_eq

theorem orderBy_nodup (h : xs.Nodup) : (orderBy cmp xs).Nodup :=
  (orderBy_perm cmp xs).nodup_iff.mpr h

theorem pairwise_orderBy [TransCmp cmp] (xs : List α) :
    (orderBy cmp xs).Pairwise fun a b => (cmp a b).isLE = true := by
  have htotal : Std.Total fun a b => (cmp a b).isLE = true := by
    constructor
    intro a b
    cases h : cmp a b with
    | lt => exact Or.inl rfl
    | eq => exact Or.inl rfl
    | gt =>
      right
      rw [OrientedCmp.gt_iff_lt.mp h]
      rfl
  have htrans : IsTrans α fun a b => (cmp a b).isLE = true :=
    ⟨fun _ _ _ hab hbc => TransCmp.isLE_trans hab hbc⟩
  exact List.pairwise_insertionSort _ xs

/-- Where the comparison tells the elements apart, one list is sorted. -/
theorem orderBy_unique [TransCmp cmp] (hperm : ys.Perm xs)
    (hsorted : ys.Pairwise fun a b => (cmp a b).isLE = true)
    (hinj : ∀ a ∈ xs, ∀ b ∈ xs, cmp a b = .eq → a = b) : ys = orderBy cmp xs := by
  apply List.Perm.eq_of_pairwise _ hsorted (pairwise_orderBy xs)
    (hperm.trans (orderBy_perm cmp xs).symm)
  intro a b ha hb hab hba
  exact hinj a (hperm.subset ha) b (mem_orderBy.mp hb) (OrientedCmp.isLE_antisymm hab hba)

/-! ### Runs of equal elements -/

section Unique

variable [DecidableEq α]

theorem mem_destutter'_ne {x : α} : ∀ (xs : List α) (a : α),
    x ∈ xs.destutter' (· ≠ ·) a ↔ x = a ∨ x ∈ xs := by
  intro xs
  induction xs with
  | nil =>
    intro a
    simp
  | cons b xs ih =>
    intro a
    by_cases h : a ≠ b
    · rw [List.destutter'_cons_pos _ h, List.mem_cons, List.mem_cons, ih b]
    · rw [List.destutter'_cons_neg _ h, ih a, List.mem_cons, ← not_not.mp h, or_self_left]

/-- Dropping what equals the element before it drops no value. -/
@[simp] theorem mem_destutter_ne {x : α} : x ∈ xs.destutter (· ≠ ·) ↔ x ∈ xs := by
  cases xs with
  | nil => simp
  | cons a xs => rw [List.destutter_cons', mem_destutter'_ne, List.mem_cons]

end Unique

/-! ### The least element -/

/-- `std::ranges::min_element`: the first element whose key is the least. -/
def minElement (key : α → Int) : List α → Option α
  | [] => none
  | a :: rest =>
    match minElement key rest with
    | none => some a
    | some b => if key b < key a then some b else some a

theorem minElement_eq_none {key : α → Int} : minElement key xs = none ↔ xs = [] := by
  cases xs with
  | nil => simp [minElement]
  | cons a rest =>
    rw [minElement]
    cases minElement key rest with
    | none => simp
    | some b => simp only [reduceCtorEq, iff_false]; split <;> exact Option.some_ne_none _

theorem mem_of_minElement {key : α → Int} {a : α} (h : minElement key xs = some a) : a ∈ xs := by
  induction xs with
  | nil => cases h
  | cons x rest ih =>
    rw [minElement] at h
    cases hrest : minElement key rest with
    | none =>
      rw [hrest] at h
      exact List.mem_cons.mpr (Or.inl (Option.some.inj h).symm)
    | some b =>
      rw [hrest] at h ih
      dsimp only at h
      split at h
      · exact List.mem_cons_of_mem _ (ih h)
      · exact List.mem_cons.mpr (Or.inl (Option.some.inj h).symm)

end Sorting
