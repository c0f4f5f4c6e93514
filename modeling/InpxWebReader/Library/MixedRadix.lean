import Mathlib.Algebra.Order.Ring.Int
import Mathlib.Algebra.Order.Ring.Nat
import Mathlib.Algebra.Order.SuccPred
import Mathlib.Data.Int.SuccPred
import Mathlib.Data.List.Induction
import Mathlib.Data.Nat.SuccPred
import Mathlib.Order.Compare

/-!
# Positions in blocks

A number written with digits, and a point in time written as a date and a time of day, is a position
in a block, in a block, and so on. `Blocks.compare_add` says that such positions compare by their
outermost blocks first. It is why fixed-width digits compare as lists the way their numbers do
(`compare_digits`).
-/

namespace MixedRadix

/-! ### Counting in blocks -/

theorem compare_congr {α β : Type} [LinearOrder α] [LinearOrder β] {a b : α} {x y : β}
    (hlt : a < b → x < y) (heq : a = b → x = y) (hgt : b < a → y < x) :
    compare a b = compare x y := by
  rcases lt_trichotomy a b with h | h | h
  · rw [compare_lt_iff_lt.mpr h, compare_lt_iff_lt.mpr (hlt h)]
  · rw [compare_eq_iff_eq.mpr h, compare_eq_iff_eq.mpr (heq h)]
  · rw [compare_gt_iff_gt.mpr h, compare_gt_iff_gt.mpr (hgt h)]

/-- Blocks of the widths `w`, each one beginning where the one before ends or later. -/
def Blocks {α β : Type} [LT α] [Add β] [LE β] (f w : α → β) : Prop := ∀ a b, a < b → f a + w a ≤ f b

theorem Blocks.compare_add {α β : Type} [LinearOrder α] [AddCommMonoid β] [LinearOrder β]
    [IsOrderedCancelAddMonoid β] {f w : α → β} (hf : Blocks f w) {a b : α} {x y : β}
    (hx : 0 ≤ x ∧ x < w a) (hy : 0 ≤ y ∧ y < w b) :
    compare (f a + x) (f b + y) = (compare a b).then (compare x y) := by
  have hlt : ∀ {a b x y}, a < b → x < w a → 0 ≤ y → f a + x < f b + y := by
    intro a b x y hab hx hy
    calc f a + x < f a + w a := add_lt_add_right hx (f a)
      _ ≤ f b := hf a b hab
      _ ≤ f b + y := le_add_of_nonneg_right hy
  rcases lt_trichotomy a b with h | rfl | h
  · rw [compare_lt_iff_lt.mpr h, compare_lt_iff_lt.mpr (hlt h hx.2 hy.1)]
    rfl
  · rw [compare_congr (add_lt_add_iff_left (f a)).mp add_left_cancel
      (add_lt_add_iff_left (f a)).mp, compare_eq_iff_eq.mpr rfl]
    rfl
  · rw [compare_gt_iff_gt.mpr h, compare_gt_iff_gt.mpr (hlt h hy.2 hx.1)]
    rfl

theorem blocks_mul {β : Type} [CommSemiring β] [LinearOrder β] [IsStrictOrderedRing β]
    [SuccAddOrder β] {width : β} (hwidth : 0 ≤ width) :
    Blocks (fun a : β => a * width) fun _ => width := by
  intro a b h
  rw [← add_one_mul]
  exact mul_le_mul_of_nonneg_right (Order.add_one_le_of_lt h) hwidth

/-! ### Lists -/

/-- Lists compare by their first parts first, if these are of one length. -/
theorem compare_append {α : Type} [Ord α] {xs xs' ys ys' : List α} (h : xs.length = xs'.length) :
    compare (xs ++ ys) (xs' ++ ys') = (compare xs xs').then (compare ys ys') := by
  induction xs generalizing xs' with
  | nil =>
    rw [List.length_nil] at h
    rw [List.length_eq_zero_iff.mp h.symm]
    rfl
  | cons x xs ih =>
    cases xs' with
    | nil => cases h
    | cons x' xs' =>
      rw [List.cons_append, List.cons_append, List.compare_cons_cons, List.compare_cons_cons,
        ih (Nat.succ.inj h), Ordering.then_assoc]

/-- A map that keeps the order keeps the order of lists. -/
theorem compare_map {α β : Type} [Ord α] [Ord β] {f : α → β} {xs ys : List α}
    (h : ∀ x ∈ xs, ∀ y ∈ ys, compare (f x) (f y) = compare x y) :
    compare (xs.map f) (ys.map f) = compare xs ys := by
  induction xs generalizing ys with
  | nil => cases ys <;> rfl
  | cons x xs ih =>
    cases ys with
    | nil => rfl
    | cons y ys =>
      rw [List.map_cons, List.map_cons, List.compare_cons_cons, List.compare_cons_cons,
        h x List.mem_cons_self y List.mem_cons_self,
        ih fun x hx y hy => h x (List.mem_cons_of_mem _ hx) y (List.mem_cons_of_mem _ hy)]

/-! ### Digits -/

/-- The digits of a number, the most significant one first. -/
def digits (base : Nat) : Nat → Nat → List Nat
  | 0, _ => []
  | width + 1, n => digits base width (n / base) ++ [n % base]

def digitsNumber (base : Nat) (ds : List Nat) : Nat := ds.foldl (fun n d => base * n + d) 0

@[simp] theorem length_digits (base width n : Nat) : (digits base width n).length = width := by
  induction width generalizing n with
  | zero => rfl
  | succ width ih => rw [digits, List.length_append, ih, List.length_singleton]

theorem lt_of_mem_digits {base width n d : Nat} (hbase : 0 < base) (h : d ∈ digits base width n) :
    d < base := by
  induction width generalizing n with
  | zero => cases h
  | succ width ih =>
    rw [digits, List.mem_append, List.mem_singleton] at h
    rcases h with h | rfl
    · exact ih h
    · exact Nat.mod_lt _ hbase

theorem digitsNumber_append (base : Nat) (ds : List Nat) (d : Nat) :
    digitsNumber base (ds ++ [d]) = base * digitsNumber base ds + d := by
  rw [digitsNumber, List.foldl_append]
  rfl

theorem digitsNumber_digits {base width n : Nat} (h : n < base ^ width) :
    digitsNumber base (digits base width n) = n := by
  induction width generalizing n with
  | zero =>
    rw [Nat.pow_zero] at h
    rw [Nat.lt_one_iff.mp h]
    rfl
  | succ width ih =>
    rw [Nat.pow_succ] at h
    rw [digits, digitsNumber_append, ih (Nat.div_lt_of_lt_mul (by rwa [Nat.mul_comm])),
      Nat.div_add_mod]

theorem digits_digitsNumber {base : Nat} {ds : List Nat} (h : ∀ d ∈ ds, d < base) :
    digits base ds.length (digitsNumber base ds) = ds := by
  induction ds using List.reverseRecOn with
  | nil => rfl
  | append_singleton ds d ih =>
    have hd : d < base := h d (List.mem_append_right _ List.mem_cons_self)
    rw [List.length_append, List.length_singleton, digits, digitsNumber_append,
      Nat.mul_add_div (by omega), Nat.div_eq_of_lt hd, Nat.add_zero, Nat.mul_add_mod,
      Nat.mod_eq_of_lt hd, ih fun d hd => h d (List.mem_append_left _ hd)]

theorem digitsNumber_lt {base : Nat} {ds : List Nat} (h : ∀ d ∈ ds, d < base) :
    digitsNumber base ds < base ^ ds.length := by
  induction ds using List.reverseRecOn with
  | nil => exact Nat.one_pos
  | append_singleton ds d ih =>
    have hd : d < base := h d (List.mem_append_right _ List.mem_cons_self)
    have hds := ih fun d hd => h d (List.mem_append_left _ hd)
    rw [digitsNumber_append, List.length_append, List.length_singleton, Nat.pow_succ']
    calc base * digitsNumber base ds + d < base * (digitsNumber base ds + 1) := by
          rw [Nat.mul_add, Nat.mul_one]
          omega
      _ ≤ base * base ^ ds.length := Nat.mul_le_mul_left _ hds

theorem compare_digits {base width m n : Nat} (hm : m < base ^ width) (hn : n < base ^ width) :
    compare (digits base width m) (digits base width n) = compare m n := by
  induction width generalizing m n with
  | zero =>
    rw [Nat.pow_zero] at hm hn
    rw [Nat.lt_one_iff.mp hm, Nat.lt_one_iff.mp hn]
    rfl
  | succ width ih =>
    rw [Nat.pow_succ'] at hm hn
    have hbase : 0 < base := Nat.pos_of_mul_pos_right (Nat.zero_lt_of_lt hm)
    have hdigit : compare [m % base] [n % base] = compare (m % base) (n % base) := by
      rw [List.compare_cons_cons]
      exact Ordering.then_eq
    have hblocks : compare (m / base * base + m % base) (n / base * base + n % base) =
        (compare (m / base) (n / base)).then (compare (m % base) (n % base)) :=
      (blocks_mul (Nat.zero_le base)).compare_add ⟨Nat.zero_le _, Nat.mod_lt m hbase⟩
        ⟨Nat.zero_le _, Nat.mod_lt n hbase⟩
    rw [Nat.div_add_mod', Nat.div_add_mod'] at hblocks
    rw [digits, digits, compare_append (by rw [length_digits, length_digits]),
      ih (Nat.div_lt_of_lt_mul hm) (Nat.div_lt_of_lt_mul hn), hdigit, hblocks]

end MixedRadix
