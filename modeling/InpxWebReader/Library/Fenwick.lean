import Mathlib.Algebra.BigOperators.Group.List.Basic
import Mathlib.Algebra.Order.Ring.Int
import Mathlib.Algebra.Order.Ring.Nat
import Mathlib.Data.List.Basic
import Mathlib.Order.MinMax

/-!
# A Fenwick tree of maxima

The node `i` of the tree stands for the places `i - lowBit i < j ≤ i`. Reading walks down from a
place by removing its lowest bit and so passes each place below it once; recording walks up by
adding the lowest bit and meets exactly the nodes that stand for the place. So reading gives the
maximum of what was recorded at the places up to an index.
-/

namespace Fenwick

/-! ### The lowest bit -/

/-- The lowest bit of an index, as `index & (~index + 1)` on words of some width. -/
def lowBit (width index : Nat) : Nat := index &&& (2 ^ width - index)

theorem lowBit_odd {width n : Nat} (h : 2 * n + 1 < 2 ^ (width + 1)) :
    lowBit (width + 1) (2 * n + 1) = 1 := by
  have hn : n < 2 ^ width := by omega
  have hneg : 2 ^ (width + 1) - (2 * n + 1) = 2 * (2 ^ width - (n + 1)) + 1 := by omega
  apply Nat.eq_of_testBit_eq
  intro bit
  rw [lowBit, hneg, Nat.testBit_and]
  cases bit with
  | zero => simp
  | succ bit =>
    have hhalf : (2 * (2 ^ width - (n + 1)) + 1) / 2 = 2 ^ width - (n + 1) := by omega
    have hhalf' : (2 * n + 1) / 2 = n := by omega
    rw [Nat.testBit_succ, Nat.testBit_succ, Nat.testBit_succ, hhalf, hhalf',
      Nat.testBit_two_pow_sub_succ hn]
    cases n.testBit bit <;> simp

theorem lowBit_even (width n : Nat) : lowBit (width + 1) (2 * n) = 2 * lowBit width n := by
  have hneg : 2 ^ (width + 1) - 2 * n = 2 * (2 ^ width - n) := by omega
  apply Nat.eq_of_testBit_eq
  intro bit
  rw [lowBit, lowBit, hneg, Nat.testBit_and]
  cases bit with
  | zero => simp
  | succ bit =>
    simp only [Nat.testBit_succ, Nat.mul_div_cancel_left _ Nat.two_pos, Nat.testBit_and]

theorem lowBit_le (width index : Nat) : lowBit width index ≤ index := Nat.and_le_left

theorem lowBit_pos {width index : Nat} (hpos : 0 < index) (h : index < 2 ^ width) :
    0 < lowBit width index := by
  induction width generalizing index with
  | zero => omega
  | succ width ih =>
    obtain ⟨n, rfl | rfl⟩ : ∃ n, index = 2 * n ∨ index = 2 * n + 1 := ⟨index / 2, by omega⟩
    · rw [lowBit_even]
      have : 0 < lowBit width n := ih (by omega) (by omega)
      omega
    · rw [lowBit_odd h]
      exact Nat.one_pos

/-- The node `i` stands for the place `j`. -/
def Covers (width i j : Nat) : Prop := i - lowBit width i < j ∧ j ≤ i

/-- The nodes above a place that stand for it are those that stand for the place with its lowest
bit added. -/
theorem covers_step {width i j : Nat} (hj : 0 < j) (hlt : j < i) (hi : i < 2 ^ width) :
    Covers width i j ↔ Covers width i (j + lowBit width j) := by
  induction width generalizing i j with
  | zero => omega
  | succ width ih =>
    obtain ⟨m, rfl | rfl⟩ : ∃ m, i = 2 * m ∨ i = 2 * m + 1 := ⟨i / 2, by omega⟩
    · obtain ⟨n, rfl | rfl⟩ : ∃ n, j = 2 * n ∨ j = 2 * n + 1 := ⟨j / 2, by omega⟩
      · have hstep := ih (i := m) (j := n) (by omega) (by omega) (by omega)
        have := lowBit_le width m
        rw [Covers, Covers, lowBit_even, lowBit_even]
        rw [Covers, Covers] at hstep
        omega
      · have := lowBit_le width m
        rw [Covers, Covers, lowBit_even, lowBit_odd (by omega)]
        omega
    · -- an odd node stands for itself only, and an even place or a lowest bit added is even
      have hparity : ∃ n, j + lowBit (width + 1) j = 2 * n := by
        obtain ⟨n, rfl | rfl⟩ : ∃ n, j = 2 * n ∨ j = 2 * n + 1 := ⟨j / 2, by omega⟩
        · exact ⟨n + lowBit width n, by rw [lowBit_even]; omega⟩
        · exact ⟨n + 1, by rw [lowBit_odd (by omega)]; omega⟩
      obtain ⟨n, hn⟩ := hparity
      rw [Covers, Covers, hn, lowBit_odd hi]
      omega

/-! ### The tree -/

variable {α : Type} [LinearOrder α]

/-- The loop of reading: the maximum with the nodes passed. Each turn removes a bit of the index, so
the index is fuel enough. -/
def read (width : Nat) (tree : List α) (bottom : α) : Nat → Nat → α → α
  | 0, _, maximum => maximum
  | fuel + 1, index, maximum =>
    if 0 < index then
      read width tree bottom fuel (index - lowBit width index)
        (max maximum (tree.getD index bottom))
    else maximum

/-- The loop of recording. Each turn adds to the index, so the length of the tree is fuel
enough. -/
def record (width : Nat) (bottom value : α) : Nat → Nat → List α → List α
  | 0, _, tree => tree
  | fuel + 1, index, tree =>
    if index < tree.length then
      record width bottom value fuel (index + lowBit width index)
        (tree.set index (max (tree.getD index bottom) value))
    else tree

@[simp] theorem length_record (width : Nat) (bottom value : α) :
    ∀ (fuel index : Nat) (tree : List α),
      (record width bottom value fuel index tree).length = tree.length := by
  intro fuel
  induction fuel with
  | zero => exact fun _ _ => rfl
  | succ fuel ih =>
    intro index tree
    rw [record]
    split
    · rw [ih, List.length_set]
    · rfl

/-- What a list of places and values says of the values up to a place: some value there is at least
a given one. -/
def Reaches (entries : List (Nat × α)) (place : Nat → Prop) (value : α) : Prop :=
  ∃ entry ∈ entries, place entry.1 ∧ value ≤ entry.2

/-- The tree holds at each node the maximum of what was recorded at its places. -/
structure Holds (width : Nat) (bottom : α) (entries : List (Nat × α)) (tree : List α) : Prop where
  words : tree.length ≤ 2 ^ width
  places : ∀ entry ∈ entries, 0 < entry.1
  nodes : ∀ i, 0 < i → i < tree.length → ∀ value,
    value ≤ tree.getD i bottom ↔ value ≤ bottom ∨ Reaches entries (Covers width i) value

theorem holds_replicate {width size : Nat} (bottom : α) (h : size ≤ 2 ^ width) :
    Holds width bottom [] (List.replicate size bottom) where
  words := by rwa [List.length_replicate]
  places := nofun
  nodes := by
    intro i _ hi value
    rw [List.length_replicate] at hi
    simp [Reaches, List.getD_eq_getElem?_getD, hi]

/-- Reading from an index meets the values recorded up to it. -/
theorem le_read_iff {width : Nat} {bottom : α} {entries : List (Nat × α)} {tree : List α}
    (holds : Holds width bottom entries tree) (value : α) :
    ∀ {fuel index : Nat} (maximum : α), index ≤ fuel → index < tree.length → bottom ≤ maximum →
      (value ≤ read width tree bottom fuel index maximum ↔
        value ≤ maximum ∨ Reaches entries (· ≤ index) value) := by
  intro fuel
  induction fuel with
  | zero =>
    intro index maximum hfuel _ _
    have hnone : ¬Reaches entries (· ≤ index) value := by
      rintro ⟨entry, hentry, hle, _⟩
      have := holds.places entry hentry
      omega
    rw [read, or_iff_left hnone]
  | succ fuel ih =>
    intro index maximum hfuel hindex hbottom
    rw [read]
    split
    · rename_i hpos
      have hlow := lowBit_pos hpos (Nat.lt_of_lt_of_le hindex holds.words)
      have hle := lowBit_le width index
      rw [ih _ (by omega) (by omega) (le_trans hbottom (le_max_left ..)), le_max_iff,
        holds.nodes index hpos hindex, or_assoc, or_assoc]
      have hsplit : Reaches entries (· ≤ index) value ↔
          Reaches entries (Covers width index) value ∨
            Reaches entries (· ≤ index - lowBit width index) value := by
        constructor
        · rintro ⟨entry, hentry, hplace, hvalue⟩
          by_cases hbelow : entry.1 ≤ index - lowBit width index
          · exact .inr ⟨entry, hentry, hbelow, hvalue⟩
          · exact .inl ⟨entry, hentry, ⟨by omega, hplace⟩, hvalue⟩
        · rintro (⟨entry, hentry, hplace, hvalue⟩ | ⟨entry, hentry, hplace, hvalue⟩)
          · exact ⟨entry, hentry, hplace.2, hvalue⟩
          · exact ⟨entry, hentry, by omega, hvalue⟩
      rw [hsplit]
      refine or_congr_right' fun hmax => ?_
      rw [or_iff_right]
      exact fun hvalue => hmax (le_trans hvalue hbottom)
    · rename_i hzero
      have hnone : ¬Reaches entries (· ≤ index) value := by
        rintro ⟨entry, hentry, hle, _⟩
        have := holds.places entry hentry
        omega
      rw [or_iff_left hnone]

/-- What recording does to a node: it meets the node if it stands for the place. -/
theorem le_record_iff {width : Nat} {bottom value : α} :
    ∀ {fuel index : Nat} {tree : List α}, 0 < index → tree.length ≤ index + fuel →
      tree.length ≤ 2 ^ width → ∀ i, i < tree.length → ∀ v,
        (v ≤ (record width bottom value fuel index tree).getD i bottom ↔
          v ≤ tree.getD i bottom ∨ (Covers width i index ∧ v ≤ value)) := by
  intro fuel
  induction fuel with
  | zero =>
    intro index tree hpos hfuel _ i hi v
    have hnot : ¬Covers width i index := fun hcovers => by
      have := hcovers.2
      omega
    rw [record, or_iff_left fun h => hnot h.1]
  | succ fuel ih =>
    intro index tree hpos hfuel hwords i hi v
    rw [record]
    split
    · rename_i hindex
      have hlow := lowBit_pos hpos (Nat.lt_of_lt_of_le hindex hwords)
      rw [ih (by omega) (by rw [List.length_set]; omega) (by rwa [List.length_set]) i
        (by rwa [List.length_set])]
      by_cases hsame : i = index
      · -- the node itself: it is met here and not above
        subst hsame
        have hself : Covers width i i := ⟨by omega, le_rfl⟩
        have habove : ¬Covers width i (i + lowBit width i) := fun hcovers => by
          have := hcovers.2
          omega
        have hget : (tree.set i (max (tree.getD i bottom) value)).getD i bottom =
            max (tree.getD i bottom) value := by
          simp [List.getD_eq_getElem?_getD, hi]
        rw [hget, le_max_iff, or_iff_left fun h => habove h.1]
        exact or_congr_right (and_iff_right hself).symm
      · have hget : (tree.set index (max (tree.getD index bottom) value)).getD i bottom =
            tree.getD i bottom := by
          simp [List.getD_eq_getElem?_getD, List.getElem?_set_ne (Ne.symm hsame)]
        have hstep : Covers width i index ↔ Covers width i (index + lowBit width index) := by
          by_cases hlt : index < i
          · exact covers_step hpos hlt (Nat.lt_of_lt_of_le hi hwords)
          · constructor
            · intro hcovers
              have := hcovers.2
              omega
            · intro hcovers
              have := hcovers.2
              omega
        rw [hget, hstep]
    · rename_i hindex
      have hnot : ¬Covers width i index := fun hcovers => by
        have := hcovers.2
        omega
      rw [or_iff_left fun h => hnot h.1]

theorem Holds.record {width : Nat} {bottom value : α} {entries : List (Nat × α)} {tree : List α}
    (holds : Holds width bottom entries tree) {fuel index : Nat} (hpos : 0 < index)
    (hfuel : tree.length ≤ index + fuel) :
    Holds width bottom ((index, value) :: entries)
      (Fenwick.record width bottom value fuel index tree) where
  words := by
    rw [length_record]
    exact holds.words
  places := by
    intro entry hentry
    rcases List.mem_cons.mp hentry with rfl | hentry
    · exact hpos
    · exact holds.places entry hentry
  nodes := by
    intro i hi hlt v
    rw [length_record] at hlt
    rw [le_record_iff hpos hfuel holds.words i hlt, holds.nodes i hi hlt, or_assoc]
    refine or_congr_right ?_
    constructor
    · rintro (⟨entry, hentry, h⟩ | h)
      · exact ⟨entry, List.mem_cons_of_mem _ hentry, h⟩
      · exact ⟨_, List.mem_cons_self, h⟩
    · rintro ⟨entry, hentry, h⟩
      rcases List.mem_cons.mp hentry with rfl | hentry
      · exact .inr h
      · exact .inl ⟨entry, hentry, h⟩

end Fenwick
