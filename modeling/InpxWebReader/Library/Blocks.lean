import Mathlib.Data.List.Flatten

/-!
# Items in blocks

Items of various lengths are laid end to end into rooms of a fixed size, each item whole into one
room. `fill` puts as many into a room as fit. `within` says that no item lies across the border of
two blocks, and `within_iff_fill` that this is what it takes for every room to be filled up before
the next one is begun.
-/

namespace Blocks

variable {α : Type} {block room offset : Nat} {item : List α} {items rest : List (List α)}

/-- What fits into the room, and the items that are left. -/
def fill : Nat → List (List α) → List α × List (List α)
  | _, [] => ([], [])
  | room, item :: items =>
    if item.length ≤ room then
      (item ++ (fill (room - item.length) items).1, (fill (room - item.length) items).2)
    else ([], item :: items)

/-- Each item, laid from the offset on, ends in the block in which it begins. -/
def within (block : Nat) : Nat → List (List α) → Bool
  | _, [] => true
  | offset, item :: items =>
    offset % block + item.length ≤ block && within block (offset + item.length) items

/-! ### Filling a room -/

theorem fill_fits (h : item.length ≤ room) : fill room (item :: items) =
    (item ++ (fill (room - item.length) items).1, (fill (room - item.length) items).2) := by
  rw [fill, if_pos h]

theorem fill_full (h : room < item.length) : fill room (item :: items) = ([], item :: items) := by
  rw [fill, if_neg (Nat.not_le.mpr h)]

theorem fill_flatten (room : Nat) (items : List (List α)) :
    (fill room items).1 ++ (fill room items).2.flatten = items.flatten := by
  induction items generalizing room with
  | nil => rfl
  | cons item items ih =>
    rcases Nat.lt_or_ge room item.length with h | h
    · rw [fill_full h, List.nil_append]
    · rw [fill_fits h, List.append_assoc, ih, List.flatten_cons]

theorem length_fill_le (room : Nat) (items : List (List α)) :
    (fill room items).1.length ≤ room := by
  induction items generalizing room with
  | nil => exact Nat.zero_le _
  | cons item items ih =>
    rcases Nat.lt_or_ge room item.length with h | h
    · rw [fill_full h]
      exact Nat.zero_le _
    · have := ih (room - item.length)
      rw [fill_fits h, List.length_append]
      omega

theorem fill_suffix (room : Nat) (items : List (List α)) : (fill room items).2 <:+ items := by
  induction items generalizing room with
  | nil => exact List.suffix_refl _
  | cons item items ih =>
    rcases Nat.lt_or_ge room item.length with h | h
    · simp only [fill_full h, List.suffix_refl]
    · rw [fill_fits h]
      exact (ih _).trans (List.suffix_cons _ _)

/-- What is left when a room has been filled does not fit into the rest of it. -/
theorem fill_rest (room : Nat) (items : List (List α)) :
    fill (room - (fill room items).1.length) (fill room items).2 = ([], (fill room items).2) := by
  induction items generalizing room with
  | nil => rfl
  | cons item items ih =>
    rcases Nat.lt_or_ge room item.length with h | h
    · rw [fill_full h]
      exact fill_full (Nat.lt_of_le_of_lt (Nat.sub_le _ _) h)
    · rw [fill_fits h, List.length_append, ← Nat.sub_sub]
      exact ih _

theorem fill_all (h : items.flatten.length ≤ room) : fill room items = (items.flatten, []) := by
  induction items generalizing room with
  | nil => rfl
  | cons item items ih =>
    rw [List.flatten_cons, List.length_append] at h
    rw [fill_fits (by omega), ih (by omega), List.flatten_cons]

/-! ### Borders -/

theorem within_cons : within block offset (item :: items) = true ↔
    offset % block + item.length ≤ block ∧
      within block (offset + item.length) items = true := by
  rw [within, Bool.and_eq_true, decide_eq_true_eq]

theorem within_append : within block offset (items ++ rest) = true ↔
    within block offset items = true ∧
      within block (offset + items.flatten.length) rest = true := by
  induction items generalizing offset with
  | nil => exact ⟨fun h => ⟨rfl, h⟩, fun h => h.2⟩
  | cons item items ih =>
    rw [List.cons_append, within_cons, within_cons, ih, List.flatten_cons, List.length_append,
      ← Nat.add_assoc, and_assoc]

theorem within_of_length_le_one (hblock : 0 < block) (h : ∀ item ∈ items, item.length ≤ 1) :
    within block offset items = true := by
  induction items generalizing offset with
  | nil => rfl
  | cons item items ih =>
    have hitem := h item List.mem_cons_self
    have hmod := Nat.mod_lt offset hblock
    exact within_cons.mpr ⟨by omega, ih fun i hi => h i (List.mem_cons_of_mem _ hi)⟩

private theorem mod_of_room (hroom : room ≤ block) (hborder : (offset + room) % block = 0)
    (hpos : 0 < room) : offset % block + room = block := by
  have hmod := Nat.mod_lt offset (by omega : 0 < block)
  have hdiv : block ∣ offset % block + room := by
    rw [Nat.dvd_iff_mod_eq_zero, Nat.mod_add_mod]
    exact hborder
  obtain ⟨k, hk⟩ := hdiv
  have hk1 : k = 1 := by
    rcases Nat.lt_trichotomy k 1 with h | h | h
    · obtain rfl : k = 0 := by omega
      omega
    · exact h
    · have := Nat.mul_le_mul_left block h
      omega
  rw [hk, hk1, Nat.mul_one]

/-- Items lie across no border exactly if those that fit into the room up to the next border are
all, or fill it up and the others lie across none. -/
theorem within_iff_fill (hroom : room ≤ block) (hborder : (offset + room) % block = 0) :
    within block offset items = true ↔ (fill room items).2 = [] ∨
      (fill room items).1.length = room ∧
        within block (offset + room) (fill room items).2 = true := by
  induction items generalizing room offset with
  | nil => exact ⟨fun _ => .inl rfl, fun _ => rfl⟩
  | cons item items ih =>
    rw [within_cons]
    rcases Nat.lt_or_ge room item.length with hlt | hge
    · rw [fill_full hlt]
      rcases Nat.eq_zero_or_pos room with rfl | hpos
      · simp [within_cons]
      · have hmod := mod_of_room hroom hborder hpos
        refine iff_of_false (fun h => by omega) ?_
        rintro (h | h)
        · exact List.cons_ne_nil _ _ h
        · exact absurd h.1 (Nat.ne_of_lt hpos)
    · have hrest := @ih (room - item.length) (offset + item.length) (by omega)
        (by rw [Nat.add_assoc, Nat.add_sub_of_le hge]; exact hborder)
      rw [fill_fits hge, hrest, List.length_append, Nat.add_assoc, Nat.add_sub_of_le hge]
      have hfits : offset % block + item.length ≤ block := by
        rcases Nat.eq_zero_or_pos room with rfl | hpos
        · rw [Nat.add_zero] at hborder
          omega
        · have := mod_of_room hroom hborder hpos
          omega
      rw [and_iff_right hfits]
      have hlength : item.length + (fill (room - item.length) items).1.length = room ↔
          (fill (room - item.length) items).1.length = room - item.length := by omega
      rw [hlength]

end Blocks
