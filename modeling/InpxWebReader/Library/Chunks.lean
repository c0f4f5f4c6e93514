import Mathlib.Data.List.Flatten
import Mathlib.Data.Nat.Size

/-!
# A list in chunks

A list that is kept as chunks, each with the offset of its first element. `Contiguous start chunks`
says that the chunks follow each other from `start` on without gaps or overlaps; then the offset of
a chunk and its length say where an element of the whole list is (`getElem?_of_lt`,
`getElem?_of_ge`, `getElem?_of_mem`).
-/

namespace Chunks

variable {χ α : Type} {offset : χ → Nat} {items : χ → List α}

/-- The chunks follow each other from `start` on. -/
def Contiguous (offset : χ → Nat) (items : χ → List α) : Nat → List χ → Prop
  | _, [] => True
  | start, chunk :: chunks =>
    offset chunk = start ∧ Contiguous offset items (start + (items chunk).length) chunks

theorem contiguous_append {start : Nat} {chunks rest : List χ} :
    Contiguous offset items start (chunks ++ rest) ↔ Contiguous offset items start chunks ∧
      Contiguous offset items (start + (chunks.flatMap items).length) rest := by
  induction chunks generalizing start with
  | nil => simp [Contiguous]
  | cons chunk chunks ih =>
    rw [List.cons_append, Contiguous, ih, Contiguous, List.flatMap_cons, List.length_append,
      ← Nat.add_assoc, and_assoc]

theorem contiguous_concat {start : Nat} {chunks : List χ} {chunk : χ} :
    Contiguous offset items start (chunks ++ [chunk]) ↔ Contiguous offset items start chunks ∧
      offset chunk = start + (chunks.flatMap items).length := by
  rw [contiguous_append]
  exact and_congr_right fun _ => and_iff_left trivial

/-- The element at a position of the whole list, when the list starts at `start`. -/
def elementAt (items : χ → List α) (start : Nat) (chunks : List χ) (index : Int) : Option α :=
  if index < start then none else (chunks.flatMap items)[index.toNat - start]?

section Positions

variable {start : Nat} {before after : List χ} {chunk : χ} {index : Int}
  (h : Contiguous offset items start (before ++ chunk :: after))

include h

theorem offset_eq : offset chunk = start + (before.flatMap items).length :=
  ((contiguous_append.mp h).2).1

/-- Before the offset of a chunk is what the chunks before it have. -/
theorem elementAt_of_lt (hlt : index < offset chunk) :
    elementAt items start (before ++ chunk :: after) index = elementAt items start before index := by
  have hoffset := offset_eq h
  unfold elementAt
  split
  · rfl
  · rw [List.flatMap_append, List.getElem?_append_left (by omega)]

/-- From the end of a chunk on is what the chunks after it have. -/
theorem elementAt_of_ge (hge : (offset chunk + (items chunk).length : Int) ≤ index) :
    elementAt items start (before ++ chunk :: after) index =
      elementAt items (offset chunk + (items chunk).length) after index := by
  have hoffset := offset_eq h
  unfold elementAt
  rw [if_neg (by omega), if_neg (by omega), List.flatMap_append, List.flatMap_cons,
    List.getElem?_append_right (by omega), List.getElem?_append_right (by omega)]
  congr 1
  omega

theorem elementAt_of_mem (hge : (offset chunk : Int) ≤ index)
    (hlt : index < offset chunk + (items chunk).length) :
    elementAt items start (before ++ chunk :: after) index =
      (items chunk)[(index - offset chunk).toNat]? := by
  have hoffset := offset_eq h
  unfold elementAt
  rw [if_neg (by omega), List.flatMap_append, List.flatMap_cons,
    List.getElem?_append_right (by omega), List.getElem?_append_left (by omega)]
  congr 1
  omega

end Positions

end Chunks
