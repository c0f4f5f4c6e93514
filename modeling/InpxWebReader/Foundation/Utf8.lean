import InpxWebReader.Foundation.Unicode
import Mathlib.Data.List.DropRight

/-!
# Valid UTF-8

`IsValidUtf8` accepts a text if it is a sequence of encoded code points. An ASCII byte is one of
its own and never part of another, so a text may be cut at ASCII bytes, and put together again.
-/

namespace InpxWebReader.Unicode

open Foundation

/-- A sequence of encoded code points. -/
inductive ValidUtf8 : Bytes → Prop
  | nil : ValidUtf8 []
  | step {value rest : Bytes} {codePoint : Nat}
      (decode : tryDecodeUtf8CodePoint value = some (codePoint, rest)) (tail : ValidUtf8 rest) :
      ValidUtf8 value

theorem isValidUtf8From_iff {fuel : Nat} {value : Bytes} (h : value.length ≤ fuel) :
    isValidUtf8From fuel value = true ↔ ValidUtf8 value := by
  induction fuel generalizing value with
  | zero =>
    have hnil : value = [] := List.length_eq_zero_iff.mp (by omega)
    subst hnil
    exact ⟨fun _ => .nil, fun _ => rfl⟩
  | succ fuel ih =>
    cases value with
    | nil => exact ⟨fun _ => .nil, fun _ => rfl⟩
    | cons b value =>
      rw [isValidUtf8From]
      · cases hd : tryDecodeUtf8CodePoint (b :: value) with
        | none =>
          refine ⟨fun h => by simp at h, fun hvalid => ?_⟩
          cases hvalid with
          | step decode _ =>
            rw [hd] at decode
            cases decode
        | some p =>
          obtain ⟨codePoint, rest⟩ := p
          have hlt := length_lt_of_tryDecodeUtf8CodePoint hd
          have hrest : rest.length ≤ fuel := by simp only [List.length_cons] at h hlt; omega
          refine (ih hrest).trans ⟨fun tail => .step hd tail, fun hvalid => ?_⟩
          cases hvalid with
          | step decode tail =>
            rw [hd] at decode
            cases decode
            exact tail
      · exact fun h => by cases h

theorem isValidUtf8_iff {value : Bytes} : isValidUtf8 value = true ↔ ValidUtf8 value :=
  isValidUtf8From_iff le_rfl

/-- An encoded code point is read whatever follows it. -/
theorem tryDecodeUtf8CodePoint_append {value rest : Bytes} {codePoint : Nat}
    (h : tryDecodeUtf8CodePoint value = some (codePoint, rest)) (more : Bytes) :
    tryDecodeUtf8CodePoint (value ++ more) = some (codePoint, rest ++ more) := by
  rcases value with _ | ⟨b₀, _ | ⟨b₁, _ | ⟨b₂, _ | ⟨b₃, value⟩⟩⟩⟩ <;>
    simp only [tryDecodeUtf8CodePoint, List.nil_append, List.cons_append] at h ⊢ <;> grind

section Ascii

variable {c : UInt8} (hc : c < 0x80)

include hc

theorem not_le_of_ascii {d : UInt8} (hd : 0x80 ≤ d) : ¬d ≤ c := fun h =>
  UInt8.not_lt.mpr (UInt8.le_trans hd h) hc

theorem isUtf8ContinuationByte_of_ascii : isUtf8ContinuationByte c = false := by
  simp [isUtf8ContinuationByte, not_le_of_ascii hc]

theorem isValidLead3_of_ascii (b : UInt8) : isValidLead3 b c = false := by
  simp [isValidLead3, not_le_of_ascii hc]

theorem isValidLead4_of_ascii (b : UInt8) : isValidLead4 b c = false := by
  simp [isValidLead4, not_le_of_ascii hc]

end Ascii

theorem tryDecodeUtf8CodePoint_of_append {value rest more : Bytes} {codePoint : Nat} {c : UInt8}
    (hc : c < 0x80) (hne : value ≠ [])
    (h : tryDecodeUtf8CodePoint (value ++ c :: more) = some (codePoint, rest)) :
    ∃ rest', tryDecodeUtf8CodePoint value = some (codePoint, rest') ∧ rest = rest' ++ c :: more := by
  have hcont := isUtf8ContinuationByte_of_ascii hc
  have hlead3 := isValidLead3_of_ascii hc
  have hlead4 := isValidLead4_of_ascii hc
  rcases value with _ | ⟨b₀, _ | ⟨b₁, _ | ⟨b₂, _ | ⟨b₃, value⟩⟩⟩⟩
  · exact absurd rfl hne
  all_goals
    simp only [tryDecodeUtf8CodePoint, List.nil_append, List.cons_append] at h ⊢
    grind

namespace ValidUtf8

theorem append {a b : Bytes} (ha : ValidUtf8 a) (hb : ValidUtf8 b) : ValidUtf8 (a ++ b) := by
  induction ha with
  | nil => exact hb
  | step decode _ ih => exact .step (tryDecodeUtf8CodePoint_append decode b) ih

theorem flatten {parts : List Bytes} (h : ∀ part ∈ parts, ValidUtf8 part) :
    ValidUtf8 parts.flatten := by
  induction parts with
  | nil => exact .nil
  | cons part parts ih =>
    rw [List.flatten_cons]
    exact (h part List.mem_cons_self).append (ih fun p hp => h p (List.mem_cons_of_mem _ hp))

/-- What follows the first code point of a valid text is valid. -/
theorem tail_of_decode {value rest : Bytes} {codePoint : Nat} (h : ValidUtf8 value)
    (hdecode : tryDecodeUtf8CodePoint value = some (codePoint, rest)) : ValidUtf8 rest := by
  cases h with
  | nil => cases hdecode
  | step decode tail =>
    rw [hdecode] at decode
    cases decode
    exact tail

theorem ascii_cons {c : UInt8} {value : Bytes} (hc : c < 0x80) :
    ValidUtf8 (c :: value) ↔ ValidUtf8 value := by
  have hdecode : tryDecodeUtf8CodePoint (c :: value) = some (c.toNat, value) := by
    simp only [tryDecodeUtf8CodePoint, if_pos hc]
  exact ⟨fun h => h.tail_of_decode hdecode, fun h => .step hdecode h⟩

theorem append_ascii {a b : Bytes} {c : UInt8} (hc : c < 0x80) :
    ValidUtf8 (a ++ c :: b) ↔ ValidUtf8 a ∧ ValidUtf8 b := by
  refine ⟨fun h => ?_, fun h => h.1.append ((ascii_cons hc).mpr h.2)⟩
  generalize htext : a ++ c :: b = text at h
  induction h generalizing a with
  | nil => simp at htext
  | step decode tail ih =>
    subst htext
    by_cases hne : a = []
    · subst hne
      exact ⟨.nil, (ascii_cons hc).mp (.step decode tail)⟩
    · obtain ⟨rest', hdecode, hrest⟩ := tryDecodeUtf8CodePoint_of_append hc hne decode
      obtain ⟨ha, hb⟩ := ih hrest.symm
      exact ⟨.step hdecode ha, hb⟩

theorem of_ascii {value : Bytes} (h : ∀ b ∈ value, b < 0x80) : ValidUtf8 value := by
  induction value with
  | nil => exact .nil
  | cons b value ih =>
    exact (ascii_cons (h b List.mem_cons_self)).mpr (ih fun c hc => h c (List.mem_cons_of_mem _ hc))

/-- For a literal: its bytes are checked one by one, where the statement over all bytes that
are in it would be checked for each of the 256. -/
theorem of_all_ascii {value : Bytes} (h : (value.all fun b => b < 0x80) = true) :
    ValidUtf8 value := of_ascii (List.all_iff_forall_prop.mp h)

theorem dropWhile_ascii {p : UInt8 → Bool} (hp : ∀ b, p b = true → b < 0x80) (value : Bytes) :
    ValidUtf8 (value.dropWhile p) ↔ ValidUtf8 value := by
  induction value with
  | nil => exact Iff.rfl
  | cons b value ih =>
    rw [List.dropWhile_cons]
    split
    · rename_i hb
      exact ih.trans (ascii_cons (hp b hb)).symm
    · exact Iff.rfl

theorem rdropWhile_ascii {p : UInt8 → Bool} (hp : ∀ b, p b = true → b < 0x80) (value : Bytes) :
    ValidUtf8 (value.rdropWhile p) ↔ ValidUtf8 value := by
  induction value using List.reverseRecOn with
  | nil => exact Iff.rfl
  | append_singleton value b ih =>
    rw [List.rdropWhile_concat]
    split
    · rename_i hb
      exact ih.trans ((append_ascii (hp b hb)).trans (and_iff_left .nil)).symm
    · exact Iff.rfl

theorem intercalate_ascii {c : UInt8} (hc : c < 0x80) {parts : List Bytes} :
    ValidUtf8 ([c].intercalate parts) ↔ ∀ part ∈ parts, ValidUtf8 part := by
  induction parts with
  | nil => simp [ValidUtf8.nil]
  | cons part parts ih =>
    cases parts with
    | nil => simp
    | cons next parts =>
      rw [List.intercalate_cons_cons, List.append_assoc, List.singleton_append, append_ascii hc, ih]
      exact List.forall_mem_cons.symm

theorem splitOn_ascii {c : UInt8} (hc : c < 0x80) {value : Bytes} :
    ValidUtf8 value ↔ ∀ part ∈ value.splitOn c, ValidUtf8 part := by
  rw [← intercalate_ascii hc, List.intercalate_splitOn]

end ValidUtf8

/-- A change of ASCII bytes for ASCII bytes changes no sequence. -/
theorem tryDecodeUtf8CodePoint_map {f : UInt8 → UInt8} (hascii : ∀ b, b < 0x80 → f b < 0x80)
    (hother : ∀ b, ¬b < 0x80 → f b = b) (value : Bytes) :
    (tryDecodeUtf8CodePoint (value.map f)).map Prod.snd
      = (tryDecodeUtf8CodePoint value).map fun r => r.2.map f := by
  have same : ∀ g : UInt8 → Bool, (∀ b, b < 0x80 → g b = false) → ∀ b, g (f b) = g b := by
    intro g hg b
    by_cases hb : b < 0x80
    · rw [hg b hb, hg _ (hascii b hb)]
    · rw [hother b hb]
  have hcont := same isUtf8ContinuationByte fun _ => isUtf8ContinuationByte_of_ascii
  have hlead3 := fun a => same (isValidLead3 a) fun _ hb => isValidLead3_of_ascii hb a
  have hlead4 := fun a => same (isValidLead4 a) fun _ hb => isValidLead4_of_ascii hb a
  cases value with
  | nil => rfl
  | cons b₀ value =>
    by_cases h₀ : b₀ < 0x80
    · simp only [List.map_cons, tryDecodeUtf8CodePoint, if_pos h₀, if_pos (hascii b₀ h₀),
        Option.map_some]
    · simp only [List.map_cons, hother b₀ h₀]
      rcases value with _ | ⟨b₁, _ | ⟨b₂, _ | ⟨b₃, value⟩⟩⟩ <;>
        simp only [tryDecodeUtf8CodePoint, List.map_cons, List.map_nil, hcont, hlead3, hlead4] <;>
        grind

theorem ValidUtf8.map_ascii {f : UInt8 → UInt8} (hascii : ∀ b, b < 0x80 → f b < 0x80)
    (hother : ∀ b, ¬b < 0x80 → f b = b) {value : Bytes} :
    ValidUtf8 (value.map f) ↔ ValidUtf8 value := by
  refine ⟨fun h => ?_, fun h => ?_⟩
  · generalize htext : value.map f = text at h
    induction h generalizing value with
    | nil =>
      rw [List.map_eq_nil_iff.mp htext]
      exact .nil
    | step decode tail ih =>
      subst htext
      have hmap := tryDecodeUtf8CodePoint_map hascii hother value
      rw [decode] at hmap
      obtain ⟨r, hr, htail⟩ := Option.map_eq_some_iff.mp hmap.symm
      exact .step hr (ih htail)
  · induction h with
    | nil => exact .nil
    | @step value rest codePoint decode tail ih =>
      have hmap := tryDecodeUtf8CodePoint_map hascii hother value
      rw [decode] at hmap
      obtain ⟨r, hr, htail⟩ := Option.map_eq_some_iff.mp hmap
      exact .step hr (htail ▸ ih)

end InpxWebReader.Unicode
