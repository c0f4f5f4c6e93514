import InpxWebReader.Domain.CaseFolding
import InpxWebReader.Foundation.TruncatedUtf8
import Mathlib.Data.List.Chain

/-!
# Canonical texts

What `TryNormalizeUtf8WhitespaceAndCaseFold` yields is a list of words, one space apart, whose
characters are not folded any further, so a second pass changes nothing. `NormalizeLanguage` runs
the same loop twice around its own steps and ends in a code of its tables or in such a text.
-/

namespace InpxWebReader.Domain

open Foundation Unicode

/-! ### Folding once -/

/-- The ranges of upper-case letters with their lower case `0x20` further on. -/
def shiftedRanges : List (Nat × Nat) :=
  [(0x41, 0x5A), (0xC0, 0xD6), (0xD8, 0xDE), (0x391, 0x3A1), (0x3A3, 0x3AB), (0x410, 0x42F)]

/-- The letters with a lower case of their own. -/
def foldEntries : List (Nat × Nat) := singleFolds ++ cyrillicExtensionFolds

def Within (codePoint : Nat) (range : Nat × Nat) : Prop :=
  range.1 ≤ codePoint ∧ codePoint ≤ range.2

instance (codePoint : Nat) (range : Nat × Nat) : Decidable (Within codePoint range) :=
  inferInstanceAs (Decidable (_ ∧ _))

theorem exists_within {ranges : List (Nat × Nat)} {codePoint : Nat} :
    (ranges.any fun range => decide (range.1 ≤ codePoint) && decide (codePoint ≤ range.2)) = true ↔
      ∃ range ∈ ranges, Within codePoint range := by
  simp [List.any_eq_true, Within]

theorem mem_of_lookup {α β : Type} [BEq α] [LawfulBEq α] {table : List (α × β)} {a : α} {b : β}
    (h : table.lookup a = some b) : (a, b) ∈ table := by
  induction table with
  | nil => cases h
  | cons entry table ih =>
    obtain ⟨a', b'⟩ := entry
    rw [List.lookup_cons] at h
    split at h
    · rename_i heq
      injection h with h
      rw [eq_of_beq heq, h]
      exact List.mem_cons_self
    · exact List.mem_cons_of_mem _ (ih h)

/-- What folding does to a code point. -/
inductive Folds (codePoint : Nat) : Nat → Prop
  | same : Folds codePoint codePoint
  | shifted {range : Nat × Nat} (hmem : range ∈ shiftedRanges) (hwithin : Within codePoint range) :
      Folds codePoint (codePoint + 0x20)
  | even {range : Nat × Nat} (hmem : range ∈ evenUpperRanges) (hwithin : Within codePoint range)
      (hparity : codePoint % 2 = 0) : Folds codePoint (codePoint + 1)
  | odd {range : Nat × Nat} (hmem : range ∈ oddUpperRanges) (hwithin : Within codePoint range)
      (hparity : codePoint % 2 = 1) : Folds codePoint (codePoint + 1)
  | entry {folded : Nat} (hmem : (codePoint, folded) ∈ foldEntries) : Folds codePoint folded

theorem folds_caseFoldCodePoint (codePoint : Nat) :
    Folds codePoint (caseFoldCodePoint codePoint) := by
  rw [caseFoldCodePoint]
  dsimp only
  split
  · split
    · rename_i hupper
      exact .shifted (by decide : (0x41, 0x5A) ∈ shiftedRanges) hupper
    · exact .same
  split
  · rename_i hupper
    simp only [Bool.or_eq_true, Bool.and_eq_true, decide_eq_true_eq] at hupper
    rcases hupper with hupper | hupper
    · exact .shifted (by decide : (0xC0, 0xD6) ∈ shiftedRanges) hupper
    · exact .shifted (by decide : (0xD8, 0xDE) ∈ shiftedRanges) hupper
  split
  · rename_i heven
    rw [Bool.and_eq_true, decide_eq_true_eq, exists_within] at heven
    obtain ⟨hparity, range, hmem, hwithin⟩ := heven
    exact .even hmem hwithin hparity
  split
  · rename_i hodd
    rw [Bool.and_eq_true, decide_eq_true_eq, exists_within] at hodd
    obtain ⟨hparity, range, hmem, hwithin⟩ := hodd
    exact .odd hmem hwithin hparity
  split
  · rename_i hlookup
    exact .entry (List.mem_append_left _ (mem_of_lookup hlookup))
  split
  · rename_i hupper
    simp only [Bool.or_eq_true, Bool.and_eq_true, decide_eq_true_eq] at hupper
    rcases hupper with (hupper | hupper) | hupper
    · exact .shifted (by decide : (0x391, 0x3A1) ∈ shiftedRanges) hupper
    · exact .shifted (by decide : (0x3A3, 0x3AB) ∈ shiftedRanges) hupper
    · exact .shifted (by decide : (0x410, 0x42F) ∈ shiftedRanges) hupper
  · cases hlookup : cyrillicExtensionFolds.lookup codePoint with
    | none => exact .same
    | some folded => exact .entry (List.mem_append_right _ (mem_of_lookup hlookup))

/-- No rule of the folding applies to the code point. -/
structure Lower (codePoint : Nat) : Prop where
  shifted : ∀ range ∈ shiftedRanges, ¬Within codePoint range
  even : codePoint % 2 = 0 → ∀ range ∈ evenUpperRanges, ¬Within codePoint range
  odd : codePoint % 2 = 1 → ∀ range ∈ oddUpperRanges, ¬Within codePoint range
  entry : ∀ entry ∈ foldEntries, entry.1 ≠ codePoint

theorem Lower.caseFoldCodePoint_eq {codePoint : Nat} (h : Lower codePoint) :
    caseFoldCodePoint codePoint = codePoint := by
  have hfolds := folds_caseFoldCodePoint codePoint
  generalize caseFoldCodePoint codePoint = folded at hfolds
  cases hfolds with
  | same => rfl
  | shifted hmem hwithin => exact absurd hwithin (h.shifted _ hmem)
  | even hmem hwithin hparity => exact absurd hwithin (h.even hparity _ hmem)
  | odd hmem hwithin hparity => exact absurd hwithin (h.odd hparity _ hmem)
  | entry hmem => exact absurd rfl (h.entry _ hmem)

/-- Two ranges without a common code point, where the first one is moved. -/
def Apart (range : Nat × Nat) (shift : Nat) (other : Nat × Nat) : Prop :=
  range.2 + shift < other.1 ∨ other.2 < range.1 + shift

instance (range : Nat × Nat) (shift : Nat) (other : Nat × Nat) :
    Decidable (Apart range shift other) := inferInstanceAs (Decidable (_ ∨ _))

theorem Apart.not_within {range other : Nat × Nat} {shift codePoint : Nat}
    (h : Apart range shift other) (hwithin : Within codePoint range) :
    ¬Within (codePoint + shift) other := by
  rw [Apart] at h
  rw [Within] at hwithin ⊢
  omega

theorem Apart.ne {range : Nat × Nat} {shift codePoint key : Nat}
    (h : Apart range shift (key, key)) (hwithin : Within codePoint range) :
    key ≠ codePoint + shift := by
  rintro rfl
  exact h.not_within hwithin ⟨le_rfl, le_rfl⟩

/-- The lower case that a fold writes, and no white space. -/
structure Settled (codePoint : Nat) : Prop where
  fixed : caseFoldCodePoint codePoint = codePoint
  letter : (0x61 ≤ codePoint ∧ codePoint ≤ 0x7A) ∨ (0xDF ≤ codePoint ∧ codePoint < 0x1680)

/-- A code point that folding changes is changed once. -/
theorem Folds.settled {codePoint folded : Nat} (h : Folds codePoint folded) :
    folded = codePoint ∨ Settled folded := by
  cases h with
  | same => exact .inl rfl
  | @shifted range hmem hwithin =>
    have hapart : ∀ range ∈ shiftedRanges,
        (∀ other ∈ shiftedRanges, Apart range 0x20 other) ∧
        (∀ other ∈ evenUpperRanges, Apart range 0x20 other) ∧
        (∀ other ∈ oddUpperRanges, Apart range 0x20 other) ∧
        (∀ entry ∈ foldEntries, Apart range 0x20 (entry.1, entry.1)) ∧
        ((0x41 ≤ range.1 ∧ range.2 ≤ 0x5A) ∨ (0xBF ≤ range.1 ∧ range.2 < 0x1660)) := by
      decide
    obtain ⟨hshifted, heven, hodd, hentry, hletter⟩ := hapart range hmem
    refine .inr ⟨Lower.caseFoldCodePoint_eq ⟨?_, ?_, ?_, ?_⟩, ?_⟩
    · exact fun other hother => (hshifted other hother).not_within hwithin
    · exact fun _ other hother => (heven other hother).not_within hwithin
    · exact fun _ other hother => (hodd other hother).not_within hwithin
    · exact fun entry hentry' => (hentry entry hentry').ne hwithin
    · rw [Within] at hwithin
      omega
  | @even range hmem hwithin hparity =>
    have hapart : ∀ range ∈ evenUpperRanges,
        (∀ other ∈ shiftedRanges, Apart range 1 other) ∧
        (∀ other ∈ oddUpperRanges, Apart range 1 other) ∧
        (∀ entry ∈ foldEntries, Apart range 1 (entry.1, entry.1)) ∧
        0xDF ≤ range.1 ∧ range.2 < 0x1660 := by
      decide
    obtain ⟨hshifted, hodd, hentry, hletter⟩ := hapart range hmem
    refine .inr ⟨Lower.caseFoldCodePoint_eq ⟨?_, ?_, ?_, ?_⟩, ?_⟩
    · exact fun other hother => (hshifted other hother).not_within hwithin
    · exact fun heven => absurd heven (by omega)
    · exact fun _ other hother => (hodd other hother).not_within hwithin
    · exact fun entry hentry' => (hentry entry hentry').ne hwithin
    · rw [Within] at hwithin
      omega
  | @odd range hmem hwithin hparity =>
    have hapart : ∀ range ∈ oddUpperRanges,
        (∀ other ∈ shiftedRanges, Apart range 1 other) ∧
        (∀ other ∈ evenUpperRanges, Apart range 1 other) ∧
        (∀ entry ∈ foldEntries, Apart range 1 (entry.1, entry.1)) ∧
        0xDF ≤ range.1 ∧ range.2 < 0x1660 := by
      decide
    obtain ⟨hshifted, heven, hentry, hletter⟩ := hapart range hmem
    refine .inr ⟨Lower.caseFoldCodePoint_eq ⟨?_, ?_, ?_, ?_⟩, ?_⟩
    · exact fun other hother => (hshifted other hother).not_within hwithin
    · exact fun _ other hother => (heven other hother).not_within hwithin
    · exact fun hodd => absurd hodd (by omega)
    · exact fun entry hentry' => (hentry entry hentry').ne hwithin
    · rw [Within] at hwithin
      omega
  | entry hmem =>
    have hall : ∀ entry ∈ foldEntries, caseFoldCodePoint entry.2 = entry.2 ∧
        ((0x61 ≤ entry.2 ∧ entry.2 ≤ 0x7A) ∨ (0xDF ≤ entry.2 ∧ entry.2 < 0x1680)) := by
      decide
    exact .inr ⟨(hall _ hmem).1, (hall _ hmem).2⟩

theorem Settled.visible {codePoint : Nat} (h : Settled codePoint) :
    isUnicodeWhitespace codePoint = false := by
  have hletter := h.letter
  have hspaces : ∀ space ∈ [0x09, 0x0A, 0x0B, 0x0C, 0x0D, 0x20, 0x85, 0xA0, 0x1680, 0x2028, 0x2029,
      0x202F, 0x205F, 0x3000], ¬((0x61 ≤ space ∧ space ≤ 0x7A) ∨ (0xDF ≤ space ∧ space < 0x1680)) := by
    decide
  rw [isUnicodeWhitespace, Bool.or_eq_false_iff]
  constructor
  · rw [← Bool.not_eq_true, List.contains_iff_mem]
    exact fun hmem => hspaces codePoint hmem hletter
  · rw [Bool.and_eq_false_iff]
    exact .inl (decide_eq_false (by omega))

/-- The characters that the normalization of a language looks for. -/
def languageSeparators : List Nat := [0x2C, 0x3B, 0x2F, 0x2B, 0x5F]

/-- What holds of the folded form of every code point. -/
structure FoldFacts (codePoint : Nat) : Prop where
  stable : ∀ c ∈ foldedCodePoints codePoint, foldedCodePoints c = [c]
  visible : isUnicodeWhitespace codePoint = false →
    ∀ c ∈ foldedCodePoints codePoint, isUnicodeWhitespace c = false
  valid : codePoint.isValidChar → ∀ c ∈ foldedCodePoints codePoint, c.isValidChar
  separator : ∀ c ∈ foldedCodePoints codePoint, c ∈ languageSeparators → c = codePoint

theorem Settled.not_separator {codePoint : Nat} (h : Settled codePoint) :
    codePoint ∉ languageSeparators := by
  have hall : ∀ c ∈ languageSeparators, c < 0x61 := by decide
  have hletter := h.letter
  intro hmem
  have hlt := hall codePoint hmem
  omega

theorem foldFacts (codePoint : Nat) : FoldFacts codePoint := by
  have hsettled := (folds_caseFoldCodePoint codePoint).settled
  by_cases hsharp : caseFoldCodePoint codePoint = 0xDF
  · have hfold : foldedCodePoints codePoint = [0x73, 0x73] := by
      rw [foldedCodePoints, if_pos hsharp]
    have hs : foldedCodePoints 0x73 = [0x73] := by decide
    constructor <;> rw [hfold] <;> simp only [List.mem_cons, List.not_mem_nil, or_false, or_self]
    · rintro c rfl
      exact hs
    · rintro - c rfl
      decide
    · rintro - c rfl
      exact .inl (by decide)
    · rintro c rfl
      exact fun hmem => absurd hmem (by decide)
  · have hfold : foldedCodePoints codePoint = [caseFoldCodePoint codePoint] := by
      rw [foldedCodePoints, if_neg hsharp]
    have hfixed : caseFoldCodePoint (caseFoldCodePoint codePoint) = caseFoldCodePoint codePoint := by
      rcases hsettled with h | h
      · rw [h, h]
      · exact h.fixed
    constructor <;> rw [hfold] <;> simp only [List.mem_singleton, forall_eq]
    · rw [foldedCodePoints, hfixed, if_neg hsharp]
    · intro hvisible
      rcases hsettled with h | h
      · rwa [h]
      · exact h.visible
    · intro hvalid
      rcases hsettled with h | h
      · rwa [h]
      · exact .inl (by have := h.letter; omega)
    · intro hseparator
      rcases hsettled with h | h
      · exact h
      · exact absurd hseparator h.not_separator

/-! ### Canonical texts -/

/-- A character that is folded already, and no white space. -/
structure CanonicalChar (c : Char) : Prop where
  visible : isUnicodeWhitespace c.toNat = false
  stable : foldedCodePoints c.toNat = [c.toNat]

def CanonicalWords (words : List (List Char)) : Prop :=
  ∀ word ∈ words, word ≠ [] ∧ ∀ c ∈ word, CanonicalChar c

/-- The words, one space apart. -/
def spaced (words : List (List Char)) : List Char := [' '].intercalate words

/-- No white space at either end, and never two in a row. -/
structure CollapsedWhitespace (text : List Char) : Prop where
  head : ∀ c ∈ text.head?, isUnicodeWhitespace c.toNat = false
  last : ∀ c ∈ text.getLast?, isUnicodeWhitespace c.toNat = false
  repeated : text.IsChain fun c d =>
    isUnicodeWhitespace c.toNat = false ∨ isUnicodeWhitespace d.toNat = false

theorem spaced_cons_cons (word word' : List Char) (words : List (List Char)) :
    spaced (word :: word' :: words) = word ++ ' ' :: spaced (word' :: words) := by
  rw [spaced, List.intercalate_cons_cons, List.append_assoc, List.singleton_append, spaced]

theorem encodeUtf8_spaced (words : List (List Char)) :
    encodeUtf8 (spaced words) = (ascii " ").intercalate (words.map encodeUtf8) := by
  induction words with
  | nil => rfl
  | cons word words ih =>
    cases words with
    | nil => rw [spaced, List.intercalate_singleton, List.map_singleton, List.intercalate_singleton]
    | cons word' words =>
      have hwords : (word :: word' :: words).map encodeUtf8 =
          encodeUtf8 word :: encodeUtf8 word' :: words.map encodeUtf8 := rfl
      rw [spaced_cons_cons, encodeUtf8_append, encodeUtf8_cons, ih, hwords,
        List.intercalate_cons_cons, List.append_assoc]
      rfl

theorem map_foldStep_word {word : List Char} (h : ∀ c ∈ word, CanonicalChar c) :
    word.map foldStep = (word.map fun c => utf8OfCodePoint c.toNat).map some := by
  rw [List.map_map]
  refine List.map_congr_left fun c hc => ?_
  rw [foldStep, (h c hc).visible, if_neg Bool.false_ne_true, caseFolded_eq, (h c hc).stable,
    List.flatMap_singleton]
  rfl

theorem wordsOf_spaced {words : List (List Char)} (h : CanonicalWords words) :
    wordsOf ((spaced words).map foldStep) = words.map encodeUtf8 := by
  induction words with
  | nil => rfl
  | cons word words ih =>
    obtain ⟨hne, hword⟩ := h word List.mem_cons_self
    have hmap : word.map (fun c => utf8OfCodePoint c.toNat) ≠ [] := fun hnil =>
      hne (List.map_eq_nil_iff.mp hnil)
    cases words with
    | nil =>
      rw [spaced, List.intercalate_singleton, map_foldStep_word hword, wordsOf_word hmap]
      rfl
    | cons word' words =>
      have hspace : foldStep ' ' = none := rfl
      rw [spaced_cons_cons, List.map_append, List.map_cons, hspace, map_foldStep_word hword,
        wordsOf_word_append hmap, ih fun w hw => h w (List.mem_cons_of_mem _ hw)]
      rfl

theorem tryNormalize_spaced {words : List (List Char)} (h : CanonicalWords words) :
    tryNormalizeUtf8WhitespaceAndCaseFold (encodeUtf8 (spaced words)) =
      some (encodeUtf8 (spaced words)) := by
  rw [tryNormalize_encodeUtf8, collapsed, wordsOf_spaced h, encodeUtf8_spaced]

theorem spaced_ne_nil {word : List Char} (h : word ≠ []) (words : List (List Char)) :
    spaced (word :: words) ≠ [] := by
  cases words with
  | nil =>
    rw [spaced, List.intercalate_singleton]
    exact h
  | cons word' words =>
    rw [spaced_cons_cons]
    exact fun hnil => h (List.append_eq_nil_iff.mp hnil).1

theorem collapsedWhitespace_spaced {words : List (List Char)} (h : CanonicalWords words) :
    CollapsedWhitespace (spaced words) := by
  induction words with
  | nil => exact ⟨by simp [spaced], by simp [spaced], by simp [spaced]⟩
  | cons word words ih =>
    obtain ⟨hne, hword⟩ := h word List.mem_cons_self
    have hchain : word.IsChain fun c d =>
        isUnicodeWhitespace c.toNat = false ∨ isUnicodeWhitespace d.toNat = false :=
      (List.pairwise_of_forall_mem_list fun c hc _ _ => .inl (hword c hc).visible).isChain
    have hhead : ∀ c ∈ word.head?, isUnicodeWhitespace c.toNat = false := fun c hc =>
      (hword c (List.mem_of_mem_head? hc)).visible
    have hlast : ∀ c ∈ word.getLast?, isUnicodeWhitespace c.toNat = false := fun c hc =>
      (hword c (List.mem_of_mem_getLast? hc)).visible
    cases words with
    | nil =>
      rw [spaced, List.intercalate_singleton]
      exact ⟨hhead, hlast, hchain⟩
    | cons word' words =>
      obtain ⟨hhead', hlast', hchain'⟩ := ih fun w hw => h w (List.mem_cons_of_mem _ hw)
      obtain ⟨d, rest, hrest⟩ := List.exists_cons_of_ne_nil
        (spaced_ne_nil (h word' (List.mem_cons_of_mem _ List.mem_cons_self)).1 words)
      rw [hrest] at hhead' hlast' hchain'
      rw [spaced_cons_cons, hrest]
      refine ⟨?_, ?_, ?_⟩
      · rw [List.head?_append_of_ne_nil _ hne]
        exact hhead
      · rw [List.getLast?_append_cons, List.getLast?_cons_cons]
        exact hlast'
      · rw [List.isChain_append_cons_cons, List.isChain_append]
        refine ⟨⟨hchain, .singleton _, fun c hc _ _ => .inl (hlast c hc)⟩, .inr ?_, hchain'⟩
        exact hhead' d rfl

/-! ### Every valid text has a canonical form -/

/-- Where a character of the form comes from. -/
def FoldedFrom (text : List Char) (c : Char) : Prop :=
  ∃ d ∈ text, c.toNat ∈ foldedCodePoints d.toNat

theorem exists_chars {codePoints : List Nat} (h : ∀ c ∈ codePoints, c.isValidChar) :
    ∃ text : List Char, text.map Char.toNat = codePoints := by
  induction codePoints with
  | nil => exact ⟨[], rfl⟩
  | cons c codePoints ih =>
    obtain ⟨text, rfl⟩ := ih fun d hd => h d (List.mem_cons_of_mem _ hd)
    exact ⟨Char.ofNatAux c (h c List.mem_cons_self) :: text, rfl⟩

theorem flatMap_utf8OfCodePoint_map (text : List Char) :
    (text.map Char.toNat).flatMap utf8OfCodePoint = encodeUtf8 text := by
  rw [List.flatMap_map, encodeUtf8]

theorem exists_folded {text : List Char} {d : Char} (hd : d ∈ text)
    (hvisible : isUnicodeWhitespace d.toNat = false) :
    ∃ folded : List Char, encodeUtf8 folded = caseFolded d.toNat ∧ folded ≠ [] ∧
      ∀ c ∈ folded, CanonicalChar c ∧ FoldedFrom text c := by
  have facts := foldFacts d.toNat
  obtain ⟨folded, hfolded⟩ := exists_chars (facts.valid d.valid)
  refine ⟨folded, ?_, ?_, fun c hc => ?_⟩
  · rw [← flatMap_utf8OfCodePoint_map, hfolded, ← caseFolded_eq]
  · rintro rfl
    have hnil := caseFolded_eq d.toNat
    rw [← hfolded] at hnil
    exact caseFolded_ne_nil _ hnil
  · have hmem : c.toNat ∈ foldedCodePoints d.toNat := by
      rw [← hfolded]
      exact List.mem_map_of_mem hc
    exact ⟨⟨facts.visible hvisible _ hmem, facts.stable _ hmem⟩, d, hd, hmem⟩

/-- A step that is not white space is a character that was folded. -/
theorem exists_foldStep {text : List Char} {step : Option Bytes}
    (h : step ∈ text.map foldStep) (hsome : step.isNone = false) :
    ∃ d ∈ text, isUnicodeWhitespace d.toNat = false ∧ step = some (caseFolded d.toNat) := by
  obtain ⟨d, hd, rfl⟩ := List.mem_map.mp h
  cases hspace : isUnicodeWhitespace d.toNat with
  | true =>
    rw [foldStep, hspace, if_pos rfl] at hsome
    cases hsome
  | false =>
    refine ⟨d, hd, hspace, ?_⟩
    rw [foldStep, hspace, if_neg Bool.false_ne_true]

theorem exists_word {text : List Char} {part : List (Option Bytes)}
    (h : ∀ step ∈ part, step ∈ text.map foldStep ∧ step.isNone = false) :
    ∃ word : List Char, encodeUtf8 word = part.reduceOption.flatten ∧
      (part ≠ [] → word ≠ []) ∧ ∀ c ∈ word, CanonicalChar c ∧ FoldedFrom text c := by
  induction part with
  | nil => exact ⟨[], rfl, fun hne => absurd rfl hne, fun c hc => absurd hc List.not_mem_nil⟩
  | cons step part ih =>
    obtain ⟨word, hword, -, hchars⟩ := ih fun s hs => h s (List.mem_cons_of_mem _ hs)
    obtain ⟨hmem, hsome⟩ := h step List.mem_cons_self
    obtain ⟨d, hd, hvisible, rfl⟩ := exists_foldStep hmem hsome
    obtain ⟨folded, hfolded, hne, hcanonical⟩ := exists_folded hd hvisible
    refine ⟨folded ++ word, ?_, fun _ hnil => hne (List.append_eq_nil_iff.mp hnil).1,
      fun c hc => ?_⟩
    · rw [encodeUtf8_append, hfolded, hword, List.reduceOption_cons_of_some, List.flatten_cons]
    · exact (List.mem_append.mp hc).elim (hcanonical c) (hchars c)

theorem exists_words {text : List Char} {parts : List (List (Option Bytes))}
    (h : ∀ part ∈ parts, part ≠ [] ∧
      ∀ step ∈ part, step ∈ text.map foldStep ∧ step.isNone = false) :
    ∃ words : List (List Char),
      words.map encodeUtf8 = (parts.map fun part => part.reduceOption.flatten) ∧
        CanonicalWords words ∧ ∀ word ∈ words, ∀ c ∈ word, FoldedFrom text c := by
  induction parts with
  | nil =>
    refine ⟨[], rfl, ?_, ?_⟩
    · exact fun w hw => absurd hw List.not_mem_nil
    · exact fun w hw => absurd hw List.not_mem_nil
  | cons part parts ih =>
    obtain ⟨words, hwords, hcanonical, hfrom⟩ := ih fun p hp => h p (List.mem_cons_of_mem _ hp)
    obtain ⟨hne, hsteps⟩ := h part List.mem_cons_self
    obtain ⟨word, hword, hword_ne, hchars⟩ := exists_word hsteps
    refine ⟨word :: words, ?_, ?_, ?_⟩
    · rw [List.map_cons, List.map_cons, hword, hwords]
    · rw [CanonicalWords, List.forall_mem_cons]
      exact ⟨⟨hword_ne hne, fun c hc => (hchars c hc).1⟩, hcanonical⟩
    · rw [List.forall_mem_cons]
      exact ⟨fun c hc => (hchars c hc).2, hfrom⟩

/-- The form of a valid text is canonical, and its characters come from the text. -/
theorem tryNormalize_canonical (text : List Char) :
    ∃ words, tryNormalizeUtf8WhitespaceAndCaseFold (encodeUtf8 text) =
        some (encodeUtf8 (spaced words)) ∧
      CanonicalWords words ∧ ∀ word ∈ words, ∀ c ∈ word, FoldedFrom text c := by
  obtain ⟨words, hwords, hcanonical, hfrom⟩ := @exists_words text
    (((text.map foldStep).splitOnP Option.isNone).filter fun word => word ≠ []) fun part hpart => by
      obtain ⟨hmem, hne⟩ := List.mem_filter.mp hpart
      exact ⟨of_decide_eq_true hne, mem_splitOnP_isNone part hmem⟩
  refine ⟨words, ?_, hcanonical, hfrom⟩
  rw [tryNormalize_encodeUtf8, collapsed, wordsOf, ← hwords, encodeUtf8_spaced]

theorem tryNormalize_spec {value : Bytes} (h : ValidUtf8 value) :
    ∃ text, tryNormalizeUtf8WhitespaceAndCaseFold value = some (encodeUtf8 text) ∧
      CollapsedWhitespace text ∧
      tryNormalizeUtf8WhitespaceAndCaseFold (encodeUtf8 text) = some (encodeUtf8 text) := by
  obtain ⟨text, rfl⟩ := validUtf8_iff_encodeUtf8.mp h
  obtain ⟨words, hform, hcanonical, -⟩ := tryNormalize_canonical text
  exact ⟨spaced words, hform, collapsedWhitespace_spaced hcanonical,
    tryNormalize_spaced hcanonical⟩

/-! ### Languages -/

/-- A separator in the bytes of a text is a character of it. -/
theorem mem_encodeUtf8_separator {text : List Char} {c : Nat} (hc : c ∈ languageSeparators) :
    UInt8.ofNat c ∈ encodeUtf8 text ↔ ∃ d ∈ text, d.toNat = c := by
  have hall : ∀ c ∈ languageSeparators, c < 128 := by decide
  have hascii := hall c hc
  have hbyte : UInt8.ofNat c < 0x80 := by
    rw [UInt8.lt_iff_toNat_lt, toNat_ofNat_of_lt (by omega)]
    exact hascii
  constructor
  · intro hmem
    obtain ⟨d, hd, hbytes⟩ := List.mem_flatMap.mp hmem
    have hvalid : d.toNat.isValidChar := d.valid
    rcases utf8OfCodePoint_ascii_or hvalid with ⟨b, heq, hb⟩ | hother
    · refine ⟨d, hd, ?_⟩
      have hread := tryDecodeUtf8CodePoint_utf8OfCodePoint hvalid []
      rw [heq, List.append_nil, tryDecodeUtf8CodePoint_one (UInt8.lt_iff_toNat_lt.mp hb)] at hread
      injection hread with hread
      injection hread with hread
      rw [heq, List.mem_singleton] at hbytes
      rw [← hread, ← hbytes, toNat_ofNat_of_lt (by omega)]
    · exact absurd hbyte (hother _ hbytes)
  · rintro ⟨d, hd, rfl⟩
    refine List.mem_flatMap.mpr ⟨d, hd, ?_⟩
    rw [utf8OfCodePoint, if_pos (by omega)]
    exact List.mem_singleton_self _

/-- A text in which a language looks for no separator. -/
def SeparatorFree (value : Bytes) : Prop := ∀ c ∈ languageSeparators, UInt8.ofNat c ∉ value

theorem separatorFree_firstListToken (value : Bytes) :
    SeparatorFree (firstListToken (hyphenated value)) := by
  intro c hc hmem
  have htoken := List.mem_takeWhile_imp hmem
  obtain ⟨b, -, hb⟩ := List.mem_map.mp ((List.takeWhile_sublist _).subset hmem)
  rcases List.mem_cons.mp hc with rfl | hc
  · exact absurd htoken (by decide)
  rcases List.mem_cons.mp hc with rfl | hc
  · exact absurd htoken (by decide)
  rcases List.mem_cons.mp hc with rfl | hc
  · exact absurd htoken (by decide)
  rcases List.mem_cons.mp hc with rfl | hc
  · exact absurd htoken (by decide)
  · -- the underscore
    rw [List.mem_singleton.mp hc] at hb
    split at hb
    · exact absurd hb (by decide)
    · rename_i hunderscore
      exact hunderscore hb

theorem hyphenated_of_separatorFree {value : Bytes} (h : SeparatorFree value) :
    hyphenated value = value := by
  rw [hyphenated]
  have hid : value.map (fun b => if b = asciiByte '_' then asciiByte '-' else b) = value.map id := by
    refine List.map_congr_left fun b hb => if_neg ?_
    rintro rfl
    exact h 0x5F (by decide) hb
  rw [hid, List.map_id]

theorem firstListToken_of_separatorFree {value : Bytes} (h : SeparatorFree value) :
    firstListToken value = value := by
  refine List.takeWhile_eq_self_iff.mpr fun b hb => ?_
  have hlisted : ∀ b ∈ ascii ",;/+", ∃ c ∈ languageSeparators, UInt8.ofNat c = b :=
    List.all_iff_forall_prop.mp (by decide)
  cases hmem : (ascii ",;/+").contains b with
  | false => rfl
  | true =>
    obtain ⟨c, hc, rfl⟩ := hlisted b (List.contains_iff_mem.mp hmem)
    exact absurd hb (h c hc)

theorem mem_spaced {words : List (List Char)} {c : Char} (h : c ∈ spaced words) :
    c = ' ' ∨ ∃ word ∈ words, c ∈ word := by
  induction words with
  | nil => exact absurd h List.not_mem_nil
  | cons word words ih =>
    cases words with
    | nil =>
      rw [spaced, List.intercalate_singleton] at h
      exact .inr ⟨word, List.mem_cons_self, h⟩
    | cons word' words =>
      rw [spaced_cons_cons, List.mem_append, List.mem_cons] at h
      rcases h with h | h | h
      · exact .inr ⟨word, List.mem_cons_self, h⟩
      · exact .inl h
      · exact (ih h).imp_right fun ⟨w, hw, hc⟩ => ⟨w, List.mem_cons_of_mem _ hw, hc⟩

theorem separatorFree_spaced {text : List Char} {words : List (List Char)}
    (hfrom : ∀ word ∈ words, ∀ c ∈ word, FoldedFrom text c)
    (h : SeparatorFree (encodeUtf8 text)) : SeparatorFree (encodeUtf8 (spaced words)) := by
  intro c hc hmem
  obtain ⟨d, hd, rfl⟩ := (mem_encodeUtf8_separator hc).mp hmem
  rcases mem_spaced hd with rfl | ⟨word, hword, hd⟩
  · exact absurd hc (by decide)
  · obtain ⟨e, he, hfolded⟩ := hfrom word hword d hd
    refine h d.toNat hc ((mem_encodeUtf8_separator hc).mpr ⟨e, he, ?_⟩)
    exact ((foldFacts e.toNat).separator _ hfolded hc).symm

theorem normalizeLanguage_canonical :
    (∀ entry ∈ languageAliases, normalizeLanguage entry.2 = entry.2) ∧
      ∀ code ∈ knownPrimaryCodes, normalizeLanguage code = code := by
  constructor <;> decide

/-- What is resolved is a code of the tables, or the text itself. -/
theorem resolveLanguage_cases (normalized : Bytes) :
    normalizeLanguage (resolveLanguage normalized) = resolveLanguage normalized ∨
      resolveLanguage normalized = normalized := by
  have halias : ∀ value canonical, tryResolveAlias value = some canonical →
      normalizeLanguage canonical = canonical := fun value canonical h =>
    normalizeLanguage_canonical.1 (value, canonical) (mem_of_lookup h)
  rw [resolveLanguage]
  split
  · rename_i canonical h
    exact .inl (halias _ canonical h)
  split
  · dsimp only
    split
    · rename_i canonical h
      exact .inl (halias _ canonical h)
    split
    · rename_i hknown
      exact .inl (normalizeLanguage_canonical.2 _ (List.contains_iff_mem.mp hknown))
    · exact .inr rfl
  · exact .inr rfl

/-- A language that was normalized is not changed any more. -/
theorem normalizeLanguage_idem (language : Bytes) :
    normalizeLanguage (normalizeLanguage language) = normalizeLanguage language := by
  have hsame : normalizeLanguage language = language →
      normalizeLanguage (normalizeLanguage language) = normalizeLanguage language := fun h => by
    rw [h, h]
  cases hfirst : tryNormalizeUtf8WhitespaceAndCaseFold language with
  | none =>
    refine hsame ?_
    rw [normalizeLanguage, hfirst]
  | some normalized =>
    cases hsecond : tryNormalizeUtf8WhitespaceAndCaseFold (firstListToken (hyphenated normalized)) with
    | none =>
      refine hsame ?_
      rw [normalizeLanguage, hfirst]
      dsimp only
      rw [hsecond]
    | some token =>
      have hvalid : ValidUtf8 (firstListToken (hyphenated normalized)) := by
        rw [← tryNormalize_isSome_iff, hsecond]
        rfl
      obtain ⟨text, htext⟩ := validUtf8_iff_encodeUtf8.mp hvalid
      obtain ⟨words, hform, hcanonical, hfrom⟩ := tryNormalize_canonical text
      have htoken : token = encodeUtf8 (spaced words) := by
        rw [htext, hsecond] at hform
        injection hform
      have hfree : SeparatorFree token := by
        rw [htoken]
        refine separatorFree_spaced hfrom ?_
        rw [htext]
        exact separatorFree_firstListToken _
      have hagain : tryNormalizeUtf8WhitespaceAndCaseFold token = some token := by
        rw [htoken]
        exact tryNormalize_spaced hcanonical
      have hresult : normalizeLanguage language = resolveLanguage token := by
        rw [normalizeLanguage, hfirst]
        dsimp only
        rw [hsecond]
        dsimp only
        rw [hyphenated_of_separatorFree hfree]
      have hfixed : normalizeLanguage token = resolveLanguage token := by
        rw [normalizeLanguage, hagain]
        dsimp only
        rw [hyphenated_of_separatorFree hfree, firstListToken_of_separatorFree hfree, hagain]
        dsimp only
        rw [hyphenated_of_separatorFree hfree]
      rw [hresult]
      rcases resolveLanguage_cases token with h | h
      · exact h
      · rw [h, hfixed, h]

/-- Normalization is canonical: of texts, and of languages. -/
theorem normalization_canonical :
    (∀ value, ValidUtf8 value → ∃ text,
      tryNormalizeUtf8WhitespaceAndCaseFold value = some (encodeUtf8 text) ∧
        CollapsedWhitespace text ∧
        tryNormalizeUtf8WhitespaceAndCaseFold (encodeUtf8 text) = some (encodeUtf8 text)) ∧
      ∀ language, normalizeLanguage (normalizeLanguage language) = normalizeLanguage language :=
  ⟨fun _ => tryNormalize_spec, normalizeLanguage_idem⟩

/-- Words, a separator and a tag. -/
theorem normalization_canonical_run :
    (∃ text, tryNormalizeUtf8WhitespaceAndCaseFold (ascii " Ada \t LOVELACE ") =
        some (encodeUtf8 text) ∧ CollapsedWhitespace text) ∧
      normalizeLanguage (normalizeLanguage (ascii " SR_latn, en")) =
        normalizeLanguage (ascii " SR_latn, en") := by
  obtain ⟨htexts, hlanguages⟩ := normalization_canonical
  obtain ⟨text, hform, hcollapsed, -⟩ := htexts (ascii " Ada \t LOVELACE ")
    (isValidUtf8_iff.mp (by decide))
  exact ⟨⟨text, hform, hcollapsed⟩, hlanguages _⟩

end InpxWebReader.Domain
