import InpxWebReader.Domain.Metadata
import InpxWebReader.Foundation.CodePoints
import Mathlib.Data.List.ReduceOption

/-!
# The normal form of a text

`NormalizeText` of a valid text is its case-folded form with collapsed white space, escaped where it
begins like the form of an invalid text; the form of an invalid text has its bytes. So two texts
have the same normal form exactly if they are both valid and fold to the same text, or are the same
invalid bytes.
-/

namespace InpxWebReader.Domain

open Foundation Unicode

/-! ### What the loop reads -/

theorem normalizeFrom_isSome_iff {fuel : Nat} {rest : Bytes} (h : rest.length ≤ fuel) :
    ∀ (normalized : Bytes) (previousWasWhitespace : Bool),
      (normalizeFrom fuel rest normalized previousWasWhitespace).isSome = true ↔
        ValidUtf8 rest := by
  induction fuel generalizing rest with
  | zero =>
    intro normalized previousWasWhitespace
    have hnil : rest = [] := List.length_eq_zero_iff.mp (by omega)
    subst hnil
    exact ⟨fun _ => .nil, fun _ => rfl⟩
  | succ fuel ih =>
    intro normalized previousWasWhitespace
    cases rest with
    | nil => exact ⟨fun _ => .nil, fun _ => rfl⟩
    | cons b rest =>
      rw [normalizeFrom]
      · cases hd : tryDecodeUtf8CodePoint (b :: rest) with
        | none =>
          refine ⟨nofun, fun hvalid => ?_⟩
          cases hvalid with
          | step decode _ =>
            rw [hd] at decode
            cases decode
        | some p =>
          obtain ⟨codePoint, rest'⟩ := p
          have hlt := length_lt_of_tryDecodeUtf8CodePoint hd
          have hrest : rest'.length ≤ fuel := by omega
          have hiff : ValidUtf8 (b :: rest) ↔ ValidUtf8 rest' := by
            refine ⟨fun hvalid => ?_, fun tail => .step hd tail⟩
            cases hvalid with
            | step decode tail =>
              rw [hd] at decode
              cases decode
              exact tail
          rw [hiff]
          dsimp only
          split
          · exact ih hrest _ _
          · exact ih hrest _ _
      · exact fun h => by cases h

/-- The loop gives up exactly on a text that is not UTF-8. -/
theorem tryNormalize_isSome_iff {value : Bytes} :
    (tryNormalizeUtf8WhitespaceAndCaseFold value).isSome = true ↔ ValidUtf8 value := by
  rw [tryNormalizeUtf8WhitespaceAndCaseFold, Option.isSome_map]
  exact normalizeFrom_isSome_iff le_rfl _ _

theorem tryNormalize_eq_none_iff {value : Bytes} :
    tryNormalizeUtf8WhitespaceAndCaseFold value = none ↔ ¬ValidUtf8 value := by
  rw [← tryNormalize_isSome_iff, Bool.not_eq_true, Option.isSome_eq_false_iff,
    Option.isNone_iff_eq_none]

/-! ### The escape -/

theorem escape_inj {normalized normalized' : Bytes}
    (h : escapeValidTextForNormalizationKey normalized =
      escapeValidTextForNormalizationKey normalized') : normalized = normalized' := by
  rw [escapeValidTextForNormalizationKey, escapeValidTextForNormalizationKey] at h
  split at h <;> split at h
  · exact List.append_cancel_left h
  · rename_i _ hnot
    rw [← h] at hnot
    exact absurd (List.isPrefixOf_iff_prefix.mpr (List.prefix_append ..)) hnot
  · rename_i hnot _
    rw [h] at hnot
    exact absurd (List.isPrefixOf_iff_prefix.mpr (List.prefix_append ..)) hnot
  · exact h

/-- The form of a valid text is not the form of an invalid one: behind the sentinel it has no
`i`. -/
theorem escape_ne_encodeInvalid (normalized value : Bytes) :
    escapeValidTextForNormalizationKey normalized ≠ encodeInvalidUtf8ForNormalization value := by
  intro h
  rw [escapeValidTextForNormalizationKey, encodeInvalidUtf8ForNormalization,
    List.append_assoc] at h
  split at h
  · rename_i hpre
    obtain ⟨rest, rfl⟩ := List.isPrefixOf_iff_prefix.mp hpre
    have hhead := congrArg List.head? (List.append_cancel_left h)
    change some (0xEE : UInt8) = some (asciiByte 'i') at hhead
    exact absurd hhead (by decide)
  · rename_i hnot
    rw [h] at hnot
    exact hnot (List.isPrefixOf_iff_prefix.mpr (List.prefix_append ..))

theorem encodeInvalid_inj {value value' : Bytes}
    (h : encodeInvalidUtf8ForNormalization value = encodeInvalidUtf8ForNormalization value') :
    value = value' :=
  hexText_inj (List.append_cancel_left h)

/-! ### White space and case -/

/-- A code point in the normal form: its folded bytes, or none for white space. -/
def foldStep (c : Char) : Option Bytes :=
  if isUnicodeWhitespace c.toNat then none else some (caseFolded c.toNat)

/-- The words of a text: what is folded between white space. -/
def wordsOf (steps : List (Option Bytes)) : List Bytes :=
  ((steps.splitOnP Option.isNone).filter fun word => word ≠ []).map fun word =>
    word.reduceOption.flatten

/-- The case-folded form of a text with collapsed white space: its words, one space apart. -/
def collapsed (steps : List (Option Bytes)) : Bytes := (ascii " ").intercalate (wordsOf steps)

/-- What the loop appends, from a state of its flag. -/
def collapseFrom : Bool → List (Option Bytes) → Bytes
  | _, [] => []
  | previousWasWhitespace, none :: steps =>
    (if previousWasWhitespace then [] else ascii " ") ++ collapseFrom true steps
  | _, some folded :: steps => folded ++ collapseFrom false steps

theorem normalizeFrom_encodeUtf8 (text : List Char) :
    ∀ (fuel : Nat) (normalized : Bytes) (previousWasWhitespace : Bool),
      (encodeUtf8 text).length ≤ fuel →
        normalizeFrom fuel (encodeUtf8 text) normalized previousWasWhitespace =
          some (normalized ++ collapseFrom previousWasWhitespace (text.map foldStep)) := by
  induction text with
  | nil =>
    intro fuel normalized previousWasWhitespace _
    rw [encodeUtf8_nil, List.map_nil, collapseFrom, List.append_nil]
    cases fuel <;> rfl
  | cons c text ih =>
    intro fuel normalized previousWasWhitespace hfuel
    have hpos := List.length_pos_iff.mpr (utf8OfCodePoint_ne_nil c.toNat)
    rw [encodeUtf8_cons, List.length_append] at hfuel
    obtain ⟨fuel, rfl⟩ : ∃ n, fuel = n + 1 := ⟨fuel - 1, by omega⟩
    rw [encodeUtf8_cons, normalizeFrom, tryDecodeUtf8CodePoint_encodeUtf8, List.map_cons, foldStep]
    · dsimp only
      split
      · rw [ih fuel _ true (by omega), collapseFrom]
        cases previousWasWhitespace
        · simp
        · simp
      · rw [ih fuel _ false (by omega), collapseFrom, List.append_assoc]
    · intro hnil
      rw [List.append_eq_nil_iff] at hnil
      exact utf8OfCodePoint_ne_nil _ hnil.1

/-! ### Words -/

theorem reduceOption_map_some (word : List Bytes) : (word.map some).reduceOption = word := by
  induction word with
  | nil => rfl
  | cons x word ih => rw [List.map_cons, List.reduceOption_cons_of_some, ih]

theorem isNone_of_mem_map_some {word : List Bytes} {x : Option Bytes} (h : x ∈ word.map some) :
    x.isNone = false := by
  obtain ⟨y, _, rfl⟩ := List.mem_map.mp h
  rfl

@[simp] theorem wordsOf_nil : wordsOf [] = [] := rfl

@[simp] theorem wordsOf_none (steps : List (Option Bytes)) :
    wordsOf (none :: steps) = wordsOf steps := by
  rw [wordsOf, List.splitOnP_cons_eq_if_modifyHead, Option.isNone_none, if_pos rfl,
    List.filter_cons_of_neg (by simp)]
  rfl

theorem wordsOf_some_ne_nil (folded : Bytes) (steps : List (Option Bytes)) :
    wordsOf (some folded :: steps) ≠ [] := by
  rw [wordsOf, List.splitOnP_cons_eq_if_modifyHead, Option.isNone_some,
    if_neg Bool.false_ne_true]
  cases hsplit : steps.splitOnP Option.isNone with
  | nil => exact absurd hsplit (List.splitOnP_ne_nil _ _)
  | cons word words =>
    rw [List.modifyHead_cons, List.filter_cons_of_pos (by simp)]
    exact List.cons_ne_nil _ _

theorem wordsOf_word {word : List Bytes} (h : word ≠ []) :
    wordsOf (word.map some) = [word.flatten] := by
  rw [wordsOf, List.splitOnP_eq_singleton fun x hx => isNone_of_mem_map_some hx,
    List.filter_cons_of_pos (by simpa using h), List.filter_nil, List.map_singleton,
    reduceOption_map_some]

/-- A word and what is behind the white space after it. -/
theorem wordsOf_word_append {word : List Bytes} (h : word ≠ []) (steps : List (Option Bytes)) :
    wordsOf (word.map some ++ none :: steps) = word.flatten :: wordsOf steps := by
  rw [wordsOf, List.splitOnP_append_cons_of_forall_mem
    (fun x hx => isNone_of_mem_map_some hx) none rfl, List.filter_cons_of_pos (by simpa using h),
    List.map_cons, reduceOption_map_some]
  rfl

/-- The loop appends the words one space apart, and perhaps a space at the end. In the middle of a
word, the word begins with what was folded of it. -/
theorem collapseFrom_eq (steps : List (Option Bytes)) :
    ((wordsOf steps = [] → collapseFrom true steps = []) ∧
      (collapseFrom true steps = collapsed steps ∨
        collapseFrom true steps = collapsed steps ++ ascii " ")) ∧
    ∀ word : List Bytes, word ≠ [] →
      (word.flatten ++ collapseFrom false steps = collapsed (word.map some ++ steps) ∨
        word.flatten ++ collapseFrom false steps =
          collapsed (word.map some ++ steps) ++ ascii " ") := by
  induction steps with
  | nil =>
    refine ⟨⟨fun _ => rfl, .inl rfl⟩, fun word hword => .inl ?_⟩
    rw [collapseFrom, List.append_nil, List.append_nil, collapsed, wordsOf_word hword,
      List.intercalate_singleton]
  | cons step steps ih =>
    obtain ⟨⟨hempty, hspace⟩, hinside⟩ := ih
    cases step with
    | none =>
      constructor
      · rw [collapsed, wordsOf_none, collapseFrom, if_pos rfl, List.nil_append]
        exact ⟨hempty, hspace⟩
      · intro word hword
        rw [collapsed, wordsOf_word_append hword, collapseFrom, if_neg Bool.false_ne_true]
        by_cases hnone : wordsOf steps = []
        · -- the space behind the last word
          rw [hnone, hempty hnone, List.intercalate_singleton, List.append_nil]
          exact .inr rfl
        · rw [List.intercalate_cons_of_ne_nil hnone]
          rcases hspace with h | h
          · rw [h]
            exact .inl (List.append_assoc ..).symm
          · rw [h]
            refine .inr ?_
            simp only [collapsed, List.append_assoc]
    | some folded =>
      constructor
      · refine ⟨fun hnone => absurd hnone (wordsOf_some_ne_nil _ _), ?_⟩
        have h := hinside [folded] (List.cons_ne_nil _ _)
        rw [List.flatten_singleton] at h
        exact h
      · intro word hword
        have h := hinside (word ++ [folded]) (by simp)
        rw [List.flatten_append, List.flatten_singleton, List.append_assoc, List.map_append,
          List.map_singleton, List.append_assoc, List.singleton_append] at h
        exact h

/-! ### The end of the form -/

/-- A code point other than a space is not written with a space at its end. -/
theorem getLast?_utf8OfCodePoint {codePoint : Nat} (h : codePoint ≠ 0x20) :
    (utf8OfCodePoint codePoint).getLast? ≠ some (asciiByte ' ') := by
  have hspace : (asciiByte ' ').toNat = 32 := rfl
  intro hlast
  rw [utf8OfCodePoint] at hlast
  split_ifs at hlast <;>
    simp only [List.getLast?_cons_cons, List.getLast?_singleton, Option.some.injEq] at hlast <;>
    have hbyte := congrArg UInt8.toNat hlast <;>
    rw [hspace, toNat_ofNat_of_lt (by omega)] at hbyte <;>
    omega

theorem lookup_of_forall {table : List (Nat × Nat)} {P : Nat → Prop}
    (hall : ∀ entry ∈ table, P entry.2) {codePoint folded : Nat}
    (h : table.lookup codePoint = some folded) : P folded := by
  induction table with
  | nil => cases h
  | cons entry table ih =>
    rw [List.lookup_cons] at h
    split at h
    · injection h with h
      rw [← h]
      exact hall entry List.mem_cons_self
    · exact ih (fun e he => hall e (List.mem_cons_of_mem _ he)) h

theorem caseFoldCodePoint_ne_space {codePoint : Nat} (h : codePoint ≠ 0x20) :
    caseFoldCodePoint codePoint ≠ 0x20 := by
  have hsingle : ∀ entry ∈ singleFolds, entry.2 ≠ 0x20 := by decide
  have hcyrillic : ∀ entry ∈ cyrillicExtensionFolds, entry.2 ≠ 0x20 := by decide
  rw [caseFoldCodePoint]
  dsimp only
  by_cases hascii : codePoint ≤ 0x7F
  · rw [if_pos hascii]
    split <;> omega
  rw [if_neg hascii]
  split
  · omega
  split
  · omega
  split
  · omega
  split
  · rename_i folded hfolded
    exact @lookup_of_forall _ (· ≠ 0x20) hsingle _ _ hfolded
  split
  · omega
  cases hlookup : cyrillicExtensionFolds.lookup codePoint with
  | none => exact h
  | some folded => exact @lookup_of_forall _ (· ≠ 0x20) hcyrillic _ _ hlookup

theorem caseFolded_ne_nil (codePoint : Nat) : caseFolded codePoint ≠ [] := by
  rw [caseFolded]
  split
  · decide
  · exact utf8OfCodePoint_ne_nil _

/-- A text that does not end with a space. -/
def EndsInWord (text : Bytes) : Prop := text ≠ [] ∧ text.getLast? ≠ some (asciiByte ' ')

/-- What a code point is folded to does not end with a space. -/
theorem endsInWord_of_foldStep {c : Char} {folded : Bytes} (h : foldStep c = some folded) :
    EndsInWord folded := by
  rw [foldStep] at h
  split at h
  · cases h
  rename_i hspace
  injection h with h
  subst h
  refine ⟨caseFolded_ne_nil _, ?_⟩
  rw [caseFolded]
  split
  · decide
  · refine getLast?_utf8OfCodePoint (caseFoldCodePoint_ne_space fun hc => hspace ?_)
    rw [hc]
    decide

/-- The parts between white space have what the steps have, but for white space. -/
theorem mem_splitOnP_isNone {steps : List (Option Bytes)} :
    ∀ word ∈ steps.splitOnP Option.isNone, ∀ x ∈ word, x ∈ steps ∧ x.isNone = false := by
  induction steps with
  | nil =>
    intro word hword x hx
    rw [List.splitOnP_nil, List.mem_singleton] at hword
    rw [hword] at hx
    cases hx
  | cons step steps ih =>
    intro word hword x hx
    rw [List.splitOnP_cons_eq_if_modifyHead] at hword
    split at hword
    · rcases List.mem_cons.mp hword with rfl | hword
      · cases hx
      · exact (ih word hword x hx).imp_left (List.mem_cons_of_mem _)
    · rename_i hstep
      cases hsplit : steps.splitOnP Option.isNone with
      | nil => exact absurd hsplit (List.splitOnP_ne_nil _ _)
      | cons first words =>
        rw [hsplit, List.modifyHead_cons] at hword
        rw [hsplit] at ih
        rcases List.mem_cons.mp hword with rfl | hword
        · rcases List.mem_cons.mp hx with rfl | hx
          · exact ⟨List.mem_cons_self, Bool.not_eq_true _ ▸ hstep⟩
          · exact (ih first List.mem_cons_self x hx).imp_left (List.mem_cons_of_mem _)
        · exact (ih word (List.mem_cons_of_mem _ hword) x hx).imp_left (List.mem_cons_of_mem _)

theorem endsInWord_of_mem_wordsOf {steps : List (Option Bytes)}
    (h : ∀ folded, some folded ∈ steps → EndsInWord folded) :
    ∀ word ∈ wordsOf steps, EndsInWord word := by
  intro _ hword
  obtain ⟨word, hmem, rfl⟩ := List.mem_map.mp hword
  obtain ⟨hmem, hne⟩ := List.mem_filter.mp hmem
  have hsteps := mem_splitOnP_isNone word hmem
  obtain ⟨front, last, rfl⟩ :=
    (List.eq_nil_or_concat' word).resolve_left (of_decide_eq_true hne)
  obtain ⟨hlast, hsome⟩ := hsteps last (by simp)
  obtain ⟨folded, rfl⟩ := Option.isSome_iff_exists.mp (Option.isNone_eq_false_iff.mp hsome)
  obtain ⟨hfolded, hspace⟩ := h folded hlast
  rw [List.reduceOption_append, List.flatten_append]
  change EndsInWord (_ ++ [folded].flatten)
  rw [List.flatten_singleton]
  refine ⟨fun hnil => hfolded (List.append_eq_nil_iff.mp hnil).2, ?_⟩
  rw [List.getLast?_append_of_ne_nil _ hfolded]
  exact hspace

theorem endsInWord_intercalate : ∀ {words : List Bytes}, words ≠ [] →
    (∀ word ∈ words, EndsInWord word) → EndsInWord ((ascii " ").intercalate words)
  | [], hne, _ => absurd rfl hne
  | [word], _, h => by
    rw [List.intercalate_singleton]
    exact h word List.mem_cons_self
  | word :: word' :: words, _, h => by
    have ih : EndsInWord ((ascii " ").intercalate (word' :: words)) :=
      endsInWord_intercalate (List.cons_ne_nil _ _) fun w hw => h w (List.mem_cons_of_mem _ hw)
    rw [List.intercalate_cons_of_ne_nil (List.cons_ne_nil _ _)]
    refine ⟨fun hnil => ih.1 (List.append_eq_nil_iff.mp hnil).2, ?_⟩
    rw [List.getLast?_append_of_ne_nil _ ih.1]
    exact ih.2

theorem getLast?_collapsed {steps : List (Option Bytes)}
    (h : ∀ folded, some folded ∈ steps → EndsInWord folded) :
    (collapsed steps).getLast? ≠ some (asciiByte ' ') := by
  rw [collapsed]
  by_cases hnone : wordsOf steps = []
  · rw [hnone]
    decide
  · exact (endsInWord_intercalate hnone (endsInWord_of_mem_wordsOf h)).2

/-- The normal form of a valid text, before it is escaped. -/
theorem tryNormalize_encodeUtf8 (text : List Char) :
    tryNormalizeUtf8WhitespaceAndCaseFold (encodeUtf8 text) =
      some (collapsed (text.map foldStep)) := by
  have hlast : (collapsed (text.map foldStep)).getLast? ≠ some (asciiByte ' ') := by
    refine getLast?_collapsed fun folded hfolded => ?_
    obtain ⟨c, _, hc⟩ := List.mem_map.mp hfolded
    exact endsInWord_of_foldStep hc
  rw [tryNormalizeUtf8WhitespaceAndCaseFold, normalizeFrom_encodeUtf8 text _ _ _ le_rfl,
    Option.map_some, List.nil_append]
  rcases (collapseFrom_eq (text.map foldStep)).1.2 with h | h
  · rw [h, if_neg hlast]
  · have hspace : (collapsed (text.map foldStep) ++ ascii " ").getLast? = some (asciiByte ' ') :=
      List.getLast?_concat
    rw [h, if_pos hspace]
    exact congrArg some List.dropLast_concat

/-! ### The kernel -/

/-- The loop gives valid texts the same form exactly if they fold to the same words. -/
theorem tryNormalize_eq_iff {a b : Bytes} :
    ValidUtf8 a ∧ ValidUtf8 b ∧
        tryNormalizeUtf8WhitespaceAndCaseFold a = tryNormalizeUtf8WhitespaceAndCaseFold b ↔
      ∃ text text' : List Char, encodeUtf8 text = a ∧ encodeUtf8 text' = b ∧
        collapsed (text.map foldStep) = collapsed (text'.map foldStep) := by
  constructor
  · rintro ⟨ha, hb, h⟩
    obtain ⟨text, rfl⟩ := validUtf8_iff_encodeUtf8.mp ha
    obtain ⟨text', rfl⟩ := validUtf8_iff_encodeUtf8.mp hb
    rw [tryNormalize_encodeUtf8, tryNormalize_encodeUtf8, Option.some_inj] at h
    exact ⟨text, text', rfl, rfl, h⟩
  · rintro ⟨text, text', rfl, rfl, h⟩
    refine ⟨validUtf8_encodeUtf8 _, validUtf8_encodeUtf8 _, ?_⟩
    rw [tryNormalize_encodeUtf8, tryNormalize_encodeUtf8, h]

/-- When two texts have the same normal form: both are valid and their folded forms with collapsed
white space are the same, or both are the same invalid bytes. -/
theorem normalizeText_eq_iff (a b : Bytes) :
    normalizeText a = normalizeText b ↔
      (∃ text text' : List Char, encodeUtf8 text = a ∧ encodeUtf8 text' = b ∧
        collapsed (text.map foldStep) = collapsed (text'.map foldStep)) ∨
      (¬ValidUtf8 a ∧ ¬ValidUtf8 b ∧ a = b) := by
  rw [← tryNormalize_eq_iff, normalizeText, normalizeText]
  cases ha : tryNormalizeUtf8WhitespaceAndCaseFold a with
  | some normalized =>
    have hva : ValidUtf8 a := by
      rw [← tryNormalize_isSome_iff, ha]
      rfl
    cases hb : tryNormalizeUtf8WhitespaceAndCaseFold b with
    | some normalized' =>
      have hvb : ValidUtf8 b := by
        rw [← tryNormalize_isSome_iff, hb]
        rfl
      constructor
      · intro h
        exact .inl ⟨hva, hvb, by rw [escape_inj h]⟩
      · rintro (⟨_, _, h⟩ | ⟨hna, _⟩)
        · injection h with h
          rw [h]
        · exact absurd hva hna
    | none =>
      have hnb := tryNormalize_eq_none_iff.mp hb
      constructor
      · exact fun h => absurd h (escape_ne_encodeInvalid _ _)
      · rintro (⟨_, hvb, _⟩ | ⟨hna, _⟩)
        · exact absurd hvb hnb
        · exact absurd hva hna
  | none =>
    have hna := tryNormalize_eq_none_iff.mp ha
    cases hb : tryNormalizeUtf8WhitespaceAndCaseFold b with
    | some normalized' =>
      have hvb : ValidUtf8 b := by
        rw [← tryNormalize_isSome_iff, hb]
        rfl
      constructor
      · exact fun h => absurd h.symm (escape_ne_encodeInvalid _ _)
      · rintro (⟨hva, _⟩ | ⟨_, hnb, _⟩)
        · exact absurd hva hna
        · exact absurd hvb hnb
    | none =>
      have hnb := tryNormalize_eq_none_iff.mp hb
      constructor
      · intro h
        exact .inr ⟨hna, hnb, encodeInvalid_inj h⟩
      · rintro (⟨hva, _⟩ | ⟨_, _, h⟩)
        · exact absurd hva hna
        · rw [h]

end InpxWebReader.Domain
