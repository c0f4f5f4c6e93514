import InpxWebReader.Domain.NormalizedText
import Mathlib.Data.List.Forall2

/-!
# Case variants

`simpleLower` and `fullFold` are the lower case and the full case folding of Unicode for the letters
of Latin, Greek and Cyrillic blocks. The folding of the program follows them but for the letters
`U+04C0` to `U+04CF`: there the upper-case letters are the odd ones, and it folds the even ones.
-/

namespace InpxWebReader.Domain

open Foundation Unicode

/-! ### The letters of Unicode -/

/-- The ranges of the letters of Latin-1, Latin Extended-A, Greek (`U+0386` to `U+03CE`) and
Cyrillic (`U+0400` to `U+052F`). -/
def letterRanges : List (Nat × Nat) :=
  [(0x41, 0x5A), (0x61, 0x7A), (0xAA, 0xAA), (0xB5, 0xB5), (0xBA, 0xBA), (0xC0, 0xD6),
    (0xD8, 0xF6), (0xF8, 0x17F), (0x386, 0x386), (0x388, 0x38A), (0x38C, 0x38C), (0x38E, 0x3A1),
    (0x3A3, 0x3CE), (0x400, 0x481), (0x48A, 0x52F)]

/-- Is a code point in one of the ranges? -/
def inRanges (ranges : List (Nat × Nat)) (codePoint : Nat) : Bool :=
  ranges.any fun range => range.1 ≤ codePoint && codePoint ≤ range.2

/-- Is a code point one of the letters? -/
def isLetter (codePoint : Nat) : Bool := inRanges letterRanges codePoint

/-- The ranges of upper-case letters with the distance to their lower case. -/
def upperRanges : List ((Nat × Nat) × Nat) :=
  [((0x41, 0x5A), 0x20), ((0xC0, 0xD6), 0x20), ((0xD8, 0xDE), 0x20), ((0x388, 0x38A), 0x25),
    ((0x38E, 0x38F), 0x3F), ((0x391, 0x3A1), 0x20), ((0x3A3, 0x3AB), 0x20), ((0x400, 0x40F), 0x50),
    ((0x410, 0x42F), 0x20)]

/-- The ranges in which an even letter is the upper case of the next one. -/
def evenRanges : List (Nat × Nat) :=
  [(0x100, 0x12F), (0x132, 0x137), (0x14A, 0x177), (0x460, 0x481), (0x48A, 0x4BF), (0x4D0, 0x52F)]

/-- The ranges in which an odd letter is the upper case of the next one. -/
def oddRanges : List (Nat × Nat) := [(0x139, 0x148), (0x179, 0x17E), (0x4C1, 0x4CE)]

def singleLowers : List (Nat × Nat) :=
  [(0x130, 0x69), (0x178, 0xFF), (0x386, 0x3AC), (0x38C, 0x3CC), (0x4C0, 0x4CF)]

/-- The simple lower case of a letter. -/
def simpleLower (codePoint : Nat) : Nat :=
  match singleLowers.lookup codePoint with
  | some lower => lower
  | none =>
    match upperRanges.find? fun range => inRanges [range.1] codePoint with
    | some range => codePoint + range.2
    | none =>
      if codePoint % 2 = 0 ∧ inRanges evenRanges codePoint ∨
          codePoint % 2 = 1 ∧ inRanges oddRanges codePoint then codePoint + 1
      else codePoint

/-- The letters that are not folded to their simple lower case. -/
def specialFolds : List (Nat × List Nat) :=
  [(0xB5, [0x3BC]), (0xDF, [0x73, 0x73]), (0x130, [0x69, 0x307]), (0x149, [0x2BC, 0x6E]),
    (0x17F, [0x73]), (0x390, [0x3B9, 0x308, 0x301]), (0x3B0, [0x3C5, 0x308, 0x301]),
    (0x3C2, [0x3C3])]

/-- The full case folding of a letter. -/
def fullFold (codePoint : Nat) : List Nat :=
  (specialFolds.lookup codePoint).getD [simpleLower codePoint]

/-- The full case folding with what the program folds otherwise on purpose: the letters `U+0401`
and `U+0451` to `U+0435`, and `U+0130` to `i`. -/
def deliberateFold (codePoint : Nat) : List Nat :=
  if codePoint = 0x401 ∨ codePoint = 0x451 then [0x435]
  else if codePoint = 0x130 then [0x69]
  else fullFold codePoint

/-! ### The law -/

/-- Some letters of a text are replaced by their lower case. -/
def Lowers (text text' : List Char) : Prop :=
  List.Forall₂ (fun c c' => c' = c ∨ isLetter c.toNat ∧ c'.toNat = simpleLower c.toNat) text text'

def normalForm (text : List Char) : Bytes := normalizeText (encodeUtf8 text)

def OfLetters (text : List Char) : Prop := ∀ c ∈ text, isLetter c.toNat = true

/-- The normal form of a text merges exactly the case variants: lower case for some of the letters
leaves it as it is, and if the text is made of letters, it is the normal form of texts of letters
only that fold to the same text. -/
structure MergesCaseVariants (text : List Char) : Prop where
  variants : ∀ text', Lowers text text' → normalForm text' = normalForm text
  only : OfLetters text → ∀ text', OfLetters text' → normalForm text = normalForm text' →
    (text.map Char.toNat).flatMap deliberateFold = (text'.map Char.toNat).flatMap deliberateFold

/-- The letters `U+04C0` to `U+04CF`. -/
def isMisfolded (codePoint : Nat) : Bool := 0x4C0 ≤ codePoint && codePoint ≤ 0x4CF

/-- The upper-case letters among them. -/
def isMisfoldedUpper (codePoint : Nat) : Bool :=
  codePoint = 0x4C0 || (0x4C1 ≤ codePoint && codePoint ≤ 0x4CD && codePoint % 2 = 1)

/-! ### The letters of the program -/

/-- `AppendCaseFoldedCodePoint`, as code points. -/
def foldedCodePoints (codePoint : Nat) : List Nat :=
  if caseFoldCodePoint codePoint = 0xDF then [0x73, 0x73] else [caseFoldCodePoint codePoint]

theorem caseFolded_eq (codePoint : Nat) :
    caseFolded codePoint = (foldedCodePoints codePoint).flatMap utf8OfCodePoint := by
  rw [caseFolded, foldedCodePoints]
  split
  · decide
  · simp

def letters : List Nat :=
  letterRanges.flatMap fun range => List.range' range.1 (range.2 + 1 - range.1)

theorem mem_letters {codePoint : Nat} (h : isLetter codePoint = true) : codePoint ∈ letters := by
  obtain ⟨range, hmem, hrange⟩ := List.any_eq_true.mp h
  rw [Bool.and_eq_true, decide_eq_true_eq, decide_eq_true_eq] at hrange
  exact List.mem_flatMap.mpr ⟨range, hmem, List.mem_range'_1.mpr ⟨hrange.1, by omega⟩⟩

theorem isLetter_lt {codePoint : Nat} (h : isLetter codePoint = true) : codePoint < 0x530 := by
  obtain ⟨range, hmem, hrange⟩ := List.any_eq_true.mp h
  rw [Bool.and_eq_true, decide_eq_true_eq, decide_eq_true_eq] at hrange
  have hall : ∀ range ∈ letterRanges, range.2 < 0x530 := by decide
  exact Nat.lt_of_le_of_lt hrange.2 (hall range hmem)

structure LetterFacts (codePoint : Nat) : Prop where
  visible : isUnicodeWhitespace codePoint = false
  lowerVisible : isUnicodeWhitespace (simpleLower codePoint) = false
  lower : isMisfoldedUpper codePoint = false →
    foldedCodePoints (simpleLower codePoint) = foldedCodePoints codePoint
  valid : ∀ c ∈ foldedCodePoints codePoint, c < 0xD800
  outside : isMisfolded codePoint = false →
    deliberateFold codePoint = (foldedCodePoints codePoint).flatMap deliberateFold
  misfolded : (foldedCodePoints codePoint).any isMisfolded = isMisfolded codePoint

instance (codePoint : Nat) : Decidable (LetterFacts codePoint) :=
  decidable_of_iff
    ((isUnicodeWhitespace codePoint = false ∧
        isUnicodeWhitespace (simpleLower codePoint) = false) ∧
      (isMisfoldedUpper codePoint = false →
        foldedCodePoints (simpleLower codePoint) = foldedCodePoints codePoint) ∧
      ((∀ c ∈ foldedCodePoints codePoint, c < 0xD800) ∧
        (foldedCodePoints codePoint).any isMisfolded = isMisfolded codePoint) ∧
      (isMisfolded codePoint = false →
        deliberateFold codePoint = (foldedCodePoints codePoint).flatMap deliberateFold))
    ⟨fun ⟨⟨h₁, h₂⟩, h₃, ⟨h₄, h₅⟩, h₆⟩ => ⟨h₁, h₂, h₃, h₄, h₆, h₅⟩,
      fun h => ⟨⟨h.visible, h.lowerVisible⟩, h.lower, ⟨h.valid, h.misfolded⟩, h.outside⟩⟩

theorem letterFacts_parts :
    (∀ codePoint ∈ letters.take 250, LetterFacts codePoint) ∧
      (∀ codePoint ∈ (letters.drop 250).take 250, LetterFacts codePoint) ∧
      ∀ codePoint ∈ (letters.drop 250).drop 250, LetterFacts codePoint :=
  ⟨by decide +kernel, by decide +kernel, by decide +kernel⟩

theorem letterFacts {codePoint : Nat} (h : isLetter codePoint = true) : LetterFacts codePoint := by
  have hmem := mem_letters h
  rw [← List.take_append_drop 250 letters, ← List.take_append_drop 250 (letters.drop 250),
    List.mem_append, List.mem_append] at hmem
  obtain ⟨hfirst, hsecond, hthird⟩ := letterFacts_parts
  rcases hmem with hmem | hmem | hmem
  · exact hfirst codePoint hmem
  · exact hsecond codePoint hmem
  · exact hthird codePoint hmem

/-! ### The normal form of letters -/

theorem normalForm_eq_iff {text text' : List Char} :
    normalForm text = normalForm text' ↔
      collapsed (text.map foldStep) = collapsed (text'.map foldStep) := by
  rw [normalForm, normalForm, normalizeText, normalizeText, tryNormalize_encodeUtf8,
    tryNormalize_encodeUtf8]
  exact ⟨fun h => escape_inj h, fun h => congrArg escapeValidTextForNormalizationKey h⟩

theorem foldStep_letter {c : Char} (h : isLetter c.toNat = true) :
    foldStep c = some ((foldedCodePoints c.toNat).flatMap utf8OfCodePoint) := by
  rw [foldStep, (letterFacts h).visible, if_neg Bool.false_ne_true, caseFolded_eq]

theorem collapsed_letters {text : List Char} (h : OfLetters text) :
    collapsed (text.map foldStep) =
      ((text.map Char.toNat).flatMap foldedCodePoints).flatMap utf8OfCodePoint := by
  have hsteps : text.map foldStep =
      (text.map fun c => (foldedCodePoints c.toNat).flatMap utf8OfCodePoint).map some := by
    rw [List.map_map]
    exact List.map_congr_left fun c hc => foldStep_letter (h c hc)
  have hflat : (text.map fun c => (foldedCodePoints c.toNat).flatMap utf8OfCodePoint).flatten =
      ((text.map Char.toNat).flatMap foldedCodePoints).flatMap utf8OfCodePoint := by
    rw [List.flatMap_assoc, List.flatMap_map]
    rfl
  rw [← hflat, hsteps, collapsed]
  cases text with
  | nil => rfl
  | cons c text =>
    rw [wordsOf_word (by simp), List.intercalate_singleton]

theorem isValidChar_of_mem_folded {text : List Char} (h : OfLetters text) :
    ∀ c ∈ (text.map Char.toNat).flatMap foldedCodePoints, c.isValidChar := by
  intro c hc
  obtain ⟨codePoint, hmem, hc⟩ := List.mem_flatMap.mp hc
  obtain ⟨letter, hletter, rfl⟩ := List.mem_map.mp hmem
  exact .inl ((letterFacts (h letter hletter)).valid c hc)

/-- Texts of letters have one normal form exactly if they fold to the same code points. -/
theorem normalForm_letters {text text' : List Char} (h : OfLetters text) (h' : OfLetters text') :
    normalForm text = normalForm text' ↔
      (text.map Char.toNat).flatMap foldedCodePoints =
        (text'.map Char.toNat).flatMap foldedCodePoints := by
  rw [normalForm_eq_iff, collapsed_letters h, collapsed_letters h']
  refine ⟨fun heq => ?_, fun heq => by rw [heq]⟩
  exact flatMap_utf8OfCodePoint_inj (isValidChar_of_mem_folded h) (isValidChar_of_mem_folded h') heq

/-! ### Replacing one letter -/

theorem collapseFrom_append_some (front back : List (Option Bytes)) (folded : Bytes) :
    ∀ previousWasWhitespace,
      collapseFrom previousWasWhitespace (front ++ some folded :: back) =
        collapseFrom previousWasWhitespace front ++ folded ++ collapseFrom false back := by
  induction front with
  | nil =>
    intro previousWasWhitespace
    rw [List.nil_append, collapseFrom, collapseFrom, List.nil_append]
  | cons step front ih =>
    intro previousWasWhitespace
    cases step with
    | none =>
      rw [List.cons_append, collapseFrom, collapseFrom, ih]
      simp only [List.append_assoc]
    | some folded =>
      rw [List.cons_append, collapseFrom, collapseFrom, ih]
      simp only [List.append_assoc]

/-- Texts that differ in one place have different forms if what stands there is of one length. -/
theorem collapsed_cancel {front back : List (Option Bytes)} {x y : Bytes}
    (hlength : x.length = y.length)
    (h : collapsed (front ++ some x :: back) = collapsed (front ++ some y :: back)) : x = y := by
  have hcancel : ∀ a b c d : Bytes, a ++ x ++ b = c → a ++ y ++ b = d → c.length = d.length := by
    rintro a b c d rfl rfl
    simp [hlength]
  have hspace : (ascii " ").length = 1 := rfl
  have hx := (collapseFrom_eq (front ++ some x :: back)).1.2
  have hy := (collapseFrom_eq (front ++ some y :: back)).1.2
  rw [collapseFrom_append_some, h] at hx
  rw [collapseFrom_append_some] at hy
  rcases hx with hx | hx <;> rcases hy with hy | hy
  · exact List.append_cancel_left (List.append_cancel_right (hx.trans hy.symm))
  · have := hcancel _ _ _ _ hx hy
    rw [List.length_append] at this
    omega
  · have := hcancel _ _ _ _ hx hy
    rw [List.length_append] at this
    omega
  · exact List.append_cancel_left (List.append_cancel_right (hx.trans hy.symm))

theorem lowers_one {front back : List Char} {c c' : Char} (hc : isLetter c.toNat = true)
    (hc' : c'.toNat = simpleLower c.toNat) : Lowers (front ++ c :: back) (front ++ c' :: back) := by
  have hsame : ∀ text : List Char, Lowers text text := by
    intro text
    exact List.forall₂_same.mpr fun _ _ => .inl rfl
  exact List.rel_append (hsame front) (.cons (.inr ⟨hc, hc'⟩) (hsame back))

/-! ### The letters that are folded the other way -/

/-- What is folded to the same letter as one of the letters `U+04C0` to `U+04CF`. -/
def misfoldedPartner (codePoint : Nat) : Nat :=
  if codePoint % 2 = 0 then codePoint + 1 else codePoint - 1

/-- The letters `U+04C0` to `U+04CF`, one by one. -/
def misfoldedLetters : List Nat := List.range' 0x4C0 16

theorem mem_misfoldedLetters {codePoint : Nat} (h : isMisfolded codePoint = true) :
    codePoint ∈ misfoldedLetters := by
  rw [isMisfolded, Bool.and_eq_true, decide_eq_true_eq, decide_eq_true_eq] at h
  exact List.mem_range'_1.mpr ⟨h.1, by omega⟩

theorem misfoldedPartner_facts {codePoint : Nat} (h : isMisfolded codePoint = true) :
    isLetter (misfoldedPartner codePoint) = true ∧
    foldedCodePoints (misfoldedPartner codePoint) = foldedCodePoints codePoint ∧
    deliberateFold (misfoldedPartner codePoint) ≠ deliberateFold codePoint := by
  have hall : ∀ codePoint ∈ misfoldedLetters,
      isLetter (misfoldedPartner codePoint) = true ∧
      foldedCodePoints (misfoldedPartner codePoint) = foldedCodePoints codePoint ∧
      deliberateFold (misfoldedPartner codePoint) ≠ deliberateFold codePoint := by decide
  exact hall _ (mem_misfoldedLetters h)

theorem misfoldedUpper_facts {codePoint : Nat} (h : isMisfoldedUpper codePoint = true) :
    isLetter codePoint = true ∧ isLetter (simpleLower codePoint) = true ∧
    ((foldedCodePoints codePoint).flatMap utf8OfCodePoint).length =
      ((foldedCodePoints (simpleLower codePoint)).flatMap utf8OfCodePoint).length ∧
    (foldedCodePoints codePoint).flatMap utf8OfCodePoint ≠
      (foldedCodePoints (simpleLower codePoint)).flatMap utf8OfCodePoint := by
  have hmis : isMisfolded codePoint = true := by
    simp only [isMisfoldedUpper, isMisfolded, Bool.or_eq_true, Bool.and_eq_true,
      decide_eq_true_eq] at h ⊢
    omega
  have hall : ∀ codePoint ∈ misfoldedLetters, isMisfoldedUpper codePoint = true →
      isLetter codePoint = true ∧ isLetter (simpleLower codePoint) = true ∧
      ((foldedCodePoints codePoint).flatMap utf8OfCodePoint).length =
        ((foldedCodePoints (simpleLower codePoint)).flatMap utf8OfCodePoint).length ∧
      (foldedCodePoints codePoint).flatMap utf8OfCodePoint ≠
        (foldedCodePoints (simpleLower codePoint)).flatMap utf8OfCodePoint := by decide
  exact hall _ (mem_misfoldedLetters hmis) h

theorem exists_char {codePoint : Nat} (h : isLetter codePoint = true) :
    ∃ c : Char, c.toNat = codePoint :=
  ⟨Char.ofNatAux codePoint (.inl (Nat.lt_trans (isLetter_lt h) (by decide))),
    rfl⟩

/-! ### When the law holds -/

theorem variants_iff {text : List Char} :
    (∀ text', Lowers text text' → normalForm text' = normalForm text) ↔
      ∀ c ∈ text, isMisfoldedUpper c.toNat = false := by
  constructor
  · intro h c hc
    by_contra hmis
    rw [Bool.not_eq_false] at hmis
    obtain ⟨hletter, hlower, hlength, hne⟩ := misfoldedUpper_facts hmis
    obtain ⟨front, back, rfl⟩ := List.append_of_mem hc
    obtain ⟨c', hc'⟩ := exists_char hlower
    have heq := normalForm_eq_iff.mp (h _ (lowers_one hletter hc'))
    rw [List.map_append, List.map_append, List.map_cons, List.map_cons,
      foldStep_letter hletter, foldStep_letter (hc' ▸ hlower), hc'] at heq
    exact hne (collapsed_cancel hlength heq.symm)
  · intro h text' hlowers
    have hsteps : text'.map foldStep = text.map foldStep := by
      induction hlowers with
      | nil => rfl
      | cons hc _ ih =>
        rw [List.map_cons, List.map_cons, ih fun c hc => h c (List.mem_cons_of_mem _ hc)]
        rcases hc with rfl | ⟨hletter, hc⟩
        · rfl
        · have facts := letterFacts hletter
          have hfold := facts.lower (h _ List.mem_cons_self)
          rw [foldStep, foldStep, hc, facts.lowerVisible, facts.visible, caseFolded_eq,
            caseFolded_eq, hfold]
    rw [normalForm_eq_iff, hsteps]

/-- Replacing one of the letters by its partner changes the text, not its normal form. -/
theorem not_misfolded_of_only {text : List Char} (hletters : OfLetters text)
    (h : ∀ text', OfLetters text' → normalForm text = normalForm text' →
      (text.map Char.toNat).flatMap deliberateFold =
        (text'.map Char.toNat).flatMap deliberateFold) :
    ∀ c ∈ text, isMisfolded c.toNat = false := by
  intro c hc
  by_contra hmis
  rw [Bool.not_eq_false] at hmis
  obtain ⟨hletter, hfold, hne⟩ := misfoldedPartner_facts hmis
  obtain ⟨front, back, rfl⟩ := List.append_of_mem hc
  obtain ⟨c', hc'⟩ := exists_char hletter
  have hletters' : OfLetters (front ++ c' :: back) := by
    intro letter hmem
    rcases List.mem_append.mp hmem with hmem | hmem
    · exact hletters letter (List.mem_append_left _ hmem)
    · rcases List.mem_cons.mp hmem with rfl | hmem
      · rw [hc']
        exact hletter
      · exact hletters letter (List.mem_append_right _ (List.mem_cons_of_mem _ hmem))
  have heq := h (front ++ c' :: back) hletters' <| (normalForm_letters hletters hletters').mpr <| by
    simp only [List.map_append, List.map_cons, List.flatMap_append, List.flatMap_cons, hc', hfold]
  simp only [List.map_append, List.map_cons, List.flatMap_append, List.flatMap_cons, hc'] at heq
  exact hne (List.append_cancel_right (List.append_cancel_left heq)).symm

theorem misfolded_of_folded {text : List Char} (h : OfLetters text) :
    (∃ c ∈ text, isMisfolded c.toNat = true) ↔
      ∃ c ∈ (text.map Char.toNat).flatMap foldedCodePoints, isMisfolded c = true := by
  constructor
  · rintro ⟨c, hc, hmis⟩
    rw [← (letterFacts (h c hc)).misfolded] at hmis
    obtain ⟨folded, hfolded, hmis⟩ := List.any_eq_true.mp hmis
    exact ⟨folded, List.mem_flatMap.mpr ⟨_, List.mem_map_of_mem hc, hfolded⟩, hmis⟩
  · rintro ⟨folded, hfolded, hmis⟩
    obtain ⟨_, hmem, hfolded⟩ := List.mem_flatMap.mp hfolded
    obtain ⟨c, hc, rfl⟩ := List.mem_map.mp hmem
    refine ⟨c, hc, ?_⟩
    rw [← (letterFacts (h c hc)).misfolded]
    exact List.any_eq_true.mpr ⟨folded, hfolded, hmis⟩

/-- Without these letters what is folded on purpose depends on the folded code points only. -/
theorem deliberateFold_of_folded {text : List Char} (h : OfLetters text)
    (hmis : ∀ c ∈ text, isMisfolded c.toNat = false) :
    (text.map Char.toNat).flatMap deliberateFold =
      ((text.map Char.toNat).flatMap foldedCodePoints).flatMap deliberateFold := by
  rw [List.flatMap_assoc, List.flatMap_map, List.flatMap_map]
  exact List.flatMap_congr fun c hc => (letterFacts (h c hc)).outside (hmis c hc)

/-- The normal form of a text merges exactly the case variants if none of its letters is an
upper-case letter of `U+04C0` to `U+04CF` and, when the text is made of letters, none is in this
range; and only then. -/
theorem mergesCaseVariants_iff (text : List Char) :
    MergesCaseVariants text ↔
      (∀ c ∈ text, isMisfoldedUpper c.toNat = false) ∧
      (OfLetters text → ∀ c ∈ text, isMisfolded c.toNat = false) := by
  constructor
  · rintro ⟨variants, only⟩
    exact ⟨variants_iff.mp variants, fun hletters =>
      not_misfolded_of_only hletters (only hletters)⟩
  · rintro ⟨hupper, hmis⟩
    refine ⟨variants_iff.mpr hupper, fun hletters text' hletters' heq => ?_⟩
    have hfold := (normalForm_letters hletters hletters').mp heq
    have hmis' : ∀ c ∈ text', isMisfolded c.toNat = false := by
      intro c hc
      by_contra hcmis
      rw [Bool.not_eq_false] at hcmis
      have hfolded := (misfolded_of_folded hletters').mp ⟨c, hc, hcmis⟩
      rw [← hfold] at hfolded
      obtain ⟨c, hc, hcmis⟩ := (misfolded_of_folded hletters).mpr hfolded
      rw [hmis hletters c hc] at hcmis
      cases hcmis
    rw [deliberateFold_of_folded hletters (hmis hletters),
      deliberateFold_of_folded hletters' hmis', hfold]

/-- `U+04C1` is not merged with its lower case `U+04C2`, and `U+04C2` is merged with `U+04C3`, a
letter of its own. -/
theorem not_mergesCaseVariants_zheBreve :
    ¬MergesCaseVariants ['\u04C1'] ∧
      (Lowers ['\u04C1'] ['\u04C2'] ∧ normalForm ['\u04C2'] ≠ normalForm ['\u04C1']) ∧
      (OfLetters ['\u04C2'] ∧ OfLetters ['\u04C3'] ∧
        normalForm ['\u04C2'] = normalForm ['\u04C3'] ∧
        deliberateFold 0x4C2 ≠ deliberateFold 0x4C3) := by
  have hletter : ∀ c : Char, isLetter c.toNat = true → OfLetters [c] := by
    intro c hc c' hc'
    rw [List.mem_singleton.mp hc']
    exact hc
  have hlowers : Lowers ['\u04C1'] ['\u04C2'] := .cons (.inr (by decide)) .nil
  have hne : normalForm ['\u04C2'] ≠ normalForm ['\u04C1'] := by decide
  exact ⟨fun h => hne (h.variants _ hlowers), ⟨hlowers, hne⟩, hletter _ (by decide),
    hletter _ (by decide), by decide, by decide⟩

end InpxWebReader.Domain
