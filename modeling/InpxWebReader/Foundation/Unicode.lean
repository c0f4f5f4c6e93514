import InpxWebReader.Foundation.Text

/-!
# UTF-8 text and its case folding

`tryDecodeUtf8CodePoint` reads one code point, `appendUtf8CodePoint` writes one, and
`tryNormalizeUtf8WhitespaceAndCaseFold` is the loop behind every normalized name: it folds case,
turns each run of whitespace into one space and drops it at both ends, and gives up on the first
byte sequence that is not UTF-8.
-/

namespace InpxWebReader.Unicode

open Foundation

/-- `GCancellationCheckpointIntervalBytes`. -/
def checkpointIntervalBytes : Nat := 64 * 1024

def isUtf8ContinuationByte (b : UInt8) : Bool := 0x80 ≤ b && b ≤ 0xBF

/-- The low `6` bits of a continuation byte. -/
def payload (b : UInt8) : Nat := b.toNat % 64

/-- Is this a valid first and second byte of a three-byte sequence? -/
def isValidLead3 (b₀ b₁ : UInt8) : Bool :=
  (b₀ = 0xE0 && 0xA0 ≤ b₁ && b₁ ≤ 0xBF)
    || (0xE1 ≤ b₀ && b₀ ≤ 0xEC && 0x80 ≤ b₁ && b₁ ≤ 0xBF)
    || (b₀ = 0xED && 0x80 ≤ b₁ && b₁ ≤ 0x9F)
    || (0xEE ≤ b₀ && b₀ ≤ 0xEF && 0x80 ≤ b₁ && b₁ ≤ 0xBF)

/-- Is this a valid first and second byte of a four-byte sequence? -/
def isValidLead4 (b₀ b₁ : UInt8) : Bool :=
  (b₀ = 0xF0 && 0x90 ≤ b₁ && b₁ ≤ 0xBF)
    || (0xF1 ≤ b₀ && b₀ ≤ 0xF3 && 0x80 ≤ b₁ && b₁ ≤ 0xBF)
    || (b₀ = 0xF4 && 0x80 ≤ b₁ && b₁ ≤ 0x8F)

/-- `TryDecodeUtf8CodePoint`: the code point at the head of the text and the text after it. -/
def tryDecodeUtf8CodePoint : Bytes → Option (Nat × Bytes)
  | [] => none
  | b₀ :: rest =>
    if b₀ < 0x80 then some (b₀.toNat, rest)
    else if 0xC0 ≤ b₀ ∧ b₀ ≤ 0xDF then
      match rest with
      | b₁ :: rest =>
        if b₀ < 0xC2 ∨ !isUtf8ContinuationByte b₁ then none
        else some (b₀.toNat % 32 * 64 + payload b₁, rest)
      | [] => none
    else if 0xE0 ≤ b₀ ∧ b₀ ≤ 0xEF then
      match rest with
      | b₁ :: b₂ :: rest =>
        if isValidLead3 b₀ b₁ && isUtf8ContinuationByte b₂ then
          some ((b₀.toNat % 16 * 64 + payload b₁) * 64 + payload b₂, rest)
        else none
      | _ => none
    else if 0xF0 ≤ b₀ ∧ b₀ ≤ 0xF7 then
      match rest with
      | b₁ :: b₂ :: b₃ :: rest =>
        if isValidLead4 b₀ b₁ && isUtf8ContinuationByte b₂ && isUtf8ContinuationByte b₃ then
          some (((b₀.toNat % 8 * 64 + payload b₁) * 64 + payload b₂) * 64 + payload b₃, rest)
        else none
      | _ => none
    else none

/-- `AppendUtf8CodePoint`: the bytes of one code point. -/
def utf8OfCodePoint (codePoint : Nat) : Bytes :=
  if codePoint ≤ 0x7F then [UInt8.ofNat codePoint]
  else if codePoint ≤ 0x7FF then
    [UInt8.ofNat (0xC0 + codePoint / 64 % 32), UInt8.ofNat (0x80 + codePoint % 64)]
  else if codePoint ≤ 0xFFFF then
    [UInt8.ofNat (0xE0 + codePoint / 4096 % 16), UInt8.ofNat (0x80 + codePoint / 64 % 64),
      UInt8.ofNat (0x80 + codePoint % 64)]
  else
    [UInt8.ofNat (0xF0 + codePoint / 262144 % 8), UInt8.ofNat (0x80 + codePoint / 4096 % 64),
      UInt8.ofNat (0x80 + codePoint / 64 % 64), UInt8.ofNat (0x80 + codePoint % 64)]

def isUnicodeWhitespace (codePoint : Nat) : Bool :=
  [0x09, 0x0A, 0x0B, 0x0C, 0x0D, 0x20, 0x85, 0xA0, 0x1680, 0x2028, 0x2029, 0x202F, 0x205F,
    0x3000].contains codePoint || (0x2000 ≤ codePoint && codePoint ≤ 0x200A)

/-- The ranges in which an upper-case letter at an even code point precedes its lower case. -/
def evenUpperRanges : List (Nat × Nat) :=
  [(0x100, 0x12E), (0x132, 0x136), (0x14A, 0x176), (0x1DE, 0x1EE), (0x1F8, 0x21E),
    (0x222, 0x232), (0x460, 0x4FE), (0x500, 0x52E)]

/-- The ranges in which an upper-case letter at an odd code point precedes its lower case. -/
def oddUpperRanges : List (Nat × Nat) := [(0x139, 0x148), (0x179, 0x17E)]

/-- The letters whose lower case follows no range. -/
def singleFolds : List (Nat × Nat) :=
  [(0x130, 0x69), (0x178, 0xFF), (0x1F1, 0x1F3), (0x1F2, 0x1F3), (0x386, 0x3AC), (0x388, 0x3AD),
    (0x389, 0x3AE), (0x38A, 0x3AF), (0x38C, 0x3CC), (0x38E, 0x3CD), (0x38F, 0x3CE),
    (0x3C2, 0x3C3), (0x401, 0x435), (0x451, 0x435), (0x1E9E, 0xDF)]

/-- The Cyrillic letters of `U+0400` to `U+040F` with a lower case of their own. -/
def cyrillicExtensionFolds : List (Nat × Nat) :=
  [(0x400, 0x450), (0x402, 0x452), (0x403, 0x453), (0x404, 0x454), (0x405, 0x455),
    (0x406, 0x456), (0x407, 0x457), (0x408, 0x458), (0x409, 0x459), (0x40A, 0x45A),
    (0x40B, 0x45B), (0x40C, 0x45C), (0x40D, 0x45D), (0x40E, 0x45E), (0x40F, 0x45F)]

def caseFoldCodePoint (codePoint : Nat) : Nat :=
  let within := fun range : Nat × Nat => range.1 ≤ codePoint && codePoint ≤ range.2
  if codePoint ≤ 0x7F then
    if 0x41 ≤ codePoint ∧ codePoint ≤ 0x5A then codePoint + 0x20 else codePoint
  else if within (0xC0, 0xD6) || within (0xD8, 0xDE) then codePoint + 0x20
  else if codePoint % 2 = 0 && evenUpperRanges.any within then codePoint + 1
  else if codePoint % 2 = 1 && oddUpperRanges.any within then codePoint + 1
  else match singleFolds.lookup codePoint with
    | some folded => folded
    | none =>
      if within (0x391, 0x3A1) || within (0x3A3, 0x3AB) || within (0x410, 0x42F) then
        codePoint + 0x20
      else (cyrillicExtensionFolds.lookup codePoint).getD codePoint

/-- `AppendCaseFoldedCodePoint`: sharp s is written as two letters. -/
def caseFolded (codePoint : Nat) : Bytes :=
  if caseFoldCodePoint codePoint = 0xDF then ascii "ss"
  else utf8OfCodePoint (caseFoldCodePoint codePoint)

/-- The loop of `TryNormalizeUtf8WhitespaceAndCaseFold` over the rest of the text. -/
def normalizeFrom (fuel : Nat) (rest normalized : Bytes) (previousWasWhitespace : Bool) :
    Option Bytes :=
  match fuel, rest with
  | _, [] => some normalized
  | 0, _ => none
  | fuel + 1, rest =>
    match tryDecodeUtf8CodePoint rest with
    | none => none
    | some (codePoint, rest) =>
      if isUnicodeWhitespace codePoint then
        normalizeFrom fuel rest
          (if previousWasWhitespace then normalized else normalized ++ ascii " ") true
      else normalizeFrom fuel rest (normalized ++ caseFolded codePoint) false

/-- `TryNormalizeUtf8WhitespaceAndCaseFold`. Every step reads at least one byte, so the length of
the text bounds the loop. -/
def tryNormalizeUtf8WhitespaceAndCaseFold (value : Bytes) : Option Bytes :=
  (normalizeFrom value.length value [] true).map fun normalized =>
    if normalized.getLast? = some (asciiByte ' ') then normalized.dropLast else normalized

/-- The loop of `IsValidUtf8`. -/
def isValidUtf8From (fuel : Nat) (rest : Bytes) : Bool :=
  match fuel, rest with
  | _, [] => true
  | 0, _ => false
  | fuel + 1, rest =>
    match tryDecodeUtf8CodePoint rest with
    | none => false
    | some (_, rest) => isValidUtf8From fuel rest

def isValidUtf8 (value : Bytes) : Bool := isValidUtf8From value.length value

example : tryNormalizeUtf8WhitespaceAndCaseFold (ascii "  Ada \t LOVELACE ") =
    some (ascii "ada lovelace") := by decide

theorem length_lt_of_tryDecodeUtf8CodePoint {value rest : Bytes} {codePoint : Nat}
    (h : tryDecodeUtf8CodePoint value = some (codePoint, rest)) : rest.length < value.length := by
  unfold tryDecodeUtf8CodePoint at h
  grind

/-- The fuel of `normalizeFrom` is enough: more of it changes nothing. -/
theorem normalizeFrom_fuel {fuel fuel' : Nat} {rest normalized : Bytes} {ws : Bool}
    (h : rest.length ≤ fuel) (h' : rest.length ≤ fuel') :
    normalizeFrom fuel rest normalized ws = normalizeFrom fuel' rest normalized ws := by
  induction fuel generalizing fuel' rest normalized ws with
  | zero =>
    have hr : rest = [] := List.length_eq_zero_iff.mp (by omega)
    subst hr
    cases fuel' <;> rfl
  | succ fuel ih =>
    cases rest with
    | nil => cases fuel' <;> rfl
    | cons b rest =>
      cases fuel' with
      | zero => exact absurd h' (by simp)
      | succ fuel' =>
        unfold normalizeFrom
        cases hd : tryDecodeUtf8CodePoint (b :: rest) with
        | none => rfl
        | some p =>
          have hlt := length_lt_of_tryDecodeUtf8CodePoint hd
          simp only
          split
          · exact ih (by omega) (by omega)
          · exact ih (by omega) (by omega)

end InpxWebReader.Unicode
