import InpxWebReader.Foundation.TextConversion

/-!
# Text in other encodings

A text in an unnamed Cyrillic encoding is read both as Windows-1251 and as CP866, and the reading
that looks more like Russian is taken. A text in UTF-16 is converted behind its mark.
-/

namespace InpxWebReader.Unicode

open Foundation

/-- How the reading of a text may end without a result. -/
inductive NoResult
  | throws (failure : Failure)
  | loops
  deriving DecidableEq

/-- An end of the conversion for the caller; `CTextConversionError` has the text that it was
given. -/
def ConversionEnd.toNoResult (errorContext : Bytes) : ConversionEnd → NoResult
  | .conversionError => .throws (.standard errorContext)
  | .lengthError text => .throws (.standard text)
  | .neverReturns => .loops

/-- `catch (const CTextConversionError&)`. -/
def caught : Except ConversionEnd Bytes → Except ConversionEnd (Option Bytes)
  | .ok text => .ok (some text)
  | .error .conversionError => .ok none
  | .error e => .error e

variable (iconv : Iconv)

/-- `CodePageToUtf8`: the first alias of the code page that works. -/
def codePageToUtf8 : List Bytes → Bytes → Except ConversionEnd Bytes
  | [], _ => .error .conversionError
  | encoding :: encodings, value => do
    match ← caught (convertText iconv encoding value) with
    | some text => return text
    | none => codePageToUtf8 encodings value

/-- `CodePageToIconvEncodings`, for the two code pages of `DecodeLegacyCyrillicToUtf8`. -/
def windows1251Encodings : List Bytes := [ascii "WINDOWS-1251", ascii "CP1251"]
def cp866Encodings : List Bytes := [ascii "CP866", ascii "IBM866"]

def windows1251HighControlBlock : List Nat :=
  [0x0402, 0x0403, 0x201A, 0x0453, 0x201E, 0x2026, 0x2020, 0x2021,
    0x20AC, 0x2030, 0x0409, 0x2039, 0x040A, 0x040C, 0x040B, 0x040F,
    0x0452, 0x2018, 0x2019, 0x201C, 0x201D, 0x2022, 0x2013, 0x2014,
    0xFFFD, 0x2122, 0x0459, 0x203A, 0x045A, 0x045C, 0x045B, 0x045F,
    0x00A0, 0x040E, 0x045E, 0x0408, 0x00A4, 0x0490, 0x00A6, 0x00A7,
    0x0401, 0x00A9, 0x0404, 0x00AB, 0x00AC, 0x00AD, 0x00AE, 0x0407,
    0x00B0, 0x00B1, 0x0406, 0x0456, 0x0491, 0x00B5, 0x00B6, 0x00B7,
    0x0451, 0x2116, 0x0454, 0x00BB, 0x0458, 0x0405, 0x0455, 0x0457]

def windows1251CodePoint (byte : UInt8) : Nat :=
  if byte < 0x80 then byte.toNat
  else if 0xC0 ≤ byte then 0x0410 + (byte.toNat - 0xC0)
  else windows1251HighControlBlock.getD (byte.toNat - 0x80) 0

def windows1251ToUtf8Lossy (value : Bytes) : Bytes :=
  value.flatMap fun byte => utf8OfCodePoint (windows1251CodePoint byte)

def cyrillicVowels : List Nat :=
  [0x410, 0x430, 0x415, 0x435, 0x401, 0x451, 0x418, 0x438, 0x41E, 0x43E, 0x423, 0x443, 0x42B,
    0x44B, 0x42D, 0x44D, 0x42E, 0x44E, 0x42F, 0x44F]

/-- The state of `ScoreLegacyCyrillicDecode`. -/
structure CyrillicScore where
  score : Int := 0
  wordLength : Nat := 0
  vowelCount : Nat := 0

def CyrillicScore.finishWord (s : CyrillicScore) : CyrillicScore where
  score :=
    if 3 ≤ s.wordLength then
      if s.vowelCount = 0 then s.score - 5
      else if 5 ≤ s.wordLength ∧ s.wordLength ≤ s.vowelCount * 5 then s.score + 2
      else s.score
    else s.score

/-- One code point of `ScoreLegacyCyrillicDecode`. -/
def CyrillicScore.add (s : CyrillicScore) (codePoint : Nat) : CyrillicScore :=
  if (0x410 ≤ codePoint ∧ codePoint ≤ 0x44F) ∨ codePoint = 0x401 ∨ codePoint = 0x451 then
    { score := s.score + 4, wordLength := s.wordLength + 1,
      vowelCount := s.vowelCount + if cyrillicVowels.contains codePoint then 1 else 0 }
  else if 0x400 ≤ codePoint ∧ codePoint ≤ 0x52F then
    { s.finishWord with score := s.finishWord.score + 1 }
  else if 0x2500 ≤ codePoint ∧ codePoint ≤ 0x259F then
    { s.finishWord with score := s.finishWord.score - 9 }
  else if codePoint = 0xFFFD ∨ (0x80 ≤ codePoint ∧ codePoint ≤ 0x9F) then
    { s.finishWord with score := s.finishWord.score - 6 }
  else s.finishWord

/-- The loop of `ScoreLegacyCyrillicDecode`; a text that is not UTF-8 has the least score. -/
def scoreFrom (fuel : Nat) (rest : Bytes) (s : CyrillicScore) : Int :=
  match fuel, rest with
  | _, [] => s.finishWord.score
  | 0, _ => -2 ^ 63
  | fuel + 1, rest =>
    match tryDecodeUtf8CodePoint rest with
    | none => -2 ^ 63
    | some (codePoint, rest) => scoreFrom fuel rest (s.add codePoint)

def scoreLegacyCyrillicDecode (value : Bytes) : Int := scoreFrom value.length value {}

/-- `DecodeLegacyCyrillicToUtf8`. Windows-1251 has a reading of every text that is converted. -/
def decodeLegacyCyrillicToUtf8 (value errorContext : Bytes) : Except NoResult Bytes := do
  let windows1251 ← (caught (codePageToUtf8 iconv windows1251Encodings value)).mapError
    (ConversionEnd.toNoResult errorContext)
  let windows1251 := windows1251.getD (windows1251ToUtf8Lossy value)
  let cp866 ← (caught (codePageToUtf8 iconv cp866Encodings value)).mapError
    (ConversionEnd.toNoResult errorContext)
  match cp866 with
  | none => return windows1251
  | some cp866 =>
    let cp866Score := scoreLegacyCyrillicDecode cp866
    let windows1251Score := scoreLegacyCyrillicDecode windows1251
    if cp866Score = windows1251Score ∧ cp866 ≠ windows1251 then
      throw (.throws (.standard (errorContext ++
        ascii ": legacy Cyrillic encoding is ambiguous between Windows-1251 and CP866.")))
    else if windows1251Score < cp866Score then return cp866
    else return windows1251

/-- `Utf16LeToUtf8` and `Utf16BeToUtf8`, for a text that begins with the byte order mark. -/
def utf16ToUtf8 (encoding byteOrder value : Bytes) : Except NoResult Bytes :=
  if (value.drop 2).length % 2 ≠ 0 then
    .error (.throws (.standard (ascii "Failed to convert " ++ byteOrder
      ++ ascii " text to UTF-8: odd byte count.")))
  else
    (convertText iconv encoding (value.drop 2)).mapError (ConversionEnd.toNoResult
      (ascii "Failed to convert " ++ byteOrder ++ ascii " text to UTF-8."))

variable {iconv}

theorem mapError_eq_ok {ε ε' α : Type} {f : ε → ε'} {x : Except ε α} {a : α}
    (h : x.mapError f = .ok a) : x = .ok a := by
  cases x with
  | error e => cases h
  | ok b =>
    injection h with h
    rw [h]

theorem caught_eq_some {converted : Except ConversionEnd Bytes} {text : Bytes}
    (h : caught converted = .ok (some text)) : converted = .ok text := by
  cases converted with
  | error e => cases e <;> cases h
  | ok b =>
    injection h with h
    injection h with h
    rw [h]

/-- A reading of a code page is the conversion of one of its aliases. -/
theorem codePageToUtf8_ok {encodings : List Bytes} {value text : Bytes}
    (h : codePageToUtf8 iconv encodings value = .ok text) :
    ∃ encoding ∈ encodings, convertText iconv encoding value = .ok text := by
  induction encodings with
  | nil => cases h
  | cons encoding encodings ih =>
    obtain ⟨result, hresult, h⟩ := Program.except_bind_eq_ok h
    cases result with
    | some converted =>
      injection h with h
      exact ⟨encoding, List.mem_cons_self, h ▸ caught_eq_some hresult⟩
    | none =>
      obtain ⟨other, hmem, hconvert⟩ := ih h
      exact ⟨other, List.mem_cons_of_mem _ hmem, hconvert⟩

theorem codePageToUtf8_valid (h : iconv.WritesUtf8) {encodings : List Bytes}
    {value text : Bytes} (hc : codePageToUtf8 iconv encodings value = .ok text) :
    ValidUtf8 text := by
  obtain ⟨encoding, _, hconvert⟩ := codePageToUtf8_ok hc
  exact convertText_valid h hconvert

theorem windows1251Byte_valid (byte : UInt8) :
    isValidUtf8 (utf8OfCodePoint (windows1251CodePoint byte)) = true := by
  have hall : ∀ n < 256, isValidUtf8 (utf8OfCodePoint (windows1251CodePoint (UInt8.ofNat n)))
      = true := by decide +kernel
  have hbyte := hall byte.toNat byte.toNat_lt
  rwa [UInt8.ofNat_toNat] at hbyte

theorem windows1251ToUtf8Lossy_valid (value : Bytes) :
    ValidUtf8 (windows1251ToUtf8Lossy value) := by
  induction value with
  | nil => exact .nil
  | cons byte value ih => exact (isValidUtf8_iff.mp (windows1251Byte_valid byte)).append ih

theorem decodeLegacyCyrillicToUtf8_valid (h : iconv.WritesUtf8)
    {value errorContext decoded : Bytes}
    (hd : decodeLegacyCyrillicToUtf8 iconv value errorContext = .ok decoded) :
    ValidUtf8 decoded := by
  obtain ⟨windows1251, hw, hd⟩ := Program.except_bind_eq_ok hd
  obtain ⟨cp866, hcp, hd⟩ := Program.except_bind_eq_ok hd
  have hwindows : ValidUtf8 (windows1251.getD (windows1251ToUtf8Lossy value)) := by
    cases windows1251 with
    | none => exact windows1251ToUtf8Lossy_valid value
    | some converted => exact codePageToUtf8_valid h (caught_eq_some (mapError_eq_ok hw))
  cases cp866 with
  | none =>
    injection hd with hd
    exact hd ▸ hwindows
  | some cp866 =>
    dsimp only at hd
    split at hd
    · cases hd
    · split at hd
      · injection hd with hd
        exact hd ▸ codePageToUtf8_valid h (caught_eq_some (mapError_eq_ok hcp))
      · injection hd with hd
        exact hd ▸ hwindows

theorem utf16ToUtf8_valid (h : iconv.WritesUtf8) {encoding byteOrder value decoded : Bytes}
    (hd : utf16ToUtf8 iconv encoding byteOrder value = .ok decoded) : ValidUtf8 decoded := by
  rw [utf16ToUtf8] at hd
  split at hd
  · cases hd
  · exact convertText_valid h (mapError_eq_ok hd)

end InpxWebReader.Unicode
