import InpxWebReader.Foundation.LegacyEncoding
import InpxWebReader.Foundation.TruncatedUtf8
import InpxWebReader.Library.Program
import InpxWebReader.Parsing.CoverBase64
import Mathlib.Data.Option.Basic

/-!
# The text of an FB2 file

`decodeFb2Text` makes UTF-8 of the bytes of a file: by its byte order mark, by the encoding it
declares, or by what its bytes look like. Where it converts, it writes `utf-8` over the declared
encoding. `decodeFb2Text_valid` says that its result is UTF-8.
-/

namespace InpxWebReader.Parsing

open Foundation Unicode

/-! ### The declared encoding -/

/-- `std::string_view::find`: where a text first occurs in another one. -/
def find (needle : Bytes) : Bytes → Option Nat
  | [] => if needle = [] then some 0 else none
  | b :: text => if needle.isPrefixOf (b :: text) then some 0 else (find needle text).map (· + 1)

inductive DeclaredXmlEncoding
  | unknown
  | utf8
  | windows1251
  | cp866
  | utf16LittleEndian
  | utf16BigEndian
  | utf16
  deriving DecidableEq

structure XmlEncodingDeclaration where
  encoding : DeclaredXmlEncoding := .unknown
  valueOffset : Nat := 0
  valueLength : Nat := 0
  deriving DecidableEq

def encodingAliases : List (Bytes × DeclaredXmlEncoding) :=
  [(ascii "utf-8", .utf8), (ascii "windows-1251", .windows1251), (ascii "cp1251", .windows1251),
    (ascii "cp866", .cp866), (ascii "ibm866", .cp866), (ascii "utf-16le", .utf16LittleEndian),
    (ascii "utf-16be", .utf16BigEndian), (ascii "utf-16", .utf16)]

def parseEncodingName (name : Bytes) : DeclaredXmlEncoding :=
  (encodingAliases.lookup name).getD .unknown

def skipWhitespace (text : Bytes) (offset : Nat) : Nat :=
  offset + ((text.drop offset).takeWhile isSpace).length

def tryParseEncodingDeclaration (text : Bytes) : Option XmlEncodingDeclaration := do
  let declarationEnd ← find (ascii "?>") text
  let lowerDeclaration := toLowerAscii (text.take declarationEnd)
  let found ← find (ascii "encoding") lowerDeclaration
  let position := skipWhitespace lowerDeclaration (found + (ascii "encoding").length)
  guard (lowerDeclaration[position]? = some (asciiByte '='))
  let position := skipWhitespace lowerDeclaration (position + 1)
  let quote ← lowerDeclaration[position]?
  guard (quote = asciiByte '\'' ∨ quote = asciiByte '"')
  let position := position + 1
  let valueLength ← find [quote] (lowerDeclaration.drop position)
  return { encoding := parseEncodingName ((lowerDeclaration.drop position).take valueLength)
           valueOffset := position
           valueLength := valueLength }

def replaceEncodingDeclaration (text : Bytes) : Bytes :=
  match tryParseEncodingDeclaration text with
  | none => text
  | some declaration =>
    if declaration.encoding = .unknown then text
    else
      text.take declaration.valueOffset ++ ascii "utf-8" ++
        text.drop (declaration.valueOffset + declaration.valueLength)

example : replaceEncodingDeclaration (ascii "<?xml encoding = 'CP1251' ?><a/>") =
    ascii "<?xml encoding = 'utf-8' ?><a/>" := by decide +kernel

/-! ### The decoder -/

/-- `DecodeFb2Text` behind the check for the byte order mark of UTF-8, with the count of
warnings. -/
def decodeUnmarkedText (iconv : Iconv) (rawBytes : Bytes) (parserWarningCount : Nat) :
    Except NoResult (Bytes × Nat) := do
  if ([0xFF, 0xFE] : Bytes).isPrefixOf rawBytes then
    let text ← utf16ToUtf8 iconv (ascii "UTF-16LE") (ascii "UTF-16 LE") rawBytes
    return (replaceEncodingDeclaration text, parserWarningCount)
  else if ([0xFE, 0xFF] : Bytes).isPrefixOf rawBytes then
    let text ← utf16ToUtf8 iconv (ascii "UTF-16BE") (ascii "UTF-16 BE") rawBytes
    return (replaceEncodingDeclaration text, parserWarningCount)
  else
    match (tryParseEncodingDeclaration (rawBytes.take 512)).map XmlEncodingDeclaration.encoding with
    | some .windows1251 =>
      -- the handler is for `std::runtime_error`, which `std::length_error` is not
      match ← (caught (codePageToUtf8 iconv windows1251Encodings rawBytes)).mapError
        (ConversionEnd.toNoResult (ascii "Failed to decode FB2 file from windows-1251.")) with
      | some text => return (replaceEncodingDeclaration text, parserWarningCount)
      | none =>
        return (replaceEncodingDeclaration (windows1251ToUtf8Lossy rawBytes),
          parserWarningCount + 1)
    | some .cp866 =>
      let text ← (codePageToUtf8 iconv cp866Encodings rawBytes).mapError
        (ConversionEnd.toNoResult (ascii "Failed to decode FB2 file from CP866."))
      return (replaceEncodingDeclaration text, parserWarningCount)
    | _ =>
      if isValidUtf8 rawBytes then return (rawBytes, parserWarningCount)
      else
        match tryTrimTrailingIncompleteUtf8 rawBytes with
        | some text => return (text, parserWarningCount + 1)
        | none =>
          let text ← decodeLegacyCyrillicToUtf8 iconv rawBytes
            (ascii "Failed to decode misdeclared FB2 file from CP1251 or CP866.")
          return (replaceEncodingDeclaration text, parserWarningCount + 1)

def decodeFb2Text (iconv : Iconv) (rawBytes : Bytes) (parserWarningCount : Nat) :
    Except NoResult (Bytes × Nat) :=
  let rawBytes :=
    if ([0xEF, 0xBB, 0xBF] : Bytes).isPrefixOf rawBytes then rawBytes.drop 3 else rawBytes
  decodeUnmarkedText iconv rawBytes parserWarningCount

/-! ### What is replaced -/

theorem find_le {needle : Bytes} : ∀ {text : Bytes} {i : Nat},
    find needle text = some i → i + needle.length ≤ text.length
  | [], i, h => by
    rw [find] at h
    split at h
    · rename_i hnil
      injection h with h
      rw [hnil, ← h]
      exact le_rfl
    · cases h
  | b :: text, i, h => by
    rw [find] at h
    split at h
    · rename_i hpre
      injection h with h
      rw [← h, Nat.zero_add]
      exact (List.isPrefixOf_iff_prefix.mp hpre).length_le
    · obtain ⟨j, hj, rfl⟩ := Option.map_eq_some_iff.mp h
      have := find_le hj
      rw [List.length_cons]
      omega

/-- The declaration names the encoding at its value, which lies before the end of the text. -/
theorem tryParseEncodingDeclaration_spec {text : Bytes} {d : XmlEncodingDeclaration}
    (h : tryParseEncodingDeclaration text = some d) :
    d.valueOffset + d.valueLength ≤ text.length ∧
      d.encoding =
        parseEncodingName (toLowerAscii ((text.drop d.valueOffset).take d.valueLength)) := by
  rw [tryParseEncodingDeclaration] at h
  simp only [Option.bind_eq_bind, Option.bind_eq_some_iff, Option.guard_eq_some',
    Option.pure_def, Option.some_inj] at h
  obtain ⟨stop, _, found, _, _, _, quote, hquote, _, _, length, hlength, rfl⟩ := h
  generalize skipWhitespace (toLowerAscii (text.take stop)) _ = position at hquote hlength ⊢
  have hle := find_le hlength
  obtain ⟨hposition, _⟩ := List.getElem?_eq_some_iff.mp hquote
  simp only [List.length_drop, length_toLowerAscii, List.length_take, List.length_singleton]
    at hle hposition
  refine ⟨by dsimp only; omega, ?_⟩
  dsimp only
  rw [toLowerAscii, toLowerAscii, ← List.map_drop, ← List.map_take, List.drop_take,
    List.take_take, min_eq_left (by omega)]

theorem known_ascii {name : Bytes} (h : parseEncodingName name ≠ .unknown) :
    name ≠ [] ∧ ∀ b ∈ name, b < 0x80 := by
  have hall : ∀ entry ∈ encodingAliases, entry.1 ≠ [] ∧ ∀ b ∈ entry.1, b < 0x80 := by
    decide +kernel
  rw [parseEncodingName] at h
  cases hlookup : encodingAliases.lookup name with
  | none =>
    rw [hlookup] at h
    exact absurd rfl h
  | some encoding =>
    obtain ⟨front, back, hlist, _⟩ := List.lookup_eq_some_iff.mp hlookup
    exact hall (name, encoding) (by rw [hlist]; simp)

theorem ascii_of_toLowerAscii {value : Bytes} (h : ∀ b ∈ toLowerAscii value, b < 0x80) :
    ∀ b ∈ value, b < 0x80 := by
  intro b hb
  have hlower := h _ (List.mem_map_of_mem hb)
  rw [toLowerAsciiCharacter] at hlower
  split at hlower
  · rename_i hupper
    exact UInt8.lt_of_le_of_lt hupper.2 (by decide)
  · exact hlower

/-- What replacing does: nothing, or a name of ASCII characters gives way to `utf-8`. -/
theorem replaceEncodingDeclaration_cases (text : Bytes) :
    replaceEncodingDeclaration text = text ∨
      ∃ front name back, text = front ++ name ++ back ∧
        replaceEncodingDeclaration text = front ++ ascii "utf-8" ++ back ∧
        name ≠ [] ∧ ∀ b ∈ name, b < 0x80 := by
  rw [replaceEncodingDeclaration]
  cases hparse : tryParseEncodingDeclaration text with
  | none => exact .inl rfl
  | some d =>
    obtain ⟨hle, hname⟩ := tryParseEncodingDeclaration_spec hparse
    dsimp only
    split
    · exact .inl rfl
    · rename_i hknown
      rw [hname] at hknown
      obtain ⟨hne, hascii⟩ := known_ascii hknown
      refine .inr ⟨_, (text.drop d.valueOffset).take d.valueLength, _, ?_, rfl, ?_,
        ascii_of_toLowerAscii hascii⟩
      · rw [← List.drop_drop, List.append_assoc, List.take_append_drop, List.take_append_drop]
      · exact fun hnil => hne (by rw [hnil]; rfl)

theorem validUtf8_append_ascii {front name back : Bytes} (hne : name ≠ [])
    (hascii : ∀ b ∈ name, b < 0x80) :
    ValidUtf8 (front ++ name ++ back) ↔ ValidUtf8 front ∧ ValidUtf8 back := by
  cases name with
  | nil => exact absurd rfl hne
  | cons b name =>
    rw [List.append_assoc, List.cons_append,
      ValidUtf8.append_ascii (hascii b List.mem_cons_self)]
    refine and_congr_right fun _ => ?_
    have hname : ∀ c ∈ name, c < 0x80 := fun c hc => hascii c (List.mem_cons_of_mem _ hc)
    clear hascii hne
    induction name with
    | nil => exact Iff.rfl
    | cons c name ih =>
      rw [List.cons_append, ValidUtf8.ascii_cons (hname c List.mem_cons_self)]
      exact ih fun d hd => hname d (List.mem_cons_of_mem _ hd)

theorem replaceEncodingDeclaration_valid {text : Bytes} (h : ValidUtf8 text) :
    ValidUtf8 (replaceEncodingDeclaration text) := by
  rcases replaceEncodingDeclaration_cases text with heq | ⟨front, name, back, rfl, heq, hne, hascii⟩
  · rwa [heq]
  · rw [heq, validUtf8_append_ascii (by decide) (List.all_iff_forall_prop.mp (by decide))]
    exact (validUtf8_append_ascii hne hascii).mp h

/-! ### The result is UTF-8 -/

theorem decodeUnmarkedText_valid {iconv : Iconv} (hiconv : iconv.WritesUtf8)
    {rawBytes text : Bytes} {warnings warnings' : Nat}
    (h : decodeUnmarkedText iconv rawBytes warnings = .ok (text, warnings')) :
    ValidUtf8 text := by
  rw [decodeUnmarkedText] at h
  split at h
  · obtain ⟨decoded, hdecoded, h⟩ := Program.except_bind_eq_ok h
    cases h
    exact replaceEncodingDeclaration_valid (utf16ToUtf8_valid hiconv hdecoded)
  split at h
  · obtain ⟨decoded, hdecoded, h⟩ := Program.except_bind_eq_ok h
    cases h
    exact replaceEncodingDeclaration_valid (utf16ToUtf8_valid hiconv hdecoded)
  split at h
  · obtain ⟨result, hresult, h⟩ := Program.except_bind_eq_ok h
    cases result with
    | some converted =>
      cases h
      exact replaceEncodingDeclaration_valid
        (codePageToUtf8_valid hiconv (caught_eq_some (mapError_eq_ok hresult)))
    | none =>
      cases h
      exact replaceEncodingDeclaration_valid (windows1251ToUtf8Lossy_valid rawBytes)
  · obtain ⟨converted, hconverted, h⟩ := Program.except_bind_eq_ok h
    cases h
    exact replaceEncodingDeclaration_valid
      (codePageToUtf8_valid hiconv (mapError_eq_ok hconverted))
  · split at h
    · rename_i hvalid
      cases h
      exact isValidUtf8_iff.mp hvalid
    · split at h
      · rename_i htrim
        cases h
        exact tryTrimTrailingIncompleteUtf8_valid htrim
      · obtain ⟨decoded, hdecoded, h⟩ := Program.except_bind_eq_ok h
        cases h
        exact replaceEncodingDeclaration_valid
          (decodeLegacyCyrillicToUtf8_valid hiconv hdecoded)

/-- Whatever bytes are accepted, they are decoded to UTF-8. -/
theorem decodeFb2Text_valid {iconv : Iconv} (hiconv : iconv.WritesUtf8)
    {rawBytes text : Bytes} {warnings warnings' : Nat}
    (h : decodeFb2Text iconv rawBytes warnings = .ok (text, warnings')) : ValidUtf8 text :=
  decodeUnmarkedText_valid hiconv h

end InpxWebReader.Parsing
