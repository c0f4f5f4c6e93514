import InpxWebReader.Foundation.Sha256
import InpxWebReader.Foundation.Unicode

/-!
# Book metadata

The metadata of a book, and the three normal forms the catalog keeps beside it: `normalizeText`
for titles and names, `normalizeIsbn` for book numbers and `normalizeLanguage` for language codes.
A text that is not UTF-8 has a normal form too, its bytes in hexadecimal behind a sentinel.
-/

namespace InpxWebReader.Domain

open Foundation Unicode

/-- `SBookMetadata`. A series index is kept as the bits of its `double`. -/
structure BookMetadata where
  title : Bytes := []
  authors : List Bytes := []
  language : Bytes := []
  series : Option Bytes := none
  seriesIndex : Option UInt64 := none
  publisher : Option Bytes := none
  year : Option Int := none
  isbn : Option Bytes := none
  tags : List Bytes := []
  genres : List Bytes := []
  description : Option Bytes := none
  identifier : Option Bytes := none
  deriving DecidableEq, Repr

/-- `SParsedBook`, as far as a scan reads it. -/
structure ParsedBook where
  metadata : BookMetadata := {}
  coverExtension : Option Bytes := none
  coverBytes : Bytes := []
  coverDiagnosticMessage : Option Bytes := none
  parserWarningCount : Nat := 0
  deriving DecidableEq, Repr

/-- `EInpxBookAvailability`. -/
inductive Availability
  | available
  | missingFromIndex
  deriving DecidableEq, Repr

/-! ### Texts -/

def invalidUtf8Sentinel : Bytes := [0xEE, 0x80, 0x80]

def invalidUtf8Prefix : Bytes := ascii "invalid-utf8:"

def escapeValidTextForNormalizationKey (normalized : Bytes) : Bytes :=
  if invalidUtf8Sentinel.isPrefixOf normalized then invalidUtf8Sentinel ++ normalized
  else normalized

def encodeInvalidUtf8ForNormalization (value : Bytes) : Bytes :=
  invalidUtf8Sentinel ++ invalidUtf8Prefix ++ hexText value

def normalizeText (value : Bytes) : Bytes :=
  match tryNormalizeUtf8WhitespaceAndCaseFold value with
  | some normalized => escapeValidTextForNormalizationKey normalized
  | none => encodeInvalidUtf8ForNormalization value

/-! ### Book numbers -/

/-- `std::isdigit` of a byte. -/
def isDigit (b : UInt8) : Bool := 48 ≤ b && b ≤ 57

/-- The value of a digit of a book number, and of a final `X` in a ten-digit one. -/
def isbnDigit (b : UInt8) : Nat := if b = asciiByte 'X' then 10 else b.toNat - 48

def isValidIsbn10Checksum (value : Bytes) : Bool :=
  value.length = 10 &&
    value.dropLast.all isDigit &&
    (value.getLast?.map fun b => isDigit b || b = asciiByte 'X').getD false &&
    (value.zipIdx.map fun (b, index) => isbnDigit b * (10 - index)).sum % 11 = 0

def isValidIsbn13Checksum (value : Bytes) : Bool :=
  value.length = 13 && value.all isDigit &&
    (10 - ((value.take 12).zipIdx.map fun (b, index) =>
      isbnDigit b * if index % 2 = 0 then 1 else 3).sum % 10) % 10 =
        (value.getLast?.map isbnDigit).getD 0

/-- `NormalizeIsbn`: the digits of a valid book number, none of anything else. -/
def normalizeIsbn (value : Option Bytes) : Option Bytes := do
  let value ← value
  if !isValidUtf8 value then none
  else
    let normalized := value.filterMap fun b =>
      if isDigit b then some b
      else if b = asciiByte 'x' ∨ b = asciiByte 'X' then some (asciiByte 'X')
      else none
    if normalized.length = 10 then
      if isValidIsbn10Checksum normalized then some normalized else none
    else if normalized.length = 13 then
      if isValidIsbn13Checksum normalized then some normalized else none
    else none

/-! ### Languages -/

/-- `GLanguageAliases`: an alias and the code it stands for. -/
def languageAliases : List (Bytes × Bytes) :=
  [
    ("", ""), ("und", ""), ("ru", "ru"), ("rus", "ru"), ("russian", "ru"), ("русский", "ru"),
    ("ру", "ru"), ("en", "en"), ("eng", "en"), ("english", "en"), ("uk", "uk"), ("ukr", "uk"),
    ("ua", "uk"), ("ukrain", "uk"), ("ukrian", "uk"), ("urkain", "uk"), ("bg", "bg"),
    ("bul", "bg"), ("български", "bg"), ("be", "be"), ("bel", "be"), ("es", "es"),
    ("spa", "es"), ("sp", "es"), ("fr", "fr"), ("fra", "fr"), ("fre", "fr"), ("de", "de"),
    ("deu", "de"), ("ger", "de"), ("it", "it"), ("ita", "it"), ("nl", "nl"), ("nld", "nl"),
    ("dut", "nl"), ("pl", "pl"), ("pol", "pl"), ("cs", "cs"), ("ces", "cs"), ("cze", "cs"),
    ("cz", "cs"), ("da", "da"), ("dan", "da"), ("zh", "zh"), ("zho", "zh"), ("chi", "zh"),
    ("chinese", "zh"), ("ja", "ja"), ("jpn", "ja"), ("jp", "ja"), ("id", "id"), ("ind", "id"),
    ("in", "id"), ("kk", "kk"), ("kaz", "kk"), ("kz", "kk"), ("pt", "pt"), ("por", "pt"),
    ("ro", "ro"), ("ron", "ro"), ("rum", "ro"), ("tk", "tk"), ("tuk", "tk"), ("turkmen", "tk"),
    ("pa", "pa"), ("pan", "pa"), ("pentjab", "pa")
  ].map fun entry => (utf8 entry.1, utf8 entry.2)

def knownPrimaryCodes : List Bytes :=
  [
    "ab", "ang", "ar", "as", "az", "ba", "be", "bg", "ca", "cs", "cu", "cv", "da", "de", "el",
    "en", "eo", "es", "et", "eu", "fa", "fi", "fr", "frm", "ga", "gd", "he", "hi", "hr", "hu",
    "hy", "ia", "id", "is", "it", "ja", "ka", "kk", "la", "lt", "lv", "mn", "nl", "no", "pa",
    "pl", "pt", "ro", "ru", "sa", "sh", "sk", "sq", "sr", "sv", "tg", "tk", "tr", "tt", "uk",
    "uz", "vi", "zh"
  ].map ascii

def isKnownPrimaryCode (value : Bytes) : Bool := knownPrimaryCodes.contains value

def tryResolveAlias (value : Bytes) : Option Bytes := languageAliases.lookup value

/-- `ReplaceAscii(value, '_', '-')`. -/
def hyphenated (value : Bytes) : Bytes :=
  value.map fun b => if b = asciiByte '_' then asciiByte '-' else b

/-- `FirstListToken`: the text before the first of `,;/+`. -/
def firstListToken (value : Bytes) : Bytes :=
  value.takeWhile fun b => !(ascii ",;/+").contains b

/-- The code of a normalized language text: by alias, by the primary subtag, or as it stands. -/
def resolveLanguage (normalized : Bytes) : Bytes :=
  match tryResolveAlias normalized with
  | some canonical => canonical
  | none =>
    if normalized.contains (asciiByte '-') then
      let primary := normalized.takeWhile (· ≠ asciiByte '-')
      match tryResolveAlias primary with
      | some canonical => canonical
      | none => if isKnownPrimaryCode primary then primary else normalized
    else normalized

def normalizeLanguage (language : Bytes) : Bytes :=
  match tryNormalizeUtf8WhitespaceAndCaseFold language with
  | none => language
  | some normalized =>
    match tryNormalizeUtf8WhitespaceAndCaseFold (firstListToken (hyphenated normalized)) with
    | none => language
    | some normalized => resolveLanguage (hyphenated normalized)

end InpxWebReader.Domain
