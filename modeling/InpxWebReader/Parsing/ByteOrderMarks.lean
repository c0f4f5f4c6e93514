import InpxWebReader.Parsing.Fb2Text

/-!
# Byte order marks

A text that is marked as UTF-16 is read as such whatever encoding it declares. A text that is
marked as UTF-8 is not: the mark goes, and a declared Windows-1251 or CP866 is believed. And where a
character of the result lies across the border of two blocks of the output buffer, the conversion
from UTF-16 never returns (`decodeFb2Text_crossing`). `respectsMarks_iff` says for which texts all
three marks are respected.
-/

namespace InpxWebReader.Parsing

open Foundation Unicode Blocks

/-! ### UTF-16 -/

inductive ByteOrder
  | little
  | big
  deriving DecidableEq

def utf16Units (codePoint : Nat) : List Nat :=
  if codePoint < 0x10000 then [codePoint]
  else [0xD800 + (codePoint - 0x10000) / 0x400, 0xDC00 + (codePoint - 0x10000) % 0x400]

def ByteOrder.unitBytes (order : ByteOrder) (unit : Nat) : Bytes :=
  match order with
  | .little => [UInt8.ofNat (unit % 256), UInt8.ofNat (unit / 256)]
  | .big => [UInt8.ofNat (unit / 256), UInt8.ofNat (unit % 256)]

def encodeUtf16 (order : ByteOrder) (text : List Char) : Bytes :=
  (text.flatMap fun c => utf16Units c.toNat).flatMap order.unitBytes

def ByteOrder.mark (order : ByteOrder) : Bytes := order.unitBytes 0xFEFF

def ByteOrder.encoding : ByteOrder → Bytes
  | .little => ascii "UTF-16LE"
  | .big => ascii "UTF-16BE"

/-! ### What the system promises -/

/-- What is read with a table of code points: everything before the first byte that has none. -/
def readWith (table : UInt8 → Option Nat) : Bytes → IconvReading
  | [] => ⟨[], true⟩
  | b :: value =>
    match table b with
    | none => ⟨[], false⟩
    | some codePoint => (readWith table value).cons (utf8OfCodePoint codePoint)

/-- The conversion from a single-byte encoding that extends ASCII, by the table of its code points;
some bytes may have none. -/
structure CodePage (convert : Bytes → IconvReading) (table : UInt8 → Option Nat) : Prop where
  ascii : ∀ b, b < 0x80 → table b = some b.toNat
  other : ∀ b codePoint, ¬b < 0x80 → table b = some codePoint → 0x80 ≤ codePoint
  convert : ∀ value, convert value = readWith table value

/-- The reading of a text of which every character is converted. -/
def wholeReading (text : List Char) : IconvReading :=
  ⟨text.map fun c => utf8OfCodePoint c.toNat, true⟩

/-- The conversions of the system are correct: they write UTF-8, read UTF-16, and the two code
pages are single-byte encodings that extend ASCII. -/
structure Correct (iconv : Iconv) : Prop where
  writesUtf8 : iconv.WritesUtf8
  utf16 : ∀ order : ByteOrder, ∃ convert, iconv order.encoding = some convert ∧
    ∀ text, convert (encodeUtf16 order text) = wholeReading text
  codePage : ∀ encoding ∈ windows1251Encodings ++ cp866Encodings,
    ∃ convert table, iconv encoding = some convert ∧ CodePage convert table

/-! ### The law -/

/-- A text begins with an XML declaration. -/
def hasXmlDeclaration (text : Bytes) : Bool :=
  (ascii "<?xml").isPrefixOf text && (text[5]?).any isSpace

/-- The text itself, or the text with another encoding in its XML declaration. -/
def UpToDeclaration (text result : Bytes) : Prop :=
  result = text ∨ (hasXmlDeclaration text = true ∧ result = replaceEncodingDeclaration text)

/-- A payload is decoded to a text, up to its XML encoding declaration. -/
def DecodesTo (iconv : Iconv) (payload text : Bytes) : Prop :=
  ∀ warnings, ∃ result warnings', decodeFb2Text iconv payload warnings = .ok (result, warnings') ∧
    UpToDeclaration text result

/-- A text is read back behind each of the three marks. -/
structure RespectsMarks (iconv : Iconv) (text : List Char) : Prop where
  utf8 : DecodesTo iconv ([0xEF, 0xBB, 0xBF] ++ encodeUtf8 text) (encodeUtf8 text)
  utf16le : DecodesTo iconv (ByteOrder.mark .little ++ encodeUtf16 .little text) (encodeUtf8 text)
  utf16be : DecodesTo iconv (ByteOrder.mark .big ++ encodeUtf16 .big text) (encodeUtf8 text)

/-- The first bytes of a text declare one of the two code pages. -/
def declaresCodePage (text : Bytes) : Bool :=
  (tryParseEncodingDeclaration (text.take 512)).any fun declaration =>
    declaration.encoding = .windows1251 || declaration.encoding = .cp866

/-- A text is not too long to be converted from UTF-16. -/
def fitsConversion (text : List Char) : Bool :=
  (encodeUtf16 .little text).length ≤ maxStringSize / 4

/-- No character of a text in UTF-8 lies across the border of two blocks of the output buffer. -/
def liesInBlocks (text : List Char) : Bool :=
  within checkpointIntervalBytes 0 (wholeReading text).characters

/-! ### Counting bytes -/

/-- The bytes of a text that are not ASCII. -/
def highCount (text : Bytes) : Nat := text.countP fun b => ¬b < 0x80

@[simp] theorem highCount_append (a b : Bytes) : highCount (a ++ b) = highCount a + highCount b :=
  List.countP_append

theorem highCount_eq_zero {text : Bytes} : highCount text = 0 ↔ ∀ b ∈ text, b < 0x80 := by
  rw [highCount, List.countP_eq_zero]
  simp

theorem highCount_cons {b : UInt8} {text : Bytes} (h : ¬b < 0x80) :
    highCount (b :: text) = highCount text + 1 :=
  List.countP_cons_of_pos (decide_eq_true h)

/-- Replacing a declared encoding does not touch bytes outside ASCII. -/
theorem highCount_replace (text : Bytes) :
    highCount (replaceEncodingDeclaration text) = highCount text := by
  rcases replaceEncodingDeclaration_cases text with heq | ⟨front, name, back, rfl, heq, _, hascii⟩
  · rw [heq]
  · have hname := highCount_eq_zero.mpr hascii
    have hutf : highCount (ascii "utf-8") = 0 := by decide
    rw [heq]
    simp only [highCount_append, hname, hutf]

theorem two_le_highCount {codePoint : Nat} (h : 0x80 ≤ codePoint) :
    2 ≤ highCount (utf8OfCodePoint codePoint) := by
  have hbyte : ∀ n, ¬UInt8.ofNat (0x80 + n % 64) < 0x80 := by
    intro n
    rw [UInt8.lt_iff_toNat_lt, toNat_ofNat_of_lt (by omega)]
    simp
  have hlead : ∀ k n, 0 < n → 0xC0 ≤ k → k + n ≤ 256 → ∀ m, ¬UInt8.ofNat (k + m % n) < 0x80 := by
    intro k n hn hk hkn m
    have := Nat.mod_lt m hn
    rw [UInt8.lt_iff_toNat_lt, toNat_ofNat_of_lt (by omega)]
    simp only [UInt8.reduceToNat]
    omega
  rw [utf8OfCodePoint, if_neg (by omega)]
  split_ifs
  · rw [highCount_cons (hlead 0xC0 32 (by omega) (by omega) (by omega) _),
      highCount_cons (hbyte _)]
    omega
  · rw [highCount_cons (hlead 0xE0 16 (by omega) (by omega) (by omega) _),
      highCount_cons (hbyte _)]
    omega
  · rw [highCount_cons (hlead 0xF0 8 (by omega) (by omega) (by omega) _),
      highCount_cons (hbyte _)]
    omega

/-- What is read to its end with a table that extends ASCII has two bytes at least for each byte
outside ASCII. -/
theorem highCount_readWith {table : UInt8 → Option Nat}
    (hother : ∀ b codePoint, ¬b < 0x80 → table b = some codePoint → 0x80 ≤ codePoint)
    {value : Bytes} (h : (readWith table value).complete = true) :
    2 * highCount value ≤ highCount (readWith table value).text := by
  induction value with
  | nil => exact Nat.zero_le _
  | cons b value ih =>
    rw [readWith] at h ⊢
    cases hb : table b with
    | none =>
      rw [hb] at h
      cases h
    | some codePoint =>
      rw [hb] at h
      have hrest := ih h
      have hcons : highCount (b :: value) = highCount [b] + highCount value :=
        highCount_append [b] value
      change _ ≤ highCount (utf8OfCodePoint codePoint ++ (readWith table value).text)
      rw [hcons, highCount_append]
      by_cases hascii : b < 0x80
      · have hzero : highCount [b] = 0 := by simpa [highCount_eq_zero] using hascii
        omega
      · have hone : highCount [b] ≤ 1 := List.countP_le_length
        have := two_le_highCount (hother b codePoint hascii hb)
        omega

theorem readWith_ascii {table : UInt8 → Option Nat}
    (hascii : ∀ b, b < 0x80 → table b = some b.toNat) {value : Bytes}
    (h : ∀ b ∈ value, b < 0x80) : readWith table value = ⟨value.map fun b => [b], true⟩ := by
  induction value with
  | nil => rfl
  | cons b value ih =>
    have hb := h b List.mem_cons_self
    have hbyte : utf8OfCodePoint b.toNat = [b] := by
      have hle : b.toNat ≤ 0x7F := by
        simp only [UInt8.lt_iff_toNat_lt, UInt8.reduceToNat] at hb
        omega
      rw [utf8OfCodePoint, if_pos hle, UInt8.ofNat_toNat]
    simp only [readWith, hascii b hb, ih fun c hc => h c (List.mem_cons_of_mem _ hc), hbyte]
    rfl

/-! ### Texts that are marked as UTF-16 -/

theorem length_unitBytes (order : ByteOrder) (unit : Nat) : (order.unitBytes unit).length = 2 := by
  cases order <;> rfl

theorem length_encodeUtf16 (order : ByteOrder) (text : List Char) :
    (encodeUtf16 order text).length = 2 * (text.flatMap fun c => utf16Units c.toNat).length := by
  rw [encodeUtf16]
  generalize text.flatMap (fun c => utf16Units c.toNat) = units
  induction units with
  | nil => rfl
  | cons unit units ih =>
    rw [List.flatMap_cons, List.length_append, length_unitBytes, List.length_cons]
    omega

theorem fitsConversion_iff (order : ByteOrder) {text : List Char} :
    fitsConversion text = true ↔ (encodeUtf16 order text).length ≤ maxStringSize / 4 := by
  rw [fitsConversion, decide_eq_true_eq, length_encodeUtf16, length_encodeUtf16]

theorem length_utf8OfCodePoint_le (codePoint : Nat) : (utf8OfCodePoint codePoint).length ≤ 4 := by
  rw [utf8OfCodePoint]
  split_ifs <;> simp

theorem length_utf16Units_pos (codePoint : Nat) : 0 < (utf16Units codePoint).length := by
  rw [utf16Units]
  split <;> simp

theorem length_encodeUtf16_le (order : ByteOrder) (text : List Char) :
    (encodeUtf16 order text).length ≤ 4 * text.length := by
  rw [length_encodeUtf16]
  induction text with
  | nil => exact Nat.zero_le _
  | cons c text ih =>
    have hunits : (utf16Units c.toNat).length ≤ 2 := by
      rw [utf16Units]
      split <;> simp
    rw [List.flatMap_cons, List.length_append, List.length_cons]
    omega

/-- A text in UTF-8 is at most three times as long as in UTF-16. -/
theorem length_encodeUtf8_le (order : ByteOrder) (text : List Char) :
    (encodeUtf8 text).length ≤ 3 * (encodeUtf16 order text).length := by
  rw [length_encodeUtf16]
  induction text with
  | nil => exact Nat.zero_le _
  | cons c text ih =>
    have hlong := length_utf8OfCodePoint_le c.toNat
    have hpos := length_utf16Units_pos c.toNat
    rw [encodeUtf8_cons, List.flatMap_cons, List.length_append, List.length_append]
    omega

/-- A text of ASCII characters is no longer in UTF-8 than in UTF-16. -/
theorem length_encodeUtf8_ascii (order : ByteOrder) {text : List Char}
    (h : ∀ b ∈ encodeUtf8 text, b < 0x80) :
    (encodeUtf8 text).length ≤ (encodeUtf16 order text).length := by
  rw [length_encodeUtf16]
  induction text with
  | nil => exact Nat.zero_le _
  | cons c text ih =>
    rw [encodeUtf8_cons, List.forall_mem_append] at h
    have hascii : c.toNat ≤ 0x7F := by
      by_contra hnot
      have htwo := two_le_highCount (Nat.not_le.mp hnot)
      rw [highCount_eq_zero.mpr h.1] at htwo
      omega
    have hone : (utf8OfCodePoint c.toNat).length = 1 := by
      rw [utf8OfCodePoint, if_pos hascii, List.length_singleton]
    have hpos := length_utf16Units_pos c.toNat
    have hrest := ih h.2
    rw [encodeUtf8_cons, List.flatMap_cons, List.length_append, List.length_append]
    omega

theorem encodeUtf16_eq_nil_iff {order : ByteOrder} {text : List Char} :
    encodeUtf16 order text = [] ↔ text = [] := by
  constructor
  · intro h
    cases text with
    | nil => rfl
    | cons c text =>
      rw [encodeUtf16, List.flatMap_cons, utf16Units] at h
      split at h <;> cases order <;> cases h
  · rintro rfl
    rfl

/-- A text in UTF-16 that is not too long is converted, or the conversion never returns. -/
theorem convertText_utf16 {iconv : Iconv} (correct : Correct iconv) (order : ByteOrder)
    {text : List Char} (h : fitsConversion text = true) :
    convertText iconv order.encoding (encodeUtf16 order text) =
      if liesInBlocks text then .ok (encodeUtf8 text) else .error .neverReturns := by
  obtain ⟨convert, hopen, hread⟩ := correct.utf16 order
  by_cases hnil : text = []
  · subst hnil
    rfl
  · have htext : (convert (encodeUtf16 order text)).text = encodeUtf8 text := by
      rw [hread]
      rfl
    rw [convertText_eq hopen (encodeUtf16_eq_nil_iff.not.mpr hnil)
      ((fitsConversion_iff order).mp h) (by rw [htext]; exact length_encodeUtf8_le order text),
      htext, hread]
    rfl

/-- Behind its mark a text in UTF-16 is converted, and its declaration replaced. -/
theorem decodeFb2Text_mark (iconv : Iconv) (order : ByteOrder) (text : List Char)
    (warnings : Nat) : ∃ errorContext,
      decodeFb2Text iconv (order.mark ++ encodeUtf16 order text) warnings =
        ((convertText iconv order.encoding (encodeUtf16 order text)).mapError
          (ConversionEnd.toNoResult errorContext)).map fun decoded =>
            (replaceEncodingDeclaration decoded, warnings) := by
  have hdrop : (order.mark ++ encodeUtf16 order text).drop 2 = encodeUtf16 order text :=
    List.drop_left' (length_unitBytes order _)
  have heven : ¬(encodeUtf16 order text).length % 2 ≠ 0 := by
    rw [length_encodeUtf16]
    omega
  have hread : ∀ byteOrder, utf16ToUtf8 iconv order.encoding byteOrder
      (order.mark ++ encodeUtf16 order text) =
        (convertText iconv order.encoding (encodeUtf16 order text)).mapError
          (ConversionEnd.toNoResult
            (ascii "Failed to convert " ++ byteOrder ++ ascii " text to UTF-8.")) := by
    intro byteOrder
    rw [utf16ToUtf8, hdrop, if_neg heven]
  cases order with
  | little =>
    refine ⟨ascii "Failed to convert " ++ ascii "UTF-16 LE" ++ ascii " text to UTF-8.", ?_⟩
    change (utf16ToUtf8 iconv (ByteOrder.encoding .little) (ascii "UTF-16 LE")
      (ByteOrder.little.mark ++ encodeUtf16 .little text) >>= fun decoded => _) = _
    rw [hread]
    rfl
  | big =>
    refine ⟨ascii "Failed to convert " ++ ascii "UTF-16 BE" ++ ascii " text to UTF-8.", ?_⟩
    change (utf16ToUtf8 iconv (ByteOrder.encoding .big) (ascii "UTF-16 BE")
      (ByteOrder.big.mark ++ encodeUtf16 .big text) >>= fun decoded => _) = _
    rw [hread]
    rfl

/-- Where a character of the result lies across a border, decoding never returns. -/
theorem decodeFb2Text_utf16 {iconv : Iconv} (correct : Correct iconv) (order : ByteOrder)
    {text : List Char} (h : fitsConversion text = true) (warnings : Nat) :
    decodeFb2Text iconv (order.mark ++ encodeUtf16 order text) warnings =
      if liesInBlocks text then .ok (replaceEncodingDeclaration (encodeUtf8 text), warnings)
      else .error .loops := by
  obtain ⟨errorContext, hdecode⟩ := decodeFb2Text_mark iconv order text warnings
  rw [hdecode, convertText_utf16 correct order h]
  split <;> rfl

theorem fitsConversion_of_decodes {iconv : Iconv} {order : ByteOrder} {text : List Char}
    {warnings : Nat} {result : Bytes × Nat}
    (h : decodeFb2Text iconv (order.mark ++ encodeUtf16 order text) warnings = .ok result) :
    fitsConversion text = true := by
  obtain ⟨errorContext, hdecode⟩ := decodeFb2Text_mark iconv order text warnings
  rw [hdecode] at h
  cases hconvert : convertText iconv order.encoding (encodeUtf16 order text) with
  | error e =>
    rw [hconvert] at h
    cases h
  | ok converted =>
    rcases convertText_ok hconvert with ⟨hnil, _⟩ | ⟨_, _, hlength, _⟩
    · rw [fitsConversion_iff order, hnil]
      exact Nat.zero_le _
    · exact (fitsConversion_iff order).mpr hlength

theorem decodesTo_utf16_iff {iconv : Iconv} (correct : Correct iconv) (order : ByteOrder)
    (text : List Char) :
    DecodesTo iconv (order.mark ++ encodeUtf16 order text) (encodeUtf8 text) ↔
      (fitsConversion text = true ∧ liesInBlocks text = true) ∧
        (hasXmlDeclaration (encodeUtf8 text) = true ∨
          replaceEncodingDeclaration (encodeUtf8 text) = encodeUtf8 text) := by
  constructor
  · intro h
    obtain ⟨result, warnings', hdecode, hresult⟩ := h 0
    have hfits := fitsConversion_of_decodes hdecode
    rw [decodeFb2Text_utf16 correct order hfits] at hdecode
    split at hdecode
    · rename_i hblocks
      injection hdecode with hdecode
      injection hdecode with hdecode
      rw [← hdecode] at hresult
      rcases hresult with hsame | ⟨hdeclaration, _⟩
      · exact ⟨⟨hfits, hblocks⟩, .inr hsame⟩
      · exact ⟨⟨hfits, hblocks⟩, .inl hdeclaration⟩
    · cases hdecode
  · rintro ⟨⟨hfits, hblocks⟩, h⟩ warnings
    refine ⟨_, _, by rw [decodeFb2Text_utf16 correct order hfits, if_pos hblocks], ?_⟩
    rcases h with hdeclaration | hsame
    · exact .inr ⟨hdeclaration, rfl⟩
    · exact .inl hsame

/-! ### Texts that are marked as UTF-8 -/

/-- A valid text does not begin with a mark of UTF-16. -/
theorem not_mark_isPrefix {b b' : UInt8} (hb : 0xF8 ≤ b) (text : List Char) :
    ([b, b'] : Bytes).isPrefixOf (encodeUtf8 text) = false := by
  rw [Bool.eq_false_iff]
  intro hpre
  obtain ⟨rest, hrest⟩ := List.isPrefixOf_iff_prefix.mp hpre
  have hvalid := validUtf8_encodeUtf8 text
  rw [← hrest] at hvalid
  have hnat := UInt8.le_iff_toNat_le.mp hb
  simp only [UInt8.reduceToNat] at hnat
  cases hvalid with
  | step decode _ =>
    simp only [List.cons_append, tryDecodeUtf8CodePoint, UInt8.lt_iff_toNat_lt,
      UInt8.le_iff_toNat_le, UInt8.reduceToNat] at decode
    rw [if_neg (by omega), if_neg (by omega), if_neg (by omega), if_neg (by omega)] at decode
    cases decode

theorem decodeFb2Text_utf8 (iconv : Iconv) (text : List Char) (warnings : Nat) :
    decodeFb2Text iconv ([0xEF, 0xBB, 0xBF] ++ encodeUtf8 text) warnings =
      decodeUnmarkedText iconv (encodeUtf8 text) warnings := rfl

/-- Conversion from a code page lengthens texts outside ASCII. -/
theorem codePageToUtf8_high {iconv : Iconv} (correct : Correct iconv) {encodings : List Bytes}
    (hsub : encodings ⊆ windows1251Encodings ++ cp866Encodings) {value converted : Bytes}
    (h : codePageToUtf8 iconv encodings value = .ok converted) :
    2 * highCount value ≤ highCount converted := by
  obtain ⟨encoding, hmem, hconvert⟩ := codePageToUtf8_ok h
  obtain ⟨convert, table, hopen, page⟩ := correct.codePage encoding (hsub hmem)
  rcases convertText_ok hconvert with ⟨rfl, _⟩ | ⟨convert', hopen', _, hcomplete, rfl⟩
  · exact Nat.zero_le _
  · obtain rfl : convert = convert' := Option.some_inj.mp (hopen.symm.trans hopen')
    rw [page.convert] at hcomplete ⊢
    exact highCount_readWith page.other hcomplete

theorem codePageToUtf8_ascii {iconv : Iconv} (correct : Correct iconv) {encodings : List Bytes}
    (hsub : encodings ⊆ windows1251Encodings ++ cp866Encodings) (hne : encodings ≠ [])
    {value : Bytes} (hlength : value.length ≤ maxStringSize / 4)
    (hascii : ∀ b ∈ value, b < 0x80) : codePageToUtf8 iconv encodings value = .ok value := by
  cases encodings with
  | nil => exact absurd rfl hne
  | cons encoding encodings =>
    obtain ⟨convert, table, hopen, page⟩ := correct.codePage encoding (hsub List.mem_cons_self)
    have hread : convert value = ⟨value.map fun b => [b], true⟩ := by
      rw [page.convert, readWith_ascii page.ascii hascii]
    have htext : (convert value).text = value := by
      rw [hread]
      exact List.flatMap_singleton' value
    have hconvert : convertText iconv encoding value = .ok value := by
      by_cases hnil : value = []
      · rw [convertText, if_pos hnil, hnil]
      · have hwithin : within checkpointIntervalBytes 0 (convert value).characters = true := by
          rw [hread]
          refine within_of_length_le_one (by decide) fun item hitem => ?_
          obtain ⟨b, _, rfl⟩ := List.mem_map.mp hitem
          exact le_rfl
        rw [convertText_eq hopen hnil hlength (by rw [htext]; omega), if_pos hwithin, htext, hread]
        rfl
    rw [codePageToUtf8, hconvert]
    rfl

theorem highCount_lossy (value : Bytes) :
    2 * highCount value ≤ highCount (windows1251ToUtf8Lossy value) := by
  have hpoint : ∀ b : UInt8, ¬b < 0x80 → 0x80 ≤ windows1251CodePoint b := by
    have hall : ∀ n < 256, ¬UInt8.ofNat n < 0x80 → 0x80 ≤ windows1251CodePoint (UInt8.ofNat n) := by
      decide +kernel
    intro b hb
    have hbyte := hall b.toNat b.toNat_lt
    rw [UInt8.ofNat_toNat] at hbyte
    exact hbyte hb
  have hlossy : readWith (fun b => some (windows1251CodePoint b)) value =
      ⟨value.map fun b => utf8OfCodePoint (windows1251CodePoint b), true⟩ := by
    induction value with
    | nil => rfl
    | cons b value ih =>
      rw [readWith, ih]
      rfl
  have hread := @highCount_readWith (fun b => some (windows1251CodePoint b))
    (fun b codePoint hb h => Option.some_inj.mp h ▸ hpoint b hb) value (by rw [hlossy])
  rwa [hlossy] at hread

/-- What a declared code page makes of a text that is marked as UTF-8: nothing, or a text with at
least twice its bytes outside ASCII. -/
theorem decodeUnmarkedText_codePage {iconv : Iconv} (correct : Correct iconv) {text : List Char}
    (h : declaresCodePage (encodeUtf8 text) = true) (warnings : Nat) :
    ((encodeUtf8 text).length ≤ maxStringSize / 4 → (∀ b ∈ encodeUtf8 text, b < 0x80) →
      decodeUnmarkedText iconv (encodeUtf8 text) warnings =
        .ok (replaceEncodingDeclaration (encodeUtf8 text), warnings)) ∧
    ∀ result warnings', decodeUnmarkedText iconv (encodeUtf8 text) warnings =
      .ok (result, warnings') → 2 * highCount (encodeUtf8 text) ≤ highCount result := by
  obtain ⟨declaration, hparse, hencoding⟩ := (Option.any_eq_true _ _).mp h
  have hmap : (tryParseEncodingDeclaration ((encodeUtf8 text).take 512)).map
      XmlEncodingDeclaration.encoding = some declaration.encoding := by
    rw [hparse]
    rfl
  rw [decodeUnmarkedText, not_mark_isPrefix (by decide), not_mark_isPrefix (by decide), hmap]
  rw [Bool.or_eq_true, decide_eq_true_eq, decide_eq_true_eq] at hencoding
  simp only [Bool.false_eq_true, if_false]
  rcases hencoding with hencoding | hencoding
  · have hsub := List.subset_append_left windows1251Encodings cp866Encodings
    rw [hencoding]
    constructor
    · intro hlength hall
      rw [codePageToUtf8_ascii correct hsub (List.cons_ne_nil _ _) hlength hall]
      rfl
    · intro result warnings' hresult
      obtain ⟨read, hread, hresult⟩ := Program.except_bind_eq_ok hresult
      cases read with
      | some converted =>
        cases hresult
        rw [highCount_replace]
        exact codePageToUtf8_high correct hsub (caught_eq_some (mapError_eq_ok hread))
      | none =>
        cases hresult
        rw [highCount_replace]
        exact highCount_lossy _
  · have hsub := List.subset_append_right windows1251Encodings cp866Encodings
    rw [hencoding]
    constructor
    · intro hlength hall
      rw [codePageToUtf8_ascii correct hsub (List.cons_ne_nil _ _) hlength hall]
      rfl
    · intro result warnings' hresult
      obtain ⟨converted, hread, hresult⟩ := Program.except_bind_eq_ok hresult
      cases hresult
      rw [highCount_replace]
      exact codePageToUtf8_high correct hsub (mapError_eq_ok hread)

theorem decodeUnmarkedText_utf8 {iconv : Iconv} {text : List Char}
    (h : declaresCodePage (encodeUtf8 text) = false) (warnings : Nat) :
    decodeUnmarkedText iconv (encodeUtf8 text) warnings = .ok (encodeUtf8 text, warnings) := by
  have hvalid := isValidUtf8_iff.mpr (validUtf8_encodeUtf8 text)
  rw [declaresCodePage] at h
  rw [decodeUnmarkedText, not_mark_isPrefix (by decide), not_mark_isPrefix (by decide)]
  simp only [Bool.false_eq_true, if_false]
  cases hparse : tryParseEncodingDeclaration ((encodeUtf8 text).take 512) with
  | none =>
    simp only [Option.map_none, hvalid, if_true]
    rfl
  | some declaration =>
    rw [hparse, Option.any_some, Bool.or_eq_false_iff, decide_eq_false_iff_not,
      decide_eq_false_iff_not] at h
    rw [Option.map_some]
    split
    · rename_i heq
      exact absurd (Option.some_inj.mp heq) h.1
    · rename_i heq
      exact absurd (Option.some_inj.mp heq) h.2
    · simp only [hvalid, if_true]
      rfl

/-! ### When the marks are respected -/

/-- Every accepted payload is decoded to UTF-8. A valid text is read back behind each of the three
marks exactly if it is not too long to be converted, no character of it lies across the border of
two blocks of the output buffer, what is replaced in it is in its XML declaration and, where its
first bytes declare one of the code pages, it is of ASCII characters. -/
theorem respectsMarks_iff {iconv : Iconv} (correct : Correct iconv) :
    (∀ payload warnings result warnings',
      decodeFb2Text iconv payload warnings = .ok (result, warnings') → ValidUtf8 result) ∧
    ∀ text : List Char, RespectsMarks iconv text ↔
      (fitsConversion text = true ∧ liesInBlocks text = true) ∧
      (hasXmlDeclaration (encodeUtf8 text) = true ∨
        replaceEncodingDeclaration (encodeUtf8 text) = encodeUtf8 text) ∧
      (declaresCodePage (encodeUtf8 text) = true → ∀ b ∈ encodeUtf8 text, b < 0x80) := by
  refine ⟨fun payload warnings result warnings' h => decodeFb2Text_valid correct.writesUtf8 h,
    fun text => ?_⟩
  constructor
  · intro h
    obtain ⟨hconverted, hdeclaration⟩ := (decodesTo_utf16_iff correct .little text).mp h.utf16le
    refine ⟨hconverted, hdeclaration, fun hpage => ?_⟩
    rw [← highCount_eq_zero]
    obtain ⟨result, warnings', hdecode, hresult⟩ := h.utf8 0
    have hmany := (decodeUnmarkedText_codePage correct hpage 0).2 result warnings' hdecode
    -- the result would have the bytes of the text outside ASCII, not twice as many
    have hsame : highCount result = highCount (encodeUtf8 text) := by
      rcases hresult with rfl | ⟨_, rfl⟩
      · rfl
      · exact highCount_replace _
    omega
  · rintro ⟨hconverted, hdeclaration, hpage⟩
    refine ⟨fun warnings => ?_,
      (decodesTo_utf16_iff correct .little text).mpr ⟨hconverted, hdeclaration⟩,
      (decodesTo_utf16_iff correct .big text).mpr ⟨hconverted, hdeclaration⟩⟩
    rw [decodeFb2Text_utf8]
    cases hdeclares : declaresCodePage (encodeUtf8 text) with
    | true =>
      have hlength := (length_encodeUtf8_ascii .little (hpage hdeclares)).trans
        ((fitsConversion_iff .little).mp hconverted.1)
      refine ⟨_, _, (decodeUnmarkedText_codePage correct hdeclares warnings).1 hlength
        (hpage hdeclares), ?_⟩
      rcases hdeclaration with hdeclaration | hsame
      · exact .inr ⟨hdeclaration, rfl⟩
      · exact .inl hsame
    | false => exact ⟨_, _, decodeUnmarkedText_utf8 hdeclares warnings, .inl rfl⟩

theorem not_liesInBlocks_of_crossing {front back : List Char} {c : Char}
    (h : checkpointIntervalBytes < (encodeUtf8 front).length % checkpointIntervalBytes +
      (utf8OfCodePoint c.toNat).length) : liesInBlocks (front ++ c :: back) = false := by
  rw [Bool.eq_false_iff]
  intro hblocks
  rw [liesInBlocks, wholeReading, List.map_append, within_append, Nat.zero_add, List.map_cons,
    within_cons] at hblocks
  have hle : (encodeUtf8 front).length % checkpointIntervalBytes +
      (utf8OfCodePoint c.toNat).length ≤ checkpointIntervalBytes := hblocks.2.1
  omega

/-- One letter of one byte and then letters of two: the last of them lies across the first
border. -/
def crossingText : List Char := ('a' :: List.replicate 32767 'я') ++ ['я']

/-- Behind the marks of UTF-16 this text is never decoded. -/
theorem decodeFb2Text_crossing {iconv : Iconv} (correct : Correct iconv) (order : ByteOrder)
    (warnings : Nat) :
    decodeFb2Text iconv (order.mark ++ encodeUtf16 order crossingText) warnings =
      .error .loops := by
  have hfront : (encodeUtf8 ('a' :: List.replicate 32767 'я')).length = 65535 := by
    have hletters : ∀ n, (encodeUtf8 (List.replicate n 'я')).length = 2 * n := by
      intro n
      induction n with
      | zero => rfl
      | succ n ih =>
        rw [List.replicate_succ, encodeUtf8_cons, List.length_append, ih, Nat.mul_succ,
          Nat.add_comm]
        rfl
    rw [encodeUtf8_cons, List.length_append, hletters]
    rfl
  have hblocks : liesInBlocks crossingText = false :=
    not_liesInBlocks_of_crossing (by rw [hfront]; decide)
  have hfits : fitsConversion crossingText = true := by
    rw [fitsConversion_iff order]
    have hle := length_encodeUtf16_le order crossingText
    rw [crossingText, List.length_append, List.length_cons, List.length_replicate] at hle
    exact hle.trans (by decide)
  rw [decodeFb2Text_utf16 correct order hfits, hblocks]
  rfl

/-! ### Conversions that keep the promises -/

def ByteOrder.unit (order : ByteOrder) (a b : UInt8) : Nat :=
  match order with
  | .little => b.toNat * 256 + a.toNat
  | .big => a.toNat * 256 + b.toNat

/-- The units of a text, and whether it ends with a whole one. -/
def unitsOf (order : ByteOrder) : Bytes → List Nat × Bool
  | [] => ([], true)
  | [_] => ([], false)
  | a :: b :: rest => (order.unit a b :: (unitsOf order rest).1, (unitsOf order rest).2)

/-- What is read from units: everything before the first that stands alone. -/
def readUnits : List Nat → IconvReading
  | [] => ⟨[], true⟩
  | [unit] =>
    if unit < 0xD800 ∨ 0xE000 ≤ unit then ⟨[utf8OfCodePoint unit], true⟩ else ⟨[], false⟩
  | unit :: low :: units =>
    if unit < 0xD800 ∨ 0xE000 ≤ unit then (readUnits (low :: units)).cons (utf8OfCodePoint unit)
    else if unit < 0xDC00 ∧ 0xDC00 ≤ low ∧ low < 0xE000 then
      (readUnits units).cons
        (utf8OfCodePoint (0x10000 + (unit - 0xD800) * 0x400 + (low - 0xDC00)))
    else ⟨[], false⟩

def readUtf16 (order : ByteOrder) (value : Bytes) : IconvReading :=
  ⟨(readUnits (unitsOf order value).1).characters,
    (unitsOf order value).2 && (readUnits (unitsOf order value).1).complete⟩

/-- CP866 from `0xB0` on. -/
def cp866HighBlock : List Nat :=
  [0x2591, 0x2592, 0x2593, 0x2502, 0x2524, 0x2561, 0x2562, 0x2556,
    0x2555, 0x2563, 0x2551, 0x2557, 0x255D, 0x255C, 0x255B, 0x2510,
    0x2514, 0x2534, 0x252C, 0x251C, 0x2500, 0x253C, 0x255E, 0x255F,
    0x255A, 0x2554, 0x2569, 0x2566, 0x2560, 0x2550, 0x256C, 0x2567,
    0x2568, 0x2564, 0x2565, 0x2559, 0x2558, 0x2552, 0x2553, 0x256B,
    0x256A, 0x2518, 0x250C, 0x2588, 0x2584, 0x258C, 0x2590, 0x2580,
    0x0440, 0x0441, 0x0442, 0x0443, 0x0444, 0x0445, 0x0446, 0x0447,
    0x0448, 0x0449, 0x044A, 0x044B, 0x044C, 0x044D, 0x044E, 0x044F,
    0x0401, 0x0451, 0x0404, 0x0454, 0x0407, 0x0457, 0x040E, 0x045E,
    0x00B0, 0x2219, 0x00B7, 0x221A, 0x2116, 0x00A4, 0x25A0, 0x00A0]

def cp866Table (byte : UInt8) : Option Nat :=
  if byte < 0x80 then some byte.toNat
  else if byte < 0xB0 then some (0x410 + (byte.toNat - 0x80))
  else cp866HighBlock[byte.toNat - 0xB0]?

/-- The table of Windows-1251: one byte has no code point. -/
def windows1251Table (byte : UInt8) : Option Nat :=
  if byte = 0x98 then none else some (windows1251CodePoint byte)

/-- The conversions of the system, for the encodings that are used. -/
def systemIconv : Iconv := fun encoding =>
  if encoding = ascii "UTF-16LE" then some (readUtf16 .little)
  else if encoding = ascii "UTF-16BE" then some (readUtf16 .big)
  else if encoding ∈ windows1251Encodings then some (readWith windows1251Table)
  else if encoding ∈ cp866Encodings then some (readWith cp866Table)
  else none

theorem unitsOf_unitBytes (order : ByteOrder) {unit : Nat} (h : unit < 0x10000) (rest : Bytes) :
    unitsOf order (order.unitBytes unit ++ rest) =
      (unit :: (unitsOf order rest).1, (unitsOf order rest).2) := by
  have hlow : (UInt8.ofNat (unit % 256)).toNat = unit % 256 := toNat_ofNat_of_lt (by omega)
  have hhigh : (UInt8.ofNat (unit / 256)).toNat = unit / 256 := toNat_ofNat_of_lt (by omega)
  cases order with
  | little =>
    change ((_ * 256 + _) :: (unitsOf .little rest).1, (unitsOf .little rest).2) = _
    rw [hlow, hhigh, Nat.div_add_mod' unit 256]
  | big =>
    change ((_ * 256 + _) :: (unitsOf .big rest).1, (unitsOf .big rest).2) = _
    rw [hlow, hhigh, Nat.div_add_mod' unit 256]

theorem unitsOf_encode (order : ByteOrder) {units : List Nat} (h : ∀ unit ∈ units, unit < 0x10000) :
    unitsOf order (units.flatMap order.unitBytes) = (units, true) := by
  induction units with
  | nil => rfl
  | cons unit units ih =>
    rw [List.flatMap_cons, unitsOf_unitBytes order (h unit List.mem_cons_self),
      ih fun u hu => h u (List.mem_cons_of_mem _ hu)]

theorem utf16Units_lt (c : Char) : ∀ unit ∈ utf16Units c.toNat, unit < 0x10000 := by
  have hlt : c.toNat < 0x110000 := by
    rcases c.valid with h | h
    · exact Nat.lt_trans h (by decide)
    · exact h.2
  intro unit hunit
  rw [utf16Units] at hunit
  split at hunit
  · rw [List.mem_singleton.mp hunit]
    assumption
  · rcases List.mem_cons.mp hunit with rfl | hunit
    · omega
    · rw [List.mem_singleton.mp hunit]
      omega

theorem readUnits_cons {unit : Nat} (h : unit < 0xD800 ∨ 0xE000 ≤ unit) (units : List Nat) :
    readUnits (unit :: units) = (readUnits units).cons (utf8OfCodePoint unit) := by
  cases units with
  | nil =>
    simp only [readUnits, if_pos h]
    rfl
  | cons low units => rw [readUnits, if_pos h]

theorem readUnits_encode (text : List Char) :
    readUnits (text.flatMap fun c => utf16Units c.toNat) = wholeReading text := by
  induction text with
  | nil => rfl
  | cons c text ih =>
    have hvalid := c.valid
    change c.toNat < 0xD800 ∨ (0xDFFF < c.toNat ∧ c.toNat < 0x110000) at hvalid
    rw [List.flatMap_cons, utf16Units]
    split
    · rw [List.singleton_append, readUnits_cons (by omega), ih]
      rfl
    · have hpair : 0x10000 + (0xD800 + (c.toNat - 0x10000) / 0x400 - 0xD800) * 0x400 +
          (0xDC00 + (c.toNat - 0x10000) % 0x400 - 0xDC00) = c.toNat := by omega
      rw [List.cons_append, List.singleton_append, readUnits, if_neg (by omega),
        if_pos (by omega), ih, hpair]
      rfl

theorem utf8OfCodePoint_valid {codePoint : Nat} (h : codePoint.isValidChar) :
    ValidUtf8 (utf8OfCodePoint codePoint) := by
  have hdecode := tryDecodeUtf8CodePoint_utf8OfCodePoint h []
  rw [List.append_nil] at hdecode
  exact .step hdecode .nil

theorem valid_none {complete : Bool} : IconvReading.Valid ⟨[], complete⟩ := fun _ h => by cases h

theorem valid_cons {codePoint : Nat} {reading : IconvReading} (h : reading.Valid)
    (hpoint : codePoint.isValidChar) : (reading.cons (utf8OfCodePoint codePoint)).Valid :=
  List.forall_mem_cons.mpr ⟨utf8OfCodePoint_valid hpoint, h⟩

theorem readUnits_valid : ∀ {units : List Nat}, (∀ unit ∈ units, unit < 0x10000) →
    (readUnits units).Valid
  | [], _ => valid_none
  | [unit], hunits => by
    have hlt := hunits unit List.mem_cons_self
    rw [readUnits]
    split
    · refine List.forall_mem_singleton.mpr (utf8OfCodePoint_valid ?_)
      change unit < 0xD800 ∨ (0xDFFF < unit ∧ unit < 0x110000)
      omega
    · exact valid_none
  | unit :: low :: units, hunits => by
    have hlt := hunits unit List.mem_cons_self
    rw [readUnits]
    split
    · refine valid_cons (readUnits_valid fun u hu => hunits u (List.mem_cons_of_mem _ hu)) ?_
      change unit < 0xD800 ∨ (0xDFFF < unit ∧ unit < 0x110000)
      omega
    · split
      · refine valid_cons (readUnits_valid fun u hu => hunits u (List.mem_cons_of_mem _
          (List.mem_cons_of_mem _ hu))) (.inr ⟨?_, ?_⟩)
        · omega
        · omega
      · exact valid_none

theorem unitsOf_lt {order : ByteOrder} : ∀ (value : Bytes),
    ∀ unit ∈ (unitsOf order value).1, unit < 0x10000
  | [], _, hunit => by cases hunit
  | [_], _, hunit => by cases hunit
  | a :: b :: rest, unit, hunit => by
    rcases List.mem_cons.mp hunit with rfl | hunit
    · have := a.toNat_lt
      have := b.toNat_lt
      cases order <;> simp only [ByteOrder.unit] <;> omega
    · exact unitsOf_lt rest unit hunit

theorem readWith_valid {table : UInt8 → Option Nat}
    (h : ∀ b codePoint, table b = some codePoint → codePoint.isValidChar) (value : Bytes) :
    (readWith table value).Valid := by
  induction value with
  | nil => exact valid_none
  | cons b value ih =>
    rw [readWith]
    cases hb : table b with
    | none => exact valid_none
    | some codePoint => exact valid_cons ih (h b codePoint hb)

theorem cp866Table_facts (b : UInt8) : (b < 0x80 → cp866Table b = some b.toNat) ∧
    ∀ codePoint, cp866Table b = some codePoint →
      codePoint.isValidChar ∧ (¬b < 0x80 → 0x80 ≤ codePoint) := by
  have hall : ∀ n < 256, (UInt8.ofNat n < 0x80 → cp866Table (UInt8.ofNat n) = some n) ∧
      ∀ codePoint ∈ cp866Table (UInt8.ofNat n),
        codePoint < 0xD800 ∧ (¬UInt8.ofNat n < 0x80 → 0x80 ≤ codePoint) := by decide +kernel
  have hbyte := hall b.toNat b.toNat_lt
  rw [UInt8.ofNat_toNat] at hbyte
  exact ⟨hbyte.1, fun codePoint h => (hbyte.2 codePoint h).imp_left .inl⟩

theorem windows1251Table_facts (b : UInt8) : (b < 0x80 → windows1251Table b = some b.toNat) ∧
    ∀ codePoint, windows1251Table b = some codePoint →
      codePoint.isValidChar ∧ (¬b < 0x80 → 0x80 ≤ codePoint) := by
  have hall : ∀ n < 256, (UInt8.ofNat n < 0x80 → windows1251Table (UInt8.ofNat n) = some n) ∧
      ∀ codePoint ∈ windows1251Table (UInt8.ofNat n),
        codePoint < 0xD800 ∧ (¬UInt8.ofNat n < 0x80 → 0x80 ≤ codePoint) := by decide +kernel
  have hbyte := hall b.toNat b.toNat_lt
  rw [UInt8.ofNat_toNat] at hbyte
  exact ⟨hbyte.1, fun codePoint h => (hbyte.2 codePoint h).imp_left .inl⟩

theorem readUtf16_encode (order : ByteOrder) (text : List Char) :
    readUtf16 order (encodeUtf16 order text) = wholeReading text := by
  have hlt : ∀ unit ∈ text.flatMap (fun c => utf16Units c.toNat), unit < 0x10000 := by
    intro unit hunit
    obtain ⟨c, _, hc⟩ := List.mem_flatMap.mp hunit
    exact utf16Units_lt c unit hc
  rw [readUtf16, encodeUtf16, unitsOf_encode order hlt, readUnits_encode]
  rfl

theorem systemIconv_correct : Correct systemIconv where
  writesUtf8 := by
    intro encoding convert value h
    rw [systemIconv] at h
    split_ifs at h
    · obtain rfl := Option.some_inj.mp h
      exact readUnits_valid (unitsOf_lt value)
    · obtain rfl := Option.some_inj.mp h
      exact readUnits_valid (unitsOf_lt value)
    · obtain rfl := Option.some_inj.mp h
      exact readWith_valid (fun b c hc => ((windows1251Table_facts b).2 c hc).1) value
    · obtain rfl := Option.some_inj.mp h
      exact readWith_valid (fun b c hc => ((cp866Table_facts b).2 c hc).1) value
  utf16 := fun order => ⟨readUtf16 order, by cases order <;> rfl, readUtf16_encode order⟩
  codePage := by
    intro encoding hencoding
    have hnot : ∀ encoding ∈ windows1251Encodings ++ cp866Encodings,
        encoding ≠ ascii "UTF-16LE" ∧ encoding ≠ ascii "UTF-16BE" := by decide
    obtain ⟨hle, hbe⟩ := hnot encoding hencoding
    by_cases hwindows : encoding ∈ windows1251Encodings
    · refine ⟨_, windows1251Table, by rw [systemIconv, if_neg hle, if_neg hbe, if_pos hwindows],
        fun b => (windows1251Table_facts b).1,
        fun b c hb hc => ((windows1251Table_facts b).2 c hc).2 hb, fun _ => rfl⟩
    · have hcp := (List.mem_append.mp hencoding).resolve_left hwindows
      refine ⟨_, cp866Table, by
          rw [systemIconv, if_neg hle, if_neg hbe, if_neg hwindows, if_pos hcp],
        fun b => (cp866Table_facts b).1,
        fun b c hb hc => ((cp866Table_facts b).2 c hc).2 hb, fun _ => rfl⟩

/-- A text that declares UTF-16 is read behind every mark. -/
theorem respectsMarks_declaredUtf16 :
    RespectsMarks systemIconv "<?xml version='1.0' encoding='UTF-16'?><p>Жук</p>".toList := by
  rw [(respectsMarks_iff systemIconv_correct).2]
  exact ⟨⟨by decide, by decide⟩, .inl (by decide), fun h => absurd h (by decide)⟩

/-- A text that declares Windows-1251 is not read behind the mark of UTF-8. -/
theorem not_respectsMarks_declaredWindows1251 :
    Correct systemIconv ∧
      ¬RespectsMarks systemIconv "<?xml encoding='windows-1251'?><p>Ж</p>".toList := by
  refine ⟨systemIconv_correct, fun h => ?_⟩
  obtain ⟨result, warnings', hdecode, hresult⟩ := h.utf8 0
  have hread : decodeFb2Text systemIconv ([0xEF, 0xBB, 0xBF] ++
      encodeUtf8 "<?xml encoding='windows-1251'?><p>Ж</p>".toList) 0 =
        .ok (encodeUtf8 "<?xml encoding='utf-8'?><p>Р–</p>".toList, 0) := by decide +kernel
  rw [hread] at hdecode
  injection hdecode with hdecode
  injection hdecode with hdecode
  rw [← hdecode] at hresult
  rcases hresult with hsame | ⟨_, hsame⟩
  · exact absurd hsame (by decide +kernel)
  · exact absurd hsame (by decide +kernel)

end InpxWebReader.Parsing
