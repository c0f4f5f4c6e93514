import InpxWebReader.Foundation.FilenamePolicy

/-!
# Fields of the request log

`EscapeLogField` writes what a client sent into one line of the log: control bytes are written out,
a text that is not UTF-8 is written in ASCII, and a long text is cut at a limit of its own bytes.
-/

namespace InpxWebReader.Server

open Foundation Unicode

/-- `hexDigits[n]`, in upper case. -/
def upperHexDigit (n : Nat) : UInt8 := (ascii "0123456789ABCDEF").getD n 0

def escapeLogByte (validUtf8 : Bool) (ch : UInt8) : Bytes :=
  if ch = 0x0A then ascii "\\n"
  else if ch = 0x0D then ascii "\\r"
  else if ch = 0x09 then ascii "\\t"
  else if ch < 0x20 ∨ ch = 0x7F ∨ (validUtf8 = false ∧ 0x80 ≤ ch) then
    ascii "\\x" ++ [upperHexDigit (ch.toNat / 16), upperHexDigit (ch.toNat % 16)]
  else [ch]

def escapeLogField (valueUtf8 : Bytes) (maxSourceBytes : Nat) : Bytes :=
  let validUtf8 := isValidUtf8 valueUtf8
  let sourceSize := min valueUtf8.length maxSourceBytes
  let result := (valueUtf8.take sourceSize).flatMap (escapeLogByte validUtf8)
  let result := if validUtf8 then withoutIncompleteUtf8 result else result
  if sourceSize < valueUtf8.length then result ++ ascii "..." else result

example : escapeLogField (ascii "GET /\n" ++ [0xFF]) 100 = ascii "GET /\\n\\xFF" := by
  decide +kernel

def IsControlByte (b : UInt8) : Prop := b < 0x20 ∨ b = 0x7F

instance (b : UInt8) : Decidable (IsControlByte b) := inferInstanceAs (Decidable (_ ∨ _))

/-- A text that may stand on one line of the log. -/
structure LogText (text : Bytes) : Prop where
  valid : ValidUtf8 text
  printable : ∀ b ∈ text, ¬IsControlByte b

namespace LogText

theorem of_ascii {text : Bytes} (h : ∀ b ∈ text, b < 0x80 ∧ ¬IsControlByte b) : LogText text :=
  ⟨.of_ascii fun b hb => (h b hb).1, fun b hb => (h b hb).2⟩

theorem append {a b : Bytes} (ha : LogText a) (hb : LogText b) : LogText (a ++ b) where
  valid := ha.valid.append hb.valid
  printable := fun c hc => (List.mem_append.mp hc).elim (ha.printable c) (hb.printable c)

end LogText

/-! ### Bytes -/

/-- The bytes that a log field may have of ASCII. -/
def IsPrintableByte (b : UInt8) : Prop := b < 0x80 ∧ ¬IsControlByte b

instance (b : UInt8) : Decidable (IsPrintableByte b) := inferInstanceAs (Decidable (_ ∧ _))

theorem isPrintableByte_of_all {text : Bytes} (h : (text.all fun b => IsPrintableByte b) = true) :
    ∀ b ∈ text, IsPrintableByte b := List.all_iff_forall_prop.mp h

theorem isPrintableByte_upperHexDigit {n : Nat} (h : n < 16) :
    IsPrintableByte (upperHexDigit n) := by
  have hall : ∀ n < 16, IsPrintableByte (upperHexDigit n) := by decide
  exact hall n h

/-- A byte that is written out is written in printable ASCII. -/
theorem escapeLogByte_ascii {validUtf8 : Bool} {ch : UInt8} (h : validUtf8 = false ∨ ch < 0x80) :
    ∀ b ∈ escapeLogByte validUtf8 ch, b < 0x80 ∧ ¬IsControlByte b := by
  show ∀ b ∈ escapeLogByte validUtf8 ch, IsPrintableByte b
  rw [escapeLogByte]
  split_ifs with hnewline hreturn htab hescaped
  · exact isPrintableByte_of_all (by decide)
  · exact isPrintableByte_of_all (by decide)
  · exact isPrintableByte_of_all (by decide)
  · intro b hb
    have hbyte := ch.toNat_lt
    rcases List.mem_append.mp hb with hb | hb
    · exact isPrintableByte_of_all (by decide) b hb
    · simp only [List.mem_cons, List.not_mem_nil, or_false] at hb
      rcases hb with rfl | rfl
      · exact isPrintableByte_upperHexDigit (by omega)
      · exact isPrintableByte_upperHexDigit (by omega)
  · intro b hb
    rw [List.mem_singleton.mp hb]
    simp only [not_or, not_and, UInt8.not_le] at hescaped
    exact ⟨h.elim hescaped.2.2 id, fun hcontrol => hcontrol.elim hescaped.1 hescaped.2.1⟩

theorem escapeLogByte_other {ch : UInt8} (h : ¬ch < 0x80) : escapeLogByte true ch = [ch] := by
  have hne : ∀ c : UInt8, c < 0x80 → ch ≠ c := fun c hc heq => h (heq ▸ hc)
  have hspace : ¬ch < 0x20 := fun hlow => h (UInt8.lt_trans hlow (by decide))
  rw [escapeLogByte, if_neg (hne _ (by decide)), if_neg (hne _ (by decide)),
    if_neg (hne _ (by decide)), if_neg]
  rintro (hlow | heq | hinvalid)
  · exact hspace hlow
  · exact hne _ (by decide) heq
  · cases hinvalid.1

theorem not_isControlByte_of_not_ascii {b : UInt8} (h : ¬b < 0x80) : ¬IsControlByte b := by
  rintro (hcontrol | rfl)
  · exact h (UInt8.lt_trans hcontrol (by decide))
  · exact h (by decide)

theorem escapeLogByte_printable (validUtf8 : Bool) (ch : UInt8) :
    ∀ b ∈ escapeLogByte validUtf8 ch, ¬IsControlByte b := by
  intro b hb
  by_cases hascii : validUtf8 = false ∨ ch < 0x80
  · exact (escapeLogByte_ascii hascii b hb).2
  · rw [not_or, Bool.not_eq_false] at hascii
    rw [hascii.1, escapeLogByte_other hascii.2, List.mem_singleton] at hb
    rw [hb]
    exact not_isControlByte_of_not_ascii hascii.2

theorem flatMap_escapeLogByte_other {text : Bytes} (h : ∀ b ∈ text, ¬b < 0x80) :
    text.flatMap (escapeLogByte true) = text := by
  induction text with
  | nil => rfl
  | cons b text ih =>
    rw [List.flatMap_cons, escapeLogByte_other (h b List.mem_cons_self),
      ih fun c hc => h c (List.mem_cons_of_mem _ hc), List.singleton_append]

/-! ### Texts -/

theorem flatMap_escapeLogByte_valid {text : Bytes} (h : ValidUtf8 text) :
    ValidUtf8 (text.flatMap (escapeLogByte true)) := by
  induction h with
  | nil => exact .nil
  | @step value rest codePoint decode _ ih =>
    obtain ⟨hvalid, rfl⟩ := utf8OfCodePoint_of_tryDecodeUtf8CodePoint decode
    rw [List.flatMap_append]
    rcases utf8OfCodePoint_ascii_or hvalid with ⟨b, heq, hascii⟩ | hother
    · rw [heq, List.flatMap_singleton]
      exact (ValidUtf8.of_ascii fun c hc => (escapeLogByte_ascii (.inr hascii) c hc).1).append ih
    · rw [flatMap_escapeLogByte_other hother]
      exact .step (tryDecodeUtf8CodePoint_utf8OfCodePoint hvalid _) ih

/-- A cut text is cut in the same sequence after escaping. -/
theorem flatMap_escapeLogByte_cutText {text : Bytes} (h : CutText text) :
    CutText (text.flatMap (escapeLogByte true)) := by
  rcases h with hvalid | ⟨kept, tail, rfl, hkept, htail⟩
  · exact .inl (flatMap_escapeLogByte_valid hvalid)
  · refine .inr ⟨kept.flatMap (escapeLogByte true), tail, ?_, flatMap_escapeLogByte_valid hkept,
      htail⟩
    rw [List.flatMap_append, flatMap_escapeLogByte_other htail.not_ascii]

theorem flatMap_escapeLogByte_printable (validUtf8 : Bool) (text : Bytes) :
    ∀ b ∈ text.flatMap (escapeLogByte validUtf8), ¬IsControlByte b := by
  intro b hb
  obtain ⟨ch, -, hch⟩ := List.mem_flatMap.mp hb
  exact escapeLogByte_printable validUtf8 ch b hch

/-- Whatever a client sent, its log field is a line of text. -/
theorem escapeLogField_spec (value : Bytes) (maxSourceBytes : Nat) :
    LogText (escapeLogField value maxSourceBytes) := by
  have hresult : LogText
      (if isValidUtf8 value then withoutIncompleteUtf8
        ((value.take (min value.length maxSourceBytes)).flatMap (escapeLogByte (isValidUtf8 value)))
      else (value.take (min value.length maxSourceBytes)).flatMap
        (escapeLogByte (isValidUtf8 value))) := by
    cases hvalid : isValidUtf8 value with
    | true =>
      have hcut := (isValidUtf8_iff.mp hvalid).cutText_take (min value.length maxSourceBytes)
      refine ⟨(flatMap_escapeLogByte_cutText hcut).withoutIncompleteUtf8_valid, fun b hb => ?_⟩
      exact flatMap_escapeLogByte_printable true _ b ((withoutIncompleteUtf8_isPrefix _).subset hb)
    | false =>
      refine .of_ascii fun b hb => ?_
      obtain ⟨ch, -, hch⟩ := List.mem_flatMap.mp hb
      exact escapeLogByte_ascii (.inl rfl) b hch
  rw [escapeLogField]
  split
  · exact hresult.append (.of_ascii (isPrintableByte_of_all (by decide)))
  · exact hresult

/-- A text that is limited in bytes stays well formed: the name of a download and a log field. -/
theorem limitedText_wellFormed {baseName fallback : Bytes} {maxBaseNameBytes : Nat}
    (hbase : ValidUtf8 baseName) (hlimit : 0 < maxBaseNameBytes)
    (hfallback : DownloadBaseName maxBaseNameBytes fallback) (value : Bytes)
    (maxSourceBytes : Nat) :
    DownloadBaseName maxBaseNameBytes
        (sanitizeDownloadFilenameBaseUtf8 baseName maxBaseNameBytes fallback) ∧
      LogText (escapeLogField value maxSourceBytes) :=
  ⟨sanitizeDownloadFilenameBaseUtf8_spec hbase hlimit hfallback,
    escapeLogField_spec value maxSourceBytes⟩

/-- A Cyrillic title of two letters and a limit that falls into the second one. -/
theorem limitedText_wellFormed_title :
    DownloadBaseName 3 (sanitizeDownloadFilenameBaseUtf8 [0xD0, 0x90, 0xD0, 0x91] 3 (ascii "b")) ∧
      LogText (escapeLogField [0xD0, 0x90, 0xD0, 0x91] 3) := by
  have hbase : ValidUtf8 [0xD0, 0x90, 0xD0, 0x91] := isValidUtf8_iff.mp (by decide)
  have hfallback : DownloadBaseName 3 (ascii "b") :=
    { valid := isValidUtf8_iff.mp (by decide)
      allowed := List.all_iff_forall_prop.mp (by decide)
      noTrailingSpace := by decide
      ne_nil := by decide
      length_le := by decide }
  exact limitedText_wellFormed hbase (by decide) hfallback _ 3

end InpxWebReader.Server
