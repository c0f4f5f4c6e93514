import InpxWebReader.Foundation.CodePoints
import InpxWebReader.Server.DownloadName
import InpxWebReader.Web.BookListPath

/-!
# Names of downloads in the browser

The browser saves a download under the name it reads from the header of the response. It looks for
the percent-encoded name and decodes it; where that is not UTF-8 it keeps the encoded text.
`decodeURIComponent_iff` says that what the server encoded is what the browser decodes, and
`downloadName_survives` follows the name of a book from the catalog to the disk of the reader.
-/

namespace InpxWebReader.Web

open Foundation Unicode Query Server PercentCoding

/-! ### Decoding -/

/-- The characters of a header, one for each byte. -/
def headerText (value : Bytes) : Text := value.map fun b => Char.ofNat b.toNat

/-- The octet of a percent sign and two hexadecimal digits. -/
def takeOctet : Text → Option (UInt8 × Text)
  | c :: high :: low :: rest =>
    if c = '%' then do
      let high ← hexValue high.toNat
      let low ← hexValue low.toNat
      return (UInt8.ofNat (16 * high + low), rest)
    else none
  | _ => none

def takeOctets : Nat → Text → Option (Bytes × Text)
  | 0, text => some ([], text)
  | n + 1, text => do
    let (first, text) ← takeOctet text
    let (octets, text) ← takeOctets n text
    return (first :: octets, text)

/-- The number of leading one bits of an octet, five for five and more. -/
def leadingOnes (b : UInt8) : Nat :=
  if b < 0x80 then 0 else if b < 0xC0 then 1 else if b < 0xE0 then 2 else if b < 0xF0 then 3
  else if b < 0xF8 then 4 else 5

/-- One round of the loop in `decodeURIComponent`: a character that is not escaped, or the octets of
one code point. -/
def readCodePoint (text : Text) : Option (Nat × Text) :=
  match text with
  | [] => none
  | c :: rest =>
    if c ≠ '%' then some (c.toNat, rest)
    else do
      let (first, rest) ← takeOctet text
      if first < 0x80 then return (first.toNat, rest)
      if leadingOnes first = 1 ∨ 4 < leadingOnes first then none
      let (octets, rest) ← takeOctets (leadingOnes first - 1) rest
      match tryDecodeUtf8CodePoint (first :: octets) with
      | some (codePoint, []) => return (codePoint, rest)
      | _ => none

/-- The rounds of `decodeURIComponent`. -/
def decodeRounds : Nat → Text → Option Text
  | _, [] => some []
  | 0, _ => none
  | rounds + 1, text => do
    let (codePoint, text) ← readCodePoint text
    return Char.ofNat codePoint :: (← decodeRounds rounds text)

/-- `decodeURIComponent`; nothing where it throws. Every round takes a character at least. -/
def decodeURIComponent (text : Text) : Option Text := decodeRounds text.length text

/-! ### Reading the header -/

/-- What follows after the opening of a pattern, in any case. -/
def afterIgnoringCase : Text → Text → Option Text
  | [], text => some text
  | _ :: _, [] => none
  | o :: opening, c :: text =>
    if o.toLower = c.toLower then afterIgnoringCase opening text else none

/-- `exec` of an opening and the longest run of characters up to `stop`, which must not be empty;
where the pattern is closed, `stop` has to follow. -/
def execPattern (opening : Text) (stop : Char) (closed : Bool) : Text → Option Text
  | [] => none
  | c :: rest =>
    match afterIgnoringCase opening (c :: rest) with
    | none => execPattern opening stop closed rest
    | some text =>
      let captured := text.takeWhile (· ≠ stop)
      if captured ≠ [] ∧ (closed = true → text.dropWhile (· ≠ stop) ≠ []) then some captured
      else execPattern opening stop closed rest

/-- What stands before the percent-encoded name. -/
def encodedOpening : Text := "filename*=UTF-8''".toList

def parseFileNameFromContentDisposition (value : Option Text) : Text :=
  match value with
  | none => "book".toList
  | some value =>
    if value = [] then "book".toList
    else match execPattern encodedOpening ';' false value with
      | some encoded => (decodeURIComponent encoded).getD encoded
      | none => (execPattern "filename=\"".toList '"' true value).getD "book".toList

/-! ### Octets -/

/-- The characters of an encoded text. -/
def encodedText (text : Bytes) : Text := headerText (percentEncodeHeaderValue text)

@[simp] theorem headerText_append (text text' : Bytes) :
    headerText (text ++ text') = headerText text ++ headerText text' := List.map_append

@[simp] theorem headerText_cons (b : UInt8) (text : Bytes) :
    headerText (b :: text) = Char.ofNat b.toNat :: headerText text := rfl

@[simp] theorem encodedText_nil : encodedText [] = [] := rfl

theorem toNat_charOfNat {n : Nat} (h : n.isValidChar) : (Char.ofNat n).toNat = n := by
  rw [Char.ofNat, dif_pos h]
  rfl

theorem toNat_ofNat_toNat (b : UInt8) : (Char.ofNat b.toNat).toNat = b.toNat := by
  have hlt := b.toNat_lt
  exact toNat_charOfNat (.inl (by omega))

theorem ofNat_toNat_ne {b c : UInt8} (h : b ≠ c) : Char.ofNat b.toNat ≠ Char.ofNat c.toNat := by
  intro heq
  have hnat := congrArg Char.toNat heq
  rw [toNat_ofNat_toNat, toNat_ofNat_toNat] at hnat
  exact h (UInt8.toNat_inj.mp hnat)

theorem encodedText_of_plain {b : UInt8} (h : isHeaderAttrChar b = true) (text : Bytes) :
    encodedText (b :: text) = Char.ofNat b.toNat :: encodedText text := by
  rw [encodedText, percentEncodeHeaderValue, encode_cons, encodeByte, if_pos h]
  rfl

theorem encodedText_of_escaped {b : UInt8} (h : isHeaderAttrChar b = false) (text : Bytes) :
    encodedText (b :: text) = '%' :: Char.ofNat (PercentCoding.hexDigit (b.toNat / 16)).toNat ::
      Char.ofNat (PercentCoding.hexDigit (b.toNat % 16)).toNat :: encodedText text := by
  rw [encodedText, percentEncodeHeaderValue, encode_cons, encodeByte, if_neg (by rw [h]; decide)]
  rfl

theorem ne_percent_of_plain {b : UInt8} (h : isHeaderAttrChar b = true) :
    Char.ofNat b.toNat ≠ '%' := by
  refine ofNat_toNat_ne (c := percent) ?_
  rintro rfl
  rw [isHeaderAttrChar_percent] at h
  cases h

theorem takeOctet_of_escaped {b : UInt8} (h : isHeaderAttrChar b = false) (text : Bytes) :
    takeOctet (encodedText (b :: text)) = some (b, encodedText text) := by
  rw [encodedText_of_escaped h, takeOctet, if_pos rfl, toNat_ofNat_toNat, toNat_ofNat_toNat,
    hexValue_hexDigit (digits_lt b).1, hexValue_hexDigit (digits_lt b).2]
  show some (UInt8.ofNat (16 * (b.toNat / 16) + b.toNat % 16), encodedText text) = _
  rw [ofNat_digits]

theorem takeOctet_encodedText {text : Bytes} {b : UInt8} {rest : Text}
    (h : takeOctet (encodedText text) = some (b, rest)) :
    ∃ text', text = b :: text' ∧ rest = encodedText text' ∧ isHeaderAttrChar b = false := by
  cases text with
  | nil => cases h
  | cons c text =>
    cases hplain : isHeaderAttrChar c with
    | false =>
      rw [takeOctet_of_escaped hplain, Option.some_inj] at h
      cases h
      exact ⟨text, rfl, rfl, hplain⟩
    | true =>
      rw [encodedText_of_plain hplain, takeOctet.eq_def] at h
      split at h
      · next heq =>
        injection heq with hc _
        rw [if_neg (by rw [← hc]; exact ne_percent_of_plain hplain)] at h
        cases h
      · cases h

theorem takeOctets_of_escaped {octets : Bytes} (h : ∀ b ∈ octets, isHeaderAttrChar b = false)
    (text : Bytes) :
    takeOctets octets.length (encodedText (octets ++ text)) = some (octets, encodedText text) := by
  induction octets with
  | nil => rfl
  | cons b octets ih =>
    rw [List.length_cons, takeOctets, List.cons_append,
      takeOctet_of_escaped (h b List.mem_cons_self)]
    show (takeOctets octets.length (encodedText (octets ++ text))).bind _ = _
    rw [ih fun c hc => h c (List.mem_cons_of_mem _ hc)]
    rfl

theorem takeOctets_encodedText {n : Nat} {text octets : Bytes} {rest : Text}
    (h : takeOctets n (encodedText text) = some (octets, rest)) :
    ∃ text', text = octets ++ text' ∧ rest = encodedText text' := by
  induction n generalizing text octets rest with
  | zero =>
    cases h
    exact ⟨text, rfl, rfl⟩
  | succ n ih =>
    rw [takeOctets, Option.bind_eq_bind, Option.bind_eq_some_iff] at h
    obtain ⟨⟨b, rest'⟩, hfirst, h⟩ := h
    obtain ⟨text', rfl, rfl, -⟩ := takeOctet_encodedText hfirst
    rw [Option.bind_eq_bind, Option.bind_eq_some_iff] at h
    obtain ⟨⟨octets', rest''⟩, hothers, h⟩ := h
    obtain ⟨text'', rfl, rfl⟩ := ih hothers
    cases h
    exact ⟨text'', rfl, rfl⟩

/-! ### Code points -/

theorem escaped_of_notAscii {b : UInt8} (h : 128 ≤ b.toNat) : isHeaderAttrChar b = false :=
  forall_byte (P := fun b => 128 ≤ b.toNat → isHeaderAttrChar b = false) (by decide +kernel) b h

theorem escaped_of_continuation {b : UInt8} (h : isUtf8ContinuationByte b = true) :
    isHeaderAttrChar b = false :=
  escaped_of_notAscii (isUtf8ContinuationByte_iff.mp h).1

/-- An escaped octet with others after it is read as they decode. -/
theorem readCodePoint_of_octets {b : UInt8} {codePoint : Nat} (octets : Bytes)
    (hb : 128 ≤ b.toNat) (hlength : leadingOnes b = octets.length + 1)
    (hcount : octets.length ≠ 0 ∧ octets.length < 4)
    (hoctets : ∀ c ∈ octets, isHeaderAttrChar c = false)
    (hdecode : tryDecodeUtf8CodePoint (b :: octets) = some (codePoint, [])) (text : Bytes) :
    readCodePoint (encodedText (b :: (octets ++ text))) = some (codePoint, encodedText text) := by
  have hfirst := takeOctet_of_escaped (escaped_of_notAscii hb) (octets ++ text)
  rw [encodedText_of_escaped (escaped_of_notAscii hb)] at hfirst ⊢
  rw [readCodePoint, if_neg (not_not.mpr rfl), hfirst]
  have hnot : ¬b < 0x80 := fun hlow => by
    rw [UInt8.lt_iff_toNat_lt] at hlow
    exact absurd hlow (by simpa using hb)
  have hones : ¬(leadingOnes b = 1 ∨ 4 < leadingOnes b) := by omega
  have hothers := takeOctets_of_escaped hoctets text
  rw [Option.bind_eq_bind, Option.bind_some]
  dsimp only
  rw [if_neg hnot, if_neg hones, hlength, Nat.add_sub_cancel, hothers]
  simp only [Option.bind_eq_bind, Option.bind_some, hdecode]
  rfl

theorem leadingOnes_eq (b : UInt8) : leadingOnes b = if b.toNat < 128 then 0
    else if b.toNat < 192 then 1 else if b.toNat < 224 then 2 else if b.toNat < 240 then 3
    else if b.toNat < 248 then 4 else 5 := by
  simp only [leadingOnes, UInt8.lt_iff_toNat_lt, UInt8.reduceToNat]

/-- What the server's decoder reads of a text, the browser reads of its encoding. -/
theorem readCodePoint_encodedText {text rest : Bytes} {codePoint : Nat}
    (h : tryDecodeUtf8CodePoint text = some (codePoint, rest)) :
    readCodePoint (encodedText text) = some (codePoint, encodedText rest) := by
  rcases tryDecodeUtf8CodePoint_cases h with ⟨b₀, rfl, h₀, rfl⟩ |
    ⟨b₀, b₁, rfl, h₀, h₀', h₁, rfl⟩ | ⟨b₀, b₁, b₂, rfl, hlead, h₂, rfl⟩ |
    ⟨b₀, b₁, b₂, b₃, rfl, hlead, h₂, h₃, rfl⟩
  · cases hplain : isHeaderAttrChar b₀ with
    | true =>
      rw [encodedText_of_plain hplain, readCodePoint, if_pos (ne_percent_of_plain hplain),
        toNat_ofNat_toNat]
    | false =>
      have hfirst := takeOctet_of_escaped hplain rest
      rw [encodedText_of_escaped hplain] at hfirst ⊢
      rw [readCodePoint, if_neg (not_not.mpr rfl), hfirst, Option.bind_eq_bind, Option.bind_some]
      dsimp only
      rw [if_pos (UInt8.lt_iff_toNat_lt.mpr h₀)]
      rfl
  · refine readCodePoint_of_octets [b₁] (by omega) ?_ (by simp)
      (by simpa using escaped_of_continuation h₁) (tryDecodeUtf8CodePoint_two h₀ h₀' h₁) rest
    rw [leadingOnes_eq, if_neg (by omega), if_neg (by omega), if_pos (by omega)]
    rfl
  · rw [isValidLead3_iff] at hlead
    refine readCodePoint_of_octets [b₁, b₂] (by omega) ?_ (by simp) ?_
      (tryDecodeUtf8CodePoint_three (isValidLead3_iff.mpr hlead) h₂) rest
    · rw [leadingOnes_eq, if_neg (by omega), if_neg (by omega), if_neg (by omega),
        if_pos (by omega)]
      rfl
    · have h₁ : isHeaderAttrChar b₁ = false := escaped_of_notAscii (by omega)
      simpa using ⟨h₁, escaped_of_continuation h₂⟩
  · rw [isValidLead4_iff] at hlead
    refine readCodePoint_of_octets [b₁, b₂, b₃] (by omega) ?_ (by simp) ?_
      (tryDecodeUtf8CodePoint_four (isValidLead4_iff.mpr hlead) h₂ h₃) rest
    · rw [leadingOnes_eq, if_neg (by omega), if_neg (by omega), if_neg (by omega),
        if_neg (by omega), if_pos (by omega)]
      rfl
    · have h₁ : isHeaderAttrChar b₁ = false := escaped_of_notAscii (by omega)
      simpa using ⟨h₁, escaped_of_continuation h₂, escaped_of_continuation h₃⟩

/-- The browser reads nothing of an encoding that the server's decoder does not read of the text. -/
theorem tryDecode_of_readCodePoint {text : Bytes} {codePoint : Nat} {rest : Text}
    (h : readCodePoint (encodedText text) = some (codePoint, rest)) :
    ∃ text', tryDecodeUtf8CodePoint text = some (codePoint, text') := by
  cases text with
  | nil => cases h
  | cons b text =>
    by_cases hascii : b.toNat < 128
    · exact ⟨text, by rw [tryDecodeUtf8CodePoint_one hascii, readCodePoint_encodedText
        (tryDecodeUtf8CodePoint_one hascii), Option.some_inj] at *; cases h; rfl⟩
    · have hescaped := escaped_of_notAscii (by omega : 128 ≤ b.toNat)
      have hfirst := takeOctet_of_escaped hescaped text
      rw [encodedText_of_escaped hescaped] at hfirst h
      rw [readCodePoint, if_neg (not_not.mpr rfl), hfirst, Option.bind_eq_bind,
        Option.bind_some] at h
      dsimp only at h
      rw [if_neg (fun hlow => hascii (UInt8.lt_iff_toNat_lt.mp hlow))] at h
      split at h
      · cases h
      rw [Option.bind_eq_bind, Option.bind_eq_some_iff] at h
      obtain ⟨⟨octets, rest'⟩, hothers, h⟩ := h
      obtain ⟨text', rfl, -⟩ := takeOctets_encodedText hothers
      dsimp only at h
      split at h
      · next hdecode =>
        obtain ⟨hvalid, heq⟩ := utf8OfCodePoint_of_tryDecodeUtf8CodePoint hdecode
        cases h
        refine ⟨text', ?_⟩
        rw [← List.cons_append, heq, List.append_nil]
        exact tryDecodeUtf8CodePoint_utf8OfCodePoint hvalid text'
      · cases h

/-! ### Texts -/

theorem encodedText_ne_nil {text : Bytes} (h : text ≠ []) : encodedText text ≠ [] := by
  cases text with
  | nil => exact absurd rfl h
  | cons b text =>
    cases hplain : isHeaderAttrChar b with
    | true =>
      rw [encodedText_of_plain hplain]
      exact List.cons_ne_nil _ _
    | false =>
      rw [encodedText_of_escaped hplain]
      exact List.cons_ne_nil _ _

theorem decodeRounds_succ {text : Text} (h : text ≠ []) (rounds : Nat) :
    decodeRounds (rounds + 1) text =
      (readCodePoint text).bind fun p => (decodeRounds rounds p.2).map (Char.ofNat p.1 :: ·) := by
  cases text with
  | nil => exact absurd rfl h
  | cons c text =>
    rw [decodeRounds, Option.bind_eq_bind]
    · congr 1
      funext ⟨codePoint, rest⟩
      dsimp only
      cases decodeRounds rounds rest <;> rfl
    · exact h

/-- With rounds enough, a text is decoded exactly if it encodes what is decoded. -/
theorem decodeRounds_iff {rounds : Nat} {name : Bytes} {text : Text} (h : name.length ≤ rounds) :
    decodeRounds rounds (encodedText name) = some text ↔ encodeText text = name := by
  induction rounds generalizing name text with
  | zero =>
    rw [List.eq_nil_of_length_eq_zero (by omega : name.length = 0), encodeText_eq_nil]
    exact Option.some_inj.trans eq_comm
  | succ rounds ih =>
    by_cases hne : name = []
    · rw [hne, encodeText_eq_nil]
      exact Option.some_inj.trans eq_comm
    rw [decodeRounds_succ (encodedText_ne_nil hne)]
    constructor
    · intro hdecode
      rw [Option.bind_eq_some_iff] at hdecode
      obtain ⟨⟨codePoint, rest⟩, hread, hdecode⟩ := hdecode
      obtain ⟨text', htext'⟩ := tryDecode_of_readCodePoint hread
      rw [readCodePoint_encodedText htext', Option.some_inj] at hread
      cases hread
      obtain ⟨hvalid, rfl⟩ := utf8OfCodePoint_of_tryDecodeUtf8CodePoint htext'
      rw [Option.map_eq_some_iff] at hdecode
      obtain ⟨more, hmore, rfl⟩ := hdecode
      have hlength := List.length_pos_of_ne_nil (Unicode.utf8OfCodePoint_ne_nil codePoint)
      rw [List.length_append] at h
      rw [← (ih (by omega)).mp hmore, encodeText, List.flatMap_cons, toNat_charOfNat hvalid]
      rfl
    · rintro rfl
      cases text with
      | nil => exact absurd rfl hne
      | cons c text =>
        have hlength := List.length_pos_of_ne_nil (Unicode.utf8OfCodePoint_ne_nil c.toNat)
        have hcons : encodeText (c :: text) = utf8OfCodePoint c.toNat ++ encodeText text := rfl
        rw [hcons, List.length_append] at h
        rw [hcons, readCodePoint_encodedText (tryDecodeUtf8CodePoint_encodeUtf8 c _),
          Option.bind_some, (ih (by omega)).mpr rfl, Char.ofNat_toNat]
        rfl

theorem length_le_encodedText (name : Bytes) : name.length ≤ (encodedText name).length := by
  induction name with
  | nil => exact le_rfl
  | cons b name ih =>
    cases hplain : isHeaderAttrChar b with
    | true =>
      rw [encodedText_of_plain hplain, List.length_cons, List.length_cons]
      omega
    | false =>
      rw [encodedText_of_escaped hplain]
      simp only [List.length_cons]
      omega

/-- The browser decodes exactly what encodes what it decodes. -/
theorem decodeURIComponent_iff {name : Bytes} {text : Text} :
    decodeURIComponent (encodedText name) = some text ↔ encodeText text = name :=
  decodeRounds_iff (length_le_encodedText name)

/-! ### The place of the name -/

/-- A text that opens like a pattern has its characters, up to their case. -/
theorem toLower_of_afterIgnoringCase {opening text rest : Text}
    (h : afterIgnoringCase opening text = some rest) {i : Nat} {o : Char}
    (ho : opening[i]? = some o) : ∃ c, text[i]? = some c ∧ o.toLower = c.toLower := by
  induction opening generalizing text i with
  | nil => cases ho
  | cons first opening ih =>
    cases text with
    | nil => cases h
    | cons c text =>
      rw [afterIgnoringCase] at h
      split at h
      · next hsame =>
        cases i with
        | zero =>
          rw [List.getElem?_cons_zero, Option.some_inj] at ho
          exact ⟨c, rfl, ho ▸ hsame⟩
        | succ i => exact ih h ho
      · cases h

theorem afterIgnoringCase_append (opening text : Text) :
    afterIgnoringCase opening (opening ++ text) = some text := by
  induction opening with
  | nil => rfl
  | cons o opening ih => rw [List.cons_append, afterIgnoringCase, if_pos rfl, ih]

theorem eq_star_of_toLower {c : Char} (h : '*'.toLower = c.toLower) : c = '*' := by
  have hstar : '*'.toLower = '*' := by decide
  rw [hstar] at h
  delta Char.toLower at h
  split at h
  · next hupper =>
    have hval := congrArg (fun c => c.val.toNat) h
    have hlow := UInt32.le_iff_toNat_le.mp hupper.1
    have hhigh := UInt32.le_iff_toNat_le.mp hupper.2
    dsimp only at hval
    rw [UInt32.toNat_add] at hval
    have hfixed : 'A'.val.toNat = 65 ∧ 'Z'.val.toNat = 90 ∧ '*'.val.toNat = 42 ∧
      ('a'.val - 'A'.val).toNat = 32 := by decide
    omega
  · exact h.symm

/-- The pattern of the encoded name does not begin before its star can be reached. -/
theorem afterIgnoringCase_before {c : Char} {before : Text} (h : '*' ∉ c :: before)
    (rest : Text) :
    afterIgnoringCase encodedOpening (c :: before ++ ("filename".toList ++ rest)) = none := by
  cases hafter : afterIgnoringCase encodedOpening (c :: before ++ ("filename".toList ++ rest)) with
  | none => rfl
  | some text =>
    obtain ⟨d, hd, hlower⟩ := toLower_of_afterIgnoringCase hafter
      (show encodedOpening[8]? = some '*' from rfl)
    rw [eq_star_of_toLower hlower] at hd
    exfalso
    by_cases hlength : 8 < (c :: before).length
    · rw [List.getElem?_append_left hlength] at hd
      exact h (List.mem_of_getElem? hd)
    · rw [List.getElem?_append_right (by omega), List.getElem?_append_left (by
        rw [List.length_cons]
        show 8 - (before.length + 1) < 8
        omega)] at hd
      exact absurd (List.mem_of_getElem? hd) (by decide)

theorem execPattern_before {stop : Char} {closed : Bool} {before rest : Text}
    (h : '*' ∉ before) :
    execPattern encodedOpening stop closed (before ++ ("filename".toList ++ rest)) =
      execPattern encodedOpening stop closed ("filename".toList ++ rest) := by
  induction before with
  | nil => rfl
  | cons c before ih =>
    have hnone := afterIgnoringCase_before h rest
    rw [List.cons_append] at hnone ⊢
    rw [execPattern, hnone]
    exact ih fun hmem => h (List.mem_cons_of_mem _ hmem)

theorem execPattern_encoded {encoded : Text} (hne : encoded ≠ []) (hstop : ';' ∉ encoded) :
    execPattern encodedOpening ';' false (encodedOpening ++ encoded) = some encoded := by
  have htake : encoded.takeWhile (· ≠ ';') = encoded :=
    List.takeWhile_eq_self_iff.mpr fun c hc => decide_eq_true fun heq => hstop (heq ▸ hc)
  have hafter := afterIgnoringCase_append encodedOpening encoded
  have hcons : encodedOpening ++ encoded = 'f' :: ("ilename*=UTF-8''".toList ++ encoded) := rfl
  rw [hcons] at hafter ⊢
  rw [execPattern, hafter]
  dsimp only
  rw [htake, if_pos ⟨hne, fun h => (by cases h)⟩]

theorem notMem_encodedText (name : Bytes) : ';' ∉ encodedText name := by
  intro hmem
  obtain ⟨b, hb, heq⟩ := List.mem_map.mp hmem
  exact ofNat_toNat_ne (mem_percentEncodeHeaderValue hb).2.2 heq

theorem parseFileName_buildContentDisposition {name : Bytes} (hne : name ≠ []) :
    parseFileNameFromContentDisposition (some (headerText (buildContentDisposition name))) =
      (decodeURIComponent (encodedText name)).getD (encodedText name) := by
  have hbefore : '*' ∉ headerText (dispositionOpening name) := by
    intro hmem
    obtain ⟨b, hb, heq⟩ := List.mem_map.mp hmem
    have hstar : b ≠ asciiByte '*' := fun h => star_notMem_dispositionOpening name (h ▸ hb)
    exact ofNat_toNat_ne hstar heq
  have hheader : headerText (buildContentDisposition name) =
      headerText (dispositionOpening name) ++ ("filename".toList ++
        ("*=UTF-8''".toList ++ encodedText name)) := by
    rw [buildContentDisposition, headerText_append, headerText_append]
    rfl
  have hfound := execPattern_encoded (encodedText_ne_nil hne) (notMem_encodedText name)
  have hsearch : execPattern encodedOpening ';' false (headerText (buildContentDisposition name)) =
      some (encodedText name) := by
    rw [hheader, execPattern_before hbefore]
    exact hfound
  rw [parseFileNameFromContentDisposition, hsearch, if_neg]
  rw [hheader]
  exact List.append_ne_nil_of_right_ne_nil _ (List.cons_ne_nil _ _)

/-- Whatever the catalog says of a book, its header is one line of printable ASCII with the quotes
of the server. A name in UTF-8 reaches the disk of the reader as it is, another one in its encoding;
and from a valid title and valid authors it is a name that a file system takes. -/
theorem downloadName_survives (title : Bytes) (authors : List Bytes) (format : BookFormat) :
    let name := downloadFileName title authors format
    let header := buildContentDisposition name
    let saved := parseFileNameFromContentDisposition (some (headerText header))
    (∀ b ∈ header, IsPrintableByte b) ∧ header.count (asciiByte '"') = 2 ∧
      (∀ text, encodeText text = name → saved = text) ∧
      (¬ValidUtf8 name → saved = headerText (percentEncodeHeaderValue name)) ∧
      (ValidUtf8 title → (∀ author ∈ authors, ValidUtf8 author) →
        ∃ base, encodeText saved = base ++ fileExtensionForFormat format ∧
          DownloadBaseName maxBaseNameBytes base) := by
  intro name header saved
  have hsaved : saved = (decodeURIComponent (encodedText name)).getD (encodedText name) :=
    parseFileName_buildContentDisposition (downloadFileName_ne_nil title authors format)
  have hdecoded : ∀ text, encodeText text = name → saved = text := by
    intro text htext
    rw [hsaved, decodeURIComponent_iff.mpr htext, Option.getD_some]
  refine ⟨buildContentDisposition_printable name, count_quote_buildContentDisposition name,
    hdecoded, fun hinvalid => ?_, fun htitle hauthors => ?_⟩
  · cases hdecode : decodeURIComponent (encodedText name) with
    | none =>
      rw [hsaved, hdecode]
      rfl
    | some text =>
      exact absurd (validUtf8_iff_encodeUtf8.mpr ⟨text, decodeURIComponent_iff.mp hdecode⟩) hinvalid
  · have hbase := buildDownloadBaseName_spec htitle hauthors
    have hextension : ValidUtf8 (fileExtensionForFormat format) := by
      cases format <;> exact .of_all_ascii (by decide)
    obtain ⟨text, htext⟩ := validUtf8_iff_encodeUtf8.mp (hbase.valid.append hextension)
    refine ⟨_, ?_, hbase⟩
    rw [hdecoded text htext]
    exact htext

end InpxWebReader.Web
