import InpxWebReader.Inpx.TextValidity

/-!
# Writing and reading segments

The inverse of the parser: a record is written as fifteen fields, the records of a segment as
lines with either line end, blank lines between them, and a byte order mark in front or not.
-/

namespace InpxWebReader.Inpx

open Foundation Unicode

/-! ### Trimmed texts -/

/-- A text that trimming leaves alone. -/
def Trimmed (text : Bytes) : Prop :=
  (∀ b ∈ text.head?, isAsciiBlank b = false) ∧ ∀ b ∈ text.getLast?, isAsciiBlank b = false

theorem Trimmed.trim {text : Bytes} (h : Trimmed text) : trimAsciiWhitespace text = text := by
  have hfront : text.dropWhile isAsciiBlank = text := by
    rw [List.dropWhile_eq_self_iff]
    intro hpos
    rw [h.1 _ (List.head?_eq_getElem? ▸ List.getElem?_eq_getElem hpos)]
    exact Bool.false_ne_true
  rw [trimAsciiWhitespace, hfront, List.rdropWhile_eq_self_iff]
  intro hne
  rw [h.2 _ (List.getLast?_eq_getLast_of_ne_nil hne)]
  exact Bool.false_ne_true

theorem Trimmed.nil : Trimmed [] := by
  constructor <;> intro b hb <;> cases hb

theorem Trimmed.of_forall {text : Bytes} (h : ∀ b ∈ text, isAsciiBlank b = false) :
    Trimmed text :=
  ⟨fun b hb => h b (List.mem_of_mem_head? hb), fun b hb => h b (List.mem_of_mem_getLast? hb)⟩

/-- Trimmed texts around a separator that is not blank. -/
theorem Trimmed.append_cons {a b : Bytes} {c : UInt8} (ha : Trimmed a) (hb : Trimmed b)
    (hc : isAsciiBlank c = false) : Trimmed (a ++ c :: b) := by
  refine ⟨fun d hd => ?_, fun d hd => ?_⟩
  · cases a with
    | nil =>
      have hdc : c = d := by simpa using hd
      exact hdc ▸ hc
    | cons x a => exact ha.1 d (by simpa using hd)
  · rw [List.getLast?_append_of_ne_nil _ (List.cons_ne_nil _ _)] at hd
    cases b with
    | nil =>
      have hdc : c = d := by simpa using hd
      exact hdc ▸ hc
    | cons x b => exact hb.2 d (by simpa [List.getLast?_cons_cons] using hd)

/-! ### Lists in a field -/

theorem notMem_intercalate {x c : UInt8} {parts : List Bytes} (hc : x ≠ c)
    (h : ∀ part ∈ parts, x ∉ part) : x ∉ [c].intercalate parts := by
  induction parts with
  | nil => simp
  | cons part parts ih =>
    cases parts with
    | nil => simpa using h part List.mem_cons_self
    | cons next parts =>
      rw [List.intercalate_cons_cons, List.append_assoc, List.singleton_append]
      rw [List.mem_append, List.mem_cons]
      rintro (hx | hx | hx)
      · exact h part List.mem_cons_self hx
      · exact hc hx
      · exact ih (fun p hp => h p (List.mem_cons_of_mem _ hp)) hx

/-- Items joined by a separator they do not contain come apart again. -/
theorem splitViews_intercalate {items : List Bytes} {separator : UInt8} {maxParts : Nat}
    (hne : items ≠ []) (hsep : ∀ item ∈ items, separator ∉ item) (hmax : items.length ≤ maxParts) :
    splitViews ([separator].intercalate items) separator maxParts = some items := by
  rw [splitViews, List.splitOn_intercalate separator hsep hne, if_pos hmax]

/-- The items of a list field: none is blank. -/
structure ListItem (separator : UInt8) (item : Bytes) : Prop where
  trimmed : Trimmed item
  nonempty : item ≠ []
  noSeparator : separator ∉ item

theorem filter_trimmed {separator : UInt8} {items : List Bytes}
    (h : ∀ item ∈ items, ListItem separator item) :
    (items.map trimAsciiWhitespace).filter (fun part => part ≠ []) = items := by
  have hmap : items.map trimAsciiWhitespace = items := by
    conv_rhs => rw [← List.map_id items]
    exact List.map_congr_left fun item hitem => (h item hitem).trimmed.trim
  rw [hmap, List.filter_eq_self]
  intro item hitem
  exact decide_eq_true (h item hitem).nonempty

theorem splitViews_items {separator : UInt8} {items : List Bytes} {maxParts : Nat}
    (h : ∀ item ∈ items, ListItem separator item) (hmax : items.length ≤ maxParts)
    (hpos : 0 < maxParts) :
    ∃ raw, splitViews ([separator].intercalate items) separator maxParts = some raw ∧
      (raw.map trimAsciiWhitespace).filter (fun part => part ≠ []) = items := by
  by_cases hne : items = []
  · subst hne
    exact ⟨[[]], if_pos hpos, rfl⟩
  · exact ⟨items, splitViews_intercalate hne (fun item hitem => (h item hitem).noSeparator) hmax,
      filter_trimmed h⟩

theorem splitNonEmptyUtf8_items {separator : UInt8} {items : List Bytes} {maxParts : Nat}
    (h : ∀ item ∈ items, ListItem separator item) (hmax : items.length ≤ maxParts)
    (hpos : 0 < maxParts) :
    splitNonEmptyUtf8 ([separator].intercalate items) separator maxParts = some items := by
  obtain ⟨raw, hraw, hitems⟩ := splitViews_items h hmax hpos
  rw [splitNonEmptyUtf8, hraw, Option.map_some, hitems]

/-! ### Plain texts -/

structure PlainText (text : Bytes) : Prop where
  utf8 : ValidUtf8 text
  plain : ∀ b ∈ text, b ≠ fieldSeparator ∧ b ≠ asciiByte '\r' ∧ b ≠ asciiByte '\n'

theorem PlainText.nil : PlainText [] := ⟨.nil, fun _ h => by cases h⟩

theorem PlainText.append {a b : Bytes} (ha : PlainText a) (hb : PlainText b) :
    PlainText (a ++ b) where
  utf8 := ha.utf8.append hb.utf8
  plain x hx := (List.mem_append.mp hx).elim (ha.plain x) (hb.plain x)

theorem PlainText.of_ascii {text : Bytes} (h : ∀ b ∈ text, 0x20 ≤ b ∧ b < 0x80) :
    PlainText text where
  utf8 := .of_ascii fun b hb => (h b hb).2
  plain b hb := by
    have hle := (h b hb).1
    refine ⟨fun hx => ?_, fun hx => ?_, fun hx => ?_⟩
    · exact absurd (hx ▸ hle) (by decide)
    · exact absurd (hx ▸ hle) (by decide)
    · exact absurd (hx ▸ hle) (by decide)

theorem PlainText.intercalate {c : UInt8} (hc : 0x20 ≤ c ∧ c < 0x80) {parts : List Bytes}
    (h : ∀ part ∈ parts, PlainText part) : PlainText ([c].intercalate parts) := by
  induction parts with
  | nil => exact .nil
  | cons part parts ih =>
    cases parts with
    | nil => simpa using h part List.mem_cons_self
    | cons next parts =>
      rw [List.intercalate_cons_cons]
      refine ((h part List.mem_cons_self).append (.of_ascii fun b hb => ?_)).append
        (ih fun p hp => h p (List.mem_cons_of_mem _ hp))
      rw [List.mem_singleton.mp hb]
      exact hc

/-! ### Authors -/

/-- `Last,First,Middle`. -/
def renderAuthor (a : InpxAuthor) : Bytes :=
  [asciiByte ','].intercalate [a.lastName, a.firstName, a.middleName]

structure NamePart (text : Bytes) : Prop extends PlainText text where
  trimmed : Trimmed text
  noColon : asciiByte ':' ∉ text
  noComma : asciiByte ',' ∉ text

/-- An author as `ParseAuthor` makes them. -/
structure WellFormedAuthor (a : InpxAuthor) : Prop where
  lastName : NamePart a.lastName
  firstName : NamePart a.firstName
  middleName : NamePart a.middleName
  named : a.lastName ≠ [] ∨ a.firstName ≠ [] ∨ a.middleName ≠ []
  displayName : a.displayName = displayNameOf a.firstName a.middleName a.lastName

theorem appendName_eq_nil {displayName name : Bytes} :
    appendName displayName name = [] ↔ displayName = [] ∧ name = [] := by
  rw [appendName]
  split
  · simp [*]
  · split
    · simp [*]
    · simp [*]

namespace WellFormedAuthor

variable {a : InpxAuthor} (h : WellFormedAuthor a)

include h

theorem parts : ∀ part ∈ [a.lastName, a.firstName, a.middleName], NamePart part := by
  intro part hpart
  simp only [List.mem_cons, List.not_mem_nil, or_false] at hpart
  rcases hpart with rfl | rfl | rfl
  · exact h.lastName
  · exact h.firstName
  · exact h.middleName

theorem renderAuthor_plain : PlainText (renderAuthor a) :=
  .intercalate (by decide) fun part hp => (h.parts part hp).toPlainText

theorem renderAuthor_item : ListItem (asciiByte ':') (renderAuthor a) where
  trimmed := by
    have heq : renderAuthor a =
        a.lastName ++ asciiByte ',' :: (a.firstName ++ asciiByte ',' :: a.middleName) := by
      simp [renderAuthor]
    rw [heq]
    exact h.lastName.trimmed.append_cons
      (h.firstName.trimmed.append_cons h.middleName.trimmed (by decide)) (by decide)
  nonempty := by simp [renderAuthor]
  noSeparator := notMem_intercalate (by decide) fun part hp => (h.parts part hp).noColon

theorem parseAuthor_renderAuthor : parseAuthor (renderAuthor a) = some a := by
  have hsplit : splitViews (renderAuthor a) (asciiByte ',') maxAuthorNameParts
      = some [a.lastName, a.firstName, a.middleName] :=
    splitViews_intercalate (List.cons_ne_nil _ _)
      (fun part hp => (h.parts part hp).noComma) le_rfl
  have hdisplay : a.displayName ≠ [] := by
    rw [h.displayName]
    intro hnil
    simp only [displayNameOf, appendName_eq_nil, true_and] at hnil
    rcases h.named with hl | hf | hm
    · exact hl hnil.2
    · exact hf hnil.1.1
    · exact hm hnil.1.2
  rw [parseAuthor, hsplit, Option.map_some]
  simp only [List.getD_cons_zero, List.getD_cons_succ, h.lastName.trimmed.trim,
    h.firstName.trimmed.trim, h.middleName.trimmed.trim, ← h.displayName, if_neg hdisplay]

end WellFormedAuthor

theorem parseAuthors_render {authors : List InpxAuthor}
    (h : ∀ a ∈ authors, WellFormedAuthor a) (hmax : authors.length ≤ maxAuthorsPerRecord) :
    parseAuthors ([asciiByte ':'].intercalate (authors.map renderAuthor)) = .ok authors := by
  have hitems : ∀ item ∈ authors.map renderAuthor, ListItem (asciiByte ':') item := by
    intro item hitem
    obtain ⟨a, ha, rfl⟩ := List.mem_map.mp hitem
    exact (h a ha).renderAuthor_item
  have hlength : (authors.map renderAuthor).length ≤ maxAuthorsPerRecord := by
    rw [List.length_map]
    exact hmax
  obtain ⟨raw, hraw, hfilter⟩ := splitViews_items hitems hlength (by decide)
  have hmapM : (authors.map renderAuthor).mapM parseAuthor = some authors := by
    clear hitems hlength hraw hfilter hmax
    induction authors with
    | nil => rfl
    | cons a authors ih =>
      rw [List.map_cons, List.mapM_cons, (h a List.mem_cons_self).parseAuthor_renderAuthor,
        ih fun b hb => h b (List.mem_cons_of_mem _ hb)]
      rfl
  simp only [parseAuthors, hraw, orSkip, bind, Except.bind, hfilter, hmapM]

/-! ### Numbers -/

theorem trimmed_decimal (n : Nat) : Trimmed (decimal n) :=
  .of_forall fun b hb => by
    have hbounds := mem_decimal_bounds hb
    simp only [isAsciiBlank, decide_eq_false_iff_not, UInt8.le_iff_toNat_le]
    have h20 : (0x20 : UInt8).toNat = 32 := rfl
    omega

theorem length_decimal_le {n k : Nat} (hk : 0 < k) (h : n < 10 ^ k) : (decimal n).length ≤ k := by
  rw [decimal, List.length_map]
  exact (Nat.length_toDigits_le_iff (by decide) hk).mpr h

theorem decimal_plain (n : Nat) : PlainText (decimal n) :=
  .of_ascii fun b hb => by
    have hbounds := mem_decimal_bounds hb
    rw [UInt8.le_iff_toNat_le, UInt8.lt_iff_toNat_lt]
    have h20 : (0x20 : UInt8).toNat = 32 := rfl
    have h80 : (0x80 : UInt8).toNat = 128 := rfl
    omega

theorem decimalInt_plain (n : Int) : PlainText (decimalInt n) := by
  cases n with
  | ofNat n => exact decimal_plain n
  | negSucc n =>
    have hsign : PlainText [asciiByte '-'] := .of_ascii (List.all_iff_forall_prop.mp (by decide))
    exact hsign.append (decimal_plain (n + 1))

theorem tryParseUInt64_decimal {n : Nat} (h : n < 2 ^ 64) :
    tryParseUInt64 (decimal n) = some n := by
  have hlength : (decimal n).length ≤ maxIntegerFieldBytes :=
    length_decimal_le (by decide) (by rw [maxIntegerFieldBytes]; omega)
  rw [tryParseUInt64, if_pos hlength, parseUnsigned_decimal h]

theorem trimmed_decimalInt (n : Int) : Trimmed (decimalInt n) := by
  cases n with
  | ofNat n => exact trimmed_decimal n
  | negSucc n => exact Trimmed.nil.append_cons (trimmed_decimal (n + 1)) (by decide)

theorem tryParseInt_decimalInt {n : Int} (hmin : -2 ^ 31 ≤ n) (hmax : n < 2 ^ 31) :
    tryParseInt (decimalInt n) = some n := by
  cases n with
  | ofNat n =>
    have hn : n < 2 ^ 31 := by
      have : (n : Int) < 2 ^ 31 := hmax
      omega
    have hlength : (decimal n).length ≤ maxIntegerFieldBytes :=
      length_decimal_le (by decide) (by rw [maxIntegerFieldBytes]; omega)
    have hhead : (decimal n).head? ≠ some (asciiByte '-') := fun hhead =>
      hyphen_notMem_decimal n (List.mem_of_mem_head? hhead)
    rw [decimalInt, tryParseInt, if_pos hlength, if_neg hhead, parseUnsigned_decimal hn]
    rfl
  | negSucc n =>
    have hn : n + 1 < 2 ^ 31 + 1 := by omega
    have hlength : (asciiByte '-' :: decimal (n + 1)).length ≤ maxIntegerFieldBytes := by
      have := length_decimal_le (n := n + 1) (k := 31) (by decide) (by omega)
      rw [List.length_cons, maxIntegerFieldBytes]
      omega
    rw [decimalInt, tryParseInt, if_pos hlength, List.head?_cons, if_pos rfl, List.tail_cons,
      parseUnsigned_decimal hn]
    rfl

/-! ### Records -/

/-- A text that makes a field by itself. -/
structure FieldText (text : Bytes) : Prop extends PlainText text where
  trimmed : Trimmed text

/-- A record to be written, with the two fields that are not read. -/
structure WrittenRecord where
  record : InpxRecord
  ignored : Bytes := []
  reserved : Bytes := []

def renderFields (w : WrittenRecord) : InpFields where
  authors := [asciiByte ':'].intercalate (w.record.authors.map renderAuthor)
  genres := [asciiByte ':'].intercalate w.record.genres
  title := w.record.title
  series := w.record.series.getD []
  seriesNumber := (w.record.seriesNumber.map decimalInt).getD []
  fileName := w.record.fileName
  fileSize := decimal w.record.fileSizeBytes
  libId := w.record.libId
  deleted := if w.record.deleted then ascii "1" else ascii "0"
  fileExt := w.record.fileExtension
  dateAdded := w.record.dateAdded.getD []
  language := w.record.language
  ignored := w.ignored
  keywords := [asciiByte ':'].intercalate w.record.keywords
  reserved := w.reserved

def renderLine (w : WrittenRecord) : Bytes := [fieldSeparator].intercalate (renderFields w).toList

structure TagText (text : Bytes) : Prop extends FieldText text where
  nonempty : text ≠ []
  noColon : asciiByte ':' ∉ text

/-- A record that a segment of the given names can hold. -/
structure WellFormed (archiveName inpEntryName : Bytes) (w : WrittenRecord) : Prop where
  authors : ∀ a ∈ w.record.authors, WellFormedAuthor a
  authorCount : w.record.authors.length ≤ maxAuthorsPerRecord
  genres : ∀ genre ∈ w.record.genres, TagText genre
  genreCount : w.record.genres.length ≤ maxGenresPerRecord
  keywords : ∀ keyword ∈ w.record.keywords, TagText keyword
  keywordCount : w.record.keywords.length ≤ maxKeywordsPerRecord
  title : FieldText w.record.title
  titled : w.record.title ≠ []
  series : ∀ series ∈ w.record.series, FieldText series ∧ series ≠ []
  seriesNumber : ∀ n ∈ w.record.seriesNumber, -2 ^ 31 ≤ n ∧ n < 2 ^ 31
  fileName : FieldText w.record.fileName
  fileNamed : w.record.fileName ≠ []
  fileSize : w.record.fileSizeBytes < 2 ^ 64
  libId : FieldText w.record.libId
  identified : w.record.libId ≠ []
  fileExtension : FieldText w.record.fileExtension
  extended : w.record.fileExtension ≠ []
  extensionLength : w.record.fileExtension.length ≤ maxFileExtensionBytes
  lowerCase : toLowerAscii w.record.fileExtension = w.record.fileExtension
  dateAdded : ∀ date ∈ w.record.dateAdded, FieldText date ∧ date ≠ []
  language : FieldText w.record.language
  ignored : FieldText w.ignored
  reserved : FieldText w.reserved
  inpEntryName : w.record.inpEntryName = inpEntryName
  archiveName : w.record.archiveName = archiveName
  entryName : w.record.entryName = w.record.fileName ++ ascii "." ++ w.record.fileExtension
  lineLength : (renderLine w).length ≤ maxInpRecordLineBytes

theorem FieldText.nil : FieldText [] := ⟨.nil, .nil⟩

theorem TagText.item {text : Bytes} (h : TagText text) : ListItem (asciiByte ':') text :=
  ⟨h.trimmed, h.nonempty, h.noColon⟩

theorem textOrNone_getD {text : Option Bytes} (h : ∀ t ∈ text, FieldText t ∧ t ≠ []) :
    textOrNone (text.getD []) = text := by
  cases text with
  | none => rfl
  | some t =>
    obtain ⟨ht, hne⟩ := h t rfl
    rw [Option.getD_some, textOrNone, ht.trimmed.trim, if_neg hne]

theorem FieldText.getD {text : Option Bytes} (h : ∀ t ∈ text, FieldText t ∧ t ≠ []) :
    FieldText (text.getD []) := by
  cases text with
  | none => exact .nil
  | some t => exact (h t rfl).1

theorem present_eq_some {text : Bytes} (h : text ≠ []) : present text = some text := if_neg h

theorem textOr_of_ne_nil {text default : Bytes} (h : text ≠ []) : textOr text default = text :=
  if_neg h

theorem trim_seriesNumber (w : WrittenRecord) :
    trimAsciiWhitespace (renderFields w).seriesNumber = (renderFields w).seriesNumber := by
  cases hn : w.record.seriesNumber with
  | none => simp [renderFields, hn, trimAsciiWhitespace]
  | some n =>
    simp only [renderFields, hn, Option.map_some, Option.getD_some, (trimmed_decimalInt n).trim]

theorem parseDeleted_render (w : WrittenRecord) :
    parseDeleted (renderFields w).deleted = some (if w.record.deleted then 1 else 0) := by
  cases hd : w.record.deleted <;> simp only [renderFields, hd] <;> decide

namespace WellFormed

variable {archiveName inpEntryName : Bytes} {w : WrittenRecord}
variable (h : WellFormed archiveName inpEntryName w)

include h

theorem tryParseInt_seriesNumber :
    tryParseInt (renderFields w).seriesNumber = w.record.seriesNumber := by
  cases hn : w.record.seriesNumber with
  | none => simp [renderFields, hn, tryParseInt, parseUnsigned]
  | some n =>
    obtain ⟨hmin, hmax⟩ := h.seriesNumber n hn
    simp only [renderFields, hn, Option.map_some, Option.getD_some, tryParseInt_decimalInt hmin hmax]

theorem noInvalidSeriesNumber : hasInvalidSeriesNumber (renderFields w) = false := by
  rw [hasInvalidSeriesNumber, trim_seriesNumber, h.tryParseInt_seriesNumber]
  cases hn : w.record.seriesNumber with
  | none => simp [renderFields, hn]
  | some n => simp

theorem buildRecord_render :
    buildRecord archiveName inpEntryName (renderFields w) w.record.fileName w.record.libId
      w.record.fileSizeBytes (if w.record.deleted then 1 else 0) w.record.authors w.record.genres
      w.record.keywords = w.record := by
  have htitle : textOr (trimAsciiWhitespace (renderFields w).title) w.record.fileName
      = w.record.title := by
    rw [renderFields, h.title.trimmed.trim, textOr_of_ne_nil h.titled]
  have hext : textOr (toLowerAscii (trimAsciiWhitespace (renderFields w).fileExt)) (ascii "fb2")
      = w.record.fileExtension := by
    rw [renderFields, h.fileExtension.trimmed.trim, h.lowerCase, textOr_of_ne_nil h.extended]
  have hdeleted : decide ((if w.record.deleted then 1 else 0 : Int) ≠ 0) = w.record.deleted := by
    cases w.record.deleted <;> rfl
  have hseries : textOrNone (renderFields w).series = w.record.series :=
    textOrNone_getD h.series
  have hdate : textOrNone (renderFields w).dateAdded = w.record.dateAdded :=
    textOrNone_getD h.dateAdded
  have hlanguage : trimAsciiWhitespace (renderFields w).language = w.record.language :=
    h.language.trimmed.trim
  rw [buildRecord]
  simp only [htitle, hext, hdeleted, hseries, hdate, hlanguage, trim_seriesNumber,
    h.tryParseInt_seriesNumber, ← h.entryName]
  rw [← h.inpEntryName, ← h.archiveName]

theorem parseFields_render :
    parseFields archiveName inpEntryName (renderFields w) = .ok w.record := by
  have hfile : present (trimAsciiWhitespace (renderFields w).fileName) = some w.record.fileName := by
    rw [renderFields, h.fileName.trimmed.trim, present_eq_some h.fileNamed]
  have hlib : present (trimAsciiWhitespace (renderFields w).libId) = some w.record.libId := by
    rw [renderFields, h.libId.trimmed.trim, present_eq_some h.identified]
  have hsize : tryParseUInt64 (trimAsciiWhitespace (renderFields w).fileSize)
      = some w.record.fileSizeBytes := by
    rw [renderFields, (trimmed_decimal _).trim, tryParseUInt64_decimal h.fileSize]
  have hext : (trimAsciiWhitespace (renderFields w).fileExt).length ≤ maxFileExtensionBytes := by
    rw [renderFields, h.fileExtension.trimmed.trim]
    exact h.extensionLength
  have hauthors : parseAuthors (renderFields w).authors = .ok w.record.authors :=
    parseAuthors_render h.authors h.authorCount
  have hgenres : splitNonEmptyUtf8 (renderFields w).genres (asciiByte ':') maxGenresPerRecord
      = some w.record.genres :=
    splitNonEmptyUtf8_items (fun g hg => (h.genres g hg).item) h.genreCount (by decide)
  have hkeywords : splitNonEmptyUtf8 (renderFields w).keywords (asciiByte ':')
      maxKeywordsPerRecord = some w.record.keywords :=
    splitNonEmptyUtf8_items (fun k hk => (h.keywords k hk).item) h.keywordCount (by decide)
  simp only [parseFields, hfile, hlib, hsize, parseDeleted_render, if_pos hext, hauthors, hgenres,
    hkeywords, orSkip, bind, Except.bind, pure, Except.pure, h.buildRecord_render]

theorem fields_plain : ∀ field ∈ (renderFields w).toList, PlainText field := by
  intro field hfield
  simp only [InpFields.toList, List.mem_cons, List.not_mem_nil, or_false] at hfield
  rcases hfield with rfl | rfl | rfl | rfl | rfl | rfl | rfl | rfl | rfl | rfl | rfl | rfl | rfl |
    rfl | rfl
  · refine .intercalate (by decide) fun part hp => ?_
    obtain ⟨a, ha, rfl⟩ := List.mem_map.mp hp
    exact (h.authors a ha).renderAuthor_plain
  · exact .intercalate (by decide) fun genre hg => (h.genres genre hg).toPlainText
  · exact h.title.toPlainText
  · exact (FieldText.getD h.series).toPlainText
  · rw [renderFields]
    cases w.record.seriesNumber with
    | none => exact .nil
    | some n => exact decimalInt_plain n
  · exact h.fileName.toPlainText
  · exact decimal_plain _
  · exact h.libId.toPlainText
  · change PlainText (if w.record.deleted then ascii "1" else ascii "0")
    cases w.record.deleted <;> exact .of_ascii (List.all_iff_forall_prop.mp (by decide))
  · exact h.fileExtension.toPlainText
  · exact (FieldText.getD h.dateAdded).toPlainText
  · exact h.language.toPlainText
  · exact h.ignored.toPlainText
  · exact .intercalate (by decide) fun keyword hk => (h.keywords keyword hk).toPlainText
  · exact h.reserved.toPlainText

theorem ofLine_renderLine : InpFields.ofLine (renderLine w) = some (renderFields w) := by
  have hsplit : splitViews (renderLine w) fieldSeparator 15 = some (renderFields w).toList :=
    splitViews_intercalate (List.cons_ne_nil _ _)
      (fun field hf hm => ((h.fields_plain field hf).plain _ hm).1 rfl) le_rfl
  rw [InpFields.ofLine, hsplit]
  rfl

theorem parseRecordLine_renderLine :
    parseRecordLine archiveName inpEntryName (renderLine w) = .ok (w.record, false) := by
  simp only [parseRecordLine, h.ofLine_renderLine, h.parseFields_render, h.noInvalidSeriesNumber,
    orSkip, bind, Except.bind, pure, Except.pure]

theorem renderLine_valid : ValidUtf8 (renderLine w) :=
  (ValidUtf8.intercalate_ascii (by decide)).mpr fun field hf => (h.fields_plain field hf).utf8

theorem lineEnd_notMem_renderLine :
    asciiByte '\r' ∉ renderLine w ∧ asciiByte '\n' ∉ renderLine w :=
  ⟨notMem_intercalate (by decide) fun field hf hm => ((h.fields_plain field hf).plain _ hm).2.1 rfl,
    notMem_intercalate (by decide) fun field hf hm =>
      ((h.fields_plain field hf).plain _ hm).2.2 rfl⟩

end WellFormed

/-! ### Segments -/

def lineEnd (crlf : Bool) : Bytes := if crlf then ascii "\r\n" else ascii "\n"

/-- How the records of a segment are set out. -/
structure Layout where
  /-- is there a byte order mark? -/
  marked : Bool := false
  /-- the ended lines, blank or with a record, each with whether it ends in `\r\n` -/
  ended : List (Option WrittenRecord × Bool) := []
  /-- the record of a last line that is not ended -/
  last : Option WrittenRecord := none

namespace Layout

/-- A line, which may be blank. -/
def lineText (line : Option WrittenRecord) : Bytes := (line.map renderLine).getD []

/-- The records, in order. -/
def written (layout : Layout) : List WrittenRecord :=
  layout.ended.filterMap Prod.fst ++ layout.last.toList

def text (layout : Layout) : Bytes :=
  (layout.ended.flatMap fun line => lineText line.1 ++ lineEnd line.2) ++ lineText layout.last

def bytes (layout : Layout) : Bytes :=
  (if layout.marked then utf8Bom else []) ++ layout.text

/-- The lines as they are between the line feeds. -/
def rawLines (layout : Layout) : List Bytes :=
  layout.ended.map (fun line => lineText line.1 ++ if line.2 then ascii "\r" else [])
    ++ [lineText layout.last]

theorem text_eq_intercalate (layout : Layout) :
    layout.text = [asciiByte '\n'].intercalate layout.rawLines := by
  rw [text, rawLines]
  induction layout.ended with
  | nil => simp
  | cons line ended ih =>
    rw [List.flatMap_cons, List.append_assoc, ih, List.map_cons, List.cons_append,
      List.intercalate_cons_of_ne_nil (by simp)]
    cases line.2 <;> simp [lineEnd, ascii]

end Layout

theorem withoutCarriageReturn_lineText {line : Option WrittenRecord}
    (hline : ∀ w ∈ line, asciiByte '\r' ∉ renderLine w) (crlf : Bool) :
    withoutCarriageReturn (Layout.lineText line ++ if crlf then ascii "\r" else [])
      = Layout.lineText line := by
  cases crlf with
  | true =>
    have hcr : ascii "\r" = [asciiByte '\r'] := rfl
    rw [if_pos rfl, hcr, withoutCarriageReturn, if_pos List.getLast?_concat, List.dropLast_concat]
  | false =>
    rw [if_neg Bool.false_ne_true, List.append_nil, withoutCarriageReturn]
    refine if_neg fun hlast => ?_
    cases line with
    | none => cases hlast
    | some w => exact hline w rfl (List.mem_of_mem_getLast? hlast)

/-- A segment whose lines are blank or records with a good series number is read to its end
without a warning. -/
theorem parseLines_quiet {archiveName inpEntryName : Bytes} {lines : List Bytes}
    (h : ∀ line ∈ lines, withoutCarriageReturn line = [] ∨
      (withoutCarriageReturn line).length ≤ maxInpRecordLineBytes ∧
        ∃ r, parseRecordLine archiveName inpEntryName (withoutCarriageReturn line) = .ok (r, false))
    (lineNumber : Nat) (summary : InpxParseSummary) :
    (parseLines archiveName inpEntryName lines lineNumber summary).warnings = [] ∧
      ∃ result, (parseLines archiveName inpEntryName lines lineNumber summary).outcome
        = .ok result := by
  induction lines generalizing lineNumber summary with
  | nil => exact ⟨rfl, summary, rfl⟩
  | cons line rest ih =>
    have hrest := ih fun l hl => h l (List.mem_cons_of_mem _ hl)
    rw [parseLines]
    rcases h line List.mem_cons_self with hblank | ⟨hlength, r, hparse⟩
    · rw [if_pos hblank]
      exact hrest _ _
    · by_cases hblank : withoutCarriageReturn line = []
      · rw [if_pos hblank]
        exact hrest _ _
      · rw [if_neg hblank, if_neg (Nat.not_lt.mpr hlength), hparse]
        obtain ⟨hwarnings, result, houtcome⟩ := hrest (lineNumber + 1) (summary.addRecord r false)
        refine ⟨?_, result, houtcome⟩
        simp only [ParseTrace.after, ParseTrace.warnings, List.filterMap_append, recordEvents]
        simpa [ParseTrace.warnings] using hwarnings

section Segment

variable {archiveName inpEntryName : Bytes}

theorem withoutCarriageReturn_rawLine {line : Option WrittenRecord} {crlf : Bool}
    (hline : ∀ w ∈ line, WellFormed archiveName inpEntryName w) :
    withoutCarriageReturn (Layout.lineText line ++ if crlf then ascii "\r" else [])
      = Layout.lineText line :=
  withoutCarriageReturn_lineText (fun w hw => (hline w hw).lineEnd_notMem_renderLine.1) crlf

theorem recordOfLine_rawLine {line : Option WrittenRecord} {crlf : Bool}
    (hline : ∀ w ∈ line, WellFormed archiveName inpEntryName w) :
    recordOfLine archiveName inpEntryName
        (Layout.lineText line ++ if crlf then ascii "\r" else [])
      = line.map WrittenRecord.record := by
  rw [recordOfLine, withoutCarriageReturn_rawLine hline]
  cases line with
  | none => rfl
  | some w =>
    rw [Layout.lineText, Option.map_some, Option.getD_some, (hline w rfl).parseRecordLine_renderLine]
    rfl

variable {layout : Layout}
variable (hwell : ∀ w ∈ layout.written, WellFormed archiveName inpEntryName w)

include hwell

theorem wellFormed_of_mem_ended {line : Option WrittenRecord × Bool} (hline : line ∈ layout.ended)
    {w : WrittenRecord} (hw : line.1 = some w) : WellFormed archiveName inpEntryName w :=
  hwell w (List.mem_append_left _ (List.mem_filterMap.mpr ⟨line, hline, hw⟩))

theorem wellFormed_of_last {w : WrittenRecord} (hw : layout.last = some w) :
    WellFormed archiveName inpEntryName w :=
  hwell w (List.mem_append_right _ (Option.mem_toList.mpr hw))

/-- Each line is one of the layout, without its end. -/
theorem mem_rawLines {rawLine : Bytes} (h : rawLine ∈ layout.rawLines) :
    ∃ (line : Option WrittenRecord) (crlf : Bool),
      rawLine = Layout.lineText line ++ (if crlf then ascii "\r" else []) ∧
      ∀ w ∈ line, WellFormed archiveName inpEntryName w := by
  rcases List.mem_append.mp h with h | h
  · obtain ⟨line, hline, rfl⟩ := List.mem_map.mp h
    exact ⟨line.1, line.2, rfl, fun w hw => wellFormed_of_mem_ended hwell hline hw⟩
  · rw [List.mem_singleton.mp h]
    refine ⟨layout.last, false, ?_, fun w hw => wellFormed_of_last hwell hw⟩
    rw [if_neg Bool.false_ne_true, List.append_nil]

theorem rawLine_valid {rawLine : Bytes} (h : rawLine ∈ layout.rawLines) : ValidUtf8 rawLine := by
  obtain ⟨line, crlf, rfl, hline⟩ := mem_rawLines hwell h
  refine ValidUtf8.append ?_ ?_
  · cases line with
    | none => exact .nil
    | some w => exact (hline w rfl).renderLine_valid
  · cases crlf <;> exact .of_all_ascii (by decide)

theorem lineFeed_notMem_rawLine {rawLine : Bytes} (h : rawLine ∈ layout.rawLines) :
    asciiByte '\n' ∉ rawLine := by
  obtain ⟨line, crlf, rfl, hline⟩ := mem_rawLines hwell h
  rw [List.mem_append]
  rintro (hm | hm)
  · cases line with
    | none => cases hm
    | some w => exact (hline w rfl).lineEnd_notMem_renderLine.2 hm
  · cases crlf
    · cases hm
    · exact absurd hm (by decide)

theorem rawLines_records : layout.rawLines.filterMap (recordOfLine archiveName inpEntryName)
    = layout.written.map WrittenRecord.record := by
  have hended : ∀ ended : List (Option WrittenRecord × Bool),
      (∀ line ∈ ended, ∀ w ∈ line.1, WellFormed archiveName inpEntryName w) →
      (ended.map fun line => Layout.lineText line.1 ++ if line.2 then ascii "\r" else []).filterMap
        (recordOfLine archiveName inpEntryName)
        = (ended.filterMap Prod.fst).map WrittenRecord.record := by
    intro ended
    induction ended with
    | nil => exact fun _ => rfl
    | cons line ended ih =>
      intro h
      have hrest := ih fun l hl => h l (List.mem_cons_of_mem _ hl)
      rw [List.map_cons, List.filterMap_cons, List.filterMap_cons,
        recordOfLine_rawLine (h line List.mem_cons_self), hrest]
      cases line.1 <;> rfl
  have hlast : recordOfLine archiveName inpEntryName (Layout.lineText layout.last)
      = layout.last.map WrittenRecord.record := by
    have h := @recordOfLine_rawLine archiveName inpEntryName layout.last false
      fun w hw => wellFormed_of_last hwell hw
    rwa [if_neg Bool.false_ne_true, List.append_nil] at h
  rw [Layout.rawLines, List.filterMap_append, Layout.written, List.map_append,
    hended _ fun line hline w hw => wellFormed_of_mem_ended hwell hline hw, List.filterMap_cons,
    hlast]
  cases layout.last <;> rfl

theorem decode_layout (iconv : Iconv)
    (hmark : layout.marked = false → utf8Bom.isPrefixOf layout.text = false) :
    decodeInpPayloadToUtf8 iconv layout.bytes = .ok layout.text := by
  have hvalid : ValidUtf8 layout.text := by
    rw [layout.text_eq_intercalate]
    exact (ValidUtf8.intercalate_ascii (by decide)).mpr fun _ h => rawLine_valid hwell h
  cases hmarked : layout.marked with
  | true =>
    have hpre : utf8Bom.isPrefixOf (utf8Bom ++ layout.text) = true :=
      List.isPrefixOf_iff_prefix.mpr (List.prefix_append _ _)
    rw [Layout.bytes, hmarked, if_pos rfl, decodeInpPayloadToUtf8, if_pos hpre]
    rfl
  | false =>
    -- no sequence of UTF-8 begins with a byte of the other two marks
    have hother : ∀ b c : UInt8, 0xF8 ≤ b → ([b, c] : Bytes).isPrefixOf layout.text = false := by
      intro b c hb
      rw [Bool.eq_false_iff]
      intro hpre
      obtain ⟨rest, hrest⟩ := List.isPrefixOf_iff_prefix.mp hpre
      rw [← hrest] at hvalid
      cases hvalid with
      | step decode _ =>
        simp only [tryDecodeUtf8CodePoint, List.cons_append] at decode
        grind
    rw [Layout.bytes, hmarked, if_neg Bool.false_ne_true, List.nil_append, decodeInpPayloadToUtf8,
      hmark hmarked, hother _ _ (by decide), hother _ _ (by decide), if_neg Bool.false_ne_true,
      if_neg Bool.false_ne_true, if_neg Bool.false_ne_true, if_pos (isValidUtf8_iff.mpr hvalid)]

/-- Reading inverts writing: the records come back, in order and without a warning. -/
theorem parseSegment_layout (iconv : Iconv) (fingerprint : Bytes)
    (hmark : layout.marked = false → utf8Bom.isPrefixOf layout.text = false) :
    ∃ trace, parseSegment iconv
        { inpEntryName := inpEntryName, archiveName := archiveName, fingerprint := fingerprint,
          bytes := layout.bytes } = some trace ∧
      trace.records = layout.written.map WrittenRecord.record ∧ trace.warnings = [] ∧
      ∃ result, trace.outcome = .ok result := by
  refine ⟨parseLines archiveName inpEntryName layout.rawLines 1 { inpEntryCount := 1 }, ?_, ?_⟩
  · have hne : layout.rawLines ≠ [] := by simp [Layout.rawLines]
    have hsplit : layout.text.splitOn (asciiByte '\n') = layout.rawLines := by
      rw [layout.text_eq_intercalate]
      exact List.splitOn_intercalate _ (fun _ h => lineFeed_notMem_rawLine hwell h) hne
    simp only [parseSegment, decode_layout hwell iconv hmark, hsplit]
  have hquiet := @parseLines_quiet archiveName inpEntryName layout.rawLines
    (fun rawLine hraw => ?_) 1 { inpEntryCount := 1 }
  · obtain ⟨hwarnings, result, houtcome⟩ := hquiet
    refine ⟨?_, hwarnings, result, houtcome⟩
    rw [parseLines_records houtcome, rawLines_records hwell]
  · obtain ⟨line, crlf, rfl, hline⟩ := mem_rawLines hwell hraw
    rw [withoutCarriageReturn_rawLine hline]
    cases line with
    | none => exact .inl rfl
    | some w =>
      exact .inr ⟨(hline w rfl).lineLength, w.record, (hline w rfl).parseRecordLine_renderLine⟩

end Segment

/-- A book of one author, whose name is `Doe` or begins with U+FEFF. -/
def sampleRecord (withMark : Bool) : WrittenRecord where
  record :=
    let name := if withMark then utf8Bom ++ ascii "Doe" else ascii "Doe"
    { authors := [{ displayName := name, lastName := name }]
      title := ascii "Ship"
      fileName := ascii "1"
      fileSizeBytes := 10
      libId := ascii "7"
      language := ascii "en"
      inpEntryName := ascii "a.inp"
      archiveName := ascii "a"
      entryName := ascii "1.fb2" }

theorem FieldText.of_check {text : Bytes} (hutf8 : isValidUtf8 text = true)
    (htrim : (text.all fun b => isAsciiBlank b = false) = true) (hsep : fieldSeparator ∉ text) :
    FieldText text where
  utf8 := isValidUtf8_iff.mp hutf8
  plain b hb := by
    have hblank := List.all_iff_forall_prop.mp htrim b hb
    refine ⟨fun h => hsep (h ▸ hb), fun h => ?_, fun h => ?_⟩
    · rw [h] at hblank
      exact absurd hblank (by decide)
    · rw [h] at hblank
      exact absurd hblank (by decide)
  trimmed := .of_forall (List.all_iff_forall_prop.mp htrim)

theorem sampleRecord_wellFormed (withMark : Bool) :
    WellFormed (ascii "a") (ascii "a.inp") (sampleRecord withMark) := by
  have hempty : NamePart [] := ⟨.nil, .nil, List.not_mem_nil, List.not_mem_nil⟩
  have htag : ∀ text ∈ ([] : List Bytes), TagText text := fun _ h => by cases h
  have hnone : ∀ text ∈ (none : Option Bytes), FieldText text ∧ text ≠ [] := fun _ h => by cases h
  have hauthor : ∀ a ∈ (sampleRecord withMark).record.authors, WellFormedAuthor a := by
    intro a ha
    rw [List.mem_singleton.mp ha]
    cases withMark with
    | false =>
      have htext : FieldText (ascii "Doe") := .of_check (by decide) (by decide) (by decide)
      exact ⟨⟨htext.toPlainText, htext.trimmed, by decide, by decide⟩, hempty, hempty,
        .inl (by decide), by decide⟩
    | true =>
      have htext : FieldText (utf8Bom ++ ascii "Doe") :=
        .of_check (by decide) (by decide) (by decide)
      exact ⟨⟨htext.toPlainText, htext.trimmed, by decide, by decide⟩, hempty, hempty,
        .inl (by decide), by decide⟩
  exact {
    authors := hauthor
    authorCount := Nat.le_of_ble_eq_true rfl
    genres := htag
    genreCount := Nat.le_of_ble_eq_true rfl
    keywords := htag
    keywordCount := Nat.le_of_ble_eq_true rfl
    title := (.of_check (by decide) (by decide) (by decide) : FieldText (ascii "Ship"))
    titled := (by decide : ascii "Ship" ≠ [])
    series := hnone
    seriesNumber := fun _ h => by cases h
    fileName := (.of_check (by decide) (by decide) (by decide) : FieldText (ascii "1"))
    fileNamed := (by decide : ascii "1" ≠ [])
    fileSize := (by decide : 10 < 2 ^ 64)
    libId := (.of_check (by decide) (by decide) (by decide) : FieldText (ascii "7"))
    identified := (by decide : ascii "7" ≠ [])
    fileExtension := (.of_check (by decide) (by decide) (by decide) : FieldText (ascii "fb2"))
    extended := (by decide : ascii "fb2" ≠ [])
    extensionLength := Nat.le_of_ble_eq_true rfl
    lowerCase := (by decide : toLowerAscii (ascii "fb2") = ascii "fb2")
    dateAdded := hnone
    language := (.of_check (by decide) (by decide) (by decide) : FieldText (ascii "en"))
    ignored := .nil
    reserved := .nil
    inpEntryName := rfl
    archiveName := rfl
    entryName := (by decide : ascii "1.fb2" = ascii "1" ++ ascii "." ++ ascii "fb2")
    lineLength := by cases withMark <;> decide }

/-- A blank line, a record that ends in `\r\n` and one that is not ended. -/
def sampleLayout (withMark : Bool) : Layout where
  ended := [(none, false), (some (sampleRecord withMark), true)]
  last := some (sampleRecord withMark)

theorem sampleLayout_read_back :
    ∃ trace, parseSegment noConversion
        { inpEntryName := ascii "a.inp", archiveName := ascii "a", fingerprint := [],
          bytes := (sampleLayout false).bytes } = some trace ∧
      trace.records = (sampleLayout false).written.map WrittenRecord.record ∧ trace.warnings = [] ∧
      ∃ result, trace.outcome = .ok result :=
  parseSegment_layout
    (fun w hw => by
      have hmem : w = sampleRecord false := by simpa [sampleLayout, Layout.written] using hw
      exact hmem ▸ sampleRecord_wellFormed false)
    noConversion [] fun _ => by decide

/-- The same book with one genre, which is empty. -/
def emptyGenreRecord : WrittenRecord :=
  { record := { (sampleRecord false).record with genres := [[]] } }

/-- A first name that begins with U+FEFF is read back without it when no mark is in front, and an
empty genre is not read back at all. -/
theorem markName_not_read_back :
    WellFormed (ascii "a") (ascii "a.inp") (sampleRecord true) ∧
      (∃ trace ∈ parseSegment noConversion
          { inpEntryName := ascii "a.inp", archiveName := ascii "a",
            bytes := ({ last := some (sampleRecord true) } : Layout).bytes },
        trace.records ≠ [(sampleRecord true).record]) ∧
      ∃ trace ∈ parseSegment noConversion
          { inpEntryName := ascii "a.inp", archiveName := ascii "a",
            bytes := ({ last := some emptyGenreRecord } : Layout).bytes },
        trace.records ≠ [emptyGenreRecord.record] :=
  ⟨sampleRecord_wellFormed true, by decide, by decide⟩

end InpxWebReader.Inpx
