import InpxWebReader.Inpx.Parser
import InpxWebReader.Library.Program

/-!
# The text that leaves the parser

Cutting and trimming keep UTF-8 what it is, so a record is UTF-8 exactly if the fields it is made
of are. Every way to decode a segment gives UTF-8, but for one: the bytes behind a byte order mark
are taken as they are.
-/

namespace InpxWebReader.Inpx

open Foundation Unicode

def InpxAuthor.texts (a : InpxAuthor) : List Bytes :=
  [a.displayName, a.lastName, a.firstName, a.middleName]

def InpxRecord.texts (r : InpxRecord) : List Bytes :=
  [r.inpEntryName, r.archiveName, r.fileName, r.libId, r.fileExtension, r.entryName, r.title,
    r.language] ++ r.series.toList ++ r.dateAdded.toList ++ r.authors.flatMap InpxAuthor.texts
    ++ r.genres ++ r.keywords

/-- The fields whose text goes into the record. -/
def InpFields.usedTexts (f : InpFields) : List Bytes :=
  [f.fileName, f.libId, f.fileExt, f.title, f.language, f.series, f.dateAdded, f.authors,
    f.genres, f.keywords]

/-! ### Pieces of a field -/

theorem ascii_lt_of_isAsciiBlank {b : UInt8} (h : isAsciiBlank b = true) : b < 0x80 :=
  UInt8.lt_of_le_of_lt (of_decide_eq_true h) (by decide)

theorem trimAsciiWhitespace_valid {value : Bytes} :
    ValidUtf8 (trimAsciiWhitespace value) ↔ ValidUtf8 value :=
  (ValidUtf8.rdropWhile_ascii (fun _ => ascii_lt_of_isAsciiBlank) _).trans
    (ValidUtf8.dropWhile_ascii (fun _ => ascii_lt_of_isAsciiBlank) _)

theorem splitViews_eq_some {value : Bytes} {separator : UInt8} {maxParts : Nat}
    {parts : List Bytes} (h : splitViews value separator maxParts = some parts) :
    parts = value.splitOn separator ∧ parts.length ≤ maxParts := by
  rw [splitViews] at h
  split at h
  · injection h with h
    subst h
    exact ⟨rfl, ‹_›⟩
  · cases h

/-- Parts that are blank are ASCII, and may be left out. -/
theorem forall_trimmed_valid {parts : List Bytes} :
    (∀ part ∈ (parts.map trimAsciiWhitespace).filter fun part => part ≠ [], ValidUtf8 part) ↔
      ∀ part ∈ parts, ValidUtf8 part := by
  simp only [List.mem_filter, List.mem_map, decide_eq_true_eq]
  constructor
  · intro h part hpart
    rw [← trimAsciiWhitespace_valid]
    by_cases hblank : trimAsciiWhitespace part = []
    · rw [hblank]
      exact .nil
    · exact h _ ⟨⟨part, hpart, rfl⟩, hblank⟩
  · rintro h _ ⟨⟨part, hpart, rfl⟩, _⟩
    exact trimAsciiWhitespace_valid.mpr (h part hpart)

theorem splitNonEmptyUtf8_valid {value : Bytes} {separator : UInt8} {maxParts : Nat}
    {parts : List Bytes} (hascii : separator < 0x80)
    (h : splitNonEmptyUtf8 value separator maxParts = some parts) :
    (∀ part ∈ parts, ValidUtf8 part) ↔ ValidUtf8 value := by
  obtain ⟨raw, hraw, rfl⟩ := Option.map_eq_some_iff.mp h
  rw [forall_trimmed_valid, (splitViews_eq_some hraw).1, ← ValidUtf8.splitOn_ascii hascii]

theorem appendName_valid {displayName name : Bytes} (hd : ValidUtf8 displayName)
    (hn : ValidUtf8 name) : ValidUtf8 (appendName displayName name) := by
  rw [appendName]
  split
  · exact hd
  · split
    · exact hn
    · exact (hd.append (.of_all_ascii (by decide))).append hn

theorem parseAuthor_valid {rawAuthor : Bytes} {a : InpxAuthor} (h : parseAuthor rawAuthor = some a) :
    (∀ text ∈ a.texts, ValidUtf8 text) ↔ ValidUtf8 rawAuthor := by
  obtain ⟨parts, hparts, rfl⟩ := Option.map_eq_some_iff.mp h
  obtain ⟨heq, hlength⟩ := splitViews_eq_some hparts
  have hraw : ValidUtf8 rawAuthor ↔ ∀ part ∈ parts, ValidUtf8 part := by
    rw [heq]
    exact ValidUtf8.splitOn_ascii (by decide)
  constructor
  · intro htexts
    rw [hraw]
    intro part hpart
    obtain ⟨n, hn, rfl⟩ := List.mem_iff_getElem.mp hpart
    have hn3 : n < 3 := lt_of_lt_of_le hn hlength
    have hget : parts.getD n [] = parts[n] := by
      rw [List.getD_eq_getElem?_getD, List.getElem?_eq_getElem hn]
      rfl
    rw [← trimAsciiWhitespace_valid, ← hget]
    have hmem : n = 0 ∨ n = 1 ∨ n = 2 := by omega
    rcases hmem with rfl | rfl | rfl
    · exact htexts _ (by simp [InpxAuthor.texts])
    · exact htexts _ (by simp [InpxAuthor.texts])
    · exact htexts _ (by simp [InpxAuthor.texts])
  · intro hvalid
    have hpart : ∀ n, ValidUtf8 (trimAsciiWhitespace (parts.getD n [])) := by
      intro n
      rw [trimAsciiWhitespace_valid]
      rcases Nat.lt_or_ge n parts.length with hn | hn
      · rw [List.getD_eq_getElem?_getD, List.getElem?_eq_getElem hn]
        exact hraw.mp hvalid _ (List.getElem_mem hn)
      · rw [List.getD_eq_getElem?_getD, List.getElem?_eq_none hn]
        exact .nil
    intro text htext
    simp only [InpxAuthor.texts, List.mem_cons, List.not_mem_nil, or_false] at htext
    rcases htext with rfl | rfl | rfl | rfl
    · split
      · exact trimAsciiWhitespace_valid.mpr hvalid
      · exact appendName_valid (appendName_valid (appendName_valid .nil (hpart 1)) (hpart 2))
          (hpart 0)
    · exact hpart 0
    · exact hpart 1
    · exact hpart 2

theorem orSkip_eq_ok {α : Type} {value : Option α} {message : String} {a : α}
    (h : orSkip value message = .ok a) : value = some a := by
  cases value with
  | none => cases h
  | some b =>
    injection h with h
    rw [h]

theorem mapM_parseAuthor_valid {raw : List Bytes} {authors : List InpxAuthor}
    (h : raw.mapM parseAuthor = some authors) :
    (∀ a ∈ authors, ∀ text ∈ a.texts, ValidUtf8 text) ↔ ∀ text ∈ raw, ValidUtf8 text := by
  induction raw generalizing authors with
  | nil =>
    rw [List.mapM_nil] at h
    injection h with h
    subst h
    simp
  | cons first raw ih =>
    rw [List.mapM_cons] at h
    obtain ⟨a, ha, h⟩ := Option.bind_eq_some_iff.mp h
    obtain ⟨rest, hrest, h⟩ := Option.bind_eq_some_iff.mp h
    injection h with h
    subst h
    rw [List.forall_mem_cons, List.forall_mem_cons, parseAuthor_valid ha, ih hrest]

theorem parseAuthors_valid {field : Bytes} {authors : List InpxAuthor}
    (h : parseAuthors field = .ok authors) :
    (∀ a ∈ authors, ∀ text ∈ a.texts, ValidUtf8 text) ↔ ValidUtf8 field := by
  obtain ⟨raw, hraw, hauthors⟩ := Program.except_bind_eq_ok h
  obtain ⟨rfl, _⟩ := splitViews_eq_some (orSkip_eq_ok hraw)
  rw [mapM_parseAuthor_valid (orSkip_eq_ok hauthors), forall_trimmed_valid,
    ← ValidUtf8.splitOn_ascii (by decide)]

/-! ### A record -/

/-- What a line has to be to give a record, and which one it gives. -/
theorem parseFields_eq_ok {archiveName inpEntryName : Bytes} {f : InpFields} {r : InpxRecord}
    (h : parseFields archiveName inpEntryName f = .ok r) :
    ∃ fileSizeBytes deleted authors genres keywords,
      parseAuthors f.authors = .ok authors ∧
      splitNonEmptyUtf8 f.genres (asciiByte ':') maxGenresPerRecord = some genres ∧
      splitNonEmptyUtf8 f.keywords (asciiByte ':') maxKeywordsPerRecord = some keywords ∧
      r = buildRecord archiveName inpEntryName f (trimAsciiWhitespace f.fileName)
        (trimAsciiWhitespace f.libId) fileSizeBytes deleted authors genres keywords := by
  have hpresent : ∀ {text name : Bytes}, present text = some name → name = text := by
    intro text name hp
    rw [present] at hp
    split at hp
    · cases hp
    · injection hp with hp
      exact hp.symm
  obtain ⟨fileName, hfile, h⟩ := Program.except_bind_eq_ok h
  obtain ⟨libId, hlib, h⟩ := Program.except_bind_eq_ok h
  obtain ⟨fileSizeBytes, _, h⟩ := Program.except_bind_eq_ok h
  obtain ⟨deleted, _, h⟩ := Program.except_bind_eq_ok h
  obtain ⟨_, _, h⟩ := Program.except_bind_eq_ok h
  obtain ⟨authors, hauthors, h⟩ := Program.except_bind_eq_ok h
  obtain ⟨genres, hgenres, h⟩ := Program.except_bind_eq_ok h
  obtain ⟨keywords, hkeywords, h⟩ := Program.except_bind_eq_ok h
  injection h with h
  refine ⟨fileSizeBytes, deleted, authors, genres, keywords, hauthors, orSkip_eq_ok hgenres,
    orSkip_eq_ok hkeywords, ?_⟩
  rw [← hpresent (orSkip_eq_ok hfile), ← hpresent (orSkip_eq_ok hlib)]
  exact h.symm

theorem textOr_valid {text default : Bytes} (hdefault : ValidUtf8 default) :
    ValidUtf8 (textOr text default) ↔ ValidUtf8 text := by
  rw [textOr]
  split
  · rename_i hblank
    exact ⟨fun _ => hblank ▸ .nil, fun _ => hdefault⟩
  · exact Iff.rfl

theorem textOrNone_valid {field : Bytes} :
    (∀ text ∈ (textOrNone field).toList, ValidUtf8 text) ↔ ValidUtf8 field := by
  rw [textOrNone, ← @trimAsciiWhitespace_valid field]
  split
  · rename_i hblank
    rw [hblank]
    exact ⟨fun _ => .nil, fun _ _ h => by cases h⟩
  · simp

theorem toLowerAscii_valid {value : Bytes} : ValidUtf8 (toLowerAscii value) ↔ ValidUtf8 value := by
  refine ValidUtf8.map_ascii (fun b hb => ?_) fun b hb => ?_
  · rw [toLowerAsciiCharacter]
    split
    · rename_i hupper
      rw [UInt8.lt_iff_toNat_lt] at hb ⊢
      have hle := UInt8.le_iff_toNat_le.mp hupper.2
      simp only [UInt8.toNat_add, UInt8.toNat_ofNat] at hb hle ⊢
      omega
    · exact hb
  · refine if_neg fun hupper => hb ?_
    exact UInt8.lt_of_le_of_lt hupper.2 (by decide)

/-- A record is UTF-8 exactly if the fields it is made of are. -/
theorem parseFields_valid {archiveName inpEntryName : Bytes} {f : InpFields} {r : InpxRecord}
    (harchive : ValidUtf8 archiveName) (hentry : ValidUtf8 inpEntryName)
    (h : parseFields archiveName inpEntryName f = .ok r) :
    (∀ text ∈ r.texts, ValidUtf8 text) ↔ ∀ text ∈ f.usedTexts, ValidUtf8 text := by
  obtain ⟨fileSizeBytes, deleted, authors, genres, keywords, hauthors, hgenres, hkeywords, rfl⟩ :=
    parseFields_eq_ok h
  have hauthor := parseAuthors_valid hauthors
  have hgenre := splitNonEmptyUtf8_valid (by decide) hgenres
  have hkeyword := splitNonEmptyUtf8_valid (by decide) hkeywords
  have hseries := @textOrNone_valid f.series
  have hdate := @textOrNone_valid f.dateAdded
  have hext : ValidUtf8 (textOr (toLowerAscii (trimAsciiWhitespace f.fileExt)) (ascii "fb2")) ↔
      ValidUtf8 f.fileExt :=
    (textOr_valid (.of_all_ascii (by decide))).trans
      (toLowerAscii_valid.trans trimAsciiWhitespace_valid)
  have hentryName : ValidUtf8 (trimAsciiWhitespace f.fileName ++ ascii "."
      ++ textOr (toLowerAscii (trimAsciiWhitespace f.fileExt)) (ascii "fb2")) ↔
      ValidUtf8 f.fileName ∧ ValidUtf8 f.fileExt := by
    have hdot : ascii "." = [0x2E] := by decide
    rw [hdot, List.append_assoc, List.singleton_append, ValidUtf8.append_ascii (by decide),
      trimAsciiWhitespace_valid, hext]
  have htitle : ValidUtf8 f.fileName →
      (ValidUtf8 (textOr (trimAsciiWhitespace f.title) (trimAsciiWhitespace f.fileName)) ↔
        ValidUtf8 f.title) := fun hfile =>
    (textOr_valid (trimAsciiWhitespace_valid.mpr hfile)).trans trimAsciiWhitespace_valid
  simp only [InpxRecord.texts, InpFields.usedTexts, buildRecord, hentryName, List.forall_mem_append,
    List.forall_mem_cons, List.forall_mem_flatMap, trimAsciiWhitespace_valid, hseries, hdate,
    hauthor, hgenre, hkeyword, hext, List.not_mem_nil, false_imp_iff, implies_true, and_true]
  constructor
  · rintro ⟨⟨⟨⟨⟨⟨_, _, hfile, hlib, hfileExt, _, htitle', hlang⟩, hser⟩, hadd⟩, haut⟩, hgen⟩, hkey⟩
    exact ⟨hfile, hlib, hfileExt, (htitle hfile).mp htitle', hlang, hser, hadd, haut, hgen, hkey⟩
  · rintro ⟨hfile, hlib, hfileExt, htitle', hlang, hser, hadd, haut, hgen, hkey⟩
    exact ⟨⟨⟨⟨⟨⟨hentry, harchive, hfile, hlib, hfileExt, ⟨hfile, hfileExt⟩,
      (htitle hfile).mpr htitle', hlang⟩, hser⟩, hadd⟩, haut⟩, hgen⟩, hkey⟩

/-! ### A segment -/

def recordOfLine (archiveName inpEntryName rawLine : Bytes) : Option InpxRecord :=
  (parseRecordLine archiveName inpEntryName (withoutCarriageReturn rawLine)).toOption.map Prod.fst

theorem ParseTrace.records_after (trace : ParseTrace) (events : List ParseEvent) :
    (trace.after events).records
      = (ParseTrace.mk events (.error .nonStandard)).records ++ trace.records := by
  simp only [ParseTrace.after, ParseTrace.records, List.filterMap_append]

theorem parseRecordLine_nil (archiveName inpEntryName : Bytes) :
    (parseRecordLine archiveName inpEntryName []).toOption = none := rfl

/-- A segment that is read to its end hands out the record of every line that is one, in order. -/
theorem parseLines_records {archiveName inpEntryName : Bytes} {lines : List Bytes}
    {lineNumber : Nat} {summary result : InpxParseSummary}
    (h : (parseLines archiveName inpEntryName lines lineNumber summary).outcome = .ok result) :
    (parseLines archiveName inpEntryName lines lineNumber summary).records
      = lines.filterMap (recordOfLine archiveName inpEntryName) := by
  induction lines generalizing lineNumber summary with
  | nil => rfl
  | cons rawLine rest ih =>
    rw [parseLines] at h ⊢
    rw [List.filterMap_cons, recordOfLine]
    split
    · rename_i hblank
      rw [if_pos hblank] at h
      rw [hblank, parseRecordLine_nil]
      exact ih h
    · rename_i hblank
      rw [if_neg hblank] at h
      split
      · rename_i hlong
        rw [if_pos hlong] at h
        cases h
      · rename_i hlong
        rw [if_neg hlong] at h
        cases hparse : parseRecordLine archiveName inpEntryName (withoutCarriageReturn rawLine) with
        | error message =>
          rw [hparse] at h
          rw [ParseTrace.records_after]
          exact ih h
        | ok r =>
          obtain ⟨record, invalidSeriesNumber⟩ := r
          rw [hparse] at h
          dsimp only
          rw [ParseTrace.records_after, ih h]
          cases invalidSeriesNumber <;> rfl

theorem recordOfLine_eq_some {archiveName inpEntryName rawLine : Bytes} {r : InpxRecord} :
    recordOfLine archiveName inpEntryName rawLine = some r ↔
      ∃ f, InpFields.ofLine (withoutCarriageReturn rawLine) = some f ∧
        parseFields archiveName inpEntryName f = .ok r := by
  rw [recordOfLine]
  cases hf : InpFields.ofLine (withoutCarriageReturn rawLine) with
  | none => simp [parseRecordLine, hf, orSkip, bind, Except.bind, Except.toOption]
  | some f =>
    cases hr : parseFields archiveName inpEntryName f with
    | error message => simp [parseRecordLine, hf, hr, orSkip, bind, Except.bind, Except.toOption]
    | ok r' =>
      simp [parseRecordLine, hf, hr, orSkip, bind, Except.bind, pure, Except.pure, Except.toOption]

theorem withoutCarriageReturn_valid {line : Bytes} (h : ValidUtf8 line) :
    ValidUtf8 (withoutCarriageReturn line) := by
  rw [withoutCarriageReturn]
  split
  · rename_i hlast
    have hsplit := List.dropLast_append_getLast? (asciiByte '\r') hlast
    rw [← hsplit] at h
    exact ((ValidUtf8.append_ascii (by decide)).mp h).1
  · exact h

theorem InpFields.toList_of_ofLine {line : Bytes} {f : InpFields}
    (h : InpFields.ofLine line = some f) : f.toList = line.splitOn fieldSeparator := by
  obtain ⟨parts, hparts, hf⟩ := Option.bind_eq_some_iff.mp h
  rw [← (splitViews_eq_some hparts).1]
  rw [InpFields.ofList.eq_def] at hf
  split at hf
  · injection hf with hf
    subst hf
    rfl
  · cases hf

theorem InpFields.mem_toList_of_mem_usedTexts {f : InpFields} {text : Bytes}
    (h : text ∈ f.usedTexts) : text ∈ f.toList := by
  simp only [InpFields.usedTexts, InpFields.toList, List.mem_cons] at h ⊢
  grind

/-- In every line that is a record, the fields that go into the record are UTF-8. -/
def RecordFieldsValid (segment : InpxSegmentPayload) (text : Bytes) : Prop :=
  ∀ line ∈ text.splitOn (asciiByte '\n'), ∀ f,
    InpFields.ofLine (withoutCarriageReturn line) = some f →
    (parseFields segment.archiveName segment.inpEntryName f).isOk = true →
    ∀ field ∈ f.usedTexts, isValidUtf8 field = true

/-- The records of a text are UTF-8 exactly if its record lines are. -/
theorem filterMap_recordOfLine_valid {segment : InpxSegmentPayload} {text : Bytes}
    (harchive : ValidUtf8 segment.archiveName) (hentry : ValidUtf8 segment.inpEntryName) :
    (∀ r ∈ (text.splitOn (asciiByte '\n')).filterMap
        (recordOfLine segment.archiveName segment.inpEntryName),
      ∀ field ∈ r.texts, ValidUtf8 field) ↔ RecordFieldsValid segment text := by
  constructor
  · intro h line hline f hf hok field hfield
    cases hr : parseFields segment.archiveName segment.inpEntryName f with
    | error message =>
      rw [hr] at hok
      cases hok
    | ok r =>
      have hmem : r ∈ (text.splitOn (asciiByte '\n')).filterMap
          (recordOfLine segment.archiveName segment.inpEntryName) :=
        List.mem_filterMap.mpr ⟨line, hline, recordOfLine_eq_some.mpr ⟨f, hf, hr⟩⟩
      exact isValidUtf8_iff.mpr ((parseFields_valid harchive hentry hr).mp (h r hmem) field hfield)
  · intro h r hr
    obtain ⟨line, hline, hrecord⟩ := List.mem_filterMap.mp hr
    obtain ⟨f, hf, hparse⟩ := recordOfLine_eq_some.mp hrecord
    have hok : (parseFields segment.archiveName segment.inpEntryName f).isOk = true := by
      rw [hparse]
      rfl
    exact (parseFields_valid harchive hentry hparse).mpr fun field hfield =>
      isValidUtf8_iff.mp (h line hline f hf hok field hfield)

theorem recordFieldsValid_of_valid {segment : InpxSegmentPayload} {text : Bytes}
    (h : ValidUtf8 text) : RecordFieldsValid segment text := by
  intro line hline f hf _ field hfield
  have hline' : ValidUtf8 (withoutCarriageReturn line) :=
    withoutCarriageReturn_valid ((ValidUtf8.splitOn_ascii (by decide)).mp h line hline)
  have hmem := InpFields.mem_toList_of_mem_usedTexts hfield
  rw [InpFields.toList_of_ofLine hf] at hmem
  exact isValidUtf8_iff.mpr ((ValidUtf8.splitOn_ascii (by decide)).mp hline' field hmem)

/-- Whatever is not behind a UTF-8 byte order mark is decoded to UTF-8. -/
theorem decodeInpPayloadToUtf8_valid {iconv : Iconv} (hiconv : iconv.WritesUtf8)
    {bytes text : Bytes} (hbom : utf8Bom.isPrefixOf bytes = false)
    (h : decodeInpPayloadToUtf8 iconv bytes = .ok text) : ValidUtf8 text := by
  rw [decodeInpPayloadToUtf8, hbom, if_neg Bool.false_ne_true] at h
  split at h
  · exact utf16ToUtf8_valid hiconv h
  · split at h
    · exact utf16ToUtf8_valid hiconv h
    · split at h
      · rename_i hvalid
        injection h with h
        exact h ▸ isValidUtf8_iff.mp hvalid
      · exact decodeLegacyCyrillicToUtf8_valid hiconv h

/-- The text that leaves the parser is UTF-8 exactly if no record line behind a UTF-8 byte order
mark has a field that is not. -/
theorem record_texts_valid_iff {iconv : Iconv} (hiconv : iconv.WritesUtf8)
    {segment : InpxSegmentPayload} {trace : ParseTrace}
    (harchive : isValidUtf8 segment.archiveName = true)
    (hentry : isValidUtf8 segment.inpEntryName = true)
    (htrace : parseSegment iconv segment = some trace) (haccepted : trace.outcome.isOk = true) :
    (∀ r ∈ trace.records, ∀ text ∈ r.texts, isValidUtf8 text = true) ↔
      ∀ body, segment.bytes = utf8Bom ++ body → RecordFieldsValid segment body := by
  have hentry := isValidUtf8_iff.mp hentry
  have harchive := isValidUtf8_iff.mp harchive
  simp only [isValidUtf8_iff]
  rw [parseSegment] at htrace
  cases htext : decodeInpPayloadToUtf8 iconv segment.bytes with
  | error noResult =>
    rw [htext] at htrace
    cases noResult with
    | throws failure =>
      injection htrace with htrace
      rw [← htrace] at haccepted
      cases haccepted
    | loops => cases htrace
  | ok text =>
    rw [htext] at htrace
    injection htrace with htrace
    subst htrace
    have hrecords : (parseLines segment.archiveName segment.inpEntryName
        (text.splitOn (asciiByte '\n')) 1 { inpEntryCount := 1 }).records
        = (text.splitOn (asciiByte '\n')).filterMap
          (recordOfLine segment.archiveName segment.inpEntryName) := by
      cases houtcome : (parseLines segment.archiveName segment.inpEntryName
          (text.splitOn (asciiByte '\n')) 1 { inpEntryCount := 1 }).outcome with
      | error failure =>
        rw [houtcome] at haccepted
        cases haccepted
      | ok summary => exact parseLines_records houtcome
    rw [hrecords, filterMap_recordOfLine_valid harchive hentry]
    cases hbom : utf8Bom.isPrefixOf segment.bytes with
    | true =>
      -- the bytes behind the mark are the text
      obtain ⟨body, hbody⟩ := List.isPrefixOf_iff_prefix.mp hbom
      rw [decodeInpPayloadToUtf8, hbom, if_pos rfl, ← hbody] at htext
      injection htext with htext
      have hbody' : text = body := htext.symm
      subst hbody'
      refine ⟨fun h body' hb => ?_, fun h => h text hbody.symm⟩
      rw [← hbody] at hb
      exact List.append_cancel_left hb ▸ h
    | false =>
      refine iff_of_true (recordFieldsValid_of_valid (decodeInpPayloadToUtf8_valid hiconv hbom htext))
        fun body hb => ?_
      have hpre := List.isPrefixOf_iff_prefix.mpr (⟨body, hb.symm⟩ : utf8Bom <+: segment.bytes)
      rw [hbom] at hpre
      cases hpre

/-- A segment of one record with the given title, behind a byte order mark. -/
def markedSegment (title : Bytes) : InpxSegmentPayload where
  inpEntryName := ascii "a.inp"
  archiveName := ascii "a"
  bytes := utf8Bom ++ [fieldSeparator].intercalate
    [ascii "Doe,John,", ascii "sf", title, [], [], ascii "1", ascii "10", ascii "7", ascii "0",
      ascii "fb2", [], ascii "en", [], [], []]

theorem markedShip_texts_valid : ∃ trace,
    parseSegment noConversion (markedSegment (ascii "Ship")) = some trace ∧
      ((∀ r ∈ trace.records, ∀ text ∈ r.texts, isValidUtf8 text = true) ↔
        ∀ body, (markedSegment (ascii "Ship")).bytes = utf8Bom ++ body →
          RecordFieldsValid (markedSegment (ascii "Ship")) body) :=
  ⟨_, rfl, record_texts_valid_iff noConversion_writesUtf8 (by decide) (by decide) rfl (by decide)⟩

/-- The title `0xFF` is handed out as it is. -/
theorem markedByte_texts_not_valid :
    ∃ trace ∈ parseSegment noConversion (markedSegment [0xFF]), trace.outcome.isOk = true ∧
      ¬∀ r ∈ trace.records, ∀ text ∈ r.texts, isValidUtf8 text = true := by
  decide

end InpxWebReader.Inpx
