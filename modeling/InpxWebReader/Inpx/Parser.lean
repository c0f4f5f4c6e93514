import InpxWebReader.Foundation.LegacyEncoding
import InpxWebReader.Inpx.Record

/-!
# The INP parser

A segment is text in one of several encodings, one record a line, fifteen fields a record. A line
that is not a record is skipped with a warning; a field that is only wrong in itself is dropped
with one.
-/

namespace InpxWebReader.Inpx

open Foundation Unicode

/-! ### Fields -/

def fieldSeparator : UInt8 := 0x04

def maxInpRecordLineBytes : Nat := 1024 * 1024

def maxAuthorsPerRecord : Nat := 256

def maxAuthorNameParts : Nat := 3

/-- `GMaxGenresPerRecord` and `GMaxKeywordsPerRecord`. -/
def maxGenresPerRecord : Nat := 512
def maxKeywordsPerRecord : Nat := 512

/-- `GMaxIntegerFieldBytes` and `GMaxFileExtensionBytes`. -/
def maxIntegerFieldBytes : Nat := 32
def maxFileExtensionBytes : Nat := 32

/-- The bytes that `TrimAsciiWhitespace` drops. -/
def isAsciiBlank (b : UInt8) : Bool := b ≤ 0x20

def trimAsciiWhitespace (value : Bytes) : Bytes :=
  (value.dropWhile isAsciiBlank).rdropWhile isAsciiBlank

/-- `SplitViews`: the parts between the separators, if there are at most `maxParts`. -/
def splitViews (value : Bytes) (separator : UInt8) (maxParts : Nat) : Option (List Bytes) :=
  if (value.splitOn separator).length ≤ maxParts then some (value.splitOn separator) else none

def splitNonEmptyUtf8 (value : Bytes) (separator : UInt8) (maxParts : Nat) :
    Option (List Bytes) :=
  (splitViews value separator maxParts).map fun parts =>
    (parts.map trimAsciiWhitespace).filter fun part => part ≠ []

/-- `TryParseInteger<std::uint64_t>`. -/
def tryParseUInt64 (value : Bytes) : Option Nat :=
  if value.length ≤ maxIntegerFieldBytes then parseUnsigned (2 ^ 64) value else none

/-- `TryParseInteger<int>`: `std::from_chars` reads a minus sign and no plus sign. -/
def tryParseInt (value : Bytes) : Option Int :=
  if value.length ≤ maxIntegerFieldBytes then
    if value.head? = some (asciiByte '-') then
      (parseUnsigned (2 ^ 31 + 1) value.tail).map fun n => -(n : Int)
    else (parseUnsigned (2 ^ 31) value).map fun n => (n : Int)
  else none

structure InpFields where
  authors : Bytes
  genres : Bytes
  title : Bytes
  series : Bytes
  seriesNumber : Bytes
  fileName : Bytes
  fileSize : Bytes
  libId : Bytes
  deleted : Bytes
  fileExt : Bytes
  dateAdded : Bytes
  language : Bytes
  ignored : Bytes
  keywords : Bytes
  reserved : Bytes

def InpFields.toList (f : InpFields) : List Bytes :=
  [f.authors, f.genres, f.title, f.series, f.seriesNumber, f.fileName, f.fileSize, f.libId,
    f.deleted, f.fileExt, f.dateAdded, f.language, f.ignored, f.keywords, f.reserved]

/-- `GExpectedFieldCount` fields, no more and no fewer. -/
def InpFields.ofList : List Bytes → Option InpFields
  | [authors, genres, title, series, seriesNumber, fileName, fileSize, libId, deleted, fileExt,
      dateAdded, language, ignored, keywords, reserved] =>
    some ⟨authors, genres, title, series, seriesNumber, fileName, fileSize, libId, deleted,
      fileExt, dateAdded, language, ignored, keywords, reserved⟩
  | _ => none

/-- The fields of a line, if there are fifteen. -/
def InpFields.ofLine (line : Bytes) : Option InpFields :=
  (splitViews line fieldSeparator 15).bind InpFields.ofList

/-! ### Records -/

def appendName (displayName name : Bytes) : Bytes :=
  if name = [] then displayName
  else if displayName = [] then name
  else displayName ++ ascii " " ++ name

/-- The display name made of the parts. -/
def displayNameOf (firstName middleName lastName : Bytes) : Bytes :=
  appendName (appendName (appendName [] firstName) middleName) lastName

def parseAuthor (rawAuthor : Bytes) : Option InpxAuthor :=
  (splitViews rawAuthor (asciiByte ',') maxAuthorNameParts).map fun parts =>
    let part := fun n => trimAsciiWhitespace (parts.getD n [])
    let displayName := displayNameOf (part 1) (part 2) (part 0)
    { displayName := if displayName = [] then trimAsciiWhitespace rawAuthor else displayName
      lastName := part 0
      firstName := part 1
      middleName := part 2 }

/-- A part of a record without which the line is skipped. -/
def orSkip {α : Type} (value : Option α) (message : String) : Except Bytes α :=
  match value with
  | some a => .ok a
  | none => .error (ascii message)

def parseAuthors (field : Bytes) : Except Bytes (List InpxAuthor) := do
  let authorsRaw ← orSkip (splitViews field (asciiByte ':') maxAuthorsPerRecord)
    "Skipped malformed INPX record: too many authors."
  orSkip (((authorsRaw.map trimAsciiWhitespace).filter fun raw => raw ≠ []).mapM parseAuthor)
    "Skipped malformed INPX record: author has more than three name components."

/-- The text of a field, or nothing where it is blank. -/
def textOrNone (field : Bytes) : Option Bytes :=
  if trimAsciiWhitespace field = [] then none else some (trimAsciiWhitespace field)

/-- A text, or another where it is empty. -/
def textOr (text default : Bytes) : Bytes := if text = [] then default else text

/-- The deletion flag; a blank one is `0`. -/
def parseDeleted (field : Bytes) : Option Int :=
  if trimAsciiWhitespace field = [] then some 0 else tryParseInt (trimAsciiWhitespace field)

def present (text : Bytes) : Option Bytes := if text = [] then none else some text

def hasInvalidSeriesNumber (f : InpFields) : Bool :=
  trimAsciiWhitespace f.seriesNumber ≠ [] &&
    (tryParseInt (trimAsciiWhitespace f.seriesNumber)).isNone

/-- The record of a line whose fields are all there. -/
def buildRecord (archiveName inpEntryName : Bytes) (f : InpFields) (fileName libId : Bytes)
    (fileSizeBytes : Nat) (deleted : Int) (authors : List InpxAuthor)
    (genres keywords : List Bytes) : InpxRecord :=
  let fileExtension := textOr (toLowerAscii (trimAsciiWhitespace f.fileExt)) (ascii "fb2")
  { inpEntryName := inpEntryName
    archiveName := archiveName
    fileName := fileName
    fileSizeBytes := fileSizeBytes
    libId := libId
    deleted := deleted ≠ 0
    fileExtension := fileExtension
    entryName := fileName ++ ascii "." ++ fileExtension
    title := textOr (trimAsciiWhitespace f.title) fileName
    series := textOrNone f.series
    seriesNumber := tryParseInt (trimAsciiWhitespace f.seriesNumber)
    dateAdded := textOrNone f.dateAdded
    language := trimAsciiWhitespace f.language
    authors := authors
    genres := genres
    keywords := keywords }

/-- `ParseRecordLine` once the fields are apart: the record, or why the line is skipped. -/
def parseFields (archiveName inpEntryName : Bytes) (f : InpFields) : Except Bytes InpxRecord := do
  let fileName ← orSkip (present (trimAsciiWhitespace f.fileName))
    "Skipped malformed INPX record: file name or LibId is empty."
  let libId ← orSkip (present (trimAsciiWhitespace f.libId))
    "Skipped malformed INPX record: file name or LibId is empty."
  let fileSizeBytes ← orSkip (tryParseUInt64 (trimAsciiWhitespace f.fileSize))
    "Skipped malformed INPX record: FileSize is not a valid integer."
  let deleted ← orSkip (parseDeleted f.deleted)
    "Skipped malformed INPX record: Deleted is not a valid integer."
  let _ ← orSkip (if (trimAsciiWhitespace f.fileExt).length ≤ maxFileExtensionBytes then some ()
      else none)
    "Skipped malformed INPX record: FileExt exceeds 32 bytes."
  let authors ← parseAuthors f.authors
  let genres ← orSkip (splitNonEmptyUtf8 f.genres (asciiByte ':') maxGenresPerRecord)
    "Skipped malformed INPX record: too many genres."
  let keywords ← orSkip (splitNonEmptyUtf8 f.keywords (asciiByte ':') maxKeywordsPerRecord)
    "Skipped malformed INPX record: too many keywords."
  return buildRecord archiveName inpEntryName f fileName libId fileSizeBytes deleted authors
    genres keywords

/-- `ParseRecordLine`: the record, with whether its series number was dropped. -/
def parseRecordLine (archiveName inpEntryName line : Bytes) :
    Except Bytes (InpxRecord × Bool) := do
  let f ← orSkip (InpFields.ofLine line) "Skipped malformed INPX record: expected 15 fields."
  let record ← parseFields archiveName inpEntryName f
  return (record, hasInvalidSeriesNumber f)

/-! ### Segments -/

def utf8Bom : Bytes := [0xEF, 0xBB, 0xBF]

def decodeInpPayloadToUtf8 (iconv : Iconv) (bytes : Bytes) : Except NoResult Bytes :=
  if utf8Bom.isPrefixOf bytes then .ok (bytes.drop 3)
  else if ([0xFF, 0xFE] : Bytes).isPrefixOf bytes then
    utf16ToUtf8 iconv (ascii "UTF-16LE") (ascii "UTF-16 LE") bytes
  else if ([0xFE, 0xFF] : Bytes).isPrefixOf bytes then
    utf16ToUtf8 iconv (ascii "UTF-16BE") (ascii "UTF-16 BE") bytes
  else if isValidUtf8 bytes then .ok bytes
  else decodeLegacyCyrillicToUtf8 iconv bytes
    (ascii "Failed to decode INP payload from CP1251 or CP866.")

/-- A line without the carriage return of its end. -/
def withoutCarriageReturn (line : Bytes) : Bytes :=
  if line.getLast? = some (asciiByte '\r') then line.dropLast else line

/-- A reading that begins with the given calls. -/
def ParseTrace.after (trace : ParseTrace) (events : List ParseEvent) : ParseTrace :=
  { trace with events := events ++ trace.events }

/-- The text of the error for a line that is too long. -/
def lineTooLong (inpEntryName : Bytes) (lineNumber : Nat) : Failure :=
  .standard (ascii "INP entry '" ++ inpEntryName ++ ascii "' line " ++ decimal lineNumber
    ++ ascii " exceeds the " ++ decimal maxInpRecordLineBytes ++ ascii "-byte record limit.")

def InpxParseSummary.addRecord (summary : InpxParseSummary) (record : InpxRecord)
    (invalidSeriesNumber : Bool) : InpxParseSummary :=
  { summary with
    totalRecords := summary.totalRecords + 1
    parsedRecords := summary.parsedRecords + 1
    deletedRecords := summary.deletedRecords + if record.deleted then 1 else 0
    warningCount := summary.warningCount + if invalidSeriesNumber then 1 else 0 }

/-- The counts after a line that was skipped. -/
def InpxParseSummary.addSkipped (summary : InpxParseSummary) : InpxParseSummary :=
  { summary with
    totalRecords := summary.totalRecords + 1
    skippedRecords := summary.skippedRecords + 1
    warningCount := summary.warningCount + 1 }

def recordEvents (inpEntryName : Bytes) (lineNumber : Nat) (record : InpxRecord)
    (invalidSeriesNumber : Bool) : List ParseEvent :=
  (if invalidSeriesNumber then
    [.warning
      { message := ascii "INPX record has invalid SeriesNumber; value ignored."
        inpEntryName := inpEntryName
        lineNumber := lineNumber }]
  else []) ++ [.record record]

/-- The call for a line that is skipped. -/
def skippedEvent (inpEntryName message : Bytes) (lineNumber : Nat) : ParseEvent :=
  .warning
    { message := message
      inpEntryName := inpEntryName
      lineNumber := lineNumber
      recordSkipped := true }

/-- The loop of `ParseSegment` over the lines, from the given line number. -/
def parseLines (archiveName inpEntryName : Bytes) :
    List Bytes → Nat → InpxParseSummary → ParseTrace
  | [], _, summary => ⟨[], .ok summary⟩
  | rawLine :: rest, lineNumber, summary =>
    let line := withoutCarriageReturn rawLine
    if line = [] then parseLines archiveName inpEntryName rest (lineNumber + 1) summary
    else if maxInpRecordLineBytes < line.length then
      ⟨[], .error (lineTooLong inpEntryName lineNumber)⟩
    else
      match parseRecordLine archiveName inpEntryName line with
      | .error message =>
        (parseLines archiveName inpEntryName rest (lineNumber + 1) summary.addSkipped).after
          [skippedEvent inpEntryName message lineNumber]
      | .ok (record, invalidSeriesNumber) =>
        (parseLines archiveName inpEntryName rest (lineNumber + 1)
          (summary.addRecord record invalidSeriesNumber)).after
            (recordEvents inpEntryName lineNumber record invalidSeriesNumber)

/-- `ParseSegment`, run without a checkpoint callback; `none` where it never returns. -/
def parseSegment (iconv : Iconv) (segment : InpxSegmentPayload) : Option ParseTrace :=
  match decodeInpPayloadToUtf8 iconv segment.bytes with
  | .error .loops => none
  | .error (.throws failure) => some ⟨[], .error failure⟩
  | .ok decodedText => some
    (parseLines segment.archiveName segment.inpEntryName (decodedText.splitOn (asciiByte '\n')) 1
      { inpEntryCount := 1 })

end InpxWebReader.Inpx
