import InpxWebReader.Foundation.Exception
import InpxWebReader.Foundation.Sha256

/-!
# INPX snapshots

An `.inpx` file is a ZIP archive. Each of its `.inp` entries is a segment, and a segment lists the
records of one payload archive. The reading of one segment is a `ParseTrace`: what the parser
hands out on the way, in order, and how it ends.
-/

namespace InpxWebReader.Inpx

open Foundation

structure InpxAuthor where
  displayName : Bytes := []
  lastName : Bytes := []
  firstName : Bytes := []
  middleName : Bytes := []
  deriving DecidableEq, Repr

structure InpxRecord where
  authors : List InpxAuthor := []
  genres : List Bytes := []
  keywords : List Bytes := []
  title : Bytes := []
  series : Option Bytes := none
  seriesNumber : Option Int := none
  fileName : Bytes := []
  fileSizeBytes : Nat := 0
  libId : Bytes := []
  deleted : Bool := false
  fileExtension : Bytes := ascii "fb2"
  dateAdded : Option Bytes := none
  language : Bytes := []
  inpEntryName : Bytes := []
  archiveName : Bytes := []
  entryName : Bytes := []
  deriving DecidableEq, Repr

/-- Is this a record of a book the reader can open? -/
def InpxRecord.isFb2 (r : InpxRecord) : Bool := toLowerAscii r.fileExtension = ascii "fb2"

structure InpxSegmentPayload where
  inpEntryName : Bytes := []
  archiveName : Bytes := []
  fingerprint : Bytes := []
  bytes : Bytes := []
  deriving DecidableEq, Repr

structure InpxWarning where
  message : Bytes := []
  inpEntryName : Bytes := []
  lineNumber : Nat := 0
  recordSkipped : Bool := false
  deriving DecidableEq, Repr

structure InpxParseSummary where
  inpEntryCount : Nat := 0
  totalRecords : Nat := 0
  parsedRecords : Nat := 0
  skippedRecords : Nat := 0
  deletedRecords : Nat := 0
  warningCount : Nat := 0
  deriving DecidableEq, Repr

/-- One call out of `ParseSegment`. -/
inductive ParseEvent
  | checkpoint
  | record (r : InpxRecord)
  | warning (w : InpxWarning)
  deriving DecidableEq, Repr

/-- What `ParseSegment` does on one segment when none of its callbacks throws. -/
structure ParseTrace where
  events : List ParseEvent := []
  outcome : Except Failure InpxParseSummary

namespace ParseTrace

/-- The records the parser hands out, in order. -/
def records (trace : ParseTrace) : List InpxRecord :=
  trace.events.filterMap fun
    | .record r => some r
    | _ => none

/-- The warnings the parser hands out, in order. -/
def warnings (trace : ParseTrace) : List InpxWarning :=
  trace.events.filterMap fun
    | .warning w => some w
    | _ => none

end ParseTrace

/-- `CInpxParser::ParseSegment`: a deterministic reading of a segment. -/
abbrev Parser := InpxSegmentPayload → ParseTrace

/-- An entry of the ZIP archive, as libzip answers for it. -/
structure ZipEntry where
  name : Bytes
  size : Nat
  text : Call Bytes

/-- `BuildArchiveName`: the entry's file name without a final `.inp`. -/
def buildArchiveName (inpEntryName : Bytes) : Bytes :=
  let fileName := (inpEntryName.reverse.takeWhile fun b => !(ascii "/\\").contains b).reverse
  if endsWithAsciiInsensitive fileName (ascii ".inp") then fileName.take (fileName.length - 4)
  else fileName

/-- The payload of a segment of the given name and bytes. -/
def segmentPayload (sha : Sha256) (name bytes : Bytes) : InpxSegmentPayload where
  inpEntryName := name
  archiveName := buildArchiveName name
  fingerprint := sha.computeBytes bytes
  bytes := bytes

end InpxWebReader.Inpx
