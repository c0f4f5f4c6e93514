import InpxWebReader.Domain.Metadata
import InpxWebReader.Foundation.Exception
import InpxWebReader.Library.Program
import InpxWebReader.Library.Table

/-!
# The catalog database

The tables of the schema as `Table`s with their unique columns. There is one INPX source, so the
column `source_id` is left out everywhere. The author, tag and genre tables have one shape and are
indexed by `EntityKind`. The full-text index is contentless: it keeps no rows that could be read
back, only what the commands sent to it amount to, so it is the list of those commands.

A statement that breaks a constraint throws; the transaction around it is then rolled back as a
whole, so what a failed statement leaves behind is never looked at.
-/

namespace InpxWebReader.Database

open Foundation Domain

/-! ### Rows -/

/-- `inpx_books`. -/
structure BookRow where
  id : Nat
  title : Bytes
  normalizedTitle : Bytes
  language : Bytes
  series : Option Bytes
  seriesIndex : Option UInt64
  publisher : Option Bytes
  year : Option Int
  isbn : Option Bytes
  description : Option Bytes
  identifier : Option Bytes
  coverPath : Option Bytes
  addedAtUtc : Bytes
  deriving DecidableEq

/-- The three kinds of named things a book is related to. -/
inductive EntityKind
  | authors
  | tags
  | genres
  deriving DecidableEq

/-- `authors`, `tags` and `genres`. -/
structure EntityRow where
  id : Nat
  normalizedName : Bytes
  displayName : Bytes
  deriving DecidableEq

/-- `book_authors`, `book_tags` and `book_genres`. Only the first has a column for the order. -/
structure LinkRow where
  bookId : Nat
  entityId : Nat
  order : Nat := 0
  deriving DecidableEq

def LinkRow.key (r : LinkRow) : Nat × Nat := (r.bookId, r.entityId)

/-- `inpx_sources`. -/
structure SourceRow where
  displayName : Bytes
  sourceFingerprint : Bytes
  lastScanStartedAtUtc : Option Bytes := none
  lastScanCompletedAtUtc : Option Bytes := none
  lastSeenSnapshotId : Option Bytes := none
  deriving DecidableEq

/-- `inpx_segments`. -/
structure SegmentRow where
  id : Nat
  inpEntryName : Bytes
  archiveName : Bytes
  inpFingerprint : Bytes
  segmentOrder : Nat
  recordCount : Nat
  activeRecordCount : Int
  deletedRecordCount : Nat
  availability : Availability
  requiresArchive : Bool
  resolvedArchivePath : Option Bytes
  archiveFileSizeBytes : Nat
  archiveMtimeTicks : Int
  archiveManifestFingerprint : Option Bytes
  lastSeenScanId : Option Bytes
  deriving DecidableEq

/-- `inpx_deletions`. -/
structure DeletionRow where
  segmentId : Nat
  libId : Bytes
  deriving DecidableEq

/-- The primary key of a delete marker. -/
def DeletionRow.key (r : DeletionRow) : Nat × Bytes := (r.segmentId, r.libId)

/-- `inpx_book_locations`. -/
structure LocationRow where
  bookId : Nat
  segmentId : Nat
  libId : Bytes
  archiveName : Bytes
  entryName : Bytes
  availability : Availability
  presentInSegment : Bool
  fileSizeBytes : Nat
  format : Bytes
  lastSeenScanId : Option Bytes
  deriving DecidableEq

/-- `inpx_scan_warnings`. -/
structure WarningRow where
  id : Nat
  scanId : Bytes
  warningCode : Bytes
  archiveName : Option Bytes
  entryName : Option Bytes
  message : Bytes
  createdAtUtc : Bytes
  deriving DecidableEq

/-- `catalog_statistics`, a single row. -/
structure StatisticsRow where
  bookCount : Int := 0
  unavailableBookCount : Int := 0
  coverCacheSizeBytes : Int := 0
  inpxSourceSizeBytes : Int := 0
  deriving DecidableEq

/-- The `CHECK`s of `catalog_statistics`. -/
def StatisticsRow.IsNonnegative (r : StatisticsRow) : Prop :=
  0 ≤ r.bookCount ∧ 0 ≤ r.unavailableBookCount ∧ 0 ≤ r.coverCacheSizeBytes ∧
    0 ≤ r.inpxSourceSizeBytes

instance (r : StatisticsRow) : Decidable r.IsNonnegative :=
  inferInstanceAs (Decidable (_ ∧ _ ∧ _ ∧ _))

/-- `catalog_stat_cover_files`. -/
structure CoverFileRow where
  coverPath : Bytes
  referenceCount : Int
  sizeBytes : Int
  deriving DecidableEq

/-- `SNormalizedSearchDocument`: what the full-text index is told about a book. -/
structure SearchDocument where
  title : Bytes
  authors : Bytes
  tags : Bytes
  genres : Bytes
  description : Bytes
  deriving DecidableEq

/-- A command to the contentless full-text index. -/
inductive SearchCommand
  | insert (rowid : Nat) (document : SearchDocument)
  | delete (rowid : Nat) (document : SearchDocument)
  deriving DecidableEq

/-! ### The database -/

end Database

open Database Domain

structure Database where
  books : Table BookRow.id BookRow.id := .empty
  entities : EntityKind → Table EntityRow.id EntityRow.normalizedName := fun _ => .empty
  links : EntityKind → Table LinkRow.key LinkRow.key := fun _ => .empty
  searchIndex : List SearchCommand := []
  source : Option SourceRow := none
  segments : Table SegmentRow.id SegmentRow.inpEntryName := .empty
  deletions : Table DeletionRow.key DeletionRow.key := .empty
  locations : Table LocationRow.bookId LocationRow.libId := .empty
  warnings : Table WarningRow.id WarningRow.id := .empty
  statistics : Option StatisticsRow := none
  coverFiles : Table CoverFileRow.coverPath CoverFileRow.coverPath := .empty

namespace Database

/-- The database of a new cache: the source row and the statistics row, and nothing scanned. -/
def initial (source : SourceRow) (inpxSourceSizeBytes : Nat) : Database where
  source := some source
  statistics := some { inpxSourceSizeBytes := inpxSourceSizeBytes }

/-- Database code: a failure ends the transaction. -/
abbrev Db := EStateM Failure Database

def constraintFailed : Failure := runtimeError "Failed to step sqlite statement: constraint failed"

/-- The result of a statement that may break a constraint. -/
def orConstraintFailed {α : Type} : Option α → Db α
  | some a => pure a
  | none => throw constraintFailed

/-- `ReadInpxSourceId`: the source row has to be there. -/
def readInpxSourceId : Db Unit := do
  Program.require ((← get).source.isSome) (runtimeError "INPX source row is missing.")

end Database

end InpxWebReader
