import InpxWebReader.Database.SearchIndex

/-!
# Segments and book locations

The statements of the scan's transaction on the segments, their delete markers and the locations
of the books. A location belongs to the segment its record was last read from; it is listed
(`isListed`) when it is still present there, that segment is available, and no available segment
of a higher order has a delete marker for it.
-/

namespace InpxWebReader.Database

open Foundation Domain Inpx Program

/-! ### Books and their locations -/

structure ExistingInpxBook where
  bookId : Nat
  coverPath : Option Bytes
  availability : Availability
  archiveName : Bytes
  entryName : Bytes
  fileSizeBytes : Nat
  format : Bytes
  deriving DecidableEq

def readExistingInpxBook (db : Database) (libId : Bytes) : Option ExistingInpxBook := do
  let l ← db.locations.findBy? libId
  let b ← db.books.find? l.bookId
  return {
    bookId := l.bookId
    coverPath := b.coverPath.filter (· ≠ [])
    availability := l.availability
    archiveName := l.archiveName
    entryName := l.entryName
    fileSizeBytes := l.fileSizeBytes
    format := l.format }

/-- The cover path of a book replaced. -/
def BookRow.withCover (coverPath : Option Bytes) (row : BookRow) : BookRow :=
  { row with coverPath := coverPath }

@[simp] theorem BookRow.withCover_id (coverPath : Option Bytes) (row : BookRow) :
    (row.withCover coverPath).id = row.id := rfl

def updateBookCoverPath (bookId : Nat) (coverPath : Option Bytes) : Db Unit :=
  modify fun db => setBooks (db.books.update (fun r => r.id = bookId) (BookRow.withCover coverPath)
    (BookRow.withCover_id coverPath) (BookRow.withCover_id coverPath)) db

def setLocations (table : Table LocationRow.bookId LocationRow.libId) (db : Database) : Database :=
  { db with locations := table }

/-- The row `UpsertInpxLocation` writes. -/
def locationRow (segmentId bookId : Nat) (inpxRecord : InpxRecord) (availability : Availability)
    (scanId : Bytes) : LocationRow where
  bookId := bookId
  segmentId := segmentId
  libId := inpxRecord.libId
  archiveName := inpxRecord.archiveName
  entryName := inpxRecord.entryName
  availability := availability
  presentInSegment := true
  fileSizeBytes := inpxRecord.fileSizeBytes
  format := toLowerAscii inpxRecord.fileExtension
  lastSeenScanId := some scanId

def upsertInpxLocation (segmentId bookId : Nat) (inpxRecord : InpxRecord)
    (availability : Availability) (scanId : Bytes) : Db Unit := do
  let db ← get
  let table ← orConstraintFailed
    (db.locations.put? (locationRow segmentId bookId inpxRecord availability scanId))
  set (setLocations table db)

/-! ### Segments and delete markers -/

/-- The `CHECK`s of `inpx_segments`. -/
def SegmentRow.IsWellFormed (r : SegmentRow) : Prop :=
  0 ≤ r.activeRecordCount ∧ (r.recordCount : Int) = r.activeRecordCount + r.deletedRecordCount ∧
    r.resolvedArchivePath.isSome = r.requiresArchive ∧
    r.archiveManifestFingerprint.isSome = r.requiresArchive

instance (r : SegmentRow) : Decidable r.IsWellFormed :=
  inferInstanceAs (Decidable (_ ∧ _ ∧ _ ∧ _))

def setSegments (table : Table SegmentRow.id SegmentRow.inpEntryName) (db : Database) : Database :=
  { db with segments := table }

/-- The id a segment of this name has, or gets. -/
def segmentIdOf (db : Database) (inpEntryName : Bytes) : Nat :=
  ((db.segments.findBy? inpEntryName).map SegmentRow.id).getD db.segments.nextId

/-- `INSERT INTO inpx_segments … ON CONFLICT(source_id, inp_entry_name) DO UPDATE`, and the id of
the row. -/
def upsertSegmentRow (row : SegmentRow) : Db Nat := do
  let db ← get
  let segmentId := segmentIdOf db row.inpEntryName
  require row.IsWellFormed constraintFailed
  let table ← orConstraintFailed (db.segments.put? { row with id := segmentId })
  set (setSegments table db)
  return segmentId

/-- The table of delete markers replaced. -/
def setDeletions (table : Table DeletionRow.key DeletionRow.key) (db : Database) : Database :=
  { db with deletions := table }

/-- `DELETE FROM inpx_deletions WHERE segment_id = ?`. -/
def deleteDeletions (segmentId : Nat) : Db Unit :=
  modify fun db => setDeletions (db.deletions.delete fun d => d.segmentId = segmentId) db

/-- `INSERT INTO inpx_deletions`. -/
def insertDeletion (segmentId : Nat) (libId : Bytes) : Db Unit := do
  let table ← orConstraintFailed ((← get).deletions.insert? ⟨segmentId, libId⟩)
  modify (setDeletions table)

/-! ### The end of a scan -/

/-- Is the segment of this id available? -/
def segmentAvailable (db : Database) (segmentId : Nat) : Bool :=
  (db.segments.find? segmentId).any fun s => s.availability = .available

/-- Does an available segment of a higher order have a delete marker for the location? -/
def deletedLater (db : Database) (l : LocationRow) : Bool :=
  (db.segments.find? l.segmentId).any fun active =>
    db.deletions.rows.any fun d => d.libId = l.libId &&
      (db.segments.find? d.segmentId).any fun s =>
        s.availability = .available && active.segmentOrder < s.segmentOrder

/-- The condition under which a location is available. -/
def isListed (db : Database) (l : LocationRow) : Bool :=
  l.presentInSegment && segmentAvailable db l.segmentId && !deletedLater db l

/-- A location that the scan did not find in its segment any more. -/
def LocationRow.absent (scanId : Bytes) (l : LocationRow) : LocationRow :=
  { l with presentInSegment := false, lastSeenScanId := some scanId }

/-- A location whose availability changed in the scan. -/
def LocationRow.withAvailability (availability : Availability) (scanId : Bytes)
    (l : LocationRow) : LocationRow :=
  { l with availability := availability, lastSeenScanId := some scanId }

@[simp] theorem LocationRow.absent_bookId (scanId : Bytes) (l : LocationRow) :
    (l.absent scanId).bookId = l.bookId := rfl

@[simp] theorem LocationRow.absent_libId (scanId : Bytes) (l : LocationRow) :
    (l.absent scanId).libId = l.libId := rfl

@[simp] theorem LocationRow.withAvailability_bookId (availability : Availability) (scanId : Bytes)
    (l : LocationRow) : (l.withAvailability availability scanId).bookId = l.bookId := rfl

@[simp] theorem LocationRow.withAvailability_libId (availability : Availability) (scanId : Bytes)
    (l : LocationRow) : (l.withAvailability availability scanId).libId = l.libId := rfl

/-- The locations that satisfy `p`, with a new availability. -/
def setAvailability (p : LocationRow → Bool) (availability : Availability) (scanId : Bytes)
    (db : Database) : Database :=
  setLocations (db.locations.update p (LocationRow.withAvailability availability scanId)
    (LocationRow.withAvailability_bookId availability scanId)
    (LocationRow.withAvailability_libId availability scanId)) db

/-- The locations of a segment that the scan did not see. -/
def notSeen (segmentId : Nat) (scanId : Bytes) (l : LocationRow) : Bool :=
  l.segmentId = segmentId && l.presentInSegment && l.lastSeenScanId ≠ some scanId

/-- `UPDATE inpx_book_locations SET present_in_segment = 0` for what the scan did not see of a
changed segment. -/
def markAbsent (segmentId : Nat) (scanId : Bytes) : Db Unit :=
  modify fun db => setLocations (db.locations.update (notSeen segmentId scanId)
    (LocationRow.absent scanId) (LocationRow.absent_bookId scanId)
    (LocationRow.absent_libId scanId)) db

/-- The available locations that are not listed. -/
def toMarkUnavailable (db : Database) (l : LocationRow) : Bool :=
  l.availability = .available &&
    (!l.presentInSegment || !segmentAvailable db l.segmentId || deletedLater db l)

/-- The unavailable locations that are listed. -/
def toRestore (db : Database) (l : LocationRow) : Bool :=
  l.availability = .missingFromIndex && l.presentInSegment && segmentAvailable db l.segmentId &&
    !deletedLater db l

/-- `markUnavailableStatement`, and the number of rows it changed. -/
def markUnavailable (scanId : Bytes) : Db Nat := do
  let db ← get
  set (setAvailability (toMarkUnavailable db) .missingFromIndex scanId db)
  return db.locations.rows.countP (toMarkUnavailable db)

/-- `restoreAvailableStatement`, and the number of rows it changed. -/
def restoreAvailable (scanId : Bytes) : Db Nat := do
  let db ← get
  set (setAvailability (toRestore db) .available scanId db)
  return db.locations.rows.countP (toRestore db)

/-! ### The source row and the warnings -/

def markInpxSourceScanStarted (startedAtUtc : Bytes) : Db Unit :=
  modify fun db => { db with source := db.source.map fun row =>
    { row with lastScanStartedAtUtc := some startedAtUtc, lastScanCompletedAtUtc := none } }

def updateInpxSourceRow (fileName sourceFingerprint startedAtUtc completedAtUtc scanId : Bytes) :
    Db Unit :=
  modify fun db => { db with source := db.source.map fun _ =>
    { displayName := fileName
      sourceFingerprint := sourceFingerprint
      lastScanStartedAtUtc := some startedAtUtc
      lastScanCompletedAtUtc := some completedAtUtc
      lastSeenSnapshotId := some scanId } }

/-- `SInpxScanWarningRecord`. -/
structure ScanWarningRecord where
  code : Bytes
  archiveName : Option Bytes := none
  entryName : Option Bytes := none
  message : Bytes
  deriving DecidableEq

def insertPersistedWarning (scanId createdAtUtc : Bytes) (warning : ScanWarningRecord) :
    Db Unit := do
  let db ← get
  let table ← orConstraintFailed (db.warnings.insert?
    { id := db.warnings.nextId
      scanId := scanId
      warningCode := warning.code
      archiveName := warning.archiveName
      entryName := warning.entryName
      message := warning.message
      createdAtUtc := createdAtUtc })
  set { db with warnings := table }

/-- The greatest warning id of a scan. -/
def lastWarningOf (db : Database) (scanId : Bytes) : Nat :=
  ((db.warnings.rows.filter fun w => w.scanId = scanId).map WarningRow.id).foldr max 0

/-- `GROUP BY scan_id ORDER BY MAX(id) DESC LIMIT 10`. -/
def recentScanIds (db : Database) : List Bytes :=
  (((db.warnings.rows.map WarningRow.scanId).dedup).insertionSort fun a b =>
    lastWarningOf db b ≤ lastWarningOf db a).take 10

def prunePersistedWarnings : Db Unit :=
  modify fun db => { db with warnings := db.warnings.delete fun w =>
    !(recentScanIds db).contains w.scanId }

/-! ### What the scan reads -/

def isCoverReferenced (db : Database) (path : Bytes) : Bool :=
  db.books.rows.any fun r => r.coverPath = some path

end InpxWebReader.Database
