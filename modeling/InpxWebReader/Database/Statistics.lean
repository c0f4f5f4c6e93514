import InpxWebReader.Database.Schema
import InpxWebReader.Storage.CoverStore

/-!
# Catalog statistics

The counters of the catalog and the reference counts of its covers, kept by signed differences:
each statement that changes the books tells them what it changed. A counter that would become
negative breaks a `CHECK`, which is the failure `counterUnderflow`.
-/

namespace InpxWebReader.Database

open Foundation Domain Storage Program

/-- The failure of an update that would make a counter negative. -/
def counterUnderflow : Failure :=
  runtimeError "Failed to step sqlite statement: CHECK constraint failed: catalog_statistics"

def toSqliteInt64 (value : Nat) : Db Int :=
  if value < 2 ^ 63 then pure value
  else throw (runtimeError "Catalog statistics value exceeds SQLite int64 range.")

def ensureStatisticsRow : Db Unit :=
  modify fun db => { db with statistics := some (db.statistics.getD {}) }

/-- A change of the statistics row under its `CHECK`s. -/
def updateStatistics (f : StatisticsRow → StatisticsRow) : Db Unit := do
  match (← get).statistics with
  | none => pure ()
  | some row =>
    require (f row).IsNonnegative counterUnderflow
    modify fun db => { db with statistics := some (f row) }

def addStatisticsDelta (bookCountDelta unavailableBookCountDelta coverCacheSizeDelta
    inpxSourceSizeDelta : Int) : Db Unit := do
  ensureStatisticsRow
  updateStatistics fun row =>
    { bookCount := row.bookCount + bookCountDelta
      unavailableBookCount := row.unavailableBookCount + unavailableBookCountDelta
      coverCacheSizeBytes := row.coverCacheSizeBytes + coverCacheSizeDelta
      inpxSourceSizeBytes := row.inpxSourceSizeBytes + inpxSourceSizeDelta }

/-- `GetCoverSize`: the known size, or the size of the file, if there is a regular file. -/
def getCoverSize (covers : CoverStore) (normalizedCoverPath : Bytes)
    (knownSizeBytes : Option Nat) : Option Nat :=
  match tryNormalizeCoverPath normalizedCoverPath with
  | none => none
  | some path =>
    match covers path with
    | some (.regular bytes) => some (knownSizeBytes.getD bytes.length)
    | _ => none

/-- The table of counted covers replaced. -/
def setCoverFiles (table : Table CoverFileRow.coverPath CoverFileRow.coverPath)
    (db : Database) : Database :=
  { db with coverFiles := table }

/-- `INSERT INTO catalog_stat_cover_files`. -/
def insertCoverFile (row : CoverFileRow) : Db Unit := do
  let table ← orConstraintFailed ((← get).coverFiles.insert? row)
  modify (setCoverFiles table)

/-- The reference count of a row moved by a difference. -/
def CoverFileRow.addReferences (delta : Int) (row : CoverFileRow) : CoverFileRow :=
  { row with referenceCount := row.referenceCount + delta }

def CoverFileRow.withSize (sizeBytes : Int) (row : CoverFileRow) : CoverFileRow :=
  { row with sizeBytes := sizeBytes }

@[simp] theorem CoverFileRow.addReferences_coverPath (delta : Int) (row : CoverFileRow) :
    (row.addReferences delta).coverPath = row.coverPath := rfl

@[simp] theorem CoverFileRow.withSize_coverPath (sizeBytes : Int) (row : CoverFileRow) :
    (row.withSize sizeBytes).coverPath = row.coverPath := rfl

/-- `UPDATE catalog_stat_cover_files SET reference_count = reference_count + ?`. -/
def addReferences (path : Bytes) (delta : Int) : Db Unit :=
  modify fun db => setCoverFiles (db.coverFiles.update (fun r => r.coverPath = path)
    (CoverFileRow.addReferences delta) (CoverFileRow.addReferences_coverPath delta)
    (CoverFileRow.addReferences_coverPath delta)) db

/-- `UPDATE catalog_stat_cover_files SET size_bytes = ?`. -/
def setCoverFileSize (path : Bytes) (sizeBytes : Int) : Db Unit :=
  modify fun db => setCoverFiles (db.coverFiles.update (fun r => r.coverPath = path)
    (CoverFileRow.withSize sizeBytes) (CoverFileRow.withSize_coverPath sizeBytes)
    (CoverFileRow.withSize_coverPath sizeBytes)) db

/-- `DELETE FROM catalog_stat_cover_files WHERE cover_path = ?`. -/
def deleteCoverFile (path : Bytes) : Db Unit :=
  modify fun db => setCoverFiles (db.coverFiles.delete fun r => r.coverPath = path) db

/-- The normalized form of a cover path that is there and not empty. -/
def countedCoverPath (coverPath : Option Bytes) : Option Bytes :=
  (coverPath.filter (· ≠ [])).bind tryNormalizeCoverPath

def incrementCoverReference (covers : CoverStore) (coverPath : Option Bytes)
    (knownSizeBytes : Option Nat) : Db Unit := do
  match countedCoverPath coverPath with
  | none => pure ()
  | some path =>
    match (← get).coverFiles.find? path with
    | some _ => addReferences path 1
    | none =>
      match getCoverSize covers path knownSizeBytes with
      | none => pure ()
      | some coverSize =>
        let sizeBytes ← toSqliteInt64 coverSize
        insertCoverFile ⟨path, 1, sizeBytes⟩
        addStatisticsDelta 0 0 sizeBytes 0

/-- `CountStoredCoverReferences`: how many books have this cover. -/
def countStoredCoverReferences (db : Database) (path : Bytes) : Nat :=
  db.books.rows.countP fun r => r.coverPath = some path

def refreshCoverReferenceSize (covers : CoverStore) (coverPath : Option Bytes)
    (knownSizeBytes : Option Nat) : Db Unit := do
  match countedCoverPath coverPath with
  | none => pure ()
  | some path =>
    match getCoverSize covers path knownSizeBytes with
    | none => pure ()
    | some coverSize =>
      match (← get).coverFiles.find? path with
      | some row =>
        let newSizeBytes ← toSqliteInt64 coverSize
        if row.sizeBytes = newSizeBytes then pure ()
        else
          setCoverFileSize path newSizeBytes
          addStatisticsDelta 0 0 (newSizeBytes - row.sizeBytes) 0
      | none =>
        let referenceCount := countStoredCoverReferences (← get) path
        if referenceCount = 0 then pure ()
        else
          let referenceCount ← toSqliteInt64 referenceCount
          let sizeBytes ← toSqliteInt64 coverSize
          insertCoverFile ⟨path, referenceCount, sizeBytes⟩
          addStatisticsDelta 0 0 sizeBytes 0

def decrementCoverReference (coverPath : Option Bytes) : Db Unit := do
  match countedCoverPath coverPath with
  | none => pure ()
  | some path =>
    match (← get).coverFiles.find? path with
    | none => pure ()
    | some row =>
      if 1 < row.referenceCount then addReferences path (-1)
      else
        deleteCoverFile path
        addStatisticsDelta 0 0 (-row.sizeBytes) 0

/-! ### What the scan tells the statistics -/

def recordInpxBookInserted (covers : CoverStore) (coverPath : Option Bytes)
    (knownCoverSizeBytes : Option Nat) : Db Unit := do
  addStatisticsDelta 1 0 0 0
  incrementCoverReference covers coverPath knownCoverSizeBytes

def recordCoverPathChanged (covers : CoverStore) (oldCoverPath newCoverPath : Option Bytes)
    (knownNewCoverSizeBytes : Option Nat) : Db Unit := do
  let oldNormalizedCoverPath := oldCoverPath.bind tryNormalizeCoverPath
  let newNormalizedCoverPath := newCoverPath.bind tryNormalizeCoverPath
  if oldNormalizedCoverPath = newNormalizedCoverPath then
    refreshCoverReferenceSize covers newNormalizedCoverPath knownNewCoverSizeBytes
  else
    decrementCoverReference oldNormalizedCoverPath
    incrementCoverReference covers newNormalizedCoverPath knownNewCoverSizeBytes

def recordInpxBookAvailabilityChanged (oldAvailability newAvailability : Availability) :
    Db Unit :=
  let wasUnavailable := oldAvailability ≠ .available
  let isUnavailable := newAvailability ≠ .available
  if wasUnavailable = isUnavailable then pure ()
  else addStatisticsDelta 0 (if isUnavailable then 1 else -1) 0 0

def addUnavailableBooks (count : Nat) : Db Unit := do
  if count = 0 then pure ()
  else
    let delta ← toSqliteInt64 count
    addStatisticsDelta 0 delta 0 0

def removeUnavailableBooks (count : Nat) : Db Unit := do
  if count = 0 then pure ()
  else
    let delta ← toSqliteInt64 count
    addStatisticsDelta 0 (-delta) 0 0

/-- The source files as the statistics see them: the canonical path of the INPX file and of a
persisted archive path, where there is a regular file, and the size of the file there. -/
structure SourceFiles where
  inpx : Option Bytes := none
  archive : Bytes → Option Bytes := fun _ => none
  size : Bytes → Nat := fun _ => 0

/-- `CollectInpxSourceSnapshot`: the INPX file and each archive that some book is in, once. -/
def collectInpxSourceSnapshot (files : SourceFiles) (db : Database) : Nat :=
  let archives := db.locations.rows.filterMap fun l =>
    ((db.segments.find? l.segmentId).bind SegmentRow.resolvedArchivePath).bind files.archive
  ((files.inpx.toList ++ archives).dedup.map files.size).sum

def recomputeInpxSourceSize (files : SourceFiles) : Db Unit := do
  let sizeBytes ← toSqliteInt64 (collectInpxSourceSnapshot files (← get))
  ensureStatisticsRow
  updateStatistics fun row => { row with inpxSourceSizeBytes := sizeBytes }

end InpxWebReader.Database
