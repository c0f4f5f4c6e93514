import InpxWebReader.Library.InFlight
import InpxWebReader.Scan.Planning

/-!
# The catalog writer

`CInpxCatalogStreamWriter`: the transaction of a scan and the cover files it writes. The database
of the state is what the transaction sees. Every statement and every file operation is a step that
may fail for a reason outside the program (`ScanEnv.fault`).

Some fields of the state are there for the statements about a run and are never read by it:
`counterUnderflow`, that a statistics counter was driven negative, `budgetExceeded`, that
`ValidateCoverCacheBudget` failed, and `held` and `moments`, the payload that is being drained and
what has happened to the queue of payloads, the newest first.
-/

namespace InpxWebReader.Scan

open Foundation Domain Inpx Storage Database Program

/-- `SInpxCatalogApplyResult`. -/
structure CatalogApplyResult where
  addedRecords : Nat := 0
  updatedRecords : Nat := 0
  markedUnavailableRecords : Nat := 0
  cachedCoverRecords : Nat := 0
  cachedCoverBytes : Nat := 0
  parserWarningCount : Nat := 0
  coverWarningCount : Nat := 0
  metadataFallbacks : MetadataFallbackCounters := {}

/-- `SInpxRecordWriteResult`. -/
structure RecordWriteResult where
  added : Bool := false
  updated : Bool := false
  cachedCover : Bool := false
  cachedCoverBytes : Nat := 0
  parserWarningCount : Nat := 0
  coverWarningCount : Nat := 0
  metadataFallbacks : MetadataFallbackCounters := {}

/-- `SInpxCachedCoverResult`. -/
structure CachedCoverResult where
  relativePath : Option Bytes := none
  bytes : Nat := 0
  warningCount : Nat := 0

/-- `SInFlightParsedRecord`: a record whose payload a worker parses. -/
structure InFlightParsedRecord where
  planIndex : Nat
  recordIndex : Nat
  segmentId : Nat
  inpxRecord : InpxRecord
  payloadBytes : Bytes
  reservedPayloadBytes : Nat

structure ExecState where
  progress : Progress
  database : Database
  covers : CoverStore
  /-- the counter of `MakeScanId` -/
  sequence : Nat
  steps : Nat := 0
  scanId : Bytes := []
  writtenCoverPaths : List Bytes := []
  persistedWarningCount : Nat := 0
  committed : Bool := false
  scanWarningCount : Nat := 0
  applyResult : CatalogApplyResult := {}
  processedActiveIds : List Bytes := []
  currentArchivePath : Bytes := []
  inFlight : List InFlightParsedRecord := []
  inFlightPayloadBytes : Nat := 0
  /-- the payloads taken from the queue so far -/
  drains : Nat := 0
  held : Option InFlightParsedRecord := none
  moments : List (InFlight.Moment InFlightParsedRecord Bytes) := []
  counterUnderflow : Bool := false
  budgetExceeded : Bool := false

abbrev ExecM := EStateM Exception ExecState

namespace ExecState

def onProgress {α : Type} (c : ProgressM α) : ExecM α :=
  zoom ExecState.progress (fun p s => { s with progress := p }) c

def setDatabase (db : Database) (s : ExecState) : ExecState := { s with database := db }

def window (s : ExecState) : InFlight.Window InFlightParsedRecord :=
  ⟨s.inFlight, s.inFlightPayloadBytes, s.held⟩

/-- The state, with what led to it from `before`. -/
def note (before : ExecState) (event : InFlight.Event InFlightParsedRecord Bytes)
    (s : ExecState) : ExecState :=
  { s with moments := ⟨before.window, event, s.window⟩ :: s.moments }

def setCovers (covers : CoverStore) (s : ExecState) : ExecState := { s with covers := covers }

end ExecState

open ExecState

/-- A step that may fail for a reason outside the program. -/
def step (env : ScanEnv) : ExecM Unit := do
  let s ← get
  set { s with steps := s.steps + 1 }
  match env.fault s.steps with
  | some failure => throw (.failed failure)
  | none => pure ()

/-- Database code, as one step. -/
def runDb {α : Type} (env : ScanEnv) (c : Db α) : ExecM α := do
  step env
  let s ← get
  match c s.database with
  | .ok a db =>
    set (setDatabase db s)
    return a
  | .error failure db =>
    set { setDatabase db s with
      counterUnderflow := s.counterUnderflow || failure = Database.counterUnderflow }
    throw (.failed failure)

/-- A change of the files, as one step. -/
def runFiles (env : ScanEnv) (f : CoverStore → CoverStore) : ExecM Unit := do
  step env
  modify fun s => setCovers (f s.covers) s

/-! ### Start -/

/-- `MakeScanId`. Its counter has 64 bits in the program; a process starts fewer scans than that. -/
def makeScanId (millis sequence : Nat) : Bytes :=
  decimal millis ++ asciiByte '-' :: decimal sequence

/-- The attempts to begin the transaction while the database is locked. -/
def awaitLock (env : ScanEnv) : Nat → ExecM Unit
  | 0 => onProgress (throwIfCancelled env.stop .writerStart)
  | attempts + 1 => do
    onProgress (throwIfCancelled env.stop .writerStart)
    onProgress (throwIfCancelled env.stop .writerStart)
    awaitLock env attempts

/-- The constructor of `CInpxCatalogStreamWriter`. -/
def startWriter (env : ScanEnv) : ExecM Unit := do
  step env
  modify fun s => { s with
    scanId := makeScanId env.millis s.sequence
    sequence := s.sequence + 1 }
  runDb env readInpxSourceId
  awaitLock env env.lockedAttempts
  check (match env.beginFailure with
    | some failure => .error failure
    | none => .ok ())
  runDb env (markInpxSourceScanStarted env.startedAtUtc)

/-! ### Segments -/

/-- The row `UpsertSegment` binds. -/
def segmentRow (scanId : Bytes) (plan : SegmentPlan) : SegmentRow where
  id := 0
  inpEntryName := plan.payload.inpEntryName
  archiveName := plan.payload.archiveName
  inpFingerprint := plan.payload.fingerprint
  segmentOrder := plan.segmentOrder
  recordCount := plan.summary.totalRecords
  activeRecordCount := (plan.summary.parsedRecords : Int) - plan.summary.deletedRecords
  deletedRecordCount := plan.summary.deletedRecords
  availability := if plan.change = .removed then .missingFromIndex else .available
  requiresArchive := plan.requiresArchive
  resolvedArchivePath :=
    if plan.resolvedArchivePath = [] then none else some plan.resolvedArchivePath
  archiveFileSizeBytes := plan.archiveFileState.fileSizeBytes
  archiveMtimeTicks := plan.archiveFileState.mtimeTicks
  archiveManifestFingerprint :=
    if plan.archiveManifestFingerprint = [] then none else some plan.archiveManifestFingerprint
  lastSeenScanId := some scanId

def upsertSegment (env : ScanEnv) (plan : SegmentPlan) : ExecM Nat := do
  let segmentId ← runDb env (upsertSegmentRow (segmentRow (← get).scanId plan))
  if plan.change = .unchanged then return segmentId
  else
    runDb env (deleteDeletions segmentId)
    if plan.change = .removed then return segmentId
    else
      plan.deletedLibIds.forM fun libId => do
        onProgress (throwIfCancelled env.stop .segmentUpsert)
        runDb env (insertDeletion segmentId libId)
      return segmentId

/-! ### Covers -/

/-- The temporary path of `WriteCoverBytesAtomically`. -/
def temporaryCoverPath (path scanId : Bytes) : Bytes := path ++ ascii ".tmp-" ++ scanId

/-- `WriteCoverBytesAtomically`: the directories, the temporary file and the renaming. Whatever
throws, the temporary file is removed. -/
def writeCoverBytesAtomically (env : ScanEnv) (path bytes : Bytes) : ExecM Unit := do
  step env
  let temporaryPath := temporaryCoverPath path (← get).scanId
  tryCatch
    (do
      runFiles env fun covers => covers.write temporaryPath bytes
      step env
      runFiles env fun covers => (covers.write path bytes).remove temporaryPath)
    fun e => do
      modify fun s => setCovers (s.covers.remove temporaryPath) s
      throw e

/-- Does the file at an existing cover path have the bytes of its fingerprint? -/
def existingCoverMatches (readers : Readers) (fingerprint : Bytes) : FileNode → Bool
  | .regular bytes => readers.sha.computeBytes bytes = fingerprint
  | .other => false

def cacheInpxCover (readers : Readers) (env : ScanEnv) (parsedBook : ParsedBook) :
    ExecM CachedCoverResult := do
  step env
  match parsedBook.coverExtension.filter fun _ => parsedBook.coverBytes ≠ [] with
  | none | some [] =>
    return { warningCount := if parsedBook.coverDiagnosticMessage.isSome then 1 else 0 }
  | some coverExtension =>
    let coverFingerprint := readers.sha.computeBytes parsedBook.coverBytes
    let coverPath ← ofFileSystem (getContentAddressedCoverPath coverFingerprint coverExtension)
    step env
    match (← get).covers coverPath with
    | some node =>
      require (existingCoverMatches readers coverFingerprint node)
        (.failed (runtimeError
          "Existing content-addressed INPX cover does not match its SHA-256 path."))
    | none =>
      modify fun s => { s with writtenCoverPaths := s.writtenCoverPaths ++ [coverPath] }
      writeCoverBytesAtomically env coverPath parsedBook.coverBytes
    return { relativePath := some coverPath, bytes := parsedBook.coverBytes.length }

def validateCoverCacheBudget (env : ScanEnv) : ExecM Unit := do
  step env
  match (← get).database.statistics with
  | none => throw (.failed (runtimeError
      "Catalog statistics singleton is missing during INPX scan."))
  | some row =>
    if row.coverCacheSizeBytes < 0 ∨ (env.maxCoverCacheBytes : Int) < row.coverCacheSizeBytes then
      modify fun s => { s with budgetExceeded := true }
      throw (.failed (.standard (ascii ("INPX cover cache budget exceeded: projected referenced " ++
        "covers require ") ++ decimalInt row.coverCacheSizeBytes ++ ascii " bytes, limit is " ++
        decimal env.maxCoverCacheBytes ++ ascii " bytes.")))
    else pure ()

/-! ### Records -/

/-- The size of a cover that is told to the statistics. -/
def CachedCoverResult.knownSize (result : CachedCoverResult) : Option Nat :=
  result.relativePath.map fun _ => result.bytes

/-- `WriteParsedRecord` of a book that is new. -/
def writeNewRecord (readers : Readers) (env : ScanEnv) (segmentId : Nat) (inpxRecord : InpxRecord)
    (payload : PreparedPayload) : ExecM RecordWriteResult := do
  let (bookId, metadataFallbacks) ←
    runDb env (insertInpxBook inpxRecord payload.parsedBook (env.now (← get).steps))
  let coverResult ← cacheInpxCover readers env payload.parsedBook
  runDb env (updateBookCoverPath bookId coverResult.relativePath)
  runDb env (upsertInpxLocation segmentId bookId inpxRecord .available (← get).scanId)
  runDb env (recordInpxBookInserted (← get).covers coverResult.relativePath coverResult.knownSize)
  validateCoverCacheBudget env
  return {
    added := true
    cachedCover := coverResult.relativePath.isSome
    cachedCoverBytes := coverResult.bytes
    parserWarningCount := payload.parsedBook.parserWarningCount
    coverWarningCount := payload.coverWarningCount + coverResult.warningCount
    metadataFallbacks := metadataFallbacks }

/-- `WriteParsedRecord` of a book that the catalog has. -/
def writeExistingRecord (readers : Readers) (env : ScanEnv) (segmentId : Nat)
    (inpxRecord : InpxRecord) (payload : PreparedPayload) (existingBook : ExistingInpxBook) :
    ExecM RecordWriteResult := do
  let metadataFallbacks ←
    runDb env (updateInpxBook existingBook.bookId inpxRecord payload.parsedBook)
  let coverResult ← cacheInpxCover readers env payload.parsedBook
  runDb env (updateBookCoverPath existingBook.bookId coverResult.relativePath)
  runDb env (upsertInpxLocation segmentId existingBook.bookId inpxRecord .available (← get).scanId)
  runDb env (recordCoverPathChanged (← get).covers existingBook.coverPath coverResult.relativePath
    coverResult.knownSize)
  runDb env (recordInpxBookAvailabilityChanged existingBook.availability .available)
  validateCoverCacheBudget env
  return {
    updated := true
    cachedCover := coverResult.relativePath.isSome
    cachedCoverBytes := coverResult.bytes
    parserWarningCount := payload.parsedBook.parserWarningCount
    coverWarningCount := payload.coverWarningCount + coverResult.warningCount
    metadataFallbacks := metadataFallbacks }

def writeParsedRecord (readers : Readers) (env : ScanEnv) (segmentId : Nat)
    (inpxRecord : InpxRecord) (payload : PreparedPayload) : ExecM RecordWriteResult := do
  step env
  match readExistingInpxBook (← get).database inpxRecord.libId with
  | none => writeNewRecord readers env segmentId inpxRecord payload
  | some existingBook => writeExistingRecord readers env segmentId inpxRecord payload existingBook

def maxPersistedWarningsPerScan : Nat := 1000

def writeWarning (env : ScanEnv) (warning : ScanWarningRecord) : ExecM Unit := do
  let s ← get
  if maxPersistedWarningsPerScan ≤ s.persistedWarningCount then pure ()
  else
    runDb env (insertPersistedWarning s.scanId (env.now s.steps) warning)
    modify fun s => { s with persistedWarningCount := s.persistedWarningCount + 1 }

/-! ### Finish -/

/-- The check of `ValidateArchiveGuards` on one plan, with the manifests expected so far of the
archives whose manifest was not read. -/
def checkPlanGuard (archiveGuards : List (Bytes × ArchiveScanGuard)) (plan : SegmentPlan)
    (expectations : List (Bytes × Bytes)) : Except Failure (List (Bytes × Bytes)) :=
  if plan.change = .removed ∨ ¬plan.requiresArchive then .ok expectations
  else match archiveGuards.lookup plan.resolvedArchivePath with
    | none => .error (.standard (ascii "INPX archive guard is missing for segment " ++
        quoted plan.payload.inpEntryName ++ ascii "."))
    | some archiveGuard =>
      if plan.archiveFileState ≠ archiveGuard.fileState ∨ plan.archiveManifestFingerprint = [] then
        .error (.standard (ascii "Conflicting cached archive guard for INP segment " ++
          quoted plan.payload.inpEntryName ++ ascii "."))
      else if archiveGuard.phase ≠ .fileStateRead then
        if plan.archiveManifestFingerprint ≠ archiveGuard.manifestFingerprint then
          .error (.standard (ascii "Conflicting cached archive manifest for INP segment " ++
            quoted plan.payload.inpEntryName ++ ascii "."))
        else .ok expectations
      else match expectations.lookup plan.resolvedArchivePath with
        | none => .ok ((plan.resolvedArchivePath, plan.archiveManifestFingerprint) :: expectations)
        | some expected =>
          if expected ≠ plan.archiveManifestFingerprint then
            .error (.standard (ascii "Conflicting cached archive manifests for resolved archive " ++
              quoted plan.resolvedArchivePath ++ ascii "."))
          else .ok expectations

/-- The failure of an archive that is not what the plans were made from. -/
def archiveChanged (archiveGuard : ArchiveScanGuard) : Failure :=
  .standard (ascii "INPX archive " ++ quoted archiveGuard.archiveName ++
    ascii " changed while it was being scanned; retry the scan.")

/-- The loop of `ValidateArchiveGuards` over the plans. -/
def checkPlanGuards (env : ScanEnv) (archiveGuards : List (Bytes × ArchiveScanGuard)) :
    List SegmentPlan → List (Bytes × Bytes) → ExecM Unit
  | [], _ => pure ()
  | plan :: plans, expectations => do
    onProgress (throwIfCancelled env.stop .finish)
    let expectations ← ofFileSystem (checkPlanGuard archiveGuards plan expectations)
    checkPlanGuards env archiveGuards plans expectations

/-- The check of `ValidateArchiveGuards` on one guarded archive. -/
def checkArchive (env : ScanEnv) (path : Bytes) (archiveGuard : ArchiveScanGuard) :
    ExecM Unit := do
  onProgress (throwIfCancelled env.stop .finish)
  let currentState ← ofFileSystem (env.guardState path)
  require (currentState = archiveGuard.fileState) (.failed (archiveChanged archiveGuard))
  if archiveGuard.phase = .fileStateRead then pure ()
  else
    let fingerprint ← onProgress (runCall env.stop .finish (env.guardManifest path))
    require (fingerprint = archiveGuard.manifestFingerprint) (.failed (archiveChanged archiveGuard))

def validateArchiveGuards (env : ScanEnv) (plans : List SegmentPlan)
    (archiveGuards : List (Bytes × ArchiveScanGuard)) : ExecM Unit := do
  checkPlanGuards env archiveGuards plans []
  (archiveGuards.insertionSort fun a b => byteOrder a.1 b.1).forM fun entry =>
    checkArchive env entry.1 entry.2

/-- `CleanupUnreferencedCovers`: the unreferenced covers that the walk comes to are removed. -/
def cleanupUnreferencedCovers (reaches : Bytes → Bool) (db : Database) (covers : CoverStore) :
    CoverStore := fun path =>
  match covers path with
  | some (.regular bytes) =>
    if reaches path && isContentAddressedCoverPath path && !isCoverReferenced db path then none
    else some (.regular bytes)
  | node => node

/-- The statements of `Finish` on the locations: how many became unavailable, and how many
available. -/
def finishLocations (env : ScanEnv) (changedSegmentIds : List Nat) : ExecM (Nat × Nat) := do
  changedSegmentIds.forM fun segmentId => do
    onProgress (throwIfCancelled env.stop .finish)
    runDb env (markAbsent segmentId (← get).scanId)
  onProgress (throwIfCancelled env.stop .finish)
  let markedUnavailable ← runDb env (markUnavailable (← get).scanId)
  onProgress (throwIfCancelled env.stop .finish)
  let restoredAvailable ← runDb env (restoreAvailable (← get).scanId)
  return (markedUnavailable, restoredAvailable)

/-- The statements of `Finish` on the statistics, the source row and the warnings. -/
def finishStatistics (env : ScanEnv) (sourceFingerprint : Bytes)
    (markedUnavailable restoredAvailable : Nat) : ExecM Unit := do
  runDb env (addUnavailableBooks markedUnavailable)
  runDb env (removeUnavailableBooks restoredAvailable)
  let s ← get
  runDb env (updateInpxSourceRow env.sourceFileName sourceFingerprint env.startedAtUtc
    (env.now s.steps) s.scanId)
  runDb env (recomputeInpxSourceSize env.sourceFiles)
  runDb env prunePersistedWarnings

/-- The last checks of `Finish`. -/
def finishChecks (readers : Readers) (env : ScanEnv) (sourceFingerprint : Bytes)
    (plans : List SegmentPlan) (archiveGuards : List (Bytes × ArchiveScanGuard)) : ExecM Unit := do
  onProgress (runCheckpoints env.stop .finish 2)
  validateArchiveGuards env plans archiveGuards
  onProgress (throwIfCancelled env.stop .finish)
  let sourceBytes ← onProgress (runCall env.stop .finish env.sourceFileAtCommit)
  require (readers.sha.computeBytes sourceBytes = sourceFingerprint)
    (.failed (runtimeError "INPX source changed while it was being scanned; retry the scan."))
  onProgress (throwIfCancelled env.stop .finish)

/-- The commit, and the collection of covers after it. -/
def commitScan (env : ScanEnv) : ExecM Unit := do
  step env
  modify fun s => { s with
    committed := true
    covers := cleanupUnreferencedCovers env.collectorReaches s.database s.covers }

/-- `Finish`: how many records became unavailable. -/
def finish (readers : Readers) (env : ScanEnv) (sourceFingerprint : Bytes)
    (plans : List SegmentPlan) (archiveGuards : List (Bytes × ArchiveScanGuard))
    (changedSegmentIds : List Nat) : ExecM Nat := do
  let (markedUnavailable, restoredAvailable) ← finishLocations env changedSegmentIds
  finishStatistics env sourceFingerprint markedUnavailable restoredAvailable
  finishChecks readers env sourceFingerprint plans archiveGuards
  commitScan env
  return markedUnavailable

end InpxWebReader.Scan
