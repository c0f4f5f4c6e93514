import InpxWebReader.Scan.Writer

/-!
# Running a scan

`RunScan` after the planning: the segments are upserted, the records of the changed segments are
read and their payloads handed to the workers, finished payloads are drained from the queue into
the catalog, and the writer finishes. `runScan` is the whole run from the state of the world before
it to the state after it, with what the stack unwinding of a failed run undoes.

The order in which payloads become ready is the argument `pick`: what position in the queue the
first ready payload has, for each drain; no payload is ready when there is no such position.
-/

namespace InpxWebReader.Scan

open Foundation Domain Inpx Storage Database Program ExecState

/-! ### Warnings -/

def buildWarningMessage (warning : ScanWarningRecord) : Bytes :=
  match warning.entryName, warning.archiveName with
  | some entryName, _ => entryName ++ ascii ": " ++ warning.message
  | none, some archiveName => archiveName ++ ascii ": " ++ warning.message
  | none, none => warning.message

/-- The snapshot with one more warning. -/
def addWarning (warningLimit : Nat) (warning : ScanWarningRecord) (countAsSkipped : Bool)
    (snapshot : ScanJobSnapshot) : ScanJobSnapshot :=
  { snapshot with
    skippedRecords := if countAsSkipped then snapshot.skippedRecords + 1
      else snapshot.skippedRecords
    warnings := if snapshot.warnings.length < warningLimit
      then snapshot.warnings ++ [buildWarningMessage warning] else snapshot.warnings }

/-- A warning is written to the catalog, when there is one. -/
def persistWarning (env : ScanEnv) (warning : ScanWarningRecord) : ExecM Unit :=
  if env.persistent then writeWarning env warning else pure ()

def publishWarning (env : ScanEnv) (warning : ScanWarningRecord) (countAsSkipped : Bool) :
    ExecM Unit := do
  modify fun s => { s with scanWarningCount := s.scanWarningCount + 1 }
  persistWarning env warning
  onProgress (publishSnapshot (addWarning env.warningLimit warning countAsSkipped))

/-- The warning of a segment that could be read. -/
def planWarning (warning : InpxWarning) : ScanWarningRecord where
  code := ascii "inpx-parse-warning"
  archiveName := some warning.inpEntryName
  message := warning.message

def buildInpxSourceLabel (inpxRecord : InpxRecord) : Bytes :=
  inpxRecord.archiveName ++ ascii "!" ++ inpxRecord.entryName

/-- The warning of a record in a format the reader does not open. -/
def unsupportedFormat (inpxRecord : InpxRecord) : ScanWarningRecord where
  code := ascii "unsupported-format"
  archiveName := some inpxRecord.archiveName
  entryName := some inpxRecord.entryName
  message := ascii "Unsupported INPX payload format " ++ quoted inpxRecord.fileExtension ++
    ascii "."

/-- The warning of a payload that could not be stored. -/
def payloadLoadFailed (inpxRecord : InpxRecord) (what : Bytes) : ScanWarningRecord where
  code := ascii "payload-load-failed"
  archiveName := some inpxRecord.archiveName
  entryName := some inpxRecord.entryName
  message := what

/-! ### Draining payloads -/

/-- The place in the queue of the payload that `takeParsedRecord` takes. -/
def takenIndex (pick : Nat → Nat) (preferReady : Bool) (s : ExecState) : Nat :=
  if preferReady && pick s.drains < s.inFlight.length then pick s.drains else 0

/-- The state after `takeParsedRecord` took the payload at a place. -/
def afterTaking (index : Nat) (task : InFlightParsedRecord) (s : ExecState) : ExecState :=
  note s (.taken index task) { s with
    inFlight := s.inFlight.eraseIdx index
    drains := s.drains + 1
    held := some task }

/-- `PreparedPayload.get()`: what the worker of a payload answers. A worker that notices the stop
request may answer something else. -/
def preparedPayload (readers : Readers) (env : ScanEnv) (task : InFlightParsedRecord)
    (progress : Progress) : Except Failure PreparedPayload :=
  let stopped := if env.stop.requested progress
    then env.stoppedWorker task.planIndex task.recordIndex else none
  stopped.getD (readers.payload task.payloadBytes task.inpxRecord env.persistent
    env.maxDecodedCoverBytes)

/-- `releasePayloadReservation`, with the difference of natural numbers. -/
def releasePayloadReservation (task : InFlightParsedRecord) : ExecM Unit :=
  modify fun s => note s (.released task) { s with
    inFlightPayloadBytes := s.inFlightPayloadBytes - task.reservedPayloadBytes
    held := none }

/-- What a stored record adds to the result of the scan. -/
def CatalogApplyResult.add (writeResult : RecordWriteResult) (r : CatalogApplyResult) :
    CatalogApplyResult :=
  { r with
    addedRecords := r.addedRecords + if writeResult.added then 1 else 0
    updatedRecords := r.updatedRecords + if writeResult.updated then 1 else 0
    cachedCoverRecords := r.cachedCoverRecords + if writeResult.cachedCover then 1 else 0
    cachedCoverBytes := r.cachedCoverBytes +
      if writeResult.cachedCover then writeResult.cachedCoverBytes else 0
    parserWarningCount := r.parserWarningCount + writeResult.parserWarningCount
    coverWarningCount := r.coverWarningCount + writeResult.coverWarningCount
    metadataFallbacks :=
      { titleFallbackCount := r.metadataFallbacks.titleFallbackCount +
          writeResult.metadataFallbacks.titleFallbackCount
        authorFallbackCount := r.metadataFallbacks.authorFallbackCount +
          writeResult.metadataFallbacks.authorFallbackCount
        languageFallbackCount := r.metadataFallbacks.languageFallbackCount +
          writeResult.metadataFallbacks.languageFallbackCount } }

/-- The snapshot after a payload was indexed. -/
def addParsedRecord (writeResult : RecordWriteResult) (snapshot : ScanJobSnapshot) :
    ScanJobSnapshot :=
  { snapshot with
    parsedFb2Records := snapshot.parsedFb2Records + 1
    addedRecords := snapshot.addedRecords + if writeResult.added then 1 else 0
    updatedRecords := snapshot.updatedRecords + if writeResult.updated then 1 else 0 }

/-- The payload of a record is stored, or only counted when there is no catalog. -/
def storeParsedRecord (readers : Readers) (env : ScanEnv) (task : InFlightParsedRecord)
    (payload : PreparedPayload) : ExecM RecordWriteResult :=
  if env.persistent then writeParsedRecord readers env task.segmentId task.inpxRecord payload
  else pure {
    parserWarningCount := payload.parsedBook.parserWarningCount
    coverWarningCount := payload.coverWarningCount +
      if payload.parsedBook.coverDiagnosticMessage.isSome then 1 else 0 }

/-- The body of `drainParsedRecord` for a payload that was taken. -/
def drainTask (readers : Readers) (env : ScanEnv) (task : InFlightParsedRecord) : ExecM Unit := do
  let payload ← ofFileSystem (preparedPayload readers env task (← get).progress)
  onProgress (throwIfCancelled env.stop .payloadDraining)
  let writeResult ← storeParsedRecord readers env task payload
  onProgress (publishSnapshot (addParsedRecord writeResult))
  modify fun s => { s with applyResult := s.applyResult.add writeResult }
  releasePayloadReservation task

/-- The handlers of `drainParsedRecord`. -/
def drainFailed (env : ScanEnv) (task : InFlightParsedRecord) (e : Exception) : ExecM Unit :=
  if e = .cancelled then do
    releasePayloadReservation task
    throw e
  else match e.what? with
    | none => throw e
    | some what => do
      releasePayloadReservation task
      onProgress (throwIfCancelled env.stop .payloadDraining)
      publishWarning env (payloadLoadFailed task.inpxRecord what) true
      throw (.failed (.standard (ascii "INPX payload " ++
        quoted (buildInpxSourceLabel task.inpxRecord) ++
        ascii " could not be indexed atomically: " ++ what)))

/-- `drainParsedRecord`, which is only called with a queue that is not empty. -/
def drainParsedRecord (readers : Readers) (env : ScanEnv) (pick : Nat → Nat)
    (preferReady : Bool) : ExecM Unit := do
  let s ← get
  match s.inFlight[takenIndex pick preferReady s]? with
  | none => pure ()
  | some task =>
    set (afterTaking (takenIndex pick preferReady s) task s)
    tryCatch (drainTask readers env task) (drainFailed env task)

/-- A drain followed by a checkpoint. -/
def drainAndCheck (readers : Readers) (env : ScanEnv) (pick : Nat → Nat) : ExecM Unit := do
  drainParsedRecord readers env pick true
  onProgress (throwIfCancelled env.stop .execution)

/-- The body of a loop that drains the queue while a condition holds. Each round takes a payload
out of the queue, so the queue's length is fuel enough. -/
def drainQueueWhile (busy : ExecState → Bool) (body : ExecM Unit) : ExecM Unit := do
  drainWhile busy body (← get).inFlight.length

/-- The payloads of a queue are joined from its head. -/
def joinMoments (held : Option InFlightParsedRecord) :
    Nat → List InFlightParsedRecord → List (InFlight.Moment InFlightParsedRecord Bytes)
  | _, [] => []
  | bytes, task :: rest =>
    joinMoments held (bytes - task.reservedPayloadBytes) rest ++
      [⟨⟨task :: rest, bytes, held⟩, .joined task,
        ⟨rest, bytes - task.reservedPayloadBytes, held⟩⟩]

/-- `drainRemainingPayloadWork`: what the workers still answer is dropped. -/
def drainRemainingPayloadWork (s : ExecState) : ExecState :=
  { s with
    inFlight := []
    inFlightPayloadBytes := s.inFlight.foldl
      (fun bytes task => bytes - task.reservedPayloadBytes) s.inFlightPayloadBytes
    moments := joinMoments s.held s.inFlightPayloadBytes s.inFlight ++ s.moments }

/-! ### Reading records -/

/-- The failure of a LibId that is active twice. -/
def duplicateLibId (libId : Bytes) : Failure :=
  .standard (ascii "Duplicate active LibId " ++ quoted libId ++
    ascii " makes the INPX snapshot ambiguous.")

/-- The LibId of a record is claimed. -/
def claimLibId (env : ScanEnv) (libId : Bytes) : ExecM Unit := do
  let s ← get
  match ← ofFileSystem (insertActiveLibId s.processedActiveIds libId
      env.planningLimits.maxRecords) with
  | none => throw (.failed (duplicateLibId libId))
  | some ids => modify fun s => { s with processedActiveIds := ids }

/-- The archive of a plan is opened, when it is not the one that is open. -/
def openArchive (readers : Readers) (env : ScanEnv) (pick : Nat → Nat) (planIndex : Nat)
    (plan : SegmentPlan) : ExecM Unit := do
  if (← get).currentArchivePath = plan.resolvedArchivePath then pure ()
  else
    drainQueueWhile (fun s => !s.inFlight.isEmpty) (drainParsedRecord readers env pick true)
    modify fun s => note s (.opened plan.resolvedArchivePath) s
    let fingerprint ← onProgress
      (runCall env.stop .manifestReading (env.executionManifest planIndex))
    require (fingerprint = plan.archiveManifestFingerprint)
      (.failed (.standard (ascii "INPX archive " ++ quoted plan.payload.archiveName ++
        ascii " changed before its payloads were read; retry the scan.")))
    modify fun s => { s with currentArchivePath := plan.resolvedArchivePath }

/-- The failure of a payload whose size is not the declared one. -/
def payloadSizeMismatch (inpxRecord : InpxRecord) (actualSizeBytes : Nat) : Failure :=
  .standard (ascii "INPX payload size mismatch for " ++ quoted (buildInpxSourceLabel inpxRecord) ++
    ascii ": INPX declares " ++ decimal inpxRecord.fileSizeBytes ++
    ascii " bytes but ZIP contains " ++ decimal actualSizeBytes ++ ascii " bytes.")

/-- The failure of a payload that is larger than the budget. -/
def payloadTooLarge (inpxRecord : InpxRecord) (actualSizeBytes limit : Nat) : Failure :=
  .standard (ascii "INPX payload " ++ quoted (buildInpxSourceLabel inpxRecord) ++
    ascii " requires " ++ decimal actualSizeBytes ++
    ascii " raw bytes, exceeding the configured in-flight payload limit of " ++ decimal limit ++
    ascii " bytes.")

/-- The size of the payload of a record, checked against the record and the budget. -/
def readPayloadSize (env : ScanEnv) (planIndex recordIndex : Nat) (inpxRecord : InpxRecord) :
    Except Failure Nat := do
  let actualSizeBytes ← env.entrySize planIndex recordIndex
  if inpxRecord.fileSizeBytes ≠ 0 ∧ actualSizeBytes ≠ inpxRecord.fileSizeBytes then
    throw (payloadSizeMismatch inpxRecord actualSizeBytes)
  else if env.maxInFlightPayloadBytes < actualSizeBytes then
    throw (payloadTooLarge inpxRecord actualSizeBytes env.maxInFlightPayloadBytes)
  else return actualSizeBytes

/-- The task of a record whose payload was read. -/
def parsedRecordTask (planIndex recordIndex segmentId : Nat) (inpxRecord : InpxRecord)
    (actualSizeBytes : Nat) (payloadBytes : Bytes) : InFlightParsedRecord where
  planIndex := planIndex
  recordIndex := recordIndex
  segmentId := segmentId
  inpxRecord := { inpxRecord with fileSizeBytes := actualSizeBytes }
  payloadBytes := payloadBytes
  reservedPayloadBytes := actualSizeBytes

def submitTask (task : InFlightParsedRecord) : ExecM Unit :=
  modify fun s => note s (.submitted task) { s with
    inFlight := s.inFlight ++ [task]
    inFlightPayloadBytes := s.inFlightPayloadBytes + task.reservedPayloadBytes }

/-- A record of a book that can be opened: its payload is read and handed to a worker. -/
def submitRecord (readers : Readers) (env : ScanEnv) (pick : Nat → Nat) (planIndex : Nat)
    (plan : SegmentPlan) (segmentId recordIndex : Nat) (inpxRecord : InpxRecord) : ExecM Unit := do
  claimLibId env inpxRecord.libId
  drainQueueWhile (fun s => env.maxInFlightPayloads ≤ s.inFlight.length)
    (drainAndCheck readers env pick)
  openArchive readers env pick planIndex plan
  let actualSizeBytes ← ofFileSystem (readPayloadSize env planIndex recordIndex inpxRecord)
  drainQueueWhile (fun s => !s.inFlight.isEmpty &&
      env.maxInFlightPayloadBytes - actualSizeBytes < s.inFlightPayloadBytes)
    (drainAndCheck readers env pick)
  let payloadBytes ← onProgress
    (runCall env.stop .payloadReading (env.entryBytes planIndex recordIndex))
  onProgress (publishSnapshot fun snapshot => { snapshot with
    archiveBytesRead := snapshot.archiveBytesRead + actualSizeBytes })
  submitTask (parsedRecordTask planIndex recordIndex segmentId inpxRecord actualSizeBytes
    payloadBytes)

/-- The snapshot when the scan comes to a record. -/
def comeToRecord (inpxRecord : InpxRecord) (snapshot : ScanJobSnapshot) : ScanJobSnapshot :=
  { snapshot with
    scannedRecords := snapshot.scannedRecords + 1
    percent := computePercent (snapshot.scannedRecords + 1) snapshot.totalRecords
    currentArchiveName := inpxRecord.archiveName
    currentEntryName := inpxRecord.entryName
    message := ascii "Indexed " ++ decimal (snapshot.scannedRecords + 1) ++ ascii " of " ++
      decimal snapshot.totalRecords ++ ascii " INPX records." }

/-- The body of the loop over the records of a segment. -/
def executeRecord (readers : Readers) (env : ScanEnv) (pick : Nat → Nat) (planIndex : Nat)
    (plan : SegmentPlan) (segmentId recordIndex : Nat) (inpxRecord : InpxRecord) :
    ExecM Unit := do
  onProgress (throwIfCancelled env.stop .execution)
  onProgress (publishSnapshot (comeToRecord inpxRecord))
  if inpxRecord.deleted then pure ()
  else if inpxRecord.isFb2 then
    submitRecord readers env pick planIndex plan segmentId recordIndex inpxRecord
  else publishWarning env (unsupportedFormat inpxRecord) true

/-- A plan with its position and the id of its segment. -/
structure PlacedPlan where
  plan : SegmentPlan
  planIndex : Nat
  segmentId : Nat

/-- The body of the loop over the segments. -/
def executePlan (readers : Readers) (env : ScanEnv) (pick : Nat → Nat) (placed : PlacedPlan) :
    ExecM Unit := do
  onProgress (throwIfCancelled env.stop .execution)
  placed.plan.records.zipIdx.forM fun r =>
    executeRecord readers env pick placed.planIndex placed.plan placed.segmentId r.2 r.1

/-- The loop over the segments, and the drains at its end. -/
def executePlans (readers : Readers) (env : ScanEnv) (pick : Nat → Nat)
    (order : List PlacedPlan) : ExecM Unit :=
  tryCatch
    (do
      order.forM (executePlan readers env pick)
      drainQueueWhile (fun s => !s.inFlight.isEmpty) (drainAndCheck readers env pick))
    fun e => do
      modify drainRemainingPayloadWork
      throw e

/-! ### The run -/

/-- The loop over the plans that upserts their segments. -/
def upsertSegments (env : ScanEnv) : List SegmentPlan → ExecM (List Nat)
  | [] => pure []
  | plan :: plans => do
    onProgress (throwIfCancelled env.stop .segmentUpsert)
    let segmentId ← upsertSegment env plan
    let segmentIds ← upsertSegments env plans
    return segmentId :: segmentIds

/-- The catalog writer is made and the segments are upserted, when there is a database. -/
def prepareCatalog (env : ScanEnv) (plans : List SegmentPlan) : ExecM (List Nat) :=
  if env.persistent then do
    startWriter env
    upsertSegments env plans
  else pure (plans.map fun _ => 0)

/-- The plans with their positions and segments. -/
def placedPlans (plans : List SegmentPlan) (segmentIds : List Nat) : List PlacedPlan :=
  (plans.zip segmentIds).zipIdx.map fun p => ⟨p.1.1, p.2, p.1.2⟩

def changedSegmentIds (placed : List PlacedPlan) : List Nat :=
  (placed.filter fun p => p.plan.change.isRead).map PlacedPlan.segmentId

/-- The order of execution: by the path of the archive, then by the position. -/
def executesBefore (p q : PlacedPlan) : Prop :=
  if p.plan.resolvedArchivePath = q.plan.resolvedArchivePath then p.planIndex ≤ q.planIndex
  else byteOrder p.plan.resolvedArchivePath q.plan.resolvedArchivePath

instance : DecidableRel executesBefore := fun p q => by
  rw [executesBefore]
  infer_instance

/-- `executionPlanIndices` after the sort. -/
def executionOrder (placed : List PlacedPlan) : List PlacedPlan :=
  (placed.filter fun p => p.plan.change.isRead).insertionSort executesBefore

/-- The LibIds of present locations in the named segments, each with its place in the set. -/
def insertActiveIds (maxRecords : Nat) : List Bytes → List Bytes → Except Failure (List Bytes)
  | ids, [] => .ok ids
  | ids, libId :: libIds => do
    let inserted ← insertActiveLibId ids libId maxRecords
    insertActiveIds maxRecords (inserted.getD ids) libIds

def readActiveInpxIdsForSegments (env : ScanEnv) (db : Database) (segmentNames : List Bytes) :
    Except Failure (List Bytes) :=
  if ¬env.persistent ∨ segmentNames = [] then .ok []
  else insertActiveIds env.planningLimits.maxRecords []
    ((db.locations.rows.filter fun l => l.presentInSegment &&
      (db.segments.find? l.segmentId).any fun s =>
        segmentNames.contains s.inpEntryName).map LocationRow.libId)

/-- `unchangedSegmentNamesUtf8`. -/
def unchangedSegmentNames (plans : List SegmentPlan) : List Bytes :=
  (plans.filter fun plan => plan.change = .unchanged).map fun plan => plan.payload.inpEntryName

/-- The warnings of the plans, and the ids that unchanged segments have active. -/
def prepareExecution (env : ScanEnv) (plans : List SegmentPlan) (committed : Database) :
    ExecM Unit := do
  (plans.flatMap SegmentPlan.warnings).forM fun warning =>
    publishWarning env (planWarning warning) false
  let activeIds ←
    ofFileSystem (readActiveInpxIdsForSegments env committed (unchangedSegmentNames plans))
  modify fun s => { s with processedActiveIds := activeIds }
  onProgress (runCheckpoints env.stop .execution plans.length)
  onProgress (runCheckpoints env.stop .execution (env.executionSortComparisons / 1024))
  onProgress (throwIfCancelled env.stop .execution)

/-- The catalog is finished, when there is a database. -/
def finishCatalog (readers : Readers) (env : ScanEnv) (sourceFingerprint : Bytes)
    (plans : List SegmentPlan) (archiveGuards : List (Bytes × ArchiveScanGuard))
    (changedSegmentIds : List Nat) : ExecM Unit :=
  if env.persistent then do
    onProgress (publishSnapshot fun snapshot => { snapshot with
      message := ascii "Publishing INPX " ++ buildModeLabel env.mode ++ ascii " atomically." })
    let markedUnavailable ←
      finish readers env sourceFingerprint plans archiveGuards changedSegmentIds
    modify fun s => { s with
      applyResult := { s.applyResult with markedUnavailableRecords := markedUnavailable } }
    onProgress (publishSnapshot fun snapshot => { snapshot with
      markedUnavailableRecords := markedUnavailable })
  else pure ()

/-- The result of a scan that came to its end. -/
def scanResult (env : ScanEnv) (s : ExecState) : ScanJobResult where
  snapshot := { s.progress.snapshot with
    status := .completed
    percent := 100
    message := if env.persistent
      then ascii "INPX " ++ buildModeLabel env.mode ++ ascii " completed."
      else ascii "INPX " ++ buildModeLabel env.mode ++ ascii " planning completed." }
  scanResult := some
    { warningCount := s.scanWarningCount
      parserWarningCount := s.applyResult.parserWarningCount
      coverWarningCount := s.applyResult.coverWarningCount
      metadataFallbackCount := s.applyResult.metadataFallbacks.total
      titleFallbackCount := s.applyResult.metadataFallbacks.titleFallbackCount
      authorFallbackCount := s.applyResult.metadataFallbacks.authorFallbackCount
      languageFallbackCount := s.applyResult.metadataFallbacks.languageFallbackCount }

/-- `RunScan` from the catalog writer on. `committed` is the catalog before the scan. -/
def executeScan (readers : Readers) (env : ScanEnv) (pick : Nat → Nat) (committed : Database)
    (plans : List SegmentPlan) (archiveGuards : List (Bytes × ArchiveScanGuard))
    (sourceFingerprint : Bytes) : ExecM ScanJobResult := do
  let segmentIds ← prepareCatalog env plans
  prepareExecution env plans committed
  let placed := placedPlans plans segmentIds
  executePlans readers env pick (executionOrder placed)
  finishCatalog readers env sourceFingerprint plans archiveGuards (changedSegmentIds placed)
  return scanResult env (← get)

/-- What a scan finds and leaves: the catalog, the files of the cache, and the counter of
`MakeScanId`. -/
structure World where
  database : Database
  covers : CoverStore
  sequence : Nat := 0

def ExecState.start (world : World) (progress : Progress) : ExecState where
  progress := progress
  database := world.database
  covers := world.covers
  sequence := world.sequence

/-- What is left of an execution: a transaction that was not committed is rolled back, and the
destructor of the writer removes the covers it wrote. -/
def World.settle (world : World) (s : ExecState) : World :=
  if s.committed then ⟨s.database, s.covers, s.sequence⟩
  else ⟨world.database, s.covers.removeAll s.writtenCoverPaths, s.sequence⟩

structure ScanRun where
  result : Except Exception ScanJobResult
  progress : Progress
  world : World
  committed : Bool := false
  counterUnderflow : Bool := false
  budgetExceeded : Bool := false

/-- The run that ends with a state of the execution. -/
def ScanRun.ofExec (world : World) (result : Except Exception ScanJobResult) (s : ExecState) :
    ScanRun where
  result := result
  progress := s.progress
  world := world.settle s
  committed := s.committed
  counterUnderflow := s.counterUnderflow
  budgetExceeded := s.budgetExceeded

/-- The state the planning starts from: the job as `Start` registered it. -/
def PlanState.start (env : ScanEnv) : PlanState where
  progress := { snapshot := { jobId := env.jobId } }

def runScan (readers : Readers) (env : ScanEnv) (pick : Nat → Nat) (world : World) : ScanRun :=
  match planScan readers env world.database (.start env) with
  | .error e s => { result := .error e, progress := s.progress, world := world }
  | .ok sourceFingerprint s =>
    match executeScan readers env pick world.database s.plans s.archiveGuards sourceFingerprint
        (.start world s.progress) with
    | .ok result s' => .ofExec world (.ok result) s'
    | .error e s' => .ofExec world (.error e) s'

/-- The end of the worker of a job: what is published as its result. -/
def finishJob (run : ScanRun) : ScanJobResult :=
  match run.result with
  | .ok result => result
  | .error .cancelled =>
    { snapshot := { run.progress.snapshot with
        status := .cancelled
        message := ascii "INPX scan cancelled." }
      error := some ⟨.cancellation, ascii "INPX scan cancelled."⟩ }
  | .error (.failed failure) =>
    let what := match failure with
      | .standard text => text
      | .nonStandard => ascii "INPX scan failed with a non-standard exception."
    { snapshot := { run.progress.snapshot with status := .failed, message := what }
      error := some ⟨.parserFailure, what⟩ }

/-! ### Two small snapshots

The scans that the examples run: a first snapshot with one book, and a second one with a new text
of that book and another book. -/

/-- The fields of an INP line of a book without a declared size. -/
def sampleLine (title fileName libId : String) : Bytes :=
  ascii "Doe,Jane:" ++ [4] ++ ascii "sf:" ++ [4] ++ ascii title ++ [4, 4, 4] ++ ascii fileName ++
    [4] ++ ascii "0" ++ [4] ++ ascii libId ++ [4] ++ ascii "0" ++ [4] ++ ascii "fb2" ++ [4, 4] ++
    ascii "en" ++ [4, 4, 4]

def sampleRecord (title fileName libId : String) : InpxRecord where
  authors := [⟨ascii "Jane Doe", ascii "Doe", ascii "Jane", []⟩]
  genres := [ascii "sf"]
  title := ascii title
  fileName := ascii fileName
  libId := ascii libId
  language := ascii "en"
  inpEntryName := ascii "books.inp"
  archiveName := ascii "books"
  entryName := ascii fileName ++ ascii ".fb2"

/-- The segment of the first snapshot. -/
def firstInp : Bytes := sampleLine "First" "a" "1"

/-- The segment of the second snapshot. -/
def secondInp : Bytes := sampleLine "First" "a" "1" ++ [10] ++ sampleLine "Second" "b" "2"

def firstCover : Bytes := [255, 216, 1, 2]

def secondCover : Bytes := [255, 216, 3, 4]

/-- SHA-256 of the byte strings that the examples hash. -/
def sampleDigest (bytes : Bytes) : Bytes :=
  if bytes = [] then
    [227, 176, 196, 66, 152, 252, 28, 20, 154, 251, 244, 200, 153, 111, 185, 36, 39, 174, 65, 228,
      100, 155, 147, 76, 164, 149, 153, 27, 120, 82, 184, 85]
  else if bytes = firstInp then
    [138, 139, 119, 152, 104, 117, 180, 169, 84, 38, 242, 102, 161, 130, 161, 237, 218, 121, 80, 85,
      204, 107, 137, 108, 197, 241, 40, 2, 252, 88, 192, 226]
  else if bytes = secondInp then
    [88, 93, 228, 8, 21, 159, 200, 19, 195, 81, 81, 27, 201, 134, 113, 223, 118, 71, 70, 127, 186,
      114, 246, 247, 123, 101, 121, 130, 8, 53, 193, 59]
  else if bytes = ascii "PK first" then
    [74, 138, 109, 161, 213, 224, 250, 182, 115, 167, 242, 229, 55, 128, 238, 17, 104, 125, 239, 32,
      240, 153, 142, 50, 111, 138, 106, 43, 205, 91, 215, 68]
  else if bytes = ascii "PK second" then
    [167, 189, 235, 118, 66, 231, 29, 238, 52, 223, 250, 184, 18, 54, 44, 226, 96, 36, 175, 232,
      115, 51, 162, 76, 60, 129, 223, 49, 82, 33, 160, 2]
  else if bytes = firstCover then
    [130, 76, 249, 25, 221, 86, 122, 226, 67, 150, 103, 229, 36, 180, 158, 180, 229, 252, 117, 149,
      184, 23, 235, 232, 6, 156, 13, 101, 40, 208, 152, 182]
  else
    [248, 201, 139, 23, 210, 101, 237, 119, 127, 75, 164, 33, 5, 177, 171, 240, 55, 151, 48, 74,
      183, 160, 81, 242, 36, 35, 183, 36, 230, 162, 142, 93]

theorem length_sampleDigest (bytes : Bytes) : (sampleDigest bytes).length = 32 := by
  rw [sampleDigest]
  split_ifs <;> rfl

/-- The trace of a segment with the given records, one per line. -/
def sampleTrace (records : List InpxRecord) : ParseTrace where
  events := records.map .record
  outcome := .ok
    { inpEntryCount := 1
      totalRecords := records.length
      parsedRecords := records.length }

/-- The payload of a book with the given cover. -/
def samplePayload (title : String) (cover : Bytes) (h : cover.length < 2 ^ 63) :
    PreparedPayload where
  parsedBook :=
    { metadata :=
        { title := ascii title, authors := [ascii "Jane Doe"], language := ascii "en",
          genres := [ascii "sf"] }
      coverExtension := if cover = [] then none else some (ascii "jpg")
      coverBytes := cover }
  coverBytes_lt := h

/-- The readings that the examples need. -/
def sampleReaders : Readers where
  sha := ⟨sampleDigest, length_sampleDigest⟩
  parser := fun payload =>
    if payload.bytes = firstInp then sampleTrace [sampleRecord "First" "a" "1"]
    else sampleTrace [sampleRecord "First" "a" "1", sampleRecord "Second" "b" "2"]
  payload := fun bytes _ _ _ =>
    if bytes = ascii "<FictionBook>First, with a cover</FictionBook>" then
      .ok (samplePayload "First" firstCover (by decide))
    else if bytes = ascii "<FictionBook>First</FictionBook>" then
      .ok (samplePayload "First" [] (by decide))
    else .ok (samplePayload "Second" secondCover (by decide))

/-- A scan of a snapshot with one segment, whose payloads are the given texts. -/
def sampleEnv (mode : ScanMode) (inpx inp : Bytes) (payloads : Nat → String) (millis : Nat) :
    ScanEnv where
  mode := mode
  millis := millis
  sourceFile := .of inpx
  sourceFileAtCommit := .of inpx
  snapshotFile := .of inpx
  entries := .ok [⟨ascii "books.inp", inp.length, .of inp⟩]
  archiveRoot := { resolveCandidate := fun path => .ok (some path) }
  archiveFileState := fun _ => .ok ⟨100, 7⟩
  planManifest := fun _ => .of (ascii "sha256:manifest")
  validatedManifest := fun _ => .of ⟨ascii "sha256:manifest", 100⟩
  executionManifest := fun _ => .of (ascii "sha256:manifest")
  entrySize := fun _ recordIndex => .ok (payloads recordIndex).length
  entryBytes := fun _ recordIndex => .of (ascii (payloads recordIndex))
  guardState := fun _ => .ok ⟨100, 7⟩
  guardManifest := fun _ => .of (ascii "sha256:manifest")

def firstEnv : ScanEnv :=
  sampleEnv .initialScan (ascii "PK first") firstInp
    (fun _ => "<FictionBook>First, with a cover</FictionBook>") 1000

def secondEnv : ScanEnv :=
  sampleEnv .rescan (ascii "PK second") secondInp
    (fun recordIndex => if recordIndex = 0 then "<FictionBook>First</FictionBook>"
      else "<FictionBook>Second, with a cover</FictionBook>") 2000

def emptyWorld : World where
  database := .initial ⟨ascii "library.inpx", ascii "sha256:", none, none, none⟩ 0
  covers := fun _ => none

example : (runScan sampleReaders firstEnv (fun _ => 0) emptyWorld).committed = true := by
  decide +kernel

end InpxWebReader.Scan
