import InpxWebReader.Database.Locations
import InpxWebReader.Scan.Environment

/-!
# Planning a scan

The scan reads its snapshot of the INPX file segment by segment and decides for each what to do:
`unchanged` segments keep their rows, `added` and `changed` ones are read again, and the segments
the snapshot does not have any more are `removed`. Planning reads the committed catalog and never
writes to it.
-/

namespace InpxWebReader.Scan

open Foundation Domain Inpx Program
open Database (byteOrder)

/-- `EInpxSegmentChange`. -/
inductive SegmentChange
  | unchanged
  | added
  | changed
  | removed
  deriving DecidableEq, Repr

/-- Are the records of such a segment read? -/
def SegmentChange.isRead (change : SegmentChange) : Bool := change = .added || change = .changed

structure ExistingInpxSegment where
  id : Nat
  inpEntryName : Bytes
  archiveName : Bytes
  inpFingerprint : Bytes
  segmentOrder : Nat
  summary : InpxParseSummary
  availability : Availability
  requiresArchive : Bool
  resolvedArchivePath : Option Bytes
  archiveFileState : ArchiveFileState
  archiveManifestFingerprint : Option Bytes
  deriving DecidableEq

/-- `SInpxSegmentPlan`. The ids of `deletedLibIds` are a set. -/
structure SegmentPlan where
  change : SegmentChange := .added
  payload : InpxSegmentPayload
  summary : InpxParseSummary := {}
  records : List InpxRecord := []
  warnings : List InpxWarning := []
  deletedLibIds : List Bytes := []
  segmentOrder : Nat
  requiresArchive : Bool := false
  resolvedArchivePath : Bytes := []
  archiveFileState : ArchiveFileState := {}
  archiveManifestFingerprint : Bytes := []
  existingId : Option Nat := none
  archiveOpened : Bool := false
  deriving DecidableEq

/-- `EInpxArchiveGuardPhase`. -/
inductive ArchiveGuardPhase
  | fileStateRead
  | manifestRead
  | payloadsValidated
  deriving DecidableEq, Repr

/-- `SInpxArchiveScanGuard`. -/
structure ArchiveScanGuard where
  archiveName : Bytes
  resolvedArchivePath : Bytes
  fileState : ArchiveFileState
  manifestFingerprint : Bytes := []
  phase : ArchiveGuardPhase := .fileStateRead
  deriving DecidableEq

structure PlanState where
  progress : Progress := {}
  rootIndex : RootIndex := {}
  plans : List SegmentPlan := []
  archiveGuards : List (Bytes × ArchiveScanGuard) := []
  currentSegmentNames : List Bytes := []
  plannedRecordCount : Nat := 0
  retainedWarningCount : Nat := 0

abbrev PlanM := EStateM Exception PlanState

namespace PlanState

def onProgress {α : Type} (c : ProgressM α) : PlanM α :=
  zoom PlanState.progress (fun p s => { s with progress := p }) c

def onLookup {α : Type} (c : LookupM α) : PlanM α :=
  zoom (fun s => ⟨s.progress, s.rootIndex⟩)
    (fun l s => { s with progress := l.progress, rootIndex := l.rootIndex }) c

/-- The guard of an archive replaced. -/
def setGuard (path : Bytes) (archiveGuard : ArchiveScanGuard) (s : PlanState) : PlanState :=
  { s with archiveGuards := (path, archiveGuard) :: s.archiveGuards.filter fun g => g.1 ≠ path }

end PlanState

open PlanState

/-- A check of the program that fails with a `std::runtime_error`. -/
def check {σ : Type} (result : Except Failure Unit) : EStateM Exception σ Unit :=
  Program.ofExcept (result.mapError .failed)

/-! ### The catalog as it stands -/

/-- The row of `ReadExistingInpxSegments`. -/
def existingInpxSegment (row : Database.SegmentRow) : ExistingInpxSegment where
  id := row.id
  inpEntryName := row.inpEntryName
  archiveName := row.archiveName
  inpFingerprint := row.inpFingerprint
  segmentOrder := row.segmentOrder
  summary :=
    { inpEntryCount := 1
      totalRecords := row.recordCount
      parsedRecords := row.activeRecordCount.toNat + row.deletedRecordCount
      deletedRecords := row.deletedRecordCount }
  availability := row.availability
  requiresArchive := row.requiresArchive
  resolvedArchivePath := row.resolvedArchivePath
  archiveFileState := ⟨row.archiveFileSizeBytes, row.archiveMtimeTicks⟩
  archiveManifestFingerprint := row.archiveManifestFingerprint

/-- `ReadExistingInpxSegments`, in the order of the names. -/
def readExistingInpxSegments (env : ScanEnv) (db : Database) :
    Except Failure (List ExistingInpxSegment) :=
  if ¬env.persistent then .ok []
  else if db.source.isNone then .error (runtimeError "INPX source row is missing.")
  else if env.planningLimits.maxSegments < db.segments.rows.length then
    .error (collectionFull env.planningLimits.maxSegments "segment count")
  else .ok ((db.segments.rows.map existingInpxSegment).insertionSort
    fun a b => byteOrder a.inpEntryName b.inpEntryName)

/-! ### One segment -/

def maxRetainedPlanningWarnings : Nat := 1000

/-- A record handed out by the parser, kept in the plan. -/
def keepRecord (inpxRecord : InpxRecord) (plan : SegmentPlan) : SegmentPlan :=
  { plan with
    records := plan.records ++ [inpxRecord]
    deletedLibIds :=
      if inpxRecord.deleted ∧ inpxRecord.libId ∉ plan.deletedLibIds
      then plan.deletedLibIds ++ [inpxRecord.libId] else plan.deletedLibIds
    requiresArchive := plan.requiresArchive || (!inpxRecord.deleted && inpxRecord.isFb2) }

/-- The failure of a segment with a record that cannot be read. -/
def invalidRecord (warning : InpxWarning) : Failure :=
  .standard (ascii "Invalid INPX record in " ++ quoted warning.inpEntryName ++ ascii " at line " ++
    decimal warning.lineNumber ++ ascii ": " ++ warning.message)

/-- The callbacks of `parseSegment`, in the order in which the parser calls them. -/
def handleParseEvents (env : ScanEnv) : List ParseEvent → SegmentPlan → PlanM SegmentPlan
  | [], plan => pure plan
  | .checkpoint :: events, plan => do
    onProgress (throwIfCancelled env.stop .inpParsing)
    handleParseEvents env events plan
  | .record inpxRecord :: events, plan => do
    check (requireCollectionRoom (← get).plannedRecordCount env.planningLimits.maxRecords
      "retained record count")
    modify fun s => { s with plannedRecordCount := s.plannedRecordCount + 1 }
    handleParseEvents env events (keepRecord inpxRecord plan)
  | .warning warning :: events, plan =>
    if warning.recordSkipped then throw (.failed (invalidRecord warning))
    else do
      if (← get).retainedWarningCount < maxRetainedPlanningWarnings then
        modify fun s => { s with retainedWarningCount := s.retainedWarningCount + 1 }
        handleParseEvents env events { plan with warnings := plan.warnings ++ [warning] }
      else
        handleParseEvents env events plan

def parseSegment (readers : Readers) (env : ScanEnv) (plan : SegmentPlan) : PlanM SegmentPlan := do
  let trace := readers.parser plan.payload
  let plan ← handleParseEvents env trace.events plan
  let summary ← Program.ofExcept (trace.outcome.mapError .failed)
  return { plan with summary := summary }

/-- The text of an archive that is not there. -/
def archiveMissing (plan : SegmentPlan) (what : Bytes) : Bytes :=
  ascii "INPX archive " ++ quoted plan.payload.archiveName ++
    ascii " is missing or inaccessible: " ++ what

/-- The text of an archive that cannot be read. -/
def archiveDamaged (plan : SegmentPlan) (what : Bytes) : Bytes :=
  ascii "INPX archive " ++ quoted plan.payload.archiveName ++
    ascii " is unavailable or damaged: " ++ what

/-- The guard of an archive, made when the scan comes to the archive first. -/
def archiveGuardOf (env : ScanEnv) (plan : SegmentPlan) (path : Bytes) :
    PlanM ArchiveScanGuard := do
  let s ← get
  match s.archiveGuards.lookup path with
  | some archiveGuard => return archiveGuard
  | none =>
    check (requireCollectionRoom s.archiveGuards.length env.planningLimits.maxSegments
      "archive guard count")
    let fileState ← ofFileSystem (env.archiveFileState plan.segmentOrder)
    let archiveGuard : ArchiveScanGuard :=
      { archiveName := plan.payload.archiveName, resolvedArchivePath := path, fileState := fileState }
    modify (setGuard path archiveGuard)
    return archiveGuard

/-- `readArchiveState`. Its handler catches every `std::exception`. -/
def readArchiveState (env : ScanEnv) (plan : SegmentPlan) : PlanM SegmentPlan :=
  tryCatch
    (do
      let path ← onLookup (resolvePortableInpxArchivePath env.stop env.archiveRoot
        env.planningLimits.maxFilesystemEntries plan.payload.archiveName)
      let archiveGuard ← archiveGuardOf env plan path
      return { plan with resolvedArchivePath := path, archiveFileState := archiveGuard.fileState })
    fun e => throw (e.rethrowAs (archiveMissing plan))

def existingGuard (plan : SegmentPlan) : PlanM ArchiveScanGuard := do
  match (← get).archiveGuards.lookup plan.resolvedArchivePath with
  | some archiveGuard => return archiveGuard
  | none => throw (.failed (runtimeError "map::at"))

def readArchiveManifest (env : ScanEnv) (plan : SegmentPlan) : PlanM SegmentPlan :=
  tryCatch
    (do
      let archiveGuard ← existingGuard plan
      if archiveGuard.phase = .fileStateRead then
        let fingerprint ← onProgress
          (runCall env.stop .manifestReading (env.planManifest plan.segmentOrder))
        modify (setGuard plan.resolvedArchivePath { archiveGuard with
          manifestFingerprint := fingerprint, phase := .manifestRead })
        return { plan with archiveOpened := true, archiveManifestFingerprint := fingerprint }
      else
        return { plan with archiveManifestFingerprint := archiveGuard.manifestFingerprint })
    fun e => throw (e.rethrowUnlessCancelled (archiveDamaged plan))

def validateArchivePayloads (env : ScanEnv) (plan : SegmentPlan) : PlanM Unit :=
  tryCatch
    (do
      let archiveGuard ← existingGuard plan
      if archiveGuard.phase = .payloadsValidated then pure ()
      else
        require (archiveGuard.phase = .manifestRead)
          (.failed (runtimeError "archive manifest was not read before payload validation"))
        let manifest ← onProgress
          (runCall env.stop .payloadValidation (env.validatedManifest plan.segmentOrder))
        require (manifest.fingerprint = archiveGuard.manifestFingerprint)
          (.failed (runtimeError "archive manifest changed while its payloads were being validated"))
        onProgress (publishSnapshot fun snapshot => { snapshot with
          archiveBytesRead := snapshot.archiveBytesRead + manifest.payloadBytesValidated })
        modify (setGuard plan.resolvedArchivePath { archiveGuard with phase := .payloadsValidated }))
    fun e => throw (e.rethrowUnlessCancelled (archiveDamaged plan))

def reuseExisting (existing : ExistingInpxSegment) (plan : SegmentPlan) : SegmentPlan :=
  { plan with change := .unchanged, summary := existing.summary }

def canReuseExisting (env : ScanEnv) (payload : InpxSegmentPayload)
    (existing : ExistingInpxSegment) : Bool :=
  env.mode = .rescan && existing.inpFingerprint = payload.fingerprint &&
    existing.availability = .available

/-- A segment that may be reused and has an archive: the archive decides. -/
def planReusableArchive (readers : Readers) (env : ScanEnv) (existing : ExistingInpxSegment)
    (plan : SegmentPlan) : PlanM SegmentPlan :=
  match existing.resolvedArchivePath, existing.archiveManifestFingerprint with
  | some existingPath, some existingManifest => do
    let plan ← readArchiveState env { plan with requiresArchive := true }
    if existingPath = plan.resolvedArchivePath ∧
        existing.archiveFileState = plan.archiveFileState then
      return { reuseExisting existing plan with archiveManifestFingerprint := existingManifest }
    else
      let plan ← readArchiveManifest env plan
      if existingManifest = plan.archiveManifestFingerprint then
        validateArchivePayloads env plan
        return reuseExisting existing plan
      else
        parseSegment readers env { plan with change := .changed }
  | _, _ => throw (.failed (.standard (ascii "Cached archive guard is missing for INP segment " ++
      quoted plan.payload.inpEntryName ++ ascii ".")))

/-- A segment whose records are read again. -/
def planReading (readers : Readers) (env : ScanEnv) (plan : SegmentPlan) : PlanM SegmentPlan := do
  let plan ← parseSegment readers env plan
  if plan.requiresArchive then
    let plan ← readArchiveState env plan
    readArchiveManifest env plan
  else
    return plan

def decidePlan (readers : Readers) (env : ScanEnv) (existing : Option ExistingInpxSegment)
    (plan : SegmentPlan) : PlanM SegmentPlan :=
  match existing with
  | none => planReading readers env { plan with change := .added }
  | some existing =>
    if canReuseExisting env plan.payload existing then
      if existing.requiresArchive then planReusableArchive readers env existing plan
      else pure (reuseExisting existing plan)
    else planReading readers env { plan with change := .changed }

/-- The callback of `ReadSegments`: one segment is planned. -/
def planSegment (readers : Readers) (env : ScanEnv) (existingSegments : List ExistingInpxSegment)
    (payload : InpxSegmentPayload) : PlanM Unit := do
  onProgress (throwIfCancelled env.stop .inpParsing)
  let s ← get
  check (requireCollectionRoom s.plans.length env.planningLimits.maxSegments "segment count")
  require (payload.inpEntryName ∉ s.currentSegmentNames)
    (.failed (.standard (ascii "Duplicate INP entry name " ++ quoted payload.inpEntryName ++
      ascii " makes the INPX snapshot ambiguous.")))
  modify fun s => { s with currentSegmentNames := s.currentSegmentNames ++ [payload.inpEntryName] }
  let existing := existingSegments.find? fun e => e.inpEntryName = payload.inpEntryName
  let plan ← decidePlan readers env existing
    { payload := payload
      segmentOrder := s.plans.length
      existingId := existing.map ExistingInpxSegment.id }
  modify fun s => { s with
    plans := s.plans ++ [{ plan with payload := { plan.payload with bytes := [] } }] }

/-! ### The whole snapshot -/

/-- Is an entry of the INPX file a segment? -/
def isSegmentEntry (entry : ZipEntry) : Bool := endsWithAsciiInsensitive entry.name (ascii ".inp")

/-- The loop of `ReadSegments` over the entries, with its counters. -/
def readSegmentEntries (readers : Readers) (env : ScanEnv)
    (existingSegments : List ExistingInpxSegment) (segmentCount totalInputBytes : Nat) :
    List ZipEntry → PlanM Nat
  | [] => pure segmentCount
  | entry :: entries => do
    onProgress (throwIfCancelled env.stop .inpParsing)
    if isSegmentEntry entry then
      require (entry.size ≤ env.planningLimits.maxInpSourceBytes - totalInputBytes)
        (.failed (.standard (ascii ("INPX metadata input exceeds the configured scan planning " ++
          "limit of ") ++ decimal env.planningLimits.maxInpSourceBytes ++ ascii " bytes.")))
      let bytes ← onProgress (runCall env.stop .inpParsing entry.text)
      planSegment readers env existingSegments (segmentPayload readers.sha entry.name bytes)
      readSegmentEntries readers env existingSegments (segmentCount + 1)
        (totalInputBytes + entry.size) entries
    else
      readSegmentEntries readers env existingSegments segmentCount totalInputBytes entries

def readSegments (readers : Readers) (env : ScanEnv)
    (existingSegments : List ExistingInpxSegment) : PlanM Nat := do
  onProgress (throwIfCancelled env.stop .inpParsing)
  let entries ← ofFileSystem env.entries
  readSegmentEntries readers env existingSegments 0 0 entries

/-- The plan for a segment that the snapshot does not have any more. -/
def removedPlan (existing : ExistingInpxSegment) : SegmentPlan where
  change := .removed
  payload :=
    { inpEntryName := existing.inpEntryName
      archiveName := existing.archiveName
      fingerprint := existing.inpFingerprint }
  summary := existing.summary
  segmentOrder := existing.segmentOrder
  requiresArchive := existing.requiresArchive
  resolvedArchivePath := existing.resolvedArchivePath.getD []
  archiveFileState := existing.archiveFileState
  archiveManifestFingerprint := existing.archiveManifestFingerprint.getD []
  existingId := some existing.id

/-- The loop that plans the removed segments. -/
def planRemovedSegments (env : ScanEnv) (existingSegments : List ExistingInpxSegment) :
    PlanM Unit :=
  existingSegments.forM fun existing => do
    let s ← get
    if existing.inpEntryName ∈ s.currentSegmentNames then pure ()
    else
      check (requireCollectionRoom s.plans.length env.planningLimits.maxSegments "segment count")
      modify fun s => { s with plans := s.plans ++ [removedPlan existing] }

/-- The records that the segments of the snapshot have. -/
def totalRecords (plans : List SegmentPlan) : Nat :=
  ((plans.filter fun plan => plan.change ≠ .removed).map fun plan => plan.summary.totalRecords).sum

def publishPlans (modeLabel : Bytes) (plans : List SegmentPlan) (snapshot : ScanJobSnapshot) :
    ScanJobSnapshot :=
  let count (p : SegmentPlan → Bool) := (plans.filter p).length
  let reused := ((plans.filter fun plan => plan.change = .unchanged).map fun plan =>
    plan.summary.totalRecords).sum
  let scannedRecords := snapshot.scannedRecords + reused
  { snapshot with
    totalRecords := totalRecords plans
    segmentsTotal := plans.length
    archivesOpened := snapshot.archivesOpened + count fun plan => plan.archiveOpened
    segmentsUnchanged := snapshot.segmentsUnchanged + count fun plan => plan.change = .unchanged
    archivesSkipped := snapshot.archivesSkipped +
      count fun plan => plan.change = .unchanged && plan.requiresArchive
    scannedRecords := scannedRecords
    reusedRecords := snapshot.reusedRecords + reused
    segmentsAdded := snapshot.segmentsAdded + count fun plan => plan.change = .added
    segmentsChanged := snapshot.segmentsChanged + count fun plan => plan.change = .changed
    segmentsRemoved := snapshot.segmentsRemoved + count fun plan => plan.change = .removed
    percent := computePercent scannedRecords (totalRecords plans)
    message := ascii "Scanning changed INPX segments for " ++ modeLabel ++ ascii "." }

/-- The fingerprint of the source: the expected one, or that of the file. -/
def sourceFingerprintOf (readers : Readers) (env : ScanEnv) : PlanM Bytes :=
  match env.expectedSourceFingerprint with
  | some fingerprint => pure fingerprint
  | none => do
    let bytes ← onProgress (runCall env.stop .sourceHashing env.sourceFile)
    return readers.sha.computeBytes bytes

/-- The fingerprint of the source, and a copy of it that has this fingerprint. -/
def takeSourceSnapshot (readers : Readers) (env : ScanEnv) : PlanM Bytes := do
  onProgress (publishSnapshot fun snapshot => { snapshot with
    status := .running
    message := ascii "Creating a stable INPX snapshot for " ++ buildModeLabel env.mode ++ ascii "." })
  let sourceFingerprint ← sourceFingerprintOf readers env
  ofFileSystem env.snapshotCopy
  let snapshotBytes ← onProgress (runCall env.stop .sourceHashing env.snapshotFile)
  require (readers.sha.computeBytes snapshotBytes = sourceFingerprint)
    (.failed (runtimeError ("INPX source changed while its scan snapshot was being created; " ++
      "retry the scan.")))
  onProgress (throwIfCancelled env.stop .sourceHashing)
  return sourceFingerprint

/-- `RunScan` up to the catalog writer: the fingerprint of the source. The plans and the guards of
their archives are in the state. -/
def planScan (readers : Readers) (env : ScanEnv) (db : Database) : PlanM Bytes := do
  let sourceFingerprint ← takeSourceSnapshot readers env
  onProgress (publishSnapshot fun snapshot => { snapshot with
    message := ascii "Planning changed INPX segments for " ++ buildModeLabel env.mode ++ ascii "." })
  let existingSegments ← Program.ofExcept ((readExistingInpxSegments env db).mapError .failed)
  onProgress (throwIfCancelled env.stop .archiveRootIndexing)
  ofFileSystem env.archiveRoot.canonical
  let currentSegmentCount ← readSegments readers env existingSegments
  require (currentSegmentCount ≠ 0)
    (.failed (runtimeError "INPX snapshot does not contain any .inp segments."))
  planRemovedSegments env existingSegments
  let s ← get
  require (totalRecords s.plans ≤ env.planningLimits.maxRecords)
    (.failed (.standard (ascii "INPX record count exceeds the configured scan limit of " ++
      decimal env.planningLimits.maxRecords ++ ascii " records.")))
  onProgress (publishSnapshot (publishPlans (buildModeLabel env.mode) s.plans))
  return sourceFingerprint

end InpxWebReader.Scan
