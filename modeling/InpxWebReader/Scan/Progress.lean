import InpxWebReader.Foundation.Exception
import InpxWebReader.Library.Program

/-!
# Progress and cancellation

The snapshot a scan job publishes, and the checkpoints at which the scan looks for a stop request.
A stop request arrives from outside at any time; it is described by the number of the first
checkpoint that sees it. `observedAt` remembers the checkpoint at which the scan did see it.
-/

namespace InpxWebReader.Scan

open Foundation Program

/-- `EInpxScanMode`. -/
inductive ScanMode
  | initialScan
  | rescan
  deriving DecidableEq, Repr

def buildModeLabel : ScanMode → Bytes
  | .initialScan => ascii "initial scan"
  | .rescan => ascii "rescan"

/-- `EInpxScanJobStatus`. -/
inductive ScanJobStatus
  | pending
  | running
  | completed
  | failed
  | cancelled
  | cancelling
  deriving DecidableEq, Repr

/-- `SInpxScanJobSnapshot`. -/
structure ScanJobSnapshot where
  jobId : Nat := 0
  status : ScanJobStatus := .pending
  percent : Nat := 0
  message : Bytes := []
  warnings : List Bytes := []
  totalRecords : Nat := 0
  scannedRecords : Nat := 0
  parsedFb2Records : Nat := 0
  addedRecords : Nat := 0
  updatedRecords : Nat := 0
  markedUnavailableRecords : Nat := 0
  skippedRecords : Nat := 0
  reusedRecords : Nat := 0
  segmentsTotal : Nat := 0
  segmentsUnchanged : Nat := 0
  segmentsAdded : Nat := 0
  segmentsChanged : Nat := 0
  segmentsRemoved : Nat := 0
  archivesSkipped : Nat := 0
  archivesOpened : Nat := 0
  archiveBytesRead : Nat := 0
  currentArchiveName : Bytes := []
  currentEntryName : Bytes := []
  deriving DecidableEq, Repr

def ScanJobStatus.isTerminal (status : ScanJobStatus) : Bool :=
  status = .completed || status = .failed || status = .cancelled

/-- `SInpxScanJobSnapshot::IsTerminal`. -/
def ScanJobSnapshot.isTerminal (snapshot : ScanJobSnapshot) : Bool := snapshot.status.isTerminal

/-- `SInpxScanResult`. -/
structure ScanResult where
  warningCount : Nat := 0
  parserWarningCount : Nat := 0
  coverWarningCount : Nat := 0
  metadataFallbackCount : Nat := 0
  titleFallbackCount : Nat := 0
  authorFallbackCount : Nat := 0
  languageFallbackCount : Nat := 0
  deriving DecidableEq, Repr

/-- The codes of `EDomainErrorCode` that a scan reports. -/
inductive DomainErrorCode
  | cancellation
  | parserFailure
  deriving DecidableEq, Repr

structure DomainError where
  code : DomainErrorCode
  message : Bytes
  deriving DecidableEq, Repr

/-- `SInpxScanJobResult`. -/
structure ScanJobResult where
  snapshot : ScanJobSnapshot := {}
  scanResult : Option ScanResult := none
  error : Option DomainError := none
  deriving DecidableEq, Repr

/-! ### Checkpoints -/

/-- The places at which a scan looks for a stop request. -/
inductive CheckpointSite
  | sourceHashing
  | archiveRootIndexing
  | inpParsing
  | archiveResolution
  | manifestReading
  | payloadValidation
  | writerStart
  | segmentUpsert
  | execution
  | payloadReading
  | payloadDraining
  | finish
  deriving DecidableEq, Repr

/-- What a scan publishes, and where it stands with respect to a stop request. -/
structure Progress where
  snapshot : ScanJobSnapshot := {}
  /-- the snapshots published so far, the newest first -/
  published : List ScanJobSnapshot := []
  /-- the number of checkpoints passed -/
  clock : Nat := 0
  observedAt : Option CheckpointSite := none

/-- When a stop is requested: the number of the first checkpoint that sees it. -/
structure StopRequest where
  stopAt : Option Nat := none
  mode : ScanMode

def StopRequest.requested (stop : StopRequest) (progress : Progress) : Bool :=
  stop.stopAt.any (· ≤ progress.clock)

abbrev ProgressM := EStateM Exception Progress

def publishSnapshot (update : ScanJobSnapshot → ScanJobSnapshot) : ProgressM Unit :=
  modify fun p => { p with
    snapshot := update p.snapshot
    published := update p.snapshot :: p.published }

def throwIfCancelled (stop : StopRequest) (site : CheckpointSite) : ProgressM Unit := do
  if stop.requested (← get) then
    publishSnapshot fun snapshot => { snapshot with
      status := .cancelling
      message := ascii "Cancelling INPX " ++ buildModeLabel stop.mode ++ ascii "." }
    modify fun p => { p with observedAt := some site }
    throw .cancelled
  else
    modify fun p => { p with clock := p.clock + 1 }

/-- A checkpoint passed several times. -/
def runCheckpoints (stop : StopRequest) (site : CheckpointSite) : Nat → ProgressM Unit
  | 0 => pure ()
  | n + 1 => do
    throwIfCancelled stop site
    runCheckpoints stop site n

def computePercent (scannedRecords totalRecords : Nat) : Nat :=
  if totalRecords = 0 then 0 else min 99 (scannedRecords * 100 / totalRecords)

/-- An operation outside the scan, with its checkpoints. -/
def runCall {α : Type} (stop : StopRequest) (site : CheckpointSite) (call : Call α) :
    ProgressM α := do
  runCheckpoints stop site call.checkpoints
  Program.ofExcept (call.result.mapError .failed)

end InpxWebReader.Scan
