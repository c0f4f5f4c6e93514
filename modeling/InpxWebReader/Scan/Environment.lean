import InpxWebReader.Database.Statistics
import InpxWebReader.Inpx.Record
import InpxWebReader.Scan.ArchiveRootIndex
import InpxWebReader.Scan.Limits

/-!
# What a scan is given

`Readers` are the deterministic readings of bytes: the digest, the segment parser and the parsing
of a payload. `ScanEnv` is everything else a single run is given: its request and configuration,
the clock, the answers of the file system and the archives, when a stop is requested, and which of
its steps fail for a reason outside the program.
-/

namespace InpxWebReader.Scan

open Foundation Domain Inpx Database

/-- `SPreparedInpxPayload`. A vector of bytes has fewer than `2 ^ 63` of them. -/
structure PreparedPayload where
  parsedBook : ParsedBook
  coverWarningCount : Nat := 0
  coverBytes_lt : parsedBook.coverBytes.length < 2 ^ 63

structure Readers where
  sha : Sha256
  /-- `CInpxParser::ParseSegment` -/
  parser : Parser
  /-- `ParseInpxPayloadBytes` of a payload and its record, with `prepareCoverForCache` and
  `maxDecodedCoverBytes` -/
  payload : Bytes → InpxRecord → Bool → Nat → Except Failure PreparedPayload

/-- `SInpxArchiveFileState`. -/
structure ArchiveFileState where
  fileSizeBytes : Nat := 0
  mtimeTicks : Int := 0
  deriving DecidableEq

/-- `SInpxArchiveManifest`. -/
structure ArchiveManifest where
  fingerprint : Bytes
  payloadBytesValidated : Nat := 0
  deriving DecidableEq

/-- What one run of the scan is given. -/
structure ScanEnv where
  jobId : Nat := 0
  mode : ScanMode
  warningLimit : Nat := 50
  /-- is there a database, or does the scan only plan? -/
  persistent : Bool := true
  maxWorkerCount : Nat := 0
  hardwareConcurrency : Nat := 2
  maxCoverCacheBytes : Nat := 128 * 1024 * 1024
  maxSteadyStateMemoryBytes : Nat := 1024 * 1024 * 1024
  expectedSourceFingerprint : Option Bytes := none
  sourceFileName : Bytes := []
  /-- the milliseconds of the system clock when the writer starts -/
  millis : Nat
  startedAtUtc : Bytes := []
  /-- the serialized time at a step -/
  now : Nat → Bytes := fun _ => []
  stopAt : Option Nat := none
  /-- the steps of the writer that fail -/
  fault : Nat → Option Failure := fun _ => none
  /-- the INPX file, when its fingerprint is computed before and after the scan -/
  sourceFile : Call Bytes
  sourceFileAtCommit : Call Bytes
  /-- the copy of the INPX file -/
  snapshotCopy : Except Failure Unit := .ok ()
  snapshotFile : Call Bytes
  entries : Except Failure (List ZipEntry)
  archiveRoot : ArchiveRoot
  /-- the answers about the archive of a segment, by the position of the segment -/
  archiveFileState : Nat → Except Failure ArchiveFileState
  planManifest : Nat → Call Bytes
  validatedManifest : Nat → Call ArchiveManifest
  executionManifest : Nat → Call Bytes
  /-- the answers about a payload, by the positions of its segment and its record -/
  entrySize : Nat → Nat → Except Failure Nat
  entryBytes : Nat → Nat → Call Bytes
  /-- what a worker answers when it notices the stop request -/
  stoppedWorker : Nat → Nat → Option (Except Failure PreparedPayload) := fun _ _ => none
  /-- how often the database is locked before the transaction begins, or fails to -/
  lockedAttempts : Nat := 0
  beginFailure : Option Failure := none
  /-- the comparisons that sorting the changed segments takes -/
  executionSortComparisons : Nat := 0
  sourceFiles : SourceFiles := {}
  /-- the archives at the end of the scan, by their persisted path -/
  guardState : Bytes → Except Failure ArchiveFileState
  guardManifest : Bytes → Call Bytes
  /-- the files that the walk of the cover garbage collection comes to -/
  collectorReaches : Bytes → Bool := fun _ => true

namespace ScanEnv

def stop (env : ScanEnv) : StopRequest := ⟨env.stopAt, env.mode⟩

/-- `planningLimits` of `RunScan`. -/
def planningLimits (env : ScanEnv) : ScanPlanningLimits :=
  resolveScanPlanningLimits (resolvePlanningStateBudget env.maxSteadyStateMemoryBytes)

/-- `maxInFlightPayloads` of `RunScan`. -/
def maxInFlightPayloads (env : ScanEnv) : Nat :=
  resolveInpxPayloadWorkerWindow env.maxWorkerCount env.hardwareConcurrency

/-- `maxInFlightPayloadBytes` of `RunScan`. -/
def maxInFlightPayloadBytes (env : ScanEnv) : Nat :=
  resolveInFlightPayloadBudget env.maxSteadyStateMemoryBytes

/-- `ResolveCoverDecodeBudget`. -/
def maxDecodedCoverBytes (env : ScanEnv) : Nat :=
  let aggregateCoverBudget := env.maxSteadyStateMemoryBytes - env.maxSteadyStateMemoryBytes / 2 -
    resolveInFlightPayloadBudget env.maxSteadyStateMemoryBytes
  min (64 * 1024 * 1024) (aggregateCoverBudget / max 1 env.maxInFlightPayloads)

end ScanEnv

end InpxWebReader.Scan
