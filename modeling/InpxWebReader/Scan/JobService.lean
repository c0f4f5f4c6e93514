import InpxWebReader.Library.Runs
import InpxWebReader.Scan.RunScan
import Mathlib.Logic.Function.Basic

/-!
# The scan job service

`CInpxScanJobService` as a state machine. Each action is one section that runs under a lock: what
the callers of the service do and what the worker thread of a job does to its record, in any order.
A call that looks a record up keeps it, also when the job is removed in the meantime, so `records`
has every record there ever was; `jobs` has the ids in `m_jobs`.

Job ids are natural numbers here: the wrap-around of their 64 bits is left out.
-/

namespace InpxWebReader.Scan

open Foundation Database Program

/-! ### The record of a job -/

/-- How `RunScan` ends. -/
inductive ScanEnd
  | completed (message : Bytes) (scanResult : ScanResult)
  | cancelled
  | failed (what : Bytes)
  deriving DecidableEq, Repr

/-- The result of a scan that ended so, from the snapshot of its job. -/
def ScanEnd.result (snapshot : ScanJobSnapshot) : ScanEnd → ScanJobResult
  | .completed message scanResult =>
    { snapshot := { snapshot with status := .completed, percent := 100, message := message }
      scanResult := some scanResult }
  | .cancelled =>
    { snapshot := { snapshot with
        status := .cancelled
        message := ascii "INPX scan cancelled." }
      error := some ⟨.cancellation, ascii "INPX scan cancelled."⟩ }
  | .failed what =>
    { snapshot := { snapshot with status := .failed, message := what }
      error := some ⟨.parserFailure, what⟩ }

/-- How far the worker of a job has come. -/
inductive WorkerPhase
  | notStarted
  | starting
  | scanning
  | leaving (result : ScanJobResult)
  | finished
  deriving DecidableEq, Repr

/-- `SJobRecord`, with the phase of its worker. -/
structure JobRecord where
  snapshot : ScanJobSnapshot := {}
  result : Option ScanJobResult := none
  phase : WorkerPhase := .notStarted
  stopRequested : Bool := false
  deriving DecidableEq, Repr

/-- What is done to a record under its lock. -/
inductive RecordAction
  | startWorker
  | publishRunning (mode : ScanMode)
  | publishProgress (snapshot : ScanJobSnapshot)
  | checkpoint (mode : ScanMode)
  | leave (scanEnd : ScanEnd)
  | finish
  | cancel
  | requestStop
  deriving DecidableEq, Repr

namespace JobRecord

/-- `record->Worker = std::jthread(…)`: the worker has a stop source of its own, which has not seen
earlier requests. -/
def startWorker (record : JobRecord) : Option JobRecord :=
  if record.phase = .notStarted then some { record with phase := .starting } else none

/-- The first publication of `RunScan`. -/
def publishRunning (mode : ScanMode) (record : JobRecord) : Option JobRecord :=
  if record.phase = .starting then
    some { record with
      phase := .scanning
      snapshot := { record.snapshot with
        status := .running
        message := ascii "Creating a stable INPX snapshot for " ++ buildModeLabel mode ++
          ascii "." } }
  else none

/-- Any later publication of `RunScan` but those of `throwIfCancelled`: it leaves the id and the
status of the snapshot alone. -/
def publishProgress (snapshot : ScanJobSnapshot) (record : JobRecord) : Option JobRecord :=
  if record.phase = .scanning then
    some { record with
      snapshot := { snapshot with
        jobId := record.snapshot.jobId
        status := record.snapshot.status } }
  else none

/-- `throwIfCancelled` that sees the request. -/
def checkpoint (mode : ScanMode) (record : JobRecord) : Option JobRecord :=
  if record.phase = .scanning ∧ record.stopRequested = true then
    some { record with
      snapshot := { record.snapshot with
        status := .cancelling
        message := ascii "Cancelling INPX " ++ buildModeLabel mode ++ ascii "." } }
  else none

/-- Can the scan of a worker end so? Before its first publication it can only fail, and it is only
cancelled when that was requested. -/
def canEnd (record : JobRecord) : ScanEnd → Bool
  | .completed _ _ => record.phase = .scanning
  | .cancelled => record.phase = .scanning && record.stopRequested
  | .failed _ => record.phase = .starting || record.phase = .scanning

/-- `RunScan` returns or throws, and the worker makes the result from a copy of the snapshot. -/
def leave (scanEnd : ScanEnd) (record : JobRecord) : Option JobRecord :=
  if record.canEnd scanEnd then
    some { record with phase := .leaving (scanEnd.result record.snapshot) }
  else none

def finish (record : JobRecord) : Option JobRecord :=
  match record.phase with
  | .leaving result =>
    some { record with phase := .finished, snapshot := result.snapshot, result := some result }
  | _ => none

/-- `Cancel` on the record it found. A thread that was not started yet has no stop source. -/
def cancel (record : JobRecord) : JobRecord :=
  if record.snapshot.isTerminal then record
  else
    { record with
      snapshot := { record.snapshot with
        status := .cancelling
        message := ascii "Cancelling INPX scan." }
      stopRequested := record.stopRequested || record.phase ≠ .notStarted }

/-- The answer of `Cancel` on the record it found. -/
def cancelAnswer (record : JobRecord) : Bool := !record.snapshot.isTerminal

/-- The record after an action, when the action can happen. -/
def step (record : JobRecord) : RecordAction → Option JobRecord
  | .startWorker => record.startWorker
  | .publishRunning mode => record.publishRunning mode
  | .publishProgress snapshot => record.publishProgress snapshot
  | .checkpoint mode => record.checkpoint mode
  | .leave scanEnd => record.leave scanEnd
  | .finish => record.finish
  | .cancel => some record.cancel
  | .requestStop => some { record with
      stopRequested := record.stopRequested || record.phase ≠ .notStarted }

end JobRecord

/-! ### The service -/

/-- `CInpxScanJobService`, with every record it made and the records that calls hold. The numbers of
jobs have 64 bits in the program; no process comes to their end. -/
structure JobService where
  nextJobId : Nat := 1
  records : Nat → Option JobRecord := fun _ => none
  jobs : List Nat := []
  handles : List Nat := []

/-- What is done to the service under a lock. -/
inductive JobAction
  | start
  | abandonStart (jobId : Nat)
  | onRecord (jobId : Nat) (action : RecordAction)
  | tryGetRecord (jobId : Nat)
  | observe (jobId : Nat)
  | remove (jobId : Nat)
  deriving DecidableEq, Repr

namespace JobService

/-- Is the job there, and not in a terminal status? -/
def isActive (s : JobService) (jobId : Nat) : Bool :=
  (s.records jobId).any fun record => !record.snapshot.isTerminal

/-- Has the worker of the job published its result? -/
def hasResult (s : JobService) (jobId : Nat) : Bool :=
  (s.records jobId).any fun record => record.result.isSome

/-- Is the worker of the job not started yet? -/
def isQueued (s : JobService) (jobId : Nat) : Bool :=
  (s.records jobId).any fun record => record.phase = .notStarted

def register (s : JobService) : JobService :=
  { s with
    nextJobId := s.nextJobId + 1
    records := Function.update s.records s.nextJobId
      (some { snapshot := { jobId := s.nextJobId } })
    jobs := s.nextJobId :: s.jobs }

/-- `Start` up to the registration of the job: it throws when a job is active. -/
def start (s : JobService) : JobService :=
  if s.jobs.any s.isActive then s else s.register

/-- Who does it may do this to a record: `Start` starts the worker of a job that is registered, and
`Cancel` found the record. -/
def mayAct (s : JobService) (jobId : Nat) : RecordAction → Bool
  | .startWorker => s.jobs.contains jobId
  | .cancel => s.handles.contains jobId
  | _ => true

/-- The records that calls hold after an action on one. -/
def handlesAfter (s : JobService) (jobId : Nat) : RecordAction → List Nat
  | .cancel => s.handles.erase jobId
  | _ => s.handles

def onRecord (s : JobService) (jobId : Nat) (action : RecordAction) : Option JobService := do
  guard (s.mayAct jobId action)
  let record ← s.records jobId
  let record' ← record.step action
  return { s with
    records := Function.update s.records jobId (some record')
    handles := s.handlesAfter jobId action }

/-- The service after an action, when the action can happen. -/
def step (s : JobService) : JobAction → Option JobService
  | .start => some s.start
  -- `Start` takes its job back when the worker cannot be started
  | .abandonStart jobId =>
    if s.isQueued jobId then some { s with jobs := s.jobs.erase jobId } else none
  | .onRecord jobId action => s.onRecord jobId action
  -- the lookup of `Cancel`, `Wait`, `TryGetSnapshot` and `TryGetResult`
  | .tryGetRecord jobId =>
    if s.jobs.contains jobId then some { s with handles := jobId :: s.handles } else some s
  -- the end of a call that changes nothing
  | .observe jobId =>
    if s.handles.contains jobId then some { s with handles := s.handles.erase jobId } else none
  | .remove jobId =>
    if s.jobs.contains jobId && s.hasResult jobId then
      some { s with jobs := s.jobs.erase jobId }
    else some s

end JobService

/-! ### The worker runs the scan -/

theorem executeScan_returns (readers : Readers) (env : ScanEnv) (pick : Nat → Nat)
    (committed : Database) (plans : List SegmentPlan)
    (archiveGuards : List (Bytes × ArchiveScanGuard)) (sourceFingerprint : Bytes) :
    Triple (fun _ => True)
      (executeScan readers env pick committed plans archiveGuards sourceFingerprint)
      (fun result s => result = scanResult env s) fun _ _ => True := by
  have hany : ∀ {α : Type} (c : ExecM α), Triple (fun _ => True) c (fun _ _ => True)
      fun _ _ => True := fun c s _ => by
    cases c s <;> trivial
  rw [executeScan]
  refine (hany _).bind fun segmentIds => (hany _).bind fun _ => (hany _).bind fun _ =>
    (hany _).bind fun _ => ?_
  exact Triple.bind (M := fun t s => t = s) (.get fun _ _ => rfl) fun t =>
    .pure fun s hs => by rw [hs]

/-- What the worker of a job publishes at its end is what it may leave with. -/
theorem finishJob_runScan (readers : Readers) (env : ScanEnv) (pick : Nat → Nat) (world : World) :
    ∃ scanEnd : ScanEnd, finishJob (runScan readers env pick world) =
      scanEnd.result (runScan readers env pick world).progress.snapshot := by
  have hthrown : ∀ (run : ScanRun) e, run.result = .error e →
      ∃ scanEnd : ScanEnd, finishJob run = scanEnd.result run.progress.snapshot := by
    intro run e he
    rw [finishJob]
    rw [he]
    cases e with
    | cancelled => exact ⟨.cancelled, rfl⟩
    | failed failure => exact ⟨.failed _, rfl⟩
  rw [runScan]
  cases planScan readers env world.database (.start env) with
  | error e s => exact hthrown _ e rfl
  | ok sourceFingerprint s =>
    have hreturns := executeScan_returns readers env pick world.database s.plans s.archiveGuards
      sourceFingerprint (.start world s.progress) trivial
    dsimp only
    revert hreturns
    cases executeScan readers env pick world.database s.plans s.archiveGuards sourceFingerprint
        (.start world s.progress) with
    | error e s' => exact fun _ => hthrown _ e rfl
    | ok result s' =>
      rintro rfl
      exact ⟨.completed _ _, rfl⟩

end InpxWebReader.Scan
