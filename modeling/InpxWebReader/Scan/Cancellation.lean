import InpxWebReader.Scan.Watch

/-!
# How a stop request is reported

A run that sees the stop request at a checkpoint ends with the exception that reaches the worker of
the job. `stopWatch φ` watches for this: a program that has not seen the request yet either returns
without having seen it or throws an exception that `φ` relates to the checkpoint that saw it.
`Signals sites` is the relation inside the scan: the exception is the stop signal exactly when a
checkpoint saw the request, and that checkpoint is one of `sites`.

Every handler keeps the relation but one: the handler of `readArchiveState` turns the stop signal
of the archive lookup into an ordinary error. `Reported` is what is left at the end.
-/

namespace InpxWebReader.Scan

open Foundation Program

/-- Relates the checkpoint that saw the stop request to the exception thrown. -/
abbrev StopRelation := Option CheckpointSite → Exception → Prop

/-- The stop signal is thrown exactly when one of `sites` saw the request. -/
def Signals (sites : CheckpointSite → Prop) : StopRelation
  | none, e => e ≠ .cancelled
  | some site, e => sites site ∧ e = .cancelled

/-- The stop signal is thrown exactly when a checkpoint outside the archive lookup saw the
request. -/
def Reported : StopRelation
  | none, e => e ≠ .cancelled
  | some site, e => e = .cancelled ↔ NotArchiveResolution site

theorem Signals.reported {o : Option CheckpointSite} {e : Exception}
    (h : Signals NotArchiveResolution o e) : Reported o e := by
  cases o with
  | none => exact h
  | some site => exact ⟨fun _ => h.1, fun _ => h.2⟩

def stopWatch {ω : Type} (φ : StopRelation) : Watch ω where
  holds p _ := p.observedAt = none
  left e p _ := φ p.observedAt e

/-! ### Checkpoints -/

section Checkpoints

variable {ω : Type} {stop : StopRequest} {sites : CheckpointSite → Prop}

theorem reports_throwIfCancelled {site : CheckpointSite} (hs : sites site) :
    Triple (fun p => p.observedAt = none) (throwIfCancelled stop site)
      (fun _ p => p.observedAt = none) fun e p => Signals sites p.observedAt e := by
  rw [throwIfCancelled]
  refine Triple.bind (M := fun _ p => p.observedAt = none) (.get fun _ hp => hp) fun t => ?_
  refine .ite (fun _ => ?_) fun _ => .modify fun _ hp => hp
  refine Triple.seq (M := fun _ => True) (.modify fun _ _ => trivial) ?_
  refine Triple.seq (M := fun p => p.observedAt = some site) (.modify fun _ _ => rfl) ?_
  refine Triple.throw fun p hp => ?_
  rw [hp]
  exact ⟨hs, rfl⟩

theorem patient_stopWatch :
    (stopWatch (Signals sites) : Watch ω).Patient stop sites where
  failed := fun failure hp => by
    change Signals sites _ _
    rw [show _ = none from hp]
    exact nofun
  checkpoint := fun hs _ => reports_throwIfCancelled hs

end Checkpoints

/-! ### Planning -/

/-- Inside the scan, outside the archive lookup. -/
abbrev ScanSignals : StopRelation := Signals NotArchiveResolution

/-- The handler of `readArchiveState` leaves no stop signal. -/
theorem planWatch_stop (stop : StopRequest) :
    PlanWatch stop (fun p => p.observedAt = none)
      (fun e p => Signals (· = .archiveResolution) p.observedAt e)
      (fun e p => ScanSignals p.observedAt e) fun e p => Reported p.observedAt e where
  lookup := patient_stopWatch
  scan := patient_stopWatch
  publishes := fun _ _ _ _ hp => hp
  leaves := Signals.reported
  rethrowAs := fun {e p} wrap hp => by
    have hne := e.rethrowAs_ne_cancelled wrap
    revert hp
    cases p.observedAt with
    | none => exact fun _ => hne
    | some site => exact fun hp => ⟨fun h => absurd h hne, fun h => absurd hp.1 h⟩
  rethrowUnlessCancelled := fun {e p} wrap hp => by
    revert hp
    cases p.observedAt with
    | none => exact fun hp he => hp (Exception.rethrowUnlessCancelled_eq_cancelled.mp he)
    | some site =>
      exact fun hp => ⟨fun _ => hp.1,
        fun _ => Exception.rethrowUnlessCancelled_eq_cancelled.mpr hp.2⟩

theorem reports_planScan (readers : Readers) (env : ScanEnv) (db : Database) :
    Triple (fun s => s.progress.observedAt = none) (planScan readers env db)
      (fun _ s => s.progress.observedAt = none) fun e s => Reported s.progress.observedAt e :=
  planScan_preserves (planWatch_stop env.stop) db fun _ hs => hs

/-! ### Execution -/

section Execution

open ExecState

variable {readers : Readers} {env : ScanEnv} {pick : Nat → Nat}

/-- A part of the execution that reports the stop request. -/
abbrev Reports {α : Type} (c : ExecM α) : Prop := Preserves (stopWatch ScanSignals) watched c

theorem patient_scan (env : ScanEnv) :
    (stopWatch ScanSignals : Watch (InFlight.Window InFlightParsedRecord ×
      List (InFlight.Moment InFlightParsedRecord Bytes))).Patient env.stop NotArchiveResolution :=
  patient_stopWatch

theorem reports_publishing (update : ScanJobSnapshot → ScanJobSnapshot) :
    Reports (onProgress (publishSnapshot update)) :=
  preserves_execution fun _ => .modify fun _ hp => hp

theorem publishes_stopWatch {ω : Type} (φ : StopRelation) : (stopWatch φ : Watch ω).Publishes :=
  fun _ _ _ _ hp => hp

theorem reports_checkpoint {site : CheckpointSite} (hs : NotArchiveResolution site) :
    Reports (onProgress (throwIfCancelled env.stop site)) :=
  preserves_execution (patient_stopWatch.checkpoint hs)

/-- The queue of payloads is not what a stop request is about. -/
theorem reports_modify {f : ExecState → ExecState} (h : ∀ s, (f s).progress = s.progress) :
    Reports (MonadStateOf.modifyGet fun s => (PUnit.unit, f s) : ExecM PUnit) :=
  Triple.modify fun s hs => (congrArg Progress.observedAt (h s)).trans hs

theorem reports_publishWarning (warning : Database.ScanWarningRecord) (countAsSkipped : Bool) :
    Reports (publishWarning env warning countAsSkipped) := by
  rw [publishWarning]
  refine Preserves.bind (.modify fun _ => rfl) fun _ => ?_
  exact (preserves_persistWarning (patient_scan env) _).bind fun _ => reports_publishing _

theorem reports_releasePayloadReservation (task : InFlightParsedRecord) :
    Reports (releasePayloadReservation task) :=
  reports_modify fun _ => rfl

theorem reports_drainTask (task : InFlightParsedRecord) :
    Reports (drainTask readers env task) := by
  rw [drainTask]
  refine .get_bind fun s _ => Preserves.bind (.answer (patient_scan env)) fun payload => ?_
  refine (reports_checkpoint (by nofun)).bind fun _ => ?_
  refine (preserves_storeParsedRecord (patient_scan env) _ _).bind fun writeResult => ?_
  refine (reports_publishing _).bind fun _ => Preserves.bind (.modify fun _ => rfl) fun _ => ?_
  exact reports_releasePayloadReservation task

/-- The handlers of a drain keep the stop signal, and look for a stop request before they turn
anything else into the failure of the payload. -/
theorem reports_drainFailed (task : InFlightParsedRecord) (e : Exception) :
    Triple (fun s => ScanSignals s.progress.observedAt e) (drainFailed env task e)
      (fun _ s => s.progress.observedAt = none) fun e' s => ScanSignals s.progress.observedAt e' := by
  rw [drainFailed]
  refine .ite (fun _ => ?_) fun he => ?_
  · exact Triple.seq (M := fun s => ScanSignals s.progress.observedAt e) (.modify fun _ hs => hs)
      (.throw fun s hs => hs)
  · have hnone : ∀ s : ExecState, ScanSignals s.progress.observedAt e →
        s.progress.observedAt = none := by
      intro s hs
      revert hs
      cases s.progress.observedAt with
      | none => exact fun _ => rfl
      | some site => exact fun hs => absurd hs.2 he
    split
    · exact .throw fun s hs => hs
    · rename_i what _
      refine Triple.pre (R := fun s => s.progress.observedAt = none) ?_ hnone
      refine (reports_releasePayloadReservation task).bind fun _ => ?_
      refine (reports_checkpoint (by nofun)).bind fun _ => ?_
      exact (reports_publishWarning _ _).bind fun _ => .fail (patient_scan env)

theorem reports_drainParsedRecord (preferReady : Bool) :
    Reports (drainParsedRecord readers env pick preferReady) := by
  rw [drainParsedRecord]
  refine .get_bind fun s hs => ?_
  split
  · exact .pure
  · refine Preserves.bind (.set hs) fun _ => ?_
    exact Triple.tryCatch (reports_drainTask _) (reports_drainFailed _)

theorem reports_drainQueueWhile {busy : ExecState → Bool} {body : ExecM Unit}
    (h : Reports body) :
    Reports (drainQueueWhile busy body) :=
  .get_bind fun _ _ => .drainWhile h _

theorem reports_drainAndCheck :
    Reports (drainAndCheck readers env pick) :=
  (reports_drainParsedRecord true).bind fun _ =>
    reports_checkpoint (by nofun)

theorem reports_submitRecord (planIndex : Nat) (plan : SegmentPlan) (segmentId recordIndex : Nat)
    (inpxRecord : Inpx.InpxRecord) : Reports
      (submitRecord readers env pick planIndex plan segmentId recordIndex inpxRecord) := by
  rw [submitRecord]
  refine Preserves.bind ?_ fun _ => ?_
  · rw [claimLibId]
    refine .get_bind fun s _ => Preserves.bind (.answer (patient_scan env)) fun ids => ?_
    split
    · exact .fail (patient_scan env)
    · exact .modify fun _ => rfl
  refine (reports_drainQueueWhile reports_drainAndCheck).bind fun _ => ?_
  refine Preserves.bind ?_ fun _ => ?_
  · rw [openArchive]
    refine .get_bind fun s _ => .ite .pure ?_
    refine (reports_drainQueueWhile (reports_drainParsedRecord true)).bind fun _ => ?_
    refine Preserves.bind (reports_modify fun _ => rfl) fun _ => ?_
    refine (preserves_execution ((patient_scan env).call (by nofun) _)).bind fun _ => ?_
    exact Preserves.bind (.require (patient_scan env)) fun _ => .modify fun _ => rfl
  refine Preserves.bind (.answer (patient_scan env)) fun actualSizeBytes => ?_
  refine (reports_drainQueueWhile reports_drainAndCheck).bind fun _ => ?_
  refine (preserves_execution ((patient_scan env).call (by nofun) _)).bind fun payloadBytes => ?_
  exact (reports_publishing _).bind fun _ => reports_modify fun _ => rfl

theorem reports_executePlans (order : List PlacedPlan) :
    Reports (executePlans readers env pick order) := by
  rw [executePlans]
  refine Triple.tryCatch ?_ fun e => Triple.seq (.modify fun _ hs => hs) (.throw fun _ hs => hs)
  refine Preserves.bind (.forM fun placed => ?_) fun _ =>
    reports_drainQueueWhile reports_drainAndCheck
  refine (reports_checkpoint (by nofun)).bind fun _ => .forM fun r => ?_
  refine (reports_checkpoint (by nofun)).bind fun _ => ?_
  refine (reports_publishing _).bind fun _ => .ite .pure ?_
  exact .ite (reports_submitRecord _ _ _ _ _) (reports_publishWarning _ _)

theorem reports_executeScan (committed : Database) (plans : List SegmentPlan)
    (archiveGuards : List (Bytes × ArchiveScanGuard)) (sourceFingerprint : Bytes) :
    Reports (executeScan readers env pick committed plans archiveGuards sourceFingerprint) := by
  have hpublishes : (stopWatch ScanSignals : Watch (InFlight.Window InFlightParsedRecord ×
      List (InFlight.Moment InFlightParsedRecord Bytes))).Publishes := publishes_stopWatch ScanSignals
  rw [executeScan]
  refine (preserves_prepareCatalog (patient_scan env) plans).bind fun segmentIds => ?_
  refine (preserves_prepareExecution (patient_scan env) hpublishes plans committed).bind fun _ => ?_
  refine (reports_executePlans _).bind fun _ => ?_
  refine (preserves_finishCatalog (patient_scan env) hpublishes _ _ _ _).bind fun _ => ?_
  exact .get_bind fun s _ => .pure

end Execution

/-! ### The terminal status -/

/-- What a run leaves behind relates its result to the checkpoint that saw the stop request. -/
theorem runScan_reported (readers : Readers) (env : ScanEnv) (pick : Nat → Nat) (world : World) :
    match (runScan readers env pick world).result with
    | .ok _ => (runScan readers env pick world).progress.observedAt = none
    | .error e => Reported (runScan readers env pick world).progress.observedAt e := by
  have hplan := reports_planScan readers env world.database
  rw [runScan]
  cases hp : planScan readers env world.database (.start env) with
  | error e s =>
    change Reported s.progress.observedAt e
    exact hplan.throws rfl hp
  | ok sourceFingerprint s =>
    have hexec : Reports (executeScan readers env pick world.database s.plans s.archiveGuards
        sourceFingerprint) :=
      reports_executeScan world.database s.plans s.archiveGuards sourceFingerprint
    have hnone : (ExecState.start world s.progress).progress.observedAt = none :=
      hplan.ok rfl hp
    dsimp only
    cases hx : executeScan readers env pick world.database s.plans s.archiveGuards
        sourceFingerprint (.start world s.progress) with
    | ok result s' =>
      change s'.progress.observedAt = none
      exact hexec.returns (s := ExecState.start world s.progress) hnone hx
    | error e s' =>
      change Reported s'.progress.observedAt e
      exact Signals.reported (hexec.throws (s := ExecState.start world s.progress) hnone hx)

def ReportsCancellation (result : ScanJobResult) : Prop :=
  result.snapshot.status = .cancelled ∧ result.error.map DomainError.code = some .cancellation

theorem reportsCancellation_finishJob (run : ScanRun) (e : Exception) (h : run.result = .error e) :
    ReportsCancellation (finishJob run) ↔ e = .cancelled := by
  rw [finishJob]
  rw [h]
  cases e with
  | cancelled => exact ⟨fun _ => rfl, fun _ => ⟨rfl, rfl⟩⟩
  | failed failure => exact ⟨fun hr => absurd hr.1 (by simp), fun he => by cases he⟩

/-- A job whose stop request was first seen at a checkpoint ends as cancelled, unless that
checkpoint is one of the lookup of an archive. -/
theorem reportsCancellation_iff_notArchiveResolution (readers : Readers) (env : ScanEnv)
    (pick : Nat → Nat) (world : World) (site : CheckpointSite)
    (h : (runScan readers env pick world).progress.observedAt = some site) :
    ReportsCancellation (finishJob (runScan readers env pick world)) ↔
      NotArchiveResolution site := by
  have hr := runScan_reported readers env pick world
  cases he : (runScan readers env pick world).result with
  | ok result =>
    rw [he] at hr
    rw [h] at hr
    cases hr
  | error e =>
    rw [he] at hr
    dsimp only at hr
    rw [h] at hr
    rw [reportsCancellation_finishJob _ e he]
    exact hr

/-- A stop request seen while the INPX file is hashed. -/
theorem sourceHashing_reportsCancellation :
    ReportsCancellation (finishJob
      (runScan sampleReaders { firstEnv with stopAt := some 0 } (fun _ => 0) emptyWorld)) :=
  (reportsCancellation_iff_notArchiveResolution sampleReaders { firstEnv with stopAt := some 0 }
    (fun _ => 0) emptyWorld .sourceHashing (by decide +kernel)).mpr nofun

/-- A stop request seen while the archive of the first segment is looked up: the job fails. -/
theorem archiveResolution_reported_as_failure :
    (runScan sampleReaders { firstEnv with stopAt := some 5 } (fun _ => 0)
      emptyWorld).progress.observedAt = some .archiveResolution ∧
    (finishJob (runScan sampleReaders { firstEnv with stopAt := some 5 } (fun _ => 0)
      emptyWorld)).snapshot.status = .failed ∧
    (finishJob (runScan sampleReaders { firstEnv with stopAt := some 5 } (fun _ => 0)
      emptyWorld)).error.map DomainError.code = some .parserFailure := by
  decide +kernel

end InpxWebReader.Scan
