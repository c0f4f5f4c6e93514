import InpxWebReader.Library.Frame
import InpxWebReader.Scan.RunSpec

/-!
# The row of the source

The row of the source names the file that the last committed scan read and the id of that scan,
which is the identity of the catalog that readers compare. The statements of a scan leave the row
alone but for two: the one that marks the start and the one that `Finish` writes. A scan that
commits therefore leaves a row that names it (`runScan_source`).
-/

namespace InpxWebReader.Scan

open Foundation Domain Inpx Storage Database Program ExecState

/-! ### Statements -/

section Statements

variable {source : Option SourceRow}

/-- A statement that leaves the row of the source alone. -/
abbrev LeavesSource {α : Type} (source : Option SourceRow) (c : Db α) : Prop :=
  Leaves Database.source source c

theorem leavesSource_orConstraintFailed {α : Type} {x : Option α} :
    LeavesSource source (orConstraintFailed x) := by
  cases x with
  | none => exact .throw
  | some a => exact .pure

theorem leavesSource_resolveEntityId (kind : EntityKind) (normalizedName displayName : Bytes) :
    LeavesSource source (resolveEntityId kind normalizedName displayName) := by
  rw [resolveEntityId]
  refine .get_bind fun db hdb => ?_
  split
  · exact .pure
  · refine leavesSource_orConstraintFailed.bind fun table => ?_
    exact Leaves.bind (.set hdb) fun _ => .pure

theorem leavesSource_insertLink (kind : EntityKind) (row : LinkRow) :
    LeavesSource source (insertLink kind row) := by
  rw [insertLink]
  exact .get_bind fun db hdb => leavesSource_orConstraintFailed.bind fun table => .set hdb

theorem leavesSource_insertLinkOrIgnore (kind : EntityKind) (row : LinkRow) :
    LeavesSource source (insertLinkOrIgnore kind row) :=
  .modify fun _ h => h

theorem leavesSource_insertRelated {kind : EntityKind} {link : Nat → Nat → Db Unit}
    (hlink : ∀ entityId index, LeavesSource source (link entityId index)) (values : List Bytes)
    (inserted : List Bytes) (index : Nat) :
    LeavesSource source (insertRelated kind link inserted index values) := by
  induction values generalizing inserted index with
  | nil => exact .pure
  | cons value values ih =>
    rw [insertRelated]
    refine .ite (ih _ _) ?_
    refine (leavesSource_resolveEntityId _ _ _).bind fun entityId => ?_
    exact (hlink _ _).bind fun _ => ih _ _

theorem leavesSource_replaceBookRelations (bookId : Nat) (metadata : BookMetadata) :
    LeavesSource source (replaceBookRelations bookId metadata) := by
  have hdelete : ∀ kind, LeavesSource source (deleteLinks kind bookId) :=
    fun _ => .modify fun _ h => h
  rw [replaceBookRelations]
  refine (hdelete _).bind fun _ => (hdelete _).bind fun _ => (hdelete _).bind fun _ => ?_
  refine (leavesSource_insertRelated (fun _ _ => leavesSource_insertLink _ _) _ _ _).bind fun _ => ?_
  refine (leavesSource_insertRelated (fun _ _ => leavesSource_insertLink _ _) _ _ _).bind fun _ => ?_
  exact leavesSource_insertRelated (fun _ _ => leavesSource_insertLinkOrIgnore _ _) _ _ _

theorem leavesSource_insertInpxBook (inpxRecord : InpxRecord) (parsedBook : ParsedBook)
    (addedAtUtc : Bytes) :
    LeavesSource source (insertInpxBook inpxRecord parsedBook addedAtUtc) := by
  rw [insertInpxBook]
  refine .get_bind fun db hdb => leavesSource_orConstraintFailed.bind fun books => ?_
  refine Leaves.bind (.set hdb) fun _ => ?_
  refine (leavesSource_replaceBookRelations _ _).bind fun _ => ?_
  exact Leaves.bind (.modify fun _ h => h) fun _ => .pure

theorem leavesSource_updateInpxBook (bookId : Nat) (inpxRecord : InpxRecord)
    (parsedBook : ParsedBook) :
    LeavesSource source (updateInpxBook bookId inpxRecord parsedBook) := by
  rw [updateInpxBook]
  refine .get_bind fun db _ => ?_
  split
  · exact .throw
  · refine Leaves.bind (.modify fun _ h => h) fun _ => ?_
    refine (leavesSource_replaceBookRelations _ _).bind fun _ => ?_
    refine Leaves.bind (.modify fun _ h => h) fun _ => ?_
    exact Leaves.bind (.modify fun _ h => h) fun _ => .pure

theorem leavesSource_upsertInpxLocation (segmentId bookId : Nat) (inpxRecord : InpxRecord)
    (availability : Availability) (scanId : Bytes) :
    LeavesSource source (upsertInpxLocation segmentId bookId inpxRecord availability scanId) := by
  rw [upsertInpxLocation]
  exact .get_bind fun db hdb => leavesSource_orConstraintFailed.bind fun table => .set hdb

theorem leavesSource_upsertSegmentRow (row : SegmentRow) :
    LeavesSource source (upsertSegmentRow row) := by
  rw [upsertSegmentRow]
  refine .get_bind fun db hdb => Leaves.require.bind fun _ => ?_
  refine leavesSource_orConstraintFailed.bind fun table => ?_
  exact Leaves.bind (.set hdb) fun _ => .pure

theorem leavesSource_deleteDeletions (segmentId : Nat) :
    LeavesSource source (deleteDeletions segmentId) :=
  .modify fun _ h => h

theorem leavesSource_insertDeletion (segmentId : Nat) (libId : Bytes) :
    LeavesSource source (insertDeletion segmentId libId) := by
  rw [insertDeletion]
  exact .get_bind fun db _ => leavesSource_orConstraintFailed.bind fun table => .modify fun _ h => h

theorem leavesSource_insertPersistedWarning (scanId createdAtUtc : Bytes)
    (warning : ScanWarningRecord) :
    LeavesSource source (insertPersistedWarning scanId createdAtUtc warning) := by
  rw [insertPersistedWarning]
  exact .get_bind fun db hdb => leavesSource_orConstraintFailed.bind fun table => .set hdb

theorem leavesSource_toSqliteInt64 (value : Nat) : LeavesSource source (toSqliteInt64 value) :=
  .ite .pure .throw

theorem leavesSource_updateStatistics (f : StatisticsRow → StatisticsRow) :
    LeavesSource source (updateStatistics f) := by
  rw [updateStatistics]
  refine .get_bind fun db _ => ?_
  split
  · exact .pure
  · exact Leaves.require.bind fun _ => .modify fun _ h => h

theorem leavesSource_addStatisticsDelta (books unavailable covers inpxSource : Int) :
    LeavesSource source (addStatisticsDelta books unavailable covers inpxSource) :=
  Leaves.bind (.modify fun _ h => h) fun _ => leavesSource_updateStatistics _

theorem leavesSource_insertCoverFile (row : CoverFileRow) :
    LeavesSource source (insertCoverFile row) := by
  rw [insertCoverFile]
  exact .get_bind fun db _ => leavesSource_orConstraintFailed.bind fun table => .modify fun _ h => h

theorem leavesSource_incrementCoverReference (covers : CoverStore) (coverPath : Option Bytes)
    (knownSizeBytes : Option Nat) :
    LeavesSource source (incrementCoverReference covers coverPath knownSizeBytes) := by
  rw [incrementCoverReference]
  split
  · exact .pure
  · refine .get_bind fun db _ => ?_
    split
    · exact .modify fun _ h => h
    · split
      · exact .pure
      · refine (leavesSource_toSqliteInt64 _).bind fun sizeBytes => ?_
        refine (leavesSource_insertCoverFile _).bind fun _ => ?_
        exact leavesSource_addStatisticsDelta _ _ _ _

theorem leavesSource_refreshCoverReferenceSize (covers : CoverStore) (coverPath : Option Bytes)
    (knownSizeBytes : Option Nat) :
    LeavesSource source (refreshCoverReferenceSize covers coverPath knownSizeBytes) := by
  rw [refreshCoverReferenceSize]
  split
  · exact .pure
  split
  · exact .pure
  refine .get_bind fun db _ => ?_
  split
  · refine (leavesSource_toSqliteInt64 _).bind fun newSizeBytes => .ite .pure ?_
    exact Leaves.bind (.modify fun _ h => h) fun _ => leavesSource_addStatisticsDelta _ _ _ _
  · refine .get_bind fun db _ => .ite .pure ?_
    refine (leavesSource_toSqliteInt64 _).bind fun referenceCount => ?_
    refine (leavesSource_toSqliteInt64 _).bind fun sizeBytes => ?_
    refine (leavesSource_insertCoverFile _).bind fun _ => ?_
    exact leavesSource_addStatisticsDelta _ _ _ _

theorem leavesSource_decrementCoverReference (coverPath : Option Bytes) :
    LeavesSource source (decrementCoverReference coverPath) := by
  rw [decrementCoverReference]
  split
  · exact .pure
  refine .get_bind fun db _ => ?_
  split
  · exact .pure
  refine .ite (.modify fun _ h => h) ?_
  exact Leaves.bind (.modify fun _ h => h) fun _ => leavesSource_addStatisticsDelta _ _ _ _

theorem leavesSource_recordInpxBookInserted (covers : CoverStore) (coverPath : Option Bytes)
    (knownSizeBytes : Option Nat) :
    LeavesSource source (recordInpxBookInserted covers coverPath knownSizeBytes) :=
  (leavesSource_addStatisticsDelta _ _ _ _).bind fun _ => leavesSource_incrementCoverReference _ _ _

theorem leavesSource_recordCoverPathChanged (covers : CoverStore) (old new : Option Bytes)
    (knownSizeBytes : Option Nat) :
    LeavesSource source (recordCoverPathChanged covers old new knownSizeBytes) := by
  rw [recordCoverPathChanged]
  refine .ite (leavesSource_refreshCoverReferenceSize _ _ _) ?_
  exact (leavesSource_decrementCoverReference _).bind fun _ =>
    leavesSource_incrementCoverReference _ _ _

theorem leavesSource_recordInpxBookAvailabilityChanged (old new : Availability) :
    LeavesSource source (recordInpxBookAvailabilityChanged old new) :=
  .ite .pure (leavesSource_addStatisticsDelta _ _ _ _)

theorem leavesSource_addUnavailableBooks (count : Nat) :
    LeavesSource source (addUnavailableBooks count) := by
  rw [addUnavailableBooks]
  exact .ite .pure ((leavesSource_toSqliteInt64 _).bind fun _ =>
    leavesSource_addStatisticsDelta _ _ _ _)

theorem leavesSource_removeUnavailableBooks (count : Nat) :
    LeavesSource source (removeUnavailableBooks count) := by
  rw [removeUnavailableBooks]
  exact .ite .pure ((leavesSource_toSqliteInt64 _).bind fun _ =>
    leavesSource_addStatisticsDelta _ _ _ _)

theorem leavesSource_markUnavailable (scanId : Bytes) :
    LeavesSource source (markUnavailable scanId) := by
  rw [markUnavailable]
  exact .get_bind fun db hdb => Leaves.bind (.set hdb) fun _ => .pure

theorem leavesSource_restoreAvailable (scanId : Bytes) :
    LeavesSource source (restoreAvailable scanId) := by
  rw [restoreAvailable]
  exact .get_bind fun db hdb => Leaves.bind (.set hdb) fun _ => .pure

theorem leavesSource_prunePersistedWarnings : LeavesSource source prunePersistedWarnings :=
  .modify fun _ h => h

theorem leavesSource_recomputeInpxSourceSize (files : SourceFiles) :
    LeavesSource source (recomputeInpxSourceSize files) := by
  rw [recomputeInpxSourceSize]
  refine .get_bind fun db _ => (leavesSource_toSqliteInt64 _).bind fun sizeBytes => ?_
  exact Leaves.bind (.modify fun _ h => h) fun _ => leavesSource_updateStatistics _

theorem updateInpxSourceRow_spec (fileName sourceFingerprint startedAtUtc completedAtUtc
    scanId : Bytes) :
    Triple (fun db => db.source.isSome = true)
      (updateInpxSourceRow fileName sourceFingerprint startedAtUtc completedAtUtc scanId)
      (fun _ db => db.source = some
        { displayName := fileName
          sourceFingerprint := sourceFingerprint
          lastScanStartedAtUtc := some startedAtUtc
          lastScanCompletedAtUtc := some completedAtUtc
          lastSeenSnapshotId := some scanId })
      Anything := by
  refine Triple.modify fun db hdb => ?_
  obtain ⟨row, hrow⟩ := Option.isSome_iff_exists.mp hdb
  rw [hrow]
  rfl

end Statements

/-! ### The execution -/

/-- What the identity of the catalog depends on during a scan: is there a row of the source, and
which id does the scan have? -/
def ExecState.origin (s : ExecState) : Option SourceRow × Bytes := (s.database.source, s.scanId)

section Execution

variable {readers : Readers} {env : ScanEnv} {pick : Nat → Nat} {origin : Option SourceRow × Bytes}

/-- A part of the execution that leaves the row of the source and the id of the scan alone. -/
abbrev LeavesOrigin {α : Type} (origin : Option SourceRow × Bytes) (c : ExecM α) : Prop :=
  Leaves ExecState.origin origin c

theorem leavesOrigin_onProgress {α : Type} {c : ProgressM α} :
    LeavesOrigin origin (onProgress c) :=
  .zoom fun _ _ => rfl

theorem leavesOrigin_step : LeavesOrigin origin (step env) := by
  rw [step]
  refine .get_bind fun s hs => Leaves.bind (.set hs) fun _ => ?_
  split
  · exact .throw
  · exact .pure

theorem leavesOrigin_runDb {α : Type} {c : Db α} (hc : ∀ source, LeavesSource source c) :
    LeavesOrigin origin (runDb env c) := by
  rw [runDb]
  refine leavesOrigin_step.bind fun _ => .get_bind fun s hs => ?_
  cases hrun : c s.database with
  | ok a db =>
    have hkept : db.source = s.database.source := Leaves.ok hc hrun
    have hafter : (db.source, s.scanId) = s.origin := Prod.ext hkept rfl
    exact Leaves.bind (.set (hafter.trans hs)) fun _ => .pure
  | error failure db =>
    have hkept : db.source = s.database.source := Leaves.throws hc hrun
    have hafter : (db.source, s.scanId) = s.origin := Prod.ext hkept rfl
    exact Leaves.bind (.set (hafter.trans hs)) fun _ => .throw

theorem leavesOrigin_runFiles (f : CoverStore → CoverStore) :
    LeavesOrigin origin (runFiles env f) :=
  leavesOrigin_step.bind fun _ => .modify fun _ hs => hs

theorem leavesOrigin_upsertSegment (plan : SegmentPlan) :
    LeavesOrigin origin (upsertSegment env plan) := by
  rw [upsertSegment]
  refine .get_bind fun s _ => ?_
  refine (leavesOrigin_runDb fun _ => leavesSource_upsertSegmentRow _).bind fun segmentId => ?_
  refine .ite .pure ?_
  refine (leavesOrigin_runDb fun _ => leavesSource_deleteDeletions _).bind fun _ => .ite .pure ?_
  refine Leaves.bind (.forM fun libId => ?_) fun _ => .pure
  exact leavesOrigin_onProgress.bind fun _ =>
    leavesOrigin_runDb fun _ => leavesSource_insertDeletion _ _

theorem leavesOrigin_upsertSegments (plans : List SegmentPlan) :
    LeavesOrigin origin (upsertSegments env plans) := by
  induction plans with
  | nil => exact .pure
  | cons plan plans ih =>
    refine leavesOrigin_onProgress.bind fun _ => ?_
    exact (leavesOrigin_upsertSegment plan).bind fun _ => ih.bind fun _ => .pure

theorem leavesOrigin_publishWarning (warning : ScanWarningRecord) (countAsSkipped : Bool) :
    LeavesOrigin origin (publishWarning env warning countAsSkipped) := by
  rw [publishWarning]
  refine Leaves.bind (.modify fun _ hs => hs) fun _ => ?_
  refine Leaves.bind ?_ fun _ => leavesOrigin_onProgress
  rw [persistWarning, writeWarning]
  refine .ite (.get_bind fun s _ => .ite .pure ?_) .pure
  refine (leavesOrigin_runDb fun _ => leavesSource_insertPersistedWarning _ _ _).bind fun _ => ?_
  exact .modify fun _ hs => hs

theorem leavesOrigin_prepareExecution (plans : List SegmentPlan) (committed : Database) :
    LeavesOrigin origin (prepareExecution env plans committed) := by
  rw [prepareExecution]
  refine Leaves.bind (.forM fun warning => leavesOrigin_publishWarning _ _) fun _ => ?_
  refine Leaves.bind .ofExcept fun activeIds => Leaves.bind (.modify fun _ hs => hs) fun _ => ?_
  exact leavesOrigin_onProgress.bind fun _ => leavesOrigin_onProgress.bind fun _ =>
    leavesOrigin_onProgress

theorem leavesOrigin_writeCoverBytesAtomically (path bytes : Bytes) :
    LeavesOrigin origin (writeCoverBytesAtomically env path bytes) := by
  rw [writeCoverBytesAtomically]
  refine leavesOrigin_step.bind fun _ => .get_bind fun s _ => ?_
  refine Leaves.tryCatch ?_ fun e => Leaves.bind (.modify fun _ hs => hs) fun _ => .throw
  refine (leavesOrigin_runFiles _).bind fun _ => leavesOrigin_step.bind fun _ => ?_
  exact leavesOrigin_runFiles _

theorem leavesOrigin_cacheInpxCover (parsedBook : ParsedBook) :
    LeavesOrigin origin (cacheInpxCover readers env parsedBook) := by
  rw [cacheInpxCover]
  refine leavesOrigin_step.bind fun _ => ?_
  split
  · exact .pure
  · exact .pure
  · refine Leaves.bind .ofExcept fun coverPath => ?_
    refine leavesOrigin_step.bind fun _ => .get_bind fun s _ => ?_
    split
    · exact Leaves.require.bind fun _ => .pure
    · refine Leaves.bind (.modify fun _ hs => hs) fun _ => ?_
      exact (leavesOrigin_writeCoverBytesAtomically _ _).bind fun _ => .pure

theorem leavesOrigin_validateCoverCacheBudget :
    LeavesOrigin origin (validateCoverCacheBudget env) := by
  rw [validateCoverCacheBudget]
  refine leavesOrigin_step.bind fun _ => .get_bind fun s _ => ?_
  split
  · exact .throw
  · exact .ite (Leaves.bind (.modify fun _ hs => hs) fun _ => .throw) .pure

theorem leavesOrigin_updateBookCoverPath (bookId : Nat) (coverPath : Option Bytes) :
    LeavesOrigin origin (runDb env (updateBookCoverPath bookId coverPath)) :=
  leavesOrigin_runDb fun _ => .modify fun _ h => h

theorem leavesOrigin_writeParsedRecord (segmentId : Nat) (inpxRecord : InpxRecord)
    (payload : PreparedPayload) :
    LeavesOrigin origin (writeParsedRecord readers env segmentId inpxRecord payload) := by
  rw [writeParsedRecord]
  refine leavesOrigin_step.bind fun _ => .get_bind fun s _ => ?_
  split
  · rw [writeNewRecord]
    refine .get_bind fun s _ => ?_
    refine (leavesOrigin_runDb fun _ => leavesSource_insertInpxBook _ _ _).bind fun inserted => ?_
    refine (leavesOrigin_cacheInpxCover _).bind fun coverResult => ?_
    refine (leavesOrigin_updateBookCoverPath _ _).bind fun _ => .get_bind fun s _ => ?_
    refine (leavesOrigin_runDb fun _ => leavesSource_upsertInpxLocation _ _ _ _ _).bind fun _ => ?_
    refine .get_bind fun s _ => ?_
    refine (leavesOrigin_runDb fun _ => leavesSource_recordInpxBookInserted _ _ _).bind fun _ => ?_
    exact leavesOrigin_validateCoverCacheBudget.bind fun _ => .pure
  · rw [writeExistingRecord]
    refine (leavesOrigin_runDb fun _ => leavesSource_updateInpxBook _ _ _).bind fun fallbacks => ?_
    refine (leavesOrigin_cacheInpxCover _).bind fun coverResult => ?_
    refine (leavesOrigin_updateBookCoverPath _ _).bind fun _ => .get_bind fun s _ => ?_
    refine (leavesOrigin_runDb fun _ => leavesSource_upsertInpxLocation _ _ _ _ _).bind fun _ => ?_
    refine .get_bind fun s _ => ?_
    refine (leavesOrigin_runDb fun _ => leavesSource_recordCoverPathChanged _ _ _ _).bind fun _ => ?_
    refine (leavesOrigin_runDb fun _ =>
      leavesSource_recordInpxBookAvailabilityChanged _ _).bind fun _ => ?_
    exact leavesOrigin_validateCoverCacheBudget.bind fun _ => .pure

theorem leavesOrigin_drainTask (task : InFlightParsedRecord) :
    LeavesOrigin origin (drainTask readers env task) := by
  rw [drainTask]
  refine .get_bind fun s _ => Leaves.bind .ofExcept fun payload => ?_
  refine leavesOrigin_onProgress.bind fun _ => ?_
  refine Leaves.bind (.ite (leavesOrigin_writeParsedRecord _ _ _) .pure) fun writeResult => ?_
  refine leavesOrigin_onProgress.bind fun _ => Leaves.bind (.modify fun _ hs => hs) fun _ => ?_
  exact .modify fun _ hs => hs

theorem leavesOrigin_drainFailed (task : InFlightParsedRecord) (e : Exception) :
    LeavesOrigin origin (drainFailed env task e) := by
  have hrelease : LeavesOrigin origin (releasePayloadReservation task) := .modify fun _ hs => hs
  rw [drainFailed]
  refine .ite (hrelease.bind fun _ => .throw) ?_
  split
  · exact .throw
  · refine hrelease.bind fun _ => leavesOrigin_onProgress.bind fun _ => ?_
    exact (leavesOrigin_publishWarning _ _).bind fun _ => .throw

theorem leavesOrigin_drainParsedRecord (preferReady : Bool) :
    LeavesOrigin origin (drainParsedRecord readers env pick preferReady) := by
  rw [drainParsedRecord]
  refine .get_bind fun s hs => ?_
  split
  · exact .pure
  · refine Leaves.bind (.set hs) fun _ => ?_
    exact (leavesOrigin_drainTask _).tryCatch fun e => leavesOrigin_drainFailed _ e

theorem leavesOrigin_drainQueueWhile {busy : ExecState → Bool} {body : ExecM Unit}
    (h : LeavesOrigin origin body) : LeavesOrigin origin (drainQueueWhile busy body) :=
  .get_bind fun _ _ => .drainWhile h _

theorem leavesOrigin_drainAndCheck : LeavesOrigin origin (drainAndCheck readers env pick) :=
  (leavesOrigin_drainParsedRecord true).bind fun _ => leavesOrigin_onProgress

theorem leavesOrigin_submitRecord (planIndex : Nat) (plan : SegmentPlan)
    (segmentId recordIndex : Nat) (inpxRecord : InpxRecord) : LeavesOrigin origin
      (submitRecord readers env pick planIndex plan segmentId recordIndex inpxRecord) := by
  rw [submitRecord]
  refine Leaves.bind ?_ fun _ => ?_
  · rw [claimLibId]
    refine .get_bind fun s _ => Leaves.bind .ofExcept fun ids => ?_
    split
    · exact .throw
    · exact .modify fun _ hs => hs
  refine (leavesOrigin_drainQueueWhile leavesOrigin_drainAndCheck).bind fun _ => ?_
  refine Leaves.bind ?_ fun _ => ?_
  · rw [openArchive]
    refine .get_bind fun s _ => .ite .pure ?_
    refine (leavesOrigin_drainQueueWhile (leavesOrigin_drainParsedRecord true)).bind fun _ => ?_
    refine Leaves.bind (.modify fun _ hs => hs) fun _ => leavesOrigin_onProgress.bind fun _ => ?_
    exact Leaves.require.bind fun _ => .modify fun _ hs => hs
  refine Leaves.bind .ofExcept fun actualSizeBytes => ?_
  refine (leavesOrigin_drainQueueWhile leavesOrigin_drainAndCheck).bind fun _ => ?_
  refine leavesOrigin_onProgress.bind fun _ => leavesOrigin_onProgress.bind fun _ => ?_
  exact .modify fun _ hs => hs

theorem leavesOrigin_executePlans (order : List PlacedPlan) :
    LeavesOrigin origin (executePlans readers env pick order) := by
  rw [executePlans]
  refine Leaves.tryCatch ?_ fun e => Leaves.bind (.modify fun _ hs => hs) fun _ => .throw
  refine Leaves.bind (.forM fun placed => ?_) fun _ =>
    leavesOrigin_drainQueueWhile leavesOrigin_drainAndCheck
  refine leavesOrigin_onProgress.bind fun _ => .forM fun r => ?_
  refine leavesOrigin_onProgress.bind fun _ => leavesOrigin_onProgress.bind fun _ => ?_
  exact .ite .pure (.ite (leavesOrigin_submitRecord _ _ _ _ _) (leavesOrigin_publishWarning _ _))

theorem leavesOrigin_finishLocations (changedSegmentIds : List Nat) :
    LeavesOrigin origin (finishLocations env changedSegmentIds) := by
  rw [finishLocations]
  refine Leaves.bind (.forM fun segmentId => ?_) fun _ => leavesOrigin_onProgress.bind fun _ => ?_
  · refine leavesOrigin_onProgress.bind fun _ => .get_bind fun s _ => ?_
    exact leavesOrigin_runDb fun _ => .modify fun _ h => h
  refine .get_bind fun s _ => ?_
  refine (leavesOrigin_runDb fun _ => leavesSource_markUnavailable _).bind fun marked => ?_
  refine leavesOrigin_onProgress.bind fun _ => .get_bind fun s _ => ?_
  exact (leavesOrigin_runDb fun _ => leavesSource_restoreAvailable _).bind fun restored => .pure

theorem leavesOrigin_finishChecks (sourceFingerprint : Bytes) (plans : List SegmentPlan)
    (archiveGuards : List (Bytes × ArchiveScanGuard)) :
    LeavesOrigin origin (finishChecks readers env sourceFingerprint plans archiveGuards) := by
  have hplans : ∀ expectations,
      LeavesOrigin origin (checkPlanGuards env archiveGuards plans expectations) := by
    induction plans with
    | nil => exact fun _ => .pure
    | cons plan plans ih =>
      exact fun _ => leavesOrigin_onProgress.bind fun _ => Leaves.bind .ofExcept fun _ => ih _
  rw [finishChecks]
  refine leavesOrigin_onProgress.bind fun _ => Leaves.bind ?_ fun _ => ?_
  · rw [validateArchiveGuards]
    refine (hplans []).bind fun _ => .forM fun entry => ?_
    rw [checkArchive]
    refine leavesOrigin_onProgress.bind fun _ => Leaves.bind .ofExcept fun currentState => ?_
    refine Leaves.require.bind fun _ => .ite .pure ?_
    exact leavesOrigin_onProgress.bind fun _ => .require
  refine leavesOrigin_onProgress.bind fun _ => leavesOrigin_onProgress.bind fun sourceBytes => ?_
  exact Leaves.require.bind fun _ => leavesOrigin_onProgress

/-! ### The row that a scan leaves -/

/-- The row of the source names a file and a scan. -/
def Names (sourceFingerprint scanId : Bytes) (source : Option SourceRow) : Prop :=
  ∃ row, source = some row ∧ row.sourceFingerprint = sourceFingerprint ∧
    row.lastSeenSnapshotId = some scanId

/-- A scan that has begun: there is a row of the source, and the scan has its id. -/
def Begun (scanId : Bytes) (origin : Option SourceRow × Bytes) : Prop :=
  origin.1.isSome = true ∧ origin.2 = scanId

theorem leaves_begun {α : Type} {c : ExecM α} {scanId : Bytes}
    (h : ∀ origin, LeavesOrigin origin c) :
    Triple (fun s => Begun scanId s.origin) c (fun _ s => Begun scanId s.origin) Anything :=
  Leaves.keeps h fun _ _ _ => trivial

theorem leaves_named {α : Type} {c : ExecM α} {sourceFingerprint scanId : Bytes}
    (h : ∀ origin, LeavesOrigin origin c) :
    Triple (fun s => Names sourceFingerprint scanId s.origin.1) c
      (fun _ s => Names sourceFingerprint scanId s.origin.1) Anything :=
  Leaves.keeps (P := fun origin => Names sourceFingerprint scanId origin.1) h fun _ _ _ => trivial

theorem triple_runDb {α : Type} {c : Db α} {P R : Option SourceRow × Bytes → Prop}
    (h : ∀ scanId, Triple (fun db => P (db.source, scanId)) c (fun _ db => R (db.source, scanId))
      Anything) :
    Triple (fun s => P s.origin) (runDb env c) (fun _ s => R s.origin) Anything := by
  rw [runDb]
  refine Triple.bind (Leaves.keeps (fun _ => leavesOrigin_step) fun _ _ _ => trivial) fun _ => ?_
  refine Triple.of_state fun s hs => ?_
  refine Triple.bind (M := fun t s' => t = s ∧ s' = s) (.get fun s' hs' => ⟨hs', hs'⟩) fun t =>
    Triple.of_pure fun ht => ?_
  subst ht
  cases hrun : c t.database with
  | ok a db =>
    have hafter : R (setDatabase db t).origin := Triple.ok (h t.scanId) hs hrun
    exact Triple.bind (M := fun _ s => R s.origin) (fun _ _ => hafter) fun _ => .pure fun _ hs => hs
  | error failure db =>
    exact Triple.bind (M := fun _ _ => True) (fun _ _ => trivial) fun _ => .throw fun _ _ => trivial

theorem leaves_sequence_step (sequence : Nat) :
    Leaves ExecState.sequence sequence (step env) := by
  rw [step]
  refine .get_bind fun s hs => Leaves.bind (.set hs) fun _ => ?_
  split
  · exact .throw
  · exact .pure

/-- A scan that has started has the id of its turn, and found the row of the source. -/
theorem startWriter_begun (sequence : Nat) :
    Triple (fun s => s.sequence = sequence) (startWriter env)
      (fun _ s => Begun (makeScanId env.millis sequence) s.origin) Anything := by
  have hlock : ∀ attempts origin, LeavesOrigin origin (awaitLock env attempts) := by
    intro attempts origin
    induction attempts with
    | zero => exact leavesOrigin_onProgress
    | succ attempts ih =>
      exact leavesOrigin_onProgress.bind fun _ => leavesOrigin_onProgress.bind fun _ => ih
  rw [startWriter]
  refine Triple.bind ((leaves_sequence_step sequence).error fun _ _ _ => trivial) fun _ => ?_
  refine Triple.bind (M := fun _ s => s.origin.2 = makeScanId env.millis sequence)
    (.modify fun s hs => by rw [← hs]; rfl) fun _ => ?_
  refine Triple.bind (M := fun _ s => Begun (makeScanId env.millis sequence) s.origin) ?_ fun _ => ?_
  · refine triple_runDb (P := fun o => o.2 = _) (R := Begun _) fun scanId => ?_
    rw [readInpxSourceId]
    refine Triple.of_state fun db hdb => ?_
    refine Triple.bind (M := fun t db' => t = db ∧ db' = db) (.get fun _ h => ⟨h, h⟩) fun t =>
      Triple.of_pure fun ht => ?_
    rw [ht]
    exact .require (fun db' h hsome => ⟨h ▸ hsome, hdb⟩) fun _ _ _ => trivial
  refine (leaves_begun fun origin => hlock _ origin).bind fun _ => ?_
  refine (leaves_begun fun origin => .ofExcept).bind fun _ => ?_
  refine triple_runDb (P := Begun _) (R := Begun _) fun scanId => .modify fun db hdb => ?_
  exact ⟨Option.isSome_map.trans hdb.1, hdb.2⟩

/-- `Finish` writes the row of the source. -/
theorem finish_names (scanId sourceFingerprint : Bytes) (plans : List SegmentPlan)
    (archiveGuards : List (Bytes × ArchiveScanGuard)) (changedSegmentIds : List Nat) :
    Triple (fun s => Begun scanId s.origin)
      (finish readers env sourceFingerprint plans archiveGuards changedSegmentIds)
      (fun _ s => Names sourceFingerprint scanId s.origin.1) Anything := by
  rw [finish]
  refine (leaves_begun fun _ => leavesOrigin_finishLocations _).bind fun counts => ?_
  refine Triple.bind (M := fun _ s => Names sourceFingerprint scanId s.origin.1) ?_ fun _ => ?_
  · rw [finishStatistics]
    refine (leaves_begun fun _ => leavesOrigin_runDb fun _ =>
      leavesSource_addUnavailableBooks _).bind fun _ => ?_
    refine (leaves_begun fun _ => leavesOrigin_runDb fun _ =>
      leavesSource_removeUnavailableBooks _).bind fun _ => ?_
    refine Triple.bind (M := fun t s => t.scanId = scanId ∧ Begun scanId s.origin)
      (.get fun s hs => ⟨hs.2, hs⟩) fun s => Triple.of_pure fun hs => ?_
    refine Triple.bind (M := fun _ s => Names sourceFingerprint scanId s.origin.1) ?_ fun _ => ?_
    · refine triple_runDb (P := Begun _) (R := fun o => Names _ _ o.1) fun scanId' => ?_
      refine (updateInpxSourceRow_spec _ _ _ _ _).conseq (fun db hdb => hdb.1)
        (fun _ db hdb => ⟨_, hdb, rfl, congrArg some hs⟩) fun _ _ h => h
    refine (leaves_named fun _ => leavesOrigin_runDb fun _ =>
      leavesSource_recomputeInpxSourceSize _).bind fun _ => ?_
    exact leaves_named fun _ => leavesOrigin_runDb fun _ => leavesSource_prunePersistedWarnings
  refine (leaves_named fun _ => leavesOrigin_finishChecks _ _ _).bind fun _ => ?_
  refine Triple.bind (leaves_named fun _ => ?_) fun _ => .pure fun _ hs => hs
  rw [commitScan]
  exact leavesOrigin_step.bind fun _ => .modify fun _ hs => hs

theorem executeScan_names (hp : env.persistent = true) (committed : Database)
    (plans : List SegmentPlan) (archiveGuards : List (Bytes × ArchiveScanGuard))
    (sourceFingerprint : Bytes) (sequence : Nat) :
    Triple (fun s => s.sequence = sequence)
      (executeScan readers env pick committed plans archiveGuards sourceFingerprint)
      (fun _ s => Names sourceFingerprint (makeScanId env.millis sequence) s.origin.1)
      Anything := by
  rw [executeScan]
  refine Triple.bind (M := fun _ s => Begun (makeScanId env.millis sequence) s.origin) ?_
    fun segmentIds => ?_
  · rw [prepareCatalog]
    rw [if_pos hp]
    exact (startWriter_begun sequence).bind fun _ =>
      leaves_begun fun _ => leavesOrigin_upsertSegments plans
  refine (leaves_begun fun _ => leavesOrigin_prepareExecution plans committed).bind fun _ => ?_
  refine (leaves_begun fun _ => leavesOrigin_executePlans _).bind fun _ => ?_
  refine Triple.bind (M := fun _ s =>
    Names sourceFingerprint (makeScanId env.millis sequence) s.origin.1) ?_ fun _ => ?_
  · rw [finishCatalog]
    rw [if_pos hp]
    refine (leaves_begun fun _ => leavesOrigin_onProgress).bind fun _ => ?_
    refine (finish_names _ _ _ _ _).bind fun marked => ?_
    refine Triple.bind (M := fun _ s => Names sourceFingerprint (makeScanId env.millis sequence)
      (ExecState.origin s).1) (.modify fun _ hs => ?_) fun _ => ?_
    · exact hs
    exact leaves_named fun _ => leavesOrigin_onProgress
  · exact leaves_named fun _ => .get_bind fun _ _ => .pure

end Execution

/-- A scan that commits leaves a row of the source that names the file it read and itself. -/
theorem runScan_names {readers : Readers} {env : ScanEnv} {S : Set Bytes} {world : World}
    (hS : CoversIn readers env S) (hs : Sound readers S world) (pick : Nat → Nat)
    (h : (runScan readers env pick world).committed = true) :
    ∃ bytes, env.sourceFileAtCommit.result = .ok bytes ∧
      Names (readers.sha.computeBytes bytes) (makeScanId env.millis world.sequence)
        (runScan readers env pick world).world.database.source := by
  revert h
  rw [runScan]
  cases hplan : planScan readers env world.database (.start env) with
  | error e s => exact fun h => by cases h
  | ok sourceFingerprint s =>
    have hexecute : Triple _ (executeScan readers env pick world.database s.plans s.archiveGuards
        sourceFingerprint) _ _ := executeScan_spec hS hs pick s.archiveGuards sourceFingerprint
    dsimp only
    cases hrun : executeScan readers env pick world.database s.plans s.archiveGuards
        sourceFingerprint (.start world s.progress) with
    | error e s' =>
      have hu := hexecute.throws (s := .start world s.progress) ⟨rfl, rfl⟩ hrun
      intro h
      have hc : s'.committed = false := hu.committed
      exact absurd (hc.symm.trans h) (by decide)
    | ok result s' =>
      intro h
      have hcommitted : s'.committed = true := h
      rcases hexecute.ok (s := .start world s.progress) ⟨rfl, rfl⟩ hrun with
        ⟨hp, segmentIds, db₁, r₁, sub, db₂, r₂, _, hc⟩ | hu
      · obtain ⟨bytes, hbytes, hhash⟩ := hc.sourceHolds
        refine ⟨bytes, hbytes, ?_⟩
        have hnames : Triple _ (executeScan readers env pick world.database s.plans
            s.archiveGuards sourceFingerprint) _ _ :=
          executeScan_names hp world.database s.plans
            s.archiveGuards sourceFingerprint world.sequence
        have hrow := hnames.ok (s := .start world s.progress) rfl hrun
        rw [hhash]
        change Names _ _ (World.settle world s').database.source
        rw [World.settle]
        rw [if_pos hcommitted]
        exact hrow
      · have hc : s'.committed = false := hu.committed
        rw [hcommitted] at hc
        cases hc

end InpxWebReader.Scan
