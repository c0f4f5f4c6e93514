import InpxWebReader.Scan.ExecutionSpec

/-!
# How a scan begins and ends

The statements of the writer around the execution loop: the segments are upserted before it
(`UpsertsAll`), and after it `Finish` marks and restores locations, brings the statistics up to
date, validates the archives once more and commits. `Commits` is what a run that commits did to the
database and the files; a run that fails is `Aborted`.
-/

namespace InpxWebReader.Scan

open Foundation Domain Inpx Storage Database Program ExecState

/-! ### Segments -/

/-- What upserting the segment of a plan did. -/
structure Upserts (scanId : Bytes) (plan : SegmentPlan) (segmentId : Nat) (db db' : Database) :
    Prop where
  frame : db' = { db with segments := db'.segments, deletions := db'.deletions }
  id : segmentId = segmentIdOf db plan.payload.inpEntryName
  segments : ∀ k, db'.segments.find? k =
    if segmentId = k then some { segmentRow scanId plan with id := segmentId }
    else db.segments.find? k
  deletions : ∀ d, d ∈ db'.deletions.rows ↔
    if d.segmentId = segmentId ∧ plan.change ≠ .unchanged
    then plan.change ≠ .removed ∧ d.libId ∈ plan.deletedLibIds
    else d ∈ db.deletions.rows

/-- The segments of the plans were upserted one after the other. -/
inductive UpsertsAll (scanId : Bytes) :
    List SegmentPlan → List Nat → Database → Database → Prop
  | nil (db : Database) : UpsertsAll scanId [] [] db db
  | cons {plan : SegmentPlan} {plans : List SegmentPlan} {segmentId : Nat} {segmentIds : List Nat}
      {db db₁ db₂ : Database} (h : Upserts scanId plan segmentId db db₁)
      (hs : UpsertsAll scanId plans segmentIds db₁ db₂) :
      UpsertsAll scanId (plan :: plans) (segmentId :: segmentIds) db db₂

theorem UpsertsAll.frame {scanId : Bytes} {plans : List SegmentPlan} {segmentIds : List Nat}
    {db db' : Database} (h : UpsertsAll scanId plans segmentIds db db') :
    db' = { db with segments := db'.segments, deletions := db'.deletions } := by
  induction h with
  | nil db => rfl
  | cons h _ ih => rw [ih, h.frame]

section Segments

variable {env : ScanEnv} {before : World} {why : Prop} {db : Database} {r : Standing}

theorem upsertSegmentRow_spec (row : SegmentRow) (db : Database) :
    Triple (fun s => s = db) (upsertSegmentRow row)
      (fun segmentId s => segmentId = segmentIdOf db row.inpEntryName ∧
        ∃ table, db.segments.put? { row with id := segmentId } = some table ∧
          s = setSegments table db)
      fun e _ => e ≠ Database.counterUnderflow ∧ True := by
  rw [upsertSegmentRow]
  refine Triple.bind (M := fun t s => t = db ∧ s = db) (.get fun s hs => ⟨hs, hs⟩) fun t => ?_
  refine Triple.of_pure fun ht => ?_
  subst ht
  refine Triple.bind (M := fun _ s => s = t) (.require (fun s hs _ => hs)
    fun _ _ _ => ⟨constraintFailed_ne_counterUnderflow, trivial⟩) fun _ => ?_
  cases hput : t.segments.put? { row with id := segmentIdOf t row.inpEntryName } with
  | none => exact fun s _ => ⟨constraintFailed_ne_counterUnderflow, trivial⟩
  | some table =>
    refine Triple.bind (M := fun a s => a = table ∧ s = t) (.pure fun s hs => ⟨rfl, hs⟩)
      fun a => Triple.of_pure fun ha => ?_
    subst ha
    refine Triple.bind (M := fun _ s => s = setSegments a t) (.modify fun _ _ => rfl) fun _ => ?_
    exact .pure fun s hs => ⟨rfl, a, hput, hs⟩

theorem insertDeletion_spec (segmentId : Nat) (libId : Bytes) (db : Database) :
    Triple (fun s => s = db) (insertDeletion segmentId libId)
      (fun _ s => s = { db with deletions := s.deletions } ∧
        ∀ d, d ∈ s.deletions.rows ↔ d ∈ db.deletions.rows ∨ d = ⟨segmentId, libId⟩)
      fun e _ => e ≠ Database.counterUnderflow ∧ True := by
  rw [insertDeletion]
  refine Triple.bind (M := fun t s => t = db ∧ s = db) (.get fun s hs => ⟨hs, hs⟩) fun t => ?_
  refine Triple.of_pure fun ht => ?_
  subst ht
  cases hins : t.deletions.insert? ⟨segmentId, libId⟩ with
  | none => exact fun s _ => ⟨constraintFailed_ne_counterUnderflow, trivial⟩
  | some table =>
    refine Triple.bind (M := fun a s => a = table ∧ s = t) (.pure fun s hs => ⟨rfl, hs⟩)
      fun a => Triple.of_pure fun ha => ?_
    subst ha
    refine .modify fun s hs => ?_
    rw [hs]
    refine ⟨rfl, fun d => ?_⟩
    change d ∈ a.rows ↔ _
    rw [(Table.insert?_eq_some.mp hins).2, List.mem_append, List.mem_singleton]

theorem insertDeletions_spec (hu : Undoable before r) (segmentId : Nat) (libIds : List Bytes) :
    Triple (At db r)
      (libIds.forM fun libId => do
        onProgress (throwIfCancelled env.stop .segmentUpsert)
        runDb env (insertDeletion segmentId libId))
      (fun _ s => ∃ db', (db' = { db with deletions := db'.deletions } ∧ ∀ d,
        d ∈ db'.deletions.rows ↔ d ∈ db.deletions.rows ∨
          (d.segmentId = segmentId ∧ d.libId ∈ libIds)) ∧ At db' r s)
      fun _ => Aborted env before True := by
  refine Triple.pre (R := fun s => ∃ db', (db' = { db with deletions := db'.deletions } ∧ ∀ d,
    d ∈ db'.deletions.rows ↔ d ∈ db.deletions.rows ∨
      (d.segmentId = segmentId ∧ d.libId ∈ ([] : List Bytes))) ∧ At db' r s) ?_
    fun s hs => ⟨db, ⟨rfl, fun d => by simp⟩, hs⟩
  refine Triple.forM (fun done s => ∃ db', (db' = { db with deletions := db'.deletions } ∧ ∀ d,
    d ∈ db'.deletions.rows ↔ d ∈ db.deletions.rows ∨
      (d.segmentId = segmentId ∧ d.libId ∈ done)) ∧ At db' r s) fun done libId rest _ => ?_
  refine Triple.of_exists fun db₁ => Triple.of_pure fun h₁ => ?_
  refine (quiet_throwIfCancelled _).bind hu fun _ => ?_
  refine (runDb_spec hu (insertDeletion_spec segmentId libId db₁)).post fun _ s hs => ?_
  obtain ⟨db₂, ⟨hframe, hmem⟩, hs⟩ := hs
  refine ⟨db₂, ⟨?_, fun d => ?_⟩, hs⟩
  · rw [hframe, h₁.1]
  · rw [hmem, h₁.2, List.mem_append, List.mem_singleton]
    cases d
    simp only [DeletionRow.mk.injEq]
    tauto

theorem find?_upserted (row : SegmentRow) {table}
    (hput : db.segments.put? { row with id := segmentIdOf db row.inpEntryName } = some table)
    (k : Nat) :
    table.find? k = if segmentIdOf db row.inpEntryName = k
      then some { row with id := segmentIdOf db row.inpEntryName } else db.segments.find? k :=
  Table.find?_put? hput k

theorem upsertSegment_spec (hu : Undoable before r) (plan : SegmentPlan) :
    Triple (At db r) (upsertSegment env plan)
      (fun segmentId s => ∃ db', Upserts r.scanId plan segmentId db db' ∧ At db' r s)
      fun _ => Aborted env before True := by
  rw [upsertSegment]
  refine At.get_bind fun s hs => ?_
  rw [show s.scanId = r.scanId from congrArg Standing.scanId hs.2]
  refine runDb_bind hu (upsertSegmentRow_spec _ _) fun segmentId db₁ hdb₁ => ?_
  obtain ⟨hid, table, hput, rfl⟩ := hdb₁
  rw [hid] at hput
  have hfind : ∀ k, table.find? k = if segmentId = k
      then some { segmentRow r.scanId plan with id := segmentId }
      else db.segments.find? k := by
    intro k
    rw [hid]
    exact find?_upserted (segmentRow r.scanId plan) hput k
  refine .ite (fun hunchanged => ?_) fun hchanged => ?_
  · refine .pure fun s hs => ⟨_, ⟨rfl, hid, hfind, fun d => ?_⟩, hs⟩
    rw [if_neg fun h => h.2 hunchanged]
    rfl
  refine runDb_bind (R := fun _ s => s = setDeletions (db.deletions.delete
    fun d => d.segmentId = segmentId) (setSegments table db)) hu
    (.modify fun s hs => by rw [hs]; rfl) fun _ db₂ hdb₂ => ?_
  have hdeleted : ∀ d, d ∈ db₂.deletions.rows ↔
      d ∈ db.deletions.rows ∧ d.segmentId ≠ segmentId := by
    intro d
    rw [hdb₂]
    change d ∈ (db.deletions.delete _).rows ↔ _
    rw [Table.mem_delete, decide_eq_false_iff_not]
  refine .ite (fun hremoved => ?_) fun hremoved => ?_
  · refine .pure fun s hs => ⟨_, ⟨by rw [hdb₂]; rfl, hid, ?_, fun d => ?_⟩, hs⟩
    · rw [hdb₂]
      exact hfind
    · rw [hdeleted]
      by_cases hd : d.segmentId = segmentId
      · rw [if_pos ⟨hd, hchanged⟩]
        exact ⟨fun h => absurd hd h.2, fun h => absurd hremoved h.1⟩
      · rw [if_neg fun h => hd h.1]
        exact and_iff_left hd
  · refine Triple.bind (insertDeletions_spec hu segmentId plan.deletedLibIds) fun _ =>
      Triple.of_exists fun db₃ => Triple.of_pure fun hdb₃ => .pure fun s hs => ?_
    refine ⟨db₃, ⟨by rw [hdb₃.1, hdb₂]; rfl, hid, ?_, fun d => ?_⟩, hs⟩
    · rw [hdb₃.1, hdb₂]
      exact hfind
    · rw [hdb₃.2, hdeleted]
      by_cases hd : d.segmentId = segmentId
      · rw [if_pos ⟨hd, hchanged⟩]
        exact ⟨fun h => ⟨hremoved, h.elim (fun h => absurd hd h.2) fun h => h.2⟩,
          fun h => .inr ⟨hd, h.2⟩⟩
      · rw [if_neg fun h => hd h.1]
        exact ⟨fun h => h.elim (fun h => h.1) fun h => absurd h.1 hd, fun h => .inl ⟨h, hd⟩⟩

theorem upsertSegments_spec (hu : Undoable before r) (plans : List SegmentPlan) :
    ∀ db, Triple (At db r) (upsertSegments env plans)
      (fun segmentIds s => ∃ db', UpsertsAll r.scanId plans segmentIds db db' ∧ At db' r s)
      fun _ => Aborted env before True := by
  induction plans with
  | nil => exact fun db => .pure fun s hs => ⟨db, .nil db, hs⟩
  | cons plan plans ih =>
    intro db
    rw [upsertSegments]
    refine (quiet_throwIfCancelled _).bind hu fun _ => ?_
    refine (upsertSegment_spec hu plan).bind fun segmentId =>
      Triple.of_exists fun db₁ => Triple.of_pure fun h₁ => ?_
    refine (ih db₁).bind fun segmentIds =>
      Triple.of_exists fun db₂ => Triple.of_pure fun h₂ => ?_
    exact .pure fun s hs => ⟨db₂, .cons h₁ h₂, hs⟩

end Segments

/-! ### Before the execution -/

/-- The catalog when the segments are upserted and the execution may begin. -/
def Prepared (env : ScanEnv) (plans : List SegmentPlan) (segmentIds : List Nat) (db : Database)
    (r : Standing) (db' : Database) (r' : Standing) : Prop :=
  if env.persistent then
    (∃ source, UpsertsAll (makeScanId env.millis r.sequence) plans segmentIds
      { db with source := source } db') ∧
    r' = { r with scanId := makeScanId env.millis r.sequence, sequence := r.sequence + 1 }
  else segmentIds = plans.map (fun _ => 0) ∧ db' = db ∧ r' = r

section Prepare

variable {env : ScanEnv} {before : World} {db : Database} {r : Standing}

theorem quiet_awaitLock (attempts : Nat) : Quiet env (awaitLock env attempts) := by
  induction attempts with
  | zero => exact quiet_throwIfCancelled _
  | succ attempts ih =>
    exact (quiet_throwIfCancelled _).comp fun _ => (quiet_throwIfCancelled _).comp fun _ => ih

theorem readInpxSourceId_spec (db : Database) :
    Triple (fun s => s = db) readInpxSourceId (fun _ s => s = db)
      fun e _ => e ≠ Database.counterUnderflow ∧ True := by
  rw [readInpxSourceId]
  refine Triple.bind (M := fun _ s => s = db) (.get fun s hs => hs) fun t => ?_
  exact .require (fun s hs _ => hs) fun _ _ _ => ⟨by decide, trivial⟩

theorem startWriter_spec (hu : Undoable before r) :
    Triple (At db r) (startWriter env)
      (fun _ s => ∃ source, At { db with source := source }
        { r with scanId := makeScanId env.millis r.sequence, sequence := r.sequence + 1 } s)
      fun _ => Aborted env before True := by
  have hu' : Undoable before
      { r with scanId := makeScanId env.millis r.sequence, sequence := r.sequence + 1 } :=
    ⟨hu.committed, hu.counterUnderflow, hu.sequence.trans (Nat.le_succ _), hu.fresh, hu.kept⟩
  rw [startWriter]
  refine quiet_step.bind hu fun _ => ?_
  refine Triple.bind (M := fun _ => At db
    { r with scanId := makeScanId env.millis r.sequence, sequence := r.sequence + 1 })
    (.modify fun s hs => ?_) fun _ => ?_
  · obtain ⟨rfl, rfl⟩ := hs
    exact ⟨rfl, rfl⟩
  refine runDb_bind hu' (readInpxSourceId_spec db) fun _ db₁ hdb₁ => ?_
  subst hdb₁
  refine (quiet_awaitLock _).bind hu' fun _ => ?_
  refine Triple.bind (M := fun _ => At db₁
    { r with scanId := makeScanId env.millis r.sequence, sequence := r.sequence + 1 }) ?_
    fun _ => ?_
  · cases env.beginFailure with
    | none => exact .pure fun _ hs => hs
    | some failure => exact .throw fun s hs => ⟨hs.2 ▸ hu', .inr (.inr trivial)⟩
  · refine (runDb_spec (R := fun _ s => ∃ source, s = { db₁ with source := source }) hu'
      (.modify fun s hs => by subst hs; exact ⟨_, rfl⟩)).post fun _ s hs => ?_
    obtain ⟨db₂, ⟨source, rfl⟩, hs⟩ := hs
    exact ⟨source, hs⟩

theorem prepareCatalog_spec (hu : Undoable before r) (plans : List SegmentPlan) :
    Triple (At db r) (prepareCatalog env plans)
      (fun segmentIds s => ∃ db' r', Prepared env plans segmentIds db r db' r' ∧ At db' r' s)
      fun _ => Aborted env before True := by
  rw [prepareCatalog]
  refine .ite (fun hp => ?_) fun hp => .pure fun s hs => ⟨db, r, ?_, hs⟩
  · refine (startWriter_spec hu).bind fun _ => Triple.of_exists fun source => ?_
    have hu' : Undoable before
        { r with scanId := makeScanId env.millis r.sequence, sequence := r.sequence + 1 } :=
      ⟨hu.committed, hu.counterUnderflow, hu.sequence.trans (Nat.le_succ _), hu.fresh, hu.kept⟩
    refine (upsertSegments_spec hu' plans _).post fun segmentIds s hs => ?_
    obtain ⟨db', hall, hs⟩ := hs
    refine ⟨db', _, ?_, hs⟩
    rw [Prepared]
    rw [if_pos hp]
    exact ⟨⟨source, hall⟩, rfl⟩
  · rw [Prepared]
    rw [if_neg hp]
    exact ⟨rfl, rfl, rfl⟩

theorem publishWarnings_spec (hu : Undoable before r) (warnings : List ScanWarningRecord) :
    Triple (At db r) (warnings.forM fun warning => publishWarning env warning false)
      (fun _ s => ∃ table, At { db with warnings := table } r s)
      fun _ => Aborted env before True := by
  refine Triple.pre (Triple.forM_inv (I := fun s => ∃ table, At { db with warnings := table } r s)
    fun warning _ => Triple.of_exists fun table => ?_) fun s hs => ⟨db.warnings, hs⟩
  refine (publishWarning_spec hu warning false).post fun _ s hs => ?_
  obtain ⟨table', hs⟩ := hs
  exact ⟨table', hs⟩

theorem prepareExecution_spec (hu : Undoable before r) (plans : List SegmentPlan)
    (committed : Database) :
    Triple (At db r) (prepareExecution env plans committed)
      (fun _ s => ∃ table activeIds,
        readActiveInpxIdsForSegments env committed (unchangedSegmentNames plans) = .ok activeIds ∧
        At { db with warnings := table } { r with processedActiveIds := activeIds } s)
      fun _ => Aborted env before True := by
  rw [prepareExecution]
  have hwarnings : Triple (At db r) _ _ fun _ => Aborted env before True :=
    publishWarnings_spec hu ((plans.flatMap SegmentPlan.warnings).map planWarning)
  rw [show ((plans.flatMap SegmentPlan.warnings).map planWarning).forM
    (fun warning => publishWarning env warning false) =
      (plans.flatMap SegmentPlan.warnings).forM
        (fun warning => publishWarning env (planWarning warning) false) from
      List.forM_map ..] at hwarnings
  refine hwarnings.bind fun _ => Triple.of_exists fun table => ?_
  refine ofFileSystem_bind hu (fun _ _ => trivial) fun activeIds hids => ?_
  refine Triple.bind (M := fun _ => At { db with warnings := table }
    { r with processedActiveIds := activeIds })
    (.modify fun s hs => ⟨hs.1, by rw [← hs.2]; rfl⟩) fun _ => ?_
  have hu' : Undoable before { r with processedActiveIds := activeIds } :=
    ⟨hu.committed, hu.counterUnderflow, hu.sequence, hu.fresh, hu.kept⟩
  refine ((((quiet_runCheckpoints _ _).comp fun _ => (quiet_runCheckpoints _ _).comp fun _ =>
    quiet_throwIfCancelled _)).triple hu').post fun _ s hs => ⟨table, activeIds, hids, hs⟩

end Prepare

/-! ### The end -/

/-- The database with what the scan did not see of the changed segments marked absent. -/
def withAbsentees (scanId : Bytes) (changedSegmentIds : List Nat) (db : Database) : Database :=
  changedSegmentIds.foldl (fun db segmentId => withAbsent segmentId scanId db) db

/-- The database after the statements of `Finish` on the locations. -/
def finishedLocations (scanId : Bytes) (changedSegmentIds : List Nat) (db : Database) : Database :=
  settledAvailability scanId (withAbsentees scanId changedSegmentIds db)

/-- What `Finish` counts fits the columns of the statistics. -/
structure CountsFit (files : SourceFiles) (scanId : Bytes) (changedSegmentIds : List Nat)
    (db : Database) : Prop where
  marked : (withAbsentees scanId changedSegmentIds db).locations.rows.countP
    (toMarkUnavailable (withAbsentees scanId changedSegmentIds db)) < 2 ^ 63
  restored : (setAvailability (toMarkUnavailable (withAbsentees scanId changedSegmentIds db))
    .missingFromIndex scanId (withAbsentees scanId changedSegmentIds db)).locations.rows.countP
      (toRestore (setAvailability (toMarkUnavailable (withAbsentees scanId changedSegmentIds db))
        .missingFromIndex scanId (withAbsentees scanId changedSegmentIds db))) < 2 ^ 63
  sourceSize :
    collectInpxSourceSnapshot files (finishedLocations scanId changedSegmentIds db) < 2 ^ 63

/-- The archives are still what the plans were made from. -/
structure ArchivesHold (env : ScanEnv) (plans : List SegmentPlan)
    (archiveGuards : List (Bytes × ArchiveScanGuard)) : Prop where
  plans : ∃ expectations, plans.foldlM (fun expectations plan =>
    (checkPlanGuard archiveGuards plan expectations).toOption) [] = some expectations
  files : ∀ entry ∈ archiveGuards, env.guardState entry.1 = .ok entry.2.fileState
  manifests : ∀ entry ∈ archiveGuards, entry.2.phase ≠ .fileStateRead →
    (env.guardManifest entry.1).result = .ok entry.2.manifestFingerprint

/-- The INPX file is still what the scan read. -/
def SourceHolds (readers : Readers) (env : ScanEnv) (sourceFingerprint : Bytes) : Prop :=
  ∃ bytes, env.sourceFileAtCommit.result = .ok bytes ∧
    readers.sha.computeBytes bytes = sourceFingerprint

/-- The database that a scan leaves, after the execution left `db`. -/
structure Finishes (sizes : AllowedSizes) (files : SourceFiles) (scanId : Bytes)
    (changedSegmentIds : List Nat) (db db' : Database) : Prop where
  consistent : Consistent sizes 0 db'
  books : db'.books = db.books
  locations : db'.locations = (finishedLocations scanId changedSegmentIds db).locations
  segments : db'.segments = db.segments
  deletions : db'.deletions = db.deletions
  sourceSize : db'.statistics.map StatisticsRow.inpxSourceSizeBytes =
    some (collectInpxSourceSnapshot files (finishedLocations scanId changedSegmentIds db) : Int)

/-- The entry when the scan did not see it in its segment and read that segment. -/
def seenOrAbsent (scanId : Bytes) (changedSegmentIds : List Nat) (e : Entry) : Entry :=
  if e.segmentId ∈ changedSegmentIds ∧ e.presentInSegment = true ∧ e.lastSeenScanId ≠ some scanId
  then e.absent scanId else e

/-- The entry that `Finish` makes of an entry. -/
def finishedEntry (scanId : Bytes) (changedSegmentIds : List Nat) (db : Database) (libId : Bytes)
    (e : Entry) : Entry :=
  (seenOrAbsent scanId changedSegmentIds e).settled scanId
    ((seenOrAbsent scanId changedSegmentIds e).isListed db libId)

theorem seenOrAbsent_cons (scanId : Bytes) (segmentId : Nat) (changedSegmentIds : List Nat)
    (e : Entry) : seenOrAbsent scanId (segmentId :: changedSegmentIds) e =
      seenOrAbsent scanId changedSegmentIds
        (if e.notSeen segmentId scanId then e.absent scanId else e) := by
  by_cases hn : e.notSeen segmentId scanId = true
  · have hn' := hn
    simp only [Entry.notSeen, Bool.and_eq_true, decide_eq_true_eq] at hn'
    obtain ⟨⟨hid, hp⟩, hl⟩ := hn'
    rw [if_pos hn]
    unfold seenOrAbsent
    rw [if_pos ⟨List.mem_cons.mpr (.inl hid), hp, hl⟩, if_neg fun h => by cases h.2.1]
  · rw [if_neg hn]
    unfold seenOrAbsent
    refine if_congr ⟨fun h => ⟨?_, h.2⟩, fun h => ⟨List.mem_cons_of_mem _ h.1, h.2⟩⟩ rfl rfl
    rcases List.mem_cons.mp h.1 with hid | hid
    · simp [Entry.notSeen, hid, h.2.1, h.2.2] at hn
    · exact hid

theorem catalogOf_withAbsentees (scanId : Bytes) (changedSegmentIds : List Nat) (db : Database)
    (libId : Bytes) :
    catalogOf (withAbsentees scanId changedSegmentIds db) libId =
      (catalogOf db libId).map (seenOrAbsent scanId changedSegmentIds) := by
  rw [withAbsentees]
  induction changedSegmentIds generalizing db with
  | nil =>
    rw [show seenOrAbsent scanId [] = id from funext fun e =>
      if_neg fun h => List.not_mem_nil h.1, Option.map_id]
    rfl
  | cons segmentId ids ih =>
    rw [List.foldl_cons, ih, catalogOf_withAbsent, Option.map_map]
    congr 1
    funext e
    exact (seenOrAbsent_cons scanId segmentId ids e).symm

theorem withAbsentees_frame (scanId : Bytes) (changedSegmentIds : List Nat) (db : Database) :
    withAbsentees scanId changedSegmentIds db =
      setLocations (withAbsentees scanId changedSegmentIds db).locations db := by
  rw [withAbsentees]
  induction changedSegmentIds generalizing db with
  | nil => rfl
  | cons segmentId ids ih =>
    rw [List.foldl_cons, ih]
    rfl

theorem finishedLocations_frame (scanId : Bytes) (changedSegmentIds : List Nat) (db : Database) :
    finishedLocations scanId changedSegmentIds db =
      setLocations (finishedLocations scanId changedSegmentIds db).locations db := by
  have h := withAbsentees_frame scanId changedSegmentIds db
  rw [finishedLocations]
  generalize withAbsentees scanId changedSegmentIds db = absentees at h
  rw [h]
  rfl

/-- Whether an entry is listed is a matter of the segments and the delete markers. -/
theorem isListed_congr {db db' : Database} (hs : db'.segments = db.segments)
    (hd : db'.deletions = db.deletions) (libId : Bytes) (e : Entry) :
    e.isListed db' libId = e.isListed db libId := by
  unfold Entry.isListed segmentAvailable
  rw [hs, hd]

theorem Finishes.catalogOf_eq {sizes : AllowedSizes} {files : SourceFiles} {scanId : Bytes}
    {changedSegmentIds : List Nat} {db db' : Database}
    (h : Finishes sizes files scanId changedSegmentIds db db') (libId : Bytes) :
    catalogOf db' libId =
      (catalogOf db libId).map (finishedEntry scanId changedSegmentIds db' libId) := by
  have hframe := finishedLocations_frame scanId changedSegmentIds db
  have hloc : catalogOf db' libId =
      catalogOf (finishedLocations scanId changedSegmentIds db) libId := by
    unfold catalogOf entryOf coverOf
    rw [h.locations, h.books, hframe]
    rfl
  rw [hloc]
  rw [finishedLocations]
  rw [catalogOf_settledAvailability, catalogOf_withAbsentees, Option.map_map]
  congr 1
  funext e
  have habs := withAbsentees_frame scanId changedSegmentIds db
  have hs : db'.segments = (withAbsentees scanId changedSegmentIds db).segments := by
    rw [h.segments, habs]
    rfl
  have hd : db'.deletions = (withAbsentees scanId changedSegmentIds db).deletions := by
    rw [h.deletions, habs]
    rfl
  rw [finishedEntry]
  rw [Function.comp_apply, isListed_congr hs hd]

section Finish

variable {readers : Readers} {env : ScanEnv} {before : World} {why : Prop} {db : Database}
  {r : Standing} {sizes : AllowedSizes}

theorem consistent_withAbsentees (hc : Consistent sizes 0 db) (scanId : Bytes)
    (changedSegmentIds : List Nat) :
    Consistent sizes 0 (withAbsentees scanId changedSegmentIds db) := by
  rw [withAbsentees]
  induction changedSegmentIds generalizing db with
  | nil => exact hc
  | cons segmentId ids ih => exact ih (hc.withAbsent segmentId scanId)

theorem markAllAbsent_spec (hu : Undoable before r) (changedSegmentIds : List Nat) :
    Triple (At db r)
      (changedSegmentIds.forM fun segmentId => do
        onProgress (throwIfCancelled env.stop .finish)
        runDb env (markAbsent segmentId (← get).scanId))
      (fun _ => At (withAbsentees r.scanId changedSegmentIds db) r)
      fun _ => Aborted env before why := by
  refine Triple.forM (fun done => At (withAbsentees r.scanId done db) r)
    fun done segmentId rest _ => ?_
  refine (quiet_throwIfCancelled _).bind hu fun _ => At.get_bind fun s hs => ?_
  rw [show s.scanId = r.scanId from congrArg Standing.scanId hs.2]
  refine (runDb_spec hu ((markAbsent_spec segmentId r.scanId _).error
    fun _ _ h => h.elim)).post fun _ s hs => ?_
  obtain ⟨db', rfl, hs⟩ := hs
  rw [withAbsentees] at hs ⊢
  rw [List.foldl_append]
  exact hs

/-- The statements on the locations, and how many rows the last two changed. -/
theorem finishLocations_spec (hu : Undoable before r) (changedSegmentIds : List Nat) :
    Triple (At db r) (finishLocations env changedSegmentIds)
      (fun counts s =>
        (counts.1 = (withAbsentees r.scanId changedSegmentIds db).locations.rows.countP
            (toMarkUnavailable (withAbsentees r.scanId changedSegmentIds db)) ∧
          counts.2 = (setAvailability (toMarkUnavailable (withAbsentees r.scanId
            changedSegmentIds db)) .missingFromIndex r.scanId (withAbsentees r.scanId
            changedSegmentIds db)).locations.rows.countP (toRestore (setAvailability
              (toMarkUnavailable (withAbsentees r.scanId changedSegmentIds db)) .missingFromIndex
              r.scanId (withAbsentees r.scanId changedSegmentIds db)))) ∧
        At (finishedLocations r.scanId changedSegmentIds db) r s)
      fun _ => Aborted env before why := by
  rw [finishLocations]
  refine (markAllAbsent_spec hu changedSegmentIds).bind fun _ => ?_
  refine (quiet_throwIfCancelled _).bind hu fun _ => At.get_bind fun s hs => ?_
  rw [show s.scanId = r.scanId from congrArg Standing.scanId hs.2]
  refine runDb_bind hu ((markUnavailable_spec r.scanId _).error fun _ _ h => h.elim)
    fun marked db₁ h₁ => ?_
  obtain ⟨rfl, rfl⟩ := h₁
  refine (quiet_throwIfCancelled _).bind hu fun _ => At.get_bind fun s₁ hs₁ => ?_
  rw [show s₁.scanId = r.scanId from congrArg Standing.scanId hs₁.2]
  refine runDb_bind hu ((restoreAvailable_spec r.scanId _).error fun _ _ h => h.elim)
    fun restored db₂ h₂ => ?_
  obtain ⟨rfl, rfl⟩ := h₂
  exact .pure fun s hs => ⟨⟨rfl, rfl⟩, hs⟩

theorem sizeOverflow_why {p : Prop} {n : Nat} {e : Failure}
    (h : e = sizeOverflow ∧ 2 ^ 63 ≤ n) (hp : p → n < 2 ^ 63) :
    e ≠ Database.counterUnderflow ∧ ¬p :=
  ⟨h.1 ▸ sizeOverflow_ne_counterUnderflow, fun hq => Nat.not_lt.mpr h.2 (hp hq)⟩

/-- The statements on the statistics bring them up to date. -/
theorem finishStatistics_spec (hu : Undoable before r) (hc : Consistent sizes 0 db)
    (changedSegmentIds : List Nat) (sourceFingerprint : Bytes) :
    Triple (At (finishedLocations r.scanId changedSegmentIds db) r)
      (finishStatistics env sourceFingerprint
        ((withAbsentees r.scanId changedSegmentIds db).locations.rows.countP
          (toMarkUnavailable (withAbsentees r.scanId changedSegmentIds db)))
        ((setAvailability (toMarkUnavailable (withAbsentees r.scanId changedSegmentIds db))
          .missingFromIndex r.scanId (withAbsentees r.scanId changedSegmentIds db)
          ).locations.rows.countP (toRestore (setAvailability (toMarkUnavailable (withAbsentees
            r.scanId changedSegmentIds db)) .missingFromIndex r.scanId (withAbsentees r.scanId
            changedSegmentIds db)))))
      (fun _ s => ∃ db', (Finishes sizes env.sourceFiles r.scanId changedSegmentIds db db' ∧
        CountsFit env.sourceFiles r.scanId changedSegmentIds db) ∧ At db' r s)
      fun _ => Aborted env before
        (¬CountsFit env.sourceFiles r.scanId changedSegmentIds db) := by
  set absentees := withAbsentees r.scanId changedSegmentIds db with habs
  set marked := setAvailability (toMarkUnavailable absentees) .missingFromIndex r.scanId absentees
    with hmarked
  set fin := finishedLocations r.scanId changedSegmentIds db with hfin
  have hcm := (consistent_withAbsentees hc r.scanId changedSegmentIds).marked r.scanId
  have hcf : Consistent sizes (0 + absentees.locations.rows.countP (toMarkUnavailable absentees) -
      marked.locations.rows.countP (toRestore marked)) fin := hcm.restored r.scanId
  have hframe := finishedLocations_frame r.scanId changedSegmentIds db
  rw [← hfin] at hframe
  rw [finishStatistics]
  refine runDb_bind hu ((addUnavailableBooks_spec hcf.recorded _).error fun _ _ h =>
    sizeOverflow_why h fun hfit => hfit.marked) fun _ db₁ h₁ => ?_
  have hle : (marked.locations.rows.countP (toRestore marked) : Int) ≤
      fin.locations.rows.countP LocationRow.isUnavailable -
        (0 + absentees.locations.rows.countP (toMarkUnavailable absentees) -
          marked.locations.rows.countP (toRestore marked)) +
        absentees.locations.rows.countP (toMarkUnavailable absentees) := by
    omega
  refine runDb_bind hu ((removeUnavailableBooks_spec h₁.2.2 hle).error fun _ _ h =>
    sizeOverflow_why h fun hfit => hfit.restored) fun _ db₂ h₂ => ?_
  have hframe₂ := h₁.2.1.trans h₂.2.1
  refine At.get_bind fun s _ => ?_
  refine runDb_bind (R := fun _ s => ∃ source, s = { db₂ with source := source }) hu
    (.modify fun s hs => by subst hs; exact ⟨_, rfl⟩) fun _ db₃ h₃ => ?_
  obtain ⟨source, rfl⟩ := h₃
  have hcollect : collectInpxSourceSnapshot env.sourceFiles { db₂ with source := source } =
      collectInpxSourceSnapshot env.sourceFiles fin := by
    rw [OnlyStatisticsChange] at hframe₂
    rw [hframe₂]
    rfl
  have hrec₂ : Recorded sizes _ _ _ { db₂ with source := source } := h₂.2.2.congr rfl rfl
  refine runDb_bind hu ((recomputeInpxSourceSize_spec hrec₂ env.sourceFiles).error
    fun _ _ h => sizeOverflow_why h fun hfit : CountsFit _ _ _ _ => hcollect ▸ hfit.sourceSize)
    fun _ db₄ h₄ => ?_
  refine (runDb_spec (R := fun _ s => ∃ table, s = { db₄ with warnings := table }) hu
    (.modify fun s hs => by subst hs; exact ⟨_, rfl⟩)).post fun _ s hs => ?_
  obtain ⟨db₅, ⟨table, rfl⟩, hs⟩ := hs
  obtain ⟨hlt, hframe₄, hrec, hsize⟩ := h₄
  rw [hcollect] at hlt
  rw [OnlyStatisticsChange] at hframe₂ hframe₄
  have hdb₄ : db₄ = { fin with
      source := source, statistics := db₄.statistics, coverFiles := db₄.coverFiles } := by
    rw [hframe₄, hframe₂]
  refine ⟨_, ⟨⟨⟨?_, ?_, ?_⟩, ?_, ?_, ?_, ?_, ?_⟩, h₁.1, h₂.1, hlt⟩, hs⟩
  · rw [hdb₄]
    exact ⟨hcf.wellLinked.spelling, hcf.wellLinked.named, hcf.wellLinked.resolved⟩
  · rw [hdb₄]
    exact hcf.owned
  · have hu' : ∀ a b c : Int, a - (0 + b - c) + b - c = a - 0 := fun a b c => by ring
    rw [hu'] at hrec
    rw [hdb₄]
    rw [hdb₄] at hrec
    exact hrec.congr rfl rfl
  · rw [hdb₄, hframe]
    rfl
  · rw [hdb₄]
  · rw [hdb₄, hframe]
    rfl
  · rw [hdb₄, hframe]
    rfl
  · rw [hcollect] at hsize
    exact hsize

/-- Is a guarded archive still what the scan read? -/
def ArchiveHolds (env : ScanEnv) (entry : Bytes × ArchiveScanGuard) : Prop :=
  env.guardState entry.1 = .ok entry.2.fileState ∧ (entry.2.phase ≠ .fileStateRead →
    (env.guardManifest entry.1).result = .ok entry.2.manifestFingerprint)

theorem checkPlanGuards_spec (hu : Undoable before r)
    (archiveGuards : List (Bytes × ArchiveScanGuard)) (plans : List SegmentPlan)
    (expectations : List (Bytes × Bytes)) :
    Triple (At db r) (checkPlanGuards env archiveGuards plans expectations)
      (fun _ s => (∃ last, plans.foldlM (fun expectations plan =>
        (checkPlanGuard archiveGuards plan expectations).toOption) expectations = some last) ∧
        At db r s)
      fun _ => Aborted env before (¬∃ last, plans.foldlM (fun expectations plan =>
        (checkPlanGuard archiveGuards plan expectations).toOption) expectations = some last) := by
  induction plans generalizing expectations with
  | nil => exact .pure fun s hs => ⟨⟨expectations, rfl⟩, hs⟩
  | cons plan plans ih =>
    rw [checkPlanGuards]
    refine (quiet_throwIfCancelled _).bind hu fun _ => ?_
    rw [List.foldlM_cons]
    refine ofFileSystem_bind hu (fun e he => ?_) fun next hnext => ?_
    · rw [he]
      rintro ⟨_, h⟩
      cases h
    · rw [hnext]
      exact ih next

theorem checkArchive_spec (hu : Undoable before r) (entry : Bytes × ArchiveScanGuard) :
    Triple (At db r) (checkArchive env entry.1 entry.2)
      (fun _ s => ArchiveHolds env entry ∧ At db r s)
      fun _ => Aborted env before (¬ArchiveHolds env entry) := by
  rw [checkArchive]
  refine (quiet_throwIfCancelled _).bind hu fun _ => ?_
  refine ofFileSystem_bind hu (fun e he hh => ?_) fun currentState hstate => ?_
  · rw [hh.1] at he
    cases he
  refine require_bind hu (fun hne hh => ?_) fun heq => ?_
  · rw [hh.1] at hstate
    injection hstate with hstate
    exact hne hstate.symm
  rw [heq] at hstate
  refine .ite (fun hphase => .pure fun s hs => ⟨⟨hstate, fun h => absurd hphase h⟩, hs⟩)
    fun hphase => ?_
  refine runCall_bind hu (fun e he hh => ?_) fun fingerprint hfp => ?_
  · rw [hh.2 hphase] at he
    cases he
  rw [require]
  refine .ite (fun heq => .pure fun s hs => ⟨⟨hstate, fun _ => heq ▸ hfp⟩, hs⟩) fun hne => ?_
  refine .throw fun s hs => ⟨hs.2 ▸ hu, .inr (.inr fun hh => hne ?_)⟩
  rw [hh.2 hphase] at hfp
  injection hfp with hfp
  exact hfp.symm

theorem validateArchiveGuards_spec (hu : Undoable before r) (plans : List SegmentPlan)
    (archiveGuards : List (Bytes × ArchiveScanGuard)) :
    Triple (At db r) (validateArchiveGuards env plans archiveGuards)
      (fun _ s => ArchivesHold env plans archiveGuards ∧ At db r s)
      fun _ => Aborted env before (¬ArchivesHold env plans archiveGuards) := by
  rw [validateArchiveGuards]
  refine Triple.bind ((checkPlanGuards_spec hu archiveGuards plans []).error fun _ _ h =>
    h.mono fun hn hh => hn hh.plans) fun _ => Triple.of_pure fun hplans => ?_
  refine (Triple.pre (Triple.forM (fun done s => (∀ entry ∈ done, ArchiveHolds env entry) ∧
    At db r s) fun done entry rest hx => ?_) fun s hs => ⟨fun _ h => absurd h List.not_mem_nil,
      hs⟩).post fun _ s hs => ⟨⟨hplans, fun entry he => ?_, fun entry he => ?_⟩, hs.2⟩
  · refine Triple.of_pure fun hdone => (checkArchive_spec hu entry).conseq (fun _ h => h)
      (fun _ s hs => ⟨fun e he => ?_, hs.2⟩) fun _ _ h => h.mono fun hn hh => hn ?_
    · rcases List.mem_append.mp he with he | he
      · exact hdone e he
      · exact List.mem_singleton.mp he ▸ hs.1
    · have hmem : entry ∈ archiveGuards := by
        rw [← List.mem_insertionSort (r := fun a b : Bytes × ArchiveScanGuard =>
          byteOrder a.1 b.1), hx]
        exact List.mem_append_right _ (List.mem_cons_self ..)
      exact ⟨hh.files entry hmem, hh.manifests entry hmem⟩
  · exact (hs.1 entry ((List.mem_insertionSort _).mpr he)).1
  · exact (hs.1 entry ((List.mem_insertionSort _).mpr he)).2

theorem finishChecks_spec (hu : Undoable before r) (sourceFingerprint : Bytes)
    (plans : List SegmentPlan) (archiveGuards : List (Bytes × ArchiveScanGuard)) :
    Triple (At db r) (finishChecks readers env sourceFingerprint plans archiveGuards)
      (fun _ s => (ArchivesHold env plans archiveGuards ∧
        SourceHolds readers env sourceFingerprint) ∧ At db r s)
      fun _ => Aborted env before (¬(ArchivesHold env plans archiveGuards ∧
        SourceHolds readers env sourceFingerprint)) := by
  rw [finishChecks]
  refine (quiet_runCheckpoints _ _).bind hu fun _ => ?_
  refine Triple.bind ((validateArchiveGuards_spec hu plans archiveGuards).error fun _ _ h =>
    h.mono fun hn hh => hn hh.1) fun _ => Triple.of_pure fun harchives => ?_
  refine (quiet_throwIfCancelled _).bind hu fun _ => ?_
  refine runCall_bind hu (fun e he hh => ?_) fun bytes hbytes => ?_
  · obtain ⟨_, hr, _⟩ := hh.2
    rw [hr] at he
    cases he
  refine require_bind hu (fun hne hh => ?_) fun heq => ?_
  · obtain ⟨_, hr, hfp⟩ := hh.2
    rw [hbytes] at hr
    injection hr with hr
    exact hne (hr ▸ hfp)
  exact ((quiet_throwIfCancelled _).triple hu).post fun _ s hs =>
    ⟨⟨harchives, bytes, hbytes, heq⟩, hs⟩

/-- `Finish`: the catalog is finished and committed, or the run fails. -/
theorem finish_spec (hu : Undoable before r) (hc : Consistent sizes 0 db)
    (sourceFingerprint : Bytes) (plans : List SegmentPlan)
    (archiveGuards : List (Bytes × ArchiveScanGuard)) (changedSegmentIds : List Nat) :
    Triple (At db r)
      (finish readers env sourceFingerprint plans archiveGuards changedSegmentIds)
      (fun _ s => ∃ db', (Finishes sizes env.sourceFiles r.scanId changedSegmentIds db db' ∧
          CountsFit env.sourceFiles r.scanId changedSegmentIds db ∧
          ArchivesHold env plans archiveGuards ∧ SourceHolds readers env sourceFingerprint) ∧
        At db' { r with
          committed := true
          covers := cleanupUnreferencedCovers env.collectorReaches db' r.covers } s)
      fun _ => Aborted env before (¬(CountsFit env.sourceFiles r.scanId changedSegmentIds db ∧
        ArchivesHold env plans archiveGuards ∧ SourceHolds readers env sourceFingerprint)) := by
  rw [finish]
  refine (finishLocations_spec hu changedSegmentIds).bind fun counts =>
    Triple.of_pure fun hcounts => ?_
  obtain ⟨marked, restored⟩ := counts
  obtain ⟨hm, hr⟩ := hcounts
  dsimp only at hm hr
  subst hm hr
  refine Triple.bind ((finishStatistics_spec hu hc changedSegmentIds sourceFingerprint).error
    fun _ _ h => h.mono fun hn hh => hn hh.1) fun _ =>
      Triple.of_exists fun db' => Triple.of_pure fun hfin => ?_
  refine Triple.bind ((finishChecks_spec hu sourceFingerprint plans archiveGuards).error
    fun _ _ h => h.mono fun hn hh => hn hh.2) fun _ => Triple.of_pure fun hchecks => ?_
  rw [commitScan]
  rw [bind_assoc]
  refine quiet_step.bind hu fun _ => ?_
  refine Triple.bind (M := fun _ => At db' { r with
    committed := true
    covers := cleanupUnreferencedCovers env.collectorReaches db' r.covers })
    (.modify fun s hs => ?_) fun _ => .pure fun s hs => ⟨db', ⟨hfin.1, hfin.2, hchecks⟩, hs⟩
  obtain ⟨rfl, rfl⟩ := hs
  exact ⟨rfl, rfl⟩

end Finish

/-! ### The whole execution -/

/-- `RunScan` from the execution loop on. -/
def executeRest (readers : Readers) (env : ScanEnv) (pick : Nat → Nat)
    (plans : List SegmentPlan) (archiveGuards : List (Bytes × ArchiveScanGuard))
    (sourceFingerprint : Bytes) (segmentIds : List Nat) : ExecM ScanJobResult := do
  executePlans readers env pick (executionOrder (placedPlans plans segmentIds))
  finishCatalog readers env sourceFingerprint plans archiveGuards
    (changedSegmentIds (placedPlans plans segmentIds))
  return scanResult env (← get)

theorem executeScan_eq (readers : Readers) (env : ScanEnv) (pick : Nat → Nat)
    (committed : Database) (plans : List SegmentPlan)
    (archiveGuards : List (Bytes × ArchiveScanGuard)) (sourceFingerprint : Bytes) :
    executeScan readers env pick committed plans archiveGuards sourceFingerprint =
      (prepareCatalog env plans >>= fun segmentIds => prepareExecution env plans committed >>=
        fun _ => executeRest readers env pick plans archiveGuards sourceFingerprint segmentIds) :=
  rfl

/-- What is submitted in a run that prepared `r₁`. -/
def submitted (env : ScanEnv) (plans : List SegmentPlan) (segmentIds : List Nat)
    (r₁ : Standing) : Option Submission :=
  submitPlans env (executionOrder (placedPlans plans segmentIds))
    ⟨r₁.processedActiveIds, r₁.currentArchivePath, []⟩

/-- What a run that commits did after its execution was prepared with `db₁` and `r₁`. -/
structure Commits (readers : Readers) (env : ScanEnv) (S : Set Bytes) (before : World)
    (plans : List SegmentPlan) (archiveGuards : List (Bytes × ArchiveScanGuard))
    (sourceFingerprint : Bytes) (segmentIds : List Nat) (db₁ : Database) (r₁ : Standing)
    (sub : Submission) (db₂ : Database) (r₂ : Standing) (s : ExecState) : Prop where
  submitted : submitted env plans segmentIds r₁ = some sub
  good : sub.Good readers env before
  drained : ∃ done, done.Perm sub.tasks ∧ Drained readers env S before db₁ r₁ done db₂ r₂
  finishes : Finishes (coverSizes readers.sha S) env.sourceFiles r₁.scanId
    (changedSegmentIds (placedPlans plans segmentIds)) db₂ s.database
  countsFit : CountsFit env.sourceFiles r₁.scanId
    (changedSegmentIds (placedPlans plans segmentIds)) db₂
  archivesHold : ArchivesHold env plans archiveGuards
  sourceHolds : SourceHolds readers env sourceFingerprint
  standing : s.standing = { r₂ with
    committed := true
    covers := cleanupUnreferencedCovers env.collectorReaches s.database r₂.covers }

/-- Nothing but a disturbance or the running budget can keep the run from its commit. -/
def Committable (readers : Readers) (env : ScanEnv) (S : Set Bytes) (before : World)
    (plans : List SegmentPlan) (archiveGuards : List (Bytes × ArchiveScanGuard))
    (sourceFingerprint : Bytes) (segmentIds : List Nat) (db₁ : Database) (r₁ : Standing) : Prop :=
  ∃ sub, submitted env plans segmentIds r₁ = some sub ∧ sub.Good readers env before ∧
    (env.persistent = true → ArchivesHold env plans archiveGuards ∧
      SourceHolds readers env sourceFingerprint ∧
      ∀ done db₂ r₂, done.Perm sub.tasks → Drained readers env S before db₁ r₁ done db₂ r₂ →
        CountsFit env.sourceFiles r₁.scanId (changedSegmentIds (placedPlans plans segmentIds)) db₂)

section Execution

variable {readers : Readers} {env : ScanEnv} {S : Set Bytes} {before : World}
  {plans : List SegmentPlan} {archiveGuards : List (Bytes × ArchiveScanGuard)}
  {sourceFingerprint : Bytes} {segmentIds : List Nat} {db₁ : Database} {r₁ : Standing}

theorem drained_nil (hw : Writing readers S before db₁ r₁) :
    Drained readers env S before db₁ r₁ [] db₁ r₁ := by
  refine ⟨hw, ?_, rfl, rfl, fun _ h => absurd h List.not_mem_nil, rfl⟩
  rw [storedTasks]
  split <;> rfl

theorem executeRest_spec (hS : CoversIn readers env S) (hw : Writing readers S before db₁ r₁)
    (hempty : r₁.inFlight = []) (pick : Nat → Nat) :
    Triple (At db₁ r₁)
      (executeRest readers env pick plans archiveGuards sourceFingerprint segmentIds)
      (fun _ s => (env.persistent = true ∧ ∃ sub db₂ r₂, Commits readers env S before plans
          archiveGuards sourceFingerprint segmentIds db₁ r₁ sub db₂ r₂ s) ∨
        (env.persistent = false ∧ (∃ sub, submitted env plans segmentIds r₁ = some sub ∧
          sub.Good readers env before) ∧ Undoable before s.standing ∧
          s.budgetExceeded = r₁.budgetExceeded))
      fun _ => Aborted env before (¬Committable readers env S before plans archiveGuards
        sourceFingerprint segmentIds db₁ r₁) := by
  rw [executeRest]
  refine Triple.bind (((executePlans_spec before db₁ r₁ hS pick _
    ⟨r₁.processedActiveIds, r₁.currentArchivePath, []⟩).pre fun s hs => ?_).error fun _ _ h =>
      h.mono fun hn hc => ?_) fun _ => Triple.of_exists fun sub => Triple.of_pure fun hsub =>
        Triple.of_pure fun hgood => ?_
  · refine ⟨[], ?_, ?_, ?_, ?_, fun _ h => absurd h List.not_mem_nil⟩
    · rw [hs.1, hs.2]
      exact drained_nil hw
    · rw [hs.2, hempty]
      exact List.Perm.refl _
    · rw [hs.2]
    · rw [hs.2]
  · obtain ⟨sub, hsub, hgood, _⟩ := hc
    exact hn sub hsub hgood
  refine Triple.of_state fun s₀ ⟨hin, done, hd, hq⟩ => ?_
  have hdone : done.Perm sub.tasks := by
    have h := hq.tasks
    rw [show s₀.standing.inFlight = s₀.inFlight from rfl, hin, List.append_nil] at h
    exact h
  have hu : Undoable before s₀.standing := hd.writing.files.toUndoable
  have hscan : s₀.standing.scanId = r₁.scanId := by rw [hd.frame]
  rw [finishCatalog]
  cases hp : env.persistent with
  | false =>
    refine Triple.bind (M := fun _ s => s = s₀) (.pure fun _ hs => hs) fun _ => ?_
    refine Triple.bind (M := fun _ s => s = s₀) (.get fun _ hs => hs) fun _ => ?_
    refine .pure fun s hs => .inr ⟨rfl, ⟨sub, hsub, hgood⟩, hs ▸ hu, ?_⟩
    rw [hs, show s₀.budgetExceeded = s₀.standing.budgetExceeded from rfl, hd.frame]
  | true =>
    rw [if_pos rfl]
    refine Triple.pre (R := At s₀.database s₀.standing) ?_ fun s hs => hs ▸ ⟨rfl, rfl⟩
    rw [bind_assoc]
    refine (quiet_publishSnapshot _).bind hu fun _ => ?_
    rw [bind_assoc]
    refine Triple.bind ((finish_spec hu hd.writing.consistent sourceFingerprint plans
      archiveGuards (changedSegmentIds (placedPlans plans segmentIds))).error fun _ _ h =>
        h.mono fun hn hc => hn ?_) fun marked => ?_
    · obtain ⟨sub', hsub', _, hrest⟩ := hc
      rw [show submitted env plans segmentIds r₁ = some sub from hsub, Option.some_inj] at hsub'
      subst hsub'
      obtain ⟨ha, hs, hfit⟩ := hrest hp
      refine ⟨?_, ha, hs⟩
      rw [hscan]
      exact hfit done s₀.database s₀.standing hdone hd
    · refine Triple.of_exists fun db₃ => Triple.of_pure fun ⟨hfin, hfit, ha, hsource⟩ => ?_
      rw [hscan] at hfin hfit
      set r₃ : Standing := { s₀.standing with
        committed := true
        covers := cleanupUnreferencedCovers env.collectorReaches db₃ s₀.standing.covers } with hr₃
      rw [bind_assoc]
      refine Triple.bind (M := fun _ => At db₃ r₃) (.modify fun _ hs => hs) fun _ => ?_
      refine Triple.bind (M := fun _ => At db₃ r₃) (publishSnapshot_at _) fun _ => ?_
      refine Triple.bind (M := fun _ => At db₃ r₃) (.get fun _ hs => hs) fun t => ?_
      refine .pure fun s hs => .inl ⟨rfl, sub, s₀.database, s₀.standing, ?_⟩
      obtain ⟨rfl, hs⟩ := hs
      exact ⟨hsub, hgood, ⟨done, hdone, hd⟩, hfin, hfit, ha, hsource, hs⟩

end Execution

end InpxWebReader.Scan
