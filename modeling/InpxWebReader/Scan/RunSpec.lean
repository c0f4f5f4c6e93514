import InpxWebReader.Scan.FinishSpec
import InpxWebReader.Scan.PlanningSpec

/-!
# What a run leaves

`Sound readers S world` is the invariant of the world between runs: the database is consistent and
its covers are there. A run that starts from such a world either commits a catalog (`Begins` and
`Commits` say which) or restores the world (`Restored`).
-/

namespace InpxWebReader.Scan

open Foundation Domain Inpx Storage Database Program ExecState

/-! ### The beginning -/

def Standing.start (world : World) : Standing where
  covers := world.covers
  sequence := world.sequence
  scanId := []
  writtenCoverPaths := []
  committed := false
  processedActiveIds := []
  currentArchivePath := []
  inFlight := []
  counterUnderflow := false
  budgetExceeded := false

/-- The part of `executeScan` before the execution loop. -/
def prepare (env : ScanEnv) (plans : List SegmentPlan) (committed : Database) :
    ExecM (List Nat) := do
  let segmentIds ← prepareCatalog env plans
  prepareExecution env plans committed
  return segmentIds

theorem executeScan_eq_prepare (readers : Readers) (env : ScanEnv) (pick : Nat → Nat)
    (committed : Database) (plans : List SegmentPlan)
    (archiveGuards : List (Bytes × ArchiveScanGuard)) (sourceFingerprint : Bytes) :
    executeScan readers env pick committed plans archiveGuards sourceFingerprint =
      (prepare env plans committed >>= fun segmentIds =>
        executeRest readers env pick plans archiveGuards sourceFingerprint segmentIds) := by
  rw [executeScan_eq]
  rw [prepare]
  rw [bind_assoc]
  congr 1
  funext segmentIds
  rw [bind_assoc]
  rfl

/-- The execution loop begins with this database and this standing. -/
structure Begins (env : ScanEnv) (plans : List SegmentPlan) (world : World)
    (segmentIds : List Nat) (db₁ : Database) (r₁ : Standing) : Prop where
  prepared : ∃ db, Prepared env plans segmentIds world.database (.start world) db
    { r₁ with processedActiveIds := [] } ∧ db₁ = { db with warnings := db₁.warnings }
  activeIds : readActiveInpxIdsForSegments env world.database (unchangedSegmentNames plans) =
    .ok r₁.processedActiveIds

/-- The invariant of the world between runs. -/
structure Sound (readers : Readers) (S : Set Bytes) (world : World) : Prop where
  consistent : Consistent (coverSizes readers.sha S) 0 world.database
  covered : Covered readers.sha world.covers world.database

section Beginning

variable {readers : Readers} {env : ScanEnv} {S : Set Bytes} {plans : List SegmentPlan}
  {world : World} {segmentIds : List Nat} {db₁ : Database} {r₁ : Standing}

theorem undoable_start (world : World) : Undoable world (.start world) :=
  ⟨rfl, rfl, le_rfl, fun _ h => absurd h List.not_mem_nil, fun _ _ => .inl rfl⟩

theorem prepare_spec (env : ScanEnv) (plans : List SegmentPlan) (world : World) :
    Triple (At world.database (.start world)) (prepare env plans world.database)
      (fun segmentIds s => ∃ db₁ r₁, (Begins env plans world segmentIds db₁ r₁ ∧
        Undoable world r₁) ∧ At db₁ r₁ s)
      fun _ => Aborted env world True := by
  rw [prepare]
  refine (prepareCatalog_spec (undoable_start world) plans).bind fun segmentIds =>
    Triple.of_exists fun db => Triple.of_exists fun r => Triple.of_pure fun hprep => ?_
  have hr : Undoable world r ∧ r = { r with processedActiveIds := [] } := by
    rw [Prepared] at hprep
    split at hprep
    · rw [hprep.2]
      exact ⟨⟨rfl, rfl, Nat.le_succ _, (undoable_start world).fresh,
        (undoable_start world).kept⟩, rfl⟩
    · rw [hprep.2.2]
      exact ⟨undoable_start world, rfl⟩
  refine (prepareExecution_spec hr.1 plans world.database).bind fun _ =>
    Triple.of_exists fun table => Triple.of_exists fun activeIds => Triple.of_pure fun hids => ?_
  refine .pure fun s hs => ⟨_, _, ⟨⟨⟨db, ?_, rfl⟩, hids⟩, ?_⟩, hs⟩
  · rw [hr.2] at hprep
    exact hprep
  · exact ⟨hr.1.committed, hr.1.counterUnderflow, hr.1.sequence, hr.1.fresh, hr.1.kept⟩

theorem Begins.frame (h : Begins env plans world segmentIds db₁ r₁) :
    db₁ = { world.database with
      source := db₁.source, segments := db₁.segments, deletions := db₁.deletions,
      warnings := db₁.warnings } ∧
    r₁ = { Standing.start world with
      sequence := r₁.sequence, scanId := r₁.scanId,
      processedActiveIds := r₁.processedActiveIds } := by
  obtain ⟨⟨db, hprep, hdb⟩, _⟩ := h
  have hids : ∀ r : Standing, { r₁ with processedActiveIds := [] } = r →
      r₁ = { r with processedActiveIds := r₁.processedActiveIds } := by
    rintro _ rfl
    rfl
  generalize r₁.processedActiveIds = activeIds at hids
  rw [Prepared] at hprep
  split at hprep
  · obtain ⟨⟨source, hall⟩, hr⟩ := hprep
    rw [hdb, hall.frame, hids _ hr]
    exact ⟨rfl, rfl⟩
  · obtain ⟨_, rfl, hr⟩ := hprep
    rw [hdb, hids _ hr]
    exact ⟨rfl, rfl⟩

theorem Begins.writing (h : Begins env plans world segmentIds db₁ r₁)
    (hu : Undoable world r₁) (hs : Sound readers S world) :
    Writing readers S world db₁ r₁ := by
  obtain ⟨hdb, hr⟩ := h.frame
  refine ⟨⟨hu, ?_⟩, ?_, ?_⟩
  · rw [hr]
    exact fun _ h => absurd h List.not_mem_nil
  · rw [hdb]
    exact ⟨⟨hs.consistent.wellLinked.spelling, hs.consistent.wellLinked.named,
      hs.consistent.wellLinked.resolved⟩, hs.consistent.owned,
      hs.consistent.recorded.congr rfl rfl⟩
  · rw [hdb, hr]
    exact hs.covered

theorem executeScan_spec (hS : CoversIn readers env S) (hs : Sound readers S world)
    (pick : Nat → Nat) (archiveGuards : List (Bytes × ArchiveScanGuard))
    (sourceFingerprint : Bytes) :
    Triple (At world.database (.start world))
      (executeScan readers env pick world.database plans archiveGuards sourceFingerprint)
      (fun _ s => (env.persistent = true ∧ ∃ segmentIds db₁ r₁ sub db₂ r₂,
          Begins env plans world segmentIds db₁ r₁ ∧ Commits readers env S world plans
            archiveGuards sourceFingerprint segmentIds db₁ r₁ sub db₂ r₂ s) ∨
        Undoable world s.standing)
      fun _ s => Undoable world s.standing := by
  rw [executeScan_eq_prepare]
  refine Triple.bind ((prepare_spec env plans world).error fun _ _ h => h.1) fun segmentIds =>
    Triple.of_exists fun db₁ => Triple.of_exists fun r₁ => Triple.of_pure fun ⟨hb, hu⟩ => ?_
  have hempty : r₁.inFlight = [] := by rw [hb.frame.2]; rfl
  refine (executeRest_spec hS (hb.writing hu hs) hempty pick).conseq (fun _ h => h)
    (fun _ s h => ?_) fun _ _ h => h.1
  rcases h with ⟨hp, sub, db₂, r₂, hc⟩ | ⟨_, _, hu, _⟩
  · exact .inl ⟨hp, segmentIds, db₁, r₁, sub, db₂, r₂, hb, hc⟩
  · exact .inr hu

end Beginning

/-! ### The end -/

/-- A run that did not commit: the database is as before, and so are the files, but for temporary
files that are gone. -/
structure Restored (world world' : World) : Prop where
  database : world'.database = world.database
  sequence : world.sequence ≤ world'.sequence
  covers : ∀ p, world'.covers p = world.covers p ∨
    (world'.covers p = none ∧ asciiByte '-' ∈ p)

/-- A run that committed: what it planned, began, executed and finished. -/
def Publishes (readers : Readers) (env : ScanEnv) (S : Set Bytes) (world world' : World) : Prop :=
  env.persistent = true ∧ ∃ sourceFingerprint s segmentIds db₁ r₁ sub db₂ r₂ s',
    planScan readers env world.database (.start env) = .ok sourceFingerprint s ∧
    Begins env s.plans world segmentIds db₁ r₁ ∧
    Commits readers env S world s.plans s.archiveGuards sourceFingerprint segmentIds db₁ r₁ sub
      db₂ r₂ s' ∧
    world' = ⟨s'.database, s'.covers, s'.sequence⟩

section Ending

variable {readers : Readers} {env : ScanEnv} {S : Set Bytes} {world world' : World}

theorem Restored.refl (world : World) : Restored world world :=
  ⟨rfl, le_rfl, fun _ => .inl rfl⟩

theorem Undoable.settle {s : ExecState} (h : Undoable world s.standing) :
    Restored world (world.settle s) := by
  have hc : s.committed = false := h.committed
  rw [World.settle]
  rw [if_neg (by rw [hc]; decide)]
  refine ⟨rfl, h.sequence, fun p => ?_⟩
  change s.covers.removeAll s.writtenCoverPaths p = _ ∨
    (s.covers.removeAll s.writtenCoverPaths p = none ∧ _)
  rw [CoverStore.removeAll_apply]
  by_cases hp : p ∈ s.writtenCoverPaths
  · rw [if_pos hp, h.fresh p hp]
    exact .inl rfl
  · rw [if_neg hp]
    exact h.kept p hp

theorem Commits.committed {plans archiveGuards sourceFingerprint segmentIds db₁ r₁ sub db₂ r₂}
    {s : ExecState} (h : Commits readers env S world plans archiveGuards sourceFingerprint
      segmentIds db₁ r₁ sub db₂ r₂ s) : s.committed = true ∧ s.counterUnderflow = false := by
  obtain ⟨done, _, hd⟩ := h.drained
  have hc : s.standing.committed = true := by rw [h.standing]
  have hu : s.standing.counterUnderflow = r₂.counterUnderflow := by rw [h.standing]
  exact ⟨hc, hu.trans hd.writing.files.counterUnderflow⟩

/-- A run commits and publishes its catalog, or it restores the world. -/
theorem runScan_spec (hS : CoversIn readers env S) (hs : Sound readers S world)
    (pick : Nat → Nat) :
    (runScan readers env pick world).counterUnderflow = false ∧
      (((runScan readers env pick world).committed = false ∧
          Restored world (runScan readers env pick world).world) ∨
        ((runScan readers env pick world).committed = true ∧
          Publishes readers env S world (runScan readers env pick world).world)) := by
  rw [runScan]
  cases hplan : planScan readers env world.database (.start env) with
  | error e s => exact ⟨rfl, .inl ⟨rfl, .refl world⟩⟩
  | ok sourceFingerprint s =>
    have hexecute : Triple _ (executeScan readers env pick world.database s.plans s.archiveGuards
        sourceFingerprint) _ _ := executeScan_spec hS hs pick s.archiveGuards sourceFingerprint
    have hspec := hexecute (ExecState.start world s.progress) ⟨rfl, rfl⟩
    dsimp only
    revert hspec
    cases executeScan readers env pick world.database s.plans s.archiveGuards sourceFingerprint
        (.start world s.progress) with
    | error e s' => exact fun h => ⟨h.counterUnderflow, .inl ⟨h.committed, h.settle⟩⟩
    | ok result s' =>
      rintro (⟨hp, segmentIds, db₁, r₁, sub, db₂, r₂, hb, hc⟩ | h)
      · refine ⟨hc.committed.2, .inr ⟨hc.committed.1, hp, sourceFingerprint, s, segmentIds, db₁,
          r₁, sub, db₂, r₂, s', hplan, hb, hc, ?_⟩⟩
        exact if_pos hc.committed.1
      · exact ⟨h.counterUnderflow, .inl ⟨h.committed, h.settle⟩⟩

theorem isCoverReferenced_of_catalogOf {db : Database} {libId path : Bytes} {e : Entry}
    (h : catalogOf db libId = some e) (hp : e.coverPath = some path) :
    isCoverReferenced db path = true := by
  rw [catalogOf] at h
  obtain ⟨l, _, rfl⟩ := Option.map_eq_some_iff.mp h
  change coverOf db l.bookId = some path at hp
  rw [coverOf] at hp
  obtain ⟨row, hrow, hcover⟩ := Option.bind_eq_some_iff.mp hp
  rw [isCoverReferenced]
  rw [List.any_eq_true]
  exact ⟨row, (Table.find?_eq_some.mp hrow).1, decide_eq_true hcover⟩

/-- The garbage collection keeps what the database refers to. -/
theorem cleanupUnreferencedCovers_of_referenced {reaches : Bytes → Bool} {db : Database}
    {covers : CoverStore} {path : Bytes} (h : isCoverReferenced db path = true) :
    cleanupUnreferencedCovers reaches db covers path = covers path := by
  rw [cleanupUnreferencedCovers]
  cases covers path with
  | none => rfl
  | some node =>
    cases node with
    | other => rfl
    | regular bytes =>
      dsimp only
      rw [h, Bool.not_true, Bool.and_false]
      rfl

theorem coverPath_finishedEntry (scanId : Bytes) (changedSegmentIds : List Nat) (db : Database)
    (libId : Bytes) (e : Entry) :
    (finishedEntry scanId changedSegmentIds db libId e).coverPath = e.coverPath := by
  have hseen : (seenOrAbsent scanId changedSegmentIds e).coverPath = e.coverPath := by
    rw [seenOrAbsent]
    split <;> rfl
  rw [finishedEntry, Entry.settled]
  split
  · exact hseen
  · exact hseen

theorem Sound.restored (hs : Sound readers S world) (h : Restored world world') :
    Sound readers S world' := by
  refine ⟨h.database ▸ hs.consistent, fun libId e path he hp => ?_⟩
  rw [h.database] at he
  obtain ⟨bytes, hbytes, hpath⟩ := hs.covered libId e path he hp
  refine ⟨bytes, ?_, hpath⟩
  rcases h.covers path with hc | hc
  · rw [hc, hbytes]
  · exact absurd hc.2 (hyphen_notMem_of_contentAddressed hpath)

theorem Publishes.sound (h : Publishes readers env S world world') : Sound readers S world' := by
  obtain ⟨_, sourceFingerprint, s, segmentIds, db₁, r₁, sub, db₂, r₂, s', _, _, hc, rfl⟩ := h
  obtain ⟨done, _, hd⟩ := hc.drained
  refine ⟨hc.finishes.consistent, fun libId e path he hp => ?_⟩
  have hcovers : s'.covers =
      cleanupUnreferencedCovers env.collectorReaches s'.database r₂.covers :=
    congrArg Standing.covers hc.standing
  change ∃ bytes, s'.covers path = _ ∧ _
  rw [hcovers, cleanupUnreferencedCovers_of_referenced (isCoverReferenced_of_catalogOf he hp)]
  change catalogOf s'.database libId = some e at he
  rw [hc.finishes.catalogOf_eq libId] at he
  obtain ⟨e₀, he₀, rfl⟩ := Option.map_eq_some_iff.mp he
  rw [coverPath_finishedEntry] at hp
  exact hd.writing.covered libId e₀ path he₀ hp

end Ending

end InpxWebReader.Scan
