import InpxWebReader.Database.View
import InpxWebReader.Scan.Mirror

/-!
# The order in which payloads are drained

Two runs of the same scan that drain the payloads of the workers in different orders store the same
tasks. Each task has its own LibId, so the tasks leave the same catalog, the end of the scan finds
the same numbers to record, and both runs commit or neither does. What is not independent of the
order is the check of the cover budget after each record: it looks at the covers counted so far.
-/

namespace InpxWebReader.Scan

open Foundation Domain Inpx Storage Database Program ExecState

/-! ### The end of a scan, from the same catalog -/

section Finish

variable {db db' : Database} {scanId : Bytes} {changedSegmentIds : List Nat}
  {files : SourceFiles} {sizes : AllowedSizes}

theorem withAbsentees_congr (h : SameCatalog db db') (scanId : Bytes)
    (changedSegmentIds : List Nat) :
    SameCatalog (withAbsentees scanId changedSegmentIds db)
      (withAbsentees scanId changedSegmentIds db') := by
  rw [withAbsentees]
  induction changedSegmentIds generalizing db db' with
  | nil => exact h
  | cons segmentId ids ih => exact ih (h.withAbsent segmentId scanId)

theorem countsFit_congr (h : SameCatalog db db')
    (hfit : CountsFit files scanId changedSegmentIds db) :
    CountsFit files scanId changedSegmentIds db' := by
  have habs := withAbsentees_congr h scanId changedSegmentIds
  refine ⟨?_, ?_, ?_⟩
  · rw [← habs.countP_toMarkUnavailable]
    exact hfit.marked
  · rw [← (habs.marked scanId).countP_toRestore]
    exact hfit.restored
  · rw [finishedLocations]
    rw [← (habs.settled scanId).collectInpxSourceSnapshot_eq]
    exact hfit.sourceSize

/-- From the same catalog, `Finish` leaves the same catalog and the same statistics. -/
theorem Finishes.agree {fin fin' : Database} (hunique : sizes.Unique)
    (hsame : SameCatalog db db') (h : Finishes sizes files scanId changedSegmentIds db fin)
    (h' : Finishes sizes files scanId changedSegmentIds db' fin') :
    catalogOf fin = catalogOf fin' ∧ fin.statistics = fin'.statistics := by
  have hsegments : fin'.segments = fin.segments := by
    rw [h.segments, h'.segments, hsame.segments]
  have hdeletions : fin'.deletions = fin.deletions := by
    rw [h.deletions, h'.deletions, hsame.deletions]
  have hcatalog : catalogOf fin = catalogOf fin' := by
    funext libId
    rw [h.catalogOf_eq, h'.catalogOf_eq, hsame.catalog]
    congr 1
    funext e
    unfold finishedEntry
    rw [isListed_congr hsegments hdeletions]
  refine ⟨hcatalog, h.consistent.statistics_eq h'.consistent hunique hcatalog ?_⟩
  have hcollect := ((withAbsentees_congr hsame scanId changedSegmentIds).settled
    scanId).collectInpxSourceSnapshot_eq files
  rw [h.sourceSize, h'.sourceSize]
  exact congrArg (fun n : Nat => some (n : Int)) hcollect

end Finish

/-! ### The tasks in any order -/

section Tasks

variable {readers : Readers} {env : ScanEnv} {S : Set Bytes} {before : World}
  {plans : List SegmentPlan} {archiveGuards : List (Bytes × ArchiveScanGuard)}
  {sourceFingerprint : Bytes} {segmentIds : List Nat} {db₁ db₂ db₂' : Database}
  {r₁ r₂ r₂' : Standing} {sub sub' : Submission} {done done' : List InFlightParsedRecord}

/-- Tasks of distinct LibIds store the same entries in any order. -/
theorem overwrite_perm (entry : InFlightParsedRecord → Entry) (catalog : Bytes → Option Entry)
    {tasks tasks' : List InFlightParsedRecord} (h : tasks.Perm tasks')
    (hn : (tasks.map fun t => t.inpxRecord.libId).Nodup) :
    overwrite entry catalog tasks = overwrite entry catalog tasks' := by
  have hlibIds := h.map fun t : InFlightParsedRecord => t.inpxRecord.libId
  obtain ⟨hstored, hkept⟩ := overwrite_spec entry catalog hn
  obtain ⟨hstored', hkept'⟩ := overwrite_spec entry catalog (hlibIds.nodup_iff.mp hn)
  funext libId
  by_cases hm : libId ∈ tasks.map fun t => t.inpxRecord.libId
  · obtain ⟨task, htask, rfl⟩ := List.mem_map.mp hm
    rw [hstored task htask, hstored' task (h.mem_iff.mp htask)]
  · rw [hkept libId hm, hkept' libId fun hm' => hm (hlibIds.mem_iff.mpr hm')]

theorem Begins.nodup_tasks (hb : Begins env plans before segmentIds db₁ r₁)
    (hp : env.persistent = true) (hsub : submitted env plans segmentIds r₁ = some sub) :
    (sub.tasks.map fun t => t.inpxRecord.libId).Nodup := by
  have hs : Submits _ (readKeys plans segmentIds) sub := submits_submitPlans hsub
  have hn := hs.distinct (mem_activeIds hp hb.activeIds).1
  rw [hs.activeIds] at hn
  have htasks : sub.tasks.map taskKey = readKeys plans segmentIds := hs.tasks
  have hlibIds : sub.tasks.map (fun t => t.inpxRecord.libId) =
      (readKeys plans segmentIds).map RecordKey.libId := by
    rw [← htasks, List.map_map]
    rfl
  rw [hlibIds]
  exact (List.nodup_append.mp hn).2.1

/-- The submitted tasks leave the same catalog in whatever order they are drained. -/
theorem Begins.sameCatalog (hb : Begins env plans before segmentIds db₁ r₁)
    (hp : env.persistent = true) (hsub : submitted env plans segmentIds r₁ = some sub)
    (hdone : done.Perm sub.tasks) (hd : Drained readers env S before db₁ r₁ done db₂ r₂)
    (hdone' : done'.Perm sub.tasks) (hd' : Drained readers env S before db₁ r₁ done' db₂' r₂') :
    SameCatalog db₂ db₂' := by
  have hn : (done.map fun t => t.inpxRecord.libId).Nodup :=
    (hdone.map _).nodup_iff.mpr (hb.nodup_tasks hp hsub)
  refine ⟨?_, hd.segments.trans hd'.segments.symm, hd.deletions.trans hd'.deletions.symm⟩
  rw [hd.catalog, hd'.catalog]
  unfold storedTasks
  rw [if_pos hp, if_pos hp]
  exact overwrite_perm _ _ (hdone.trans hdone'.symm) hn

/-- Where one run commits, nothing but a disturbance or the budget keeps another from it. -/
theorem Commits.committable (hb : Begins env plans before segmentIds db₁ r₁)
    (hp : env.persistent = true) {s : ExecState}
    (h : Commits readers env S before plans archiveGuards sourceFingerprint segmentIds db₁ r₁ sub
      db₂ r₂ s) :
    Committable readers env S before plans archiveGuards sourceFingerprint segmentIds db₁ r₁ := by
  obtain ⟨done, hdone, hd⟩ := h.drained
  refine ⟨sub, h.submitted, h.good, fun _ => ⟨h.archivesHold, h.sourceHolds, ?_⟩⟩
  intro done' db₂' r₂' hdone' hd'
  exact countsFit_congr (hb.sameCatalog hp h.submitted hdone hd hdone' hd') h.countsFit

/-- A path of a cover is counted with the size of its content. -/
theorem coverSizes_unique {sha : Sha256} (hfree : sha.CollisionFree S) :
    (coverSizes sha S).Unique := by
  rintro path _ _ ⟨a, ha, hpa, rfl⟩ ⟨b, hb, hpb, rfl⟩
  rw [hfree a ha b hb (digest_eq_of_contentAddressed_eq hpa hpb)]

/-- Two runs that commit leave the same catalog and the same statistics. -/
theorem Commits.agree (hfree : readers.sha.CollisionFree S)
    (hb : Begins env plans before segmentIds db₁ r₁) (hp : env.persistent = true)
    {s s' : ExecState}
    (h : Commits readers env S before plans archiveGuards sourceFingerprint segmentIds db₁ r₁ sub
      db₂ r₂ s)
    (h' : Commits readers env S before plans archiveGuards sourceFingerprint segmentIds db₁ r₁
      sub' db₂' r₂' s') :
    catalogOf s.database = catalogOf s'.database ∧
      s.database.statistics = s'.database.statistics := by
  obtain rfl : sub = sub' := Option.some_inj.mp (h.submitted.symm.trans h'.submitted)
  obtain ⟨done, hdone, hd⟩ := h.drained
  obtain ⟨done', hdone', hd'⟩ := h'.drained
  exact h.finishes.agree (coverSizes_unique hfree)
    (hb.sameCatalog hp h.submitted hdone hd hdone' hd') h'.finishes

end Tasks

/-! ### Two runs -/

/-- How the execution ends when nothing disturbs it. -/
def Ends (readers : Readers) (env : ScanEnv) (S : Set Bytes) (before : World)
    (plans : List SegmentPlan) (archiveGuards : List (Bytes × ArchiveScanGuard))
    (sourceFingerprint : Bytes) (segmentIds : List Nat) (db₁ : Database) (r₁ : Standing) :
    EStateM.Result Exception ExecState ScanJobResult → Prop
  | .ok _ s => s.budgetExceeded = false ∧
      Committable readers env S before plans archiveGuards sourceFingerprint segmentIds db₁ r₁ ∧
      ((env.persistent = true ∧ ∃ sub db₂ r₂, Commits readers env S before plans archiveGuards
          sourceFingerprint segmentIds db₁ r₁ sub db₂ r₂ s) ∨
        (env.persistent = false ∧ s.committed = false))
  | .error _ s => s.committed = false ∧ (s.budgetExceeded = true ∨
      ¬Committable readers env S before plans archiveGuards sourceFingerprint segmentIds db₁ r₁)

def ScanRun.ofEnd (world : World) : EStateM.Result Exception ExecState ScanJobResult → ScanRun
  | .ok result s => .ofExec world (.ok result) s
  | .error e s => .ofExec world (.error e) s

/-- Two runs end alike: both commit or both fail, and the committed catalogs are the same. -/
structure EndAlike (run run' : ScanRun) : Prop where
  isOk : run.result.isOk = run'.result.isOk
  committed : run.committed = run'.committed
  catalog : run.committed = true →
    catalogOf run.world.database = catalogOf run'.world.database
  statistics : run.committed = true →
    run.world.database.statistics = run'.world.database.statistics

section Runs

variable {readers : Readers} {env : ScanEnv} {S : Set Bytes} {world : World}
  {plans : List SegmentPlan} {archiveGuards : List (Bytes × ArchiveScanGuard)}
  {sourceFingerprint : Bytes} {segmentIds : List Nat} {db₁ : Database} {r₁ : Standing}

theorem EndAlike.refl (run : ScanRun) : EndAlike run run :=
  ⟨rfl, rfl, fun _ => rfl, fun _ => rfl⟩

/-- A run whose plans are made is the end of its execution. -/
theorem runScan_eq {s : PlanState} {pick : Nat → Nat}
    (hplan : planScan readers env world.database (.start env) = .ok sourceFingerprint s) :
    runScan readers env pick world = .ofEnd world
      (executeScan readers env pick world.database s.plans s.archiveGuards sourceFingerprint
        (.start world s.progress)) := by
  rw [runScan]
  rw [hplan]
  dsimp only
  cases executeScan readers env pick world.database s.plans s.archiveGuards sourceFingerprint
    (.start world s.progress) <;> rfl

theorem executeRest_ends (hS : CoversIn readers env S) (hundisturbed : ¬env.Disturbed)
    (hs : Sound readers S world) (hb : Begins env plans world segmentIds db₁ r₁)
    (hu : Undoable world r₁) (pick : Nat → Nat) {s : ExecState} (hat : At db₁ r₁ s) :
    Ends readers env S world plans archiveGuards sourceFingerprint segmentIds db₁ r₁
      (executeRest readers env pick plans archiveGuards sourceFingerprint segmentIds s) := by
  have hempty : r₁.inFlight = [] := by rw [hb.frame.2]; rfl
  have hbudget : r₁.budgetExceeded = false := by rw [hb.frame.2]; rfl
  have hrest : Triple (At db₁ r₁)
      (executeRest readers env pick plans archiveGuards sourceFingerprint segmentIds) _ _ :=
    executeRest_spec hS (hb.writing hu hs) hempty pick
  have h := hrest s hat
  revert h
  cases executeRest readers env pick plans archiveGuards sourceFingerprint segmentIds s with
  | error e s' => exact fun h => ⟨h.1.committed, h.2.resolve_left hundisturbed⟩
  | ok result s' =>
    rintro (⟨hp, sub, db₂, r₂, hc⟩ | ⟨hp, ⟨sub, hsub, hgood⟩, hu', hbudget'⟩)
    · refine ⟨?_, hc.committable hb hp, .inl ⟨hp, sub, db₂, r₂, hc⟩⟩
      obtain ⟨done, _, hd⟩ := hc.drained
      rw [show s'.budgetExceeded = s'.standing.budgetExceeded from rfl, hc.standing, hd.frame]
      exact hbudget
    · refine ⟨hbudget'.trans hbudget, ⟨sub, hsub, hgood, fun h => ?_⟩, .inr ⟨hp, hu'.committed⟩⟩
      rw [hp] at h
      cases h

/-- Two ends of the execution with the same verdict on the budget end alike. -/
theorem Ends.alike (hfree : readers.sha.CollisionFree S)
    (hb : Begins env plans world segmentIds db₁ r₁)
    {end₁ end₂ : EStateM.Result Exception ExecState ScanJobResult}
    (h₁ : Ends readers env S world plans archiveGuards sourceFingerprint segmentIds db₁ r₁ end₁)
    (h₂ : Ends readers env S world plans archiveGuards sourceFingerprint segmentIds db₁ r₁ end₂)
    (hbudget : (ScanRun.ofEnd world end₁).budgetExceeded =
      (ScanRun.ofEnd world end₂).budgetExceeded) :
    EndAlike (ScanRun.ofEnd world end₁) (ScanRun.ofEnd world end₂) := by
  cases end₁ with
  | ok result s =>
    obtain ⟨hbudget₁, hcommittable, hc₁⟩ := h₁
    cases end₂ with
    | ok result' s' =>
      obtain ⟨_, _, hc₂⟩ := h₂
      rcases hc₁ with ⟨hp, sub, db₂, r₂, hc₁⟩ | ⟨hp, hc₁⟩
      · obtain ⟨_, sub', db₂', r₂', hc₂⟩ := hc₂.resolve_right fun h => by
          rw [hp] at h
          cases h.1
        have hsettle : ∀ s : ExecState, s.committed = true →
            (world.settle s).database = s.database := fun s hs => by
          rw [World.settle]
          rw [if_pos hs]
        obtain ⟨hcatalog, hstatistics⟩ := hc₁.agree hfree hb hp hc₂
        refine ⟨rfl, hc₁.committed.1.trans hc₂.committed.1.symm, fun _ => ?_, fun _ => ?_⟩
        · change catalogOf (world.settle s).database = catalogOf (world.settle s').database
          rw [hsettle s hc₁.committed.1, hsettle s' hc₂.committed.1, hcatalog]
        · change (world.settle s).database.statistics = (world.settle s').database.statistics
          rw [hsettle s hc₁.committed.1, hsettle s' hc₂.committed.1, hstatistics]
      · have hc₂ := (hc₂.resolve_left fun h => by
          rw [hp] at h
          cases h.1).2
        have hnot : ¬(ScanRun.ofEnd world (.ok result s)).committed = true := by
          change ¬s.committed = true
          rw [hc₁]
          decide
        exact ⟨rfl, hc₁.trans hc₂.symm, fun h => absurd h hnot, fun h => absurd h hnot⟩
    | error e s' =>
      -- the second run failed, and not on the budget, since the first one did not
      have hbudget₂ : s'.budgetExceeded = false := hbudget.symm.trans hbudget₁
      exact absurd hcommittable (h₂.2.resolve_left (by rw [hbudget₂]; decide))
  | error e s =>
    cases end₂ with
    | ok result' s' =>
      obtain ⟨hbudget₂, hcommittable, _⟩ := h₂
      have hbudget₁ : s.budgetExceeded = false := hbudget.trans hbudget₂
      exact absurd hcommittable (h₁.2.resolve_left (by rw [hbudget₁]; decide))
    | error e' s' =>
      have hnot : ¬(ScanRun.ofEnd world (.error e s)).committed = true := by
        change ¬s.committed = true
        rw [h₁.1]
        decide
      exact ⟨rfl, h₁.1.trans h₂.1.symm, fun h => absurd h hnot, fun h => absurd h hnot⟩

/-- Runs that drain their payloads in different orders, and of which both or neither exceed the
budget of the covers on the way, end alike. -/
theorem runScan_endAlike (hfree : readers.sha.CollisionFree S) (hS : CoversIn readers env S)
    (hs : Sound readers S world) (hundisturbed : ¬env.Disturbed) (pick pick' : Nat → Nat)
    (hbudget : (runScan readers env pick world).budgetExceeded =
      (runScan readers env pick' world).budgetExceeded) :
    EndAlike (runScan readers env pick world) (runScan readers env pick' world) := by
  cases hplan : planScan readers env world.database (.start env) with
  | error e s =>
    have heq : ∀ pick, runScan readers env pick world =
        { result := .error e, progress := s.progress, world := world } := fun pick => by
      rw [runScan]
      rw [hplan]
    rw [heq, heq]
    exact .refl _
  | ok sourceFingerprint s =>
    rw [runScan_eq hplan, runScan_eq hplan] at hbudget ⊢
    have hprepare := prepare_spec env s.plans world (.start world s.progress) ⟨rfl, rfl⟩
    simp only [executeScan_eq_prepare] at hbudget ⊢
    cases hr : prepare env s.plans world.database (.start world s.progress) with
    | error e s₁ =>
      rw [bind_error hr, bind_error hr]
      exact .refl _
    | ok segmentIds s₁ =>
      rw [hr] at hprepare
      obtain ⟨db₁, r₁, ⟨hb, hu⟩, hat⟩ := hprepare
      rw [bind_ok hr, bind_ok hr] at hbudget ⊢
      exact (executeRest_ends hS hundisturbed hs hb hu pick hat).alike hfree hb
        (executeRest_ends hS hundisturbed hs hb hu pick' hat) hbudget

end Runs

/-- In whatever order two scans of one catalog drain their payloads: if both or neither exceed the
budget of the covers on the way, they end alike. -/
theorem Reachable.endAlike {readers : Readers} {S : Set Bytes} {service : Service}
    (hfree : readers.sha.CollisionFree S) (h : Reachable readers S service) (env : ScanEnv)
    (hS : CoversIn readers env S) (hundisturbed : ¬env.Disturbed) (pick pick' : Nat → Nat)
    (hbudget : (runScan readers env pick service.world).budgetExceeded =
      (runScan readers env pick' service.world).budgetExceeded) :
    EndAlike (runScan readers env pick service.world)
      (runScan readers env pick' service.world) :=
  runScan_endAlike hfree hS h.sound hundisturbed pick pick' hbudget

theorem secondScan_endAlike :
    EndAlike (runScan sampleReaders secondEnv (fun _ => 0) scannedService.world)
      (runScan sampleReaders secondEnv (fun _ => 1) scannedService.world) := by
  refine firstScan_reachable.endAlike collisionFree_sampleContents secondEnv
    (coversIn_sampleContents _) ?_ _ _ (by decide +kernel)
  rintro (h | ⟨n, h⟩)
  · exact h rfl
  · exact h rfl

/-- The second scan, with a budget for one of the two covers and a half of the other. -/
def tightEnv : ScanEnv := { secondEnv with maxCoverCacheBytes := 6 }

/-- The first book loses its cover and the second one gets one: drained in this order the covers
stay within the budget, drained in the other order they exceed it on the way. -/
theorem tightScan_not_endAlike :
    ¬∀ pick pick' : Nat → Nat,
      EndAlike (runScan sampleReaders tightEnv pick scannedService.world)
        (runScan sampleReaders tightEnv pick' scannedService.world) := by
  intro h
  have hcommitted := (h (fun _ => 0) fun _ => 1).committed
  revert hcommitted
  decide +kernel

end InpxWebReader.Scan
