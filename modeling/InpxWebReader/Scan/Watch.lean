import InpxWebReader.Scan.RunScan

/-!
# What is watched through a run

Several statements about a scan are about its progress: what a stop request leads to, what the
published counters say, what happens to the queue of payloads. Most of a scan touches none of this
but for passing checkpoints. A `Watch` is what such a statement keeps track of: what holds while the
program goes on, and what holds when an exception leaves it. `Preserves W ν c` says that `c` keeps
it; `ν` finds the progress, and what else is watched, in the state.

A watch that the checkpoints keep (`Patient`) is kept by the planning (`planScan_preserves`) and by
the catalog writer.
-/

namespace InpxWebReader.Scan

open Foundation Program

/-- What is watched, of the progress and of something beside it. -/
structure Watch (ω : Type) where
  holds : Progress → ω → Prop
  left : Exception → Progress → ω → Prop

/-- A program that keeps what is watched. -/
def Preserves {σ ω α : Type} (W : Watch ω) (ν : σ → Progress × ω) (c : EStateM Exception σ α) :
    Prop :=
  Triple (fun s => W.holds (ν s).1 (ν s).2) c (fun _ s => W.holds (ν s).1 (ν s).2)
    fun e s => W.left e (ν s).1 (ν s).2

/-- Failures may leave at any time, and checkpoints at `sites` keep what is watched. -/
structure Watch.Patient {ω : Type} (W : Watch ω) (stop : StopRequest)
    (sites : CheckpointSite → Prop) : Prop where
  failed : ∀ {p : Progress} {k : ω} (failure : Failure), W.holds p k → W.left (.failed failure) p k
  checkpoint : ∀ {site : CheckpointSite}, sites site → ∀ k : ω,
    Triple (fun p => W.holds p k) (throwIfCancelled stop site) (fun _ p => W.holds p k)
      fun e p => W.left e p k

/-- The sites of a scan outside the archive lookup. -/
def NotArchiveResolution (site : CheckpointSite) : Prop := site ≠ .archiveResolution

/-! ### Rules -/

section Rules

variable {σ τ ω α β : Type} {W V : Watch ω} {ν : σ → Progress × ω} {stop : StopRequest}
  {sites : CheckpointSite → Prop}

theorem Preserves.returns {c : EStateM Exception σ α} {s s' : σ} {a : α} (h : Preserves W ν c)
    (hs : W.holds (ν s).1 (ν s).2) (hr : c s = .ok a s') : W.holds (ν s').1 (ν s').2 :=
  Triple.ok (Q := fun _ s => W.holds (ν s).1 (ν s).2) h hs hr

theorem Preserves.throws {c : EStateM Exception σ α} {s s' : σ} {e : Exception}
    (h : Preserves W ν c) (hs : W.holds (ν s).1 (ν s).2) (hr : c s = .error e s') : W.left e (ν s').1 (ν s').2 :=
  Triple.throws (E := fun e s => W.left e (ν s).1 (ν s).2) h hs hr

theorem Preserves.pure {a : α} : Preserves W ν (Pure.pure a : EStateM Exception σ α) :=
  Triple.pure fun _ hs => hs

theorem Preserves.fail (hW : W.Patient stop sites) {failure : Failure} :
    Preserves W ν (throw (.failed failure) : EStateM Exception σ α) :=
  Triple.throw fun _ hs => hW.failed failure hs

theorem Preserves.bind {c : EStateM Exception σ β} {f : β → EStateM Exception σ α}
    (hc : Preserves W ν c) (hf : ∀ b, Preserves W ν (f b)) : Preserves W ν (c >>= f) :=
  Triple.bind hc hf

theorem Preserves.ite {p : Prop} [Decidable p] {c d : EStateM Exception σ α} (hc : Preserves W ν c)
    (hd : Preserves W ν d) : Preserves W ν (if p then c else d) :=
  Triple.ite (fun _ => hc) fun _ => hd

/-- Reading the state: what follows may use what holds of it. -/
theorem Preserves.get_bind {f : σ → EStateM Exception σ α}
    (hf : ∀ s, W.holds (ν s).1 (ν s).2 → Preserves W ν (f s)) :
    Preserves W ν (MonadState.get >>= f) := by
  intro s hs
  exact hf s hs s hs

theorem Preserves.set {s : σ} (h : W.holds (ν s).1 (ν s).2) :
    Preserves W ν (MonadStateOf.set s : EStateM Exception σ PUnit) :=
  fun _ _ => h

theorem Preserves.modify {f : σ → σ} (h : ∀ s, ν (f s) = ν s) :
    Preserves W ν (MonadStateOf.modifyGet fun s => (PUnit.unit, f s) :
      EStateM Exception σ PUnit) :=
  Triple.modify fun s hs => by
    rw [h]
    exact hs

theorem Preserves.require (hW : W.Patient stop sites) {p : Prop} [Decidable p] {failure : Failure} :
    Preserves W ν (Program.require p (.failed failure)) := by
  rw [Program.require]
  exact .ite .pure (.fail hW)

theorem Preserves.answer (hW : W.Patient stop sites) {x : Except Failure α} :
    Preserves W ν (Program.ofExcept (x.mapError .failed) : EStateM Exception σ α) := by
  cases x with
  | ok a => exact .pure
  | error failure => exact .fail hW

theorem Preserves.forM {xs : List α} {f : α → EStateM Exception σ PUnit}
    (h : ∀ x, Preserves W ν (f x)) : Preserves W ν (xs.forM f) :=
  Triple.forM_inv fun x _ => h x

theorem Preserves.drainWhile {busy : σ → Bool} {body : EStateM Exception σ Unit}
    (h : Preserves W ν body) (fuel : Nat) : Preserves W ν (Program.drainWhile busy body fuel) := by
  induction fuel with
  | zero => exact .pure
  | succ fuel ih =>
    rw [Program.drainWhile]
    exact .get_bind fun s _ => .ite (h.bind fun _ => ih) .pure

/-- A program on a part of the state that has the progress. -/
theorem Preserves.zoom {read : σ → τ} {write : τ → σ → σ} {ρ : τ → Progress × ω}
    {c : EStateM Exception τ α} (hc : Preserves W ρ c) (hr : ∀ s, ρ (read s) = ν s)
    (hw : ∀ t s, ν (write t s) = ρ t) : Preserves W ν (Program.zoom read write c) := by
  refine Triple.zoom fun s hs => ?_
  refine Triple.conseq hc (fun t ht => ?_) (fun a t ht => ?_) fun e t he => ?_
  · rw [ht, hr]
    exact hs
  · rw [hw]
    exact ht
  · rw [hw]
    exact he

/-- The progress of a state, with something beside it that steps of the progress leave alone. -/
theorem Preserves.progress {c : ProgressM α} {read : σ → Progress} {write : Progress → σ → σ}
    (hc : ∀ k, Triple (fun p => W.holds p k) c (fun _ p => W.holds p k) fun e p => W.left e p k)
    (hr : ∀ s, read s = (ν s).1) (hw : ∀ p s, ν (write p s) = (p, (ν s).2)) :
    Preserves W ν (Program.zoom read write c) := by
  refine Triple.zoom fun s hs => ?_
  refine (hc (ν s).2).conseq (fun p hp => ?_) (fun a p hp => ?_) fun e p hp => ?_
  · rw [hp, hr]
    exact hs
  · rw [hw]
    exact hp
  · rw [hw]
    exact hp

/-- A handler that changes what is not watched and throws what it caught. -/
theorem preserves_cleanup {c : EStateM Exception σ α} (hc : Preserves W ν c) {f : σ → σ}
    (hf : ∀ s, ν (f s) = ν s) :
    Preserves W ν (tryCatch c fun e =>
      (modify f : EStateM Exception σ PUnit) >>= fun _ => throw e) := by
  refine Triple.tryCatch hc fun e => ?_
  refine Triple.seq (M := fun s => W.left e (ν s).1 (ν s).2) (.modify fun s hs => ?_)
    (.throw fun s hs => hs)
  rw [hf]
  exact hs

end Rules

/-! ### Checkpoints -/

section Checkpoints

variable {ω : Type} {W : Watch ω} {stop : StopRequest} {sites : CheckpointSite → Prop}
  {site : CheckpointSite}

theorem Watch.Patient.checkpoints (hW : W.Patient stop sites) (hs : sites site) (n : Nat) (k : ω) :
    Triple (fun p => W.holds p k) (runCheckpoints stop site n) (fun _ p => W.holds p k)
      fun e p => W.left e p k := by
  induction n with
  | zero => exact .pure fun _ hp => hp
  | succ n ih => exact (hW.checkpoint hs k).bind fun _ => ih

theorem Watch.Patient.call (hW : W.Patient stop sites) (hs : sites site) {α : Type}
    (call : Call α) (k : ω) :
    Triple (fun p => W.holds p k) (runCall stop site call) (fun _ p => W.holds p k)
      fun e p => W.left e p k := by
  rw [runCall]
  refine (hW.checkpoints hs call.checkpoints k).bind fun _ => ?_
  cases call.result with
  | ok a => exact .pure fun _ hp => hp
  | error failure => exact .throw fun _ hp => hW.failed failure hp

end Checkpoints

/-! ### Publishing -/

structure ScanCounts where
  percent : Nat
  totalRecords : Nat
  scannedRecords : Nat
  parsedFb2Records : Nat
  addedRecords : Nat
  updatedRecords : Nat
  skippedRecords : Nat
  reusedRecords : Nat
  segmentsTotal : Nat
  segmentsUnchanged : Nat
  segmentsAdded : Nat
  segmentsChanged : Nat
  segmentsRemoved : Nat
  deriving DecidableEq

def ScanJobSnapshot.counts (snapshot : ScanJobSnapshot) : ScanCounts where
  percent := snapshot.percent
  totalRecords := snapshot.totalRecords
  scannedRecords := snapshot.scannedRecords
  parsedFb2Records := snapshot.parsedFb2Records
  addedRecords := snapshot.addedRecords
  updatedRecords := snapshot.updatedRecords
  skippedRecords := snapshot.skippedRecords
  reusedRecords := snapshot.reusedRecords
  segmentsTotal := snapshot.segmentsTotal
  segmentsUnchanged := snapshot.segmentsUnchanged
  segmentsAdded := snapshot.segmentsAdded
  segmentsChanged := snapshot.segmentsChanged
  segmentsRemoved := snapshot.segmentsRemoved

def Progress.publish (update : ScanJobSnapshot → ScanJobSnapshot) (p : Progress) : Progress :=
  { p with
    snapshot := update p.snapshot
    published := update p.snapshot :: p.published }

/-- What is watched does not see snapshots that leave the counters alone. -/
def Watch.Publishes {ω : Type} (W : Watch ω) : Prop :=
  ∀ (update : ScanJobSnapshot → ScanJobSnapshot) (p : Progress) (k : ω),
    (update p.snapshot).counts = p.snapshot.counts → W.holds p k → W.holds (p.publish update) k

/-! ### The archive lookup -/

section Lookup

variable {W : Watch Unit} {stop : StopRequest} {root : ArchiveRoot} {limit : Nat}

def ArchiveLookup.watched (s : ArchiveLookup) : Progress × Unit := (s.progress, ())

theorem preserves_lookup {α : Type} {c : ProgressM α}
    (hc : ∀ k, Triple (fun p => W.holds p k) c (fun _ p => W.holds p k) fun e p => W.left e p k) :
    Preserves W ArchiveLookup.watched (ArchiveLookup.onProgress c) :=
  .progress hc (fun _ => rfl) fun _ _ => rfl

variable (hW : W.Patient stop (· = .archiveResolution))

include hW

theorem preserves_notifyEntryVisited :
    Preserves W ArchiveLookup.watched (notifyEntryVisited limit) := by
  rw [notifyEntryVisited]
  exact .get_bind fun s hs => .ite (.fail hW) (.set hs)

theorem preserves_indexFallbackChild (child : Bytes) :
    Preserves W ArchiveLookup.watched (indexFallbackChild stop root limit child) := by
  rw [indexFallbackChild]
  split
  · refine .forM fun entry => ?_
    refine (preserves_lookup (hW.checkpoint rfl)).bind fun _ => ?_
    refine (preserves_notifyEntryVisited hW).bind fun _ => ?_
    exact .ite .pure (.modify fun _ => rfl)
  · exact .pure

theorem preserves_ensureFallbackSnapshot :
    Preserves W ArchiveLookup.watched (ensureFallbackSnapshot stop root limit) := by
  rw [ensureFallbackSnapshot]
  refine .get_bind fun s _ => .ite .pure ?_
  refine Preserves.bind (.forM fun _ => ?_) fun _ => ?_
  · exact (preserves_lookup (hW.checkpoint rfl)).bind fun _ => preserves_notifyEntryVisited hW
  refine (preserves_lookup (hW.checkpoints rfl _)).bind fun _ => ?_
  refine Preserves.bind (.forM fun child => ?_) fun _ => .modify fun _ => rfl
  exact (preserves_lookup (hW.checkpoint rfl)).bind fun _ => preserves_indexFallbackChild hW child

theorem preserves_resolvePortableInpxArchivePath (archiveName : Bytes) :
    Preserves W ArchiveLookup.watched
      (resolvePortableInpxArchivePath stop root limit archiveName) := by
  rw [resolvePortableInpxArchivePath]
  refine Preserves.bind ?_ fun resolved => .ite .pure (.fail hW)
  rw [tryResolveExistingZipArchivePath]
  refine (preserves_lookup (hW.checkpoint rfl)).bind fun _ => ?_
  refine .ite (.fail hW) ?_
  dsimp only
  split
  · exact .pure
  · refine (preserves_ensureFallbackSnapshot hW).bind fun _ => .get_bind fun s _ => ?_
    split
    · exact .pure
    · exact .answer hW

end Lookup

/-! ### Planning -/

def PlanState.watched (s : PlanState) : Progress × Unit := (s.progress, ())

def Watch.ofProgress (holds : Progress → Prop) (left : Exception → Progress → Prop) :
    Watch Unit where
  holds p _ := holds p
  left e p _ := left e p

/-- What is watched through the planning. The exceptions that leave the lookup of an archive and
those that leave the rest of it pass handlers, which throw others. -/
structure PlanWatch (stop : StopRequest) (holds : Progress → Prop)
    (inLookup inScan outside : Exception → Progress → Prop) : Prop where
  lookup : (Watch.ofProgress holds inLookup).Patient stop (· = .archiveResolution)
  scan : (Watch.ofProgress holds inScan).Patient stop NotArchiveResolution
  publishes : (Watch.ofProgress holds inScan).Publishes
  leaves : ∀ {e p}, inScan e p → outside e p
  rethrowAs : ∀ {e p} (wrap : Bytes → Bytes), inLookup e p → outside (e.rethrowAs wrap) p
  rethrowUnlessCancelled : ∀ {e p} (wrap : Bytes → Bytes), inScan e p →
    outside (e.rethrowUnlessCancelled wrap) p

section Planning

variable {readers : Readers} {env : ScanEnv} {holds : Progress → Prop}
  {inLookup inScan outside : Exception → Progress → Prop}

theorem preserves_planning {W : Watch Unit} {α : Type} {c : ProgressM α}
    (hc : ∀ k, Triple (fun p => W.holds p k) c (fun _ p => W.holds p k) fun e p => W.left e p k) :
    Preserves W PlanState.watched (PlanState.onProgress c) :=
  .progress hc (fun _ => rfl) fun _ _ => rfl

theorem preserves_archiveGuardOf {W : Watch Unit} {sites : CheckpointSite → Prop}
    (hW : W.Patient env.stop sites) (plan : SegmentPlan) (path : Bytes) :
    Preserves W PlanState.watched (archiveGuardOf env plan path) := by
  rw [archiveGuardOf]
  refine .get_bind fun s _ => ?_
  split
  · exact .pure
  · refine Preserves.bind (.answer hW) fun _ => Preserves.bind (.answer hW) fun _ => ?_
    exact Preserves.bind (.modify fun _ => rfl) fun _ => .pure

variable (hW : PlanWatch env.stop holds inLookup inScan outside)

include hW

/-- The scan, after its handlers. -/
theorem PlanWatch.patient :
    (Watch.ofProgress holds outside).Patient env.stop NotArchiveResolution where
  failed := fun failure hp => hW.leaves (hW.scan.failed (k := ()) failure hp)
  checkpoint := fun hs k => (hW.scan.checkpoint hs k).error fun _ _ he => hW.leaves he

theorem preserves_publishing {left : Exception → Progress → Prop}
    {update : ScanJobSnapshot → ScanJobSnapshot}
    (h : ∀ snapshot, (update snapshot).counts = snapshot.counts) :
    Preserves (Watch.ofProgress holds left) PlanState.watched
      (PlanState.onProgress (publishSnapshot update)) :=
  preserves_planning fun k => .modify fun p hp => hW.publishes update p k (h p.snapshot) hp

theorem preserves_handleParseEvents (events : List Inpx.ParseEvent) (plan : SegmentPlan) :
    Preserves (.ofProgress holds outside) PlanState.watched
      (handleParseEvents env events plan) := by
  induction events generalizing plan with
  | nil => exact .pure
  | cons event events ih =>
    cases event with
    | checkpoint =>
      exact (preserves_planning (hW.patient.checkpoint (by nofun))).bind fun _ => ih plan
    | record inpxRecord =>
      refine .get_bind fun s _ => ?_
      refine Preserves.bind (.answer hW.patient) fun _ => ?_
      exact Preserves.bind (.modify fun _ => rfl) fun _ => ih _
    | warning warning =>
      refine .ite (.fail hW.patient) (.get_bind fun s _ => .ite ?_ (ih plan))
      exact Preserves.bind (.modify fun _ => rfl) fun _ => ih _

theorem preserves_parseSegment (plan : SegmentPlan) :
    Preserves (.ofProgress holds outside) PlanState.watched (parseSegment readers env plan) := by
  rw [parseSegment]
  refine (preserves_handleParseEvents hW _ plan).bind fun plan => ?_
  exact Preserves.bind (.answer hW.patient) fun _ => .pure

theorem preserves_readArchiveState (plan : SegmentPlan) :
    Preserves (.ofProgress holds outside) PlanState.watched (readArchiveState env plan) := by
  rw [readArchiveState]
  refine Triple.tryCatch (F := fun e s => inLookup e s.progress) ?_ fun e =>
    .throw fun s hs => hW.rethrowAs _ hs
  have hlookup : Preserves (.ofProgress holds inLookup) PlanState.watched
      (PlanState.onLookup (resolvePortableInpxArchivePath env.stop env.archiveRoot
        env.planningLimits.maxFilesystemEntries plan.payload.archiveName)) :=
    .zoom (preserves_resolvePortableInpxArchivePath hW.lookup _) (fun _ => rfl) fun _ _ => rfl
  exact hlookup.bind fun path => (preserves_archiveGuardOf hW.lookup plan path).bind fun _ => .pure

/-- A handler behind `catch (const CInpxScanCancelled&) { throw; }`. -/
theorem preserves_rethrowUnlessCancelled {α : Type} {c : PlanM α}
    (hc : Preserves (.ofProgress holds inScan) PlanState.watched c) (wrap : Bytes → Bytes) :
    Preserves (.ofProgress holds outside) PlanState.watched
      (tryCatch c fun e => throw (e.rethrowUnlessCancelled wrap)) :=
  Triple.tryCatch hc fun _ => .throw fun _ hs => hW.rethrowUnlessCancelled wrap hs

theorem preserves_existingGuard (plan : SegmentPlan) :
    Preserves (.ofProgress holds inScan) PlanState.watched (existingGuard plan) := by
  rw [existingGuard]
  refine .get_bind fun s _ => ?_
  split
  · exact .pure
  · exact .fail hW.scan

theorem preserves_readArchiveManifest (plan : SegmentPlan) :
    Preserves (.ofProgress holds outside) PlanState.watched (readArchiveManifest env plan) := by
  rw [readArchiveManifest]
  refine preserves_rethrowUnlessCancelled hW ?_ _
  refine (preserves_existingGuard hW plan).bind fun archiveGuard => .ite ?_ .pure
  refine (preserves_planning (hW.scan.call (by nofun) _)).bind fun fingerprint => ?_
  exact Preserves.bind (.modify fun _ => rfl) fun _ => .pure

theorem preserves_validateArchivePayloads (plan : SegmentPlan) :
    Preserves (.ofProgress holds outside) PlanState.watched (validateArchivePayloads env plan) := by
  rw [validateArchivePayloads]
  refine preserves_rethrowUnlessCancelled hW ?_ _
  refine (preserves_existingGuard hW plan).bind fun archiveGuard => .ite .pure ?_
  refine Preserves.bind (.require hW.scan) fun _ => ?_
  refine (preserves_planning (hW.scan.call (by nofun) _)).bind fun manifest => ?_
  refine Preserves.bind (.require hW.scan) fun _ => ?_
  refine Preserves.bind (preserves_publishing hW ?_) fun _ => .modify fun _ => rfl
  exact fun _ => rfl

theorem preserves_planReading (plan : SegmentPlan) :
    Preserves (.ofProgress holds outside) PlanState.watched (planReading readers env plan) := by
  rw [planReading]
  refine (preserves_parseSegment hW plan).bind fun plan => .ite ?_ .pure
  exact (preserves_readArchiveState hW plan).bind fun plan => preserves_readArchiveManifest hW plan

theorem preserves_planReusableArchive (existing : ExistingInpxSegment) (plan : SegmentPlan) :
    Preserves (.ofProgress holds outside) PlanState.watched
      (planReusableArchive readers env existing plan) := by
  rw [planReusableArchive]
  split
  · refine (preserves_readArchiveState hW _).bind fun plan => .ite .pure ?_
    refine (preserves_readArchiveManifest hW plan).bind fun plan =>
      .ite ?_ (preserves_parseSegment hW _)
    exact (preserves_validateArchivePayloads hW plan).bind fun _ => .pure
  · exact .fail hW.patient

theorem preserves_decidePlan (existing : Option ExistingInpxSegment) (plan : SegmentPlan) :
    Preserves (.ofProgress holds outside) PlanState.watched
      (decidePlan readers env existing plan) := by
  cases existing with
  | none => exact preserves_planReading hW _
  | some existing =>
    rw [decidePlan]
    exact .ite (.ite (preserves_planReusableArchive hW _ _) .pure) (preserves_planReading hW _)

theorem preserves_planSegment (existingSegments : List ExistingInpxSegment)
    (payload : Inpx.InpxSegmentPayload) : Preserves (.ofProgress holds outside) PlanState.watched
      (planSegment readers env existingSegments payload) := by
  rw [planSegment]
  refine (preserves_planning (hW.patient.checkpoint (by nofun))).bind fun _ => ?_
  refine .get_bind fun s _ => ?_
  refine Preserves.bind (.answer hW.patient) fun _ => ?_
  refine Preserves.bind (.require hW.patient) fun _ => ?_
  refine Preserves.bind (.modify fun _ => rfl) fun _ => ?_
  exact (preserves_decidePlan hW _ _).bind fun plan => .modify fun _ => rfl

theorem preserves_readSegmentEntries (existingSegments : List ExistingInpxSegment)
    (entries : List Inpx.ZipEntry) (segmentCount totalInputBytes : Nat) :
    Preserves (.ofProgress holds outside) PlanState.watched
      (readSegmentEntries readers env existingSegments segmentCount totalInputBytes entries) := by
  induction entries generalizing segmentCount totalInputBytes with
  | nil => exact .pure
  | cons entry entries ih =>
    refine (preserves_planning (hW.patient.checkpoint (by nofun))).bind fun _ => ?_
    refine .ite ?_ (ih _ _)
    refine Preserves.bind (.require hW.patient) fun _ => ?_
    refine (preserves_planning (hW.patient.call (by nofun) _)).bind fun bytes => ?_
    exact (preserves_planSegment hW _ _).bind fun _ => ih _ _

theorem preserves_takeSourceSnapshot :
    Preserves (.ofProgress holds outside) PlanState.watched (takeSourceSnapshot readers env) := by
  rw [takeSourceSnapshot]
  refine Preserves.bind (preserves_publishing hW ?_) fun _ => ?_
  · exact fun _ => rfl
  refine Preserves.bind ?_ fun sourceFingerprint => ?_
  · rw [sourceFingerprintOf]
    split
    · exact .pure
    · exact (preserves_planning (hW.patient.call (by nofun) _)).bind fun _ => .pure
  refine Preserves.bind (.answer hW.patient) fun _ => ?_
  refine (preserves_planning (hW.patient.call (by nofun) _)).bind fun _ => ?_
  refine Preserves.bind (.require hW.patient) fun _ => ?_
  exact (preserves_planning (hW.patient.checkpoint (by nofun))).bind fun _ => .pure

/-- The planning keeps what is watched up to the snapshot that it publishes with the plans. -/
theorem planScan_preserves (db : Database) {Q : PlanState → Prop}
    (hQ : ∀ s : PlanState, holds s.progress → Q { s with
      progress := s.progress.publish (publishPlans (buildModeLabel env.mode) s.plans) }) :
    Triple (fun s => holds s.progress) (planScan readers env db) (fun _ s => Q s)
      fun e s => outside e s.progress := by
  have hkeeps : ∀ {α : Type} {c : PlanM α},
      Preserves (.ofProgress holds outside) PlanState.watched c →
      Triple (fun s => holds s.progress) c (fun _ s => holds s.progress)
        fun e s => outside e s.progress := fun h => h
  rw [planScan]
  refine (hkeeps (preserves_takeSourceSnapshot hW)).bind fun sourceFingerprint => ?_
  refine Triple.bind (hkeeps (preserves_publishing hW ?_)) fun _ => ?_
  · exact fun _ => rfl
  refine (hkeeps (.answer hW.patient)).bind fun existingSegments => ?_
  refine (hkeeps (preserves_planning (hW.patient.checkpoint (by nofun)))).bind fun _ => ?_
  refine (hkeeps (.answer hW.patient)).bind fun _ => ?_
  refine Triple.bind (M := fun _ s => holds s.progress) ?_ fun count => ?_
  · rw [readSegments]
    refine (hkeeps (preserves_planning (hW.patient.checkpoint (by nofun)))).bind fun _ => ?_
    exact (hkeeps (.answer hW.patient)).bind fun entries =>
      hkeeps (preserves_readSegmentEntries hW _ _ _ _)
  refine (hkeeps (.require hW.patient)).bind fun _ => ?_
  refine Triple.bind (M := fun _ s => holds s.progress) ?_ fun _ => ?_
  · refine hkeeps (.forM fun existing => .get_bind fun s _ => .ite .pure ?_)
    exact Preserves.bind (.answer hW.patient) fun _ => .modify fun _ => rfl
  refine Triple.of_state fun s hs => ?_
  refine Triple.bind (M := fun t s' => t = s ∧ s' = s) (.get fun s' hs' => ⟨hs', hs'⟩) fun t =>
    Triple.of_pure fun ht => ?_
  rw [ht]
  refine Triple.bind (M := fun _ s' => s' = s) (.require (fun _ hs' _ => hs') fun s' hs' _ => ?_)
    fun _ => ?_
  · rw [hs']
    exact hW.patient.failed (k := ()) _ hs
  · refine Triple.bind (M := fun _ s' => Q s') ?_ fun _ => .pure fun _ hs' => hs'
    intro s' hs'
    rw [hs']
    exact hQ s hs

end Planning

/-! ### The catalog writer -/

/-- What is watched of an execution: the progress, the queue of payloads and what has happened to
it. -/
def ExecState.watched (s : ExecState) : Progress × (InFlight.Window InFlightParsedRecord ×
    List (InFlight.Moment InFlightParsedRecord Bytes)) :=
  (s.progress, s.window, s.moments)

section Writer

open ExecState

variable {W : Watch (InFlight.Window InFlightParsedRecord ×
    List (InFlight.Moment InFlightParsedRecord Bytes))}
  {readers : Readers} {env : ScanEnv}

theorem preserves_execution {α : Type} {c : ProgressM α}
    (hc : ∀ k, Triple (fun p => W.holds p k) c (fun _ p => W.holds p k) fun e p => W.left e p k) :
    Preserves W watched (onProgress c) :=
  .progress hc (fun _ => rfl) fun _ _ => rfl

variable (hW : W.Patient env.stop NotArchiveResolution)

include hW

theorem preserves_step : Preserves W watched (step env) := by
  rw [step]
  refine .get_bind fun s hs => Preserves.bind (.set hs) fun _ => ?_
  split
  · exact .fail hW
  · exact .pure

theorem preserves_runDb {α : Type} (c : Database.Db α) : Preserves W watched (runDb env c) := by
  rw [runDb]
  refine (preserves_step hW).bind fun _ => .get_bind fun s hs => ?_
  split
  · exact Preserves.bind (.set hs) fun _ => .pure
  · exact Preserves.bind (.set hs) fun _ => .fail hW

theorem preserves_runFiles (f : Storage.CoverStore → Storage.CoverStore) :
    Preserves W watched (runFiles env f) := by
  rw [runFiles]
  exact (preserves_step hW).bind fun _ => .modify fun _ => rfl

theorem preserves_awaitLock (attempts : Nat) : Preserves W watched (awaitLock env attempts) := by
  induction attempts with
  | zero => exact preserves_execution (hW.checkpoint (by nofun))
  | succ attempts ih =>
    refine (preserves_execution (hW.checkpoint (by nofun))).bind fun _ => ?_
    exact (preserves_execution (hW.checkpoint (by nofun))).bind fun _ => ih

theorem preserves_startWriter : Preserves W watched (startWriter env) := by
  rw [startWriter]
  refine (preserves_step hW).bind fun _ => Preserves.bind (.modify fun _ => rfl) fun _ => ?_
  refine (preserves_runDb hW _).bind fun _ => (preserves_awaitLock hW _).bind fun _ => ?_
  exact Preserves.bind (.answer hW) fun _ => preserves_runDb hW _

theorem preserves_upsertSegment (plan : SegmentPlan) :
    Preserves W watched (upsertSegment env plan) := by
  rw [upsertSegment]
  refine .get_bind fun s _ => (preserves_runDb hW _).bind fun segmentId => .ite .pure ?_
  refine (preserves_runDb hW _).bind fun _ => .ite .pure ?_
  refine Preserves.bind (.forM fun libId => ?_) fun _ => .pure
  exact (preserves_execution (hW.checkpoint (by nofun))).bind fun _ => preserves_runDb hW _

theorem preserves_upsertSegments (plans : List SegmentPlan) :
    Preserves W watched (upsertSegments env plans) := by
  induction plans with
  | nil => exact .pure
  | cons plan plans ih =>
    refine (preserves_execution (hW.checkpoint (by nofun))).bind fun _ => ?_
    exact (preserves_upsertSegment hW plan).bind fun _ => ih.bind fun _ => .pure

theorem preserves_prepareCatalog (plans : List SegmentPlan) :
    Preserves W watched (prepareCatalog env plans) := by
  rw [prepareCatalog]
  exact .ite ((preserves_startWriter hW).bind fun _ => preserves_upsertSegments hW plans) .pure

theorem preserves_writeCoverBytesAtomically (path bytes : Bytes) :
    Preserves W watched (writeCoverBytesAtomically env path bytes) := by
  rw [writeCoverBytesAtomically]
  refine (preserves_step hW).bind fun _ => .get_bind fun s _ => ?_
  refine preserves_cleanup ?_ fun _ => rfl
  refine (preserves_runFiles hW _).bind fun _ => ?_
  exact (preserves_step hW).bind fun _ => preserves_runFiles hW _

theorem preserves_cacheInpxCover (parsedBook : Domain.ParsedBook) :
    Preserves W watched (cacheInpxCover readers env parsedBook) := by
  rw [cacheInpxCover]
  refine (preserves_step hW).bind fun _ => ?_
  split
  · exact .pure
  · exact .pure
  · refine Preserves.bind (.answer hW) fun coverPath => ?_
    refine (preserves_step hW).bind fun _ => .get_bind fun s _ => ?_
    split
    · exact Preserves.bind (.require hW) fun _ => .pure
    · refine Preserves.bind (.modify fun _ => rfl) fun _ => ?_
      exact (preserves_writeCoverBytesAtomically hW _ _).bind fun _ => .pure

theorem preserves_validateCoverCacheBudget :
    Preserves W watched (validateCoverCacheBudget env) := by
  rw [validateCoverCacheBudget]
  refine (preserves_step hW).bind fun _ => .get_bind fun s _ => ?_
  split
  · exact .fail hW
  · exact .ite (Preserves.bind (.modify fun _ => rfl) fun _ => .fail hW) .pure

theorem preserves_writeParsedRecord (segmentId : Nat) (inpxRecord : Inpx.InpxRecord)
    (payload : PreparedPayload) :
    Preserves W watched (writeParsedRecord readers env segmentId inpxRecord payload) := by
  rw [writeParsedRecord]
  refine (preserves_step hW).bind fun _ => .get_bind fun s _ => ?_
  split
  · rw [writeNewRecord]
    refine .get_bind fun s _ => (preserves_runDb hW _).bind fun inserted => ?_
    refine (preserves_cacheInpxCover hW _).bind fun coverResult => ?_
    refine (preserves_runDb hW _).bind fun _ => ?_
    refine .get_bind fun s _ => (preserves_runDb hW _).bind fun _ => ?_
    refine .get_bind fun s _ => (preserves_runDb hW _).bind fun _ => ?_
    exact (preserves_validateCoverCacheBudget hW).bind fun _ => .pure
  · rw [writeExistingRecord]
    refine (preserves_runDb hW _).bind fun metadataFallbacks => ?_
    refine (preserves_cacheInpxCover hW _).bind fun coverResult => ?_
    refine (preserves_runDb hW _).bind fun _ => ?_
    refine .get_bind fun s _ => (preserves_runDb hW _).bind fun _ => ?_
    refine .get_bind fun s _ => (preserves_runDb hW _).bind fun _ => ?_
    refine (preserves_runDb hW _).bind fun _ => ?_
    exact (preserves_validateCoverCacheBudget hW).bind fun _ => .pure

theorem preserves_storeParsedRecord (task : InFlightParsedRecord) (payload : PreparedPayload) :
    Preserves W watched (storeParsedRecord readers env task payload) := by
  rw [storeParsedRecord]
  exact .ite (preserves_writeParsedRecord hW _ _ _) .pure

theorem preserves_persistWarning (warning : Database.ScanWarningRecord) :
    Preserves W watched (persistWarning env warning) := by
  rw [persistWarning, writeWarning]
  refine .ite (.get_bind fun s _ => .ite .pure ?_) .pure
  exact (preserves_runDb hW _).bind fun _ => .modify fun _ => rfl

theorem preserves_checkpointsOfExecution (n : Nat) :
    Preserves W watched (onProgress (runCheckpoints env.stop .execution n)) :=
  preserves_execution (hW.checkpoints (by nofun) n)

/-- A warning that does not count as a skipped record. -/
theorem preserves_publishWarning (hpublishes : W.Publishes) (warning : Database.ScanWarningRecord) :
    Preserves W watched (publishWarning env warning false) := by
  rw [publishWarning]
  refine Preserves.bind (.modify fun _ => rfl) fun _ => ?_
  refine (preserves_persistWarning hW _).bind fun _ => ?_
  exact preserves_execution fun k => .modify fun p hp => hpublishes _ p k rfl hp

theorem preserves_prepareExecution (hpublishes : W.Publishes) (plans : List SegmentPlan)
    (committed : Database) : Preserves W watched (prepareExecution env plans committed) := by
  rw [prepareExecution]
  refine Preserves.bind (.forM fun warning => preserves_publishWarning hW hpublishes _) fun _ => ?_
  refine Preserves.bind (.answer hW) fun activeIds => ?_
  refine Preserves.bind (.modify fun _ => rfl) fun _ => ?_
  refine (preserves_checkpointsOfExecution hW _).bind fun _ => ?_
  refine (preserves_checkpointsOfExecution hW _).bind fun _ => ?_
  exact preserves_execution (hW.checkpoint (by nofun))

theorem preserves_validateArchiveGuards (plans : List SegmentPlan)
    (archiveGuards : List (Bytes × ArchiveScanGuard)) :
    Preserves W watched (validateArchiveGuards env plans archiveGuards) := by
  have hplans : ∀ expectations,
      Preserves W watched (checkPlanGuards env archiveGuards plans expectations) := by
    induction plans with
    | nil => exact fun _ => .pure
    | cons plan plans ih =>
      intro expectations
      refine (preserves_execution (hW.checkpoint (by nofun))).bind fun _ => ?_
      exact Preserves.bind (.answer hW) fun _ => ih _
  rw [validateArchiveGuards]
  refine (hplans []).bind fun _ => .forM fun entry => ?_
  rw [checkArchive]
  refine (preserves_execution (hW.checkpoint (by nofun))).bind fun _ => ?_
  refine Preserves.bind (.answer hW) fun _ => ?_
  refine Preserves.bind (.require hW) fun _ => .ite .pure ?_
  exact (preserves_execution (hW.call (by nofun) _)).bind fun _ => .require hW

theorem preserves_finish (sourceFingerprint : Bytes) (plans : List SegmentPlan)
    (archiveGuards : List (Bytes × ArchiveScanGuard)) (changedSegmentIds : List Nat) :
    Preserves W watched
      (finish readers env sourceFingerprint plans archiveGuards changedSegmentIds) := by
  have hcheck : Preserves W watched (onProgress (throwIfCancelled env.stop .finish)) :=
    preserves_execution (hW.checkpoint (by nofun))
  rw [finish]
  refine Preserves.bind ?_ fun counts => ?_
  · rw [finishLocations]
    refine Preserves.bind (.forM fun segmentId => ?_) fun _ => hcheck.bind fun _ => ?_
    · exact hcheck.bind fun _ => .get_bind fun s _ => preserves_runDb hW _
    refine .get_bind fun s _ => (preserves_runDb hW _).bind fun _ => hcheck.bind fun _ => ?_
    exact .get_bind fun s _ => (preserves_runDb hW _).bind fun _ => .pure
  refine Preserves.bind ?_ fun _ => ?_
  · rw [finishStatistics]
    refine (preserves_runDb hW _).bind fun _ => (preserves_runDb hW _).bind fun _ => ?_
    refine .get_bind fun s _ => (preserves_runDb hW _).bind fun _ => ?_
    exact (preserves_runDb hW _).bind fun _ => preserves_runDb hW _
  refine Preserves.bind ?_ fun _ => ?_
  · rw [finishChecks]
    refine (preserves_execution (hW.checkpoints (by nofun) _)).bind fun _ => ?_
    refine (preserves_validateArchiveGuards hW plans archiveGuards).bind fun _ => ?_
    refine hcheck.bind fun _ => ?_
    refine (preserves_execution (hW.call (by nofun) _)).bind fun _ => ?_
    exact Preserves.bind (.require hW) fun _ => hcheck
  · refine Preserves.bind ?_ fun _ => .pure
    rw [commitScan]
    exact (preserves_step hW).bind fun _ => .modify fun _ => rfl

theorem preserves_finishCatalog (hpublishes : W.Publishes) (sourceFingerprint : Bytes)
    (plans : List SegmentPlan) (archiveGuards : List (Bytes × ArchiveScanGuard))
    (changedSegmentIds : List Nat) : Preserves W watched
      (finishCatalog readers env sourceFingerprint plans archiveGuards changedSegmentIds) := by
  have hpublish : ∀ update : ScanJobSnapshot → ScanJobSnapshot,
      (∀ snapshot, (update snapshot).counts = snapshot.counts) →
      Preserves W watched (onProgress (publishSnapshot update)) := fun update h =>
    preserves_execution fun k => .modify fun p hp => hpublishes update p k (h _) hp
  rw [finishCatalog]
  refine .ite (Preserves.bind (hpublish _ fun _ => rfl) fun _ => ?_) .pure
  refine (preserves_finish hW _ _ _ _).bind fun _ => ?_
  refine Preserves.bind (.modify fun _ => rfl) fun _ => ?_
  exact hpublish _ fun _ => rfl

end Writer

end InpxWebReader.Scan
