import InpxWebReader.Scan.WriterSpec

/-!
# What the execution loop does

`submit` is the reading of one record with the queue left out: what the loop submits does not
depend on when payloads are drained. `Running sub s` says that the loop has come as far as `sub`,
that what was drained is stored in the catalog, and that the rest is in the queue. A run of the
loop that does not fail stores every submitted task; one that fails does so because the reading
fails, because a submitted task cannot be stored, or for a reason that `Aborted` names.
-/

namespace InpxWebReader.Scan

open Foundation Domain Inpx Storage Database Program ExecState
open List (Perm)

/-! ### Warnings and failures -/

/-- A program whose every end keeps what holds of the standing. -/
def KeepsStanding {α : Type} (c : ExecM α) : Prop :=
  ∀ P : Standing → Prop, Triple (fun s => P s.standing) c (fun _ s => P s.standing)
    fun _ s => P s.standing

section Standing

variable {α β : Type} {env : ScanEnv}

theorem KeepsStanding.pure {a : α} : KeepsStanding (Pure.pure a : ExecM α) :=
  fun _ => .pure fun _ hs => hs

theorem KeepsStanding.bind {c : ExecM α} {f : α → ExecM β} (hc : KeepsStanding c)
    (hf : ∀ a, KeepsStanding (f a)) : KeepsStanding (c >>= f) :=
  fun P => (hc P).bind fun a => hf a P

theorem KeepsStanding.get_bind {f : ExecState → ExecM β} (hf : ∀ s, KeepsStanding (f s)) :
    KeepsStanding (MonadState.get >>= f) :=
  fun P s hs => hf s P s hs

theorem KeepsStanding.onProgress (c : ProgressM α) : KeepsStanding (ExecState.onProgress c) := by
  intro P s hs
  rw [ExecState.onProgress, zoom]
  cases c s.progress <;> exact hs

theorem KeepsStanding.modify {f : ExecState → ExecState} (h : ∀ s, (f s).standing = s.standing) :
    KeepsStanding (MonadStateOf.modifyGet fun s => (PUnit.unit, f s) : ExecM PUnit) :=
  fun P => Triple.modify fun s hs => by rw [h]; exact hs

theorem KeepsStanding.ite {p : Prop} [Decidable p] {c d : ExecM α} (hc : KeepsStanding c)
    (hd : KeepsStanding d) : KeepsStanding (if p then c else d) :=
  fun P => .ite (fun _ => hc P) fun _ => hd P

theorem insertPersistedWarning_spec (scanId createdAtUtc : Bytes) (warning : ScanWarningRecord)
    (db : Database) :
    Triple (fun s => s = db) (insertPersistedWarning scanId createdAtUtc warning)
      (fun _ s => ∃ warnings, s = { db with warnings := warnings }) fun _ _ => False := by
  rw [insertPersistedWarning]
  refine Triple.bind (M := fun t s => t = db ∧ s = db) (.get fun s hs => ⟨hs, hs⟩) fun t => ?_
  refine Triple.of_pure fun ht => ?_
  subst ht
  obtain ⟨table, htable⟩ := Table.insert?_isSome (t := t.warnings)
    (r := ⟨t.warnings.nextId, scanId, warning.code, warning.archiveName, warning.entryName,
      warning.message, createdAtUtc⟩) (Table.nextId_not_mem _) (Table.nextId_not_mem _)
  rw [htable]
  refine Triple.bind (M := fun a s => a = table ∧ s = t) (.pure fun s hs => ⟨rfl, hs⟩)
    fun a => ?_
  exact .modify fun s hs => ⟨a, rfl⟩

theorem insertPersistedWarning_counters (scanId createdAtUtc : Bytes)
    (warning : ScanWarningRecord) :
    Triple (fun _ => True) (insertPersistedWarning scanId createdAtUtc warning) (fun _ _ => True)
      fun e _ => e ≠ Database.counterUnderflow := by
  intro db _
  exact (insertPersistedWarning_spec scanId createdAtUtc warning db).conseq
    (fun _ h => h) (fun _ _ _ => trivial) (fun _ _ h => h.elim) db rfl

theorem keepsStanding_publishWarning (warning : ScanWarningRecord) (countAsSkipped : Bool) :
    KeepsStanding (publishWarning env warning countAsSkipped) := by
  rw [publishWarning, persistWarning, writeWarning]
  refine .bind (.modify fun _ => rfl) fun _ => .bind (.ite ?_ .pure) fun _ => .onProgress _
  refine .get_bind fun s => .ite .pure (.bind ?_ fun _ => .modify fun _ => rfl)
  exact fun P => runDb_standing (insertPersistedWarning_counters _ _ _)

theorem drainFailed_spec {before : World} {why : Prop} {Q : Unit → ExecState → Prop}
    (task : InFlightParsedRecord) (e : Exception) :
    Triple (Aborted env before why) (drainFailed env task e) Q
      fun _ => Aborted env before why := by
  have hkeep : ∀ {α : Type} {c : ExecM α}, KeepsStanding c →
      Triple (Aborted env before why) c (fun _ => Aborted env before why)
        fun _ => Aborted env before why := fun hc =>
    hc fun r => Undoable before r ∧ (env.Disturbed ∨ r.budgetExceeded = true ∨ why)
  have hrelease : KeepsStanding (releasePayloadReservation task) := .modify fun _ => rfl
  rw [drainFailed]
  refine .ite (fun _ => ?_) fun _ => ?_
  · exact (hkeep hrelease).bind fun _ => .throw fun _ h => h
  · cases e.what? with
    | none => exact .throw fun _ h => h
    | some what =>
      refine (hkeep hrelease).bind fun _ => (hkeep (.onProgress _)).bind fun _ =>
        (hkeep (keepsStanding_publishWarning _ _)).bind fun _ => .throw fun _ h => h

/-- A warning that is published during the run changes the table of warnings. -/
theorem publishWarning_spec {before : World} {why : Prop} {db : Database} {r : Standing}
    (hu : Undoable before r) (warning : ScanWarningRecord) (countAsSkipped : Bool) :
    Triple (At db r) (publishWarning env warning countAsSkipped)
      (fun _ s => ∃ warnings, At { db with warnings := warnings } r s)
      fun _ => Aborted env before why := by
  rw [publishWarning]
  refine Triple.bind (M := fun _ => At db r) (.modify fun _ h => h) fun _ => ?_
  refine Triple.bind (M := fun _ s => ∃ warnings, At { db with warnings := warnings } r s) ?_
    fun _ => Triple.of_exists fun warnings => ?_
  · rw [persistWarning, writeWarning]
    refine .ite (fun _ => ?_) fun _ => .pure fun s hs => ⟨db.warnings, hs⟩
    refine At.get_bind fun s _ => .ite (fun _ => .pure fun s hs => ⟨db.warnings, hs⟩) fun _ => ?_
    refine runDb_bind hu ((insertPersistedWarning_spec _ _ _ _).error fun _ _ h => h.elim)
      fun _ db' hdb' => ?_
    obtain ⟨warnings, rfl⟩ := hdb'
    exact .modify fun s hs => ⟨warnings, hs⟩
  · exact ((quiet_publishSnapshot _).triple hu).post fun _ s hs => ⟨warnings, hs⟩

end Standing

/-! ### What is submitted -/

/-- How far the reading of the records has come. -/
structure Submission where
  activeIds : List Bytes
  archivePath : Bytes
  tasks : List InFlightParsedRecord

/-- The body of the loop over the records of a segment, without the queue. -/
def submit (env : ScanEnv) (placed : PlacedPlan) (sub : Submission) (r : InpxRecord × Nat) :
    Option Submission :=
  if r.1.deleted ∨ ¬r.1.isFb2 then some sub
  else do
    let activeIds ←
      (insertActiveLibId sub.activeIds r.1.libId env.planningLimits.maxRecords).toOption.join
    guard (sub.archivePath = placed.plan.resolvedArchivePath ∨
      (env.executionManifest placed.planIndex).result.toOption =
        some placed.plan.archiveManifestFingerprint)
    let actualSizeBytes ← (readPayloadSize env placed.planIndex r.2 r.1).toOption
    let payloadBytes ← (env.entryBytes placed.planIndex r.2).result.toOption
    return {
      activeIds := activeIds
      archivePath := placed.plan.resolvedArchivePath
      tasks := sub.tasks ++ [parsedRecordTask placed.planIndex r.2 placed.segmentId r.1
        actualSizeBytes payloadBytes] }

/-- The loop over the records of a segment, without the queue. -/
def submitPlan (env : ScanEnv) (sub : Submission) (placed : PlacedPlan) : Option Submission :=
  placed.plan.records.zipIdx.foldlM (submit env placed) sub

/-- The loop over the segments, without the queue. -/
def submitPlans (env : ScanEnv) (order : List PlacedPlan) (sub : Submission) : Option Submission :=
  order.foldlM (submitPlan env) sub

/-! ### What is stored -/

/-- What the worker of a task answers when nothing stops it. -/
def taskPayload (readers : Readers) (env : ScanEnv) (task : InFlightParsedRecord) :
    Except Failure PreparedPayload :=
  readers.payload task.payloadBytes task.inpxRecord env.persistent env.maxDecodedCoverBytes

/-- The entry that storing a task makes. -/
def taskEntry (readers : Readers) (env : ScanEnv) (scanId : Bytes)
    (task : InFlightParsedRecord) : Entry :=
  storedEntry task.segmentId task.inpxRecord scanId
    ((taskPayload readers env task).toOption.bind fun payload =>
      storedCover readers payload.parsedBook)

/-- The payload of the task can be parsed, and its cover can be stored. -/
def Storable (readers : Readers) (env : ScanEnv) (before : World)
    (task : InFlightParsedRecord) : Prop :=
  ∃ payload, taskPayload readers env task = .ok payload ∧
    (env.persistent = true → CoverFits readers before payload.parsedBook)

/-- The entries after tasks were stored. -/
def overwrite (entry : InFlightParsedRecord → Entry) (catalog : Bytes → Option Entry)
    (tasks : List InFlightParsedRecord) : Bytes → Option Entry :=
  tasks.foldl (fun c task => Function.update c task.inpxRecord.libId (some (entry task))) catalog

/-- The drained tasks that are stored: all of them, when there is a catalog. -/
def storedTasks (env : ScanEnv) (done : List InFlightParsedRecord) : List InFlightParsedRecord :=
  if env.persistent then done else []

/-- The contents `S` are those of the covers that the payloads of the run have. -/
def CoversIn (readers : Readers) (env : ScanEnv) (S : Set Bytes) : Prop :=
  ∀ planIndex recordIndex task payload,
    (env.entryBytes planIndex recordIndex).result = .ok task.payloadBytes →
      taskPayload readers env task = .ok payload → payload.parsedBook.coverBytes ∈ S

/-- What holds once `done` was drained of a run that started from `db₀` and `r₀`. -/
structure Drained (readers : Readers) (env : ScanEnv) (S : Set Bytes) (before : World)
    (db₀ : Database) (r₀ : Standing) (done : List InFlightParsedRecord) (db : Database)
    (r : Standing) : Prop where
  writing : Writing readers S before db r
  catalog : catalogOf db =
    overwrite (taskEntry readers env r₀.scanId) (catalogOf db₀) (storedTasks env done)
  segments : db.segments = db₀.segments
  deletions : db.deletions = db₀.deletions
  storable : ∀ task ∈ done, Storable readers env before task
  frame : r = { r₀ with
    covers := r.covers
    writtenCoverPaths := r.writtenCoverPaths
    processedActiveIds := r.processedActiveIds
    currentArchivePath := r.currentArchivePath
    inFlight := r.inFlight }

/-- The submitted tasks are drained or in the queue. -/
structure Queued (env : ScanEnv) (sub : Submission) (done : List InFlightParsedRecord)
    (r : Standing) : Prop where
  tasks : (done ++ r.inFlight).Perm sub.tasks
  activeIds : r.processedActiveIds = sub.activeIds
  archivePath : r.currentArchivePath = sub.archivePath
  read : ∀ task ∈ sub.tasks, ∃ planIndex recordIndex,
    (env.entryBytes planIndex recordIndex).result = .ok task.payloadBytes

def Running (readers : Readers) (env : ScanEnv) (S : Set Bytes) (before : World)
    (db₀ : Database) (r₀ : Standing) (sub : Submission) (s : ExecState) : Prop :=
  ∃ done, Drained readers env S before db₀ r₀ done s.database s.standing ∧
    Queued env sub done s.standing

/-- Every submitted task can be stored. -/
def Submission.Good (readers : Readers) (env : ScanEnv) (before : World)
    (sub : Submission) : Prop :=
  ∀ task ∈ sub.tasks, Storable readers env before task

section Loop

variable {readers : Readers} {env : ScanEnv} {S : Set Bytes} {before : World}
  {db₀ : Database} {r₀ : Standing} {sub : Submission} {done : List InFlightParsedRecord}
  {db : Database} {r : Standing}

theorem overwrite_append (entry : InFlightParsedRecord → Entry) (catalog : Bytes → Option Entry)
    (tasks : List InFlightParsedRecord) (task : InFlightParsedRecord) :
    overwrite entry catalog (tasks ++ [task]) =
      Function.update (overwrite entry catalog tasks) task.inpxRecord.libId (some (entry task)) := by
  rw [overwrite]
  rw [List.foldl_append]
  rfl

/-- Database and standing may change where the catalog and the drained tasks do not look. -/
theorem Drained.congr {db' : Database} {r' : Standing}
    (h : Drained readers env S before db₀ r₀ done db r)
    (hdb : db' = { db with warnings := db'.warnings })
    (hr : r' = { r with
      processedActiveIds := r'.processedActiveIds
      currentArchivePath := r'.currentArchivePath
      inFlight := r'.inFlight }) : Drained readers env S before db₀ r₀ done db' r' := by
  obtain ⟨⟨⟨⟨hc, hu, hq, hf, hk⟩, hwr⟩, hcons, hcov⟩, hcat, hseg, hdel, hst, hframe⟩ := h
  have hcatalog : catalogOf db' = catalogOf db := by
    rw [hdb]
    rfl
  refine ⟨⟨?_, ?_, ?_⟩, hcatalog.trans hcat, ?_, ?_, hst, ?_⟩
  · rw [hr]
    exact ⟨⟨hc, hu, hq, hf, hk⟩, hwr⟩
  · rw [hdb]
    exact ⟨⟨hcons.wellLinked.spelling, hcons.wellLinked.named, hcons.wellLinked.resolved⟩,
      hcons.owned, hcons.recorded.congr rfl rfl⟩
  · rw [Covered]
    rw [hcatalog, hr]
    exact hcov
  · rw [hdb]
    exact hseg
  · rw [hdb]
    exact hdel
  · rw [hr, hframe]

theorem Drained.store (h : Drained readers env S before db₀ r₀ done db r)
    {task : InFlightParsedRecord} {payload : PreparedPayload}
    (hpayload : taskPayload readers env task = .ok payload) (hp : env.persistent = true)
    {db' : Database} {r' : Standing}
    (hw : WritesRecord readers S before task.segmentId task.inpxRecord payload.parsedBook db r
      db' r') : Drained readers env S before db₀ r₀ (done ++ [task]) db' r' := by
  have hscan : r.scanId = r₀.scanId := by rw [h.frame]
  refine ⟨hw.writing, ?_, hw.stores.segments.trans h.segments,
    hw.stores.deletions.trans h.deletions, ?_, ?_⟩
  · have hcat := h.catalog
    rw [storedTasks] at hcat ⊢
    rw [if_pos hp] at hcat ⊢
    rw [overwrite_append, ← hcat, hw.stores.catalog, hscan]
    rw [taskEntry]
    rw [hpayload]
    rfl
  · intro t ht
    rcases List.mem_append.mp ht with ht | ht
    · exact h.storable t ht
    · rw [List.mem_singleton.mp ht]
      exact ⟨payload, hpayload, fun _ => hw.fits⟩
  · rw [hw.frame, h.frame]

theorem throwIfCancelled_passed (site : CheckpointSite) (p₀ : Progress) :
    Triple (fun p => p = p₀) (throwIfCancelled env.stop site)
      (fun _ _ => env.stop.requested p₀ = false) fun _ _ => env.Disturbed := by
  rw [throwIfCancelled]
  refine Triple.bind (M := fun t s => t = p₀ ∧ s = p₀) (.get fun s hs => ⟨hs, hs⟩) fun t => ?_
  refine Triple.of_pure fun ht => ?_
  subst ht
  refine .ite (fun h => ?_) fun h => .modify fun _ _ => by simpa using h
  have hd : env.Disturbed := disturbed_of_requested h
  exact fun s _ => hd

/-- What a worker answers when no stop request is there. -/
theorem preparedPayload_of_not_requested {task : InFlightParsedRecord} {p : Progress}
    (h : env.stop.requested p = false) :
    preparedPayload readers env task p = taskPayload readers env task := by
  rw [preparedPayload]
  rw [h]
  rfl

theorem storeParsedRecord_spec (h : Drained readers env S before db₀ r₀ done db r)
    {task : InFlightParsedRecord} {payload : PreparedPayload}
    (hpayload : taskPayload readers env task = .ok payload)
    (hS : payload.parsedBook.coverBytes ∈ S) :
    Triple (At db r) (storeParsedRecord readers env task payload)
      (fun _ s => ∃ db' r', (Drained readers env S before db₀ r₀ (done ++ [task]) db' r' ∧
        r' = { r with covers := r'.covers, writtenCoverPaths := r'.writtenCoverPaths }) ∧
        At db' r' s)
      fun _ => Aborted env before (¬Storable readers env before task) := by
  rw [storeParsedRecord]
  refine .ite (fun hp => ?_) fun hp => .pure fun s hs => ⟨db, r, ⟨?_, rfl⟩, hs⟩
  · refine (writeParsedRecord_spec h.writing hS).conseq (fun _ hs => hs) (fun _ s hs => ?_)
      fun _ s hs => hs.mono fun hn hst => ?_
    · obtain ⟨db', r', hw, hs⟩ := hs
      exact ⟨db', r', ⟨h.store hpayload hp hw, hw.frame⟩, hs⟩
    · obtain ⟨payload', hpayload', hfits⟩ := hst
      rw [hpayload] at hpayload'
      injection hpayload' with hpayload'
      exact hn (hpayload' ▸ hfits hp)
  · have hcat := h.catalog
    rw [storedTasks] at hcat
    rw [if_neg hp] at hcat
    refine ⟨h.writing, ?_, h.segments, h.deletions, fun t ht => ?_, h.frame⟩
    · rw [storedTasks]
      rw [if_neg hp]
      exact hcat
    · rcases List.mem_append.mp ht with ht | ht
      · exact h.storable t ht
      · rw [List.mem_singleton.mp ht]
        exact ⟨payload, hpayload, fun h => absurd h hp⟩

/-- A payload that was taken from the queue is stored, or the run fails. -/
theorem drainTask_spec (h : Drained readers env S before db₀ r₀ done db r)
    {task : InFlightParsedRecord}
    (hS : ∀ payload, taskPayload readers env task = .ok payload →
      payload.parsedBook.coverBytes ∈ S) :
    Triple (At db r) (drainTask readers env task)
      (fun _ s => ∃ db' r', (Drained readers env S before db₀ r₀ (done ++ [task]) db' r' ∧
        r' = { r with covers := r'.covers, writtenCoverPaths := r'.writtenCoverPaths }) ∧
        At db' r' s)
      fun _ => Aborted env before (¬Storable readers env before task) := by
  have hu : Undoable before r := h.writing.files.toUndoable
  rw [drainTask]
  refine Triple.of_state fun s₀ hs₀ => ?_
  have hu₀ : Undoable before s₀.standing := hs₀.2.symm ▸ hu
  refine Triple.bind (M := fun t s => t = s₀ ∧ s = s₀) (.get fun s hs => ⟨hs, hs⟩) fun t => ?_
  refine Triple.of_pure fun ht => ?_
  rw [ht]
  refine Triple.bind (M := fun payload s => preparedPayload readers env task s₀.progress =
    .ok payload ∧ s = s₀) ?_ fun payload => Triple.of_pure fun hpayload => ?_
  · cases hx : preparedPayload readers env task s₀.progress with
    | ok payload => exact .pure fun s hs => ⟨rfl, hs⟩
    | error e =>
      refine .throw fun s hs => ?_
      rw [hs]
      refine ⟨hu₀, ?_⟩
      by_cases hreq : env.stop.requested s₀.progress = true
      · exact .inl (disturbed_of_requested hreq)
      · rw [preparedPayload_of_not_requested (by simpa using hreq)] at hx
        refine .inr (.inr ?_)
        rintro ⟨payload, hok, _⟩
        rw [hx] at hok
        cases hok
  refine Triple.bind (M := fun _ s => env.stop.requested s₀.progress = false ∧ At db r s) ?_
    fun _ => Triple.of_pure fun hreq => ?_
  · refine Triple.zoom fun s hs => ?_
    rw [hs]
    exact (throwIfCancelled_passed _ _).conseq (fun _ hp => hp) (fun _ _ hq => ⟨hq, hs₀⟩)
      fun _ _ hd => ⟨hu₀, .inl hd⟩
  rw [preparedPayload_of_not_requested hreq] at hpayload
  refine (storeParsedRecord_spec h hpayload (hS payload hpayload)).bind fun writeResult =>
    Triple.of_exists fun db' => Triple.of_exists fun r' => Triple.of_pure fun hd => ?_
  refine (quiet_publishSnapshot _).bind hd.1.writing.files.toUndoable fun _ => ?_
  refine Triple.bind (M := fun _ => At db' r') (.modify fun _ hs => hs) fun _ => ?_
  exact .modify fun s hs => ⟨db', r', hd, hs⟩

theorem takenIndex_lt (pick : Nat → Nat) (preferReady : Bool) {s : ExecState}
    (h : 0 < s.inFlight.length) : takenIndex pick preferReady s < s.inFlight.length := by
  rw [takenIndex]
  split
  · next hp =>
    rw [Bool.and_eq_true, decide_eq_true_eq] at hp
    exact hp.2
  · exact h

/-- A drain takes one payload out of the queue, whichever it is. -/
theorem drainParsedRecord_spec (hS : CoversIn readers env S) (pick : Nat → Nat)
    (preferReady : Bool) (n : Nat) :
    Triple (fun s => Running readers env S before db₀ r₀ sub s ∧ s.inFlight.length = n + 1)
      (drainParsedRecord readers env pick preferReady)
      (fun _ s => Running readers env S before db₀ r₀ sub s ∧ s.inFlight.length = n)
      fun _ => Aborted env before (¬sub.Good readers env before) := by
  refine Triple.of_state fun s₀ hs₀ => ?_
  obtain ⟨⟨done, hd, hq⟩, hlen⟩ := hs₀
  rw [drainParsedRecord]
  refine Triple.bind (M := fun t s => t = s₀ ∧ s = s₀) (.get fun s hs => ⟨hs, hs⟩) fun t => ?_
  refine Triple.of_pure fun ht => ?_
  rw [ht]
  have hlt := takenIndex_lt pick preferReady (s := s₀) (by omega)
  set i := takenIndex pick preferReady s₀ with hi
  obtain ⟨task, htask⟩ : ∃ task, s₀.inFlight[i]? = some task := ⟨_, List.getElem?_eq_getElem hlt⟩
  rw [htask]
  have hget : s₀.inFlight[i] = task := (List.getElem?_eq_some_iff.mp htask).2
  have hperm : (task :: s₀.inFlight.eraseIdx i).Perm s₀.inFlight := by
    rw [← hget]
    exact List.getElem_cons_eraseIdx_perm hlt
  have hmem : task ∈ sub.tasks :=
    hq.tasks.mem_iff.mp (List.mem_append_right _ (hperm.mem_iff.mp (List.mem_cons_self ..)))
  refine Triple.bind (M := fun _ => At s₀.database { s₀.standing with
    inFlight := s₀.inFlight.eraseIdx i }) (.modify fun s _ => ⟨rfl, rfl⟩) fun _ => ?_
  refine Triple.tryCatch (F := fun _ => Aborted env before (¬sub.Good readers env before)) ?_
    fun e => drainFailed_spec task e
  have hd' : Drained readers env S before db₀ r₀ done s₀.database { s₀.standing with
      inFlight := s₀.inFlight.eraseIdx i } := hd.congr rfl rfl
  refine (drainTask_spec hd' fun payload hp => ?_).conseq (fun _ hs => hs) (fun _ s hs => ?_)
    fun _ s hs => hs.mono fun hn hg => hn (hg task hmem)
  · obtain ⟨planIndex, recordIndex, hread⟩ := hq.read task hmem
    exact hS planIndex recordIndex task payload hread hp
  · obtain ⟨db', r', ⟨hdr, hframe⟩, rfl, rfl⟩ := hs
    have hin : s.standing.inFlight = s₀.inFlight.eraseIdx i := by rw [hframe]
    refine ⟨⟨done ++ [task], hdr, ?_, ?_, ?_, hq.read⟩, ?_⟩
    · rw [hin, List.append_assoc, List.singleton_append]
      exact (hperm.append_left done).trans hq.tasks
    · rw [hframe]
      exact hq.activeIds
    · rw [hframe]
      exact hq.archivePath
    · change s.standing.inFlight.length = n
      rw [hin, List.length_eraseIdx_of_lt hlt]
      omega

/-- A quiet program keeps what holds of database and standing. -/
theorem Quiet.keeps {α : Type} {c : ExecM α} (hc : Quiet env c) {R : Database → Standing → Prop}
    {why : Prop} (hR : ∀ db r, R db r → Undoable before r) :
    Triple (fun s => R s.database s.standing) c (fun _ s => R s.database s.standing)
      fun _ => Aborted env before why := by
  refine Triple.of_state fun s₀ hs₀ => ?_
  refine ((hc s₀.database s₀.standing).conseq (fun s hs => hs ▸ ⟨rfl, rfl⟩) (fun _ s hs => ?_)
    fun _ s hs => ⟨?_, .inl hs.2⟩)
  · rw [hs.1, hs.2]
    exact hs₀
  · rw [hs.1.2]
    exact hR _ _ hs₀

theorem Quiet.running {α : Type} {c : ExecM α} (hc : Quiet env c) {why : Prop} :
    Triple (Running readers env S before db₀ r₀ sub) c
      (fun _ => Running readers env S before db₀ r₀ sub) fun _ => Aborted env before why :=
  hc.keeps (R := fun db r => ∃ done, Drained readers env S before db₀ r₀ done db r ∧
    Queued env sub done r) fun _ _ ⟨_, hd, _⟩ => hd.writing.files.toUndoable

/-- A loop that drains the queue while a condition holds keeps what every drain keeps. -/
theorem drainQueueWhile_spec {I : ExecState → Prop} {E : Exception → ExecState → Prop}
    {busy : ExecState → Bool} {body : ExecM Unit}
    (hbusy : ∀ s, busy s = true → 0 < s.inFlight.length)
    (hbody : ∀ n, Triple (fun s => I s ∧ s.inFlight.length = n + 1) body
      (fun _ s => I s ∧ s.inFlight.length = n) E) :
    Triple I (drainQueueWhile busy body) (fun _ s => I s ∧ busy s = false) E := by
  intro s hs
  refine Triple.drainWhile (fun s => s.inFlight.length) hbusy (fun n => ?_) s.inFlight.length s
    ⟨hs, le_refl _⟩
  exact (hbody n).pre fun s hs => ⟨hs.1, hs.2.2⟩

theorem drainAndCheck_spec (hS : CoversIn readers env S) (pick : Nat → Nat) (n : Nat) :
    Triple (fun s => Running readers env S before db₀ r₀ sub s ∧ s.inFlight.length = n + 1)
      (drainAndCheck readers env pick)
      (fun _ s => Running readers env S before db₀ r₀ sub s ∧ s.inFlight.length = n)
      fun _ => Aborted env before (¬sub.Good readers env before) := by
  refine (drainParsedRecord_spec hS pick true n).bind fun _ => ?_
  exact (quiet_throwIfCancelled _).keeps (R := fun db r => (∃ done,
    Drained readers env S before db₀ r₀ done db r ∧ Queued env sub done r) ∧
      r.inFlight.length = n) fun _ _ ⟨⟨_, hd, _⟩, _⟩ => hd.writing.files.toUndoable

theorem length_pos_of_not_isEmpty {s : ExecState} (h : (!s.inFlight.isEmpty) = true) :
    0 < s.inFlight.length := by
  rw [Bool.not_eq_true', List.isEmpty_eq_false_iff] at h
  exact List.length_pos_of_ne_nil h

theorem submit_eq_some {placed : PlacedPlan} {inpxRecord : InpxRecord} {recordIndex : Nat}
    (hr : ¬(inpxRecord.deleted ∨ ¬inpxRecord.isFb2)) {sub sub' : Submission} :
    submit env placed sub (inpxRecord, recordIndex) = some sub' ↔
      ∃ activeIds actualSizeBytes payloadBytes,
        (insertActiveLibId sub.activeIds inpxRecord.libId env.planningLimits.maxRecords
          ).toOption.join = some activeIds ∧
        (sub.archivePath = placed.plan.resolvedArchivePath ∨
          (env.executionManifest placed.planIndex).result.toOption =
            some placed.plan.archiveManifestFingerprint) ∧
        readPayloadSize env placed.planIndex recordIndex inpxRecord = .ok actualSizeBytes ∧
        (env.entryBytes placed.planIndex recordIndex).result = .ok payloadBytes ∧
        sub' = ⟨activeIds, placed.plan.resolvedArchivePath, sub.tasks ++ [parsedRecordTask
          placed.planIndex recordIndex placed.segmentId inpxRecord actualSizeBytes
          payloadBytes]⟩ := by
  have htoOption : ∀ {α : Type} (x : Except Failure α) (a : α),
      x.toOption = some a ↔ x = .ok a := by
    intro α x a
    cases x <;> simp [Except.toOption]
  rw [submit]
  rw [if_neg hr]
  simp only [Option.bind_eq_bind, Option.bind_eq_some_iff, Option.guard_eq_some', htoOption,
    Option.pure_def, Option.some_inj]
  constructor
  · rintro ⟨ids, hids, _, hpath, size, hsize, bytes, hbytes, he⟩
    exact ⟨ids, size, bytes, hids, hpath, hsize, hbytes, he.symm⟩
  · rintro ⟨ids, size, bytes, hids, hpath, hsize, hbytes, he⟩
    exact ⟨ids, hids, (), hpath, size, hsize, bytes, hbytes, he.symm⟩

theorem tasks_subset_of_submit {placed : PlacedPlan} {r : InpxRecord × Nat} {sub sub' : Submission}
    (h : submit env placed sub r = some sub') : sub.tasks ⊆ sub'.tasks := by
  by_cases hr : r.1.deleted ∨ ¬r.1.isFb2
  · rw [submit] at h
    rw [if_pos hr, Option.some_inj] at h
    rw [h]
    exact List.Subset.refl _
  · obtain ⟨_, _, _, _, _, _, _, rfl⟩ := (submit_eq_some hr).mp h
    exact List.subset_append_left _ _

theorem Submission.Good.of_submit {placed : PlacedPlan} {r : InpxRecord × Nat}
    {sub sub' : Submission} (h : submit env placed sub r = some sub')
    (hg : sub'.Good readers env before) : sub.Good readers env before :=
  fun task ht => hg task (tasks_subset_of_submit h ht)

/-- The loop is somewhere else in its reading, with the same tasks. -/
theorem Running.move {s s' : ExecState} {activeIds : List Bytes} {archivePath : Bytes}
    (h : Running readers env S before db₀ r₀ sub s) (hdb : s'.database = s.database)
    (hs : s'.standing = { s.standing with
      processedActiveIds := activeIds, currentArchivePath := archivePath }) :
    Running readers env S before db₀ r₀ { sub with
      activeIds := activeIds, archivePath := archivePath } s' := by
  obtain ⟨done, hd, hq⟩ := h
  refine ⟨done, hd.congr (by rw [hdb]) (by rw [hs]), ?_, ?_, ?_, hq.read⟩
  · rw [hs]
    exact hq.tasks
  · rw [hs]
  · rw [hs]

theorem Running.undoable {s : ExecState} (h : Running readers env S before db₀ r₀ sub s) :
    Undoable before s.standing := by
  obtain ⟨_, hd, _⟩ := h
  exact hd.writing.files.toUndoable

/-- A LibId is claimed, or it cannot be. -/
theorem claimLibId_spec (libId : Bytes) :
    Triple (Running readers env S before db₀ r₀ sub) (claimLibId env libId)
      (fun _ s => ∃ activeIds,
        (insertActiveLibId sub.activeIds libId env.planningLimits.maxRecords).toOption.join =
          some activeIds ∧
        Running readers env S before db₀ r₀ { sub with activeIds := activeIds } s)
      fun _ => Aborted env before
        ((insertActiveLibId sub.activeIds libId env.planningLimits.maxRecords).toOption.join =
          none) := by
  refine Triple.of_state fun s₀ hs₀ => ?_
  have hids : s₀.processedActiveIds = sub.activeIds := by
    obtain ⟨_, _, hq⟩ := hs₀
    exact hq.activeIds
  rw [claimLibId]
  refine Triple.bind (M := fun t s => t = s₀ ∧ s = s₀) (.get fun s hs => ⟨hs, hs⟩) fun t => ?_
  refine Triple.of_pure fun ht => ?_
  rw [ht, hids]
  cases insertActiveLibId sub.activeIds libId env.planningLimits.maxRecords with
  | error e => exact fun s hs => ⟨hs ▸ hs₀.undoable, .inr (.inr rfl)⟩
  | ok inserted =>
    refine Triple.bind (M := fun a s => a = inserted ∧ s = s₀) (.pure fun s hs => ⟨rfl, hs⟩)
      fun a => Triple.of_pure fun ha => ?_
    subst ha
    cases a with
    | none => exact .throw fun s hs => ⟨hs ▸ hs₀.undoable, .inr (.inr rfl)⟩
    | some ids =>
      refine .modify fun s hs => ⟨ids, rfl, ?_⟩
      rw [hs]
      have hpath : s₀.currentArchivePath = sub.archivePath := by
        obtain ⟨_, _, hq⟩ := hs₀
        exact hq.archivePath
      exact hs₀.move rfl (by rw [← hpath]; rfl)

/-- A program that starts at a known place starts at its database and standing. -/
theorem Triple.of_running {α : Type} {c : ExecM α} {Q : α → ExecState → Prop}
    {E : Exception → ExecState → Prop}
    (h : ∀ s₀, Running readers env S before db₀ r₀ sub s₀ →
      Triple (At s₀.database s₀.standing) c Q E) :
    Triple (Running readers env S before db₀ r₀ sub) c Q E :=
  Triple.of_state fun s₀ hs₀ => (h s₀ hs₀).pre fun _ hs => hs ▸ ⟨rfl, rfl⟩

theorem Running.of_at {s s' : ExecState} (h : Running readers env S before db₀ r₀ sub s)
    (hs : At s.database s.standing s') : Running readers env S before db₀ r₀ sub s' := by
  rw [Running] at h ⊢
  rw [hs.1, hs.2]
  exact h

/-- The archive of a plan is open, with the manifest that was planned. -/
theorem openArchive_spec (hS : CoversIn readers env S) (pick : Nat → Nat) (planIndex : Nat)
    (plan : SegmentPlan) :
    Triple (Running readers env S before db₀ r₀ sub) (openArchive readers env pick planIndex plan)
      (fun _ s => (sub.archivePath = plan.resolvedArchivePath ∨
          (env.executionManifest planIndex).result.toOption =
            some plan.archiveManifestFingerprint) ∧
        Running readers env S before db₀ r₀
          { sub with archivePath := plan.resolvedArchivePath } s)
      fun _ => Aborted env before (¬(sub.archivePath = plan.resolvedArchivePath ∨
          (env.executionManifest planIndex).result.toOption =
            some plan.archiveManifestFingerprint) ∨ ¬sub.Good readers env before) := by
  refine Triple.of_state fun s₀ hs₀ => ?_
  have hpath : s₀.currentArchivePath = sub.archivePath := by
    obtain ⟨_, _, hq⟩ := hs₀
    exact hq.archivePath
  rw [openArchive]
  refine Triple.bind (M := fun t s => t = s₀ ∧ s = s₀) (.get fun s hs => ⟨hs, hs⟩) fun t => ?_
  refine Triple.of_pure fun ht => ?_
  rw [ht, hpath]
  refine .ite (fun he => .pure fun s hs => ⟨.inl he, ?_⟩) fun he => ?_
  · rw [hs, ← he]
    exact hs₀
  refine Triple.bind (M := fun _ => Running readers env S before db₀ r₀ sub) ?_ fun _ => ?_
  · refine (drainQueueWhile_spec (fun _ => length_pos_of_not_isEmpty)
      (drainParsedRecord_spec hS pick true)).conseq (fun s hs => hs ▸ hs₀) (fun _ _ hs => hs.1)
      fun _ _ hs => hs.mono .inr
  refine Triple.of_running fun s₁ hs₁ => ?_
  refine Triple.bind (M := fun _ => At s₁.database s₁.standing) (.modify fun s hs => hs) fun _ => ?_
  refine runCall_bind hs₁.undoable (fun e hr => .inl ?_) fun fingerprint hr => ?_
  · rw [hr]
    rintro (h | h)
    · exact he h
    · cases h
  refine require_bind hs₁.undoable (fun hne => .inl ?_) fun hfp => ?_
  · rw [hr]
    rintro (h | h)
    · exact he h
    · injection h with h
      exact hne h
  refine .modify fun s hs => ⟨.inr (by rw [hr, hfp]; rfl), ?_⟩
  have hids : s.processedActiveIds = sub.activeIds := by
    obtain ⟨_, _, hq⟩ := hs₁.of_at hs
    exact hq.activeIds
  exact (hs₁.of_at hs).move rfl (by rw [← hids]; rfl)

theorem submitTask_spec (task : InFlightParsedRecord)
    (hread : ∃ planIndex recordIndex,
      (env.entryBytes planIndex recordIndex).result = .ok task.payloadBytes)
    {E : Exception → ExecState → Prop} :
    Triple (Running readers env S before db₀ r₀ sub) (submitTask task)
      (fun _ => Running readers env S before db₀ r₀ { sub with tasks := sub.tasks ++ [task] }) E := by
  refine .modify fun s hs => ?_
  obtain ⟨done, hd, hq⟩ := hs
  refine ⟨done, hd.congr rfl rfl, ?_, hq.activeIds, hq.archivePath, fun t ht => ?_⟩
  · change (done ++ (s.inFlight ++ [task])).Perm _
    rw [← List.append_assoc]
    exact hq.tasks.append_right _
  · rcases List.mem_append.mp ht with ht | ht
    · exact hq.read t ht
    · rw [List.mem_singleton.mp ht]
      exact hread

theorem submitRecord_spec (hS : CoversIn readers env S) (pick : Nat → Nat) (placed : PlacedPlan)
    (recordIndex : Nat) {inpxRecord : InpxRecord}
    (hr : ¬(inpxRecord.deleted ∨ ¬inpxRecord.isFb2)) :
    Triple (Running readers env S before db₀ r₀ sub)
      (submitRecord readers env pick placed.planIndex placed.plan placed.segmentId recordIndex
        inpxRecord)
      (fun _ s => ∃ sub', submit env placed sub (inpxRecord, recordIndex) = some sub' ∧
        Running readers env S before db₀ r₀ sub' s)
      fun _ => Aborted env before (∀ sub', submit env placed sub (inpxRecord, recordIndex) =
        some sub' → ¬sub'.Good readers env before) := by
  have hdrain : ∀ sub₁ : Submission, sub₁.tasks = sub.tasks → ∀ {busy : ExecState → Bool},
      (∀ s, busy s = true → 0 < s.inFlight.length) →
      Triple (Running readers env S before db₀ r₀ sub₁)
        (drainQueueWhile busy (drainAndCheck readers env pick))
        (fun _ => Running readers env S before db₀ r₀ sub₁)
        fun _ => Aborted env before (∀ sub', submit env placed sub (inpxRecord, recordIndex) =
          some sub' → ¬sub'.Good readers env before) := by
    intro sub₁ htasks busy hbusy
    refine (drainQueueWhile_spec hbusy (drainAndCheck_spec hS pick)).conseq (fun _ h => h)
      (fun _ _ h => h.1) fun _ _ h => h.mono fun hn sub' hsub hg => hn ?_
    rw [Submission.Good]
    rw [htasks]
    exact Submission.Good.of_submit hsub hg
  rw [submitRecord]
  refine Triple.bind ((claimLibId_spec _).error fun _ _ h => h.mono fun hn sub' hsub => ?_)
    fun _ => Triple.of_exists fun activeIds => Triple.of_pure fun hids => ?_
  · obtain ⟨ids, _, _, hids, _⟩ := (submit_eq_some hr).mp hsub
    rw [hn] at hids
    cases hids
  refine Triple.bind (hdrain { sub with activeIds := activeIds } rfl fun s hs => ?_) fun _ => ?_
  · have hpos := resolveInpxPayloadWorkerWindow_pos env.maxWorkerCount env.hardwareConcurrency
    exact hpos.trans_le (of_decide_eq_true hs)
  refine Triple.bind ((openArchive_spec hS pick placed.planIndex placed.plan).error
    fun _ _ h => h.mono fun hn sub' hsub hg => ?_) fun _ => Triple.of_pure fun hpath => ?_
  · obtain ⟨_, _, _, _, hpath, _⟩ := (submit_eq_some hr).mp hsub
    have hgood : sub.Good readers env before := Submission.Good.of_submit hsub hg
    exact hn.elim (fun hn => hn hpath) fun hn => hn hgood
  refine Triple.of_running fun s₁ hs₁ => ?_
  refine ofFileSystem_bind hs₁.undoable (fun e he sub' hsub => ?_) fun size hsize => ?_
  · obtain ⟨_, _, _, _, _, hsize, _⟩ := (submit_eq_some hr).mp hsub
    rw [he] at hsize
    cases hsize
  refine Triple.pre ?_ fun s hs => hs₁.of_at hs
  refine Triple.bind (hdrain ⟨activeIds, placed.plan.resolvedArchivePath, sub.tasks⟩ rfl
    fun s hs => ?_) fun _ => ?_
  · rw [Bool.and_eq_true] at hs
    exact length_pos_of_not_isEmpty hs.1
  refine Triple.of_running fun s₂ hs₂ => ?_
  refine runCall_bind hs₂.undoable (fun e he sub' hsub => ?_) fun bytes hbytes => ?_
  · obtain ⟨_, _, _, _, _, _, hbytes, _⟩ := (submit_eq_some hr).mp hsub
    rw [he] at hbytes
    cases hbytes
  refine Triple.pre ?_ fun s hs => hs₂.of_at hs
  refine Triple.bind ((quiet_publishSnapshot _).running) fun _ => ?_
  refine (submitTask_spec _ ⟨placed.planIndex, recordIndex, hbytes⟩).post fun _ s hs => ?_
  exact ⟨_, (submit_eq_some hr).mpr ⟨activeIds, size, bytes, hids, hpath, hsize, hbytes, rfl⟩, hs⟩

/-- The body of the loop over the records of a segment follows `submit`. -/
theorem executeRecord_spec (hS : CoversIn readers env S) (pick : Nat → Nat) (placed : PlacedPlan)
    (r : InpxRecord × Nat) (sub : Submission) :
    Triple (Running readers env S before db₀ r₀ sub)
      (executeRecord readers env pick placed.planIndex placed.plan placed.segmentId r.2 r.1)
      (fun _ s => ∃ sub', submit env placed sub r = some sub' ∧
        Running readers env S before db₀ r₀ sub' s)
      fun _ => Aborted env before (∀ sub', submit env placed sub r = some sub' →
        ¬sub'.Good readers env before) := by
  have hskip : r.1.deleted = true ∨ ¬r.1.isFb2 = true → submit env placed sub r = some sub :=
    fun h => if_pos h
  rw [executeRecord]
  refine Triple.bind ((quiet_throwIfCancelled _).running) fun _ => ?_
  refine Triple.bind ((quiet_publishSnapshot _).running) fun _ => ?_
  refine .ite (fun hdel => .pure fun s hs => ⟨sub, hskip (.inl hdel), hs⟩) fun hdel => ?_
  refine .ite (fun hfb2 => ?_) fun hfb2 => ?_
  · exact submitRecord_spec hS pick placed r.2 (by simp [hdel, hfb2])
  · refine Triple.of_running fun s₀ hs₀ => ?_
    refine (publishWarning_spec hs₀.undoable _ _).post fun _ s hs => ?_
    obtain ⟨warnings, hs⟩ := hs
    refine ⟨sub, hskip (.inr hfb2), ?_⟩
    obtain ⟨done, hd, hq⟩ := hs₀
    refine ⟨done, ?_, by rw [hs.2]; exact hq⟩
    rw [hs.1, hs.2]
    exact hd.congr rfl rfl

theorem Submission.Good.of_submitPlan {placed : PlacedPlan} {sub sub' : Submission}
    (h : submitPlan env sub placed = some sub') (hg : sub'.Good readers env before) :
    sub.Good readers env before := by
  rw [submitPlan] at h
  revert sub
  induction placed.plan.records.zipIdx with
  | nil =>
    intro sub h
    injection h with h
    exact h ▸ hg
  | cons r rs ih =>
    intro sub h
    rw [List.foldlM_cons] at h
    obtain ⟨sub₁, h₁, h₂⟩ := Option.bind_eq_some_iff.mp h
    exact Submission.Good.of_submit h₁ (ih h₂)

/-- The body of the loop over the segments follows `submitPlan`. -/
theorem executePlan_spec (hS : CoversIn readers env S) (pick : Nat → Nat) (placed : PlacedPlan)
    (sub : Submission) :
    Triple (Running readers env S before db₀ r₀ sub) (executePlan readers env pick placed)
      (fun _ s => ∃ sub', submitPlan env sub placed = some sub' ∧
        Running readers env S before db₀ r₀ sub' s)
      fun _ => Aborted env before (∀ sub', submitPlan env sub placed = some sub' →
        ¬sub'.Good readers env before) := by
  rw [executePlan]
  refine Triple.bind ((quiet_throwIfCancelled _).running) fun _ => ?_
  exact Triple.forM_foldlM (F := fun why _ => Aborted env before why)
    (fun h _ _ ha => ha.mono h) (executeRecord_spec hS pick placed)
    (fun _ _ _ h hg => Submission.Good.of_submit h hg) _ _

variable (before db₀ r₀) in
/-- The loop: every submitted task is stored, or the run fails. -/
theorem executePlans_spec (hS : CoversIn readers env S) (pick : Nat → Nat)
    (order : List PlacedPlan) (sub : Submission) :
    Triple (Running readers env S before db₀ r₀ sub) (executePlans readers env pick order)
      (fun _ s => ∃ sub', submitPlans env order sub = some sub' ∧ sub'.Good readers env before ∧
        s.inFlight = [] ∧ Running readers env S before db₀ r₀ sub' s)
      fun _ => Aborted env before (∀ sub', submitPlans env order sub = some sub' →
        ¬sub'.Good readers env before) := by
  rw [executePlans]
  refine Triple.tryCatch (F := fun _ => Aborted env before (∀ sub',
    submitPlans env order sub = some sub' → ¬sub'.Good readers env before)) ?_ fun e => ?_
  · refine Triple.bind (Triple.forM_foldlM (F := fun why _ => Aborted env before why)
      (fun h _ _ ha => ha.mono h) (executePlan_spec hS pick)
      (fun _ _ _ h hg => Submission.Good.of_submitPlan h hg) order sub) fun _ =>
      Triple.of_exists fun sub' => Triple.of_pure fun hsub => ?_
    refine (drainQueueWhile_spec (fun _ => length_pos_of_not_isEmpty)
      (drainAndCheck_spec hS pick)).conseq (fun _ h => h) (fun _ s hs => ?_)
      fun _ _ h => h.mono fun hn sub'' hsub'' hg => ?_
    · have hempty : s.inFlight = [] := by simpa using hs.2
      refine ⟨sub', hsub, fun task ht => ?_, hempty, hs.1⟩
      obtain ⟨done, hd, hq⟩ := hs.1
      refine hd.storable task ?_
      rw [← hq.tasks.mem_iff, show s.standing.inFlight = s.inFlight from rfl, hempty,
        List.append_nil] at ht
      exact ht
    · rw [show submitPlans env order sub = some sub' from hsub, Option.some_inj] at hsub''
      exact hn (hsub'' ▸ hg)
  · refine Triple.bind (M := fun _ => Aborted env before (∀ sub',
      submitPlans env order sub = some sub' → ¬sub'.Good readers env before))
      (.modify fun s hs => ⟨?_, hs.2⟩) fun _ => .throw fun _ h => h
    exact ⟨hs.1.committed, hs.1.counterUnderflow, hs.1.sequence, hs.1.fresh, hs.1.kept⟩

end Loop

end InpxWebReader.Scan
