import InpxWebReader.Scan.Planning

/-!
# What the planning decides

`Plans readers db snapshot plans` says what is planned for a snapshot: each of its segments is
either kept, when the catalog has an available segment of the same name and fingerprint, or read
again, and then the plan has the records and the delete markers that the parser hands out; and the
segments that the snapshot does not have any more are removed.
-/

namespace InpxWebReader.Scan

open Foundation Domain Inpx Database Program PlanState

/-! ### Snapshots and their plans -/

/-- The segments of an INPX file, in their order: the name of the entry and its text. -/
abbrev Snapshot := List (Bytes × Bytes)

/-- The segment of an entry that could be read. -/
def segmentOf (entry : ZipEntry) : Option (Bytes × Bytes) :=
  if isSegmentEntry entry then entry.text.result.toOption.map fun bytes => (entry.name, bytes)
  else none

/-- The snapshot that a scan is given. -/
def snapshotOf (env : ScanEnv) : Snapshot :=
  match env.entries with
  | .error _ => []
  | .ok entries => entries.filterMap segmentOf

/-- The records that the parser hands out for a segment. -/
def recordsOf (readers : Readers) (segment : Bytes × Bytes) : List InpxRecord :=
  (readers.parser (segmentPayload readers.sha segment.1 segment.2)).records

/-- The LibIds for which a segment has delete markers. -/
def IsDeleted (readers : Readers) (segment : Bytes × Bytes) (libId : Bytes) : Prop :=
  ∃ inpxRecord ∈ recordsOf readers segment, inpxRecord.deleted = true ∧ inpxRecord.libId = libId

/-- What is planned for the segment at a position of the snapshot. -/
structure PlanOf (readers : Readers) (db : Database) (segment : Bytes × Bytes) (order : Nat)
    (plan : SegmentPlan) : Prop where
  name : plan.payload.inpEntryName = segment.1
  fingerprint : plan.payload.fingerprint = readers.sha.computeBytes segment.2
  order : plan.segmentOrder = order
  notRemoved : plan.change ≠ .removed
  kept : plan.change = .unchanged → ∃ row ∈ db.segments.rows, row.inpEntryName = segment.1 ∧
    row.inpFingerprint = readers.sha.computeBytes segment.2 ∧ row.availability = .available
  records : plan.change ≠ .unchanged → plan.records = recordsOf readers segment
  deletedLibIds : plan.change ≠ .unchanged →
    ∀ libId, libId ∈ plan.deletedLibIds ↔ IsDeleted readers segment libId

/-- What is planned for the segments of a snapshot. -/
structure PlansCurrent (readers : Readers) (db : Database) (snapshot : Snapshot)
    (plans : List SegmentPlan) : Prop where
  names : plans.map (fun plan => plan.payload.inpEntryName) = snapshot.map Prod.fst
  distinct : (snapshot.map Prod.fst).Nodup
  each : ∀ plan ∈ plans, ∃ i segment, snapshot[i]? = some segment ∧
    PlanOf readers db segment i plan
  current : ∀ i segment, snapshot[i]? = some segment → ∃ plan ∈ plans,
    PlanOf readers db segment i plan

structure Plans (readers : Readers) (db : Database) (snapshot : Snapshot)
    (plans : List SegmentPlan) : Prop where
  distinct : (plans.map fun plan => plan.payload.inpEntryName).Nodup
  each : ∀ plan ∈ plans,
    (∃ i segment, snapshot[i]? = some segment ∧ PlanOf readers db segment i plan) ∨
      plan.change = .removed
  current : ∀ i segment, snapshot[i]? = some segment → ∃ plan ∈ plans,
    PlanOf readers db segment i plan
  rows : ∀ row ∈ db.segments.rows, ∃ plan ∈ plans, plan.payload.inpEntryName = row.inpEntryName

/-! ### The plan of one segment -/

/-- The plan after records were kept in it. -/
structure Keeps (plan : SegmentPlan) (rs : List InpxRecord) (plan' : SegmentPlan) : Prop where
  change : plan'.change = plan.change
  payload : plan'.payload = plan.payload
  order : plan'.segmentOrder = plan.segmentOrder
  records : plan'.records = plan.records ++ rs
  deletedLibIds : ∀ libId, libId ∈ plan'.deletedLibIds ↔ libId ∈ plan.deletedLibIds ∨
    ∃ r ∈ rs, r.deleted = true ∧ r.libId = libId

theorem Keeps.nothing (plan plan' : SegmentPlan) (h : plan' = { plan with
    summary := plan'.summary, warnings := plan'.warnings, requiresArchive := plan'.requiresArchive,
    resolvedArchivePath := plan'.resolvedArchivePath, archiveFileState := plan'.archiveFileState,
    archiveManifestFingerprint := plan'.archiveManifestFingerprint,
    archiveOpened := plan'.archiveOpened }) : Keeps plan [] plan' := by
  rw [h]
  exact ⟨rfl, rfl, rfl, (List.append_nil _).symm, fun libId => by simp⟩

theorem Keeps.trans {plan plan' plan'' : SegmentPlan} {rs rs' : List InpxRecord}
    (h : Keeps plan rs plan') (h' : Keeps plan' rs' plan'') : Keeps plan (rs ++ rs') plan'' := by
  refine ⟨h'.change.trans h.change, h'.payload.trans h.payload, h'.order.trans h.order, ?_,
    fun libId => ?_⟩
  · rw [h'.records, h.records, List.append_assoc]
  · rw [h'.deletedLibIds, h.deletedLibIds, or_assoc]
    simp only [List.mem_append, or_and_right, exists_or]

theorem keeps_keepRecord (inpxRecord : InpxRecord) (plan : SegmentPlan) :
    Keeps plan [inpxRecord] (keepRecord inpxRecord plan) := by
  refine ⟨rfl, rfl, rfl, rfl, fun libId => ?_⟩
  simp only [List.mem_singleton, exists_eq_left]
  change libId ∈ (if _ then _ else _) ↔ _
  split
  · next h =>
    rw [List.mem_append, List.mem_singleton]
    exact or_congr_right ⟨fun he => ⟨h.1, he.symm⟩, fun he => he.2.symm⟩
  · next h =>
    refine (or_iff_left_of_imp fun ⟨hd, he⟩ => ?_).symm
    rw [not_and, not_not] at h
    exact he ▸ h hd

/-- A program that plans one segment returns `R`, and leaves the plans made so far alone. -/
def Yields {α : Type} (c : PlanM α) (R : α → Prop) : Prop :=
  ∀ plans names, Triple (fun s : PlanState => s.plans = plans ∧ s.currentSegmentNames = names) c
    (fun a s => R a ∧ s.plans = plans ∧ s.currentSegmentNames = names) fun _ _ => True

section Yields

variable {α β : Type} {R : α → Prop} {M : β → Prop}

theorem Yields.pure {a : α} (h : R a) : Yields (Pure.pure a) R :=
  fun _ _ => .pure fun _ hs => ⟨h, hs⟩

theorem Yields.throw {e : Exception} : Yields (throw e : PlanM α) R :=
  fun _ _ => .throw fun _ _ => trivial

theorem Yields.bind {c : PlanM β} {f : β → PlanM α} (hc : Yields c M)
    (hf : ∀ a, M a → Yields (f a) R) : Yields (c >>= f) R :=
  fun plans names => Triple.bind (hc plans names) fun a => Triple.of_pure fun ha => hf a ha _ _

theorem Yields.seq {c : PlanM β} {f : β → PlanM α} (hc : Yields c fun _ => True)
    (hf : ∀ a, Yields (f a) R) : Yields (c >>= f) R :=
  hc.bind fun a _ => hf a

theorem Yields.mono {c : PlanM α} {R' : α → Prop} (h : Yields c R') (hR : ∀ a, R' a → R a) :
    Yields c R :=
  fun plans names => (h plans names).post fun a _ hs => ⟨hR a hs.1, hs.2⟩

theorem Yields.ite {p : Prop} [Decidable p] {c d : PlanM α} (hc : p → Yields c R)
    (hd : ¬p → Yields d R) : Yields (if p then c else d) R :=
  fun plans names => .ite (fun h => hc h plans names) fun h => hd h plans names

theorem Yields.get_bind {f : PlanState → PlanM α} (hf : ∀ s, Yields (f s) R) :
    Yields (MonadState.get >>= f) R :=
  fun plans names => Triple.bind (M := fun _ s => s.plans = plans ∧ s.currentSegmentNames = names)
    (.get fun _ hs => hs) fun s => hf s plans names

theorem Yields.modify {f : PlanState → PlanState} {R : PUnit → Prop}
    (h : ∀ s, (f s).plans = s.plans ∧ (f s).currentSegmentNames = s.currentSegmentNames)
    (hR : R ⟨⟩) : Yields (modify f) R :=
  fun _ _ s hs => ⟨hR, (h s).1.trans hs.1, (h s).2.trans hs.2⟩

theorem Yields.require {p : Prop} [Decidable p] {e : Exception} :
    Yields (require p e : PlanM Unit) fun _ => p :=
  .ite (fun h => .pure h) fun _ => .throw

theorem Yields.ofExcept {x : Except Exception α} :
    Yields (Program.ofExcept x : PlanM α) fun a => x = .ok a := by
  cases x with
  | ok a => exact .pure rfl
  | error e => exact .throw

theorem yields_check (result : Except Failure Unit) : Yields (check result) fun _ => True :=
  Yields.ofExcept.mono fun _ _ => trivial

theorem Yields.rethrow {c : PlanM α} (hc : Yields c R) (f : Exception → Exception) :
    Yields (tryCatch c fun e => MonadExcept.throw (f e)) R :=
  fun plans names => Triple.tryCatch (F := fun _ _ => True) (hc plans names) fun _ =>
    .throw fun _ _ => trivial

theorem yields_onProgress {c : ProgressM α} (h : Triple (fun _ => True) c (fun a _ => R a)
    fun _ _ => True) : Yields (onProgress c) R :=
  fun _ _ => Triple.zoom fun _ hs => h.conseq (fun _ _ => trivial)
    (fun _ _ ha => ⟨ha, hs⟩) fun _ _ _ => trivial

theorem yields_onLookup (c : LookupM α) : Yields (onLookup c) fun _ => True :=
  fun _ _ => Triple.zoom fun _ hs => fun l _ => by
    cases c l with
    | ok a l' => exact ⟨trivial, hs⟩
    | error e l' => trivial

theorem yields_progress (c : ProgressM α) : Yields (onProgress c) fun _ => True :=
  yields_onProgress fun p _ => by cases c p <;> trivial

theorem yields_runCall {stop : StopRequest} {site : CheckpointSite} (call : Call α) :
    Yields (onProgress (runCall stop site call)) fun a => call.result = .ok a := by
  refine yields_onProgress (Triple.bind (M := fun _ _ => True) (fun p _ => ?_) fun _ => ?_)
  · cases runCheckpoints stop site call.checkpoints p <;> trivial
  · cases call.result with
    | ok a => exact .pure fun _ _ => rfl
    | error e => exact .throw fun _ _ => trivial

end Yields

section Segment

variable {readers : Readers} {env : ScanEnv}

theorem yields_handleParseEvents (events : List ParseEvent) (plan : SegmentPlan) :
    Yields (handleParseEvents env events plan)
      (Keeps plan (ParseTrace.records ⟨events, .ok {}⟩)) := by
  induction events generalizing plan with
  | nil => exact .pure (.nothing _ _ rfl)
  | cons event events ih =>
    cases event with
    | checkpoint => exact .seq (yields_progress _) fun _ => ih plan
    | record inpxRecord =>
      refine .get_bind fun s => .seq (yields_check _) fun _ =>
        .seq (.modify (fun _ => ⟨rfl, rfl⟩) trivial) fun _ => ?_
      exact (ih _).mono fun _ h => (keeps_keepRecord inpxRecord plan).trans h
    | warning warning =>
      rw [handleParseEvents]
      refine .ite (fun _ => .throw) fun _ => .get_bind fun s => .ite (fun _ => ?_) fun _ => ih plan
      refine .seq (.modify (fun _ => ⟨rfl, rfl⟩) trivial) fun _ => ?_
      exact (ih _).mono fun _ h => (Keeps.nothing plan _ rfl).trans h

theorem yields_parseSegment (plan : SegmentPlan) :
    Yields (parseSegment readers env plan) (Keeps plan (readers.parser plan.payload).records) := by
  rw [parseSegment]
  refine (yields_handleParseEvents _ plan).bind fun plan' h => ?_
  refine Yields.ofExcept.bind fun summary _ => .pure ?_
  have hk := h.trans (Keeps.nothing plan' { plan' with summary := summary } rfl)
  rw [List.append_nil] at hk
  exact hk

theorem yields_archiveGuardOf (plan : SegmentPlan) (path : Bytes) :
    Yields (archiveGuardOf env plan path) fun _ => True := by
  rw [archiveGuardOf]
  refine .get_bind fun s => ?_
  cases s.archiveGuards.lookup path with
  | some archiveGuard => exact .pure trivial
  | none =>
    refine .seq (yields_check _) fun _ => .seq (Yields.ofExcept.mono fun _ _ => trivial) fun _ => ?_
    exact .seq (.modify (fun _ => ⟨rfl, rfl⟩) trivial) fun _ => .pure trivial

theorem yields_existingGuard (plan : SegmentPlan) :
    Yields (existingGuard plan) fun _ => True := by
  rw [existingGuard]
  refine .get_bind fun s => ?_
  cases s.archiveGuards.lookup plan.resolvedArchivePath with
  | some archiveGuard => exact .pure trivial
  | none => exact .throw

theorem yields_readArchiveState (plan : SegmentPlan) :
    Yields (readArchiveState env plan) (Keeps plan []) := by
  rw [readArchiveState]
  refine .rethrow (.seq (yields_onLookup _) fun path =>
    .seq (yields_archiveGuardOf _ _) fun _ => ?_) _
  exact .pure (.nothing _ _ rfl)

theorem yields_readArchiveManifest (plan : SegmentPlan) :
    Yields (readArchiveManifest env plan) (Keeps plan []) := by
  rw [readArchiveManifest]
  refine .rethrow (.seq (yields_existingGuard _) fun archiveGuard =>
    .ite (fun _ => ?_) fun _ => ?_) _
  · refine .seq (yields_progress _) fun _ =>
      .seq (.modify (fun _ => ⟨rfl, rfl⟩) trivial) fun _ => ?_
    exact .pure (.nothing _ _ rfl)
  · exact .pure (.nothing _ _ rfl)

theorem yields_validateArchivePayloads (plan : SegmentPlan) :
    Yields (validateArchivePayloads env plan) fun _ => True := by
  rw [validateArchivePayloads]
  refine .rethrow (.seq (yields_existingGuard _) fun archiveGuard =>
    .ite (fun _ => .pure trivial) fun _ => ?_) _
  refine .seq (Yields.require.mono fun _ _ => trivial) fun _ => .seq (yields_progress _) fun _ => ?_
  refine .seq (Yields.require.mono fun _ _ => trivial) fun _ => .seq (yields_progress _) fun _ => ?_
  exact .modify (fun _ => ⟨rfl, rfl⟩) trivial

/-- What is decided about a segment: it is kept, or its records are read. -/
structure Decides (readers : Readers) (kept : Prop) (plan plan' : SegmentPlan) : Prop where
  payload : plan'.payload = plan.payload
  order : plan'.segmentOrder = plan.segmentOrder
  change : (plan'.change = .unchanged ∧ kept) ∨ (plan'.change.isRead = true ∧
    Keeps { plan with change := plan'.change } (readers.parser plan.payload).records plan')

theorem Keeps.decides {kept : Prop} {plan plan₀ plan' : SegmentPlan} (h₀ : Keeps plan [] plan₀)
    (change : SegmentChange) (hread : change.isRead = true)
    (h : Keeps { plan₀ with change := change } (readers.parser plan.payload).records plan') :
    Decides readers kept plan plan' := by
  have hc : plan'.change = change := h.change
  refine ⟨h.payload.trans h₀.payload, h.order.trans h₀.order, .inr ⟨hc ▸ hread, rfl, h.payload.trans
    h₀.payload, h.order.trans h₀.order, ?_, fun libId => ?_⟩⟩
  · rw [h.records]
    change plan₀.records ++ _ = _
    rw [h₀.records, List.append_nil]
  · rw [h.deletedLibIds]
    refine or_congr_left ((h₀.deletedLibIds libId).trans (or_iff_left_of_imp ?_))
    rintro ⟨_, hr, _⟩
    exact absurd hr List.not_mem_nil

theorem yields_planReading (plan : SegmentPlan) :
    Yields (planReading readers env plan) (Keeps plan (readers.parser plan.payload).records) := by
  rw [planReading]
  refine (yields_parseSegment plan).bind fun plan₁ h₁ => .ite (fun _ => ?_) fun _ => .pure h₁
  refine (yields_readArchiveState plan₁).bind fun plan₂ h₂ => ?_
  refine (yields_readArchiveManifest plan₂).mono fun plan₃ h₃ => ?_
  have h := (h₁.trans h₂).trans h₃
  rw [List.append_nil, List.append_nil] at h
  exact h

theorem yields_planReusableArchive (existing : ExistingInpxSegment) (plan : SegmentPlan) :
    Yields (planReusableArchive readers env existing plan) (Decides readers True plan) := by
  rw [planReusableArchive]
  split
  · next existingPath existingManifest _ _ =>
    refine (yields_readArchiveState _).bind fun plan₁ h₁ => .ite (fun _ => ?_) fun _ => ?_
    · exact .pure ⟨h₁.payload, h₁.order, .inl ⟨rfl, trivial⟩⟩
    refine (yields_readArchiveManifest plan₁).bind fun plan₂ h₂ => .ite (fun _ => ?_) fun _ => ?_
    · refine .seq (yields_validateArchivePayloads _) fun _ => .pure ?_
      exact ⟨h₂.payload.trans h₁.payload, h₂.order.trans h₁.order, .inl ⟨rfl, trivial⟩⟩
    · have h : Keeps plan [] plan₂ :=
        (Keeps.nothing plan { plan with requiresArchive := true } rfl).trans
          (h₁.trans h₂)
      refine (yields_parseSegment _).mono fun plan₃ h₃ => h.decides .changed rfl ?_
      rw [← h.payload]
      exact h₃
  · exact .throw

theorem yields_decidePlan (existing : Option ExistingInpxSegment) (plan : SegmentPlan) :
    Yields (decidePlan readers env existing plan)
      (Decides readers (∃ e, existing = some e ∧ canReuseExisting env plan.payload e = true)
        plan) := by
  unfold decidePlan
  cases existing with
  | none =>
    exact (yields_planReading _).mono fun _ h => (Keeps.nothing plan plan rfl).decides _ rfl h
  | some e =>
    refine .ite (fun hreuse => .ite (fun _ => ?_) fun _ => ?_) fun _ => ?_
    · exact (yields_planReusableArchive e plan).mono fun _ h => ⟨h.payload, h.order,
        h.change.imp_left fun hc => ⟨hc.1, e, rfl, hreuse⟩⟩
    · exact .pure ⟨rfl, rfl, .inl ⟨rfl, e, rfl, hreuse⟩⟩
    · exact (yields_planReading _).mono fun _ h => (Keeps.nothing plan plan rfl).decides _ rfl h

end Segment

/-! ### The plans of a snapshot -/

/-- The segments of the catalog that a persistent scan reads. -/
def IsExisting (db : Database) (existingSegments : List ExistingInpxSegment) : Prop :=
  existingSegments.Perm (db.segments.rows.map existingInpxSegment)

theorem isExisting_of_read {env : ScanEnv} {db : Database}
    {existingSegments : List ExistingInpxSegment} (hp : env.persistent = true)
    (h : readExistingInpxSegments env db = .ok existingSegments) :
    IsExisting db existingSegments := by
  rw [readExistingInpxSegments] at h
  rw [if_neg (by simp [hp])] at h
  split at h
  · cases h
  split at h
  · cases h
  injection h with h
  exact h ▸ List.perm_insertionSort ..

section Snapshot

variable {readers : Readers} {env : ScanEnv} {db : Database}
  {existingSegments : List ExistingInpxSegment}

/-- What is decided about a segment of the snapshot is a plan of it. -/
theorem Decides.planOf (hex : IsExisting db existingSegments) {segment : Bytes × Bytes}
    {order : Nat} {existingId : Option Nat} {plan : SegmentPlan}
    (h : Decides readers
      (∃ e, existingSegments.find? (fun e => e.inpEntryName = segment.1) = some e ∧
        canReuseExisting env (segmentPayload readers.sha segment.1 segment.2) e = true)
      { payload := segmentPayload readers.sha segment.1 segment.2
        segmentOrder := order
        existingId := existingId } plan) :
    PlanOf readers db segment order { plan with payload := { plan.payload with bytes := [] } } := by
  obtain ⟨hpayload, horder, hchange⟩ := h
  have hread : plan.change ≠ .unchanged → Keeps
      { payload := segmentPayload readers.sha segment.1 segment.2
        segmentOrder := order
        existingId := existingId
        change := plan.change } (recordsOf readers segment) plan := fun hn =>
    (hchange.resolve_left fun h => hn h.1).2
  refine ⟨?_, ?_, horder, ?_, fun hu => ?_, fun hn => (hread hn).records, fun hn libId => ?_⟩
  · change plan.payload.inpEntryName = _
    rw [hpayload]
    rfl
  · change plan.payload.fingerprint = _
    rw [hpayload]
    rfl
  · intro hr
    change plan.change = .removed at hr
    rcases hchange with h | h
    · rw [hr] at h
      cases h.1
    · rw [hr] at h
      cases h.1
  · change plan.change = .unchanged at hu
    obtain ⟨e, he, hreuse⟩ := (hchange.resolve_right fun h => by rw [hu] at h; cases h.1).2
    obtain ⟨row, hrow, rfl⟩ := List.mem_map.mp (hex.mem_iff.mp (List.mem_of_find?_eq_some he))
    have hname := List.find?_some he
    simp only [canReuseExisting, Bool.and_eq_true, decide_eq_true_eq] at hreuse hname
    exact ⟨row, hrow, hname, hreuse.1.2, hreuse.2⟩
  · exact ((hread hn).deletedLibIds libId).trans
      (or_iff_right_of_imp fun h => absurd h List.not_mem_nil)

theorem PlansCurrent.append {snapshot : Snapshot} {plans : List SegmentPlan}
    (h : PlansCurrent readers db snapshot plans) {segment : Bytes × Bytes} {plan : SegmentPlan}
    (hnew : segment.1 ∉ snapshot.map Prod.fst) (hp : PlanOf readers db segment plans.length plan) :
    PlansCurrent readers db (snapshot ++ [segment]) (plans ++ [plan]) := by
  have hlen : snapshot.length = plans.length := by
    have hl := congrArg List.length h.names
    rw [List.length_map, List.length_map] at hl
    exact hl.symm
  have hlast : (snapshot ++ [segment])[plans.length]? = some segment := by
    rw [← hlen]
    exact List.getElem?_concat_length
  refine ⟨?_, ?_, fun p hpm => ?_, fun i seg hi => ?_⟩
  · rw [List.map_append, List.map_append, h.names]
    change _ ++ [plan.payload.inpEntryName] = _
    rw [hp.name]
    rfl
  · rw [List.map_append]
    exact List.nodup_append.mpr ⟨h.distinct, List.nodup_singleton _, fun a ha b hb =>
      fun he => hnew (List.mem_singleton.mp hb ▸ he ▸ ha)⟩
  · rcases List.mem_append.mp hpm with hm | hm
    · obtain ⟨i, seg, hi, hpo⟩ := h.each p hm
      exact ⟨i, seg, by rw [List.getElem?_append_left (List.getElem?_eq_some_iff.mp hi).1, hi], hpo⟩
    · rw [List.mem_singleton.mp hm]
      exact ⟨_, segment, hlast, hp⟩
  · by_cases hl : i < snapshot.length
    · rw [List.getElem?_append_left hl] at hi
      obtain ⟨p, hpm, hpo⟩ := h.current i seg hi
      exact ⟨p, List.mem_append_left _ hpm, hpo⟩
    · have hlt := (List.getElem?_eq_some_iff.mp hi).1
      rw [List.length_append, List.length_singleton] at hlt
      have hie : i = plans.length := by omega
      subst hie
      rw [hlast] at hi
      injection hi with hi
      exact ⟨plan, List.mem_append_right _ (List.mem_singleton_self _), hi ▸ hp⟩

/-- The planning has come to the end of `snapshot`. -/
def Current (readers : Readers) (db : Database) (snapshot : Snapshot) (s : PlanState) : Prop :=
  PlansCurrent readers db snapshot s.plans ∧ s.currentSegmentNames = snapshot.map Prod.fst

theorem Yields.current {α : Type} {c : PlanM α} {R : α → Prop} (h : Yields c R)
    {snapshot : Snapshot} :
    Triple (Current readers db snapshot) c (fun a s => R a ∧ Current readers db snapshot s)
      fun _ _ => True := by
  refine Triple.of_state fun s₀ hs₀ => ?_
  refine (h s₀.plans s₀.currentSegmentNames).conseq ?_ (fun a s hs => ⟨hs.1, ?_⟩)
    fun _ _ _ => trivial
  · rintro s rfl
    exact ⟨rfl, rfl⟩
  · rw [Current]
    rw [hs.2.1, hs.2.2]
    exact hs₀

theorem planSegment_spec (hex : IsExisting db existingSegments) (snapshot : Snapshot)
    (segment : Bytes × Bytes) :
    Triple (Current readers db snapshot)
      (planSegment readers env existingSegments
        (segmentPayload readers.sha segment.1 segment.2))
      (fun _ => Current readers db (snapshot ++ [segment])) fun _ _ => True := by
  rw [planSegment]
  refine Triple.bind (yields_progress _).current fun _ => Triple.of_pure fun _ => ?_
  refine Triple.of_state fun s₀ hs₀ => ?_
  refine Triple.bind (M := fun t s => t = s₀ ∧ s = s₀) (.get fun s hs => ⟨hs, hs⟩) fun t => ?_
  refine Triple.of_pure fun ht => ?_
  subst ht
  refine Triple.pre (R := fun s => s.plans = t.plans ∧
    s.currentSegmentNames = t.currentSegmentNames) ?_ fun s hs => hs ▸ ⟨rfl, rfl⟩
  refine Triple.bind ((yields_check _) _ _) fun _ => Triple.of_pure fun _ => ?_
  refine Triple.bind (Yields.require _ _) fun _ => Triple.of_pure fun hnew => ?_
  refine Triple.bind (M := fun _ s => s.plans = t.plans ∧
    s.currentSegmentNames = t.currentSegmentNames ++ [segment.1])
    (.modify fun s hs => ⟨hs.1, by rw [hs.2]; rfl⟩) fun _ => ?_
  refine Triple.bind ((yields_decidePlan _ _) _ _) fun plan => Triple.of_pure fun hplan => ?_
  refine .modify fun s hs => ?_
  rw [hs₀.2] at hnew
  have hpo : PlanOf readers db segment _ _ := Decides.planOf hex hplan
  refine ⟨?_, ?_⟩
  · change PlansCurrent readers db _ (s.plans ++ [_])
    rw [hs.1]
    exact hs₀.1.append hnew hpo
  · change s.currentSegmentNames = _
    rw [hs.2, hs₀.2, List.map_append]
    rfl

theorem readSegmentEntries_spec (hex : IsExisting db existingSegments) (entries : List ZipEntry) :
    ∀ segmentCount totalInputBytes snapshot, Triple (Current readers db snapshot)
      (readSegmentEntries readers env existingSegments segmentCount totalInputBytes entries)
      (fun _ => Current readers db (snapshot ++ entries.filterMap segmentOf)) fun _ _ => True := by
  induction entries with
  | nil =>
    intro _ _ snapshot
    rw [List.filterMap_nil, List.append_nil]
    exact .pure fun _ hs => hs
  | cons entry entries ih =>
    intro segmentCount totalInputBytes snapshot
    rw [readSegmentEntries]
    refine Triple.bind (yields_progress _).current fun _ => Triple.of_pure fun _ => ?_
    refine .ite (fun hseg => ?_) fun hseg => ?_
    · refine Triple.bind Yields.require.current fun _ => Triple.of_pure fun _ => ?_
      refine Triple.bind (yields_runCall _).current fun bytes => Triple.of_pure fun hbytes => ?_
      refine Triple.bind (planSegment_spec hex snapshot (entry.name, bytes)) fun _ => ?_
      have hof : segmentOf entry = some (entry.name, bytes) := by
        rw [segmentOf]
        rw [if_pos hseg, hbytes]
        rfl
      rw [List.filterMap_cons_some hof, List.append_cons snapshot _ (entries.filterMap segmentOf)]
      exact ih _ _ _
    · have hof : segmentOf entry = none := if_neg hseg
      rw [List.filterMap_cons_none hof]
      exact ih _ _ _

theorem plansCurrent_nil : PlansCurrent readers db [] [] :=
  ⟨rfl, List.nodup_nil, fun _ h => absurd h List.not_mem_nil, fun i _ hi => by
    rw [List.getElem?_nil] at hi
    cases hi⟩

theorem readSegments_spec (hex : IsExisting db existingSegments) :
    Triple (Current readers db []) (readSegments readers env existingSegments)
      (fun _ => Current readers db (snapshotOf env)) fun _ _ => True := by
  rw [readSegments, snapshotOf]
  refine Triple.bind (yields_progress _).current fun _ => Triple.of_pure fun _ => ?_
  cases env.entries with
  | error e => exact Triple.bind (M := fun _ _ => False) (.throw fun _ _ => trivial) nofun
  | ok entries =>
    refine Triple.bind (M := fun a s => a = entries ∧ Current readers db [] s)
      (.pure fun _ hs => ⟨rfl, hs⟩) fun a => Triple.of_pure fun ha => ?_
    subst ha
    exact readSegmentEntries_spec hex a 0 0 []

/-- The plans for the segments that a snapshot does not have. -/
def removedPlans (snapshot : Snapshot) (existingSegments : List ExistingInpxSegment) :
    List SegmentPlan :=
  (existingSegments.filter fun e => e.inpEntryName ∉ snapshot.map Prod.fst).map removedPlan

theorem planRemovedSegments_spec (snapshot : Snapshot) :
    Triple (Current readers db snapshot) (planRemovedSegments env existingSegments)
      (fun _ s => ∃ plans, PlansCurrent readers db snapshot plans ∧
        s.plans = plans ++ removedPlans snapshot existingSegments)
      fun _ _ => True := by
  rw [planRemovedSegments]
  refine (Triple.pre (Triple.forM (fun done s => ∃ plans, PlansCurrent readers db snapshot plans ∧
    s.plans = plans ++ removedPlans snapshot done ∧
    s.currentSegmentNames = snapshot.map Prod.fst) fun done existing rest _ => ?_)
    fun s hs => ⟨s.plans, hs.1, (List.append_nil _).symm, hs.2⟩).post
      fun _ s ⟨plans, hp, hs, _⟩ => ⟨plans, hp, hs⟩
  refine Triple.of_exists fun plans => Triple.of_pure fun hplans => ?_
  refine Triple.of_state fun s₀ hs₀ => ?_
  refine Triple.bind (M := fun t s => t = s₀ ∧ s = s₀) (.get fun s hs => ⟨hs, hs⟩) fun t => ?_
  refine Triple.of_pure fun ht => ?_
  subst ht
  have hstep : removedPlans snapshot (done ++ [existing]) = removedPlans snapshot done ++
      if existing.inpEntryName ∈ snapshot.map Prod.fst then [] else [removedPlan existing] := by
    rw [removedPlans]
    rw [List.filter_append, List.map_append]
    congr 1
    by_cases hm : existing.inpEntryName ∈ snapshot.map Prod.fst
    · rw [if_pos hm, List.filter_cons_of_neg (by simpa using hm)]
      rfl
    · rw [if_neg hm, List.filter_cons_of_pos (by simpa using hm)]
      rfl
  rw [hs₀.2]
  refine .ite (fun hm => .pure fun s hs => ⟨plans, hplans, ?_⟩) fun hm => ?_
  · rw [hstep, if_pos hm, List.append_nil, hs]
    exact hs₀
  · refine Triple.bind (M := fun _ s => s.plans = t.plans ∧
      s.currentSegmentNames = t.currentSegmentNames) ?_ fun _ => .modify fun s hs => ?_
    · refine Triple.pre ((yields_check _ _ _).post fun _ _ hs => hs.2) ?_
      rintro s rfl
      exact ⟨rfl, rfl⟩
    · refine ⟨plans, hplans, ?_, hs.2.trans hs₀.2⟩
      change s.plans ++ _ = _
      rw [hstep, if_neg hm, hs.1, hs₀.1, List.append_assoc]

/-- The plans of a snapshot, with those for the removed segments. -/
theorem PlansCurrent.withRemoved (hex : IsExisting db existingSegments) {snapshot : Snapshot}
    {plans : List SegmentPlan} (h : PlansCurrent readers db snapshot plans) :
    Plans readers db snapshot (plans ++ removedPlans snapshot existingSegments) := by
  have hnames : (removedPlans snapshot existingSegments).map
      (fun plan => plan.payload.inpEntryName) = (existingSegments.filter fun e =>
        e.inpEntryName ∉ snapshot.map Prod.fst).map ExistingInpxSegment.inpEntryName := by
    rw [removedPlans]
    rw [List.map_map]
    rfl
  refine ⟨?_, fun plan hplan => ?_, fun i segment hi => ?_, fun row hrow => ?_⟩
  · rw [List.map_append, hnames, h.names]
    refine List.nodup_append.mpr ⟨h.distinct, ?_, fun a ha b hb he => ?_⟩
    · have hn : (existingSegments.map ExistingInpxSegment.inpEntryName).Nodup := by
        refine ((hex.map _).nodup_iff).mpr ?_
        rw [List.map_map]
        exact db.segments.name_nodup
      exact hn.sublist (List.filter_sublist.map _)
    · obtain ⟨e, hm, rfl⟩ := List.mem_map.mp hb
      have hnot := (List.mem_filter.mp hm).2
      rw [decide_eq_true_eq] at hnot
      exact hnot (he ▸ ha)
  · rcases List.mem_append.mp hplan with hm | hm
    · exact .inl (h.each plan hm)
    · obtain ⟨e, _, rfl⟩ := List.mem_map.mp hm
      exact .inr rfl
  · obtain ⟨plan, hplan, hpo⟩ := h.current i segment hi
    exact ⟨plan, List.mem_append_left _ hplan, hpo⟩
  · by_cases hm : row.inpEntryName ∈ snapshot.map Prod.fst
    · rw [← h.names] at hm
      obtain ⟨plan, hplan, hname⟩ := List.mem_map.mp hm
      exact ⟨plan, List.mem_append_left _ hplan, hname⟩
    · refine ⟨removedPlan (existingInpxSegment row), List.mem_append_right _ ?_, rfl⟩
      refine List.mem_map_of_mem (List.mem_filter.mpr ⟨?_, decide_eq_true hm⟩)
      exact hex.mem_iff.mpr (List.mem_map_of_mem hrow)

theorem takeSourceSnapshot_yields :
    Yields (takeSourceSnapshot readers env) fun _ => True := by
  rw [takeSourceSnapshot, sourceFingerprintOf]
  refine .seq (yields_progress _) fun _ => .seq ?_ fun _ => ?_
  · cases env.expectedSourceFingerprint with
    | some fingerprint => exact .pure trivial
    | none => exact .seq (yields_progress _) fun _ => .pure trivial
  refine .seq (Yields.ofExcept.mono fun _ _ => trivial) fun _ =>
    .seq (yields_progress _) fun _ => ?_
  refine .seq (Yields.require.mono fun _ _ => trivial) fun _ => .seq (yields_progress _) fun _ => ?_
  exact .pure trivial

theorem planScan_spec (hp : env.persistent = true) :
    Triple (fun s : PlanState => s.plans = [] ∧ s.currentSegmentNames = [])
      (planScan readers env db) (fun _ s => Plans readers db (snapshotOf env) s.plans)
      fun _ _ => True := by
  rw [planScan]
  refine Triple.bind (takeSourceSnapshot_yields _ _) fun fingerprint => Triple.of_pure fun _ => ?_
  refine Triple.bind (yields_progress _ _ _) fun _ => Triple.of_pure fun _ => ?_
  refine Triple.bind (Yields.ofExcept _ _) fun existingSegments => Triple.of_pure fun hread => ?_
  have hex : IsExisting db existingSegments := by
    refine isExisting_of_read hp ?_
    cases hr : readExistingInpxSegments env db with
    | ok e =>
      rw [hr] at hread
      injection hread with hread
      rw [hread]
    | error e =>
      rw [hr] at hread
      cases hread
  refine Triple.bind (yields_progress _ _ _) fun _ => Triple.of_pure fun _ => ?_
  refine Triple.bind ((Yields.ofExcept.mono fun _ _ => trivial : Yields _ fun _ => True) _ _)
    fun _ => Triple.of_pure fun _ => ?_
  refine Triple.pre (R := Current readers db []) ?_ fun s hs => ⟨hs.1 ▸ plansCurrent_nil, hs.2⟩
  refine Triple.bind (readSegments_spec hex) fun _ => ?_
  refine Triple.bind Yields.require.current fun _ => Triple.of_pure fun _ => ?_
  refine Triple.bind (planRemovedSegments_spec (snapshotOf env)) fun _ =>
    Triple.of_exists fun plans => Triple.of_pure fun hplans => ?_
  have hall := hplans.withRemoved hex
  refine Triple.pre (R := fun s => Plans readers db (snapshotOf env) s.plans) ?_
    fun s hs => hs ▸ hall
  have hkeep : ∀ {α : Type} {c : PlanM α} {R : α → Prop}, Yields c R →
      Triple (fun s => Plans readers db (snapshotOf env) s.plans) c
        (fun _ s => Plans readers db (snapshotOf env) s.plans) fun _ _ => True := by
    intro α c R h s hs
    refine ((h s.plans s.currentSegmentNames).post fun _ s' hs' => ?_) s ⟨rfl, rfl⟩
    rw [hs'.2.1]
    exact hs
  refine Triple.bind (M := fun _ s => Plans readers db (snapshotOf env) s.plans)
    (.get fun _ hs => hs) fun s => ?_
  refine Triple.bind (hkeep Yields.require) fun _ => ?_
  refine Triple.bind (hkeep (yields_progress _)) fun _ => ?_
  exact .pure fun _ hs => hs

end Snapshot

end InpxWebReader.Scan
