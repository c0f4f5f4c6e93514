import InpxWebReader.Inpx.Accounting
import InpxWebReader.Scan.Mirror

/-!
# The counts of the segments

The parser hands out every record that it counts, and a scan goes on only past segments none of
whose lines was skipped. So the counts in the row of a segment are those of the records that some
scan read under its fingerprint, also where later scans carried the row over without reading the
segment again.
-/

namespace InpxWebReader.Scan

open Foundation Domain Inpx Storage Database Program PlanState Unicode

/-- The calls but for those of the checkpoint. -/
def withoutCheckpoints (events : List ParseEvent) : List ParseEvent :=
  events.filter fun event => event ≠ .checkpoint

/-- A parser that is `ParseSegment`, wherever it calls its checkpoint. No scan goes past a segment
on which `ParseSegment` never returns, and it stands for one that fails. -/
structure Parses (iconv : Iconv) (parser : Parser) : Prop where
  returns : ∀ segment trace, Inpx.parseSegment iconv segment = some trace →
    (parser segment).outcome = trace.outcome ∧
      withoutCheckpoints (parser segment).events = withoutCheckpoints trace.events
  loops : ∀ segment, Inpx.parseSegment iconv segment = none →
    (parser segment).outcome.isOk = false ∧ withoutCheckpoints (parser segment).events = []

/-- The counts of a summary are those of the records, and no line was skipped. -/
structure CountsRecords (records : List InpxRecord) (summary : InpxParseSummary) : Prop where
  total : summary.totalRecords = records.length
  parsed : summary.parsedRecords = records.length
  deleted : summary.deletedRecords = records.countP InpxRecord.deleted

/-- The counts of a row are those of these records. -/
structure RowCounts (records : List InpxRecord) (row : SegmentRow) : Prop where
  total : row.recordCount = records.length
  active : row.activeRecordCount = records.countP fun r => !r.deleted
  deleted : row.deletedRecordCount = records.countP InpxRecord.deleted

/-- The counts of a row are those of a segment of its name and fingerprint. -/
def RowCounted (readers : Readers) (row : SegmentRow) : Prop :=
  ∃ bytes, readers.sha.computeBytes bytes = row.inpFingerprint ∧
    RowCounts (recordsOf readers (row.inpEntryName, bytes)) row

/-! ### The parser -/

theorem countP_active (records : List InpxRecord) :
    records.countP (fun r => !r.deleted) + records.countP InpxRecord.deleted = records.length := by
  have h := List.length_eq_countP_add_countP InpxRecord.deleted (l := records)
  have hnot : records.countP (fun r => !r.deleted) =
      records.countP fun r => decide ¬r.deleted = true := by
    congr 1
    funext r
    cases r.deleted <;> rfl
  omega

/-- A row counts every record as active or as deleted. -/
theorem RowCounts.sum {records : List InpxRecord} {row : SegmentRow} (h : RowCounts records row) :
    (row.recordCount : Int) = row.activeRecordCount + row.deletedRecordCount := by
  have hsum := countP_active records
  rw [h.total, h.active, h.deleted]
  omega

theorem filterMap_withoutCheckpoints {α : Type} (f : ParseEvent → Option α)
    (hf : f .checkpoint = none) (events : List ParseEvent) :
    (withoutCheckpoints events).filterMap f = events.filterMap f := by
  rw [withoutCheckpoints]
  induction events with
  | nil => rfl
  | cons event events ih =>
    by_cases hc : event = .checkpoint
    · rw [List.filter_cons_of_neg (by simpa using hc), ih, hc, List.filterMap_cons, hf]
    · rw [List.filter_cons_of_pos (by simpa using hc), List.filterMap_cons, List.filterMap_cons, ih]

section Parser

variable {iconv : Iconv} {readers : Readers} {env : ScanEnv}

/-- What a parser hands out of a segment that it accepts. -/
theorem Parses.accepted {parser : Parser} (h : Parses iconv parser)
    {segment : InpxSegmentPayload} {summary : InpxParseSummary}
    (hok : (parser segment).outcome = .ok summary) :
    ∃ trace, Inpx.parseSegment iconv segment = some trace ∧ trace.outcome = .ok summary ∧
      (parser segment).records = trace.records ∧ (parser segment).warnings = trace.warnings := by
  cases htrace : Inpx.parseSegment iconv segment with
  | none =>
    have hnot := (h.loops segment htrace).1
    rw [hok] at hnot
    cases hnot
  | some trace =>
    obtain ⟨houtcome, hevents⟩ := h.returns segment trace htrace
    refine ⟨trace, rfl, houtcome ▸ hok, ?_, ?_⟩
    · rw [ParseTrace.records, ParseTrace.records, ← filterMap_withoutCheckpoints _ rfl, hevents,
        filterMap_withoutCheckpoints _ rfl]
    · rw [ParseTrace.warnings, ParseTrace.warnings, ← filterMap_withoutCheckpoints _ rfl, hevents,
        filterMap_withoutCheckpoints _ rfl]

/-- A summary without skipped lines counts the records. -/
theorem Parses.countsRecords {parser : Parser} (h : Parses iconv parser)
    {segment : InpxSegmentPayload} {summary : InpxParseSummary}
    (hok : (parser segment).outcome = .ok summary)
    (hskipped : skippedWarnings (parser segment).warnings = []) :
    CountsRecords (parser segment).records summary := by
  obtain ⟨trace, htrace, houtcome, hrecords, hwarnings⟩ := h.accepted hok
  rw [hwarnings] at hskipped
  obtain ⟨text, _, haccounts⟩ := parseSegment_accounts htrace houtcome
  have hcounts := haccounts.counts
  have hsum := hcounts.sum
  have hzero := hcounts.skipped
  rw [hskipped, List.length_nil] at hzero
  rw [hrecords]
  refine ⟨?_, hcounts.parsed, hcounts.deleted⟩
  rw [hsum, hzero, hcounts.parsed, Nat.add_zero]

/-! ### The plan of one segment -/

theorem Yields.and {α : Type} {c : PlanM α} {R R' : α → Prop} (h : Yields c R)
    (h' : Yields c R') : Yields c fun a => R a ∧ R' a := by
  intro plans names s hs
  have h₁ := h plans names s hs
  have h₂ := h' plans names s hs
  cases hc : c s with
  | ok a s' =>
    rw [hc] at h₁ h₂
    exact ⟨⟨h₁.1, h₂.1⟩, h₁.2⟩
  | error e s' => trivial

/-- The planning does not go past a warning that a record is skipped. -/
theorem yields_handleParseEvents_noneSkipped (events : List ParseEvent) (plan : SegmentPlan) :
    Yields (handleParseEvents env events plan) fun _ =>
      skippedWarnings (warningsIn events) = [] := by
  induction events generalizing plan with
  | nil => exact .pure rfl
  | cons event events ih =>
    cases event with
    | checkpoint => exact .seq (yields_progress _) fun _ => ih plan
    | record inpxRecord =>
      exact .get_bind fun s => .seq (yields_check _) fun _ =>
        .seq (.modify (fun _ => ⟨rfl, rfl⟩) trivial) fun _ => ih _
    | warning warning =>
      rw [handleParseEvents]
      refine .ite (fun _ => .throw) fun hnot => ?_
      have hskip : ∀ {plan : SegmentPlan}, Yields (handleParseEvents env events plan) fun _ =>
          skippedWarnings (warningsIn (.warning warning :: events)) = [] := by
        intro plan
        refine (ih plan).mono fun _ h => ?_
        rw [← List.singleton_append, warningsIn_append, skippedWarnings_append, h,
          List.append_nil]
        exact List.filter_cons_of_neg hnot
      refine .get_bind fun s => .ite (fun _ => ?_) fun _ => hskip
      exact .seq (.modify (fun _ => ⟨rfl, rfl⟩) trivial) fun _ => hskip

theorem yields_parseSegment_counts (hparser : Parses iconv readers.parser) (plan : SegmentPlan) :
    Yields (parseSegment readers env plan) fun plan' =>
      CountsRecords (readers.parser plan.payload).records plan'.summary := by
  rw [parseSegment]
  refine (yields_handleParseEvents_noneSkipped _ plan).bind fun plan' hskipped => ?_
  refine Yields.ofExcept.bind fun summary hsummary => .pure ?_
  cases hok : (readers.parser plan.payload).outcome with
  | error e =>
    rw [hok] at hsummary
    cases hsummary
  | ok summary' =>
    rw [hok] at hsummary
    injection hsummary with hsummary
    subst hsummary
    exact hparser.countsRecords hok hskipped

theorem yields_readArchiveState_summary (plan : SegmentPlan) :
    Yields (readArchiveState env plan) fun plan' => plan'.summary = plan.summary := by
  rw [readArchiveState]
  refine .rethrow (.seq (yields_onLookup _) fun path =>
    .seq (yields_archiveGuardOf _ _) fun _ => ?_) _
  exact .pure rfl

theorem yields_readArchiveManifest_summary (plan : SegmentPlan) :
    Yields (readArchiveManifest env plan) fun plan' => plan'.summary = plan.summary := by
  rw [readArchiveManifest]
  refine .rethrow (.seq (yields_existingGuard _) fun archiveGuard =>
    .ite (fun _ => ?_) fun _ => ?_) _
  · refine .seq (yields_progress _) fun _ =>
      .seq (.modify (fun _ => ⟨rfl, rfl⟩) trivial) fun _ => ?_
    exact .pure rfl
  · exact .pure rfl

theorem yields_planReading_counts (hparser : Parses iconv readers.parser) (plan : SegmentPlan) :
    Yields (planReading readers env plan) fun plan' =>
      CountsRecords (readers.parser plan.payload).records plan'.summary := by
  rw [planReading]
  refine (yields_parseSegment_counts hparser plan).bind fun plan₁ h₁ =>
    .ite (fun _ => ?_) fun _ => .pure h₁
  refine (yields_readArchiveState_summary plan₁).bind fun plan₂ h₂ => ?_
  refine (yields_readArchiveManifest_summary plan₂).mono fun plan₃ h₃ => ?_
  rw [h₃, h₂]
  exact h₁

/-- The counts of a segment: those of its records, or those of the row it is kept as. -/
structure Counted (readers : Readers) (existing : Option ExistingInpxSegment) (plan : SegmentPlan)
    (plan' : SegmentPlan) : Prop where
  read : plan'.change.isRead = true →
    CountsRecords (readers.parser plan.payload).records plan'.summary
  kept : plan'.change = .unchanged → ∃ e, existing = some e ∧ plan'.summary = e.summary

theorem counted_of_read {existing : Option ExistingInpxSegment} {plan plan' : SegmentPlan}
    (hchange : plan'.change.isRead = true)
    (h : CountsRecords (readers.parser plan.payload).records plan'.summary) :
    Counted readers existing plan plan' := by
  refine ⟨fun _ => h, fun hu => ?_⟩
  rw [hu] at hchange
  cases hchange

theorem counted_of_kept {existing : ExistingInpxSegment} {plan plan' : SegmentPlan}
    (hchange : plan'.change = .unchanged) (h : plan'.summary = existing.summary) :
    Counted readers (some existing) plan plan' := by
  refine ⟨fun hread => ?_, fun _ => ⟨existing, rfl, h⟩⟩
  rw [hchange] at hread
  cases hread

theorem yields_planReusableArchive_counted (hparser : Parses iconv readers.parser)
    (existing : ExistingInpxSegment) (plan : SegmentPlan) :
    Yields (planReusableArchive readers env existing plan)
      (Counted readers (some existing) plan) := by
  rw [planReusableArchive]
  split
  · refine (yields_readArchiveState _).bind fun plan₁ h₁ =>
      .ite (fun _ => .pure (counted_of_kept rfl rfl)) fun _ => ?_
    refine (yields_readArchiveManifest plan₁).bind fun plan₂ h₂ => .ite (fun _ => ?_) fun _ => ?_
    · exact .seq (yields_validateArchivePayloads _) fun _ => .pure (counted_of_kept rfl rfl)
    · refine ((yields_parseSegment _).and (yields_parseSegment_counts hparser _)).mono
        fun plan₃ h₃ => ?_
      have hpayload : plan₂.payload = plan.payload := h₂.payload.trans h₁.payload
      have hcounts := h₃.2
      dsimp only at hcounts
      rw [hpayload] at hcounts
      refine counted_of_read ?_ hcounts
      rw [h₃.1.change]
      rfl
  · exact .throw

theorem yields_decidePlan_counted (hparser : Parses iconv readers.parser)
    (existing : Option ExistingInpxSegment) (plan : SegmentPlan) :
    Yields (decidePlan readers env existing plan) (Counted readers existing plan) := by
  have hread : ∀ change : SegmentChange, change.isRead = true →
      Yields (planReading readers env { plan with change := change })
        (Counted readers existing plan) := by
    intro change hchange
    refine ((yields_planReading _).and (yields_planReading_counts hparser _)).mono fun plan' h => ?_
    refine counted_of_read ?_ h.2
    rw [h.1.change]
    exact hchange
  cases existing with
  | none => exact hread .added rfl
  | some e =>
    rw [decidePlan]
    refine .ite (fun _ => .ite (fun _ => ?_) fun _ => ?_) fun _ => hread .changed rfl
    · exact yields_planReusableArchive_counted hparser e plan
    · exact .pure (counted_of_kept rfl rfl)

end Parser

/-! ### The plans of a snapshot -/

section Plans

variable {readers : Readers} {env : ScanEnv} {db : Database} {Q : SegmentPlan → Prop}
  {existingSegments : List ExistingInpxSegment}

/-- The plans so far satisfy `Q`. -/
def AllPlans (Q : SegmentPlan → Prop) (s : PlanState) : Prop := ∀ plan ∈ s.plans, Q plan

theorem Yields.allPlans {α : Type} {c : PlanM α} {R : α → Prop} (h : Yields c R) :
    Triple (AllPlans Q) c (fun a s => R a ∧ AllPlans Q s) fun _ _ => True := by
  refine Triple.of_state fun s₀ hs₀ => ?_
  refine (h s₀.plans s₀.currentSegmentNames).conseq ?_ (fun a s hs => ⟨hs.1, ?_⟩)
    fun _ _ _ => trivial
  · rintro s rfl
    exact ⟨rfl, rfl⟩
  · intro plan hplan
    rw [hs.2.1] at hplan
    exact hs₀ plan hplan

/-- What the deciding of a segment and the plan of a removed segment have to make true. -/
structure PlansSatisfy (readers : Readers) (env : ScanEnv)
    (existingSegments : List ExistingInpxSegment) (Q : SegmentPlan → Prop) : Prop where
  decided : ∀ (name bytes : Bytes) (order : Nat),
    let existing := existingSegments.find? fun e => e.inpEntryName = name
    Yields (decidePlan readers env existing
      { payload := segmentPayload readers.sha name bytes
        segmentOrder := order
        existingId := existing.map ExistingInpxSegment.id })
      fun plan => Q { plan with payload := { plan.payload with bytes := [] } }
  removed : ∀ existing ∈ existingSegments, Q (removedPlan existing)

theorem planSegment_allPlans (h : PlansSatisfy readers env existingSegments Q)
    (name bytes : Bytes) :
    Triple (AllPlans Q)
      (planSegment readers env existingSegments (segmentPayload readers.sha name bytes))
      (fun _ => AllPlans Q) fun _ _ => True := by
  rw [planSegment]
  refine Triple.bind (yields_progress _).allPlans fun _ => Triple.of_pure fun _ => ?_
  refine Triple.bind (M := fun _ => AllPlans Q) (.get fun s hs => hs) fun t => ?_
  refine Triple.bind (yields_check _).allPlans fun _ => Triple.of_pure fun _ => ?_
  refine Triple.bind Yields.require.allPlans fun _ => Triple.of_pure fun _ => ?_
  refine Triple.bind (M := fun _ => AllPlans Q) (.modify fun s hs => hs) fun _ => ?_
  refine Triple.bind (h.decided name bytes t.plans.length).allPlans fun plan =>
    Triple.of_pure fun hplan => ?_
  refine .modify fun s hs => ?_
  intro p hp
  rcases List.mem_append.mp hp with hp | hp
  · exact hs p hp
  · rw [List.mem_singleton.mp hp]
    exact hplan

theorem readSegmentEntries_allPlans (h : PlansSatisfy readers env existingSegments Q)
    (entries : List ZipEntry) : ∀ segmentCount totalInputBytes, Triple (AllPlans Q)
      (readSegmentEntries readers env existingSegments segmentCount totalInputBytes entries)
      (fun _ => AllPlans Q) fun _ _ => True := by
  induction entries with
  | nil => exact fun _ _ => .pure fun _ hs => hs
  | cons entry entries ih =>
    intro segmentCount totalInputBytes
    rw [readSegmentEntries]
    refine Triple.bind (yields_progress _).allPlans fun _ => Triple.of_pure fun _ => ?_
    refine .ite (fun hseg => ?_) fun hseg => ih _ _
    refine Triple.bind Yields.require.allPlans fun _ => Triple.of_pure fun _ => ?_
    refine Triple.bind (yields_runCall _).allPlans fun bytes => Triple.of_pure fun _ => ?_
    exact Triple.bind (planSegment_allPlans h entry.name bytes) fun _ => ih _ _

theorem planRemovedSegments_allPlans (h : PlansSatisfy readers env existingSegments Q) :
    Triple (AllPlans Q) (planRemovedSegments env existingSegments) (fun _ => AllPlans Q)
      fun _ _ => True := by
  rw [planRemovedSegments]
  refine Triple.forM (fun _ => AllPlans Q) fun done existing rest hsplit => ?_
  refine Triple.bind (M := fun _ => AllPlans Q) (.get fun s hs => hs) fun t => ?_
  refine .ite (fun _ => .pure fun _ hs => hs) fun _ => ?_
  refine Triple.bind (yields_check _).allPlans fun _ => Triple.of_pure fun _ => ?_
  refine .modify fun s hs => ?_
  intro p hp
  rcases List.mem_append.mp hp with hp | hp
  · exact hs p hp
  · rw [List.mem_singleton.mp hp]
    exact h.removed existing (hsplit ▸ List.mem_append_right _ List.mem_cons_self)

/-- What every decided plan and every plan of a removed segment satisfies, all plans satisfy. -/
theorem planScan_allPlans
    (h : ∀ existingSegments, readExistingInpxSegments env db = .ok existingSegments →
      PlansSatisfy readers env existingSegments Q) :
    Triple (AllPlans Q) (planScan readers env db) (fun _ => AllPlans Q) fun _ _ => True := by
  rw [planScan]
  refine Triple.bind takeSourceSnapshot_yields.allPlans fun fingerprint =>
    Triple.of_pure fun _ => ?_
  refine Triple.bind (yields_progress _).allPlans fun _ => Triple.of_pure fun _ => ?_
  refine Triple.bind Yields.ofExcept.allPlans fun existingSegments => Triple.of_pure fun hread => ?_
  have hok : readExistingInpxSegments env db = .ok existingSegments := by
    cases hr : readExistingInpxSegments env db with
    | ok e =>
      rw [hr] at hread
      injection hread with hread
      rw [hread]
    | error e =>
      rw [hr] at hread
      cases hread
  have hall := h existingSegments hok
  refine Triple.bind (yields_progress _).allPlans fun _ => Triple.of_pure fun _ => ?_
  refine Triple.bind (Yields.ofExcept.mono fun _ _ => trivial :
    Yields _ fun _ => True).allPlans fun _ => Triple.of_pure fun _ => ?_
  refine Triple.bind (M := fun _ => AllPlans Q) ?_ fun _ => ?_
  · rw [readSegments]
    refine Triple.bind (yields_progress _).allPlans fun _ => Triple.of_pure fun _ => ?_
    exact Triple.bind (Yields.ofExcept.mono fun _ _ => trivial :
      Yields _ fun _ => True).allPlans fun entries => Triple.of_pure fun _ =>
        readSegmentEntries_allPlans hall entries 0 0
  refine Triple.bind Yields.require.allPlans fun _ => Triple.of_pure fun _ => ?_
  refine Triple.bind (planRemovedSegments_allPlans hall) fun _ => ?_
  refine Triple.bind (M := fun _ => AllPlans Q) (.get fun _ hs => hs) fun s => ?_
  refine Triple.bind Yields.require.allPlans fun _ => Triple.of_pure fun _ => ?_
  refine Triple.bind (yields_progress _).allPlans fun _ => Triple.of_pure fun _ => ?_
  exact .pure fun _ hs => hs

end Plans

/-! ### The rows -/

/-- Where the counts of a plan come from: its records, or the row it keeps. -/
structure PlanCounted (readers : Readers) (db : Database) (plan : SegmentPlan) : Prop where
  read : plan.change.isRead = true → ∃ bytes,
    readers.sha.computeBytes bytes = plan.payload.fingerprint ∧
      plan.records = recordsOf readers (plan.payload.inpEntryName, bytes) ∧
      CountsRecords plan.records plan.summary
  kept : plan.change.isRead = false → ∃ row ∈ db.segments.rows,
    row.inpEntryName = plan.payload.inpEntryName ∧ row.inpFingerprint = plan.payload.fingerprint ∧
      plan.summary = (existingInpxSegment row).summary

section Rows

variable {iconv : Iconv} {readers : Readers} {env : ScanEnv} {db : Database}

theorem mem_existing {existingSegments : List ExistingInpxSegment}
    (h : readExistingInpxSegments env db = .ok existingSegments) :
    ∀ e ∈ existingSegments, ∃ row ∈ db.segments.rows, existingInpxSegment row = e := by
  intro e he
  rw [readExistingInpxSegments] at h
  split at h
  · injection h with h
    subst h
    cases he
  split at h
  · cases h
  split at h
  · cases h
  injection h with h
  subst h
  exact List.mem_map.mp ((List.mem_insertionSort _).mp he)

theorem plansSatisfy_counted (hparser : Parses iconv readers.parser)
    {existingSegments : List ExistingInpxSegment}
    (h : readExistingInpxSegments env db = .ok existingSegments) :
    PlansSatisfy readers env existingSegments (PlanCounted readers db) := by
  refine ⟨?_, ?_⟩
  · intro name bytes order existing
    refine ((yields_decidePlan _ _).and (yields_decidePlan_counted hparser _ _)).mono
      fun plan hplan => ?_
    obtain ⟨hdecides, hcounted⟩ := hplan
    have hpayload := hdecides.payload
    refine ⟨fun hread => ⟨bytes, ?_, ?_⟩, fun hnot => ?_⟩
    · change _ = plan.payload.fingerprint
      rw [hpayload]
      rfl
    · change plan.change.isRead = true at hread
      have hrecords := (hdecides.change.resolve_left fun hu => by
        rw [hu.1] at hread
        cases hread).2.records
      change plan.records = recordsOf readers (plan.payload.inpEntryName, bytes) ∧
        CountsRecords plan.records plan.summary
      rw [hrecords, hpayload]
      exact ⟨rfl, hcounted.read hread⟩
    · change plan.change.isRead = false at hnot
      obtain ⟨hu, e, he, hreuse⟩ := hdecides.change.resolve_right fun hr => by
        rw [hnot] at hr
        cases hr.1
      obtain ⟨e', he', hsummary⟩ := hcounted.kept hu
      obtain rfl : e = e' := Option.some_inj.mp (he.symm.trans he')
      obtain ⟨row, hrow, rfl⟩ := mem_existing h e (List.mem_of_find?_eq_some he)
      have hname := List.find?_some he
      simp only [canReuseExisting, Bool.and_eq_true, decide_eq_true_eq] at hreuse hname
      refine ⟨row, hrow, ?_, ?_, hsummary⟩
      · change _ = plan.payload.inpEntryName
        rw [hpayload]
        exact hname
      · change _ = plan.payload.fingerprint
        rw [hpayload]
        exact hreuse.1.2
  · intro existing he
    obtain ⟨row, hrow, rfl⟩ := mem_existing h existing he
    exact ⟨(fun hread => by cases hread), fun _ => ⟨row, hrow, rfl, rfl, rfl⟩⟩

theorem planScan_counted (hparser : Parses iconv readers.parser) {fingerprint : Bytes}
    {s : PlanState} (h : planScan readers env db (.start env) = .ok fingerprint s) :
    ∀ plan ∈ s.plans, PlanCounted readers db plan :=
  (planScan_allPlans fun _ hread => plansSatisfy_counted hparser hread).ok
    (fun _ hplan => absurd hplan List.not_mem_nil) h

/-- The row of a plan that was read has the counts of the records. -/
theorem rowCounts_upsertedRow {plan : SegmentPlan} {records : List InpxRecord}
    (h : CountsRecords records plan.summary) (scanId : Bytes) (segmentId : Nat) :
    RowCounts records (upsertedRow scanId plan segmentId) := by
  have hsum := countP_active records
  refine ⟨h.total, ?_, h.deleted⟩
  change (plan.summary.parsedRecords : Int) - plan.summary.deletedRecords = _
  rw [h.parsed, h.deleted]
  omega

/-- The row of a plan that keeps a row has the counts of that row. -/
theorem rowCounts_kept {plan : SegmentPlan} {row : SegmentRow} {records : List InpxRecord}
    (hsummary : plan.summary = (existingInpxSegment row).summary) (h : RowCounts records row)
    (scanId : Bytes) (segmentId : Nat) :
    RowCounts records (upsertedRow scanId plan segmentId) := by
  refine ⟨?_, ?_, ?_⟩
  · change plan.summary.totalRecords = _
    rw [hsummary]
    exact h.total
  · change (plan.summary.parsedRecords : Int) - plan.summary.deletedRecords = _
    rw [hsummary]
    change ((row.activeRecordCount.toNat + row.deletedRecordCount : Nat) : Int) -
      row.deletedRecordCount = _
    rw [h.active]
    omega
  · change plan.summary.deletedRecords = _
    rw [hsummary]
    exact h.deleted

theorem PlanCounted.rowCounted {plan : SegmentPlan} (h : PlanCounted readers db plan)
    (hdb : ∀ row ∈ db.segments.rows, RowCounted readers row) (scanId : Bytes) (segmentId : Nat) :
    RowCounted readers (upsertedRow scanId plan segmentId) := by
  cases hread : plan.change.isRead with
  | true =>
    obtain ⟨bytes, hfingerprint, hrecords, hcounts⟩ := h.read hread
    rw [hrecords] at hcounts
    exact ⟨bytes, hfingerprint, rowCounts_upsertedRow hcounts scanId segmentId⟩
  | false =>
    obtain ⟨row, hrow, hname, hfingerprint, hsummary⟩ := h.kept hread
    obtain ⟨bytes, hbytes, hcounts⟩ := hdb row hrow
    rw [hname] at hcounts
    exact ⟨bytes, hbytes.trans hfingerprint, rowCounts_kept hsummary hcounts scanId segmentId⟩

end Rows

/-! ### Scan after scan -/

section Reachable

variable {iconv : Iconv} {readers : Readers} {S : Set Bytes} {service : Service}

theorem Reachable.rowCounted (hparser : Parses iconv readers.parser)
    (h : Reachable readers S service) :
    ∀ row ∈ service.world.database.segments.rows, RowCounted readers row := by
  induction h with
  | start source inpxSourceSizeBytes covers => exact fun _ hrow => absurd hrow List.not_mem_nil
  | @scan service h env pick contents ih =>
    intro row hrow
    rcases (runScan_spec contents.covers h.sound pick).2 with ⟨_, hr⟩ | ⟨_, hp⟩
    · change row ∈ (runScan readers env pick service.world).world.database.segments.rows at hrow
      rw [hr.database] at hrow
      exact ih row hrow
    · obtain ⟨_, s, segmentIds, hplan, hrescans, _⟩ := hp.rescans_plans
      obtain ⟨plan, hz, hup⟩ := hrescans.row_cases hrow
      rw [hup]
      exact (planScan_counted hparser hplan plan (List.of_mem_zip hz).1).rowCounted ih _ _
  | restart h ih => exact ih

/-- Every line of a segment that is accepted is one record or one warning that skips it, and the
counts are those of the lines, the records and the warnings. The counts that a scan persists are
those of the records it reads, and they stay the counts of such records in every later scan. -/
theorem segments_accounted (iconv : Iconv) (readers : Readers) (service : Service)
    (hparser : Parses iconv readers.parser) (h : Reachable readers Set.univ service) :
    (∀ segment trace summary, Inpx.parseSegment iconv segment = some trace →
      trace.outcome = .ok summary →
        ∃ text, decodeInpPayloadToUtf8 iconv segment.bytes = .ok text ∧
          Accounts text trace summary) ∧
    (∀ row ∈ service.world.database.segments.rows, RowCounted readers row ∧
      (row.recordCount : Int) = row.activeRecordCount + row.deletedRecordCount) ∧
    ∀ env pick, (runScan readers env pick service.world).committed = true →
      ∃ sourceFingerprint s,
        planScan readers env service.world.database (.start env) = .ok sourceFingerprint s ∧
        ∀ plan ∈ s.plans, plan.change.isRead = true →
          CountsRecords plan.records plan.summary ∧
          ∃ row ∈ (runScan readers env pick service.world).world.database.segments.rows,
            row.inpEntryName = plan.payload.inpEntryName ∧ RowCounts plan.records row := by
  refine ⟨fun segment trace summary => parseSegment_accounts, fun row hrow => ?_,
    fun env pick hcommitted => ?_⟩
  · have hcounted := h.rowCounted hparser row hrow
    obtain ⟨_, _, hcounts⟩ := id hcounted
    exact ⟨hcounted, hcounts.sum⟩
  · have hp := (runScan_spec (coversIn_univ readers env) h.sound pick).2.resolve_left fun hr => by
      rw [hcommitted] at hr
      cases hr.1
    obtain ⟨fingerprint, s, segmentIds, hplan, hrescans, _⟩ := hp.2.rescans_plans
    refine ⟨fingerprint, s, hplan, fun plan hmem hread => ?_⟩
    obtain ⟨bytes, hfingerprint, hrecords, hcounts⟩ :=
      (planScan_counted hparser hplan plan hmem).read hread
    obtain ⟨segmentId, hz⟩ := mem_zip_left hrescans.upserted.length hmem
    exact ⟨hcounts, _, (Table.find?_eq_some.mp (hrescans.upserted.each _ hz).row).1, rfl,
      rowCounts_upsertedRow hcounts _ segmentId⟩

end Reachable

/-- The parser of the program, on a system without conversions. -/
def plainParser : Parser := fun segment =>
  (Inpx.parseSegment noConversion segment).getD ⟨[], .error .nonStandard⟩

theorem plainParser_parses : Parses noConversion plainParser where
  returns segment trace htrace := by rw [plainParser, htrace]; exact ⟨rfl, rfl⟩
  loops segment hnone := by rw [plainParser, hnone]; exact ⟨rfl, rfl⟩

/-- The readings of the examples, with the parser of the program. -/
def parsingReaders : Readers := { sampleReaders with parser := plainParser }

/-- The service after this parser read the first snapshot. -/
def parsedService : Service :=
  Service.afterScan parsingReaders firstEnv (fun _ => 0) { world := emptyWorld }

theorem parsedService_accounted :
    parsedService.world.database.segments.rows.map SegmentRow.recordCount = [1] ∧
      ∀ row ∈ parsedService.world.database.segments.rows, RowCounted parsingReaders row ∧
        (row.recordCount : Int) = row.activeRecordCount + row.deletedRecordCount := by
  have hstart : Reachable parsingReaders Set.univ { world := emptyWorld } := .start _ 0 _
  have h : Reachable parsingReaders Set.univ parsedService :=
    hstart.scan firstEnv (fun _ => 0) (contentsIn_univ _ _)
  exact ⟨by decide +kernel, (segments_accounted _ parsingReaders parsedService plainParser_parses h).2.1⟩

end InpxWebReader.Scan
