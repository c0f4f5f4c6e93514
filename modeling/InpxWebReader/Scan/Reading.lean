import InpxWebReader.Scan.RunSpec

/-!
# What a scan reads

The rows and delete markers of the segments once a scan upserted them, and the records it submits:
those of the segments that it reads again, in books that can be opened, each LibId once and none
that an unchanged segment still has.
-/

namespace InpxWebReader.Scan

open Foundation Domain Inpx Storage Database Program ExecState

/-! ### The segments -/

def upsertedRow (scanId : Bytes) (plan : SegmentPlan) (segmentId : Nat) : SegmentRow :=
  { segmentRow scanId plan with id := segmentId }

/-- The segment of a plan after all the plans were upserted. -/
structure SegmentUpserted (scanId : Bytes) (db db' : Database) (plan : SegmentPlan)
    (segmentId : Nat) : Prop where
  row : db'.segments.find? segmentId = some (upsertedRow scanId plan segmentId)
  id : ∀ row ∈ db.segments.rows, row.inpEntryName = plan.payload.inpEntryName → row.id = segmentId
  deletions : ∀ libId, ⟨segmentId, libId⟩ ∈ db'.deletions.rows ↔
    if plan.change = .unchanged then ⟨segmentId, libId⟩ ∈ db.deletions.rows
    else plan.change ≠ .removed ∧ libId ∈ plan.deletedLibIds

structure SegmentsUpserted (scanId : Bytes) (plans : List SegmentPlan) (segmentIds : List Nat)
    (db db' : Database) : Prop where
  length : segmentIds.length = plans.length
  distinct : segmentIds.Nodup
  each : ∀ p ∈ plans.zip segmentIds, SegmentUpserted scanId db db' p.1 p.2
  segments : ∀ k ∉ segmentIds, db'.segments.find? k = db.segments.find? k
  deletions : ∀ d : DeletionRow, d.segmentId ∉ segmentIds →
    (d ∈ db'.deletions.rows ↔ d ∈ db.deletions.rows)

section Segments

variable {scanId : Bytes} {plan : SegmentPlan} {plans : List SegmentPlan} {segmentId k : Nat}
  {segmentIds : List Nat} {db db' : Database} {row : SegmentRow}

theorem segmentIdOf_ne (hrow : db.segments.find? k = some row) {name : Bytes}
    (hname : row.inpEntryName ≠ name) : segmentIdOf db name ≠ k := by
  obtain ⟨hmem, hkey⟩ := Table.find?_eq_some.mp hrow
  rw [segmentIdOf]
  cases hf : db.segments.findBy? name with
  | none =>
    intro he
    exact Table.nextId_ne hmem (hkey.trans he.symm)
  | some row' =>
    obtain ⟨hmem', hname'⟩ := Table.findBy?_eq_some.mp hf
    intro he
    exact hname (Table.key_inj hmem' hmem (he.trans hkey.symm) ▸ hname')

theorem segmentIdOf_eq (hrow : row ∈ db.segments.rows) :
    segmentIdOf db row.inpEntryName = row.id := by
  rw [segmentIdOf]
  rw [Table.findBy?_eq_some.mpr ⟨hrow, rfl⟩]
  rfl

theorem Upserts.keep (h : Upserts scanId plan segmentId db db')
    (hrow : db.segments.find? k = some row)
    (hname : row.inpEntryName ≠ plan.payload.inpEntryName) :
    segmentId ≠ k ∧ db'.segments.find? k = some row := by
  have hne : segmentId ≠ k := h.id ▸ segmentIdOf_ne hrow hname
  refine ⟨hne, ?_⟩
  rw [h.segments, if_neg hne]
  exact hrow

theorem UpsertsAll.keep (h : UpsertsAll scanId plans segmentIds db db')
    (hrow : db.segments.find? k = some row)
    (hname : row.inpEntryName ∉ plans.map fun plan => plan.payload.inpEntryName) :
    k ∉ segmentIds ∧ db'.segments.find? k = some row := by
  induction h with
  | nil db => exact ⟨List.not_mem_nil, hrow⟩
  | cons h _ ih =>
    rw [List.map_cons, List.mem_cons, not_or] at hname
    obtain ⟨hne, hrow₁⟩ := h.keep hrow hname.1
    obtain ⟨hnot, hrow₂⟩ := ih hrow₁ hname.2
    exact ⟨fun hm => (List.mem_cons.mp hm).elim (fun he => hne he.symm) hnot, hrow₂⟩

/-- What upserting the plans does to the segments, when their names are distinct. -/
theorem UpsertsAll.spec (h : UpsertsAll scanId plans segmentIds db db')
    (hnames : (plans.map fun plan => plan.payload.inpEntryName).Nodup) :
    SegmentsUpserted scanId plans segmentIds db db' := by
  induction h with
  | nil db =>
    exact ⟨rfl, List.nodup_nil, fun p hp => absurd hp List.not_mem_nil, fun _ _ => rfl,
      fun _ _ => Iff.rfl⟩
  | @cons plan plans segmentId segmentIds db db₁ db₂ h hs ih =>
    rw [List.map_cons, List.nodup_cons] at hnames
    have ih := ih hnames.2
    have hrow₁ : db₁.segments.find? segmentId = some (upsertedRow scanId plan segmentId) := by
      rw [h.segments, if_pos rfl]
      rfl
    obtain ⟨hnot, hrow₂⟩ := hs.keep hrow₁ hnames.1
    refine ⟨congrArg (· + 1) ih.length, List.nodup_cons.mpr ⟨hnot, ih.distinct⟩, ?_, ?_, ?_⟩
    · intro p hp
      rw [List.zip_cons_cons] at hp
      rcases List.mem_cons.mp hp with rfl | hp
      · refine ⟨hrow₂, fun row hrow hname => ?_, fun libId => ?_⟩
        · rw [h.id, ← hname]
          exact (segmentIdOf_eq hrow).symm
        · rw [ih.deletions _ hnot, h.deletions]
          by_cases hu : plan.change = .unchanged
          · rw [if_neg fun hc => hc.2 hu, if_pos hu]
          · rw [if_pos ⟨rfl, hu⟩, if_neg hu]
      · have hp' := ih.each p hp
        have hmem := List.of_mem_zip hp
        have hnamep : p.1.payload.inpEntryName ≠ plan.payload.inpEntryName := fun he =>
          hnames.1 (he ▸ List.mem_map_of_mem hmem.1)
        have hidp : p.2 ≠ segmentId := fun he => hnot (he ▸ hmem.2)
        refine ⟨hp'.row, fun row hrow hname => ?_, fun libId => ?_⟩
        · have hfind : db.segments.find? row.id = some row :=
            Table.find?_eq_some.mpr ⟨hrow, rfl⟩
          have hkeep := (h.keep hfind (hname ▸ hnamep)).2
          exact hp'.id row (Table.find?_eq_some.mp hkeep).1 hname
        · have hd : (⟨p.2, libId⟩ : DeletionRow) ∈ db₁.deletions.rows ↔
              ⟨p.2, libId⟩ ∈ db.deletions.rows := by
            rw [h.deletions, if_neg fun hc => hidp hc.1]
          rw [hp'.deletions, hd]
    · intro k hk
      rw [List.mem_cons, not_or] at hk
      rw [ih.segments k hk.2, h.segments, if_neg fun he => hk.1 he.symm]
    · intro d hd
      rw [List.mem_cons, not_or] at hd
      rw [ih.deletions d hd.2, h.deletions, if_neg fun hc => hd.1 hc.1]

end Segments

/-! ### The records -/

/-- A record of a book that can be opened. -/
def isActive (inpxRecord : InpxRecord) : Bool := !inpxRecord.deleted && inpxRecord.isFb2

/-- The segment, the LibId and the place of a record. -/
structure RecordKey where
  segmentId : Nat
  libId : Bytes
  archiveName : Bytes
  entryName : Bytes

def recordKey (segmentId : Nat) (inpxRecord : InpxRecord) : RecordKey :=
  ⟨segmentId, inpxRecord.libId, inpxRecord.archiveName, inpxRecord.entryName⟩

def taskKey (task : InFlightParsedRecord) : RecordKey := recordKey task.segmentId task.inpxRecord

/-- The keys of the active records of a segment. -/
def activeKeys (segmentId : Nat) (records : List InpxRecord) : List RecordKey :=
  (records.filter isActive).map (recordKey segmentId)

/-- Tasks of these keys were submitted. -/
structure Submits (sub : Submission) (keys : List RecordKey) (sub' : Submission) : Prop where
  tasks : sub'.tasks.map taskKey = sub.tasks.map taskKey ++ keys
  activeIds : sub'.activeIds = sub.activeIds ++ keys.map RecordKey.libId
  distinct : sub.activeIds.Nodup → sub'.activeIds.Nodup

section Records

variable {env : ScanEnv} {placed : PlacedPlan} {sub sub' sub'' : Submission}
  {keys keys' : List RecordKey}

theorem Submits.refl (sub : Submission) : Submits sub [] sub :=
  ⟨(List.append_nil _).symm, (List.append_nil _).symm, id⟩

theorem Submits.trans (h : Submits sub keys sub') (h' : Submits sub' keys' sub'') :
    Submits sub (keys ++ keys') sub'' := by
  refine ⟨?_, ?_, fun hn => h'.distinct (h.distinct hn)⟩
  · rw [h'.tasks, h.tasks, List.append_assoc]
  · rw [h'.activeIds, h.activeIds, List.map_append, List.append_assoc]

theorem Submits.foldlM {α : Type} {f : Submission → α → Option Submission}
    {keys : α → List RecordKey} (hf : ∀ x sub sub', f sub x = some sub' → Submits sub (keys x) sub')
    {xs : List α} (h : xs.foldlM f sub = some sub') : Submits sub (xs.flatMap keys) sub' := by
  induction xs generalizing sub with
  | nil =>
    injection h with h
    exact h ▸ .refl sub
  | cons x xs ih =>
    rw [List.foldlM_cons] at h
    obtain ⟨sub₁, h₁, h₂⟩ := Option.bind_eq_some_iff.mp h
    rw [List.flatMap_cons]
    exact (hf x sub sub₁ h₁).trans (ih h₂)

theorem insertActiveLibId_eq_some {ids ids' : List Bytes} {libId : Bytes} {maxRecords : Nat}
    (h : (insertActiveLibId ids libId maxRecords).toOption.join = some ids') :
    libId ∉ ids ∧ ids' = ids ++ [libId] := by
  rw [insertActiveLibId] at h
  split at h
  · cases h
  · next hnot =>
    refine ⟨hnot, ?_⟩
    cases hr : requireCollectionRoom ids.length maxRecords "active LibId index" with
    | error e =>
      rw [hr] at h
      cases h
    | ok _ =>
      rw [hr] at h
      injection h with h
      exact h.symm

theorem submits_submit {r : InpxRecord × Nat} (h : submit env placed sub r = some sub') :
    Submits sub (activeKeys placed.segmentId [r.1]) sub' := by
  by_cases hr : r.1.deleted ∨ ¬r.1.isFb2
  · have hactive : isActive r.1 = false := by
      rw [isActive]
      rcases hr with hr | hr
      · rw [hr]
        rfl
      · rw [Bool.not_eq_true] at hr
        rw [hr, Bool.and_false]
    rw [submit] at h
    rw [if_pos hr, Option.some_inj] at h
    rw [activeKeys]
    rw [List.filter_cons_of_neg (by rw [hactive]; decide)]
    exact h ▸ .refl sub
  · have hactive : isActive r.1 = true := by
      rw [not_or, not_not, Bool.not_eq_true] at hr
      rw [isActive]
      rw [hr.1, hr.2]
      rfl
    obtain ⟨activeIds, size, bytes, hids, _, _, _, rfl⟩ := (submit_eq_some hr).mp h
    obtain ⟨hnot, rfl⟩ := insertActiveLibId_eq_some hids
    rw [activeKeys]
    rw [List.filter_cons_of_pos hactive]
    refine ⟨?_, rfl, fun hn => ?_⟩
    · rw [List.map_append]
      rfl
    · exact List.nodup_append.mpr ⟨hn, List.nodup_singleton _, fun a ha b hb he =>
        hnot (List.mem_singleton.mp hb ▸ he ▸ ha)⟩

theorem submits_submitPlan (h : submitPlan env sub placed = some sub') :
    Submits sub (activeKeys placed.segmentId placed.plan.records) sub' := by
  rw [submitPlan] at h
  have hs := Submits.foldlM (f := submit env placed)
    (fun r _ _ hr => submits_submit (r := r) hr) h
  have hkeys : (placed.plan.records.zipIdx.flatMap fun r =>
      activeKeys placed.segmentId [r.1]) = activeKeys placed.segmentId placed.plan.records := by
    unfold activeKeys
    rw [← List.flatMap_map Prod.fst fun r => ([r].filter isActive).map _, List.zipIdx_map_fst]
    induction placed.plan.records with
    | nil => rfl
    | cons r rs ih =>
      rw [List.flatMap_cons, ih, ← List.map_append, ← List.filter_append]
      rfl
  rw [← hkeys]
  exact hs

theorem submits_submitPlans {order : List PlacedPlan} (h : submitPlans env order sub = some sub') :
    Submits sub (order.flatMap fun placed => activeKeys placed.segmentId placed.plan.records)
      sub' := by
  rw [submitPlans] at h
  exact Submits.foldlM (f := submitPlan env) (fun _ _ _ hp => submits_submitPlan hp) h

theorem mem_activeKeys {segmentId : Nat} {records : List InpxRecord} {key : RecordKey} :
    key ∈ activeKeys segmentId records ↔
      ∃ inpxRecord ∈ records, isActive inpxRecord = true ∧ recordKey segmentId inpxRecord = key := by
  rw [activeKeys]
  rw [List.mem_map]
  simp only [List.mem_filter, and_assoc]

end Records

/-! ### The order of execution -/

section Order

variable {plans : List SegmentPlan} {segmentIds : List Nat} {plan : SegmentPlan} {segmentId : Nat}

theorem mem_placedPlans : (∃ placed ∈ placedPlans plans segmentIds, placed.plan = plan ∧
    placed.segmentId = segmentId) ↔ (plan, segmentId) ∈ plans.zip segmentIds := by
  rw [placedPlans]
  constructor
  · rintro ⟨placed, hm, rfl, rfl⟩
    obtain ⟨p, hp, rfl⟩ := List.mem_map.mp hm
    exact List.mem_of_getElem? (List.mem_zipIdx_iff_getElem?.mp hp)
  · intro hm
    obtain ⟨i, hi⟩ := List.mem_iff_getElem?.mp hm
    exact ⟨⟨plan, i, segmentId⟩, List.mem_map.mpr
      ⟨((plan, segmentId), i), List.mem_zipIdx_iff_getElem?.mpr hi, rfl⟩, rfl, rfl⟩

theorem mem_executionOrder : (∃ placed ∈ executionOrder (placedPlans plans segmentIds),
    placed.plan = plan ∧ placed.segmentId = segmentId) ↔
      (plan, segmentId) ∈ plans.zip segmentIds ∧ plan.change.isRead = true := by
  rw [← mem_placedPlans]
  rw [executionOrder]
  constructor
  · rintro ⟨placed, hm, rfl, rfl⟩
    obtain ⟨hm, hread⟩ := List.mem_filter.mp ((List.mem_insertionSort _).mp hm)
    exact ⟨⟨placed, hm, rfl, rfl⟩, hread⟩
  · rintro ⟨⟨placed, hm, rfl, rfl⟩, hread⟩
    exact ⟨placed, (List.mem_insertionSort _).mpr (List.mem_filter.mpr ⟨hm, hread⟩), rfl, rfl⟩

theorem mem_changedSegmentIds : segmentId ∈ changedSegmentIds (placedPlans plans segmentIds) ↔
    ∃ plan, (plan, segmentId) ∈ plans.zip segmentIds ∧ plan.change.isRead = true := by
  rw [changedSegmentIds]
  rw [List.mem_map]
  constructor
  · rintro ⟨placed, hm, rfl⟩
    obtain ⟨hm, hread⟩ := List.mem_filter.mp hm
    exact ⟨placed.plan, mem_placedPlans.mp ⟨placed, hm, rfl, rfl⟩, hread⟩
  · rintro ⟨plan, hm, hread⟩
    obtain ⟨placed, hplaced, rfl, rfl⟩ := mem_placedPlans.mpr hm
    exact ⟨placed, List.mem_filter.mpr ⟨hplaced, hread⟩, rfl⟩

def readKeys (plans : List SegmentPlan) (segmentIds : List Nat) : List RecordKey :=
  (executionOrder (placedPlans plans segmentIds)).flatMap fun placed =>
    activeKeys placed.segmentId placed.plan.records

theorem mem_readKeys {key : RecordKey} : key ∈ readKeys plans segmentIds ↔
    ∃ plan segmentId, ((plan, segmentId) ∈ plans.zip segmentIds ∧ plan.change.isRead = true) ∧
      ∃ inpxRecord ∈ plan.records, isActive inpxRecord = true ∧
        recordKey segmentId inpxRecord = key := by
  rw [readKeys]
  rw [List.mem_flatMap]
  constructor
  · rintro ⟨placed, hm, hkey⟩
    exact ⟨placed.plan, placed.segmentId, mem_executionOrder.mp ⟨placed, hm, rfl, rfl⟩,
      mem_activeKeys.mp hkey⟩
  · rintro ⟨plan, segmentId, hm, hkey⟩
    obtain ⟨placed, hplaced, rfl, rfl⟩ := mem_executionOrder.mpr hm
    exact ⟨placed, hplaced, mem_activeKeys.mpr hkey⟩

end Order

/-! ### The ids that unchanged segments have -/

theorem insertActiveIds_eq_ok {maxRecords : Nat} {libIds : List Bytes} :
    ∀ {ids ids' : List Bytes}, insertActiveIds maxRecords ids libIds = .ok ids' →
      (∀ libId, libId ∈ ids' ↔ libId ∈ ids ∨ libId ∈ libIds) ∧ (ids.Nodup → ids'.Nodup) := by
  induction libIds with
  | nil =>
    intro ids ids' h
    injection h with h
    exact h ▸ ⟨fun _ => by simp, id⟩
  | cons libId libIds ih =>
    intro ids ids' h
    rw [insertActiveIds, insertActiveLibId] at h
    by_cases hm : libId ∈ ids
    · rw [if_pos hm] at h
      obtain ⟨hmem, hn⟩ := @ih ids ids' h
      refine ⟨fun x => ?_, hn⟩
      rw [hmem, List.mem_cons, ← or_assoc, or_iff_left_of_imp fun he : x = libId => he ▸ hm]
    · rw [if_neg hm] at h
      cases hr : requireCollectionRoom ids.length maxRecords "active LibId index" with
      | error e =>
        rw [hr] at h
        cases h
      | ok _ =>
        rw [hr] at h
        obtain ⟨hmem, hn⟩ := @ih (ids ++ [libId]) ids' h
        refine ⟨fun x => ?_, fun hids => hn (List.nodup_append.mpr ⟨hids, List.nodup_singleton _,
          fun a ha b hb he => hm (List.mem_singleton.mp hb ▸ he ▸ ha)⟩)⟩
        rw [hmem, List.mem_append, List.mem_singleton, List.mem_cons, or_assoc]

/-- The LibIds that are claimed before anything is read: those of the present locations in
unchanged segments. -/
theorem mem_activeIds {env : ScanEnv} {db : Database} {names activeIds : List Bytes}
    (hp : env.persistent = true)
    (h : readActiveInpxIdsForSegments env db names = .ok activeIds) :
    activeIds.Nodup ∧ ∀ libId e row, catalogOf db libId = some e → e.presentInSegment = true →
      db.segments.find? e.segmentId = some row → row.inpEntryName ∈ names → libId ∈ activeIds := by
  rw [readActiveInpxIdsForSegments] at h
  split at h
  · next hempty =>
    injection h with h
    refine ⟨h ▸ List.nodup_nil, fun libId e row _ _ _ hname => ?_⟩
    rw [hempty.resolve_left (not_not.mpr hp)] at hname
    exact absurd hname List.not_mem_nil
  · obtain ⟨hmem, hn⟩ := insertActiveIds_eq_ok h
    refine ⟨hn List.nodup_nil, fun libId e row he hpresent hrow hname => (hmem libId).mpr (.inr ?_)⟩
    rw [catalogOf] at he
    obtain ⟨l, hl, rfl⟩ := Option.map_eq_some_iff.mp he
    obtain ⟨hmem, rfl⟩ := Table.findBy?_eq_some.mp hl
    refine List.mem_map_of_mem (List.mem_filter.mpr ⟨hmem, ?_⟩)
    rw [show l.presentInSegment = true from hpresent,
      show db.segments.find? l.segmentId = some row from hrow]
    simpa using hname

/-! ### What is stored -/

theorem overwrite_spec (entry : InFlightParsedRecord → Entry) (catalog : Bytes → Option Entry)
    {tasks : List InFlightParsedRecord} (hn : (tasks.map fun t => t.inpxRecord.libId).Nodup) :
    (∀ task ∈ tasks, overwrite entry catalog tasks task.inpxRecord.libId = some (entry task)) ∧
      ∀ libId, libId ∉ tasks.map (fun t => t.inpxRecord.libId) →
        overwrite entry catalog tasks libId = catalog libId := by
  induction tasks using List.reverseRecOn with
  | nil => exact ⟨fun _ h => absurd h List.not_mem_nil, fun _ _ => rfl⟩
  | append_singleton tasks last ih =>
    rw [List.map_append, List.nodup_append] at hn
    obtain ⟨hmem, hnot⟩ := ih hn.1
    rw [overwrite_append]
    refine ⟨fun task ht => ?_, fun libId hl => ?_⟩
    · rcases List.mem_append.mp ht with ht | ht
      · rw [Function.update_of_ne (hn.2.2 _ (List.mem_map_of_mem ht) _ (List.mem_singleton_self _))]
        exact hmem task ht
      · rw [List.mem_singleton.mp ht, Function.update_self]
    · rw [List.map_append, List.mem_append, not_or] at hl
      rw [Function.update_of_ne fun he => hl.2 (List.mem_singleton.mpr he)]
      exact hnot libId hl.1

/-! ### A scan that committed -/

/-- The entry that storing a record of this key makes. -/
def RecordKey.entry (scanId : Bytes) (coverPath : Option Bytes) (key : RecordKey) : Entry where
  segmentId := key.segmentId
  archiveName := key.archiveName
  entryName := key.entryName
  availability := .available
  presentInSegment := true
  lastSeenScanId := some scanId
  coverPath := coverPath

theorem taskEntry_eq (readers : Readers) (env : ScanEnv) (scanId : Bytes)
    (task : InFlightParsedRecord) :
    taskEntry readers env scanId task =
      (taskKey task).entry scanId (taskEntry readers env scanId task).coverPath := rfl

/-- What a scan that committed did to the segments and the catalog. -/
structure Rescans (readers : Readers) (env : ScanEnv) (scanId : Bytes) (db db' : Database)
    (plans : List SegmentPlan) (segmentIds : List Nat) : Prop where
  planned : Plans readers db (snapshotOf env) plans
  upserted : SegmentsUpserted scanId plans segmentIds db db'
  stored : ∀ key ∈ readKeys plans segmentIds, ∃ coverPath, catalogOf db' key.libId =
    some (finishedEntry scanId (changedSegmentIds (placedPlans plans segmentIds)) db' key.libId
      (key.entry scanId coverPath))
  kept : ∀ libId, libId ∉ (readKeys plans segmentIds).map RecordKey.libId →
    catalogOf db' libId = (catalogOf db libId).map
      (finishedEntry scanId (changedSegmentIds (placedPlans plans segmentIds)) db' libId)
  unclaimed : ∀ key ∈ readKeys plans segmentIds, ∀ e row, catalogOf db key.libId = some e →
    e.presentInSegment = true → db.segments.find? e.segmentId = some row →
      row.inpEntryName ∉ unchangedSegmentNames plans

section Rescan

variable {readers : Readers} {env : ScanEnv} {S : Set Bytes} {world world' : World}

theorem SegmentsUpserted.congr {scanId : Bytes} {plans : List SegmentPlan} {segmentIds : List Nat}
    {db db₀ db' db'' : Database} (h : SegmentsUpserted scanId plans segmentIds db₀ db')
    (hs₀ : db₀.segments = db.segments) (hd₀ : db₀.deletions = db.deletions)
    (hs : db''.segments = db'.segments) (hd : db''.deletions = db'.deletions) :
    SegmentsUpserted scanId plans segmentIds db db'' := by
  obtain ⟨hlen, hn, heach, hseg, hdel⟩ := h
  refine ⟨hlen, hn, fun p hp => ?_, fun k hk => ?_, fun d hk => ?_⟩
  · obtain ⟨hrow, hid, hdels⟩ := heach p hp
    refine ⟨?_, ?_, ?_⟩
    · rw [hs]
      exact hrow
    · rw [← hs₀]
      exact hid
    · rw [hd, ← hd₀]
      exact hdels
  · rw [hs, ← hs₀]
    exact hseg k hk
  · rw [hd, ← hd₀]
    exact hdel d hk

/-- The catalog when the execution begins is the one the scan found. -/
theorem Begins.catalogOf_eq {plans : List SegmentPlan} {segmentIds : List Nat} {db₁ : Database}
    {r₁ : Standing} (h : Begins env plans world segmentIds db₁ r₁) :
    catalogOf db₁ = catalogOf world.database := by
  rw [h.frame.1]
  rfl

/-- A run that commits publishes the plans of its planning. -/
theorem Publishes.rescans_plans (h : Publishes readers env S world world') :
    ∃ sourceFingerprint s segmentIds,
      planScan readers env world.database (.start env) = .ok sourceFingerprint s ∧
      Rescans readers env (makeScanId env.millis world.sequence) world.database world'.database
        s.plans segmentIds ∧ world'.sequence = world.sequence + 1 := by
  obtain ⟨hp, sourceFingerprint, s, segmentIds, db₁, r₁, sub, db₂, r₂, s', hplan, hb, hc, rfl⟩ := h
  have hplans : Plans readers world.database (snapshotOf env) s.plans :=
    (planScan_spec hp).ok ⟨rfl, rfl⟩ hplan
  obtain ⟨⟨db, hprep, hdb⟩, hids⟩ := id hb
  rw [Prepared] at hprep
  rw [if_pos hp] at hprep
  obtain ⟨⟨source, hall⟩, hr₁⟩ := hprep
  have hscan : r₁.scanId = makeScanId env.millis world.sequence :=
    congrArg Standing.scanId hr₁
  have hsequence : r₁.sequence = world.sequence + 1 := congrArg Standing.sequence hr₁
  obtain ⟨done, hperm, hd⟩ := hc.drained
  have hsub : Submits _ (readKeys s.plans segmentIds) sub := submits_submitPlans hc.submitted
  have hactive := mem_activeIds hp hids
  -- the LibIds of the tasks are distinct, and none of them was claimed before
  have hnodup : (r₁.processedActiveIds ++
      (readKeys s.plans segmentIds).map RecordKey.libId).Nodup := by
    have hn := hsub.distinct hactive.1
    rw [hsub.activeIds] at hn
    exact hn
  have htasks : sub.tasks.map taskKey = readKeys s.plans segmentIds := hsub.tasks
  have hlibIds : (done.map fun t => t.inpxRecord.libId).Perm
      ((readKeys s.plans segmentIds).map RecordKey.libId) := by
    rw [← htasks, List.map_map]
    exact hperm.map _
  have hdone := overwrite_spec (taskEntry readers env r₁.scanId) (catalogOf db₁)
    (hlibIds.nodup_iff.mpr (List.nodup_append.mp hnodup).2.1)
  have hcat : catalogOf db₂ = overwrite (taskEntry readers env r₁.scanId) (catalogOf db₁) done := by
    rw [hd.catalog]
    rw [storedTasks]
    rw [if_pos hp]
  have hfin : ∀ libId, catalogOf s'.database libId =
      (overwrite (taskEntry readers env (makeScanId env.millis world.sequence))
        (catalogOf world.database) done libId).map (finishedEntry
          (makeScanId env.millis world.sequence) (changedSegmentIds
            (placedPlans s.plans segmentIds)) s'.database libId) := by
    intro libId
    rw [hc.finishes.catalogOf_eq, hcat, hb.catalogOf_eq, hscan]
  rw [hb.catalogOf_eq, hscan] at hdone
  refine ⟨sourceFingerprint, s, segmentIds, hplan, ⟨hplans, ?_, fun key hkey => ?_,
    fun libId hnot => ?_, fun key hkey e row he hpresent hrow hname => ?_⟩, ?_⟩
  · refine (hall.spec hplans.distinct).congr rfl rfl ?_ ?_
    · change s'.database.segments = _
      rw [hc.finishes.segments, hd.segments, hdb]
    · change s'.database.deletions = _
      rw [hc.finishes.deletions, hd.deletions, hdb]
  · rw [← htasks] at hkey
    obtain ⟨task, htask, rfl⟩ := List.mem_map.mp hkey
    refine ⟨(taskEntry readers env (makeScanId env.millis world.sequence) task).coverPath, ?_⟩
    change catalogOf s'.database task.inpxRecord.libId = _
    rw [hfin, hdone.1 task (hperm.mem_iff.mpr htask), ← taskEntry_eq]
    rfl
  · change catalogOf s'.database libId = _
    rw [hfin, hdone.2 libId fun hm => hnot (hlibIds.mem_iff.mp hm)]
  · exact (List.nodup_append.mp hnodup).2.2 _ (hactive.2 _ e row he hpresent hrow hname) _
      (List.mem_map_of_mem hkey) rfl
  · have hs' : s'.sequence = r₂.sequence := congrArg Standing.sequence hc.standing
    have hr₂ : r₂.sequence = r₁.sequence := by rw [hd.frame]
    exact hs'.trans (hr₂.trans hsequence)

theorem Publishes.rescans (h : Publishes readers env S world world') :
    ∃ plans segmentIds, Rescans readers env (makeScanId env.millis world.sequence)
      world.database world'.database plans segmentIds ∧
      world'.sequence = world.sequence + 1 := by
  obtain ⟨_, s, segmentIds, _, hrescans, hsequence⟩ := h.rescans_plans
  exact ⟨s.plans, segmentIds, hrescans, hsequence⟩

end Rescan

end InpxWebReader.Scan
