import InpxWebReader.Scan.History
import InpxWebReader.Scan.Reading

/-!
# The catalog mirrors the last snapshot

`Mirrors readers snapshot db` is the invariant that ties the catalog to the snapshot of the last
scan that committed: the rows of available segments are the positions of the snapshot, the delete
markers and the present locations of such a row are what the parser reads in that segment, and a
location is available when it is listed. Every scan that commits keeps it, whatever mix of segments
it adds, reads again, keeps, reorders and removes.
-/

namespace InpxWebReader.Scan

open Foundation Domain Inpx Storage Database Program ExecState

/-! ### The invariant -/

/-- The row of the segment at a position of the snapshot. -/
structure RowAt (readers : Readers) (snapshot : Snapshot) (i : Nat) (segment : Bytes × Bytes)
    (row : SegmentRow) : Prop where
  position : snapshot[i]? = some segment
  available : row.availability = .available
  name : row.inpEntryName = segment.1
  fingerprint : row.inpFingerprint = readers.sha.computeBytes segment.2
  order : row.segmentOrder = i

/-- The delete markers and the present locations of a row are those of the segment. -/
structure SegmentMirrored (readers : Readers) (db : Database) (segment : Bytes × Bytes)
    (segmentId : Nat) : Prop where
  deletions : ∀ libId, ⟨segmentId, libId⟩ ∈ db.deletions.rows ↔ IsDeleted readers segment libId
  present : ∀ libId e, catalogOf db libId = some e → e.presentInSegment = true →
    e.segmentId = segmentId →
      ∃ inpxRecord ∈ recordsOf readers segment, isActive inpxRecord = true ∧
        inpxRecord.libId = libId
  active : ∀ inpxRecord ∈ recordsOf readers segment, isActive inpxRecord = true →
    ∃ e, catalogOf db inpxRecord.libId = some e ∧ e.presentInSegment = true ∧
      e.segmentId = segmentId ∧ e.archiveName = inpxRecord.archiveName ∧
      e.entryName = inpxRecord.entryName

structure Mirrors (readers : Readers) (snapshot : Snapshot) (db : Database) : Prop where
  positions : ∀ i segment, snapshot[i]? = some segment →
    ∃ row ∈ db.segments.rows, RowAt readers snapshot i segment row
  rows : ∀ row ∈ db.segments.rows, row.availability = .available →
    ∃ i segment, RowAt readers snapshot i segment row ∧
      SegmentMirrored readers db segment row.id
  listed : ∀ libId e, catalogOf db libId = some e →
    (e.availability = .available ↔ e.isListed db libId = true)

/-! ### Finished entries -/

section Entries

variable {scanId libId : Bytes} {changedSegmentIds : List Nat} {db : Database} {e : Entry}

@[simp] theorem segmentId_seenOrAbsent :
    (seenOrAbsent scanId changedSegmentIds e).segmentId = e.segmentId := by
  rw [seenOrAbsent]
  split <;> rfl

@[simp] theorem segmentId_finishedEntry :
    (finishedEntry scanId changedSegmentIds db libId e).segmentId = e.segmentId := by
  rw [finishedEntry, Entry.settled]
  split <;> exact segmentId_seenOrAbsent

@[simp] theorem archiveName_finishedEntry :
    (finishedEntry scanId changedSegmentIds db libId e).archiveName = e.archiveName := by
  rw [finishedEntry, Entry.settled, seenOrAbsent]
  split <;> split <;> rfl

@[simp] theorem entryName_finishedEntry :
    (finishedEntry scanId changedSegmentIds db libId e).entryName = e.entryName := by
  rw [finishedEntry, Entry.settled, seenOrAbsent]
  split <;> split <;> rfl

/-- A finished entry is present when the scan saw it, or did not read its segment. -/
theorem presentInSegment_finishedEntry :
    (finishedEntry scanId changedSegmentIds db libId e).presentInSegment = true ↔
      e.presentInSegment = true ∧
        (e.segmentId ∈ changedSegmentIds → e.lastSeenScanId = some scanId) := by
  have hseen : (seenOrAbsent scanId changedSegmentIds e).presentInSegment = true ↔
      e.presentInSegment = true ∧
        (e.segmentId ∈ changedSegmentIds → e.lastSeenScanId = some scanId) := by
    rw [seenOrAbsent]
    split
    · next h => exact ⟨fun hf => (by cases hf), fun hf => absurd (hf.2 h.1) h.2.2⟩
    · next h =>
      refine ⟨fun hp => ⟨hp, fun hm => ?_⟩, fun hp => hp.1⟩
      by_contra hl
      exact h ⟨hm, hp, hl⟩
  rw [finishedEntry, Entry.settled]
  split <;> exact hseen

theorem lastSeenScanId_finishedEntry :
    (finishedEntry scanId changedSegmentIds db libId e).lastSeenScanId = e.lastSeenScanId ∨
      (finishedEntry scanId changedSegmentIds db libId e).lastSeenScanId = some scanId := by
  rw [finishedEntry, Entry.settled]
  split
  · rw [seenOrAbsent]
    split
    · exact .inr rfl
    · exact .inl rfl
  · exact .inr rfl

theorem available_finishedEntry :
    (finishedEntry scanId changedSegmentIds db libId e).availability = .available ↔
      (finishedEntry scanId changedSegmentIds db libId e).isListed db libId = true := by
  rw [finishedEntry, Entry.settled]
  split
  · next h => exact iff_of_eq h
  · rw [Entry.isListed_withAvailability]
    cases (seenOrAbsent scanId changedSegmentIds e).isListed db libId <;> simp

end Entries

/-! ### A scan that commits keeps it -/

/-- Two lists side by side, the second without repetition: its elements say which is beside
them. -/
theorem zip_inj {α β : Type} {xs : List α} {ys : List β} (hn : ys.Nodup) {x x' : α} {y : β}
    (h : (x, y) ∈ xs.zip ys) (h' : (x', y) ∈ xs.zip ys) : x = x' := by
  obtain ⟨i, hi⟩ := List.mem_iff_getElem?.mp h
  obtain ⟨j, hj⟩ := List.mem_iff_getElem?.mp h'
  obtain ⟨hxi, hyi⟩ := List.getElem?_zip_eq_some.mp hi
  obtain ⟨hxj, hyj⟩ := List.getElem?_zip_eq_some.mp hj
  have hij : i = j := by
    obtain ⟨hil, hie⟩ := List.getElem?_eq_some_iff.mp hyi
    obtain ⟨hjl, hje⟩ := List.getElem?_eq_some_iff.mp hyj
    exact (List.Nodup.getElem_inj_iff hn).mp (hie.trans hje.symm)
  rw [hij, hxj, Option.some_inj] at hxi
  exact hxi.symm

theorem mem_zip_left {α β : Type} {xs : List α} {ys : List β} (hlen : ys.length = xs.length)
    {x : α} (hx : x ∈ xs) : ∃ y, (x, y) ∈ xs.zip ys := by
  obtain ⟨i, hi, rfl⟩ := List.mem_iff_getElem.mp hx
  exact ⟨ys[i], List.mem_iff_getElem?.mpr ⟨i, List.getElem?_zip_eq_some.mpr
    ⟨List.getElem?_eq_getElem hi, List.getElem?_eq_getElem (hlen ▸ hi)⟩⟩⟩

section Step

variable {readers : Readers} {env : ScanEnv} {S : Set Bytes} {scanId : Bytes}
  {db db' : Database} {plans : List SegmentPlan} {segmentIds : List Nat} {snapshot : Snapshot}

/-- Where an entry of the new catalog comes from: a record that was read, or the old catalog. -/
theorem Rescans.entry_cases (h : Rescans readers env scanId db db' plans segmentIds)
    {libId : Bytes} {e : Entry} (he : catalogOf db' libId = some e) :
    (∃ key ∈ readKeys plans segmentIds, key.libId = libId ∧ ∃ coverPath,
      e = finishedEntry scanId (changedSegmentIds (placedPlans plans segmentIds)) db' libId
        (key.entry scanId coverPath)) ∨
    (∃ e₀, catalogOf db libId = some e₀ ∧
      e = finishedEntry scanId (changedSegmentIds (placedPlans plans segmentIds)) db' libId e₀) := by
  by_cases hm : libId ∈ (readKeys plans segmentIds).map RecordKey.libId
  · obtain ⟨key, hkey, rfl⟩ := List.mem_map.mp hm
    obtain ⟨coverPath, hc⟩ := h.stored key hkey
    rw [hc, Option.some_inj] at he
    exact .inl ⟨key, hkey, rfl, coverPath, he.symm⟩
  · rw [h.kept libId hm] at he
    obtain ⟨e₀, he₀, rfl⟩ := Option.map_eq_some_iff.mp he
    exact .inr ⟨e₀, he₀, rfl⟩

theorem Rescans.row_cases (h : Rescans readers env scanId db db' plans segmentIds)
    {row : SegmentRow} (hrow : row ∈ db'.segments.rows) :
    ∃ plan, (plan, row.id) ∈ plans.zip segmentIds ∧ row = upsertedRow scanId plan row.id := by
  have hfind : db'.segments.find? row.id = some row := Table.find?_eq_some.mpr ⟨hrow, rfl⟩
  have hid : ∃ plan, (plan, row.id) ∈ plans.zip segmentIds := by
    by_cases hm : row.id ∈ segmentIds
    · obtain ⟨i, hi⟩ := List.mem_iff_getElem?.mp hm
      have hlt := (List.getElem?_eq_some_iff.mp hi).1
      rw [h.upserted.length] at hlt
      exact ⟨plans[i], List.mem_iff_getElem?.mpr ⟨i, List.getElem?_zip_eq_some.mpr
        ⟨List.getElem?_eq_getElem hlt, hi⟩⟩⟩
    · have hold := h.upserted.segments row.id hm
      rw [hfind] at hold
      have hmem := (Table.find?_eq_some.mp hold.symm).1
      obtain ⟨plan, hplan, hname⟩ := h.planned.rows row hmem
      obtain ⟨segmentId, hz⟩ := mem_zip_left h.upserted.length hplan
      refine ⟨plan, ?_⟩
      rw [(h.upserted.each _ hz).id row hmem hname.symm]
      exact hz
  obtain ⟨plan, hz⟩ := hid
  refine ⟨plan, hz, ?_⟩
  have hu := (h.upserted.each _ hz).row
  rw [hfind, Option.some_inj] at hu
  exact hu

theorem PlanOf.rowAt {i : Nat} {segment : Bytes × Bytes} {plan : SegmentPlan}
    (h : PlanOf readers db segment i plan) (hpos : snapshot[i]? = some segment)
    (segmentId : Nat) : RowAt readers snapshot i segment (upsertedRow scanId plan segmentId) := by
  refine ⟨hpos, ?_, h.name, h.fingerprint, h.order⟩
  change (if plan.change = .removed then _ else _) = _
  rw [if_neg h.notRemoved]

/-- A segment that is read again is mirrored as it is read. -/
theorem Rescans.mirrors_read (h : Rescans readers env scanId db db' plans segmentIds)
    (hfresh : ∀ libId e, catalogOf db libId = some e → e.lastSeenScanId ≠ some scanId)
    {i : Nat} {segment : Bytes × Bytes} {plan : SegmentPlan} {segmentId : Nat}
    (hz : (plan, segmentId) ∈ plans.zip segmentIds) (hp : PlanOf readers db segment i plan)
    (hread : plan.change ≠ .unchanged) : SegmentMirrored readers db' segment segmentId := by
  have hisRead : plan.change.isRead = true := by
    have := hp.notRemoved
    cases hc : plan.change <;> simp_all [SegmentChange.isRead]
  have hchanged : segmentId ∈ changedSegmentIds (placedPlans plans segmentIds) :=
    mem_changedSegmentIds.mpr ⟨plan, hz, hisRead⟩
  refine ⟨fun libId => ?_, fun libId e he hpresent hid => ?_, fun inpxRecord hr hactive => ?_⟩
  · rw [(h.upserted.each _ hz).deletions, if_neg hread, hp.deletedLibIds hread]
    exact and_iff_right hp.notRemoved
  · rcases h.entry_cases he with ⟨key, hkey, rfl, coverPath, rfl⟩ | ⟨e₀, he₀, rfl⟩
    · rw [segmentId_finishedEntry] at hid
      obtain ⟨plan', segmentId', ⟨hz', _⟩, inpxRecord, hr, hactive, rfl⟩ := mem_readKeys.mp hkey
      have hid' : segmentId' = segmentId := hid
      subst hid'
      rw [zip_inj h.upserted.distinct hz' hz, hp.records hread] at hr
      exact ⟨inpxRecord, hr, hactive, rfl⟩
    · rw [segmentId_finishedEntry] at hid
      rw [presentInSegment_finishedEntry] at hpresent
      exact absurd (hpresent.2 (hid ▸ hchanged)) (hfresh libId e₀ he₀)
  · rw [← hp.records hread] at hr
    have hkey : recordKey segmentId inpxRecord ∈ readKeys plans segmentIds :=
      mem_readKeys.mpr ⟨plan, segmentId, ⟨hz, hisRead⟩, inpxRecord, hr, hactive, rfl⟩
    obtain ⟨coverPath, hc⟩ := h.stored _ hkey
    refine ⟨_, hc, ?_, segmentId_finishedEntry, archiveName_finishedEntry, entryName_finishedEntry⟩
    rw [presentInSegment_finishedEntry]
    exact ⟨rfl, fun _ => rfl⟩

theorem Rescans.mirrors_kept (h : Rescans readers env scanId db db' plans segmentIds)
    {i : Nat} {segment : Bytes × Bytes} {plan : SegmentPlan} {segmentId : Nat}
    (hz : (plan, segmentId) ∈ plans.zip segmentIds) (hp : PlanOf readers db segment i plan)
    (hunchanged : plan.change = .unchanged) {row : SegmentRow} (hrow : row ∈ db.segments.rows)
    (hname : row.inpEntryName = segment.1) (hold : SegmentMirrored readers db segment row.id) :
    SegmentMirrored readers db' segment segmentId := by
  have hid : row.id = segmentId :=
    (h.upserted.each _ hz).id row hrow (hname.trans hp.name.symm)
  subst hid
  have hfind : db.segments.find? row.id = some row := Table.find?_eq_some.mpr ⟨hrow, rfl⟩
  have hnotRead : ∀ plan', (plan', row.id) ∈ plans.zip segmentIds →
      plan'.change.isRead ≠ true := by
    intro plan' hz'
    rw [zip_inj h.upserted.distinct hz' hz, hunchanged]
    decide
  refine ⟨fun libId => ?_, fun libId e he hpresent hid => ?_, fun inpxRecord hr hactive => ?_⟩
  · rw [(h.upserted.each _ hz).deletions, if_pos hunchanged]
    exact hold.deletions libId
  · rcases h.entry_cases he with ⟨key, hkey, rfl, coverPath, rfl⟩ | ⟨e₀, he₀, rfl⟩
    · rw [segmentId_finishedEntry] at hid
      obtain ⟨plan', segmentId', ⟨hz', hread⟩, inpxRecord, hr, hactive, rfl⟩ := mem_readKeys.mp hkey
      have hid' : segmentId' = row.id := hid
      subst hid'
      exact absurd hread (hnotRead plan' hz')
    · rw [segmentId_finishedEntry] at hid
      rw [presentInSegment_finishedEntry] at hpresent
      exact hold.present libId e₀ he₀ hpresent.1 hid
  · obtain ⟨e₀, he₀, hpresent, hid, harchive, hentry⟩ := hold.active inpxRecord hr hactive
    have hnot : inpxRecord.libId ∉ (readKeys plans segmentIds).map RecordKey.libId := by
      intro hm
      obtain ⟨key, hkey, hlib⟩ := List.mem_map.mp hm
      refine h.unclaimed key hkey e₀ row (hlib ▸ he₀) hpresent (hid ▸ hfind) ?_
      rw [unchangedSegmentNames]
      rw [hname, ← hp.name]
      exact List.mem_map_of_mem (List.mem_filter.mpr
        ⟨(List.of_mem_zip hz).1, decide_eq_true hunchanged⟩)
    refine ⟨_, by rw [h.kept _ hnot, he₀]; rfl, ?_, ?_, ?_, ?_⟩
    · rw [presentInSegment_finishedEntry]
      refine ⟨hpresent, fun hm => ?_⟩
      obtain ⟨plan', hz', hread⟩ := mem_changedSegmentIds.mp hm
      rw [hid] at hz'
      exact absurd hread (hnotRead plan' hz')
    · rw [segmentId_finishedEntry, hid]
    · rw [archiveName_finishedEntry, harchive]
    · rw [entryName_finishedEntry, hentry]

/-- A scan that commits makes the catalog mirror its snapshot. -/
theorem Mirrors.rescans (hm : Mirrors readers snapshot db)
    (h : Rescans readers env scanId db db' plans segmentIds)
    (hfree : readers.sha.CollisionFree S) (hold : ∀ segment ∈ snapshot, segment.2 ∈ S)
    (hnew : ∀ segment ∈ snapshotOf env, segment.2 ∈ S)
    (hfresh : ∀ libId e, catalogOf db libId = some e → e.lastSeenScanId ≠ some scanId) :
    Mirrors readers (snapshotOf env) db' := by
  refine ⟨fun i segment hpos => ?_, fun row hrow hav => ?_, fun libId e he => ?_⟩
  · obtain ⟨plan, hplan, hp⟩ := h.planned.current i segment hpos
    obtain ⟨segmentId, hz⟩ := mem_zip_left h.upserted.length hplan
    exact ⟨_, (Table.find?_eq_some.mp (h.upserted.each _ hz).row).1, hp.rowAt hpos segmentId⟩
  · obtain ⟨plan, hz, hup⟩ := h.row_cases hrow
    have hplan : ∃ i segment, (snapshotOf env)[i]? = some segment ∧
        PlanOf readers db segment i plan := by
      refine (h.planned.each plan (List.of_mem_zip hz).1).resolve_right fun hremoved => ?_
      rw [hup] at hav
      change (if plan.change = .removed then _ else _) = _ at hav
      rw [if_pos hremoved] at hav
      cases hav
    obtain ⟨i, segment, hpos, hp⟩ := hplan
    refine ⟨i, segment, hup ▸ hp.rowAt hpos row.id, ?_⟩
    by_cases hu : plan.change = .unchanged
    · obtain ⟨row₀, hrow₀, hname, hfp, hav₀⟩ := hp.kept hu
      obtain ⟨j, old, hat, hmir⟩ := hm.rows row₀ hrow₀ hav₀
      -- the same name and the same fingerprint: the segment has not changed
      have htext : old.2 = segment.2 := hfree _ (hold old (List.mem_of_getElem? hat.position)) _
        (hnew segment (List.mem_of_getElem? hpos))
        (Sha256.digest_eq_of_computeBytes_eq (hat.fingerprint.symm.trans hfp))
      have hseg : old = segment := Prod.ext (hat.name.symm.trans hname) htext
      exact h.mirrors_kept hz hp hu hrow₀ hname (hseg ▸ hmir)
    · exact h.mirrors_read hfresh hz hp hu
  · rcases h.entry_cases he with ⟨key, _, rfl, coverPath, rfl⟩ | ⟨e₀, _, rfl⟩
    · exact available_finishedEntry
    · exact available_finishedEntry

end Step

/-! ### Scan after scan -/

/-- The scan ids of the catalog are those of scans that committed. -/
def ScanIdsUsed (service : Service) : Prop :=
  ∀ libId e id, catalogOf service.world.database libId = some e → e.lastSeenScanId = some id →
    id ∈ service.scanIds

/-- What holds of the service between scans. -/
structure Service.Mirrored (readers : Readers) (S : Set Bytes) (service : Service) : Prop where
  mirrors : Mirrors readers service.snapshot service.world.database
  texts : ∀ segment ∈ service.snapshot, segment.2 ∈ S
  scanIds : ScanIdsUsed service

section Reachable

variable {readers : Readers} {S : Set Bytes} {service : Service}

theorem Service.afterScan_of_committed {env : ScanEnv} {pick : Nat → Nat}
    (hc : (runScan readers env pick service.world).committed = true) :
    (service.afterScan readers env pick).snapshot = snapshotOf env ∧
      (service.afterScan readers env pick).scanIds =
        makeScanId env.millis service.world.sequence :: service.scanIds :=
  ⟨if_pos hc, if_pos hc⟩

theorem Service.afterScan_of_not_committed {env : ScanEnv} {pick : Nat → Nat}
    (hc : (runScan readers env pick service.world).committed = false) :
    (service.afterScan readers env pick).snapshot = service.snapshot ∧
      (service.afterScan readers env pick).scanIds = service.scanIds :=
  ⟨if_neg (by rw [hc]; decide), if_neg (by rw [hc]; decide)⟩

theorem Service.nodup_of_afterScan {env : ScanEnv} {pick : Nat → Nat}
    (h : (service.afterScan readers env pick).scanIds.Nodup) : service.scanIds.Nodup := by
  cases hc : (runScan readers env pick service.world).committed with
  | false => rwa [(Service.afterScan_of_not_committed hc).2] at h
  | true =>
    rw [(Service.afterScan_of_committed hc).2] at h
    exact (List.nodup_cons.mp h).2

theorem Service.Mirrored.afterScan (h : service.Mirrored readers S)
    (hfree : readers.sha.CollisionFree S) (hs : Sound readers S service.world) {env : ScanEnv}
    (pick : Nat → Nat) (contents : ContentsIn readers env S)
    (hdistinct : (service.afterScan readers env pick).scanIds.Nodup) :
    (service.afterScan readers env pick).Mirrored readers S := by
  rcases (runScan_spec contents.covers hs pick).2 with ⟨hc, hr⟩ | ⟨hc, hp⟩
  · obtain ⟨hsnapshot, hids⟩ := Service.afterScan_of_not_committed hc
    have hdb : (service.afterScan readers env pick).world.database = service.world.database :=
      hr.database
    refine ⟨?_, ?_, fun libId e id he hid => ?_⟩
    · rw [hsnapshot, hdb]
      exact h.mirrors
    · rw [hsnapshot]
      exact h.texts
    · rw [hids]
      exact h.scanIds libId e id (hdb ▸ he) hid
  · obtain ⟨hsnapshot, hids⟩ := Service.afterScan_of_committed hc
    obtain ⟨plans, segmentIds, hres, _⟩ := hp.rescans
    rw [hids, List.nodup_cons] at hdistinct
    refine ⟨?_, ?_, fun libId e scanId he hid => ?_⟩
    · rw [hsnapshot]
      exact h.mirrors.rescans hres hfree h.texts contents.texts fun libId e he hid =>
        hdistinct.1 (h.scanIds libId e _ he hid)
    · rw [hsnapshot]
      exact contents.texts
    · rw [hids]
      have hlast : e.lastSeenScanId = some (makeScanId env.millis service.world.sequence) ∨
          ∃ e₀, catalogOf service.world.database libId = some e₀ ∧
            e.lastSeenScanId = e₀.lastSeenScanId := by
        rcases hres.entry_cases he with ⟨key, _, _, coverPath, rfl⟩ | ⟨e₀, he₀, rfl⟩
        · exact .inl (lastSeenScanId_finishedEntry.elim (fun h => h) fun h => h)
        · exact lastSeenScanId_finishedEntry.symm.imp_right fun hl => ⟨e₀, he₀, hl⟩
      rcases hlast with hl | ⟨e₀, he₀, hl⟩
      · rw [hid, Option.some_inj] at hl
        exact hl ▸ List.mem_cons_self
      · exact List.mem_cons_of_mem _ (h.scanIds libId e₀ scanId he₀ (hl.symm.trans hid))

/-- Scans whose ids are distinct keep the catalog a mirror of the last snapshot. -/
theorem Reachable.mirrored (hfree : readers.sha.CollisionFree S)
    (h : Reachable readers S service) (hdistinct : service.scanIds.Nodup) :
    service.Mirrored readers S := by
  induction h with
  | start source inpxSourceSizeBytes covers =>
    refine ⟨⟨fun i segment hi => ?_, fun row hrow => absurd hrow List.not_mem_nil,
      fun libId e he => by cases he⟩, fun _ h => absurd h List.not_mem_nil,
      fun libId e _ he => by cases he⟩
    rw [show (Service.initial source inpxSourceSizeBytes covers).snapshot = [] from rfl,
      List.getElem?_nil] at hi
    cases hi
  | scan h env pick contents ih =>
    exact (ih (Service.nodup_of_afterScan hdistinct)).afterScan hfree h.sound pick contents
      hdistinct
  | restart h ih => exact ⟨(ih hdistinct).mirrors, (ih hdistinct).texts, (ih hdistinct).scanIds⟩

/-! ### What is available -/

/-- A record that a scan from scratch lists: it is active in the segment at position `i`, and no
later segment has a delete marker for its LibId. -/
structure Listed (readers : Readers) (snapshot : Snapshot) (libId : Bytes) (i : Nat)
    (segment : Bytes × Bytes) (inpxRecord : InpxRecord) : Prop where
  position : snapshot[i]? = some segment
  record : inpxRecord ∈ recordsOf readers segment
  active : isActive inpxRecord = true
  key : inpxRecord.libId = libId
  notDeleted : ∀ j later, i < j → snapshot[j]? = some later → ¬IsDeleted readers later libId

/-- A location is where the snapshot lists its LibId. -/
structure OwnedBy (db : Database) (l : LocationRow) (i : Nat) (segment : Bytes × Bytes)
    (inpxRecord : InpxRecord) : Prop where
  segment : ∃ row ∈ db.segments.rows, row.id = l.segmentId ∧ row.inpEntryName = segment.1 ∧
    row.segmentOrder = i
  archiveName : l.archiveName = inpxRecord.archiveName
  entryName : l.entryName = inpxRecord.entryName

/-- The row of a position, with what it mirrors. -/
theorem Mirrors.row_at {snapshot : Snapshot} {db : Database} (hm : Mirrors readers snapshot db)
    {i : Nat} {segment : Bytes × Bytes} (hpos : snapshot[i]? = some segment) :
    ∃ row ∈ db.segments.rows, RowAt readers snapshot i segment row ∧
      SegmentMirrored readers db segment row.id := by
  obtain ⟨row, hrow, hat⟩ := hm.positions i segment hpos
  obtain ⟨j, segment', hat', hmir⟩ := hm.rows row hrow hat.available
  obtain rfl : j = i := hat'.order.symm.trans hat.order
  have hs := hat'.position
  rw [hpos, Option.some_inj] at hs
  exact ⟨row, hrow, hat, hs ▸ hmir⟩

theorem Mirrors.isListed_iff {snapshot : Snapshot} {db : Database}
    (hm : Mirrors readers snapshot db) {libId : Bytes} {e : Entry} {row : SegmentRow} {i : Nat}
    {segment : Bytes × Bytes} (hrow : db.segments.find? e.segmentId = some row)
    (hat : RowAt readers snapshot i segment row) :
    e.isListed db libId = true ↔ e.presentInSegment = true ∧
      ∀ j later, i < j → snapshot[j]? = some later → ¬IsDeleted readers later libId := by
  rw [Entry.isListed, segmentAvailable]
  rw [hrow]
  simp only [Option.any_some, hat.available, decide_true, Bool.and_true, Bool.and_eq_true,
    Bool.not_eq_true', List.any_eq_false, decide_eq_true_eq]
  refine and_congr_right fun _ => ⟨fun h j later hij hpos hdel => ?_, fun h d hd hany => ?_⟩
  · obtain ⟨row', hrow', hat', hmir⟩ := hm.row_at hpos
    refine h _ ((hmir.deletions libId).mpr hdel) ⟨rfl, ?_⟩
    rw [Table.find?_eq_some.mpr ⟨hrow', rfl⟩]
    simp [hat'.available, hat'.order, hat.order, hij]
  · obtain ⟨hlib, hany⟩ := hany
    obtain ⟨row', hfind, hrow'⟩ := (Option.any_eq_true _ _).mp hany
    rw [Bool.and_eq_true, decide_eq_true_eq, decide_eq_true_eq, hat.order] at hrow'
    obtain ⟨hmem, hid⟩ := Table.find?_eq_some.mp hfind
    obtain ⟨j, later, hat', hmir⟩ := hm.rows row' hmem hrow'.1
    refine h j later (hat'.order ▸ hrow'.2) hat'.position ((hmir.deletions libId).mp ?_)
    rw [hid, ← hlib]
    exact hd

theorem Mirrors.available_iff {snapshot : Snapshot} {db : Database}
    (hm : Mirrors readers snapshot db) (libId : Bytes) :
    (∃ e, catalogOf db libId = some e ∧ e.availability = .available) ↔
      ∃ i segment inpxRecord, Listed readers snapshot libId i segment inpxRecord := by
  constructor
  · rintro ⟨e, he, hav⟩
    have hlisted := (hm.listed libId e he).mp hav
    have hseg : ∃ row, db.segments.find? e.segmentId = some row ∧ row.availability = .available := by
      have h := hlisted
      rw [Entry.isListed, segmentAvailable] at h
      rw [Bool.and_eq_true, Bool.and_eq_true] at h
      obtain ⟨row, hrow, hr⟩ := (Option.any_eq_true _ _).mp h.1.2
      exact ⟨row, hrow, of_decide_eq_true hr⟩
    obtain ⟨row, hrow, hrav⟩ := hseg
    obtain ⟨hmem, hid⟩ := Table.find?_eq_some.mp hrow
    obtain ⟨i, segment, hat, hmir⟩ := hm.rows row hmem hrav
    obtain ⟨hpresent, hnot⟩ := (hm.isListed_iff hrow hat).mp hlisted
    obtain ⟨inpxRecord, hr, hactive, hlib⟩ := hmir.present libId e he hpresent hid.symm
    exact ⟨i, segment, inpxRecord, hat.position, hr, hactive, hlib, hnot⟩
  · rintro ⟨i, segment, inpxRecord, hpos, hr, hactive, rfl, hnot⟩
    obtain ⟨row, hrow, hat, hmir⟩ := hm.row_at hpos
    obtain ⟨e, he, hpresent, hid, _, _⟩ := hmir.active inpxRecord hr hactive
    have hfind : db.segments.find? e.segmentId = some row :=
      hid ▸ Table.find?_eq_some.mpr ⟨hrow, rfl⟩
    exact ⟨e, he, (hm.listed _ e he).mpr ((hm.isListed_iff hfind hat).mpr ⟨hpresent, hnot⟩)⟩

/-- After any sequence of scans of which no two that committed have one id, the available locations
are the records that a scan of the last committed snapshot from scratch lists, and each is where
that record is. -/
theorem Reachable.availableLocations (hfree : readers.sha.CollisionFree S)
    (h : Reachable readers S service) (hdistinct : service.scanIds.Nodup) :
    (∀ libId, (∃ l ∈ service.world.database.locations.rows,
        l.libId = libId ∧ l.availability = .available) ↔
      ∃ i segment inpxRecord, Listed readers service.snapshot libId i segment inpxRecord) ∧
    ∀ l ∈ service.world.database.locations.rows, l.availability = .available →
      ∀ i segment inpxRecord, Listed readers service.snapshot l.libId i segment inpxRecord →
        OwnedBy service.world.database l i segment inpxRecord := by
  have hm := (h.mirrored hfree hdistinct).mirrors
  have hentry : ∀ l ∈ service.world.database.locations.rows,
      catalogOf service.world.database l.libId = some (entryOf service.world.database l) := by
    intro l hl
    rw [catalogOf]
    rw [Table.findBy?_eq_some.mpr ⟨hl, rfl⟩]
    rfl
  refine ⟨fun libId => ?_, fun l hl _ i segment inpxRecord hlisted => ?_⟩
  · rw [← hm.available_iff]
    constructor
    · rintro ⟨l, hl, rfl, hav⟩
      exact ⟨_, hentry l hl, hav⟩
    · rintro ⟨e, he, hav⟩
      obtain ⟨l, hl, rfl⟩ := Option.map_eq_some_iff.mp he
      obtain ⟨hmem, hlib⟩ := Table.findBy?_eq_some.mp hl
      exact ⟨l, hmem, hlib, hav⟩
  · obtain ⟨row, hrow, hat, hmir⟩ := hm.row_at hlisted.position
    obtain ⟨e, he, _, hid, harchive, hname⟩ :=
      hmir.active inpxRecord hlisted.record hlisted.active
    rw [hlisted.key, hentry l hl, Option.some_inj] at he
    subst he
    exact ⟨⟨row, hrow, hid.symm, hat.name, hat.order⟩, harchive, hname⟩

end Reachable

/-- The contents that the examples hash. -/
def sampleContents : Set Bytes := {[], firstInp, secondInp, firstCover, secondCover}

theorem collisionFree_sampleContents : sampleReaders.sha.CollisionFree sampleContents := by
  rintro a (rfl | rfl | rfl | rfl | rfl) b (rfl | rfl | rfl | rfl | rfl) h <;>
    first | rfl | exact absurd h (by decide +kernel)

theorem coversIn_sampleContents (env : ScanEnv) : CoversIn sampleReaders env sampleContents := by
  intro _ _ task payload _ hp
  rw [taskPayload, sampleReaders] at hp
  dsimp only at hp
  split_ifs at hp <;> cases hp <;> simp [samplePayload, sampleContents]

theorem contentsIn_first : ContentsIn sampleReaders firstEnv sampleContents := by
  have hsnapshot : snapshotOf firstEnv = [(ascii "books.inp", firstInp)] := by decide +kernel
  exact ⟨coversIn_sampleContents _, by simp [hsnapshot, sampleContents]⟩

theorem snapshotOf_secondEnv : snapshotOf secondEnv = [(ascii "books.inp", secondInp)] := by
  decide +kernel

theorem contentsIn_second : ContentsIn sampleReaders secondEnv sampleContents :=
  ⟨coversIn_sampleContents _, by simp [snapshotOf_secondEnv, sampleContents]⟩

theorem firstScan_reachable : Reachable sampleReaders sampleContents scannedService := by
  have hstart : Reachable sampleReaders sampleContents { world := emptyWorld } := .start _ 0 _
  exact hstart.scan firstEnv (fun _ => 0) contentsIn_first

/-- The service after the scans of both snapshots. -/
def rescannedService : Service :=
  Service.afterScan sampleReaders secondEnv (fun _ => 0) scannedService

theorem reachable_rescannedService : Reachable sampleReaders sampleContents rescannedService :=
  firstScan_reachable.scan secondEnv (fun _ => 0) contentsIn_second

theorem rescannedService_availableLocations :
    ∃ l ∈ rescannedService.world.database.locations.rows,
      l.libId = ascii "2" ∧ l.availability = .available := by
  obtain ⟨hsnapshot, hdistinct⟩ : rescannedService.snapshot = [(ascii "books.inp", secondInp)] ∧
      rescannedService.scanIds.Nodup := by decide +kernel
  refine ((reachable_rescannedService.availableLocations collisionFree_sampleContents
    hdistinct).1 (ascii "2")).mpr ⟨0, (ascii "books.inp", secondInp), sampleRecord "Second" "b" "2",
      hsnapshot ▸ rfl, by decide +kernel, by decide +kernel, rfl, fun j later hj hlater => ?_⟩
  rw [hsnapshot, List.getElem?_eq_none hj] at hlater
  cases hlater

/-- A first scan that finds both books. -/
def bothEnv : ScanEnv := { secondEnv with mode := .initialScan }

/-- A scan in a new process that finds the first book only, with the clock set back to the
millisecond of the scan before it. -/
def repeatedEnv : ScanEnv := { firstEnv with mode := .rescan, millis := bothEnv.millis }

def repeatedService : Service :=
  (Service.afterScan sampleReaders bothEnv (fun _ => 0) { world := emptyWorld }).restarted.afterScan
    sampleReaders repeatedEnv fun _ => 0

theorem reachable_repeatedService : Reachable sampleReaders sampleContents repeatedService := by
  have hstart : Reachable sampleReaders sampleContents { world := emptyWorld } := .start _ 0 _
  have hboth := hstart.scan bothEnv (fun _ => 0)
    ⟨coversIn_sampleContents _, contentsIn_second.texts⟩
  exact hboth.restart.scan repeatedEnv (fun _ => 0)
    ⟨coversIn_sampleContents _, contentsIn_first.texts⟩

/-- With the id of the scan before it, a scan keeps the book that its snapshot no longer lists: the
row was last seen by a scan of that id. -/
theorem repeatedService_not_availableLocations :
    sampleReaders.sha.CollisionFree sampleContents ∧
      Reachable sampleReaders sampleContents repeatedService ∧
      ¬∀ libId, (∃ l ∈ repeatedService.world.database.locations.rows,
          l.libId = libId ∧ l.availability = .available) ↔
        ∃ i segment inpxRecord,
          Listed sampleReaders repeatedService.snapshot libId i segment inpxRecord := by
  refine ⟨collisionFree_sampleContents, reachable_repeatedService, fun hall => ?_⟩
  obtain ⟨hsnapshot, hkept⟩ : repeatedService.snapshot = [(ascii "books.inp", firstInp)] ∧
      repeatedService.world.database.locations.rows.any (fun l =>
        decide (l.libId = ascii "2" ∧ l.availability = .available)) = true := by decide +kernel
  obtain ⟨l, hl, hkept⟩ := List.any_eq_true.mp hkept
  obtain ⟨i, segment, inpxRecord, hlisted⟩ :=
    (hall (ascii "2")).mp ⟨l, hl, of_decide_eq_true hkept⟩
  obtain rfl : segment = (ascii "books.inp", firstInp) := by
    have hmem := List.mem_of_getElem? hlisted.position
    rw [hsnapshot] at hmem
    exact List.mem_singleton.mp hmem
  have hnone : ∀ inpxRecord ∈ recordsOf sampleReaders (ascii "books.inp", firstInp),
      inpxRecord.libId ≠ ascii "2" := by decide +kernel
  exact hnone inpxRecord hlisted.record hlisted.key

end InpxWebReader.Scan
