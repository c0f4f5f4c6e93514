import InpxWebReader.Query.Pagination
import InpxWebReader.Scan.Mirror
import InpxWebReader.Scan.SourceRow

/-!
# The library

Scans and catalog requests over one database. A scan that commits adds a version to the catalog, a
request reads the version that was the last one when it began, and a restart of the process keeps
the database and loses everything else. The catalog service was verified for any versions that name
themselves and never come back under one name; here the versions are those that scans commit, and
`admits_scan` shows that they are such. What a reader who pages through the listing gets is then
known down to the INPX file: `pages_mirror_snapshot`.
-/

namespace InpxWebReader.System

open Foundation Domain Inpx Database Scan Query

/-! ### The system -/

/-- The scans and the catalog over one database, and the INPX snapshot that each version of the
catalog was made from. No step reads the snapshots. -/
structure LibraryService where
  scans : Scan.Service
  catalog : CatalogService
  snapshots : List Snapshot

inductive LibraryAction
  | scan (env : ScanEnv) (pick : Nat → Nat)
  | restart
  | serve (action : ServiceAction)

namespace LibraryService

variable (readers : Readers) (fts : FullText) (aggregateIdCapacity : Nat)

def start (source : SourceRow) (inpxSourceSizeBytes : Nat) (covers : Storage.CoverStore) :
    LibraryService where
  scans := .initial source inpxSourceSizeBytes covers
  catalog := .start (.initial source inpxSourceSizeBytes) aggregateIdCapacity
  snapshots := [[]]

/-- The library after a scan that committed. -/
def publish (env : ScanEnv) (scans : Scan.Service) (lib : LibraryService) : LibraryService where
  scans := scans
  catalog := { lib.catalog with versions := lib.catalog.versions ++ [scans.world.database] }
  snapshots := lib.snapshots ++ [snapshotOf env]

/-- One step of the library. Only a scan commits. -/
def step (lib : LibraryService) : LibraryAction → Option LibraryService
  | .scan env pick =>
    let scans := lib.scans.afterScan readers env pick
    if (runScan readers env pick lib.scans.world).committed then some (lib.publish env scans)
    else some { lib with scans := scans }
  | .restart => some
    { scans := lib.scans.restarted
      catalog := .start lib.scans.world.database aggregateIdCapacity
      snapshots := [lib.scans.snapshot] }
  | .serve (.commit _) => none
  | .serve action => (lib.catalog.step fts action).map fun catalog => { lib with catalog := catalog }

end LibraryService

/-- The contents that a scan hashes are in `S`. -/
def LibraryAction.Allowed (readers : Readers) (S : Set Bytes) : LibraryAction → Prop
  | .scan env _ => ContentsIn readers env S
  | _ => True

/-- The library that the actions lead to from a new catalog, when no two of the scans that commit
have one id. -/
structure LibraryRun (readers : Readers) (S : Set Bytes) (fts : FullText)
    (aggregateIdCapacity : Nat) (actions : List LibraryAction) (lib : LibraryService) : Prop where
  capacity : aggregateIdCapacity < sizeLimit
  reaches : ∃ source inpxSourceSizeBytes covers, source.lastSeenSnapshotId = none ∧
    Runs.run (LibraryService.step readers fts aggregateIdCapacity)
      (.start aggregateIdCapacity source inpxSourceSizeBytes covers) actions = some lib
  allowed : ∀ action ∈ actions, action.Allowed readers S
  distinct : lib.scans.scanIds.Nodup

/-! ### The invariant -/

/-- The scan that a version of the catalog names is one that committed. -/
def NamesUsedScan (scanIds : List Bytes) (db : Database) : Prop :=
  ∃ row, db.source = some row ∧ ∀ id, row.lastSeenSnapshotId = some id → id ∈ scanIds

/-- A version of the catalog is what scans with distinct ids made of a snapshot. -/
def Published (readers : Readers) (S : Set Bytes) (snapshot : Snapshot) (db : Database) : Prop :=
  ∃ scans, Scan.Reachable readers S scans ∧ scans.scanIds.Nodup ∧ scans.snapshot = snapshot ∧
    scans.world.database = db

/-- What holds of the library between steps. -/
structure Serves (readers : Readers) (S : Set Bytes) (fts : FullText) (aggregateIdCapacity : Nat)
    (lib : LibraryService) : Prop where
  scans : Scan.Reachable readers S lib.scans
  catalog : ∃ db actions, (Named db ∨ db.locations.rows = []) ∧
    Runs.run (CatalogService.step fts) (.start db aggregateIdCapacity) actions = some lib.catalog
  current : lib.catalog.versions.getLast? = some lib.scans.world.database
  named : Named lib.scans.world.database ∨ lib.scans.world.database.locations.rows = []
  used : ∀ db ∈ lib.catalog.versions, NamesUsedScan lib.scans.scanIds db
  published : List.Forall₂ (Published readers S) lib.snapshots lib.catalog.versions

section Steps

variable {readers : Readers} {S : Set Bytes} {fts : FullText} {aggregateIdCapacity : Nat}
  {lib lib' : LibraryService}

theorem makeScanId_ne_nil (millis sequence : Nat) : makeScanId millis sequence ≠ [] := by
  rw [makeScanId]
  exact fun h => List.cons_ne_nil _ _ (List.append_eq_nil_iff.mp h).2

theorem computeBytes_ne_nil (sha : Sha256) (bytes : Bytes) : sha.computeBytes bytes ≠ [] :=
  List.append_ne_nil_of_left_ne_nil (List.cons_ne_nil _ _) _

/-- The identity of a catalog whose row of the source is known. -/
theorem identity_of_names {sourceFingerprint scanId : Bytes} {db : Database}
    (h : Names sourceFingerprint scanId db.source) :
    readCatalogIdentity db = .ok ⟨sourceFingerprint, scanId⟩ := by
  obtain ⟨row, hrow, rfl, hid⟩ := h
  rw [readCatalogIdentity]
  rw [hrow]
  dsimp only
  rw [hid]
  rfl

theorem NamesUsedScan.mono {scanIds scanIds' : List Bytes} {db : Database}
    (h : NamesUsedScan scanIds db) (hids : scanIds ⊆ scanIds') : NamesUsedScan scanIds' db :=
  h.imp fun _ hrow => ⟨hrow.1, fun id he => hids (hrow.2 id he)⟩

/-- A scan that commits names its source file and itself; with a new id it is a version like no
other that is served. -/
theorem Serves.admits (h : Serves readers S fts aggregateIdCapacity lib) {env : ScanEnv}
    (pick : Nat → Nat) (contents : ContentsIn readers env S)
    (hc : (runScan readers env pick lib.scans.world).committed = true) :
    (∃ bytes, env.sourceFileAtCommit.result = .ok bytes ∧
      readCatalogIdentity (lib.scans.afterScan readers env pick).world.database =
        .ok ⟨readers.sha.computeBytes bytes, makeScanId env.millis lib.scans.world.sequence⟩) ∧
    (makeScanId env.millis lib.scans.world.sequence ∉ lib.scans.scanIds →
      lib.catalog.Admits (lib.scans.afterScan readers env pick).world.database) := by
  obtain ⟨bytes, hbytes, hnames⟩ := runScan_names contents.covers h.scans.sound pick hc
  have hidentity : readCatalogIdentity (lib.scans.afterScan readers env pick).world.database =
      .ok ⟨readers.sha.computeBytes bytes, makeScanId env.millis lib.scans.world.sequence⟩ :=
    identity_of_names hnames
  refine ⟨⟨bytes, hbytes, hidentity⟩, fun hnew => ⟨⟨_, hidentity, computeBytes_ne_nil _ _,
    makeScanId_ne_nil _ _⟩, fun version hv heq => ?_⟩⟩
  obtain ⟨row, hrow, hused⟩ := h.used version hv
  rw [hidentity, readCatalogIdentity] at heq
  rw [hrow] at heq
  have hid : row.lastSeenSnapshotId.getD [] = makeScanId env.millis lib.scans.world.sequence :=
    congrArg CatalogIdentity.snapshotId (Option.some.inj heq)
  cases hlast : row.lastSeenSnapshotId with
  | none =>
    rw [hlast] at hid
    exact makeScanId_ne_nil _ _ hid.symm
  | some id =>
    rw [hlast] at hid
    exact hnew (hid ▸ hused id hlast)

theorem versions_of_serve {action : ServiceAction} {catalog catalog' : CatalogService}
    (hs : catalog.step fts action = some catalog') (hcommit : ∀ db, action ≠ .commit db) :
    catalog'.versions = catalog.versions := by
  cases action with
  | commit db => exact absurd rfl (hcommit db)
  | begin input =>
    cases hs
    rfl
  | advance index answers =>
    obtain ⟨r, phase, store, _, _, rfl⟩ := advance_eq_some.mp hs
    rfl
  | rehash sessions =>
    obtain ⟨_, ⟨⟩⟩ := Option.ite_none_right_eq_some.mp hs
    rfl

theorem scans_of_scan {env : ScanEnv} {pick : Nat → Nat}
    (hs : lib.step readers fts aggregateIdCapacity (.scan env pick) = some lib') :
    lib'.scans = lib.scans.afterScan readers env pick := by
  rw [LibraryService.step] at hs
  split at hs <;> cases hs <;> rfl

theorem Serves.scan (h : Serves readers S fts aggregateIdCapacity lib) {env : ScanEnv}
    (pick : Nat → Nat) (contents : ContentsIn readers env S)
    (hs : lib.step readers fts aggregateIdCapacity (.scan env pick) = some lib')
    (hdistinct : lib'.scans.scanIds.Nodup) :
    Serves readers S fts aggregateIdCapacity lib' := by
  have hreach : Scan.Reachable readers S (lib.scans.afterScan readers env pick) :=
    h.scans.scan env pick contents
  rw [scans_of_scan hs] at hdistinct
  rw [LibraryService.step] at hs
  rcases (runScan_spec contents.covers h.scans.sound pick).2 with ⟨hc, hr⟩ | ⟨hc, hp⟩
  · rw [if_neg (by rw [hc]; decide), Option.some_inj] at hs
    subst hs
    have hids := (Service.afterScan_of_not_committed hc).2
    have hdb : (lib.scans.afterScan readers env pick).world.database =
        lib.scans.world.database := hr.database
    refine ⟨hreach, h.catalog, ?_, ?_, fun db hdb' => ?_, h.published⟩
    · rw [hdb]
      exact h.current
    · rw [hdb]
      exact h.named
    · change NamesUsedScan (lib.scans.afterScan readers env pick).scanIds db
      rw [hids]
      exact h.used db hdb'
  · rw [if_pos hc, Option.some_inj] at hs
    subst hs
    obtain ⟨hsnapshot, hids⟩ := Service.afterScan_of_committed hc
    have hnew := hdistinct
    rw [hids, List.nodup_cons] at hnew
    have hadmits := (h.admits pick contents hc).2 hnew.1
    obtain ⟨bytes, _, row, hrow, _, hid⟩ := runScan_names contents.covers h.scans.sound pick hc
    refine ⟨hreach, ?_, List.getLast?_concat, .inl hadmits.1, fun db hdb => ?_, ?_⟩
    · obtain ⟨db, actions, hdb, hrun⟩ := h.catalog
      refine ⟨db, actions ++ [.commit (lib.scans.afterScan readers env pick).world.database], hdb,
        Runs.run_append_eq_some.mpr ⟨_, hrun, ?_⟩⟩
      rw [Runs.run_cons_eq_some]
      exact ⟨_, if_pos hadmits, rfl⟩
    · change NamesUsedScan (lib.scans.afterScan readers env pick).scanIds db
      rw [hids]
      rcases List.mem_append.mp hdb with hold | hnew
      · exact (h.used db hold).mono (List.subset_cons_self _ _)
      · rw [List.mem_singleton.mp hnew]
        refine ⟨row, hrow, fun id he => ?_⟩
        rw [Option.some.inj (he.symm.trans hid)]
        exact List.mem_cons_self
    · exact List.rel_append h.published (.cons ⟨_, hreach, hdistinct, hsnapshot, rfl⟩ .nil)

theorem scanIds_of_step {action : LibraryAction}
    (hs : lib.step readers fts aggregateIdCapacity action = some lib')
    (h : lib'.scans.scanIds.Nodup) : lib.scans.scanIds.Nodup := by
  cases action with
  | scan env pick =>
    rw [scans_of_scan hs] at h
    exact Service.nodup_of_afterScan h
  | restart =>
    cases hs
    exact h
  | serve action =>
    cases action with
    | commit db => cases hs
    | begin | advance | rehash =>
      rw [LibraryService.step] at hs
      · obtain ⟨catalog, _, rfl⟩ := Option.map_eq_some_iff.mp hs
        exact h
      · exact fun db hcommit => by cases hcommit

theorem Serves.step (h : Serves readers S fts aggregateIdCapacity lib) {action : LibraryAction}
    (hallowed : action.Allowed readers S)
    (hs : lib.step readers fts aggregateIdCapacity action = some lib')
    (hdistinct : lib'.scans.scanIds.Nodup) :
    Serves readers S fts aggregateIdCapacity lib' := by
  have hserve : ∀ action : ServiceAction, (∀ db, action ≠ .commit db) →
      (lib.catalog.step fts action).map (fun catalog => { lib with catalog := catalog }) =
        some lib' → Serves readers S fts aggregateIdCapacity lib' := by
    intro action hcommit hs
    obtain ⟨catalog, hstep, rfl⟩ := Option.map_eq_some_iff.mp hs
    have hversions := versions_of_serve hstep hcommit
    obtain ⟨db, actions, hdb, hrun⟩ := h.catalog
    refine ⟨h.scans, ⟨db, actions ++ [action], hdb, Runs.run_append_eq_some.mpr ⟨_, hrun, ?_⟩⟩,
      ?_, h.named, fun db hdb => ?_, ?_⟩
    · exact Runs.run_cons_eq_some.mpr ⟨_, hstep, rfl⟩
    · exact (congrArg List.getLast? hversions).trans h.current
    · exact h.used db (hversions ▸ hdb)
    · exact hversions ▸ h.published
  cases action with
  | scan env pick => exact h.scan pick hallowed hs hdistinct
  | restart =>
    cases hs
    refine ⟨h.scans.restart, ⟨_, [], h.named, rfl⟩, rfl, h.named, fun db hdb => ?_,
      .cons ⟨_, h.scans, hdistinct, rfl, rfl⟩ .nil⟩
    rw [List.mem_singleton.mp hdb]
    exact h.used _ (List.mem_of_getLast? h.current)
  | serve action =>
    cases action with
    | commit db => cases hs
    | begin input => exact hserve (.begin input) (fun _ hc => by cases hc) hs
    | advance index answers => exact hserve (.advance index answers) (fun _ hc => by cases hc) hs
    | rehash sessions => exact hserve (.rehash sessions) (fun _ hc => by cases hc) hs

theorem LibraryRun.serves {actions : List LibraryAction}
    (h : LibraryRun readers S fts aggregateIdCapacity actions lib) :
    Serves readers S fts aggregateIdCapacity lib := by
  obtain ⟨source, inpxSourceSizeBytes, covers, hsource, hrun⟩ := h.reaches
  have hallowed : Runs.EachStep (LibraryService.step readers fts aggregateIdCapacity)
      (fun _ action => action.Allowed readers S)
      (.start aggregateIdCapacity source inpxSourceSizeBytes covers) actions :=
    .of_forall fun action haction _ => h.allowed action haction
  refine hallowed.run_invariant
    (I := fun lib => lib.scans.scanIds.Nodup → Serves readers S fts aggregateIdCapacity lib)
    (fun _ _ _ hs hgood hstep hdistinct =>
      (hs (scanIds_of_step hstep hdistinct)).step hgood hstep hdistinct) hrun (fun _ => ?_)
    h.distinct
  refine ⟨.start source inpxSourceSizeBytes covers, ⟨_, [], .inr rfl, rfl⟩, rfl, .inr rfl,
    fun db hdb => ?_,
    .cons ⟨_, .start source inpxSourceSizeBytes covers, List.nodup_nil, rfl, rfl⟩ .nil⟩
  rw [List.mem_singleton.mp hdb]
  refine ⟨source, rfl, fun id hid => ?_⟩
  rw [hsource] at hid
  cases hid

/-- Whatever happened before, a scan that commits leaves a catalog that names the SHA-256 of its
source file and the id of the scan, and unless a scan before it had this id no version that the
process serves has the same identity. -/
theorem LibraryRun.admits_scan {actions : List LibraryAction}
    (h : LibraryRun readers S fts aggregateIdCapacity actions lib) {env : ScanEnv}
    (pick : Nat → Nat) (contents : ContentsIn readers env S)
    (hc : (runScan readers env pick lib.scans.world).committed = true) :
    (∃ bytes, env.sourceFileAtCommit.result = .ok bytes ∧
      readCatalogIdentity (lib.scans.afterScan readers env pick).world.database =
        .ok ⟨readers.sha.computeBytes bytes, makeScanId env.millis lib.scans.world.sequence⟩) ∧
    (makeScanId env.millis lib.scans.world.sequence ∉ lib.scans.scanIds →
      lib.catalog.Admits (lib.scans.afterScan readers env pick).world.database) :=
  h.serves.admits pick contents hc

end Steps

/-! ### What a reader gets -/

/-- The book has this LibId in a version of the catalog. -/
def Carries (db : Database) (libId : Bytes) (book : Book) : Prop :=
  ∃ l ∈ db.locations.rows, l.bookId = book.id ∧ l.libId = libId

/-- What a complete listing of a version says about the snapshot it was made from. -/
structure ListsSnapshot (readers : Readers) (snapshot : Snapshot) (db : Database)
    (books : List Book) : Prop where
  /-- Every book of the version is there once, and no other. -/
  complete : (books.map Book.id).Perm (db.books.rows.map BookRow.id)
  /-- The available books are the records that a scan of the snapshot from scratch lists. -/
  listed : ∀ libId, (∃ book ∈ books, book.isAvailable = true ∧ Carries db libId book) ↔
    ∃ i segment inpxRecord, Scan.Listed readers snapshot libId i segment inpxRecord
  /-- A LibId has one book. -/
  unique : ∀ libId, ∀ book ∈ books, ∀ book' ∈ books, Carries db libId book →
    Carries db libId book' → book = book'
  /-- An available book is where its record says. -/
  owned : ∀ book ∈ books, book.isAvailable = true → ∀ l ∈ db.locations.rows, l.bookId = book.id →
    ∀ i segment inpxRecord, Scan.Listed readers snapshot l.libId i segment inpxRecord →
      OwnedBy db l i segment inpxRecord

def Unfiltered (query : SearchQuery) : Prop :=
  query.text = [] ∧ query.languages = [] ∧ query.genres = []

section Reading

variable {readers : Readers} {S : Set Bytes} {fts : FullText} {db : Database}

/-- A book that was read is that of a row and a location. -/
theorem mem_readBooks {ids : List Nat} {books : List Book} (h : readBooks db ids = .ok books)
    {book : Book} (hbook : book ∈ books) : ∃ row location, row ∈ db.books.rows ∧
      location ∈ db.locations.rows ∧ row.id = book.id ∧ location.bookId = book.id ∧
      book.isAvailable = decide (location.availability = .available) := by
  have hjoined : ∀ id r, joinedBook db id = some r → r.1 ∈ db.books.rows ∧
      r.2 ∈ db.locations.rows ∧ r.1.id = id ∧ r.2.bookId = id := by
    intro id r hr
    obtain ⟨row, hrow, hr⟩ := Option.bind_eq_some_iff.mp hr
    obtain ⟨location, hlocation, hr⟩ := Option.bind_eq_some_iff.mp hr
    cases hr
    obtain ⟨hmem, hid⟩ := Table.find?_eq_some.mp hrow
    obtain ⟨hmem', hid'⟩ := Table.find?_eq_some.mp hlocation
    exact ⟨hmem, hmem', hid, hid'⟩
  rw [readBooks] at h
  induction ids generalizing books with
  | nil =>
    simp only [List.filterMap_nil, List.mapM_nil] at h
    cases h
    cases hbook
  | cons id ids ih =>
    cases hr : joinedBook db id with
    | none =>
      rw [List.filterMap_cons_none hr] at h
      exact ih h hbook
    | some r =>
      obtain ⟨hrow, hlocation, hid, hid'⟩ := hjoined id r hr
      rw [List.filterMap_cons_some hr, List.mapM_cons] at h
      cases hf : tryParseBookFormat r.2.format with
      | none =>
        rw [hf] at h
        cases h
      | some format =>
        simp only [hf] at h
        obtain ⟨first, hfirst, hmore⟩ := Program.except_bind_eq_ok h
        obtain ⟨rest, hrest, hbooks⟩ := Program.except_bind_eq_ok hmore
        cases hfirst
        cases hbooks
        rcases List.mem_cons.mp hbook with rfl | hbook
        · exact ⟨r.1, r.2, hrow, hlocation, rfl, hid'.trans hid.symm, rfl⟩
        · exact ih hrest hbook

/-- The listing of everything has the books that have a location. -/
theorem mem_orderedIds_unfiltered {query : SearchQuery} (hquery : Unfiltered query) {id : Nat} :
    id ∈ orderedIds fts db query [] ↔
      id ∈ db.books.rows.map BookRow.id ∧ id ∈ db.locations.rows.map LocationRow.bookId := by
  obtain ⟨_, hlanguages, hgenres⟩ := hquery
  have hlocation : ∀ id, hasLocation db id = true ↔
      id ∈ db.locations.rows.map LocationRow.bookId := by
    intro id
    rw [hasLocation]
    rw [Option.isSome_iff_exists, List.mem_map]
    exact exists_congr fun l => Table.find?_eq_some
  rw [mem_orderedIds]
  constructor
  · rintro ⟨row, hrow, rfl⟩
    obtain ⟨hmem, hpass⟩ := List.mem_filter.mp hrow
    simp only [Bool.and_eq_true] at hpass
    exact ⟨List.mem_map_of_mem hmem, (hlocation _).mp hpass.1.1.1⟩
  · rintro ⟨hid, hloc⟩
    obtain ⟨row, hrow, rfl⟩ := List.mem_map.mp hid
    refine ⟨row, List.mem_filter.mpr ⟨hrow, ?_⟩, rfl⟩
    rw [(hlocation _).mpr hloc, hlanguages, hgenres]
    rfl

/-- The complete listing of a version that scans made of a snapshot. -/
theorem listsSnapshot_of_published {snapshot : Snapshot} (hfree : readers.sha.CollisionFree S)
    (h : Published readers S snapshot db) {query : SearchQuery} (hquery : Unfiltered query)
    {books : List Book} (hids : books.map Book.id = orderedIds fts db query [])
    (hread : ∀ book ∈ books, ∃ row location, row ∈ db.books.rows ∧
      location ∈ db.locations.rows ∧ row.id = book.id ∧ location.bookId = book.id ∧
      book.isAvailable = decide (location.availability = .available)) :
    ListsSnapshot readers snapshot db books := by
  obtain ⟨scans, hscans, hdistinct, rfl, rfl⟩ := h
  obtain ⟨havailable, howned⟩ := hscans.availableLocations hfree hdistinct
  have hconsistent := hscans.sound.consistent
  have hbookIds : ∀ l ∈ scans.world.database.locations.rows, l.bookId ∈ books.map Book.id := by
    intro l hl
    rw [hids, mem_orderedIds_unfiltered hquery]
    exact ⟨hconsistent.bookId_mem hl, List.mem_map_of_mem hl⟩
  have hlocation : ∀ book ∈ books, ∀ l ∈ scans.world.database.locations.rows, l.bookId = book.id →
      book.isAvailable = decide (l.availability = .available) := by
    intro book hbook l hl hid
    obtain ⟨_, location, _, hmem, _, hid', hav⟩ := hread book hbook
    rw [Table.key_inj hl hmem (hid.trans hid'.symm)]
    exact hav
  have hnodup : (books.map Book.id).Nodup := hids ▸ orderedIds_nodup
  refine {
    complete := ?_
    listed := fun libId => (Iff.trans ?_ (havailable libId))
    unique := ?_
    owned := ?_ }
  · refine (List.perm_ext_iff_of_nodup hnodup (Table.key_nodup _)).mpr fun id => ?_
    rw [hids, mem_orderedIds_unfiltered hquery, hconsistent.owned.mem_iff, and_self]
  · constructor
    · rintro ⟨book, hbook, hav, l, hl, hid, hlib⟩
      refine ⟨l, hl, hlib, ?_⟩
      rw [hlocation book hbook l hl hid] at hav
      exact of_decide_eq_true hav
    · rintro ⟨l, hl, hlib, hav⟩
      obtain ⟨book, hbook, hid⟩ := List.mem_map.mp (hbookIds l hl)
      refine ⟨book, hbook, ?_, l, hl, hid.symm, hlib⟩
      rw [hlocation book hbook l hl hid.symm]
      exact decide_eq_true hav
  · rintro libId book hbook book' hbook' ⟨l, hl, hid, hlib⟩ ⟨l', hl', hid', hlib'⟩
    rw [Table.name_inj hl hl' (hlib.trans hlib'.symm)] at hid
    exact List.inj_on_of_nodup_map hnodup hbook hbook' (hid.symm.trans hid')
  · intro book hbook hav l hl hid i segment inpxRecord hlisted
    rw [hlocation book hbook l hl hid] at hav
    exact howned l hl (of_decide_eq_true hav) i segment inpxRecord hlisted

end Reading

/-- Whatever scans, restarts and other requests happened before and in between, a reader who pages
through the listing of everything until there is no next page has got each book of one version once,
and the available ones are exactly the records that the INPX snapshot of that version lists. -/
theorem pages_mirror_snapshot {readers : Readers} {S : Set Bytes} {fts : FullText}
    {aggregateIdCapacity : Nat} {actions : List LibraryAction} {lib : LibraryService}
    (hfree : readers.sha.CollisionFree S)
    (hrun : LibraryRun readers S fts aggregateIdCapacity actions lib) {first : Request}
    {rest : List Request} (hread : ReadThrough lib.catalog first rest)
    (hquery : Unfiltered first.input.query) (hoffset : first.input.query.offset = 0)
    {before : List Request} {last : Request} {page : SearchPage}
    (hlast : first :: rest = before ++ [last]) (hpage : last.page? = some page)
    (hend : page.nextCursor = none) :
    ∃ snapshot, lib.snapshots[first.version]? = some snapshot ∧
      ListsSnapshot readers snapshot (lib.catalog.snapshot first.version)
        ((first :: rest).flatMap Request.books) := by
  have hserves := hrun.serves
  obtain ⟨db, served, hdb, hserved⟩ := hserves.catalog
  have hsound := sound_of_run hserved
  obtain ⟨ftsQuery, hfts, hjoined⟩ := (pages_join hrun.capacity hdb hserved).1 first rest hread
  obtain rfl : ftsQuery = [] := by
    have htext : first.input.query.hasText = false := by
      rw [SearchQuery.hasText]
      rw [hquery.1]
      rfl
    rw [buildFtsQuery] at hfts
    rw [htext] at hfts
    exact (Except.ok.inj hfts).symm
  have hlt : first.version < lib.catalog.versions.length :=
    hsound.version first (hread.known first List.mem_cons_self)
  have hids := hjoined.whole before last page hlast hpage hend
  rw [hoffset, List.drop_zero] at hids
  have hlength : first.version < lib.snapshots.length := hserves.published.length_eq ▸ hlt
  refine ⟨_, List.getElem?_eq_getElem hlength, ?_⟩
  have hpublished : Published readers S lib.snapshots[first.version]
      (lib.catalog.snapshot first.version) := by
    rw [CatalogService.snapshot]
    rw [List.getElem?_eq_getElem hlt]
    exact hserves.published.get hlength hlt
  refine listsSnapshot_of_published hfree hpublished hquery hids fun book hbook => ?_
  obtain ⟨r, hr, hbook⟩ := List.mem_flatMap.mp hbook
  obtain ⟨page', hpage'⟩ := Option.isSome_iff_exists.mp (hread.answered r hr)
  obtain ⟨opened, hof⟩ := hsound.pageOf (hread.known r hr) hpage'
  obtain ⟨earlier, later, hsplit⟩ := List.append_of_mem hr
  have hversion := (hsound.chain hread.known hread.answered hread.chain earlier r later hsplit).1
  rw [Request.books] at hbook
  rw [hpage'] at hbook
  exact mem_readBooks (hversion ▸ hof.books) hbook

/-! ### A small library -/

/-- The row of the source of a new catalog. -/
def sampleSource : SourceRow := ⟨ascii "library.inpx", ascii "sha256:", none, none, none⟩

def libraryCursor : SearchCursor :=
  ⟨hexText (List.replicate 16 7), sampleReaders.sha.computeBytes (ascii "PK second"),
    ascii "2000-1", 1⟩

/-- What a reader of two pages asks for. -/
def sampleServing : List ServiceAction :=
  [.begin ⟨{ limit := 1 }, false, false⟩] ++ List.replicate 5 (.advance 0 sampleAnswers) ++
    [.begin ⟨{ limit := 7, cursor := some libraryCursor }, false, false⟩, .advance 1 sampleAnswers]

/-- Two scans, and the listing of the second snapshot read in two pages. -/
def sampleLibrary : List LibraryAction :=
  .scan firstEnv (fun _ => 0) :: .scan secondEnv (fun _ => 0) :: sampleServing.map .serve

/-- A reader's requests after scans of the samples are a run of the library. -/
theorem libraryRun_sample {lib : LibraryService} {actions : List LibraryAction}
    (hactions : actions = [.scan firstEnv fun _ => 0] ∨ ∃ served : List ServiceAction, actions =
      .scan firstEnv (fun _ => 0) :: .scan secondEnv (fun _ => 0) :: served.map .serve)
    (hrun : Runs.run (LibraryService.step sampleReaders emptyText 8)
      (.start 8 sampleSource 0 fun _ => none) actions = some lib)
    (hdistinct : lib.scans.scanIds.Nodup) :
    LibraryRun sampleReaders sampleContents emptyText 8 actions lib := by
  refine ⟨by decide, ⟨sampleSource, 0, fun _ => none, rfl, hrun⟩, fun action haction => ?_,
    hdistinct⟩
  rcases hactions with rfl | ⟨served, rfl⟩
  · rw [List.mem_singleton.mp haction]
    exact contentsIn_first
  · rcases List.mem_cons.mp haction with rfl | haction
    · exact contentsIn_first
    · rcases List.mem_cons.mp haction with rfl | haction
      · exact contentsIn_second
      · obtain ⟨served, _, rfl⟩ := List.mem_map.mp haction
        trivial

theorem sampleLibrary_admits : ∃ lib,
    Runs.run (LibraryService.step sampleReaders emptyText 8)
      (.start 8 sampleSource 0 fun _ => none) [.scan firstEnv fun _ => 0] = some lib ∧
    readCatalogIdentity (lib.scans.afterScan sampleReaders secondEnv fun _ => 0).world.database =
      .ok ⟨sampleReaders.sha.computeBytes (ascii "PK second"), ascii "2000-1"⟩ ∧
    lib.catalog.Admits
      (lib.scans.afterScan sampleReaders secondEnv fun _ => 0).world.database := by
  have hcommits : (Runs.run (LibraryService.step sampleReaders emptyText 8)
      (.start 8 sampleSource 0 fun _ => none) [.scan firstEnv fun _ => 0]).map (fun lib =>
        (lib.scans.scanIds, lib.scans.world.sequence, (runScan sampleReaders secondEnv (fun _ => 0)
          lib.scans.world).committed)) = some ([ascii "1000-0"], 1, true) := by decide +kernel
  obtain ⟨lib, hrun, hlib⟩ := Option.map_eq_some_iff.mp hcommits
  simp only [Prod.mk.injEq] at hlib
  obtain ⟨hids, hsequence, hcommitted⟩ := hlib
  have hdistinct : lib.scans.scanIds.Nodup := by
    rw [hids]
    exact List.nodup_singleton _
  obtain ⟨⟨bytes, hbytes, hidentity⟩, hadmits⟩ := (libraryRun_sample (.inl rfl) hrun
    hdistinct).admits_scan (fun _ => 0) contentsIn_second hcommitted
  rw [hsequence] at hidentity hadmits
  obtain rfl : ascii "PK second" = bytes := Except.ok.inj hbytes
  refine ⟨lib, hrun, hidentity, hadmits ?_⟩
  rw [hids]
  decide

theorem sampleLibrary_listsSnapshot : ∃ lib first second snapshot,
    Runs.run (LibraryService.step sampleReaders emptyText 8)
      (.start 8 sampleSource 0 fun _ => none) sampleLibrary = some lib ∧
    ([first, second].flatMap Request.books).map Book.id = [1, 2] ∧
    ListsSnapshot sampleReaders snapshot (lib.catalog.snapshot first.version)
      ([first, second].flatMap Request.books) := by
  have hevaluated : ((Runs.run (LibraryService.step sampleReaders emptyText 8)
      (.start 8 sampleSource 0 fun _ => none) sampleLibrary).filter fun lib =>
        lib.scans.scanIds.Nodup).map (fun lib =>
        lib.catalog.requests.map fun r => (r.input.query, (r.page?.map SearchPage.nextCursor),
          r.books.map Book.id)) =
      some [({ limit := 1 }, some (some libraryCursor), [1]),
        ({ limit := 7, cursor := some libraryCursor }, some none, [2])] := by decide +kernel
  obtain ⟨lib, hlib, hrequests⟩ := Option.map_eq_some_iff.mp hevaluated
  obtain ⟨hrun, hdistinct⟩ := Option.filter_eq_some_iff.mp hlib
  obtain ⟨first, rest, hlist, hfirst, hrest⟩ := List.map_eq_cons_iff.mp hrequests
  obtain ⟨second, _, rfl, hsecond, hnil⟩ := List.map_eq_cons_iff.mp hrest
  rw [List.map_eq_nil_iff.mp hnil] at hlist
  simp only [Prod.mk.injEq] at hfirst hsecond
  obtain ⟨hquery, hpage, hbooks⟩ := hfirst
  obtain ⟨hquery', hpage', hbooks'⟩ := hsecond
  obtain ⟨page, hfirstPage, hnext⟩ := Option.map_eq_some_iff.mp hpage
  obtain ⟨page', hsecondPage, hend⟩ := Option.map_eq_some_iff.mp hpage'
  have hread : ReadThrough lib.catalog first [second] := by
    refine {
      start := by rw [hquery]
      known := fun r hr => hlist ▸ hr
      answered := fun r hr => ?_
      chain := ?_ }
    · rcases List.mem_cons.mp hr with rfl | hr
      · exact Option.isSome_of_eq_some hfirstPage
      · rw [List.mem_singleton.mp hr]
        exact Option.isSome_of_eq_some hsecondPage
    · rw [List.isChain_cons_cons]
      refine ⟨⟨?_, page, libraryCursor, hfirstPage, hnext, by rw [hquery']⟩, .singleton _⟩
      rw [hquery, hquery']
      rfl
  have hunfiltered : Unfiltered first.input.query := by
    rw [hquery]
    exact ⟨rfl, rfl, rfl⟩
  have hsplit : [first, second] = [first] ++ [second] := rfl
  obtain ⟨snapshot, _, hlists⟩ := pages_mirror_snapshot collisionFree_sampleContents
    (libraryRun_sample (.inr ⟨_, rfl⟩) hrun (of_decide_eq_true hdistinct)) hread hunfiltered (by rw [hquery]) hsplit
    hsecondPage hend
  refine ⟨lib, first, second, snapshot, hrun, ?_, hlists⟩
  rw [List.flatMap_cons, List.flatMap_singleton, List.map_append, hbooks, hbooks']
  rfl

end InpxWebReader.System
