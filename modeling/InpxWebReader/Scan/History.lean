import InpxWebReader.Scan.RunSpec

/-!
# Scan after scan

`Reachable readers S service` is every state that scans lead to from a new catalog, whatever they
are given, whether they commit, fail or are cancelled, and however often the process is restarted
between them. `S` has the contents that the scans hash. The id of a scan is made of the clock and of
a counter that starts again with the process, so a clock that is set back can give an id a second
time; the service lists the ids of the scans that committed, and what needs distinct ids says so.
-/

namespace InpxWebReader.Scan

open Foundation Domain Inpx Storage Database Program ExecState

/-! ### Histories -/

/-- The contents that a scan hashes are in `S`. -/
structure ContentsIn (readers : Readers) (env : ScanEnv) (S : Set Bytes) : Prop where
  covers : CoversIn readers env S
  texts : ∀ segment ∈ snapshotOf env, segment.2 ∈ S

/-- The scanning service: the world, the snapshot of the last scan that committed, and the ids of the
scans that committed, the last one first. No step reads the ids. -/
structure Service where
  world : World
  snapshot : Snapshot := []
  scanIds : List Bytes := []

namespace Service

def afterScan (readers : Readers) (env : ScanEnv) (pick : Nat → Nat) (service : Service) :
    Service :=
  { service with
    world := (runScan readers env pick service.world).world
    snapshot := if (runScan readers env pick service.world).committed then snapshotOf env
      else service.snapshot
    scanIds := if (runScan readers env pick service.world).committed then
        makeScanId env.millis service.world.sequence :: service.scanIds
      else service.scanIds }

/-- The service in a new process: the counter of `MakeScanId` starts again. -/
def restarted (service : Service) : Service :=
  { service with world := { service.world with sequence := 0 } }

def initial (source : SourceRow) (inpxSourceSizeBytes : Nat) (covers : CoverStore) : Service where
  world := { database := .initial source inpxSourceSizeBytes, covers := covers }

end Service

/-- Scans have one id only if they begin in the same millisecond with the same count, so the ids of
one process are distinct. -/
theorem makeScanId_inj {millis millis' sequence sequence' : Nat} :
    makeScanId millis sequence = makeScanId millis' sequence' ↔
      millis = millis' ∧ sequence = sequence' := by
  constructor
  · exact decimal_hyphen_inj
  · rintro ⟨rfl, rfl⟩
    rfl

inductive Reachable (readers : Readers) (S : Set Bytes) : Service → Prop
  | start (source : SourceRow) (inpxSourceSizeBytes : Nat) (covers : CoverStore) :
      Reachable readers S (.initial source inpxSourceSizeBytes covers)
  | scan {service : Service} (h : Reachable readers S service) (env : ScanEnv) (pick : Nat → Nat)
      (contents : ContentsIn readers env S) :
      Reachable readers S (service.afterScan readers env pick)
  | restart {service : Service} (h : Reachable readers S service) :
      Reachable readers S service.restarted

section Invariants

variable {readers : Readers} {S : Set Bytes}

theorem sound_initial (source : SourceRow) (inpxSourceSizeBytes : Nat) (covers : CoverStore) :
    Sound readers S ⟨.initial source inpxSourceSizeBytes, covers, 0⟩ := by
  refine ⟨⟨⟨fun _ _ h => absurd h List.not_mem_nil, fun _ _ h => absurd h List.not_mem_nil,
    fun _ _ h => absurd h List.not_mem_nil⟩, .nil, ?_⟩, fun libId e path he _ => by cases he⟩
  · refine ⟨{ inpxSourceSizeBytes := inpxSourceSizeBytes }, ⟨rfl, fun path => rfl,
      fun r hr => absurd hr List.not_mem_nil, rfl, le_rfl, le_rfl, Int.natCast_nonneg _⟩, rfl, rfl⟩

theorem Reachable.sound {service : Service} (h : Reachable readers S service) :
    Sound readers S service.world := by
  induction h with
  | start source inpxSourceSizeBytes covers => exact sound_initial source inpxSourceSizeBytes covers
  | scan h env pick contents ih =>
    rcases (runScan_spec contents.covers ih pick).2 with ⟨_, hr⟩ | ⟨_, hp⟩
    · exact ih.restored hr
    · exact hp.sound
  | restart h ih => exact ⟨ih.consistent, ih.covered⟩

/-- Genres are stored under the normal form of their spelling, which is what filters go by. -/
theorem Reachable.wellLinked {service : Service} (h : Reachable readers S service) :
    WellLinked service.world.database := h.sound.consistent.wellLinked

end Invariants

/-! ### The statistics -/

/-- The statistics say what the tables of the catalog say. -/
structure ExactStatistics (db : Database) : Prop where
  counters : ∃ st, db.statistics = some st ∧
    st.bookCount = db.books.rows.length ∧
    st.unavailableBookCount =
      db.locations.rows.countP (fun l => l.availability ≠ .available) ∧
    st.coverCacheSizeBytes = (db.coverFiles.rows.map CoverFileRow.sizeBytes).sum ∧
    st.IsNonnegative
  counted : ∀ path ≠ [], (∃ book ∈ db.books.rows, book.coverPath = some path) →
    ∃ row ∈ db.coverFiles.rows, row.coverPath = path ∧
      row.referenceCount = db.books.rows.countP (fun book => book.coverPath = some path) ∧
      ∀ row' ∈ db.coverFiles.rows, row'.coverPath = path → row' = row
  others : ∀ row ∈ db.coverFiles.rows, row.coverPath ≠ [] ∧
    ∃ book ∈ db.books.rows, book.coverPath = some row.coverPath

theorem countStoredCoverReferences_ne_zero {db : Database} {path : Bytes} :
    countStoredCoverReferences db path ≠ 0 ↔
      ∃ book ∈ db.books.rows, book.coverPath = some path := by
  rw [countStoredCoverReferences]
  rw [Nat.ne_zero_iff_zero_lt, List.countP_pos_iff]
  simp only [decide_eq_true_eq]

theorem exactStatistics_of_consistent {sha : Sha256} {S : Set Bytes} {db : Database}
    (h : Consistent (coverSizes sha S) 0 db) : ExactStatistics db := by
  obtain ⟨st, hc, hb, hu⟩ := h.recorded
  have hcache : 0 ≤ st.coverCacheSizeBytes := hc.cacheSize ▸ hc.cacheSize_nonneg
  refine ⟨⟨st, hc.row, hb, ?_, hc.cacheSize, hc.nonneg.1, hc.nonneg.2.1, hcache, hc.nonneg.2.2⟩,
    fun path _ hbook => ?_, fun row hrow => ?_⟩
  · rw [hu, sub_zero]
    rfl
  · have hcount := hc.counts path
    rw [if_neg (countStoredCoverReferences_ne_zero.mpr hbook)] at hcount
    obtain ⟨row, hrow, hrefs⟩ := Option.map_eq_some_iff.mp hcount
    obtain ⟨hmem, hkey⟩ := Table.find?_eq_some.mp hrow
    exact ⟨row, hmem, hkey, hrefs, fun row' hmem' hkey' =>
      Table.key_inj hmem' hmem (hkey'.trans hkey.symm)⟩
  · obtain ⟨bytes, _, hpath, _⟩ := hc.sizes row hrow
    refine ⟨ne_nil_of_contentAddressed hpath, ?_⟩
    have hfind : db.coverFiles.find? row.coverPath = some row :=
      Table.find?_eq_some.mpr ⟨hrow, rfl⟩
    exact countStoredCoverReferences_ne_zero.mp (hc.find?_some hfind).1

theorem coversIn_univ (readers : Readers) (env : ScanEnv) : CoversIn readers env Set.univ :=
  fun _ _ _ _ _ _ => Set.mem_univ _

theorem contentsIn_univ (readers : Readers) (env : ScanEnv) : ContentsIn readers env Set.univ :=
  ⟨coversIn_univ readers env, fun _ _ => Set.mem_univ _⟩

/-- Whatever scans a catalog has seen, its statistics are exact, and the next scan drives no
counter negative. -/
theorem Reachable.exactStatistics {readers : Readers} {service : Service}
    (h : Reachable readers Set.univ service) :
    ExactStatistics service.world.database ∧ ∀ env pick,
      (runScan readers env pick service.world).counterUnderflow = false :=
  ⟨exactStatistics_of_consistent h.sound.consistent,
    fun env pick => (runScan_spec (coversIn_univ readers env) h.sound pick).1⟩

/-- The service after the scan of the first snapshot. -/
def scannedService : Service :=
  Service.afterScan sampleReaders firstEnv (fun _ => 0) { world := emptyWorld }

theorem reachable_scannedService : Reachable sampleReaders Set.univ scannedService := by
  have hstart : Reachable sampleReaders Set.univ { world := emptyWorld } := .start _ 0 _
  exact hstart.scan firstEnv (fun _ => 0) (contentsIn_univ _ _)

theorem scannedService_exactStatistics :
    scannedService.snapshot = [(ascii "books.inp", firstInp)] ∧
      ExactStatistics scannedService.world.database :=
  ⟨by decide +kernel, reachable_scannedService.exactStatistics.1⟩

/-! ### All or nothing -/

/-- Every cover that a book refers to is a file with the bytes of its path. -/
def CoversPresent (sha : Sha256) (world : World) : Prop :=
  ∀ book ∈ world.database.books.rows, ∀ path, book.coverPath = some path →
    ∃ bytes, world.covers path = some (.regular bytes) ∧ IsCoverPathOf sha path bytes

theorem Sound.coversPresent {readers : Readers} {S : Set Bytes} {world : World}
    (h : Sound readers S world) : CoversPresent readers.sha world := by
  intro book hbook path hpath
  have hid : book.id ∈ world.database.books.rows.map BookRow.id := List.mem_map_of_mem hbook
  obtain ⟨l, hl, hbookId⟩ := List.mem_map.mp (h.consistent.owned.mem_iff.mp hid)
  refine h.covered l.libId (entryOf world.database l) path ?_ ?_
  · rw [catalogOf]
    rw [Table.findBy?_eq_some.mpr ⟨hl, rfl⟩]
    rfl
  · change coverOf world.database l.bookId = some path
    rw [coverOf]
    rw [hbookId, Table.find?_eq_some.mpr ⟨hbook, rfl⟩]
    exact hpath

/-- The files when the garbage collection of a run began: nothing that was there was lost, but for
temporary files. -/
theorem Publishes.collected {readers : Readers} {env : ScanEnv} {S : Set Bytes}
    {world world' : World} (h : Publishes readers env S world world') :
    ∃ covers : CoverStore,
      world'.covers = cleanupUnreferencedCovers env.collectorReaches world'.database covers ∧
      ∀ p node, asciiByte '-' ∉ p → world.covers p = some node → covers p = some node := by
  obtain ⟨_, sourceFingerprint, s, segmentIds, db₁, r₁, sub, db₂, r₂, s', _, _, hc, rfl⟩ := h
  obtain ⟨done, _, hd⟩ := hc.drained
  refine ⟨r₂.covers, congrArg Standing.covers hc.standing, fun p node hp hnode => ?_⟩
  by_cases hw : p ∈ r₂.writtenCoverPaths
  · rw [hd.writing.files.fresh p hw] at hnode
    cases hnode
  · rcases hd.writing.files.kept p hw with hk | hk
    · rw [hk, hnode]
    · exact absurd hk.2 hp

/-- The garbage collection removes files that no book refers to, and changes nothing else. -/
theorem unreferenced_of_collected {reaches : Bytes → Bool} {db : Database} {covers : CoverStore}
    {path : Bytes} (h : cleanupUnreferencedCovers reaches db covers path ≠ covers path) :
    cleanupUnreferencedCovers reaches db covers path = none ∧
      ∀ book ∈ db.books.rows, book.coverPath ≠ some path := by
  have href : isCoverReferenced db path = false := by
    by_contra hn
    exact h (cleanupUnreferencedCovers_of_referenced (Bool.not_eq_false _ ▸ hn))
  refine ⟨?_, fun book hbook hpath => ?_⟩
  · revert h
    rw [cleanupUnreferencedCovers]
    split
    · split
      · exact fun _ => rfl
      · next hcovers _ => exact fun h => absurd hcovers.symm h
    · exact fun h => absurd rfl h
  · rw [isCoverReferenced] at href
    rw [List.any_eq_false] at href
    exact href book hbook (decide_eq_true hpath)

/-- A scan that does not commit leaves the database and the covers as they were, one that commits
removes covers that no book refers to, and between scans every cover of a book is there. -/
theorem Reachable.allOrNothing {readers : Readers} {service : Service}
    (h : Reachable readers Set.univ service) :
    CoversPresent readers.sha service.world ∧ ∀ env pick,
      ((runScan readers env pick service.world).committed = false →
        (runScan readers env pick service.world).world.database = service.world.database ∧
        ∀ p, (service.world.covers p = none →
            (runScan readers env pick service.world).world.covers p = none) ∧
          (asciiByte '-' ∉ p →
            (runScan readers env pick service.world).world.covers p = service.world.covers p)) ∧
      ((runScan readers env pick service.world).committed = true →
        ∃ covers : CoverStore,
          (runScan readers env pick service.world).world.covers =
            cleanupUnreferencedCovers env.collectorReaches
              (runScan readers env pick service.world).world.database covers ∧
          (∀ p node, asciiByte '-' ∉ p → service.world.covers p = some node →
            covers p = some node) ∧
          ∀ p, (runScan readers env pick service.world).world.covers p ≠ covers p →
            (runScan readers env pick service.world).world.covers p = none ∧
            ∀ book ∈ (runScan readers env pick service.world).world.database.books.rows,
              book.coverPath ≠ some p) := by
  refine ⟨h.sound.coversPresent, fun env pick => ?_⟩
  rcases (runScan_spec (coversIn_univ readers env) h.sound pick).2 with ⟨hc, hr⟩ | ⟨hc, hp⟩
  · refine ⟨fun _ => ⟨hr.database, fun p => ⟨fun hn => ?_, fun hh => ?_⟩⟩, fun ht => ?_⟩
    · rcases hr.covers p with hk | hk
      · rw [hk, hn]
      · exact hk.1
    · exact (hr.covers p).resolve_right fun hk => hh hk.2
    · rw [hc] at ht
      cases ht
  · refine ⟨fun hf => ?_, fun _ => ?_⟩
    · rw [hc] at hf
      cases hf
    · obtain ⟨covers, hcollect, hkept⟩ := hp.collected
      refine ⟨covers, hcollect, hkept, fun p hne => ?_⟩
      rw [hcollect] at hne ⊢
      exact unreferenced_of_collected hne

theorem cancelledScan_allOrNothing :
    (runScan sampleReaders { secondEnv with stopAt := some 24 } (fun _ => 0)
        scannedService.world).world.database = scannedService.world.database :=
  ((reachable_scannedService.allOrNothing.2 { secondEnv with stopAt := some 24 }
    (fun _ => 0)).1 (by decide +kernel)).1

end InpxWebReader.Scan
