import Mathlib.Data.List.Dedup
import InpxWebReader.Database.Catalog

/-!
# What the numbers of a catalog depend on

Two consistent databases with the same entries have the same statistics: how many books there are,
how many of them are unavailable, which covers are counted and how large they are. The numbers of
the books, and the order in which rows were written, play no part.
-/

namespace InpxWebReader.Database

open Foundation Domain Inpx Storage Program List

/-- The LibIds of the catalog with their entries. -/
def viewOf (db : Database) : List (Bytes × Entry) :=
  db.locations.rows.map fun l => (l.libId, entryOf db l)

section View

variable {db db' : Database}

theorem catalogOf_libId {l : LocationRow} (hl : l ∈ db.locations.rows) :
    catalogOf db l.libId = some (entryOf db l) := by
  rw [catalogOf]
  rw [Table.findBy?_eq_some.mpr ⟨hl, rfl⟩]
  rfl

theorem mem_viewOf {p : Bytes × Entry} : p ∈ viewOf db ↔ catalogOf db p.1 = some p.2 := by
  rw [viewOf]
  rw [mem_map]
  constructor
  · rintro ⟨l, hl, rfl⟩
    exact catalogOf_libId hl
  · intro h
    obtain ⟨l, hl, he⟩ := Option.map_eq_some_iff.mp h
    obtain ⟨hmem, hlib⟩ := Table.findBy?_eq_some.mp hl
    exact ⟨l, hmem, Prod.ext hlib he⟩

theorem viewOf_nodup (db : Database) : (viewOf db).Nodup := by
  refine Nodup.of_map Prod.fst ?_
  rw [viewOf]
  rw [map_map]
  exact db.locations.name_nodup

/-- The same entries, in some order. -/
theorem viewOf_perm (h : catalogOf db = catalogOf db') : viewOf db ~ viewOf db' :=
  (perm_ext_iff_of_nodup (viewOf_nodup db) (viewOf_nodup db')).mpr fun p => by
    rw [mem_viewOf, mem_viewOf, h]

theorem countP_locations (P : Bytes → Entry → Bool) {p : LocationRow → Bool}
    (hp : ∀ l, p l = P l.libId (entryOf db l)) :
    db.locations.rows.countP p = (viewOf db).countP fun v => P v.1 v.2 := by
  rw [viewOf]
  rw [countP_map]
  exact countP_congr fun l _ => by rw [hp l]; rfl

theorem countP_locations_congr (h : catalogOf db = catalogOf db') (P : Bytes → Entry → Bool)
    {p p' : LocationRow → Bool} (hp : ∀ l, p l = P l.libId (entryOf db l))
    (hp' : ∀ l, p' l = P l.libId (entryOf db' l)) :
    db.locations.rows.countP p = db'.locations.rows.countP p' := by
  rw [countP_locations P hp, countP_locations P hp']
  exact (viewOf_perm h).countP_eq _

theorem length_locations_congr (h : catalogOf db = catalogOf db') :
    db.locations.rows.length = db'.locations.rows.length := by
  have hl := (viewOf_perm h).length_eq
  unfold viewOf at hl
  rw [length_map, length_map] at hl
  exact hl

theorem countStoredCoverReferences_eq (hown : db.books.rows.map BookRow.id ~
    db.locations.rows.map LocationRow.bookId) (path : Bytes) :
    countStoredCoverReferences db path =
      (viewOf db).countP fun v => v.2.coverPath = some path := by
  rw [← countP_locations (fun _ e => e.coverPath = some path)
    (p := fun l => coverOf db l.bookId = some path) fun _ => rfl]
  have hmap : ∀ rows : List LocationRow, (rows.countP fun l => coverOf db l.bookId = some path) =
      (rows.map LocationRow.bookId).countP fun b => coverOf db b = some path := fun rows => by
    rw [countP_map]
    rfl
  rw [hmap, ← hown.countP_eq, countP_map]
  rw [countStoredCoverReferences]
  refine countP_congr fun row hrow => ?_
  have hcover : coverOf db row.id = row.coverPath := by
    rw [coverOf]
    rw [Table.find?_eq_some.mpr ⟨hrow, rfl⟩]
    rfl
  simp only [Function.comp_apply, hcover]

/-- The INPX file and the archives that the entries are in. -/
theorem collectInpxSourceSnapshot_congr (h : catalogOf db = catalogOf db')
    (hs : db.segments = db'.segments) (files : SourceFiles) :
    collectInpxSourceSnapshot files db = collectInpxSourceSnapshot files db' := by
  have harchives : ∀ d : Database, (d.locations.rows.filterMap fun l =>
      ((d.segments.find? l.segmentId).bind SegmentRow.resolvedArchivePath).bind files.archive) =
        (viewOf d).filterMap fun v =>
          ((d.segments.find? v.2.segmentId).bind SegmentRow.resolvedArchivePath).bind
            files.archive := fun d => by
    rw [viewOf]
    rw [filterMap_map]
    rfl
  unfold collectInpxSourceSnapshot
  rw [harchives, harchives, hs]
  exact ((((viewOf_perm h).filterMap _).append_left _).dedup.map _).sum_eq

/-- A cover is counted with one size. -/
def AllowedSizes.Unique (sizes : AllowedSizes) : Prop :=
  ∀ path a b, sizes.allowed path a → sizes.allowed path b → a = b

section Consistent

variable {sizes : AllowedSizes}

theorem coverFiles_perm (hc : Consistent sizes 0 db) (hc' : Consistent sizes 0 db')
    (hunique : sizes.Unique) (h : catalogOf db = catalogOf db') :
    db.coverFiles.rows ~ db'.coverFiles.rows := by
  refine Table.rows_perm fun path => ?_
  obtain ⟨st, hst, -⟩ := hc.recorded
  obtain ⟨st', hst', -⟩ := hc'.recorded
  have hrefs : countStoredCoverReferences db path = countStoredCoverReferences db' path := by
    rw [countStoredCoverReferences_eq hc.owned, countStoredCoverReferences_eq hc'.owned]
    exact (viewOf_perm h).countP_eq _
  have hcount := (hst.counts path).trans (hrefs ▸ (hst'.counts path).symm)
  cases hf : db.coverFiles.find? path with
  | none =>
    rw [hf, Option.map_none] at hcount
    exact (Option.map_eq_none_iff.mp hcount.symm).symm
  | some row =>
    rw [hf, Option.map_some] at hcount
    obtain ⟨row', hf', hreference⟩ := Option.map_eq_some_iff.mp hcount.symm
    obtain ⟨hmem, hpath⟩ := Table.find?_eq_some.mp hf
    obtain ⟨hmem', hpath'⟩ := Table.find?_eq_some.mp hf'
    have hsize : row.sizeBytes = row'.sizeBytes :=
      hunique path _ _ (hpath ▸ hst.sizes row hmem) (hpath' ▸ hst'.sizes row' hmem')
    rw [hf']
    cases row
    cases row'
    simp only at hpath hpath' hreference hsize
    subst hpath hpath' hreference hsize
    rfl

/-- The statistics of a consistent database are a matter of its entries and its source. -/
theorem Consistent.statistics_eq (hc : Consistent sizes 0 db) (hc' : Consistent sizes 0 db')
    (hunique : sizes.Unique) (h : catalogOf db = catalogOf db')
    (hsource : db.statistics.map StatisticsRow.inpxSourceSizeBytes =
      db'.statistics.map StatisticsRow.inpxSourceSizeBytes) :
    db.statistics = db'.statistics := by
  have hperm := coverFiles_perm hc hc' hunique h
  have hlocations := length_locations_congr h
  have hunavailable : db.locations.rows.countP LocationRow.isUnavailable =
      db'.locations.rows.countP LocationRow.isUnavailable :=
    countP_locations_congr h (fun _ e => decide (e.availability ≠ .available))
      (fun _ => rfl) fun _ => rfl
  have hbooks : ∀ {d : Database}, Consistent sizes 0 d →
      d.books.rows.length = d.locations.rows.length := fun hd => by
    have hl := hd.owned.length_eq
    rw [length_map, length_map] at hl
    exact hl
  obtain ⟨st, hst, hb, hu⟩ := hc.recorded
  obtain ⟨st', hst', hb', hu'⟩ := hc'.recorded
  have hcache : st.coverCacheSizeBytes = st'.coverCacheSizeBytes := by
    rw [hst.cacheSize, hst'.cacheSize]
    exact (hperm.map _).sum_eq
  rw [hst.row, hst'.row] at hsource ⊢
  rw [hbooks hc, hlocations, ← hbooks hc'] at hb
  rw [hunavailable] at hu
  rw [Option.map_some, Option.map_some, Option.some_inj] at hsource
  have hbook : st.bookCount = st'.bookCount := hb.trans hb'.symm
  have hun : st.unavailableBookCount = st'.unavailableBookCount := hu.trans hu'.symm
  cases st
  cases st'
  simp only at hbook hun hcache hsource
  rw [hbook, hun, hcache, hsource]

end Consistent

end View

/-! ### Databases with the same entries -/

/-- The two databases say the same about each LibId, and have the same segments and markers. -/
structure SameCatalog (db db' : Database) : Prop where
  catalog : catalogOf db = catalogOf db'
  segments : db.segments = db'.segments
  deletions : db.deletions = db'.deletions

namespace SameCatalog

variable {db db' : Database}

theorem isListed_eq (h : SameCatalog db db') (libId : Bytes) (e : Entry) :
    e.isListed db libId = e.isListed db' libId := by
  unfold Entry.isListed segmentAvailable
  rw [h.segments, h.deletions]

theorem countP_toMarkUnavailable (h : SameCatalog db db') :
    db.locations.rows.countP (toMarkUnavailable db) =
      db'.locations.rows.countP (toMarkUnavailable db') := by
  refine countP_locations_congr h.catalog
    (fun libId e => decide (e.availability = .available) && !e.isListed db libId)
    (fun l => toMarkUnavailable_eq db l) fun l => ?_
  rw [toMarkUnavailable_eq, h.isListed_eq]
  rfl

theorem countP_toRestore (h : SameCatalog db db') :
    db.locations.rows.countP (toRestore db) = db'.locations.rows.countP (toRestore db') := by
  refine countP_locations_congr h.catalog
    (fun libId e => decide (e.availability = .missingFromIndex) && e.isListed db libId)
    (fun l => toRestore_eq db l) fun l => ?_
  rw [toRestore_eq, h.isListed_eq]
  rfl

theorem withAbsent (h : SameCatalog db db') (segmentId : Nat) (scanId : Bytes) :
    SameCatalog (Database.withAbsent segmentId scanId db)
      (Database.withAbsent segmentId scanId db') := by
  refine ⟨funext fun libId => ?_, h.segments, h.deletions⟩
  rw [catalogOf_withAbsent, catalogOf_withAbsent, h.catalog]

theorem marked (h : SameCatalog db db') (scanId : Bytes) :
    SameCatalog (setAvailability (toMarkUnavailable db) .missingFromIndex scanId db)
      (setAvailability (toMarkUnavailable db') .missingFromIndex scanId db') := by
  refine ⟨funext fun libId => ?_, h.segments, h.deletions⟩
  rw [catalogOf_setAvailability (P := fun libId e => decide (e.availability = .available) &&
      !e.isListed db libId) fun l => toMarkUnavailable_eq db l,
    catalogOf_setAvailability (P := fun libId e => decide (e.availability = .available) &&
      !e.isListed db libId) fun l => ?_, h.catalog]
  rw [toMarkUnavailable_eq, h.isListed_eq]
  rfl

theorem settled (h : SameCatalog db db') (scanId : Bytes) :
    SameCatalog (settledAvailability scanId db) (settledAvailability scanId db') := by
  refine ⟨funext fun libId => ?_, h.segments, h.deletions⟩
  rw [catalogOf_settledAvailability, catalogOf_settledAvailability, h.catalog]
  simp only [h.isListed_eq]

theorem collectInpxSourceSnapshot_eq (h : SameCatalog db db') (files : SourceFiles) :
    collectInpxSourceSnapshot files db = collectInpxSourceSnapshot files db' :=
  collectInpxSourceSnapshot_congr h.catalog h.segments files

end SameCatalog

end InpxWebReader.Database
