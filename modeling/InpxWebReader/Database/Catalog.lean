import InpxWebReader.Database.CoverCounts
import InpxWebReader.Database.Locations
import InpxWebReader.Database.SearchDrift

/-!
# The catalog as a whole

`catalogOf db` is what the catalog says about each LibId, the numbers of the books aside.
`Consistent sizes drift db` is the invariant of the database: every book has one location, and the
statistics are exact but for `drift` unavailable books that they were not told about yet. Storing a
record changes the catalog at one LibId and keeps the database consistent.
-/

namespace InpxWebReader.Database

open Foundation Domain Inpx Storage Program List

/-! ### What the catalog says -/

/-- What the catalog says about a LibId. -/
structure Entry where
  segmentId : Nat
  archiveName : Bytes
  entryName : Bytes
  availability : Availability
  presentInSegment : Bool
  lastSeenScanId : Option Bytes
  coverPath : Option Bytes
  deriving DecidableEq

def coverOf (db : Database) (bookId : Nat) : Option Bytes :=
  (db.books.find? bookId).bind BookRow.coverPath

/-- The entry of a location and its book. -/
def entryOf (db : Database) (l : LocationRow) : Entry where
  segmentId := l.segmentId
  archiveName := l.archiveName
  entryName := l.entryName
  availability := l.availability
  presentInSegment := l.presentInSegment
  lastSeenScanId := l.lastSeenScanId
  coverPath := coverOf db l.bookId

def catalogOf (db : Database) (libId : Bytes) : Option Entry :=
  (db.locations.findBy? libId).map (entryOf db)

def LocationRow.isUnavailable (l : LocationRow) : Bool := l.availability ≠ .available

/-- The statistics say that there are so many references, books and unavailable books. -/
def Recorded (sizes : AllowedSizes) (refs : Bytes → Nat) (books unavailable : Int)
    (db : Database) : Prop :=
  ∃ st, Counted sizes refs st db ∧ st.bookCount = books ∧ st.unavailableBookCount = unavailable

structure Consistent (sizes : AllowedSizes) (drift : Int) (db : Database) : Prop where
  wellLinked : WellLinked db
  owned : db.books.rows.map BookRow.id ~ db.locations.rows.map LocationRow.bookId
  recorded : Recorded sizes (countStoredCoverReferences db) db.books.rows.length
    (db.locations.rows.countP LocationRow.isUnavailable - drift) db

theorem Recorded.congr {sizes : AllowedSizes} {refs : Bytes → Nat} {b u : Int} {db db' : Database}
    (h : Recorded sizes refs b u db) (hst : db'.statistics = db.statistics)
    (hfiles : db'.coverFiles = db.coverFiles) : Recorded sizes refs b u db' := by
  obtain ⟨st, hc, hb, hu⟩ := h
  exact ⟨st, ⟨hst.trans hc.row, by rw [hfiles]; exact hc.counts, by rw [hfiles]; exact hc.sizes,
    by rw [hfiles]; exact hc.cacheSize, hc.nonneg⟩, hb, hu⟩

/-! ### The statistics are told -/

section Recording

variable {sizes : AllowedSizes} {refs : Bytes → Nat} {b u : Int} {db : Database}
  {covers : CoverStore}

theorem Counted.addBooks {st : StatisticsRow} (h : Counted sizes refs st db) {b u : Int}
    (hb : 0 ≤ st.bookCount + b) (hu : 0 ≤ st.unavailableBookCount + u) :
    Triple (fun s => s = db) (addStatisticsDelta b u 0 0)
      (fun _ s => OnlyStatisticsChange db s ∧
        Recorded sizes refs (st.bookCount + b) (st.unavailableBookCount + u) s)
      fun _ _ => False := by
  have hcache : 0 ≤ st.coverCacheSizeBytes := h.cacheSize ▸ h.cacheSize_nonneg
  refine (addStatisticsDelta_spec h.row b u 0 0 ⟨hb, hu, by simpa using hcache,
    by simpa using h.nonneg.2.2⟩).post fun _ s hs => ?_
  rw [hs]
  refine ⟨rfl, _, ⟨rfl, h.counts, h.sizes, ?_, hb, hu, ?_⟩, rfl, rfl⟩
  · simpa using h.cacheSize
  · simpa using h.nonneg.2.2

theorem recordInpxBookInserted_spec (h : Recorded sizes refs b u db) {path : Option Bytes}
    {size : Option Nat}
    (hpath : ∀ p, path = some p → ∃ n, size = some n ∧ Countable sizes covers p n) :
    Triple (fun s => s = db) (recordInpxBookInserted covers path size)
      (fun _ s => OnlyStatisticsChange db s ∧
        Recorded sizes (bumpedAt refs path (· + 1)) (b + 1) u s) fun _ _ => False := by
  obtain ⟨st, hc, rfl, rfl⟩ := h
  have hnonneg := hc.nonneg
  refine Triple.seq (hc.addBooks (by omega) (by omega)) ?_
  refine Triple.of_state fun db₁ ⟨hframe, st₁, hc₁, hb₁, hu₁⟩ => ?_
  refine (incrementCoverReference_spec hc₁ hpath).post fun _ s hs => ?_
  obtain ⟨hframe₂, st₂, ⟨hb₂, hu₂, _⟩, hc₂⟩ := hs
  exact ⟨hframe.trans hframe₂, st₂, hc₂, by omega, by omega⟩

/-- A path that the statistics know is in normal form. -/
theorem tryNormalizeCoverPath_bind {path : Option Bytes}
    (h : ∀ p, path = some p → tryNormalizeCoverPath p = some p) :
    path.bind tryNormalizeCoverPath = path := by
  cases path with
  | none => rfl
  | some p => exact h p rfl

theorem recordCoverPathChanged_spec (h : Recorded sizes refs b u db) {old path : Option Bytes}
    {size : Option Nat}
    (hold : ∀ p, old = some p → p ≠ [] ∧ tryNormalizeCoverPath p = some p ∧ 0 < refs p)
    (hpath : ∀ p, path = some p → ∃ n, size = some n ∧ Countable sizes covers p n) :
    Triple (fun s => s = db) (recordCoverPathChanged covers old path size)
      (fun _ s => OnlyStatisticsChange db s ∧
        Recorded sizes (if old = path then refs
          else bumpedAt (bumpedAt refs old (· - 1)) path (· + 1)) b u s) fun _ _ => False := by
  obtain ⟨st, hc, rfl, rfl⟩ := h
  have hnormal : ∀ p, path = some p → tryNormalizeCoverPath p = some p := fun p hp => by
    obtain ⟨n, _, hn⟩ := hpath p hp
    exact hn.normal
  rw [recordCoverPathChanged]
  rw [tryNormalizeCoverPath_bind fun p hp => (hold p hp).2.1, tryNormalizeCoverPath_bind hnormal]
  refine .ite (fun he => ?_) fun he => ?_
  · rw [if_pos he]
    refine (refreshCoverReferenceSize_spec hc fun p hp => ⟨hpath p hp, ?_⟩).post fun _ s hs => ?_
    · exact (hold p (he.trans hp)).2.2
    · obtain ⟨hframe, st', ⟨hb, hu, _⟩, hc'⟩ := hs
      exact ⟨hframe, st', hc', hb, hu⟩
  · rw [if_neg he]
    refine Triple.seq (decrementCoverReference_spec hc hold) ?_
    refine Triple.of_state fun db₁ ⟨hframe, st₁, ⟨hb₁, hu₁, _⟩, hc₁⟩ => ?_
    refine (incrementCoverReference_spec hc₁ hpath).post fun _ s hs => ?_
    obtain ⟨hframe₂, st₂, ⟨hb₂, hu₂, _⟩, hc₂⟩ := hs
    exact ⟨hframe.trans hframe₂, st₂, hc₂, hb₂.trans hb₁, hu₂.trans hu₁⟩

def unavailableCount (availability : Availability) : Int :=
  if availability = .available then 0 else 1

theorem recordInpxBookAvailabilityChanged_spec (h : Recorded sizes refs b u db)
    {old : Availability} (hu : unavailableCount old ≤ u) :
    Triple (fun s => s = db) (recordInpxBookAvailabilityChanged old .available)
      (fun _ s => OnlyStatisticsChange db s ∧
        Recorded sizes refs b (u - unavailableCount old) s) fun _ _ => False := by
  cases old with
  | available =>
    refine Triple.pure fun s hs => ?_
    rw [hs]
    exact ⟨.refl db, by simpa [unavailableCount] using h⟩
  | missingFromIndex =>
    obtain ⟨st, hc, rfl, rfl⟩ := h
    have hnonneg := hc.nonneg
    have hu' : (1 : Int) ≤ st.unavailableBookCount := hu
    refine (hc.addBooks (b := 0) (u := -1) (by omega) (by omega)).post fun _ s hs => ?_
    rw [add_zero] at hs
    exact hs

theorem addUnavailableBooks_spec (h : Recorded sizes refs b u db) (count : Nat) :
    Triple (fun s => s = db) (addUnavailableBooks count)
      (fun _ s => count < 2 ^ 63 ∧ OnlyStatisticsChange db s ∧
        Recorded sizes refs b (u + count) s)
      fun e _ => e = sizeOverflow ∧ 2 ^ 63 ≤ count := by
  rw [addUnavailableBooks]
  refine .ite (fun hz => ?_) fun _ => ?_
  · refine .pure fun s hs => ?_
    rw [hs, hz]
    exact ⟨by decide, .refl db, by simpa using h⟩
  · refine Triple.bind (M := fun a s => (a = (count : Int) ∧ count < 2 ^ 63) ∧ s = db)
      ((toSqliteInt64_spec count).post fun a s hs => ⟨⟨hs.1, hs.2.1⟩, hs.2.2⟩) fun a => ?_
    refine Triple.of_pure fun ⟨ha, hlt⟩ => ?_
    subst ha
    obtain ⟨st, hc, rfl, rfl⟩ := h
    have hnonneg := hc.nonneg
    refine (hc.addBooks (b := 0) (u := count) (by omega) (by omega)).conseq
      (fun _ hp => hp) (fun _ s hs => ?_) fun _ _ he => he.elim
    rw [add_zero] at hs
    exact ⟨hlt, hs⟩

theorem removeUnavailableBooks_spec (h : Recorded sizes refs b u db) {count : Nat}
    (hcount : (count : Int) ≤ u) :
    Triple (fun s => s = db) (removeUnavailableBooks count)
      (fun _ s => count < 2 ^ 63 ∧ OnlyStatisticsChange db s ∧
        Recorded sizes refs b (u - count) s)
      fun e _ => e = sizeOverflow ∧ 2 ^ 63 ≤ count := by
  rw [removeUnavailableBooks]
  refine .ite (fun hz => ?_) fun _ => ?_
  · refine .pure fun s hs => ?_
    rw [hs, hz]
    exact ⟨by decide, .refl db, by simpa using h⟩
  · refine Triple.bind (M := fun a s => (a = (count : Int) ∧ count < 2 ^ 63) ∧ s = db)
      ((toSqliteInt64_spec count).post fun a s hs => ⟨⟨hs.1, hs.2.1⟩, hs.2.2⟩) fun a => ?_
    refine Triple.of_pure fun ⟨ha, hlt⟩ => ?_
    subst ha
    obtain ⟨st, hc, rfl, rfl⟩ := h
    have hnonneg := hc.nonneg
    refine (hc.addBooks (b := 0) (u := -(count : Int)) (by omega) (by omega)).conseq
      (fun _ hp => hp) (fun _ s hs => ?_) fun _ _ he => he.elim
    rw [add_zero, ← sub_eq_add_neg] at hs
    exact ⟨hlt, hs⟩

theorem recomputeInpxSourceSize_spec (h : Recorded sizes refs b u db) (files : SourceFiles) :
    Triple (fun s => s = db) (recomputeInpxSourceSize files)
      (fun _ s => collectInpxSourceSnapshot files db < 2 ^ 63 ∧ OnlyStatisticsChange db s ∧
        Recorded sizes refs b u s ∧
        s.statistics.map StatisticsRow.inpxSourceSizeBytes =
          some (collectInpxSourceSnapshot files db : Int))
      fun e _ => e = sizeOverflow ∧ 2 ^ 63 ≤ collectInpxSourceSnapshot files db := by
  obtain ⟨st, hc, rfl, rfl⟩ := h
  rw [recomputeInpxSourceSize]
  refine Triple.bind (M := fun t s => t = db ∧ s = db) (.get fun s hs => ⟨hs, hs⟩) fun t => ?_
  refine Triple.of_pure fun ht => ?_
  subst ht
  refine Triple.bind (M := fun a s => (a = (collectInpxSourceSnapshot files t : Int) ∧
    collectInpxSourceSnapshot files t < 2 ^ 63) ∧ s = t)
    ((toSqliteInt64_spec _).post fun a s hs => ⟨⟨hs.1, hs.2.1⟩, hs.2.2⟩) fun a => ?_
  refine Triple.of_pure fun ⟨ha, hlt⟩ => ?_
  subst ha
  have hsome : { t with statistics := some (t.statistics.getD {}) } = t := by
    rw [hc.row, Option.getD_some, ← hc.row]
  refine Triple.seq (M := fun s => s = t) (.modify fun s hs => by rw [hs, hsome]) ?_
  rw [updateStatistics]
  refine Triple.bind (M := fun t' s => t' = t ∧ s = t) (.get fun s hs => ⟨hs, hs⟩) fun t' => ?_
  refine Triple.of_pure fun ht => ?_
  subst ht
  rw [hc.row]
  have hcache : 0 ≤ st.coverCacheSizeBytes := hc.cacheSize ▸ hc.cacheSize_nonneg
  have hnonneg := hc.nonneg
  refine Triple.bind (M := fun _ s => s = t') (.require (fun s hs _ => hs) fun s _ hn => ?_)
    fun _ => ?_
  · exact absurd ⟨hnonneg.1, hnonneg.2.1, hcache, Int.natCast_nonneg _⟩ hn
  · refine .modify fun s hs => ?_
    rw [hs]
    refine ⟨hlt, rfl, ⟨_, ⟨rfl, hc.counts, hc.sizes, hc.cacheSize, hnonneg.1, hnonneg.2.1, ?_⟩,
      rfl, rfl⟩, rfl⟩
    exact Int.natCast_nonneg _

end Recording

/-! ### The books are changed -/

section Books

variable {db : Database}

def coverCount (path : Bytes) (cover : Option Bytes) : Int := if cover = some path then 1 else 0

theorem countStoredCoverReferences_eq_total (db : Database) (path : Bytes) :
    (countStoredCoverReferences db path : Int) =
      db.books.total fun r => coverCount path r.coverPath := by
  unfold countStoredCoverReferences coverCount
  rw [Table.countP_eq_total]
  simp only [decide_eq_true_eq]

/-- The reference counts when a book has a cover more. -/
theorem coverReferences_add {refs refs' : Bytes → Nat} {cover : Option Bytes}
    (h : ∀ path, (refs' path : Int) = refs path + coverCount path cover) :
    refs' = bumpedAt refs cover (· + 1) := by
  funext path
  have hp := h path
  rw [coverCount] at hp
  cases cover with
  | none =>
    change refs' path = refs path
    rw [if_neg (by simp)] at hp
    omega
  | some p =>
    change refs' path = bumped refs p (· + 1) path
    rw [bumped]
    by_cases he : path = p
    · rw [if_pos (by rw [he])] at hp
      rw [if_pos he]
      omega
    · rw [if_neg (by simpa using Ne.symm he)] at hp
      rw [if_neg he]
      omega

/-- The reference counts when the cover of a book is replaced. -/
theorem coverReferences_replace {refs refs' : Bytes → Nat} {old cover : Option Bytes}
    (h : ∀ path, (refs' path : Int) = refs path + (coverCount path cover - coverCount path old))
    (hold : ∀ path, old = some path → 0 < refs path) :
    refs' = if old = cover then refs
      else bumpedAt (bumpedAt refs old (· - 1)) cover (· + 1) := by
  split
  · next he =>
    funext path
    have hp := h path
    rw [he] at hp
    omega
  · refine coverReferences_add fun path => ?_
    rw [h path]
    unfold coverCount
    cases old with
    | none =>
      change _ = (refs path : Int) + _
      simp
    | some p =>
      change _ = (bumped refs p (· - 1) path : Int) + _
      unfold bumped
      by_cases he : path = p
      · subst he
        have hpos := hold path rfl
        simp only [if_true]
        omega
      · simp only [Option.some_inj, if_neg (Ne.symm he), if_neg he]
        omega

theorem coverOf_eq_of_mem {row : BookRow} (h : row ∈ db.books.rows) :
    coverOf db row.id = row.coverPath := by
  rw [coverOf]
  rw [Table.find?_eq_some.mpr ⟨h, rfl⟩, Option.bind_some]

theorem coverOf_pos {bookId : Nat} {path : Bytes} (h : coverOf db bookId = some path) :
    0 < countStoredCoverReferences db path := by
  obtain ⟨row, hrow, hpath⟩ := Option.bind_eq_some_iff.mp h
  exact countP_pos_iff.mpr ⟨row, (Table.find?_eq_some.mp hrow).1, by simpa using hpath⟩

/-- The table of books with the cover of one of them replaced. -/
def coveredBooks (bookId : Nat) (coverPath : Option Bytes) (books : Table BookRow.id BookRow.id) :
    Table BookRow.id BookRow.id :=
  books.update (fun r => r.id = bookId) (BookRow.withCover coverPath)
    (BookRow.withCover_id coverPath) (BookRow.withCover_id coverPath)

@[simp] theorem locations_setBooks (books : Table BookRow.id BookRow.id) (db : Database) :
    (setBooks books db).locations = db.locations := rfl

@[simp] theorem locations_withCommands (commands : List SearchCommand) (db : Database) :
    (withCommands commands db).locations = db.locations := rfl

theorem updateBookCoverPath_spec (bookId : Nat) (coverPath : Option Bytes) (db : Database) :
    Triple (fun s => s = db) (updateBookCoverPath bookId coverPath)
      (fun _ s => s = setBooks (coveredBooks bookId coverPath db.books) db) fun _ _ => False :=
  .modify fun s hs => by rw [hs]; rfl

theorem map_id_update {books : Table BookRow.id BookRow.id} {p : BookRow → Bool}
    {f : BookRow → BookRow} {hkey hname} :
    (books.update p f hkey hname).rows.map BookRow.id = books.rows.map BookRow.id := by
  rw [Table.rows_update, map_map]
  refine map_congr_left fun r _ => ?_
  by_cases h : p r <;> simp [h, hkey]

/-- The books after a change of one of them: its cover is `coverPath`, the others have theirs. -/
structure BookCovered (bookId : Nat) (coverPath : Option Bytes) (db db' : Database) : Prop where
  self : coverOf db' bookId = coverPath
  others : ∀ b ≠ bookId, coverOf db' b = coverOf db b

theorem coverOf_coveredBooks {bookId : Nat} (coverPath : Option Bytes) (db : Database)
    (h : bookId ∈ db.books.rows.map BookRow.id) :
    BookCovered bookId coverPath db (setBooks (coveredBooks bookId coverPath db.books) db) := by
  obtain ⟨row, hrow, rfl⟩ := mem_map.mp h
  have hfind : ∀ b, coverOf (setBooks (coveredBooks row.id coverPath db.books) db) b =
      ((db.books.find? b).map fun r => if r.id = row.id then r.withCover coverPath else r).bind
        BookRow.coverPath := by
    intro b
    change ((coveredBooks row.id coverPath db.books).find? b).bind _ = _
    rw [coveredBooks]
    rw [Table.find?_update]
    simp only [decide_eq_true_eq]
  constructor
  · rw [hfind, Table.find?_eq_some.mpr ⟨hrow, rfl⟩, Option.map_some, if_pos rfl]
    rfl
  · intro b hb
    rw [hfind]
    rw [coverOf]
    cases hf : db.books.find? b with
    | none => rfl
    | some r =>
      rw [Option.map_some, if_neg]
      rwa [(Table.find?_eq_some.mp hf).2]

theorem insertedBook_covered {row : BookRow} {books} (coverPath : Option Bytes)
    (hins : db.books.insert? row = some books) (hnone : row.coverPath = none) :
    (∀ path, ((coveredBooks row.id coverPath books).total fun r => coverCount path r.coverPath) =
      (db.books.total fun r => coverCount path r.coverPath) + coverCount path coverPath) ∧
    (coveredBooks row.id coverPath books).rows.map BookRow.id =
      db.books.rows.map BookRow.id ++ [row.id] := by
  have hrows := (Table.insert?_eq_some.mp hins).2
  have hmem : row ∈ books.rows := by
    rw [hrows]
    exact mem_append_right _ (mem_singleton_self row)
  constructor
  · intro path
    rw [coveredBooks]
    rw [Table.total_update_one hmem (by simp) (fun r' hr' hp => ?_), Table.total_insert? hins]
    · have hz : coverCount path row.coverPath = 0 := by
        rw [hnone]
        exact if_neg (by simp)
      rw [hz]
      change _ + (coverCount path coverPath - 0) = _
      omega
    · exact Table.key_inj hr' hmem (of_decide_eq_true hp)
  · rw [coveredBooks]
    rw [map_id_update, hrows, map_append, map_singleton]

theorem updatedBook_covered {row : BookRow} (coverPath : Option Bytes)
    (hrow : row ∈ db.books.rows) (metadata) :
    (∀ path, ((coveredBooks row.id coverPath (updatedBooks row.id metadata db)).total
        fun r => coverCount path r.coverPath) =
      (db.books.total fun r => coverCount path r.coverPath) +
        (coverCount path coverPath - coverCount path row.coverPath)) ∧
    (coveredBooks row.id coverPath (updatedBooks row.id metadata db)).rows.map BookRow.id =
      db.books.rows.map BookRow.id := by
  have hmem : bindStoredBookMetadata metadata row ∈ (updatedBooks row.id metadata db).rows := by
    rw [updatedBooks]
    exact Table.mem_update.mpr ⟨row, hrow, if_pos (by simp)⟩
  constructor
  · intro path
    rw [coveredBooks]
    rw [Table.total_update_one hmem (by simp) (fun r' hr' hp => ?_)]
    · rw [updatedBooks]
      rw [Table.total_update_one hrow (by simp) (fun r' hr' hp => ?_)]
      · change _ + (coverCount path row.coverPath - _) + (coverCount path coverPath -
          coverCount path row.coverPath) = _
        omega
      · exact Table.key_inj hr' hrow (of_decide_eq_true hp)
    · exact Table.key_inj hr' hmem (of_decide_eq_true hp)
  · rw [coveredBooks, updatedBooks]
    rw [map_id_update, map_id_update]

end Books

/-! ### A record is stored -/

/-- The database after a record was stored, before the statistics are told: the entry of its LibId
is the only one that changed. -/
structure StoresRecord (libId : Bytes) (entry : Entry) (db db' : Database) : Prop where
  wellLinked : WellLinked db'
  owned : db'.books.rows.map BookRow.id ~ db'.locations.rows.map LocationRow.bookId
  catalog : catalogOf db' = Function.update (catalogOf db) libId (some entry)
  segments : db'.segments = db.segments
  deletions : db'.deletions = db.deletions

theorem StoresRecord.tell {libId : Bytes} {entry : Entry} {db db' db'' : Database}
    (h : StoresRecord libId entry db db') (hs : OnlyStatisticsChange db' db'') :
    StoresRecord libId entry db db'' := by
  rw [OnlyStatisticsChange] at hs
  rw [hs]
  exact ⟨⟨h.wellLinked.spelling, h.wellLinked.named, h.wellLinked.resolved⟩, h.owned, h.catalog,
    h.segments, h.deletions⟩

/-- The entry that storing a record makes. -/
def storedEntry (segmentId : Nat) (inpxRecord : InpxRecord) (scanId : Bytes)
    (coverPath : Option Bytes) : Entry where
  segmentId := segmentId
  archiveName := inpxRecord.archiveName
  entryName := inpxRecord.entryName
  availability := .available
  presentInSegment := true
  lastSeenScanId := some scanId
  coverPath := coverPath

section Storing

variable {sizes : AllowedSizes} {db : Database} {segmentId : Nat} {inpxRecord : InpxRecord}
  {scanId : Bytes} {coverPath : Option Bytes}

theorem Consistent.bookId_mem {drift : Int} (h : Consistent sizes drift db) {l : LocationRow}
    (hl : l ∈ db.locations.rows) : l.bookId ∈ db.books.rows.map BookRow.id :=
  h.owned.mem_iff.mpr (mem_map_of_mem hl)

/-- The catalog changes at the LibId of the location that is put. -/
theorem catalogOf_put {db' : Database} (bookId : Nat)
    (hcover : BookCovered bookId coverPath db db')
    (hput : db.locations.put? (locationRow segmentId bookId inpxRecord .available scanId) =
      some db'.locations)
    (hkey : ∀ l ∈ db.locations.rows, l.bookId = bookId → l.libId = inpxRecord.libId) :
    catalogOf db' = Function.update (catalogOf db) inpxRecord.libId
      (some (storedEntry segmentId inpxRecord scanId coverPath)) := by
  funext n
  unfold catalogOf
  rw [Table.findBy?_put? hput hkey]
  change Option.map _ (if inpxRecord.libId = n then _ else _) = _
  by_cases hn : inpxRecord.libId = n
  · subst hn
    rw [if_pos rfl, Option.map_some, Function.update_self]
    unfold entryOf locationRow storedEntry
    rw [hcover.self]
  · rw [if_neg hn, Function.update_of_ne (Ne.symm hn)]
    cases hf : db.locations.findBy? n with
    | none => rfl
    | some l =>
      obtain ⟨hmem, hlib⟩ := Table.findBy?_eq_some.mp hf
      have hb : l.bookId ≠ bookId := fun he => hn ((hkey l hmem he).symm.trans hlib)
      rw [Option.map_some, Option.map_some]
      unfold entryOf
      rw [hcover.others _ hb]

theorem upsertInpxLocation_spec (db : Database) {bookId : Nat} {availability : Availability}
    (hname : ∀ l ∈ db.locations.rows, l.libId = inpxRecord.libId → l.bookId = bookId) :
    Triple (fun s => s = db)
      (upsertInpxLocation segmentId bookId inpxRecord availability scanId)
      (fun _ s => ∃ table, db.locations.put?
          (locationRow segmentId bookId inpxRecord availability scanId) = some table ∧
        s = setLocations table db) fun _ _ => False := by
  obtain ⟨table, htable⟩ := Table.put?_isSome
    (r := locationRow segmentId bookId inpxRecord availability scanId) hname
  rw [upsertInpxLocation]
  refine Triple.bind (M := fun t s => t = db ∧ s = db) (.get fun s hs => ⟨hs, hs⟩) fun t => ?_
  refine Triple.of_pure fun ht => ?_
  subst ht
  rw [htable]
  refine Triple.bind (M := fun a s => a = table ∧ s = t) (.pure fun s hs => ⟨rfl, hs⟩)
    fun a => ?_
  refine Triple.of_pure fun ha => ?_
  subst ha
  exact .modify fun s hs => ⟨a, rfl, rfl⟩

theorem Consistent.storesNew (h : Consistent sizes 0 db) (coverPath : Option Bytes) {row : BookRow}
    {books mid db₁ : Database} {table books' metadata commands}
    (hins : db.books.insert? row = some books') (hid : row.id = db.books.nextId)
    (hnone : row.coverPath = none) (hbooks : books = setBooks books' db)
    (hmid : ReplacedRelations row.id metadata books mid)
    (hdb₁ : db₁ = withCommands commands mid)
    (hput : db.locations.put? (locationRow segmentId row.id inpxRecord .available scanId) =
      some table) :
    StoresRecord inpxRecord.libId (storedEntry segmentId inpxRecord scanId coverPath) db
      (setLocations table (setBooks (coveredBooks row.id coverPath db₁.books) db₁)) ∧
    Recorded sizes (countStoredCoverReferences db) db.books.rows.length
      (db.locations.rows.countP LocationRow.isUnavailable)
      (setLocations table (setBooks (coveredBooks row.id coverPath db₁.books) db₁)) ∧
    countStoredCoverReferences
      (setLocations table (setBooks (coveredBooks row.id coverPath db₁.books) db₁)) =
        bumpedAt (countStoredCoverReferences db) coverPath (· + 1) ∧
    (coveredBooks row.id coverPath db₁.books).rows.length = db.books.rows.length + 1 ∧
    table.rows.countP LocationRow.isUnavailable =
      db.locations.rows.countP LocationRow.isUnavailable := by
  have hdb₁books : db₁.books = books' := by
    rw [hdb₁, show (withCommands commands mid).books = mid.books from rfl, hmid.frame, hbooks]
    rfl
  have hfree : ∀ l ∈ db.locations.rows, l.bookId ≠ row.id := by
    intro l hl he
    refine db.books.nextId_not_mem ?_
    rw [← hid, ← he]
    exact h.bookId_mem hl
  obtain ⟨hrefs, hids⟩ := insertedBook_covered coverPath hins hnone
  have hrow : row.id ∈ books'.rows.map BookRow.id := by
    rw [(Table.insert?_eq_some.mp hins).2, map_append]
    exact mem_append_right _ (mem_singleton_self _)
  have hrest : Table.rows table = db.locations.rows ++ [locationRow segmentId row.id inpxRecord
      .available scanId] := by
    rw [Table.rows_put? hput]
    congr 1
    exact Table.filter_key_ne_of_notMem (r := locationRow segmentId row.id inpxRecord
      .available scanId) hfree
  rw [hdb₁books]
  have hframe : ∀ x : Table BookRow.id BookRow.id, setLocations table (setBooks x db₁) =
      { db with books := x, locations := table, entities := mid.entities, links := mid.links,
                searchIndex := db.searchIndex ++ commands } := by
    intro x
    rw [hdb₁, hmid.frame, hbooks]
    rfl
  rw [hframe]
  have hcovered := coverOf_coveredBooks coverPath (setBooks books' db) hrow
  refine ⟨⟨?_, ?_, ?_, rfl, rfl⟩, ?_, ?_, ?_, ?_⟩
  · exact ⟨hmid.wellLinked.spelling, hmid.wellLinked.named, hmid.wellLinked.resolved⟩
  · change (coveredBooks row.id coverPath books').rows.map BookRow.id ~ table.rows.map _
    rw [hids, hrest, map_append]
    exact h.owned.append_right _
  · refine catalogOf_put row.id ⟨hcovered.self, fun b hb => ?_⟩ hput
      fun l hl he => absurd he (hfree l hl)
    refine (hcovered.others b hb).trans ?_
    change (books'.find? b).bind _ = _
    rw [Table.find?_insert? hins, if_neg (Ne.symm hb)]
    rfl
  · have hr := h.recorded
    rw [sub_zero] at hr
    exact hr.congr rfl rfl
  · refine coverReferences_add fun path => ?_
    rw [countStoredCoverReferences_eq_total, countStoredCoverReferences_eq_total]
    exact hrefs path
  · have := congrArg length hids
    simpa using this
  · rw [hrest, countP_append]
    simp [locationRow, LocationRow.isUnavailable]

/-- The rows of a book that the catalog has were replaced. -/
theorem Consistent.storesExisting (h : Consistent sizes 0 db) (coverPath : Option Bytes)
    {l : LocationRow} (hl : db.locations.findBy? inpxRecord.libId = some l) {row : BookRow}
    (hrow : db.books.find? l.bookId = some row) {mid db₁ : Database} {table metadata commands}
    (hmid : ReplacedRelations l.bookId metadata (setBooks (updatedBooks l.bookId metadata db) db)
      mid)
    (hdb₁ : db₁ = withCommands commands mid)
    (hput : db.locations.put? (locationRow segmentId l.bookId inpxRecord .available scanId) =
      some table) :
    StoresRecord inpxRecord.libId (storedEntry segmentId inpxRecord scanId coverPath) db
      (setLocations table (setBooks (coveredBooks l.bookId coverPath db₁.books) db₁)) ∧
    Recorded sizes (countStoredCoverReferences db) db.books.rows.length
      (db.locations.rows.countP LocationRow.isUnavailable)
      (setLocations table (setBooks (coveredBooks l.bookId coverPath db₁.books) db₁)) ∧
    countStoredCoverReferences
      (setLocations table (setBooks (coveredBooks l.bookId coverPath db₁.books) db₁)) =
        (if row.coverPath = coverPath then countStoredCoverReferences db
          else bumpedAt (bumpedAt (countStoredCoverReferences db) row.coverPath (· - 1)) coverPath
            (· + 1)) ∧
    (coveredBooks l.bookId coverPath db₁.books).rows.length = db.books.rows.length ∧
    (table.rows.countP LocationRow.isUnavailable : Int) =
      db.locations.rows.countP LocationRow.isUnavailable - unavailableCount l.availability := by
  obtain ⟨hlmem, hlib⟩ := Table.findBy?_eq_some.mp hl
  obtain ⟨hrowmem, hrowid⟩ := Table.find?_eq_some.mp hrow
  have hdb₁books : db₁.books = updatedBooks l.bookId metadata db := by
    rw [hdb₁, show (withCommands commands mid).books = mid.books from rfl, hmid.frame]
    rfl
  obtain ⟨hrefs, hids⟩ := updatedBook_covered coverPath hrowmem metadata
  rw [hrowid] at hrefs hids
  have hmem : l.bookId ∈ (updatedBooks l.bookId metadata db).rows.map BookRow.id := by
    rw [updatedBooks]
    rw [map_id_update, ← hrowid]
    exact mem_map_of_mem hrowmem
  rw [hdb₁books]
  have hframe : ∀ x : Table BookRow.id BookRow.id, setLocations table (setBooks x db₁) =
      { db with books := x, locations := table, entities := mid.entities, links := mid.links,
                searchIndex := db.searchIndex ++ commands } := by
    intro x
    rw [hdb₁, hmid.frame]
    rfl
  rw [hframe]
  have hcovered := coverOf_coveredBooks coverPath
    (setBooks (updatedBooks l.bookId metadata db) db) hmem
  refine ⟨⟨?_, ?_, ?_, rfl, rfl⟩, ?_, ?_, ?_, ?_⟩
  · exact ⟨hmid.wellLinked.spelling, hmid.wellLinked.named, hmid.wellLinked.resolved⟩
  · change (coveredBooks l.bookId coverPath _).rows.map BookRow.id ~ table.rows.map _
    rw [hids, Table.rows_put? hput]
    exact h.owned.trans (Table.keys_filter_perm (r := locationRow segmentId l.bookId inpxRecord
      .available scanId) hlmem rfl).symm
  · refine catalogOf_put l.bookId ⟨hcovered.self, fun b hb => ?_⟩ hput
      fun l' hl' he => ?_
    · refine (hcovered.others b hb).trans ?_
      change ((updatedBooks l.bookId metadata db).find? b).bind _ = _
      unfold updatedBooks coverOf
      rw [Table.find?_update]
      cases hf : db.books.find? b with
      | none => rfl
      | some r =>
        rw [Option.map_some, if_neg]
        simpa [(Table.find?_eq_some.mp hf).2] using hb
    · rw [Table.key_inj hl' hlmem he, hlib]
  · have hr := h.recorded
    rw [sub_zero] at hr
    exact hr.congr rfl rfl
  · refine coverReferences_replace (fun path => ?_) fun path hp => ?_
    · rw [countStoredCoverReferences_eq_total, countStoredCoverReferences_eq_total]
      exact hrefs path
    · exact coverOf_pos ((coverOf_eq_of_mem hrowmem).trans hp)
  · have := congrArg length hids
    simpa using this
  · rw [Table.countP_eq_total, Table.countP_eq_total, Table.total_put?_old hput hlmem rfl]
    unfold LocationRow.isUnavailable locationRow unavailableCount
    cases l.availability with
    | available => simp
    | missingFromIndex => simp [sub_eq_add_neg]

/-- Once the statistics are told what a stored record changed, the database is consistent. -/
theorem StoresRecord.consistent {libId : Bytes} {entry : Entry} {db db' db'' : Database}
    (h : StoresRecord libId entry db db') (hs : OnlyStatisticsChange db' db'')
    (hr : Recorded sizes (countStoredCoverReferences db') db'.books.rows.length
      (db'.locations.rows.countP LocationRow.isUnavailable) db'') : Consistent sizes 0 db'' := by
  have ht := h.tell hs
  refine ⟨ht.wellLinked, ht.owned, ?_⟩
  rw [OnlyStatisticsChange] at hs
  rw [sub_zero, show db''.books = db'.books by rw [hs],
    show db''.locations = db'.locations by rw [hs],
    show countStoredCoverReferences db'' = countStoredCoverReferences db' by rw [hs]; rfl]
  exact hr

end Storing

/-! ### The end of a scan -/

/-- `LocationRow.absent` of an entry. -/
def Entry.absent (scanId : Bytes) (e : Entry) : Entry :=
  { e with presentInSegment := false, lastSeenScanId := some scanId }

/-- `LocationRow.withAvailability` of an entry. -/
def Entry.withAvailability (availability : Availability) (scanId : Bytes) (e : Entry) : Entry :=
  { e with availability := availability, lastSeenScanId := some scanId }

def Entry.notSeen (segmentId : Nat) (scanId : Bytes) (e : Entry) : Bool :=
  e.segmentId = segmentId && e.presentInSegment && e.lastSeenScanId ≠ some scanId

def Entry.isListed (db : Database) (libId : Bytes) (e : Entry) : Bool :=
  e.presentInSegment && segmentAvailable db e.segmentId &&
    !(db.segments.find? e.segmentId).any fun active =>
      db.deletions.rows.any fun d => d.libId = libId &&
        (db.segments.find? d.segmentId).any fun s =>
          s.availability = .available && active.segmentOrder < s.segmentOrder

@[simp] theorem Entry.availability_withAvailability (availability : Availability) (scanId : Bytes)
    (e : Entry) : (e.withAvailability availability scanId).availability = availability := rfl

@[simp] theorem Entry.isListed_withAvailability (db : Database) (libId : Bytes)
    (availability : Availability) (scanId : Bytes) (e : Entry) :
    (e.withAvailability availability scanId).isListed db libId = e.isListed db libId := rfl

theorem isListed_eq (db : Database) (l : LocationRow) :
    Database.isListed db l = (entryOf db l).isListed db l.libId := rfl

/-- An entry after the locations were marked unavailable and restored. -/
def Entry.settled (scanId : Bytes) (listed : Bool) (e : Entry) : Entry :=
  if (e.availability = .available) = (listed = true) then e
  else e.withAvailability (if listed then .available else .missingFromIndex) scanId

section Finish

variable {sizes : AllowedSizes} {drift : Int} {db : Database}

theorem catalogOf_update {p : LocationRow → Bool} {f : LocationRow → LocationRow} {hkey hname}
    {P : Bytes → Entry → Bool} {F : Entry → Entry}
    (hp : ∀ l, p l = P l.libId (entryOf db l))
    (hf : ∀ l, entryOf db (f l) = F (entryOf db l)) (n : Bytes) :
    catalogOf (setLocations (db.locations.update p f hkey hname) db) n =
      (catalogOf db n).map fun e => if P n e then F e else e := by
  unfold catalogOf
  change ((db.locations.update p f hkey hname).findBy? n).map (entryOf db) = _
  rw [Table.findBy?_update, Option.map_map, Option.map_map]
  cases hl : db.locations.findBy? n with
  | none => rfl
  | some l =>
    have hlib := (Table.findBy?_eq_some.mp hl).2
    rw [Option.map_some, Option.map_some, Option.some_inj, Function.comp_apply,
      Function.comp_apply, ← hlib, ← hp, ← hf]
    split <;> rfl

/-- A change of the locations keeps the database consistent when the drift follows. -/
theorem Consistent.updateLocations (h : Consistent sizes drift db) {p : LocationRow → Bool}
    {f : LocationRow → LocationRow} {hkey hname} {drift' : Int}
    (hcount : ((db.locations.update p f hkey hname).rows.countP LocationRow.isUnavailable : Int) -
      drift' = db.locations.rows.countP LocationRow.isUnavailable - drift) :
    Consistent sizes drift' (setLocations (db.locations.update p f hkey hname) db) := by
  refine ⟨⟨h.wellLinked.spelling, h.wellLinked.named, h.wellLinked.resolved⟩, ?_, ?_⟩
  · change _ ~ (db.locations.update p f hkey hname).rows.map LocationRow.bookId
    rw [Table.rows_update, map_map]
    refine h.owned.trans (Perm.of_eq (map_congr_left fun l _ => ?_))
    by_cases hp : p l <;> simp [hp, hkey]
  · change Recorded _ _ _ (((db.locations.update p f hkey hname).rows.countP _ : Int) - drift') _
    rw [hcount]
    exact h.recorded.congr rfl rfl

/-- The database after `markAbsent`. -/
def withAbsent (segmentId : Nat) (scanId : Bytes) (db : Database) : Database :=
  setLocations (db.locations.update (Database.notSeen segmentId scanId) (LocationRow.absent scanId)
    (LocationRow.absent_bookId scanId) (LocationRow.absent_libId scanId)) db

theorem markAbsent_spec (segmentId : Nat) (scanId : Bytes) (db : Database) :
    Triple (fun s => s = db) (markAbsent segmentId scanId)
      (fun _ s => s = withAbsent segmentId scanId db) fun _ _ => False :=
  .modify fun s hs => by rw [hs]; rfl

theorem catalogOf_withAbsent (segmentId : Nat) (scanId : Bytes) (db : Database) (n : Bytes) :
    catalogOf (withAbsent segmentId scanId db) n = (catalogOf db n).map fun e =>
      if e.notSeen segmentId scanId then e.absent scanId else e :=
  catalogOf_update (P := fun _ e => e.notSeen segmentId scanId) (fun _ => rfl) (fun _ => rfl) n

theorem Consistent.withAbsent (h : Consistent sizes drift db) (segmentId : Nat) (scanId : Bytes) :
    Consistent sizes drift (Database.withAbsent segmentId scanId db) := by
  refine h.updateLocations ?_
  rw [Table.rows_update, countP_map]
  congr 3
  funext l
  simp only [Function.comp_apply]
  split <;> rfl

/-- The database after `markUnavailable` and `restoreAvailable`. -/
def settledAvailability (scanId : Bytes) (db : Database) : Database :=
  let marked := setAvailability (toMarkUnavailable db) .missingFromIndex scanId db
  setAvailability (toRestore marked) .available scanId marked

theorem toMarkUnavailable_eq (db : Database) (l : LocationRow) :
    toMarkUnavailable db l = (l.availability = .available && !Database.isListed db l) := by
  rw [toMarkUnavailable, Database.isListed]
  simp only [Bool.not_and, Bool.not_not]

theorem toRestore_eq (db : Database) (l : LocationRow) :
    toRestore db l = (l.availability = .missingFromIndex && Database.isListed db l) := by
  rw [toRestore, Database.isListed]
  simp only [Bool.and_assoc]

theorem catalogOf_setAvailability {p : LocationRow → Bool} {availability : Availability}
    {scanId : Bytes} {P : Bytes → Entry → Bool} (hp : ∀ l, p l = P l.libId (entryOf db l))
    (n : Bytes) :
    catalogOf (setAvailability p availability scanId db) n = (catalogOf db n).map fun e =>
      if P n e then e.withAvailability availability scanId else e :=
  catalogOf_update hp (fun _ => rfl) n

theorem catalogOf_settledAvailability (scanId : Bytes) (db : Database) (n : Bytes) :
    catalogOf (settledAvailability scanId db) n = (catalogOf db n).map fun e =>
      e.settled scanId (e.isListed db n) := by
  rw [settledAvailability]
  rw [catalogOf_setAvailability (P := fun n e => e.availability = .missingFromIndex &&
      e.isListed db n) fun l => ?_,
    catalogOf_setAvailability (P := fun n e => e.availability = .available &&
      !e.isListed db n) fun l => ?_, Option.map_map]
  · congr 1
    funext e
    rw [Entry.settled]
    cases ha : e.availability <;> cases hl : e.isListed db n <;> simp [ha, hl]
  · exact toMarkUnavailable_eq db l
  · exact toRestore_eq _ l

theorem markUnavailable_spec (scanId : Bytes) (db : Database) :
    Triple (fun s => s = db) (markUnavailable scanId)
      (fun count s => count = db.locations.rows.countP (toMarkUnavailable db) ∧
        s = setAvailability (toMarkUnavailable db) .missingFromIndex scanId db)
      fun _ _ => False := by
  intro s hs
  subst hs
  exact ⟨rfl, rfl⟩

theorem restoreAvailable_spec (scanId : Bytes) (db : Database) :
    Triple (fun s => s = db) (restoreAvailable scanId)
      (fun count s => count = db.locations.rows.countP (toRestore db) ∧
        s = setAvailability (toRestore db) .available scanId db)
      fun _ _ => False := by
  intro s hs
  subst hs
  exact ⟨rfl, rfl⟩

theorem Consistent.marked (h : Consistent sizes drift db) (scanId : Bytes) :
    Consistent sizes (drift + db.locations.rows.countP (toMarkUnavailable db))
      (setAvailability (toMarkUnavailable db) .missingFromIndex scanId db) := by
  refine h.updateLocations ?_
  rw [Table.countP_update_add]
  · push_cast
    ring
  · intro l hl
    rw [toMarkUnavailable_eq, Bool.and_eq_true, decide_eq_true_eq] at hl
    exact ⟨by simp [LocationRow.isUnavailable, hl.1], rfl⟩

theorem Consistent.restored (h : Consistent sizes drift db) (scanId : Bytes) :
    Consistent sizes (drift - db.locations.rows.countP (toRestore db))
      (setAvailability (toRestore db) .available scanId db) := by
  refine h.updateLocations ?_
  have hc : (db.locations.update (toRestore db) (LocationRow.withAvailability .available scanId)
      (LocationRow.withAvailability_bookId .available scanId)
      (LocationRow.withAvailability_libId .available scanId)).rows.countP
        LocationRow.isUnavailable + db.locations.rows.countP (toRestore db) =
      db.locations.rows.countP LocationRow.isUnavailable :=
    Table.countP_update_sub fun l hl => by
      rw [toRestore_eq, Bool.and_eq_true, decide_eq_true_eq] at hl
      exact ⟨by simp [LocationRow.isUnavailable, hl.1], rfl⟩
  omega

/-- The statistics follow what they are told about unavailable books. -/
theorem Consistent.tell {drift' : Int} {db' : Database} (h : Consistent sizes drift db)
    (hs : OnlyStatisticsChange db db')
    (hr : Recorded sizes (countStoredCoverReferences db) db.books.rows.length
      (db.locations.rows.countP LocationRow.isUnavailable - drift') db') :
    Consistent sizes drift' db' := by
  rw [OnlyStatisticsChange] at hs
  rw [hs] at hr ⊢
  exact ⟨⟨h.wellLinked.spelling, h.wellLinked.named, h.wellLinked.resolved⟩, h.owned, hr⟩

end Finish

end InpxWebReader.Database
