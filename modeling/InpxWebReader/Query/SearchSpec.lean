import InpxWebReader.Database.SqliteTimePoint
import InpxWebReader.Query.Search

/-!
# What a search lists

`orderedIds` has every book that passes the filters once, in the order of the query
(`orderedIds_nodup`, `mem_orderedIds`, `orderedIds_sorted`), and two queries with the same session
criteria list the same ids (`orderedIds_congr`). Every listed id has its rows, so `readBooks` of
listed ids leaves none of them out (`ids_of_readBooks`).
-/

namespace InpxWebReader.Query

open Foundation Domain Database Sorting Program Std

variable {fts : FullText} {db : Database} {query query' : SearchQuery} {ftsQuery : Bytes}

/-! ### The order -/

instance directed_transCmp {α : Type} {direction : Option SortDirection}
    {cmp : α → α → Ordering} [TransCmp cmp] : TransCmp (directed direction cmp) := by
  rw [directed]
  split
  · exact TransCmp.opposite
  · assumption

instance bookOrder_transCmp : TransCmp (bookOrder db query) := by
  rw [bookOrder]
  split <;> infer_instance

/-- The id comes last in every order, so there are no ties. -/
theorem id_eq_of_bookOrder {a b : BookRow} (h : bookOrder db query a b = .eq) : a.id = b.id := by
  have hid : ∀ (c₁ c₂ : BookRow → BookRow → Ordering),
      compareLex c₁ (compareLex c₂ (compareOn BookRow.id)) a b = .eq → a.id = b.id := by
    intro c₁ c₂ hc
    simp only [compareLex, Ordering.then_eq_eq] at hc
    exact LawfulEqOrd.eq_of_compare hc.2.2
  revert h
  rw [bookOrder]
  cases query.sortBy.getD .title <;> exact hid _ _

/-- Books with stored time stamps are sorted by the seconds of their times. -/
theorem bookOrder_dateAdded (hsort : query.sortBy = some .dateAdded) {a b : BookRow}
    {t t' : TimePoint} (ha : a.addedAtUtc = serializeTimePoint t)
    (hb : b.addedAtUtc = serializeTimePoint t') :
    bookOrder db query a b = (directed query.sortDirection compare (floorSeconds t)
      (floorSeconds t')).then ((compare a.normalizedTitle b.normalizedTitle).then
        (compare a.id b.id)) := by
  have htimes : directed query.sortDirection (compareOn BookRow.addedAtUtc) a b =
      directed query.sortDirection compare (floorSeconds t) (floorSeconds t') := by
    rw [directed, directed]
    split
    · show compare b.addedAtUtc a.addedAtUtc = compare (floorSeconds t') (floorSeconds t)
      rw [ha, hb, compare_serializeTimePoint]
    · show compare a.addedAtUtc b.addedAtUtc = compare (floorSeconds t) (floorSeconds t')
      rw [ha, hb, compare_serializeTimePoint]
  rw [bookOrder, hsort, ← htimes]
  rfl

/-- The listing of the books that pass the filters. -/
def listedBooks (fts : FullText) (db : Database) (query : SearchQuery) (ftsQuery : Bytes) :
    List BookRow :=
  orderBy (bookOrder db query) (filteredBooks fts db query ftsQuery true true)

/-- There is only one listing in the order of the query. -/
theorem listedBooks_unique {rows : List BookRow}
    (hperm : rows.Perm (filteredBooks fts db query ftsQuery true true))
    (hsorted : rows.Pairwise fun a b => (bookOrder db query a b).isLE = true) :
    rows = listedBooks fts db query ftsQuery := by
  apply orderBy_unique hperm hsorted
  intro a ha b hb he
  exact Table.key_inj (List.mem_of_mem_filter ha) (List.mem_of_mem_filter hb)
    (id_eq_of_bookOrder he)

theorem listedBooks_sorted : (listedBooks fts db query ftsQuery).Pairwise
    fun a b => (bookOrder db query a b).isLE = true := pairwise_orderBy _

theorem orderedIds_nodup : (orderedIds fts db query ftsQuery).Nodup := by
  have hids : ((filteredBooks fts db query ftsQuery true true).map BookRow.id).Nodup :=
    db.books.key_nodup.sublist (List.filter_sublist.map BookRow.id)
  exact ((orderBy_perm _ _).map BookRow.id).nodup_iff.mpr hids

@[simp] theorem length_orderedIds :
    (orderedIds fts db query ftsQuery).length = countSearchResults fts db query ftsQuery := by
  rw [orderedIds, countSearchResults]
  rw [List.length_map, length_orderBy]

theorem mem_orderedIds {id : Nat} : id ∈ orderedIds fts db query ftsQuery ↔
    ∃ book ∈ filteredBooks fts db query ftsQuery true true, book.id = id := by
  rw [orderedIds]
  rw [List.mem_map]
  simp only [mem_orderBy]

/-! ### Reading books -/

theorem joinedBook_isSome_of_mem {id : Nat} (h : id ∈ orderedIds fts db query ftsQuery) :
    ∃ r, joinedBook db id = some r ∧ r.1.id = id := by
  obtain ⟨book, hbook, rfl⟩ := mem_orderedIds.mp h
  obtain ⟨hmem, hpass⟩ := List.mem_filter.mp hbook
  simp only [Bool.and_eq_true] at hpass
  obtain ⟨location, hlocation⟩ := Option.isSome_iff_exists.mp hpass.1.1.1
  refine ⟨(book, location), ?_, rfl⟩
  rw [joinedBook]
  rw [Table.find?_eq_some.mpr ⟨hmem, rfl⟩, hlocation]
  rfl

/-- The books that are read have the ids that were asked for, where each of these has its rows. -/
theorem ids_of_readBooks {ids : List Nat} {books : List Book}
    (hrows : ∀ id ∈ ids, ∃ r, joinedBook db id = some r ∧ r.1.id = id)
    (h : readBooks db ids = .ok books) : books.map Book.id = ids := by
  rw [readBooks] at h
  induction ids generalizing books with
  | nil =>
    simp only [List.filterMap_nil, List.mapM_nil] at h
    injection h with h
    rw [← h]
    rfl
  | cons id ids ih =>
    obtain ⟨r, hr, hid⟩ := hrows id List.mem_cons_self
    rw [List.filterMap_cons_some hr, List.mapM_cons] at h
    cases hf : tryParseBookFormat r.2.format with
    | none =>
      rw [hf] at h
      cases h
    | some format =>
      simp only [hf] at h
      obtain ⟨book, hbook, hmore⟩ := except_bind_eq_ok h
      obtain ⟨rest, hrest, hbooks⟩ := except_bind_eq_ok hmore
      injection hbook with hbook
      injection hbooks with hbooks
      rw [← hbooks, List.map_cons, ih (fun id hid => hrows id (List.mem_cons_of_mem _ hid)) hrest,
        ← hbook]
      exact congrArg (· :: ids) hid

theorem joined_of_slice {start limit : Nat} :
    ∀ id ∈ ((orderedIds fts db query ftsQuery).drop start).take limit,
      ∃ r, joinedBook db id = some r ∧ r.1.id = id := by
  intro id hid
  exact joinedBook_isSome_of_mem (List.mem_of_mem_drop (List.mem_of_mem_take hid))

/-! ### Queries with the same criteria -/

theorem mem_canonicalizeValues (values : List Bytes) (normalize : Bool) (x : Bytes) :
    x ∈ canonicalizeValues values normalize ↔
      x ∈ if normalize then values.map normalizeText else values := by
  rw [canonicalizeValues]
  rw [mem_destutter_ne, mem_orderBy]

theorem passesLanguages_congr {languages languages' : List Bytes} (book : BookRow)
    (h : ∀ x, x ∈ languages ↔ x ∈ languages') :
    passesLanguages languages book = passesLanguages languages' book := by
  have hnil : languages.isEmpty = languages'.isEmpty := by
    rw [Bool.eq_iff_iff, List.isEmpty_iff, List.isEmpty_iff, List.eq_nil_iff_forall_not_mem,
      List.eq_nil_iff_forall_not_mem]
    simp only [h]
  have hmem : languages.contains book.language = languages'.contains book.language := by
    rw [Bool.eq_iff_iff, List.contains_iff_mem, List.contains_iff_mem, h]
  unfold passesLanguages
  rw [hnil, hmem]

theorem passesGenres_congr {genres genres' : List Bytes} (bookId : BookRow)
    (h : ∀ x, x ∈ genres.map normalizeText ↔ x ∈ genres'.map normalizeText) :
    passesGenres db genres bookId = passesGenres db genres' bookId := by
  have hnil : genres.isEmpty = genres'.isEmpty := by
    rw [Bool.eq_iff_iff, List.isEmpty_iff, List.isEmpty_iff, ← List.map_eq_nil_iff (f := normalizeText),
      ← List.map_eq_nil_iff (l := genres') (f := normalizeText), List.eq_nil_iff_forall_not_mem,
      List.eq_nil_iff_forall_not_mem]
    simp only [h]
  have hmem : ∀ name : Bytes, (genres.map normalizeText).contains name =
      (genres'.map normalizeText).contains name := by
    intro name
    rw [Bool.eq_iff_iff, List.contains_iff_mem, List.contains_iff_mem, h]
  unfold passesGenres
  simp only [hnil, hmem]

theorem directed_default {α : Type} (direction : Option SortDirection)
    (cmp : α → α → Ordering) :
    directed (some (direction.getD .ascending)) cmp = directed direction cmp := by
  cases direction <;> rfl

theorem orderedIds_congr
    (h : buildSessionCriteria query ftsQuery = buildSessionCriteria query' ftsQuery) :
    orderedIds fts db query ftsQuery = orderedIds fts db query' ftsQuery := by
  obtain ⟨_, hlanguages, hgenres, hsort, hdirection⟩ := Criteria.mk.inj h
  have hl : ∀ x, x ∈ query.languages ↔ x ∈ query'.languages := by
    intro x
    have hx := mem_canonicalizeValues query.languages false x
    rw [hlanguages, mem_canonicalizeValues] at hx
    exact hx.symm
  have hg : ∀ x, x ∈ query.genres.map normalizeText ↔ x ∈ query'.genres.map normalizeText := by
    intro x
    have hx := mem_canonicalizeValues query.genres true x
    rw [hgenres, mem_canonicalizeValues] at hx
    exact hx.symm
  have hfilter : filteredBooks fts db query ftsQuery true true =
      filteredBooks fts db query' ftsQuery true true := by
    unfold filteredBooks
    apply List.filter_congr
    intro book _
    rw [passesLanguages_congr book hl, passesGenres_congr book hg]
  have horder : bookOrder db query = bookOrder db query' := by
    have hd : ∀ {α : Type} (cmp : α → α → Ordering),
        directed query.sortDirection cmp = directed query'.sortDirection cmp := by
      intro α cmp
      rw [← directed_default, hdirection, directed_default]
    unfold bookOrder
    rw [hsort]
    simp only [hd]
  unfold orderedIds
  rw [hfilter, horder]

/-! ### A small catalog -/

def emptyText : FullText where
  tokenize _ := .ok []
  isMatch _ _ _ := false

def sampleBook (id : Nat) (title : String) : BookRow where
  id := id
  title := ascii title
  normalizedTitle := ascii title
  language := ascii "en"
  series := none
  seriesIndex := none
  publisher := none
  year := none
  isbn := none
  description := none
  identifier := none
  coverPath := none
  addedAtUtc := []

def sampleLocation (id : Nat) (libId : String) : LocationRow where
  bookId := id
  segmentId := 1
  libId := ascii libId
  archiveName := ascii "a.zip"
  entryName := ascii libId
  availability := .available
  presentInSegment := true
  fileSizeBytes := 1
  format := ascii "fb2"
  lastSeenScanId := none

/-- Three books under the name of a snapshot. -/
def sampleCatalog (snapshot : String) : Database where
  books := ⟨[sampleBook 1 "c", sampleBook 2 "a", sampleBook 3 "b"], by decide, by decide⟩
  locations := ⟨[sampleLocation 1 "1", sampleLocation 2 "2", sampleLocation 3 "3"], by decide,
    by decide⟩
  source := some
    { displayName := []
      sourceFingerprint := ascii "f"
      lastSeenSnapshotId := some (ascii snapshot) }

end InpxWebReader.Query
