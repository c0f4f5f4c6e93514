import InpxWebReader.Database.Relations
import InpxWebReader.Query.SearchSpec

/-!
# Facets and filters

A facet counts the books that the search would find if its value were the only one in the filter.
The two statements get there in different ways: a facet groups by what is stored, a filter compares
with the normal form of what it is given. `facets_agree` says that they agree, up to the 32 bits of
a facet's counter.
-/

namespace InpxWebReader.Query

open Foundation Domain Database Sorting

/-- The facets of a query against its filters, where `stored` is what becomes of a count. -/
structure FacetsAgree (stored : Nat → Nat) (fts : FullText) (db : Database) (query : SearchQuery)
    (ftsQuery : Bytes) : Prop where
  languageCount : ∀ item ∈ listAvailableLanguages fts db query ftsQuery, item.count =
    stored (countSearchResults fts db { query with languages := [item.value] } ftsQuery)
  genreCount : ∀ item ∈ listAvailableGenres fts db query ftsQuery, item.count =
    stored (countSearchResults fts db { query with genres := [item.value] } ftsQuery)
  languageOnce : ∀ book ∈ filteredBooks fts db query ftsQuery false true, book.language ≠ [] →
    ((listAvailableLanguages fts db query ftsQuery).map FacetItem.value).count book.language = 1
  genreOnce : ∀ book ∈ filteredBooks fts db query ftsQuery true false,
    ∀ r ∈ joinedEntities db .genres book.id,
      ((listAvailableGenres fts db query ftsQuery).map
        fun item => normalizeText item.value).count r.2.normalizedName = 1

section Languages

variable {fts : FullText} {db : Database} {query : SearchQuery} {ftsQuery : Bytes}

/-- The languages of the books that pass the other filters. -/
def facetLanguages (fts : FullText) (db : Database) (query : SearchQuery) (ftsQuery : Bytes) :
    List Bytes :=
  ((filteredBooks fts db query ftsQuery false true).map BookRow.language).filter (· ≠ [])

theorem values_listAvailableLanguages :
    (listAvailableLanguages fts db query ftsQuery).map FacetItem.value =
      orderBy compareNoCase (facetLanguages fts db query ftsQuery).dedup := by
  rw [listAvailableLanguages, facetLanguages]
  rw [List.map_map]
  exact List.map_id _

theorem mem_listAvailableLanguages {item : FacetItem}
    (h : item ∈ listAvailableLanguages fts db query ftsQuery) : item.value ≠ [] ∧
      item.count = toUint32 ((facetLanguages fts db query ftsQuery).count item.value) := by
  obtain ⟨language, hlanguage, rfl⟩ := List.mem_map.mp h
  rw [mem_orderBy, List.mem_dedup, List.mem_filter] at hlanguage
  exact ⟨by simpa using hlanguage.2, rfl⟩

/-- The books of a language are those that pass a filter for it. -/
theorem count_facetLanguages {language : Bytes} (hne : language ≠ []) :
    (facetLanguages fts db query ftsQuery).count language =
      countSearchResults fts db { query with languages := [language] } ftsQuery := by
  rw [facetLanguages, countSearchResults, filteredBooks]
  rw [List.count_filter (by simpa using hne), List.count_eq_countP, List.countP_map,
    List.countP_filter, List.countP_eq_length_filter]
  congr 1
  apply List.filter_congr
  intro book _
  simp only [Function.comp_apply, Bool.not_false, Bool.true_or, Bool.and_true, Bool.not_true,
    Bool.false_or, passesLanguages, List.isEmpty_cons, List.contains_cons, List.contains_nil,
    Bool.or_false]
  grind

end Languages

section Genres

variable {fts : FullText} {db : Database} {query : SearchQuery} {ftsQuery : Bytes}

theorem entity_of_mem_joinedEntities {kind : EntityKind} {bookId : Nat} {r : LinkRow × EntityRow}
    (h : r ∈ joinedEntities db kind bookId) : r.2 ∈ (db.entities kind).rows := by
  obtain ⟨link, _, hlink⟩ := List.mem_filterMap.mp h
  obtain ⟨entity, hentity, rfl⟩ := Option.map_eq_some_iff.mp hlink
  exact (Table.find?_eq_some.mp hentity).1

theorem mem_genreRows {book : BookRow} {genre : EntityRow} :
    (book, genre) ∈ genreRows fts db query ftsQuery ↔
      book ∈ filteredBooks fts db query ftsQuery true false ∧
        ∃ r ∈ joinedEntities db .genres book.id, r.2 = genre := by
  rw [genreRows]
  simp only [List.mem_flatMap, List.mem_map, Prod.mk.injEq]
  constructor
  · rintro ⟨_, hbook, r, hr, rfl, rfl⟩
    exact ⟨hbook, r, hr, rfl⟩
  · rintro ⟨hbook, r, hr, rfl⟩
    exact ⟨book, hbook, r, hr, rfl, rfl⟩

/-- The genres that the facet groups by. -/
def facetGenres (fts : FullText) (db : Database) (query : SearchQuery) (ftsQuery : Bytes) :
    List EntityRow :=
  ((genreRows fts db query ftsQuery).map Prod.snd).dedup

theorem mem_facetGenres {genre : EntityRow} : genre ∈ facetGenres fts db query ftsQuery ↔
    ∃ book ∈ filteredBooks fts db query ftsQuery true false,
      ∃ r ∈ joinedEntities db .genres book.id, r.2 = genre := by
  rw [facetGenres]
  rw [List.mem_dedup, List.mem_map]
  constructor
  · rintro ⟨⟨book, genre⟩, hrow, rfl⟩
    exact ⟨book, mem_genreRows.mp hrow⟩
  · rintro ⟨book, hbook⟩
    exact ⟨(book, genre), mem_genreRows.mpr hbook, rfl⟩

theorem entity_of_mem_facetGenres {genre : EntityRow}
    (h : genre ∈ facetGenres fts db query ftsQuery) : genre ∈ (db.entities .genres).rows := by
  obtain ⟨book, _, r, hr, rfl⟩ := mem_facetGenres.mp h
  exact entity_of_mem_joinedEntities hr

/-- A filter for the spelling of a genre lets the books of that genre pass. -/
theorem passesGenres_spelling (hw : WellLinked db) {genre : EntityRow}
    (hgenre : genre ∈ (db.entities .genres).rows) (book : BookRow) :
    passesGenres db [genre.displayName] book = true ↔
      ∃ r ∈ joinedEntities db .genres book.id, r.2 = genre := by
  rw [passesGenres]
  rw [List.isEmpty_cons, Bool.false_or, List.any_eq_true]
  apply exists_congr
  intro r
  rw [List.map_singleton, hw.spelling .genres genre hgenre, List.contains_iff_mem,
    List.mem_singleton]
  constructor
  · rintro ⟨hr, hname⟩
    exact ⟨hr, Table.name_inj (entity_of_mem_joinedEntities hr) hgenre hname⟩
  · rintro ⟨hr, rfl⟩
    exact ⟨hr, rfl⟩

/-- The books of a genre are those that pass a filter for its spelling. -/
theorem count_facetGenres (hw : WellLinked db) {genre : EntityRow}
    (hgenre : genre ∈ (db.entities .genres).rows) :
    ((((genreRows fts db query ftsQuery).filter fun r => r.2 = genre).map
        fun r => r.1.id).dedup).length =
      countSearchResults fts db { query with genres := [genre.displayName] } ftsQuery := by
  rw [countSearchResults]
  rw [← List.length_map (f := BookRow.id)]
  apply List.Perm.length_eq
  have hnodup : ((filteredBooks fts db { query with genres := [genre.displayName] } ftsQuery true
      true).map BookRow.id).Nodup :=
    db.books.key_nodup.sublist (List.filter_sublist.map BookRow.id)
  rw [List.perm_ext_iff_of_nodup (List.nodup_dedup _) hnodup]
  intro id
  have hbook : ∀ book, book ∈ filteredBooks fts db { query with genres := [genre.displayName] }
      ftsQuery true true ↔ (book, genre) ∈ genreRows fts db query ftsQuery := by
    intro book
    rw [mem_genreRows, ← passesGenres_spelling hw hgenre]
    simp [filteredBooks, and_assoc]
  rw [List.mem_dedup, List.mem_map, List.mem_map]
  constructor
  · rintro ⟨⟨book, genre'⟩, hrow, rfl⟩
    obtain ⟨hmem, hsame⟩ := List.mem_filter.mp hrow
    rw [show genre' = genre by simpa using hsame] at hmem
    exact ⟨book, (hbook book).mpr hmem, rfl⟩
  · rintro ⟨book, hmem, rfl⟩
    exact ⟨(book, genre), List.mem_filter.mpr ⟨(hbook book).mp hmem, by simp⟩, rfl⟩

end Genres

/-- Every facet counts what the search would find with its value alone, modulo `2 ^ 32`, and every
language and every genre of the books that pass the other filters has one facet. -/
theorem facets_agree {db : Database} (hw : WellLinked db) (fts : FullText) (query : SearchQuery)
    (ftsQuery : Bytes) : FacetsAgree toUint32 fts db query ftsQuery where
  languageCount := by
    intro item hitem
    obtain ⟨hne, hcount⟩ := mem_listAvailableLanguages hitem
    rw [hcount, count_facetLanguages hne]
  genreCount := by
    intro item hitem
    obtain ⟨genre, hgenre, rfl⟩ := List.mem_map.mp hitem
    rw [mem_orderBy] at hgenre
    exact congrArg toUint32 (count_facetGenres hw (entity_of_mem_facetGenres hgenre))
  languageOnce := by
    intro book hbook hne
    rw [values_listAvailableLanguages]
    apply List.count_eq_one_of_mem (orderBy_nodup (List.nodup_dedup _))
    rw [mem_orderBy, List.mem_dedup, facetLanguages, List.mem_filter]
    exact ⟨List.mem_map_of_mem hbook, by simpa using hne⟩
  genreOnce := by
    intro book hbook r hr
    have hvalues : ((listAvailableGenres fts db query ftsQuery).map
        fun item => normalizeText item.value) =
          (orderBy (fun a b => compareNoCase a.displayName b.displayName)
            (facetGenres fts db query ftsQuery)).map EntityRow.normalizedName := by
      rw [listAvailableGenres]
      rw [List.map_map]
      apply List.map_congr_left
      intro genre hgenre
      exact hw.spelling .genres genre (entity_of_mem_facetGenres (mem_orderBy.mp hgenre))
    have hnodup : ((orderBy (fun a b => compareNoCase a.displayName b.displayName)
        (facetGenres fts db query ftsQuery)).map EntityRow.normalizedName).Nodup := by
      apply List.Nodup.map_on _ (orderBy_nodup (List.nodup_dedup _))
      intro a ha b hb hab
      exact Table.name_inj (entity_of_mem_facetGenres (mem_orderBy.mp ha))
        (entity_of_mem_facetGenres (mem_orderBy.mp hb)) hab
    rw [hvalues]
    apply List.count_eq_one_of_mem hnodup
    apply List.mem_map_of_mem
    rw [mem_orderBy, mem_facetGenres]
    exact ⟨book, hbook, r, hr, rfl⟩

/-- The small catalog, with two of its books in one genre. -/
def genreCatalog : Database :=
  { sampleCatalog "s1" with
    entities := fun kind => match kind with
      | .genres => ⟨[⟨1, ascii "sf", ascii "SF"⟩], by decide, by decide⟩
      | _ => .empty
    links := fun kind => match kind with
      | .genres => ⟨[{ bookId := 1, entityId := 1 }, { bookId := 3, entityId := 1 }], by decide,
          by decide⟩
      | _ => .empty }

theorem wellLinked_genreCatalog : WellLinked genreCatalog where
  spelling := by
    intro kind e he
    cases kind with
    | genres =>
      obtain rfl := List.mem_singleton.mp he
      decide +kernel
    | authors => cases he
    | tags => cases he
  named := by
    intro kind e he
    cases kind with
    | genres =>
      obtain rfl := List.mem_singleton.mp he
      decide
    | authors => cases he
    | tags => cases he
  resolved := by
    intro kind l hl
    cases kind with
    | genres =>
      refine ⟨⟨1, ascii "sf", ascii "SF"⟩, List.mem_singleton.mpr rfl, ?_⟩
      rcases List.mem_cons.mp hl with rfl | hl
      · rfl
      · obtain rfl := List.mem_singleton.mp hl
        rfl
    | authors => cases hl
    | tags => cases hl

theorem genreCatalog_facets :
    listAvailableGenres emptyText genreCatalog {} [] = [⟨ascii "SF", 2⟩] ∧
      FacetsAgree toUint32 emptyText genreCatalog {} [] :=
  ⟨by decide +kernel, facets_agree wellLinked_genreCatalog emptyText {} []⟩

/-! ### More books than a counter holds -/

/-- A catalog of `n` books in one language. -/
def crowdedCatalog (n : Nat) : Database where
  books := ⟨(List.range n).map fun i => sampleBook i "t",
    by rw [List.map_map]; exact (List.map_id _).symm ▸ List.nodup_range,
    by rw [List.map_map]; exact (List.map_id _).symm ▸ List.nodup_range⟩
  locations := ⟨(List.range n).map fun i => { sampleLocation i "t" with libId := decimal i },
    by rw [List.map_map]; exact (List.map_id _).symm ▸ List.nodup_range,
    by rw [List.map_map]; exact List.nodup_range.map fun _ _ h => decimal_inj h⟩

theorem wellLinked_crowdedCatalog (n : Nat) : WellLinked (crowdedCatalog n) where
  spelling := fun _ _ he => absurd he List.not_mem_nil
  named := fun _ _ he => absurd he List.not_mem_nil
  resolved := fun _ _ hl => absurd hl List.not_mem_nil

theorem filteredBooks_crowdedCatalog (n : Nat) (query : SearchQuery)
    (hlanguages : ∀ i, passesLanguages query.languages (sampleBook i "t") = true)
    (hgenres : query.genres = []) (includeLanguages : Bool) :
    filteredBooks emptyText (crowdedCatalog n) query [] includeLanguages true =
      (crowdedCatalog n).books.rows := by
  rw [filteredBooks]
  rw [List.filter_eq_self]
  intro book hbook
  obtain ⟨i, hi, rfl⟩ := List.mem_map.mp hbook
  have hlocation : hasLocation (crowdedCatalog n) i = true := by
    rw [hasLocation]
    rw [Option.isSome_iff_exists]
    refine ⟨{ sampleLocation i "t" with libId := decimal i }, Table.find?_eq_some.mpr ⟨?_, rfl⟩⟩
    exact List.mem_map_of_mem hi
  rw [show (sampleBook i "t").id = i from rfl, hlocation, hlanguages]
  simp [passesText, passesGenres, hgenres]

theorem countSearchResults_crowdedCatalog (n : Nat) :
    countSearchResults emptyText (crowdedCatalog n) { languages := [ascii "en"] } [] = n := by
  rw [countSearchResults]
  rw [filteredBooks_crowdedCatalog n _ (fun i => by simp [passesLanguages, sampleBook]) rfl]
  exact (List.length_map _).trans List.length_range

theorem lt_of_facetsAgree_crowdedCatalog {n : Nat} (hn : 0 < n)
    (h : FacetsAgree id emptyText (crowdedCatalog n) {} []) : n < 2 ^ 32 := by
  have hbook : sampleBook 0 "t" ∈ filteredBooks emptyText (crowdedCatalog n) {} [] false true := by
    rw [filteredBooks_crowdedCatalog n _ (fun _ => rfl) rfl]
    exact List.mem_map_of_mem (List.mem_range.mpr hn)
  have hone := h.languageOnce _ hbook (by decide)
  have hmem : ascii "en" ∈ (listAvailableLanguages emptyText (crowdedCatalog n) {} []).map
      FacetItem.value := by
    apply List.count_pos_iff.mp
    rw [show ascii "en" = (sampleBook 0 "t").language from rfl, hone]
    exact Nat.one_pos
  obtain ⟨item, hitem, hvalue⟩ := List.mem_map.mp hmem
  obtain ⟨hne, hcount⟩ := mem_listAvailableLanguages hitem
  have hclaimed := h.languageCount item hitem
  rw [count_facetLanguages hne, hvalue, countSearchResults_crowdedCatalog] at hcount
  rw [hcount, hvalue] at hclaimed
  have hsame : toUint32 n = n := hclaimed.trans (countSearchResults_crowdedCatalog n)
  rw [toUint32] at hsame
  rw [← hsame]
  exact Nat.mod_lt n (by decide)

/-- The counter of a facet does not hold `2 ^ 32` books. -/
theorem crowdedCatalog_not_facetsAgree : WellLinked (crowdedCatalog (2 ^ 32)) ∧
    ¬FacetsAgree id emptyText (crowdedCatalog (2 ^ 32)) {} [] :=
  ⟨wellLinked_crowdedCatalog _, fun h =>
    lt_irrefl _ (lt_of_facetsAgree_crowdedCatalog (by decide) h)⟩

end InpxWebReader.Query
