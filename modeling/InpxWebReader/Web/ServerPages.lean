import InpxWebReader.App.SourceState
import InpxWebReader.Query.SearchPage
import InpxWebReader.Web.BookListPath
import InpxWebReader.Web.CatalogPages

/-!
# The pages that the server answers with

A request for a list of books is parsed, answered by the catalog and written as JSON, with a cursor
for what follows. The browser asks for the first page and for every page after it with one and the
same query, so the server reads the same request each time, up to the cursor
(`parseBookListRequest_continuation`), and gets the cursor back as it gave it
(`decodeCursor_eq_of_encodeCursor`).
-/

namespace InpxWebReader.Web

open Foundation Domain Server Query App Program

/-! ### Books -/

/-- A book of a list: `SBookListItem`, as `BuildCommonBookJson` writes it. The time of the addition
is the text of its column. -/
structure BookListItem where
  id : Nat
  title : Bytes
  authors : List Bytes
  language : Bytes
  seriesName : Option Bytes
  seriesIndex : Option UInt64
  year : Option Int
  tags : List Bytes
  genres : List Bytes
  format : BookFormat
  sizeBytes : Nat
  addedAtUtc : Bytes
  coverUrl : Option Bytes
  downloadUrl : Bytes
  epubDownloadUrl : Option Bytes
  canDownloadOriginal : Bool
  canDownloadAsEpub : Bool
  isAvailable : Bool
  availabilityLabel : Bytes
  deriving DecidableEq

def availabilityLabel (isAvailable : Bool) : Bytes :=
  if isAvailable then [] else ascii "Unavailable in current INPX source"

def downloadUrl (id : Nat) (format : String) : Bytes :=
  ascii "/api/books/" ++ decimal id ++ ascii "/download?format=" ++ ascii format

/-- `ToListItem`, with the actions that `ListBooks` of the application adds, as
`BuildBookListItemJson` writes it. -/
def listItem (canDownload canDownloadEpub : Bool) (book : Book) : BookListItem :=
  let asEpub := book.isAvailable && book.format = .fb2 && canDownloadEpub
  { id := book.id
    title := book.metadata.title
    authors := book.metadata.authors
    language := book.metadata.language
    seriesName := book.metadata.series
    seriesIndex := book.metadata.seriesIndex
    year := book.metadata.year
    tags := book.metadata.tags
    genres := book.metadata.genres
    format := book.format
    sizeBytes := book.sizeBytes
    addedAtUtc := book.addedAtUtc
    coverUrl := (book.coverPath.filter (· ≠ [])).map fun _ =>
      ascii "/api/covers/" ++ decimal book.id
    downloadUrl := downloadUrl book.id "original"
    epubDownloadUrl := if asEpub then some (downloadUrl book.id "epub") else none
    canDownloadOriginal := book.isAvailable && canDownload
    canDownloadAsEpub := asEpub
    isAvailable := book.isAvailable
    availabilityLabel := availabilityLabel book.isAvailable }

/-! ### Pages -/

/-- What `CInpxCatalogFacade::ListBooks` asks the repository. -/
def pageRequest (request : BookListRequest) : PageRequest where
  query := request.toDomainQuery
  includeLanguageFacets := request.includeFacets && request.includeLanguageFacets
  includeGenreFacets := request.includeFacets && request.includeGenreFacets

/-- `encodeCursor` of the cursor of a page, if it has one. -/
def encodeNextCursor (json : JsonText) (sha : Sha256) (page : SearchPage)
    (request : BookListRequest) : Except CursorError (Option Bytes) :=
  match page.nextCursor with
  | none => .ok none
  | some cursor => (encodeCursor json sha cursor request).map some

/-- `BuildBooksJson`: the object that the browser reads as a `BookListResponse`. -/
def buildBooksJson (json : JsonText) (sha : Sha256) (state : SourceRuntimeState) (converter : Bool)
    (page : SearchPage) (request : BookListRequest) :
    Except CursorError (BookListResponse BookListItem) := do
  let nextCursor ← encodeNextCursor json sha page request
  return {
    items := page.books.map (listItem state.canDownload (state.canDownload && converter))
    catalogSnapshotId := page.catalogSnapshotId
    totalCount := page.totalCount
    offset := match request.cursor with
      | some cursor => cursor.position
      | none => request.offset
    limit := request.limit
    nextCursor := nextCursor
    facets := page.totalCount.map fun _ => (page.availableLanguages, page.availableGenres) }

/-- The query that `getBooks` sends: the one of the session from its start. -/
def fromStart (query : BookQuery) : BookQuery := { query with offset := 0, offset_safe := offset_zero_safe }

/-! ### One query, any cursor -/

section Continuation

variable {json : JsonText} {sha : Sha256} {maxPageSize : Nat} {query : BookQuery} {cursor : Bytes}

theorem valuesOf_cursor (query : BookQuery) (cursor : Bytes) {name : Bytes}
    (hcursor : name ≠ ascii "cursor") (hoffset : name ≠ ascii "offset") :
    (buildBookListParams query cursor).valuesOf name =
      (buildBookListParams query []).valuesOf name := by
  by_cases h : cursor = []
  · rw [h]
  · simp [buildBookListParams, h, hcursor.symm, hoffset.symm]

theorem readSingleQueryValue_cursor (query : BookQuery) (cursor : Bytes) {name : Bytes}
    (hcursor : name ≠ ascii "cursor") (hoffset : name ≠ ascii "offset") :
    readSingleQueryValue (buildBookListParams query cursor) name =
      readSingleQueryValue (buildBookListParams query []) name := by
  rw [readSingleQueryValue, readSingleQueryValue, valuesOf_cursor query cursor hcursor hoffset]

theorem valuesOf_continuation (h : cursor ≠ []) :
    (buildBookListParams query cursor).valuesOf (ascii "offset") = [] ∧
      (buildBookListParams query cursor).valuesOf (ascii "cursor") = [cursor] := by
  simp +decide [buildBookListParams, h]

/-- With a cursor the server reads the request of the first page, and the cursor into it. -/
theorem parseBookListRequest_continuation {request : BookListRequest}
    (h : parseBookListRequest json sha (buildBookListParams (fromStart query) []) maxPageSize =
      .ok request) :
    request.cursor = none ∧ request.offset = 0 ∧ ∀ cursor, cursor ≠ [] →
      parseBookListRequest json sha (buildBookListParams (fromStart query) cursor) maxPageSize =
        ((decodeCursor json sha cursor request).mapError invalidCursor).map fun c =>
          { request with cursor := some c } := by
  obtain ⟨text, htext, h⟩ := except_bind_eq_ok h
  obtain ⟨fields, hfields, h⟩ := except_bind_eq_ok h
  obtain ⟨sortBy, hsort, h⟩ := except_bind_eq_ok h
  obtain ⟨direction, hdirection, h⟩ := except_bind_eq_ok h
  obtain ⟨offset, hoffset, h⟩ := except_bind_eq_ok h
  obtain ⟨limit, hlimit, h⟩ := except_bind_eq_ok h
  obtain ⟨facets, hfacets, h⟩ := except_bind_eq_ok h
  obtain ⟨cursor', hcursor', h⟩ := except_bind_eq_ok h
  rw [parseOffset_buildBookListParams] at hoffset
  cases hoffset
  have hnone : cursor' = none := by
    rw [parseCursor, readSingleQueryValue, (valuesOf_rest (fromStart query)).2.2.1] at hcursor'
    cases hcursor'
    rfl
  subst hnone
  cases h
  refine ⟨rfl, rfl, fun cursor hne => ?_⟩
  -- only the cursor and the offset are read from other parameters
  have hread : ∀ name, name ≠ ascii "cursor" → name ≠ ascii "offset" →
      readSingleQueryValue (buildBookListParams (fromStart query) cursor) name =
        readSingleQueryValue (buildBookListParams (fromStart query) []) name :=
    fun name => readSingleQueryValue_cursor (fromStart query) cursor
  have hvalues : ∀ name, name ≠ ascii "cursor" → name ≠ ascii "offset" →
      readCsvQueryValues (buildBookListParams (fromStart query) cursor) name =
        readCsvQueryValues (buildBookListParams (fromStart query) []) name := by
    intro name hcursor hoffset
    rw [readCsvQueryValues, readCsvQueryValues, valuesOf_cursor _ _ hcursor hoffset]
  rw [parseBookListRequest]
  rw [parseSearchFields] at hfields
  rw [parseBookSort] at hsort
  rw [parseSortDirection] at hdirection
  rw [parseLimit] at hlimit
  rw [parseIncludeFacets] at hfacets
  rw [parseSearchFields, parseBookSort, parseSortDirection, parseLimit, parseIncludeFacets]
  simp only [hread (ascii "text") (by decide) (by decide),
    hread (ascii "fields") (by decide) (by decide),
    hread (ascii "sort") (by decide) (by decide),
    hread (ascii "direction") (by decide) (by decide),
    hread (ascii "limit") (by decide) (by decide),
    hread (ascii "includeFacets") (by decide) (by decide),
    hvalues (ascii "languages") (by decide) (by decide),
    hvalues (ascii "genres") (by decide) (by decide)]
  rw [htext, hfields, hsort, hdirection, hlimit, hfacets]
  have hoffset : parseOffset (buildBookListParams (fromStart query) cursor) = .ok none := by
    rw [parseOffset, readSingleQueryValue, (valuesOf_continuation hne).1]
    rfl
  have hcursor : ∀ request, parseCursor json sha (buildBookListParams (fromStart query) cursor) none
      request = ((decodeCursor json sha cursor request).mapError invalidCursor).map some := by
    intro request
    rw [parseCursor, readSingleQueryValue, (valuesOf_continuation hne).2]
    simp only [bind, Except.bind, Option.isSome_none, Bool.false_eq_true, if_false]
    cases decodeCursor json sha cursor request <;> rfl
  have hrest : ∀ request : BookListRequest,
      (parseCursor json sha (buildBookListParams (fromStart query) cursor) none request >>= fun c =>
        pure { request with cursor := c }) =
      ((decodeCursor json sha cursor request).mapError invalidCursor).map fun c =>
        { request with cursor := some c } := by
    intro request
    rw [hcursor]
    cases decodeCursor json sha cursor request <;> rfl
  rw [hoffset]
  exact hrest _

/-- A cursor that was encoded and is taken comes back as it was. -/
theorem decodeCursor_eq_of_encodeCursor {c c' : SearchCursor} {r r' : BookListRequest}
    {encoded : Bytes} (he : encodeCursor json sha c r = .ok encoded)
    (hpayload : ∀ fingerprint, buildQueryFingerprint json sha r = some fingerprint →
      json.RoundTripsOn {.object (cursorMembers c fingerprint)})
    (hposition : c.position < 2 ^ 64) (hd : decodeCursor json sha encoded r' = .ok c') :
    c' = c := by
  obtain ⟨_, fingerprint, text, hfingerprint, htext, rfl⟩ := encodeCursor_eq_ok he
  obtain ⟨text', htext', hd⟩ := except_bind_eq_ok hd
  have htext' := orThrow_eq_ok htext'
  have hne : text ≠ [] := by
    rintro rfl
    exact json.dump_ne_nil _ htext
  rw [decodeBase64Url_encodeBase64Url hne (decodeBase64Url_eq_some htext').2.2,
    Option.some_inj] at htext'
  subst htext'
  obtain ⟨payload, hparse, hd⟩ := except_bind_eq_ok hd
  rw [hpayload fingerprint hfingerprint _ rfl text htext] at hparse
  cases hparse
  rw [decodePayload.eq_def] at hd
  dsimp only at hd
  split at hd
  · cases hd
  · obtain ⟨version, _, hd⟩ := except_bind_eq_ok hd
    split at hd
    · cases hd
    · obtain ⟨query, _, hd⟩ := except_bind_eq_ok hd
      obtain ⟨fingerprint', _, hd⟩ := except_bind_eq_ok hd
      split at hd
      · cases hd
      · obtain ⟨cursor, hread, hd⟩ := except_bind_eq_ok hd
        have hread := orThrow_eq_ok hread
        rw [readCursor_cursorMembers hposition, Option.some_inj] at hread
        split at hd
        · cases hd
        · cases hd
          exact hread.symm

theorem encodeCursor_ne_nil {c : SearchCursor} {r : BookListRequest} {encoded : Bytes}
    (h : encodeCursor json sha c r = .ok encoded) : encoded ≠ [] := by
  obtain ⟨_, fingerprint, text, _, htext, rfl⟩ := encodeCursor_eq_ok h
  have hne : text ≠ [] := by
    rintro rfl
    exact json.dump_ne_nil _ htext
  intro hnil
  refine (decodeBase64Url_eq_some (decodeBase64Url_encodeBase64Url hne ?_)).2.1 hnil
  rw [hnil]
  exact Nat.zero_le _

theorem buildBooksJson_eq_ok {state : SourceRuntimeState} {converter : Bool} {p : SearchPage}
    {request : BookListRequest} {page : BookListResponse BookListItem}
    (h : buildBooksJson json sha state converter p request = .ok page) :
    page.items = p.books.map (listItem state.canDownload (state.canDownload && converter)) ∧
      page.totalCount = p.totalCount ∧
      page.offset = (match request.cursor with
        | some cursor => cursor.position
        | none => request.offset) ∧
      (page.nextCursor = none ↔ p.nextCursor = none) ∧
      ∀ encoded, page.nextCursor = some encoded → ∃ c, p.nextCursor = some c ∧
        encodeCursor json sha c request = .ok encoded := by
  obtain ⟨nextCursor, hnext, h⟩ := except_bind_eq_ok h
  cases h
  refine ⟨rfl, rfl, rfl, ?_⟩
  rw [encodeNextCursor.eq_def] at hnext
  split at hnext
  · next hp =>
    cases hnext
    exact ⟨⟨fun _ => hp, fun _ => rfl⟩, fun _ hc => (by cases hc)⟩
  · next c hp =>
    cases hencoded : encodeCursor json sha c request with
    | error e =>
      rw [hencoded] at hnext
      cases hnext
    | ok encoded =>
      rw [hencoded] at hnext
      cases hnext
      refine ⟨⟨fun hc => (by cases hc), fun hc => ?_⟩, fun encoded' heq => ?_⟩
      · rw [hp] at hc
        cases hc
      · cases heq
        exact ⟨c, hp, hencoded⟩

end Continuation

end InpxWebReader.Web
