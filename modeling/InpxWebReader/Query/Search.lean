import InpxWebReader.Database.SearchIndex
import InpxWebReader.Library.Sorting
import InpxWebReader.Query.SessionStore

/-!
# Searching the catalog

The statements that a search runs, as functions of the tables. All of them start from the books
that pass the filters of the query (`filteredBooks`); the listing statements put them into the
order of `bookOrder`, in which the book id comes last, so that it has no ties.

The tokenizer and the matching of the full-text index are those of FTS5 (`FullText`).
-/

namespace InpxWebReader.Query

open Foundation Domain Database Sorting

/-! ### The full-text query -/

/-- FTS5: the `unicode61` tokenizer in query mode, and which rows of the index match a query. -/
structure FullText where
  tokenize : Bytes → Except Failure (List Bytes)
  isMatch : List SearchCommand → Bytes → Nat → Bool

/-- `AppendQuotedFtsToken`. -/
def quotedFtsToken (token : Bytes) : Bytes :=
  ascii "\"" ++ token.flatMap (fun c => if c = asciiByte '"' then [c, c] else [c]) ++ ascii "\"*"

/-- The column filter of a query; a query without a field is about all of them. -/
def ftsScope (fields : SearchFieldScope) : Bytes :=
  let fields := if fields.hasAnyField then fields else {}
  let columns := (if fields.title then [ascii "title"] else []) ++
    (if fields.authors then [ascii "authors"] else []) ++
    (if fields.description then [ascii "description"] else [])
  ascii "\x7b" ++ List.intercalate (ascii " ") columns ++ ascii "\x7d : "

def tokenizeFtsQuery (fts : FullText) (text : Bytes) : Except QueryError (List Bytes) :=
  if 2 ^ 31 ≤ text.length then
    .error (.invalidArgument (ascii "Search text exceeds the FTS5 input limit."))
  else (fts.tokenize text).mapError .failed

def buildFtsQuery (fts : FullText) (query : SearchQuery) : Except QueryError Bytes :=
  if query.hasText then do
    let scope := ftsScope query.searchFields
    let tokens ← tokenizeFtsQuery fts (normalizeText query.text)
    if tokens = [] then
      return scope ++ ascii "\"\""
    else
      return List.intercalate (ascii " ") (tokens.map fun token => scope ++ quotedFtsToken token)
  else return []

/-! ### Filters -/

/-- The entities of one kind that a book is linked to. -/
def joinedEntities (db : Database) (kind : EntityKind) (bookId : Nat) :
    List (LinkRow × EntityRow) :=
  ((db.links kind).rows.filter fun l => l.bookId = bookId).filterMap fun l =>
    ((db.entities kind).find? l.entityId).map fun e => (l, e)

def hasLocation (db : Database) (bookId : Nat) : Bool := (db.locations.find? bookId).isSome

def passesText (fts : FullText) (db : Database) (ftsQuery : Bytes) (book : BookRow) : Bool :=
  ftsQuery.isEmpty || fts.isMatch db.searchIndex ftsQuery book.id

def passesLanguages (languages : List Bytes) (book : BookRow) : Bool :=
  languages.isEmpty || languages.contains book.language

def passesGenres (db : Database) (genres : List Bytes) (book : BookRow) : Bool :=
  genres.isEmpty || (joinedEntities db .genres book.id).any fun r =>
    (genres.map normalizeText).contains r.2.normalizedName

/-- The rows of `BuildFilteredFrom` with `AppendFilters`. -/
def filteredBooks (fts : FullText) (db : Database) (query : SearchQuery) (ftsQuery : Bytes)
    (includeLanguages includeGenres : Bool) : List BookRow :=
  db.books.rows.filter fun book => hasLocation db book.id && passesText fts db ftsQuery book &&
    (!includeLanguages || passesLanguages query.languages book) &&
    (!includeGenres || passesGenres db query.genres book)

/-! ### Order -/

/-- `ASC` or `DESC`. -/
def directed {α : Type} (direction : Option SortDirection) (cmp : α → α → Ordering) :
    α → α → Ordering :=
  if direction = some .descending then fun a b => cmp b a else cmp

/-- `MIN(a.normalized_name)` over the authors of a book, `NULL` where it has none. -/
def authorSort (db : Database) (bookId : Nat) : Option Bytes :=
  (orderBy compare ((joinedEntities db .authors bookId).map fun r => r.2.normalizedName)).head?

/-- `AppendSort`. `NULL` comes first in ascending order, as `none` does. -/
def bookOrder (db : Database) (query : SearchQuery) : BookRow → BookRow → Ordering :=
  match query.sortBy.getD .title with
  | .title => compareLex (directed query.sortDirection (compareOn BookRow.normalizedTitle))
      (compareLex (compareOn BookRow.title) (compareOn BookRow.id))
  | .author => compareLex
      (directed query.sortDirection (compareOn fun book => authorSort db book.id))
      (compareLex (compareOn BookRow.normalizedTitle) (compareOn BookRow.id))
  | .dateAdded => compareLex (directed query.sortDirection (compareOn BookRow.addedAtUtc))
      (compareLex (compareOn BookRow.normalizedTitle) (compareOn BookRow.id))

/-- The ids that the listing statements step through, before `LIMIT` and `OFFSET`. -/
def orderedIds (fts : FullText) (db : Database) (query : SearchQuery) (ftsQuery : Bytes) :
    List Nat :=
  (orderBy (bookOrder db query) (filteredBooks fts db query ftsQuery true true)).map BookRow.id

/-! ### Books -/

inductive BookFormat
  | epub
  | fb2
  deriving DecidableEq, Repr

def tryParseBookFormat (value : Bytes) : Option BookFormat :=
  if value = ascii "epub" ∨ value = ascii ".epub" ∨ value = ascii "EPUB" then some .epub
  else if value = ascii "fb2" ∨ value = ascii ".fb2" ∨ value = ascii "FB2" then some .fb2
  else none

/-- `SBook`. The time of the addition is kept as the text of its column. -/
structure Book where
  id : Nat
  metadata : BookMetadata
  format : BookFormat
  sizeBytes : Nat
  coverPath : Option Bytes
  addedAtUtc : Bytes
  isAvailable : Bool
  deriving DecidableEq

/-- `COLLATE NOCASE`. -/
def compareNoCase (a b : Bytes) : Ordering := compare (toLowerAscii a) (toLowerAscii b)

/-- `ReadAuthors`, for one book. -/
def readAuthors (db : Database) (bookId : Nat) : List Bytes :=
  (orderBy (compareOn fun r => r.1.order) (joinedEntities db .authors bookId)).map
    fun r => r.2.displayName

/-- `ReadTags` and `ReadGenres`, for one book. -/
def readNames (db : Database) (kind : EntityKind) (bookId : Nat) : List Bytes :=
  orderBy compareNoCase ((joinedEntities db kind bookId).map fun r => r.2.displayName)

/-- The book of a row and its location, for a format that was read. -/
def bookOf (db : Database) (row : BookRow) (location : LocationRow) (format : BookFormat) :
    Book where
  id := row.id
  metadata :=
    { title := row.title
      authors := readAuthors db row.id
      language := row.language
      series := row.series
      seriesIndex := row.seriesIndex
      publisher := row.publisher
      year := row.year
      isbn := row.isbn
      tags := readNames db .tags row.id
      genres := readNames db .genres row.id
      description := row.description
      identifier := row.identifier }
  format := format
  sizeBytes := location.fileSizeBytes
  coverPath := row.coverPath
  addedAtUtc := row.addedAtUtc
  isAvailable := location.availability = .available

/-- The row of a book joined with its location. -/
def joinedBook (db : Database) (id : Nat) : Option (BookRow × LocationRow) := do
  let row ← db.books.find? id
  let location ← db.locations.find? id
  return (row, location)

/-- `ReadBooks`: ids without a row are left out. -/
def readBooks (db : Database) (ids : List Nat) : Except QueryError (List Book) :=
  (ids.filterMap (joinedBook db)).mapM fun r =>
    match tryParseBookFormat r.2.format with
    | none => .error (.failed (runtimeError "Stored INPX book format is invalid."))
    | some format => .ok (bookOf db r.1 r.2 format)

/-! ### Statements -/

def toSqlitePaginationValue (value : Nat) (fieldName : String) : Except QueryError Nat :=
  if 2 ^ 63 ≤ value then
    .error (.invalidArgument (ascii fieldName ++ ascii " exceeds the SQLite int64 range."))
  else .ok value

def searchBooks (fts : FullText) (db : Database) (query : SearchQuery) (ftsQuery : Bytes) :
    Except QueryError (List Book) := do
  let limit ← toSqlitePaginationValue query.limit "Search limit"
  let offset ← toSqlitePaginationValue query.offset "Search offset"
  readBooks db (((orderedIds fts db query ftsQuery).drop offset).take limit)

def searchBookIds (fts : FullText) (db : Database) (query : SearchQuery) (ftsQuery : Bytes)
    (expectedCount : Nat) : Except QueryError (List Nat) :=
  let ids := orderedIds fts db query ftsQuery
  if ids.length = expectedCount then .ok ids
  else .error (.failed
    (runtimeError "Catalog search count changed inside one read transaction."))

def countSearchResults (fts : FullText) (db : Database) (query : SearchQuery) (ftsQuery : Bytes) :
    Nat :=
  (filteredBooks fts db query ftsQuery true true).length

/-! ### Facets -/

structure FacetItem where
  value : Bytes
  count : Nat
  deriving DecidableEq, Repr

/-- `static_cast<std::uint32_t>`. -/
def toUint32 (n : Nat) : Nat := n % 2 ^ 32

/-- `ListAvailableLanguages`: the books that pass the other filters, grouped by language. -/
def listAvailableLanguages (fts : FullText) (db : Database) (query : SearchQuery)
    (ftsQuery : Bytes) : List FacetItem :=
  let languages := ((filteredBooks fts db query ftsQuery false true).map BookRow.language).filter
    (· ≠ [])
  (orderBy compareNoCase languages.dedup).map fun language =>
    ⟨language, toUint32 (languages.count language)⟩

/-- The rows that `ListAvailableGenres` groups: a book with one of its genres. -/
def genreRows (fts : FullText) (db : Database) (query : SearchQuery) (ftsQuery : Bytes) :
    List (BookRow × EntityRow) :=
  (filteredBooks fts db query ftsQuery true false).flatMap fun book =>
    (joinedEntities db .genres book.id).map fun r => (book, r.2)

/-- `ListAvailableGenres`: the rows grouped by genre, with the number of distinct books. -/
def listAvailableGenres (fts : FullText) (db : Database) (query : SearchQuery)
    (ftsQuery : Bytes) : List FacetItem :=
  let rows := genreRows fts db query ftsQuery
  (orderBy (fun a b => compareNoCase a.displayName b.displayName) (rows.map Prod.snd).dedup).map
    fun genre => ⟨genre.displayName,
      toUint32 ((rows.filter fun r => r.2 = genre).map fun r => r.1.id).dedup.length⟩

/-! ### Identity and criteria -/

def readCatalogIdentity (db : Database) : Except Failure CatalogIdentity :=
  match db.source with
  | none => .error (runtimeError "INPX cache source metadata is missing.")
  | some row => .ok ⟨row.sourceFingerprint, row.lastSeenSnapshotId.getD []⟩

def canonicalizeValues (values : List Bytes) (normalize : Bool) : List Bytes :=
  (orderBy compare (if normalize then values.map normalizeText else values)).destutter (· ≠ ·)

def buildSessionCriteria (query : SearchQuery) (ftsQuery : Bytes) : Criteria where
  ftsQuery := ftsQuery
  languages := canonicalizeValues query.languages false
  genres := canonicalizeValues query.genres true
  sortBy := query.sortBy.getD .title
  sortDirection := query.sortDirection.getD .ascending

end InpxWebReader.Query
