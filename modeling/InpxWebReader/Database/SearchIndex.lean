import InpxWebReader.Database.Schema
import InpxWebReader.Inpx.Record
import Mathlib.Data.List.Lex
import Mathlib.Data.List.Sort

/-!
# Book rows, their relations and the search index

Storing the metadata of a book writes its row, its links to authors, tags and genres, and the
document of the full-text index. The index is contentless, so replacing a document needs a delete
command with the old one, which `updateInpxBook` rebuilds from what `readStoredMetadata` reads back.
-/

namespace InpxWebReader.Database

open Foundation Domain Inpx Program

/-! ### Search documents -/

/-- The order of `std::ranges::sort` on strings. -/
def byteOrder (a b : Bytes) : Prop := a.map UInt8.toNat ≤ b.map UInt8.toNat

instance : DecidableRel byteOrder := fun a b =>
  inferInstanceAs (Decidable (a.map UInt8.toNat ≤ b.map UInt8.toNat))

/-- Texts separated by spaces, where a text after nothing needs no separator. -/
def joinTexts (texts : List Bytes) : Bytes :=
  texts.foldl (fun joined text => if joined = [] then text else joined ++ ascii " " ++ text) []

/-- The normalized texts that are not empty. -/
def normalizedTexts (values : List Bytes) : List Bytes :=
  (values.map normalizeText).filter (· ≠ [])

def joinNormalizedText (values : List Bytes) (sortValues : Bool) : Bytes :=
  joinTexts (if sortValues then (normalizedTexts values).insertionSort byteOrder
    else normalizedTexts values)

def buildNormalizedDescription : Option Bytes → Bytes
  | none => []
  | some description => normalizeText description

def buildNormalizedSearchDocument (metadata : BookMetadata) : SearchDocument where
  title := normalizeText metadata.title
  authors := joinNormalizedText metadata.authors false
  tags := joinNormalizedText metadata.tags true
  genres := joinNormalizedText metadata.genres true
  description := buildNormalizedDescription metadata.description

def executeSearchCommand (command : SearchCommand) : Db Unit :=
  modify fun db => { db with searchIndex := db.searchIndex ++ [command] }

/-- `CSearchIndexMaintenance::InsertBook`. -/
def insertBook (bookId : Nat) (metadata : BookMetadata) : Db Unit :=
  executeSearchCommand (.insert bookId (buildNormalizedSearchDocument metadata))

/-- `CSearchIndexMaintenance::RemoveBook`. -/
def removeBook (bookId : Nat) (metadata : BookMetadata) : Db Unit :=
  executeSearchCommand (.delete bookId (buildNormalizedSearchDocument metadata))

/-! ### Relations -/

/-- The table of one kind of entity replaced. -/
def setEntities (kind : EntityKind) (table : Table EntityRow.id EntityRow.normalizedName)
    (db : Database) : Database :=
  { db with entities := fun k => if k = kind then table else db.entities k }

/-- The link table of one kind of entity replaced. -/
def setLinks (kind : EntityKind) (table : Table LinkRow.key LinkRow.key) (db : Database) :
    Database :=
  { db with links := fun k => if k = kind then table else db.links k }

/-- `ResolveEntityId`: the row of that normalized name, made with the given spelling when it is
new. -/
def resolveEntityId (kind : EntityKind) (normalizedName displayName : Bytes) : Db Nat := do
  let db ← get
  match (db.entities kind).findBy? normalizedName with
  | some row => return row.id
  | none =>
    let row : EntityRow := ⟨(db.entities kind).nextId, normalizedName, displayName⟩
    let table ← orConstraintFailed ((db.entities kind).insert? row)
    set (setEntities kind table db)
    return row.id

/-- `INSERT INTO book_…`. -/
def insertLink (kind : EntityKind) (row : LinkRow) : Db Unit := do
  let db ← get
  let table ← orConstraintFailed ((db.links kind).insert? row)
  set (setLinks kind table db)

/-- `INSERT OR IGNORE INTO book_…`. -/
def insertLinkOrIgnore (kind : EntityKind) (row : LinkRow) : Db Unit :=
  modify fun db => setLinks kind (((db.links kind).insert? row).getD (db.links kind)) db

/-- The loop over the values of one relation, with the names it has inserted so far and the index
of the next value. A value whose normalized name is empty or repeated is skipped. -/
def insertRelated (kind : EntityKind) (link : Nat → Nat → Db Unit) (inserted : List Bytes)
    (index : Nat) : List Bytes → Db Unit
  | [] => pure ()
  | value :: values =>
    if normalizeText value = [] ∨ normalizeText value ∈ inserted then
      insertRelated kind link inserted (index + 1) values
    else do
      let entityId ← resolveEntityId kind (normalizeText value) value
      link entityId index
      insertRelated kind link (normalizeText value :: inserted) (index + 1) values

def insertAuthors (bookId : Nat) (authors : List Bytes) : Db Unit :=
  insertRelated .authors (fun authorId index => insertLink .authors ⟨bookId, authorId, index⟩)
    [] 0 authors

def insertTags (bookId : Nat) (tags : List Bytes) : Db Unit :=
  insertRelated .tags (fun tagId _ => insertLink .tags ⟨bookId, tagId, 0⟩) [] 0 tags

/-- `CSqliteGenreHelpers::InsertGenres`. -/
def insertGenres (bookId : Nat) (genres : List Bytes) : Db Unit :=
  insertRelated .genres (fun genreId _ => insertLinkOrIgnore .genres ⟨bookId, genreId, 0⟩) [] 0
    genres

/-- `DELETE FROM book_… WHERE book_id = ?`. -/
def deleteLinks (kind : EntityKind) (bookId : Nat) : Db Unit :=
  modify fun db => setLinks kind ((db.links kind).delete fun r => r.bookId = bookId) db

def replaceBookRelations (bookId : Nat) (metadata : BookMetadata) : Db Unit := do
  deleteLinks .authors bookId
  deleteLinks .tags bookId
  deleteLinks .genres bookId
  insertAuthors bookId metadata.authors
  insertTags bookId metadata.tags
  insertGenres bookId metadata.genres

/-- `ReadRelatedEntityNames`: the joined rows of a book, in the given order. -/
def readRelatedEntityNames (db : Database) (kind : EntityKind) (bookId : Nat)
    (before : LinkRow × EntityRow → LinkRow × EntityRow → Prop) [DecidableRel before] :
    List Bytes :=
  let joined := ((db.links kind).rows.filter fun r => r.bookId = bookId).filterMap fun r =>
    ((db.entities kind).find? r.entityId).map fun e => (r, e)
  (joined.insertionSort before).map fun p => p.2.displayName

/-- `ORDER BY ba.author_order ASC`. -/
def byAuthorOrder (p q : LinkRow × EntityRow) : Prop := p.1.order ≤ q.1.order

instance : DecidableRel byAuthorOrder := fun p q =>
  inferInstanceAs (Decidable (p.1.order ≤ q.1.order))

/-- `ORDER BY display_name COLLATE NOCASE ASC`. -/
def byDisplayName (p q : LinkRow × EntityRow) : Prop :=
  byteOrder (toLowerAscii p.2.displayName) (toLowerAscii q.2.displayName)

instance : DecidableRel byDisplayName := fun p q =>
  inferInstanceAs (Decidable (byteOrder (toLowerAscii p.2.displayName)
    (toLowerAscii q.2.displayName)))

/-- The names a book is related to, as `ReadStoredMetadata` selects them. -/
def storedNames (db : Database) (kind : EntityKind) (bookId : Nat) : List Bytes :=
  match kind with
  | .authors => readRelatedEntityNames db .authors bookId byAuthorOrder
  | .tags => readRelatedEntityNames db .tags bookId byDisplayName
  | .genres => readRelatedEntityNames db .genres bookId byDisplayName

def readStoredMetadata (db : Database) (bookId : Nat) : Option BookMetadata :=
  (db.books.find? bookId).map fun row =>
    { title := row.title
      language := row.language
      series := row.series
      seriesIndex := row.seriesIndex
      publisher := row.publisher
      year := row.year
      isbn := row.isbn
      description := row.description
      identifier := row.identifier
      authors := storedNames db .authors bookId
      tags := storedNames db .tags bookId
      genres := storedNames db .genres bookId }

/-! ### Stored metadata -/

/-- `SInpxMetadataFallbackCounters`. -/
structure MetadataFallbackCounters where
  titleFallbackCount : Nat := 0
  authorFallbackCount : Nat := 0
  languageFallbackCount : Nat := 0
  deriving DecidableEq

/-- `SInpxMetadataFallbackCounters::Total`. -/
def MetadataFallbackCounters.total (c : MetadataFallbackCounters) : Nat :=
  c.titleFallbackCount + c.authorFallbackCount + c.languageFallbackCount

/-- `GUnicodeReplacementCharacterUtf8`. -/
def unicodeReplacementCharacter : Bytes := [0xEF, 0xBF, 0xBD]

/-- `GAnonymousAuthorFallbackUtf8`. -/
def anonymousAuthorFallback : Bytes :=
  [0xD0, 0x90, 0xD0, 0xBD, 0xD0, 0xBE, 0xD0, 0xBD, 0xD0, 0xB8, 0xD0, 0xBC]

def containsUnicodeReplacementCharacter (value : Bytes) : Bool :=
  value.tails.any unicodeReplacementCharacter.isPrefixOf

def isAnonymousAuthorFallback (authors : List Bytes) : Bool := authors = [anonymousAuthorFallback]

def buildCleanInpxAuthorDisplayNames (inpxRecord : InpxRecord) : List Bytes :=
  (inpxRecord.authors.map InpxAuthor.displayName).filter fun name =>
    name ≠ [] && !containsUnicodeReplacementCharacter name

/-- `BuildStoredMetadata`: the metadata of the payload, repaired from the INPX row. -/
def buildStoredMetadata (inpxRecord : InpxRecord) (parsedBook : ParsedBook) :
    BookMetadata × MetadataFallbackCounters :=
  let metadata := parsedBook.metadata
  let titleFallback := containsUnicodeReplacementCharacter metadata.title &&
    inpxRecord.title ≠ [] && !containsUnicodeReplacementCharacter inpxRecord.title
  let inpxAuthors := buildCleanInpxAuthorDisplayNames inpxRecord
  let authorFallback := inpxAuthors ≠ [] &&
    (metadata.authors = [] || metadata.authors.any containsUnicodeReplacementCharacter ||
      isAnonymousAuthorFallback metadata.authors)
  let languageFallback := metadata.language = [] && inpxRecord.language ≠ []
  ({ metadata with
      title := if titleFallback then inpxRecord.title else metadata.title
      authors := if authorFallback then inpxAuthors else metadata.authors
      identifier := if metadata.identifier.getD [] = [] then some inpxRecord.libId
        else metadata.identifier
      language := normalizeLanguage
        (if languageFallback then inpxRecord.language else metadata.language) },
    { titleFallbackCount := if titleFallback then 1 else 0
      authorFallbackCount := if authorFallback then 1 else 0
      languageFallbackCount := if languageFallback then 1 else 0 })

/-- `BindStoredBookMetadata`: the columns of a book row that hold its metadata. -/
def bindStoredBookMetadata (metadata : BookMetadata) (row : BookRow) : BookRow :=
  { row with
    title := metadata.title
    normalizedTitle := normalizeText metadata.title
    language := metadata.language
    series := metadata.series
    seriesIndex := metadata.seriesIndex
    publisher := metadata.publisher
    year := metadata.year
    isbn := normalizeIsbn metadata.isbn
    description := metadata.description
    identifier := metadata.identifier }

@[simp] theorem bindStoredBookMetadata_id (metadata : BookMetadata) (row : BookRow) :
    (bindStoredBookMetadata metadata row).id = row.id := rfl

/-- The row of a new book before its metadata is bound. -/
def newBookRow (id : Nat) (addedAtUtc : Bytes) : BookRow where
  id := id
  title := []
  normalizedTitle := []
  language := []
  series := none
  seriesIndex := none
  publisher := none
  year := none
  isbn := none
  description := none
  identifier := none
  coverPath := none
  addedAtUtc := addedAtUtc

def setBooks (table : Table BookRow.id BookRow.id) (db : Database) : Database :=
  { db with books := table }

def insertInpxBook (inpxRecord : InpxRecord) (parsedBook : ParsedBook) (addedAtUtc : Bytes) :
    Db (Nat × MetadataFallbackCounters) := do
  let (metadata, metadataFallbacks) := buildStoredMetadata inpxRecord parsedBook
  let db ← get
  let bookId := db.books.nextId
  let books ← orConstraintFailed
    (db.books.insert? (bindStoredBookMetadata metadata (newBookRow bookId addedAtUtc)))
  set (setBooks books db)
  replaceBookRelations bookId metadata
  insertBook bookId metadata
  return (bookId, metadataFallbacks)

/-- `UPDATE inpx_books SET … WHERE id = ?` for the metadata columns. -/
def updateBookMetadata (bookId : Nat) (metadata : BookMetadata) : Db Unit :=
  modify fun db => setBooks (db.books.update (fun r => r.id = bookId)
    (bindStoredBookMetadata metadata) (bindStoredBookMetadata_id metadata)
    (bindStoredBookMetadata_id metadata)) db

/-- `UpdateInpxBook`. The old metadata is read before anything is replaced. -/
def updateInpxBook (bookId : Nat) (inpxRecord : InpxRecord) (parsedBook : ParsedBook) :
    Db MetadataFallbackCounters := do
  match readStoredMetadata (← get) bookId with
  | none => throw (runtimeError "INPX book row is missing during update.")
  | some oldMetadata =>
    let (metadata, metadataFallbacks) := buildStoredMetadata inpxRecord parsedBook
    updateBookMetadata bookId metadata
    replaceBookRelations bookId metadata
    removeBook bookId oldMetadata
    insertBook bookId metadata
    return metadataFallbacks

end InpxWebReader.Database
