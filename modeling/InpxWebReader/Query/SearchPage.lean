import InpxWebReader.Foundation.Sha256
import InpxWebReader.Query.Search

/-!
# Requests for a page

`SearchPage` as the steps that other threads can see: what a request works out from its own read
transaction, the calls to the store of sessions, and the last look at the database.
`CatalogService` is the repository with any number of requests in flight; scans commit new versions
of the catalog between any two of their steps.
-/

namespace InpxWebReader.Query

open Foundation Domain Database Program

/-! ### What a request works out from its transaction -/

structure SearchPage where
  books : List Book := []
  totalCount : Option Nat := none
  availableLanguages : List FacetItem := []
  availableGenres : List FacetItem := []
  sourceFingerprint : Bytes
  catalogSnapshotId : Bytes
  nextCursor : Option SearchCursor := none
  deriving DecidableEq

/-- The arguments of `SearchPage`. -/
structure PageRequest where
  query : SearchQuery
  includeLanguageFacets : Bool := false
  includeGenreFacets : Bool := false

structure OpenedSearch where
  identity : CatalogIdentity
  ftsQuery : Bytes
  criteria : Criteria

def openSearch (fts : FullText) (db : Database) (query : SearchQuery) :
    Except QueryError OpenedSearch := do
  let identity ← (readCatalogIdentity db).mapError .failed
  let ftsQuery ← buildFtsQuery fts query
  return ⟨identity, ftsQuery, buildSessionCriteria query ftsQuery⟩

/-- The place of a first page in its result, and the page without its books. -/
structure PagePlan where
  totalSize : Nat
  pageStart : Nat
  pageEnd : Nat
  page : SearchPage

def planPage (fts : FullText) (db : Database) (input : PageRequest) (opened : OpenedSearch) :
    Except QueryError PagePlan :=
  let query := input.query
  let totalCount := countSearchResults fts db query opened.ftsQuery
  if sizeLimit ≤ totalCount then
    .error (.domain .catalogCursorCapacityExceeded
      (ascii "The catalog result cannot be represented by this server."))
  else
    let pageStart := min query.offset totalCount
    .ok {
      totalSize := totalCount
      pageStart := pageStart
      pageEnd := pageStart + min query.limit (totalCount - pageStart)
      page :=
        { totalCount := some totalCount
          availableLanguages := if input.includeLanguageFacets then
            listAvailableLanguages fts db { query with languages := [] } opened.ftsQuery else []
          availableGenres := if input.includeGenreFacets then
            listAvailableGenres fts db { query with genres := [] } opened.ftsQuery else []
          sourceFingerprint := opened.identity.sourceFingerprint
          catalogSnapshotId := opened.identity.snapshotId } }

/-- A first page that reaches the end needs no session. -/
def directPage (fts : FullText) (db : Database) (query : SearchQuery) (opened : OpenedSearch)
    (plan : PagePlan) : Except QueryError SearchPage := do
  let books ← searchBooks fts db query opened.ftsQuery
  return { plan.page with books := books }

/-- The ids of the result, and the first page cut out of them. -/
def fillPage (fts : FullText) (db : Database) (query : SearchQuery) (opened : OpenedSearch)
    (plan : PagePlan) : Except QueryError (List Nat × SearchPage) := do
  let ids ← searchBookIds fts db query opened.ftsQuery plan.totalSize
  let pageIds := (ids.drop plan.pageStart).take (plan.pageEnd - plan.pageStart)
  let books ← readBooks db pageIds
  if books.length ≠ pageIds.length then
    .error (.domain .integrityIssue
      (ascii "A materialized catalog cursor referenced missing book rows."))
  else
    return (ids, { plan.page with books := books })

/-- The page of a slice of a session. -/
def continuedPage (db : Database) (opened : OpenedSearch) (slice : ContinuationSlice) :
    Except QueryError SearchPage := do
  let books ← readBooks db slice.ids
  if books.length ≠ slice.ids.length then
    .error (.domain .integrityIssue (ascii "A catalog cursor referenced missing book rows."))
  else
    return { books := books
             sourceFingerprint := opened.identity.sourceFingerprint
             catalogSnapshotId := opened.identity.snapshotId
             nextCursor := slice.nextCursor }

/-! ### A request in flight -/

/-- The sixteen bytes that `getrandom` fills. -/
abbrev RandomBytes := { bytes : Bytes // bytes.length = 16 }

/-- `MakeUnpredictableSessionId`. -/
def makeSessionId (random : RandomBytes) : Bytes := hexText random.1

/-- What a step is told from outside: the clock, the random source, and whether the database
cannot be read. -/
structure Answers where
  now : Int
  random : Except Failure RandomBytes
  databaseFailure : Option Failure := none

inductive Phase
  | opened
  | reserving (opened : OpenedSearch) (plan : PagePlan)
  | filling (opened : OpenedSearch) (plan : PagePlan) (reservation : Reservation)
  | publishing (opened : OpenedSearch) (plan : PagePlan) (ids : List Nat) (page : SearchPage)
      (reservation : Reservation)
  | checking (opened : OpenedSearch) (page : SearchPage) (cursor : SearchCursor)
  | removing (cursor : SearchCursor) (error : QueryError)
  | releasing (reservation : Reservation) (error : QueryError)
  | done (page : SearchPage)
  | failed (error : QueryError)

/-- A request reads the version of the catalog that was there when it began. -/
structure Request where
  input : PageRequest
  version : Nat
  phase : Phase := .opened

/-- The phase after something worked out from the transaction. -/
def afterAnswer {α : Type} (answer : Except QueryError α) (ok : α → Phase)
    (error : QueryError → Phase) : Phase :=
  match answer with
  | .ok a => ok a
  | .error e => error e

/-- The phase after a call to the store; after `std::terminate` there is none. -/
def afterCall {α : Type} (call : StoreM α) (store : SessionStore) (ok : α → Phase)
    (error : QueryError → Phase) : Option (Phase × SessionStore) :=
  match call store with
  | .ok a store => some (ok a, store)
  | .error .terminated _ => none
  | .error e store => some (error e, store)

/-- The first step of a request: a continuation reads its slice, a first page is planned. -/
def startRequest (fts : FullText) (db : Database) (answers : Answers) (input : PageRequest)
    (store : SessionStore) : Option (Phase × SessionStore) :=
  match openSearch fts db input.query with
  | .error e => some (.failed e, store)
  | .ok opened =>
    if input.query.cursor.isSome then
      afterCall
        (readSearchSessionSlice answers.now input.query opened.criteria opened.identity) store
        (fun slice => afterAnswer (continuedPage db opened slice) .done .failed) .failed
    else
      some (afterAnswer (planPage fts db input opened) (fun plan =>
        if plan.totalSize ≤ plan.pageEnd then
          afterAnswer (directPage fts db input.query opened plan) .done .failed
        else .reserving opened plan) .failed, store)

/-- One step of a request, where the database answers `current` for its identity. -/
def Request.advance (fts : FullText) (db : Database) (current : Except Failure CatalogIdentity)
    (answers : Answers) (request : Request) (store : SessionStore) :
    Option (Phase × SessionStore) :=
  match request.phase with
  | .opened => startRequest fts db answers request.input store
  | .reserving opened plan =>
    afterCall (reserveSearchSessionIds current answers.now opened.identity plan.totalSize) store
      (.filling opened plan) .failed
  | .filling opened plan reservation =>
    some (afterAnswer (fillPage fts db request.input.query opened plan)
      (fun filled => .publishing opened plan filled.1 filled.2 reservation)
      (.releasing reservation), store)
  | .publishing opened plan ids page reservation =>
    afterCall (publishSearchSession current answers.now (answers.random.map makeSessionId) ids
      opened.criteria opened.identity plan.pageEnd reservation) store
      (.checking opened page) (.releasing reservation)
  | .checking opened page cursor =>
    afterCall (validateCurrentCatalogIdentity current opened.identity) store
      (fun _ => .done { page with nextCursor := some cursor }) (.removing cursor)
  | .removing cursor e =>
    afterCall (removeSearchSession cursor.sessionId) store (fun _ => .failed e) fun _ => .failed e
  | .releasing reservation e =>
    afterCall (releaseSearchSessionReservation reservation) store (fun _ => .failed e)
      fun _ => .failed e
  | .done _ => none
  | .failed _ => none

/-! ### The service -/

/-- The committed versions of the catalog, oldest first, the store and the requests. -/
structure CatalogService where
  versions : List Database
  store : SessionStore
  requests : List Request := []

namespace CatalogService

/-- The service over a catalog, with the capacity for cursor sessions. -/
def start (db : Database) (aggregateIdCapacity : Nat) : CatalogService where
  versions := [db]
  store := { aggregateIdCapacity := aggregateIdCapacity }

/-- The version that a request reads. -/
def snapshot (s : CatalogService) (version : Nat) : Database := (s.versions[version]?).getD {}

def lastVersion (s : CatalogService) : Nat := s.versions.length - 1

/-- `ReadCurrentCatalogIdentity`. -/
def current (s : CatalogService) (answers : Answers) : Except Failure CatalogIdentity :=
  match answers.databaseFailure with
  | some failure => .error failure
  | none => readCatalogIdentity (s.snapshot s.lastVersion)

end CatalogService

inductive ServiceAction
  | commit (db : Database)
  | begin (input : PageRequest)
  | advance (index : Nat) (answers : Answers)
  | rehash (sessions : Table Session.sessionId Session.sessionId)

/-- A database that names its source file and its snapshot. -/
def Named (db : Database) : Prop :=
  ∃ identity, readCatalogIdentity db = .ok identity ∧ identity.sourceFingerprint ≠ [] ∧
    identity.snapshotId ≠ []

instance (db : Database) : Decidable (Named db) :=
  match h : readCatalogIdentity db with
  | .error _ => .isFalse (by rintro ⟨_, he, _⟩; rw [h] at he; cases he)
  | .ok identity =>
    if hn : identity.sourceFingerprint ≠ [] ∧ identity.snapshotId ≠ [] then
      .isTrue ⟨identity, h, hn⟩
    else .isFalse (by rintro ⟨_, he, hne⟩; rw [h] at he; cases he; exact hn hne)

/-- A committed scan names its snapshot, and no identity comes back. -/
def CatalogService.Admits (s : CatalogService) (db : Database) : Prop :=
  Named db ∧ ∀ version ∈ s.versions, (readCatalogIdentity version).toOption ≠
    (readCatalogIdentity db).toOption

instance (s : CatalogService) (db : Database) : Decidable (s.Admits db) :=
  inferInstanceAs (Decidable (_ ∧ _))

def CatalogService.step (fts : FullText) (s : CatalogService) :
    ServiceAction → Option CatalogService
  | .commit db => if s.Admits db then some { s with versions := s.versions ++ [db] } else none
  | .begin input =>
    some { s with requests := s.requests ++ [{ input := input, version := s.lastVersion }] }
  | .advance index answers => do
    let request ← s.requests[index]?
    let (phase, store) ← request.advance fts (s.snapshot request.version) (s.current answers)
      answers s.store
    return { s with
      store := store
      requests := s.requests.set index { request with phase := phase } }
  | .rehash sessions =>
    if sessions.rows.Perm s.store.sessions.rows then
      some { s with store := { s.store with sessions := sessions } }
    else none

end InpxWebReader.Query
