import InpxWebReader.Domain.SearchQuery
import InpxWebReader.Foundation.Exception
import InpxWebReader.Library.Program
import InpxWebReader.Library.Sorting
import InpxWebReader.Library.Table

/-!
# The store of cursor sessions

A first page that does not reach the end of its result leaves a session behind: the ids of the
whole result, from which the following pages are cut. The ids of all sessions together are bounded,
so a search reserves room before it collects ids, and gives the reservation up when it publishes
its session or fails.

Each definition below that takes the lock of the store is one program on its state. What such a
call is told from outside is an argument: the clock, the identity that the database has at that
moment (`current`), and the random session id.
-/

namespace InpxWebReader.Query

open Foundation Domain Program

/-! ### Identities and errors -/

structure CatalogIdentity where
  sourceFingerprint : Bytes
  snapshotId : Bytes
  deriving DecidableEq, Repr

/-- What a search throws; `terminated` is `std::terminate`. -/
inductive QueryError
  | domain (code : DomainErrorCode) (message : Bytes)
  | failed (failure : Failure)
  | logicError (message : Bytes)
  | invalidArgument (message : Bytes)
  | terminated
  deriving DecidableEq, Repr

/-- `ThrowCatalogSnapshotChanged`. -/
def catalogSnapshotChanged : QueryError :=
  .domain .catalogSnapshotChanged (ascii "The catalog changed while materializing the cursor.")

def capacityExhausted : QueryError :=
  .domain .catalogCursorCapacityExceeded
    (ascii "The catalog cursor book-id capacity is exhausted.")

def tooManyBookIds : QueryError :=
  .domain .catalogCursorCapacityExceeded
    (ascii "The catalog result contains too many book ids for the configured cursor capacity.")

def buildCatalogGenerationKey (identity : CatalogIdentity) : Bytes :=
  decimal identity.sourceFingerprint.length ++ ascii ":" ++ identity.sourceFingerprint ++
    identity.snapshotId

theorem buildCatalogGenerationKey_inj {i j : CatalogIdentity}
    (h : buildCatalogGenerationKey i = buildCatalogGenerationKey j) : i = j := by
  simp only [buildCatalogGenerationKey, List.append_assoc] at h
  replace h : decimal i.sourceFingerprint.length ++
        asciiByte ':' :: (i.sourceFingerprint ++ i.snapshotId) =
      decimal j.sourceFingerprint.length ++
        asciiByte ':' :: (j.sourceFingerprint ++ j.snapshotId) := h
  -- the length before the colon says where the fingerprint ends
  obtain ⟨hlength, h⟩ :=
    append_separator_inj (colon_notMem_decimal _) (colon_notMem_decimal _) h
  obtain ⟨hfingerprint, hsnapshot⟩ := List.append_inj h (decimal_inj hlength)
  rw [CatalogIdentity.mk.injEq]
  exact ⟨hfingerprint, hsnapshot⟩

/-! ### The state -/

structure Criteria where
  ftsQuery : Bytes
  languages : List Bytes
  genres : List Bytes
  sortBy : BookSort := .title
  sortDirection : SortDirection := .ascending
  deriving DecidableEq, Repr

/-- `SSession`, with the key it is stored under. -/
structure Session where
  sessionId : Bytes
  bookIds : List Nat
  criteria : Criteria
  sourceFingerprint : Bytes
  catalogSnapshotId : Bytes
  firstContinuationPosition : Nat := 0
  lastAccess : Int
  deriving DecidableEq

/-- `SSearchSessionReservation`, and the entry of the map of reservations that it names. -/
structure Reservation where
  id : Nat := 0
  generationKey : Bytes
  idCount : Nat := 0
  deriving DecidableEq

/-- The values of a `std::size_t` and of a `std::uint64_t` are below this. -/
def sizeLimit : Nat := 2 ^ 64

def resolvePerSessionIdCapacity (aggregateIdCapacity : Nat) : Nat :=
  let reservedForOtherSessions :=
    aggregateIdCapacity / 4 + if aggregateIdCapacity % 4 = 0 then 0 else 1
  aggregateIdCapacity - reservedForOtherSessions

/-- `SSearchSessionState`. -/
structure SessionStore where
  sessions : Table Session.sessionId Session.sessionId := .empty
  reservations : Table Reservation.id Reservation.id := .empty
  currentGenerationKey : Bytes := []
  aggregateIdCapacity : Nat
  perSessionIdCapacity : Nat := resolvePerSessionIdCapacity aggregateIdCapacity
  usedIdCount : Nat := 0
  reservedIdCount : Nat := 0
  nextReservationId : Nat := 1

def maxSearchSessions : Nat := 8

/-- `GSearchSessionTtl`, in nanoseconds. -/
def searchSessionTtl : Int := 10 * 60 * 1000000000

/-- A program that holds the lock of the store. -/
abbrev StoreM := EStateM QueryError SessionStore

/-! ### Parts of the calls -/

/-- `ValidateCurrentCatalogIdentity`, where the database answers `current`. -/
def validateCurrentCatalogIdentity (current : Except Failure CatalogIdentity)
    (expectedIdentity : CatalogIdentity) : StoreM Unit := do
  let identity ← Program.ofExcept (current.mapError .failed)
  require (identity = expectedIdentity) catalogSnapshotChanged

/-- `TryAddSize`, with the throw of its callers. -/
def addSize (left right : Nat) : StoreM Nat := do
  require (left + right < sizeLimit) capacityExhausted
  return left + right

def removeSessionLocked (session : Session) : StoreM Unit := do
  let state ← get
  require (session.bookIds.length ≤ state.usedIdCount) .terminated
  set { state with
    usedIdCount := state.usedIdCount - session.bookIds.length
    sessions := state.sessions.delete fun s => s.sessionId = session.sessionId }

def purgeSessionsLocked (now : Int) : StoreM Unit := do
  let state ← get
  state.sessions.rows.forM fun session =>
    if searchSessionTtl ≤ now - session.lastAccess then removeSessionLocked session else pure ()

def removeAllSessionsLocked : StoreM Unit := do
  let state ← get
  state.sessions.rows.forM removeSessionLocked

def activateSearchSessionGenerationLocked (generationKey : Bytes) : StoreM Unit := do
  let state ← get
  if state.currentGenerationKey = generationKey then
    pure ()
  else
    modify fun state => { state with currentGenerationKey := generationKey }
    removeAllSessionsLocked
    modify fun state => { state with reservations := .empty, reservedIdCount := 0 }

def removeReservationLocked (reservation : Reservation) : StoreM Bool := do
  let state ← get
  match state.reservations.find? reservation.id with
  | none => return false
  | some stored =>
    require (stored.generationKey = reservation.generationKey ∧
      stored.idCount = reservation.idCount ∧ reservation.idCount ≤ state.reservedIdCount)
      .terminated
    set { state with
      reservedIdCount := state.reservedIdCount - reservation.idCount
      reservations := state.reservations.delete fun r => r.id = reservation.id }
    return true

def nextReservationIdLocked : StoreM Nat := do
  let state ← get
  let result := state.nextReservationId
  require (result ≠ 0 ∧ (state.reservations.find? result).isNone)
    (.failed (runtimeError "Catalog cursor reservation id space is exhausted."))
  set { state with
    nextReservationId := if result = sizeLimit - 1 then 1 else result + 1 }
  return result

def evictLeastRecentlyUsedLocked : StoreM Unit := do
  let state ← get
  match Sorting.minElement Session.lastAccess state.sessions.rows with
  | none => pure ()
  | some session => removeSessionLocked session

/-- The ids there would be with `idCount` more beside those of the other reservations. -/
def requiredIdCount (otherReservations idCount : Nat) : StoreM Nat := do
  let occupied ← addSize (← get).usedIdCount otherReservations
  addSize occupied idCount

/-- The loop that evicts sessions until there is a free one and the ids fit. Each round removes a
session, so as many rounds as there are sessions are enough. -/
def evictWhileFull (otherReservations idCount : Nat) : Nat → Nat → StoreM Nat
  | 0, required => pure required
  | fuel + 1, required => do
    let state ← get
    if state.sessions.rows ≠ [] ∧ (maxSearchSessions ≤ state.sessions.rows.length ∨
        state.aggregateIdCapacity < required) then
      evictLeastRecentlyUsedLocked
      let required ← requiredIdCount otherReservations idCount
      evictWhileFull otherReservations idCount fuel required
    else
      pure required

/-- What both calls do to find room, from the first addition to the check after the loop. -/
def makeRoom (otherReservations idCount : Nat) : StoreM Unit := do
  let required ← requiredIdCount otherReservations idCount
  let state ← get
  let required ← evictWhileFull otherReservations idCount state.sessions.rows.length required
  require (required ≤ (← get).aggregateIdCapacity) capacityExhausted

/-! ### The calls -/

def reserveSearchSessionIds (current : Except Failure CatalogIdentity) (now : Int)
    (identity : CatalogIdentity) (idCount : Nat) : StoreM Reservation := do
  validateCurrentCatalogIdentity current identity
  purgeSessionsLocked now
  activateSearchSessionGenerationLocked (buildCatalogGenerationKey identity)
  require (idCount ≤ (← get).perSessionIdCapacity) tooManyBookIds
  makeRoom (← get).reservedIdCount idCount
  let updatedReservedIdCount ← addSize (← get).reservedIdCount idCount
  let id ← nextReservationIdLocked
  let reservation : Reservation := ⟨id, buildCatalogGenerationKey identity, idCount⟩
  let state ← get
  match state.reservations.insert? reservation with
  | none => throw (.failed (runtimeError "Catalog cursor reservation id collision."))
  | some reservations =>
    set { state with reservations := reservations, reservedIdCount := updatedReservedIdCount }
    return reservation

def releaseSearchSessionReservation (reservation : Reservation) : StoreM Unit := do
  let _ ← removeReservationLocked reservation

/-- The part of `PublishSearchSession` after the reservation was found. -/
def publishReservedSession (session : Session) (reservation stored : Reservation) :
    StoreM Unit := do
  let state ← get
  require (stored.generationKey = reservation.generationKey ∧
    stored.idCount = reservation.idCount ∧ reservation.idCount ≤ state.reservedIdCount)
    (.logicError (ascii "Catalog cursor reservation accounting is invalid."))
  require (session.bookIds.length = reservation.idCount) (.logicError
    (ascii "Catalog cursor reservation does not match the materialized book-id count."))
  makeRoom (state.reservedIdCount - reservation.idCount) session.bookIds.length
  let state ← get
  match state.sessions.insert? session with
  | none => throw (.failed (runtimeError "Catalog cursor session id collision."))
  | some sessions =>
    set { state with sessions := sessions }
    let removed ← removeReservationLocked reservation
    require (removed = true) .terminated
    modify fun state => { state with
      usedIdCount := (state.usedIdCount + session.bookIds.length) % sizeLimit }

/-- `PublishSearchSession`, for the session id that `MakeUnpredictableSessionId` answers. -/
def publishSearchSession (current : Except Failure CatalogIdentity) (now : Int)
    (newSessionId : Except Failure Bytes) (ids : List Nat) (criteria : Criteria)
    (identity : CatalogIdentity) (nextPosition : Nat) (reservation : Reservation) :
    StoreM SearchCursor := do
  let sessionId ← Program.ofExcept (newSessionId.mapError .failed)
  validateCurrentCatalogIdentity current identity
  purgeSessionsLocked now
  activateSearchSessionGenerationLocked (buildCatalogGenerationKey identity)
  require (ids.length ≤ (← get).perSessionIdCapacity) tooManyBookIds
  match (← get).reservations.find? reservation.id with
  | none => throw catalogSnapshotChanged
  | some stored =>
    require (reservation.generationKey = buildCatalogGenerationKey identity) catalogSnapshotChanged
    publishReservedSession
      { sessionId := sessionId
        bookIds := ids
        criteria := criteria
        sourceFingerprint := identity.sourceFingerprint
        catalogSnapshotId := identity.snapshotId
        firstContinuationPosition := nextPosition
        lastAccess := now } reservation stored
    return { sessionId := sessionId
             sourceFingerprint := identity.sourceFingerprint
             catalogSnapshotId := identity.snapshotId
             position := nextPosition }

def removeSearchSession (sessionId : Bytes) : StoreM Unit := do
  match (← get).sessions.find? sessionId with
  | none => pure ()
  | some session => removeSessionLocked session

structure ContinuationSlice where
  ids : List Nat := []
  nextCursor : Option SearchCursor := none
  deriving DecidableEq

/-- The slice that a cursor cuts out of its session. -/
def sliceOf (session : Session) (cursor : SearchCursor) (limit : Nat) : ContinuationSlice :=
  let count := min limit (session.bookIds.length - cursor.position)
  { ids := (session.bookIds.drop cursor.position).take count
    nextCursor := if cursor.position + count < session.bookIds.length then
      some { cursor with position := cursor.position + count } else none }

/-- `ReadSearchSessionSlice` under the lock. -/
def readSliceLocked (now : Int) (cursor : SearchCursor) (limit : Nat) (criteria : Criteria)
    (identity : CatalogIdentity) : StoreM ContinuationSlice := do
  purgeSessionsLocked now
  match (← get).sessions.find? cursor.sessionId with
  | none => throw (.domain .catalogCursorExpired
      (ascii "The catalog cursor expired; restart pagination from the first page."))
  | some session =>
    if session.sourceFingerprint ≠ identity.sourceFingerprint ∨
        session.catalogSnapshotId ≠ identity.snapshotId then
      removeSessionLocked session
      throw (.domain .catalogSnapshotChanged
        (ascii "The catalog changed while loading the next page."))
    require (session.criteria = criteria ∧ session.firstContinuationPosition ≤ cursor.position ∧
      cursor.position < session.bookIds.length) (.domain .catalogCursorInvalid
        (ascii "The catalog cursor does not match this query."))
    modify fun state => { state with
      sessions := state.sessions.update (fun s => s.sessionId = session.sessionId)
        (fun s => { s with lastAccess := now }) (fun _ => rfl) fun _ => rfl }
    return sliceOf session cursor limit

def readSearchSessionSlice (now : Int) (query : SearchQuery) (criteria : Criteria)
    (identity : CatalogIdentity) : StoreM ContinuationSlice := do
  match query.cursor with
  | none => throw (.domain .catalogCursorInvalid (ascii "The catalog cursor is missing."))
  | some cursor =>
    require (cursor.isValid = true)
      (.domain .catalogCursorInvalid (ascii "The catalog cursor is invalid."))
    require (cursor.sourceFingerprint = identity.sourceFingerprint ∧
      cursor.catalogSnapshotId = identity.snapshotId) (.domain .catalogSnapshotChanged
        (ascii "The catalog changed while loading the next page."))
    readSliceLocked now cursor query.limit criteria identity

end InpxWebReader.Query
