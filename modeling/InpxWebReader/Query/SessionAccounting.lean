import InpxWebReader.Library.Runs
import InpxWebReader.Query.SessionRuns

/-!
# The accounting of cursor sessions

Any number of searches share one store, and their calls come in any order: a search may reserve,
and publish or release much later, when the catalog has moved on to another generation or its
reservation is long gone. `SessionSystem` is the store together with the reservations that were
ever handed out; `SessionCall` is one call under the lock.

`Valid` is what every call keeps. `accounted_of_run` reads off it that the counters are exact, that
no limit is exceeded, and that no call takes a branch for broken accounting.
-/

namespace InpxWebReader.Query

open Foundation Domain Program

/-! ### Calls in any order -/

/-- The store, and the reservations that were handed out. -/
structure SessionSystem where
  store : SessionStore
  issued : List Reservation := []

/-- The system before the first search. -/
def SessionSystem.initial (aggregateIdCapacity : Nat) : SessionSystem where
  store := { aggregateIdCapacity := aggregateIdCapacity }

/-- A call under the lock of the store. `rehash` stands for the freedom of `std::unordered_map` to
change the order of its elements. -/
inductive SessionCall
  | reserve (current : Except Failure CatalogIdentity) (now : Int) (identity : CatalogIdentity)
      (idCount : Nat)
  | publish (current : Except Failure CatalogIdentity) (now : Int)
      (newSessionId : Except Failure Bytes) (ids : List Nat) (criteria : Criteria)
      (identity : CatalogIdentity) (nextPosition : Nat) (reservation : Reservation)
  | release (reservation : Reservation)
  | readSlice (now : Int) (query : SearchQuery) (criteria : Criteria) (identity : CatalogIdentity)
  | removeSession (sessionId : Bytes)
  | rehash (sessions : Table Session.sessionId Session.sessionId)

/-- The program of a call; it answers the reservation that it hands out. -/
def SessionCall.program : SessionCall → StoreM (Option Reservation)
  | .reserve current now identity idCount => do
    let reservation ← reserveSearchSessionIds current now identity idCount
    return some reservation
  | .publish current now newSessionId ids criteria identity nextPosition reservation => do
    let _ ← publishSearchSession current now newSessionId ids criteria identity nextPosition
      reservation
    return none
  | .release reservation => do
    releaseSearchSessionReservation reservation
    return none
  | .readSlice now query criteria identity => do
    let _ ← readSearchSessionSlice now query criteria identity
    return none
  | .removeSession sessionId => do
    removeSearchSession sessionId
    return none
  | .rehash sessions => do
    modify fun state => { state with sessions := sessions }
    return none

/-- What a caller keeps to: it publishes and releases reservations that it was given, and publishes
as many ids as it reserved. -/
def SessionCall.Allowed (s : SessionSystem) : SessionCall → Prop
  | .publish _ _ _ ids _ _ _ reservation =>
    reservation ∈ s.issued ∧ ids.length = reservation.idCount
  | .release reservation => reservation ∈ s.issued
  | .rehash sessions => sessions.rows.Perm s.store.sessions.rows
  | _ => True

instance (s : SessionSystem) : DecidablePred (SessionCall.Allowed s) := fun call =>
  match call with
  | .publish _ _ _ ids _ _ _ reservation =>
    inferInstanceAs (Decidable (reservation ∈ s.issued ∧ ids.length = reservation.idCount))
  | .release reservation => inferInstanceAs (Decidable (reservation ∈ s.issued))
  | .rehash sessions => inferInstanceAs (Decidable (sessions.rows.Perm s.store.sessions.rows))
  | .reserve .. => .isTrue trivial
  | .readSlice .. => .isTrue trivial
  | .removeSession .. => .isTrue trivial

/-- One call; after `std::terminate` there is no process left. -/
def SessionSystem.step (s : SessionSystem) (call : SessionCall) : Option SessionSystem :=
  if call.Allowed s then
    match call.program s.store with
    | .ok issued store => some ⟨store, issued.toList ++ s.issued⟩
    | .error .terminated _ => none
    | .error _ store => some ⟨store, s.issued⟩
  else none

/-! ### What the store has to say about itself -/

def Session.generationKey (session : Session) : Bytes :=
  buildCatalogGenerationKey ⟨session.sourceFingerprint, session.catalogSnapshotId⟩

/-- The counters are exact, the limits are kept, and nothing is left of an older generation. -/
structure Accounted (state : SessionStore) : Prop where
  used : state.usedIdCount = (state.sessions.rows.map fun s => s.bookIds.length).sum
  reserved : state.reservedIdCount = (state.reservations.rows.map Reservation.idCount).sum
  fits : state.usedIdCount + state.reservedIdCount ≤ state.aggregateIdCapacity
  perSession : ∀ s ∈ state.sessions.rows, s.bookIds.length ≤ state.perSessionIdCapacity
  sessions_le : state.sessions.rows.length ≤ maxSearchSessions
  session_current : ∀ s ∈ state.sessions.rows, s.generationKey = state.currentGenerationKey
  reservation_current : ∀ r ∈ state.reservations.rows,
    r.generationKey = state.currentGenerationKey

/-- An error of the branches for broken accounting. -/
def QueryError.IsCorruption (e : QueryError) : Prop :=
  e = .terminated ∨ ∃ message, e = .logicError message

/-- An error that says the cursor capacity is exceeded. -/
def QueryError.IsCapacity (e : QueryError) : Prop :=
  ∃ message, e = .domain .catalogCursorCapacityExceeded message

/-- The errors a call may fail with: none of broken accounting, and a publication never fails for
want of room. -/
def SessionCall.MayThrow : SessionCall → QueryError → Prop
  | .publish .., e => ¬e.IsCorruption ∧ ¬e.IsCapacity
  | _, e => ¬e.IsCorruption

/-- The store is accounted for, and every reservation in it was handed out, under an id of its
own. -/
structure Valid (issued : List Reservation) (state : SessionStore) : Prop
    extends Accounted state where
  capacity : state.aggregateIdCapacity < sizeLimit
  known : ∀ r ∈ state.reservations.rows, r ∈ issued
  issued_le : ∀ r ∈ issued, r.idCount ≤ state.perSessionIdCapacity
  issued_id : ∀ r ∈ issued, 0 < r.id ∧ r.id ≤ issued.length
  issued_inj : ∀ r ∈ issued, ∀ r' ∈ issued, r.id = r'.id → r = r'
  next : issued.length < sizeLimit - 1 → state.nextReservationId = issued.length + 1

section Parts

variable {issued : List Reservation} {state : SessionStore}

theorem Valid.counted (h : Valid issued state) : state.Counted := h.used

theorem Valid.withSessions (h : Valid issued state)
    {t : Table Session.sessionId Session.sessionId} (ht : t.rows.Sublist state.sessions.rows) :
    Valid issued (state.withSessions t) := by
  have hids : totalIds t ≤ state.usedIdCount := by
    rw [h.counted]
    exact totalIds_le_of_sublist ht
  have hfits := h.fits
  exact {
    used := rfl
    reserved := h.reserved
    fits := by
      show totalIds t + state.reservedIdCount ≤ state.aggregateIdCapacity
      omega
    perSession := fun s hs => h.perSession s (ht.subset hs)
    sessions_le := le_trans ht.length_le h.sessions_le
    session_current := fun s hs => h.session_current s (ht.subset hs)
    reservation_current := h.reservation_current
    capacity := h.capacity
    known := h.known
    issued_le := h.issued_le
    issued_id := h.issued_id
    issued_inj := h.issued_inj
    next := h.next }

theorem Valid.purged (h : Valid issued state) (now : Int) : Valid issued (state.purged now) :=
  h.withSessions List.filter_sublist

theorem Valid.activated (h : Valid issued state) (generationKey : Bytes) :
    Valid issued (state.activated generationKey) := by
  rw [SessionStore.activated]
  split
  · exact h
  · exact {
      used := rfl
      reserved := rfl
      fits := Nat.zero_le _
      perSession := fun s hs => absurd hs List.not_mem_nil
      sessions_le := Nat.zero_le _
      session_current := fun s hs => absurd hs List.not_mem_nil
      reservation_current := fun r hr => absurd hr List.not_mem_nil
      capacity := h.capacity
      known := fun r hr => absurd hr List.not_mem_nil
      issued_le := h.issued_le
      issued_id := h.issued_id
      issued_inj := h.issued_inj
      next := h.next }

theorem activated_currentGenerationKey (generationKey : Bytes) :
    (state.activated generationKey).currentGenerationKey = generationKey := by
  rw [SessionStore.activated]
  split
  · assumption
  · rfl

/-- What a failed call leaves: a valid store, and an error that satisfies `p`. -/
def Fails (issued : List Reservation) (p : QueryError → Prop) (e : QueryError)
    (state : SessionStore) : Prop :=
  p e ∧ Valid issued state

/-- The error is neither about the accounting nor about the capacity. -/
def QueryError.IsOutside (e : QueryError) : Prop := ¬e.IsCorruption ∧ ¬e.IsCapacity

theorem isOutside_failed (failure : Failure) : (QueryError.failed failure).IsOutside := by
  constructor
  · rintro (h | ⟨_, h⟩) <;> cases h
  · rintro ⟨_, h⟩
    cases h

theorem isOutside_snapshotChanged : catalogSnapshotChanged.IsOutside := by
  constructor
  · rintro (h | ⟨_, h⟩) <;> cases h
  · rintro ⟨_, h⟩
    cases h

theorem not_isCorruption_domain (code : DomainErrorCode) (message : Bytes) :
    ¬(QueryError.domain code message).IsCorruption := by
  rintro (h | ⟨_, h⟩) <;> cases h

/-! ### The common beginning of both calls -/

theorem ofFailure_spec {α : Type} {p : QueryError → Prop} (hp : ∀ f, p (.failed f))
    (answer : Except Failure α) :
    Triple (Valid issued) (Program.ofExcept (answer.mapError .failed)) (fun _ => Valid issued)
      (Fails issued p) := by
  cases answer with
  | ok a => exact .pure fun s hs => hs
  | error f => exact .throw fun s hs => ⟨hp f, hs⟩

theorem validate_spec {p : QueryError → Prop} (hp : ∀ e : QueryError, e.IsOutside → p e)
    (current : Except Failure CatalogIdentity) (identity : CatalogIdentity) :
    Triple (Valid issued) (validateCurrentCatalogIdentity current identity)
      (fun _ => Valid issued) (Fails issued p) := by
  rw [validateCurrentCatalogIdentity]
  apply Triple.bind (ofFailure_spec (fun f => hp _ (isOutside_failed f)) current)
  intro answer
  exact .require (fun s hs _ => hs) fun s hs _ => ⟨hp _ isOutside_snapshotChanged, hs⟩

theorem purge_spec {E : QueryError → SessionStore → Prop} (now : Int) :
    Triple (Valid issued) (purgeSessionsLocked now) (fun _ => Valid issued) E :=
  .of_ok fun s hs => ⟨(), s.purged now, purgeSessionsLocked_eq hs.counted now, hs.purged now⟩

theorem activate_spec {E : QueryError → SessionStore → Prop} (generationKey : Bytes) :
    Triple (Valid issued) (activateSearchSessionGenerationLocked generationKey)
      (fun _ s => s.currentGenerationKey = generationKey ∧ Valid issued s) E :=
  .of_ok fun s hs => ⟨(), s.activated generationKey, activate_eq hs.counted generationKey,
    activated_currentGenerationKey generationKey, hs.activated generationKey⟩

/-! ### Reserving -/

/-- A new reservation, where there is room for it. -/
theorem Valid.reserve (h : Valid issued state) {r : Reservation}
    {reservations : Table Reservation.id Reservation.id} {next : Nat}
    (hinsert : state.reservations.insert? r = some reservations)
    (hid : r.id = state.nextReservationId) (hkey : r.generationKey = state.currentGenerationKey)
    (hle : r.idCount ≤ state.perSessionIdCapacity)
    (hfits : state.usedIdCount + state.reservedIdCount + r.idCount ≤ state.aggregateIdCapacity)
    (hnext : next = if r.id = sizeLimit - 1 then 1 else r.id + 1)
    (hlimit : issued.length + 1 < sizeLimit) :
    Valid (r :: issued) { state with
      reservations := reservations
      reservedIdCount := state.reservedIdCount + r.idCount
      nextReservationId := next } := by
  have hrows := (Table.insert?_eq_some.mp hinsert).2
  have hnew : r.id = issued.length + 1 := by
    rw [hid]
    exact h.next (by omega)
  refine {
    used := h.used
    reserved := ?_
    fits := ?_
    perSession := h.perSession
    sessions_le := h.sessions_le
    session_current := h.session_current
    reservation_current := ?_
    capacity := h.capacity
    known := ?_
    issued_le := ?_
    issued_id := ?_
    issued_inj := ?_
    next := ?_ }
  · show state.reservedIdCount + r.idCount = totalReserved reservations
    rw [totalReserved_insert hinsert, h.reserved]
    rfl
  · show state.usedIdCount + (state.reservedIdCount + r.idCount) ≤ state.aggregateIdCapacity
    omega
  · intro r' hr'
    rw [hrows, List.mem_append, List.mem_singleton] at hr'
    rcases hr' with hr' | rfl
    · exact h.reservation_current r' hr'
    · exact hkey
  · intro r' hr'
    rw [hrows, List.mem_append, List.mem_singleton] at hr'
    rcases hr' with hr' | rfl
    · exact List.mem_cons_of_mem _ (h.known r' hr')
    · exact List.mem_cons_self
  · intro r' hr'
    rcases List.mem_cons.mp hr' with rfl | hr'
    · exact hle
    · exact h.issued_le r' hr'
  · intro r' hr'
    rw [List.length_cons]
    rcases List.mem_cons.mp hr' with rfl | hr'
    · omega
    · have := h.issued_id r' hr'
      omega
  · intro r₁ h₁ r₂ h₂ he
    rcases List.mem_cons.mp h₁ with he₁ | h₁ <;> rcases List.mem_cons.mp h₂ with he₂ | h₂
    · rw [he₁, he₂]
    · have := h.issued_id r₂ h₂
      rw [he₁] at he
      omega
    · have := h.issued_id r₁ h₁
      rw [he₂] at he
      omega
    · exact h.issued_inj r₁ h₁ r₂ h₂ he
  · intro hlt
    show next = _
    rw [List.length_cons] at hlt ⊢
    rw [hnext, if_neg (by omega), hnew]

/-- `ReserveSearchSessionIds` hands out a reservation or fails lawfully. -/
theorem reserve_spec (current : Except Failure CatalogIdentity) (now : Int)
    (identity : CatalogIdentity) (idCount : Nat) :
    Triple (Valid issued) (reserveSearchSessionIds current now identity idCount)
      (fun r s => issued.length + 1 < sizeLimit → Valid (r :: issued) s)
      (Fails issued fun e => ¬e.IsCorruption) := by
  rw [reserveSearchSessionIds]
  apply Triple.seq (validate_spec (fun e he => he.1) current identity)
  apply Triple.seq (purge_spec now)
  apply Triple.seq (activate_spec (buildCatalogGenerationKey identity))
  apply Triple.of_state
  rintro s₁ ⟨hkey, h₁⟩
  refine Triple.bind (M := fun a s => a = s₁ ∧ s = s₁) (.get fun s hs => ⟨hs, hs⟩) fun a =>
    Triple.of_pure fun ha => ?_
  subst ha
  refine Triple.bind (M := fun _ s => idCount ≤ a.perSessionIdCapacity ∧ s = a)
    (.require (fun s hs hle => ⟨hle, hs⟩)
      fun s hs _ => ⟨not_isCorruption_domain _ _, hs ▸ h₁⟩) fun _ => Triple.of_pure fun hle => ?_
  refine Triple.bind (M := fun b s => b = a ∧ s = a) (.get fun s hs => ⟨hs, hs⟩) fun b =>
    Triple.of_pure fun hb => ?_
  subst hb
  -- the store after the evictions, with room for the ids
  obtain ⟨t, ht, hroom⟩ := makeRoom_cases h₁.counted b.reservedIdCount idCount
  rcases hroom with ⟨hroom, _, hfits⟩ | hroom
  · set s₂ := b.withSessions t with hs₂
    have h₂ : Valid issued s₂ := h₁.withSessions ht
    refine Triple.bind (M := fun _ s => s = s₂) (.of_ok fun s hs => ⟨(), s₂, hs ▸ hroom, rfl⟩)
      fun _ => ?_
    refine Triple.bind (M := fun c s => c = s₂ ∧ s = s₂) (.get fun s hs => ⟨hs, hs⟩) fun c =>
      Triple.of_pure fun hc => ?_
    rw [hc]
    have hsum : s₂.usedIdCount + s₂.reservedIdCount + idCount ≤ s₂.aggregateIdCapacity := hfits
    have hcap := h₂.capacity
    refine Triple.bind (M := fun n s => n = s₂.reservedIdCount + idCount ∧ s = s₂)
      (.of_ok fun s hs => ⟨_, s, addSize_eq (by omega), rfl, hs⟩) fun n =>
        Triple.of_pure fun hn => ?_
    rw [nextReservationIdLocked]
    refine Triple.bind (M := fun id s => id = s₂.nextReservationId ∧
        s₂.reservations.find? id = none ∧ s = { s₂ with
          nextReservationId := if id = sizeLimit - 1 then 1 else id + 1 }) ?_ fun id =>
      Triple.of_pure fun hid => Triple.of_pure fun hfree => ?_
    · refine Triple.bind (M := fun d s => d = s₂ ∧ s = s₂) (.get fun s hs => ⟨hs, hs⟩) fun d =>
        Triple.of_pure fun hd => ?_
      rw [hd]
      refine Triple.bind (M := fun _ s =>
          s₂.reservations.find? s₂.nextReservationId = none ∧ s = s₂)
        (.require (fun s hs hp => ⟨by simpa using hp.2, hs⟩)
          fun s hs _ => ⟨(isOutside_failed _).1, hs ▸ h₂⟩) fun _ => Triple.of_pure fun hnone => ?_
      refine Triple.seq (M := fun s => s = { s₂ with nextReservationId :=
        if s₂.nextReservationId = sizeLimit - 1 then 1 else s₂.nextReservationId + 1 }) ?_ ?_
      · exact .modify fun s hs => rfl
      · exact .pure fun s hs => ⟨rfl, hnone, hs⟩
    · have hnotin : id ∉ s₂.reservations.rows.map Reservation.id := by
        intro hm
        obtain ⟨r, hr, he⟩ := List.mem_map.mp hm
        exact Table.find?_eq_none.mp hfree r hr he
      obtain ⟨reservations, hinsert⟩ :=
        Table.insert?_isSome (t := s₂.reservations)
          (r := ⟨id, buildCatalogGenerationKey identity, idCount⟩) hnotin hnotin
      refine Triple.of_state fun s₃ hs₃ => ?_
      refine Triple.bind (M := fun d s => d = s₃ ∧ s = s₃) (.get fun s hs => ⟨hs, hs⟩) fun d =>
        Triple.of_pure fun hd => ?_
      subst hd
      have hsame : d.reservations = s₂.reservations := by rw [hs₃]
      simp only [hsame, hinsert]
      refine Triple.seq (M := fun s => s = { s₂ with
          reservations := reservations
          reservedIdCount := s₂.reservedIdCount + idCount
          nextReservationId := if id = sizeLimit - 1 then 1 else id + 1 }) ?_ ?_
      · refine .modify fun s hs => ?_
        rw [hs₃, hn]
      · refine .pure fun s hs hlimit => ?_
        rw [hs]
        exact h₂.reserve hinsert hid hkey.symm hle hsum rfl hlimit
  · refine Triple.seq (M := fun _ => False) ?_ fun s hs => hs.elim
    intro s hs
    rw [hs, hroom]
    exact ⟨not_isCorruption_domain _ _, h₁.withSessions ht⟩

/-! ### Giving a reservation up -/

/-- A reservation in the store is the one that was handed out under its id. -/
theorem Valid.stored_eq (h : Valid issued state) {reservation stored : Reservation}
    (hissued : reservation ∈ issued)
    (hfind : state.reservations.find? reservation.id = some stored) : stored = reservation := by
  obtain ⟨hmem, hid⟩ := Table.find?_eq_some.mp hfind
  exact h.issued_inj stored (h.known stored hmem) reservation hissued hid

/-- The store after a reservation was taken out of it. -/
def SessionStore.released (state : SessionStore) (reservation : Reservation) : SessionStore :=
  { state with
    reservedIdCount := state.reservedIdCount - reservation.idCount
    reservations := state.reservations.delete fun r => r.id = reservation.id }

theorem Valid.released (h : Valid issued state) {reservation : Reservation}
    (hmem : reservation ∈ state.reservations.rows) : Valid issued (state.released reservation) := by
  have hfits := h.fits
  exact {
    used := h.used
    reserved := by
      show state.reservedIdCount - reservation.idCount = totalReserved (state.reservations.delete _)
      rw [totalReserved_delete hmem, h.reserved]
      rfl
    fits := by
      show state.usedIdCount + (state.reservedIdCount - reservation.idCount) ≤ _
      exact le_trans (Nat.add_le_add_left (Nat.sub_le _ _) _) hfits
    perSession := h.perSession
    sessions_le := h.sessions_le
    session_current := h.session_current
    reservation_current := fun r hr => h.reservation_current r (Table.mem_delete.mp hr).1
    capacity := h.capacity
    known := fun r hr => h.known r (Table.mem_delete.mp hr).1
    issued_le := h.issued_le
    issued_id := h.issued_id
    issued_inj := h.issued_inj
    next := h.next }

/-- A stored reservation is taken out. The counter of the store need not be that of its sessions:
a publication inserts its session before it takes its reservation out. -/
theorem removeReservationLocked_eq {reservation : Reservation}
    (hfind : state.reservations.find? reservation.id = some reservation)
    (hle : reservation.idCount ≤ state.reservedIdCount) :
    removeReservationLocked reservation state = .ok true (state.released reservation) := by
  rw [removeReservationLocked]
  rw [bind_ok (show (get : StoreM _) state = .ok state state from rfl)]
  simp only [hfind]
  rw [bind_ok (require_ok ⟨rfl, rfl, hle⟩ state)]
  rfl

/-- `ReleaseSearchSessionReservation` never fails. -/
theorem release_spec {E : QueryError → SessionStore → Prop} {reservation : Reservation}
    (hissued : reservation ∈ issued) :
    Triple (Valid issued) (releaseSearchSessionReservation reservation)
      (fun _ => Valid issued) E := by
  apply Triple.of_ok
  intro s hs
  rw [releaseSearchSessionReservation]
  cases hfind : s.reservations.find? reservation.id with
  | none =>
    refine ⟨(), s, ?_, hs⟩
    rw [bind_ok (show removeReservationLocked reservation s = .ok false s by
      rw [removeReservationLocked]
      rw [bind_ok (show (get : StoreM _) s = .ok s s from rfl)]
      simp only [hfind]
      rfl)]
    rfl
  | some stored =>
    obtain rfl := hs.stored_eq hissued hfind
    have hmem := (Table.find?_eq_some.mp hfind).1
    have hle : stored.idCount ≤ s.reservedIdCount := hs.reserved ▸ idCount_le_totalReserved hmem
    refine ⟨(), s.released stored, ?_, hs.released hmem⟩
    rw [bind_ok (removeReservationLocked_eq hfind hle)]
    rfl

/-! ### Publishing -/

theorem Valid.publish (h : Valid issued state) {session : Session} {reservation : Reservation}
    {sessions : Table Session.sessionId Session.sessionId}
    (hmem : reservation ∈ state.reservations.rows)
    (hcount : session.bookIds.length = reservation.idCount)
    (hinsert : state.sessions.insert? session = some sessions)
    (hroom : state.sessions.rows.length < maxSearchSessions)
    (hkey : session.generationKey = state.currentGenerationKey) :
    Valid issued { state.released reservation with
      sessions := sessions
      usedIdCount := state.usedIdCount + session.bookIds.length } := by
  have hr := h.released hmem
  have hrows := (Table.insert?_eq_some.mp hinsert).2
  have hle : reservation.idCount ≤ state.reservedIdCount :=
    h.reserved ▸ idCount_le_totalReserved hmem
  have hfits := h.fits
  refine {
    used := ?_
    reserved := hr.reserved
    fits := ?_
    perSession := ?_
    sessions_le := ?_
    session_current := ?_
    reservation_current := hr.reservation_current
    capacity := h.capacity
    known := hr.known
    issued_le := h.issued_le
    issued_id := h.issued_id
    issued_inj := h.issued_inj
    next := h.next }
  · show state.usedIdCount + session.bookIds.length = totalIds sessions
    rw [totalIds_insert hinsert, h.counted]
  · show state.usedIdCount + session.bookIds.length +
      (state.reservedIdCount - reservation.idCount) ≤ state.aggregateIdCapacity
    omega
  · intro s hs
    rw [hrows, List.mem_append, List.mem_singleton] at hs
    rcases hs with hs | rfl
    · exact h.perSession s hs
    · rw [hcount]
      exact h.issued_le reservation (h.known reservation hmem)
  · rw [hrows, List.length_append, List.length_singleton]
    omega
  · intro s hs
    rw [hrows, List.mem_append, List.mem_singleton] at hs
    rcases hs with hs | rfl
    · exact h.session_current s hs
    · exact hkey

/-- Once its reservation was found, a publication fails only where the session id is taken. -/
theorem publishReservedSession_spec {session : Session} {reservation : Reservation}
    (hcount : session.bookIds.length = reservation.idCount) :
    Triple (fun s => Valid issued s ∧ s.reservations.find? reservation.id = some reservation ∧
        session.generationKey = s.currentGenerationKey)
      (publishReservedSession session reservation reservation) (fun _ => Valid issued)
      (Fails issued QueryError.IsOutside) := by
  apply Triple.of_state
  rintro s₁ ⟨h₁, hfind, hkey⟩
  have hmem := (Table.find?_eq_some.mp hfind).1
  have hle : reservation.idCount ≤ s₁.reservedIdCount :=
    h₁.reserved ▸ idCount_le_totalReserved hmem
  have hfits := h₁.fits
  have hothers : s₁.usedIdCount + (s₁.reservedIdCount - reservation.idCount) +
      session.bookIds.length ≤ s₁.aggregateIdCapacity := by
    omega
  obtain ⟨t, ht, hroom, hlength⟩ := makeRoom_eq h₁.counted h₁.capacity hothers
  have h₂ : Valid issued (s₁.withSessions t) := h₁.withSessions ht
  rw [publishReservedSession]
  refine Triple.bind (M := fun a s => a = s₁ ∧ s = s₁) (.get fun s hs => ⟨hs, hs⟩) fun a =>
    Triple.of_pure fun ha => ?_
  rw [ha]
  refine Triple.seq (M := fun s => s = s₁)
    (.of_ok fun s hs => ⟨(), s, require_ok ⟨rfl, rfl, hle⟩ s, hs⟩) ?_
  refine Triple.seq (M := fun s => s = s₁) (.of_ok fun s hs => ⟨(), s, require_ok hcount s, hs⟩) ?_
  refine Triple.seq (M := fun s => s = s₁.withSessions t)
    (.of_ok fun s hs => ⟨(), _, hs ▸ hroom, rfl⟩) ?_
  refine Triple.bind (M := fun b s => b = s₁.withSessions t ∧ s = s₁.withSessions t)
    (.get fun s hs => ⟨hs, hs⟩) fun b => Triple.of_pure fun hb => ?_
  rw [hb]
  cases hinsert : (s₁.withSessions t).sessions.insert? session with
  | none => exact .throw fun s hs => ⟨isOutside_failed _, hs ▸ h₂⟩
  | some sessions =>
    set s₃ : SessionStore := { s₁.withSessions t with sessions := sessions } with hs₃
    refine Triple.seq (M := fun s => s = s₃) (.modify fun s hs => rfl) ?_
    refine Triple.bind (M := fun removed s => removed = true ∧ s = s₃.released reservation)
      (.of_ok fun s hs => ⟨true, s₃.released reservation, ?_, rfl, rfl⟩)
      fun removed => Triple.of_pure fun hremoved => ?_
    · rw [hs]
      exact removeReservationLocked_eq hfind hle
    refine Triple.seq (M := fun s => s = s₃.released reservation)
      (.of_ok fun s hs => ⟨(), s, require_ok hremoved s, hs⟩) ?_
    refine .modify fun s hs => ?_
    have hcap := h₂.capacity
    have hfits₂ := h₂.fits
    have hle₂ : reservation.idCount ≤ (s₁.withSessions t).reservedIdCount := hle
    have hmod : ((s₁.withSessions t).usedIdCount + session.bookIds.length) % sizeLimit =
        (s₁.withSessions t).usedIdCount + session.bookIds.length := Nat.mod_eq_of_lt (by omega)
    rw [hs]
    show Valid issued { (s₁.withSessions t).released reservation with
      sessions := sessions
      usedIdCount := ((s₁.withSessions t).usedIdCount + session.bookIds.length) % sizeLimit }
    rw [hmod]
    exact h₂.publish hmem hcount hinsert hlength hkey

/-- `PublishSearchSession` of a reservation that was handed out. -/
theorem publish_spec (current : Except Failure CatalogIdentity) (now : Int)
    (newSessionId : Except Failure Bytes) {ids : List Nat} (criteria : Criteria)
    (identity : CatalogIdentity) (nextPosition : Nat) {reservation : Reservation}
    (hissued : reservation ∈ issued) (hcount : ids.length = reservation.idCount) :
    Triple (Valid issued) (publishSearchSession current now newSessionId ids criteria identity
      nextPosition reservation) (fun _ => Valid issued) (Fails issued QueryError.IsOutside) := by
  rw [publishSearchSession]
  apply Triple.bind (ofFailure_spec isOutside_failed newSessionId)
  intro sessionId
  apply Triple.seq (validate_spec (fun e he => he) current identity)
  apply Triple.seq (purge_spec now)
  apply Triple.seq (activate_spec (buildCatalogGenerationKey identity))
  apply Triple.of_state
  rintro s₁ ⟨hkey, h₁⟩
  refine Triple.bind (M := fun a s => a = s₁ ∧ s = s₁) (.get fun s hs => ⟨hs, hs⟩) fun a =>
    Triple.of_pure fun ha => ?_
  rw [ha]
  have hle : ids.length ≤ s₁.perSessionIdCapacity := hcount ▸ h₁.issued_le reservation hissued
  refine Triple.seq (M := fun s => s = s₁) (.of_ok fun s hs => ⟨(), s, require_ok hle s, hs⟩) ?_
  refine Triple.bind (M := fun b s => b = s₁ ∧ s = s₁) (.get fun s hs => ⟨hs, hs⟩) fun b =>
    Triple.of_pure fun hb => ?_
  rw [hb]
  cases hfind : s₁.reservations.find? reservation.id with
  | none => exact .throw fun s hs => ⟨isOutside_snapshotChanged, hs ▸ h₁⟩
  | some stored =>
    obtain rfl := h₁.stored_eq hissued hfind
    refine Triple.seq (M := fun s => s = s₁)
      (.require (fun s hs _ => hs) fun s hs _ => ⟨isOutside_snapshotChanged, hs ▸ h₁⟩) ?_
    refine Triple.seq ((publishReservedSession_spec hcount).pre fun s hs => ?_)
      (.pure fun s hs => hs)
    rw [hs]
    exact ⟨h₁, hfind, hkey.symm⟩

/-! ### The other calls -/

theorem removeSession_spec {E : QueryError → SessionStore → Prop} {session : Session} :
    Triple (fun s => Valid issued s ∧ session ∈ s.sessions.rows) (removeSessionLocked session)
      (fun _ => Valid issued) E :=
  .of_ok fun _ hs => ⟨(), _, removeSessionLocked_eq hs.1.counted hs.2,
    hs.1.withSessions List.filter_sublist⟩

theorem removeSearchSession_spec {E : QueryError → SessionStore → Prop} (sessionId : Bytes) :
    Triple (Valid issued) (removeSearchSession sessionId) (fun _ => Valid issued) E := by
  rw [removeSearchSession]
  refine Triple.bind (M := fun a s => s = a ∧ Valid issued s) (.get fun s hs => ⟨rfl, hs⟩)
    fun a => ?_
  cases hfind : a.sessions.find? sessionId with
  | none => exact .pure fun s hs => hs.2
  | some session =>
    refine removeSession_spec.pre fun s hs => ⟨hs.2, ?_⟩
    rw [hs.1]
    exact (Table.find?_eq_some.mp hfind).1

/-- A change of the sessions that concerns only the time of their last access. -/
theorem Valid.touched (h : Valid issued state) (p : Session → Bool) (now : Int) :
    Valid issued { state with
      sessions := state.sessions.update p (fun s => { s with lastAccess := now }) (fun _ => rfl)
        fun _ => rfl } := by
  have hrow : ∀ s ∈ (state.sessions.update p (fun s => { s with lastAccess := now }) (fun _ => rfl)
      fun _ => rfl).rows, ∃ s₀ ∈ state.sessions.rows, s.bookIds = s₀.bookIds ∧
        s.generationKey = s₀.generationKey := by
    intro s hs
    obtain ⟨s₀, hs₀, rfl⟩ := Table.mem_update.mp hs
    refine ⟨s₀, hs₀, ?_⟩
    split <;> exact ⟨rfl, rfl⟩
  refine { h with used := ?_, perSession := ?_, sessions_le := ?_, session_current := ?_ }
  · show state.usedIdCount = _
    rw [h.used, Table.rows_update, List.map_map]
    congr 1
    apply List.map_congr_left
    intro s _
    show s.bookIds.length = (if p s then { s with lastAccess := now } else s).bookIds.length
    split <;> rfl
  · intro s hs
    obtain ⟨s₀, hs₀, hids, _⟩ := hrow s hs
    rw [hids]
    exact h.perSession s₀ hs₀
  · rw [Table.rows_update, List.length_map]
    exact h.sessions_le
  · intro s hs
    obtain ⟨s₀, hs₀, _, hkey⟩ := hrow s hs
    rw [hkey]
    exact h.session_current s₀ hs₀

theorem readSlice_spec (now : Int) (query : SearchQuery) (criteria : Criteria)
    (identity : CatalogIdentity) :
    Triple (Valid issued) (readSearchSessionSlice now query criteria identity)
      (fun _ => Valid issued) (Fails issued fun e => ¬e.IsCorruption) := by
  rw [readSearchSessionSlice]
  cases query.cursor with
  | none => exact .throw fun s hs => ⟨not_isCorruption_domain _ _, hs⟩
  | some cursor =>
    have hrequire : ∀ (p : Prop) [Decidable p] (code : DomainErrorCode) (message : Bytes),
        Triple (Valid issued) (require p (.domain code message)) (fun _ => Valid issued)
          (Fails issued fun e => ¬e.IsCorruption) := fun _ _ _ _ =>
      .require (fun s hs _ => hs) fun s hs _ => ⟨not_isCorruption_domain _ _, hs⟩
    apply Triple.seq (hrequire _ _ _)
    apply Triple.seq (hrequire _ _ _)
    rw [readSliceLocked]
    apply Triple.seq (purge_spec now)
    refine Triple.bind (M := fun a s => s = a ∧ Valid issued s) (.get fun s hs => ⟨rfl, hs⟩)
      fun a => ?_
    cases hfind : a.sessions.find? cursor.sessionId with
    | none => exact .throw fun s hs => ⟨not_isCorruption_domain _ _, hs.2⟩
    | some session =>
      apply Triple.ite
      · intro _
        refine Triple.seq (removeSession_spec.pre fun s hs => ⟨hs.2, ?_⟩)
          (.throw fun s hs => ⟨not_isCorruption_domain _ _, hs⟩)
        rw [hs.1]
        exact (Table.find?_eq_some.mp hfind).1
      · intro _
        refine Triple.seq ((hrequire _ _ _).pre fun s hs => hs.2) ?_
        exact Triple.seq (.modify fun s hs => hs.touched _ now) (.pure fun s hs => hs)

theorem Valid.rehashed (h : Valid issued state)
    {sessions : Table Session.sessionId Session.sessionId}
    (hperm : sessions.rows.Perm state.sessions.rows) :
    Valid issued { state with sessions := sessions } :=
  { h with
    used := by
      show state.usedIdCount = (sessions.rows.map _).sum
      rw [h.used]
      exact ((hperm.map _).sum_eq).symm
    perSession := fun s hs => h.perSession s (hperm.subset hs)
    sessions_le := by
      show sessions.rows.length ≤ _
      rw [hperm.length_eq]
      exact h.sessions_le
    session_current := fun s hs => h.session_current s (hperm.subset hs) }

end Parts

/-! ### Runs -/

/-- What a call hands out is handed out. -/
def handedOut (issued : List Reservation) (r : Option Reservation) : List Reservation :=
  r.toList ++ issued

theorem SessionCall.spec {s : SessionSystem} {call : SessionCall} (hallowed : call.Allowed s)
    (h : Valid s.issued s.store) :
    Triple (fun t => t = s.store) call.program
      (fun r t => (handedOut s.issued r).length < sizeLimit → Valid (handedOut s.issued r) t)
      (Fails s.issued call.MayThrow) := by
  have hstart : ∀ t, t = s.store → Valid s.issued t := fun t ht => ht ▸ h
  cases call with
  | reserve current now identity idCount =>
    refine Triple.bind ((reserve_spec current now identity idCount).pre hstart) fun r => ?_
    exact .pure fun t ht hlimit => ht hlimit
  | publish current now newSessionId ids criteria identity nextPosition reservation =>
    refine Triple.bind ((publish_spec current now newSessionId criteria identity nextPosition
      hallowed.1 hallowed.2).pre hstart) fun r => ?_
    exact .pure fun t ht _ => ht
  | release reservation =>
    exact Triple.seq ((release_spec hallowed).pre hstart) (.pure fun t ht _ => ht)
  | readSlice now query criteria identity =>
    refine Triple.bind ((readSlice_spec now query criteria identity).pre hstart) fun r => ?_
    exact .pure fun t ht _ => ht
  | removeSession sessionId =>
    exact Triple.seq ((removeSearchSession_spec sessionId).pre hstart) (.pure fun t ht _ => ht)
  | rehash sessions =>
    refine Triple.seq (M := Valid s.issued) (.modify fun t ht => ?_) (.pure fun t ht _ => ht)
    rw [ht]
    exact h.rehashed hallowed

theorem SessionSystem.step_eq_some {s s' : SessionSystem} {call : SessionCall} :
    s.step call = some s' ↔ call.Allowed s ∧
      ((∃ r, call.program s.store = .ok r s'.store ∧ s'.issued = handedOut s.issued r) ∨
        ∃ e, e ≠ .terminated ∧ call.program s.store = .error e s'.store ∧
          s'.issued = s.issued) := by
  obtain ⟨store', issued'⟩ := s'
  unfold SessionSystem.step handedOut
  by_cases hallowed : call.Allowed s
  · rw [if_pos hallowed]
    cases hrun : call.program s.store with
    | ok r store => simp [hallowed, eq_comm]
    | error e store => cases e <;> simp [hallowed, eq_comm]
  · simp [hallowed]

/-- One call, as long as fewer than `2 ^ 64` reservations were handed out. -/
theorem Valid.step {s s' : SessionSystem} {call : SessionCall} (h : Valid s.issued s.store)
    (hstep : s.step call = some s') (hlimit : s'.issued.length < sizeLimit) :
    Valid s'.issued s'.store := by
  obtain ⟨hallowed, hcase⟩ := SessionSystem.step_eq_some.mp hstep
  rcases hcase with ⟨r, hrun, hissued⟩ | ⟨e, _, hrun, hissued⟩
  · have hok := (SessionCall.spec hallowed h).ok rfl hrun
    rw [hissued] at hlimit ⊢
    exact hok hlimit
  · rw [hissued]
    exact ((SessionCall.spec hallowed h).throws rfl hrun).2

theorem SessionSystem.issued_le_step {s s' : SessionSystem} {call : SessionCall}
    (hstep : s.step call = some s') : s.issued.length ≤ s'.issued.length := by
  obtain ⟨_, hcase⟩ := SessionSystem.step_eq_some.mp hstep
  rcases hcase with ⟨r, _, hissued⟩ | ⟨e, _, _, hissued⟩
  · rw [hissued, handedOut, List.length_append]
    omega
  · rw [hissued]

theorem valid_initial {aggregateIdCapacity : Nat} (h : aggregateIdCapacity < sizeLimit) :
    Valid [] (SessionSystem.initial aggregateIdCapacity).store where
  used := rfl
  reserved := rfl
  fits := Nat.zero_le _
  perSession := fun _ hs => absurd hs List.not_mem_nil
  sessions_le := Nat.zero_le _
  session_current := fun _ hs => absurd hs List.not_mem_nil
  reservation_current := fun _ hr => absurd hr List.not_mem_nil
  capacity := h
  known := fun _ hr => absurd hr List.not_mem_nil
  issued_le := fun _ hr => absurd hr List.not_mem_nil
  issued_id := fun _ hr => absurd hr List.not_mem_nil
  issued_inj := fun _ hr => absurd hr List.not_mem_nil
  next := fun _ => rfl

theorem valid_of_run {aggregateIdCapacity : Nat} (hcap : aggregateIdCapacity < sizeLimit)
    {calls : List SessionCall} {s : SessionSystem}
    (hrun : Runs.run SessionSystem.step (.initial aggregateIdCapacity) calls = some s)
    (hlimit : s.issued.length < sizeLimit) : Valid s.issued s.store := by
  have hinv := Runs.run_invariant
    (I := fun s : SessionSystem => s.issued.length < sizeLimit → Valid s.issued s.store)
    (fun s call s' hs hstep hlt =>
      (hs (lt_of_le_of_lt (SessionSystem.issued_le_step hstep) hlt)).step hstep hlt)
    hrun fun _ => valid_initial hcap
  exact hinv hlimit

/-- Whatever calls were made, in whatever order: the counters are exact, the limits are kept, and
no call that may follow finds the accounting broken or, to publish what it reserved, no room. -/
theorem accounted_of_run {aggregateIdCapacity : Nat} (hcap : aggregateIdCapacity < sizeLimit)
    {calls : List SessionCall} {s : SessionSystem}
    (hrun : Runs.run SessionSystem.step (.initial aggregateIdCapacity) calls = some s)
    (hlimit : s.issued.length < sizeLimit) :
    Accounted s.store ∧ ∀ call : SessionCall, call.Allowed s → ∀ e state',
      call.program s.store = .error e state' → call.MayThrow e := by
  have hvalid := valid_of_run hcap hrun hlimit
  refine ⟨hvalid.toAccounted, ?_⟩
  intro call hallowed e state' herror
  exact ((SessionCall.spec hallowed hvalid).throws rfl herror).1

/-- A search that reserves and publishes, one that the next generation makes obsolete before its
release, and one of the next generation. -/
def sampleCalls : List SessionCall :=
  let old : CatalogIdentity := ⟨ascii "f", ascii "s1"⟩
  let new : CatalogIdentity := ⟨ascii "f", ascii "s2"⟩
  let first : Reservation := ⟨1, buildCatalogGenerationKey old, 3⟩
  let second : Reservation := ⟨2, buildCatalogGenerationKey old, 2⟩
  let third : Reservation := ⟨3, buildCatalogGenerationKey new, 5⟩
  [.reserve (.ok old) 0 old 3, .reserve (.ok old) 1 old 2,
    .publish (.ok old) 2 (.ok (ascii "a")) [7, 8, 9] ⟨[], [], [], .title, .ascending⟩ old 2 first,
    .reserve (.ok new) 3 new 5, .release second,
    .publish (.ok new) 4 (.ok (ascii "b")) [1, 2, 3, 4, 5] ⟨[], [], [], .title, .ascending⟩ new 2
      third]

theorem sampleCalls_accounted : ∃ s : SessionSystem,
    Runs.run SessionSystem.step (.initial 8) sampleCalls = some s ∧ s.issued.length = 3 ∧
      s.store.usedIdCount = 5 ∧ Accounted s.store := by
  have hrun : (Runs.run SessionSystem.step (.initial 8) sampleCalls).map
      (fun s => (s.issued.length, s.store.usedIdCount)) = some (3, 5) := by decide +kernel
  obtain ⟨s, hs, hpair⟩ := Option.map_eq_some_iff.mp hrun
  obtain ⟨hlength, hused⟩ := Prod.mk.inj hpair
  refine ⟨s, hs, hlength, hused, (accounted_of_run (by decide) hs ?_).1⟩
  rw [hlength]
  decide

end InpxWebReader.Query
