import InpxWebReader.Query.SessionContents
import InpxWebReader.Query.SessionRuns

/-!
# Sessions that are alive

`Exact` is what the store needs so that no call stumbles over its counter of used ids: every call
that does not end the process keeps it. In such a store the session of a cursor that has not
expired answers with its slice (`readSlice_alive`).
-/

namespace InpxWebReader.Query

open Foundation Domain Program

/-- The counter of used ids is exact, and the capacity is a `std::size_t`. -/
structure Exact (state : SessionStore) : Prop where
  counted : state.Counted
  capacity : state.aggregateIdCapacity < sizeLimit

section Parts

theorem purge_exact {E : QueryError → SessionStore → Prop} (now : Int) :
    Triple Exact (purgeSessionsLocked now) (fun _ => Exact) E :=
  .of_ok fun s hs => ⟨(), s.purged now, purgeSessionsLocked_eq hs.counted now,
    SessionStore.Counted.withSessions _ _, hs.capacity⟩

theorem activate_exact {E : QueryError → SessionStore → Prop} (generationKey : Bytes) :
    Triple Exact (activateSearchSessionGenerationLocked generationKey) (fun _ => Exact) E := by
  refine .of_ok fun s hs => ⟨(), s.activated generationKey, activate_eq hs.counted _, ?_⟩
  rw [SessionStore.activated]
  split
  · exact hs
  · exact ⟨rfl, hs.capacity⟩

theorem removeSession_exact {E : QueryError → SessionStore → Prop} {session : Session} :
    Triple (fun s => Exact s ∧ session ∈ s.sessions.rows) (removeSessionLocked session)
      (fun _ => Exact) E :=
  .of_ok fun _ hs => ⟨(), _, removeSessionLocked_eq hs.1.counted hs.2,
    SessionStore.Counted.withSessions _ _, hs.1.capacity⟩

/-- Where there is room, the ids fit. -/
theorem makeRoom_exact (others n : Nat) :
    Triple Exact (makeRoom others n)
      (fun _ s => Exact s ∧ s.usedIdCount + others + n ≤ s.aggregateIdCapacity) (Ends Exact) := by
  intro s hs
  obtain ⟨t, _, ⟨hrun, _, hfits⟩ | hrun⟩ := makeRoom_cases hs.counted others n
  · rw [hrun]
    exact ⟨⟨SessionStore.Counted.withSessions _ _, hs.capacity⟩, hfits⟩
  · rw [hrun]
    exact Or.inr ⟨SessionStore.Counted.withSessions _ _, hs.capacity⟩

theorem enter_exact (current : Except Failure CatalogIdentity) (now : Int)
    (identity : CatalogIdentity) {α : Type} {rest : StoreM α} {Q : α → SessionStore → Prop}
    (h : Triple Exact rest Q (Ends Exact)) :
    Triple Exact (do
      validateCurrentCatalogIdentity current identity
      purgeSessionsLocked now
      activateSearchSessionGenerationLocked (buildCatalogGenerationKey identity)
      rest) Q (Ends Exact) := by
  refine Triple.seq (((validate_ends current identity).post fun _ s hs => hs.2).error
    fun e s he => Or.inr he.2) ?_
  exact Triple.seq (purge_exact now) (Triple.seq (activate_exact _) h)

end Parts

/-! ### The calls -/

theorem reserve_exact (current : Except Failure CatalogIdentity) (now : Int)
    (identity : CatalogIdentity) (idCount : Nat) :
    Triple Exact (reserveSearchSessionIds current now identity idCount) (fun _ => Exact)
      (Ends Exact) := by
  rw [reserveSearchSessionIds]
  apply enter_exact
  refine Triple.bind (M := fun _ => Exact) (.get fun s hs => hs) fun a => ?_
  refine Triple.seq (M := Exact) (.require (fun s hs _ => hs) fun s hs _ => Or.inr hs) ?_
  refine Triple.bind (M := fun _ => Exact) (.get fun s hs => hs) fun b => ?_
  refine Triple.seq ((makeRoom_exact _ _).post fun _ s hs => hs.1) ?_
  refine Triple.bind (M := fun _ => Exact) (.get fun s hs => hs) fun c => ?_
  refine Triple.bind (addSize_ends _ _) fun updated => ?_
  refine Triple.bind (nextReservationId_ends fun s n hs => ⟨hs.counted, hs.capacity⟩)
    fun id => ?_
  refine Triple.bind (M := fun d s => d = s ∧ Exact s) (.get fun s hs => ⟨rfl, hs⟩) fun d => ?_
  cases d.reservations.insert? ⟨id, buildCatalogGenerationKey identity, idCount⟩ with
  | none => exact .throw fun s hs => Or.inr hs.2
  | some reservations =>
    refine Triple.seq (M := Exact) (.modify fun s hs => ?_) (.pure fun s hs => hs)
    obtain ⟨rfl, hs⟩ := hs
    exact ⟨hs.counted, hs.capacity⟩

theorem release_exact (reservation : Reservation) :
    Triple Exact (releaseSearchSessionReservation reservation) (fun _ => Exact)
      fun e _ => e = .terminated :=
  Triple.bind
    (removeReservation_ends reservation fun _ _ _ hs _ => ⟨hs.counted, hs.capacity⟩)
    fun _ => .pure fun _ hs => hs

/-- Between the insertion of its session and the new counter, a publication is short of the ids of
the session. -/
structure ShortOf (n : Nat) (state : SessionStore) : Prop where
  total : totalIds state.sessions = state.usedIdCount + n
  fits : state.usedIdCount + n < sizeLimit
  capacity : state.aggregateIdCapacity < sizeLimit

theorem publishReservedSession_exact (session : Session) (reservation stored : Reservation) :
    Triple Exact (publishReservedSession session reservation stored) (fun _ => Exact)
      (Ends Exact) := by
  rw [publishReservedSession]
  refine Triple.bind (M := fun _ => Exact) (.get fun s hs => hs) fun a => ?_
  refine Triple.seq (M := Exact) (.require (fun s hs _ => hs) fun s hs _ => Or.inr hs) ?_
  refine Triple.seq (M := Exact) (.require (fun s hs _ => hs) fun s hs _ => Or.inr hs) ?_
  refine Triple.seq (makeRoom_exact _ _) ?_
  apply Triple.of_state
  rintro b ⟨hb, hfits⟩
  refine Triple.bind (M := fun c s => c = b ∧ s = b) (.get fun s hs => ⟨hs, hs⟩) fun c =>
    Triple.of_pure fun hc => ?_
  rw [hc]
  cases hinsert : b.sessions.insert? session with
  | none => exact .throw fun s hs => Or.inr (hs ▸ hb)
  | some sessions =>
    have hcapacity := hb.capacity
    refine Triple.seq (M := ShortOf session.bookIds.length) (.modify fun s hs => ?_) ?_
    · refine ⟨?_, ?_, hb.capacity⟩
      · show totalIds sessions = b.usedIdCount + session.bookIds.length
        rw [totalIds_insert hinsert, hb.counted]
      · show b.usedIdCount + session.bookIds.length < sizeLimit
        omega
    · refine Triple.bind ((removeReservation_ends reservation
        fun _ _ _ hs _ => ⟨hs.total, hs.fits, hs.capacity⟩).error fun e s he => Or.inl he)
        fun removed => ?_
      refine Triple.seq (M := ShortOf session.bookIds.length)
        (.require (fun s hs _ => hs) fun _ _ _ => Or.inl rfl) ?_
      refine .modify fun s hs => ⟨?_, hs.capacity⟩
      show (s.usedIdCount + session.bookIds.length) % sizeLimit = totalIds s.sessions
      rw [hs.total, Nat.mod_eq_of_lt hs.fits]

theorem publish_exact (current : Except Failure CatalogIdentity) (now : Int)
    (newSessionId : Except Failure Bytes) (ids : List Nat) (criteria : Criteria)
    (identity : CatalogIdentity) (nextPosition : Nat) (reservation : Reservation) :
    Triple Exact (publishSearchSession current now newSessionId ids criteria identity nextPosition
      reservation) (fun _ => Exact) (Ends Exact) := by
  rw [publishSearchSession]
  refine Triple.bind (M := fun _ => Exact) ?_ fun sessionId => ?_
  · cases newSessionId with
    | error f => exact .throw fun s hs => Or.inr hs
    | ok sessionId => exact .pure fun s hs => hs
  apply enter_exact
  refine Triple.bind (M := fun _ => Exact) (.get fun s hs => hs) fun a => ?_
  refine Triple.seq (M := Exact) (.require (fun s hs _ => hs) fun s hs _ => Or.inr hs) ?_
  refine Triple.bind (M := fun _ => Exact) (.get fun s hs => hs) fun b => ?_
  cases b.reservations.find? reservation.id with
  | none => exact .throw fun s hs => Or.inr hs
  | some stored =>
    refine Triple.seq (M := Exact) (.require (fun s hs _ => hs) fun s hs _ => Or.inr hs) ?_
    exact Triple.seq (publishReservedSession_exact _ _ _) (.pure fun s hs => hs)

theorem removeSearchSession_exact (sessionId : Bytes) :
    Triple Exact (removeSearchSession sessionId) (fun _ => Exact) fun e _ => e = .terminated := by
  rw [removeSearchSession]
  refine Triple.bind (M := fun a s => a = s ∧ Exact s) (.get fun s hs => ⟨rfl, hs⟩) fun a => ?_
  cases hfind : a.sessions.find? sessionId with
  | none => exact .pure fun s hs => hs.2
  | some session =>
    refine removeSession_exact.pre fun s hs => ⟨hs.2, ?_⟩
    rw [← hs.1]
    exact (Table.find?_eq_some.mp hfind).1

theorem totalIds_touched (sessions : Table Session.sessionId Session.sessionId)
    (p : Session → Bool) (now : Int) :
    totalIds (sessions.update p (fun s => { s with lastAccess := now }) (fun _ => rfl)
      fun _ => rfl) = totalIds sessions := by
  rw [totalIds]
  rw [Table.rows_update, List.map_map]
  congr 1
  apply List.map_congr_left
  intro s _
  show (if p s then { s with lastAccess := now } else s).bookIds.length = s.bookIds.length
  split <;> rfl

theorem readSlice_exact (now : Int) (query : SearchQuery) (criteria : Criteria)
    (identity : CatalogIdentity) :
    Triple Exact (readSearchSessionSlice now query criteria identity) (fun _ => Exact)
      (Ends Exact) := by
  rw [readSearchSessionSlice]
  cases query.cursor with
  | none => exact .throw fun s hs => Or.inr hs
  | some cursor =>
    refine Triple.seq (M := Exact) (.require (fun s hs _ => hs) fun s hs _ => Or.inr hs) ?_
    refine Triple.seq (M := Exact) (.require (fun s hs _ => hs) fun s hs _ => Or.inr hs) ?_
    rw [readSliceLocked]
    refine Triple.seq (purge_exact now) ?_
    refine Triple.bind (M := fun a s => a = s ∧ Exact s) (.get fun s hs => ⟨rfl, hs⟩) fun a => ?_
    cases hfind : a.sessions.find? cursor.sessionId with
    | none => exact .throw fun s hs => Or.inr hs.2
    | some session =>
      apply Triple.ite
      · intro _
        refine Triple.seq (removeSession_exact.pre fun s hs => ⟨hs.2, ?_⟩)
          (.throw fun s hs => Or.inr hs)
        rw [← hs.1]
        exact (Table.find?_eq_some.mp hfind).1
      · intro _
        refine Triple.seq (M := Exact)
          (.require (fun s hs _ => hs.2) fun s hs _ => Or.inr hs.2) ?_
        refine Triple.seq (M := Exact) (.modify fun s hs => ⟨?_, hs.capacity⟩)
          (.pure fun s hs => hs)
        show s.usedIdCount = _
        rw [totalIds_touched]
        exact hs.counted

/-! ### The session of a cursor -/

/-- The session of a cursor is there, for the same identity and criteria, and has not expired. -/
structure Alive (state : SessionStore) (cursor : SearchCursor) (criteria : Criteria) (now : Int)
    (session : Session) : Prop where
  stored : session ∈ state.sessions.rows
  named : session.sessionId = cursor.sessionId
  fresh : ¬session.Expired now
  identity : session.sourceFingerprint = cursor.sourceFingerprint ∧
    session.catalogSnapshotId = cursor.catalogSnapshotId
  criteria : session.criteria = criteria
  position : session.firstContinuationPosition ≤ cursor.position

theorem readSlice_alive {state : SessionStore} (hs : Exact state) {query : SearchQuery}
    {cursor : SearchCursor} (hcursor : query.cursor = some cursor)
    (hvalid : cursor.isValid = true) {identity : CatalogIdentity}
    (hof : cursor.sourceFingerprint = identity.sourceFingerprint ∧
      cursor.catalogSnapshotId = identity.snapshotId) {criteria : Criteria} {now : Int}
    {session : Session} (halive : Alive state cursor criteria now session)
    (hposition : cursor.position < session.bookIds.length) :
    ∃ state', readSearchSessionSlice now query criteria identity state =
      .ok (sliceOf session cursor query.limit) state' := by
  have hfind : (state.purged now).sessions.find? cursor.sessionId = some session := by
    rw [Table.find?_eq_some]
    refine ⟨?_, halive.named⟩
    show session ∈ (state.sessions.delete _).rows
    rw [Table.mem_delete]
    exact ⟨halive.stored, decide_eq_false halive.fresh⟩
  have hsame : ¬(session.sourceFingerprint ≠ identity.sourceFingerprint ∨
      session.catalogSnapshotId ≠ identity.snapshotId) := by
    rw [halive.identity.1, halive.identity.2, hof.1, hof.2]
    simp
  rw [readSearchSessionSlice]
  rw [hcursor]
  dsimp only
  rw [bind_ok (require_ok hvalid state), bind_ok (require_ok hof state)]
  rw [readSliceLocked]
  rw [bind_ok (purgeSessionsLocked_eq hs.counted now),
    bind_ok (show (get : StoreM _) (state.purged now) = .ok _ _ from rfl), hfind]
  dsimp only
  rw [if_neg hsame, bind_ok (require_ok ⟨halive.criteria, halive.position, hposition⟩ _)]
  exact ⟨_, rfl⟩

end InpxWebReader.Query
