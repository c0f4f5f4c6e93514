import InpxWebReader.Query.SessionStore

/-!
# What the calls do to the contents of the store

Whatever the counters say, a call that does not end the process keeps a property `p` of the
sessions, and keeps the reservations of the current generation only: it removes sessions and
reservations, and a publication adds one session. `Holds` is the state of the store that these
facts are about; `Ends` is what a throw leaves of a property.
-/

namespace InpxWebReader.Query

open Foundation Domain Program

/-- The sessions satisfy `p`, and the reservations are of the current generation. -/
structure Holds (p : Session → Prop) (state : SessionStore) : Prop where
  sessions : ∀ s ∈ state.sessions.rows, p s
  reservations : ∀ r ∈ state.reservations.rows, r.generationKey = state.currentGenerationKey

/-- A call ended the process or left the property. -/
def Ends (I : SessionStore → Prop) (e : QueryError) (state : SessionStore) : Prop :=
  e = .terminated ∨ I state

/-- A property that survives the removal of sessions. -/
def Removable (I : SessionStore → Prop) : Prop :=
  ∀ state n t, I state → t.rows.Sublist state.sessions.rows →
    I { state with usedIdCount := n, sessions := t }

section Removing

variable {I : SessionStore → Prop}

theorem removeSession_ends (hI : Removable I) (session : Session) :
    Triple I (removeSessionLocked session) (fun _ => I) fun e _ => e = .terminated := by
  rw [removeSessionLocked]
  refine Triple.bind (M := fun a s => a = s ∧ I s) (.get fun s hs => ⟨rfl, hs⟩) fun a => ?_
  refine Triple.seq (M := fun s => a = s ∧ I s) (.require (fun s hs _ => hs) fun _ _ _ => rfl) ?_
  refine .modify fun s hs => ?_
  obtain ⟨rfl, hi⟩ := hs
  exact hI a _ _ hi List.filter_sublist

theorem purge_ends (hI : Removable I) (now : Int) :
    Triple I (purgeSessionsLocked now) (fun _ => I) fun e _ => e = .terminated := by
  rw [purgeSessionsLocked]
  refine Triple.bind (M := fun _ => I) (.get fun s hs => hs) fun a => ?_
  apply Triple.forM_inv
  intro session _
  exact .ite (fun _ => removeSession_ends hI session) fun _ => .pure fun s hs => hs

theorem evict_ends (hI : Removable I) :
    Triple I evictLeastRecentlyUsedLocked (fun _ => I) fun e _ => e = .terminated := by
  rw [evictLeastRecentlyUsedLocked]
  refine Triple.bind (M := fun _ => I) (.get fun s hs => hs) fun a => ?_
  cases Sorting.minElement Session.lastAccess a.sessions.rows with
  | none => exact .pure fun s hs => hs
  | some session => exact removeSession_ends hI session

theorem addSize_ends (left right : Nat) :
    Triple I (addSize left right) (fun _ => I) (Ends I) := by
  rw [addSize]
  exact Triple.seq (.require (fun s hs _ => hs) fun s hs _ => Or.inr hs) (.pure fun s hs => hs)

theorem requiredIdCount_ends (others n : Nat) :
    Triple I (requiredIdCount others n) (fun _ => I) (Ends I) := by
  rw [requiredIdCount]
  refine Triple.bind (M := fun _ => I) (.get fun s hs => hs) fun a => ?_
  exact Triple.bind (addSize_ends _ _) fun _ => addSize_ends _ _

theorem evictWhileFull_ends (hI : Removable I) (others n : Nat) :
    ∀ (fuel required : Nat),
      Triple I (evictWhileFull others n fuel required) (fun _ => I) (Ends I) := by
  intro fuel
  induction fuel with
  | zero =>
    intro required
    exact .pure fun s hs => hs
  | succ fuel ih =>
    intro required
    refine Triple.bind (M := fun _ => I) (.get fun s hs => hs) fun a => ?_
    apply Triple.ite
    · intro _
      refine Triple.seq ((evict_ends hI).error fun e s he => Or.inl he) ?_
      exact Triple.bind (requiredIdCount_ends others n) ih
    · intro _
      exact .pure fun s hs => hs

theorem makeRoom_ends (hI : Removable I) (others n : Nat) :
    Triple I (makeRoom others n) (fun _ => I) (Ends I) := by
  rw [makeRoom]
  refine Triple.bind (requiredIdCount_ends others n) fun required => ?_
  refine Triple.bind (M := fun _ => I) (.get fun s hs => hs) fun a => ?_
  refine Triple.bind (evictWhileFull_ends hI others n _ _) fun required => ?_
  refine Triple.bind (M := fun _ => I) (.get fun s hs => hs) fun b => ?_
  exact .require (fun s hs _ => hs) fun s hs _ => Or.inr hs

end Removing

section Contents

variable {p : Session → Prop}

theorem removable_holds : Removable (Holds p) :=
  fun _ _ _ h ht => ⟨fun s hs => h.sessions s (ht.subset hs), h.reservations⟩

theorem removable_holds_key (generationKey : Bytes) :
    Removable fun s => s.currentGenerationKey = generationKey ∧ Holds p s :=
  fun _ _ _ h ht => ⟨h.1, removable_holds _ _ _ h.2 ht⟩

/-- A request whose identity is not that of the database gets no further than the look at it. -/
theorem validate_cases (current : Except Failure CatalogIdentity) (identity : CatalogIdentity)
    (state : SessionStore) :
    (current = .ok identity ∧
        validateCurrentCatalogIdentity current identity state = .ok () state) ∨
      ∃ e, validateCurrentCatalogIdentity current identity state = .error e state ∧
        ((∃ f, current = .error f ∧ e = .failed f) ∨
          ∃ i, current = .ok i ∧ i ≠ identity ∧ e = catalogSnapshotChanged) := by
  rw [validateCurrentCatalogIdentity]
  cases current with
  | error f => exact Or.inr ⟨.failed f, rfl, Or.inl ⟨f, rfl, rfl⟩⟩
  | ok i =>
    have hanswer : (Program.ofExcept (Except.mapError QueryError.failed (.ok i)) : StoreM _)
        state = .ok i state := rfl
    rw [bind_ok hanswer]
    by_cases h : i = identity
    · exact Or.inl ⟨h ▸ rfl, require_ok h state⟩
    · exact Or.inr ⟨_, require_error h state, Or.inr ⟨i, rfl, h, rfl⟩⟩

theorem validate_ends {I : SessionStore → Prop} (current : Except Failure CatalogIdentity)
    (identity : CatalogIdentity) :
    Triple I (validateCurrentCatalogIdentity current identity)
      (fun _ s => current = .ok identity ∧ I s) fun e s => e ≠ .terminated ∧ I s := by
  intro s hs
  rcases validate_cases current identity s with ⟨hc, hrun⟩ | ⟨e, hrun, he⟩
  · rw [hrun]
    exact ⟨hc, hs⟩
  · rw [hrun]
    refine ⟨?_, hs⟩
    rcases he with ⟨f, _, rfl⟩ | ⟨i, _, _, rfl⟩ <;> exact fun h => by cases h

/-- A new generation starts without sessions and reservations. -/
theorem activate_ends (generationKey : Bytes) :
    Triple (Holds p) (activateSearchSessionGenerationLocked generationKey)
      (fun _ s => s.currentGenerationKey = generationKey ∧ Holds p s)
      fun e _ => e = .terminated := by
  rw [activateSearchSessionGenerationLocked]
  refine Triple.bind (M := fun a s => a = s ∧ Holds p s) (.get fun s hs => ⟨rfl, hs⟩) fun a => ?_
  apply Triple.ite
  · intro hkey
    refine .pure fun s hs => ?_
    rw [← hs.1]
    exact ⟨hkey, hs.1 ▸ hs.2⟩
  · intro _
    -- the reservations of the old generation are still there while its sessions are removed
    have hremovable : Removable fun s =>
        s.currentGenerationKey = generationKey ∧ ∀ t ∈ s.sessions.rows, p t :=
      fun _ _ _ h ht => ⟨h.1, fun t ht' => h.2 t (ht.subset ht')⟩
    refine Triple.seq (M := fun s =>
        s.currentGenerationKey = generationKey ∧ ∀ t ∈ s.sessions.rows, p t)
      (.modify fun s hs => ⟨rfl, hs.2.sessions⟩) ?_
    refine Triple.seq (M := fun s =>
        s.currentGenerationKey = generationKey ∧ ∀ t ∈ s.sessions.rows, p t) ?_ ?_
    · rw [removeAllSessionsLocked]
      refine Triple.bind (M := fun _ s =>
          s.currentGenerationKey = generationKey ∧ ∀ t ∈ s.sessions.rows, p t)
        (.get fun s hs => hs) fun b => ?_
      apply Triple.forM_inv
      intro session _
      exact removeSession_ends hremovable session
    · exact .modify fun s hs => ⟨hs.1, hs.2, fun r hr => absurd hr List.not_mem_nil⟩

/-- The beginning that reserving and publishing have in common. -/
theorem enter_ends (current : Except Failure CatalogIdentity) (now : Int)
    (identity : CatalogIdentity) {α : Type} {rest : StoreM α} {Q : α → SessionStore → Prop}
    (h : Triple (fun s => s.currentGenerationKey = buildCatalogGenerationKey identity ∧ Holds p s)
      rest Q (Ends (Holds p))) :
    Triple (Holds p) (do
      validateCurrentCatalogIdentity current identity
      purgeSessionsLocked now
      activateSearchSessionGenerationLocked (buildCatalogGenerationKey identity)
      rest) Q (Ends (Holds p)) := by
  refine Triple.seq (((validate_ends current identity).post fun _ s hs => hs.2).error
    fun e s he => Or.inr he.2) ?_
  refine Triple.seq ((purge_ends removable_holds now).error fun e s he => Or.inl he) ?_
  exact Triple.seq ((activate_ends (buildCatalogGenerationKey identity)).error
    fun e s he => Or.inl he) h

theorem nextReservationId_ends {I : SessionStore → Prop}
    (hI : ∀ s n, I s → I { s with nextReservationId := n }) :
    Triple I nextReservationIdLocked (fun _ => I) (Ends I) := by
  rw [nextReservationIdLocked]
  refine Triple.bind (M := fun a s => a = s ∧ I s) (.get fun s hs => ⟨rfl, hs⟩) fun a => ?_
  refine Triple.seq (M := fun s => a = s ∧ I s)
    (.require (fun s hs _ => hs) fun s hs _ => Or.inr hs.2) ?_
  refine Triple.seq (M := I) (.modify fun s hs => ?_) (.pure fun s hs => hs)
  obtain ⟨rfl, hi⟩ := hs
  exact hI a _ hi

/-- A reservation that is handed out is of the generation of its search. -/
theorem reserve_ends (current : Except Failure CatalogIdentity) (now : Int)
    (identity : CatalogIdentity) (idCount : Nat) :
    Triple (Holds p) (reserveSearchSessionIds current now identity idCount)
      (fun r s => r.generationKey = buildCatalogGenerationKey identity ∧ Holds p s)
      (Ends (Holds p)) := by
  rw [reserveSearchSessionIds]
  apply enter_ends
  set generationKey := buildCatalogGenerationKey identity with hgeneration
  have hends : ∀ e s, Ends (fun s => s.currentGenerationKey = generationKey ∧ Holds p s) e s →
      Ends (Holds p) e s := fun e s he => he.imp id And.right
  refine Triple.bind (M := fun _ s => s.currentGenerationKey = generationKey ∧ Holds p s)
    (.get fun s hs => hs) fun a => ?_
  refine Triple.seq (M := fun s => s.currentGenerationKey = generationKey ∧ Holds p s)
    (.require (fun s hs _ => hs) fun s hs _ => Or.inr hs.2) ?_
  refine Triple.bind (M := fun _ s => s.currentGenerationKey = generationKey ∧ Holds p s)
    (.get fun s hs => hs) fun b => ?_
  refine Triple.seq ((makeRoom_ends (removable_holds_key generationKey) _ _).error hends) ?_
  refine Triple.bind (M := fun _ s => s.currentGenerationKey = generationKey ∧ Holds p s)
    (.get fun s hs => hs) fun c => ?_
  refine Triple.bind ((addSize_ends _ _).error hends) fun updated => ?_
  refine Triple.bind ((nextReservationId_ends fun s n hs => ⟨hs.1, hs.2.1, hs.2.2⟩).error hends)
    fun id => ?_
  refine Triple.bind (M := fun d s => d = s ∧ s.currentGenerationKey = generationKey ∧ Holds p s)
    (.get fun s hs => ⟨rfl, hs⟩) fun d => ?_
  cases hinsert : d.reservations.insert? ⟨id, generationKey, idCount⟩ with
  | none => exact .throw fun s hs => Or.inr hs.2.2
  | some reservations =>
    refine Triple.seq (M := Holds p) (.modify fun s hs => ?_) (.pure fun s hs => ⟨rfl, hs⟩)
    obtain ⟨rfl, hkey, hholds⟩ := hs
    refine ⟨hholds.sessions, fun r hr => ?_⟩
    rw [(Table.insert?_eq_some.mp hinsert).2, List.mem_append, List.mem_singleton] at hr
    rcases hr with hr | rfl
    · exact hholds.reservations r hr
    · exact hkey.symm

theorem removeReservation_ends {I : SessionStore → Prop} (reservation : Reservation)
    (hI : ∀ s n t, I s → t.rows.Sublist s.reservations.rows →
      I { s with reservedIdCount := n, reservations := t }) :
    Triple I (removeReservationLocked reservation) (fun _ => I) fun e _ => e = .terminated := by
  rw [removeReservationLocked]
  refine Triple.bind (M := fun a s => a = s ∧ I s) (.get fun s hs => ⟨rfl, hs⟩) fun a => ?_
  cases a.reservations.find? reservation.id with
  | none => exact .pure fun s hs => hs.2
  | some stored =>
    refine Triple.seq (M := fun s => a = s ∧ I s)
      (.require (fun s hs _ => hs) fun _ _ _ => rfl) ?_
    refine Triple.seq (M := I) (.modify fun s hs => ?_) (.pure fun s hs => hs)
    obtain ⟨rfl, hi⟩ := hs
    exact hI a _ _ hi List.filter_sublist

theorem holds_withReservations : ∀ s n t, Holds p s → t.rows.Sublist s.reservations.rows →
    Holds p { s with reservedIdCount := n, reservations := t } :=
  fun _ _ _ h ht => ⟨h.sessions, fun r hr => h.reservations r (ht.subset hr)⟩

theorem release_ends (reservation : Reservation) :
    Triple (Holds p) (releaseSearchSessionReservation reservation) (fun _ => Holds p)
      fun e _ => e = .terminated :=
  Triple.bind (removeReservation_ends reservation holds_withReservations) fun _ =>
    .pure fun _ hs => hs

/-- The store of another generation does not have the reservation. -/
theorem releaseOther_spec {state : SessionStore} (hs : Holds p state) {reservation : Reservation}
    (hother : state.currentGenerationKey ≠ reservation.generationKey) :
    Triple (· = state) (releaseSearchSessionReservation reservation) (fun _ s => s = state)
      fun e _ => e = .terminated := by
  rw [releaseSearchSessionReservation, removeReservationLocked]
  refine Triple.bind (M := fun _ s => s = state) ?_ fun _ => .pure fun s hs => hs
  refine Triple.bind (M := fun a s => a = state ∧ s = state) (.get fun s h => ⟨h, h⟩) fun a =>
    Triple.of_pure fun ha => ?_
  rw [ha]
  cases hfind : state.reservations.find? reservation.id with
  | none => exact .pure fun s h => h
  | some stored =>
    refine Triple.seq (M := fun s => False ∧ s = state) (.require (fun s h hkey => ?_) ?_)
      (Triple.of_pure False.elim)
    · have hstored := hs.reservations stored (Table.find?_eq_some.mp hfind).1
      exact absurd (hstored.symm.trans hkey.1) hother
    · intro s _ _
      rfl

theorem publish_ends (current : Except Failure CatalogIdentity) (now : Int)
    (newSessionId : Except Failure Bytes) (ids : List Nat) (criteria : Criteria)
    (identity : CatalogIdentity) (nextPosition : Nat) (reservation : Reservation)
    (hnew : ∀ sessionId, p ⟨sessionId, ids, criteria, identity.sourceFingerprint,
      identity.snapshotId, nextPosition, now⟩) :
    Triple (Holds p) (publishSearchSession current now newSessionId ids criteria identity
        nextPosition reservation)
      (fun cursor s => (∃ sessionId, newSessionId = .ok sessionId ∧
        cursor = ⟨sessionId, identity.sourceFingerprint, identity.snapshotId, nextPosition⟩) ∧
          Holds p s)
      (Ends (Holds p)) := by
  rw [publishSearchSession]
  refine Triple.bind (M := fun sessionId s => newSessionId = .ok sessionId ∧ Holds p s) ?_
    fun sessionId => Triple.of_pure fun hid => ?_
  · cases newSessionId with
    | error f => exact .throw fun s hs => Or.inr hs
    | ok sessionId => exact .pure fun s hs => ⟨rfl, hs⟩
  apply enter_ends
  set generationKey := buildCatalogGenerationKey identity with hgeneration
  refine Triple.bind (M := fun _ s => Holds p s) (.get fun s hs => hs.2) fun a => ?_
  refine Triple.seq (M := fun s => Holds p s)
    (.require (fun s hs _ => hs) fun s hs _ => Or.inr hs) ?_
  refine Triple.bind (M := fun _ s => Holds p s) (.get fun s hs => hs) fun b => ?_
  cases b.reservations.find? reservation.id with
  | none => exact .throw fun s hs => Or.inr hs
  | some stored =>
    refine Triple.seq (M := fun s => Holds p s)
      (.require (fun s hs _ => hs) fun s hs _ => Or.inr hs) ?_
    refine Triple.seq (M := Holds p) ?_ (.pure fun s hs => ⟨⟨sessionId, hid, rfl⟩, hs⟩)
    rw [publishReservedSession]
    refine Triple.bind (M := fun _ s => Holds p s) (.get fun s hs => hs) fun c => ?_
    refine Triple.seq (M := fun s => Holds p s)
      (.require (fun s hs _ => hs) fun s hs _ => Or.inr hs) ?_
    refine Triple.seq (M := fun s => Holds p s)
      (.require (fun s hs _ => hs) fun s hs _ => Or.inr hs) ?_
    refine Triple.seq (makeRoom_ends removable_holds _ _) ?_
    refine Triple.bind (M := fun d s => d = s ∧ Holds p s) (.get fun s hs => ⟨rfl, hs⟩) fun d => ?_
    cases hinsert : d.sessions.insert? _ with
    | none => exact .throw fun s hs => Or.inr hs.2
    | some sessions =>
      refine Triple.seq (M := Holds p) (.modify fun s hs => ?_) ?_
      · obtain ⟨rfl, hholds⟩ := hs
        refine ⟨fun t ht => ?_, hholds.reservations⟩
        rw [(Table.insert?_eq_some.mp hinsert).2, List.mem_append, List.mem_singleton] at ht
        rcases ht with ht | rfl
        · exact hholds.sessions t ht
        · exact hnew sessionId
      · refine Triple.bind ((removeReservation_ends reservation holds_withReservations).error
          fun e s he => Or.inl he) fun removed => ?_
        refine Triple.seq (M := Holds p)
          (.require (fun s hs _ => hs) fun _ _ _ => Or.inl rfl) ?_
        exact .modify fun s hs => ⟨hs.sessions, hs.reservations⟩

theorem removeSearchSession_ends (sessionId : Bytes) :
    Triple (Holds p) (removeSearchSession sessionId) (fun _ => Holds p)
      fun e _ => e = .terminated := by
  rw [removeSearchSession]
  refine Triple.bind (M := fun _ => Holds p) (.get fun s hs => hs) fun a => ?_
  cases a.sessions.find? sessionId with
  | none => exact .pure fun s hs => hs
  | some session => exact removeSession_ends removable_holds session

/-- A slice comes from a session of the identity and the criteria of the request. -/
structure SliceOf (p : Session → Prop) (query : SearchQuery) (criteria : Criteria)
    (identity : CatalogIdentity) (slice : ContinuationSlice) (cursor : SearchCursor)
    (session : Session) : Prop where
  asked : query.cursor = some cursor
  valid : cursor.isValid = true
  current : cursor.sourceFingerprint = identity.sourceFingerprint ∧
    cursor.catalogSnapshotId = identity.snapshotId
  property : p session
  named : session.sessionId = cursor.sessionId
  session_current : session.sourceFingerprint = identity.sourceFingerprint ∧
    session.catalogSnapshotId = identity.snapshotId
  session_criteria : session.criteria = criteria
  position : session.firstContinuationPosition ≤ cursor.position ∧
    cursor.position < session.bookIds.length
  slice_eq : slice = sliceOf session cursor query.limit

theorem readSlice_ends (hp : ∀ s now, p s → p { s with lastAccess := now }) (now : Int)
    (query : SearchQuery) (criteria : Criteria) (identity : CatalogIdentity) :
    Triple (Holds p) (readSearchSessionSlice now query criteria identity)
      (fun slice s => (∃ cursor session, SliceOf p query criteria identity slice cursor session) ∧
        Holds p s)
      (Ends (Holds p)) := by
  rw [readSearchSessionSlice]
  cases hcursor : query.cursor with
  | none => exact .throw fun s hs => Or.inr hs
  | some cursor =>
    refine Triple.seq (M := fun s => cursor.isValid = true ∧ Holds p s)
      (.require (fun s hs h => ⟨h, hs⟩) fun s hs _ => Or.inr hs) (Triple.of_pure fun hvalid => ?_)
    refine Triple.seq (M := fun s => (cursor.sourceFingerprint = identity.sourceFingerprint ∧
        cursor.catalogSnapshotId = identity.snapshotId) ∧ Holds p s)
      (.require (fun s hs h => ⟨h, hs⟩) fun s hs _ => Or.inr hs) (Triple.of_pure fun hid => ?_)
    rw [readSliceLocked]
    refine Triple.seq ((purge_ends removable_holds now).error fun e s he => Or.inl he) ?_
    refine Triple.bind (M := fun a s => a = s ∧ Holds p s) (.get fun s hs => ⟨rfl, hs⟩) fun a => ?_
    cases hfind : a.sessions.find? cursor.sessionId with
    | none => exact .throw fun s hs => Or.inr hs.2
    | some session =>
      apply Triple.ite
      · intro _
        refine Triple.seq (M := Holds p) ?_ (.throw fun s hs => Or.inr hs)
        exact ((removeSession_ends removable_holds session).pre fun s hs => hs.2).error
          fun e s he => Or.inl he
      · intro hsame
        rw [not_or, not_not, not_not] at hsame
        refine Triple.seq (M := fun s => (session.criteria = criteria ∧
            session.firstContinuationPosition ≤ cursor.position ∧
            cursor.position < session.bookIds.length) ∧ p session ∧ Holds p s)
          (.require (fun s hs h => ⟨h, ?_, hs.2⟩) fun s hs _ => Or.inr hs.2)
          (Triple.of_pure fun hposition => ?_)
        · exact hs.2.sessions session (hs.1 ▸ (Table.find?_eq_some.mp hfind).1)
        refine Triple.seq (M := fun s => p session ∧ Holds p s) (.modify fun s hs => ?_) ?_
        · obtain ⟨hsession, hholds⟩ := hs
          refine ⟨hsession, fun t ht => ?_, hholds.reservations⟩
          rw [Table.rows_update, List.mem_map] at ht
          obtain ⟨t₀, ht₀, rfl⟩ := ht
          split
          · exact hp t₀ now (hholds.sessions t₀ ht₀)
          · exact hholds.sessions t₀ ht₀
        · refine .pure fun s hs => ⟨⟨cursor, session, ?_⟩, hs.2⟩
          exact ⟨hcursor, hvalid, hid, hs.1, (Table.find?_eq_some.mp hfind).2, hsame, hposition.1,
            hposition.2, rfl⟩

end Contents

end InpxWebReader.Query
