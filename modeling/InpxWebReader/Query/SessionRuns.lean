import InpxWebReader.Query.SessionStore
import Mathlib.Algebra.Order.BigOperators.Group.List

/-!
# What the parts of a call do to the store

Where the counter of used ids says what the sessions hold (`Counted`), the parts of a call under
the lock never take the branches that end the process, and each of them leaves the store with
fewer sessions and with the counter that belongs to them: `SessionStore.withSessions`.

* `purgeSessionsLocked_eq`: exactly the expired sessions go.
* `activate_eq`: another generation starts with an empty store.
* `makeRoom_cases`: there is room for one more session and its ids, or the call throws.
-/

namespace InpxWebReader.Query

open Foundation Domain Program

/-! ### Counting ids -/

/-- The ids that the sessions hold together. -/
def totalIds (sessions : Table Session.sessionId Session.sessionId) : Nat :=
  (sessions.rows.map fun s => s.bookIds.length).sum

/-- The ids that are reserved together. -/
def totalReserved (reservations : Table Reservation.id Reservation.id) : Nat :=
  (reservations.rows.map Reservation.idCount).sum

/-- The store with other sessions, and the counter that belongs to them. -/
def SessionStore.withSessions (state : SessionStore)
    (sessions : Table Session.sessionId Session.sessionId) : SessionStore :=
  { state with sessions := sessions, usedIdCount := totalIds sessions }

/-- The counter of used ids says what the sessions hold. -/
def SessionStore.Counted (state : SessionStore) : Prop :=
  state.usedIdCount = totalIds state.sessions

@[simp] theorem totalIds_empty : totalIds .empty = 0 := rfl

@[simp] theorem totalReserved_empty : totalReserved .empty = 0 := rfl

theorem totalIds_eq_total (sessions : Table Session.sessionId Session.sessionId) :
    (totalIds sessions : Int) = sessions.total fun s => s.bookIds.length := by
  rw [totalIds, Table.total]
  induction sessions.rows with
  | nil => rfl
  | cons s rest ih =>
    simp only [List.map_cons, List.sum_cons]
    rw [Nat.cast_add, ih]

theorem totalReserved_eq_total (reservations : Table Reservation.id Reservation.id) :
    (totalReserved reservations : Int) = reservations.total fun r => r.idCount := by
  rw [totalReserved, Table.total]
  induction reservations.rows with
  | nil => rfl
  | cons r rest ih =>
    simp only [List.map_cons, List.sum_cons]
    rw [Nat.cast_add, ih]

theorem length_le_totalIds {sessions : Table Session.sessionId Session.sessionId} {s : Session}
    (h : s ∈ sessions.rows) : s.bookIds.length ≤ totalIds sessions := by
  apply List.single_le_sum (fun n _ => Nat.zero_le n)
  exact List.mem_map.mpr ⟨s, h, rfl⟩

theorem idCount_le_totalReserved {reservations : Table Reservation.id Reservation.id}
    {r : Reservation} (h : r ∈ reservations.rows) : r.idCount ≤ totalReserved reservations := by
  apply List.single_le_sum (fun n _ => Nat.zero_le n)
  exact List.mem_map_of_mem h

/-- Removing a session takes its ids out of the total. -/
theorem totalIds_delete {sessions : Table Session.sessionId Session.sessionId} {s : Session}
    (h : s ∈ sessions.rows) :
    totalIds (sessions.delete fun s' => s'.sessionId = s.sessionId) =
      totalIds sessions - s.bookIds.length := by
  have hle := length_le_totalIds h
  have hdel : (sessions.delete fun s' => s'.sessionId = s.sessionId).total
      (fun s => (s.bookIds.length : Int)) =
        (sessions.total fun s => (s.bookIds.length : Int)) - s.bookIds.length := by
    apply Table.total_delete_one h (by simp)
    intro s' hs' hid
    exact Table.key_inj hs' h (of_decide_eq_true hid)
  rw [← totalIds_eq_total, ← totalIds_eq_total] at hdel
  omega

theorem totalReserved_delete {reservations : Table Reservation.id Reservation.id}
    {r : Reservation} (h : r ∈ reservations.rows) :
    totalReserved (reservations.delete fun r' => r'.id = r.id) =
      totalReserved reservations - r.idCount := by
  have hle := idCount_le_totalReserved h
  have hdel : (reservations.delete fun r' => r'.id = r.id).total
      (fun r => (r.idCount : Int)) =
        (reservations.total fun r => (r.idCount : Int)) - r.idCount := by
    apply Table.total_delete_one h (by simp)
    intro r' hr' hid
    exact Table.key_inj hr' h (of_decide_eq_true hid)
  rw [← totalReserved_eq_total, ← totalReserved_eq_total] at hdel
  omega

theorem totalIds_insert {sessions sessions' : Table Session.sessionId Session.sessionId}
    {s : Session} (h : sessions.insert? s = some sessions') :
    totalIds sessions' = totalIds sessions + s.bookIds.length := by
  have ht := Table.total_insert? h fun s => (s.bookIds.length : Int)
  rw [← totalIds_eq_total, ← totalIds_eq_total] at ht
  omega

theorem totalReserved_insert {reservations reservations' : Table Reservation.id Reservation.id}
    {r : Reservation} (h : reservations.insert? r = some reservations') :
    totalReserved reservations' = totalReserved reservations + r.idCount := by
  have ht := Table.total_insert? h fun r => (r.idCount : Int)
  rw [← totalReserved_eq_total, ← totalReserved_eq_total] at ht
  omega

theorem totalIds_le_of_sublist {sessions sessions' : Table Session.sessionId Session.sessionId}
    (h : sessions'.rows.Sublist sessions.rows) : totalIds sessions' ≤ totalIds sessions := by
  have hmap := h.map fun s : Session => s.bookIds.length
  exact hmap.sum_le_sum fun _ _ => Nat.zero_le _

section Runs

variable {state : SessionStore}

theorem SessionStore.Counted.withSessions (state : SessionStore)
    (sessions : Table Session.sessionId Session.sessionId) :
    (state.withSessions sessions).Counted := rfl

@[simp] theorem SessionStore.withSessions_withSessions
    (t u : Table Session.sessionId Session.sessionId) :
    (state.withSessions t).withSessions u = state.withSessions u := rfl

@[simp] theorem SessionStore.sessions_withSessions
    (t : Table Session.sessionId Session.sessionId) : (state.withSessions t).sessions = t := rfl

theorem SessionStore.Counted.withSessions_self (h : state.Counted) :
    state.withSessions state.sessions = state := by
  obtain ⟨_, _, _, _, _, _, _, _⟩ := state
  simp only [SessionStore.Counted] at h
  subst h
  rfl

/-! ### Removing sessions -/

theorem removeSessionLocked_eq (hs : state.Counted) {session : Session}
    (h : session ∈ state.sessions.rows) :
    removeSessionLocked session state =
      .ok () (state.withSessions
        (state.sessions.delete fun s => s.sessionId = session.sessionId)) := by
  have hle : session.bookIds.length ≤ state.usedIdCount := hs ▸ length_le_totalIds h
  have hrun : removeSessionLocked session state = .ok () { state with
      usedIdCount := state.usedIdCount - session.bookIds.length
      sessions := state.sessions.delete fun s => s.sessionId = session.sessionId } := by
    rw [removeSessionLocked]
    rw [bind_ok (show (get : StoreM _) state = .ok state state from rfl),
      bind_ok (require_ok hle state)]
    rfl
  rw [hrun]
  rw [SessionStore.withSessions]
  rw [totalIds_delete h, hs]

/-- A loop over sessions that removes those that satisfy `p`. -/
theorem forM_remove_eq (p : Session → Prop) [DecidablePred p] (hs : state.Counted) :
    (state.sessions.rows.forM fun session =>
      if p session then removeSessionLocked session else pure ()) state =
        .ok () (state.withSessions (state.sessions.delete fun s => p s)) := by
  -- the sessions of `done` were looked at; those of `rest` are all still there
  suffices h : ∀ rest done, state.sessions.rows = done ++ rest →
      (rest.forM fun session => if p session then removeSessionLocked session else pure ())
        (state.withSessions (state.sessions.delete fun s => p s ∧ s ∈ done)) =
          .ok () (state.withSessions (state.sessions.delete fun s => p s)) by
    have hstart : state.sessions.delete (fun s => p s ∧ s ∈ ([] : List Session)) =
        state.sessions := by
      apply Table.ext
      simp
    have h₀ := h state.sessions.rows [] rfl
    rw [hstart, hs.withSessions_self] at h₀
    exact h₀
  intro rest
  induction rest with
  | nil =>
    intro done hd
    rw [List.append_nil] at hd
    have hend : state.sessions.delete (fun s => p s ∧ s ∈ done) =
        state.sessions.delete fun s => p s := by
      apply Table.ext
      simp only [Table.rows_delete]
      apply List.filter_congr
      intro s hm
      simp [← hd, hm]
    rw [hend]
    rfl
  | cons session rest ih =>
    intro done hd
    have hmem : session ∈ state.sessions.rows := by
      rw [hd]
      simp
    have hnot : session ∉ done := by
      have hn := state.sessions.rows_nodup
      rw [hd] at hn
      intro hdone
      exact (List.nodup_append.mp hn).2.2 session hdone session (by simp) rfl
    have hnext := ih (done ++ [session]) (by rw [hd]; simp)
    show ((if p session then removeSessionLocked session else pure ()) >>= fun _ =>
      rest.forM _) _ = _
    by_cases hp : p session
    · have hin : session ∈
          (state.withSessions (state.sessions.delete fun s => p s ∧ s ∈ done)).sessions.rows :=
        Table.mem_delete.mpr ⟨hmem, by simp [hnot]⟩
      rw [if_pos hp, bind_ok (removeSessionLocked_eq (.withSessions ..) hin)]
      have hsame : (state.sessions.delete fun s => p s ∧ s ∈ done).delete
          (fun s => s.sessionId = session.sessionId) =
            state.sessions.delete fun s => p s ∧ s ∈ done ++ [session] := by
        apply Table.ext
        simp only [Table.rows_delete, List.filter_filter]
        apply List.filter_congr
        intro s hm
        have hid : s.sessionId = session.sessionId ↔ s = session :=
          ⟨fun h => Table.key_inj hm hmem h, fun h => h ▸ rfl⟩
        by_cases he : s = session
        · simp [he, hp]
        · simp [hid, he]
      rw [SessionStore.sessions_withSessions, hsame, SessionStore.withSessions_withSessions]
      exact hnext
    · rw [if_neg hp, bind_ok (show (pure () : StoreM Unit) _ = .ok () _ from rfl)]
      have hsame : state.sessions.delete (fun s => p s ∧ s ∈ done ++ [session]) =
          state.sessions.delete fun s => p s ∧ s ∈ done := by
        apply Table.ext
        simp only [Table.rows_delete]
        apply List.filter_congr
        intro s _
        by_cases he : s = session
        · simp [he, hp]
        · simp [he]
      rw [← hsame]
      exact hnext

def Session.Expired (now : Int) (session : Session) : Prop :=
  searchSessionTtl ≤ now - session.lastAccess

instance (now : Int) : DecidablePred (Session.Expired now) := fun session =>
  inferInstanceAs (Decidable (searchSessionTtl ≤ now - session.lastAccess))

/-- The store after the expired sessions were removed. -/
def SessionStore.purged (state : SessionStore) (now : Int) : SessionStore :=
  state.withSessions (state.sessions.delete fun s => s.Expired now)

theorem purgeSessionsLocked_eq (hs : state.Counted) (now : Int) :
    purgeSessionsLocked now state = .ok () (state.purged now) :=
  forM_remove_eq (Session.Expired now) hs

theorem removeAllSessionsLocked_eq (hs : state.Counted) :
    removeAllSessionsLocked state = .ok () (state.withSessions .empty) := by
  have h := forM_remove_eq (fun _ => True) hs
  have he : state.sessions.delete (fun _ => True) = .empty := by
    apply Table.ext
    simp
  simp only [if_true] at h
  rw [he] at h
  exact h

def SessionStore.activated (state : SessionStore) (generationKey : Bytes) : SessionStore :=
  if state.currentGenerationKey = generationKey then state
  else { state with
    currentGenerationKey := generationKey
    sessions := .empty
    reservations := .empty
    usedIdCount := 0
    reservedIdCount := 0 }

theorem activate_eq (hs : state.Counted) (generationKey : Bytes) :
    activateSearchSessionGenerationLocked generationKey state =
      .ok () (state.activated generationKey) := by
  rw [activateSearchSessionGenerationLocked, SessionStore.activated]
  rw [bind_ok (show (get : StoreM _) state = .ok state state from rfl)]
  split
  · rfl
  · have hkey : ({ state with currentGenerationKey := generationKey } : SessionStore).Counted := hs
    rw [bind_ok (show (modify _ : StoreM _) state =
        .ok () { state with currentGenerationKey := generationKey } from rfl),
      bind_ok (removeAllSessionsLocked_eq hkey)]
    rfl

/-! ### Finding room -/

/-- The least recently used session goes, when there is one. -/
theorem evict_eq (hs : state.Counted) (hne : state.sessions.rows ≠ []) :
    ∃ session ∈ state.sessions.rows, evictLeastRecentlyUsedLocked state =
      .ok () (state.withSessions
        (state.sessions.delete fun s => s.sessionId = session.sessionId)) := by
  have hsome : Sorting.minElement Session.lastAccess state.sessions.rows ≠ none :=
    fun h => hne (Sorting.minElement_eq_none.mp h)
  obtain ⟨session, hsession⟩ := Option.ne_none_iff_exists'.mp hsome
  have hmem := Sorting.mem_of_minElement hsession
  refine ⟨session, hmem, ?_⟩
  rw [evictLeastRecentlyUsedLocked]
  rw [bind_ok (show (get : StoreM _) state = .ok state state from rfl)]
  simp only [hsession]
  exact removeSessionLocked_eq hs hmem

theorem addSize_eq {left right : Nat} (h : left + right < sizeLimit) :
    addSize left right state = .ok (left + right) state := by
  rw [addSize]
  rw [bind_ok (require_ok h state)]
  rfl

theorem addSize_throws {left right : Nat} (h : ¬left + right < sizeLimit) :
    addSize left right state = .error capacityExhausted state := by
  rw [addSize]
  rw [bind_error (require_error h state)]

theorem requiredIdCount_eq {others n : Nat}
    (h : state.usedIdCount + others + n < sizeLimit) :
    requiredIdCount others n state = .ok (state.usedIdCount + others + n) state := by
  rw [requiredIdCount]
  rw [bind_ok (show (get : StoreM _) state = .ok state state from rfl),
    bind_ok (addSize_eq (by omega))]
  exact addSize_eq h

theorem requiredIdCount_throws {others n : Nat}
    (h : ¬state.usedIdCount + others + n < sizeLimit) :
    requiredIdCount others n state = .error capacityExhausted state := by
  rw [requiredIdCount]
  rw [bind_ok (show (get : StoreM _) state = .ok state state from rfl)]
  by_cases ho : state.usedIdCount + others < sizeLimit
  · rw [bind_ok (addSize_eq ho)]
    exact addSize_throws h
  · rw [bind_error (addSize_throws ho)]

/-- The loop stops when nothing is left or there is room. -/
theorem evictWhileFull_eq {others n : Nat} :
    ∀ (fuel : Nat) (state : SessionStore), state.Counted →
      state.sessions.rows.length ≤ fuel → state.usedIdCount + others + n < sizeLimit →
      ∃ t, t.rows.Sublist state.sessions.rows ∧
        evictWhileFull others n fuel (state.usedIdCount + others + n) state =
          .ok (totalIds t + others + n) (state.withSessions t) ∧
        (t.rows = [] ∨ t.rows.length < maxSearchSessions ∧
          totalIds t + others + n ≤ state.aggregateIdCapacity) := by
  intro fuel
  induction fuel with
  | zero =>
    intro state hs hlen _
    have hnil : state.sessions.rows = [] := List.eq_nil_of_length_eq_zero (by omega)
    refine ⟨state.sessions, List.Sublist.refl _, ?_, Or.inl hnil⟩
    rw [hs.withSessions_self, ← hs]
    rfl
  | succ fuel ih =>
    intro state hs hlen hfit
    by_cases hbusy : state.sessions.rows ≠ [] ∧
        (maxSearchSessions ≤ state.sessions.rows.length ∨
          state.aggregateIdCapacity < state.usedIdCount + others + n)
    · obtain ⟨session, hmem, hevict⟩ := evict_eq hs hbusy.1
      set left := state.sessions.delete fun s => s.sessionId = session.sessionId with hleft
      have hsub : left.rows.Sublist state.sessions.rows := List.filter_sublist
      have hshorter : left.rows.length < state.sessions.rows.length := by
        rw [hleft, Table.rows_delete]
        apply List.length_filter_lt_length_iff_exists.mpr
        exact ⟨session, hmem, by simp⟩
      have hids : totalIds left ≤ state.usedIdCount := by
        rw [hs]
        exact totalIds_le_of_sublist hsub
      have hfit' : (state.withSessions left).usedIdCount + others + n < sizeLimit := by
        show totalIds left + others + n < sizeLimit
        omega
      obtain ⟨t, ht, hrun, hroom⟩ := ih (state.withSessions left) (.withSessions ..)
        (by show left.rows.length ≤ fuel; omega) hfit'
      refine ⟨t, ht.trans hsub, ?_, hroom⟩
      rw [evictWhileFull, bind_ok (show (get : StoreM _) state = .ok state state from rfl),
        if_pos hbusy, bind_ok hevict, bind_ok (requiredIdCount_eq hfit')]
      exact hrun
    · refine ⟨state.sessions, List.Sublist.refl _, ?_, ?_⟩
      · rw [evictWhileFull, bind_ok (show (get : StoreM _) state = .ok state state from rfl),
          if_neg hbusy, hs.withSessions_self, ← hs]
        rfl
      · rw [← hs]
        by_cases hnil : state.sessions.rows = []
        · exact Or.inl hnil
        · rw [not_and_or, not_not, not_or] at hbusy
          rcases hbusy with h | h
          · exact absurd h hnil
          · exact Or.inr ⟨by omega, by omega⟩

/-- Either there is room for one more session with `n` ids, or the call throws; sessions may have
been evicted in both cases. -/
theorem makeRoom_cases (hs : state.Counted) (others n : Nat) :
    ∃ t, t.rows.Sublist state.sessions.rows ∧
      ((makeRoom others n state = .ok () (state.withSessions t) ∧
          t.rows.length < maxSearchSessions ∧
          totalIds t + others + n ≤ state.aggregateIdCapacity) ∨
        makeRoom others n state = .error capacityExhausted (state.withSessions t)) := by
  rw [makeRoom]
  by_cases hfit : state.usedIdCount + others + n < sizeLimit
  · obtain ⟨t, ht, hrun, hroom⟩ := evictWhileFull_eq _ state hs (le_refl _) hfit
    refine ⟨t, ht, ?_⟩
    rw [bind_ok (requiredIdCount_eq hfit),
      bind_ok (show (get : StoreM _) state = .ok state state from rfl), bind_ok hrun,
      bind_ok (show (get : StoreM _) (state.withSessions t) = .ok _ _ from rfl)]
    by_cases hle : totalIds t + others + n ≤ state.aggregateIdCapacity
    · left
      refine ⟨require_ok hle _, ?_, hle⟩
      rcases hroom with h | h
      · rw [h]
        decide
      · exact h.1
    · right
      exact require_error hle _
  · refine ⟨state.sessions, List.Sublist.refl _, Or.inr ?_⟩
    rw [bind_error (requiredIdCount_throws hfit), hs.withSessions_self]

/-- There is room where the ids fit beside the sessions that are there. -/
theorem makeRoom_eq (hs : state.Counted) {others n : Nat}
    (hcap : state.aggregateIdCapacity < sizeLimit)
    (hfit : state.usedIdCount + others + n ≤ state.aggregateIdCapacity) :
    ∃ t, t.rows.Sublist state.sessions.rows ∧
      makeRoom others n state = .ok () (state.withSessions t) ∧
      t.rows.length < maxSearchSessions := by
  have hlimit : state.usedIdCount + others + n < sizeLimit := by omega
  obtain ⟨t, ht, hrun, hroom⟩ := evictWhileFull_eq _ state hs (le_refl _) hlimit
  have hle : totalIds t + others + n ≤ state.aggregateIdCapacity := by
    have := totalIds_le_of_sublist ht
    rw [← hs] at this
    omega
  refine ⟨t, ht, ?_, ?_⟩
  · rw [makeRoom]
    rw [bind_ok (requiredIdCount_eq hlimit),
      bind_ok (show (get : StoreM _) state = .ok state state from rfl), bind_ok hrun,
      bind_ok (show (get : StoreM _) (state.withSessions t) = .ok _ _ from rfl)]
    exact require_ok hle _
  · rcases hroom with h | h
    · rw [h]
      decide
    · exact h.1

end Runs

end InpxWebReader.Query
