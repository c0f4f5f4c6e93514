import InpxWebReader.Query.LiveSessions
import InpxWebReader.Query.SessionAccounting

/-!
# Refused reservations

A reservation that is refused for want of room should cost nobody a session. The loop that evicts
sessions does not ask whether evicting all of them would be enough: where the ids that are reserved
already leave no room (`InVain`), it removes every session and the reservation is refused none the
less. `costsNobody_iff` says that this is the only way to lose a session.
-/

namespace InpxWebReader.Query

open Foundation Domain Program

/-! ### The law -/

/-- The sessions that have not expired. -/
def SessionStore.liveSessions (state : SessionStore) (now : Int) : List Session :=
  state.sessions.rows.filter fun s => ¬s.Expired now

/-- Nothing is gone from the store but the sessions that have expired. -/
structure Unharmed (state : SessionStore) (now : Int) (state' : SessionStore) : Prop where
  sessions : state'.sessions.rows = state.liveSessions now
  used : state'.usedIdCount = ((state.liveSessions now).map fun s => s.bookIds.length).sum
  reserved : state'.reservedIdCount = state.reservedIdCount
  reservations : state'.reservations.rows = state.reservations.rows

/-- A reservation of the current generation that is refused for want of room harms nobody. -/
def CostsNobody (state : SessionStore) (current : Except Failure CatalogIdentity) (now : Int)
    (identity : CatalogIdentity) (idCount : Nat) : Prop :=
  state.currentGenerationKey = buildCatalogGenerationKey identity →
    ∀ message state', reserveSearchSessionIds current now identity idCount state =
      .error (.domain .catalogCursorCapacityExceeded message) state' → Unharmed state now state'

/-- Sessions are evicted for ids that do not fit beside the reservations in any case. -/
structure InVain (state : SessionStore) (current : Except Failure CatalogIdentity) (now : Int)
    (identity : CatalogIdentity) (idCount : Nat) : Prop where
  current : current = .ok identity
  generation : state.currentGenerationKey = buildCatalogGenerationKey identity
  perSession : idCount ≤ state.perSessionIdCapacity
  summable : ((state.liveSessions now).map fun s => s.bookIds.length).sum +
    state.reservedIdCount + idCount < sizeLimit
  tooMany : state.aggregateIdCapacity < state.reservedIdCount + idCount
  live : state.liveSessions now ≠ []

/-! ### What the call does -/

section Refusal

variable {state : SessionStore}

theorem rows_purged (state : SessionStore) (now : Int) :
    (state.purged now).sessions.rows = state.liveSessions now := by
  change (state.sessions.delete fun s => s.Expired now).rows = _
  rw [Table.rows_delete, SessionStore.liveSessions]
  exact List.filter_congr fun s _ => by simp

theorem usedIdCount_purged (state : SessionStore) (now : Int) :
    (state.purged now).usedIdCount =
      ((state.liveSessions now).map fun s => s.bookIds.length).sum := by
  rw [← rows_purged]
  rfl

theorem unharmed_purged (state : SessionStore) (now : Int) :
    Unharmed state now (state.purged now) :=
  ⟨rows_purged state now, usedIdCount_purged state now, rfl, rfl⟩

/-- What a call finds behind the purge. -/
structure Purged (state state' : SessionStore) : Prop where
  counted : state'.Counted
  key : state'.currentGenerationKey = state.currentGenerationKey
  perSession : state'.perSessionIdCapacity = state.perSessionIdCapacity
  capacity : state'.aggregateIdCapacity = state.aggregateIdCapacity
  reserved : state'.reservedIdCount = state.reservedIdCount

theorem purged_same (state : SessionStore) (now : Int) : Purged state (state.purged now) :=
  ⟨rfl, rfl, rfl, rfl, rfl⟩

theorem activate_same (hs : state.Counted) {generationKey : Bytes}
    (hkey : state.currentGenerationKey = generationKey) :
    activateSearchSessionGenerationLocked generationKey state = .ok () state := by
  rw [activate_eq hs, SessionStore.activated, if_pos hkey]

/-- Where the ids fit beside the reservations, room is found. -/
theorem makeRoom_fits (hs : state.Counted) {others n : Nat}
    (hsum : state.usedIdCount + others + n < sizeLimit)
    (hfit : others + n ≤ state.aggregateIdCapacity) :
    ∃ t, makeRoom others n state = .ok () (state.withSessions t) := by
  obtain ⟨t, _, hrun, hroom⟩ := evictWhileFull_eq _ state hs (le_refl _) hsum
  have hle : totalIds t + others + n ≤ state.aggregateIdCapacity := by
    rcases hroom with hnil | hroom
    · have hzero : totalIds t = 0 := by
        rw [totalIds, hnil]
        rfl
      omega
    · exact hroom.2
  refine ⟨t, ?_⟩
  rw [makeRoom, bind_ok (requiredIdCount_eq hsum),
    bind_ok (show (get : StoreM _) state = .ok state state from rfl), bind_ok hrun,
    bind_ok (show (get : StoreM _) (state.withSessions t) = .ok _ _ from rfl)]
  exact require_ok hle _

/-- Where they do not, every session goes, and the call is refused. -/
theorem makeRoom_inVain (hs : state.Counted) {others n : Nat}
    (hsum : state.usedIdCount + others + n < sizeLimit)
    (htoo : state.aggregateIdCapacity < others + n) :
    makeRoom others n state = .error capacityExhausted (state.withSessions .empty) := by
  obtain ⟨t, _, hrun, hroom⟩ := evictWhileFull_eq _ state hs (le_refl _) hsum
  have hnil : t.rows = [] := by
    rcases hroom with hnil | ⟨_, hle⟩
    · exact hnil
    · omega
  obtain rfl : t = .empty := Table.ext hnil
  rw [makeRoom, bind_ok (requiredIdCount_eq hsum),
    bind_ok (show (get : StoreM _) state = .ok state state from rfl), bind_ok hrun,
    bind_ok (show (get : StoreM _) (state.withSessions .empty) = .ok _ _ from rfl)]
  refine require_error (fun hle => ?_) _
  have hcap : others + n ≤ state.aggregateIdCapacity := le_trans (by omega) hle
  omega

theorem not_isCapacity_failed (failure : Failure) : ¬(QueryError.failed failure).IsCapacity :=
  (isOutside_failed failure).2

/-- Handing out the reservation is not refused for want of room. -/
theorem grant_spec {E : QueryError → SessionStore → Prop}
    (hE : ∀ e s, ¬e.IsCapacity → E e s) {s₀ : SessionStore} {idCount : Nat}
    (hlimit : s₀.reservedIdCount + idCount < sizeLimit) (generationKey : Bytes) :
    Triple (fun s => s = s₀) (do
      let updatedReservedIdCount ← addSize (← get).reservedIdCount idCount
      let id ← nextReservationIdLocked
      let reservation : Reservation := ⟨id, generationKey, idCount⟩
      let state ← get
      match state.reservations.insert? reservation with
      | none => throw (.failed (runtimeError "Catalog cursor reservation id collision."))
      | some reservations =>
        set { state with reservations := reservations, reservedIdCount := updatedReservedIdCount }
        return reservation) (fun _ _ => True) E := by
  refine Triple.bind (M := fun a s => a = s₀ ∧ s = s₀) (.get fun s hs => ⟨hs, hs⟩) fun a =>
    Triple.of_pure fun ha => ?_
  subst ha
  refine Triple.bind (M := fun _ _ => True)
    (.of_ok fun s hs => ⟨_, s, addSize_eq hlimit, trivial⟩) fun updated => ?_
  refine Triple.bind (M := fun _ _ => True) ?_ fun id => ?_
  · rw [nextReservationIdLocked]
    refine Triple.bind (M := fun _ _ => True) (.get fun s hs => trivial) fun b => ?_
    refine Triple.seq (M := fun _ => True) (.require (fun s hs _ => trivial)
      fun s _ _ => hE _ s (not_isCapacity_failed _)) ?_
    exact Triple.seq (M := fun _ => True) (.modify fun s hs => trivial) (.pure fun s hs => trivial)
  · refine Triple.bind (M := fun _ _ => True) (.get fun s hs => trivial) fun c => ?_
    cases c.reservations.insert? ⟨id, generationKey, idCount⟩ with
    | none => exact .throw fun s _ => hE _ s (not_isCapacity_failed _)
    | some reservations =>
      exact Triple.seq (M := fun _ => True) (.modify fun s hs => trivial)
        (.pure fun s hs => trivial)

theorem validate_current {current : Except Failure CatalogIdentity} {identity : CatalogIdentity}
    {E : QueryError → SessionStore → Prop} (hE : ∀ e s, ¬e.IsCapacity → E e s)
    {s₀ : SessionStore} :
    Triple (fun s => s = s₀) (validateCurrentCatalogIdentity current identity)
      (fun _ s => current = .ok identity ∧ s = s₀) E := by
  rw [validateCurrentCatalogIdentity]
  cases current with
  | error failure =>
    refine Triple.bind (M := fun _ _ => False) ?_ fun _ s hs => hs.elim
    exact .throw fun s _ => hE _ s (not_isCapacity_failed _)
  | ok answer =>
    refine Triple.bind (M := fun a s => a = answer ∧ s = s₀) (.pure fun s hs => ⟨rfl, hs⟩)
      fun a => Triple.of_pure fun ha => ?_
    subst ha
    exact .require (fun s hs heq => ⟨congrArg _ heq, hs⟩)
      fun s _ _ => hE _ s isOutside_snapshotChanged.2

/-- A reservation of the current generation that is refused for want of room leaves the store
unharmed unless sessions were evicted in vain. -/
theorem reserve_refused (hs : state.Counted) (current : Except Failure CatalogIdentity)
    (now : Int) {identity : CatalogIdentity} (idCount : Nat)
    (hkey : state.currentGenerationKey = buildCatalogGenerationKey identity)
    (hvain : ¬InVain state current now identity idCount) :
    Triple (fun s => s = state) (reserveSearchSessionIds current now identity idCount)
      (fun _ _ => True) (fun e s => e.IsCapacity → Unharmed state now s) := by
  have hE : ∀ (e : QueryError) (s : SessionStore), ¬e.IsCapacity →
      (e.IsCapacity → Unharmed state now s) := fun e s hnot h => absurd h hnot
  obtain ⟨s₁, hs₁⟩ : ∃ s, state.purged now = s := ⟨_, rfl⟩
  have hpurged := unharmed_purged state now
  have hsame := purged_same state now
  have hpurge := purgeSessionsLocked_eq hs now
  rw [hs₁] at hpurged hsame hpurge
  have hactivate := activate_same hsame.counted (hsame.key.trans hkey)
  rw [reserveSearchSessionIds]
  refine Triple.seq (validate_current hE) (Triple.of_pure fun hcurrent => ?_)
  refine Triple.seq (M := fun s => s = s₁) (.of_ok fun s h => ⟨(), s₁, h ▸ hpurge, rfl⟩) ?_
  refine Triple.seq (M := fun s => s = s₁) (.of_ok fun s h => ⟨(), s₁, h ▸ hactivate, rfl⟩) ?_
  refine Triple.bind (M := fun a s => a = s₁ ∧ s = s₁) (.get fun s h => ⟨h, h⟩) fun a =>
    Triple.of_pure fun ha => ?_
  subst ha
  refine Triple.bind (M := fun _ s => idCount ≤ a.perSessionIdCapacity ∧ s = a)
    (.require (fun s h hle => ⟨hle, h⟩) fun s h _ _ => h ▸ hpurged)
    fun _ => Triple.of_pure fun hle => ?_
  refine Triple.bind (M := fun b s => b = a ∧ s = a) (.get fun s h => ⟨h, h⟩) fun b =>
    Triple.of_pure fun hb => ?_
  subst hb
  by_cases hsum : b.usedIdCount + b.reservedIdCount + idCount < sizeLimit
  swap
  · -- the sum does not fit its type, and nothing is evicted
    refine Triple.seq (M := fun _ => False) (.of_error fun s h => ?_) fun s h => h.elim
    rw [h]
    refine ⟨capacityExhausted, b, ?_, fun _ => hpurged⟩
    rw [makeRoom, bind_error (requiredIdCount_throws hsum)]
  by_cases hfit : b.reservedIdCount + idCount ≤ b.aggregateIdCapacity
  · obtain ⟨t, hroom⟩ := makeRoom_fits hsame.counted hsum hfit
    refine Triple.seq (M := fun s => s = b.withSessions t)
      (.of_ok fun s h => ⟨(), _, h ▸ hroom, rfl⟩) ?_
    have hlimit : b.reservedIdCount + idCount < sizeLimit := by omega
    exact @grant_spec _ hE (b.withSessions t) _ hlimit _
  · -- only where no session is left to be evicted
    have hnone : state.liveSessions now = [] := by
      by_contra hlive
      rw [hsame.reserved, hsame.capacity] at hfit
      rw [hpurged.used, hsame.reserved] at hsum
      exact hvain ⟨hcurrent, hkey, hsame.perSession ▸ hle, hsum, Nat.lt_of_not_le hfit, hlive⟩
    have hempty : b.withSessions .empty = b := by
      have hsessions : b.sessions = .empty := Table.ext (by rw [hpurged.sessions, hnone]; rfl)
      rw [← hsessions, hsame.counted.withSessions_self]
    have hroom := makeRoom_inVain hsame.counted hsum (Nat.lt_of_not_le hfit)
    rw [hempty] at hroom
    refine Triple.seq (M := fun _ => False) (.of_error fun s h => ?_) fun s h => h.elim
    rw [h]
    exact ⟨_, b, hroom, fun _ => hpurged⟩

/-- Sessions that are evicted in vain are gone, and the reservation is refused. -/
theorem reserve_inVain (hs : state.Counted) {current : Except Failure CatalogIdentity} {now : Int}
    {identity : CatalogIdentity} {idCount : Nat}
    (hvain : InVain state current now identity idCount) :
    reserveSearchSessionIds current now identity idCount state =
      .error capacityExhausted ((state.purged now).withSessions .empty) := by
  obtain ⟨s₁, hs₁⟩ : ∃ s, state.purged now = s := ⟨_, rfl⟩
  have hpurged := unharmed_purged state now
  have hsame := purged_same state now
  have hpurge := purgeSessionsLocked_eq hs now
  rw [hs₁] at hpurged hsame hpurge ⊢
  have hactivate := activate_same hsame.counted (hsame.key.trans hvain.generation)
  have hvalidate : validateCurrentCatalogIdentity current identity state = .ok () state := by
    rw [hvain.current, validateCurrentCatalogIdentity]
    exact require_ok rfl state
  have hget : (get : StoreM _) s₁ = .ok s₁ s₁ := rfl
  have hle : idCount ≤ s₁.perSessionIdCapacity := hsame.perSession ▸ hvain.perSession
  have hsum := hvain.summable
  have htoo := hvain.tooMany
  rw [← hpurged.used, ← hsame.reserved] at hsum
  rw [← hsame.reserved, ← hsame.capacity] at htoo
  rw [reserveSearchSessionIds, bind_ok hvalidate, bind_ok hpurge, bind_ok hactivate, bind_ok hget,
    bind_ok (require_ok hle _), bind_ok hget]
  exact bind_error (makeRoom_inVain hsame.counted hsum htoo)

/-- When a refused reservation costs nobody a session. -/
theorem costsNobody_iff_not_inVain (hs : state.Counted) (current : Except Failure CatalogIdentity)
    (now : Int) (identity : CatalogIdentity) (idCount : Nat) :
    CostsNobody state current now identity idCount ↔ ¬InVain state current now identity idCount := by
  constructor
  · intro h hvain
    have hsessions := (h hvain.generation _ _ (reserve_inVain hs hvain)).sessions
    exact hvain.live hsessions.symm
  · intro hvain hkey message state' herror
    exact (reserve_refused hs current now idCount hkey hvain).throws rfl herror ⟨message, rfl⟩

end Refusal

/-! ### Runs -/

theorem exact_initial {aggregateIdCapacity : Nat} (h : aggregateIdCapacity < sizeLimit) :
    Exact (SessionSystem.initial aggregateIdCapacity).store :=
  ⟨rfl, h⟩

/-- Every call keeps the counter exact, whatever its caller keeps to. -/
theorem SessionCall.exact {s : SessionSystem} {call : SessionCall} (hallowed : call.Allowed s)
    (h : Exact s.store) :
    Triple (fun t => t = s.store) call.program (fun _ => Exact) (Ends Exact) := by
  have hstart : ∀ t, t = s.store → Exact t := fun t ht => ht ▸ h
  have hends : ∀ e t, e = QueryError.terminated → Ends Exact e t := fun _ _ he => Or.inl he
  cases call with
  | reserve current now identity idCount =>
    exact Triple.bind ((reserve_exact current now identity idCount).pre hstart) fun _ =>
      .pure fun t ht => ht
  | publish current now newSessionId ids criteria identity nextPosition reservation =>
    exact Triple.bind ((publish_exact current now newSessionId ids criteria identity nextPosition
      reservation).pre hstart) fun _ => .pure fun t ht => ht
  | release reservation =>
    exact Triple.seq (((release_exact reservation).error hends).pre hstart) (.pure fun t ht => ht)
  | readSlice now query criteria identity =>
    exact Triple.bind ((readSlice_exact now query criteria identity).pre hstart) fun _ =>
      .pure fun t ht => ht
  | removeSession sessionId =>
    exact Triple.seq (((removeSearchSession_exact sessionId).error hends).pre hstart)
      (.pure fun t ht => ht)
  | rehash sessions =>
    refine Triple.seq (M := Exact) (.modify fun t ht => ?_) (.pure fun t ht => ht)
    rw [ht]
    refine ⟨?_, h.capacity⟩
    change s.store.usedIdCount = totalIds sessions
    rw [h.counted]
    exact ((hallowed.map fun r => r.bookIds.length).sum_eq).symm

theorem SessionSystem.exact_step {s s' : SessionSystem} {call : SessionCall}
    (h : Exact s.store) (hstep : s.step call = some s') : Exact s'.store := by
  obtain ⟨hallowed, ⟨r, hrun, _⟩ | ⟨e, hne, hrun, _⟩⟩ := SessionSystem.step_eq_some.mp hstep
  · exact (SessionCall.exact hallowed h).ok rfl hrun
  · exact ((SessionCall.exact hallowed h).throws rfl hrun).resolve_left hne

theorem SessionSystem.exact_of_run {aggregateIdCapacity : Nat}
    (hcap : aggregateIdCapacity < sizeLimit) {calls : List SessionCall} {s : SessionSystem}
    (hrun : Runs.run SessionSystem.step (.initial aggregateIdCapacity) calls = some s) :
    Exact s.store :=
  Runs.run_invariant (I := fun s : SessionSystem => Exact s.store)
    (fun _ _ _ hs hstep => SessionSystem.exact_step hs hstep) hrun (exact_initial hcap)

/-- Whatever calls were made: a reservation that is refused for want of room costs nobody a session
exactly if no sessions are evicted in vain. -/
theorem costsNobody_iff {aggregateIdCapacity : Nat} (hcap : aggregateIdCapacity < sizeLimit)
    {calls : List SessionCall} {s : SessionSystem}
    (hrun : Runs.run SessionSystem.step (.initial aggregateIdCapacity) calls = some s)
    (current : Except Failure CatalogIdentity) (now : Int) (identity : CatalogIdentity)
    (idCount : Nat) :
    CostsNobody s.store current now identity idCount ↔
      ¬InVain s.store current now identity idCount :=
  costsNobody_iff_not_inVain (SessionSystem.exact_of_run hcap hrun).counted current now identity
    idCount

/-- A session of three ids, and a search that has reserved twelve of the other thirteen. -/
def crowdedCalls : List SessionCall :=
  let identity : CatalogIdentity := ⟨ascii "f", ascii "s"⟩
  let first : Reservation := ⟨1, buildCatalogGenerationKey identity, 3⟩
  [.reserve (.ok identity) 0 identity 3,
    .publish (.ok identity) 1 (.ok (ascii "a")) [7, 8, 9] ⟨[], [], [], .title, .ascending⟩ identity
      2 first,
    .reserve (.ok identity) 2 identity 12]

theorem crowdedCalls_run : ∃ s : SessionSystem,
    Runs.run SessionSystem.step (.initial 16) crowdedCalls = some s ∧
      s.store.currentGenerationKey = buildCatalogGenerationKey ⟨ascii "f", ascii "s"⟩ ∧
      s.store.perSessionIdCapacity = 12 ∧ s.store.reservedIdCount = 12 ∧
      s.store.aggregateIdCapacity = 16 ∧
      (s.store.liveSessions 3).map (fun t => t.bookIds.length) = [3] := by
  obtain ⟨s, hs⟩ : ∃ s, Runs.run SessionSystem.step (.initial 16) crowdedCalls = some s :=
    Option.isSome_iff_exists.mp (by decide +kernel)
  have hstore : (Runs.run SessionSystem.step (.initial 16) crowdedCalls).map (fun s =>
      (s.store.currentGenerationKey, s.store.perSessionIdCapacity, s.store.reservedIdCount,
        s.store.aggregateIdCapacity, (s.store.liveSessions 3).map fun t => t.bookIds.length)) =
      some (buildCatalogGenerationKey ⟨ascii "f", ascii "s"⟩, 12, 12, 16, [3]) := by
    decide +kernel
  rw [hs] at hstore
  simp only [Option.map_some, Option.some_inj, Prod.mk.injEq] at hstore
  exact ⟨s, hs, hstore⟩

/-- Thirteen ids are more than a session may have: they are refused before anybody is evicted. -/
theorem crowdedCalls_costsNobody : ∃ s : SessionSystem,
    Runs.run SessionSystem.step (.initial 16) crowdedCalls = some s ∧
      CostsNobody s.store (.ok ⟨ascii "f", ascii "s"⟩) 3 ⟨ascii "f", ascii "s"⟩ 13 := by
  obtain ⟨s, hs, _, hper, _⟩ := crowdedCalls_run
  refine ⟨s, hs, (costsNobody_iff (by decide) hs _ _ _ _).mpr fun hvain => ?_⟩
  have hfew := hvain.perSession
  omega

theorem crowdedCalls_refused : ((Runs.run SessionSystem.step (.initial 16) crowdedCalls).map
    fun s => match reserveSearchSessionIds (.ok ⟨ascii "f", ascii "s"⟩) 3
        ⟨ascii "f", ascii "s"⟩ 13 s.store with
      | .error (.domain code _) _ => some code
      | _ => none) = some (some .catalogCursorCapacityExceeded) := by
  decide +kernel

/-- For twelve the session is evicted, and they are refused all the same. -/
theorem crowdedCalls_evicts : ∃ s : SessionSystem,
    Runs.run SessionSystem.step (.initial 16) crowdedCalls = some s ∧
      s.store.liveSessions 3 ≠ [] ∧
      ¬CostsNobody s.store (.ok ⟨ascii "f", ascii "s"⟩) 3 ⟨ascii "f", ascii "s"⟩ 12 := by
  obtain ⟨s, hs, hkey, hper, hreserved, hcapacity, hlive⟩ := crowdedCalls_run
  have hne : s.store.liveSessions 3 ≠ [] := fun hnil => by
    rw [hnil] at hlive
    cases hlive
  have hcounted := (SessionSystem.exact_of_run (by decide) hs).counted
  refine ⟨s, hs, hne, fun h => (costsNobody_iff_not_inVain hcounted _ _ _ _).mp h ?_⟩
  refine ⟨rfl, hkey, by omega, ?_, by omega, hne⟩
  rw [hlive, hreserved]
  decide

end InpxWebReader.Query
