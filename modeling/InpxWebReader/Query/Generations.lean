import InpxWebReader.Library.Runs
import InpxWebReader.Query.PageSpec
import InpxWebReader.Query.SessionContents

/-!
# Searches and scans side by side

`Sound` is what every run of the service keeps, whatever its requests and the commits between their
steps: each session in the store is the listing of one committed version, each request works with
the identity of the version it read, and each page that was returned is the page of that version
(`PageOf`). `generations_apart` says what follows for searches that a commit made obsolete.
-/

namespace InpxWebReader.Query

open Foundation Domain Database Program

/-! ### The invariant -/

def versionAt (versions : List Database) (version : Nat) : Database :=
  (versions[version]?).getD {}

theorem snapshot_eq (s : CatalogService) (version : Nat) :
    s.snapshot version = versionAt s.versions version := rfl

/-- The session is the listing of a search in a committed version. -/
def Listed (fts : FullText) (versions : List Database) (session : Session) : Prop :=
  ∃ version query opened, version < versions.length ∧
    openSearch fts (versionAt versions version) query = .ok opened ∧
    (session.sourceFingerprint = opened.identity.sourceFingerprint ∧
      session.catalogSnapshotId = opened.identity.snapshotId) ∧
    session.criteria = opened.criteria ∧
    session.bookIds = orderedIds fts (versionAt versions version) query opened.ftsQuery

/-- What a request carries from one step to the next belongs to the version it read. -/
def PhaseSound (fts : FullText) (db : Database) (input : PageRequest) : Phase → Prop
  | .opened => True
  | .reserving opened plan => Planned fts db input opened plan ∧ plan.pageEnd < plan.totalSize
  | .filling opened plan reservation =>
    (Planned fts db input opened plan ∧ plan.pageEnd < plan.totalSize) ∧
      reservation.generationKey = buildCatalogGenerationKey opened.identity
  | .publishing opened plan ids page reservation =>
    ((Planned fts db input opened plan ∧ plan.pageEnd < plan.totalSize) ∧
      reservation.generationKey = buildCatalogGenerationKey opened.identity) ∧
        fillPage fts db input.query opened plan = .ok (ids, page)
  | .checking opened page cursor => PageOf fts db input opened { page with nextCursor := some cursor }
  | .removing _ _ => True
  | .releasing reservation _ => ∃ opened, openSearch fts db input.query = .ok opened ∧
      reservation.generationKey = buildCatalogGenerationKey opened.identity
  | .done page => ∃ opened, PageOf fts db input opened page
  | .failed _ => True

structure Sound (fts : FullText) (s : CatalogService) : Prop where
  nonempty : s.versions ≠ []
  named : ∀ v, 0 < v → v < s.versions.length → Named (s.snapshot v)
  distinct : ∀ v w identity, v < s.versions.length → w < s.versions.length →
    readCatalogIdentity (s.snapshot v) = .ok identity →
    readCatalogIdentity (s.snapshot w) = .ok identity → v = w
  store : Holds (Listed fts s.versions) s.store
  version : ∀ r ∈ s.requests, r.version < s.versions.length
  requests : ∀ r ∈ s.requests, PhaseSound fts (s.snapshot r.version) r.input r.phase

/-! ### Versions -/

theorem versionAt_append_of_lt {versions : List Database} {version : Nat} (db : Database)
    (h : version < versions.length) :
    versionAt (versions ++ [db]) version = versionAt versions version := by
  unfold versionAt
  rw [List.getElem?_append_left h]

theorem versionAt_append_self (versions : List Database) (db : Database) :
    versionAt (versions ++ [db]) versions.length = db := by
  rw [versionAt]
  rw [List.getElem?_concat_length]
  rfl

theorem versionAt_mem {versions : List Database} {version : Nat}
    (h : version < versions.length) : versionAt versions version ∈ versions := by
  rw [versionAt]
  rw [List.getElem?_eq_getElem h]
  exact List.getElem_mem h

theorem Listed.append {fts : FullText} {versions : List Database} {session : Session}
    (h : Listed fts versions session) (db : Database) : Listed fts (versions ++ [db]) session := by
  obtain ⟨version, query, opened, hlt, hopen, hidentity, hcriteria, hids⟩ := h
  refine ⟨version, query, opened, ?_, ?_, hidentity, hcriteria, ?_⟩
  · rw [List.length_append]
    omega
  · rw [versionAt_append_of_lt db hlt]
    exact hopen
  · rw [versionAt_append_of_lt db hlt]
    exact hids

/-- What a search opens names the identity of its version. -/
theorem identity_of_openSearch {fts : FullText} {db : Database} {query : SearchQuery}
    {opened : OpenedSearch} (h : openSearch fts db query = .ok opened) :
    readCatalogIdentity db = .ok opened.identity ∧ buildFtsQuery fts query = .ok opened.ftsQuery ∧
      opened.criteria = buildSessionCriteria query opened.ftsQuery := by
  rw [openSearch] at h
  obtain ⟨identity, hidentity, h⟩ := except_bind_eq_ok h
  obtain ⟨ftsQuery, hquery, h⟩ := except_bind_eq_ok h
  injection h with h
  rw [← h]
  refine ⟨?_, hquery, rfl⟩
  cases hread : readCatalogIdentity db with
  | error f =>
    rw [hread] at hidentity
    cases hidentity
  | ok i =>
    rw [hread] at hidentity
    injection hidentity with hidentity
    rw [hidentity]

/-- Sessions of the identity and the criteria of a request keep the listing of that request. -/
theorem Sound.listing {fts : FullText} {s : CatalogService} (hs : Sound fts s) {session : Session}
    (hl : Listed fts s.versions session) {version : Nat} {query : SearchQuery}
    {opened : OpenedSearch} (hlt : version < s.versions.length)
    (hopen : openSearch fts (s.snapshot version) query = .ok opened)
    (hidentity : session.sourceFingerprint = opened.identity.sourceFingerprint ∧
      session.catalogSnapshotId = opened.identity.snapshotId)
    (hcriteria : session.criteria = opened.criteria) :
    session.bookIds = orderedIds fts (s.snapshot version) query opened.ftsQuery := by
  obtain ⟨version', query', opened', hlt', hopen', hidentity', hcriteria', hids⟩ := hl
  have hsame : opened'.identity = opened.identity := by
    rcases hi : opened.identity with ⟨fingerprint, snapshot⟩
    rcases hi' : opened'.identity with ⟨fingerprint', snapshot'⟩
    rw [hi] at hidentity
    rw [hi'] at hidentity'
    rw [CatalogIdentity.mk.injEq]
    exact ⟨hidentity'.1.symm.trans hidentity.1, hidentity'.2.symm.trans hidentity.2⟩
  have hversion : version' = version := by
    apply hs.distinct version' version opened.identity hlt' hlt
    · rw [← hsame]
      exact (identity_of_openSearch hopen').1
    · exact (identity_of_openSearch hopen).1
  have hc := (identity_of_openSearch hopen).2.2
  have hc' := (identity_of_openSearch hopen').2.2
  rw [hcriteria] at hcriteria'
  have hfts : opened'.ftsQuery = opened.ftsQuery := by
    have h := congrArg Criteria.ftsQuery hcriteria'
    rw [hc, hc'] at h
    exact h.symm
  rw [hc, hc', hfts] at hcriteria'
  rw [hids, hfts, hversion]
  exact orderedIds_congr hcriteria'.symm

/-! ### One step -/

theorem afterCall_eq_some {α : Type} {call : StoreM α} {store store' : SessionStore}
    {ok : α → Phase} {error : QueryError → Phase} {phase : Phase} :
    afterCall call store ok error = some (phase, store') ↔
      (∃ a, call store = .ok a store' ∧ phase = ok a) ∨
        ∃ e, e ≠ .terminated ∧ call store = .error e store' ∧ phase = error e := by
  rw [afterCall]
  cases hrun : call store with
  | ok a store₁ => simp [eq_comm, and_comm]
  | error e store₁ => cases e <;> simp [eq_comm, and_comm]

/-- A call of a request keeps what holds of the store, and what it says goes into the phase. -/
theorem afterCall_keeps {α : Type} {I : SessionStore → Prop} {q : Phase → Prop} {call : StoreM α}
    {Q : α → SessionStore → Prop} {E : QueryError → SessionStore → Prop}
    {store store' : SessionStore} {ok : α → Phase} {error : QueryError → Phase} {phase : Phase}
    (hcall : Triple I call Q E) (hstore : I store) (hok : ∀ a t, Q a t → I t ∧ q (ok a))
    (herror : ∀ e t, E e t → e ≠ .terminated → I t ∧ q (error e))
    (h : afterCall call store ok error = some (phase, store')) : I store' ∧ q phase := by
  rcases afterCall_eq_some.mp h with ⟨a, hrun, rfl⟩ | ⟨e, hne, hrun, rfl⟩
  · exact hok a store' (hcall.ok hstore hrun)
  · exact herror e store' (hcall.throws hstore hrun) hne

theorem Ends.holds {I : SessionStore → Prop} {e : QueryError} {t : SessionStore} (h : Ends I e t)
    (hne : e ≠ .terminated) : I t := h.resolve_left hne

section Advance

variable {fts : FullText} {s : CatalogService} {r : Request} {answers : Answers} {phase : Phase}
  {store : SessionStore}

theorem Sound.startRequest (hs : Sound fts s) (hlt : r.version < s.versions.length)
    (h : startRequest fts (s.snapshot r.version) answers r.input s.store = some (phase, store)) :
    Holds (Listed fts s.versions) store ∧
      PhaseSound fts (s.snapshot r.version) r.input phase := by
  rw [Query.startRequest] at h
  cases hopen : openSearch fts (s.snapshot r.version) r.input.query with
  | error e =>
    rw [hopen] at h
    obtain ⟨rfl, rfl⟩ := Prod.mk.inj (Option.some.inj h)
    exact ⟨hs.store, trivial⟩
  | ok opened =>
    rw [hopen] at h
    dsimp only at h
    split at h
    · refine afterCall_keeps (readSlice_ends (fun _ _ h => h) answers.now r.input.query
        opened.criteria opened.identity) hs.store ?_ ?_ h
      · rintro slice t ⟨⟨cursor, session, hslice⟩, ht⟩
        refine ⟨ht, ?_⟩
        rw [hslice.slice_eq]
        cases hpage : continuedPage (s.snapshot r.version) opened
            (sliceOf session cursor r.input.query.limit) with
        | error e => trivial
        | ok page =>
          have hids := hs.listing hslice.property hlt hopen hslice.session_current
            hslice.session_criteria
          exact ⟨opened, PageOf.continued hopen hslice.asked hslice.valid hslice.current hids
            hslice.position.2 hpage⟩
      · intro e t he hne
        exact ⟨he.holds hne, trivial⟩
    · rename_i hcursor
      have hfirst : r.input.query.cursor = none := by simpa using hcursor
      obtain ⟨hphase, rfl⟩ := Prod.mk.inj (Option.some.inj h)
      refine ⟨hs.store, ?_⟩
      rw [← hphase]
      cases hplan : planPage fts (s.snapshot r.version) r.input opened with
      | error e => trivial
      | ok plan =>
        have hplanned : Planned fts (s.snapshot r.version) r.input opened plan :=
          ⟨hopen, hfirst, hplan⟩
        show PhaseSound _ _ _ (if _ then _ else _)
        split
        · rename_i hend
          cases hpage : directPage fts (s.snapshot r.version) r.input.query opened plan with
          | error e => trivial
          | ok page => exact ⟨opened, PageOf.direct hplanned hend hpage⟩
        · exact ⟨hplanned, by omega⟩

theorem makeSessionId_ne_nil (random : RandomBytes) : makeSessionId random ≠ [] := by
  intro h
  have hlength := length_hexText random.1
  rw [show hexText random.1 = [] from h, random.2] at hlength
  cases hlength

/-- A step of a request keeps what the store and the request have to say. -/
theorem Sound.advance (hs : Sound fts s) (hr : r ∈ s.requests)
    (h : r.advance fts (s.snapshot r.version) (s.current answers) answers s.store =
      some (phase, store)) :
    Holds (Listed fts s.versions) store ∧
      PhaseSound fts (s.snapshot r.version) r.input phase := by
  have hlt := hs.version r hr
  have hsound := hs.requests r hr
  rw [Request.advance] at h
  cases hphase : r.phase with
  | opened =>
    rw [hphase] at h
    exact hs.startRequest hlt h
  | reserving opened plan =>
    rw [hphase] at h hsound
    refine afterCall_keeps (reserve_ends _ _ _ _) hs.store ?_ ?_ h
    · intro reservation t ht
      exact ⟨ht.2, hsound, ht.1⟩
    · intro e t he hne
      exact ⟨he.holds hne, trivial⟩
  | filling opened plan reservation =>
    rw [hphase] at h hsound
    obtain ⟨hnext, rfl⟩ := Prod.mk.inj (Option.some.inj h)
    refine ⟨hs.store, ?_⟩
    rw [← hnext]
    cases hfill : fillPage fts (s.snapshot r.version) r.input.query opened plan with
    | error e => exact ⟨opened, hsound.1.1.reads, hsound.2⟩
    | ok filled => exact ⟨hsound, hfill⟩
  | publishing opened plan ids page reservation =>
    rw [hphase] at h hsound
    obtain ⟨⟨⟨hplanned, hmore⟩, hkey⟩, hfill⟩ := hsound
    have hany : CursorOf opened.identity ⟨[0], opened.identity.sourceFingerprint,
        opened.identity.snapshotId, plan.pageEnd⟩ := ⟨rfl, rfl⟩
    have hids : ids = orderedIds fts (s.snapshot r.version) r.input.query opened.ftsQuery :=
      (PageOf.filled hplanned hmore hfill ⟨hany, rfl, List.cons_ne_nil _ _⟩).1
    refine afterCall_keeps (publish_ends _ _ _ _ _ _ _ _ fun sessionId => ?_) hs.store ?_ ?_ h
    · exact ⟨r.version, r.input.query, opened, hlt, hplanned.reads, ⟨rfl, rfl⟩, rfl, hids⟩
    · rintro cursor t ⟨⟨sessionId, hid, rfl⟩, ht⟩
      refine ⟨ht, (PageOf.filled hplanned hmore hfill ⟨⟨rfl, rfl⟩, rfl, ?_⟩).2⟩
      cases hrandom : answers.random with
      | error f =>
        rw [hrandom] at hid
        cases hid
      | ok random =>
        rw [hrandom] at hid
        injection hid with hid
        rw [← hid]
        exact makeSessionId_ne_nil random
    · intro e t he hne
      exact ⟨he.holds hne, opened, hplanned.reads, hkey⟩
  | checking opened page cursor =>
    rw [hphase] at h hsound
    refine afterCall_keeps (validate_ends _ _) hs.store ?_ ?_ h
    · intro _ t ht
      exact ⟨ht.2, opened, hsound⟩
    · intro e t he _
      exact ⟨he.2, trivial⟩
  | removing cursor e =>
    rw [hphase] at h
    refine afterCall_keeps (removeSearchSession_ends _) hs.store ?_ ?_ h
    · intro _ t ht
      exact ⟨ht, trivial⟩
    · intro e' t he hne
      exact absurd he hne
  | releasing reservation e =>
    rw [hphase] at h
    refine afterCall_keeps (release_ends _) hs.store ?_ ?_ h
    · intro _ t ht
      exact ⟨ht, trivial⟩
    · intro e' t he hne
      exact absurd he hne
  | done page =>
    rw [hphase] at h
    cases h
  | failed e =>
    rw [hphase] at h
    cases h

end Advance

/-- A commit leaves what the older versions have to say as it is. -/
theorem Sound.commit {fts : FullText} {s : CatalogService} (hs : Sound fts s) {db : Database}
    (h : s.Admits db) : Sound fts { s with versions := s.versions ++ [db] } := by
  have hnew : ∀ v identity, v < s.versions.length →
      readCatalogIdentity (versionAt s.versions v) = .ok identity →
      readCatalogIdentity db ≠ .ok identity := by
    intro v identity hv hold hdb
    apply h.2 _ (versionAt_mem hv)
    rw [hold, hdb]
  refine {
    nonempty := by simp
    named := ?_
    distinct := ?_
    store := ⟨fun t ht => (hs.store.sessions t ht).append db, hs.store.reservations⟩
    version := ?_
    requests := ?_ }
  · intro v hpos hv
    simp only [snapshot_eq, List.length_append, List.length_singleton] at hv ⊢
    rcases Nat.lt_succ_iff_lt_or_eq.mp hv with hv | rfl
    · rw [versionAt_append_of_lt db hv]
      exact hs.named v hpos hv
    · rw [versionAt_append_self]
      exact h.1
  · intro v w identity hv hw hidv hidw
    simp only [snapshot_eq, List.length_append, List.length_singleton] at hv hw hidv hidw
    rcases Nat.lt_succ_iff_lt_or_eq.mp hv with hv | rfl <;>
      rcases Nat.lt_succ_iff_lt_or_eq.mp hw with hw | rfl
    · rw [versionAt_append_of_lt db hv] at hidv
      rw [versionAt_append_of_lt db hw] at hidw
      exact hs.distinct v w identity hv hw hidv hidw
    · rw [versionAt_append_of_lt db hv] at hidv
      rw [versionAt_append_self] at hidw
      exact absurd hidw (hnew v identity hv hidv)
    · rw [versionAt_append_self] at hidv
      rw [versionAt_append_of_lt db hw] at hidw
      exact absurd hidv (hnew w identity hw hidw)
    · rfl
  · intro r hr
    have := hs.version r hr
    simp only [List.length_append, List.length_singleton]
    omega
  · intro r hr
    have hsound := hs.requests r hr
    rw [snapshot_eq] at hsound ⊢
    rw [versionAt_append_of_lt db (hs.version r hr)]
    exact hsound

theorem Sound.begin {fts : FullText} {s : CatalogService} (hs : Sound fts s) (input : PageRequest) :
    Sound fts { s with requests := s.requests ++ [{ input := input, version := s.lastVersion }] } := by
  have hpos := List.length_pos_iff.mpr hs.nonempty
  refine {
    nonempty := hs.nonempty
    named := hs.named
    distinct := hs.distinct
    store := hs.store
    version := ?_
    requests := ?_ }
  · intro r hr
    rcases List.mem_append.mp hr with hr | hr
    · exact hs.version r hr
    · rw [List.mem_singleton.mp hr]
      show s.versions.length - 1 < s.versions.length
      omega
  · intro r hr
    rcases List.mem_append.mp hr with hr | hr
    · exact hs.requests r hr
    · rw [List.mem_singleton.mp hr]
      trivial

theorem advance_eq_some {fts : FullText} {s s' : CatalogService} {index : Nat} {answers : Answers} :
    s.step fts (.advance index answers) = some s' ↔ ∃ r phase store, s.requests[index]? = some r ∧
      r.advance fts (s.snapshot r.version) (s.current answers) answers s.store =
        some (phase, store) ∧
      s' = { s with store := store, requests := s.requests.set index { r with phase := phase } } := by
  rw [CatalogService.step]
  constructor
  · intro h
    obtain ⟨r, hr, h⟩ := Option.bind_eq_some_iff.mp h
    obtain ⟨⟨phase, store⟩, hadvance, h⟩ := Option.bind_eq_some_iff.mp h
    injection h with h
    exact ⟨r, phase, store, hr, hadvance, h.symm⟩
  · rintro ⟨r, phase, store, hr, hadvance, rfl⟩
    show (s.requests[index]?).bind _ = _
    rw [hr, Option.bind_some]
    show Option.bind _ _ = _
    rw [hadvance]
    rfl

theorem Sound.step {fts : FullText} {s s' : CatalogService} {action : ServiceAction}
    (hs : Sound fts s) (h : s.step fts action = some s') : Sound fts s' := by
  cases action with
  | commit db =>
    obtain ⟨hadmits, ⟨⟩⟩ := Option.ite_none_right_eq_some.mp h
    exact hs.commit hadmits
  | begin input =>
    injection h with h
    rw [← h]
    exact hs.begin input
  | advance index answers =>
    obtain ⟨r, phase, store, hindex, hadvance, rfl⟩ := advance_eq_some.mp h
    have hr := List.mem_of_getElem? hindex
    obtain ⟨hstore, hphase⟩ := hs.advance hr hadvance
    refine {
      nonempty := hs.nonempty
      named := hs.named
      distinct := hs.distinct
      store := hstore
      version := ?_
      requests := ?_ }
    · intro q hq
      rcases List.mem_or_eq_of_mem_set hq with hq | rfl
      · exact hs.version q hq
      · exact hs.version r hr
    · intro q hq
      rcases List.mem_or_eq_of_mem_set hq with hq | rfl
      · exact hs.requests q hq
      · exact hphase
  | rehash sessions =>
    obtain ⟨hperm, ⟨⟩⟩ := Option.ite_none_right_eq_some.mp h
    exact {
      nonempty := hs.nonempty
      named := hs.named
      distinct := hs.distinct
      store := ⟨fun t ht => hs.store.sessions t (hperm.mem_iff.mp ht), hs.store.reservations⟩
      version := hs.version
      requests := hs.requests }

theorem sound_start (fts : FullText) (db : Database) (aggregateIdCapacity : Nat) :
    Sound fts (.start db aggregateIdCapacity) where
  nonempty := List.cons_ne_nil _ _
  named := by
    intro v hpos hv
    have hv : v < 1 := hv
    omega
  distinct := by
    intro v w _ hv hw _ _
    have hv : v < 1 := hv
    have hw : w < 1 := hw
    omega
  store := ⟨fun _ h => absurd h List.not_mem_nil, fun _ h => absurd h List.not_mem_nil⟩
  version := fun _ h => absurd h List.not_mem_nil
  requests := fun _ h => absurd h List.not_mem_nil

theorem sound_of_run {fts : FullText} {db : Database} {aggregateIdCapacity : Nat}
    {actions : List ServiceAction} {s : CatalogService}
    (h : Runs.run (CatalogService.step fts) (.start db aggregateIdCapacity) actions = some s) :
    Sound fts s :=
  Runs.run_invariant (fun _ _ _ hs hstep => hs.step hstep) h (sound_start fts db _)

end InpxWebReader.Query
