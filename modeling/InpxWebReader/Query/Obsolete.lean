import InpxWebReader.Query.Generations

/-!
# Searches that a commit made obsolete

A scan may commit between any two steps of a search. `GenerationsApart` says what a search of an
older version can still do, namely nothing to the store of the new generation, and that the cursors
of a page lead back to the version of the page only. `generations_apart` proves it of every run of
the service, and that no request that begins after a commit gets a page for an older cursor.
-/

namespace InpxWebReader.Query

open Foundation Domain Database Program

/-- The service after a step that only moved a request on. -/
def CatalogService.withPhase (s : CatalogService) (index : Nat) (r : Request) (phase : Phase) :
    CatalogService :=
  { s with requests := s.requests.set index { r with phase := phase } }

/-- The generations of the catalog stay apart. -/
structure GenerationsApart (fts : FullText) (s : CatalogService) : Prop where
  /-- An obsolete search does not get a reservation. -/
  reserve : ∀ index r opened plan, s.requests[index]? = some r →
    r.phase = .reserving opened plan → r.version < s.lastVersion → ∀ answers, ∃ e,
      s.step fts (.advance index answers) = some (s.withPhase index r (.failed e)) ∧
      (answers.databaseFailure = none → e = catalogSnapshotChanged)
  /-- An obsolete search does not publish its session. -/
  publish : ∀ index r opened plan ids page reservation, s.requests[index]? = some r →
    r.phase = .publishing opened plan ids page reservation → r.version < s.lastVersion →
    ∀ answers, ∃ e,
      s.step fts (.advance index answers) =
        some (s.withPhase index r (.releasing reservation e)) ∧
      (answers.databaseFailure = none → (∀ failure, answers.random ≠ .error failure) →
        e = catalogSnapshotChanged)
  /-- The release of its reservation does not touch the store of a newer generation. -/
  release : ∀ index r reservation error, s.requests[index]? = some r →
    r.phase = .releasing reservation error → ∀ newer identity, r.version < newer →
    newer < s.versions.length → readCatalogIdentity (s.snapshot newer) = .ok identity →
    s.store.currentGenerationKey = buildCatalogGenerationKey identity →
    ∀ answers s', s.step fts (.advance index answers) = some s' → s'.store = s.store
  /-- A page is the page of the version that its request read, under the identity of it. -/
  page : ∀ r ∈ s.requests, ∀ page, r.phase = .done page → ∃ opened,
    readCatalogIdentity (s.snapshot r.version) = .ok opened.identity ∧
    PageOf fts (s.snapshot r.version) r.input opened page
  /-- A continuation is cut out of a session that was made under the identity of its page. -/
  session : ∀ index r cursor answers s' page, s.requests[index]? = some r → r.phase = .opened →
    r.input.query.cursor = some cursor → s.step fts (.advance index answers) = some s' →
    s'.requests[index]? = some { r with phase := .done page } →
    ∃ t ∈ s.store.sessions.rows, t.sessionId = cursor.sessionId ∧
      t.sourceFingerprint = page.sourceFingerprint ∧ t.catalogSnapshotId = page.catalogSnapshotId
  /-- The cursor of a page leads to a page of the same version. -/
  cursor : ∀ r₁ ∈ s.requests, ∀ r₂ ∈ s.requests, ∀ page₁ page₂ cursor, r₁.phase = .done page₁ →
    page₁.nextCursor = some cursor → r₂.input.query.cursor = some cursor →
    r₂.phase = .done page₂ → r₁.version = r₂.version

section Obsolete

variable {fts : FullText} {s : CatalogService} {r : Request}

theorem Sound.lastVersion_lt (hs : Sound fts s) : s.lastVersion < s.versions.length := by
  have hpos := List.length_pos_iff.mpr hs.nonempty
  show s.versions.length - 1 < s.versions.length
  omega

/-- The database does not answer with the identity of an older version. -/
theorem Sound.current_ne (hs : Sound fts s) (hlt : r.version < s.lastVersion)
    {opened : OpenedSearch}
    (hreads : openSearch fts (s.snapshot r.version) r.input.query = .ok opened)
    (answers : Answers) : s.current answers ≠ .ok opened.identity := by
  intro h
  rw [CatalogService.current] at h
  cases hfailure : answers.databaseFailure with
  | some failure =>
    rw [hfailure] at h
    cases h
  | none =>
    rw [hfailure] at h
    have hlast := hs.lastVersion_lt
    have heq := hs.distinct r.version s.lastVersion opened.identity (by omega) hlast
      (identity_of_openSearch hreads).1 h
    omega

/-- What an obsolete search is told when it asks for the current identity. -/
theorem Sound.validate_obsolete (hs : Sound fts s) (hlt : r.version < s.lastVersion)
    {opened : OpenedSearch}
    (hreads : openSearch fts (s.snapshot r.version) r.input.query = .ok opened)
    (answers : Answers) : ∃ e, e ≠ .terminated ∧
      validateCurrentCatalogIdentity (s.current answers) opened.identity s.store =
        .error e s.store ∧ (answers.databaseFailure = none → e = catalogSnapshotChanged) := by
  rcases validate_cases (s.current answers) opened.identity s.store with ⟨hc, _⟩ | ⟨e, hrun, he⟩
  · exact absurd hc (hs.current_ne hlt hreads answers)
  · rcases he with ⟨f, hf, rfl⟩ | ⟨i, _, _, rfl⟩
    · refine ⟨_, (by rintro ⟨⟩), hrun, ?_⟩
      intro hnone
      obtain ⟨identity, hidentity, _⟩ :=
        hs.named s.lastVersion (by omega) hs.lastVersion_lt
      rw [CatalogService.current] at hf
      rw [hnone] at hf
      rw [show readCatalogIdentity (s.snapshot s.lastVersion) = .error f from hf] at hidentity
      cases hidentity
    · exact ⟨_, (by rintro ⟨⟩), hrun, fun _ => rfl⟩

/-- A call that fails with the look at the current identity leaves the store as it is. -/
theorem afterCall_validate {α : Type} {call : StoreM α} {current : Except Failure CatalogIdentity}
    {identity : CatalogIdentity} {rest : Unit → StoreM α} {store : SessionStore} {e : QueryError}
    (hcall : call = validateCurrentCatalogIdentity current identity >>= rest)
    (hrun : validateCurrentCatalogIdentity current identity store = .error e store)
    (hne : e ≠ .terminated) (ok : α → Phase) (error : QueryError → Phase) :
    afterCall call store ok error = some (error e, store) := by
  rw [afterCall_eq_some]
  refine Or.inr ⟨e, hne, ?_, rfl⟩
  rw [hcall]
  exact bind_error hrun

theorem Sound.reserve_obsolete (hs : Sound fts s) {index : Nat} (hr : s.requests[index]? = some r)
    {opened : OpenedSearch} {plan : PagePlan} (hphase : r.phase = .reserving opened plan)
    (hlt : r.version < s.lastVersion) (answers : Answers) : ∃ e,
      s.step fts (.advance index answers) = some (s.withPhase index r (.failed e)) ∧
      (answers.databaseFailure = none → e = catalogSnapshotChanged) := by
  have hsound := hs.requests r (List.mem_of_getElem? hr)
  rw [hphase] at hsound
  obtain ⟨e, hne, hrun, he⟩ := hs.validate_obsolete hlt hsound.1.reads answers
  refine ⟨e, ?_, he⟩
  rw [advance_eq_some]
  refine ⟨r, .failed e, s.store, hr, ?_, rfl⟩
  rw [Request.advance]
  rw [hphase]
  exact afterCall_validate rfl hrun hne _ _

theorem Sound.publish_obsolete (hs : Sound fts s) {index : Nat} (hr : s.requests[index]? = some r)
    {opened : OpenedSearch} {plan : PagePlan} {ids : List Nat} {page : SearchPage}
    {reservation : Reservation}
    (hphase : r.phase = .publishing opened plan ids page reservation)
    (hlt : r.version < s.lastVersion) (answers : Answers) : ∃ e,
      s.step fts (.advance index answers) =
        some (s.withPhase index r (.releasing reservation e)) ∧
      (answers.databaseFailure = none → (∀ failure, answers.random ≠ .error failure) →
        e = catalogSnapshotChanged) := by
  have hsound := hs.requests r (List.mem_of_getElem? hr)
  rw [hphase] at hsound
  obtain ⟨e, hne, hrun, he⟩ := hs.validate_obsolete hlt hsound.1.1.1.reads answers
  cases hrandom : answers.random with
  | error failure =>
    refine ⟨.failed failure, ?_, fun _ h => absurd rfl (h failure)⟩
    rw [advance_eq_some]
    refine ⟨r, .releasing reservation (.failed failure), s.store, hr, ?_, rfl⟩
    rw [Request.advance]
    rw [hphase]
    show afterCall _ _ _ _ = _
    rw [hrandom, afterCall_eq_some]
    exact Or.inr ⟨.failed failure, (by rintro ⟨⟩), rfl, rfl⟩
  | ok random =>
    refine ⟨e, ?_, fun hnone _ => he hnone⟩
    rw [advance_eq_some]
    refine ⟨r, .releasing reservation e, s.store, hr, ?_, rfl⟩
    rw [Request.advance]
    rw [hphase]
    show afterCall _ _ _ _ = _
    rw [hrandom]
    exact afterCall_validate rfl hrun hne _ _

/-- The release of a reservation that is not of the current generation finds nothing to remove. -/
theorem Sound.release_obsolete (hs : Sound fts s) {index : Nat}
    (hr : s.requests[index]? = some r) {reservation : Reservation} {error : QueryError}
    (hphase : r.phase = .releasing reservation error) {newer : Nat} {identity : CatalogIdentity}
    (hlt : r.version < newer) (hnewer : newer < s.versions.length)
    (hidentity : readCatalogIdentity (s.snapshot newer) = .ok identity)
    (hkey : s.store.currentGenerationKey = buildCatalogGenerationKey identity)
    {answers : Answers} {s' : CatalogService}
    (h : s.step fts (.advance index answers) = some s') : s'.store = s.store := by
  have hsound := hs.requests r (List.mem_of_getElem? hr)
  rw [hphase] at hsound
  obtain ⟨opened, hreads, hreservation⟩ := hsound
  have hold : s.store.currentGenerationKey ≠ reservation.generationKey := by
    intro heq
    rw [hkey, hreservation] at heq
    rw [buildCatalogGenerationKey_inj heq] at hidentity
    have := hs.distinct r.version newer opened.identity (by omega) hnewer
      (identity_of_openSearch hreads).1 hidentity
    omega
  obtain ⟨r', phase, store, hr', hadvance, rfl⟩ := advance_eq_some.mp h
  obtain rfl : r = r' := Option.some.inj (hr.symm.trans hr')
  rw [Request.advance] at hadvance
  rw [hphase] at hadvance
  show store = s.store
  rcases afterCall_eq_some.mp hadvance with ⟨_, hrun, _⟩ | ⟨e, hne, hrun, _⟩
  · exact ((releaseOther_spec hs.store hold).ok rfl hrun)
  · exact absurd ((releaseOther_spec hs.store hold).throws rfl hrun) hne

theorem continuedPage_identity {db : Database} {opened : OpenedSearch} {slice : ContinuationSlice}
    {page : SearchPage} (h : continuedPage db opened slice = .ok page) :
    page.sourceFingerprint = opened.identity.sourceFingerprint ∧
      page.catalogSnapshotId = opened.identity.snapshotId := by
  rw [continuedPage] at h
  obtain ⟨books, _, h⟩ := except_bind_eq_ok h
  split at h
  · cases h
  · injection h with h
    rw [← h]
    exact ⟨rfl, rfl⟩

theorem continued_session (hs : Holds (fun t => t ∈ s.store.sessions.rows) s.store) {index : Nat}
    (hr : s.requests[index]? = some r) (hphase : r.phase = .opened) {cursor : SearchCursor}
    (hcursor : r.input.query.cursor = some cursor) {answers : Answers} {s' : CatalogService}
    (h : s.step fts (.advance index answers) = some s') {page : SearchPage}
    (hpage : s'.requests[index]? = some { r with phase := .done page }) :
    ∃ t ∈ s.store.sessions.rows, t.sessionId = cursor.sessionId ∧
      t.sourceFingerprint = page.sourceFingerprint ∧
      t.catalogSnapshotId = page.catalogSnapshotId := by
  obtain ⟨r', phase, store, hr', hadvance, rfl⟩ := advance_eq_some.mp h
  obtain rfl : r = r' := Option.some.inj (hr.symm.trans hr')
  have hlength : index < s.requests.length := (List.getElem?_eq_some_iff.mp hr).1
  replace hpage : (s.requests.set index { r with phase := phase })[index]? =
    some { r with phase := .done page } := hpage
  rw [List.getElem?_set_self hlength, Option.some_inj, Request.mk.injEq] at hpage
  rw [hpage.2.2] at hadvance
  rw [Request.advance] at hadvance
  rw [hphase] at hadvance
  replace hadvance : startRequest fts (s.snapshot r.version) answers r.input s.store =
    some (.done page, store) := hadvance
  rw [startRequest] at hadvance
  cases hopen : openSearch fts (s.snapshot r.version) r.input.query with
  | error e =>
    rw [hopen] at hadvance
    cases hadvance
  | ok opened =>
    rw [hopen] at hadvance
    dsimp only at hadvance
    rw [if_pos (by rw [hcursor]; rfl)] at hadvance
    rcases afterCall_eq_some.mp hadvance with ⟨slice, hrun, hdone⟩ | ⟨e, _, _, hdone⟩
    · -- the session that was found has only its last access changed
      have hends := readSlice_ends (p := fun session => ∃ t ∈ s.store.sessions.rows,
          t.sessionId = session.sessionId ∧ t.sourceFingerprint = session.sourceFingerprint ∧
            t.catalogSnapshotId = session.catalogSnapshotId)
        (fun _ _ h => h) answers.now r.input.query opened.criteria opened.identity
      obtain ⟨⟨cursor', session, hslice⟩, _⟩ :=
        hends.ok ⟨fun t ht => ⟨t, ht, rfl, rfl, rfl⟩, hs.reservations⟩ hrun
      obtain rfl : cursor = cursor' := Option.some.inj (hcursor.symm.trans hslice.asked)
      obtain ⟨t, ht, hname, hfingerprint, hsnapshot⟩ := hslice.property
      have hidentity : page.sourceFingerprint = opened.identity.sourceFingerprint ∧
          page.catalogSnapshotId = opened.identity.snapshotId := by
        cases hcontinued : continuedPage (s.snapshot r.version) opened slice with
        | error e =>
          rw [hcontinued] at hdone
          cases hdone
        | ok page' =>
          rw [hcontinued] at hdone
          obtain rfl : page = page' := Phase.done.inj hdone
          exact continuedPage_identity hcontinued
      refine ⟨t, ht, ?_, ?_, ?_⟩
      · rw [hname, hslice.named]
      · rw [hfingerprint, hslice.session_current.1, hidentity.1]
      · rw [hsnapshot, hslice.session_current.2, hidentity.2]
    · cases hdone

theorem Sound.version_eq (hs : Sound fts s) {r₁ r₂ : Request} (hr₁ : r₁ ∈ s.requests)
    (hr₂ : r₂ ∈ s.requests) {page₁ page₂ : SearchPage} {cursor : SearchCursor}
    (h₁ : r₁.phase = .done page₁) (hnext : page₁.nextCursor = some cursor)
    (hcursor : r₂.input.query.cursor = some cursor) (h₂ : r₂.phase = .done page₂) :
    r₁.version = r₂.version := by
  have hsound₁ := hs.requests r₁ hr₁
  have hsound₂ := hs.requests r₂ hr₂
  rw [h₁] at hsound₁
  rw [h₂] at hsound₂
  obtain ⟨opened₁, hpage₁⟩ := hsound₁
  obtain ⟨opened₂, hpage₂⟩ := hsound₂
  have hof₁ := (hpage₁.next cursor hnext).1
  have hof₂ := (hpage₂.continues cursor hcursor).1
  have hidentity : opened₁.identity = opened₂.identity := by
    rcases hi₁ : opened₁.identity with ⟨fingerprint₁, snapshot₁⟩
    rcases hi₂ : opened₂.identity with ⟨fingerprint₂, snapshot₂⟩
    rw [hi₁] at hof₁
    rw [hi₂] at hof₂
    rw [CatalogIdentity.mk.injEq]
    exact ⟨hof₁.1.symm.trans hof₂.1, hof₁.2.symm.trans hof₂.2⟩
  apply hs.distinct r₁.version r₂.version opened₁.identity (hs.version r₁ hr₁) (hs.version r₂ hr₂)
  · exact (identity_of_openSearch hpage₁.reads).1
  · rw [hidentity]
    exact (identity_of_openSearch hpage₂.reads).1

theorem Sound.generationsApart (hs : Sound fts s) : GenerationsApart fts s where
  reserve := fun _ _ _ _ hr hphase hlt answers => hs.reserve_obsolete hr hphase hlt answers
  publish := fun _ _ _ _ _ _ _ hr hphase hlt answers => hs.publish_obsolete hr hphase hlt answers
  release := fun _ _ _ _ hr hphase _ _ hlt hnewer hidentity hkey _ _ h =>
    hs.release_obsolete hr hphase hlt hnewer hidentity hkey h
  page := by
    intro r hr page hdone
    have hsound := hs.requests r hr
    rw [hdone] at hsound
    obtain ⟨opened, hpage⟩ := hsound
    exact ⟨opened, (identity_of_openSearch hpage.reads).1, hpage⟩
  session := fun _ _ _ _ _ _ hr hphase hcursor h hpage =>
    continued_session ⟨fun _ ht => ht, hs.store.reservations⟩ hr hphase hcursor h hpage
  cursor := fun _ hr₁ _ hr₂ _ _ _ h₁ hnext hcursor h₂ =>
    hs.version_eq hr₁ hr₂ h₁ hnext hcursor h₂

end Obsolete

/-! ### What a later state has of an earlier one -/

/-- The versions stay, and a request keeps its input, its version and its page. -/
structure Follows (s s' : CatalogService) : Prop where
  versions : s.versions <+: s'.versions
  requests : ∀ (index : Nat) (r : Request), s.requests[index]? = some r →
    ∃ r' : Request, s'.requests[index]? = some r' ∧
    r'.version = r.version ∧ r'.input = r.input ∧ ∀ page, r.phase = .done page → r' = r

theorem Follows.refl (s : CatalogService) : Follows s s :=
  ⟨List.prefix_rfl, fun _ r hr => ⟨r, hr, rfl, rfl, fun _ _ => rfl⟩⟩

theorem Follows.trans {s s' s'' : CatalogService} (h : Follows s s') (h' : Follows s' s'') :
    Follows s s'' := by
  refine ⟨h.versions.trans h'.versions, fun index r hr => ?_⟩
  obtain ⟨r', hr', hversion, hinput, hdone⟩ := h.requests index r hr
  obtain ⟨r'', hr'', hversion', hinput', hdone'⟩ := h'.requests index r' hr'
  refine ⟨r'', hr'', hversion'.trans hversion, hinput'.trans hinput, fun page hpage => ?_⟩
  obtain rfl := hdone page hpage
  exact hdone' page hpage

/-- A request that has its page makes no further step. -/
theorem advance_of_done {fts : FullText} {db : Database} {current : Except Failure CatalogIdentity}
    {answers : Answers} {r : Request} {store : SessionStore} {page : SearchPage}
    (h : r.phase = .done page) : r.advance fts db current answers store = none := by
  rw [Request.advance]
  rw [h]

theorem follows_step {fts : FullText} {s s' : CatalogService} {action : ServiceAction}
    (h : s.step fts action = some s') : Follows s s' := by
  cases action with
  | commit db =>
    obtain ⟨_, ⟨⟩⟩ := Option.ite_none_right_eq_some.mp h
    exact ⟨List.prefix_append _ _, (Follows.refl s).requests⟩
  | begin input =>
    injection h with h
    rw [← h]
    refine ⟨List.prefix_rfl, fun index r hr => ⟨r, ?_, rfl, rfl, fun _ _ => rfl⟩⟩
    have hlt : index < s.requests.length := (List.getElem?_eq_some_iff.mp hr).1
    show (s.requests ++ _)[index]? = some r
    rw [List.getElem?_append_left hlt]
    exact hr
  | advance index answers =>
    obtain ⟨r, phase, store, hindex, hadvance, rfl⟩ := advance_eq_some.mp h
    refine ⟨List.prefix_rfl, fun i q hq => ?_⟩
    show ∃ r', (s.requests.set index _)[i]? = some r' ∧ _
    have hlt : i < s.requests.length := (List.getElem?_eq_some_iff.mp hq).1
    by_cases hi : index = i
    · rw [hi] at hindex
      rw [hi, List.getElem?_set_self hlt]
      obtain rfl : r = q := Option.some.inj (hindex.symm.trans hq)
      refine ⟨_, rfl, rfl, rfl, fun page hdone => ?_⟩
      rw [advance_of_done hdone] at hadvance
      cases hadvance
    · rw [List.getElem?_set_ne hi]
      exact ⟨q, hq, rfl, rfl, fun _ _ => rfl⟩
  | rehash sessions =>
    obtain ⟨_, ⟨⟩⟩ := Option.ite_none_right_eq_some.mp h
    exact ⟨List.prefix_rfl, (Follows.refl s).requests⟩

theorem follows_of_run {fts : FullText} {s s' : CatalogService} {actions : List ServiceAction}
    (h : Runs.run (CatalogService.step fts) s actions = some s') : Follows s s' :=
  Runs.run_invariant (I := fun t => Follows s t)
    (fun _ _ _ hs hstep => hs.trans (follows_step hstep)) h (.refl s)

/-! ### The result -/

/-- A request that begins after a commit gets no page for a cursor from before it. -/
theorem no_page_for_older_cursor {fts : FullText} {s₀ s₁ s₂ : CatalogService} (hs : Sound fts s₀)
    {r : Request} {page : SearchPage} {cursor : SearchCursor} (hr : r ∈ s₀.requests)
    (hdone : r.phase = .done page) (hnext : page.nextCursor = some cursor)
    {newer : Database} {between later : List ServiceAction} {input : PageRequest}
    (hbetween : Runs.run (CatalogService.step fts) s₀ (.commit newer :: between) = some s₁)
    (hcursor : input.query.cursor = some cursor)
    (hlater : Runs.run (CatalogService.step fts) s₁ (.begin input :: later) = some s₂)
    {r' : Request} (hr' : s₂.requests[s₁.requests.length]? = some r') (page' : SearchPage) :
    r'.phase ≠ .done page' := by
  intro hdone'
  have hversion := hs.version r hr
  obtain ⟨index, hindex⟩ := List.mem_iff_getElem?.mp hr
  have hrun := Runs.run_append_eq_some.mpr ⟨s₁, hbetween, hlater⟩
  have hs₂ : Sound fts s₂ := Runs.run_invariant (fun _ _ _ hs hstep => hs.step hstep) hrun hs
  -- the commit makes the version of the request older than the last one
  obtain ⟨t, hcommit, hafter⟩ := Runs.run_cons_eq_some.mp hbetween
  obtain ⟨_, ⟨⟩⟩ := Option.ite_none_right_eq_some.mp hcommit
  have hgrows := (follows_of_run hafter).versions.length_le
  simp only [List.length_append, List.length_singleton] at hgrows
  obtain ⟨t, hbegin, hrest⟩ := Runs.run_cons_eq_some.mp hlater
  injection hbegin with hbegin
  have hfirst : t.requests[s₁.requests.length]? =
      some { input := input, version := s₁.lastVersion } := by
    rw [← hbegin]
    exact List.getElem?_concat_length
  obtain ⟨q, hq, hqversion, hqinput, _⟩ := (follows_of_run hrest).requests _ _ hfirst
  obtain rfl : r' = q := Option.some.inj (hr'.symm.trans hq)
  -- the page with the cursor is still there
  obtain ⟨q, hqold, _, _, hsame⟩ := (follows_of_run hrun).requests index r hindex
  obtain rfl := hsame page hdone
  have heq := hs₂.version_eq (List.mem_of_getElem? hqold) (List.mem_of_getElem? hr') hdone hnext
    (by rw [hqinput]; exact hcursor) hdone'
  rw [hqversion] at heq
  change _ = s₁.versions.length - 1 at heq
  omega

/-- Whatever searches are in flight and wherever scans commit between their steps: an obsolete
search changes nothing that is of a newer generation, every page is of one version, and a cursor is
worth nothing to requests that begin after the next commit. -/
theorem generations_apart {fts : FullText} {db : Database} {aggregateIdCapacity : Nat}
    {actions : List ServiceAction} {s : CatalogService}
    (hrun : Runs.run (CatalogService.step fts) (.start db aggregateIdCapacity) actions = some s) :
    GenerationsApart fts s ∧
      ∀ r ∈ s.requests, ∀ page cursor, r.phase = .done page → page.nextCursor = some cursor →
        ∀ newer between s₁,
          Runs.run (CatalogService.step fts) s (.commit newer :: between) = some s₁ →
        ∀ input, input.query.cursor = some cursor → ∀ later s₂,
          Runs.run (CatalogService.step fts) s₁ (.begin input :: later) = some s₂ →
        ∀ r', s₂.requests[s₁.requests.length]? = some r' → ∀ page', r'.phase ≠ .done page' := by
  have hs := sound_of_run hrun
  refine ⟨hs.generationsApart, ?_⟩
  intro r hr page cursor hdone hnext newer between s₁ hbetween input hcursor later s₂ hlater r' hr'
  exact no_page_for_older_cursor hs hr hdone hnext hbetween hcursor hlater hr'

/-- The answers of a database that can be read. -/
def sampleAnswers : Answers where
  now := 0
  random := .ok ⟨List.replicate 16 7, rfl⟩

/-- A search that gets its page, and one that a commit overtakes before it reserves. -/
def sampleActions : List ServiceAction :=
  [.begin ⟨{ limit := 2 }, false, false⟩] ++ List.replicate 5 (.advance 0 sampleAnswers) ++
    [.begin ⟨{ limit := 2 }, false, false⟩, .advance 1 sampleAnswers,
      .commit (sampleCatalog "s2"), .advance 1 sampleAnswers]

/-- The error that a request failed with. -/
def Phase.error? : Phase → Option QueryError
  | .failed e => some e
  | _ => none

theorem sampleActions_apart : ∃ s,
    Runs.run (CatalogService.step emptyText) (.start (sampleCatalog "s1") 8) sampleActions =
      some s ∧
    s.requests.map (fun r => r.phase.error?) = [none, some catalogSnapshotChanged] ∧
    GenerationsApart emptyText s := by
  have hrun : (Runs.run (CatalogService.step emptyText) (.start (sampleCatalog "s1") 8)
      sampleActions).map (fun s => s.requests.map fun r => r.phase.error?) =
        some [none, some catalogSnapshotChanged] := by decide +kernel
  obtain ⟨s, hs, herrors⟩ := Option.map_eq_some_iff.mp hrun
  exact ⟨s, hs, herrors, (generations_apart hs).1⟩

end InpxWebReader.Query
