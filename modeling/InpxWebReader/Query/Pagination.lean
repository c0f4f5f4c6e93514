import InpxWebReader.Query.LiveSessions
import InpxWebReader.Query.Obsolete

/-!
# Reading a result page by page

A reader asks for a first page and then, with the cursor of each page, for the next one, with any
limits. `Joined` says what the pages are: together they are the listing of the search from the
starting offset on, and each of them is what the statement with `LIMIT` and `OFFSET` answers.
`pages_join` proves it of every run of the service, and that the next page is there for a reader
whose session is alive.
-/

namespace InpxWebReader.Query

open Foundation Domain Database Program

/-! ### One search in several requests -/

/-- The query asks for another part of the same result. -/
def SameSearch (query query' : SearchQuery) : Prop :=
  query' = { query with offset := query'.offset, limit := query'.limit, cursor := query'.cursor }

theorem SameSearch.openSearch_eq {query query' : SearchQuery} (h : SameSearch query query')
    (fts : FullText) (db : Database) : openSearch fts db query' = openSearch fts db query := by
  rw [h]
  rfl

theorem SameSearch.orderedIds_eq {query query' : SearchQuery} (h : SameSearch query query')
    (fts : FullText) (db : Database) (ftsQuery : Bytes) :
    orderedIds fts db query' ftsQuery = orderedIds fts db query ftsQuery := by
  rw [h]
  exact orderedIds_congr rfl

theorem SameSearch.trans {query query' query'' : SearchQuery} (h : SameSearch query query')
    (h' : SameSearch query' query'') : SameSearch query query'' := by
  rw [SameSearch] at *
  rw [h', h]

def Request.page? (r : Request) : Option SearchPage :=
  match r.phase with
  | .done page => some page
  | _ => none

def Request.books (r : Request) : List Book := (r.page?.map SearchPage.books).getD []

def Request.limit (r : Request) : Nat := r.input.query.limit

/-- A request for what follows the page of another one. -/
def Request.Continues (r r' : Request) : Prop :=
  SameSearch r.input.query r'.input.query ∧ ∃ page cursor, r.page? = some page ∧
    page.nextCursor = some cursor ∧ r'.input.query.cursor = some cursor

/-- The requests of a reader that got their pages one after the other. -/
structure ReadThrough (s : CatalogService) (first : Request) (rest : List Request) : Prop where
  start : first.input.query.cursor = none
  known : ∀ r ∈ first :: rest, r ∈ s.requests
  answered : ∀ r ∈ first :: rest, r.page?.isSome = true
  chain : (first :: rest).IsChain Request.Continues

/-- What the pages of a reader are, for the version of the catalog that they come from. -/
structure Joined (fts : FullText) (db : Database) (ftsQuery : Bytes) (first : Request)
    (rest : List Request) : Prop where
  /-- The result is the list of the ids of the books that pass the filters, in order. -/
  listing : ∃ rows : List BookRow,
    rows.Perm (filteredBooks fts db first.input.query ftsQuery true true) ∧
    rows.Pairwise (fun a b => (bookOrder db first.input.query a b).isLE = true) ∧
    orderedIds fts db first.input.query ftsQuery = rows.map BookRow.id ∧
    (orderedIds fts db first.input.query ftsQuery).Nodup
  /-- The pages follow each other in it. -/
  ids : ((first :: rest).flatMap Request.books).map Book.id =
    ((orderedIds fts db first.input.query ftsQuery).drop first.input.query.offset).take
      ((first :: rest).map Request.limit).sum
  /-- A page ends the result exactly if it has no cursor. -/
  ends : ∀ before r after page, first :: rest = before ++ r :: after → r.page? = some page →
    (page.nextCursor = none ↔ (orderedIds fts db first.input.query ftsQuery).length ≤
      first.input.query.offset + ((before ++ [r]).map Request.limit).sum)
  /-- A page is what the statement with a limit and an offset answers. -/
  page : ∀ before r after page, first :: rest = before ++ r :: after → r.page? = some page →
    first.input.query.offset + (before.map Request.limit).sum < 2 ^ 63 → r.limit < 2 ^ 63 →
    searchBooks fts db { first.input.query with
      offset := first.input.query.offset + (before.map Request.limit).sum
      limit := r.limit } ftsQuery = .ok page.books
  /-- Where the last page has no cursor, nothing is missing. -/
  whole : ∀ before last page, first :: rest = before ++ [last] → last.page? = some page →
    page.nextCursor = none → ((first :: rest).flatMap Request.books).map Book.id =
      (orderedIds fts db first.input.query ftsQuery).drop first.input.query.offset

section Pages

variable {fts : FullText} {db : Database} {opened : OpenedSearch}

theorem page?_eq_some {r : Request} {page : SearchPage} :
    r.page? = some page ↔ r.phase = .done page := by
  rw [Request.page?]
  cases r.phase <;> simp

theorem searchBooks_eq {query : SearchQuery} {ftsQuery : Bytes} (hoffset : query.offset < 2 ^ 63)
    (hlimit : query.limit < 2 ^ 63) : searchBooks fts db query ftsQuery =
      readBooks db (((orderedIds fts db query ftsQuery).drop query.offset).take query.limit) := by
  unfold searchBooks toSqlitePaginationValue
  rw [if_neg (by omega), if_neg (by omega)]
  rfl

theorem bounds_of_searchBooks {query : SearchQuery} {ftsQuery : Bytes} {books : List Book}
    (h : searchBooks fts db query ftsQuery = .ok books) :
    query.offset < 2 ^ 63 ∧ query.limit < 2 ^ 63 := by
  unfold searchBooks toSqlitePaginationValue at h
  obtain ⟨limit, hlimit, h⟩ := except_bind_eq_ok h
  obtain ⟨offset, hoffset, h⟩ := except_bind_eq_ok h
  split at hlimit
  · cases hlimit
  split at hoffset
  · cases hoffset
  omega

theorem PageOf.ids {input : PageRequest} {page : SearchPage}
    (h : PageOf fts db input opened page) : page.books.map Book.id =
      ((orderedIds fts db input.query opened.ftsQuery).drop (pageStart input.query)).take
        input.query.limit :=
  ids_of_readBooks joined_of_slice h.books

end Pages

section Chain

variable {fts : FullText} {s : CatalogService}

theorem Sound.pageOf (hs : Sound fts s) {r : Request} (hr : r ∈ s.requests) {page : SearchPage}
    (hpage : r.page? = some page) :
    ∃ opened, PageOf fts (s.snapshot r.version) r.input opened page := by
  have hsound := hs.requests r hr
  rw [page?_eq_some.mp hpage] at hsound
  exact hsound

/-- A continuation begins where the page before it ends, in the same version. -/
theorem Sound.continues (hs : Sound fts s) {r r' : Request} (hr : r ∈ s.requests)
    (hr' : r' ∈ s.requests) (hdone : r'.page?.isSome = true) (h : r.Continues r') :
    r'.version = r.version ∧ pageStart r'.input.query = pageStart r.input.query + r.limit := by
  obtain ⟨_, page, cursor, hpage, hnext, hcursor⟩ := h
  obtain ⟨page', hpage'⟩ := Option.isSome_iff_exists.mp hdone
  obtain ⟨opened, hof⟩ := hs.pageOf hr hpage
  refine ⟨?_, ?_⟩
  · exact (hs.version_eq hr hr' (page?_eq_some.mp hpage) hnext hcursor
      (page?_eq_some.mp hpage')).symm
  · show pageStart r'.input.query = pageStart r.input.query + r.input.query.limit
    rw [← (hof.next cursor hnext).2.1]
    rw [pageStart]
    rw [hcursor]

/-- The requests of a chain are of one version and one search, and each begins where the pages
before it end. -/
theorem Sound.chain (hs : Sound fts s) {rest : List Request} : ∀ {first : Request},
    (∀ r ∈ first :: rest, r ∈ s.requests) → (∀ r ∈ first :: rest, r.page?.isSome = true) →
    (first :: rest).IsChain Request.Continues →
    ∀ before r after, first :: rest = before ++ r :: after →
      r.version = first.version ∧ SameSearch first.input.query r.input.query ∧
        pageStart r.input.query = pageStart first.input.query + (before.map Request.limit).sum := by
  induction rest with
  | nil =>
    intro first _ _ _ before r after hsplit
    cases before with
    | nil =>
      obtain ⟨rfl, _⟩ := List.cons.inj hsplit
      exact ⟨rfl, rfl, rfl⟩
    | cons b before =>
      have hlength := congrArg List.length hsplit
      simp at hlength
  | cons second rest ih =>
    intro first hknown hanswered hchain before r after hsplit
    obtain ⟨hcontinues, hchain⟩ := List.isChain_cons_cons.mp hchain
    cases before with
    | nil =>
      obtain ⟨rfl, _⟩ := List.cons.inj hsplit
      exact ⟨rfl, rfl, rfl⟩
    | cons b before =>
      obtain ⟨rfl, htail⟩ := List.cons.inj hsplit
      obtain ⟨hversion, hstart⟩ := hs.continues (hknown first (by simp)) (hknown second (by simp))
        (hanswered second (by simp)) hcontinues
      obtain ⟨hversion', hsearch, hstart'⟩ := ih (fun q hq => hknown q (List.mem_cons_of_mem _ hq))
        (fun q hq => hanswered q (List.mem_cons_of_mem _ hq)) hchain before r after htail
      refine ⟨hversion'.trans hversion, hcontinues.1.trans hsearch, ?_⟩
      rw [hstart', hstart, List.map_cons, List.sum_cons]
      omega

theorem ids_of_parts {ids : List Nat} {start : Nat} {rs : List Request}
    (h : ∀ before r after, rs = before ++ r :: after → r.books.map Book.id =
      (ids.drop (start + (before.map Request.limit).sum)).take r.limit) :
    (rs.flatMap Request.books).map Book.id =
      (ids.drop start).take (rs.map Request.limit).sum := by
  induction rs using List.reverseRecOn with
  | nil => rfl
  | append_singleton rs r ih =>
    have hrest := ih fun before q after hsplit => h before q (after ++ [r]) (by simp [hsplit])
    have hlast := h rs r [] rfl
    rw [List.flatMap_append, List.map_append, hrest, List.flatMap_singleton, hlast,
      List.map_append, List.sum_append, List.map_singleton, List.sum_singleton, List.take_add,
      List.drop_drop]

theorem Sound.joined (hs : Sound fts s) {first : Request} {rest : List Request}
    (h : ReadThrough s first rest) : ∃ ftsQuery,
      buildFtsQuery fts first.input.query = .ok ftsQuery ∧
      Joined fts (s.snapshot first.version) ftsQuery first rest := by
  obtain ⟨page, hpage⟩ := Option.isSome_iff_exists.mp (h.answered first List.mem_cons_self)
  obtain ⟨opened, hof⟩ := hs.pageOf (h.known first List.mem_cons_self) hpage
  -- every page of the chain is a page of the first request's version and listing
  have hpart : ∀ before r after page, first :: rest = before ++ r :: after →
      r.page? = some page → PageOf fts (s.snapshot first.version) r.input opened page ∧
        SameSearch first.input.query r.input.query ∧
        pageStart r.input.query =
          first.input.query.offset + (before.map Request.limit).sum := by
    intro before r after page hsplit hpage
    have hr : r ∈ first :: rest := by
      rw [hsplit]
      simp
    obtain ⟨hversion, hsearch, hstart⟩ :=
      hs.chain h.known h.answered h.chain before r after hsplit
    obtain ⟨opened', hof'⟩ := hs.pageOf (h.known r hr) hpage
    have hopened : opened' = opened := by
      have hreads := hof'.reads
      rw [hversion, hsearch.openSearch_eq, hof.reads] at hreads
      exact (Except.ok.inj hreads).symm
    rw [hversion, hopened] at hof'
    rw [pageStart_of_first h.start] at hstart
    exact ⟨hof', hsearch, hstart⟩
  have hids : ((first :: rest).flatMap Request.books).map Book.id =
      ((orderedIds fts (s.snapshot first.version) first.input.query opened.ftsQuery).drop
        first.input.query.offset).take ((first :: rest).map Request.limit).sum := by
    apply ids_of_parts
    intro before r after hsplit
    obtain ⟨page, hpage⟩ := Option.isSome_iff_exists.mp (h.answered r (by rw [hsplit]; simp))
    obtain ⟨hof', hsearch, hstart⟩ := hpart before r after page hsplit hpage
    show (((r.page?.map SearchPage.books).getD []).map Book.id) = _
    rw [hpage, ← hstart, ← hsearch.orderedIds_eq]
    exact hof'.ids
  have hends : ∀ before r after page, first :: rest = before ++ r :: after →
      r.page? = some page → (page.nextCursor = none ↔
        (orderedIds fts (s.snapshot first.version) first.input.query opened.ftsQuery).length ≤
          first.input.query.offset + ((before ++ [r]).map Request.limit).sum) := by
    intro before r after page hsplit hpage
    obtain ⟨hof', hsearch, hstart⟩ := hpart before r after page hsplit hpage
    rw [hof'.ends, hsearch.orderedIds_eq, hstart, List.map_append, List.sum_append,
      List.map_singleton, List.sum_singleton, Nat.add_assoc]
    rfl
  refine ⟨opened.ftsQuery, (identity_of_openSearch hof.reads).2.1, ?_⟩
  refine {
    listing := ⟨_, Sorting.orderBy_perm _ _, listedBooks_sorted, rfl, orderedIds_nodup⟩
    ids := hids
    ends := hends
    page := ?_
    whole := ?_ }
  · intro before r after page hsplit hpage hoffset hlimit
    obtain ⟨hof', hsearch, hstart⟩ := hpart before r after page hsplit hpage
    have hbooks := hof'.books
    rw [hstart, hsearch.orderedIds_eq] at hbooks
    exact (searchBooks_eq (by exact hoffset) (by exact hlimit)).trans hbooks
  · intro before last page hlast hpage hnone
    have hlength := (hends before last [] page hlast hpage).mp hnone
    rw [hids, List.take_of_length_le]
    rw [List.length_drop, hlast]
    omega

end Chain

/-! ### The next page is there -/

theorem exact_advance {fts : FullText} {db : Database} {current : Except Failure CatalogIdentity}
    {answers : Answers} {r : Request} {store store' : SessionStore} {phase : Phase}
    (hs : Exact store) (h : r.advance fts db current answers store = some (phase, store')) :
    Exact store' := by
  have hcall : ∀ {α : Type} {call : StoreM α} {ok : α → Phase} {error : QueryError → Phase},
      Triple Exact call (fun _ => Exact) (Ends Exact) →
      afterCall call store ok error = some (phase, store') → Exact store' := by
    intro α call ok error htriple hafter
    exact (afterCall_keeps (q := fun _ => True) htriple hs (fun _ _ ht => ⟨ht, trivial⟩)
      (fun _ _ he hne => ⟨he.holds hne, trivial⟩) hafter).1
  have hends : ∀ e s, e = QueryError.terminated → Ends Exact e s := fun _ _ he => Or.inl he
  rw [Request.advance] at h
  cases hphase : r.phase with
  | opened =>
    rw [hphase] at h
    replace h : startRequest fts db answers r.input store = some (phase, store') := h
    rw [startRequest] at h
    cases hopen : openSearch fts db r.input.query with
    | error e =>
      rw [hopen] at h
      obtain ⟨_, rfl⟩ := Prod.mk.inj (Option.some.inj h)
      exact hs
    | ok opened =>
      rw [hopen] at h
      dsimp only at h
      split at h
      · exact hcall (readSlice_exact _ _ _ _) h
      · obtain ⟨_, rfl⟩ := Prod.mk.inj (Option.some.inj h)
        exact hs
  | reserving opened plan =>
    rw [hphase] at h
    exact hcall (reserve_exact _ _ _ _) h
  | filling opened plan reservation =>
    rw [hphase] at h
    obtain ⟨_, rfl⟩ := Prod.mk.inj (Option.some.inj h)
    exact hs
  | publishing opened plan ids page reservation =>
    rw [hphase] at h
    exact hcall (publish_exact _ _ _ _ _ _ _ _) h
  | checking opened page cursor =>
    rw [hphase] at h
    exact hcall (((validate_ends _ _).post fun _ _ ht => ht.2).error fun _ _ he => Or.inr he.2) h
  | removing cursor e =>
    rw [hphase] at h
    exact hcall ((removeSearchSession_exact _).error hends) h
  | releasing reservation e =>
    rw [hphase] at h
    exact hcall ((release_exact _).error hends) h
  | done page =>
    rw [hphase] at h
    cases h
  | failed e =>
    rw [hphase] at h
    cases h

theorem exact_step {fts : FullText} {s s' : CatalogService} {action : ServiceAction}
    (hs : Exact s.store) (h : s.step fts action = some s') : Exact s'.store := by
  cases action with
  | commit db =>
    obtain ⟨_, ⟨⟩⟩ := Option.ite_none_right_eq_some.mp h
    exact hs
  | begin input =>
    injection h with h
    rw [← h]
    exact hs
  | advance index answers =>
    obtain ⟨r, phase, store, _, hadvance, rfl⟩ := advance_eq_some.mp h
    exact exact_advance hs hadvance
  | rehash sessions =>
    obtain ⟨hperm, ⟨⟩⟩ := Option.ite_none_right_eq_some.mp h
    refine ⟨?_, hs.capacity⟩
    show s.store.usedIdCount = totalIds sessions
    rw [hs.counted]
    exact ((hperm.map fun t => t.bookIds.length).sum_eq).symm

theorem exact_of_run {fts : FullText} {db : Database} {aggregateIdCapacity : Nat}
    (hcap : aggregateIdCapacity < sizeLimit) {actions : List ServiceAction} {s : CatalogService}
    (h : Runs.run (CatalogService.step fts) (.start db aggregateIdCapacity) actions = some s) :
    Exact s.store := by
  have hstart : Exact (CatalogService.start db aggregateIdCapacity).store := ⟨rfl, hcap⟩
  exact Runs.run_invariant (I := fun s => Exact s.store)
    (fun _ _ _ hs hstep => exact_step hs hstep) h hstart

/-! ### The result -/

section Result

variable {fts : FullText} {s : CatalogService}

/-- A version with books names its source and its snapshot. -/
theorem named_snapshot {db : Database} (hs : Sound fts s) (hfollows : [db] <+: s.versions)
    (hdb : Named db ∨ db.locations.rows = []) {version : Nat} (hlt : version < s.versions.length)
    {query : SearchQuery} {ftsQuery : Bytes}
    (hne : orderedIds fts (s.snapshot version) query ftsQuery ≠ []) :
    Named (s.snapshot version) := by
  rcases Nat.eq_zero_or_pos version with rfl | hpos
  · obtain ⟨newer, hversions⟩ := hfollows
    have hfirst : s.snapshot 0 = db := by
      rw [CatalogService.snapshot]
      rw [← hversions]
      rfl
    rw [hfirst] at hne ⊢
    rcases hdb with hnamed | hempty
    · exact hnamed
    · -- without locations no book passes the filters
      exfalso
      apply hne
      rw [List.eq_nil_iff_forall_not_mem]
      intro id hid
      obtain ⟨r, hr, _⟩ := joinedBook_isSome_of_mem hid
      obtain ⟨row, _, hr⟩ := Option.bind_eq_some_iff.mp hr
      obtain ⟨location, hlocation, _⟩ := Option.bind_eq_some_iff.mp hr
      have hmem := (Table.find?_eq_some.mp hlocation).1
      rw [hempty] at hmem
      cases hmem
  · exact hs.named version hpos hlt

/-- Of a version that names itself, the cursor of a page that follows at least one book is valid. -/
theorem PageOf.cursor_valid {db : Database} {input : PageRequest} {opened : OpenedSearch}
    {page : SearchPage} (h : PageOf fts db input opened page) (hnamed : Named db)
    (hlimit : 0 < input.query.limit) {cursor : SearchCursor}
    (hnext : page.nextCursor = some cursor) : cursor.isValid = true := by
  obtain ⟨hof, hposition, hid⟩ := h.next cursor hnext
  obtain ⟨identity, hidentity, hfingerprint, hsnapshot⟩ := hnamed
  rw [(identity_of_openSearch h.reads).1] at hidentity
  rw [← Except.ok.inj hidentity] at hfingerprint hsnapshot
  rw [SearchCursor.isValid_iff]
  refine ⟨hid, ?_, ?_, ?_⟩
  · rw [hof.1]
    exact hfingerprint
  · rw [hof.2]
    exact hsnapshot
  · omega

/-- The books of a slice of the listing are all there. -/
theorem length_readBooks {db : Database} {query : SearchQuery} {ftsQuery : Bytes}
    {start limit : Nat} {books : List Book}
    (h : readBooks db (((orderedIds fts db query ftsQuery).drop start).take limit) = .ok books) :
    books.length = (((orderedIds fts db query ftsQuery).drop start).take limit).length := by
  rw [← ids_of_readBooks joined_of_slice h, List.length_map]

theorem Sound.next_page (hs : Sound fts s) (hexact : Exact s.store) {r r' : Request}
    {page : SearchPage} {cursor : SearchCursor} (hr : r ∈ s.requests)
    (hpage : r.page? = some page) (hnext : page.nextCursor = some cursor)
    (hvalid : cursor.isValid = true) {index : Nat} (hindex : s.requests[index]? = some r')
    (hphase : r'.phase = .opened) (hversion : r'.version = r.version)
    (hsearch : SameSearch r.input.query r'.input.query)
    (hcursor : r'.input.query.cursor = some cursor) {answers : Answers} {session : Session}
    {opened : OpenedSearch}
    (hreads : openSearch fts (s.snapshot r.version) r.input.query = .ok opened)
    (halive : Alive s.store cursor opened.criteria answers.now session) {books : List Book}
    (hbooks : searchBooks fts (s.snapshot r.version)
      { r'.input.query with offset := cursor.position } opened.ftsQuery = .ok books) :
    ∃ s' page', s.step fts (.advance index answers) = some s' ∧
      s'.requests[index]? = some { r' with phase := .done page' } ∧ page'.books = books := by
  obtain ⟨opened', hof⟩ := hs.pageOf hr hpage
  obtain rfl : opened = opened' := Except.ok.inj (hreads.symm.trans hof.reads)
  obtain ⟨hcursorOf, hposition, _⟩ := hof.next cursor hnext
  -- the session keeps the listing of the search
  have hlisting : session.bookIds =
      orderedIds fts (s.snapshot r.version) r.input.query opened.ftsQuery :=
    hs.listing (hs.store.sessions session halive.stored) (hs.version r hr) hreads
      ⟨halive.identity.1.trans hcursorOf.1, halive.identity.2.trans hcursorOf.2⟩ halive.criteria
  have hmore : cursor.position < session.bookIds.length := by
    rw [hlisting, hposition]
    by_contra hle
    rw [hof.ends.mpr (by omega)] at hnext
    cases hnext
  obtain ⟨store', hslice⟩ :=
    readSlice_alive hexact hcursor hvalid hcursorOf halive hmore
  obtain ⟨hoffset, hlimit⟩ := bounds_of_searchBooks hbooks
  have hsame := hsearch.orderedIds_eq fts (s.snapshot r.version) opened.ftsQuery
  have hids : (sliceOf session cursor r'.input.query.limit).ids =
      ((orderedIds fts (s.snapshot r.version) r'.input.query opened.ftsQuery).drop
        cursor.position).take r'.input.query.limit := by
    rw [sliceOf_ids, hlisting, hsame]
  have hread : readBooks (s.snapshot r.version)
      (sliceOf session cursor r'.input.query.limit).ids = .ok books := by
    rw [hids]
    exact (searchBooks_eq (by exact hoffset) (by exact hlimit)).symm.trans hbooks
  have hlength : books.length = (sliceOf session cursor r'.input.query.limit).ids.length := by
    rw [hids] at hread ⊢
    exact length_readBooks hread
  obtain ⟨page', hcontinued, hpage'⟩ : ∃ page', continuedPage (s.snapshot r.version) opened
      (sliceOf session cursor r'.input.query.limit) = .ok page' ∧ page'.books = books := by
    rw [continuedPage]
    rw [hread]
    show ∃ page', (if books.length ≠ _ then _ else _) = _ ∧ _
    rw [if_neg (not_not.mpr hlength)]
    exact ⟨_, rfl, rfl⟩
  have hadvance : r'.advance fts (s.snapshot r'.version) (s.current answers) answers s.store =
      some (.done page', store') := by
    rw [Request.advance]
    rw [hphase]
    show Query.startRequest _ _ _ _ _ = _
    rw [Query.startRequest]
    rw [hversion, hsearch.openSearch_eq, hreads]
    dsimp only
    rw [if_pos (by rw [hcursor]; rfl), afterCall_eq_some]
    refine Or.inl ⟨_, hslice, ?_⟩
    rw [hcontinued]
    rfl
  refine ⟨_, page', advance_eq_some.mpr ⟨r', _, store', hindex, hadvance, rfl⟩, ?_, hpage'⟩
  exact List.getElem?_set_self (List.getElem?_eq_some_iff.mp hindex).1

/-- Reading page by page loses and repeats nothing, whatever the limits are and whatever else
happens in between; and as long as its session is alive, a reader gets the next page whenever the
statement with the limit and the offset of that page has an answer. -/
theorem pages_join {db : Database} {aggregateIdCapacity : Nat}
    (hcap : aggregateIdCapacity < sizeLimit) (hdb : Named db ∨ db.locations.rows = [])
    {actions : List ServiceAction}
    (hrun : Runs.run (CatalogService.step fts) (.start db aggregateIdCapacity) actions = some s) :
    (∀ first rest, ReadThrough s first rest → ∃ ftsQuery,
      buildFtsQuery fts first.input.query = .ok ftsQuery ∧
      Joined fts (s.snapshot first.version) ftsQuery first rest) ∧
    ∀ r ∈ s.requests, 0 < r.limit → ∀ page cursor, r.page? = some page →
      page.nextCursor = some cursor → ∀ index r', s.requests[index]? = some r' →
      r'.phase = .opened → r'.version = r.version →
      SameSearch r.input.query r'.input.query → r'.input.query.cursor = some cursor →
      ∀ opened, openSearch fts (s.snapshot r.version) r.input.query = .ok opened →
      ∀ answers session, Alive s.store cursor opened.criteria answers.now session →
      ∀ books, searchBooks fts (s.snapshot r.version)
        { r'.input.query with offset := cursor.position } opened.ftsQuery = .ok books →
      ∃ s' page', s.step fts (.advance index answers) = some s' ∧
        s'.requests[index]? = some { r' with phase := .done page' } ∧ page'.books = books := by
  have hs := sound_of_run hrun
  refine ⟨fun first rest h => hs.joined h, ?_⟩
  intro r hr hlimit page cursor hpage hnext index r' hindex hphase hversion hsearch hcursor opened
    hreads answers session halive books hbooks
  obtain ⟨opened', hof⟩ := hs.pageOf hr hpage
  have hne : orderedIds fts (s.snapshot r.version) r.input.query opened'.ftsQuery ≠ [] := by
    intro hnil
    rw [hof.ends.mpr (by rw [hnil]; exact Nat.zero_le _)] at hnext
    cases hnext
  have hnamed := named_snapshot hs (follows_of_run hrun).versions hdb (hs.version r hr) hne
  exact hs.next_page (exact_of_run hcap hrun) hr hpage hnext (hof.cursor_valid hnamed hlimit hnext)
    hindex hphase hversion hsearch hcursor hreads halive hbooks

end Result

/-- The cursor of the first page of the sample. -/
def sampleCursor : SearchCursor :=
  ⟨hexText (List.replicate 16 7), ascii "f", ascii "s1", 2⟩

/-- Two books, and with the cursor of their page the rest. -/
def sampleReading : List ServiceAction :=
  [.begin ⟨{ limit := 2 }, false, false⟩] ++ List.replicate 5 (.advance 0 sampleAnswers) ++
    [.begin ⟨{ limit := 7, cursor := some sampleCursor }, false, false⟩, .advance 1 sampleAnswers]

theorem sampleReading_joined : ∃ s first second ftsQuery,
    Runs.run (CatalogService.step emptyText) (.start (sampleCatalog "s1") 8) sampleReading =
      some s ∧
    ([first, second].flatMap Request.books).map Book.id = [2, 3, 1] ∧
    Joined emptyText (s.snapshot first.version) ftsQuery first [second] := by
  have hrun : (Runs.run (CatalogService.step emptyText) (.start (sampleCatalog "s1") 8)
      sampleReading).map (fun s => s.requests.map fun r =>
        (r.input.query, (r.page?.map SearchPage.nextCursor), r.books.map Book.id)) =
      some [({ limit := 2 }, some (some sampleCursor), [2, 3]),
        ({ limit := 7, cursor := some sampleCursor }, some none, [1])] := by decide +kernel
  obtain ⟨s, hs, hrequests⟩ := Option.map_eq_some_iff.mp hrun
  obtain ⟨first, rest, hlist, hfirst, hrest⟩ := List.map_eq_cons_iff.mp hrequests
  obtain ⟨second, _, rfl, hsecond, hnil⟩ := List.map_eq_cons_iff.mp hrest
  rw [List.map_eq_nil_iff.mp hnil] at hlist
  simp only [Prod.mk.injEq] at hfirst hsecond
  obtain ⟨hquery, hpage, hids⟩ := hfirst
  obtain ⟨hquery', hpage', hids'⟩ := hsecond
  obtain ⟨page, hfirstPage, hnext⟩ := Option.map_eq_some_iff.mp hpage
  obtain ⟨page', hsecondPage, _⟩ := Option.map_eq_some_iff.mp hpage'
  have hread : ReadThrough s first [second] := by
    refine {
      start := by rw [hquery]
      known := ?_
      answered := ?_
      chain := ?_ }
    · intro r hr
      rw [hlist]
      exact hr
    · intro r hr
      simp only [List.mem_cons, List.not_mem_nil, or_false] at hr
      rcases hr with rfl | rfl
      · rw [hfirstPage]
        rfl
      · rw [hsecondPage]
        rfl
    · rw [List.isChain_cons_cons]
      refine ⟨⟨?_, page, sampleCursor, hfirstPage, hnext, by rw [hquery']⟩, .singleton _⟩
      rw [hquery, hquery']
      rfl
  obtain ⟨ftsQuery, _, hjoined⟩ :=
    (pages_join (by decide) (Or.inl (by decide +kernel)) hs).1 first [second] hread
  refine ⟨s, first, second, ftsQuery, hs, ?_, hjoined⟩
  rw [List.flatMap_cons, List.flatMap_singleton, List.map_append, hids, hids']
  rfl

end InpxWebReader.Query
