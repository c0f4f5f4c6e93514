import InpxWebReader.System.Library
import InpxWebReader.Web.CursorBookPages
import InpxWebReader.Web.ServerPages

/-!
# Browsing the library

The browser pages through a listing while scans commit new versions of the catalog and the INPX file
changes. `BookServer` puts the server together: what the requests of the browser are parsed into,
the catalog that answers them and the state of the source that goes with each answer. Its answers
are what the hook of the browser was verified for, so the pages on the screen are a reader's pages
of one version of the catalog: `grid_shows_catalog`.
-/

namespace InpxWebReader.System

open Foundation Domain Database Scan Server Query App
open Web (BookListItem BookListResponse BookQuery PaginationSession CursorBookPages PagesAction
  CatalogPageStore QueryCodec buildBookListPath buildBookListParams buildBooksJson
  findBookInPageChunks fromStart listItem pageRequest)

/-! ### The server -/

/-- The server: what reads the requests and writes the answers, the catalog and the source. -/
structure BookServer where
  codec : QueryCodec
  json : JsonText
  sha : Sha256
  maxPageSize : Nat
  converter : Bool
  catalog : CatalogService
  source : SourceService

/-- The page that the browser gets for a request that the catalog is done with, and the state of
the source that was asked for with it. -/
structure BookServer.Gives (server : BookServer) (request : BookListRequest) (r : Request)
    (page : BookListResponse BookListItem) : Prop where
  known : r ∈ server.catalog.requests
  input : r.input = pageRequest request
  page : ∃ p answer, r.page? = some p ∧ answer ∈ server.source.answers ∧
    answer.call = .listBooks p.sourceFingerprint ∧
    buildBooksJson server.json server.sha answer.state server.converter p request = .ok page

/-- The answers to `getBooks`. -/
def BookServer.answers (server : BookServer) : Web.Answers BookListItem :=
  fun query _ cursor page => ∃ request r,
    parseBookListRequest server.json server.sha
      (server.codec.targetParams (buildBookListPath server.codec (fromStart query)
        (cursor.getD []))) server.maxPageSize = .ok request ∧
    server.Gives request r page

/-- What is assumed of the paths and cursors of a session: the server reads the parameters that the
browser wrote, and the JSON library the cursors that it wrote. A position is a `std::size_t`. -/
structure BookServer.Carries (server : BookServer) (session : PaginationSession BookListItem) :
    Prop where
  paths : ∀ cursor, cursor = [] ∨
      (∃ page ∈ session.pageStore.pages, page.nextCursor = some cursor) →
    server.codec.RoundTripsOn (fromStart session.query) cursor
  cursors : ∀ r ∈ server.catalog.requests, ∀ p c, r.page? = some p → p.nextCursor = some c →
    c.position < 2 ^ 64 ∧ ∀ request fingerprint, r.input = pageRequest request →
      buildQueryFingerprint server.json server.sha request = some fingerprint →
      server.json.RoundTripsOn {.object (cursorMembers c fingerprint)}

/-- A request of the same query, for any part of its result. -/
def UpToCursor (request request' : BookListRequest) : Prop :=
  request' = { request with cursor := request'.cursor }

section Requests

variable {server : BookServer} {session : PaginationSession BookListItem}
  {request request' first : BookListRequest} {r r' : Request}
  {page page' : BookListResponse BookListItem}

theorem UpToCursor.sameSearch (h : UpToCursor first request) (h' : UpToCursor first request') :
    SameSearch request.toDomainQuery request'.toDomainQuery := by
  rw [h, h']
  rfl

theorem gives_next (hcarries : server.Carries session)
    (hpath : ∀ cursor, page.nextCursor = some cursor →
      server.codec.RoundTripsOn (fromStart session.query) cursor)
    (hfirst : parseBookListRequest server.json server.sha
      (buildBookListParams (fromStart session.query) []) server.maxPageSize = .ok first)
    (hrequest : UpToCursor first request) (hgives : server.Gives request r page)
    {token : Web.Text} {cursor : Bytes} (hcursor : page.nextCursor = some cursor)
    (hanswer : server.answers session.query token (some cursor) page') :
    ∃ request' r', UpToCursor first request' ∧ server.Gives request' r' page' ∧ r.Continues r' := by
  obtain ⟨p, answer, hp, _, _, hjson⟩ := hgives.page
  obtain ⟨_, _, _, _, hnext⟩ := Web.buildBooksJson_eq_ok hjson
  obtain ⟨c, hc, hencoded⟩ := hnext cursor hcursor
  obtain ⟨request', r', hparse, hgives'⟩ := hanswer
  have hpath : server.codec.targetParams (buildBookListPath server.codec (fromStart session.query)
      ((some cursor).getD [])) = buildBookListParams (fromStart session.query) cursor :=
    hpath cursor hcursor
  rw [hpath, (Web.parseBookListRequest_continuation hfirst).2.2 cursor
    (Web.encodeCursor_ne_nil hencoded)] at hparse
  cases hdecoded : decodeCursor server.json server.sha cursor first with
  | error e =>
    rw [hdecoded] at hparse
    cases hparse
  | ok c' =>
    rw [hdecoded] at hparse
    cases hparse
    obtain ⟨hposition, hpayload⟩ := hcarries.cursors r hgives.known p c hp hc
    obtain rfl := Web.decodeCursor_eq_of_encodeCursor hencoded
      (fun fingerprint hf => hpayload request fingerprint hgives.input hf) hposition hdecoded
    have hnext : UpToCursor first { first with cursor := some c' } := rfl
    refine ⟨_, r', hnext, hgives', ?_, p, c', hp, hc, ?_⟩
    · rw [hgives.input, hgives'.input]
      exact hrequest.sameSearch hnext
    · rw [hgives'.input]
      rfl

/-- The pages after a page come from requests that continue each other. -/
theorem exists_requests (hcarries : server.Carries session)
    (hfirst : parseBookListRequest server.json server.sha
      (buildBookListParams (fromStart session.query) []) server.maxPageSize = .ok first)
    {token : Web.Text} {pages : List (BookListResponse BookListItem)} :
    ∀ {page r request}, UpToCursor first request → server.Gives request r page →
    (∀ page' ∈ page :: pages, ∀ cursor, page'.nextCursor = some cursor →
      server.codec.RoundTripsOn (fromStart session.query) cursor) →
    (page :: pages).IsChain (fun page next => ∃ cursor, page.nextCursor = some cursor ∧
      server.answers session.query token (some cursor) next) →
    ∃ rest, List.Forall₂ (fun page r => ∃ request, UpToCursor first request ∧
        server.Gives request r page) (page :: pages) (r :: rest) ∧
      (r :: rest).IsChain Request.Continues := by
  induction pages with
  | nil =>
    intro page r request hrequest hgives _ _
    exact ⟨[], .cons ⟨request, hrequest, hgives⟩ .nil, .singleton _⟩
  | cons next pages ih =>
    intro page r request hrequest hgives hpaths hchain
    obtain ⟨⟨cursor, hcursor, hanswer⟩, hrest⟩ := List.isChain_cons_cons.mp hchain
    obtain ⟨request', r', hrequest', hgives', hcontinues⟩ := gives_next hcarries
      (hpaths page List.mem_cons_self) hfirst hrequest hgives hcursor hanswer
    obtain ⟨rest, hgiven, hlinked⟩ := ih hrequest' hgives'
      (fun page' hp => hpaths page' (List.mem_cons_of_mem _ hp)) hrest
    exact ⟨r' :: rest, .cons ⟨request, hrequest, hgives⟩ hgiven,
      List.isChain_cons_cons.mpr ⟨hcontinues, hlinked⟩⟩

end Requests

/-! ### What is on the screen -/

/-- The books of the pages, in the order of the grid. -/
def shownItems (session : PaginationSession BookListItem) : List BookListItem :=
  session.pageStore.pages.flatMap BookListResponse.items

/-- The query of a session asks for everything. -/
def AsksForAll (query : BookQuery) : Prop :=
  Web.trim query.text = [] ∧ query.language = [] ∧ query.genre = []

/-- The catalog was asked what the query says. -/
structure Asked (query : BookQuery) (asked : SearchQuery) : Prop where
  text : asked.text = Web.encodeText (Web.trim query.text)
  fields : asked.searchFields = query.scope
  language : ',' ∉ query.language → asked.languages = Web.selection query.language
  genre : ',' ∉ query.genre → asked.genres = Web.selection query.genre
  offset : asked.offset = 0

/-- The pages of a session are those of a reader of one version of the catalog, and `ids` is the
listing of that version. -/
structure Shows (server : BookServer) (session : PaginationSession BookListItem) (first : Request)
    (rest : List Request) (ids : List Nat) : Prop where
  asked : Asked session.query first.input.query
  reads : ReadThrough server.catalog first rest
  /-- The items are books that the catalog answered with. -/
  items : List.Forall₂ (fun item book => ∃ canDownload canDownloadEpub,
    item = listItem canDownload canDownloadEpub book) (shownItems session)
    ((first :: rest).flatMap Request.books)
  /-- They are the first books of the listing, none missing and none twice. -/
  shown : (shownItems session).map BookListItem.id = ids.take (shownItems session).length
  /-- The grid finds the book of each row. -/
  found : ∀ index : Nat, (findBookInPageChunks session.pageStore.pages index).1.map
    BookListItem.id = (ids.take (shownItems session).length)[index]?
  /-- The number of books that is shown is that of the listing. -/
  total : ∀ page ∈ session.pageStore.pages.head?, page.totalCount = some ids.length
  /-- Where there is nothing more to load, the whole listing is there. -/
  complete : session.nextCursor = none → (shownItems session).map BookListItem.id = ids ∧
    ∃ before last p, first :: rest = before ++ [last] ∧ last.page? = some p ∧ p.nextCursor = none
  /-- Each item has the actions that the source allowed when its page was made. -/
  offers : ∀ item ∈ shownItems session, ∃ r ∈ first :: rest, ∃ p answer, r.page? = some p ∧
    answer ∈ server.source.answers ∧ answer.call = .listBooks p.sourceFingerprint ∧
    ∃ book, item = listItem answer.state.canDownload
      (answer.state.canDownload && server.converter) book

theorem forall₂_flatMap {α β γ δ : Type} {R : α → β → Prop} {Q : γ → δ → Prop}
    {f : α → List γ} {g : β → List δ} {xs : List α} {ys : List β} (h : List.Forall₂ R xs ys)
    (hR : ∀ x y, R x y → List.Forall₂ Q (f x) (g y)) :
    List.Forall₂ Q (xs.flatMap f) (ys.flatMap g) := by
  induction h with
  | nil => exact .nil
  | cons hxy _ ih =>
    rw [List.flatMap_cons, List.flatMap_cons]
    exact List.rel_append (hR _ _ hxy) ih

theorem forall₂_concat {α β : Type} {R : α → β → Prop} {xs : List α} {x : α} {ys : List β}
    (h : List.Forall₂ R (xs ++ [x]) ys) : ∃ zs y, ys = zs ++ [y] ∧ R x y := by
  rw [← List.forall₂_reverse_iff, List.reverse_append, List.reverse_singleton,
    List.singleton_append] at h
  cases hys : ys.reverse with
  | nil =>
    rw [hys] at h
    cases h
  | cons y zs =>
    rw [hys] at h
    refine ⟨zs.reverse, y, ?_, (List.forall₂_cons.mp h).1⟩
    rw [← List.reverse_cons, ← hys, List.reverse_reverse]

theorem forall₂_mem_right {α β : Type} {R : α → β → Prop} {xs : List α} {ys : List β}
    (h : List.Forall₂ R xs ys) {y : β} (hy : y ∈ ys) : ∃ x ∈ xs, R x y := by
  induction h with
  | nil => cases hy
  | cons hxy _ ih =>
    rcases List.mem_cons.mp hy with rfl | hy
    · exact ⟨_, List.mem_cons_self, hxy⟩
    · obtain ⟨x, hx, hxy⟩ := ih hy
      exact ⟨x, List.mem_cons_of_mem _ hx, hxy⟩

section Screen

variable {server : BookServer} {session : PaginationSession BookListItem} {first : BookListRequest}
  {r : Request} {page : BookListResponse BookListItem}

theorem BookServer.Gives.items (h : server.Gives first r page) :
    List.Forall₂ (fun item book => ∃ canDownload canDownloadEpub,
      item = listItem canDownload canDownloadEpub book) page.items r.books := by
  obtain ⟨p, answer, hp, _, _, hjson⟩ := h.page
  rw [(Web.buildBooksJson_eq_ok hjson).1, Request.books, hp]
  show List.Forall₂ _ (p.books.map _) p.books
  rw [List.forall₂_map_left_iff, List.forall₂_same]
  exact fun book _ => ⟨_, _, rfl⟩

/-- The pages of a session come from a reader's requests. -/
theorem exists_reader (hcarries : server.Carries session)
    (hanswered : Web.Answered server.answers session) {pages : List (BookListResponse BookListItem)}
    (hpages : session.pageStore.pages = page :: pages) :
    ∃ request r rest, parseBookListRequest server.json server.sha
        (buildBookListParams (fromStart session.query) []) server.maxPageSize = .ok request ∧
      r.input = pageRequest request ∧ page.offset = 0 ∧
      List.Forall₂ (fun page r => ∃ request', server.Gives request' r page) (page :: pages)
        (r :: rest) ∧
      ReadThrough server.catalog r rest := by
  obtain ⟨request, r, hparse, hgives⟩ := hanswered.first page (by rw [hpages]; rfl)
  have hpath : server.codec.targetParams (buildBookListPath server.codec (fromStart session.query)
      ((none : Option Bytes).getD [])) = buildBookListParams (fromStart session.query) [] :=
    hcarries.paths [] (.inl rfl)
  rw [hpath] at hparse
  obtain ⟨hcursor, hoffset, _⟩ := Web.parseBookListRequest_continuation hparse
  have hself : UpToCursor request request := rfl
  have hchain := hanswered.chain
  rw [hpages] at hchain
  obtain ⟨rest, hgiven, hlinked⟩ := exists_requests hcarries hparse hself hgives
    (fun page' hp cursor hc => hcarries.paths cursor (.inr ⟨page', hpages ▸ hp, hc⟩)) hchain
  have hgiven : List.Forall₂ (fun page r => ∃ request', server.Gives request' r page)
      (page :: pages) (r :: rest) := hgiven.imp fun _ _ ⟨request', _, h⟩ => ⟨request', h⟩
  have hall : ∀ q ∈ r :: rest, ∃ page' request', server.Gives request' q page' := by
    intro q hq
    obtain ⟨page', _, request', hg⟩ := forall₂_mem_right hgiven hq
    exact ⟨page', request', hg⟩
  refine ⟨request, r, rest, hparse, hgives.input, ?_, hgiven, ?_⟩
  · obtain ⟨p, answer, _, _, _, hjson⟩ := hgives.page
    rw [(Web.buildBooksJson_eq_ok hjson).2.2.1, hcursor]
    exact hoffset
  · refine ⟨?_, fun q hq => ?_, fun q hq => ?_, hlinked⟩
    · rw [hgives.input]
      exact hcursor
    · obtain ⟨_, _, hg⟩ := hall q hq
      exact hg.known
    · obtain ⟨_, _, hg⟩ := hall q hq
      obtain ⟨p, _, hp, _⟩ := hg.page
      exact Option.isSome_of_eq_some hp

/-- The pages on the screen, for a catalog whose pages join. -/
theorem shows_of_answered {fts : FullText} (hsound : Sound fts server.catalog)
    (hcarries : server.Carries session) (hanswered : Web.Answered server.answers session)
    (hnodup : session.query.fields.Nodup) (hne : session.pageStore.pages ≠ []) :
    ∃ first rest ftsQuery, buildFtsQuery fts first.input.query = .ok ftsQuery ∧
      Shows server session first rest (orderedIds fts (server.catalog.snapshot first.version)
        first.input.query ftsQuery) := by
  obtain ⟨page, pages, hpages⟩ := List.exists_cons_of_ne_nil hne
  obtain ⟨request, r, rest, hparse, hinput, hoffset, hgiven, hread⟩ :=
    exists_reader hcarries hanswered hpages
  obtain ⟨ftsQuery, hfts, hjoined⟩ := hsound.joined hread
  obtain ⟨request', hparse', htext, hfields, hlanguages, hgenres, hstart⟩ :=
    Web.parseBookListRequest_buildBookListParams (fromStart session.query) server.json server.sha
      server.maxPageSize hnodup
  rw [hparse, Except.ok.injEq] at hparse'
  subst hparse'
  have hzero : r.input.query.offset = 0 := by
    rw [hinput]
    exact hstart
  -- the items are the books of the requests, so they have their ids
  have hitems : List.Forall₂ (fun item book => ∃ canDownload canDownloadEpub,
      item = listItem canDownload canDownloadEpub book) (shownItems session)
      ((r :: rest).flatMap Request.books) := by
    rw [shownItems, hpages]
    exact forall₂_flatMap hgiven fun _ _ ⟨_, hg⟩ => hg.items
  have hsame : (shownItems session).map BookListItem.id =
      ((r :: rest).flatMap Request.books).map Book.id := by
    refine List.forall₂_eq_eq_eq ▸ ?_
    rw [List.forall₂_map_left_iff, List.forall₂_map_right_iff]
    refine hitems.imp fun item book ⟨_, _, h⟩ => ?_
    rw [h]
    rfl
  have hids := hjoined.ids
  rw [hzero, List.drop_zero, ← hsame] at hids
  have hshown : (shownItems session).map BookListItem.id =
      (orderedIds fts (server.catalog.snapshot r.version) r.input.query ftsQuery).take
        (shownItems session).length := by
    have hlength := congrArg List.length hids
    rw [List.length_map, List.length_take] at hlength
    rw [hids, hlength]
    rcases Nat.le_total ((r :: rest).map Request.limit).sum (orderedIds fts
      (server.catalog.snapshot r.version) r.input.query ftsQuery).length with hle | hle
    · rw [Nat.min_eq_left hle]
    · rw [Nat.min_eq_right hle, List.take_of_length_le hle, List.take_length]
  refine ⟨r, rest, ftsQuery, hfts, ?_⟩
  refine {
    asked := ?_
    reads := hread
    items := hitems
    shown := hshown
    found := fun index => ?_
    total := ?_
    complete := fun hnone => ?_
    offers := fun item hitem => ?_ }
  · rw [hinput]
    refine ⟨htext, hfields, fun hcomma => ?_, fun hcomma => ?_, hstart⟩
    · exact hlanguages.trans ((Web.flatMap_splitCsvValues_iff session.query.language).mpr hcomma)
    · exact hgenres.trans ((Web.flatMap_splitCsvValues_iff session.query.genre).mpr hcomma)
  · have hhead : session.pageStore.pages.head? = some page := by rw [hpages]; rfl
    rw [← hshown, List.getElem?_map, (Web.findBookInPageChunks_eq hanswered.listing hhead index).1,
      hoffset, if_neg (by omega)]
    rfl
  · intro page' hpage'
    rw [hpages] at hpage'
    cases hpage'
    obtain ⟨⟨request', hg⟩, _⟩ := List.forall₂_cons.mp hgiven
    obtain ⟨p, answer, hp, _, _, hjson⟩ := hg.page
    obtain ⟨opened, hof⟩ := hsound.pageOf hg.known hp
    rw [(Web.buildBooksJson_eq_ok hjson).2.1, hof.total hread.start, length_orderedIds]
    have hquery := (identity_of_openSearch hof.reads).2.1
    rw [hfts, Except.ok.injEq] at hquery
    rw [hquery]
  · -- the last page has no cursor, so its request got the end of the listing
    obtain ⟨before, lastPage, hlast⟩ : ∃ before lastPage, page :: pages = before ++ [lastPage] :=
      ⟨_, _, (List.dropLast_append_getLast (List.cons_ne_nil page pages)).symm⟩
    rw [hlast] at hgiven
    obtain ⟨earlier, last, hrequests, _, hg⟩ := forall₂_concat hgiven
    obtain ⟨p, answer, hp, _, _, hjson⟩ := hg.page
    have hend : lastPage.nextCursor = none := by
      rw [hanswered.cursor, hpages, hlast, List.getLast?_concat] at hnone
      exact hnone
    have hwhole := hjoined.whole earlier last p hrequests hp
      ((Web.buildBooksJson_eq_ok hjson).2.2.2.1.mp hend)
    rw [hzero, List.drop_zero] at hwhole
    exact ⟨hsame.trans hwhole, earlier, last, p, hrequests, hp,
      (Web.buildBooksJson_eq_ok hjson).2.2.2.1.mp hend⟩
  · rw [shownItems, hpages] at hitem
    obtain ⟨page', hpage', hitem⟩ := List.mem_flatMap.mp hitem
    obtain ⟨q, hq, _, hg⟩ := forall₂_mem_right hgiven.flip hpage'
    obtain ⟨p, answer, hp, hanswer, hcall, hjson⟩ := hg.page
    rw [(Web.buildBooksJson_eq_ok hjson).1] at hitem
    obtain ⟨book, _, rfl⟩ := List.mem_map.mp hitem
    exact ⟨q, hq, p, answer, hp, hanswer, hcall, book, rfl⟩

end Screen

/-- Whatever scans with distinct ids commit, whatever is written to the INPX file as long as this
moves the time of its last write, and in whatever order the browser renders, asks and hears: what a
session shows are the first books of one version of the catalog, in its order and without a gap.
Where nothing more is to be loaded it is the whole listing, and for a query without filters the INPX
snapshot that the version was made from. A book that is offered for download is available, and when
its page was made the INPX file was the one that was scanned. -/
theorem grid_shows_catalog {readers : Readers} {S : Set Bytes} {fts : FullText}
    {aggregateIdCapacity : Nat} {actions : List LibraryAction} {lib : LibraryService}
    {server : BookServer} {history : SourceHistory} {configured : Option InpxSourceInfo}
    {calls : List SourceAction} {events : List (PagesAction BookListItem)}
    {hook : CursorBookPages BookListItem} {session : PaginationSession BookListItem}
    (hfree : readers.sha.CollisionFree S)
    (hlib : LibraryRun readers S fts aggregateIdCapacity actions lib)
    (hcatalog : server.catalog = lib.catalog) (htime : Timestamped history)
    (hsource : Runs.run (SourceService.step server.sha history) { source := configured } calls =
      some server.source)
    (horder : Runs.EachStep (SourceService.step server.sha history)
      (fun service action => action.looks.InOrder service.now) { source := configured } calls)
    (hhook : Runs.run CursorBookPages.step {} events = some hook)
    (hallowed : Runs.EachStep CursorBookPages.step
      (fun hook action => action.Allowed server.answers hook) {} events)
    (hsession : session ∈ hook.sessions) (hcarries : server.Carries session)
    (hnodup : session.query.fields.Nodup) (hne : session.pageStore.pages ≠ []) :
    ∃ first rest ftsQuery, buildFtsQuery fts first.input.query = .ok ftsQuery ∧
      Shows server session first rest
        (orderedIds fts (lib.catalog.snapshot first.version) first.input.query ftsQuery) ∧
      (AsksForAll session.query → session.nextCursor = none →
        ∃ snapshot, lib.snapshots[first.version]? = some snapshot ∧
          ListsSnapshot readers snapshot (lib.catalog.snapshot first.version)
            ((first :: rest).flatMap Request.books)) ∧
      ∀ item ∈ shownItems session, item.canDownloadOriginal = true → item.isAvailable = true ∧
        ∃ identity answer source image,
          readCatalogIdentity (lib.catalog.snapshot first.version) = .ok identity ∧
          answer ∈ server.source.answers ∧ answer.call = .listBooks identity.sourceFingerprint ∧
          configured = some source ∧ history.file source.inpxPath answer.looks.time = some image ∧
          identity.sourceFingerprint = server.sha.computeBytes image.contents := by
  obtain ⟨db, served, hdb, hserved⟩ := hlib.serves.catalog
  have hsound : Sound fts server.catalog := hcatalog ▸ sound_of_run hserved
  have hanswered := (Web.sane_run hhook hallowed).answered session hsession
  obtain ⟨first, rest, ftsQuery, hfts, hshows⟩ :=
    shows_of_answered hsound hcarries hanswered hnodup hne
  refine ⟨first, rest, ftsQuery, hfts, hcatalog ▸ hshows, fun hall hend => ?_, ?_⟩
  · obtain ⟨_, before, last, p, hlast, hp, hnone⟩ := hshows.complete hend
    have hasked := hshows.asked
    refine pages_mirror_snapshot hfree hlib (hcatalog ▸ hshows.reads) ⟨?_, ?_, ?_⟩ hasked.offset
      hlast hp hnone
    · rw [hasked.text, hall.1]
      rfl
    · rw [hasked.language (by rw [hall.2.1]; exact List.not_mem_nil), hall.2.1]
      rfl
    · rw [hasked.genre (by rw [hall.2.2]; exact List.not_mem_nil), hall.2.2]
      rfl
  · intro item hitem hoffered
    obtain ⟨r, hr, p, answer, hp, hanswer, hcall, book, rfl⟩ := hshows.offers item hitem
    obtain ⟨havailable, hdownload⟩ := Bool.and_eq_true_iff.mp hoffered
    have htells := ((sourceState_fresh htime hsource horder).1 answer hanswer).tells
    obtain ⟨source, image, hs, himage, hfingerprint⟩ :=
      htells.fresh _ (htells.download.mp hdownload)
    rw [hcall] at hfingerprint
    obtain ⟨before, after, hsplit⟩ := List.append_of_mem hr
    have hread := hshows.reads
    have hversion := (hsound.chain hread.known hread.answered hread.chain before r after hsplit).1
    obtain ⟨opened, hof⟩ := hsound.pageOf (hread.known r hr) hp
    have hidentity := hof.identity.1
    refine ⟨havailable, opened.identity, answer, source, image, ?_, hanswer, hidentity ▸ hcall, hs,
      himage, hidentity.symm.trans hfingerprint⟩
    rw [← hcatalog, ← hversion]
    exact (identity_of_openSearch hof.reads).1

/-! ### A small screen -/

theorem grid_limit_safe : (1 : Int).natAbs < 2 ^ 53 := by decide

def gridQuery : BookQuery where
  limit := 1
  includeFacets := false
  offset_safe := Web.offset_zero_safe
  limit_safe := grid_limit_safe

/-- What the server reads for the first page of the query. -/
def gridRequest : BookListRequest where
  sortBy := some .title
  sortDirection := some .ascending
  limit := 1
  includeFacets := false
  includeLanguageFacets := false
  includeGenreFacets := false

def gridNextRequest : BookListRequest := { gridRequest with cursor := some libraryCursor }

/-- What the catalog does for the two requests. -/
def gridServing : List ServiceAction :=
  [.begin (pageRequest gridRequest)] ++ List.replicate 5 (.advance 0 sampleAnswers) ++
    [.begin (pageRequest gridNextRequest), .advance 1 sampleAnswers]

/-- SHA-256, for the canonical form of the query too. -/
def gridDigest (bytes : Bytes) : Bytes :=
  if bytes = plainText (canonicalQuery gridRequest) then
    [241, 173, 206, 174, 72, 71, 231, 3, 27, 208, 249, 100, 32, 2, 148, 133, 113, 95, 101, 245, 134,
      69, 154, 81, 14, 102, 210, 85, 3, 61, 211, 5]
  else sampleDigest bytes

def gridSha : Sha256 where
  digest := gridDigest
  length_digest bytes := by
    rw [gridDigest]
    split
    · rfl
    · exact length_sampleDigest bytes

def gridPayload : Json :=
  .object (cursorMembers libraryCursor
    (gridSha.computeBytes (plainText (canonicalQuery gridRequest))))

def gridJson : JsonText := plainJson [gridPayload]

/-- The INPX file of the second scan, which stays as it is. -/
def gridHistory : SourceHistory where
  file _ _ := some ⟨ascii "PK second", 5⟩
  directory _ _ := true

def gridCalls : List SourceAction :=
  [⟨.listBooks (gridSha.computeBytes (ascii "PK second")), looksFrom 1, []⟩]

def gridAnswer : SourceAnswer where
  call := .listBooks (gridSha.computeBytes (ascii "PK second"))
  looks := looksFrom 1
  rowFingerprint := []
  state := ⟨true, true, [], some (gridSha.computeBytes (ascii "PK second"))⟩

def gridSource : SourceService where
  source := some App.sampleSource
  cache := ⟨App.sampleSource.inpxPath, 9, 5, gridSha.computeBytes (ascii "PK second"), true⟩
  answers := [gridAnswer]
  now := 1

def gridServer (lib : LibraryService) : BookServer where
  codec := Web.formCodec
  json := gridJson
  sha := gridSha
  maxPageSize := 100
  converter := false
  catalog := lib.catalog
  source := gridSource

def gridBook (id : Nat) (title : String) (sizeBytes : Nat) (coverPath : Option Bytes) : Book where
  id := id
  metadata :=
    { title := ascii title
      authors := [ascii "Jane Doe"]
      language := ascii "en"
      genres := [ascii "sf"]
      identifier := some (decimal id) }
  format := .fb2
  sizeBytes := sizeBytes
  coverPath := coverPath
  addedAtUtc := []
  isAvailable := true

/-- The pages that the catalog answers with. -/
def gridFirst : SearchPage where
  books := [gridBook 1 "First" 32 none]
  totalCount := some 2
  sourceFingerprint := gridSha.computeBytes (ascii "PK second")
  catalogSnapshotId := ascii "2000-1"
  nextCursor := some libraryCursor

def gridSecond : SearchPage where
  books := [gridBook 2 "Second" 47 (some (ascii
    "Covers/f8/f8c98b17d265ed777f4ba42105b1abf03797304ab7a051f22423b724e6a28e5d.jpg"))]
  sourceFingerprint := gridSha.computeBytes (ascii "PK second")
  catalogSnapshotId := ascii "2000-1"

def gridFirstPage : BookListResponse BookListItem where
  items := [listItem true false (gridBook 1 "First" 32 none)]
  catalogSnapshotId := ascii "2000-1"
  totalCount := some 2
  limit := 1
  nextCursor := some (encodeBase64Url (plainText gridPayload))
  facets := some ([], [])

def gridSecondPage : BookListResponse BookListItem where
  items := gridSecond.books.map (listItem true false)
  catalogSnapshotId := ascii "2000-1"
  offset := 1
  limit := 1

/-- The reader opens the catalog and scrolls down. -/
def gridEvents : List (PagesAction BookListItem) :=
  [.render gridQuery [] (some gridFirstPage), .activate 0, .fetchNextPage 0,
    .settle 0 (.ok gridSecondPage)]

def gridCursor : Bytes := encodeBase64Url (plainText gridPayload)

/-- The session of the reader, with the first page. -/
def gridSession : PaginationSession BookListItem :=
  Web.makeSession gridQuery [] (some gridFirstPage)

/-- The hook while the next page is on its way. -/
def gridWaiting : CursorBookPages BookListItem where
  sessions := [{ gridSession with controller := some 0, loading := true }]
  requests := [⟨0, gridCursor, false, false⟩]
  continuation := some ⟨0, true, none⟩

def gridLoaded : CursorBookPages BookListItem where
  sessions :=
    [{ gridSession with nextCursor := none, pageStore := ⟨[gridFirstPage, gridSecondPage]⟩ }]
  requests := [⟨0, gridCursor, false, true⟩]
  continuation := some ⟨0, false, none⟩

theorem gridCursor_facts : gridCursor ≠ [] ∧
    Web.formCodec.RoundTripsOn (fromStart gridQuery) [] ∧
    Web.formCodec.RoundTripsOn (fromStart gridQuery) gridCursor ∧
    parseBookListRequest gridJson gridSha (buildBookListParams (fromStart gridQuery) []) 100 =
      .ok gridRequest ∧
    parseBookListRequest gridJson gridSha (buildBookListParams (fromStart gridQuery)
      gridCursor) 100 = .ok gridNextRequest := by
  decide +kernel

theorem gridAppend : CatalogPageStore.appendContinuation gridSecondPage ⟨[gridFirstPage]⟩ =
    (true, ⟨[gridFirstPage, gridSecondPage]⟩) := by
  exact Web.appendContinuation_eq_true.mpr ⟨rfl, ⟨gridFirstPage, rfl, rfl⟩, rfl⟩

theorem gridEvents_steps :
    Runs.run CursorBookPages.step {} (gridEvents.take 3) = some gridWaiting ∧
      gridWaiting.step (.settle 0 (.ok gridSecondPage)) = some gridLoaded := by
  have hwanted : gridSession.wanted = some gridCursor := by
    show Option.filter (fun cursor => decide (cursor ≠ [])) (some gridCursor) = some gridCursor
    exact Option.filter_some_pos (p := fun cursor => decide (cursor ≠ []))
      (decide_eq_true gridCursor_facts.1)
  constructor
  · show (Option.map (fun s => CursorBookPages.fetchNextPage 0 s
      { sessions := [gridSession], continuation := some ⟨0, false, none⟩ })
      (some gridSession)).bind (fun hook => some hook) = some gridWaiting
    rw [Option.map_some, CursorBookPages.fetchNextPage, hwanted]
    rfl
  · refine Web.step_settle_eq_some.mpr ⟨_, _, rfl, rfl, rfl, ?_⟩
    have hanswered : PaginationSession.answered 0 0 (.ok gridSecondPage)
        { gridSession with controller := some 0, loading := true } =
        ({ gridSession with
            controller := some 0
            loading := true
            nextCursor := none
            pageStore := ⟨[gridFirstPage, gridSecondPage]⟩ }, some ⟨0, false, none⟩, false) := by
      rw [PaginationSession.answered, if_neg (by decide)]
      split
      · next store happend =>
        cases gridAppend.symm.trans happend
        rfl
      · next happend => cases gridAppend.symm.trans happend
    rw [CursorBookPages.settle, hanswered]
    rfl

/-- Two scans, and the listing of the second snapshot read in two pages. -/
def gridLibrary : List LibraryAction :=
  .scan firstEnv (fun _ => 0) :: .scan secondEnv (fun _ => 0) :: gridServing.map .serve

/-- The catalog answers with the two pages. -/
structure GridRequests (lib : LibraryService) (r r' : Request) : Prop where
  distinct : lib.scans.scanIds.Nodup
  requests : lib.catalog.requests = [r, r']
  input : r.input = pageRequest gridRequest
  page : r.page? = some gridFirst
  input' : r'.input = pageRequest gridNextRequest
  page' : r'.page? = some gridSecond

theorem gridLibrary_requests : ∃ lib r r', Runs.run
    (LibraryService.step sampleReaders emptyText 8) (.start 8 sampleSource 0 fun _ => none)
    gridLibrary = some lib ∧ GridRequests lib r r' := by
  have hevaluated : ((Runs.run (LibraryService.step sampleReaders emptyText 8)
      (.start 8 sampleSource 0 fun _ => none) gridLibrary).filter fun lib =>
        lib.scans.scanIds.Nodup).map (fun lib =>
        lib.catalog.requests.map fun r => ((r.input.query, r.input.includeLanguageFacets,
          r.input.includeGenreFacets), r.page?)) =
      some [((gridRequest.toDomainQuery, false, false), some gridFirst),
        ((gridNextRequest.toDomainQuery, false, false), some gridSecond)] := by decide +kernel
  have hinput : ∀ (input : PageRequest) query, (input.query, input.includeLanguageFacets,
      input.includeGenreFacets) = (query, false, false) → input = ⟨query, false, false⟩ := by
    rintro ⟨query, languages, genres⟩ query' h
    cases h
    rfl
  obtain ⟨lib, hlib, hrequests⟩ := Option.map_eq_some_iff.mp hevaluated
  obtain ⟨hrun, hdistinct⟩ := Option.filter_eq_some_iff.mp hlib
  obtain ⟨r, rest, hlist, hr, hrest⟩ := List.map_eq_cons_iff.mp hrequests
  obtain ⟨r', _, rfl, hr', hnil⟩ := List.map_eq_cons_iff.mp hrest
  rw [List.map_eq_nil_iff.mp hnil] at hlist
  obtain ⟨hr, hp⟩ := Prod.mk.inj hr
  obtain ⟨hr', hp'⟩ := Prod.mk.inj hr'
  exact ⟨lib, r, r', hrun, of_decide_eq_true hdistinct, hlist, hinput _ _ hr, hp, hinput _ _ hr', hp'⟩

theorem gridServer_answers {lib : LibraryService} {r r' : Request} (h : GridRequests lib r r') :
    (gridServer lib).answers gridQuery [] none gridFirstPage ∧
      (gridServer lib).answers gridQuery [] (some gridCursor) gridSecondPage := by
  obtain ⟨_, hpath, hpath', hparse, hparse'⟩ := gridCursor_facts
  refine ⟨⟨gridRequest, r, ?_, ?_, h.input, gridFirst, gridAnswer, h.page, ?_, rfl, rfl⟩,
    ⟨gridNextRequest, r', ?_, ?_, h.input', gridSecond, gridAnswer, h.page', ?_, rfl, rfl⟩⟩
  · exact (congrArg (parseBookListRequest gridJson gridSha · 100) hpath).trans hparse
  · show r ∈ lib.catalog.requests
    rw [h.requests]
    exact List.mem_cons_self
  · exact List.mem_singleton_self _
  · exact (congrArg (parseBookListRequest gridJson gridSha · 100) hpath').trans hparse'
  · show r' ∈ lib.catalog.requests
    rw [h.requests]
    exact List.mem_cons_of_mem _ (List.mem_singleton_self _)
  · exact List.mem_singleton_self _

theorem canonicalQuery_congr {request request' : BookListRequest}
    (h : pageRequest request = pageRequest request') :
    canonicalQuery request = canonicalQuery request' := by
  have hquery : request.toDomainQuery = request'.toDomainQuery := congrArg PageRequest.query h
  simp only [BookListRequest.toDomainQuery, SearchQuery.mk.injEq] at hquery
  obtain ⟨htext, hfields, hlanguages, hgenres, hsort, hdirection, _⟩ := hquery
  rw [canonicalQuery, canonicalQuery, htext, hfields, hlanguages, hgenres, hsort, hdirection]

theorem gridServer_carries {lib : LibraryService} {r r' : Request} (h : GridRequests lib r r')
    {session : PaginationSession BookListItem} (hquery : session.query = gridQuery)
    (hpages : session.pageStore.pages = [gridFirstPage, gridSecondPage]) :
    (gridServer lib).Carries session := by
  obtain ⟨_, hpath, hpath', _⟩ := gridCursor_facts
  refine ⟨fun cursor hcursor => ?_, fun q hq p c hp hc => ?_⟩
  · rw [hquery]
    rcases hcursor with rfl | ⟨page, hpage, hnext⟩
    · exact hpath
    · rw [hpages, List.mem_cons, List.mem_singleton] at hpage
      rcases hpage with rfl | rfl
      · cases hnext
        exact hpath'
      · cases hnext
  · change q ∈ lib.catalog.requests at hq
    rw [h.requests, List.mem_cons, List.mem_singleton] at hq
    rcases hq with rfl | rfl
    · rw [h.page, Option.some_inj] at hp
      subst hp
      cases hc
      refine ⟨by decide, fun request fingerprint hinput hf => ?_⟩
      rw [buildQueryFingerprint, canonicalQuery_congr (hinput.symm.trans h.input)] at hf
      cases hf
      exact roundTripsOn_plainJson (fun a ha b hb _ => by
        rw [List.mem_singleton.mp ha, List.mem_singleton.mp hb]) (List.mem_singleton_self _)
    · rw [h.page', Option.some_inj] at hp
      subst hp
      cases hc

theorem gridEvents_allowed {lib : LibraryService} {r r' : Request} (h : GridRequests lib r r') :
    Runs.EachStep CursorBookPages.step
      (fun hook action => action.Allowed (gridServer lib).answers hook) {} gridEvents := by
  obtain ⟨hfirst, hnext⟩ := gridServer_answers h
  refine .cons (fun page hpage => ?_) fun hook₁ h₁ => .cons trivial fun hook₂ h₂ =>
    .cons trivial fun hook₃ h₃ => .cons (fun request s hr hs => ?_) fun _ _ => .nil
  · cases hpage
    exact hfirst
  · have hwaiting : Runs.run CursorBookPages.step {} (gridEvents.take 3) = some hook₃ :=
      Runs.run_cons_eq_some.mpr ⟨hook₁, h₁, Runs.run_cons_eq_some.mpr ⟨hook₂, h₂,
        Runs.run_cons_eq_some.mpr ⟨hook₃, h₃, rfl⟩⟩⟩
    rw [gridEvents_steps.1, Option.some_inj] at hwaiting
    subst hwaiting
    cases hr
    cases hs
    exact hnext

theorem gridSession_shows : ∃ lib session first rest ids snapshot,
    Runs.run (LibraryService.step sampleReaders emptyText 8)
      (.start 8 sampleSource 0 fun _ => none) gridLibrary = some lib ∧
    Runs.run CursorBookPages.step {} gridEvents = some gridLoaded ∧
    session ∈ gridLoaded.sessions ∧ (shownItems session).map BookListItem.id = [1, 2] ∧
    Shows (gridServer lib) session first rest ids ∧
    ListsSnapshot sampleReaders snapshot (lib.catalog.snapshot first.version)
      ((first :: rest).flatMap Request.books) := by
  obtain ⟨lib, r, r', hlib, hrequests⟩ := gridLibrary_requests
  have hhook : Runs.run CursorBookPages.step {}
      (gridEvents.take 3 ++ [.settle 0 (.ok gridSecondPage)]) = some gridLoaded :=
    Runs.run_append_eq_some.mpr ⟨gridWaiting, gridEvents_steps.1,
      Runs.run_cons_eq_some.mpr ⟨gridLoaded, gridEvents_steps.2, rfl⟩⟩
  have htime : Timestamped gridHistory := by
    intro path t u a b _ ha _ _ v _ _
    exact ha
  have hsource : Runs.run (SourceService.step gridSha gridHistory)
      { source := some App.sampleSource } gridCalls = some gridSource := by decide +kernel
  have horder : Runs.EachStep (SourceService.step gridSha gridHistory)
      (fun service action => action.looks.InOrder service.now)
      { source := some App.sampleSource } gridCalls := by
    refine .cons ⟨by decide, le_rfl, le_rfl, le_rfl, le_rfl, fun m hm => ?_, le_rfl, le_rfl⟩
      fun _ _ => .nil
    rw [List.mem_singleton.mp hm]
    exact ⟨le_rfl, le_rfl⟩
  have hcatalog : (gridServer lib).catalog = lib.catalog := rfl
  obtain ⟨first, rest, ftsQuery, _, hshows, hmirrors, _⟩ := grid_shows_catalog
    collisionFree_sampleContents (libraryRun_sample (.inr ⟨gridServing, rfl⟩) hlib
      hrequests.distinct)
    hcatalog htime
    hsource horder hhook
    (gridEvents_allowed hrequests) (List.mem_singleton_self _)
    (gridServer_carries hrequests rfl rfl) (by decide) (List.cons_ne_nil _ _)
  obtain ⟨snapshot, _, hlists⟩ := hmirrors ⟨rfl, rfl, rfl⟩ rfl
  exact ⟨lib, _, first, rest, _, snapshot, hlib, hhook, List.mem_singleton_self _, rfl, hshows,
    hlists⟩

end InpxWebReader.System
