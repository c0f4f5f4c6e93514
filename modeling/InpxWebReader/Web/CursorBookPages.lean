import InpxWebReader.Library.Runs
import InpxWebReader.Web.BookListPath
import InpxWebReader.Web.CatalogPages

/-!
# Reading on in the browser

`useCursorBookPages` keeps a session for each listing it shows: the pages so far, the cursor of the
next one, and the controller of the request that is on its way. Renders make new sessions, effects
activate and clean up sessions, the grid asks for the next page and answers come back in any order,
also after the session that asked is gone. `PagesAction` is one such event, and `cursorPages_follow`
says what holds after any sequence of them.

`answers` says which pages a server may answer with; sessions, requests and their controllers are
numbered in the order in which they were made.
-/

namespace InpxWebReader.Web

open Foundation

/-! ### The hook -/

/-- What `getBooks` rejects with. -/
inductive FetchError
  | aborted
  | api (status : Nat) (code message : Bytes)
  | other (message : Bytes)
  deriving DecidableEq

def isRecoverableCursorError : FetchError → Bool
  | .api _ code _ => code = ascii "catalog_snapshot_changed" || code = ascii "catalog_cursor_expired"
  | _ => false

/-- The error of a page that does not continue the listing. -/
def snapshotChanged : FetchError :=
  .api 409 (ascii "catalog_snapshot_changed")
    (ascii "The catalog changed while more books were loading.")

/-- `PaginationSession`, with the query and the token of the render that made it. -/
structure PaginationSession (ι : Type) where
  query : BookQuery
  token : Text
  active : Bool := true
  controller : Option Nat := none
  loading : Bool := false
  nextCursor : Option Bytes := none
  pageStore : CatalogPageStore ι := {}

/-- A request for a continuation. The position in the list of requests is its controller. -/
structure ContinuationRequest where
  session : Nat
  cursor : Bytes
  aborted : Bool := false
  settled : Bool := false

structure ContinuationState where
  session : Nat
  loading : Bool
  error : Option FetchError := none

/-- The sessions that were made, the requests that were sent and the state of the hook. -/
structure CursorBookPages (ι : Type) where
  sessions : List (PaginationSession ι) := []
  requests : List ContinuationRequest := []
  continuation : Option ContinuationState := none
  /-- how often the first page was asked for again because a cursor was refused -/
  resets : Nat := 0

variable {ι : Type}

/-- The session that a render makes of its first page. -/
def makeSession (query : BookQuery) (token : Text) (data : Option (BookListResponse ι)) :
    PaginationSession ι where
  query := query
  token := token
  nextCursor := data.bind BookListResponse.nextCursor
  pageStore := .replaceFirstPage data

namespace PaginationSession

/-- The cursor that a next page is asked for with. -/
def wanted (s : PaginationSession ι) : Option Bytes :=
  if s.active && !s.loading then s.nextCursor.filter (· ≠ []) else none

/-- Is an answer to this request still for the session? -/
def awaits (s : PaginationSession ι) (controller : Nat) : Bool :=
  s.active && s.controller = some controller

/-- The `catch` of `fetchNextPage`: the session, what is shown of it, and whether the queries are
reset. -/
def caught (i controller : Nat) (error : FetchError) (s : PaginationSession ι) :
    PaginationSession ι × Option ContinuationState × Bool :=
  if !s.awaits controller || error = .aborted then (s, none, false)
  else if isRecoverableCursorError error then
    ({ s with nextCursor := none, pageStore := .replaceFirstPage none },
      some ⟨i, false, some error⟩, true)
  else (s, some ⟨i, false, some error⟩, false)

/-- What `fetchNextPage` does with the answer to its request. -/
def answered (i controller : Nat) (answer : Except FetchError (BookListResponse ι))
    (s : PaginationSession ι) : PaginationSession ι × Option ContinuationState × Bool :=
  match answer with
  | .error error => s.caught i controller error
  | .ok page =>
    if !s.awaits controller then (s, none, false)
    else match s.pageStore.appendContinuation page with
      | (true, store) =>
        ({ s with nextCursor := page.nextCursor, pageStore := store }, some ⟨i, false, none⟩, false)
      | (false, _) => s.caught i controller snapshotChanged

/-- The `finally` of `fetchNextPage`. -/
def finished (controller : Nat) (s : PaginationSession ι) : PaginationSession ι :=
  if s.controller = some controller then { s with controller := none, loading := false } else s

end PaginationSession

namespace CursorBookPages

def activate (i : Nat) (hook : CursorBookPages ι) : CursorBookPages ι :=
  { hook with
    sessions := hook.sessions.modify i fun s => { s with active := true }
    continuation := match hook.continuation with
      | some current =>
        if current.session = i then some { current with loading := false } else some ⟨i, false, none⟩
      | none => some ⟨i, false, none⟩ }

/-- The request of a controller is aborted. -/
def abort (controller : Option Nat) (requests : List ContinuationRequest) :
    List ContinuationRequest :=
  match controller with
  | none => requests
  | some c => requests.modify c fun r => { r with aborted := true }

/-- The cleanup of the effect of a session. -/
def cleanup (i : Nat) (s : PaginationSession ι) (hook : CursorBookPages ι) : CursorBookPages ι :=
  { hook with
    sessions := hook.sessions.set i { s with active := false, controller := none, loading := false }
    requests := abort s.controller hook.requests }

/-- `fetchNextPage` up to the request. -/
def fetchNextPage (i : Nat) (s : PaginationSession ι) (hook : CursorBookPages ι) :
    CursorBookPages ι :=
  match s.wanted with
  | none => hook
  | some cursor =>
    { hook with
      sessions := hook.sessions.set i
        { s with controller := some hook.requests.length, loading := true }
      requests := hook.requests ++ [⟨i, cursor, false, false⟩]
      continuation := some ⟨i, true, none⟩ }

/-- `fetchNextPage` from the answer on. -/
def settle (controller : Nat) (request : ContinuationRequest) (s : PaginationSession ι)
    (answer : Except FetchError (BookListResponse ι)) (hook : CursorBookPages ι) :
    CursorBookPages ι :=
  let (s', shown, reset) := s.answered request.session controller answer
  { sessions := hook.sessions.set request.session (s'.finished controller)
    requests := hook.requests.set controller { request with settled := true }
    continuation := shown.or hook.continuation
    resets := hook.resets + if reset then 1 else 0 }

/-- `continuationError` of the session that is shown. -/
def continuationError (i : Nat) (hook : CursorBookPages ι) : Option FetchError :=
  (hook.continuation.filter fun current => current.session = i).bind ContinuationState.error

def isFetchingNextPage (i : Nat) (hook : CursorBookPages ι) : Bool :=
  hook.continuation.any fun current => current.session = i && current.loading

/-- `retry`: the next page is asked for again, or `none` where the first page is. -/
def retry (i : Nat) (s : PaginationSession ι) (hook : CursorBookPages ι) :
    Option (CursorBookPages ι) :=
  if (hook.continuationError i).isSome ∧ (s.nextCursor.filter (· ≠ [])).isSome then
    some (hook.fetchNextPage i s)
  else none

end CursorBookPages

inductive PagesAction (ι : Type)
  | render (query : BookQuery) (token : Text) (data : Option (BookListResponse ι))
  | activate (i : Nat)
  | cleanup (i : Nat)
  | fetchNextPage (i : Nat)
  | retry (i : Nat)
  | settle (controller : Nat) (answer : Except FetchError (BookListResponse ι))

def CursorBookPages.step (hook : CursorBookPages ι) : PagesAction ι → Option (CursorBookPages ι)
  | .render query token data =>
    some { hook with sessions := hook.sessions ++ [makeSession query token data] }
  | .activate i => (hook.sessions[i]?).map fun _ => hook.activate i
  | .cleanup i => (hook.sessions[i]?).map fun s => hook.cleanup i s
  | .fetchNextPage i => (hook.sessions[i]?).map fun s => hook.fetchNextPage i s
  | .retry i => (hook.sessions[i]?).map fun s => (hook.retry i s).getD hook
  | .settle controller answer => do
    let request ← hook.requests[controller]?
    if request.settled then none
    else
      let s ← hook.sessions[request.session]?
      return hook.settle controller request s answer

/-! ### What a server answers -/

/-- The pages that a server may answer with: to a query, a token and a cursor. -/
abbrev Answers (ι : Type) := BookQuery → Text → Option Bytes → BookListResponse ι → Prop

/-- What is assumed of an event: pages come from the server, and a request is only rejected as
aborted when it was. -/
def PagesAction.Allowed (answers : Answers ι) (hook : CursorBookPages ι) : PagesAction ι → Prop
  | .render query token data => ∀ page ∈ data, answers query token none page
  | .settle controller answer => ∀ request s, hook.requests[controller]? = some request →
      hook.sessions[request.session]? = some s →
      match answer with
      | .ok page => answers s.query s.token (some request.cursor) page
      | .error error => error = .aborted → request.aborted = true
  | _ => True

/-- The pages of a session are a listing that the server gave: the first page, and after each page
what its cursor led to. -/
structure Answered (answers : Answers ι) (s : PaginationSession ι) : Prop where
  listing : IsListing s.pageStore.pages
  first : ∀ page ∈ s.pageStore.pages.head?, answers s.query s.token none page
  chain : s.pageStore.pages.IsChain fun page next => ∃ cursor, page.nextCursor = some cursor ∧
    answers s.query s.token (some cursor) next
  cursor : s.nextCursor = s.pageStore.pages.getLast?.bind BookListResponse.nextCursor

/-- The request that a controller stands for is on its way for a session. -/
structure OnItsWay (hook : CursorBookPages ι) (i : Nat) (s : PaginationSession ι) (c : Nat)
    (request : ContinuationRequest) : Prop where
  sent : hook.requests[c]? = some request
  session : request.session = i
  settled : request.settled = false
  aborted : request.aborted = false
  cursor : s.nextCursor = some request.cursor

/-- What holds of the hook between events. -/
structure Sane (answers : Answers ι) (hook : CursorBookPages ι) : Prop where
  answered : ∀ s ∈ hook.sessions, Answered answers s
  loading : ∀ s ∈ hook.sessions, s.loading = s.controller.isSome
  held : ∀ (i : Nat) (s : PaginationSession ι) (c : Nat), hook.sessions[i]? = some s →
    s.controller = some c → s.active = true ∧ ∃ request, OnItsWay hook i s c request
  outstanding : ∀ (c : Nat) (request : ContinuationRequest), hook.requests[c]? = some request →
    request.settled = false → request.aborted = false →
    ∃ s : PaginationSession ι, hook.sessions[request.session]? = some s ∧ s.controller = some c
  known : ∀ current ∈ hook.continuation, current.session < hook.sessions.length
  shown : ∀ (i : Nat) (s : PaginationSession ι), hook.sessions[i]? = some s → s.active = true →
    hook.isFetchingNextPage i = true → s.loading = true

/-- The pages after more events: the listing was read on, or given up for good. -/
def Continues (pages pages' : List (BookListResponse ι)) : Prop :=
  pages' = [] ∨ (pages ≠ [] ∧ pages <+: pages')

theorem Continues.refl (pages : List (BookListResponse ι)) : Continues pages pages := by
  by_cases h : pages = []
  · exact .inl h
  · exact .inr ⟨h, List.prefix_rfl⟩

theorem Continues.trans {pages pages' pages'' : List (BookListResponse ι)}
    (h : Continues pages pages') (h' : Continues pages' pages'') : Continues pages pages'' := by
  rcases h' with hnil | ⟨hne', hlater⟩
  · exact .inl hnil
  · rcases h with hnil | ⟨hne, hearlier⟩
    · exact absurd hnil hne'
    · exact .inr ⟨hne, hearlier.trans hlater⟩

section Steps

variable {answers : Answers ι} {hook : CursorBookPages ι} {i : Nat} {s : PaginationSession ι}

theorem getElem?_set_cases {α : Type} {xs : List α} {i j : Nat} {a b : α}
    (h : (xs.set i a)[j]? = some b) : (i = j ∧ b = a) ∨ (i ≠ j ∧ xs[j]? = some b) := by
  rw [List.getElem?_set] at h
  split at h
  · next hij =>
    split at h
    · cases h
      exact .inl ⟨hij, rfl⟩
    · cases h
  · next hij => exact .inr ⟨hij, h⟩

theorem mem_set_cases {α : Type} {xs : List α} {i : Nat} {a b : α} (h : b ∈ xs.set i a) :
    b = a ∨ b ∈ xs := by
  obtain ⟨j, hj⟩ := List.mem_iff_getElem?.mp h
  exact (getElem?_set_cases hj).imp And.right fun hold => List.mem_of_getElem? hold.2

theorem getElem?_concat_cases {α : Type} {xs : List α} {j : Nat} {a b : α}
    (h : (xs ++ [a])[j]? = some b) : xs[j]? = some b ∨ (j = xs.length ∧ b = a) := by
  rcases Nat.lt_or_ge j xs.length with hlt | hge
  · rw [List.getElem?_append_left hlt] at h
    exact .inl h
  · rw [List.getElem?_append_right hge] at h
    obtain ⟨hlt, h⟩ := List.getElem?_eq_some_iff.mp h
    rw [List.length_singleton] at hlt
    rw [List.getElem_singleton] at h
    exact .inr ⟨by omega, h.symm⟩

theorem answered_makeSession (query : BookQuery) (token : Text)
    (data : Option (BookListResponse ι)) (h : ∀ page ∈ data, answers query token none page) :
    Answered answers (makeSession query token data) := by
  refine ⟨isListing_replaceFirstPage data, ?_, ?_, ?_⟩
  · cases data with
    | none => exact fun _ hpage => (by cases hpage)
    | some page =>
      intro page' hpage'
      cases hpage'
      exact h page rfl
  · cases data with
    | none => exact .nil
    | some page => exact .singleton _
  · cases data <;> rfl

theorem Sane.render (h : Sane answers hook) {query : BookQuery} {token : Text}
    {data : Option (BookListResponse ι)} (hdata : ∀ page ∈ data, answers query token none page) :
    Sane answers { hook with sessions := hook.sessions ++ [makeSession query token data] } := by
  refine ⟨fun s hs => ?_, fun s hs => ?_, fun j s c hs hc => ?_, fun c request hr hset hab => ?_,
    fun current hcurrent => ?_, fun j s hs hactive hfetch => ?_⟩
  · rcases List.mem_append.mp hs with hold | hnew
    · exact h.answered s hold
    · rw [List.mem_singleton.mp hnew]
      exact answered_makeSession query token data hdata
  · rcases List.mem_append.mp hs with hold | hnew
    · exact h.loading s hold
    · rw [List.mem_singleton.mp hnew]
      rfl
  · rcases getElem?_concat_cases hs with hold | ⟨_, rfl⟩
    · obtain ⟨hactive, request, hway⟩ := h.held j s c hold hc
      exact ⟨hactive, request, hway.sent, hway.session, hway.settled, hway.aborted, hway.cursor⟩
    · cases hc
  · obtain ⟨s, hs, hc⟩ := h.outstanding c request hr hset hab
    exact ⟨s, List.getElem?_append_left (List.getElem?_eq_some_iff.mp hs).1 ▸ hs, hc⟩
  · rw [List.length_append]
    exact Nat.lt_add_right _ (h.known current hcurrent)
  · rcases getElem?_concat_cases hs with hold | ⟨rfl, _⟩
    · exact h.shown j s hold hactive hfetch
    · -- what is shown is about a session that there was
      obtain ⟨current, hcurrent, hc⟩ := (Option.any_eq_true _ _).mp hfetch
      rw [Bool.and_eq_true, decide_eq_true_eq] at hc
      have := h.known current hcurrent
      omega

theorem sessions_activate (hs : hook.sessions[i]? = some s) {j : Nat} {s' : PaginationSession ι}
    (h : (hook.activate i).sessions[j]? = some s') :
    (hook.sessions[j]? = some s' ∧ i ≠ j) ∨ (i = j ∧ s' = { s with active := true }) := by
  rw [CursorBookPages.activate] at h
  rw [List.getElem?_modify] at h
  split at h
  · next hij =>
    subst hij
    rw [hs] at h
    cases h
    exact .inr ⟨rfl, rfl⟩
  · next hij =>
    cases hj : hook.sessions[j]? with
    | none =>
      rw [hj] at h
      cases h
    | some t =>
      rw [hj] at h
      cases h
      exact .inl ⟨rfl, hij⟩

theorem Sane.activate (h : Sane answers hook) (hs : hook.sessions[i]? = some s) :
    Sane answers (hook.activate i) := by
  have hlength : (hook.activate i).sessions.length = hook.sessions.length := by
    rw [CursorBookPages.activate]
    exact List.length_modify ..
  have hold : ∀ t ∈ (hook.activate i).sessions, t ∈ hook.sessions ∨ t = { s with active := true } := by
    intro t ht
    obtain ⟨j, hj⟩ := List.mem_iff_getElem?.mp ht
    exact (sessions_activate hs hj).imp (fun hk => List.mem_of_getElem? hk.1) And.right
  have hmem := List.mem_of_getElem? hs
  refine ⟨fun t ht => ?_, fun t ht => ?_, fun j t c ht hc => ?_, fun c request hr hset hab => ?_,
    fun current hcurrent => ?_, fun j t ht hactive hfetch => ?_⟩
  · rcases hold t ht with hk | rfl
    · exact h.answered t hk
    · obtain ⟨hl, hf, hch, hcu⟩ := h.answered s hmem
      exact ⟨hl, hf, hch, hcu⟩
  · rcases hold t ht with hk | rfl
    · exact h.loading t hk
    · exact h.loading s hmem
  · rcases sessions_activate hs ht with ⟨hk, _⟩ | ⟨rfl, rfl⟩
    · obtain ⟨ha, request, hway⟩ := h.held j t c hk hc
      exact ⟨ha, request, hway.sent, hway.session, hway.settled, hway.aborted, hway.cursor⟩
    · obtain ⟨_, request, hway⟩ := h.held i s c hs hc
      exact ⟨rfl, request, hway.sent, hway.session, hway.settled, hway.aborted, hway.cursor⟩
  · obtain ⟨t, ht, hc⟩ := h.outstanding c request hr hset hab
    by_cases hi : i = request.session
    · subst hi
      rw [hs, Option.some_inj] at ht
      subst ht
      refine ⟨{ s with active := true }, ?_, hc⟩
      rw [CursorBookPages.activate]
      rw [List.getElem?_modify, hs]
      simp
    · refine ⟨t, ?_, hc⟩
      rw [CursorBookPages.activate]
      rw [List.getElem?_modify, ht]
      simp [hi]
  · have hi := (List.getElem?_eq_some_iff.mp hs).1
    rw [hlength]
    rw [CursorBookPages.activate] at hcurrent
    cases hk : hook.continuation with
    | none =>
      rw [hk] at hcurrent
      cases hcurrent
      exact hi
    | some shown =>
      rw [hk] at hcurrent
      have hknown := h.known shown hk
      dsimp only at hcurrent
      split at hcurrent <;> cases hcurrent
      · exact hknown
      · exact hi
  · exfalso
    rw [CursorBookPages.isFetchingNextPage, CursorBookPages.activate] at hfetch
    dsimp only at hfetch
    split at hfetch
    · split at hfetch <;> simp at hfetch
    · simp at hfetch

theorem abort_eq_some {controller : Option Nat} {requests : List ContinuationRequest} {c : Nat}
    {request : ContinuationRequest}
    (h : (CursorBookPages.abort controller requests)[c]? = some request)
    (hab : request.aborted = false) : requests[c]? = some request ∧ controller ≠ some c := by
  cases controller with
  | none => exact ⟨h, fun hc => (by cases hc)⟩
  | some c' =>
    rw [CursorBookPages.abort, List.getElem?_modify] at h
    obtain ⟨r, hr, hrequest⟩ := Option.map_eq_some_iff.mp h
    split at hrequest
    · cases hrequest
      cases hab
    · next hne =>
      cases hrequest
      exact ⟨hr, fun hc => hne (Option.some.inj hc)⟩

theorem Sane.cleanup (h : Sane answers hook) (hs : hook.sessions[i]? = some s) :
    Sane answers (hook.cleanup i s) := by
  have hmem := List.mem_of_getElem? hs
  refine ⟨fun t ht => ?_, fun t ht => ?_, fun j t c ht hc => ?_, fun c request hr hset hab => ?_,
    fun current hcurrent => ?_, fun j t ht hactive hfetch => ?_⟩
  · rcases mem_set_cases ht with rfl | hold
    · obtain ⟨hl, hf, hch, hcu⟩ := h.answered s hmem
      exact ⟨hl, hf, hch, hcu⟩
    · exact h.answered t hold
  · rcases mem_set_cases ht with rfl | hold
    · rfl
    · exact h.loading t hold
  · rcases getElem?_set_cases ht with ⟨_, rfl⟩ | ⟨hne, hold⟩
    · cases hc
    · obtain ⟨ha, request, hway⟩ := h.held j t c hold hc
      refine ⟨ha, request, ?_, hway.session, hway.settled, hway.aborted, hway.cursor⟩
      rw [CursorBookPages.cleanup]
      dsimp only
      cases hcs : s.controller with
      | none => exact hway.sent
      | some c' =>
        -- the request of the other session is another one
        obtain ⟨_, request', hway'⟩ := h.held i s c' hs hcs
        have hcc : c' ≠ c := by
          rintro rfl
          have := hway'.sent.symm.trans hway.sent
          cases this
          exact hne (hway'.session.symm.trans hway.session)
        rw [CursorBookPages.abort, List.getElem?_modify, hway.sent]
        exact congrArg some (if_neg hcc)
  · obtain ⟨hold, hne⟩ := abort_eq_some hr hab
    obtain ⟨t, ht, hc⟩ := h.outstanding c request hold hset hab
    refine ⟨t, ?_, hc⟩
    rw [CursorBookPages.cleanup, List.getElem?_set_ne, ht]
    rintro rfl
    rw [hs] at ht
    cases ht
    exact hne hc
  · rw [CursorBookPages.cleanup, List.length_set]
    exact h.known current hcurrent
  · rcases getElem?_set_cases ht with ⟨_, rfl⟩ | ⟨_, hold⟩
    · cases hactive
    · exact h.shown j t hold hactive hfetch

theorem wanted_eq_some {cursor : Bytes} (h : s.wanted = some cursor) :
    s.active = true ∧ s.loading = false ∧ s.nextCursor = some cursor := by
  rw [PaginationSession.wanted] at h
  split at h
  · next hboth =>
    rw [Bool.and_eq_true, Bool.not_eq_true'] at hboth
    exact ⟨hboth.1, hboth.2, (Option.filter_eq_some_iff.mp h).1⟩
  · cases h

theorem Sane.fetchNextPage (h : Sane answers hook) (hs : hook.sessions[i]? = some s) :
    Sane answers (hook.fetchNextPage i s) := by
  rw [CursorBookPages.fetchNextPage]
  split
  · exact h
  · next cursor hwanted =>
    obtain ⟨hactive, hloading, hcursor⟩ := wanted_eq_some hwanted
    have hmem := List.mem_of_getElem? hs
    have hnone : s.controller = none := by
      have := h.loading s hmem
      rw [hloading] at this
      exact Option.isSome_eq_false_iff.mp this.symm |> Option.isNone_iff_eq_none.mp
    have hi := (List.getElem?_eq_some_iff.mp hs).1
    refine ⟨fun t ht => ?_, fun t ht => ?_, fun j t c ht hc => ?_,
      fun c request hr hset hab => ?_, fun current hcurrent => ?_, fun j t ht ha hfetch => ?_⟩
    · rcases mem_set_cases ht with rfl | hold
      · obtain ⟨hl, hf, hch, hcu⟩ := h.answered s hmem
        exact ⟨hl, hf, hch, hcu⟩
      · exact h.answered t hold
    · rcases mem_set_cases ht with rfl | hold
      · rfl
      · exact h.loading t hold
    · rcases getElem?_set_cases ht with ⟨rfl, rfl⟩ | ⟨_, hold⟩
      · cases hc
        exact ⟨hactive, ⟨i, cursor, false, false⟩, List.getElem?_concat_length, rfl, rfl, rfl,
          hcursor⟩
      · obtain ⟨ha, request, hway⟩ := h.held j t c hold hc
        refine ⟨ha, request, ?_, hway.session, hway.settled, hway.aborted, hway.cursor⟩
        dsimp only
        rw [List.getElem?_append_left (List.getElem?_eq_some_iff.mp hway.sent).1]
        exact hway.sent
    · dsimp only at hr
      rcases getElem?_concat_cases hr with hold | ⟨hlen, hnew⟩
      · obtain ⟨t, ht, hc⟩ := h.outstanding c request hold hset hab
        refine ⟨t, ?_, hc⟩
        dsimp only
        rw [List.getElem?_set_ne, ht]
        rintro rfl
        rw [hs] at ht
        cases ht
        rw [hnone] at hc
        cases hc
      · cases hnew
        exact ⟨_, List.getElem?_set_self hi, congrArg some hlen.symm⟩
    · cases hcurrent
      dsimp only
      rw [List.length_set]
      exact hi
    · rcases getElem?_set_cases ht with ⟨_, rfl⟩ | ⟨hne, hold⟩
      · rfl
      · rw [CursorBookPages.isFetchingNextPage] at hfetch
        simp [hne] at hfetch

theorem Sane.retry (h : Sane answers hook) (hs : hook.sessions[i]? = some s) :
    Sane answers ((hook.retry i s).getD hook) := by
  rw [CursorBookPages.retry]
  split
  · exact h.fetchNextPage hs
  · exact h

theorem Answered.append (h : Answered answers s) {cursor : Bytes} {page : BookListResponse ι}
    {store : CatalogPageStore ι} (hcursor : s.nextCursor = some cursor)
    (hpage : answers s.query s.token (some cursor) page)
    (ha : s.pageStore.appendContinuation page = (true, store)) :
    Answered answers { s with nextCursor := page.nextCursor, pageStore := store } := by
  obtain ⟨hpages, ⟨first, hfirst, _⟩, _⟩ := appendContinuation_eq_true.mp ha
  refine ⟨h.listing.append ha, ?_, ?_, ?_⟩
  · intro first' hfirst'
    dsimp only at hfirst'
    rw [hpages, List.head?_append, hfirst] at hfirst'
    cases hfirst'
    exact h.first first hfirst
  · dsimp only
    rw [hpages, List.isChain_append]
    refine ⟨h.chain, .singleton _, fun last hlast next hnext => ?_⟩
    cases hnext
    refine ⟨cursor, ?_, hpage⟩
    rw [← hcursor, h.cursor, hlast]
    rfl
  · dsimp only
    rw [hpages, List.getLast?_concat]
    rfl

theorem answered_restart (s : PaginationSession ι) :
    Answered answers { s with nextCursor := none, pageStore := .replaceFirstPage none } := by
  have hnew : Answered answers (makeSession s.query s.token none) :=
    answered_makeSession s.query s.token none fun _ hpage => (by cases hpage)
  exact ⟨hnew.listing, hnew.first, hnew.chain, hnew.cursor⟩

/-- What an answer does to the session that it is for. -/
structure Settled (i c : Nat) (answer : Except FetchError (BookListResponse ι))
    (s : PaginationSession ι)
    (r : PaginationSession ι × Option ContinuationState × Bool) : Prop where
  query : r.1.query = s.query
  token : r.1.token = s.token
  active : r.1.active = s.active
  controller : r.1.controller = s.controller
  loading : r.1.loading = s.loading
  late : s.awaits c = false → r = (s, none, false)
  shown : s.awaits c = true → answer ≠ .error .aborted → r.2.1.isSome = true
  stopped : ∀ current ∈ r.2.1, current.session = i ∧ current.loading = false
  pages : Continues s.pageStore.pages r.1.pageStore.pages

theorem settled_caught (i c : Nat) (error : FetchError)
    {answer : Except FetchError (BookListResponse ι)}
    (hanswer : error = .aborted → answer = .error .aborted) :
    Settled i c answer s (s.caught i c error) := by
  rw [PaginationSession.caught]
  split
  · next hquit =>
    refine ⟨rfl, rfl, rfl, rfl, rfl, fun _ => rfl, fun ha hne => ?_, fun _ hc => (by cases hc),
      .refl _⟩
    rw [ha, Bool.not_true, Bool.false_or, decide_eq_true_eq] at hquit
    exact absurd (hanswer hquit) hne
  · next hquit =>
    have hawaits : s.awaits c = true := by
      cases ha : s.awaits c with
      | true => rfl
      | false => exact absurd (by rw [ha]; rfl) hquit
    have hlate : ∀ {P : Prop}, s.awaits c = false → P := fun hf => by
      rw [hawaits] at hf
      cases hf
    split
    · refine ⟨rfl, rfl, rfl, rfl, rfl, hlate, fun _ _ => rfl, fun _ hc => ?_, .inl rfl⟩
      cases hc
      exact ⟨rfl, rfl⟩
    · refine ⟨rfl, rfl, rfl, rfl, rfl, hlate, fun _ _ => rfl, fun _ hc => ?_,
        .refl _⟩
      cases hc
      exact ⟨rfl, rfl⟩

theorem settled_answered (i c : Nat) (answer : Except FetchError (BookListResponse ι)) :
    Settled i c answer s (s.answered i c answer) := by
  cases answer with
  | error error => exact settled_caught i c error fun he => congrArg Except.error he
  | ok page =>
    rw [PaginationSession.answered]
    split
    · next hquit =>
      rw [Bool.not_eq_true'] at hquit
      refine ⟨rfl, rfl, rfl, rfl, rfl, fun _ => rfl, fun ha => ?_, fun _ hc => (by cases hc),
        .refl _⟩
      rw [ha] at hquit
      cases hquit
    · next hquit =>
      rw [Bool.not_eq_true', Bool.not_eq_false] at hquit
      split
      · next store happend =>
        refine ⟨rfl, rfl, rfl, rfl, rfl, fun hf => ?_, fun _ _ => rfl, fun _ hc => ?_, ?_⟩
        · rw [hquit] at hf
          cases hf
        · cases hc
          exact ⟨rfl, rfl⟩
        · obtain ⟨hpages, ⟨first, hfirst, _⟩, _⟩ := appendContinuation_eq_true.mp happend
          refine .inr ⟨fun hnil => ?_, hpages ▸ List.prefix_append _ _⟩
          rw [hnil] at hfirst
          cases hfirst
      · exact settled_caught i c snapshotChanged fun he => (by cases he)

/-- An answer keeps the pages a listing that the server gave. -/
theorem Answered.answered (h : Answered answers s) {c : Nat} {cursor : Bytes}
    {answer : Except FetchError (BookListResponse ι)} (hcursor : s.awaits c = true →
      s.nextCursor = some cursor)
    (hpage : ∀ page, answer = .ok page → answers s.query s.token (some cursor) page) :
    Answered answers (s.answered i c answer).1 := by
  have hcaught : ∀ error, Answered answers (s.caught i c error).1 := by
    intro error
    rw [PaginationSession.caught]
    split
    · exact h
    · split
      · exact answered_restart s
      · exact h
  cases answer with
  | error error => exact hcaught error
  | ok page =>
    rw [PaginationSession.answered]
    split
    · exact h
    · next hquit =>
      rw [Bool.not_eq_true', Bool.not_eq_false] at hquit
      split
      · next store happend => exact h.append (hcursor hquit) (hpage page rfl) happend
      · exact hcaught snapshotChanged

theorem finished_controller {c c' : Nat} (h : (s.finished c).controller = some c') :
    s.controller = some c' ∧ c' ≠ c ∧ s.finished c = s := by
  rw [PaginationSession.finished] at h ⊢
  split at h
  · cases h
  · next hne =>
    rw [if_neg hne]
    exact ⟨h, fun hc => hne (hc ▸ h), rfl⟩

theorem finished_fields (c : Nat) (s : PaginationSession ι) :
    (s.finished c).query = s.query ∧ (s.finished c).token = s.token ∧
      (s.finished c).active = s.active ∧ (s.finished c).nextCursor = s.nextCursor ∧
      (s.finished c).pageStore = s.pageStore ∧
      (s.loading = s.controller.isSome →
        (s.finished c).loading = (s.finished c).controller.isSome) := by
  rw [PaginationSession.finished]
  split
  · exact ⟨rfl, rfl, rfl, rfl, rfl, fun _ => rfl⟩
  · exact ⟨rfl, rfl, rfl, rfl, rfl, id⟩

theorem Sane.awaits_of_controller (h : Sane answers hook) (hs : hook.sessions[i]? = some s) {c : Nat}
    (hc : s.controller = some c) : s.awaits c = true := by
  rw [PaginationSession.awaits]
  rw [(h.held i s c hs hc).1, hc]
  simp

theorem awaits_eq_true {c : Nat} (h : s.awaits c = true) : s.controller = some c := by
  rw [PaginationSession.awaits, Bool.and_eq_true, decide_eq_true_eq] at h
  exact h.2

theorem Sane.settle (h : Sane answers hook) {c : Nat} {request : ContinuationRequest}
    {answer : Except FetchError (BookListResponse ι)}
    (hr : hook.requests[c]? = some request) (hs : hook.sessions[request.session]? = some s)
    (hallowed : (PagesAction.settle c answer).Allowed answers hook) :
    Sane answers (hook.settle c request s answer) := by
  have hmem := List.mem_of_getElem? hs
  have hsettled := settled_answered (s := s) request.session c answer
  have hallowed := hallowed request s hr hs
  -- the request is the one that the session waits for, or the answer comes too late
  have hway : s.awaits c = true → request.aborted = false ∧ s.nextCursor = some request.cursor := by
    intro ha
    obtain ⟨_, request', hway⟩ := h.held request.session s c hs (awaits_eq_true ha)
    have := hway.sent.symm.trans hr
    cases this
    exact ⟨hway.aborted, hway.cursor⟩
  obtain ⟨hquery, htoken, hactive, hnext, hstore, hloading⟩ :=
    finished_fields c (s.answered request.session c answer).1
  rw [CursorBookPages.settle]
  refine ⟨fun t ht => ?_, fun t ht => ?_, fun j t c' ht hc => ?_,
    fun c' request' hr' hset hab => ?_, fun current hcurrent => ?_, fun j t ht ha hfetch => ?_⟩
  · rcases mem_set_cases ht with rfl | hold
    · obtain ⟨hl, hf, hch, hcu⟩ : Answered answers (s.answered request.session c answer).1 := by
        refine (h.answered s hmem).answered (fun ha => (hway ha).2) fun page hpage => ?_
        subst hpage
        exact hallowed
      refine ⟨?_, ?_, ?_, ?_⟩
      · rw [hstore]
        exact hl
      · rw [hstore, hquery, htoken]
        exact hf
      · rw [hstore, hquery, htoken]
        exact hch
      · rw [hstore, hnext]
        exact hcu
    · exact h.answered t hold
  · rcases mem_set_cases ht with rfl | hold
    · refine hloading ?_
      rw [hsettled.loading, hsettled.controller]
      exact h.loading s hmem
    · exact h.loading t hold
  · rcases getElem?_set_cases ht with ⟨rfl, rfl⟩ | ⟨hne, hold⟩
    · obtain ⟨hcontroller, hcc, hfinished⟩ := finished_controller hc
      rw [hsettled.controller] at hcontroller
      have hlate : s.awaits c = false := by
        rw [Bool.eq_false_iff]
        intro ha
        exact hcc (Option.some.inj (hcontroller.symm.trans (awaits_eq_true ha)))
      rw [hfinished, hsettled.late hlate]
      obtain ⟨hact, request', hway'⟩ := h.held request.session s c' hs hcontroller
      refine ⟨hact, request', ?_, hway'.session, hway'.settled, hway'.aborted, hway'.cursor⟩
      dsimp only
      rw [List.getElem?_set_ne (Ne.symm hcc)]
      exact hway'.sent
    · obtain ⟨hact, request', hway'⟩ := h.held j t c' hold hc
      refine ⟨hact, request', ?_, hway'.session, hway'.settled, hway'.aborted, hway'.cursor⟩
      dsimp only
      rw [List.getElem?_set_ne]
      · exact hway'.sent
      · rintro rfl
        have := hway'.sent.symm.trans hr
        cases this
        exact hne hway'.session
  · rcases getElem?_set_cases hr' with ⟨_, rfl⟩ | ⟨hcc, hold⟩
    · cases hset
    · obtain ⟨t, ht, hc⟩ := h.outstanding c' request' hold hset hab
      by_cases hi : request.session = request'.session
      · rw [← hi, hs, Option.some_inj] at ht
        subst ht
        have hlate : s.awaits c = false := by
          rw [Bool.eq_false_iff]
          intro ha
          exact hcc (Option.some.inj ((awaits_eq_true ha).symm.trans hc))
        refine ⟨s, ?_, hc⟩
        dsimp only
        rw [← hi, List.getElem?_set_self (List.getElem?_eq_some_iff.mp hs).1, hsettled.late hlate]
        refine congrArg some (if_neg fun heq => ?_)
        exact hcc (Option.some.inj (heq.symm.trans hc))
      · refine ⟨t, ?_, hc⟩
        dsimp only
        rw [List.getElem?_set_ne hi]
        exact ht
  · dsimp only at hcurrent ⊢
    rw [List.length_set]
    cases hshown : (s.answered request.session c answer).2.1 with
    | none =>
      rw [hshown] at hcurrent
      exact h.known current hcurrent
    | some shown =>
      rw [hshown] at hcurrent
      cases hcurrent
      rw [(hsettled.stopped _ hshown).1]
      exact (List.getElem?_eq_some_iff.mp hs).1
  · rw [CursorBookPages.isFetchingNextPage] at hfetch
    dsimp only at hfetch
    cases hshown : (s.answered request.session c answer).2.1 with
    | some shown =>
      rw [hshown] at hfetch
      have hstopped := (hsettled.stopped _ hshown).2
      simp [hstopped] at hfetch
    | none =>
      rw [hshown] at hfetch
      rcases getElem?_set_cases ht with ⟨rfl, rfl⟩ | ⟨_, hold⟩
      · -- nothing is shown of an answer that comes too late
        have hlate : s.awaits c = false := by
          rw [Bool.eq_false_iff]
          intro haw
          have hsome := hsettled.shown haw fun he => by
            subst he
            have := hallowed rfl
            rw [(hway haw).1] at this
            cases this
          rw [hshown] at hsome
          cases hsome
        have hsame : (s.answered request.session c answer).1.finished c = s := by
          rw [hsettled.late hlate]
          refine if_neg fun heq => ?_
          rw [h.awaits_of_controller hs heq] at hlate
          cases hlate
        rw [hsame] at ha ⊢
        exact h.shown request.session s hs ha hfetch
      · exact h.shown j t hold ha hfetch

/-- An answer to a request that was aborted changes nothing that is shown. -/
theorem Sane.settle_of_aborted (h : Sane answers hook) {c : Nat} {request : ContinuationRequest}
    (answer : Except FetchError (BookListResponse ι)) (hr : hook.requests[c]? = some request)
    (hs : hook.sessions[request.session]? = some s) (hab : request.aborted = true) :
    (hook.settle c request s answer).sessions = hook.sessions ∧
      (hook.settle c request s answer).continuation = hook.continuation := by
  have hne : s.controller ≠ some c := by
    intro hc
    obtain ⟨_, request', hway⟩ := h.held request.session s c hs hc
    have := hway.sent.symm.trans hr
    cases this
    rw [hway.aborted] at hab
    cases hab
  have hlate : s.awaits c = false := by
    rw [Bool.eq_false_iff]
    exact fun ha => hne (awaits_eq_true ha)
  rw [CursorBookPages.settle]
  rw [(settled_answered request.session c answer).late hlate]
  refine ⟨?_, rfl⟩
  dsimp only
  rw [PaginationSession.finished, if_neg hne]
  obtain ⟨hlt, rfl⟩ := List.getElem?_eq_some_iff.mp hs
  exact List.set_getElem_self hlt

theorem step_settle_eq_some {hook' : CursorBookPages ι} {c : Nat}
    {answer : Except FetchError (BookListResponse ι)} : hook.step (.settle c answer) = some hook' ↔
      ∃ request s, hook.requests[c]? = some request ∧ request.settled = false ∧
        hook.sessions[request.session]? = some s ∧ hook' = hook.settle c request s answer := by
  rw [CursorBookPages.step]
  constructor
  · intro h
    obtain ⟨request, hr, h⟩ := Option.bind_eq_some_iff.mp h
    split at h
    · cases h
    · next hset =>
      obtain ⟨s, hs, h⟩ := Option.bind_eq_some_iff.mp h
      cases h
      exact ⟨request, s, hr, Bool.eq_false_iff.mpr hset, hs, rfl⟩
  · rintro ⟨request, s, hr, hset, hs, rfl⟩
    rw [hr]
    simp [hset, hs]

theorem Sane.step (h : Sane answers hook) {action : PagesAction ι} {hook' : CursorBookPages ι}
    (hallowed : action.Allowed answers hook) (hs : hook.step action = some hook') :
    Sane answers hook' := by
  cases action with
  | render query token data =>
    cases hs
    exact h.render hallowed
  | activate i =>
    obtain ⟨s, hi, rfl⟩ := Option.map_eq_some_iff.mp hs
    exact h.activate hi
  | cleanup i =>
    obtain ⟨s, hi, rfl⟩ := Option.map_eq_some_iff.mp hs
    exact h.cleanup hi
  | fetchNextPage i =>
    obtain ⟨s, hi, rfl⟩ := Option.map_eq_some_iff.mp hs
    exact h.fetchNextPage hi
  | retry i =>
    obtain ⟨s, hi, rfl⟩ := Option.map_eq_some_iff.mp hs
    exact h.retry hi
  | settle c answer =>
    obtain ⟨request, s, hr, _, hi, rfl⟩ := step_settle_eq_some.mp hs
    exact h.settle hr hi hallowed

/-- What a session was before some events. -/
structure Develops (s s' : PaginationSession ι) : Prop where
  query : s'.query = s.query
  token : s'.token = s.token
  pages : Continues s.pageStore.pages s'.pageStore.pages

theorem Develops.refl (s : PaginationSession ι) : Develops s s := ⟨rfl, rfl, .refl _⟩

theorem develops_set {sessions : List (PaginationSession ι)} {j : Nat} {t t' : PaginationSession ι}
    (ht : sessions[j]? = some t) (hd : Develops t t') (hs : sessions[i]? = some s) :
    ∃ s', (sessions.set j t')[i]? = some s' ∧ Develops s s' := by
  by_cases hji : j = i
  · subst hji
    rw [ht] at hs
    cases hs
    exact ⟨t', List.getElem?_set_self (List.getElem?_eq_some_iff.mp ht).1, hd⟩
  · exact ⟨s, (List.getElem?_set_ne hji).trans hs, .refl s⟩

theorem develops_fetchNextPage {j : Nat} {t : PaginationSession ι} (ht : hook.sessions[j]? = some t)
    (hs : hook.sessions[i]? = some s) :
    ∃ s', (hook.fetchNextPage j t).sessions[i]? = some s' ∧ Develops s s' := by
  rw [CursorBookPages.fetchNextPage]
  split
  · exact ⟨s, hs, .refl s⟩
  · exact develops_set ht ⟨rfl, rfl, .refl _⟩ hs

/-- An event adds pages to a session or gives its listing up. -/
theorem develops_step {action : PagesAction ι} {hook' : CursorBookPages ι}
    (hstep : hook.step action = some hook') (hs : hook.sessions[i]? = some s) :
    ∃ s', hook'.sessions[i]? = some s' ∧ Develops s s' := by
  cases action with
  | render query token data =>
    cases hstep
    refine ⟨s, ?_, .refl s⟩
    exact (List.getElem?_append_left (List.getElem?_eq_some_iff.mp hs).1).trans hs
  | activate j =>
    obtain ⟨t, ht, rfl⟩ := Option.map_eq_some_iff.mp hstep
    rw [CursorBookPages.activate]
    dsimp only
    rw [List.getElem?_modify, hs]
    refine ⟨_, rfl, ?_⟩
    split
    · exact ⟨rfl, rfl, .refl _⟩
    · exact .refl s
  | cleanup j =>
    obtain ⟨t, ht, rfl⟩ := Option.map_eq_some_iff.mp hstep
    exact develops_set ht ⟨rfl, rfl, .refl _⟩ hs
  | fetchNextPage j =>
    obtain ⟨t, ht, rfl⟩ := Option.map_eq_some_iff.mp hstep
    exact develops_fetchNextPage ht hs
  | retry j =>
    obtain ⟨t, ht, rfl⟩ := Option.map_eq_some_iff.mp hstep
    rw [CursorBookPages.retry]
    split
    · exact develops_fetchNextPage ht hs
    · exact ⟨s, hs, .refl s⟩
  | settle c answer =>
    obtain ⟨request, t, _, _, ht, rfl⟩ := step_settle_eq_some.mp hstep
    refine develops_set ht ?_ hs
    have hsettled := settled_answered (s := t) request.session c answer
    obtain ⟨hquery, htoken, _, _, hstore, _⟩ :=
      finished_fields c (t.answered request.session c answer).1
    exact ⟨hquery.trans hsettled.query, htoken.trans hsettled.token, hstore ▸ hsettled.pages⟩

theorem develops_run {actions : List (PagesAction ι)} {hook' : CursorBookPages ι}
    (hrun : Runs.run CursorBookPages.step hook actions = some hook')
    (hs : hook.sessions[i]? = some s) : ∃ s', hook'.sessions[i]? = some s' ∧ Develops s s' := by
  refine Runs.run_invariant (I := fun hook' => ∃ s', hook'.sessions[i]? = some s' ∧ Develops s s')
    ?_ hrun ⟨s, hs, .refl s⟩
  rintro hook₁ action hook₂ ⟨s₁, hs₁, hd₁⟩ hstep
  obtain ⟨s₂, hs₂, hd₂⟩ := develops_step hstep hs₁
  exact ⟨s₂, hs₂, hd₂.query.trans hd₁.query, hd₂.token.trans hd₁.token, hd₁.pages.trans hd₂.pages⟩

theorem sane_empty : Sane answers ({} : CursorBookPages ι) := by
  refine ⟨fun s hs => (by cases hs), fun s hs => (by cases hs), fun i s c hs => ?_,
    fun c request hr => ?_, fun current hc => (by cases hc), fun i s hs => ?_⟩
  · cases hs
  · cases hr
  · cases hs

theorem sane_run {actions : List (PagesAction ι)}
    (hrun : Runs.run CursorBookPages.step {} actions = some hook)
    (hallowed : Runs.EachStep CursorBookPages.step (fun hook action => action.Allowed answers hook)
      {} actions) : Sane answers hook :=
  hallowed.run_invariant (I := Sane answers) (fun _ _ _ h hgood hstep => h.step hgood hstep) hrun
    sane_empty

/-! ### Runs -/

/-- What is true of the hook after a run that it began in another state. -/
structure Follows (answers : Answers ι) (hook hook' : CursorBookPages ι) : Prop where
  /-- The pages of a session are one listing, read on from its own cursors. -/
  answered : ∀ s ∈ hook'.sessions, Answered answers s
  /-- A session has one request on its way at most. -/
  single : ∀ (c c' : Nat) (request request' : ContinuationRequest),
    hook'.requests[c]? = some request → hook'.requests[c']? = some request' →
    request.settled = false → request.aborted = false → request'.settled = false →
    request'.aborted = false → request.session = request'.session → c = c'
  /-- What is shown as loading is on its way. -/
  awaited : ∀ (i : Nat) (s : PaginationSession ι), hook'.sessions[i]? = some s → s.active = true →
    hook'.isFetchingNextPage i = true → ∃ c request, OnItsWay hook' i s c request
  /-- An answer that comes after the abort changes no session and nothing that is shown. -/
  late : ∀ (c : Nat) (answer : Except FetchError (BookListResponse ι)) (hook'' : CursorBookPages ι)
    (request : ContinuationRequest), hook'.requests[c]? = some request → request.aborted = true →
    hook'.step (.settle c answer) = some hook'' →
    hook''.sessions = hook'.sessions ∧ hook''.continuation = hook'.continuation
  /-- A session keeps its query and its pages, and only adds to them, or gives them up for good. -/
  develops : ∀ (i : Nat) (s : PaginationSession ι), hook.sessions[i]? = some s →
    ∃ s', hook'.sessions[i]? = some s' ∧ Develops s s'

/-- Whatever order renders, effects, requests and answers come in, the pages of every session are a
listing that the server gave, and an answer only ever goes to the session that waits for it. -/
theorem cursorPages_follow {before after : List (PagesAction ι)} {hook' : CursorBookPages ι}
    (hbefore : Runs.run CursorBookPages.step {} before = some hook)
    (hafter : Runs.run CursorBookPages.step hook after = some hook')
    (hallowed : Runs.EachStep CursorBookPages.step (fun hook action => action.Allowed answers hook)
      {} (before ++ after)) : Follows answers hook hook' := by
  have hsane : Sane answers hook' :=
    sane_run (Runs.run_append_eq_some.mpr ⟨hook, hbefore, hafter⟩) hallowed
  refine ⟨hsane.answered, ?_, ?_, ?_, fun i s hs => develops_run hafter hs⟩
  · intro c c' request request' hr hr' hset hab hset' hab' hsession
    obtain ⟨s, hs, hc⟩ := hsane.outstanding c request hr hset hab
    obtain ⟨s', hs', hc'⟩ := hsane.outstanding c' request' hr' hset' hab'
    rw [hsession, hs', Option.some_inj] at hs
    subst hs
    exact Option.some.inj (hc.symm.trans hc')
  · intro i s hs hactive hfetch
    have hloading := hsane.shown i s hs hactive hfetch
    rw [hsane.loading s (List.mem_of_getElem? hs)] at hloading
    obtain ⟨c, hc⟩ := Option.isSome_iff_exists.mp hloading
    obtain ⟨_, request, hway⟩ := hsane.held i s c hs hc
    exact ⟨c, request, hway⟩
  · intro c answer hook'' request hr hab hstep
    obtain ⟨request', s, hr', _, hs, rfl⟩ := step_settle_eq_some.mp hstep
    rw [hr, Option.some_inj] at hr'
    subst hr'
    exact hsane.settle_of_aborted answer hr hs hab

end Steps

/-- The first page of a listing of three books. -/
def sampleFirstPage : BookListResponse Nat :=
  { items := [7, 8], catalogSnapshotId := [1], totalCount := some 3, limit := 2,
    nextCursor := some [2] }

def sampleNextPage : BookListResponse Nat :=
  { items := [9], catalogSnapshotId := [1], offset := 2, limit := 2 }

def sampleAnswers : Answers Nat := fun _ _ cursor page =>
  page = if cursor = some [2] then sampleNextPage else sampleFirstPage

/-- The reader asks for the next page and leaves the listing. -/
def sampleBrowsing : List (PagesAction Nat) :=
  [.render { offset_safe := offset_zero_safe, limit_safe := limit_default_safe } [] (some sampleFirstPage), .activate 0, .fetchNextPage 0, .cleanup 0]

/-- Back on the listing the reader asks again, and both answers come. -/
def sampleReturn : List (PagesAction Nat) :=
  [.activate 0, .fetchNextPage 0, .settle 0 (.error .aborted), .settle 1 (.ok sampleNextPage)]

theorem sampleBrowsing_allowed : Runs.EachStep CursorBookPages.step
    (fun hook action => action.Allowed sampleAnswers hook) {} (sampleBrowsing ++ sampleReturn) := by
  refine .cons (fun page hpage => ?_) fun _ h => ?_
  · cases hpage
    rfl
  cases h
  refine .cons trivial fun _ h => ?_
  cases h
  refine .cons trivial fun _ h => ?_
  cases h
  refine .cons trivial fun _ h => ?_
  cases h
  refine .cons trivial fun _ h => ?_
  cases h
  refine .cons trivial fun _ h => ?_
  cases h
  refine .cons (fun request s hr _ => ?_) fun _ h => ?_
  · cases hr
    exact fun _ => rfl
  cases h
  refine .cons (fun request s hr _ => ?_) fun _ _ => .nil
  cases hr
  rfl

theorem sampleBrowsing_follows : ∃ hook hook',
    Runs.run CursorBookPages.step {} sampleBrowsing = some hook ∧
    Runs.run CursorBookPages.step hook sampleReturn = some hook' ∧
    hook'.sessions.map (fun s => s.pageStore.pages.map BookListResponse.items) = [[[7, 8], [9]]] ∧
    Follows sampleAnswers hook hook' := by
  have hshown : (Runs.run CursorBookPages.step {} (sampleBrowsing ++ sampleReturn)).map
      (fun hook => hook.sessions.map fun s => s.pageStore.pages.map BookListResponse.items) =
        some [[[7, 8], [9]]] := by decide +kernel
  obtain ⟨hook', hrun, hpages⟩ := Option.map_eq_some_iff.mp hshown
  obtain ⟨hook, hbefore, hafter⟩ := Runs.run_append_eq_some.mp hrun
  exact ⟨hook, hook', hbefore, hafter, hpages,
    cursorPages_follow hbefore hafter sampleBrowsing_allowed⟩

end InpxWebReader.Web
