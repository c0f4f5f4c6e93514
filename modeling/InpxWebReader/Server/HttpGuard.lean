import InpxWebReader.Server.HttpDownloads

/-!
# Requests without the access token

A request that does not carry the token goes through the same steps as any other. `IsStrangers` is
how far it can come, and `strangerResponse` what it is told, as a function that sees nothing of what
is behind the server but whether the catalog is open. `server_guarded` says so of every run.
-/

namespace InpxWebReader.Server

open Foundation Query

/-- The request does not carry the access token. -/
def isStranger (options : HttpServerOptions) (request : HttpRequest) : Bool :=
  (authorize options.token (getAuthorizationHeader request)).isSome

/-- What a request without the access token is told. Of what is behind the server it learns whether
the catalog is open, and nothing else. -/
def strangerResponse (options : HttpServerOptions) (exchange : Exchange) (backendOpen : Bool)
    (requestId : Nat) : HttpResponse :=
  match validateRequestBeforeBody options.token exchange.overloaded exchange.request with
  | some error => earlyErrorResponse error requestId
  | none =>
    if options.maxRequestBodyBytes < exchange.request.body.length then overLimitResponse requestId
    else match routeOf options.staticAssets.isSome exchange.request with
      | none => errorResponse (notFound (ascii "Endpoint not found.")) requestId
      | some .staticAsset =>
        let response := staticAssetResponse options exchange.request.path requestId
        if response.status = 413 then overLimitResponse requestId else response
      | some route => plainResponse backendOpen requestId route

/-- A request without the access token that has come so far. -/
def Phase.IsStrangers (options : HttpServerOptions) (exchange : Exchange) : Phase → Prop
  | .received => True
  | .overLimit => ∀ backendOpen requestId,
    strangerResponse options exchange backendOpen requestId = overLimitResponse requestId
  | .handling _ route | .admitted _ route => (route = .health ∨ route = .ready) ∧
    ∀ backendOpen requestId, strangerResponse options exchange backendOpen requestId =
      plainResponse backendOpen requestId route
  | .answered requestId response none => ∃ backendOpen,
    response = strangerResponse options exchange backendOpen requestId
  | _ => False

theorem Phase.IsStrangers.spec {options : HttpServerOptions} {exchange : Exchange} {phase : Phase}
    (h : phase.IsStrangers options exchange) :
    phase.hasLease = false ∧ phase.file? = none ∧
    ∀ response requestId, phase.response? = some response → phase.requestId? = some requestId →
      ∃ backendOpen, response = strangerResponse options exchange backendOpen requestId := by
  cases phase with
  | answered requestId response file =>
    cases file with
    | none =>
      refine ⟨rfl, rfl, fun other id hother hid => ?_⟩
      cases hother
      cases hid
      exact h
    | some file => cases h
  | received => exact ⟨rfl, rfl, fun _ _ hnone => by cases hnone⟩
  | overLimit => exact ⟨rfl, rfl, fun _ _ hnone => by cases hnone⟩
  | handling => exact ⟨rfl, rfl, fun _ _ hnone => by cases hnone⟩
  | admitted => exact ⟨rfl, rfl, fun _ _ hnone => by cases hnone⟩
  | _ => cases h

/-- A route that a request without the token has come to needs none. -/
theorem public_of_stranger {options : HttpServerOptions} {exchange : Exchange} {route : Route}
    (hstranger : isStranger options exchange.request = true)
    (hvalid : validateRequestBeforeBody options.token exchange.overloaded exchange.request = none)
    (hroute : routeOf options.staticAssets.isSome exchange.request = some route)
    (hasset : route ≠ .staticAsset) : route = .health ∨ route = .ready := by
  have hfree : route.requiresAuth = false := by
    by_contra hauth
    have hapi := requiresApiAuthentication_of_route hroute (Bool.not_eq_false _ ▸ hauth)
    rw [isStranger, authorize_of_validate hvalid hapi] at hstranger
    cases hstranger
  cases route with
  | health => exact .inl rfl
  | ready => exact .inr rfl
  | staticAsset => exact absurd rfl hasset
  | _ => cases hfree

theorem onReceived_stranger {options : HttpServerOptions} {exchange : Exchange} {requestId : Nat}
    (hstranger : isStranger options exchange.request = true)
    (hbody : ¬isBodyOverLimit options exchange = true) :
    (onReceived options exchange requestId).IsStrangers options exchange := by
  rw [onReceived]
  split
  · next error herror =>
    refine ⟨true, ?_⟩
    rw [strangerResponse, herror]
  · next hvalid =>
    have hshort : ¬options.maxRequestBodyBytes < exchange.request.body.length := by
      intro hlong
      rw [isBodyOverLimit, hvalid] at hbody
      exact hbody (decide_eq_true hlong)
    split
    · next hroute =>
      refine ⟨true, ?_⟩
      rw [strangerResponse, hvalid]
      dsimp only
      rw [if_neg hshort, hroute]
    · next hroute =>
      dsimp only
      split
      · next hstatus =>
        intro backendOpen requestId
        rw [strangerResponse, hvalid]
        dsimp only
        rw [if_neg hshort, hroute]
        dsimp only
        exact if_pos ((staticAssetResponse_status ..).trans hstatus)
      · next hstatus =>
        refine ⟨true, ?_⟩
        rw [strangerResponse, hvalid]
        dsimp only
        rw [if_neg hshort, hroute]
        dsimp only
        rw [if_neg hstatus]
    · next route hasset hroute =>
      have hpublic := public_of_stranger hstranger hvalid hroute hasset
      refine ⟨hpublic, fun backendOpen requestId => ?_⟩
      rw [strangerResponse, hvalid]
      dsimp only
      rw [if_neg hshort, hroute]
      rcases hpublic with rfl | rfl <;> rfl

namespace HttpServer

variable {σ : Type} {options : HttpServerOptions} {app : Application σ}
  {server server' : HttpServer σ} {phase' : Phase} {index : Nat} {exchange : Exchange}

/-- A request without the token goes on as one, and changes nothing but the numbers of requests. -/
theorem proceed_stranger (hstranger : isStranger options exchange.request = true)
    (hphase : exchange.phase.IsStrangers options exchange)
    (h : server.proceed options app index exchange = some (server', phase')) :
    phase'.IsStrangers options exchange ∧
      server' = { server with nextRequestSequence := server'.nextRequestSequence } := by
  rw [proceed] at h
  split at h
  · split at h
    · next hbody =>
      cases h
      refine ⟨fun backendOpen requestId => ?_, rfl⟩
      rw [isBodyOverLimit, Bool.and_eq_true, Option.isNone_iff_eq_none, decide_eq_true_eq] at hbody
      rw [strangerResponse, hbody.1]
      exact if_pos hbody.2
    · next hbody =>
      cases h
      exact ⟨onReceived_stranger hstranger hbody, rfl⟩
  · next heq =>
    rw [heq] at hphase
    cases h
    exact ⟨⟨true, (hphase true _).symm⟩, rfl⟩
  · next requestId route heq =>
    rw [heq] at hphase
    cases h
    refine ⟨?_, rfl⟩
    obtain ⟨rfl | rfl, hresponse⟩ := hphase
    · exact ⟨.inl rfl, hresponse⟩
    · exact ⟨.inr rfl, hresponse⟩
  · next heq =>
    rw [heq] at hphase
    rcases hphase.1 with hroute | hroute <;> cases hroute
  · next requestId route _ heq =>
    rw [heq] at hphase
    obtain ⟨rfl | rfl, hresponse⟩ := hphase
    · cases h
      exact ⟨⟨app.isOpen server.host, (hresponse _ _).symm⟩, rfl⟩
    · cases h
      exact ⟨⟨app.isOpen server.host, (hresponse _ _).symm⟩, rfl⟩
  · next heq =>
    rw [heq] at hphase
    cases hphase
  · next heq =>
    rw [heq] at hphase
    cases hphase
  · next heq =>
    rw [heq] at hphase
    cases hphase
  · cases h
  · cases h

theorem makeCall_calls {request : HttpRequest} {requestId : Nat} {route : Route} {hasLease : Bool}
    (h : makeCall options app server index request requestId route hasLease = (server', phase')) :
    server'.calls = server.calls ∨ ∃ call, server'.calls = (index, call) :: server.calls := by
  have hrelease : ∀ server : HttpServer σ, (server.release hasLease).calls = server.calls := by
    intro server
    cases hasLease <;> rfl
  rw [makeCall] at h
  split at h
  · cases h
    exact .inl (hrelease server)
  · cases h
    exact .inl (hrelease server)
  · next call _ =>
    dsimp only at h
    rcases onAnswer_eq route requestId hasLease (app.call call server.host).1 with
      ⟨response, heq, -⟩ | ⟨file, heq⟩
    · rw [heq] at h
      cases h
      exact .inr ⟨call, hrelease _⟩
    · rw [heq] at h
      cases h
      exact .inr ⟨call, rfl⟩

theorem cleanUp_calls (file : ServerFileResponse) :
    (server.cleanUp app file).calls = server.calls := by
  rw [cleanUp]
  split <;> rfl

theorem proceed_calls (h : server.proceed options app index exchange = some (server', phase')) :
    server'.calls = server.calls ∨ ∃ call, server'.calls = (index, call) :: server.calls := by
  rw [proceed] at h
  split at h
  · split at h <;> (cases h; exact .inl rfl)
  · cases h
    exact .inl rfl
  · cases h
    exact .inl rfl
  · split at h <;> (cases h; exact .inl rfl)
  · exact makeCall_calls (Option.some.inj h)
  · exact makeCall_calls (Option.some.inj h)
  · next file _ _ =>
    split at h
    · cases h
      exact .inl (cleanUp_calls _)
    · split at h
      · cases h
        exact .inl (cleanUp_calls _)
      · cases h
        exact .inl rfl
  · next hasLease _ _ =>
    cases h
    cases hasLease <;> exact .inl rfl
  · cases h
  · cases h

/-- Requests without the token have come no further than such requests do, and the calls that were
made belong to requests with it. -/
structure Guarded (options : HttpServerOptions) (server : HttpServer σ) : Prop where
  strangers : ∀ exchange ∈ server.exchanges, isStranger options exchange.request = true →
    exchange.phase.IsStrangers options exchange
  calls : ∀ entry ∈ server.calls, ∃ exchange, server.exchanges[entry.1]? = some exchange ∧
    isStranger options exchange.request = false

namespace Guarded

variable {act : Act σ} {acts : List (Act σ)}

theorem start (options : HttpServerOptions) (host : σ) :
    Guarded options ({ host := host } : HttpServer σ) :=
  ⟨List.forall_mem_nil _, List.forall_mem_nil _⟩

theorem receive (h : Guarded options server) (request : HttpRequest) (overloaded : Bool) :
    Guarded options
      { server with exchanges := server.exchanges ++ [{ request, overloaded }] } where
  strangers := Parties.forall_append h.strangers fun _ => trivial
  calls := by
    intro entry hentry
    obtain ⟨exchange, hexchange, hfriend⟩ := h.calls entry hentry
    refine ⟨exchange, ?_, hfriend⟩
    rw [List.getElem?_append_left (List.getElem?_eq_some_iff.mp hexchange).1]
    exact hexchange

theorem move {phase : Phase} {moved : HttpServer σ} (h : Guarded options server)
    (hexchange : server.exchanges[index]? = some exchange)
    (hphase : isStranger options exchange.request = true → phase.IsStrangers options exchange)
    (hcalls : moved.calls = server.calls ∨ isStranger options exchange.request = false ∧
      ∃ call, moved.calls = (index, call) :: server.calls) :
    Guarded options { moved with
      exchanges := server.exchanges.set index { exchange with phase := phase } } where
  strangers := by
    refine Parties.forall_set h.strangers fun hstranger => ?_
    have hsound := hphase hstranger
    cases phase with
    | answered requestId response file => cases file <;> exact hsound
    | _ => exact hsound
  calls := by
    have hset : ∀ (i : Nat) (other : Exchange), server.exchanges[i]? = some other →
        isStranger options other.request = false →
        ∃ exchange' : Exchange, (server.exchanges.set index { exchange with phase := phase })[i]? =
          some exchange' ∧ isStranger options exchange'.request = false := by
      intro i other hother hfriend
      by_cases hi : index = i
      · subst hi
        rw [hexchange] at hother
        cases hother
        exact ⟨_, List.getElem?_set_self (List.getElem?_eq_some_iff.mp hexchange).1, hfriend⟩
      · exact ⟨other, by rw [List.getElem?_set_ne hi, hother], hfriend⟩
    have hold : ∀ entry ∈ server.calls, ∃ exchange' : Exchange,
        (server.exchanges.set index { exchange with phase := phase })[entry.1]? =
          some exchange' ∧ isStranger options exchange'.request = false := by
      intro entry hentry
      obtain ⟨other, hother, hfriend⟩ := h.calls entry hentry
      exact hset entry.1 other hother hfriend
    intro entry hentry
    rcases hcalls with hsame | ⟨hfriend, call, hnew⟩
    · exact hold entry (hsame ▸ hentry)
    · change entry ∈ moved.calls at hentry
      rw [hnew] at hentry
      rcases List.mem_cons.mp hentry with rfl | hentry
      · exact hset index exchange hexchange hfriend
      · exact hold entry hentry

theorem step (h : Guarded options server) (hstep : server.step options app act = some server') :
    Guarded options server' := by
  cases act with
  | receive request overloaded =>
    cases hstep
    exact h.receive request overloaded
  | advance index =>
    obtain ⟨exchange, hexchange, hstep⟩ := Option.bind_eq_some_iff.mp hstep
    obtain ⟨⟨moved, phase⟩, hproceed, hstep⟩ := Option.bind_eq_some_iff.mp hstep
    have hexchanges := (Moves.of_proceed hproceed).exchanges
    have hmoved : Guarded options { moved with
        exchanges := server.exchanges.set index { exchange with phase := phase } } := by
      cases hstranger : isStranger options exchange.request with
      | true =>
        obtain ⟨hphase, hframe⟩ := proceed_stranger hstranger
          (h.strangers exchange (List.mem_of_getElem? hexchange) hstranger) hproceed
        exact h.move hexchange (fun _ => hphase) (.inl (by rw [hframe]))
      | false =>
        refine h.move hexchange (fun hother => ?_)
          ((proceed_calls hproceed).imp_right fun hnew => ⟨hstranger, hnew⟩)
        rw [hstranger] at hother
        cases hother
    rw [← hexchanges] at hmoved
    cases hstep
    exact hmoved
  | finish index =>
    obtain ⟨exchange, hexchange, hstep⟩ := Option.bind_eq_some_iff.mp hstep
    split at hstep
    · next requestId file hasLease response hphase =>
      have hexchanges : (server.cleanUp app file).exchanges = server.exchanges := by
        rw [cleanUp]
        split <;> rfl
      have hmoved : Guarded options { server.cleanUp app file with
          exchanges := server.exchanges.set index
            { exchange with phase := .ending requestId file hasLease response } } := by
        refine h.move hexchange (fun hstranger => ?_) (.inl (cleanUp_calls file))
        have hsound := h.strangers exchange (List.mem_of_getElem? hexchange) hstranger
        rw [hphase] at hsound
        exact hsound
      rw [← hexchanges] at hmoved
      cases hstep
      exact hmoved
    · cases hstep
  | change host =>
    cases hstep
    exact ⟨h.strangers, h.calls⟩

theorem run {host : σ}
    (h : Runs.run (HttpServer.step options app) { host := host } acts = some server) :
    Guarded options server :=
  Runs.run_invariant (fun _ _ _ h hstep => h.step hstep) h (start options host)

end Guarded

theorem status_of_validate {token : Bytes} {overloaded : Bool} {request : HttpRequest}
    {error : HttpError} (h : validateRequestBeforeBody token overloaded request = some error) :
    error.status ∈ [400, 401, 503] := by
  rw [validateRequestBeforeBody] at h
  split at h
  · cases h
    decide
  split at h
  · cases h
    decide
  have hbody : ∀ {error : HttpError},
      (if ¬(request.method = ascii "POST" ∧ request.path = ascii "/api/scan/start") ∧
          hasRequestBody request then
        some (badRequest (ascii "This endpoint does not accept a request body."))
      else none) = some error → error.status ∈ [400, 401, 503] := by
    intro error h
    split at h
    · cases h
      decide
    · cases h
  split at h
  · split at h
    · cases h
      exact List.mem_cons_of_mem _ List.mem_cons_self
    · exact hbody h
  · exact hbody h

/-- In every run, a request without the access token makes no call, holds no lease and is handed no
file. What it is told depends on the request and its number, on whether the queue was full, on the
options, and at most on whether the catalog is open; a path under the API that is not public tells
it nothing. Its steps leave the server as it is, but for the numbers of requests and how far it has
come itself. -/
theorem server_guarded {host : σ} {acts : List (Act σ)}
    (h : Runs.run (HttpServer.step options app) { host := host } acts = some server)
    (hexchange : server.exchanges[index]? = some exchange)
    (hstranger : isStranger options exchange.request = true) :
    (∀ call, (index, call) ∉ server.calls) ∧
    exchange.phase.hasLease = false ∧ exchange.phase.file? = none ∧
    (∀ response, exchange.phase.response? = some response → ∃ backendOpen,
      response = strangerResponse options exchange backendOpen response.requestId) ∧
    (requiresApiAuthentication exchange.request = true →
      ∀ response, exchange.phase.response? = some response → response.status ∈ [400, 401, 503]) ∧
    ∀ act server', act = .advance index ∨ act = .finish index →
      server.step options app act = some server' → ∃ phase,
      server' = { server with
        nextRequestSequence := server'.nextRequestSequence
        exchanges := server.exchanges.set index { exchange with phase := phase } } := by
  have hguarded := Guarded.run h
  have hmem := List.mem_of_getElem? hexchange
  have hphase := hguarded.strangers exchange hmem hstranger
  obtain ⟨hlease, hfile, hspec⟩ := hphase.spec
  have hresponse : ∀ response, exchange.phase.response? = some response → ∃ backendOpen,
      response = strangerResponse options exchange backendOpen response.requestId :=
    fun response hsome => hspec response _ hsome
      ((Accounted.run h).responses exchange hmem response hsome)
  refine ⟨?_, hlease, hfile, hresponse, ?_, ?_⟩
  · intro call hcall
    obtain ⟨other, hother, hfriend⟩ := hguarded.calls _ hcall
    rw [hexchange] at hother
    cases hother
    rw [hstranger] at hfriend
    cases hfriend
  · intro hapi response hsome
    obtain ⟨backendOpen, heq⟩ := hresponse response hsome
    cases hvalid : validateRequestBeforeBody options.token exchange.overloaded exchange.request with
    | none =>
      rw [isStranger, authorize_of_validate hvalid hapi] at hstranger
      cases hstranger
    | some error =>
      rw [strangerResponse, hvalid] at heq
      rw [heq]
      exact status_of_validate hvalid
  · rintro act server' (rfl | rfl) hstep
    · obtain ⟨other, hother, hstep⟩ := Option.bind_eq_some_iff.mp hstep
      rw [hexchange] at hother
      cases hother
      obtain ⟨⟨moved, phase⟩, hproceed, hstep⟩ := Option.bind_eq_some_iff.mp hstep
      obtain ⟨-, hframe⟩ := proceed_stranger hstranger hphase hproceed
      cases hstep
      refine ⟨phase, ?_⟩
      rw [hframe]
    · obtain ⟨other, hother, hstep⟩ := Option.bind_eq_some_iff.mp hstep
      rw [hexchange] at hother
      cases hother
      split at hstep
      · next heq =>
        rw [heq] at hphase
        cases hphase
      · cases hstep

end HttpServer

/-- A request without the token for what is public, and one for what is not. -/
def sampleStrangerActs : List (HttpServer.Act Unit) :=
  [.receive { method := ascii "GET", path := ascii "/api/health" } false,
    .receive { sampleDownloadRequest with headers := [] } false,
    .advance 0, .advance 1, .advance 0, .advance 0]

theorem server_guarded_sample : ∃ server,
    Runs.run (HttpServer.step sampleServerOptions sampleApplication) { host := () }
      sampleStrangerActs = some server ∧
    server.seen = [(some 200, false, none), (some 401, false, none)] ∧
    ∀ call, (1, call) ∉ server.calls := by
  have hseen : (Runs.run (HttpServer.step sampleServerOptions sampleApplication) { host := () }
      sampleStrangerActs).map HttpServer.seen =
        some [(some 200, false, none), (some 401, false, none)] := by decide +kernel
  have hsecond : (Runs.run (HttpServer.step sampleServerOptions sampleApplication) { host := () }
      sampleStrangerActs).map (fun server => server.exchanges[1]?.map fun exchange =>
        isStranger sampleServerOptions exchange.request) = some (some true) := by decide +kernel
  obtain ⟨server, hrun, hserver⟩ := Option.map_eq_some_iff.mp hseen
  rw [hrun] at hsecond
  obtain ⟨exchange, hexchange, hstranger⟩ :=
    Option.map_eq_some_iff.mp (Option.some.inj hsecond)
  exact ⟨server, hrun, hserver, (HttpServer.server_guarded hrun hexchange hstranger).1⟩

end InpxWebReader.Server
