import InpxWebReader.Library.Parties
import InpxWebReader.Server.HttpService

/-!
# Leases and directories of downloads

A download holds a lease of the download gate, and the application hands it a file in a directory of
its own. The handler passes both on to the lifetime of the file, which ends when the library lets go
of the response. `Moves` is what a step of one request does to the server, and `Accounted` what is
kept over a run of all of them. `downloads_released` says that no lease and no directory is lost.
-/

namespace InpxWebReader.Server

open Foundation Query

/-! ### What a step of a request does -/

namespace Phase

/-- The request holds a lease of the download gate. -/
def hasLease : Phase → Bool
  | .holding .. => true
  | .delivering _ _ hasLease | .sending _ _ hasLease _ | .ending _ _ hasLease _ => hasLease
  | _ => false

def requestId? : Phase → Option Nat
  | .received | .overLimit => none
  | .handling requestId _ | .admitted requestId _ | .holding requestId _
  | .delivering requestId _ _ | .sending requestId _ _ _ | .ending requestId _ _ _
  | .answered requestId _ _ => some requestId

/-- The file that was handed out for the request. -/
def file? : Phase → Option ServerFileResponse
  | .delivering _ file _ | .sending _ file _ _ | .ending _ file _ _ => some file
  | .answered _ _ file => file
  | _ => none

/-- The directory that was handed out for the request. -/
def root? : Phase → Option Bytes
  | .delivering _ file _ | .sending _ file _ _ | .ending _ file _ _ | .answered _ _ (some file) =>
    file.cleanupRoot
  | _ => none

/-- The directory of a file whose lifetime has ended. -/
def endedRoot? : Phase → Option Bytes
  | .ending _ file _ _ | .answered _ _ (some file) => file.cleanupRoot
  | _ => none

theorem root?_of_endedRoot? {phase : Phase} {root : Bytes} (h : phase.endedRoot? = some root) :
    phase.root? = some root := by
  cases phase with
  | ending => exact h
  | answered requestId response file =>
    cases file with
    | none => cases h
    | some file => exact h
  | _ => cases h

/-- The response of a request, once there is one. -/
def response? : Phase → Option HttpResponse
  | .sending _ _ _ response | .ending _ _ _ response | .answered _ response _ => some response
  | _ => none

/-- A bound for the steps to the answer. -/
def stepsLeft : Phase → Nat
  | .received => 7
  | .overLimit => 1
  | .handling .. => 6
  | .admitted .. => 5
  | .holding .. => 4
  | .delivering .. => 3
  | .sending .. => 2
  | .ending .. => 1
  | .answered .. => 0

theorem eq_answered {phase : Phase} (h : phase.stepsLeft = 0) :
    ∃ requestId response file, phase = .answered requestId response file := by
  cases phase with
  | answered requestId response file => exact ⟨requestId, response, file, rfl⟩
  | _ => cases h

end Phase

theorem staticAssetResponse_requestId (options : HttpServerOptions) (path : Bytes)
    (requestId : Nat) :
    (staticAssetResponse options path requestId).requestId = requestId := by
  rw [staticAssetResponse]
  split
  · rfl
  · split <;> rfl

theorem staticAssetResponse_status (options : HttpServerOptions) (path : Bytes)
    (requestId requestId' : Nat) :
    (staticAssetResponse options path requestId).status =
      (staticAssetResponse options path requestId').status := by
  rw [staticAssetResponse, staticAssetResponse]
  split
  · rfl
  · split <;> rfl

theorem plainResponse_requestId (backendOpen : Bool) (requestId : Nat) (route : Route) :
    (plainResponse backendOpen requestId route).requestId = requestId := by
  cases route <;> rfl

theorem setFileResponse_requestId {σ : Type} {options : HttpServerOptions} {app : Application σ}
    {request : HttpRequest} {file : ServerFileResponse} {host : σ} {requestId : Nat}
    {response : HttpResponse}
    (h : setFileResponse options app request file host requestId = .ok response) :
    response.requestId = requestId := by
  rw [setFileResponse] at h
  split at h
  · cases h
  split at h
  · cases h
  dsimp only at h
  split at h <;> (cases h; rfl)

/-- A request that was received is answered, or it has a route. -/
theorem onReceived_eq (options : HttpServerOptions) (exchange : Exchange) (requestId : Nat) :
    onReceived options exchange requestId = .overLimit ∨
    (∃ response, onReceived options exchange requestId = .answered requestId response none ∧
      response.requestId = requestId) ∨
    ∃ route, onReceived options exchange requestId = .handling requestId route := by
  rw [onReceived]
  split
  · exact .inr (.inl ⟨_, rfl, rfl⟩)
  split
  · exact .inr (.inl ⟨_, rfl, rfl⟩)
  · dsimp only
    split
    · exact .inl rfl
    · exact .inr (.inl ⟨_, rfl, staticAssetResponse_requestId ..⟩)
  · exact .inr (.inr ⟨_, rfl⟩)

theorem onHandling_eq (options : HttpServerOptions) (backendOpen : Bool) (request : HttpRequest)
    (requestId : Nat) (route : Route) :
    (∃ response, onHandling options backendOpen request requestId route =
      .answered requestId response none ∧ response.requestId = requestId) ∨
    onHandling options backendOpen request requestId route = .admitted requestId route := by
  rw [onHandling]
  split
  · exact .inl ⟨_, rfl, rfl⟩
  split
  · exact .inl ⟨_, rfl, rfl⟩
  · exact .inr rfl

/-- A call ends in an answer, or in a file. -/
theorem onAnswer_eq (route : Route) (requestId : Nat) (hasLease : Bool)
    (answer : Except HandlerError CallAnswer) :
    (∃ response, onAnswer route requestId hasLease answer = .answered requestId response none ∧
      response.requestId = requestId) ∨
    ∃ file, onAnswer route requestId hasLease answer = .delivering requestId file hasLease := by
  rw [onAnswer.eq_def]
  split
  · exact .inl ⟨_, rfl, rfl⟩
  · exact .inl ⟨_, rfl, rfl⟩
  · exact .inl ⟨_, rfl, rfl⟩
  · exact .inr ⟨_, rfl⟩

/-- What a step of a request does to the server, from one phase to the next. -/
structure Moves {σ : Type} (options : HttpServerOptions) (phase phase' : Phase)
    (server server' : HttpServer σ) : Prop where
  exchanges : server'.exchanges = server.exchanges
  leases : (phase.hasLease = true → 0 < server.activeDownloads) →
    server'.activeDownloads + phase.hasLease.toNat = server.activeDownloads + phase'.hasLease.toNat
  bound : server.activeDownloads ≤ options.maxConcurrentDownloads →
    server'.activeDownloads ≤ options.maxConcurrentDownloads
  sequence : server.nextRequestSequence ≤ server'.nextRequestSequence
  number : phase'.requestId? = phase.requestId? ∨
    phase.requestId? = none ∧ phase'.requestId? = some server'.nextRequestSequence ∧
      server.nextRequestSequence < server'.nextRequestSequence
  removed : ∀ root,
    server'.removed.count root + (decide (phase.endedRoot? = some root)).toNat =
      server.removed.count root + (decide (phase'.endedRoot? = some root)).toNat
  handedOut : ∀ root,
    server'.handedOut.count root + (decide (phase.root? = some root)).toNat =
      server.handedOut.count root + (decide (phase'.root? = some root)).toNat
  response : ∀ response, phase'.response? = some response →
    phase.response? = some response ∨ phase'.requestId? = some response.requestId
  shorter : phase'.stepsLeft < phase.stepsLeft

namespace Moves

variable {σ : Type} {options : HttpServerOptions} {phase phase' : Phase}
  {server server' : HttpServer σ} {requestId : Nat} {route : Route} {response : HttpResponse}

/-- The server stays as it is, but for the numbers that it gives. -/
theorem goOn {sequence : Nat} (hlease : phase'.hasLease = phase.hasLease)
    (hsequence : server.nextRequestSequence ≤ sequence)
    (hnumber : phase'.requestId? = phase.requestId? ∨ phase.requestId? = none ∧
      phase'.requestId? = some sequence ∧ server.nextRequestSequence < sequence)
    (hroot : phase'.root? = phase.root?) (hended : phase'.endedRoot? = phase.endedRoot?)
    (hresponse : ∀ response, phase'.response? = some response →
      phase.response? = some response ∨ phase'.requestId? = some response.requestId)
    (hshorter : phase'.stepsLeft < phase.stepsLeft) :
    Moves options phase phase' server { server with nextRequestSequence := sequence } where
  exchanges := rfl
  leases := fun _ => by rw [hlease]
  bound := id
  sequence := hsequence
  number := hnumber
  removed := fun root => by rw [hended]
  handedOut := fun root => by rw [hroot]
  response := hresponse
  shorter := hshorter

/-- What is behind the server, and the calls to it, do not matter. -/
theorem of_called {host : σ} {calls : List (Nat × HostCall)}
    (h : Moves options phase phase' { server with host := host, calls := calls } server') :
    Moves options phase phase' server server' :=
  ⟨h.exchanges, h.leases, h.bound, h.sequence, h.number, h.removed, h.handedOut,
    h.response, h.shorter⟩

@[simp] theorem release_exchanges (hasLease : Bool) :
    (server.release hasLease).exchanges = server.exchanges := by
  rw [HttpServer.release]
  split <;> rfl

@[simp] theorem release_nextRequestSequence (hasLease : Bool) :
    (server.release hasLease).nextRequestSequence = server.nextRequestSequence := by
  rw [HttpServer.release]
  split <;> rfl

@[simp] theorem release_removed (hasLease : Bool) :
    (server.release hasLease).removed = server.removed := by
  rw [HttpServer.release]
  split <;> rfl

@[simp] theorem release_handedOut (hasLease : Bool) :
    (server.release hasLease).handedOut = server.handedOut := by
  rw [HttpServer.release]
  split <;> rfl

theorem release_activeDownloads (hasLease : Bool) :
    (server.release hasLease).activeDownloads = server.activeDownloads - hasLease.toNat := by
  cases hasLease <;> rfl

/-- A lease that is held is given back, with the answer. -/
theorem answer {file : Option ServerFileResponse} (hphase : phase.requestId? = some requestId)
    (hresponse : phase.response? = some response ∨ response.requestId = requestId)
    (hroot : phase.root? = Phase.root? (.answered requestId response file))
    (hended : phase.endedRoot? = Phase.endedRoot? (.answered requestId response file))
    (hsteps : 0 < phase.stepsLeft) :
    Moves options phase (.answered requestId response file) server
      (server.release phase.hasLease) where
  exchanges := release_exchanges _
  leases := by
    intro hpos
    rw [release_activeDownloads]
    cases hlease : phase.hasLease with
    | false => rfl
    | true =>
      have := hpos hlease
      show server.activeDownloads - 1 + 1 = server.activeDownloads + 0
      omega
  bound := by
    intro hbound
    rw [release_activeDownloads]
    exact le_trans (Nat.sub_le _ _) hbound
  sequence := le_of_eq (release_nextRequestSequence _).symm
  number := .inl hphase.symm
  removed := fun root => by rw [release_removed, hended]
  handedOut := fun root => by rw [release_handedOut, hroot]
  response := by
    intro other hother
    cases hother
    exact hresponse.imp_right (congrArg some ·.symm)
  shorter := hsteps

/-- The file of a response is let go of, and its directory removed. -/
theorem cleanUp {app : Application σ} {file : ServerFileResponse}
    (hphase : phase.requestId? = some requestId) (hroot : phase.root? = file.cleanupRoot)
    (hended : phase.endedRoot? = none)
    (hresponse : phase.response? = some response ∨ response.requestId = requestId)
    (hsteps : 1 < phase.stepsLeft) :
    Moves options phase (.ending requestId file phase.hasLease response) server
      (server.cleanUp app file) where
  exchanges := by
    rw [HttpServer.cleanUp]
    split <;> rfl
  leases := by
    intro _
    rw [HttpServer.cleanUp]
    split <;> rfl
  bound := by
    intro hbound
    rw [HttpServer.cleanUp]
    split <;> exact hbound
  sequence := by
    rw [HttpServer.cleanUp]
    split <;> exact le_refl _
  number := .inl hphase.symm
  removed := by
    intro root
    rw [hended, HttpServer.cleanUp]
    cases hcleanup : file.cleanupRoot with
    | none => simp [Phase.endedRoot?, hcleanup]
    | some other => simp [Phase.endedRoot?, hcleanup, List.count_cons, Bool.toNat, beq_iff_eq]
  handedOut := by
    intro root
    rw [hroot, HttpServer.cleanUp]
    split <;> rfl
  response := by
    intro other hother
    cases hother
    exact hresponse.imp_right (congrArg some ·.symm)
  shorter := hsteps

theorem call {app : Application σ} {index : Nat} {request : HttpRequest} {hasLease : Bool}
    (hcall : HttpServer.makeCall options app server index request requestId route hasLease =
      (server', phase'))
    (hlease : phase.hasLease = hasLease) (hphase : phase.requestId? = some requestId)
    (hroot : phase.root? = none) (hended : phase.endedRoot? = none) (hsteps : 3 < phase.stepsLeft) :
    Moves options phase phase' server server' := by
  subst hlease
  have hpos : 0 < phase.stepsLeft := by omega
  rw [HttpServer.makeCall] at hcall
  split at hcall
  · cases hcall
    exact answer hphase (.inr rfl) hroot hended hpos
  · cases hcall
    exact answer hphase (.inr (plainResponse_requestId ..)) hroot hended hpos
  · next call _ =>
    dsimp only at hcall
    rcases onAnswer_eq route requestId phase.hasLease (app.call call server.host).1 with
      ⟨response, heq, hid⟩ | ⟨file, heq⟩
    · rw [heq] at hcall
      cases hcall
      exact of_called (answer hphase (.inr hid) hroot hended hpos)
    · rw [heq] at hcall
      cases hcall
      exact {
        exchanges := rfl
        leases := fun _ => rfl
        bound := id
        sequence := le_refl _
        number := .inl hphase.symm
        removed := fun root => by rw [hended]; rfl
        handedOut := by
          intro root
          rw [hroot]
          show (file.cleanupRoot.toList ++ server.handedOut).count root + 0 =
            server.handedOut.count root + (decide (file.cleanupRoot = some root)).toNat
          cases file.cleanupRoot with
          | none => simp
          | some other => simp [List.count_cons, Bool.toNat, beq_iff_eq]
        response := fun _ h => by cases h
        shorter := hsteps }

theorem of_proceed {app : Application σ} {index : Nat} {exchange : Exchange}
    (h : server.proceed options app index exchange = some (server', phase')) :
    Moves options exchange.phase phase' server server' := by
  rw [HttpServer.proceed] at h
  split at h
  · next hphase =>
    rw [hphase]
    split at h
    · cases h
      exact goOn rfl (le_refl _) (.inl rfl) rfl rfl (fun _ h => by cases h)
        (by simp [Phase.stepsLeft])
    · cases h
      rcases onReceived_eq options exchange (server.nextRequestSequence + 1) with
        heq | ⟨response, heq, hid⟩ | ⟨route, heq⟩
      · rw [heq]
        exact goOn rfl (Nat.le_succ _) (.inl rfl) rfl rfl (fun _ h => by cases h)
          (by simp [Phase.stepsLeft])
      · rw [heq]
        refine goOn rfl (Nat.le_succ _) (.inr ⟨rfl, rfl, Nat.lt_succ_self _⟩) rfl rfl ?_
          (by simp [Phase.stepsLeft])
        intro other hother
        cases hother
        exact .inr (congrArg some hid.symm)
      · rw [heq]
        exact goOn rfl (Nat.le_succ _) (.inr ⟨rfl, rfl, Nat.lt_succ_self _⟩) rfl rfl
          (fun _ h => by cases h) (by simp [Phase.stepsLeft])
  · next hphase =>
    rw [hphase]
    cases h
    refine goOn rfl (Nat.le_succ _) (.inr ⟨rfl, rfl, Nat.lt_succ_self _⟩) rfl rfl ?_
      (by simp [Phase.stepsLeft])
    intro other hother
    cases hother
    exact .inr rfl
  · next requestId route hphase =>
    rw [hphase]
    cases h
    rcases onHandling_eq options (app.isOpen server.host) exchange.request requestId route with
      ⟨response, heq, hid⟩ | heq
    · rw [heq]
      exact answer rfl (.inr hid) rfl rfl (by simp [Phase.stepsLeft])
    · rw [heq]
      exact goOn rfl (le_refl _) (.inl rfl) rfl rfl (fun _ h => by cases h)
        (by simp [Phase.stepsLeft])
  · next requestId bookId hphase =>
    rw [hphase]
    split at h
    · cases h
      exact answer rfl (.inr rfl) rfl rfl (by simp [Phase.stepsLeft])
    · next hfree =>
      cases h
      exact {
        exchanges := rfl
        leases := fun _ => rfl
        bound := fun _ => by
          show server.activeDownloads + 1 ≤ options.maxConcurrentDownloads
          omega
        sequence := le_refl _
        number := .inl rfl
        removed := fun _ => rfl
        handedOut := fun _ => rfl
        response := fun _ h => by cases h
        shorter := by simp [Phase.stepsLeft] }
  · next requestId route _ hphase =>
    rw [hphase]
    exact call (Option.some.inj h) rfl rfl rfl rfl (by simp [Phase.stepsLeft])
  · next requestId bookId hphase =>
    rw [hphase]
    exact call (Option.some.inj h) rfl rfl rfl rfl (by simp [Phase.stepsLeft])
  · next requestId file hasLease hphase =>
    rw [hphase]
    split at h
    · cases h
      exact cleanUp rfl rfl rfl (.inr rfl) (by simp [Phase.stepsLeft])
    · next response hresponse =>
      have hid := setFileResponse_requestId hresponse
      split at h
      · cases h
        exact cleanUp rfl rfl rfl (.inr hid) (by simp [Phase.stepsLeft])
      · cases h
        refine goOn rfl (le_refl _) (.inl rfl) rfl rfl ?_ (by simp [Phase.stepsLeft])
        intro other hother
        cases hother
        exact .inr (congrArg some hid.symm)
  · next requestId file hasLease response hphase =>
    rw [hphase]
    cases h
    exact answer rfl (.inl rfl) rfl rfl (by simp [Phase.stepsLeft])
  · cases h
  · cases h

end Moves

/-! ### Leases and directories over a run -/

namespace HttpServer

variable {σ : Type} {options : HttpServerOptions} {app : Application σ}
  {server server' : HttpServer σ} {act : Act σ} {acts : List (Act σ)}

theorem step_cases (h : server.step options app act = some server') :
    (∃ request overloaded, act = .receive request overloaded ∧
      server' = { server with exchanges := server.exchanges ++ [{ request, overloaded }] }) ∨
    (∃ index exchange phase moved, (act = .advance index ∨ act = .finish index) ∧
      server.exchanges[index]? = some exchange ∧
      Moves options exchange.phase phase server moved ∧
      server' = { moved with
        exchanges := server.exchanges.set index { exchange with phase := phase } }) ∨
    ∃ host, act = .change host ∧ server' = { server with host := host } := by
  cases act with
  | receive request overloaded =>
    cases h
    exact .inl ⟨request, overloaded, rfl, rfl⟩
  | advance index =>
    obtain ⟨exchange, hexchange, h⟩ := Option.bind_eq_some_iff.mp h
    obtain ⟨⟨moved, phase⟩, hproceed, h⟩ := Option.bind_eq_some_iff.mp h
    have hmoves := Moves.of_proceed hproceed
    cases h
    refine .inr (.inl ⟨index, exchange, phase, moved, .inl rfl, hexchange, hmoves, ?_⟩)
    rw [hmoves.exchanges]
  | finish index =>
    obtain ⟨exchange, hexchange, h⟩ := Option.bind_eq_some_iff.mp h
    split at h
    · next requestId file hasLease response hphase =>
      have hmoves : Moves options exchange.phase (.ending requestId file hasLease response) server
          (server.cleanUp app file) := by
        rw [hphase]
        exact .cleanUp rfl rfl rfl (.inl rfl) (by simp [Phase.stepsLeft])
      cases h
      refine .inr (.inl ⟨index, exchange, _, _, .inr rfl, hexchange, hmoves, ?_⟩)
      rw [hmoves.exchanges]
    · cases h
  | change host =>
    cases h
    exact .inr (.inr ⟨host, rfl, rfl⟩)

/-- The leases are those that requests hold, the numbers of the requests are different, and every
directory that was handed out is with a request, or was removed when the lifetime of its file
ended. -/
structure Accounted (options : HttpServerOptions) (server : HttpServer σ) : Prop where
  leases : server.activeDownloads = server.exchanges.countP (·.phase.hasLease)
  bound : server.activeDownloads ≤ options.maxConcurrentDownloads
  numbers : Parties.Distinct (·.phase.requestId?) server.exchanges
  numbered : ∀ exchange ∈ server.exchanges, ∀ requestId,
    exchange.phase.requestId? = some requestId → requestId ≤ server.nextRequestSequence
  responses : ∀ exchange ∈ server.exchanges, ∀ response, exchange.phase.response? = some response →
    exchange.phase.requestId? = some response.requestId
  handedOut : ∀ root, server.handedOut.count root =
    server.exchanges.countP fun exchange => decide (exchange.phase.root? = some root)
  removed : ∀ root, server.removed.count root =
    server.exchanges.countP fun exchange => decide (exchange.phase.endedRoot? = some root)

namespace Accounted

theorem start (options : HttpServerOptions) (host : σ) :
    Accounted options ({ host := host } : HttpServer σ) where
  leases := rfl
  bound := Nat.zero_le _
  numbers := .nil
  numbered := List.forall_mem_nil _
  responses := List.forall_mem_nil _
  handedOut := fun _ => rfl
  removed := fun _ => rfl

theorem receive (h : Accounted options server) (request : HttpRequest) (overloaded : Bool) :
    Accounted options
      { server with exchanges := server.exchanges ++ [{ request, overloaded }] } where
  leases := by
    show server.activeDownloads = _
    rw [List.countP_append, h.leases]
    rfl
  bound := h.bound
  numbers := h.numbers.append rfl
  numbered := Parties.forall_append h.numbered fun _ hnone => by cases hnone
  responses := Parties.forall_append h.responses fun _ hnone => by cases hnone
  handedOut := by
    intro root
    rw [List.countP_append, h.handedOut]
    rfl
  removed := by
    intro root
    rw [List.countP_append, h.removed]
    rfl

theorem move {index : Nat} {exchange : Exchange} {phase : Phase} {moved : HttpServer σ}
    (h : Accounted options server) (hexchange : server.exchanges[index]? = some exchange)
    (hmoves : Moves options exchange.phase phase server moved) :
    Accounted options { moved with
      exchanges := server.exchanges.set index { exchange with phase := phase } } where
  leases := by
    have hpos : exchange.phase.hasLease = true → 0 < server.activeDownloads := by
      intro hlease
      rw [h.leases]
      exact List.countP_pos_iff.mpr ⟨exchange, List.mem_of_getElem? hexchange, hlease⟩
    have hcount := Parties.countP_set (p := fun exchange => exchange.phase.hasLease)
      (y := { exchange with phase := phase }) hexchange
    have hmove := hmoves.leases hpos
    rw [h.leases] at hmove
    dsimp only at hcount ⊢
    omega
  bound := hmoves.bound h.bound
  numbers := by
    rcases hmoves.number with hsame | ⟨-, hnew, hless⟩
    · exact h.numbers.set_same hexchange hsame
    · refine h.numbers.set_fresh hnew fun other hother hequal => ?_
      exact absurd (h.numbered other hother _ hequal) (Nat.not_le.mpr hless)
  numbered := by
    refine Parties.forall_set (fun other hother requestId hid =>
      le_trans (h.numbered other hother requestId hid) hmoves.sequence) ?_
    intro requestId hid
    rcases hmoves.number with hsame | ⟨-, hnew, -⟩
    · exact le_trans (h.numbered exchange (List.mem_of_getElem? hexchange) requestId
        (hsame ▸ hid)) hmoves.sequence
    · exact le_of_eq (Option.some.inj (hid.symm.trans hnew))
  responses := by
    refine Parties.forall_set h.responses fun response hresponse => ?_
    rcases hmoves.response response hresponse with hold | hnew
    · have hid := h.responses exchange (List.mem_of_getElem? hexchange) response hold
      rcases hmoves.number with hsame | ⟨hnone, -, -⟩
      · exact hsame.trans hid
      · rw [hnone] at hid
        cases hid
    · exact hnew
  handedOut := by
    intro root
    have hcount := Parties.countP_set
      (p := fun exchange => decide (exchange.phase.root? = some root))
      (y := { exchange with phase := phase }) hexchange
    have hmove := hmoves.handedOut root
    rw [h.handedOut] at hmove
    dsimp only at hcount ⊢
    omega
  removed := by
    intro root
    have hcount := Parties.countP_set
      (p := fun exchange => decide (exchange.phase.endedRoot? = some root))
      (y := { exchange with phase := phase }) hexchange
    have hmove := hmoves.removed root
    rw [h.removed] at hmove
    dsimp only at hcount ⊢
    omega

theorem step (h : Accounted options server) (hstep : server.step options app act = some server') :
    Accounted options server' := by
  rcases step_cases hstep with ⟨request, overloaded, -, rfl⟩ |
    ⟨index, exchange, phase, moved, -, hexchange, hmoves, rfl⟩ | ⟨host, -, rfl⟩
  · exact h.receive request overloaded
  · exact h.move hexchange hmoves
  · exact ⟨h.leases, h.bound, h.numbers, h.numbered, h.responses, h.handedOut, h.removed⟩

theorem run {host : σ}
    (h : Runs.run (HttpServer.step options app) { host := host } acts = some server) :
    Accounted options server :=
  Runs.run_invariant (fun _ _ _ h hstep => h.step hstep) h (start options host)

/-- The directory of a file that is still sent was not removed as often as it was handed out. -/
theorem removed_lt (h : Accounted options server) {exchange : Exchange} {root : Bytes}
    (hexchange : exchange ∈ server.exchanges) (hroot : exchange.phase.root? = some root)
    (hlive : exchange.phase.endedRoot? = none) :
    server.removed.count root < server.handedOut.count root := by
  rw [h.removed, h.handedOut]
  refine Parties.countP_lt (fun other _ hended => ?_) hexchange ?_ ?_
  · have hended := of_decide_eq_true hended
    exact decide_eq_true (Phase.root?_of_endedRoot? hended)
  · simp only [hlive, reduceCtorEq, decide_false]
  · exact decide_eq_true hroot

end Accounted

/-- The steps that requests still have before them. -/
def left (server : HttpServer σ) : Nat := (server.exchanges.map (·.phase.stepsLeft)).sum

def Act.goesOn : Act σ → Prop
  | .advance _ | .finish _ => True
  | _ => False

theorem left_lt (h : server.step options app act = some server') (hact : act.goesOn) :
    server'.left < server.left := by
  rcases step_cases h with ⟨request, overloaded, rfl, -⟩ |
    ⟨index, exchange, phase, moved, -, hexchange, hmoves, rfl⟩ | ⟨host, rfl, -⟩
  · cases hact
  · have hsum := Parties.sum_set (f := fun exchange => exchange.phase.stepsLeft)
      (y := { exchange with phase := phase }) hexchange
    have hshorter := hmoves.shorter
    rw [left, left]
    dsimp only at hsum ⊢
    omega
  · cases hact

/-- A handler goes on, unless its file is being sent or it is done. -/
theorem exists_proceed (options : HttpServerOptions) (app : Application σ) (server : HttpServer σ)
    (index : Nat) (exchange : Exchange) :
    (∃ result, server.proceed options app index exchange = some result) ∨
    (∃ requestId file hasLease response,
      exchange.phase = .sending requestId file hasLease response) ∨
    exchange.phase.stepsLeft = 0 := by
  rw [proceed]
  split
  · split <;> exact .inl ⟨_, rfl⟩
  · exact .inl ⟨_, rfl⟩
  · exact .inl ⟨_, rfl⟩
  · split <;> exact .inl ⟨_, rfl⟩
  · exact .inl ⟨_, rfl⟩
  · exact .inl ⟨_, rfl⟩
  · split
    · exact .inl ⟨_, rfl⟩
    · split <;> exact .inl ⟨_, rfl⟩
  · exact .inl ⟨_, rfl⟩
  · next hphase => exact .inr (.inl ⟨_, _, _, _, hphase⟩)
  · next hphase => exact .inr (.inr (by rw [hphase]; rfl))

/-- Where a request has steps left, one can be done. -/
theorem exists_step (options : HttpServerOptions) (app : Application σ) (h : 0 < server.left) :
    ∃ act server', Act.goesOn act ∧ server.step options app act = some server' := by
  obtain ⟨exchange, hmem, hpos⟩ : ∃ exchange ∈ server.exchanges, 0 < exchange.phase.stepsLeft := by
    by_contra hnone
    refine absurd (List.sum_eq_zero fun n hn => ?_) (Nat.ne_of_gt h)
    obtain ⟨exchange, hmem, rfl⟩ := List.mem_map.mp hn
    exact Nat.eq_zero_of_not_pos fun hpos => hnone ⟨exchange, hmem, hpos⟩
  obtain ⟨index, hindex⟩ := List.mem_iff_getElem?.mp hmem
  rcases exists_proceed options app server index exchange with
    ⟨⟨moved, phase⟩, hproceed⟩ | ⟨requestId, file, hasLease, response, hphase⟩ | hdone
  · obtain ⟨server', hstep⟩ : ∃ server',
        server.step options app (.advance index) = some server' := by
      simp only [step, hindex, hproceed, Option.bind_eq_bind, Option.bind_some]
      exact ⟨_, rfl⟩
    exact ⟨.advance index, server', trivial, hstep⟩
  · obtain ⟨server', hstep⟩ : ∃ server',
        server.step options app (.finish index) = some server' := by
      simp only [step, hindex, hphase, Option.bind_eq_bind, Option.bind_some]
      exact ⟨_, rfl⟩
    exact ⟨.finish index, server', trivial, hstep⟩
  · omega

/-- Over every run, the counter of the download gate is the number of the requests that hold a
lease, and within its limit; no two requests have the same number; and the directory of a download
stays until its file has been let go of. Every run can be brought to an end by the handlers and the
library alone, and then no lease is left, and every directory that was handed out has been removed,
as often as it was handed out. -/
theorem downloads_released {host : σ}
    (h : Runs.run (HttpServer.step options app) { host := host } acts = some server) :
    Accounted options server ∧
    (∀ exchange ∈ server.exchanges, ∀ root, exchange.phase.root? = some root →
      exchange.phase.endedRoot? = none →
      server.removed.count root < server.handedOut.count root) ∧
    ∃ more server', (∀ act ∈ more, Act.goesOn act) ∧
      Runs.run (HttpServer.step options app) server more = some server' ∧
      (∀ exchange ∈ server'.exchanges,
        ∃ requestId response file, exchange.phase = .answered requestId response file) ∧
      server'.activeDownloads = 0 ∧ server'.removed.Perm server'.handedOut := by
  have haccounted := Accounted.run h
  have hless : ∀ server : HttpServer σ, True → 0 < server.left → ∃ act server', Act.goesOn act ∧
      HttpServer.step options app server act = some server' ∧ True ∧
      server'.left < server.left := by
    intro server _ hpos
    obtain ⟨act, server', hact, hstep⟩ := exists_step options app hpos
    exact ⟨act, server', hact, hstep, trivial, left_lt hstep hact⟩
  obtain ⟨more, server', hmore, hrun, hleft⟩ := Parties.exists_run left hless server trivial
  have haccounted' : Accounted options server' :=
    Accounted.run (Runs.run_append_eq_some.mpr ⟨server, h, hrun⟩)
  have hanswered : ∀ exchange ∈ server'.exchanges, exchange.phase.stepsLeft = 0 :=
    fun exchange hexchange => List.sum_eq_zero_iff.mp hleft _ (List.mem_map_of_mem hexchange)
  refine ⟨haccounted, fun exchange hexchange root hroot hlive =>
    haccounted.removed_lt hexchange hroot hlive, more, server', hmore, hrun, ?_, ?_, ?_⟩
  · intro exchange hexchange
    exact Phase.eq_answered (hanswered exchange hexchange)
  · rw [haccounted'.leases, List.countP_eq_zero]
    intro exchange hexchange
    obtain ⟨requestId, response, file, heq⟩ := Phase.eq_answered (hanswered exchange hexchange)
    rw [heq]
    exact Bool.false_ne_true
  · rw [List.perm_iff_count]
    intro root
    rw [haccounted'.removed, haccounted'.handedOut]
    refine List.countP_congr fun exchange hexchange => ?_
    obtain ⟨requestId, response, file, heq⟩ := Phase.eq_answered (hanswered exchange hexchange)
    rw [heq]
    cases file <;> rfl

end HttpServer

/-! ### Two downloads at once -/

def sampleServerOptions : HttpServerOptions where
  token := ascii "key"
  maxPageSize := 100
  maxConcurrentDownloads := 1
  maxRequestBodyBytes := 64
  maxRangeCount := 8
  json := warJson
  sha := warDigest
  parseBody _ := .ok none

def sampleServerFile : ServerFileResponse where
  path := ascii "/work/7/book.fb2"
  cleanupRoot := some (ascii "/work/7")
  fileNameUtf8 := ascii "book.fb2"
  contentTypeUtf8 := []

/-- An application with one book, which it hands out in a directory. -/
def sampleApplication : Application Unit where
  isOpen _ := true
  call _ _ := (.ok (.file sampleServerFile), ())
  fileSize _ _ := some 3
  openFile _ _ := some (ascii "abc")
  removeAll _ _ := ()

def sampleDownloadRequest : HttpRequest where
  method := ascii "GET"
  path := ascii "/api/books/7/download"
  headers := [(ascii "authorization", ascii "Bearer key")]

/-- The second request finds no lease while the first one is sent. -/
def sampleServerActs : List (HttpServer.Act Unit) :=
  [.receive sampleDownloadRequest false, .advance 0, .advance 0, .advance 0, .advance 0, .advance 0,
    .receive sampleDownloadRequest false, .advance 1, .advance 1, .advance 1]

/-- What there is to see of the exchanges. -/
def HttpServer.seen {σ : Type} (server : HttpServer σ) : List (Option Nat × Bool × Option Bytes) :=
  server.exchanges.map fun exchange =>
    (exchange.phase.response?.map (·.status), exchange.phase.hasLease, exchange.phase.root?)

theorem downloads_released_sample : ∃ server,
    Runs.run (HttpServer.step sampleServerOptions sampleApplication) { host := () }
      sampleServerActs = some server ∧
    server.seen = [(some 200, true, some (ascii "/work/7")), (some 429, false, none)] ∧
    server.activeDownloads = server.exchanges.countP (·.phase.hasLease) := by
  have hseen : (Runs.run (HttpServer.step sampleServerOptions sampleApplication) { host := () }
      sampleServerActs).map HttpServer.seen =
        some [(some 200, true, some (ascii "/work/7")), (some 429, false, none)] := by
    decide +kernel
  obtain ⟨server, hrun, hserver⟩ := Option.map_eq_some_iff.mp hseen
  exact ⟨server, hrun, hserver, (HttpServer.downloads_released hrun).1.leases⟩

end InpxWebReader.Server
