import InpxWebReader.Server.DownloadName
import InpxWebReader.Server.ServedFiles

/-!
# The HTTP server

Requests are handled side by side on the workers of the server. What a handler does is cut into the
steps between which others may come in: the early check, the checks of the handler, the lease of a
download, the call to the application, the response with its file, and the end of that file. The
application behind them may change at any time. A run is any order of such steps.
-/

namespace InpxWebReader.Server

open Foundation Query

/-! ### The application behind the server -/

structure ServerFileResponse where
  path : Bytes
  cleanupRoot : Option Bytes := none
  fileNameUtf8 : Bytes
  contentTypeUtf8 : Bytes
  deriving DecidableEq

/-- What a handler asks of the application host and of the scan coordinator. The status is made of
the answers of both. -/
inductive HostCall
  | getStatus
  | listBooks (request : BookListRequest)
  | getBookDetails (bookId : Nat)
  | getCatalogStatistics
  | resolveBookCover (bookId : Nat)
  | prepareBookDownload (bookId : Nat) (format : DownloadFormat)
  | getInpxSourceOverview
  | startScan (request : ScanRequest)
  | pollProgress
  | cancelActiveScan

/-- An answer: nothing, a value in the text that the DTO mapper writes for it, or a file. -/
inductive CallAnswer
  | nothing
  | text (body : Bytes)
  | file (file : ServerFileResponse)

/-- What a handler catches; the first two come from the scan coordinator. -/
inductive HandlerError
  | conflict (message : Bytes)
  | notFound (message : Bytes)
  | domain (code : Domain.DomainErrorCode) (message : Bytes)
  /-- `CBackendOverloadError` -/
  | overload (message : Bytes)
  | standard (message : Bytes)

/-- The `catch` clauses in `HandleDynamicRequest`. -/
def HandlerError.httpError : HandlerError → HttpError
  | .conflict message => Server.conflict message
  | .notFound message => Server.notFound message
  | .domain code message => mapDomainError code message
  | .overload message => tooManyRequests message
  | .standard _ => internalServerError

/-- The application host, and the files of the system, over a state of their own. -/
structure Application (σ : Type) where
  isOpen : σ → Bool
  call : HostCall → σ → Except HandlerError CallAnswer × σ
  fileSize : Bytes → σ → Option UInt64
  openFile : Bytes → σ → Option Bytes
  removeAll : Bytes → σ → σ

/-! ### Responses -/

/-- The body of a response. A file is sent with the content it had when it was opened. -/
inductive ResponseBody
  | empty
  | error (error : HttpError) (requestId : Nat)
  | health (backendOpen : Bool)
  | readiness (backendOpen : Bool)
  | version
  | json (text : Bytes)
  | asset (asset : StaticResponse)
  | file (content : Bytes) (contentType : Bytes) (ranges : List ByteRange)

/-- `httplib::Response`, with the number in its `X-Request-Id`. -/
structure HttpResponse where
  status : Nat
  requestId : Nat
  headers : List (Bytes × Bytes) := []
  body : ResponseBody

/-- A response of `BuildErrorJson`. -/
def errorResponse (error : HttpError) (requestId : Nat) : HttpResponse where
  status := error.status
  requestId := requestId
  body := .error error requestId

/-- `SetEarlyErrorResponse`. -/
def earlyErrorResponse (error : HttpError) (requestId : Nat) : HttpResponse :=
  { errorResponse error requestId with
    headers := (ascii "Connection", ascii "close") ::
      if error.code = ascii "server_overloaded" then [(ascii "Retry-After", ascii "1")] else [] }

/-- `SHttpServerOptions`, and what the handlers read requests with. -/
structure HttpServerOptions where
  token : Bytes
  maxPageSize : Nat
  maxConcurrentDownloads : Nat
  maxRequestBodyBytes : Nat
  maxRangeCount : Nat
  staticAssets : Option StaticAssets := none
  json : JsonText
  sha : Sha256
  parseBody : JsonBody

/-- `HandleStaticRequest`. -/
def staticAssetResponse (options : HttpServerOptions) (path : Bytes) (requestId : Nat) :
    HttpResponse :=
  match options.staticAssets with
  | none => errorResponse (notFound (ascii "Static assets are not configured.")) requestId
  | some assets =>
    match assets.respond path with
    | .error error => errorResponse error requestId
    | .ok asset => {
        status := 200
        requestId := requestId
        headers := [(ascii "Cache-Control", asset.cacheControl)]
        body := .asset asset }

/-- `SetFileResponse`, up to the content provider. -/
def setFileResponse {σ : Type} (options : HttpServerOptions) (app : Application σ)
    (request : HttpRequest) (file : ServerFileResponse) (host : σ) (requestId : Nat) :
    Except HttpError HttpResponse :=
  match app.fileSize file.path host with
  | none => .error (notFound (ascii "File was not found."))
  | some fileSize =>
    match app.openFile file.path host with
    | none => .error (notFound (ascii "File was not found."))
    | some content =>
      let headers := [(ascii "Content-Disposition", buildContentDisposition file.fileNameUtf8),
        (ascii "Accept-Ranges", ascii "bytes")]
      let (accepted, ranges) :=
        normalizeRequestedRanges options.maxRangeCount fileSize request.ranges
      if accepted then
        let contentType := if file.contentTypeUtf8 = [] then ascii "application/octet-stream"
          else file.contentTypeUtf8
        .ok ⟨if ranges = [] then 200 else 206, requestId, headers,
          .file content contentType ranges⟩
      else .ok ⟨416, requestId, headers ++
        [(ascii "Content-Range", ascii "bytes */" ++ decimal fileSize.toNat)], .empty⟩

/-! ### The steps of a request -/

/-- How far a request has come. `overLimit` waits for the error handler, which answers every response
with the status 413. A lease is held by the handler and then by the lifetime of the file; `answered`
keeps the file whose lifetime has ended. -/
inductive Phase
  | received
  | overLimit
  | handling (requestId : Nat) (route : Route)
  | admitted (requestId : Nat) (route : Route)
  | holding (requestId : Nat) (bookId : Bytes)
  | delivering (requestId : Nat) (file : ServerFileResponse) (hasLease : Bool)
  | sending (requestId : Nat) (file : ServerFileResponse) (hasLease : Bool)
      (response : HttpResponse)
  | ending (requestId : Nat) (file : ServerFileResponse) (hasLease : Bool)
      (response : HttpResponse)
  | answered (requestId : Nat) (response : HttpResponse) (file : Option ServerFileResponse)

/-- A request and how far it has come; the queue marks it where it was full. -/
structure Exchange where
  request : HttpRequest
  overloaded : Bool
  phase : Phase := .received

/-- The server: what is behind it, `NextRequestSequence`, `m_activeDownloads`, the requests so far,
and, the latest first, the calls they made and the directories of downloads that the application
handed out and that were removed. The numbers of requests have 64 bits in the program, more than
any run takes. -/
structure HttpServer (σ : Type) where
  host : σ
  nextRequestSequence : Nat := 0
  activeDownloads : Nat := 0
  exchanges : List Exchange := []
  calls : List (Nat × HostCall) := []
  handedOut : List Bytes := []
  removed : List Bytes := []

/-- The body of a request that passed the early check is too long. -/
def isBodyOverLimit (options : HttpServerOptions) (exchange : Exchange) : Bool :=
  (validateRequestBeforeBody options.token exchange.overloaded exchange.request).isNone &&
    options.maxRequestBodyBytes < exchange.request.body.length

/-- The early check and the choice of the route, with the number that the response has. -/
def onReceived (options : HttpServerOptions) (exchange : Exchange) (requestId : Nat) : Phase :=
  let request := exchange.request
  match validateRequestBeforeBody options.token exchange.overloaded request with
  | some error => .answered requestId (earlyErrorResponse error requestId) none
  | none =>
    match routeOf options.staticAssets.isSome request with
    | none =>
      .answered requestId (errorResponse (notFound (ascii "Endpoint not found.")) requestId) none
    | some .staticAsset =>
      let response := staticAssetResponse options request.path requestId
      if response.status = 413 then .overLimit else .answered requestId response none
    | some route => .handling requestId route

/-- The error handler's answer for the status 413. -/
def overLimitResponse (requestId : Nat) : HttpResponse :=
  errorResponse (payloadTooLarge (ascii "Request body exceeds the configured limit.")) requestId

/-- The checks at the beginning of `HandleDynamicRequest`. -/
def onHandling (options : HttpServerOptions) (backendOpen : Bool) (request : HttpRequest)
    (requestId : Nat) (route : Route) : Phase :=
  match if route.requiresAuth then authorize options.token (getAuthorizationHeader request)
    else none with
  | some message => .answered requestId (errorResponse (unauthorized message) requestId) none
  | none =>
    if route.requiresBackend && !backendOpen then
      .answered requestId (errorResponse backendNotReady requestId) none
    else .admitted requestId route

/-- What the handler of a route asks, once it has read the request; nothing for a route that asks
nothing. -/
def hostCallOf (options : HttpServerOptions) (request : HttpRequest) :
    Route → Except HttpError (Option HostCall)
  | .health | .ready | .version | .staticAsset => .ok none
  | .malformedBookId => .error bookIdInvalid
  | .status => .ok (some .getStatus)
  | .books => do
    return some (.listBooks
      (← parseBookListRequest options.json options.sha request.params options.maxPageSize))
  | .download bookId => do
    let bookId ← parseBookId bookId
    return some (.prepareBookDownload bookId (← parseDownloadFormat request.params))
  | .bookDetails bookId => do return some (.getBookDetails (← parseBookId bookId))
  | .stats => .ok (some .getCatalogStatistics)
  | .cover bookId => do return some (.resolveBookCover (← parseBookId bookId))
  | .source => .ok (some .getInpxSourceOverview)
  | .scanStart => do
    return some (.startScan (← parseScanStartRequest options.parseBody request.body))
  | .scanProgress => .ok (some .pollProgress)
  | .scanCancel => .ok (some .cancelActiveScan)

/-- The status of a response with a value. -/
def successStatus : Route → Nat
  | .scanStart | .scanCancel => 202
  | _ => 200

/-- The error of a route whose call was answered with nothing. -/
def missingError : Route → HttpError
  | .cover _ => notFound (ascii "Book cover was not found.")
  | _ => notFound (ascii "Book was not found.")

/-- The body of a route that asks nothing. -/
def plainResponse (backendOpen : Bool) (requestId : Nat) : Route → HttpResponse
  | .health => ⟨200, requestId, [], .health backendOpen⟩
  | .ready => ⟨if backendOpen then 200 else 503, requestId, [], .readiness backendOpen⟩
  | _ => ⟨200, requestId, [], .version⟩

/-- The phase after a call that was answered. -/
def onAnswer (route : Route) (requestId : Nat) (hasLease : Bool) :
    Except HandlerError CallAnswer → Phase
  | .error error => .answered requestId (errorResponse error.httpError requestId) none
  | .ok .nothing => .answered requestId (errorResponse (missingError route) requestId) none
  | .ok (.text body) =>
    .answered requestId ⟨successStatus route, requestId, [], .json body⟩ none
  | .ok (.file file) => .delivering requestId file hasLease

namespace HttpServer

variable {σ : Type}

/-- `CDownloadGate::Release`. -/
def release (server : HttpServer σ) (hasLease : Bool) : HttpServer σ :=
  if hasLease then { server with activeDownloads := server.activeDownloads - 1 } else server

/-- The destructor of `CFileResponseLifetime`, without the lease. -/
def cleanUp (app : Application σ) (server : HttpServer σ) (file : ServerFileResponse) :
    HttpServer σ :=
  match file.cleanupRoot with
  | none => server
  | some root => { server with
      host := app.removeAll root server.host
      removed := root :: server.removed }

/-- A call from a handler. A lease that is not handed on to a file is released. -/
def makeCall (options : HttpServerOptions) (app : Application σ) (server : HttpServer σ)
    (index : Nat) (request : HttpRequest) (requestId : Nat) (route : Route) (hasLease : Bool) :
    HttpServer σ × Phase :=
  match hostCallOf options request route with
  | .error error =>
    (server.release hasLease, .answered requestId (errorResponse error requestId) none)
  | .ok none =>
    (server.release hasLease,
      .answered requestId (plainResponse (app.isOpen server.host) requestId route) none)
  | .ok (some call) =>
    let (answer, host) := app.call call server.host
    let server := { server with host := host, calls := (index, call) :: server.calls }
    match onAnswer route requestId hasLease answer with
    | .delivering requestId file hasLease =>
      ({ server with handedOut := file.cleanupRoot.toList ++ server.handedOut },
        .delivering requestId file hasLease)
    | phase => (server.release hasLease, phase)

/-- The next step of a request; nothing for one that is being sent, or was answered. -/
def proceed (options : HttpServerOptions) (app : Application σ) (server : HttpServer σ)
    (index : Nat) (exchange : Exchange) : Option (HttpServer σ × Phase) :=
  match exchange.phase with
  | .received =>
    if isBodyOverLimit options exchange then some (server, .overLimit)
    else
      let requestId := server.nextRequestSequence + 1
      some ({ server with nextRequestSequence := requestId }, onReceived options exchange requestId)
  | .overLimit =>
    let requestId := server.nextRequestSequence + 1
    some ({ server with nextRequestSequence := requestId },
      .answered requestId (overLimitResponse requestId) none)
  | .handling requestId route =>
    some (server,
      onHandling options (app.isOpen server.host) exchange.request requestId route)
  | .admitted requestId (.download bookId) =>
    if options.maxConcurrentDownloads ≤ server.activeDownloads then
      some (server, .answered requestId (errorResponse
        (tooManyRequests (ascii "Too many downloads are already active.")) requestId) none)
    else some ({ server with activeDownloads := server.activeDownloads + 1 },
      .holding requestId bookId)
  | .admitted requestId route =>
    some (makeCall options app server index exchange.request requestId route false)
  | .holding requestId bookId =>
    some (makeCall options app server index exchange.request requestId (.download bookId) true)
  | .delivering requestId file hasLease =>
    match setFileResponse options app exchange.request file server.host requestId with
    | .error error =>
      some (server.cleanUp app file,
        .ending requestId file hasLease (errorResponse error requestId))
    | .ok response =>
      if response.status = 416 then
        some (server.cleanUp app file, .ending requestId file hasLease response)
      else some (server, .sending requestId file hasLease response)
  | .ending requestId file hasLease response =>
    some (server.release hasLease, .answered requestId response (some file))
  | .sending .. | .answered .. => none

/-- A step: a request arrives, a request goes on, the library lets go of a file, or the application
changes. -/
inductive Act (σ : Type)
  | receive (request : HttpRequest) (overloaded : Bool)
  | advance (index : Nat)
  | finish (index : Nat)
  | change (host : σ)

def step (options : HttpServerOptions) (app : Application σ) (server : HttpServer σ) :
    Act σ → Option (HttpServer σ)
  | .receive request overloaded =>
    some { server with exchanges := server.exchanges ++ [{ request, overloaded }] }
  | .advance index => do
    let exchange ← server.exchanges[index]?
    let (server, phase) ← server.proceed options app index exchange
    return { server with exchanges := server.exchanges.set index { exchange with phase := phase } }
  | .finish index => do
    let exchange ← server.exchanges[index]?
    match exchange.phase with
    | .sending requestId file hasLease response =>
      let phase := .ending requestId file hasLease response
      let server := server.cleanUp app file
      return { server with
        exchanges := server.exchanges.set index { exchange with phase := phase } }
    | _ => none
  | .change host => some { server with host := host }

end HttpServer

end InpxWebReader.Server
