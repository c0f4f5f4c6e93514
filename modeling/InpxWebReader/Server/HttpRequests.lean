import InpxWebReader.Server.RequestedRanges
import InpxWebReader.Server.ScanCoordinator
import Mathlib.Data.List.GetD

/-!
# Requests and their routes

Before the body of a request is read, the server checks its text and its access token. Then the
first route that matches its method and its path handles it, and checks the token again.
`authorize_iff` says what a token has to be; `requiresApiAuthentication_of_route` that the early
check covers every route that makes its own.
-/

namespace InpxWebReader.Server

open Foundation Unicode Domain Scan

/-! ### Errors -/

/-- `CHttpErrorMapper::Unauthorized`. -/
def unauthorized (message : Bytes) : HttpError := ⟨401, ascii "unauthorized", message⟩

/-- `CHttpErrorMapper::PayloadTooLarge`. -/
def payloadTooLarge (message : Bytes) : HttpError := ⟨413, ascii "payload_too_large", message⟩

/-- `CHttpErrorMapper::TooManyRequests`. -/
def tooManyRequests (message : Bytes) : HttpError := ⟨429, ascii "too_many_requests", message⟩

/-- `CHttpErrorMapper::BackendNotReady`. -/
def backendNotReady : HttpError :=
  ⟨503, ascii "backend_not_ready", ascii "The catalog service is not ready yet."⟩

def serverOverloaded : HttpError :=
  ⟨503, ascii "server_overloaded", ascii "HTTP request capacity is exhausted; retry later."⟩

def mapDomainError (code : Domain.DomainErrorCode) (message : Bytes) : HttpError :=
  match code with
  | .validation => badRequest message
  | .notFound => notFound message
  | .converterUnavailable | .cancellation => conflict message
  | .converterTimeout => ⟨504, ascii "converter_timeout", message⟩
  | .catalogSnapshotChanged => ⟨409, ascii "catalog_snapshot_changed", message⟩
  | .catalogCursorExpired => ⟨409, ascii "catalog_cursor_expired", message⟩
  | .catalogCursorCapacityExceeded => ⟨409, ascii "catalog_cursor_capacity_exceeded", message⟩
  | .catalogCursorInvalid => ⟨400, ascii "invalid_cursor", message⟩
  | .parserFailure | .converterFailed | .integrityIssue => internalServerError

/-! ### Requests -/

/-- `httplib::Request`. Headers stand in the order in which the library finds them by their name. -/
structure HttpRequest where
  method : Bytes
  path : Bytes
  params : Params := []
  headers : List (Bytes × Bytes) := []
  body : Bytes := []
  ranges : List ByteRange := []

namespace HttpRequest

/-- The first header of a name, in any case. -/
def header? (request : HttpRequest) (name : Bytes) : Option Bytes :=
  (request.headers.find? fun header => toLowerAscii header.1 = toLowerAscii name).map Prod.snd

def getHeaderValue (request : HttpRequest) (name : Bytes) : Bytes := (request.header? name).getD []

end HttpRequest

def getAuthorizationHeader (request : HttpRequest) : Option Bytes :=
  let value := request.getHeaderValue (ascii "Authorization")
  if value = [] then none else some value

def isSafeRequestText (value : Bytes) : Bool :=
  isValidUtf8 value && value.all fun ch => !(ch < 0x20 || ch = 0x7F)

def hasSafeRequestTarget (request : HttpRequest) : Bool :=
  isSafeRequestText request.method && isSafeRequestText request.path &&
    request.params.all fun parameter =>
      isSafeRequestText parameter.1 && isSafeRequestText parameter.2

/-- `GET` and `HEAD`. -/
def isReadMethod (method : Bytes) : Bool := method = ascii "GET" || method = ascii "HEAD"

def isPublicApiRoute (request : HttpRequest) : Bool :=
  isReadMethod request.method &&
    (request.path = ascii "/api/health" || request.path = ascii "/api/ready")

def requiresApiAuthentication (request : HttpRequest) : Bool :=
  (request.path = ascii "/api" || (ascii "/api/").isPrefixOf request.path) &&
    !isPublicApiRoute request

def hasRequestBody (request : HttpRequest) : Bool :=
  (request.header? (ascii "Transfer-Encoding")).isSome ||
    match request.header? (ascii "Content-Length") with
    | none => false
    | some value => parseUnsigned (2 ^ 64) value ≠ some 0

/-! ### The access token -/

def constantTimeEquals (left right : Bytes) : Bool :=
  (List.range (max left.length right.length)).foldl
    (fun difference index =>
      difference ||| ((left.getD index 0) ^^^ (right.getD index 0)).toNat)
    (left.length ^^^ right.length) = 0

/-- `CAuthMiddleware::Authorize`: nothing, or the message of the refusal. -/
def authorize (token : Bytes) (authorizationHeader : Option Bytes) : Option Bytes :=
  if token = [] then none
  else match authorizationHeader with
    | none => some (ascii "Authentication is required.")
    | some header =>
      if constantTimeEquals header (ascii "Bearer " ++ token) then none
      else some (ascii "Authentication failed.")

/-- `ValidateRequestBeforeBody`; the queue has marked the request where it was full. -/
def validateRequestBeforeBody (token : Bytes) (overloaded : Bool) (request : HttpRequest) :
    Option HttpError :=
  let checkBody :=
    if ¬(request.method = ascii "POST" ∧ request.path = ascii "/api/scan/start") ∧
        hasRequestBody request then
      some (badRequest (ascii "This endpoint does not accept a request body."))
    else none
  if overloaded then some serverOverloaded
  else if ¬hasSafeRequestTarget request then
    some (badRequest (ascii "Request target must be valid UTF-8 without control characters."))
  else if requiresApiAuthentication request then
    match authorize token (getAuthorizationHeader request) with
    | some message => some (unauthorized message)
    | none => checkBody
  else checkBody

/-! ### Routes -/

/-- The routes in `RegisterRoutes`; the text of a book id is as it stands in the path. -/
inductive Route
  | health
  | ready
  | version
  | status
  | books
  | download (bookId : Bytes)
  | bookDetails (bookId : Bytes)
  | malformedBookId
  | stats
  | cover (bookId : Bytes)
  | source
  | scanStart
  | scanProgress
  | scanCancel
  | staticAsset
  deriving DecidableEq

/-- What a path goes on with after an opening. -/
def afterText (opening path : Bytes) : Option Bytes :=
  if opening.isPrefixOf path then some (path.drop opening.length) else none

def beforeText (ending path : Bytes) : Option Bytes :=
  if ending.isSuffixOf path then some (path.take (path.length - ending.length)) else none

/-- A text that `[^/]+` matches. -/
def isPathSegment (text : Bytes) : Bool := text ≠ [] && !text.contains (asciiByte '/')

/-- The route of a path below `/api/books/`. -/
def bookRoute (rest : Bytes) : Option Route :=
  match (beforeText (ascii "/download") rest).filter isPathSegment with
  | some bookId => some (.download bookId)
  | none =>
    if isPathSegment rest then some (.bookDetails rest)
    else if rest ≠ [] then some .malformedBookId
    else none

/-- The route of a path below `/api/covers/`. -/
def coverRoute (rest : Bytes) : Option Route :=
  if isPathSegment rest then some (.cover rest)
  else if rest ≠ [] then some .malformedBookId
  else none

/-- A path that `/(?!api(/|$)).*` matches. -/
def isStaticPath (path : Bytes) : Bool :=
  (ascii "/").isPrefixOf path && path ≠ ascii "/api" && !(ascii "/api/").isPrefixOf path

/-- The first route that matches, in the order of the registration. -/
def routeOf (hasStaticAssets : Bool) (request : HttpRequest) : Option Route :=
  if isReadMethod request.method then
    if request.path = ascii "/api/health" then some .health
    else if request.path = ascii "/api/ready" then some .ready
    else if request.path = ascii "/api/version" then some .version
    else if request.path = ascii "/api/status" then some .status
    else if request.path = ascii "/api/books" then some .books
    else if request.path = ascii "/api/stats" then some .stats
    else if request.path = ascii "/api/source" then some .source
    else if request.path = ascii "/api/scan/progress" then some .scanProgress
    else match afterText (ascii "/api/books/") request.path with
      | some rest => bookRoute rest
      | none =>
        match afterText (ascii "/api/covers/") request.path with
        | some rest => coverRoute rest
        | none => if hasStaticAssets && isStaticPath request.path then some .staticAsset else none
  else if request.method = ascii "POST" then
    if request.path = ascii "/api/scan/start" then some .scanStart
    else if request.path = ascii "/api/scan/cancel" then some .scanCancel
    else none
  else none

/-- The `requiresAuth` of a route's handler. -/
def Route.requiresAuth : Route → Bool
  | .health | .ready | .staticAsset => false
  | _ => true

/-- The `requiresBackend` of a route's handler. -/
def Route.requiresBackend : Route → Bool
  | .health | .ready | .version | .malformedBookId | .staticAsset => false
  | _ => true

/-! ### Arguments -/

def bookIdInvalid : HttpError := badRequest (ascii "Book id must be a positive integer.")

def parseBookId (value : Bytes) : Except HttpError Nat :=
  match parseUnsigned (2 ^ 63) value with
  | some bookId => if 0 < bookId then .ok bookId else .error bookIdInvalid
  | none => .error bookIdInvalid

/-- `EServerDownloadFormat`. -/
inductive DownloadFormat
  | original
  | epub
  deriving DecidableEq

def parseDownloadFormat (params : Params) : Except HttpError DownloadFormat := do
  let format ← readSingleQueryValue params (ascii "format")
  let value := toLowerAscii (format.getD (ascii "original"))
  if value = ascii "original" then return .original
  else if value = ascii "epub" then return .epub
  else throw (badRequest (ascii "Query parameter 'format' must be 'original' or 'epub'."))

def maxScanWarningLimit : Nat := 1000

/-- A member of a JSON object, as far as the scan request looks at it. -/
inductive JsonMember
  | null
  | string (text : Bytes)
  | integer (n : Int)
  | other
  deriving DecidableEq

/-- The body of a request, parsed: the error of the parser, or the members where it is an object. -/
abbrev JsonBody := Bytes → Except Bytes (Option (List (Bytes × JsonMember)))

def parseScanMode (mode : Bytes) : Except HttpError ScanMode :=
  if mode = ascii "initial" ∨ mode = ascii "initial_scan" then .ok .initialScan
  else if mode = ascii "rescan" then .ok .rescan
  else .error (badRequest (ascii "Field 'mode' must be 'initial', 'initial_scan', or 'rescan'."))

/-- The field `mode` of a scan request. -/
def readScanMode (request : ScanRequest) : Option JsonMember → Except HttpError ScanRequest
  | none | some .null => .ok request
  | some (.string mode) => do return { request with mode := ← parseScanMode mode }
  | some _ => .error (badRequest (ascii "Field 'mode' must be a string."))

/-- The field `warningLimit` of a scan request. -/
def readWarningLimit (request : ScanRequest) : Option JsonMember → Except HttpError ScanRequest
  | none | some .null => .ok request
  | some (.integer n) =>
    if n < 0 then
      .error (badRequest (ascii "Field 'warningLimit' must be an unsigned integer."))
    else if (maxScanWarningLimit : Int) < n then
      .error (badRequest (ascii "Field 'warningLimit' exceeds the server maximum."))
    else .ok { request with warningLimit := n.toNat }
  | some _ => .error (badRequest (ascii "Field 'warningLimit' must be an unsigned integer."))

def parseScanStartRequest (parse : JsonBody) (body : Bytes) : Except HttpError ScanRequest :=
  if body = [] then .ok {}
  else match parse body with
    | .error what => .error (badRequest (ascii "Request JSON is invalid: " ++ what))
    | .ok none => .error (badRequest (ascii "Request body must be a JSON object."))
    | .ok (some members) => do
      let request ← readScanMode {} (members.lookup (ascii "mode"))
      readWarningLimit request (members.lookup (ascii "warningLimit"))

/-! ### The token, plainly -/

/-- A disjunction of words is zero exactly if all of them are. -/
theorem foldl_or_eq_zero {α : Type} {f : α → Nat} {xs : List α} {init : Nat} :
    xs.foldl (fun difference x => difference ||| f x) init = 0 ↔
      init = 0 ∧ ∀ x ∈ xs, f x = 0 := by
  induction xs generalizing init with
  | nil => simp
  | cons x xs ih => rw [List.foldl_cons, ih, Nat.or_eq_zero_iff, List.forall_mem_cons, and_assoc]

theorem xor_eq_zero_iff {m n : Nat} : m ^^^ n = 0 ↔ m = n := by
  refine ⟨fun h => ?_, fun h => h ▸ Nat.xor_self m⟩
  calc m = m ^^^ (n ^^^ n) := by rw [Nat.xor_self, Nat.xor_zero]
    _ = (m ^^^ n) ^^^ n := (Nat.xor_assoc m n n).symm
    _ = n := by rw [h, Nat.zero_xor]

theorem constantTimeEquals_iff {left right : Bytes} :
    constantTimeEquals left right = true ↔ left = right := by
  have hbyte : ∀ a b : UInt8, (a ^^^ b).toNat = 0 ↔ a = b := by
    intro a b
    rw [UInt8.toNat_xor, xor_eq_zero_iff, UInt8.toNat_inj]
  rw [constantTimeEquals, decide_eq_true_eq, foldl_or_eq_zero, xor_eq_zero_iff]
  constructor
  · rintro ⟨hlength, hbytes⟩
    refine List.ext_getElem hlength fun i hi hi' => ?_
    have hrange := List.mem_range.mpr (lt_of_lt_of_le hi (le_max_left _ right.length))
    have hsame := (hbyte _ _).mp (hbytes i hrange)
    rwa [List.getD_eq_getElem _ _ hi, List.getD_eq_getElem _ _ hi'] at hsame
  · rintro rfl
    exact ⟨rfl, fun i _ => (hbyte _ _).mpr rfl⟩

/-- A request is let through without a token in the configuration, and otherwise with the very token
behind `Bearer`. -/
theorem authorize_iff {token : Bytes} {header : Option Bytes} :
    authorize token header = none ↔ token = [] ∨ header = some (ascii "Bearer " ++ token) := by
  by_cases htoken : token = []
  · simp [authorize.eq_def, htoken]
  · cases header with
    | none => simp [authorize, htoken]
    | some header =>
      rw [authorize, if_neg htoken]
      by_cases hequal : header = ascii "Bearer " ++ token
      · rw [if_pos (constantTimeEquals_iff.mpr hequal)]
        simp [hequal]
      · rw [if_neg fun h => hequal (constantTimeEquals_iff.mp h)]
        simp [htoken, hequal]

/-- A request that passes the early check of a path under the API carries the token. -/
theorem authorize_of_validate {token : Bytes} {overloaded : Bool} {request : HttpRequest}
    (h : validateRequestBeforeBody token overloaded request = none)
    (hapi : requiresApiAuthentication request = true) :
    authorize token (getAuthorizationHeader request) = none := by
  rw [validateRequestBeforeBody] at h
  split at h
  · cases h
  split at h
  · cases h
  split at h
  · cases h
  · assumption

/-! ### Routes under the API -/

theorem isPrefixOf_of_afterText {opening path rest : Bytes}
    (h : afterText opening path = some rest) :
    opening.isPrefixOf path = true := by
  rw [afterText] at h
  split at h
  · assumption
  · cases h

/-- A path with an opening that neither public path has is not public. -/
theorem requiresApiAuthentication_of_opening {request : HttpRequest} {opening : Bytes}
    (hpath : opening.isPrefixOf request.path = true)
    (hapi : (ascii "/api/").isPrefixOf opening = true)
    (hhealth : opening.isPrefixOf (ascii "/api/health") = false)
    (hready : opening.isPrefixOf (ascii "/api/ready") = false) :
    requiresApiAuthentication request = true := by
  have hprefixed : (ascii "/api/").isPrefixOf request.path = true := by
    rw [List.isPrefixOf_iff_prefix] at hapi hpath ⊢
    exact hapi.trans hpath
  have hne : ∀ path, opening.isPrefixOf path = false → request.path ≠ path := by
    rintro path hfalse rfl
    rw [hpath] at hfalse
    cases hfalse
  rw [requiresApiAuthentication, isPublicApiRoute, hprefixed]
  simp [hne _ hhealth, hne _ hready]

/-- The early check covers every route whose handler checks the token. -/
theorem requiresApiAuthentication_of_route {hasStaticAssets : Bool} {request : HttpRequest}
    {route : Route} (h : routeOf hasStaticAssets request = some route)
    (hauth : route.requiresAuth = true) : requiresApiAuthentication request = true := by
  rw [routeOf] at h
  split at h
  · split at h
    · cases h
      cases hauth
    split at h
    · cases h
      cases hauth
    have hliteral : ∀ path : Bytes, request.path = path → (ascii "/api/").isPrefixOf path = true →
        path.isPrefixOf (ascii "/api/health") = false →
        path.isPrefixOf (ascii "/api/ready") = false → requiresApiAuthentication request = true :=
      fun path heq => requiresApiAuthentication_of_opening
        (heq ▸ List.isPrefixOf_iff_prefix.mpr (List.prefix_refl _))
    split at h
    · next heq => exact hliteral _ heq (by decide) (by decide) (by decide)
    split at h
    · next heq => exact hliteral _ heq (by decide) (by decide) (by decide)
    split at h
    · next heq => exact hliteral _ heq (by decide) (by decide) (by decide)
    split at h
    · next heq => exact hliteral _ heq (by decide) (by decide) (by decide)
    split at h
    · next heq => exact hliteral _ heq (by decide) (by decide) (by decide)
    split at h
    · next heq => exact hliteral _ heq (by decide) (by decide) (by decide)
    split at h
    · next hafter =>
      exact requiresApiAuthentication_of_opening (isPrefixOf_of_afterText hafter)
        (by decide) (by decide) (by decide)
    split at h
    · next hafter =>
      exact requiresApiAuthentication_of_opening (isPrefixOf_of_afterText hafter)
        (by decide) (by decide) (by decide)
    split at h
    · cases h
      cases hauth
    · cases h
  · next hmethod =>
    rw [Bool.not_eq_true] at hmethod
    have hpost : (ascii "/api/").isPrefixOf request.path = true →
        requiresApiAuthentication request = true := by
      intro hpath
      rw [requiresApiAuthentication, isPublicApiRoute, hmethod, hpath]
      simp
    split at h
    · split at h
      · next heq => exact hpost (by rw [heq]; decide)
      split at h
      · next heq => exact hpost (by rw [heq]; decide)
      · cases h
    · cases h

end InpxWebReader.Server
