import InpxWebReader.Server.BookListCursor

/-!
# Requests for book lists

`parseBookListRequest` reads the parameters of a query string into a `BookListRequest`. A parameter
for one value must appear at most once; the filters are lists, read from every appearance of their
parameter and split at commas.
-/

namespace InpxWebReader.Server

open Foundation Domain Query

structure HttpError where
  status : Nat := 500
  code : Bytes
  message : Bytes
  deriving DecidableEq

/-- `CHttpErrorMapper::BadRequest`. -/
def badRequest (message : Bytes) : HttpError := ⟨400, ascii "bad_request", message⟩

/-- `CHttpErrorMapper::InternalServerError`. -/
def internalServerError : HttpError :=
  ⟨500, ascii "internal_error", ascii "Internal server error."⟩

/-! ### Query parameters -/

/-- The decoded parameters of a query string, by their names. -/
abbrev Params := List (Bytes × Bytes)

/-- `get_param_value(name, 0)`, `get_param_value(name, 1)` and so on. -/
def Params.valuesOf (params : Params) (name : Bytes) : List Bytes :=
  (params.filter fun p => p.1 = name).map Prod.snd

/-- The loop of `SplitCsvValues`. -/
def splitCsvFrom (current : Bytes) : Bytes → List Bytes
  | [] => if current = [] then [] else [current]
  | ch :: rest =>
    if ch = asciiByte ',' then
      if current = [] then splitCsvFrom [] rest else current :: splitCsvFrom [] rest
    else splitCsvFrom (current ++ [ch]) rest

def splitCsvValues (value : Bytes) : List Bytes := splitCsvFrom [] value

def readCsvQueryValues (params : Params) (name : Bytes) : List Bytes :=
  (params.valuesOf name).flatMap splitCsvValues

def readSingleQueryValue (params : Params) (name : Bytes) : Except HttpError (Option Bytes) :=
  match params.valuesOf name with
  | [] => .ok none
  | [value] => .ok (some value)
  | _ => .error (badRequest (ascii "Query parameter " ++ quoted name ++
      ascii " must appear at most once."))

def parseSizeQueryValue (value fieldName : Bytes) : Except HttpError Nat :=
  match parseUnsigned (2 ^ 64) value with
  | some n => .ok n
  | none => .error (badRequest (ascii "Query parameter " ++ quoted fieldName ++
      ascii " must be a non-negative integer."))

def parseBoolQueryValue (value fieldName : Bytes) : Except HttpError Bool :=
  let value := toLowerAscii value
  if value = ascii "true" ∨ value = ascii "1" ∨ value = ascii "yes" then .ok true
  else if value = ascii "false" ∨ value = ascii "0" ∨ value = ascii "no" then .ok false
  else .error (badRequest (ascii "Query parameter " ++ quoted fieldName ++
    ascii " must be true or false."))

/-- One round of the loop in `ParseSearchFields`. -/
def selectField (scope : SearchFieldScope) (field : Bytes) : Except HttpError SearchFieldScope :=
  let normalized := toLowerAscii field
  if normalized = ascii "title" then .ok { scope with title := true }
  else if normalized = ascii "authors" ∨ normalized = ascii "author" then
    .ok { scope with authors := true }
  else if normalized = ascii "annotation" ∨ normalized = ascii "description" then
    .ok { scope with description := true }
  else .error (badRequest (ascii "Query parameter 'fields' contains an unsupported field."))

def parseSearchFields (params : Params) : Except HttpError SearchFieldScope := do
  match ← readSingleQueryValue params (ascii "fields") with
  | none => return {}
  | some fields =>
    let scope ← (splitCsvValues fields).foldlM selectField ⟨false, false, false⟩
    if scope.hasAnyField then return scope
    else .error (badRequest (ascii "Query parameter 'fields' must select at least one field."))

def parseBookSort (params : Params) : Except HttpError (Option BookSort) := do
  match ← readSingleQueryValue params (ascii "sort") with
  | none => return none
  | some value =>
    let normalized := toLowerAscii value
    if value = [] then return none
    else if normalized = ascii "title" then return some .title
    else if normalized = ascii "author" ∨ normalized = ascii "authors" then return some .author
    else if normalized = ascii "added" ∨ normalized = ascii "dateadded" then
      return some .dateAdded
    else .error (badRequest (ascii "Query parameter 'sort' is unsupported."))

def parseSortDirection (params : Params) : Except HttpError (Option SortDirection) := do
  match ← readSingleQueryValue params (ascii "direction") with
  | none => return none
  | some value =>
    let normalized := toLowerAscii value
    if value = [] then return none
    else if normalized = ascii "asc" ∨ normalized = ascii "ascending" then
      return some .ascending
    else if normalized = ascii "desc" ∨ normalized = ascii "descending" then
      return some .descending
    else .error (badRequest (ascii "Query parameter 'direction' must be 'asc' or 'desc'."))

/-! ### The request -/

/-- The offset of a request, zero where there is none. -/
def parseOffset (params : Params) : Except HttpError (Option Nat) := do
  match ← readSingleQueryValue params (ascii "offset") with
  | none => return none
  | some value =>
    let offset ← parseSizeQueryValue value (ascii "offset")
    if 2 ^ 63 - 1 < offset then
      .error (badRequest
        (ascii "Query parameter 'offset' exceeds the supported SQLite range."))
    else return some offset

/-- The limit of a request, kept between one and `maxPageSize`. -/
def parseLimit (params : Params) (maxPageSize : Nat) : Except HttpError Nat := do
  match ← readSingleQueryValue params (ascii "limit") with
  | none => return min 50 maxPageSize
  | some value => return max 1 (min (← parseSizeQueryValue value (ascii "limit")) maxPageSize)

/-- Whether a request asks for facets. -/
def parseIncludeFacets (params : Params) : Except HttpError Bool := do
  match ← readSingleQueryValue params (ascii "includeFacets") with
  | none => return true
  | some value => parseBoolQueryValue value (ascii "includeFacets")

/-- The answer to a cursor that `Decode` refuses. -/
def invalidCursor : CursorError → HttpError
  | .invalidArgument message => ⟨400, ascii "invalid_cursor", message⟩
  | .jsonError => internalServerError

/-- The cursor of a request that was read so far. -/
def parseCursor (json : JsonText) (sha : Sha256) (params : Params) (offset : Option Nat)
    (request : BookListRequest) : Except HttpError (Option SearchCursor) := do
  match ← readSingleQueryValue params (ascii "cursor") with
  | none => return none
  | some value =>
    if offset.isSome then
      .error (badRequest (ascii "Query parameters 'cursor' and 'offset' cannot be combined."))
    else
      match decodeCursor json sha value request with
      | .ok cursor => return some cursor
      | .error e => .error (invalidCursor e)

def parseBookListRequest (json : JsonText) (sha : Sha256) (params : Params) (maxPageSize : Nat) :
    Except HttpError BookListRequest := do
  let text ← readSingleQueryValue params (ascii "text")
  let searchFields ← parseSearchFields params
  let sortBy ← parseBookSort params
  let sortDirection ← parseSortDirection params
  let offset ← parseOffset params
  let limit ← parseLimit params maxPageSize
  let includeFacets ← parseIncludeFacets params
  let request : BookListRequest :=
    { text := text.getD []
      searchFields := searchFields
      languages := readCsvQueryValues params (ascii "languages")
      genres := readCsvQueryValues params (ascii "genres")
      sortBy := sortBy
      sortDirection := sortDirection
      offset := offset.getD 0
      limit := limit
      includeFacets := includeFacets
      includeLanguageFacets := includeFacets
      includeGenreFacets := includeFacets }
  let cursor ← parseCursor json sha params offset request
  return { request with cursor := cursor }

/-! ### Values with commas -/

theorem splitCsvFrom_of_notMem {value : Bytes} (h : asciiByte ',' ∉ value) (current : Bytes) :
    splitCsvFrom current value = if current ++ value = [] then [] else [current ++ value] := by
  induction value generalizing current with
  | nil => simp [splitCsvFrom]
  | cons ch rest ih =>
    rw [List.mem_cons, not_or] at h
    rw [splitCsvFrom, if_neg (Ne.symm h.1), ih h.2, List.append_assoc, List.singleton_append]

theorem notMem_of_mem_splitCsvFrom {value : Bytes} {current x : Bytes}
    (hcurrent : asciiByte ',' ∉ current) (hx : x ∈ splitCsvFrom current value) :
    asciiByte ',' ∉ x := by
  induction value generalizing current with
  | nil =>
    rw [splitCsvFrom] at hx
    split at hx
    · cases hx
    · rw [List.mem_singleton.mp hx]
      exact hcurrent
  | cons ch rest ih =>
    rw [splitCsvFrom] at hx
    split at hx
    · split at hx
      · exact ih List.not_mem_nil hx
      · rcases List.mem_cons.mp hx with rfl | hx
        · exact hcurrent
        · exact ih List.not_mem_nil hx
    · rename_i hch
      refine ih ?_ hx
      rw [List.mem_append, List.mem_singleton, not_or]
      exact ⟨hcurrent, Ne.symm hch⟩

/-- A value that is not empty stays whole exactly when it has no comma. -/
theorem splitCsvValues_eq_singleton_iff {value : Bytes} (hne : value ≠ []) :
    splitCsvValues value = [value] ↔ asciiByte ',' ∉ value := by
  constructor
  · intro h
    have hmem : value ∈ splitCsvFrom [] value := by
      show value ∈ splitCsvValues value
      rw [h]
      exact List.mem_singleton_self value
    exact notMem_of_mem_splitCsvFrom List.not_mem_nil hmem
  · intro h
    rw [splitCsvValues, splitCsvFrom_of_notMem h, List.nil_append, if_neg hne]

end InpxWebReader.Server
