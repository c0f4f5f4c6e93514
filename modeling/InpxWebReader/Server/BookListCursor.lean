import InpxWebReader.Foundation.Sha256
import InpxWebReader.Query.SearchPage
import InpxWebReader.Query.SearchSpec
import InpxWebReader.Server.Base64Url

/-!
# Cursors of book lists

A cursor leaves the server as base64url of a JSON object, together with a fingerprint of the query
that it belongs to, and comes back with a request that must have the same fingerprint. The
fingerprint is the digest of a canonical form of the query (`canonicalQuery`); the session that the
cursor leads to is compared by its criteria, a canonical form of its own.

The JSON library is a parameter, `JsonText`: all that is assumed of it is that it reads back what it
wrote (`RoundTripsOn`).
-/

namespace InpxWebReader.Server

open Foundation Domain Query

/-! ### JSON -/

/-- A JSON value. A number is kept as the integer that the conversions of the program make of it,
and an object as its members by their names. -/
inductive Json
  | null
  | bool (b : Bool)
  | number (n : Int)
  | string (s : Bytes)
  | array (items : List Json)
  | object (members : List (Bytes × Json))

/-- `nlohmann::json`: `dump` throws on a string that is not UTF-8, and no JSON text is empty. -/
structure JsonText where
  dump : Json → Option Bytes
  parse : Bytes → Option Json
  dump_ne_nil : ∀ v, dump v ≠ some []

/-- The library reads back the values of `S`. -/
def JsonText.RoundTripsOn (json : JsonText) (S : Set Json) : Prop :=
  ∀ v ∈ S, ∀ text, json.dump v = some text → json.parse text = some v

/-- `get<std::string>`. -/
def Json.getString : Json → Option Bytes
  | .string s => some s
  | _ => none

/-- `get<int>`, which takes a truth value for a number. -/
def Json.getInt : Json → Option Int
  | .number n => some (n.bmod (2 ^ 32))
  | .bool b => some b.toInt
  | _ => none

/-- `get<std::size_t>`, the type of the library's own unsigned numbers, for which truth values are
none. -/
def Json.getSize : Json → Option Nat
  | .number n => some (n % 2 ^ 64).toNat
  | _ => none

/-! ### Requests and their fingerprints -/

structure BookListRequest where
  text : Bytes := []
  searchFields : SearchFieldScope := {}
  languages : List Bytes := []
  genres : List Bytes := []
  sortBy : Option BookSort := none
  sortDirection : Option SortDirection := none
  offset : Nat := 0
  limit : Nat := 50
  cursor : Option SearchCursor := none
  includeFacets : Bool := true
  includeLanguageFacets : Bool := true
  includeGenreFacets : Bool := true
  deriving DecidableEq

def BookListRequest.toDomainQuery (request : BookListRequest) : SearchQuery where
  text := request.text
  searchFields := request.searchFields
  languages := request.languages
  genres := request.genres
  sortBy := request.sortBy
  sortDirection := request.sortDirection
  offset := request.offset
  limit := request.limit
  cursor := request.cursor

/-- `static_cast<int>` of an `EBookSort`. -/
def sortNumber : BookSort → Int
  | .title => 0
  | .author => 1
  | .dateAdded => 2

/-- `static_cast<int>` of an `ESortDirection`. -/
def directionNumber : SortDirection → Int
  | .ascending => 0
  | .descending => 1

/-- The canonical form in `BuildQueryFingerprint`. -/
def canonicalQuery (request : BookListRequest) : Json :=
  let fields := if request.searchFields.hasAnyField then request.searchFields else {}
  .object [
    (ascii "direction", .number (directionNumber (request.sortDirection.getD .ascending))),
    (ascii "fields", .object [
      (ascii "authors", .bool fields.authors),
      (ascii "description", .bool fields.description),
      (ascii "title", .bool fields.title)]),
    (ascii "genres", .array ((canonicalizeValues request.genres true).map .string)),
    (ascii "languages", .array ((canonicalizeValues request.languages false).map .string)),
    (ascii "sort", .number (sortNumber (request.sortBy.getD .title))),
    (ascii "text", .string (normalizeText request.text))]

/-- `BuildQueryFingerprint`; `none` where `dump` throws. -/
def buildQueryFingerprint (json : JsonText) (sha : Sha256) (request : BookListRequest) :
    Option Bytes :=
  (json.dump (canonicalQuery request)).map sha.computeBytes

/-! ### The codec -/

def isSessionId (value : Bytes) : Bool := value.length = 32 && value.all isAsciiHexDigit

/-- The members of the object that stands for a cursor. -/
def cursorMembers (cursor : SearchCursor) (fingerprint : Bytes) : List (Bytes × Json) :=
  [(ascii "position", .number cursor.position), (ascii "query", .string fingerprint),
    (ascii "session", .string cursor.sessionId),
    (ascii "snapshot", .string cursor.catalogSnapshotId),
    (ascii "source", .string cursor.sourceFingerprint), (ascii "version", .number 1)]

/-- The exceptions of the codec; `jsonError` is the one of `dump`. -/
inductive CursorError
  | invalidArgument (message : Bytes)
  | jsonError
  deriving DecidableEq

def stateInvalid : CursorError := .invalidArgument (ascii "Catalog cursor state is invalid.")

def encodingInvalid : CursorError :=
  .invalidArgument (ascii "Catalog cursor encoding is invalid.")

def queryMismatch : CursorError :=
  .invalidArgument (ascii "Catalog cursor does not match this query.")

def cursorInvalid : CursorError := .invalidArgument (ascii "Catalog cursor is invalid.")

/-- The value, or the exception of a missing one. -/
def orThrow {α : Type} (error : CursorError) : Option α → Except CursorError α
  | some a => .ok a
  | none => .error error

theorem orThrow_some_bind {α β : Type} {error : CursorError} (a : α)
    (f : α → Except CursorError β) : (orThrow error (some a) >>= f) = f a := rfl

/-- `CBookListCursorCodec::Encode`. -/
def encodeCursor (json : JsonText) (sha : Sha256) (cursor : SearchCursor)
    (request : BookListRequest) : Except CursorError Bytes := do
  if cursor.isValid && isSessionId cursor.sessionId then
    let fingerprint ← orThrow .jsonError (buildQueryFingerprint json sha request)
    let text ← orThrow .jsonError (json.dump (.object (cursorMembers cursor fingerprint)))
    return encodeBase64Url text
  else .error stateInvalid

/-- The cursor in the members of an object. -/
def readCursor (members : List (Bytes × Json)) : Option SearchCursor := do
  let sessionId ← (← members.lookup (ascii "session")).getString
  let sourceFingerprint ← (← members.lookup (ascii "source")).getString
  let catalogSnapshotId ← (← members.lookup (ascii "snapshot")).getString
  let position ← (← members.lookup (ascii "position")).getSize
  return ⟨sessionId, sourceFingerprint, catalogSnapshotId, position⟩

/-- The part of `Decode` after the text was parsed. -/
def decodePayload (json : JsonText) (sha : Sha256) (request : BookListRequest) :
    Json → Except CursorError SearchCursor
  | .object members =>
    if members.length ≠ 6 then .error queryMismatch
    else do
      let version ← orThrow cursorInvalid ((members.lookup (ascii "version")).bind Json.getInt)
      if version ≠ 1 then .error queryMismatch
      else
        let query ← orThrow cursorInvalid ((members.lookup (ascii "query")).bind Json.getString)
        let fingerprint ← orThrow cursorInvalid (buildQueryFingerprint json sha request)
        if query ≠ fingerprint then .error queryMismatch
        else
          let cursor ← orThrow cursorInvalid (readCursor members)
          if !cursor.isValid || !isSessionId cursor.sessionId ||
              256 < cursor.sourceFingerprint.length || 256 < cursor.catalogSnapshotId.length then
            .error stateInvalid
          else return cursor
  | _ => .error queryMismatch

/-- `CBookListCursorCodec::Decode`. -/
def decodeCursor (json : JsonText) (sha : Sha256) (encoded : Bytes) (request : BookListRequest) :
    Except CursorError SearchCursor := do
  let text ← orThrow encodingInvalid (decodeBase64Url encoded)
  let payload ← orThrow cursorInvalid (json.parse text)
  decodePayload json sha request payload

/-! ### The canonical form -/

/-- The fields that a search looks into. -/
def BookListRequest.effectiveFields (request : BookListRequest) : SearchFieldScope :=
  if request.searchFields.hasAnyField then request.searchFields else {}

/-- What two requests with one canonical form have in common. -/
structure SameCanonicalQuery (r r' : BookListRequest) : Prop where
  text : normalizeText r.text = normalizeText r'.text
  fields : r.effectiveFields = r'.effectiveFields
  languages : canonicalizeValues r.languages false = canonicalizeValues r'.languages false
  genres : canonicalizeValues r.genres true = canonicalizeValues r'.genres true
  sortBy : r.sortBy.getD .title = r'.sortBy.getD .title
  direction : r.sortDirection.getD .ascending = r'.sortDirection.getD .ascending

theorem sortNumber_inj {a b : BookSort} (h : sortNumber a = sortNumber b) : a = b := by
  cases a <;> cases b <;> first | rfl | cases h

theorem directionNumber_inj {a b : SortDirection} (h : directionNumber a = directionNumber b) :
    a = b := by
  cases a <;> cases b <;> first | rfl | cases h

theorem map_string_inj {a b : List Bytes} (h : a.map Json.string = b.map Json.string) : a = b :=
  List.map_injective_iff.mpr (fun _ _ he => Json.string.inj he) h

theorem sameCanonicalQuery {r r' : BookListRequest} (h : canonicalQuery r = canonicalQuery r') :
    SameCanonicalQuery r r' := by
  simp only [canonicalQuery, Json.object.injEq, List.cons.injEq, Prod.mk.injEq, true_and, and_true,
    Json.number.injEq, Json.array.injEq, Json.bool.injEq, Json.string.injEq] at h
  obtain ⟨hdirection, ⟨hauthors, hdescription, htitle⟩, hgenres, hlanguages, hsort, htext⟩ := h
  refine {
    text := htext
    fields := ?_
    languages := map_string_inj hlanguages
    genres := map_string_inj hgenres
    sortBy := sortNumber_inj hsort
    direction := directionNumber_inj hdirection }
  rw [BookListRequest.effectiveFields]
  rw [SearchFieldScope.mk.injEq]
  exact ⟨htitle, hauthors, hdescription⟩

theorem ftsScope_effectiveFields (fields : SearchFieldScope) :
    ftsScope (if fields.hasAnyField then fields else {}) = ftsScope fields := by
  by_cases h : fields.hasAnyField = true
  · rw [if_pos h]
  · rw [if_neg h]
    unfold ftsScope
    rw [if_neg h]
    rfl

/-- Requests of one canonical form ask the index the same, where both or none of them have a
text. -/
theorem SameCanonicalQuery.buildFtsQuery_eq {r r' : BookListRequest} (h : SameCanonicalQuery r r')
    (htext : r.text = [] ↔ r'.text = []) (fts : FullText) :
    buildFtsQuery fts r.toDomainQuery = buildFtsQuery fts r'.toDomainQuery := by
  have hhas : r.toDomainQuery.hasText = r'.toDomainQuery.hasText := by
    unfold SearchQuery.hasText
    rw [Bool.eq_iff_iff, Bool.not_eq_true', Bool.not_eq_true', List.isEmpty_eq_false_iff,
      List.isEmpty_eq_false_iff]
    exact not_congr htext
  have hscope : ftsScope r.toDomainQuery.searchFields = ftsScope r'.toDomainQuery.searchFields := by
    rw [← ftsScope_effectiveFields r.toDomainQuery.searchFields,
      ← ftsScope_effectiveFields r'.toDomainQuery.searchFields]
    exact congrArg ftsScope h.fields
  have hnormalized : normalizeText r.toDomainQuery.text = normalizeText r'.toDomainQuery.text :=
    h.text
  unfold buildFtsQuery
  rw [hhas, hscope, hnormalized]

theorem SameCanonicalQuery.buildSessionCriteria_eq {r r' : BookListRequest}
    (h : SameCanonicalQuery r r') (ftsQuery : Bytes) :
    buildSessionCriteria r.toDomainQuery ftsQuery =
      buildSessionCriteria r'.toDomainQuery ftsQuery := by
  rw [buildSessionCriteria]
  rw [Criteria.mk.injEq]
  exact ⟨rfl, h.languages, h.genres, h.sortBy, h.direction⟩

/-! ### The codec -/

section Codec

variable {json : JsonText} {sha : Sha256} {r r' : BookListRequest} {cursor : SearchCursor}
  {encoded : Bytes}

/-- What is assumed of the JSON library and of SHA-256 for a cursor and two requests. -/
structure Trusted (json : JsonText) (sha : Sha256) (cursor : SearchCursor)
    (r r' : BookListRequest) : Prop where
  queries : json.RoundTripsOn {canonicalQuery r, canonicalQuery r'}
  payload : ∀ fingerprint, buildQueryFingerprint json sha r = some fingerprint →
    json.RoundTripsOn {.object (cursorMembers cursor fingerprint)}
  digests : sha.CollisionFree {text | json.dump (canonicalQuery r) = some text ∨
    json.dump (canonicalQuery r') = some text}

/-- What the decoder takes: a position of `std::size_t`, names that are not too long, and an
encoding that is not too long. -/
structure Fits (cursor : SearchCursor) (encoded : Bytes) : Prop where
  position : cursor.position < 2 ^ 64
  source : cursor.sourceFingerprint.length ≤ 256
  snapshot : cursor.catalogSnapshotId.length ≤ 256
  length : encoded.length ≤ maxEncodedCursorBytes

/-- Equal fingerprints are those of equal canonical forms. -/
theorem Trusted.canonicalQuery_eq (h : Trusted json sha cursor r r') {fingerprint : Bytes}
    (hr : buildQueryFingerprint json sha r = some fingerprint)
    (hr' : buildQueryFingerprint json sha r' = some fingerprint) :
    canonicalQuery r = canonicalQuery r' := by
  obtain ⟨text, htext, hdigest⟩ := Option.map_eq_some_iff.mp hr
  obtain ⟨text', htext', hdigest'⟩ := Option.map_eq_some_iff.mp hr'
  have hsame : text = text' := h.digests text (Or.inl htext) text' (Or.inr htext')
    (Sha256.digest_eq_of_computeBytes_eq (hdigest.trans hdigest'.symm))
  have hparse := h.queries _ (Set.mem_insert _ _) text htext
  have hparse' := h.queries _ (Set.mem_insert_of_mem _ rfl) text' htext'
  rw [hsame, hparse'] at hparse
  exact (Option.some.inj hparse).symm

theorem orThrow_eq_ok {α : Type} {error : CursorError} {x : Option α} {a : α}
    (h : orThrow error x = .ok a) : x = some a := by
  cases x with
  | none => cases h
  | some b => rw [Except.ok.inj h]

theorem encodeCursor_eq_ok (h : encodeCursor json sha cursor r = .ok encoded) :
    (cursor.isValid = true ∧ isSessionId cursor.sessionId = true) ∧ ∃ fingerprint text,
      buildQueryFingerprint json sha r = some fingerprint ∧
      json.dump (.object (cursorMembers cursor fingerprint)) = some text ∧
      encoded = encodeBase64Url text := by
  rw [encodeCursor] at h
  split at h
  · rename_i hvalid
    obtain ⟨fingerprint, hfingerprint, h⟩ := Program.except_bind_eq_ok h
    obtain ⟨text, htext, h⟩ := Program.except_bind_eq_ok h
    injection h with h
    exact ⟨by simpa using hvalid, fingerprint, text, orThrow_eq_ok hfingerprint,
      orThrow_eq_ok htext, h.symm⟩
  · cases h

theorem lookup_cursorMembers (cursor : SearchCursor) (fingerprint : Bytes) :
    (cursorMembers cursor fingerprint).lookup (ascii "version") = some (.number 1) ∧
    (cursorMembers cursor fingerprint).lookup (ascii "query") = some (.string fingerprint) ∧
    (cursorMembers cursor fingerprint).lookup (ascii "session") =
      some (.string cursor.sessionId) ∧
    (cursorMembers cursor fingerprint).lookup (ascii "source") =
      some (.string cursor.sourceFingerprint) ∧
    (cursorMembers cursor fingerprint).lookup (ascii "snapshot") =
      some (.string cursor.catalogSnapshotId) ∧
    (cursorMembers cursor fingerprint).lookup (ascii "position") =
      some (.number cursor.position) :=
  ⟨rfl, rfl, rfl, rfl, rfl, rfl⟩

theorem readCursor_cursorMembers (hposition : cursor.position < 2 ^ 64) (fingerprint : Bytes) :
    readCursor (cursorMembers cursor fingerprint) = some cursor := by
  obtain ⟨_, _, hsession, hsource, hsnapshot, hsize⟩ := lookup_cursorMembers cursor fingerprint
  have hnat : ((cursor.position : Int) % 2 ^ 64).toNat = cursor.position := by omega
  rw [readCursor]
  simp only [hsession, hsource, hsnapshot, hsize, Option.bind_eq_bind, Option.bind_some,
    Json.getString, Json.getSize, hnat]
  rfl

/-- What becomes of an encoded cursor: only the fingerprint of the request decides. -/
theorem decodePayload_cursorMembers {fingerprint : Bytes} (hvalid : cursor.isValid = true)
    (hsession : isSessionId cursor.sessionId = true) (hposition : cursor.position < 2 ^ 64)
    (hsource : cursor.sourceFingerprint.length ≤ 256)
    (hsnapshot : cursor.catalogSnapshotId.length ≤ 256) :
    decodePayload json sha r' (.object (cursorMembers cursor fingerprint)) =
      match buildQueryFingerprint json sha r' with
      | none => .error cursorInvalid
      | some fingerprint' =>
        if fingerprint = fingerprint' then .ok cursor else .error queryMismatch := by
  obtain ⟨hversion, hquery, _⟩ := lookup_cursorMembers cursor fingerprint
  have hstate : (!cursor.isValid || !isSessionId cursor.sessionId ||
      decide (256 < cursor.sourceFingerprint.length) ||
      decide (256 < cursor.catalogSnapshotId.length)) = false := by
    rw [hvalid, hsession]
    simp [hsource, hsnapshot]
  have hone : Json.getInt (.number 1) = some 1 := rfl
  unfold decodePayload
  dsimp only
  rw [if_neg (show ¬(cursorMembers cursor fingerprint).length ≠ 6 from not_not.mpr rfl), hversion,
    Option.bind_some, hone, orThrow_some_bind, if_neg (not_not.mpr rfl), hquery, Option.bind_some,
    Json.getString, orThrow_some_bind]
  cases buildQueryFingerprint json sha r' with
  | none => rfl
  | some fingerprint' =>
    rw [orThrow_some_bind]
    dsimp only
    by_cases h : fingerprint = fingerprint'
    · rw [if_neg (not_not.mpr h), if_pos h, readCursor_cursorMembers hposition,
        orThrow_some_bind, hstate]
      rfl
    · rw [if_pos h, if_neg h]

/-- An encoded cursor comes back with exactly the requests that have its canonical query. -/
theorem decodeCursor_eq_ok_iff (h : encodeCursor json sha cursor r = .ok encoded)
    (htrusted : Trusted json sha cursor r r') (hfits : Fits cursor encoded) :
    (decodeCursor json sha encoded r' = .ok cursor ↔ canonicalQuery r = canonicalQuery r') ∧
      (canonicalQuery r ≠ canonicalQuery r' →
        ∃ e, decodeCursor json sha encoded r' = .error e) := by
  obtain ⟨⟨hvalid, hsession⟩, fingerprint, text, hfingerprint, htext, rfl⟩ := encodeCursor_eq_ok h
  have hne : text ≠ [] := by
    rintro rfl
    exact json.dump_ne_nil _ htext
  have hdecode : decodeCursor json sha (encodeBase64Url text) r' =
      match buildQueryFingerprint json sha r' with
      | none => .error cursorInvalid
      | some fingerprint' =>
        if fingerprint = fingerprint' then .ok cursor else .error queryMismatch := by
    rw [decodeCursor]
    rw [decodeBase64Url_encodeBase64Url hne hfits.length]
    rw [orThrow_some_bind, htrusted.payload fingerprint hfingerprint _ rfl text htext, orThrow_some_bind]
    exact decodePayload_cursorMembers hvalid hsession hfits.position hfits.source hfits.snapshot
  rw [hdecode]
  cases hfingerprint' : buildQueryFingerprint json sha r' with
  | none =>
    have hdiffers : canonicalQuery r ≠ canonicalQuery r' := by
      intro hsame
      rw [buildQueryFingerprint] at hfingerprint hfingerprint'
      rw [hsame, hfingerprint'] at hfingerprint
      cases hfingerprint
    constructor
    · constructor
      · intro he
        cases he
      · exact fun hsame => absurd hsame hdiffers
    · exact fun _ => ⟨_, rfl⟩
  | some fingerprint' =>
    have hiff : fingerprint = fingerprint' ↔ canonicalQuery r = canonicalQuery r' := by
      constructor
      · rintro rfl
        exact htrusted.canonicalQuery_eq hfingerprint hfingerprint'
      · intro hsame
        rw [buildQueryFingerprint] at hfingerprint hfingerprint'
        rw [hsame, hfingerprint'] at hfingerprint
        exact (Option.some.inj hfingerprint).symm
    dsimp only
    by_cases he : fingerprint = fingerprint'
    · rw [if_pos he]
      exact ⟨⟨fun _ => hiff.mp he, fun _ => rfl⟩, fun hne => absurd (hiff.mp he) hne⟩
    · rw [if_neg he]
      constructor
      · constructor
        · intro hok
          cases hok
        · exact fun hsame => absurd (hiff.mpr hsame) he
      · exact fun _ => ⟨_, rfl⟩

/-- The codec and the criteria of a session agree: an encoding is read back and only encodings
are, a cursor comes back with the requests of its canonical query and no others, and requests of one
fingerprint, with a text each or without any, lead to one and the same criteria. -/
theorem cursor_codec (json : JsonText) (sha : Sha256) :
    (∀ bytes, bytes ≠ [] → (encodeBase64Url bytes).length ≤ maxEncodedCursorBytes →
      decodeBase64Url (encodeBase64Url bytes) = some bytes) ∧
    (∀ encoded bytes, decodeBase64Url encoded = some bytes →
      encodeBase64Url bytes = encoded ∧ encoded ≠ [] ∧
        encoded.length ≤ maxEncodedCursorBytes) ∧
    ∀ cursor r r', Trusted json sha cursor r r' →
      (∀ encoded, encodeCursor json sha cursor r = .ok encoded → Fits cursor encoded →
        (decodeCursor json sha encoded r' = .ok cursor ↔ canonicalQuery r = canonicalQuery r') ∧
        (canonicalQuery r ≠ canonicalQuery r' →
          ∃ e, decodeCursor json sha encoded r' = .error e)) ∧
      ∀ fingerprint, buildQueryFingerprint json sha r = some fingerprint →
        buildQueryFingerprint json sha r' = some fingerprint → (r.text = [] ↔ r'.text = []) →
        ∀ fts, buildFtsQuery fts r.toDomainQuery = buildFtsQuery fts r'.toDomainQuery ∧
          ∀ ftsQuery, buildSessionCriteria r.toDomainQuery ftsQuery =
            buildSessionCriteria r'.toDomainQuery ftsQuery := by
  refine ⟨fun bytes hne hlength => decodeBase64Url_encodeBase64Url hne hlength,
    fun encoded bytes h => decodeBase64Url_eq_some h, ?_⟩
  intro cursor r r' htrusted
  refine ⟨fun encoded h hfits => decodeCursor_eq_ok_iff h htrusted hfits, ?_⟩
  intro fingerprint hr hr' htext fts
  have hsame := sameCanonicalQuery (htrusted.canonicalQuery_eq hr hr')
  exact ⟨hsame.buildFtsQuery_eq htext fts, fun ftsQuery => hsame.buildSessionCriteria_eq ftsQuery⟩

/-- Nothing is not read back, and a blank text has the fingerprint of no text but criteria of its
own. -/
theorem blankText_not_cursor_codec :
    decodeBase64Url (encodeBase64Url []) = none ∧
    (∀ json sha, buildQueryFingerprint json sha { text := ascii " " } =
      buildQueryFingerprint json sha { text := [] }) ∧
    buildFtsQuery emptyText (BookListRequest.toDomainQuery { text := ascii " " }) ≠
      buildFtsQuery emptyText (BookListRequest.toDomainQuery { text := [] }) := by
  refine ⟨rfl, ?_, by decide +kernel⟩
  intro json sha
  have htext : normalizeText (ascii " ") = normalizeText [] := by decide +kernel
  unfold buildQueryFingerprint canonicalQuery
  simp only [htext]

end Codec

/-! ### A sample -/

mutual

/-- The text of a value whose strings need no escapes. -/
def plainText : Json → Bytes
  | .null => ascii "null"
  | .bool b => ascii (if b then "true" else "false")
  | .number n => decimalInt n
  | .string s => ascii "\"" ++ s ++ ascii "\""
  | .array items => ascii "[" ++ plainItems items
  | .object members => ascii "\x7b" ++ plainMembers members

/-- The rest of an array after its opening bracket. -/
def plainItems : List Json → Bytes
  | [] => ascii "]"
  | [v] => plainText v ++ ascii "]"
  | v :: items => plainText v ++ ascii "," ++ plainItems items

/-- The rest of an object after its opening brace. -/
def plainMembers : List (Bytes × Json) → Bytes
  | [] => ascii "\x7d"
  | [(name, v)] => ascii "\"" ++ name ++ ascii "\":" ++ plainText v ++ ascii "\x7d"
  | (name, v) :: members =>
    ascii "\"" ++ name ++ ascii "\":" ++ plainText v ++ ascii "," ++ plainMembers members

end

theorem plainText_ne_nil (v : Json) : plainText v ≠ [] := by
  cases v with
  | null => decide
  | bool b => cases b <;> decide
  | number n =>
    cases n with
    | ofNat n => exact decimal_ne_nil n
    | negSucc n => exact List.cons_ne_nil _ _
  | string s => simp [plainText, ascii]
  | array items => simp [plainText, ascii]
  | object members => simp [plainText, ascii]

/-- The library, for the values of a table. -/
def plainJson (values : List Json) : JsonText where
  dump v := some (plainText v)
  parse text := values.find? fun v => plainText v = text
  dump_ne_nil v h := plainText_ne_nil v (Option.some.inj h)

theorem roundTripsOn_plainJson {values : List Json}
    (h : ∀ a ∈ values, ∀ b ∈ values, plainText a = plainText b → a = b) {v : Json}
    (hv : v ∈ values) : (plainJson values).RoundTripsOn {v} := by
  rintro _ rfl text htext
  cases hfind : values.find? fun v => plainText v = text with
  | none => exact absurd (List.find?_eq_none.mp hfind _ hv) (by simpa using Option.some.inj htext)
  | some w =>
    have hw : plainText w = text := by simpa using List.find?_some hfind
    have hsame : w = _ :=
      h w (List.mem_of_find?_eq_some hfind) _ hv (hw.trans (Option.some.inj htext).symm)
    rw [← hsame]
    exact hfind

def warRequest : BookListRequest where
  text := ascii "War"

def otherWarRequest : BookListRequest where
  text := ascii " war"

def warCursor : SearchCursor where
  sessionId := ascii "0123456789abcdef0123456789abcdef"
  sourceFingerprint := ascii "sha256:5f"
  catalogSnapshotId := ascii "1"
  position := 50

/-- The digest of the canonical form of both requests. -/
def warDigest : Sha256 where
  digest _ :=
    [250, 106, 90, 250, 35, 30, 32, 17, 67, 193, 185, 188, 52, 63, 166, 240, 23, 82, 253, 56, 235,
      173, 155, 94, 8, 63, 17, 214, 29, 13, 211, 218]
  length_digest _ := rfl

/-- What stands in the encoding of `warCursor`. -/
def warPayload : Json :=
  .object (cursorMembers warCursor (warDigest.computeBytes []))

def warJson : JsonText := plainJson [warPayload, canonicalQuery warRequest]

theorem canonicalQuery_otherWarRequest :
    canonicalQuery otherWarRequest = canonicalQuery warRequest := by
  have htext : normalizeText (ascii " war") = normalizeText (ascii "War") := by decide +kernel
  unfold canonicalQuery otherWarRequest warRequest
  simp only [htext]

theorem trusted_war : Trusted warJson warDigest warCursor warRequest otherWarRequest := by
  have hpayload : plainText warPayload ≠ plainText (canonicalQuery warRequest) := by
    intro h
    exact absurd (congrArg (·[2]?) h) (by decide)
  have hinj : ∀ a ∈ [warPayload, canonicalQuery warRequest],
      ∀ b ∈ [warPayload, canonicalQuery warRequest], plainText a = plainText b → a = b := by
    simp [hpayload, hpayload.symm]
  refine {
    queries := ?_
    payload := ?_
    digests := ?_ }
  · rw [canonicalQuery_otherWarRequest, Set.pair_eq_singleton]
    exact roundTripsOn_plainJson hinj (by simp)
  · intro fingerprint hfingerprint
    rw [← Option.some.inj hfingerprint]
    exact roundTripsOn_plainJson hinj List.mem_cons_self
  · rw [canonicalQuery_otherWarRequest]
    rintro a ha b hb _
    rw [Set.mem_ofPred_eq, or_self] at ha hb
    exact Option.some.inj (ha.symm.trans hb)

/-- The cursor of one request comes back with the other, which asks the same. -/
theorem warCursor_cursor_codec : ∃ encoded,
    encodeCursor warJson warDigest warCursor warRequest = .ok encoded ∧
    decodeCursor warJson warDigest encoded otherWarRequest = .ok warCursor := by
  have hencoded : encodeCursor warJson warDigest warCursor warRequest =
      .ok (encodeBase64Url (plainText warPayload)) := rfl
  have hfits : Fits warCursor (encodeBase64Url (plainText warPayload)) :=
    ⟨by decide, by decide, by decide, by decide +kernel⟩
  refine ⟨_, hencoded, ?_⟩
  have hiff := (((cursor_codec warJson warDigest).2.2 warCursor warRequest otherWarRequest
    trusted_war).1 _ hencoded hfits).1
  exact hiff.mpr canonicalQuery_otherWarRequest.symm

end InpxWebReader.Server
