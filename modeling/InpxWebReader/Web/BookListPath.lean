import InpxWebReader.Foundation.Unicode
import InpxWebReader.Library.PercentCoding
import InpxWebReader.Server.BookListRequest
import Mathlib.Data.List.DropRight
import Mathlib.Data.List.Nodup

/-!
# Queries of the web client

`buildBookListParams` is what the browser writes into the query string of a `BookQuery`, and
`survives_iff_noComma` says which queries the server reads as they were meant: the server splits a
filter at commas and the client does not escape them, so a selection with a comma comes apart.

`URLSearchParams` and the HTTP library are the parameter `QueryCodec`; all that is assumed of them
is that the one reads what the other wrote (`RoundTripsOn`).
-/

namespace InpxWebReader.Web

open Foundation Unicode Domain Server

/-! ### Queries -/

/-- A string of the browser, as the characters that `URLSearchParams` sees. -/
abbrev Text := List Char

def encodeText (text : Text) : Bytes := text.flatMap fun c => utf8OfCodePoint c.toNat

/-- The whitespace and the line terminators of `String.prototype.trim`. -/
def isTrimWhitespace (c : Char) : Bool :=
  [0x09, 0x0A, 0x0B, 0x0C, 0x0D, 0x20, 0xA0, 0x1680, 0x2028, 0x2029, 0x202F, 0x205F, 0x3000,
    0xFEFF].contains c.toNat || (0x2000 ≤ c.toNat && c.toNat ≤ 0x200A)

def trim (text : Text) : Text := (text.dropWhile isTrimWhitespace).rdropWhile isTrimWhitespace

/-- The fields of a `BookQuery`. -/
inductive SearchField
  | title
  | authors
  | description
  deriving DecidableEq

def SearchField.name : SearchField → Bytes
  | title => ascii "title"
  | authors => ascii "authors"
  | description => ascii "description"

/-- The `BookSort` of the client. -/
inductive SortName
  | title
  | authors
  | added
  deriving DecidableEq

def SortName.name : SortName → Bytes
  | title => ascii "title"
  | authors => ascii "authors"
  | added => ascii "added"

/-- The `SortDirection` of the client. -/
inductive DirectionName
  | asc
  | desc
  deriving DecidableEq

def DirectionName.name : DirectionName → Bytes
  | asc => ascii "asc"
  | desc => ascii "desc"

/-- `BookQuery`. Its numbers are safe integers, which `String` writes with all their digits. -/
structure BookQuery where
  text : Text := []
  fields : List SearchField := [.title, .authors, .description]
  language : Text := []
  genre : Text := []
  sort : SortName := .title
  direction : DirectionName := .asc
  offset : Int := 0
  limit : Int := 60
  includeFacets : Bool := true
  offset_safe : offset.natAbs < 2 ^ 53 := by decide
  limit_safe : limit.natAbs < 2 ^ 53 := by decide

theorem offset_zero_safe : (0 : Int).natAbs < 2 ^ 53 := by decide

theorem limit_default_safe : (60 : Int).natAbs < 2 ^ 53 := by decide

/-- A parameter that is set only where there is a value for it. -/
def optionalParam (name value : Bytes) (isSet : Bool) : Params :=
  if isSet then [(name, value)] else []

/-- The parameters that `buildBookListPath` sets, in their order. -/
def buildBookListParams (query : BookQuery) (cursor : Bytes) : Params :=
  optionalParam (ascii "text") (encodeText (trim query.text)) (trim query.text ≠ []) ++
  optionalParam (ascii "fields") ((ascii ",").intercalate (query.fields.map SearchField.name))
    (0 < query.fields.length ∧ query.fields.length < 3) ++
  optionalParam (ascii "languages") (encodeText query.language) (query.language ≠ []) ++
  optionalParam (ascii "genres") (encodeText query.genre) (query.genre ≠ []) ++
  [(ascii "sort", query.sort.name), (ascii "direction", query.direction.name),
    if cursor ≠ [] then (ascii "cursor", cursor)
      else (ascii "offset", decimalInt (max 0 query.offset)),
    (ascii "limit", decimalInt (max 1 query.limit)),
    (ascii "includeFacets", ascii (if query.includeFacets then "true" else "false"))]

/-- `toString` of `URLSearchParams`, and the parameters that the HTTP library finds in a target. -/
structure QueryCodec where
  toString : Params → Bytes
  targetParams : Bytes → Params

def buildBookListPath (codec : QueryCodec) (query : BookQuery) (cursor : Bytes) : Bytes :=
  ascii "/api/books?" ++ codec.toString (buildBookListParams query cursor)

/-- The library reads from the path what the browser wrote there. -/
def QueryCodec.RoundTripsOn (codec : QueryCodec) (query : BookQuery) (cursor : Bytes) : Prop :=
  codec.targetParams (buildBookListPath codec query cursor) = buildBookListParams query cursor

instance (codec : QueryCodec) (query : BookQuery) (cursor : Bytes) :
    Decidable (codec.RoundTripsOn query cursor) :=
  inferInstanceAs (Decidable (_ = _))

/-! ### What a query means -/

/-- The scope that a set of fields stands for; no field at all stands for every field. -/
def BookQuery.scope (query : BookQuery) : SearchFieldScope :=
  if query.fields = [] then {}
  else
    { title := .title ∈ query.fields
      authors := .authors ∈ query.fields
      description := .description ∈ query.fields }

/-- The filter that a selection stands for. -/
def selection (value : Text) : List Bytes := if value = [] then [] else [encodeText value]

/-- The server reads from the path of a query what the query says. -/
def Survives (codec : QueryCodec) (json : JsonText) (sha : Sha256) (maxPageSize : Nat)
    (query : BookQuery) : Prop :=
  ∃ request, parseBookListRequest json sha
      (codec.targetParams (buildBookListPath codec query [])) maxPageSize = .ok request ∧
    request.text = encodeText (trim query.text) ∧ request.searchFields = query.scope ∧
    request.languages = selection query.language ∧ request.genres = selection query.genre ∧
    request.offset = (max 0 query.offset).toNat

/-! ### Commas -/

theorem toNat_of_mem_utf8OfCodePoint {codePoint : Nat} (h : 0x7F < codePoint) {b : UInt8}
    (hb : b ∈ utf8OfCodePoint codePoint) : 0x80 ≤ b.toNat := by
  have hbyte : ∀ n, 0x80 ≤ n → n < 256 → 0x80 ≤ (UInt8.ofNat n).toNat := by
    intro n hlow hhigh
    rw [UInt8.toNat_ofNat', Nat.mod_eq_of_lt hhigh]
    exact hlow
  rw [utf8OfCodePoint, if_neg (by omega)] at hb
  split at hb
  · simp only [List.mem_cons, List.not_mem_nil, or_false] at hb
    rcases hb with rfl | rfl <;> exact hbyte _ (by omega) (by omega)
  · split at hb
    · simp only [List.mem_cons, List.not_mem_nil, or_false] at hb
      rcases hb with rfl | rfl | rfl <;> exact hbyte _ (by omega) (by omega)
    · simp only [List.mem_cons, List.not_mem_nil, or_false] at hb
      rcases hb with rfl | rfl | rfl | rfl <;> exact hbyte _ (by omega) (by omega)

theorem comma_mem_encodeText {text : Text} : asciiByte ',' ∈ encodeText text ↔ ',' ∈ text := by
  have hcomma : (asciiByte ',').toNat = 0x2C := rfl
  rw [encodeText, List.mem_flatMap]
  constructor
  · rintro ⟨c, hc, hmem⟩
    by_cases h : 0x7F < c.toNat
    · have := toNat_of_mem_utf8OfCodePoint h hmem
      omega
    · rw [utf8OfCodePoint, if_pos (by omega), List.mem_singleton, ← UInt8.toNat_inj, hcomma,
        UInt8.toNat_ofNat', Nat.mod_eq_of_lt (by omega)] at hmem
      rw [Char.toNat_inj.mp (show (',' : Char).toNat = c.toNat from hmem)]
      exact hc
  · intro h
    exact ⟨',', h, by decide⟩

theorem utf8OfCodePoint_ne_nil (codePoint : Nat) : utf8OfCodePoint codePoint ≠ [] := by
  rw [utf8OfCodePoint]
  split_ifs <;> exact List.cons_ne_nil _ _

theorem encodeText_eq_nil {text : Text} : encodeText text = [] ↔ text = [] := by
  cases text with
  | nil => simp [encodeText]
  | cons c text => simp [encodeText, utf8OfCodePoint_ne_nil]

/-! ### Reading the parameters -/

section Params

variable (query : BookQuery)

@[simp] theorem valuesOf_append (params params' : Params) (name : Bytes) :
    Params.valuesOf (params ++ params') name = params.valuesOf name ++ params'.valuesOf name := by
  simp [Params.valuesOf]

@[simp] theorem valuesOf_cons (name' value : Bytes) (params : Params) (name : Bytes) :
    Params.valuesOf ((name', value) :: params) name =
      if name' = name then value :: params.valuesOf name else params.valuesOf name := by
  by_cases h : name' = name <;> simp [Params.valuesOf, h]

@[simp] theorem valuesOf_nil (name : Bytes) : Params.valuesOf [] name = [] := rfl

@[simp] theorem valuesOf_optionalParam (name' value : Bytes) (isSet : Bool) (name : Bytes) :
    (optionalParam name' value isSet).valuesOf name =
      if name' = name ∧ isSet = true then [value] else [] := by
  cases isSet <;> simp [optionalParam]

theorem valuesOf_text : (buildBookListParams query []).valuesOf (ascii "text") =
    if trim query.text = [] then [] else [encodeText (trim query.text)] := by
  simp +decide [buildBookListParams]

theorem valuesOf_fields : (buildBookListParams query []).valuesOf (ascii "fields") =
    if 0 < query.fields.length ∧ query.fields.length < 3 then
      [(ascii ",").intercalate (query.fields.map SearchField.name)] else [] := by
  simp +decide [buildBookListParams]

theorem valuesOf_languages : (buildBookListParams query []).valuesOf (ascii "languages") =
    if query.language = [] then [] else [encodeText query.language] := by
  simp +decide [buildBookListParams]

theorem valuesOf_genres : (buildBookListParams query []).valuesOf (ascii "genres") =
    if query.genre = [] then [] else [encodeText query.genre] := by
  simp +decide [buildBookListParams]

theorem valuesOf_rest :
    (buildBookListParams query []).valuesOf (ascii "sort") = [query.sort.name] ∧
    (buildBookListParams query []).valuesOf (ascii "direction") = [query.direction.name] ∧
    (buildBookListParams query []).valuesOf (ascii "cursor") = [] ∧
    (buildBookListParams query []).valuesOf (ascii "offset") =
      [decimalInt (max 0 query.offset)] ∧
    (buildBookListParams query []).valuesOf (ascii "limit") =
      [decimalInt (max 1 query.limit)] ∧
    (buildBookListParams query []).valuesOf (ascii "includeFacets") =
      [ascii (if query.includeFacets then "true" else "false")] := by
  simp +decide [buildBookListParams]

/-- A filter is read as it was selected exactly where the selection has no comma. -/
theorem flatMap_splitCsvValues_iff (value : Text) :
    (if value = [] then [] else [encodeText value]).flatMap splitCsvValues = selection value ↔
      ',' ∉ value := by
  by_cases h : value = []
  · simp [h, selection]
  · have hne : encodeText value ≠ [] := fun he => h (encodeText_eq_nil.mp he)
    rw [if_neg h, selection, if_neg h, List.flatMap_singleton,
      splitCsvValues_eq_singleton_iff hne, comma_mem_encodeText]

theorem decimalInt_of_nonneg {n : Int} (h : 0 ≤ n) : decimalInt n = decimal n.toNat := by
  cases n with
  | ofNat n => rfl
  | negSucc n => exact absurd h (by omega)

theorem parseOffset_buildBookListParams :
    parseOffset (buildBookListParams query []) = .ok (some (max 0 query.offset).toNat) := by
  have hsafe := query.offset_safe
  have hvalue : parseSizeQueryValue (decimalInt (max 0 query.offset)) (ascii "offset") =
      .ok (max 0 query.offset).toNat := by
    rw [parseSizeQueryValue, decimalInt_of_nonneg (by omega), parseUnsigned_decimal (by omega)]
  simp only [parseOffset, readSingleQueryValue, (valuesOf_rest query).2.2.2.1]
  show (do
    let offset ← parseSizeQueryValue (decimalInt (max 0 query.offset)) (ascii "offset")
    if 2 ^ 63 - 1 < offset then _ else pure (some offset)) = _
  rw [hvalue]
  exact if_neg (by omega)

theorem parseLimit_buildBookListParams (maxPageSize : Nat) :
    ∃ limit, parseLimit (buildBookListParams query []) maxPageSize = .ok limit := by
  have hsafe := query.limit_safe
  have hvalue : parseSizeQueryValue (decimalInt (max 1 query.limit)) (ascii "limit") =
      .ok (max 1 query.limit).toNat := by
    rw [parseSizeQueryValue, decimalInt_of_nonneg (by omega), parseUnsigned_decimal (by omega)]
  refine ⟨max 1 (min (max 1 query.limit).toNat maxPageSize), ?_⟩
  simp only [parseLimit, readSingleQueryValue, (valuesOf_rest query).2.2.2.2.1]
  show (do
    let limit ← parseSizeQueryValue (decimalInt (max 1 query.limit)) (ascii "limit")
    pure (max 1 (min limit maxPageSize))) = _
  rw [hvalue]
  rfl

theorem parseBookSort_buildBookListParams :
    ∃ sortBy, parseBookSort (buildBookListParams query []) = .ok sortBy := by
  simp only [parseBookSort, readSingleQueryValue, (valuesOf_rest query).1]
  cases query.sort <;> exact ⟨_, rfl⟩

theorem parseSortDirection_buildBookListParams :
    ∃ direction, parseSortDirection (buildBookListParams query []) = .ok direction := by
  simp only [parseSortDirection, readSingleQueryValue, (valuesOf_rest query).2.1]
  cases query.direction <;> exact ⟨_, rfl⟩

theorem parseFields_of_few {fields : List SearchField} (hpos : 0 < fields.length)
    (hfew : fields.length < 3) :
    (splitCsvValues ((ascii ",").intercalate (fields.map SearchField.name))).foldlM selectField
        ⟨false, false, false⟩ =
      .ok ⟨.title ∈ fields, .authors ∈ fields, .description ∈ fields⟩ := by
  match fields, hpos, hfew with
  | [a], _, _ => cases a <;> rfl
  | [a, b], _, _ => cases a <;> cases b <;> rfl

theorem mem_of_three {fields : List SearchField} (hnodup : fields.Nodup)
    (hmany : 3 ≤ fields.length) (field : SearchField) : field ∈ fields := by
  match fields, hmany with
  | a :: b :: c :: rest, _ =>
    simp only [List.nodup_cons, List.mem_cons, not_or] at hnodup
    obtain ⟨⟨hab, hac, _⟩, ⟨hbc, _⟩, _⟩ := hnodup
    cases a <;> cases b <;> cases c <;> cases field <;> simp_all

theorem hasAnyField_scope : query.scope.hasAnyField = true := by
  cases hfields : query.fields with
  | nil => simp [BookQuery.scope, hfields, SearchFieldScope.hasAnyField]
  | cons field rest =>
    cases field <;> simp [BookQuery.scope, hfields, SearchFieldScope.hasAnyField]

theorem parseSearchFields_buildBookListParams (hnodup : query.fields.Nodup) :
    parseSearchFields (buildBookListParams query []) = .ok query.scope := by
  have hany := hasAnyField_scope query
  simp only [parseSearchFields, readSingleQueryValue, valuesOf_fields]
  by_cases hfew : 0 < query.fields.length ∧ query.fields.length < 3
  · have hscope : query.scope =
        ⟨.title ∈ query.fields, .authors ∈ query.fields, .description ∈ query.fields⟩ := by
      rw [BookQuery.scope, if_neg (List.ne_nil_of_length_pos hfew.1)]
    rw [if_pos hfew]
    show (do
      let scope ← (splitCsvValues ((ascii ",").intercalate
        (query.fields.map SearchField.name))).foldlM selectField ⟨false, false, false⟩
      if scope.hasAnyField then pure scope else _) = _
    rw [parseFields_of_few hfew.1 hfew.2, ← hscope]
    exact if_pos hany
  · rw [if_neg hfew]
    -- without the parameter every field is searched, as with no field or with all three
    have hscope : query.scope = {} := by
      by_cases hnil : query.fields = []
      · rw [BookQuery.scope, if_pos hnil]
      · have hpos := List.length_pos_iff.mpr hnil
        have hall := mem_of_three hnodup (by omega)
        simp [BookQuery.scope, hnil, hall]
    rw [hscope]
    rfl

theorem parseIncludeFacets_buildBookListParams :
    ∃ facets, parseIncludeFacets (buildBookListParams query []) = .ok facets := by
  simp only [parseIncludeFacets, readSingleQueryValue, (valuesOf_rest query).2.2.2.2.2]
  cases query.includeFacets <;> exact ⟨_, rfl⟩

theorem readText_buildBookListParams :
    ∃ text, readSingleQueryValue (buildBookListParams query []) (ascii "text") = .ok text ∧
      text.getD [] = encodeText (trim query.text) := by
  rw [readSingleQueryValue, valuesOf_text]
  by_cases h : trim query.text = []
  · rw [if_pos h, h]
    exact ⟨none, rfl, rfl⟩
  · rw [if_neg h]
    exact ⟨some _, rfl, rfl⟩

/-- What the server makes of a query, whatever was selected. -/
theorem parseBookListRequest_buildBookListParams (json : JsonText) (sha : Sha256)
    (maxPageSize : Nat) (hnodup : query.fields.Nodup) :
    ∃ request, parseBookListRequest json sha (buildBookListParams query []) maxPageSize =
        .ok request ∧
      request.text = encodeText (trim query.text) ∧ request.searchFields = query.scope ∧
      request.languages =
        (if query.language = [] then [] else [encodeText query.language]).flatMap
          splitCsvValues ∧
      request.genres =
        (if query.genre = [] then [] else [encodeText query.genre]).flatMap splitCsvValues ∧
      request.offset = (max 0 query.offset).toNat := by
  obtain ⟨sortBy, hsort⟩ := parseBookSort_buildBookListParams query
  obtain ⟨direction, hdirection⟩ := parseSortDirection_buildBookListParams query
  obtain ⟨limit, hlimit⟩ := parseLimit_buildBookListParams query maxPageSize
  obtain ⟨facets, hfacets⟩ := parseIncludeFacets_buildBookListParams query
  obtain ⟨text, htext, hvalue⟩ := readText_buildBookListParams query
  have hcursor : ∀ request, parseCursor json sha (buildBookListParams query [])
      (some (max 0 query.offset).toNat) request = .ok none := by
    intro request
    simp only [parseCursor, readSingleQueryValue, (valuesOf_rest query).2.2.1]
    rfl
  simp only [parseBookListRequest, htext, parseSearchFields_buildBookListParams query hnodup, hsort,
    hdirection, parseOffset_buildBookListParams query, hlimit, hfacets, bind, Except.bind, hcursor]
  refine ⟨_, rfl, hvalue, rfl, ?_, ?_, rfl⟩
  · dsimp only
    rw [readCsvQueryValues, valuesOf_languages]
  · dsimp only
    rw [readCsvQueryValues, valuesOf_genres]

end Params

/-- A query is read as it was meant exactly where neither selection has a comma in it. -/
theorem survives_iff_noComma (codec : QueryCodec) (json : JsonText) (sha : Sha256)
    (maxPageSize : Nat) (query : BookQuery) (hcodec : codec.RoundTripsOn query [])
    (hnodup : query.fields.Nodup) : Survives codec json sha maxPageSize query ↔
      ',' ∉ query.genre ∧ ',' ∉ query.language := by
  obtain ⟨request, hrequest, htext, hfields, hlanguages, hgenres, hoffset⟩ :=
    parseBookListRequest_buildBookListParams query json sha maxPageSize hnodup
  rw [← flatMap_splitCsvValues_iff query.genre, ← flatMap_splitCsvValues_iff query.language,
    ← hgenres, ← hlanguages, Survives, hcodec]
  constructor
  · rintro ⟨request', hrequest', _, _, hlanguages', hgenres', _⟩
    rw [hrequest, Except.ok.injEq] at hrequest'
    rw [hrequest']
    exact ⟨hgenres', hlanguages'⟩
  · rintro ⟨hgenre, hlanguage⟩
    exact ⟨request, hrequest, htext, hfields, hlanguage, hgenre, hoffset⟩

/-! ### A sample -/

/-- The bytes that stand for themselves in the serialization of a form. -/
def isPlainFormByte (b : UInt8) : Bool :=
  (Char.ofNat b.toNat).isAlphanum || (ascii "*-._").contains b

/-- The serialization of one byte of a form. -/
def formByte (b : UInt8) : Bytes :=
  if b = asciiByte ' ' then ascii "+" else PercentCoding.encodeByte isPlainFormByte b

def formText (params : Params) : Bytes :=
  (ascii "&").intercalate
    (params.map fun p => p.1.flatMap formByte ++ ascii "=" ++ p.2.flatMap formByte)

/-- What a serialized text stands for. -/
def formDecode (text : Bytes) : Bytes :=
  (PercentCoding.decode
    (text.map fun b => if b = asciiByte '+' then asciiByte ' ' else b)).getD text

/-- The parameters in the query string of a target. -/
def formParams (target : Bytes) : Params :=
  let queryText := (target.dropWhile (· ≠ asciiByte '?')).drop 1
  ((queryText.splitOn (asciiByte '&')).filter (· ≠ [])).map fun text =>
    (formDecode (text.takeWhile (· ≠ asciiByte '=')),
      formDecode ((text.dropWhile (· ≠ asciiByte '=')).drop 1))

def formCodec : QueryCodec := ⟨formText, formParams⟩

/-- A reader of popular science looks for a title. -/
def scienceQuery : BookQuery where
  text := " Ёлки & co ".toList
  fields := [.title]
  language := "ru".toList
  genre := "Art & Design".toList

theorem scienceQuery_survives : Survives formCodec warJson warDigest 100 scienceQuery :=
  (survives_iff_noComma formCodec warJson warDigest 100 scienceQuery (by decide +kernel)
    (by decide)).mpr (by decide)

/-- A reader of myths selects the genre of the mapper for them. -/
def mythsQuery : BookQuery where
  genre := "Myths, Legends & Epics".toList

/-- The server looks for two genres that no book has. -/
theorem mythsQuery_not_survives : ¬Survives formCodec warJson warDigest 100 mythsQuery := by
  rintro ⟨request, hrequest, _, _, _, hgenres, _⟩
  have hread : (parseBookListRequest warJson warDigest
      (formCodec.targetParams (buildBookListPath formCodec mythsQuery [])) 100).toOption.map
        BookListRequest.genres = some [ascii "Myths", ascii " Legends & Epics"] := by
    decide +kernel
  rw [hrequest] at hread
  have hmeant : request.genres ≠ [ascii "Myths", ascii " Legends & Epics"] := by
    rw [hgenres]
    decide
  exact hmeant (Option.some.inj hread)

end InpxWebReader.Web
