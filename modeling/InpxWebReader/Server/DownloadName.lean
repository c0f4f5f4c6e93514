import InpxWebReader.Foundation.FilenamePolicy
import InpxWebReader.Library.PercentCoding
import InpxWebReader.Query.Search
import InpxWebReader.Server.LogField

/-!
# Names of downloads in headers

A download is named after its title and its authors. The name goes into a header twice: in ASCII for
old clients, and percent-encoded. Whatever the catalog says about a book, the header stays one line
of printable ASCII (`buildContentDisposition_printable`) in which the name ends where it should
(`count_quote_buildContentDisposition`).
-/

namespace InpxWebReader.Server

open Foundation Unicode Query PercentCoding

/-! ### The name -/

def fileExtensionForFormat : BookFormat → Bytes
  | .epub => ascii ".epub"
  | .fb2 => ascii ".fb2"

/-- `maxBaseNameBytes` of `SanitizeDownloadBaseName`. -/
def maxBaseNameBytes : Nat := 160

def sanitizeDownloadBaseName (valueUtf8 : Bytes) : Bytes :=
  sanitizeDownloadFilenameBaseUtf8 valueUtf8 maxBaseNameBytes (ascii "book")

/-- One round of the loop over the authors. -/
def appendAuthor (authors author : Bytes) : Bytes :=
  (if authors = [] then [] else authors ++ ascii ", ") ++ author

/-- `BuildDownloadBaseName`, from the title and the authors of a download. -/
def buildDownloadBaseName (titleUtf8 : Bytes) (authorsUtf8 : List Bytes) : Bytes :=
  let baseName := if titleUtf8 = [] then ascii "book" else titleUtf8
  let authors := authorsUtf8.foldl appendAuthor []
  sanitizeDownloadBaseName (if authors = [] then baseName else baseName ++ ascii " - " ++ authors)

def downloadFileName (titleUtf8 : Bytes) (authorsUtf8 : List Bytes) (format : BookFormat) : Bytes :=
  buildDownloadBaseName titleUtf8 authorsUtf8 ++ fileExtensionForFormat format

/-! ### The header -/

def isAsciiAlphanumeric (ch : UInt8) : Bool :=
  (asciiByte '0' ≤ ch && ch ≤ asciiByte '9') || (asciiByte 'A' ≤ ch && ch ≤ asciiByte 'Z') ||
    (asciiByte 'a' ≤ ch && ch ≤ asciiByte 'z')

def isHeaderAttrChar (ch : UInt8) : Bool :=
  isAsciiAlphanumeric ch || (ascii "!#$&+-.^_\x60|~").contains ch

def percentEncodeHeaderValue (valueUtf8 : Bytes) : Bytes := encode isHeaderAttrChar valueUtf8

/-- One byte of `BuildAsciiFilenameFallback`. -/
def fallbackByte (ch : UInt8) : UInt8 :=
  if isAsciiAlphanumeric ch || (ascii ".-_").contains ch then ch else asciiByte '_'

def buildAsciiFilenameFallback (valueUtf8 : Bytes) : Bytes :=
  if valueUtf8 = [] then ascii "book" else valueUtf8.map fallbackByte

/-- What comes before the percent-encoded name. -/
def dispositionOpening (fileNameUtf8 : Bytes) : Bytes :=
  ascii "attachment; filename=\"" ++ buildAsciiFilenameFallback fileNameUtf8 ++ ascii "\"; "

def buildContentDisposition (fileNameUtf8 : Bytes) : Bytes :=
  dispositionOpening fileNameUtf8 ++ (ascii "filename*=UTF-8''" ++
    percentEncodeHeaderValue fileNameUtf8)

/-! ### Bytes of the header -/

theorem forall_byte {P : UInt8 → Prop} (h : ∀ n < 256, P (UInt8.ofNat n)) (b : UInt8) : P b := by
  have hb := h b.toNat b.toNat_lt
  rwa [UInt8.ofNat_toNat] at hb

theorem isPrintableByte_of_isHeaderAttrChar {b : UInt8} (h : isHeaderAttrChar b = true) :
    IsPrintableByte b ∧ b ≠ asciiByte '"' ∧ b ≠ asciiByte ';' :=
  forall_byte (P := fun b => isHeaderAttrChar b = true →
    IsPrintableByte b ∧ b ≠ asciiByte '"' ∧ b ≠ asciiByte ';') (by decide +kernel) b h

theorem isHeaderAttrChar_percent : isHeaderAttrChar percent = false := by decide

/-- The bytes of the encoded name are printable, and none of them ends the value. -/
theorem mem_percentEncodeHeaderValue {name : Bytes} {b : UInt8}
    (h : b ∈ percentEncodeHeaderValue name) :
    IsPrintableByte b ∧ b ≠ asciiByte '"' ∧ b ≠ asciiByte ';' := by
  rcases mem_encode h with hplain | rfl | ⟨n, hn, rfl⟩
  · exact isPrintableByte_of_isHeaderAttrChar hplain
  · decide
  · have hall : ∀ n < 16, IsPrintableByte (PercentCoding.hexDigit n) ∧
        PercentCoding.hexDigit n ≠ asciiByte '"' ∧
          PercentCoding.hexDigit n ≠ asciiByte ';' := by decide
    exact hall n hn

/-- The bytes of the name for old clients are letters, figures and a few marks. -/
theorem mem_buildAsciiFilenameFallback {name : Bytes} {b : UInt8}
    (h : b ∈ buildAsciiFilenameFallback name) :
    isAsciiAlphanumeric b = true ∨ b ∈ ascii ".-_" := by
  rw [buildAsciiFilenameFallback] at h
  split at h
  · have hbook : ∀ b ∈ ascii "book", isAsciiAlphanumeric b = true :=
      List.all_iff_forall_prop.mp (by decide)
    exact .inl (hbook b h)
  · obtain ⟨c, -, rfl⟩ := List.mem_map.mp h
    rw [fallbackByte]
    split
    · next hplain => rwa [Bool.or_eq_true, List.contains_iff_mem] at hplain
    · exact .inr (by decide)

theorem isPrintableByte_of_fallback {b : UInt8}
    (h : isAsciiAlphanumeric b = true ∨ b ∈ ascii ".-_") :
    IsPrintableByte b ∧ b ≠ asciiByte '"' ∧ b ≠ asciiByte '*' :=
  forall_byte (P := fun b => isAsciiAlphanumeric b = true ∨ b ∈ ascii ".-_" →
    IsPrintableByte b ∧ b ≠ asciiByte '"' ∧ b ≠ asciiByte '*') (by decide +kernel) b h

theorem buildContentDisposition_printable (name : Bytes) :
    ∀ b ∈ buildContentDisposition name, IsPrintableByte b := by
  intro b hb
  rw [buildContentDisposition, dispositionOpening] at hb
  simp only [List.mem_append] at hb
  rcases hb with ((hb | hb) | hb) | hb | hb
  · exact isPrintableByte_of_all (by decide) b hb
  · exact (isPrintableByte_of_fallback (mem_buildAsciiFilenameFallback hb)).1
  · exact isPrintableByte_of_all (by decide) b hb
  · exact isPrintableByte_of_all (by decide) b hb
  · exact (mem_percentEncodeHeaderValue hb).1

/-- The header has two quotes: those around the name for old clients. -/
theorem count_quote_buildContentDisposition (name : Bytes) :
    (buildContentDisposition name).count (asciiByte '"') = 2 := by
  have hfallback : (buildAsciiFilenameFallback name).count (asciiByte '"') = 0 :=
    List.count_eq_zero.mpr fun hmem =>
      (isPrintableByte_of_fallback (mem_buildAsciiFilenameFallback hmem)).2.1 rfl
  have hencoded : (percentEncodeHeaderValue name).count (asciiByte '"') = 0 :=
    List.count_eq_zero.mpr fun hmem => (mem_percentEncodeHeaderValue hmem).2.1 rfl
  have hfixed : (ascii "attachment; filename=\"").count (asciiByte '"') = 1 ∧
      (ascii "\"; ").count (asciiByte '"') = 1 ∧
      (ascii "filename*=UTF-8''").count (asciiByte '"') = 0 := by decide
  rw [buildContentDisposition, dispositionOpening]
  simp only [List.count_append, hfallback, hencoded, hfixed]

theorem star_notMem_dispositionOpening (name : Bytes) :
    asciiByte '*' ∉ dispositionOpening name := by
  rw [dispositionOpening]
  simp only [List.mem_append, not_or]
  refine ⟨⟨by decide, fun hmem => ?_⟩, by decide⟩
  exact (isPrintableByte_of_fallback (mem_buildAsciiFilenameFallback hmem)).2.2 rfl

/-! ### The name on disk -/

theorem downloadFileName_ne_nil (title : Bytes) (authors : List Bytes) (format : BookFormat) :
    downloadFileName title authors format ≠ [] := by
  rw [downloadFileName]
  cases format <;> exact List.append_ne_nil_of_right_ne_nil _ (by decide)

/-- Authors of valid names have a valid list of names. -/
theorem foldl_appendAuthor_valid {authors : List Bytes} (h : ∀ a ∈ authors, ValidUtf8 a) :
    ∀ {before : Bytes}, ValidUtf8 before → ValidUtf8 (authors.foldl appendAuthor before) := by
  have hcomma : ValidUtf8 (ascii ", ") := .of_all_ascii (by decide)
  induction authors with
  | nil => exact fun {_} hbefore => hbefore
  | cons author authors ih =>
    intro _ hbefore
    refine ih (fun a ha => h a (List.mem_cons_of_mem _ ha)) ?_
    rw [appendAuthor]
    split
    · exact h author List.mem_cons_self
    · exact (hbefore.append hcomma).append (h author List.mem_cons_self)

/-- The name of a book with a valid title and valid authors may stand in a file system. -/
theorem buildDownloadBaseName_spec {title : Bytes} {authors : List Bytes} (htitle : ValidUtf8 title)
    (hauthors : ∀ a ∈ authors, ValidUtf8 a) :
    DownloadBaseName maxBaseNameBytes (buildDownloadBaseName title authors) := by
  have hbook : ValidUtf8 (ascii "book") := .of_all_ascii (by decide)
  have hdash : ValidUtf8 (ascii " - ") := .of_all_ascii (by decide)
  have hfallback : DownloadBaseName maxBaseNameBytes (ascii "book") :=
    ⟨⟨hbook, List.all_iff_forall_prop.mp (by decide), by decide⟩, by decide, by decide⟩
  have hbase : ValidUtf8 (if title = [] then ascii "book" else title) := by
    split
    · exact hbook
    · exact htitle
  rw [buildDownloadBaseName]
  refine sanitizeDownloadFilenameBaseUtf8_spec ?_ (by decide) hfallback
  split
  · exact hbase
  · exact (hbase.append hdash).append (foldl_appendAuthor_valid hauthors .nil)

end InpxWebReader.Server
