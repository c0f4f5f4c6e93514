import InpxWebReader.Foundation.Exception
import InpxWebReader.Foundation.Sha256

/-!
# The cover cache

Covers are files of the cache directory, and a path here is relative to that directory. A cover's
path is made from its content: `Covers`, the first two digits of its SHA-256 and a file name with
all 64 of them (`getContentAddressedCoverPath`).

`normalizeCoverPath` is what the statistics apply to a stored path before they count it. On a
content-addressed path it changes nothing (`normalizeCoverPath_of_contentAddressed`), and two
such paths are equal only for covers of one digest (`digest_eq_of_contentAddressed_eq`).
-/

namespace InpxWebReader.Storage

open Foundation

/-! ### Relative paths -/

def slash : UInt8 := asciiByte '/'

/-- The parts of a path between its separators. -/
def splitPath (path : Bytes) : List Bytes := path.splitOn slash

def joinPath (parts : List Bytes) : Bytes := [slash].intercalate parts

/-- The parts of `lexically_normal` of a relative path. -/
def normalParts (parts : List Bytes) : List Bytes :=
  parts.foldl (fun normal part =>
    if part = [] ∨ part = ascii "." then normal
    else if part = ascii ".." ∧ normal.getLast? ≠ none ∧ normal.getLast? ≠ some (ascii "..") then
      normal.dropLast
    else normal ++ [part]) []

/-- `path::lexically_normal`. A path that ends in a separator keeps it. -/
def lexicallyNormal (path : Bytes) : Bytes :=
  if path = [] then []
  else
    let parts := splitPath path
    let normal := normalParts parts
    let trailing := parts.getLast? ∈ [some [], some (ascii "."), some (ascii "..")]
    let root := if path.head? = some slash then [slash] else []
    if normal = [] then (if root = [] then ascii "." else root)
    else if trailing ∧ normal.getLast? ≠ some (ascii "..") then root ++ joinPath normal ++ [slash]
    else root ++ joinPath normal

def isSafeRelativePath (path : Bytes) : Bool :=
  path ≠ [] && path.head? ≠ some slash &&
    !(splitPath (lexicallyNormal path)).contains (ascii "..")

/-! ### Layout -/

/-- `CInpxCacheLayout::Build({}).CoversDirectory`. -/
def coversDirectory : Bytes := ascii "Covers"

/-- `std::isalnum` of a byte. -/
def isAlphanumeric (b : UInt8) : Bool :=
  (48 ≤ b && b ≤ 57) || (65 ≤ b && b ≤ 90) || (97 ≤ b && b ≤ 122)

def normalizeExtension (extension : Bytes) : Except Failure Bytes :=
  let value := if extension.head? = some (asciiByte '.') then extension.drop 1 else extension
  if value = [] ∨ 10 < value.length ∨ ¬value.all isAlphanumeric then
    .error (runtimeError "Cover path requires a simple alphanumeric extension.")
  else .ok (toLowerAscii value)

/-- The path of the cover with the given 64 digits and extension. -/
def coverPath (digits extension : Bytes) : Bytes :=
  joinPath [coversDirectory, digits.take 2, digits ++ ascii "." ++ extension]

/-- `CInpxCacheLayout::GetContentAddressedCoverPath`. -/
def getContentAddressedCoverPath (fingerprint extension : Bytes) : Except Failure Bytes := do
  let normalizedTaggedFingerprint ← normalizeFingerprint fingerprint
  let normalizedExtension ← normalizeExtension extension
  return coverPath (normalizedTaggedFingerprint.drop 7) normalizedExtension

/-- `path::stem` and `path::extension` of a file name. -/
def stemAndExtension (fileName : Bytes) : Bytes × Bytes :=
  let tail := fileName.reverse.takeWhile fun b => b ≠ asciiByte '.'
  let stem := fileName.take (fileName.length - tail.length - 1)
  if tail.length = fileName.length ∨ stem = [] then (fileName, [])
  else (stem, asciiByte '.' :: tail.reverse)

/-- `CInpxCacheLayout::IsContentAddressedCoverPath`, for a path a directory walk found. -/
def isContentAddressedCoverPath (path : Bytes) : Bool :=
  match splitPath path with
  | [covers, shard, fileName] =>
    let (fingerprint, extension) := stemAndExtension fileName
    covers = coversDirectory && shard.length = 2 && fingerprint.length = 64 &&
      2 ≤ extension.length && shard.all isLowerHex && fingerprint.all isLowerHex &&
      shard.isPrefixOf fingerprint &&
      (getContentAddressedCoverPath fingerprint extension).toOption = some path
  | _ => false

/-- `lexically_relative` of a normal path to the covers directory. -/
def relativeToCovers (normal : Bytes) : Bytes :=
  match splitPath normal with
  | first :: rest =>
    if first ≠ coversDirectory then ascii "../" ++ normal
    else if rest = [] ∨ rest.head? = some [] then ascii "."
    else joinPath rest
  | [] => []

/-- `NormalizeCoverPath(…).StoredPathUtf8`, the path under which the statistics count a cover. -/
def normalizeCoverPath (stored : Bytes) : Except Failure Bytes :=
  let storedPath := lexicallyNormal stored
  if ¬isSafeRelativePath storedPath then
    .error (runtimeError "Stored cover path is not a safe relative cache path.")
  else
    let relativeCoverPath := relativeToCovers storedPath
    if relativeCoverPath = [] ∨ relativeCoverPath = ascii "." ∨
        ¬isSafeRelativePath relativeCoverPath then
      .error (runtimeError "Stored cover path must reference a file under the Covers directory.")
    else .ok (coversDirectory ++ [slash] ++ relativeCoverPath)

def tryNormalizeCoverPath (stored : Bytes) : Option Bytes := (normalizeCoverPath stored).toOption

/-! ### Content-addressed paths -/

/-- The path a cover of the given bytes is stored under, for some extension. -/
def IsCoverPathOf (sha : Sha256) (path bytes : Bytes) : Prop :=
  ∃ extension, getContentAddressedCoverPath (sha.computeBytes bytes) extension = .ok path

/-- A part that `lexically_normal` leaves alone. -/
def IsPlainPart (part : Bytes) : Prop :=
  part ≠ [] ∧ part ≠ ascii "." ∧ part ≠ ascii ".." ∧ slash ∉ part

theorem normalParts_of_plain {parts : List Bytes} (h : ∀ part ∈ parts, IsPlainPart part) :
    normalParts parts = parts := by
  suffices hs : ∀ rest normal : List Bytes, (∀ part ∈ rest, IsPlainPart part) →
      rest.foldl (fun normal part =>
        if part = [] ∨ part = ascii "." then normal
        else if part = ascii ".." ∧ normal.getLast? ≠ none ∧
          normal.getLast? ≠ some (ascii "..") then normal.dropLast
        else normal ++ [part]) normal = normal ++ rest from hs parts [] h
  intro rest
  induction rest with
  | nil => intro normal _; exact (List.append_nil _).symm
  | cons part rest ih =>
    intro normal hp
    obtain ⟨hne, hdot, hdots, _⟩ := hp part (List.mem_cons_self ..)
    rw [List.foldl_cons, if_neg (by simp [hne, hdot]), if_neg (by simp [hdots]),
      ih _ fun p hm => hp p (List.mem_cons_of_mem _ hm), List.append_assoc, List.singleton_append]

theorem splitPath_joinPath {parts : List Bytes} (hne : parts ≠ [])
    (h : ∀ part ∈ parts, IsPlainPart part) : splitPath (joinPath parts) = parts :=
  List.splitOn_intercalate slash (fun part hp => (h part hp).2.2.2) hne

theorem joinPath_ne_nil {parts : List Bytes} (hne : parts ≠ [])
    (h : ∀ part ∈ parts, IsPlainPart part) : joinPath parts ≠ [] := by
  intro hj
  have hs := splitPath_joinPath hne h
  rw [hj] at hs
  have hmem : ([] : Bytes) ∈ parts := by
    rw [← hs]
    simp [splitPath]
  exact (h [] hmem).1 rfl

theorem head?_joinPath {parts : List Bytes} (hne : parts ≠ [])
    (h : ∀ part ∈ parts, IsPlainPart part) : (joinPath parts).head? ≠ some slash := by
  cases parts with
  | nil => exact absurd rfl hne
  | cons part rest =>
    obtain ⟨hnil, _, _, hs⟩ := h part (List.mem_cons_self ..)
    cases part with
    | nil => exact absurd rfl hnil
    | cons b part =>
      intro hhead
      have hb : (joinPath ((b :: part) :: rest)).head? = some b := by
        cases rest <;> rfl
      rw [hb, Option.some_inj] at hhead
      exact hs (hhead ▸ List.mem_cons_self ..)

theorem lexicallyNormal_joinPath {parts : List Bytes} (hne : parts ≠ [])
    (h : ∀ part ∈ parts, IsPlainPart part) :
    lexicallyNormal (joinPath parts) = joinPath parts := by
  have hlast : parts.getLast? ∉ [some [], some (ascii "."), some (ascii "..")] := by
    obtain ⟨hnil, hdot, hdots, _⟩ := h _ (List.getLast_mem hne)
    rw [List.getLast?_eq_some_getLast hne]
    simp [hnil, hdot, hdots]
  rw [lexicallyNormal]
  rw [if_neg (joinPath_ne_nil hne h)]
  simp only [splitPath_joinPath hne h, normalParts_of_plain h, if_neg hne,
    if_neg (head?_joinPath hne h), hlast, false_and, if_false, List.nil_append]

theorem isSafeRelativePath_joinPath {parts : List Bytes} (hne : parts ≠ [])
    (h : ∀ part ∈ parts, IsPlainPart part) : isSafeRelativePath (joinPath parts) = true := by
  have hdots : parts.contains (ascii "..") = false := by
    rw [← Bool.not_eq_true, List.contains_iff_mem]
    intro hm
    exact (h _ hm).2.2.1 rfl
  rw [isSafeRelativePath]
  rw [lexicallyNormal_joinPath hne h, splitPath_joinPath hne h, hdots]
  simp [joinPath_ne_nil hne h, head?_joinPath hne h]

/-- The text of a path under the covers directory is the one the statistics count. -/
theorem normalizeCoverPath_joinPath {parts : List Bytes} (hne : parts ≠ [])
    (h : ∀ part ∈ parts, IsPlainPart part) :
    normalizeCoverPath (joinPath (coversDirectory :: parts)) =
      .ok (joinPath (coversDirectory :: parts)) := by
  have hcovers : IsPlainPart coversDirectory := ⟨by decide, by decide, by decide, by decide⟩
  have hall : ∀ part ∈ coversDirectory :: parts, IsPlainPart part := by
    intro part hp
    rcases List.mem_cons.mp hp with rfl | hp
    · exact hcovers
    · exact h part hp
  have hhead : parts.head? ≠ some [] := by
    intro hh
    exact (h [] (List.mem_of_head? hh)).1 rfl
  have hrel : relativeToCovers (joinPath (coversDirectory :: parts)) = joinPath parts := by
    rw [relativeToCovers]
    rw [splitPath_joinPath (List.cons_ne_nil _ _) hall]
    simp [hne, hhead]
  have hdot : joinPath parts ≠ ascii "." := by
    intro hd
    have hs := splitPath_joinPath hne h
    rw [hd] at hs
    have hmem : ascii "." ∈ parts := by
      rw [← hs]
      decide
    exact (h _ hmem).2.1 rfl
  rw [normalizeCoverPath]
  simp only [lexicallyNormal_joinPath (List.cons_ne_nil _ _) hall,
    isSafeRelativePath_joinPath (List.cons_ne_nil _ _) hall, hrel, hdot, joinPath_ne_nil hne h,
    isSafeRelativePath_joinPath hne h, not_true_eq_false, if_false, or_self]
  cases parts with
  | nil => exact absurd rfl hne
  | cons part rest => rfl

/-! ### Covers of one content -/

section ContentAddressed

variable {sha : Sha256}

theorem isAlphanumeric_toLowerAsciiCharacter {b : UInt8} (h : isAlphanumeric b = true) :
    isAlphanumeric (toLowerAsciiCharacter b) = true := by
  rw [toLowerAsciiCharacter]
  split
  · rw [isAlphanumeric]
    simp only [Bool.or_eq_true, Bool.and_eq_true, decide_eq_true_eq]
    grind
  · exact h

theorem normalizeExtension_eq_ok {extension normalized : Bytes}
    (h : normalizeExtension extension = .ok normalized) :
    normalized ≠ [] ∧ ∀ c ∈ normalized, isAlphanumeric c = true := by
  unfold normalizeExtension at h
  simp only at h
  generalize (if extension.head? = some (asciiByte '.') then extension.drop 1 else extension) =
    value at h
  split at h
  · cases h
  · rename_i hv
    simp only [not_or, not_not] at hv
    injection h with h
    subst h
    refine ⟨fun hn => hv.1 (List.map_eq_nil_iff.mp hn), ?_⟩
    intro c hc
    obtain ⟨b, hb, rfl⟩ := List.mem_map.mp hc
    exact isAlphanumeric_toLowerAsciiCharacter (List.all_eq_true.mp hv.2.2 b hb)

/-- A content-addressed path, taken apart. -/
theorem getContentAddressedCoverPath_computeBytes {bytes extension path : Bytes}
    (h : getContentAddressedCoverPath (sha.computeBytes bytes) extension = .ok path) :
    ∃ ext, path = coverPath (hexText (sha.digest bytes)) ext ∧ ext ≠ [] ∧
      ∀ c ∈ ext, isAlphanumeric c = true := by
  rw [getContentAddressedCoverPath] at h
  rw [normalizeFingerprint_computeBytes] at h
  cases he : normalizeExtension extension with
  | error e =>
    rw [he] at h
    cases h
  | ok ext =>
    rw [he] at h
    injection h with h
    refine ⟨ext, ?_, normalizeExtension_eq_ok he⟩
    rw [← h]
    congr 1

theorem ne_of_isLowerHex {b c : UInt8} (h : isLowerHex b = true) (hc : isLowerHex c = false) :
    b ≠ c := by
  rintro rfl
  rw [h] at hc
  cases hc

theorem isPlainPart_of_isLowerHex {part tail : Bytes} (hne : part ≠ [])
    (h : ∀ c ∈ part, isLowerHex c = true) (hs : slash ∉ tail) : IsPlainPart (part ++ tail) := by
  have hhead : ∀ xs : Bytes, (asciiByte '.' :: xs) ≠ part ++ tail := by
    intro xs he
    cases part with
    | nil => exact hne rfl
    | cons b part =>
      rw [List.cons_append, List.cons.injEq] at he
      exact ne_of_isLowerHex (h b (List.mem_cons_self ..)) (by decide) he.1.symm
  refine ⟨?_, fun he => hhead [] he.symm, fun he => hhead (ascii ".") he.symm, ?_⟩
  · exact fun he => hne (List.append_eq_nil_iff.mp he).1
  · intro hm
    rcases List.mem_append.mp hm with hm | hm
    · exact ne_of_isLowerHex (h _ hm) (by decide) rfl
    · exact hs hm

theorem isPlainPart_coverPath {digits ext : Bytes} (hlen : digits.length = 64)
    (hhex : ∀ c ∈ digits, isLowerHex c = true) (hext : ∀ c ∈ ext, isAlphanumeric c = true) :
    ∀ part ∈ [digits.take 2, digits ++ ascii "." ++ ext], IsPlainPart part := by
  have hne : digits ≠ [] := fun he => by rw [he] at hlen; cases hlen
  have hslash : slash ∉ ascii "." ++ ext := by
    intro hm
    rcases List.mem_append.mp hm with hm | hm
    · exact absurd hm (by decide)
    · exact absurd (hext _ hm) (by decide)
  intro part hp
  rw [List.mem_cons, List.mem_singleton] at hp
  rcases hp with rfl | rfl
  · have htake : digits.take 2 ≠ [] := by
      intro he
      have := congrArg List.length he
      rw [List.length_take, hlen] at this
      cases this
    rw [← List.append_nil (digits.take 2)]
    exact isPlainPart_of_isLowerHex htake (fun c hc => hhex c (List.mem_of_mem_take hc))
      List.not_mem_nil
  · rw [List.append_assoc]
    exact isPlainPart_of_isLowerHex hne hhex hslash

theorem plainParts_of_isCoverPathOf {path bytes : Bytes} (h : IsCoverPathOf sha path bytes) :
    ∃ ext, path = coverPath (hexText (sha.digest bytes)) ext ∧
      (∀ c ∈ ext, isAlphanumeric c = true) ∧
      ∀ part ∈ [(hexText (sha.digest bytes)).take 2,
        hexText (sha.digest bytes) ++ ascii "." ++ ext], IsPlainPart part := by
  obtain ⟨extension, h⟩ := h
  obtain ⟨ext, hp, _, hext⟩ := getContentAddressedCoverPath_computeBytes h
  exact ⟨ext, hp, hext, isPlainPart_coverPath (length_hexText_digest sha bytes)
    (fun c hc => isLowerHex_of_mem_hexText hc) hext⟩

/-- A content-addressed path is counted under its own text. -/
theorem normalizeCoverPath_of_contentAddressed {path bytes : Bytes}
    (h : IsCoverPathOf sha path bytes) : normalizeCoverPath path = .ok path := by
  obtain ⟨ext, rfl, _, hplain⟩ := plainParts_of_isCoverPathOf h
  exact normalizeCoverPath_joinPath (by simp) hplain

theorem ne_nil_of_contentAddressed {path bytes : Bytes} (h : IsCoverPathOf sha path bytes) :
    path ≠ [] := by
  obtain ⟨ext, rfl, _, _⟩ := plainParts_of_isCoverPathOf h
  exact fun he => by cases he

theorem digest_eq_of_contentAddressed_eq {path a b : Bytes} (ha : IsCoverPathOf sha path a)
    (hb : IsCoverPathOf sha path b) : sha.digest a = sha.digest b := by
  obtain ⟨exta, hpa, _, hplaina⟩ := plainParts_of_isCoverPathOf ha
  obtain ⟨extb, hpb, _, hplainb⟩ := plainParts_of_isCoverPathOf hb
  have hall : ∀ parts : List Bytes, (∀ part ∈ parts, IsPlainPart part) →
      ∀ part ∈ coversDirectory :: parts, IsPlainPart part := by
    intro parts hp part hm
    rcases List.mem_cons.mp hm with rfl | hm
    · exact ⟨by decide, by decide, by decide, by decide⟩
    · exact hp part hm
  have hs := congrArg splitPath (hpa.symm.trans hpb)
  unfold coverPath at hs
  rw [splitPath_joinPath (List.cons_ne_nil _ _) (hall _ hplaina),
    splitPath_joinPath (List.cons_ne_nil _ _) (hall _ hplainb)] at hs
  simp only [List.cons.injEq, and_true, true_and, List.append_assoc] at hs
  exact hexText_inj (List.append_inj_left hs.2 (by
    rw [length_hexText_digest, length_hexText_digest]))

/-- No content-addressed path holds a hyphen, so none is the path of a temporary file. -/
theorem hyphen_notMem_of_contentAddressed {path bytes : Bytes}
    (h : IsCoverPathOf sha path bytes) : asciiByte '-' ∉ path := by
  obtain ⟨ext, rfl, hext, _⟩ := plainParts_of_isCoverPathOf h
  have hhex : asciiByte '-' ∉ hexText (sha.digest bytes) := by
    intro hm
    exact ne_of_isLowerHex (isLowerHex_of_mem_hexText hm) (by decide) rfl
  have hext' : asciiByte '-' ∉ ext := fun hm => absurd (hext _ hm) (by decide)
  have htake : asciiByte '-' ∉ (hexText (sha.digest bytes)).take 2 :=
    fun hm => hhex (List.mem_of_mem_take hm)
  have hc : asciiByte '-' ∉ coversDirectory := by decide
  have hs : asciiByte '-' ≠ slash := by decide
  have hd : asciiByte '-' ∉ ascii "." := by decide
  simp only [coverPath, joinPath, List.intercalate, List.intersperse, List.flatten_cons,
    List.flatten_nil, List.mem_append, List.mem_singleton, List.not_mem_nil, or_false]
  tauto

end ContentAddressed

end InpxWebReader.Storage
