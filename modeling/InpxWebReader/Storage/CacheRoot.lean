import InpxWebReader.Library.LexicalPath
import InpxWebReader.Storage.CacheLayout

/-!
# Covers below a cache root

The cache root of the configuration is any absolute path. A scan writes its covers below it, and the
collector walks the covers directory and removes those that no book refers to; it knows a cover by
`isContentAddressedCoverPath`, which compares a path that was normalized with one that was built from
the root as it is.

So the collector recognises the covers of a scan when the root has no `.` and no `..` among its
names, and none otherwise: `collector_recognises_iff`. Below such a root it agrees with the test on
relative paths (`isContentAddressedCoverPath_below`).
-/

namespace InpxWebReader.Storage.CacheRoot

open Foundation LexicalPath LexicalPath.NamePath DotNames

instance : DotNames Bytes where
  empty := []
  dot := ascii "."
  dotdot := ascii ".."
  dot_ne_empty := by decide
  dotdot_ne_empty := by decide
  dotdot_ne_dot := by decide

/-- A `std::filesystem::path` from its text. -/
def parsePath (text : Bytes) : NamePath Bytes := parse slash text

/-- `p / name1 / name2 ...`. -/
def below (p : NamePath Bytes) (names : List Bytes) : NamePath Bytes := p.append ⟨false, names⟩

def configError (message : Bytes) : Failure := .standard (ascii "Server config error: " ++ message)

def validateAbsolutePath (path : NamePath Bytes) (fieldName : Bytes) : Except Failure Unit :=
  if path.names = [] ∧ path.rooted = false then
    .error (configError (ascii "Field '" ++ fieldName ++ ascii "' must not be empty."))
  else if path.rooted = false then
    .error (configError (ascii "Field '" ++ fieldName ++ ascii "' must be an absolute path."))
  else .ok ()

/-- `CInpxCacheLayout::Build(cacheRoot).CoversDirectory`. -/
def coversDirectory (cacheRoot : NamePath Bytes) : NamePath Bytes :=
  below cacheRoot [Storage.coversDirectory]

/-- `CInpxCacheLayout::GetContentAddressedCoverPath`. -/
def getContentAddressedCoverPath (cacheRoot : NamePath Bytes) (fingerprint extension : Bytes) :
    Except Failure (NamePath Bytes) := do
  let normalizedTaggedFingerprint ← normalizeFingerprint fingerprint
  let normalizedFingerprint := normalizedTaggedFingerprint.drop 7
  let normalizedExtension ← normalizeExtension extension
  return below (below (coversDirectory cacheRoot) [normalizedFingerprint.take 2])
    [normalizedFingerprint ++ ascii "." ++ normalizedExtension]

/-- `CInpxCacheLayout::IsContentAddressedCoverPath`. -/
def isContentAddressedCoverPath (cacheRoot coverPath : NamePath Bytes) : Bool :=
  let coversDirectory := (coversDirectory cacheRoot).normal
  let normalizedPath := coverPath.normal
  let relativePath := normalizedPath.relativeTo coversDirectory
  match relativePath.rooted, relativePath.names with
  | false, [shard, fileName] =>
    let (fingerprint, extension) := stemAndExtension fileName
    shard.length = 2 && fingerprint.length = 64 && 2 ≤ extension.length &&
      shard.all isLowerHex && fingerprint.all isLowerHex && shard.isPrefixOf fingerprint &&
      (getContentAddressedCoverPath cacheRoot fingerprint extension).toOption = some normalizedPath
  | _, _ => false

def isSafeRelativePath (path : NamePath Bytes) : Bool :=
  path.names ≠ [] && !path.rooted && !path.normal.names.contains dotdot

def buildCachedCoverRelativePath (cacheRoot coverPath : NamePath Bytes) :
    Except Failure (NamePath Bytes) :=
  let relativePath := coverPath.relativeTo cacheRoot
  if isSafeRelativePath relativePath then .ok relativePath
  else .error (runtimeError "Generated INPX cover cache path escaped the cache root.")

/-- What the collector finds: whether the cache is there, the entries of its walk by their names
below the covers directory, their types, and what the database says of a relative path. -/
structure CoversWalk where
  validateExistingCacheRoot : Except Failure Unit
  coversDirectoryExists : Bool
  entries : List (List Bytes)
  plain : ∀ names ∈ entries, names ≠ [] ∧ ∀ name ∈ names, IsPlain name
  isRegularFile : NamePath Bytes → Except Failure Bool
  isCoverReferenced : NamePath Bytes → Except Failure Bool

/-- The test of `CleanupUnreferencedCovers` on one entry: whether it goes. -/
def isUnreferencedCover (walk : CoversWalk) (cacheRoot path : NamePath Bytes) :
    Except Failure Bool := do
  if ← walk.isRegularFile path then
    if isContentAddressedCoverPath cacheRoot path then
      let relativePath ← buildCachedCoverRelativePath cacheRoot path
      return !(← walk.isCoverReferenced relativePath)
    else return false
  else return false

/-- The loop of `CleanupUnreferencedCovers`: the paths that are removed. A throw ends it. -/
def collectCovers (walk : CoversWalk) (cacheRoot : NamePath Bytes) : List (List Bytes) →
    List (NamePath Bytes)
  | [] => []
  | names :: entries =>
    let path := below (coversDirectory cacheRoot) names
    match isUnreferencedCover walk cacheRoot path with
    | .error _ => []
    | .ok true => path :: collectCovers walk cacheRoot entries
    | .ok false => collectCovers walk cacheRoot entries

/-- `CleanupUnreferencedCovers`: the paths that are removed. -/
def cleanupUnreferencedCovers (walk : CoversWalk) (cacheRoot : NamePath Bytes) : List (NamePath Bytes) :=
  match walk.validateExistingCacheRoot with
  | .error _ => []
  | .ok _ => if walk.coversDirectoryExists then collectCovers walk cacheRoot walk.entries else []

/-! ### The covers of a scan -/

/-- The path is, up to its normal form, one that a scan writes a cover to. -/
def IsScannedCover (cacheRoot path : NamePath Bytes) : Prop :=
  ∃ fingerprint extension written,
    getContentAddressedCoverPath cacheRoot fingerprint extension = .ok written ∧
      written.normal = path.normal

/-- The names of a root, of which none is a dot or two. -/
def HasNoDots (cacheRoot : Bytes) : Prop :=
  ∀ name ∈ splitPath cacheRoot, name ≠ ascii "." ∧ name ≠ ascii ".."

/-- The digits and the extension of a cover's file name. -/
structure IsCoverName (digits extension : Bytes) : Prop where
  length : digits.length = 64
  hex : ∀ c ∈ digits, isLowerHex c = true
  nonempty : extension ≠ []
  short : extension.length ≤ 10
  simple : ∀ c ∈ extension, isAlphanumeric c = true
  lower : toLowerAscii extension = extension

/-- The names of a cover below the root. -/
def coverNames (digits extension : Bytes) : List Bytes :=
  [Storage.coversDirectory, digits.take 2, digits ++ ascii "." ++ extension]

section Names

variable {digits extension : Bytes}

theorem isLowerHex_toLowerAsciiCharacter {c : UInt8} (h : isAsciiHexDigit c = true) :
    isLowerHex (toLowerAsciiCharacter c) = true := by
  simp only [isAsciiHexDigit, Bool.or_eq_true, Bool.and_eq_true, decide_eq_true_eq] at h
  simp only [isLowerHex, Bool.or_eq_true, Bool.and_eq_true, decide_eq_true_eq]
  rw [toLowerAsciiCharacter]
  grind

/-- A fingerprint is accepted with its 64 digits in lower case. -/
theorem normalizeFingerprint_eq_ok {fingerprint tagged : Bytes}
    (h : normalizeFingerprint fingerprint = .ok tagged) :
    ∃ digits, tagged = sha256Prefix ++ digits ∧ digits.length = 64 ∧
      ∀ c ∈ digits, isLowerHex c = true := by
  simp only [normalizeFingerprint] at h
  generalize (if sha256Prefix.isPrefixOf fingerprint = true then
    fingerprint.drop sha256Prefix.length else fingerprint) = value at h
  split at h
  · cases h
  · next hvalue =>
    rw [not_or, not_not, not_not, List.all_eq_true] at hvalue
    injection h with h
    refine ⟨toLowerAscii value, h.symm, by rw [length_toLowerAscii, hvalue.1], ?_⟩
    intro c hc
    obtain ⟨b, hb, rfl⟩ := List.mem_map.mp hc
    exact isLowerHex_toLowerAsciiCharacter (hvalue.2 b hb)

theorem normalizeExtension_canonical {fileExtension : Bytes}
    (h : normalizeExtension fileExtension = .ok extension) :
    extension.length ≤ 10 ∧ toLowerAscii extension = extension := by
  simp only [normalizeExtension] at h
  generalize (if fileExtension.head? = some (asciiByte '.') then fileExtension.drop 1
    else fileExtension) = value at h
  split at h
  · cases h
  · next hvalue =>
    rw [not_or, not_or, Nat.not_lt] at hvalue
    injection h with h
    subst h
    exact ⟨by rw [length_toLowerAscii]; exact hvalue.2.1, toLowerAscii_idem value⟩

/-- The stem and the extension of a cover's file name. -/
theorem stemAndExtension_coverName (h : IsCoverName digits extension) :
    stemAndExtension (digits ++ ascii "." ++ extension) = (digits, asciiByte '.' :: extension) := by
  have hreverse : (digits ++ ascii "." ++ extension).reverse =
      extension.reverse ++ asciiByte '.' :: digits.reverse := by
    simp [ascii]
  have htail : (digits ++ ascii "." ++ extension).reverse.takeWhile
      (fun b => b ≠ asciiByte '.') = extension.reverse := by
    rw [hreverse, List.takeWhile_append_of_pos]
    · simp
    · intro b hb
      rw [List.mem_reverse] at hb
      simp only [ne_eq, decide_not, Bool.not_eq_true', decide_eq_false_iff_not]
      rintro rfl
      exact absurd (h.simple _ hb) (by decide)
  have hlen : (digits ++ ascii "." ++ extension).length = digits.length + 1 + extension.length := by
    simp [ascii]
    omega
  have htake : (digits ++ ascii "." ++ extension).take
      ((digits ++ ascii "." ++ extension).length - extension.reverse.length - 1) = digits := by
    rw [hlen, List.length_reverse, Nat.add_sub_cancel, Nat.add_sub_cancel, List.append_assoc,
      List.take_left]
  have hne : digits ≠ [] := by
    rintro rfl
    exact absurd h.length (by decide)
  simp only [stemAndExtension, htail, htake]
  rw [if_neg, List.reverse_reverse]
  rw [not_or]
  refine ⟨?_, hne⟩
  rw [hlen, List.length_reverse]
  omega

theorem isPlain_of_isPlainPart {name : Bytes} (h : IsPlainPart name) : IsPlain name :=
  ⟨h.1, h.2.1, h.2.2.1⟩

theorem isPlain_coversDirectory : IsPlain Storage.coversDirectory :=
  ⟨by decide, by decide, by decide⟩

theorem IsCoverName.plain (h : IsCoverName digits extension) :
    ∀ name ∈ coverNames digits extension, IsPlain name := by
  intro name hname
  rcases List.mem_cons.mp hname with rfl | hname
  · exact isPlain_coversDirectory
  · exact isPlain_of_isPlainPart (isPlainPart_coverPath h.length h.hex h.simple name hname)

theorem coverNames_ne_nil : coverNames digits extension ≠ [] := List.cons_ne_nil _ _

theorem below_coverNames (cacheRoot : NamePath Bytes) (h : IsCoverName digits extension) :
    below (below (coversDirectory cacheRoot) [digits.take 2]) [digits ++ ascii "." ++ extension] =
      below cacheRoot (coverNames digits extension) := by
  have hshard : ∀ name ∈ [Storage.coversDirectory, digits.take 2], IsPlain name := by
    intro name hname
    refine h.plain name ?_
    rcases List.mem_cons.mp hname with rfl | hname
    · exact List.mem_cons_self ..
    · rw [List.mem_singleton] at hname
      exact List.mem_cons_of_mem _ (hname ▸ List.mem_cons_self ..)
  have hcovers : ∀ name ∈ [Storage.coversDirectory], IsPlain name := by
    intro name hname
    rw [List.mem_singleton] at hname
    exact hname ▸ isPlain_coversDirectory
  rw [coversDirectory, below, below, below, append_append (by simp) hcovers (by simp),
    List.singleton_append, append_append (by simp) hshard (by simp)]
  rfl

/-- What both spellings of a cover's path are made from. -/
theorem exists_isCoverName {fingerprint fileExtension : Bytes} {α : Type}
    {build : Bytes → Bytes → α} {path : α}
    (h : (do
      let tagged ← normalizeFingerprint fingerprint
      let normalizedExtension ← normalizeExtension fileExtension
      return build (tagged.drop 7) normalizedExtension) = .ok path) :
    ∃ digits extension, IsCoverName digits extension ∧ path = build digits extension := by
  cases hf : normalizeFingerprint fingerprint with
  | error e =>
    rw [hf] at h
    cases h
  | ok tagged =>
    cases he : normalizeExtension fileExtension with
    | error e =>
      rw [hf, he] at h
      cases h
    | ok extension =>
      rw [hf, he] at h
      injection h with h
      obtain ⟨digits, rfl, hlength, hhex⟩ := normalizeFingerprint_eq_ok hf
      obtain ⟨hne, hsimple⟩ := normalizeExtension_eq_ok he
      obtain ⟨hshort, hlower⟩ := normalizeExtension_canonical he
      exact ⟨digits, extension, ⟨hlength, hhex, hne, hshort, hsimple, hlower⟩, h.symm⟩

theorem getContentAddressedCoverPath_eq_ok {cacheRoot path : NamePath Bytes}
    {fingerprint fileExtension : Bytes}
    (h : getContentAddressedCoverPath cacheRoot fingerprint fileExtension = .ok path) :
    ∃ digits extension, IsCoverName digits extension ∧
      path = below cacheRoot (coverNames digits extension) := by
  obtain ⟨digits, extension, hname, hpath⟩ := @exists_isCoverName fingerprint fileExtension _
    (fun digits extension => below (below (coversDirectory cacheRoot) [digits.take 2])
      [digits ++ ascii "." ++ extension]) path h
  exact ⟨digits, extension, hname, hpath.trans (below_coverNames cacheRoot hname)⟩

theorem normalizeFingerprint_coverName (h : IsCoverName digits extension) :
    normalizeFingerprint digits = .ok (sha256Prefix ++ digits) := by
  have hpre : sha256Prefix.isPrefixOf digits = false := by
    rw [← Bool.not_eq_true, List.isPrefixOf_iff_prefix]
    rintro ⟨rest, hrest⟩
    have hs : asciiByte 's' ∈ digits := by
      rw [← hrest]
      exact List.mem_append_left _ (by decide)
    exact absurd (h.hex _ hs) (by decide)
  have hall : digits.all isAsciiHexDigit = true :=
    List.all_eq_true.mpr fun c hc => isAsciiHexDigit_of_isLowerHex (h.hex c hc)
  simp [normalizeFingerprint, hpre, h.length, hall, toLowerAscii_of_isLowerHex h.hex]

theorem normalizeExtension_coverName (h : IsCoverName digits extension) :
    normalizeExtension (asciiByte '.' :: extension) = .ok extension := by
  have hsimple : extension.all isAlphanumeric = true := List.all_eq_true.mpr h.simple
  simp [normalizeExtension, h.nonempty, h.short, hsimple, h.lower]

/-- The names of a cover are found again from its digits and its extension. -/
theorem getContentAddressedCoverPath_coverName (cacheRoot : NamePath Bytes)
    (h : IsCoverName digits extension) :
    getContentAddressedCoverPath cacheRoot digits (asciiByte '.' :: extension) =
      .ok (below cacheRoot (coverNames digits extension)) := by
  rw [getContentAddressedCoverPath, normalizeFingerprint_coverName h,
    normalizeExtension_coverName h, ← below_coverNames cacheRoot h]
  rfl

theorem IsCoverName.tests (h : IsCoverName digits extension) :
    (digits.take 2).length = 2 ∧ digits.length = 64 ∧ 2 ≤ (asciiByte '.' :: extension).length ∧
      (digits.take 2).all isLowerHex = true ∧ digits.all isLowerHex = true ∧
      (digits.take 2).isPrefixOf digits = true := by
  have hpositive : 1 ≤ extension.length := List.length_pos_iff.mpr h.nonempty
  refine ⟨?_, h.length, ?_, ?_, List.all_eq_true.mpr h.hex, ?_⟩
  · rw [List.length_take, h.length]
    rfl
  · rw [List.length_cons]
    omega
  · exact List.all_eq_true.mpr fun c hc => h.hex c (List.mem_of_mem_take hc)
  · exact List.isPrefixOf_iff_prefix.mpr (List.take_prefix _ _)

/-- The test on relative paths, spelled out. -/
theorem isContentAddressedCoverPath_joinPath {names : List Bytes}
    (hplain : ∀ name ∈ names, IsPlainPart name) :
    Storage.isContentAddressedCoverPath (joinPath (Storage.coversDirectory :: names)) = true ↔
      ∃ digits extension, IsCoverName digits extension ∧
        Storage.coversDirectory :: names = coverNames digits extension := by
  have hall : ∀ name ∈ Storage.coversDirectory :: names, IsPlainPart name := by
    intro name hname
    rcases List.mem_cons.mp hname with rfl | hname
    · exact ⟨by decide, by decide, by decide, by decide⟩
    · exact hplain name hname
  have hsplit := splitPath_joinPath (List.cons_ne_nil _ _) hall
  constructor
  · intro h
    rw [Storage.isContentAddressedCoverPath, hsplit] at h
    split at h
    · next covers shard fileName hnames =>
      simp only [Bool.and_eq_true, decide_eq_true_eq] at h
      obtain ⟨-, hget⟩ := h
      obtain ⟨path, hpath⟩ : ∃ path, Storage.getContentAddressedCoverPath
          (stemAndExtension fileName).1 (stemAndExtension fileName).2 = .ok path := by
        cases hresult : Storage.getContentAddressedCoverPath (stemAndExtension fileName).1
            (stemAndExtension fileName).2 with
        | ok path => exact ⟨path, rfl⟩
        | error e =>
          rw [hresult] at hget
          cases hget
      obtain ⟨digits, extension, hname, rfl⟩ := exists_isCoverName hpath
      rw [hpath] at hget
      injection hget with hget
      have hcover : ∀ name ∈ coverNames digits extension, IsPlainPart name := by
        intro name hmem
        rcases List.mem_cons.mp hmem with rfl | hmem
        · exact ⟨by decide, by decide, by decide, by decide⟩
        · exact isPlainPart_coverPath hname.length hname.hex hname.simple name hmem
      refine ⟨digits, extension, hname, ?_⟩
      rw [← hsplit, ← hget]
      exact splitPath_joinPath coverNames_ne_nil hcover
    · cases h
  · rintro ⟨digits, extension, hname, hnames⟩
    obtain ⟨hshard, hlength, hdot, hhex, hall', hpre⟩ := hname.tests
    have hget : Storage.getContentAddressedCoverPath digits (asciiByte '.' :: extension) =
        .ok (joinPath (coverNames digits extension)) := by
      rw [Storage.getContentAddressedCoverPath, normalizeFingerprint_coverName hname,
        normalizeExtension_coverName hname]
      rfl
    rw [Storage.isContentAddressedCoverPath, hsplit, hnames]
    simp only [coverNames, stemAndExtension_coverName hname, hshard, hlength, hdot, hhex, hall',
      hpre, Bool.and_eq_true, decide_eq_true_eq, true_and, and_self]
    rw [hget]
    rfl

end Names

/-! ### Recognition -/

section Recognition

variable {cacheRoot path : NamePath Bytes} {digits extension : Bytes}

theorem names_below {names : List Bytes} (hne : names ≠ []) :
    below cacheRoot names = ⟨cacheRoot.rooted, stem cacheRoot.names ++ names⟩ := by
  simp [below, append, hne]

theorem normal_below_coverNames (h : IsCoverName digits extension) :
    (below cacheRoot (coverNames digits extension)).normal =
      ⟨cacheRoot.rooted, normalNames cacheRoot.rooted cacheRoot.names ++
        coverNames digits extension⟩ :=
  normal_append coverNames_ne_nil h.plain

theorem normal_coversDirectory (cacheRoot : NamePath Bytes) :
    (coversDirectory cacheRoot).normal =
      ⟨cacheRoot.rooted, normalNames cacheRoot.rooted cacheRoot.names ++
        [Storage.coversDirectory]⟩ := by
  refine normal_append (List.cons_ne_nil _ _) ?_
  intro name hname
  rw [List.mem_singleton] at hname
  exact hname ▸ isPlain_coversDirectory

/-- The test, spelled out: the normal form of the path is one that is built from the root. -/
theorem isContentAddressedCoverPath_iff (hrooted : cacheRoot.rooted = true) :
    isContentAddressedCoverPath cacheRoot path = true ↔
      ∃ digits extension, IsCoverName digits extension ∧
        path.normal = below cacheRoot (coverNames digits extension) ∧
        path.normal = ⟨true, normalNames true cacheRoot.names ++ coverNames digits extension⟩ := by
  have hbase : ∀ name ∈ normalNames true cacheRoot.names ++ [Storage.coversDirectory],
      IsPlain name := by
    intro name hname
    rcases List.mem_append.mp hname with hname | hname
    · exact normalNames_plain _ name hname
    · rw [List.mem_singleton] at hname
      exact hname ▸ isPlain_coversDirectory
  have hcovers := normal_coversDirectory cacheRoot
  rw [hrooted] at hcovers
  constructor
  · intro h
    simp only [isContentAddressedCoverPath, hcovers] at h
    split at h
    · next shard fileName hrel hnames =>
      have hrelative : path.normal.relativeTo
          ⟨true, normalNames true cacheRoot.names ++ [Storage.coversDirectory]⟩ =
          ⟨false, [shard, fileName]⟩ := NamePath.ext hrel hnames
      simp only [Bool.and_eq_true, decide_eq_true_eq, List.all_eq_true] at h
      obtain ⟨⟨⟨⟨⟨⟨hshard, -⟩, -⟩, hhex⟩, -⟩, -⟩, hget⟩ := h
      have hplain : IsPlain shard := by
        have hne : shard ≠ [] := by
          rintro rfl
          cases hshard
        have hpart := isPlainPart_of_isLowerHex hne hhex (List.not_mem_nil : slash ∉ [])
        rw [List.append_nil] at hpart
        exact isPlain_of_isPlainPart hpart
      have hnormal := (relativeTo_eq_iff hbase (List.cons_ne_nil _ _) (by
        rintro name ⟨⟩
        exact hplain)).mp hrelative
      obtain ⟨written, hwritten⟩ : ∃ written, getContentAddressedCoverPath cacheRoot
          (stemAndExtension fileName).1 (stemAndExtension fileName).2 = .ok written := by
        cases hresult : getContentAddressedCoverPath cacheRoot (stemAndExtension fileName).1
            (stemAndExtension fileName).2 with
        | ok written => exact ⟨written, rfl⟩
        | error e =>
          rw [hresult] at hget
          cases hget
      obtain ⟨digits, extension, hname, hbelow⟩ := getContentAddressedCoverPath_eq_ok hwritten
      rw [hwritten] at hget
      injection hget with hget
      refine ⟨digits, extension, hname, hget ▸ hbelow, ?_⟩
      -- both spellings of the path end in the same three names
      have hnames' : normalNames true cacheRoot.names ++ [Storage.coversDirectory] ++
          [shard, fileName] = stem cacheRoot.names ++ coverNames digits extension := by
        have hspelled := hnormal.symm.trans (hget.symm.trans hbelow)
        rw [names_below (coverNames_ne_nil)] at hspelled
        exact congrArg NamePath.names hspelled
      rw [List.append_assoc, List.singleton_append] at hnames'
      rw [hnormal, List.append_assoc, List.singleton_append,
        List.append_inj_right' hnames' rfl]
    · cases h
  · rintro ⟨digits, extension, hname, hbelow, hnormal⟩
    have hrelative : path.normal.relativeTo
        ⟨true, normalNames true cacheRoot.names ++ [Storage.coversDirectory]⟩ =
        ⟨false, [digits.take 2, digits ++ ascii "." ++ extension]⟩ := by
      refine (relativeTo_eq_iff hbase (List.cons_ne_nil _ _) ?_).mpr ?_
      · rintro name ⟨⟩
        exact hname.plain _ (List.mem_cons_of_mem _ (List.mem_cons_self ..))
      · rw [hnormal, List.append_assoc]
        rfl
    obtain ⟨hshard, hlength, hdot, hhex, hall, hpre⟩ := hname.tests
    simp only [isContentAddressedCoverPath, hcovers, hrelative, stemAndExtension_coverName hname,
      getContentAddressedCoverPath_coverName cacheRoot hname, hshard, hlength, hdot, hhex, hall,
      hpre, Bool.and_eq_true, decide_eq_true_eq, true_and, and_self]
    exact congrArg some hbelow.symm

/-- Below a root without dots the test finds the covers of a scan. -/
theorem isContentAddressedCoverPath_iff_isScannedCover (hrooted : cacheRoot.rooted = true)
    (hplain : ∀ name ∈ stem cacheRoot.names, IsPlain name) :
    isContentAddressedCoverPath cacheRoot path = true ↔ IsScannedCover cacheRoot path := by
  have hroot : normalNames true cacheRoot.names = stem cacheRoot.names := by
    rw [← normalNames_stem, normalNames_eq_self_iff.mpr hplain]
  rw [isContentAddressedCoverPath_iff hrooted]
  constructor
  · rintro ⟨digits, extension, hname, hbelow, hnormal⟩
    refine ⟨digits, asciiByte '.' :: extension, _,
      getContentAddressedCoverPath_coverName cacheRoot hname, ?_⟩
    rw [normal_below_coverNames hname, hnormal, hrooted]
  · rintro ⟨fingerprint, fileExtension, written, hget, hnormal⟩
    obtain ⟨digits, extension, hname, rfl⟩ := getContentAddressedCoverPath_eq_ok hget
    rw [normal_below_coverNames hname, hrooted] at hnormal
    refine ⟨digits, extension, hname, ?_, hnormal.symm⟩
    rw [← hnormal, names_below coverNames_ne_nil, hrooted, hroot]

theorem plain_of_isContentAddressedCoverPath (hrooted : cacheRoot.rooted = true)
    (h : isContentAddressedCoverPath cacheRoot path = true) :
    ∀ name ∈ stem cacheRoot.names, IsPlain name := by
  obtain ⟨digits, extension, -, hbelow, hnormal⟩ := (isContentAddressedCoverPath_iff hrooted).mp h
  rw [names_below coverNames_ne_nil] at hbelow
  have hnames := List.append_cancel_right (congrArg NamePath.names (hbelow.symm.trans hnormal))
  rw [hnames]
  exact normalNames_plain _

/-- Below a root without dots the collector tests a path of its walk as the test on relative paths
does. -/
theorem isContentAddressedCoverPath_below {names : List Bytes} (hrooted : cacheRoot.rooted = true)
    (hplain : ∀ name ∈ stem cacheRoot.names, IsPlain name) (hne : names ≠ [])
    (hnames : ∀ name ∈ names, IsPlainPart name) :
    isContentAddressedCoverPath cacheRoot (below (coversDirectory cacheRoot) names) =
      Storage.isContentAddressedCoverPath (joinPath (Storage.coversDirectory :: names)) := by
  have hall : ∀ name ∈ Storage.coversDirectory :: names, IsPlain name := by
    intro name hname
    rcases List.mem_cons.mp hname with rfl | hname
    · exact isPlain_coversDirectory
    · exact isPlain_of_isPlainPart (hnames name hname)
  have hcovers : ∀ name ∈ [Storage.coversDirectory], IsPlain name :=
    fun name hname => hall name (List.mem_singleton.mp hname ▸ List.mem_cons_self ..)
  have hroot : normalNames true cacheRoot.names = stem cacheRoot.names := by
    rw [← normalNames_stem, normalNames_eq_self_iff.mpr hplain]
  have hnormal : (below (coversDirectory cacheRoot) names).normal =
      ⟨true, stem cacheRoot.names ++ Storage.coversDirectory :: names⟩ := by
    rw [coversDirectory, below, below, append_append (List.cons_ne_nil _ _) hcovers hne]
    have hwhole := normal_append (p := cacheRoot) (List.cons_ne_nil _ _) hall
    rw [hrooted, hroot] at hwhole
    exact hwhole
  rw [Bool.eq_iff_iff, isContentAddressedCoverPath_iff hrooted,
    isContentAddressedCoverPath_joinPath hnames]
  refine exists_congr fun digits => exists_congr fun extension => and_congr_right fun hname => ?_
  rw [hnormal, names_below coverNames_ne_nil, hrooted, hroot, and_self, NamePath.mk.injEq,
    List.append_cancel_left_eq]
  exact ⟨And.right, fun h => ⟨rfl, h⟩⟩

theorem isCoverName_zeros : IsCoverName (List.replicate 64 (asciiByte '0')) (ascii "jpg") where
  length := List.length_replicate
  hex := fun _ hc => List.eq_of_mem_replicate hc ▸ rfl
  nonempty := by decide
  short := by decide
  simple := by decide +kernel
  lower := by decide

end Recognition

/-! ### The collector -/

section Collector

variable {walk : CoversWalk} {cacheRoot path : NamePath Bytes}

def CoversWalk.Lists (walk : CoversWalk) (cacheRoot path : NamePath Bytes) : Prop :=
  ∃ names ∈ walk.entries, path = below (coversDirectory cacheRoot) names

/-- The cache is there, and no question about a path of the walk throws. -/
structure CoversWalk.Completes (walk : CoversWalk) (cacheRoot : NamePath Bytes) : Prop where
  valid : walk.validateExistingCacheRoot = .ok ()
  present : walk.coversDirectoryExists = true
  types : ∀ path, walk.Lists cacheRoot path → ∃ answer, walk.isRegularFile path = .ok answer
  references : ∀ path, walk.Lists cacheRoot path →
    ∃ answer, walk.isCoverReferenced (path.relativeTo cacheRoot) = .ok answer

/-- A path of the walk, relative to the root. -/
theorem buildCachedCoverRelativePath_of_lists (h : walk.Lists cacheRoot path) :
    buildCachedCoverRelativePath cacheRoot path = .ok (path.relativeTo cacheRoot) := by
  obtain ⟨names, hnames, rfl⟩ := h
  obtain ⟨hne, hplain⟩ := walk.plain names hnames
  have hall : ∀ name ∈ Storage.coversDirectory :: names, IsPlain name := by
    intro name hname
    rcases List.mem_cons.mp hname with rfl | hname
    · exact isPlain_coversDirectory
    · exact hplain name hname
  have hrelative : (below (coversDirectory cacheRoot) names).relativeTo cacheRoot =
      ⟨false, Storage.coversDirectory :: names⟩ := by
    rw [coversDirectory, below, below, append_append (List.cons_ne_nil _ _)
      (fun name hname => hall name (by simp_all)) hne]
    refine relativeTo_append (List.cons_ne_nil _ _) ?_
    rintro name ⟨⟩
    exact isPlain_coversDirectory
  have hsafe : isSafeRelativePath ⟨false, Storage.coversDirectory :: names⟩ = true := by
    have hnormal : (NamePath.mk false (Storage.coversDirectory :: names)).normal =
        ⟨false, Storage.coversDirectory :: names⟩ :=
      normal_append (p := {}) (List.cons_ne_nil _ _) hall
    have hdots : dotdot ∉ Storage.coversDirectory :: names := fun hmem => (hall _ hmem).2.2 rfl
    simp only [isSafeRelativePath, hnormal, Bool.and_eq_true, decide_eq_true_eq,
      Bool.not_eq_true', List.contains_eq_mem, decide_eq_false_iff_not]
    exact ⟨⟨List.cons_ne_nil _ _, trivial⟩, hdots⟩
  rw [buildCachedCoverRelativePath, hrelative, if_pos hsafe]

/-- What the collector removes is a cover of the walk. -/
theorem isUnreferencedCover_eq_ok (h : isUnreferencedCover walk cacheRoot path = .ok true) :
    isContentAddressedCoverPath cacheRoot path = true := by
  rw [isUnreferencedCover] at h
  cases hregular : walk.isRegularFile path with
  | error e =>
    rw [hregular] at h
    cases h
  | ok regular =>
    rw [hregular] at h
    cases regular with
    | false => cases h
    | true =>
      by_contra hn
      rw [Bool.not_eq_true] at hn
      simp only [hn] at h
      cases h

/-- The test on a cover that is a file of the walk asks the database. -/
theorem isUnreferencedCover_of_lists (hlists : walk.Lists cacheRoot path)
    (hregular : walk.isRegularFile path = .ok true)
    (hcover : isContentAddressedCoverPath cacheRoot path = true) :
    isUnreferencedCover walk cacheRoot path =
      (walk.isCoverReferenced (path.relativeTo cacheRoot)).map fun referenced => !referenced := by
  rw [isUnreferencedCover, hregular]
  simp only [hcover, buildCachedCoverRelativePath_of_lists hlists]
  show (walk.isCoverReferenced (path.relativeTo cacheRoot) >>= fun referenced =>
    Except.ok !referenced) = _
  cases walk.isCoverReferenced (path.relativeTo cacheRoot) <;> rfl

theorem isUnreferencedCover_answers (hcomplete : walk.Completes cacheRoot)
    (hlists : walk.Lists cacheRoot path) :
    ∃ answer, isUnreferencedCover walk cacheRoot path = .ok answer := by
  obtain ⟨regular, hregular⟩ := hcomplete.types path hlists
  cases regular with
  | false =>
    rw [isUnreferencedCover, hregular]
    exact ⟨false, rfl⟩
  | true =>
    by_cases hcover : isContentAddressedCoverPath cacheRoot path = true
    · obtain ⟨referenced, hreferenced⟩ := hcomplete.references path hlists
      rw [isUnreferencedCover_of_lists hlists hregular hcover, hreferenced]
      exact ⟨_, rfl⟩
    · rw [isUnreferencedCover, hregular]
      exact ⟨false, by simp only [hcover]; rfl⟩

theorem mem_collectCovers {entries : List (List Bytes)}
    (h : path ∈ collectCovers walk cacheRoot entries) :
    (∃ names ∈ entries, path = below (coversDirectory cacheRoot) names) ∧
      isUnreferencedCover walk cacheRoot path = .ok true := by
  induction entries with
  | nil => exact absurd h List.not_mem_nil
  | cons names entries ih =>
    have hrest : path ∈ collectCovers walk cacheRoot entries →
        (∃ names' ∈ names :: entries, path = below (coversDirectory cacheRoot) names') ∧
          isUnreferencedCover walk cacheRoot path = .ok true := by
      intro h
      obtain ⟨⟨names', hmem, hpath⟩, hgoes⟩ := ih h
      exact ⟨⟨names', List.mem_cons_of_mem _ hmem, hpath⟩, hgoes⟩
    simp only [collectCovers] at h
    split at h
    · exact absurd h List.not_mem_nil
    · next hgoes =>
      rcases List.mem_cons.mp h with rfl | h
      · exact ⟨⟨names, List.mem_cons_self .., rfl⟩, hgoes⟩
      · exact hrest h
    · exact hrest h

/-- On a walk without throws the loop comes to every entry. -/
theorem mem_collectCovers_iff {entries : List (List Bytes)}
    (hanswers : ∀ names ∈ entries, ∃ answer,
      isUnreferencedCover walk cacheRoot (below (coversDirectory cacheRoot) names) = .ok answer) :
    path ∈ collectCovers walk cacheRoot entries ↔
      (∃ names ∈ entries, path = below (coversDirectory cacheRoot) names) ∧
        isUnreferencedCover walk cacheRoot path = .ok true := by
  refine ⟨mem_collectCovers, ?_⟩
  rintro ⟨⟨names, hmem, rfl⟩, hgoes⟩
  induction entries with
  | nil => exact absurd hmem List.not_mem_nil
  | cons first entries ih =>
    have ih := ih fun names hnames => hanswers names (List.mem_cons_of_mem _ hnames)
    obtain ⟨answer, hanswer⟩ := hanswers first (List.mem_cons_self ..)
    simp only [collectCovers, hanswer]
    rcases List.mem_cons.mp hmem with rfl | hmem
    · rw [hgoes] at hanswer
      cases hanswer
      exact List.mem_cons_self ..
    · cases answer with
      | true => exact List.mem_cons_of_mem _ (ih hmem)
      | false => exact ih hmem

theorem mem_cleanupUnreferencedCovers (h : path ∈ cleanupUnreferencedCovers walk cacheRoot) :
    walk.Lists cacheRoot path ∧ isContentAddressedCoverPath cacheRoot path = true := by
  rw [cleanupUnreferencedCovers] at h
  split at h
  · exact absurd h List.not_mem_nil
  · split at h
    · obtain ⟨hlists, hgoes⟩ := mem_collectCovers h
      exact ⟨hlists, isUnreferencedCover_eq_ok hgoes⟩
    · exact absurd h List.not_mem_nil

/-- A collector that is not stopped removes a cover of the walk when no book refers to it. -/
theorem mem_cleanupUnreferencedCovers_iff (hcomplete : walk.Completes cacheRoot)
    (hlists : walk.Lists cacheRoot path) (hregular : walk.isRegularFile path = .ok true)
    (hcover : isContentAddressedCoverPath cacheRoot path = true) :
    path ∈ cleanupUnreferencedCovers walk cacheRoot ↔
      walk.isCoverReferenced (path.relativeTo cacheRoot) = .ok false := by
  have hanswers : ∀ names ∈ walk.entries, ∃ answer,
      isUnreferencedCover walk cacheRoot (below (coversDirectory cacheRoot) names) = .ok answer :=
    fun names hnames => isUnreferencedCover_answers hcomplete ⟨names, hnames, rfl⟩
  rw [cleanupUnreferencedCovers, hcomplete.valid, hcomplete.present]
  simp only [if_true]
  rw [mem_collectCovers_iff hanswers, isUnreferencedCover_of_lists hlists hregular hcover]
  obtain ⟨referenced, hreferenced⟩ := hcomplete.references path hlists
  rw [hreferenced]
  refine ⟨fun h => ?_, fun h => ⟨hlists, ?_⟩⟩
  · cases referenced with
    | false => rfl
    | true => cases h.2
  · cases h
    rfl

end Collector

/-! ### Accepted roots -/

theorem rooted_of_validateAbsolutePath {path : NamePath Bytes} {fieldName : Bytes}
    (h : validateAbsolutePath path fieldName = .ok ()) : path.rooted = true := by
  rw [validateAbsolutePath] at h
  split at h
  · cases h
  · split at h
    · cases h
    · next hrooted => exact Bool.not_eq_false _ ▸ hrooted

theorem hasNoDots_iff (cacheRoot : Bytes) :
    HasNoDots cacheRoot ↔ ∀ name ∈ stem (parsePath cacheRoot).names, IsPlain name := by
  rw [parsePath, stem_names_parse]
  simp only [List.mem_filter, decide_eq_true_eq]
  constructor
  · rintro h name ⟨hname, hempty⟩
    exact ⟨hempty, (h name hname).1, (h name hname).2⟩
  · intro h name hname
    by_cases hempty : name = []
    · subst hempty
      exact ⟨by decide, by decide⟩
    · exact (h name ⟨hname, hempty⟩).2

/-- The collector knows the covers of a scan exactly when no name of the cache root is a dot or two:
it then considers all of them on its walk, and removes nothing else. -/
theorem collector_recognises_iff (cacheRoot fieldName : Bytes)
    (haccepted : validateAbsolutePath (parsePath cacheRoot) fieldName = .ok ()) :
    ((∀ path, isContentAddressedCoverPath (parsePath cacheRoot) path = true ↔
        IsScannedCover (parsePath cacheRoot) path) ∧
      ∀ walk : CoversWalk,
        (∀ path ∈ cleanupUnreferencedCovers walk (parsePath cacheRoot),
          walk.Lists (parsePath cacheRoot) path ∧ IsScannedCover (parsePath cacheRoot) path) ∧
        (walk.Completes (parsePath cacheRoot) →
          ∀ path, walk.Lists (parsePath cacheRoot) path →
          walk.isRegularFile path = .ok true → IsScannedCover (parsePath cacheRoot) path →
          (path ∈ cleanupUnreferencedCovers walk (parsePath cacheRoot) ↔
            walk.isCoverReferenced (path.relativeTo (parsePath cacheRoot)) = .ok false))) ↔
      HasNoDots cacheRoot := by
  have hrooted := rooted_of_validateAbsolutePath haccepted
  rw [hasNoDots_iff]
  constructor
  · rintro ⟨hrecognised, -⟩
    have hget := getContentAddressedCoverPath_coverName (parsePath cacheRoot) isCoverName_zeros
    exact plain_of_isContentAddressedCoverPath hrooted
      ((hrecognised _).mpr ⟨_, _, _, hget, rfl⟩)
  · intro hplain
    have hrecognised (path : NamePath Bytes) :
        isContentAddressedCoverPath (parsePath cacheRoot) path = true ↔
          IsScannedCover (parsePath cacheRoot) path :=
      isContentAddressedCoverPath_iff_isScannedCover hrooted hplain
    refine ⟨hrecognised, fun walk => ⟨?_, ?_⟩⟩
    · intro path hpath
      obtain ⟨hlists, hcover⟩ := mem_cleanupUnreferencedCovers hpath
      exact ⟨hlists, (hrecognised path).mp hcover⟩
    · intro hcomplete path hlists hregular hcover
      exact mem_cleanupUnreferencedCovers_iff hcomplete hlists hregular
        ((hrecognised path).mpr hcover)

/-- A cover below a root that ends in a separator. -/
theorem collector_recognises_data :
    isContentAddressedCoverPath (parsePath (ascii "/data//cache/")) (below
        (parsePath (ascii "/data/cache")) (coverNames (List.replicate 64 (asciiByte '0'))
          (ascii "jpg"))) = true ↔
      IsScannedCover (parsePath (ascii "/data//cache/")) (below
        (parsePath (ascii "/data/cache")) (coverNames (List.replicate 64 (asciiByte '0'))
          (ascii "jpg"))) :=
  ((collector_recognises_iff (ascii "/data//cache/") (ascii "cacheRoot") (by decide)).mpr
    (by rw [HasNoDots]; decide)).1 _

/-- The covers of the root `/data/./cache` are written and not recognised. -/
theorem not_collector_recognises :
    let cacheRoot := parsePath (ascii "/data/./cache")
    let digits := List.replicate 64 (asciiByte '0')
    validateAbsolutePath cacheRoot (ascii "cacheRoot") = .ok () ∧
      ∃ written, getContentAddressedCoverPath cacheRoot digits (ascii ".jpg") = .ok written ∧
        IsScannedCover cacheRoot written ∧ isContentAddressedCoverPath cacheRoot written = false := by
  intro cacheRoot digits
  have hget := getContentAddressedCoverPath_coverName cacheRoot isCoverName_zeros
  exact ⟨by decide, _, hget, ⟨_, _, _, hget, rfl⟩, by decide +kernel⟩

end InpxWebReader.Storage.CacheRoot
