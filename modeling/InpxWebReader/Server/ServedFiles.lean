import InpxWebReader.Library.PercentCoding
import InpxWebReader.Server.HttpRequests
import InpxWebReader.Storage.ArchiveWalk
import Mathlib.Data.List.DropRight

/-!
# Files that the server hands out

The assets of the web client lie below a root of the configuration and are served to anybody; the
covers lie below the cache root, at paths that come from the database. Both are resolved on a tree
with symbolic links. `assets_served` says that a request for an asset reads nothing outside of the
root, whatever its path looks like after both decodings, and that every file within the root is
served under its names.
-/

namespace InpxWebReader.Server

open Foundation Storage Program LexicalPath LexicalPath.NamePath DotNames

/-! ### Paths within a root -/

/-- The files of the system: the tree, and of a file at a location its size and its bytes, each as
far as the system gives them. -/
structure FileSystem where
  tree : FileTree Bytes
  fileSize : List Bytes → Option Nat
  content : List Bytes → Option Bytes

/-- A path as the system calls see it, which end it at its first zero byte. -/
def systemNames : List Bytes → List Bytes
  | [] => []
  | name :: names =>
    if 0 ∈ name then [name.takeWhile (· ≠ 0)] else name :: systemNames names

/-- A location that holds a regular file. -/
def isRegularFile (tree : FileTree Bytes) (location : List Bytes) : Bool :=
  match tree.node location with
  | some .file => true
  | _ => false

def tryResolvePathWithinRoot (tree : FileTree Bytes) (root path : NamePath Bytes)
    (unsafePathMessage canonicalizationErrorMessage : Bytes) :
    Except Failure (Option (List Bytes)) := do
  let canonicalRoot ← canonicalizeExistingPath tree root canonicalizationErrorMessage
  tryResolvePathWithinCanonicalRoot tree canonicalRoot path unsafePathMessage
    canonicalizationErrorMessage

/-! ### Assets -/

def maxStaticAssetBytes : Nat := 8 * 1024 * 1024

def assetPathInvalid : HttpError := badRequest (ascii "Static asset path is invalid.")

def assetNotFound : HttpError := notFound (ascii "Static asset was not found.")

def decodeStaticPathSegment (value : Bytes) : Except HttpError Bytes :=
  match PercentCoding.decode value with
  | some segment => .ok segment
  | none => .error assetPathInvalid

def isUnsafeStaticSegment (segment : Bytes) : Bool :=
  segment = [] || segment = ascii "." || segment = ascii ".." ||
    segment.head? = some (asciiByte '.') || segment.contains slash ||
    segment.contains (asciiByte '\\') || segment.contains (asciiByte ':')

/-- `HasRequestedFileExtension`: a dot in the last segment, other than at its beginning. -/
def hasRequestedFileExtension (requestPath : Bytes) : Bool :=
  ((requestPath.rtakeWhile (· ≠ slash)).drop 1).contains (asciiByte '.')

/-- One segment of the loop in `ResolveStaticAsset`. -/
def readStaticSegment (rawSegment : Bytes) : Except HttpError Bytes := do
  let segment ← decodeStaticPathSegment rawSegment
  if isUnsafeStaticSegment segment then throw assetPathInvalid
  return segment

/-- The segments of a request path after its first byte. -/
def staticSegments (requestPath : Bytes) : Except HttpError (List Bytes) :=
  ((splitPath (requestPath.drop 1)).filter (· ≠ [])).mapM readStaticSegment

def guessStaticContentType (path : List Bytes) : Bytes :=
  let extension := toLowerAscii (stemAndExtension (path.getLast?.getD [])).2
  if extension = ascii ".html" ∨ extension = ascii ".htm" then ascii "text/html; charset=utf-8"
  else if extension = ascii ".js" ∨ extension = ascii ".mjs" then
    ascii "text/javascript; charset=utf-8"
  else if extension = ascii ".css" then ascii "text/css; charset=utf-8"
  else if extension = ascii ".json" ∨ extension = ascii ".map" then
    ascii "application/json; charset=utf-8"
  else if extension = ascii ".svg" then ascii "image/svg+xml"
  else if extension = ascii ".png" then ascii "image/png"
  else if extension = ascii ".jpg" ∨ extension = ascii ".jpeg" then ascii "image/jpeg"
  else if extension = ascii ".webp" then ascii "image/webp"
  else if extension = ascii ".ico" then ascii "image/x-icon"
  else if extension = ascii ".woff2" then ascii "font/woff2"
  else if extension = ascii ".txt" then ascii "text/plain; charset=utf-8"
  else ascii "application/octet-stream"

/-- The static assets: their root, which is absolute (`ValidateAbsolutePath`), and the files. -/
structure StaticAssets where
  rootNames : List Bytes
  files : FileSystem

structure StaticResponse where
  contentType : Bytes
  cacheControl : Bytes
  body : Bytes
  deriving DecidableEq

namespace StaticAssets

def root (assets : StaticAssets) : NamePath Bytes := ⟨true, assets.rootNames⟩

def tryResolveStaticFileWithinRoot (assets : StaticAssets) (candidate : NamePath Bytes) :
    Option (List Bytes) :=
  match tryResolvePathWithinRoot assets.files.tree assets.root
      { candidate with names := systemNames candidate.names }
      (ascii "Static asset path escaped the configured root.")
      (ascii "Static asset path could not be canonicalized.") with
  | .ok (some resolved) => if isRegularFile assets.files.tree resolved then some resolved else none
  | _ => none

def fallback (assets : StaticAssets) : NamePath Bytes :=
  assets.root.append ⟨false, [ascii "index.html"]⟩

/-- The candidate of `ResolveStaticAsset`, for the decoded segments of a request. -/
def candidateOf (assets : StaticAssets) (segments : List Bytes) : NamePath Bytes :=
  if segments = [] then assets.fallback
  else segments.foldl (fun candidate segment => candidate.append ⟨false, [segment]⟩) assets.root

/-- The end of `ResolveStaticAsset`: the candidate, or the page of the web client. -/
def resolveCandidate (assets : StaticAssets) (requestPath : Bytes) (candidate : NamePath Bytes) :
    Except HttpError (List Bytes) :=
  match assets.tryResolveStaticFileWithinRoot candidate with
  | some resolved => .ok resolved
  | none =>
    if hasRequestedFileExtension requestPath then .error assetNotFound
    else match assets.tryResolveStaticFileWithinRoot assets.fallback with
      | some resolved => .ok resolved
      | none => .error assetNotFound

def resolveStaticAsset (assets : StaticAssets) (requestPath : Bytes) :
    Except HttpError (List Bytes) := do
  let segments ← staticSegments requestPath
  assets.resolveCandidate requestPath (assets.candidateOf segments)

/-- `SetStaticAssetResponse`, with the content type of the path. -/
def setStaticAssetResponse (assets : StaticAssets) (path : List Bytes) :
    Except HttpError StaticResponse :=
  match assets.files.fileSize path with
  | none => .error assetNotFound
  | some fileSize =>
    if maxStaticAssetBytes < fileSize then
      .error (payloadTooLarge (ascii "Static asset exceeds the configured safety limit."))
    else match assets.files.content path with
      | none => .error assetNotFound
      | some content => .ok {
          contentType := guessStaticContentType path
          cacheControl := if (ascii "text/html").isPrefixOf (guessStaticContentType path) then
            ascii "no-cache" else ascii "public, max-age=31536000, immutable"
          body := content }

/-- The handler of `HandleStaticRequest`. -/
def respond (assets : StaticAssets) (requestPath : Bytes) : Except HttpError StaticResponse := do
  assets.setStaticAssetResponse (← assets.resolveStaticAsset requestPath)

end StaticAssets

/-! ### Covers -/

/-- `ResolveCoverPath`; the empty path stands for none. -/
def resolveCoverPath (tree : FileTree Bytes) (cacheRoot : NamePath Bytes)
    (coverPath : Option (NamePath Bytes)) : Except Failure (Option (List Bytes)) :=
  match coverPath with
  | none => .ok none
  | some coverPath =>
    if coverPath = {} then .ok none
    else do
      match ← tryResolvePathWithinRoot tree cacheRoot coverPath
          (ascii "Book cover path is unsafe.")
          (ascii "Book cover path could not be canonicalized.") with
      | some resolved => return if isRegularFile tree resolved then some resolved else none
      | none => return none

/-! ### Resolution -/

section Resolution

variable {tree : FileTree Bytes} {canonicalRoot location : List Bytes}
  {root path candidate : NamePath Bytes} {message message' : Bytes}

/-- A path that is within the root resolves to its canonical location, if that is within the root
too. -/
theorem tryResolve_eq_some
    (hbuild : buildValidatedCandidatePath canonicalRoot path message = .ok candidate) :
    tryResolvePathWithinCanonicalRoot tree canonicalRoot path message message' =
        .ok (some location) ↔
      tree.status candidate.names = .ok location ∧ canonicalRoot <+: location := by
  rw [tryResolvePathWithinCanonicalRoot, hbuild]
  show (canonicalizeExistingPath tree candidate message' >>= fun canonicalCandidate =>
      if ¬isPathWithinRoot canonicalRoot canonicalCandidate then throw (.standard message)
      else pathExists tree candidate >>= fun found =>
        if found then pure (some canonicalCandidate) else pure none) = _ ↔ _
  constructor
  · intro h
    obtain ⟨canonicalCandidate, hcanonical, h⟩ := except_bind_eq_ok h
    split at h
    · cases h
    next hwithin =>
    rw [not_not] at hwithin
    obtain ⟨found, hfound, h⟩ := except_bind_eq_ok h
    cases found with
    | false => cases h
    | true =>
      injection h with h
      injection h with h
      subst h
      rw [pathExists] at hfound
      split at hfound
      · next found hstatus =>
        rw [canonicalizeExistingPath, FileTree.weaklyCanonical_of_status hstatus] at hcanonical
        injection hcanonical with hcanonical
        rw [normalNames_eq_self_iff.mpr (FileTree.status_plain hstatus)] at hcanonical
        subst hcanonical
        exact ⟨hstatus, List.isPrefixOf_iff_prefix.mp hwithin⟩
      · cases hfound
      · cases hfound
  · rintro ⟨hstatus, hwithin⟩
    have hcanonical : canonicalizeExistingPath tree candidate message' = .ok location := by
      rw [canonicalizeExistingPath, FileTree.weaklyCanonical_of_status hstatus]
      exact congrArg Except.ok (normalNames_eq_self_iff.mpr (FileTree.status_plain hstatus))
    have hfound : pathExists tree candidate = .ok true := by rw [pathExists, hstatus]
    have hroot : isPathWithinRoot canonicalRoot location = true :=
      List.isPrefixOf_iff_prefix.mpr hwithin
    rw [hcanonical, hfound]
    show (if ¬isPathWithinRoot canonicalRoot location then _ else _) = _
    rw [hroot, if_neg (not_not.mpr rfl)]
    rfl

/-- Whatever the path, what it resolves to is within the root. -/
theorem within_of_tryResolvePathWithinRoot
    (h : tryResolvePathWithinRoot tree root path message message' = .ok (some location)) :
    ∃ canonicalRoot, canonicalizeExistingPath tree root message' = .ok canonicalRoot ∧
      canonicalRoot <+: location := by
  obtain ⟨canonicalRoot, hroot, h⟩ := except_bind_eq_ok h
  refine ⟨canonicalRoot, hroot, ?_⟩
  cases hbuild : buildValidatedCandidatePath canonicalRoot path message with
  | error e =>
    rw [tryResolvePathWithinCanonicalRoot, hbuild] at h
    cases h
  | ok candidate => exact ((tryResolve_eq_some hbuild).mp h).2

/-- A path from the root of the system is not checked before it is resolved. -/
theorem tryResolvePathWithinRoot_rooted (hpath : path.rooted = true) :
    tryResolvePathWithinRoot tree root path message message' = .ok (some location) ↔
      ∃ canonicalRoot, canonicalizeExistingPath tree root message' = .ok canonicalRoot ∧
        tree.status path.normal.names = .ok location ∧ canonicalRoot <+: location := by
  have hnormal : path.normal.rooted = true := by
    simp only [normal, hpath, true_or, if_true]
    split_ifs <;> rfl
  have hbuild : ∀ canonicalRoot,
      buildValidatedCandidatePath canonicalRoot path message = .ok path.normal := by
    intro canonicalRoot
    simp only [buildValidatedCandidatePath, hnormal, if_true]
  constructor
  · intro h
    obtain ⟨canonicalRoot, hroot, h⟩ := except_bind_eq_ok h
    exact ⟨canonicalRoot, hroot, (tryResolve_eq_some (hbuild canonicalRoot)).mp h⟩
  · rintro ⟨canonicalRoot, hroot, h⟩
    rw [tryResolvePathWithinRoot, hroot]
    exact (tryResolve_eq_some (hbuild canonicalRoot)).mpr h

end Resolution

/-- Whatever cover the database names for a book, what is served is a file within the cache root. -/
theorem within_of_resolveCoverPath {tree : FileTree Bytes} {cacheRoot : NamePath Bytes}
    {coverPath : Option (NamePath Bytes)} {location : List Bytes}
    (h : resolveCoverPath tree cacheRoot coverPath = .ok (some location)) :
    (∃ canonicalRoot, canonicalizeExistingPath tree cacheRoot
        (ascii "Book cover path could not be canonicalized.") = .ok canonicalRoot ∧
      canonicalRoot <+: location) ∧ isRegularFile tree location = true := by
  cases coverPath with
  | none => cases h
  | some coverPath =>
    rw [resolveCoverPath] at h
    split at h
    · cases h
    obtain ⟨resolved, hresolved, h⟩ := except_bind_eq_ok h
    cases resolved with
    | none => cases h
    | some resolved =>
      dsimp only at h
      split at h
      · next hfile =>
        cases h
        exact ⟨within_of_tryResolvePathWithinRoot hresolved, hfile⟩
      · cases h

/-! ### Segments -/

theorem isPlainPart_of_safe {segment : Bytes} (h : isUnsafeStaticSegment segment = false) :
    IsPlainPart segment := by
  simp only [isUnsafeStaticSegment, Bool.or_eq_false_iff, decide_eq_false_iff_not,
    List.contains_eq_mem] at h
  exact ⟨h.1.1.1.1.1.1, h.1.1.1.1.1.2, h.1.1.1.1.2, h.1.1.2⟩

theorem isPlain_of_safe {segment : Bytes} (h : isUnsafeStaticSegment segment = false) :
    IsPlain segment :=
  have hplain := isPlainPart_of_safe h
  ⟨hplain.1, hplain.2.1, hplain.2.2.1⟩

theorem readStaticSegment_eq_ok {raw segment : Bytes} :
    readStaticSegment raw = .ok segment ↔
      PercentCoding.decode raw = some segment ∧ isUnsafeStaticSegment segment = false := by
  rw [readStaticSegment, decodeStaticPathSegment]
  cases PercentCoding.decode raw with
  | none => exact ⟨fun h => (by cases h), fun h => (by cases h.1)⟩
  | some decoded =>
    show (if isUnsafeStaticSegment decoded = true then throw assetPathInvalid else pure decoded) =
      Except.ok segment ↔ _
    cases hrefused : isUnsafeStaticSegment decoded with
    | true =>
      refine ⟨fun h => (by cases h), ?_⟩
      rintro ⟨h, hsafe⟩
      injection h with h
      subst h
      rw [hrefused] at hsafe
      cases hsafe
    | false =>
      rw [if_neg Bool.false_ne_true, Option.some_inj]
      constructor
      · intro h
        injection h with h
        exact ⟨h, h ▸ hrefused⟩
      · rintro ⟨rfl, -⟩
        rfl

theorem mapM_eq_ok {ε α β : Type} {f : α → Except ε β} {xs : List α} {ys : List β} :
    xs.mapM f = .ok ys ↔ List.Forall₂ (fun x y => f x = .ok y) xs ys := by
  induction xs generalizing ys with
  | nil =>
    rw [List.mapM_nil]
    constructor
    · intro h
      cases h
      exact .nil
    · rintro ⟨⟩
      rfl
  | cons x xs ih =>
    rw [List.mapM_cons]
    constructor
    · intro h
      obtain ⟨y, hy, h⟩ := except_bind_eq_ok h
      obtain ⟨more, hmore, h⟩ := except_bind_eq_ok h
      cases h
      exact .cons hy (ih.mp hmore)
    · rintro (_ | ⟨hy, hmore⟩)
      rw [hy, ih.mpr hmore]
      rfl

theorem safe_of_staticSegments {requestPath : Bytes} {names : List Bytes}
    (h : staticSegments requestPath = .ok names) :
    ∀ name ∈ names, isUnsafeStaticSegment name = false := by
  have hread := mapM_eq_ok.mp h
  generalize (splitPath (requestPath.drop 1)).filter (fun raw => raw ≠ []) = raws at hread
  clear h
  induction hread with
  | nil => exact fun name hname => absurd hname List.not_mem_nil
  | cons hraw _ ih =>
    intro name hname
    rcases List.mem_cons.mp hname with rfl | hname
    · exact (readStaticSegment_eq_ok.mp hraw).2
    · exact ih name hname

/-- Every way to write safe names is read as the names. -/
theorem staticSegments_encode {plain : UInt8 → Bool} {names : List Bytes}
    (hpercent : plain PercentCoding.percent = false) (hslash : plain slash = false)
    (hne : names ≠ []) (hsafe : ∀ name ∈ names, isUnsafeStaticSegment name = false) :
    staticSegments (slash :: joinPath (names.map (PercentCoding.encode plain))) = .ok names := by
  have hnoSlash : ∀ raw ∈ names.map (PercentCoding.encode plain), slash ∉ raw := by
    intro raw hraw hmem
    obtain ⟨name, -, rfl⟩ := List.mem_map.mp hraw
    rcases PercentCoding.mem_encode hmem with h | h | ⟨n, hn, h⟩
    · rw [hslash] at h
      cases h
    · exact absurd h (by decide)
    · have hdigits : ∀ n < 16, slash ≠ PercentCoding.hexDigit n := by decide
      exact hdigits n hn h
  have hkeep : (names.map (PercentCoding.encode plain)).filter (fun raw => raw ≠ []) =
      names.map (PercentCoding.encode plain) := by
    refine List.filter_eq_self.mpr fun raw hraw => decide_eq_true ?_
    obtain ⟨name, hname, rfl⟩ := List.mem_map.mp hraw
    have hplain := (isPlainPart_of_safe (hsafe name hname)).1
    cases name with
    | nil => exact absurd rfl hplain
    | cons b name =>
      exact List.append_ne_nil_of_left_ne_nil (PercentCoding.encodeByte_ne_nil b) _
  have hsplit : splitPath (joinPath (names.map (PercentCoding.encode plain))) =
      names.map (PercentCoding.encode plain) :=
    List.splitOn_intercalate slash hnoSlash (by simpa using hne)
  rw [staticSegments, List.drop_one, List.tail_cons, hsplit, hkeep, mapM_eq_ok,
    List.forall₂_map_left_iff]
  refine List.forall₂_same.mpr fun name hname => readStaticSegment_eq_ok.mpr ?_
  exact ⟨PercentCoding.decode_encode hpercent name, hsafe name hname⟩

/-! ### What is served -/

theorem systemNames_eq_self {names : List Bytes} (h : ∀ name ∈ names, 0 ∉ name) :
    systemNames names = names := by
  induction names with
  | nil => rfl
  | cons name names ih =>
    rw [systemNames, if_neg (h name List.mem_cons_self),
      ih fun other hother => h other (List.mem_cons_of_mem _ hother)]

namespace StaticAssets

variable {assets : StaticAssets} {names location : List Bytes} {requestPath : Bytes}

def canonicalRoot (assets : StaticAssets) : Except Failure (List Bytes) :=
  canonicalizeExistingPath assets.files.tree assets.root
    (ascii "Static asset path could not be canonicalized.")

/-- Names below the root lead to a regular file, and that is within the root. -/
structure Leads (assets : StaticAssets) (names location : List Bytes) : Prop where
  status : assets.files.tree.status (normalNames true assets.rootNames ++ names) = .ok location
  within : ∃ canonicalRoot, assets.canonicalRoot = .ok canonicalRoot ∧ canonicalRoot <+: location
  isFile : isRegularFile assets.files.tree location = true

theorem foldl_append {p : NamePath Bytes} (hne : names ≠ []) (h : ∀ name ∈ names, IsPlain name) :
    names.foldl (fun candidate name => candidate.append ⟨false, [name]⟩) p =
      p.append ⟨false, names⟩ := by
  induction names using List.reverseRecOn with
  | nil => exact absurd rfl hne
  | append_singleton names name ih =>
    rw [List.foldl_append, List.foldl_cons, List.foldl_nil]
    by_cases hnames : names = []
    · rw [hnames]
      rfl
    · rw [ih hnames fun other hother => h other (List.mem_append_left _ hother),
        append_append hnames (fun other hother => h other (List.mem_append_left _ hother))
          (List.cons_ne_nil _ _)]

/-- Whatever the candidate, what it resolves to is a file within the root. -/
theorem within_of_tryResolve {candidate : NamePath Bytes}
    (h : assets.tryResolveStaticFileWithinRoot candidate = some location) :
    (∃ canonicalRoot, assets.canonicalRoot = .ok canonicalRoot ∧ canonicalRoot <+: location) ∧
      isRegularFile assets.files.tree location = true := by
  rw [tryResolveStaticFileWithinRoot] at h
  split at h
  · next resolved hresolved =>
    split at h
    · next hfile =>
      injection h with h
      subst h
      exact ⟨within_of_tryResolvePathWithinRoot hresolved, hfile⟩
    · cases h
  · cases h

/-- Plain names below the root resolve to where they lead. -/
theorem tryResolve_below (hroot : ∀ name ∈ assets.rootNames, 0 ∉ name) (hne : names ≠ [])
    (hplain : ∀ name ∈ names, IsPlain name) (hzero : ∀ name ∈ names, 0 ∉ name) :
    assets.tryResolveStaticFileWithinRoot (assets.root.append ⟨false, names⟩) = some location ↔
      assets.Leads names location := by
  have hnames : (assets.root.append ⟨false, names⟩).names = stem assets.rootNames ++ names := by
    rw [append, if_neg Bool.false_ne_true, if_neg hne]
    rfl
  have hsystem : systemNames (assets.root.append ⟨false, names⟩).names =
      (assets.root.append ⟨false, names⟩).names := by
    rw [hnames]
    refine systemNames_eq_self fun name hname => ?_
    rcases List.mem_append.mp hname with hname | hname
    · refine hroot name ?_
      rcases stem_cases assets.rootNames with h | h
      · rwa [h] at hname
      · rw [h]
        exact List.mem_append_left _ hname
    · exact hzero name hname
  have hrooted : (assets.root.append ⟨false, names⟩).rooted = true := by
    rw [append, if_neg Bool.false_ne_true, if_neg hne]
    rfl
  have hnormal : (assets.root.append ⟨false, names⟩).normal.names =
      normalNames true assets.rootNames ++ names := by
    rw [normal_append hne hplain]
    rfl
  have hresolve : ∀ resolved, tryResolvePathWithinRoot assets.files.tree assets.root
      (assets.root.append ⟨false, names⟩) (ascii "Static asset path escaped the configured root.")
      (ascii "Static asset path could not be canonicalized.") = .ok (some resolved) ↔
      ∃ canonicalRoot, assets.canonicalRoot = .ok canonicalRoot ∧ assets.files.tree.status
        (normalNames true assets.rootNames ++ names) = .ok resolved ∧
          canonicalRoot <+: resolved := by
    intro resolved
    rw [tryResolvePathWithinRoot_rooted hrooted, hnormal]
    rfl
  rw [tryResolveStaticFileWithinRoot, hsystem]
  constructor
  · intro h
    split at h
    · next resolved hresolved =>
      split at h
      · next hfile =>
        injection h with h
        subst h
        obtain ⟨canonicalRoot, hcanonical, hstatus, hwithin⟩ := (hresolve resolved).mp hresolved
        exact ⟨hstatus, ⟨canonicalRoot, hcanonical, hwithin⟩, hfile⟩
      · cases h
    · cases h
  · rintro ⟨hstatus, ⟨canonicalRoot, hcanonical, hwithin⟩, hfile⟩
    have hresolved := (hresolve location).mpr ⟨canonicalRoot, hcanonical, hstatus, hwithin⟩
    rw [hresolved]
    exact if_pos hfile

theorem index_facts : (∀ name ∈ [ascii "index.html"], IsPlain name) ∧
    ∀ name ∈ [ascii "index.html"], (0 : UInt8) ∉ name := by
  have hsafe : isUnsafeStaticSegment (ascii "index.html") = false := by decide
  refine ⟨fun name hname => ?_, by decide⟩
  rw [List.mem_singleton.mp hname]
  exact isPlain_of_safe hsafe

/-- A candidate is served where it resolves, and the page of the web client elsewhere. -/
theorem resolveCandidate_iff {candidate : NamePath Bytes} :
    assets.resolveCandidate requestPath candidate = .ok location ↔
      assets.tryResolveStaticFileWithinRoot candidate = some location ∨
        assets.tryResolveStaticFileWithinRoot candidate = none ∧
          hasRequestedFileExtension requestPath = false ∧
            assets.tryResolveStaticFileWithinRoot assets.fallback = some location := by
  rw [resolveCandidate]
  cases assets.tryResolveStaticFileWithinRoot candidate with
  | some resolved => simp
  | none =>
    cases hasRequestedFileExtension requestPath with
    | true => simp
    | false =>
      cases assets.tryResolveStaticFileWithinRoot assets.fallback with
      | some resolved => simp
      | none => simp

/-- The names below the root that a request is for. -/
def target (names : List Bytes) : List Bytes := if names = [] then [ascii "index.html"] else names

/-- A request that names a path below the root is given the file that the path leads to; where it
leads to none, the page of the web client, unless the request is for a file with an extension. -/
theorem resolveStaticAsset_iff (hroot : ∀ name ∈ assets.rootNames, 0 ∉ name)
    (hread : staticSegments requestPath = .ok names) (hzero : ∀ name ∈ names, 0 ∉ name) :
    assets.resolveStaticAsset requestPath = .ok location ↔
      assets.Leads (target names) location ∨
        (∀ other, ¬assets.Leads (target names) other) ∧
          hasRequestedFileExtension requestPath = false ∧
            assets.Leads [ascii "index.html"] location := by
  have hindex : ∀ location, assets.tryResolveStaticFileWithinRoot assets.fallback =
      some location ↔ assets.Leads [ascii "index.html"] location := fun _ =>
    tryResolve_below hroot (List.cons_ne_nil _ _) index_facts.1 index_facts.2
  have hcandidate : ∀ location, assets.tryResolveStaticFileWithinRoot (assets.candidateOf names) =
      some location ↔ assets.Leads (target names) location := by
    intro location
    rw [candidateOf, target]
    split
    · exact hindex location
    · next hne =>
      have hplain : ∀ name ∈ names, IsPlain name := fun name hname =>
        isPlain_of_safe (safe_of_staticSegments hread name hname)
      rw [foldl_append hne hplain]
      exact tryResolve_below hroot hne hplain hzero
  have hnone : assets.tryResolveStaticFileWithinRoot (assets.candidateOf names) = none ↔
      ∀ other, ¬assets.Leads (target names) other := by
    rw [Option.eq_none_iff_forall_ne_some]
    exact forall_congr' fun other => not_congr (hcandidate other)
  rw [resolveStaticAsset, hread]
  show assets.resolveCandidate requestPath (assets.candidateOf names) = .ok location ↔ _
  rw [resolveCandidate_iff, hcandidate, hnone, hindex]

/-- Whatever a request is for, what it is given is a file within the root. -/
theorem within_of_resolveStaticAsset (h : assets.resolveStaticAsset requestPath = .ok location) :
    (∃ canonicalRoot, assets.canonicalRoot = .ok canonicalRoot ∧ canonicalRoot <+: location) ∧
      isRegularFile assets.files.tree location = true := by
  obtain ⟨names, _, h⟩ := except_bind_eq_ok h
  rcases resolveCandidate_iff.mp h with h | ⟨-, -, h⟩
  · exact within_of_tryResolve h
  · exact within_of_tryResolve h

theorem setStaticAssetResponse_eq_ok {response : StaticResponse}
    (h : assets.setStaticAssetResponse location = .ok response) :
    (∃ size, assets.files.fileSize location = some size ∧ size ≤ maxStaticAssetBytes) ∧
      assets.files.content location = some response.body := by
  rw [setStaticAssetResponse] at h
  split at h
  · cases h
  next size hsize =>
  split at h
  · cases h
  next hlimit =>
  split at h
  · cases h
  next content hcontent =>
  cases h
  exact ⟨⟨size, hsize, by omega⟩, hcontent⟩

end StaticAssets

/-- A request for an asset is answered with the bytes of a regular file whose canonical location is
within the root, whatever its path and whatever links there are. A request whose segments name a
path below the root, in any encoding of them, is given the file at that path; where there is none,
the page of the web client, unless it is for a file with an extension. -/
theorem assets_served (assets : StaticAssets) :
    (∀ requestPath response, assets.respond requestPath = .ok response →
      ∃ canonicalRoot location, assets.canonicalRoot = .ok canonicalRoot ∧
        canonicalRoot <+: location ∧ isRegularFile assets.files.tree location = true ∧
        (∃ size, assets.files.fileSize location = some size ∧ size ≤ maxStaticAssetBytes) ∧
        assets.files.content location = some response.body) ∧
    ((∀ name ∈ assets.rootNames, 0 ∉ name) → ∀ names plain,
      plain PercentCoding.percent = false → plain slash = false → names ≠ [] →
      (∀ name ∈ names, isUnsafeStaticSegment name = false ∧ 0 ∉ name) →
      ∀ requestPath, requestPath = slash :: joinPath (names.map (PercentCoding.encode plain)) →
      ∀ location, assets.resolveStaticAsset requestPath = .ok location ↔
        assets.Leads names location ∨ (∀ other, ¬assets.Leads names other) ∧
          hasRequestedFileExtension requestPath = false ∧
            assets.Leads [ascii "index.html"] location) := by
  refine ⟨fun requestPath response h => ?_, ?_⟩
  · obtain ⟨location, hlocation, h⟩ := except_bind_eq_ok h
    obtain ⟨⟨canonicalRoot, hroot, hwithin⟩, hfile⟩ :=
      StaticAssets.within_of_resolveStaticAsset hlocation
    exact ⟨canonicalRoot, location, hroot, hwithin, hfile,
      StaticAssets.setStaticAssetResponse_eq_ok h⟩
  · rintro hroot names plain hpercent hslash hne hsafe requestPath rfl location
    have hread := staticSegments_encode hpercent hslash hne fun name hname => (hsafe name hname).1
    have hzero : ∀ name ∈ names, 0 ∉ name := fun name hname => (hsafe name hname).2
    rw [StaticAssets.resolveStaticAsset_iff hroot hread hzero, StaticAssets.target, if_neg hne]

/-- A script beside the page of the web client. -/
def scriptAssets : StaticAssets where
  rootNames := [ascii "w"]
  files :=
    { tree := ⟨[([], .directory [ascii "w"]),
        ([ascii "w"], .directory [ascii "a b.js", ascii "index.html"]),
        ([ascii "w", ascii "a b.js"], .file), ([ascii "w", ascii "index.html"], .file)], 40⟩
      fileSize := fun _ => some 1
      content := fun _ => some [0x20] }

/-- The script, asked for with its blank escaped. -/
theorem scriptAssets_served :
    scriptAssets.resolveStaticAsset (ascii "/a%20b.js") = .ok [ascii "w", ascii "a b.js"] := by
  refine (((assets_served scriptAssets).2 (by decide) [ascii "a b.js"]
    (fun b => b ≠ PercentCoding.percent && b ≠ slash && b ≠ asciiByte ' ') (by decide) (by decide)
    (List.cons_ne_nil _ _) (by decide) _ (by decide) _).mpr (.inl ⟨rfl, ⟨_, rfl, ?_⟩, rfl⟩))
  exact List.prefix_append [ascii "w"] [ascii "a b.js"]

end InpxWebReader.Server
