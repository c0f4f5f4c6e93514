import InpxWebReader.Domain.SearchQuery
import InpxWebReader.Foundation.Sha256
import InpxWebReader.Library.Program
import InpxWebReader.Library.Runs

/-!
# The state of the INPX source

Every call of the application asks how the INPX file is doing: can it be scanned, is it the file
that was scanned last. The answer is the fingerprint of the file, and the fingerprint of an earlier
call is taken instead while the size and the time of the last write are as they were. The file may
be replaced or written to at any moment, also while it is read (`SourceHistory`).

`sourceState_fresh` says that an answer is nevertheless about the file as it was during the call, if
a write always moves the time (`Timestamped`); and that the cache changes no answer about a file
that stays as it is.
-/

namespace InpxWebReader.App

open Foundation Program

/-! ### The file over time -/

structure FileImage where
  contents : Bytes
  lastWriteTime : Int
  deriving DecidableEq

/-- What the file system holds at each moment: the regular files and the directories. -/
structure SourceHistory where
  file : Bytes → Nat → Option FileImage
  directory : Bytes → Nat → Bool

/-- When a call looks at the source: at the file and the archive root, at the size and the time
before and after the file is read, when it is opened, and when each buffer is filled. -/
structure Looks where
  isFile : Nat
  isDirectory : Nat
  size : Nat
  time : Nat
  opened : Nat
  buffers : List Nat
  sizeAfter : Nat
  timeAfter : Nat
  deriving DecidableEq

structure InpxSourceInfo where
  inpxPath : Bytes
  archiveRoot : Bytes
  deriving DecidableEq

def readBufferSizeBytes : Nat := 1024 * 1024

/-- The loop of `ComputeFile`, from a position on: it ends at a buffer that is not full. -/
def readBuffers (history : SourceHistory) (path : Bytes) (position : Nat) :
    List Nat → Except Failure Bytes
  | [] => .error (.standard (ascii "Could not read file for SHA-256: " ++ quoted path ++ ascii "."))
  | moment :: moments =>
    match history.file path moment with
    | none =>
      .error (.standard (ascii "Could not read file for SHA-256: " ++ quoted path ++ ascii "."))
    | some image =>
      let buffer := (image.contents.drop position).take readBufferSizeBytes
      if buffer.length < readBufferSizeBytes then .ok buffer
      else do
        let rest ← readBuffers history path (position + readBufferSizeBytes) moments
        return buffer ++ rest

/-- `CSha256Fingerprint::ComputeFile`, of a file that may change while it is read. -/
def computeFile (sha : Sha256) (history : SourceHistory) (path : Bytes) (opened : Nat)
    (buffers : List Nat) : Except Failure Bytes :=
  match history.file path opened with
  | none =>
    .error (.standard (ascii "Could not open file for SHA-256: " ++ quoted path ++ ascii "."))
  | some _ => do
    let bytes ← readBuffers history path 0 buffers
    return sha.computeBytes bytes

/-! ### The cache -/

structure SourceFingerprintCache where
  inpxPath : Bytes := []
  sizeBytes : Nat := 0
  lastWriteTime : Int := 0
  fingerprint : Bytes := []
  isInitialized : Bool := false
  deriving DecidableEq

/-- Is the cached fingerprint the one of this file? -/
def SourceFingerprintCache.fits (cache : SourceFingerprintCache) (path : Bytes) (sizeBytes : Nat)
    (lastWriteTime : Int) : Bool :=
  cache.isInitialized && cache.inpxPath = path && cache.sizeBytes = sizeBytes &&
    cache.lastWriteTime = lastWriteTime

/-- The value of a system call, or the error that the program makes of its failure. -/
def orFailure {α : Type} (text : String) : Option α → Except Failure α
  | some a => .ok a
  | none => .error (runtimeError text)

section Resolve

variable (sha : Sha256) (history : SourceHistory) (looks : Looks)

/-- `RefreshSourceFingerprint`: the fingerprint, and the cache after the call. -/
def refreshSourceFingerprint (source : InpxSourceInfo) (cache : SourceFingerprintCache)
    (forceRefresh : Bool) : Except Failure (Bytes × SourceFingerprintCache) := do
  let path := source.inpxPath
  let sized ← orFailure "The configured INPX file size could not be read."
    (history.file path looks.size)
  let timed ← orFailure "The configured INPX file timestamp could not be read."
    (history.file path looks.time)
  let sizeBytes := sized.contents.length
  if !forceRefresh && cache.fits path sizeBytes timed.lastWriteTime then
    return (cache.fingerprint, cache)
  else
    let fingerprint ← computeFile sha history path looks.opened looks.buffers
    let completedSize ← orFailure "The configured INPX file size could not be verified."
      (history.file path looks.sizeAfter)
    let completedTime ← orFailure "The configured INPX file timestamp could not be verified."
      (history.file path looks.timeAfter)
    if completedSize.contents.length ≠ sizeBytes ∨
        completedTime.lastWriteTime ≠ timed.lastWriteTime then
      .error (runtimeError
        "The configured INPX file changed while its fingerprint was calculated.")
    else return (fingerprint, ⟨path, sizeBytes, timed.lastWriteTime, fingerprint, true⟩)

/-- `SInpxSourceRuntimeState`. -/
structure SourceRuntimeState where
  canRescan : Bool := false
  canDownload : Bool := false
  sourceWarning : Bytes := []
  currentFingerprint : Option Bytes := none
  deriving DecidableEq

/-- The warning about a file or an archive root that is not there. -/
def unavailableWarning (inpxAvailable archivesAvailable : Bool) : Bytes :=
  if !inpxAvailable && !archivesAvailable then
    ascii "The INPX file and archive root are unavailable."
  else if inpxAvailable then ascii "The archive root is unavailable."
  else ascii "The INPX file is unavailable."

/-- `ex.what()`. -/
def whatOf : Failure → Bytes
  | .standard text => text
  | .nonStandard => []

/-- `ResolveInpxSourceState`, and the cache after the call. -/
def resolveInpxSourceState (source : Option InpxSourceInfo) (storedFingerprint : Bytes)
    (cache : SourceFingerprintCache) (forceFingerprintRefresh : Bool) :
    SourceRuntimeState × SourceFingerprintCache :=
  match source with
  | none => ({ sourceWarning := ascii "The INPX source is not configured." }, cache)
  | some source =>
    let inpxAvailable := (history.file source.inpxPath looks.isFile).isSome
    let archivesAvailable := history.directory source.archiveRoot looks.isDirectory
    if !inpxAvailable || !archivesAvailable then
      ({ sourceWarning := unavailableWarning inpxAvailable archivesAvailable }, cache)
    else
      match refreshSourceFingerprint sha history looks source cache forceFingerprintRefresh with
      | .error failure => ({ sourceWarning := whatOf failure }, cache)
      | .ok (fingerprint, cache) =>
        let matchesStoredSource : Bool := fingerprint = storedFingerprint
        ({ canRescan := true
           canDownload := matchesStoredSource
           sourceWarning := if matchesStoredSource then [] else ascii
             "The configured INPX file differs from the last successful scan; rescan is required."
           currentFingerprint := some fingerprint }, cache)

end Resolve

/-! ### The application -/

/-- The calls that ask for the state of the source. A list of books brings the fingerprint of the
version of the catalog that it was read from; for the other calls it is the one in the database. -/
inductive SourceCall
  | getCatalogSessionInfo
  | listBooks (catalogFingerprint : Bytes)
  | getBookDetails
  | getInpxSourceOverview
  | startInpxScan
  | prepareDownload
  deriving DecidableEq

/-- Is the file read even where the cached fingerprint fits? -/
def SourceCall.forced : SourceCall → Bool
  | .startInpxScan | .prepareDownload => true
  | _ => false

/-- The fingerprint that the file is compared with. -/
def SourceCall.storedFingerprint (rowFingerprint : Bytes) : SourceCall → Bytes
  | .listBooks catalogFingerprint => catalogFingerprint
  | _ => rowFingerprint

/-- A call, when it looked, the fingerprint in the database at that time, and its answer. -/
structure SourceAnswer where
  call : SourceCall
  looks : Looks
  rowFingerprint : Bytes
  state : SourceRuntimeState
  deriving DecidableEq

/-- The error of `StartInpxScan` and `PrepareDownload`. -/
def unavailableSource (state : SourceRuntimeState) : Domain.DomainErrorCode × Bytes :=
  (.validation, if state.sourceWarning = [] then ascii "The INPX source is unavailable."
    else state.sourceWarning)

/-- What `StartInpxScan` hands to the scan: the source and the fingerprint to be expected. -/
def startInpxScan (source : Option InpxSourceInfo) (state : SourceRuntimeState) :
    Except (Domain.DomainErrorCode × Bytes) (InpxSourceInfo × Bytes) :=
  match state.canRescan, state.currentFingerprint, source with
  | true, some fingerprint, some source => .ok (source, fingerprint)
  | _, _, _ => .error (unavailableSource state)

/-- The check of `PrepareDownload`. -/
def requireDownload (state : SourceRuntimeState) : Except (Domain.DomainErrorCode × Bytes) Unit :=
  if state.canDownload then .ok () else .error (unavailableSource state)

/-- The application: its source, the cache, the answers so far, and the moment of the last look.
The calls look one after the other, each under the mutex of the cache. -/
structure SourceService where
  source : Option InpxSourceInfo
  cache : SourceFingerprintCache := {}
  answers : List SourceAnswer := []
  now : Nat := 0
  deriving DecidableEq

structure SourceAction where
  call : SourceCall
  looks : Looks
  rowFingerprint : Bytes

/-- `ResolveSourceState`. -/
def SourceService.step (sha : Sha256) (history : SourceHistory) (service : SourceService)
    (action : SourceAction) : Option SourceService :=
  let (state, cache) := resolveInpxSourceState sha history action.looks service.source
    (action.call.storedFingerprint action.rowFingerprint) service.cache action.call.forced
  some { service with
    cache := cache
    answers := service.answers ++ [⟨action.call, action.looks, action.rowFingerprint, state⟩]
    now := action.looks.timeAfter }

/-! ### What is assumed of the file -/

/-- A write moves the time of the last write, and it never moves back to where it was: between two
moments of one time the file is the same. -/
def Timestamped (history : SourceHistory) : Prop :=
  ∀ path t u a b, t ≤ u → history.file path t = some a → history.file path u = some b →
    a.lastWriteTime = b.lastWriteTime → ∀ v, t ≤ v → v ≤ u → history.file path v = some a

/-- A call looks in the order of its instructions, after the calls before it. -/
structure Looks.InOrder (looks : Looks) (now : Nat) : Prop where
  isFile : now ≤ looks.isFile
  isDirectory : looks.isFile ≤ looks.isDirectory
  size : looks.isDirectory ≤ looks.size
  time : looks.size ≤ looks.time
  opened : looks.time ≤ looks.opened
  buffers : ∀ moment ∈ looks.buffers, looks.opened ≤ moment ∧ moment ≤ looks.sizeAfter
  sizeAfter : looks.opened ≤ looks.sizeAfter
  timeAfter : looks.sizeAfter ≤ looks.timeAfter

/-- The file is the same during the whole call, and the buffers are enough to read it. -/
structure SourceHistory.Steady (history : SourceHistory) (path : Bytes) (looks : Looks)
    (image : FileImage) : Prop where
  same : ∀ moment, looks.isFile ≤ moment → moment ≤ looks.timeAfter →
    history.file path moment = some image
  buffers : image.contents.length < looks.buffers.length * readBufferSizeBytes

section Fresh

variable {sha : Sha256} {history : SourceHistory} {looks : Looks} {path : Bytes}
  {cache cache' : SourceFingerprintCache} {source : InpxSourceInfo} {fingerprint : Bytes}

/-- Reading a file that stays as it is gives what is in it. -/
theorem readBuffers_eq_ok {image : FileImage} {moments : List Nat} {position : Nat} {bytes : Bytes}
    (hsame : ∀ moment ∈ moments, history.file path moment = some image)
    (h : readBuffers history path position moments = .ok bytes) :
    bytes = image.contents.drop position := by
  induction moments generalizing position bytes with
  | nil => cases h
  | cons moment moments ih =>
    rw [readBuffers, hsame moment List.mem_cons_self] at h
    dsimp only at h
    split at h
    · next hlast =>
      cases h
      refine List.take_of_length_le ?_
      rw [List.length_take] at hlast
      omega
    · obtain ⟨rest, hrest, h⟩ := except_bind_eq_ok h
      cases h
      rw [ih (fun moment hm => hsame moment (List.mem_cons_of_mem _ hm)) hrest, ← List.drop_drop,
        List.take_append_drop]

/-- And the reading ends when there are enough buffers. -/
theorem exists_readBuffers {image : FileImage} {moments : List Nat} {position : Nat}
    (hsame : ∀ moment ∈ moments, history.file path moment = some image)
    (henough : image.contents.length < position + moments.length * readBufferSizeBytes)
    (hposition : position ≤ image.contents.length) :
    readBuffers history path position moments = .ok (image.contents.drop position) := by
  induction moments generalizing position with
  | nil =>
    rw [List.length_nil] at henough
    omega
  | cons moment moments ih =>
    rw [readBuffers, hsame moment List.mem_cons_self]
    dsimp only
    rw [List.length_cons, Nat.add_mul, Nat.one_mul] at henough
    have hlength : ((image.contents.drop position).take readBufferSizeBytes).length =
        min readBufferSizeBytes (image.contents.length - position) := by
      rw [List.length_take, List.length_drop]
    split
    · next hlast =>
      refine congrArg Except.ok (List.take_of_length_le ?_)
      rw [hlength] at hlast
      rw [List.length_drop]
      omega
    · next hfull =>
      rw [hlength] at hfull
      rw [ih (fun moment hm => hsame moment (List.mem_cons_of_mem _ hm)) (by omega) (by omega)]
      show Except.ok _ = _
      rw [← List.drop_drop, List.take_append_drop]

/-- The cached fingerprint is that of the file as it was at a moment. -/
def SourceFingerprintCache.Recalls (sha : Sha256) (history : SourceHistory) (now : Nat)
    (cache : SourceFingerprintCache) : Prop :=
  cache.isInitialized = true → ∃ moment image, moment ≤ now ∧
    history.file cache.inpxPath moment = some image ∧
    image.lastWriteTime = cache.lastWriteTime ∧ image.contents.length = cache.sizeBytes ∧
    cache.fingerprint = sha.computeBytes image.contents

theorem fits_eq_true {sizeBytes : Nat} {lastWriteTime : Int}
    (h : cache.fits path sizeBytes lastWriteTime = true) :
    cache.isInitialized = true ∧ cache.inpxPath = path ∧ cache.sizeBytes = sizeBytes ∧
      cache.lastWriteTime = lastWriteTime := by
  rw [SourceFingerprintCache.fits] at h
  simp only [Bool.and_eq_true, decide_eq_true_eq] at h
  exact ⟨h.1.1.1, h.1.1.2, h.1.2, h.2⟩

theorem orFailure_eq_ok {α : Type} {text : String} {x : Option α} {a : α}
    (h : orFailure text x = .ok a) : x = some a := by
  cases x with
  | none => cases h
  | some b =>
    cases h
    rfl

/-- A fingerprint is that of the file when its time was read, cached or not. -/
theorem refreshSourceFingerprint_eq_ok (htime : Timestamped history) {now : Nat}
    (horder : looks.InOrder now) (hcache : cache.Recalls sha history now) {forceRefresh : Bool}
    (h : refreshSourceFingerprint sha history looks source cache forceRefresh =
      .ok (fingerprint, cache')) :
    (∃ image, history.file source.inpxPath looks.time = some image ∧
      fingerprint = sha.computeBytes image.contents) ∧
    cache'.Recalls sha history looks.timeAfter := by
  obtain ⟨hisFile, hisDirectory, hsize, htimeLe, hopened, hbuffers, hsizeAfter, htimeAfter⟩ :=
    horder
  rw [refreshSourceFingerprint] at h
  obtain ⟨sized, hsized, h⟩ := except_bind_eq_ok h
  obtain ⟨timed, htimed, h⟩ := except_bind_eq_ok h
  have htimed := orFailure_eq_ok htimed
  dsimp only at h
  split at h
  · next hhit =>
    cases h
    rw [Bool.and_eq_true] at hhit
    obtain ⟨hinit, hpath, _, hwrite⟩ := fits_eq_true hhit.2
    obtain ⟨moment, image, hmoment, himage, himageTime, himageSize, hfingerprint⟩ := hcache hinit
    rw [hpath] at himage
    have hsame := htime source.inpxPath moment looks.time image timed (by omega) himage htimed
      (himageTime.trans hwrite) looks.time (by omega) le_rfl
    refine ⟨⟨image, hsame, hfingerprint⟩, fun _ => ⟨moment, image, by omega, ?_, himageTime,
      himageSize, hfingerprint⟩⟩
    rw [hpath]
    exact himage
  · obtain ⟨computed, hcomputed, h⟩ := except_bind_eq_ok h
    obtain ⟨completedSize, hcompletedSize, h⟩ := except_bind_eq_ok h
    obtain ⟨completedTime, hcompletedTime, h⟩ := except_bind_eq_ok h
    have hcompletedTime := orFailure_eq_ok hcompletedTime
    have hcompletedSize := orFailure_eq_ok hcompletedSize
    split at h
    · cases h
    · next hunchanged =>
      cases h
      obtain ⟨hsizeEq, htimeEq⟩ := not_or.mp hunchanged
      -- the times before and after the reading are equal: the file did not change in between
      have hsame := htime source.inpxPath looks.time looks.timeAfter timed completedTime (by omega)
        htimed hcompletedTime (not_not.mp htimeEq).symm
      have hfingerprint : fingerprint = sha.computeBytes timed.contents := by
        rw [computeFile] at hcomputed
        rw [hsame looks.opened (by omega) (by omega)] at hcomputed
        obtain ⟨bytes, hbytes, hcomputed⟩ := except_bind_eq_ok hcomputed
        cases hcomputed
        rw [readBuffers_eq_ok (fun moment hm => hsame moment
          (hopened.trans (hbuffers moment hm).1)
          ((hbuffers moment hm).2.trans htimeAfter)) hbytes, List.drop_zero]
      refine ⟨⟨timed, htimed, hfingerprint⟩, fun _ => ⟨looks.time, timed, by omega, htimed, rfl, ?_,
        hfingerprint⟩⟩
      have hlast := hsame looks.sizeAfter (by omega) htimeAfter
      rw [hcompletedSize, Option.some_inj] at hlast
      rw [← hlast]
      exact not_not.mp hsizeEq

/-- Where the file stays as it is the fingerprint is the one of its contents, cached or not. -/
theorem refreshSourceFingerprint_of_steady (htime : Timestamped history) {now : Nat}
    (horder : looks.InOrder now) (hcache : cache.Recalls sha history now) {image : FileImage}
    (hsteady : history.Steady source.inpxPath looks image) (forceRefresh : Bool) :
    ∃ cache', refreshSourceFingerprint sha history looks source cache forceRefresh =
      .ok (sha.computeBytes image.contents, cache') := by
  obtain ⟨hisFile, hisDirectory, hsize, htimeLe, hopened, hbuffers, hsizeAfter, htimeAfter⟩ :=
    horder
  have hsame := hsteady.same
  rw [refreshSourceFingerprint]
  rw [hsame looks.size (by omega) (by omega), hsame looks.time (by omega) (by omega)]
  show ∃ cache', (if (!forceRefresh && cache.fits source.inpxPath image.contents.length
    image.lastWriteTime) = true then _ else _) = _
  split
  · next hhit =>
    rw [Bool.and_eq_true] at hhit
    obtain ⟨hinit, hpath, _, hwrite⟩ := fits_eq_true hhit.2
    obtain ⟨moment, image', hmoment, himage', htime', _, hfingerprint⟩ := hcache hinit
    rw [hpath] at himage'
    have heq := htime source.inpxPath moment looks.time image' image (by omega) himage'
      (hsame looks.time (by omega) (by omega)) (htime'.trans hwrite) looks.time (by omega) le_rfl
    rw [hsame looks.time (by omega) (by omega), Option.some_inj] at heq
    subst heq
    exact ⟨cache, by rw [hfingerprint]; rfl⟩
  · have hcomputed : computeFile sha history source.inpxPath looks.opened looks.buffers =
        .ok (sha.computeBytes image.contents) := by
      rw [computeFile]
      rw [hsame looks.opened (by omega) (by omega)]
      have hread : readBuffers history source.inpxPath 0 looks.buffers =
          .ok (image.contents.drop 0) := by
        refine exists_readBuffers (fun moment hm => ?_) ?_ (Nat.zero_le _)
        · have := hbuffers moment hm
          exact hsame moment (by omega) (by omega)
        · rw [Nat.zero_add]
          exact hsteady.buffers
      rw [List.drop_zero] at hread
      show (readBuffers history source.inpxPath 0 looks.buffers >>= _) = _
      rw [hread]
      rfl
    rw [hcomputed, hsame looks.sizeAfter (by omega) (by omega),
      hsame looks.timeAfter (by omega) (by omega)]
    refine ⟨⟨source.inpxPath, image.contents.length, image.lastWriteTime,
      sha.computeBytes image.contents, true⟩, ?_⟩
    exact if_neg (by simp)

theorem whatOf_refreshSourceFingerprint {forceRefresh : Bool} {failure : Failure}
    (h : refreshSourceFingerprint sha history looks source cache forceRefresh = .error failure) :
    whatOf failure ≠ [] := by
  have horFailure : ∀ {α : Type} {text : String} {x : Option α} {failure : Failure},
      ascii text ≠ [] → orFailure text x = .error failure → whatOf failure ≠ [] := by
    intro α text x failure hne h
    cases x with
    | none =>
      cases h
      exact hne
    | some a => cases h
  have hbuffers : ∀ moments position failure,
      readBuffers history source.inpxPath position moments = .error failure →
      whatOf failure ≠ [] := by
    intro moments
    induction moments with
    | nil =>
      intro position failure h
      cases h
      exact List.cons_ne_nil _ _
    | cons moment moments ih =>
      intro position failure h
      rw [readBuffers] at h
      split at h
      · cases h
        exact List.cons_ne_nil _ _
      · dsimp only at h
        split at h
        · cases h
        · rcases except_bind_eq_error h with hfirst | ⟨rest, _, h⟩
          · exact ih _ _ hfirst
          · cases h
  rw [refreshSourceFingerprint] at h
  rcases except_bind_eq_error h with hfail | ⟨sized, _, h⟩
  · exact horFailure (by decide) hfail
  rcases except_bind_eq_error h with hfail | ⟨timed, _, h⟩
  · exact horFailure (by decide) hfail
  dsimp only at h
  split at h
  · cases h
  · rcases except_bind_eq_error h with hfail | ⟨computed, _, h⟩
    · rw [computeFile] at hfail
      split at hfail
      · cases hfail
        exact List.cons_ne_nil _ _
      · rcases except_bind_eq_error hfail with hfail | ⟨bytes, _, hfail⟩
        · exact hbuffers _ _ _ hfail
        · cases hfail
    rcases except_bind_eq_error h with hfail | ⟨completedSize, _, h⟩
    · exact horFailure (by decide) hfail
    rcases except_bind_eq_error h with hfail | ⟨completedTime, _, h⟩
    · exact horFailure (by decide) hfail
    split at h
    · cases h
      decide
    · cases h

/-- What the state of a source says of a fingerprint, or of a failure to find it. -/
theorem resolveInpxSourceState_fst_congr {storedFingerprint : Bytes}
    {source : Option InpxSourceInfo} {forced forced' : Bool}
    (h : ∀ s, source = some s →
      (refreshSourceFingerprint sha history looks s cache forced).map Prod.fst =
        (refreshSourceFingerprint sha history looks s cache' forced').map Prod.fst) :
    (resolveInpxSourceState sha history looks source storedFingerprint cache forced).1 =
      (resolveInpxSourceState sha history looks source storedFingerprint cache' forced').1 := by
  cases source with
  | none => rfl
  | some s =>
    have hsame := h s rfl
    rw [resolveInpxSourceState, resolveInpxSourceState]
    dsimp only
    split
    · rfl
    · cases hr : refreshSourceFingerprint sha history looks s cache forced with
      | error failure =>
        cases hr' : refreshSourceFingerprint sha history looks s cache' forced' with
        | error failure' =>
          rw [hr, hr'] at hsame
          cases hsame
          rfl
        | ok result' =>
          rw [hr, hr'] at hsame
          cases hsame
      | ok result =>
        cases hr' : refreshSourceFingerprint sha history looks s cache' forced' with
        | error failure' =>
          rw [hr, hr'] at hsame
          cases hsame
        | ok result' =>
          rw [hr, hr'] at hsame
          obtain ⟨fingerprint, _⟩ := result
          obtain ⟨fingerprint', _⟩ := result'
          cases hsame
          rfl

theorem refreshSourceFingerprint_forced :
    (refreshSourceFingerprint sha history looks source cache true).map Prod.fst =
      (refreshSourceFingerprint sha history looks source cache' true).map Prod.fst := by
  rfl

/-- What a state says is about the source as it was during the call. -/
structure SourceRuntimeState.Tells (sha : Sha256) (history : SourceHistory)
    (configured : Option InpxSourceInfo) (looks : Looks) (storedFingerprint : Bytes)
    (state : SourceRuntimeState) : Prop where
  /-- A fingerprint is that of the file at a moment of the call. -/
  fresh : ∀ fingerprint, state.currentFingerprint = some fingerprint →
    ∃ s image, configured = some s ∧ history.file s.inpxPath looks.time = some image ∧
      fingerprint = sha.computeBytes image.contents
  /-- A scan can start exactly when there is one. -/
  rescan : state.canRescan = state.currentFingerprint.isSome
  /-- A download is offered exactly when it is the stored one. -/
  download : state.canDownload = true ↔ state.currentFingerprint = some storedFingerprint
  /-- And a warning says so otherwise. -/
  warning : state.sourceWarning = [] ↔ state.canDownload = true

theorem tells_of_warning {configured : Option InpxSourceInfo} {storedFingerprint warning : Bytes}
    (h : warning ≠ []) : SourceRuntimeState.Tells sha history configured looks storedFingerprint
      { sourceWarning := warning } := by
  refine ⟨fun _ hc => (by cases hc), rfl, ?_, ?_⟩
  · constructor
    · intro hc
      cases hc
    · intro hc
      cases hc
  · exact ⟨fun hc => absurd hc h, fun hc => (by cases hc)⟩

theorem SourceFingerprintCache.Recalls.mono {now later : Nat} (h : cache.Recalls sha history now)
    (hle : now ≤ later) : cache.Recalls sha history later := by
  intro hinit
  obtain ⟨moment, image, hmoment, hrest⟩ := h hinit
  exact ⟨moment, image, hmoment.trans hle, hrest⟩

theorem Looks.InOrder.le {now : Nat} (h : looks.InOrder now) : now ≤ looks.timeAfter := by
  obtain ⟨_, _, _, _, _, _, _, _⟩ := h
  omega

theorem tells_resolveInpxSourceState (htime : Timestamped history) {now : Nat}
    (horder : looks.InOrder now) (hcache : cache.Recalls sha history now)
    {configured : Option InpxSourceInfo} {storedFingerprint : Bytes} {forced : Bool}
    {state : SourceRuntimeState} (h : resolveInpxSourceState sha history looks configured
      storedFingerprint cache forced = (state, cache')) :
    state.Tells sha history configured looks storedFingerprint ∧
      cache'.Recalls sha history looks.timeAfter := by
  have hkeep := hcache.mono horder.le
  rw [resolveInpxSourceState.eq_def] at h
  split at h
  · cases h
    exact ⟨tells_of_warning (by decide), hkeep⟩
  · next s =>
    dsimp only at h
    split at h
    · cases h
      refine ⟨tells_of_warning ?_, hkeep⟩
      rw [unavailableWarning]
      split_ifs <;> decide
    · split at h
      · next failure hfail =>
        cases h
        exact ⟨tells_of_warning (whatOf_refreshSourceFingerprint hfail), hkeep⟩
      · next fingerprint _ hok =>
        obtain ⟨⟨image, himage, hfingerprint⟩, hrecalls⟩ :=
          refreshSourceFingerprint_eq_ok htime horder hcache hok
        cases h
        refine ⟨⟨fun fingerprint' heq => ?_, rfl, ?_, ?_⟩, hrecalls⟩
        · cases heq
          exact ⟨s, image, rfl, himage, hfingerprint⟩
        · exact decide_eq_true_iff.trans Option.some_inj.symm
        · dsimp only
          split
          · next hmatch => exact ⟨fun _ => hmatch, fun _ => rfl⟩
          · next hmatch => exact ⟨fun hnil => (by cases hnil), fun hc => absurd hc hmatch⟩

/-- An answer is about the source as it was during the call, and the cache does not show in it. -/
structure SourceAnswer.Honest (sha : Sha256) (history : SourceHistory)
    (configured : Option InpxSourceInfo) (answer : SourceAnswer) : Prop where
  tells : answer.state.Tells sha history configured answer.looks
    (answer.call.storedFingerprint answer.rowFingerprint)
  /-- The answer to a forced call is the one without a cache. -/
  forced : answer.call.forced = true → answer.state =
    (resolveInpxSourceState sha history answer.looks configured
      (answer.call.storedFingerprint answer.rowFingerprint) {} true).1
  /-- So is any answer about a file that stays as it is during the call. -/
  uncached : (∀ s, configured = some s → ∃ image, history.Steady s.inpxPath answer.looks image) →
    answer.state = (resolveInpxSourceState sha history answer.looks configured
      (answer.call.storedFingerprint answer.rowFingerprint) {} answer.call.forced).1

/-- What holds of the application between calls. -/
structure SourceService.Sound (sha : Sha256) (history : SourceHistory)
    (configured : Option InpxSourceInfo) (service : SourceService) : Prop where
  source : service.source = configured
  cache : service.cache.Recalls sha history service.now
  answers : ∀ answer ∈ service.answers, answer.Honest sha history configured

theorem SourceService.Sound.step (htime : Timestamped history)
    {configured : Option InpxSourceInfo} {service service' : SourceService} {action : SourceAction}
    (h : service.Sound sha history configured) (horder : action.looks.InOrder service.now)
    (hs : service.step sha history action = some service') :
    service'.Sound sha history configured := by
  obtain ⟨rfl, hcache, hanswers⟩ := h
  rw [SourceService.step] at hs
  cases hs
  have hresolved : resolveInpxSourceState sha history action.looks service.source
      (action.call.storedFingerprint action.rowFingerprint) service.cache action.call.forced =
      (_, _) := rfl
  obtain ⟨htells, hrecalls⟩ := tells_resolveInpxSourceState htime horder hcache hresolved
  refine ⟨rfl, hrecalls, fun answer hanswer => ?_⟩
  rcases List.mem_append.mp hanswer with hold | hnew
  · exact hanswers answer hold
  · rw [List.mem_singleton.mp hnew]
    refine ⟨htells, fun hforced => ?_, fun hsteady => ?_⟩
    · dsimp only at hforced ⊢
      rw [hforced]
      exact resolveInpxSourceState_fst_congr fun s _ => refreshSourceFingerprint_forced
    · refine resolveInpxSourceState_fst_congr fun s hs => ?_
      obtain ⟨image, hsteady⟩ := hsteady s hs
      have hempty : SourceFingerprintCache.Recalls sha history service.now {} :=
        fun h => (by cases h)
      obtain ⟨_, hr⟩ := refreshSourceFingerprint_of_steady htime horder hcache hsteady
        action.call.forced
      obtain ⟨_, hr'⟩ := refreshSourceFingerprint_of_steady htime horder hempty hsteady
        action.call.forced
      rw [hr, hr']
      rfl

/-- Whatever becomes of the INPX file and whenever the calls look at it: an answer speaks of the
file as it was during its call, and where the file stood still it is the answer that reading the
whole file would have given. -/
theorem sourceState_fresh (htime : Timestamped history) {configured : Option InpxSourceInfo}
    {actions : List SourceAction} {service : SourceService}
    (hrun : Runs.run (SourceService.step sha history) { source := configured } actions =
      some service)
    (horder : Runs.EachStep (SourceService.step sha history)
      (fun service action => action.looks.InOrder service.now) { source := configured } actions) :
    (∀ answer ∈ service.answers, answer.Honest sha history configured) ∧
    (∀ answer ∈ service.answers, ∀ s fingerprint,
      startInpxScan configured answer.state = .ok (s, fingerprint) → ∃ image,
        history.file s.inpxPath answer.looks.time = some image ∧
        fingerprint = sha.computeBytes image.contents) ∧
    ∀ answer ∈ service.answers, requireDownload answer.state = .ok () → ∃ s image,
      configured = some s ∧ history.file s.inpxPath answer.looks.time = some image ∧
      answer.call.storedFingerprint answer.rowFingerprint = sha.computeBytes image.contents := by
  have hsound : service.Sound sha history configured := by
    refine horder.run_invariant (I := SourceService.Sound sha history configured)
      (fun _ _ _ h hgood hstep => h.step htime hgood hstep) hrun ?_
    exact ⟨rfl, fun h => (by cases h), fun _ h => (by cases h)⟩
  refine ⟨hsound.answers, fun answer hanswer s fingerprint hstart => ?_,
    fun answer hanswer hok => ?_⟩
  · have htells := (hsound.answers answer hanswer).tells
    rw [startInpxScan.eq_def] at hstart
    split at hstart
    · next s' hfingerprint =>
      cases hstart
      obtain ⟨s, image, hs, himage, heq⟩ := htells.fresh _ hfingerprint
      cases hs
      exact ⟨image, himage, heq⟩
    · cases hstart
  · have htells := (hsound.answers answer hanswer).tells
    rw [requireDownload] at hok
    split at hok
    · next hdownload =>
      obtain ⟨s, image, hs, himage, heq⟩ := htells.fresh _ (htells.download.mp hdownload)
      exact ⟨s, image, hs, himage, heq⟩
    · cases hok

end Fresh

/-! ### A sample -/

/-- The digests of the two files of the sample. -/
def fileDigest : Sha256 where
  digest bytes :=
    if bytes = [1, 2] then
      [161, 40, 113, 254, 226, 16, 251, 134, 25, 41, 30, 174, 161, 148, 88, 28, 189, 37, 49, 228,
       178, 55, 89, 210, 37, 246, 128, 105, 35, 246, 50, 34]
    else
      [8, 79, 237, 8, 185, 120, 175, 77, 125, 25, 106, 116, 70, 168, 107, 88, 0, 158, 99, 107, 97,
       29, 177, 98, 17, 182, 90, 154, 173, 255, 41, 197]
  length_digest bytes := by split <;> rfl

/-- A file that is replaced at the moment 10. -/
def sampleHistory : SourceHistory where
  file _ moment := some (if moment < 10 then ⟨[1, 2], 5⟩ else ⟨[3], 6⟩)
  directory _ _ := true

def looksFrom (moment : Nat) : Looks :=
  ⟨moment, moment, moment, moment, moment, [moment], moment, moment⟩

def sampleSource : InpxSourceInfo := ⟨ascii "/books.inpx", ascii "/books"⟩

/-- The state of the first file, again from the cache, and of the second file. -/
def sampleCalls : List SourceAction :=
  [⟨.getCatalogSessionInfo, looksFrom 1, fileDigest.computeBytes [1, 2]⟩,
    ⟨.listBooks (fileDigest.computeBytes [1, 2]), looksFrom 7, []⟩,
    ⟨.prepareDownload, looksFrom 12, fileDigest.computeBytes [1, 2]⟩]

theorem timestamped_sampleHistory : Timestamped sampleHistory := by
  intro path t u a b htu ha hb htime v htv hvu
  rw [← ha]
  simp only [sampleHistory, Option.some_inj] at ha hb ⊢
  subst ha
  subst hb
  split at htime <;> split at htime <;> split <;>
    first | rfl | omega | exact absurd htime (by decide)

theorem sampleCalls_inOrder : Runs.EachStep (SourceService.step fileDigest sampleHistory)
    (fun service action => action.looks.InOrder service.now) { source := some sampleSource }
    sampleCalls := by
  have hlooks : ∀ now moment, now ≤ moment → (looksFrom moment).InOrder now := by
    intro now moment h
    refine ⟨h, le_rfl, le_rfl, le_rfl, le_rfl, fun m hm => ?_, le_rfl, le_rfl⟩
    rw [List.mem_singleton.mp hm]
    exact ⟨le_rfl, le_rfl⟩
  refine .cons (hlooks _ 1 (by decide)) fun _ h => ?_
  cases h
  refine .cons (hlooks _ 7 (by decide)) fun _ h => ?_
  cases h
  exact .cons (hlooks _ 12 (by decide)) fun _ _ => .nil

theorem sampleCalls_fresh : ∃ service,
    Runs.run (SourceService.step fileDigest sampleHistory) { source := some sampleSource }
      sampleCalls = some service ∧
    service.answers.map (fun answer => answer.state.canDownload) = [true, true, false] ∧
    ∀ answer ∈ service.answers, answer.Honest fileDigest sampleHistory (some sampleSource) := by
  have hanswers : (Runs.run (SourceService.step fileDigest sampleHistory)
      { source := some sampleSource } sampleCalls).map (fun service =>
        service.answers.map fun answer => answer.state.canDownload) =
      some [true, true, false] := by decide +kernel
  obtain ⟨service, hrun, hdownloads⟩ := Option.map_eq_some_iff.mp hanswers
  exact ⟨service, hrun, hdownloads,
    (sourceState_fresh timestamped_sampleHistory hrun sampleCalls_inOrder).1⟩

end InpxWebReader.App
