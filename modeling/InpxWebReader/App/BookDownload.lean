import InpxWebReader.App.ArchiveAccess
import InpxWebReader.App.Workspace
import InpxWebReader.Query.Search
import InpxWebReader.Storage.ArchiveWalk

/-!
# Preparing a download

`PrepareDownload` extracts the entry of a book from its archive and moves it, converted or not, to
the destination of the request. It compares the INPX file and the archive with what the scan
persisted of them before it starts, before and after it extracts, before it publishes, and once more
when the file is at its destination.

The INPX file and the archives are the sources of the host, which the environment may change before
any operation. An archive that was opened keeps the directory it was opened with; what its entries
then give is up to the environment.
-/

namespace InpxWebReader.App

open Foundation Storage Program Database Query Scan Sorting LexicalPath

/-! ### What a download reads -/

/-- The INPX file, opened: what the reads give one after another, and whether the last of them finds
the end. -/
structure SourceStream where
  chunks : List Bytes
  endsWell : Bool := true

/-- An archive, opened: the state of its file and its directory, or why there is none. -/
structure ArchiveFile where
  state : Except Failure ArchiveFileState
  archive : Except Failure ZipArchive

/-- The INPX file, the tree of files with the archives, and the archives by their location. -/
structure DownloadSources where
  inpx : Option SourceStream
  tree : FileTree Bytes
  archives : List Bytes → Option ArchiveFile

inductive ConversionStatus
  | failed
  | succeeded
  | cancelled
  | timedOut
  deriving DecidableEq, Repr

structure ConversionResult where
  status : ConversionStatus := .failed
  outputPath : Bytes := []
  warnings : List Bytes := []

/-- What the environment decides about a download. -/
structure DownloadEnv extends WorkspaceEnv DownloadSources where
  /-- `stop_requested` -/
  stopRequested : Nat → Bool := fun _ => false
  /-- `weakly_canonical` of a path of the host -/
  canonical : Nat → Bytes → Except Failure Bytes := fun _ path => .ok path
  /-- the comparisons that sorting the entries of an archive takes -/
  sortComparisons : ZipArchive → Nat := fun _ => 0
  /-- what opening an entry gives -/
  openEntry : Nat → DirectoryEntry → Option ZipStream := fun _ entry => entry.stream
  /-- `IBookConverter::Convert` from a source to a destination, and the files it leaves -/
  convert : Nat → Bytes → Bytes → (Bytes → Option Bytes) →
    Except Failure ConversionResult × (Bytes → Option Bytes)

abbrev DownloadM := HostM DownloadSources

/-! ### The snapshot -/

structure InpxDownloadSource where
  entryName : Bytes
  availability : Domain.Availability
  format : BookFormat
  resolvedArchivePath : Bytes
  entrySizeBytes : Nat
  archiveFileState : ArchiveFileState
  archiveManifestFingerprint : Bytes
  sourceFingerprint : Bytes

structure BookDownloadSnapshot where
  title : Bytes
  authors : List Bytes
  source : InpxDownloadSource

structure BookDownloadSource where
  inpxPath : Bytes
  archiveRoot : Bytes

structure BookDownloadRequest where
  bookId : Int
  destinationPath : Bytes
  requestedFormat : Option BookFormat := none

structure PreparedBookDownload where
  path : Bytes
  title : Bytes
  authors : List Bytes
  format : BookFormat

structure BookDownloadFacade where
  cacheRoot : Bytes
  source : Option BookDownloadSource
  /-- there is a converter, and it converts FB2 to EPUB -/
  canConvert : Bool := false
  runtimeWorkspaceRoot : Bytes
  maxArchiveManifestMemoryBytes : Nat

/-- `ToString(EBookFormat)`. -/
def formatText : BookFormat → Bytes
  | .epub => ascii "epub"
  | .fb2 => ascii "fb2"

/-- A `CDomainException` of kind `IntegrityIssue`. -/
def integrityIssue (text : String) : Thrown := .domain .integrityIssue (ascii text)

/-- A column of an unsigned size, as a signed number. -/
def isNegativeColumn (value : Nat) : Bool := 2 ^ 63 ≤ value

/-- The authors of a book, in the order of the statement. -/
def downloadAuthors (db : Database) (bookId : Nat) : List Bytes :=
  (orderBy (compareLex (compareOn fun r => r.1.order) (compareOn fun r => r.2.id))
    (joinedEntities db .authors bookId)).map fun r => r.2.displayName

/-- The locator of a book, from the rows of its location, its segment and the source. -/
def downloadSourceOf (location : LocationRow) (segment : Option SegmentRow)
    (source : Option SourceRow) : Except Thrown InpxDownloadSource :=
  match tryParseBookFormat location.format with
  | none => .error (integrityIssue "INPX book locator contains an unsupported format.")
  | some format =>
    match segment.bind SegmentRow.resolvedArchivePath,
        segment.bind SegmentRow.archiveManifestFingerprint, segment, source with
    | some resolvedArchivePath, some archiveManifestFingerprint, some segment, some source =>
      if isNegativeColumn location.fileSizeBytes ∨ isNegativeColumn segment.archiveFileSizeBytes then
        .error (integrityIssue "INPX book locator is missing its persisted source guards.")
      else .ok {
        entryName := location.entryName
        availability := location.availability
        format := format
        resolvedArchivePath := resolvedArchivePath
        entrySizeBytes := location.fileSizeBytes
        archiveFileState := ⟨segment.archiveFileSizeBytes, segment.archiveMtimeTicks⟩
        archiveManifestFingerprint := archiveManifestFingerprint
        sourceFingerprint := source.sourceFingerprint }
    | _, _, _, _ => .error (integrityIssue "INPX book locator is missing its persisted source guards.")

/-- `LoadDownloadSnapshot`, from a database in one state. -/
def loadDownloadSnapshot (db : Database) (bookId : Nat) :
    Except Thrown (Option BookDownloadSnapshot) :=
  match db.books.find? bookId with
  | none => .ok none
  | some book =>
    match db.locations.find? bookId with
    | none => .error (integrityIssue "Book does not have an INPX source locator.")
    | some location => do
      let source ← downloadSourceOf location (db.segments.find? location.segmentId) db.source
      return some { title := book.title, authors := downloadAuthors db bookId, source := source }

/-! ### Checkpoints and mismatches -/

section Checks

variable {α : Type} (env : DownloadEnv)

/-- The exception of a download that was stopped. -/
def downloadCancelled : Thrown := .domain .cancellation (ascii "Download preparation was cancelled.")

def throwIfCancelled : DownloadM Unit := do
  let n := (← get).trace.length
  require (env.stopRequested n = false) downloadCancelled

/-- The exceptions of a reading with checkpoints: the checkpoints throw that of a stopped download. -/
def thrownOf : Exception → Thrown
  | .cancelled => downloadCancelled
  | .failed failure => .failed failure

/-- A checkpoint while something is read. Time passes between two of them. -/
def passCheckpoint (operation : Operation) : EStateM Exception (Host DownloadSources) Unit := fun h =>
  let h' := { h with
    sources := env.drift h.trace.length h.sources
    trace := (operation, false) :: h.trace }
  if env.stopRequested h.trace.length then .error .cancelled h' else .ok () h'

def throwSourceSnapshotMismatch (detail : Bytes) : DownloadM α :=
  throw (.domain .integrityIssue
    (ascii "The INPX source no longer matches the scanned download snapshot: " ++ detail))

/-- The handlers of both validations: a `std::exception` that is no `CDomainException` is a
mismatch. -/
def asSnapshotMismatch (c : DownloadM α) : DownloadM α :=
  tryCatch c fun e => match e with
    | .domain code message => throw (.domain code message)
    | .failed (.standard text) => throwSourceSnapshotMismatch text
    | .failed .nonStandard => throw (.failed .nonStandard)
    | .restore message _ _ => throwSourceSnapshotMismatch message

def requireSnapshot (p : Prop) [Decidable p] (detail : String) : DownloadM Unit :=
  if p then return else throwSourceSnapshotMismatch (ascii detail)

/-- `CSha256Fingerprint::ComputeFile`, of the INPX file. -/
def computeSourceFingerprint (sha : Sha256) (inpxPath : Bytes) : DownloadM Bytes := do
  EStateM.adaptExcept thrownOf (passCheckpoint env .readSource)
  let stream ← perform env.toHostEnv .readSource fun h => match h.sources.inpx with
    | none => .error (.standard (ascii "Could not open file for SHA-256: " ++ quoted inpxPath ++
        ascii "."))
    | some stream => .ok (stream, h)
  EStateM.adaptExcept thrownOf (stream.chunks.forM fun _ => passCheckpoint env .readSource)
  require (stream.endsWell = true)
    (.failed (.standard (ascii "Could not read file for SHA-256: " ++ quoted inpxPath ++ ascii ".")))
  return sha.computeBytes stream.chunks.flatten

def validateInpxSourceFingerprint (sha : Sha256) (source : BookDownloadSource)
    (locator : InpxDownloadSource) : DownloadM Unit :=
  asSnapshotMismatch do
    let fingerprint ← computeSourceFingerprint env sha source.inpxPath
    requireSnapshot (fingerprint = locator.sourceFingerprint)
      "the INPX file changed; rescan is required."

/-! ### Archives -/

/-- A question to the tree of files with the archives. -/
def askTree (operation : Operation) (ask : FileTree Bytes → Except Failure α) : DownloadM α :=
  perform env.toHostEnv operation fun h => (ask h.sources.tree).map fun a => (a, h)

/-- The message of an archive root that cannot be canonicalized, for a failure of the system too. -/
def archiveRootMessage : Bytes := ascii "INPX archive root could not be canonicalized."

def unsafeArchivePath : Bytes := ascii "Persisted INPX archive path is unsafe."

/-- `CanonicalizeExistingPath`, of a path of the archive root. -/
def canonicalizeArchivePath (path : NamePath Bytes) : DownloadM (List Bytes) :=
  describeFailure (fun _ => archiveRootMessage)
    (askTree env (.canonicalize (joinPath path.names)) fun tree =>
      canonicalizeExistingPath tree path archiveRootMessage)

/-- `is_regular_file`, the form that reports no error. -/
def isRegularArchive (location : List Bytes) : DownloadM Bool :=
  tryCatch (askTree env (.isDirectory (joinPath location)) fun tree =>
    .ok (match tree.node location with
      | some .file => true
      | _ => false)) fun _ => return false

def resolvePersistedInpxArchivePath (archiveRoot relativeArchivePath : Bytes) :
    DownloadM (List Bytes) := do
  let relativePath := (CacheRoot.parsePath relativeArchivePath).normal
  require (CacheRoot.isSafeRelativePath relativePath = true) (.failed (.standard unsafeArchivePath))
  let canonicalRoot ← canonicalizeArchivePath env (CacheRoot.parsePath archiveRoot)
  let candidatePath ← Program.ofExcept
    ((buildValidatedCandidatePath canonicalRoot relativePath unsafeArchivePath).mapError .failed)
  let canonicalCandidate ← canonicalizeArchivePath env candidatePath
  require (isPathWithinRoot canonicalRoot canonicalCandidate = true)
    (.failed (.standard unsafeArchivePath))
  let there ← askTree env (.exists (joinPath candidatePath.names)) fun tree =>
    Storage.pathExists tree candidatePath
  require (there = true) (.failed (runtimeError "Persisted INPX archive is missing."))
  let regular ← isRegularArchive env canonicalCandidate
  require (regular = true)
    (.failed (runtimeError "Persisted INPX archive path is not a regular file."))
  return canonicalCandidate

/-- `CInpxArchiveReader(archivePath)`, with its `GetFileState`. -/
def openArchive (location : List Bytes) : DownloadM (ArchiveFileState × ZipArchive) :=
  perform env.toHostEnv (.openArchive (joinPath location)) fun h =>
    match h.sources.archives location with
    | none => .error (runtimeError "Failed to open INPX archive safely.")
    | some file => do
      let state ← file.state
      let archive ← file.archive
      return ((state, archive), h)

/-- A name as `zip_name_locate` gets it. -/
def cString (name : Bytes) : Bytes := name.takeWhile fun b => b ≠ 0

def locateEntry (archive : ZipArchive) (entryName : Bytes) :
    Except Exception (DirectoryEntry × ZipStat) :=
  let found := (archive.directory.getD []).findSome? fun entry => entry.stat.bind fun stat =>
    if stat.name = cString entryName then some (entry, stat) else none
  match found with
  | none => .error (.failed (.standard (ascii "INPX archive entry is missing: " ++ entryName)))
  | some (entry, stat) =>
    if stat.size ≤ maxBookPayloadBytes then .ok (entry, stat)
    else .error (payloadTooLarge stat.size)

def readEntrySize (archive : ZipArchive) (entryName : Bytes) : Except Exception Nat :=
  (locateEntry archive entryName).map fun located => located.2.size

def computeManifestFingerprint (sha : Sha256) (maxArchiveManifestMemoryBytes : Nat)
    (archive : ZipArchive) : DownloadM Bytes := do
  let manifest ← EStateM.adaptExcept thrownOf
    (readManifest (passCheckpoint env .readArchive) sha (env.sortComparisons archive) false
      maxArchiveManifestMemoryBytes archive)
  return manifest.fingerprint

def openValidatedArchiveSnapshot (sha : Sha256) (source : BookDownloadSource)
    (locator : InpxDownloadSource) (maxArchiveManifestMemoryBytes : Nat) : DownloadM ZipArchive :=
  asSnapshotMismatch do
    let archivePath ←
      resolvePersistedInpxArchivePath env source.archiveRoot locator.resolvedArchivePath
    let (currentState, archive) ← openArchive env archivePath
    requireSnapshot (currentState = locator.archiveFileState)
      "the selected archive changed; rescan is required."
    let fingerprint ← computeManifestFingerprint env sha maxArchiveManifestMemoryBytes archive
    requireSnapshot (fingerprint = locator.archiveManifestFingerprint)
      "the selected archive manifest changed; rescan is required."
    let size ← Program.ofExcept ((readEntrySize archive locator.entryName).mapError thrownOf)
    requireSnapshot (size = locator.entrySizeBytes)
      "the selected archive entry size changed; rescan is required."
    return archive

def validateDownloadSnapshot (sha : Sha256) (source : BookDownloadSource)
    (locator : InpxDownloadSource) (maxArchiveManifestMemoryBytes : Nat) : DownloadM Unit := do
  validateInpxSourceFingerprint env sha source locator
  let _ ← openValidatedArchiveSnapshot env sha source locator maxArchiveManifestMemoryBytes

/-! ### Extracting -/

def openEntry (entry : DirectoryEntry) : DownloadM ZipStream :=
  perform env.toHostEnv .readArchive fun h => match env.openEntry h.trace.length entry with
    | some stream => .ok (stream, h)
    | none => .error (runtimeError "Failed to open INPX archive entry.")

/-- `std::ofstream` on a path, which empties the file. -/
def createOutput (path : Bytes) : DownloadM Unit :=
  describeFailure (fun _ => ascii "Failed to create extracted INPX payload file.")
    (perform env.toHostEnv (.write path) fun h =>
      if h.directories path = true then .error (runtimeError "Is a directory")
      else .ok ((), { h with files := withFile h.files path (some []) }))

/-- `ofstream::write`. -/
def writeOutput (path bytes : Bytes) : DownloadM Unit :=
  describeFailure (fun _ => ascii "Failed to write extracted INPX payload file.")
    (perform env.toHostEnv (.write path) fun h =>
      .ok ((), { h with files := withFile h.files path (some ((h.files path).getD [] ++ bytes)) }))

/-- `ofstream::close`. -/
def closeOutput (path : Bytes) : DownloadM Unit :=
  describeFailure (fun _ => ascii "Failed to finalize extracted INPX payload file.")
    (perform env.toHostEnv (.write path) fun h => .ok ((), h))

/-- The loop of `Extract`. Every read takes at least one byte, so the size bounds the loop. -/
def extractChunks (path : Bytes) : List (Option Bytes) → Nat → Nat → DownloadM Unit
  | _, _, 0 => return
  | some bytes :: reads, fuel + 1, remainingBytes => do
    throwIfCancelled env
    require (bytes ≠ [] ∧ bytes.length ≤ min zipStreamChunkBytes remainingBytes)
      (.failed (runtimeError "Failed to read INPX archive entry payload."))
    writeOutput env path bytes
    extractChunks path reads fuel (remainingBytes - bytes.length)
  | _, _, _ => do
    throwIfCancelled env
    throw (.failed (runtimeError "Failed to read INPX archive entry payload."))

/-- The part of `Extract` that the cleanup of the prepared file guards. -/
def extractStream (stream : ZipStream) (size : Nat) (preparedPath destinationPath : Bytes) :
    DownloadM Unit := do
  createDirectories env.toHostEnv (parentPath preparedPath)
  createOutput env preparedPath
  extractChunks env preparedPath stream.reads size size
  require (stream.endsAsDeclared = true)
    (.failed (runtimeError "Failed to validate INPX archive entry payload checksum and size."))
  require (stream.closes = true)
    (.failed (runtimeError "Failed to close INPX archive entry after reading."))
  closeOutput env preparedPath
  replaceDestinationWithPreparedFile env.toHostEnv preparedPath destinationPath
    (ascii "ExtractInpxArchiveEntry") (pure ())

def extractEntryToPath (archive : ZipArchive) (entryName destinationPath : Bytes) :
    DownloadM Unit := do
  let (entry, stat) ← Program.ofExcept ((locateEntry archive entryName).mapError thrownOf)
  let stream ← openEntry env entry
  let preparedPath ← buildSiblingTemporaryPath env.toHostEnv destinationPath
  scopedPathCleanup env.toHostEnv preparedPath
    (extractStream env stream stat.size preparedPath destinationPath)

/-! ### Publishing -/

/-- `CanonicalizeForComparison`. A path that ends in a separator has no file name. -/
def canonicalizeForComparison (path : Bytes) : DownloadM (NamePath Bytes) := do
  let base := if fileNameOf path = [] then path
    else if parentPath path = [] then [slash]
    else parentPath path
  let canonicalBase ←
    describeFailure (fun _ => ascii "Download destination path could not be canonicalized.")
      (perform env.toHostEnv (.canonicalize base) fun h =>
        (env.canonical h.trace.length base).map fun canonical => (canonical, h))
  if fileNameOf path = [] then return (CacheRoot.parsePath canonicalBase).normal
  else return (CacheRoot.below (CacheRoot.parsePath canonicalBase) [fileNameOf path]).normal

/-- `IBookConverter::Convert`. -/
def runConverter (sourcePath destinationPath : Bytes) : DownloadM ConversionResult := do
  let answer ← perform env.toHostEnv .convert fun h =>
    let (answer, files) := env.convert h.trace.length sourcePath destinationPath h.files
    .ok (answer, { h with files := files })
  Program.ofExcept (answer.mapError .failed)

/-- The checks of `PrepareConvertedDownload` on the result of a conversion. -/
def requireConverted (result : ConversionResult) (preparedDestinationPath : Bytes) :
    DownloadM Unit := do
  require (result.status ≠ .cancelled)
    (.domain .cancellation (ascii "Download conversion was cancelled."))
  require (result.status ≠ .timedOut)
    (.domain .converterTimeout (ascii "Download conversion timed out."))
  require (result.status = .succeeded)
    (.domain .converterFailed (result.warnings.headD (ascii "Download conversion failed.")))
  let preparedPath := if result.outputPath = [] then preparedDestinationPath else result.outputPath
  require ((CacheRoot.parsePath preparedPath).normal =
      (CacheRoot.parsePath preparedDestinationPath).normal)
    (integrityIssue "Converter returned output outside the prepared download path.")

/-- `PrepareConvertedDownload`. The path of the output is another spelling of the prepared one. -/
def prepareConvertedDownload (facade : BookDownloadFacade) (sourceFormat : BookFormat)
    (sourcePath preparedDestinationPath destinationPath : Bytes)
    (validateSourceSnapshot : DownloadM Unit) : DownloadM Unit := do
  require (sourceFormat = .fb2 ∧ facade.canConvert = true)
    (.domain .converterUnavailable (ascii "Configured FB2 to EPUB converter is unavailable."))
  let result ← runConverter env sourcePath preparedDestinationPath
  requireConverted result preparedDestinationPath
  throwIfCancelled env
  validateSourceSnapshot
  replaceDestinationWithPreparedFile env.toHostEnv preparedDestinationPath destinationPath
    (ascii "PrepareDownload") do
      throwIfCancelled env
      validateSourceSnapshot

/-- The end of `PrepareDownload` for a book in its own format. -/
def prepareOriginalDownload (sourcePath preparedDestinationPath destinationPath : Bytes)
    (validateSourceSnapshot : DownloadM Unit) : DownloadM Unit := do
  moveFileWithCopyFallback env.toHostEnv sourcePath preparedDestinationPath
  throwIfCancelled env
  validateSourceSnapshot
  replaceDestinationWithPreparedFile env.toHostEnv preparedDestinationPath destinationPath
    (ascii "PrepareDownload") do
      throwIfCancelled env
      validateSourceSnapshot

def isConverted (request : BookDownloadRequest) (source : InpxDownloadSource) : Bool :=
  request.requestedFormat ≠ none ∧ request.requestedFormat ≠ some source.format

/-- `PrepareDownload`, from the publication workspace on. -/
def publishDownload (facade : BookDownloadFacade) (request : BookDownloadRequest)
    (source : InpxDownloadSource) (temporarySourcePath : Bytes)
    (validateSourceSnapshot : DownloadM Unit) : DownloadM Unit := do
  let publicationWorkspace ← createUniqueDirectory env.toWorkspaceEnv
    (parentPath request.destinationPath) (ascii ".inpx-web-reader-download-")
  scopedDirectoryCleanup env.toWorkspaceEnv publicationWorkspace do
    let preparedDestinationPath := child publicationWorkspace (fileNameOf request.destinationPath)
    if isConverted request source then
      prepareConvertedDownload env facade source.format temporarySourcePath preparedDestinationPath
        request.destinationPath validateSourceSnapshot
    else
      prepareOriginalDownload env temporarySourcePath preparedDestinationPath
        request.destinationPath validateSourceSnapshot

/-- `PrepareDownload`, in the source workspace. -/
def stageDownload (sha : Sha256) (facade : BookDownloadFacade) (request : BookDownloadRequest)
    (inpxSource : BookDownloadSource) (source : InpxDownloadSource) (sourceWorkspace : Bytes) :
    DownloadM Unit := do
  let temporarySourcePath := child sourceWorkspace (ascii "source." ++ formatText source.format)
  let archive ← openValidatedArchiveSnapshot env sha inpxSource source
    facade.maxArchiveManifestMemoryBytes
  throwIfCancelled env
  extractEntryToPath env archive source.entryName temporarySourcePath
  let stagedSize ← fileSize env.toHostEnv temporarySourcePath
  requireSnapshot (stagedSize = source.entrySizeBytes)
    "the staged archive entry size is inconsistent."
  throwIfCancelled env
  let validateSourceSnapshot := validateDownloadSnapshot env sha inpxSource source
    facade.maxArchiveManifestMemoryBytes
  validateSourceSnapshot
  publishDownload env facade request source temporarySourcePath validateSourceSnapshot

def prepareSnapshotDownload (sha : Sha256) (facade : BookDownloadFacade)
    (request : BookDownloadRequest) (inpxSource : BookDownloadSource)
    (snapshot : BookDownloadSnapshot) : DownloadM PreparedBookDownload := do
  let source := snapshot.source
  require (source.availability = .available)
    (.domain .notFound (ascii "Book is unavailable in the current INPX source."))
  throwIfCancelled env
  validateDownloadSnapshot env sha inpxSource source facade.maxArchiveManifestMemoryBytes
  createDirectories env.toHostEnv (parentPath request.destinationPath)
  let sourceWorkspace ← createUniqueDirectory env.toWorkspaceEnv
    (child facade.runtimeWorkspaceRoot (ascii "Downloads")) (ascii "download-")
  scopedDirectoryCleanup env.toWorkspaceEnv sourceWorkspace
    (stageDownload env sha facade request inpxSource source sourceWorkspace)
  return {
    path := request.destinationPath
    title := snapshot.title
    authors := snapshot.authors
    format := request.requestedFormat.getD source.format }

/-- The checks of `PrepareDownload` on its request. -/
def requireValidRequest (facade : BookDownloadFacade) (request : BookDownloadRequest) :
    DownloadM Unit := do
  require (0 < request.bookId)
    (.failed (runtimeError "Download request must use a valid book id."))
  require (request.destinationPath.head? = some slash)
    (.failed (runtimeError "Download destination path must be absolute."))
  let directory ← isDirectory env.toHostEnv request.destinationPath
  require (directory = false)
    (.failed (runtimeError "Download destination path must point to a file."))
  let canonicalRoot ← canonicalizeForComparison env facade.cacheRoot
  let canonicalDestination ← canonicalizeForComparison env request.destinationPath
  require (isPathWithinRoot canonicalRoot.names canonicalDestination.names = false)
    (.failed (runtimeError "Download destination path must be outside the INPX cache root."))

def prepareDownload (sha : Sha256) (db : Database) (facade : BookDownloadFacade)
    (request : BookDownloadRequest) : DownloadM (Option PreparedBookDownload) := do
  requireValidRequest env facade request
  match facade.source with
  | none => throw (.domain .validation (ascii "INPX source is not configured."))
  | some inpxSource =>
    let loaded ← perform env.toHostEnv .readDatabase fun h =>
      .ok (loadDownloadSnapshot db request.bookId.toNat, h)
    match ← Program.ofExcept loaded with
    | none => return none
    | some snapshot =>
      let download ← prepareSnapshotDownload env sha facade request inpxSource snapshot
      return some download

end Checks

end InpxWebReader.App
