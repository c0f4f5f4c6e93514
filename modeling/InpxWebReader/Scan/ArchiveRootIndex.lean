import InpxWebReader.Database.SearchIndex
import InpxWebReader.Scan.Progress
import InpxWebReader.Storage.CacheLayout

/-!
# Resolving an archive name

`CInpxArchiveRootIndex`: an archive is looked up directly beneath the archive root, and otherwise
in a snapshot of the directories below it that is built once. The lookup passes checkpoints on the
way, and has handlers of its own that swallow what the file system throws; none of them stands
around a checkpoint.
-/

namespace InpxWebReader.Scan

open Foundation Storage Program
open Database (byteOrder)

/-- An entry that the walk below a child of the root visits. -/
structure WalkedEntry where
  isDirectory : Bool := false
  /-- the path below the child, `lexically_relative(...).lexically_normal()` -/
  key : Bytes := []
  deriving DecidableEq

structure RootEntry where
  name : Bytes
  isDirectory : Bool := true
  deriving DecidableEq

/-- What the file system answers about the archive root. -/
structure ArchiveRoot where
  canonical : Except Failure Unit := .ok ()
  /-- `TryResolveCandidate`, as a path relative to the root -/
  resolveCandidate : Bytes → Except Failure (Option Bytes)
  entries : List RootEntry := []
  /-- the number of comparisons that sorting the children takes -/
  sortComparisons : Nat := 0
  walk : Bytes → List WalkedEntry := fun _ => []

/-- The snapshot of the directories below the root. -/
structure RootIndex where
  filesystemEntriesVisited : Nat := 0
  fallbackSnapshotBuilt : Bool := false
  fallbackCandidates : List (Bytes × Bytes) := []

structure ArchiveLookup where
  progress : Progress := {}
  rootIndex : RootIndex := {}

abbrev LookupM := EStateM Exception ArchiveLookup

def ArchiveLookup.onProgress {α : Type} (c : ProgressM α) : LookupM α :=
  zoom ArchiveLookup.progress (fun p s => { s with progress := p }) c

def ofFileSystem {α σ : Type} (answer : Except Failure α) : EStateM Exception σ α :=
  Program.ofExcept (answer.mapError .failed)

/-- `path::extension` of a path. -/
def pathExtension (path : Bytes) : Bytes :=
  (stemAndExtension ((splitPath path).getLast?.getD [])).2

def hasZipArchiveExtension (path : Bytes) : Bool :=
  toLowerAscii (pathExtension path) = ascii ".zip"

def buildZipArchiveFileRelativePath (relativePath : Bytes) : Bytes :=
  if hasZipArchiveExtension relativePath then relativePath else relativePath ++ ascii ".zip"

def notifyEntryVisited (maxFilesystemEntries : Nat) : LookupM Unit := do
  let s ← get
  if s.rootIndex.filesystemEntriesVisited = maxFilesystemEntries then
    throw (.failed (.standard (ascii ("INPX archive fallback lookup exceeds the configured " ++
      "filesystem entry limit of ") ++ decimal maxFilesystemEntries ++ ascii ".")))
  else
    set { s with rootIndex := { s.rootIndex with
      filesystemEntriesVisited := s.rootIndex.filesystemEntriesVisited + 1 } }

/-- `IndexFallbackEntry`: the first child that has an archive of a name keeps it. -/
def indexFallbackEntry (root : ArchiveRoot) (child key : Bytes) (index : RootIndex) : RootIndex :=
  let candidate := lexicallyNormal (joinPath [child, key])
  if isSafeRelativePath key ∧ hasZipArchiveExtension key ∧
      index.fallbackCandidates.lookup key = none then
    match root.resolveCandidate candidate with
    | .ok (some _) =>
      { index with fallbackCandidates := index.fallbackCandidates ++ [(key, candidate)] }
    | _ => index
  else index

def indexFallbackChild (stop : StopRequest) (root : ArchiveRoot) (maxFilesystemEntries : Nat)
    (child : Bytes) : LookupM Unit := do
  match root.resolveCandidate child with
  | .ok (some _) =>
    (root.walk child).forM fun entry => do
      ArchiveLookup.onProgress (throwIfCancelled stop .archiveResolution)
      notifyEntryVisited maxFilesystemEntries
      if entry.isDirectory then pure ()
      else modify fun s => { s with rootIndex := indexFallbackEntry root child entry.key s.rootIndex }
  | _ => pure ()

/-- The children of the root that the snapshot walks: its directories, where the path can be
resolved. -/
def isFallbackChild (root : ArchiveRoot) (entry : RootEntry) : Bool :=
  entry.isDirectory && (match root.resolveCandidate entry.name with
    | .ok (some _) => true
    | _ => false)

def ensureFallbackSnapshot (stop : StopRequest) (root : ArchiveRoot)
    (maxFilesystemEntries : Nat) : LookupM Unit := do
  if (← get).rootIndex.fallbackSnapshotBuilt then pure ()
  else
    root.entries.forM fun _ => do
      ArchiveLookup.onProgress (throwIfCancelled stop .archiveResolution)
      notifyEntryVisited maxFilesystemEntries
    let childDirectories := (root.entries.filter (isFallbackChild root)).map RootEntry.name
    ArchiveLookup.onProgress (runCheckpoints stop .archiveResolution
      ((root.sortComparisons + 1023) / 1024 + 1))
    (childDirectories.insertionSort byteOrder).forM fun child => do
      ArchiveLookup.onProgress (throwIfCancelled stop .archiveResolution)
      indexFallbackChild stop root maxFilesystemEntries child
    modify fun s => { s with rootIndex := { s.rootIndex with fallbackSnapshotBuilt := true } }

/-- The candidate that the snapshot has for an archive, where it can still be resolved. -/
def fallbackPath (root : ArchiveRoot) (archiveRelativePath : Bytes) (index : RootIndex) :
    Option Bytes :=
  match (index.fallbackCandidates.lookup archiveRelativePath).map root.resolveCandidate with
  | some (.ok resolved) => resolved
  | _ => none

/-- `TryResolveExistingZipArchivePath`. The error of the direct candidate is kept for the end. -/
def tryResolveExistingZipArchivePath (stop : StopRequest) (root : ArchiveRoot)
    (maxFilesystemEntries : Nat) (archiveName : Bytes) : LookupM (Option Bytes) := do
  ArchiveLookup.onProgress (throwIfCancelled stop .archiveResolution)
  let relativePath := lexicallyNormal archiveName
  if ¬isSafeRelativePath relativePath then
    throw (.failed (runtimeError "INPX archive path is unsafe."))
  else
    let archiveRelativePath := buildZipArchiveFileRelativePath relativePath
    match root.resolveCandidate archiveRelativePath with
    | .ok (some directPath) => return some directPath
    | directCandidate =>
      ensureFallbackSnapshot stop root maxFilesystemEntries
      match fallbackPath root archiveRelativePath (← get).rootIndex with
      | some resolved => return some resolved
      | none => ofFileSystem directCandidate

/-- `ResolvePortableInpxArchivePath`: the path of an archive relative to the root. -/
def resolvePortableInpxArchivePath (stop : StopRequest) (root : ArchiveRoot)
    (maxFilesystemEntries : Nat) (archiveName : Bytes) : LookupM Bytes := do
  let resolved ← tryResolveExistingZipArchivePath stop root maxFilesystemEntries archiveName
  let relativePath := resolved.getD
    (lexicallyNormal (buildZipArchiveFileRelativePath (lexicallyNormal archiveName)))
  if isSafeRelativePath relativePath then return relativePath
  else throw (.failed (runtimeError "Resolved INPX archive path is outside the archive root."))

end InpxWebReader.Scan
