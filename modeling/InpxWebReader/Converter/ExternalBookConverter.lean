import InpxWebReader.Foundation.Text
import InpxWebReader.Library.Disk
import InpxWebReader.Library.Program
import InpxWebReader.Query.Search
import InpxWebReader.Storage.CacheLayout

/-!
# The external book converter

`CExternalBookConverter::Convert` runs a process that writes a book, and publishes what the process
has produced. The process may do anything to the disk; what it produced is told from what was there
by comparing the listings of the output directory before and after the run.

Every call to the operating system but listing and removing may fail. A location is the list of names
of an absolute path in normal form; the calls follow the links on the way of a path, as the process
may have left them.
-/

namespace InpxWebReader.Converter

open Foundation Storage
open Query (BookFormat)

abbrev Location := List Bytes

abbrev ConverterDisk := Disk Bytes Bytes

def pathToUtf8 (location : Location) : Bytes := slash :: joinPath location

/-! ### The command -/

/-- `EConverterOutputMode`. -/
inductive OutputMode
  | exactDestinationPath
  | singleFileInDestinationDirectory
  deriving DecidableEq, Repr

/-- `SConverterCommandProfile`. -/
structure CommandProfile where
  executablePath : Bytes
  argumentTemplate : List Bytes
  outputMode : OutputMode := .exactDestinationPath

/-- `SConverterCommandProfile::IsValid`. -/
def CommandProfile.isValid (profile : CommandProfile) : Bool :=
  profile.executablePath ≠ [] && profile.argumentTemplate ≠ []

/-- `SConversionRequest`. The destination has a file name. -/
structure ConversionRequest where
  sourcePath : Location
  destinationPath : Location
  hasFilename : destinationPath ≠ []
  sourceFormat : BookFormat := .fb2
  destinationFormat : BookFormat := .epub

/-- `SConversionRequest::IsValid`. -/
def ConversionRequest.isValid (request : ConversionRequest) : Bool :=
  request.sourceFormat ≠ request.destinationFormat

/-- `DestinationPath.parent_path()`. -/
def ConversionRequest.destinationDirectory (request : ConversionRequest) : Location :=
  request.destinationPath.dropLast

/-- `SResolvedConverterCommand`. -/
structure ResolvedCommand where
  executablePath : Bytes
  arguments : List Bytes
  outputMode : OutputMode
  expectedOutputPath : Location
  expectedOutputDirectory : Location

def toConverterFormat : BookFormat → Bytes
  | .epub => ascii "epub2"
  | .fb2 => ascii "fb2"

def expandTemplate (replacements : List (Bytes × Bytes)) : Bytes → Bytes
  | [] => []
  | b :: rest =>
    if b ≠ asciiByte '\x7b' then b :: expandTemplate replacements rest
    else match rest.idxOf? (asciiByte '\x7d') with
      | none => b :: expandTemplate replacements rest
      | some placeholderEnd =>
        let placeholder := b :: rest.take (placeholderEnd + 1)
        (replacements.lookup placeholder).getD placeholder ++
          expandTemplate replacements (rest.drop (placeholderEnd + 1))
termination_by text => text.length
decreasing_by
  all_goals simp only [List.length_cons, List.length_drop]
  all_goals omega

/-- `CConverterCommandBuilder::Build`. -/
def buildCommand (profile : CommandProfile) (request : ConversionRequest)
    (outputDirectory : Location) : Except Bytes ResolvedCommand :=
  if ¬profile.isValid then
    .error (ascii "Converter command profile must contain an executable and at least one argument.")
  else if ¬request.isValid then
    .error (ascii "Conversion request must contain valid source and destination paths.")
  else
    let replacements := [
      (ascii "\x7bsource\x7d", pathToUtf8 request.sourcePath),
      (ascii "\x7bdestination\x7d", pathToUtf8 request.destinationPath),
      (ascii "\x7bdestination_dir\x7d", pathToUtf8 outputDirectory),
      (ascii "\x7boutput_format\x7d", toConverterFormat request.destinationFormat)]
    .ok {
      executablePath := profile.executablePath
      arguments := profile.argumentTemplate.map (expandTemplate replacements)
      outputMode := profile.outputMode
      expectedOutputPath := request.destinationPath
      expectedOutputDirectory := outputDirectory }

/-! ### The process and the disk -/

/-- `SExternalConverterExecutableIdentity`. -/
structure ExecutableIdentity where
  canonicalPath : Bytes
  device : Nat := 0
  inode : Nat := 0
  sizeBytes : Nat := 0
  modifiedSeconds : Int := 0
  modifiedNanoseconds : Int := 0
  changedSeconds : Int := 0
  changedNanoseconds : Int := 0
  deriving DecidableEq

/-- `SExternalConverterProcessRequest`. -/
structure ProcessRequest where
  command : ResolvedCommand
  workingDirectory : Location
  expectedExecutableIdentity : Option ExecutableIdentity

/-- `SExternalConverterProcessResult`. -/
structure ProcessResult where
  exitCode : Nat := 0
  wasCancelled : Bool := false
  wasTimedOut : Bool := false
  deriving DecidableEq, Repr

/-- `SExternalConverterSettings`. -/
structure ConverterSettings where
  commandProfile : CommandProfile
  workingDirectory : Option Location := none
  revalidateBuiltInFbcBeforeRun : Bool := false

/-- What a conversion meets, by the number of calls to the operating system so far. -/
structure ConverterEnv where
  /-- the error of a call that fails -/
  fault : Nat → Option Bytes := fun _ => none
  /-- `steady_clock::now` -/
  clock : Nat → Nat := fun n => n
  /-- how many bytes a `read` or a `write` takes, beyond the first -/
  transfer : Nat → Nat := fun _ => 65535
  /-- `ReadExternalConverterExecutableIdentity` -/
  readIdentity : Nat → Bytes → Except Bytes ExecutableIdentity :=
    fun _ path => .ok { canonicalPath := path }
  /-- `ValidateBuiltInConverterExecutable` -/
  validateExecutable : Bytes → ExecutableIdentity → Except Bytes Bool := fun _ _ => .ok true
  /-- `IExternalConverterProcessRunner::Run`: how the process ends, and the disk it leaves -/
  run : ProcessRequest → ConverterDisk → ProcessResult × ConverterDisk

/-- The disk, the counters behind calls and unique names, and what a conversion has come to: the
working directory it made, and the disk that the process was given with the one that it left. -/
structure ConverterState where
  disk : ConverterDisk
  calls : Nat := 0
  sequence : Nat := 0
  work : Option Location := none
  processed : Option (ConverterDisk × ConverterDisk) := none

/-- A conversion, with the text of the exception where one is thrown. -/
abbrev ConverterM := EStateM Bytes ConverterState

section Calls

variable {α : Type} (env : ConverterEnv)

def systemCall (describe : Bytes → Bytes) (act : Nat → ConverterDisk → Except Bytes (α × ConverterDisk)) :
    ConverterM α := fun s =>
  match env.fault s.calls with
  | some message => .error (describe message) { s with calls := s.calls + 1 }
  | none =>
    match act s.calls s.disk with
    | .error message => .error (describe message) { s with calls := s.calls + 1 }
    | .ok (a, disk) => .ok a { s with calls := s.calls + 1, disk := disk }

/-- `mkdir`. -/
def makeDirectory (describe : Bytes → Bytes) (path : Location) : ConverterM Unit :=
  systemCall env describe fun _ disk =>
    if disk.entryAt path ≠ none then .error (ascii "File exists")
    else match disk.putAt path .directory with
      | some disk => .ok ((), disk)
      | none => .error (ascii "No such file or directory")

/-- `EnsureDirectory`: each directory on the way is made where there is none. -/
def ensureDirectory (path : Location) : ConverterM Unit :=
  path.inits.forM fun above => do
    if (← get).disk.statusAt above = some .directory then pure ()
    else makeDirectory env (fun message =>
      ascii "Failed to create directory: " ++ pathToUtf8 path ++ ascii ": " ++ message) above

/-- The next name of `CreateUniqueDirectory`, from the clock and the process-wide counter. -/
def nextUniqueName (parentDirectory : Location) (directoryNamePrefix : Bytes) :
    ConverterM Location := fun s =>
  .ok (parentDirectory ++ [directoryNamePrefix ++ (decimal (env.clock s.calls) ++ ascii "-" ++
    decimal s.sequence)]) { s with sequence := s.sequence + 1 }

/-- The loop of `CreateUniqueDirectory`, over names that are taken. -/
def makeUniqueDirectory (parentDirectory : Location) (directoryNamePrefix : Bytes) :
    Nat → ConverterM Location
  | 0 => throw (ascii "Unique directory creation ran out of names.")
  | tries + 1 => do
    let candidate ← nextUniqueName env parentDirectory directoryNamePrefix
    if (← get).disk.entryAt candidate ≠ none then
      makeUniqueDirectory parentDirectory directoryNamePrefix tries
    else do
      makeDirectory env (fun message => ascii "Failed to create unique directory: " ++
        pathToUtf8 candidate ++ ascii ": " ++ message) candidate
      return candidate

/-- `CreateUniqueDirectory`. No two tries make the same name, so that one of them is free. -/
def createUniqueDirectory (parentDirectory : Location) (directoryNamePrefix : Bytes) :
    ConverterM Location := do
  ensureDirectory env parentDirectory
  let tries := (← get).disk.entries.length + 1
  makeUniqueDirectory env parentDirectory directoryNamePrefix tries

/-- `CScopedDirectoryCleanup`, for a path or none. -/
def scopedDirectoryCleanup (path : Option Location) (c : ConverterM α) : ConverterM α := fun s =>
  let cleaned (s : ConverterState) : ConverterState :=
    { s with disk := (path.map s.disk.removeAt).getD s.disk }
  match c s with
  | .ok a s => .ok a (cleaned s)
  | .error e s => .error e (cleaned s)

/-! ### Moving the output -/

/-- `OpenRegularFileNoFollow`, with the bytes of the file. -/
def openRegularFileNoFollow (path : Location) : ConverterM Bytes := do
  let entry ← systemCall env (fun message =>
      ascii "Failed to open generated converter output: " ++ message) fun _ disk =>
    match disk.entryAt path with
    | none => .error (ascii "No such file or directory")
    | some (.link _) => .error (ascii "Too many levels of symbolic links")
    | some entry => .ok (entry, disk)
  systemCall env (fun message =>
    ascii "Failed to inspect generated converter output: " ++ message) fun _ disk => .ok ((), disk)
  match entry with
  | .file content => return content
  | _ => throw (ascii "Generated converter output is not a regular file.")

def isGeneratedOutputRegularFile (path : Location) : ConverterM Bool :=
  tryCatch (do
    let _ ← openRegularFileNoFollow env path
    return true) fun _ => return false

/-- `write` of some of the bytes, at least one, to the end of the open file at a location. -/
def writeSome (path : Location) (data : Bytes) : ConverterM Nat :=
  systemCall env (fun message => ascii "Failed to write generated converter output: " ++ message)
    fun calls disk =>
      let written := min (env.transfer calls + 1) data.length
      match disk.lookup path with
      | some (.file content) =>
        match disk.put path (.file (content ++ data.take written)) with
        | some disk => .ok (written, disk)
        | none => .error (ascii "No such file or directory")
      | _ => .error (ascii "Bad file descriptor")

/-- `WriteAll`. Each round writes at least one byte. -/
def writeAll (path : Location) : Nat → Bytes → ConverterM Unit
  | 0, _ => pure ()
  | rounds + 1, data =>
    if data = [] then pure ()
    else do
      let written ← writeSome env path data
      writeAll path rounds (data.drop written)

/-- `read` of some of the bytes that are left, none at the end only. -/
def readSome (left : Bytes) : ConverterM Bytes :=
  systemCall env (fun message => ascii "Failed to read generated converter output: " ++ message)
    fun calls disk => .ok (left.take (min (env.transfer calls + 1) 65536), disk)

/-- The loop of `CopyValidatedOutputToPath`, with the number of bytes copied. -/
def copyBytes (path : Location) : Nat → Bytes → Nat → ConverterM Nat
  | 0, _, copiedBytes => return copiedBytes
  | rounds + 1, left, copiedBytes => do
    let bytes ← readSome env left
    if bytes = [] then return copiedBytes
    else do
      writeAll env path bytes.length bytes
      copyBytes path rounds (left.drop bytes.length) (copiedBytes + bytes.length)

/-- A call that changes nothing on the disk. -/
def checkCall (describe : Bytes → Bytes) : ConverterM Unit :=
  systemCall env describe fun _ disk => .ok ((), disk)

/-- `open` of a new file, with the location of the file that is opened. -/
def createFile (path : Location) : ConverterM Location :=
  systemCall env (fun message => ascii "Failed to create validated converter output: " ++ message)
    fun _ disk =>
      match disk.place path with
      | none => .error (ascii "No such file or directory")
      | some location =>
        if disk.lookup location ≠ none then .error (ascii "File exists")
        else match disk.put location (.file []) with
          | some disk => .ok (location, disk)
          | none => .error (ascii "No such file or directory")

/-- `std::filesystem::rename` of a file. -/
def renameFile (source destination : Location) : ConverterM Unit :=
  systemCall env (fun message => ascii "Failed to publish validated converter output: " ++ message)
    fun _ disk =>
      match disk.entryAt source with
      | some (.file content) =>
        match (disk.removeAt source).putAt destination (.file content) with
        | some disk => .ok ((), disk)
        | none => .error (ascii "Is a directory")
      | _ => .error (ascii "No such file or directory")

def copyValidatedOutputToPath (sourcePath destinationPath : Location) : ConverterM Unit := do
  let content ← openRegularFileNoFollow env sourcePath
  checkCall env fun message => ascii "Failed to inspect generated converter output: " ++ message
  ensureDirectory env destinationPath.dropLast
  let validationDirectory ← createUniqueDirectory env destinationPath.dropLast
    (ascii ".inpx-web-reader-converter-output-")
  scopedDirectoryCleanup (some validationDirectory) do
    let validatedOutputPath := validationDirectory ++ [ascii "validated-output"]
    let validatedOutput ← createFile env validatedOutputPath
    let copiedBytes ← copyBytes env validatedOutput (content.length + 1) content 0
    checkCall env fun message => ascii "Failed to revalidate generated converter output: " ++ message
    -- the content may have changed, in the times or the length that `fstat` reports
    checkCall env fun _ => ascii "Generated converter output changed while it was being copied."
    Program.require (copiedBytes = content.length)
      (ascii "Generated converter output changed while it was being copied.")
    checkCall env fun message => ascii "Failed to finalize generated converter output: " ++ message
    checkCall env fun message => ascii "Failed to close generated converter output: " ++ message
    renameFile env validatedOutputPath destinationPath

def moveGeneratedOutputFile (sourcePath destinationPath : Location) : ConverterM Unit :=
  copyValidatedOutputToPath env sourcePath destinationPath

def sealGeneratedOutputFile (path : Location) : ConverterM Unit :=
  copyValidatedOutputToPath env path path

/-! ### Telling the output from what was there -/

/-- The entries of a directory, by `exists` and `directory_iterator`; none where nothing is. -/
def snapshotDirectoryEntries (directoryPath : Location) : ConverterM (List Location) := do
  let disk := (← get).disk
  match disk.follow directoryPath with
  | .error .notFound => return []
  | .error .tooManyLinks => throw (ascii "filesystem error: status")
  | .ok location =>
    if disk.lookup location = some .directory then
      return (disk.listing location).map fun name => directoryPath ++ [name]
    else throw (ascii "filesystem error: directory iterator cannot open directory")

/-- `path::extension`. -/
def extension (path : Location) : Bytes := (stemAndExtension (path.getLast?.getD [])).2

/-- An entry that was not there before, of the expected name or with the expected extension. -/
def isEligible (beforeSnapshot : List Location) (expectedOutputPath path : Location) : Bool :=
  path ∉ beforeSnapshot ∧ (path = expectedOutputPath ∨ extension path = extension expectedOutputPath)

structure ProducedOutputResolution where
  path : Option Location := none
  unsafeCandidate : Bool := false

/-- The loop of `ResolveSingleProducedFile` over the entries of the directory. -/
def resolveAmong (beforeSnapshot : List Location) (expectedOutputPath : Location) :
    List Location → List Location → ConverterM ProducedOutputResolution
  | [], [path] => return { path := some path }
  | [], _ => return {}
  | path :: paths, eligibleOutputs =>
    if ¬isEligible beforeSnapshot expectedOutputPath path then
      resolveAmong beforeSnapshot expectedOutputPath paths eligibleOutputs
    else do
      let isRegular ← isGeneratedOutputRegularFile env path
      if ¬isRegular then return { unsafeCandidate := true }
      else resolveAmong beforeSnapshot expectedOutputPath paths (eligibleOutputs ++ [path])

def resolveSingleProducedFile (directoryPath : Location) (beforeSnapshot : List Location)
    (expectedOutputPath : Location) : ConverterM ProducedOutputResolution := do
  let paths ← snapshotDirectoryEntries directoryPath
  resolveAmong env beforeSnapshot expectedOutputPath paths []

/-- The disk after `CleanupProducedEntries`. -/
def cleanupProducedEntries (directoryPath : Location) (beforeSnapshot : List Location)
    (preservedPath : Option Location) (disk : ConverterDisk) : ConverterDisk :=
  let currentPaths := (disk.listingAt directoryPath).map fun name => directoryPath ++ [name]
  let pathsToRemove := currentPaths.filter fun path =>
    path ∉ beforeSnapshot ∧ some path ≠ preservedPath
  pathsToRemove.foldl Disk.removeAt disk

/-- `std::filesystem::remove`: a directory with entries stays. -/
def removeEntry (path : Location) (disk : ConverterDisk) : ConverterDisk :=
  match disk.place path with
  | none => disk
  | some location =>
    if disk.lookup location = some .directory ∧ disk.listing location ≠ [] then disk
    else disk.removeAll location

/-- A step that changes the disk and cannot fail. -/
def changeDisk (change : ConverterDisk → ConverterDisk) : ConverterM Unit :=
  modify fun s => { s with disk := change s.disk }

/-! ### The conversion -/

inductive ConversionStatus
  | failed
  | succeeded
  | cancelled
  | timedOut
  deriving DecidableEq, Repr

structure ConversionResult where
  status : ConversionStatus := .failed
  outputPath : Option Location := none
  warnings : List Bytes := []

def buildCancelledResult : ConversionResult where
  status := .cancelled
  warnings := [ascii "Conversion cancelled."]

def buildFailedResult (warning : Bytes) : ConversionResult where
  status := .failed
  warnings := [warning]

def buildTimedOutResult : ConversionResult where
  status := .timedOut
  warnings := [ascii "Conversion timed out."]

/-- `CExternalBookConverter::CanConvert`. -/
def canConvert (sourceFormat destinationFormat : BookFormat) : Bool :=
  sourceFormat = .fb2 && destinationFormat = .epub

/-- The output directory of the command: its own below the working directory where a single file is
staged, and otherwise the directory of the destination. -/
def commandOutputDirectory (settings : ConverterSettings) (request : ConversionRequest)
    (workingDirectory : Option Location) : Location :=
  match settings.commandProfile.outputMode, workingDirectory with
  | .singleFileInDestinationDirectory, some directory => directory ++ [ascii "generated-output"]
  | _, _ => request.destinationDirectory

/-- The revalidation of the executable: its identity, or the warning of a failed result. -/
def revalidateExecutable (settings : ConverterSettings) (calls : Nat) :
    Except Bytes (Option ExecutableIdentity) :=
  if ¬settings.revalidateBuiltInFbcBeforeRun then .ok none
  else
    let answer : Except Bytes (Bool × ExecutableIdentity) := do
      let identityBefore ← env.readIdentity calls settings.commandProfile.executablePath
      let isValid ← env.validateExecutable identityBefore.canonicalPath identityBefore
      let identityAfter ← env.readIdentity (calls + 1) identityBefore.canonicalPath
      return (isValid && identityBefore = identityAfter, identityAfter)
    match answer with
    | .error text => .error
        (ascii "Configured converter could not be revalidated before execution: " ++ text)
    | .ok (false, _) => .error
        (ascii "Configured converter changed or failed validation before execution.")
    | .ok (true, identityAfter) => .ok (some identityAfter)

/-- The process runs, and leaves a disk. -/
def runProcess (request : ProcessRequest) : ConverterM ProcessResult := fun s =>
  let (result, disk) := env.run request s.disk
  .ok result { s with disk := disk, processed := some (s.disk, disk) }

/-- The text of an exception of a step, or none. -/
def attempt (c : ConverterM Unit) : ConverterM (Option Bytes) :=
  tryCatch (do
    c
    return none) fun text => return some text

/-- A result without success, after everything that was produced is removed. -/
def cleanUpAndReturn (command : ResolvedCommand) (outputSnapshot : List Location)
    (result : ConversionResult) : ConverterM ConversionResult := do
  changeDisk (cleanupProducedEntries command.expectedOutputDirectory outputSnapshot none)
  return result

/-- A success, after everything else that was produced is removed. -/
def succeed (command : ResolvedCommand) (outputSnapshot : List Location) :
    ConverterM ConversionResult := do
  changeDisk (cleanupProducedEntries command.expectedOutputDirectory outputSnapshot
    (some command.expectedOutputPath))
  return { status := .succeeded, outputPath := some command.expectedOutputPath }

/-- The move of the only produced file to the expected path. -/
def moveOrSeal (path expectedOutputPath : Location) : ConverterM Unit :=
  if path ≠ expectedOutputPath then do
    ensureDirectory env expectedOutputPath.dropLast
    moveGeneratedOutputFile env path expectedOutputPath
  else sealGeneratedOutputFile env expectedOutputPath

/-- What `Convert` does once the process has ended with exit code 0. -/
def publishOutput (command : ResolvedCommand) (outputSnapshot : List Location) :
    ConverterM ConversionResult :=
  match command.outputMode with
  | .singleFileInDestinationDirectory => do
    let producedOutput ← resolveSingleProducedFile env command.expectedOutputDirectory
      outputSnapshot command.expectedOutputPath
    match producedOutput.path with
    | none => cleanUpAndReturn command outputSnapshot (buildFailedResult
        (if producedOutput.unsafeCandidate then
          ascii "Converter process produced a symlink or non-regular EPUB output."
        else ascii "Converter process did not produce one unambiguous EPUB output."))
    | some path => do
      match ← attempt (moveOrSeal env path command.expectedOutputPath) with
      | some text => cleanUpAndReturn command outputSnapshot (buildFailedResult
          (ascii "Converter output could not be validated for publication: " ++ text))
      | none => succeed command outputSnapshot
  | .exactDestinationPath => do
    match ← attempt (sealGeneratedOutputFile env command.expectedOutputPath) with
    | some _ => cleanUpAndReturn command outputSnapshot (buildFailedResult
        (ascii ("Converter process completed, but the expected output is missing, a symlink, " ++
          "or not a regular file.")))
    | none => succeed command outputSnapshot

/-- What `Convert` does once the process has ended. -/
def concludeProcess (command : ResolvedCommand) (outputSnapshot : List Location)
    (processResult : ProcessResult) : ConverterM ConversionResult :=
  if processResult.wasCancelled then cleanUpAndReturn command outputSnapshot buildCancelledResult
  else if processResult.wasTimedOut then
    cleanUpAndReturn command outputSnapshot buildTimedOutResult
  else if processResult.exitCode ≠ 0 then
    cleanUpAndReturn command outputSnapshot (buildFailedResult
      (ascii "Converter process exited with code " ++ decimal processResult.exitCode ++ ascii "."))
  else publishOutput env command outputSnapshot

/-- The command that `Convert` runs. -/
def resolveCommand (settings : ConverterSettings) (request : ConversionRequest)
    (outputDirectory : Location) (executableIdentity : Option ExecutableIdentity) :
    Except Bytes ResolvedCommand := do
  let command ← buildCommand settings.commandProfile request outputDirectory
  return executableIdentity.elim command fun identity =>
    { command with executablePath := identity.canonicalPath }

/-- The part of `Convert` that the cleanup of the working directory encloses. -/
def convertIn (settings : ConverterSettings) (request : ConversionRequest)
    (workingDirectory : Option Location) : ConverterM ConversionResult := do
  match revalidateExecutable env settings (← get).calls with
  | .error warning => return buildFailedResult warning
  | .ok executableIdentity => do
    let processWorkingDirectory := workingDirectory.getD request.destinationDirectory
    let command ← Program.ofExcept (resolveCommand settings request
      (commandOutputDirectory settings request workingDirectory) executableIdentity)
    ensureDirectory env command.expectedOutputDirectory
    changeDisk (removeEntry command.expectedOutputPath)
    let outputSnapshot ← snapshotDirectoryEntries command.expectedOutputDirectory
    ensureDirectory env processWorkingDirectory
    let processResult ← runProcess env {
      command := command
      workingDirectory := processWorkingDirectory
      expectedExecutableIdentity := executableIdentity }
    concludeProcess env command outputSnapshot processResult

/-- The working directory of a conversion, where one is configured. -/
def makeWorkingDirectory (settings : ConverterSettings) : ConverterM (Option Location) :=
  match settings.workingDirectory with
  | none => return none
  | some directory => do
    let path ← createUniqueDirectory env directory (ascii "conversion-")
    modify fun s => { s with work := some path }
    return some path

/-- `CExternalBookConverter::Convert`. -/
def convert (settings : ConverterSettings) (request : ConversionRequest) :
    ConverterM ConversionResult :=
  if ¬canConvert request.sourceFormat request.destinationFormat then
    return buildFailedResult (ascii "Requested conversion direction is not supported.")
  else do
    let workingDirectory ← makeWorkingDirectory env settings
    scopedDirectoryCleanup workingDirectory (convertIn env settings request workingDirectory)

end Calls

end InpxWebReader.Converter
