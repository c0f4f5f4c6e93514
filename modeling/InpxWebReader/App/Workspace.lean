import InpxWebReader.App.FileReplacement
import Mathlib.Data.List.Infix

/-!
# Workspaces

A download works in directories of its own: `CreateUniqueDirectory` makes them under names that no
directory has, and `CScopedDirectoryCleanup` removes them with what is in them.

What such a directory holds is below it (`Below`). A path whose directories were there before is not
(`createUniqueDirectory_triple`), so that the cleanup leaves it alone (`removeAll_files`).
-/

namespace InpxWebReader.App

open Foundation Storage Program

/-! ### Paths -/

/-- `path::parent_path`; the root directory is the empty text here. -/
def parentPath (path : Bytes) : Bytes := (splitFileName path).1.dropLast

/-- `path::filename`. -/
def fileNameOf (path : Bytes) : Bytes := (splitFileName path).2

/-- `directory / name`. -/
def child (directory name : Bytes) : Bytes := directory ++ slash :: name

/-- The path is that of something in the directory, at any depth. -/
def Below (directory path : Bytes) : Prop := directory ++ [slash] <+: path

instance (directory path : Bytes) : Decidable (Below directory path) :=
  inferInstanceAs (Decidable (_ <+: _))

/-- The directories on the way to a directory, and the directory itself, the root first. -/
def ancestors (directory : Bytes) : List Bytes :=
  (child directory []).inits.filter fun above => Below above (child directory [])

/-! ### Names -/

section Names

variable {directory name path other : Bytes}

theorem splitFileName_child (hname : slash ∉ name) :
    splitFileName (child directory name) = (directory ++ [slash], name) := by
  have hreverse : (child directory name).reverse = name.reverse ++ slash :: directory.reverse := by
    rw [child, List.reverse_append, List.reverse_cons, List.append_assoc, List.singleton_append]
  have htail : ((child directory name).reverse.takeWhile fun b => decide (b ≠ slash)) =
      name.reverse := by
    rw [hreverse, List.takeWhile_append_of_pos fun b hb => ?_]
    · rw [List.takeWhile_cons, if_neg (by simp), List.append_nil]
    · rw [decide_eq_true_eq]
      rintro rfl
      exact hname (List.mem_reverse.mp hb)
  have hhead : (child directory name).take ((child directory name).length - name.length) =
      directory ++ [slash] := by
    have hsplit : child directory name = (directory ++ [slash]) ++ name := by
      rw [child, List.append_assoc, List.singleton_append]
    rw [hsplit, List.length_append, Nat.add_sub_cancel, List.take_left]
  rw [splitFileName]
  simp only [htail, List.reverse_reverse, hhead]

theorem parentPath_child (hname : slash ∉ name) : parentPath (child directory name) = directory := by
  rw [parentPath, splitFileName_child hname, List.dropLast_concat]

theorem fileNameOf_child (hname : slash ∉ name) : fileNameOf (child directory name) = name := by
  rw [fileNameOf, splitFileName_child hname]

/-- An absolute path is that of a name in a directory. -/
theorem child_parentPath (habsolute : path.head? = some slash) :
    path = child (parentPath path) (fileNameOf path) ∧ slash ∉ fileNameOf path := by
  have hmem : slash ∈ path.reverse := List.mem_reverse.mpr (List.mem_of_mem_head? habsolute)
  obtain ⟨before, after, hsplit, hbefore⟩ := List.eq_append_cons_of_mem hmem
  have hpath : path = child after.reverse before.reverse := by
    rw [← List.reverse_reverse path, hsplit, child, List.reverse_append, List.reverse_cons,
      List.append_assoc, List.singleton_append]
  have hname : slash ∉ before.reverse := fun h => hbefore (List.mem_reverse.mp h)
  rw [hpath, parentPath_child hname, fileNameOf_child hname]
  exact ⟨rfl, hname⟩

theorem below_child (directory name : Bytes) : Below directory (child directory name) :=
  ⟨name, by rw [child, List.append_assoc, List.singleton_append]⟩

/-- What a path is below does not depend on its file name. -/
theorem below_child_iff (hname : slash ∉ name) :
    Below other (child directory name) ↔ Below other (child directory []) := by
  have hsplit : ∀ name, child directory name = (directory ++ [slash]) ++ name := by
    intro name
    rw [child, List.append_assoc, List.singleton_append]
  constructor
  · rintro ⟨rest, hrest⟩
    rw [hsplit, List.append_eq_append_iff] at hrest
    rw [hsplit, List.append_nil]
    rcases hrest with ⟨middle, hmiddle, -⟩ | ⟨middle, hmiddle, hend⟩
    · exact ⟨middle, hmiddle.symm⟩
    · rcases List.eq_nil_or_concat' middle with rfl | ⟨init, last, rfl⟩
      · rw [List.append_nil] at hmiddle
        exact ⟨[], by rw [hmiddle, List.append_nil]⟩
      · -- the separator after `other` would be one of the name
        rw [← List.append_assoc] at hmiddle
        obtain rfl : slash = last := (List.append_inj' hmiddle rfl).2 |> List.singleton_inj.mp
        exact absurd (by rw [hend]; simp) hname
  · rintro ⟨rest, hrest⟩
    refine ⟨rest ++ name, ?_⟩
    rw [← List.append_assoc, hrest, hsplit, hsplit, List.append_nil]

theorem mem_ancestors {above : Bytes} :
    above ∈ ancestors directory ↔ Below above (child directory []) := by
  rw [ancestors, List.mem_filter, List.mem_inits, decide_eq_true_eq]
  exact ⟨And.right, fun h => ⟨(List.prefix_append _ _).trans h, h⟩⟩

theorem not_below_child_child : ¬Below (child directory name) (child directory []) := by
  intro h
  have hle := h.length_le
  simp only [child, List.length_append, List.length_cons, List.length_nil] at hle
  omega

/-- The file name of `BuildSiblingTemporaryPath`. -/
def siblingName (fileName : Bytes) (clockValue sequence : Nat) : Bytes :=
  (stemAndExtension fileName).1 ++ ascii ".inpx-web-reader-tmp-" ++ decimal clockValue ++
    ascii "-" ++ decimal sequence ++ (stemAndExtension fileName).2

theorem siblingTemporaryPath_child (hname : slash ∉ name) (clockValue sequence : Nat) :
    siblingTemporaryPath (child directory name) clockValue sequence =
      child directory (siblingName name clockValue sequence) := by
  rw [siblingTemporaryPath, splitFileName_child hname]
  dsimp only
  rw [child, siblingName, List.append_assoc, List.singleton_append]

theorem slash_notMem_decimal (n : Nat) : slash ∉ decimal n := by
  intro h
  have hlow := (mem_decimal_bounds h).1
  have hslash : slash.toNat = 47 := rfl
  omega

theorem slash_notMem_siblingName (hname : slash ∉ name) (clockValue sequence : Nat) :
    slash ∉ siblingName name clockValue sequence := by
  have hstem : slash ∉ (stemAndExtension name).1 := by
    rw [stemAndExtension]
    split
    · exact hname
    · exact fun h => hname (List.mem_of_mem_take h)
  have hextension : slash ∉ (stemAndExtension name).2 := by
    rw [stemAndExtension]
    split
    · exact List.not_mem_nil
    · intro h
      rcases List.mem_cons.mp h with h | h
      · revert h
        decide
      · exact hname (List.mem_reverse.mp
          ((List.takeWhile_sublist _).mem (List.mem_reverse.mp h)))
  have hmark : slash ∉ ascii ".inpx-web-reader-tmp-" := by decide
  have hhyphen : slash ∉ ascii "-" := by decide
  simp only [siblingName, List.mem_append, not_or]
  exact ⟨⟨⟨⟨⟨hstem, hmark⟩, slash_notMem_decimal _⟩, hhyphen⟩, slash_notMem_decimal _⟩, hextension⟩

/-- A sibling name is longer than the name it is made from. -/
theorem length_lt_length_siblingName (name : Bytes) (clockValue sequence : Nat) :
    name.length < (siblingName name clockValue sequence).length := by
  have hparts : name.length ≤
      (stemAndExtension name).1.length + (stemAndExtension name).2.length := by
    rw [stemAndExtension]
    split
    · exact Nat.le_add_right _ _
    · simp only [List.length_take, List.length_cons, List.length_reverse]
      omega
  have hmark : (ascii ".inpx-web-reader-tmp-").length = 21 := rfl
  simp only [siblingName, List.length_append, hmark]
  omega

/-- The file name of the backup of a replacement. -/
def backupName (fileName : Bytes) (clockValue sequence : Nat) : Bytes :=
  siblingName fileName clockValue sequence ++ ascii ".inpx-web-reader-backup"

theorem slash_notMem_backupName (hname : slash ∉ name) (clockValue sequence : Nat) :
    slash ∉ backupName name clockValue sequence := by
  have hmark : slash ∉ ascii ".inpx-web-reader-backup" := by decide
  rw [backupName, List.mem_append, not_or]
  exact ⟨slash_notMem_siblingName hname _ _, hmark⟩

theorem length_lt_length_backupName (name : Bytes) (clockValue sequence : Nat) :
    name.length < (backupName name clockValue sequence).length := by
  have hlt := length_lt_length_siblingName name clockValue sequence
  rw [backupName, List.length_append]
  omega

theorem getLast?_backupName (name : Bytes) (clockValue sequence : Nat) :
    (backupName name clockValue sequence).getLast? = some 112 := by
  have hmark : (ascii ".inpx-web-reader-backup").getLast? = some 112 := by decide
  rw [backupName, List.getLast?_append, hmark, Option.some_or]

theorem child_inj {name' : Bytes} (h : child directory name = child directory name') :
    name = name' :=
  (List.cons.inj (List.append_cancel_left h)).2

/-- A path whose directory is not there has a file of its own. -/
theorem ne_child_of_not_below (hbelow : ¬Below directory path) : path ≠ child directory name := by
  rintro rfl
  exact hbelow (below_child directory name)

theorem backupPathFrom_child {S : Type} (env : HostEnv S) (h : Host S) (hname : slash ∉ name) :
    backupPathFrom env (child directory name) h = [] ∧ h.files (child directory name) = none ∨
      ∃ clockValue sequence, backupPathFrom env (child directory name) h =
        child directory (backupName name clockValue sequence) := by
  rw [backupPathFrom]
  cases hfile : h.files (child directory name) with
  | none => exact .inl ⟨rfl, rfl⟩
  | some content =>
    refine .inr ⟨env.clock (h.trace.length + 1), h.sequence, ?_⟩
    rw [Option.isSome_some, if_pos rfl, siblingTemporaryPath_child hname, child, child, backupName,
      List.append_assoc, List.cons_append]

end Names

/-! ### Directories -/

/-- What the environment decides about workspaces. -/
structure WorkspaceEnv (S : Type) extends HostEnv S where
  /-- the counter behind the names of `CreateUniqueDirectory` -/
  directorySequence : Nat → Nat := fun n => n
  /-- how many names `CreateUniqueDirectory` comes to; the source tries on -/
  directoryTries : Nat := 8
  /-- the files that `remove_all` does not get to -/
  survives : Nat → Bytes → Bool := fun _ _ => false

variable {S α : Type}

/-- `std::filesystem::is_directory`. -/
def isDirectory (env : HostEnv S) (path : Bytes) : HostM S Bool :=
  perform env (.isDirectory path) fun h => .ok (h.directories path, h)

/-- `EEXIST`. -/
def fileExists : Failure := runtimeError "File exists"

/-- `std::filesystem::create_directory`: whether the directory was made. -/
def createDirectory (env : HostEnv S) (path : Bytes) : HostM S Bool :=
  perform env (.createDirectory path) fun h =>
    if h.directories path = true then .ok (false, h)
    else if h.files path ≠ none then .error fileExists
    else if h.directories (parentPath path) = false then
      .error (runtimeError "No such file or directory")
    else .ok (true, { h with directories := fun other => other = path || h.directories other })

/-- A directory is made where there is none. -/
def provideDirectory (env : HostEnv S) (path : Bytes) : HostM S Unit := do
  let there ← isDirectory env path
  if there then return
  else
    let _ ← createDirectory env path

/-- `std::filesystem::create_directories`. -/
def createDirectories (env : HostEnv S) (path : Bytes) : HostM S Unit :=
  (ancestors path).forM (provideDirectory env)

/-- `catch` of whatever is thrown, for an error with another text. -/
def describeFailure (describe : Bytes → Bytes) (c : HostM S α) : HostM S α :=
  tryCatch c fun e => throw (.failed (.standard (describe (e.what?.getD []))))

def ensureDirectory (env : HostEnv S) (path : Bytes) : HostM S Unit :=
  describeFailure (fun message => ascii "Failed to create directory: " ++ path ++ ascii ": " ++ message)
    (createDirectories env path)

/-- The name that `CreateUniqueDirectory` makes from the clock and its counter. -/
def uniqueName (directoryNamePrefix : Bytes) (clockValue sequence : Nat) : Bytes :=
  directoryNamePrefix ++ (decimal clockValue ++ (ascii "-" ++ decimal sequence))

/-- Whether a directory was made, and a name that is taken counts as one that was not. -/
def tryDirectory (env : HostEnv S) (candidate : Bytes) : HostM S Bool :=
  tryCatch (createDirectory env candidate) fun e =>
    if e = .failed fileExists then return false
    else throw (.failed (.standard (ascii "Failed to create unique directory: " ++ candidate ++
      ascii ": " ++ e.what?.getD [])))

/-- The loop of `CreateUniqueDirectory`. -/
def makeUniqueDirectory (env : WorkspaceEnv S) (parentDirectory directoryNamePrefix : Bytes) :
    Nat → HostM S Bytes
  | 0 => throw (.failed (runtimeError "Unique directory creation came to no free name."))
  | tries + 1 => do
    let n := (← get).trace.length
    let candidate :=
      child parentDirectory (uniqueName directoryNamePrefix (env.clock n) (env.directorySequence n))
    if ← tryDirectory env.toHostEnv candidate then return candidate
    else makeUniqueDirectory env parentDirectory directoryNamePrefix tries

def createUniqueDirectory (env : WorkspaceEnv S) (parentDirectory directoryNamePrefix : Bytes) :
    HostM S Bytes := do
  ensureDirectory env.toHostEnv parentDirectory
  makeUniqueDirectory env parentDirectory directoryNamePrefix env.directoryTries

/-- The host after `RemovePathBestEffortNoThrow`. -/
def removeAll (env : WorkspaceEnv S) (path : Bytes) (h : Host S) : Host S :=
  let goes (other : Bytes) : Bool :=
    (other = path || Below path other) && !env.survives h.trace.length other
  { h with
    files := fun other => if goes other then none else h.files other
    directories := fun other => h.directories other && !goes other
    sources := env.drift h.trace.length h.sources
    trace := (.remove path, false) :: h.trace }

def scopedDirectoryCleanup (env : WorkspaceEnv S) (path : Bytes) (c : HostM S α) : HostM S α :=
  fun h => match c h with
    | .ok a h' => .ok a (removeAll env path h')
    | .error e h' => .error e (removeAll env path h')

/-! ### Files -/

/-- `CScopedPathCleanup`, around code that dismisses it at its end. -/
def scopedPathCleanup (env : HostEnv S) (path : Bytes) (c : HostM S α) : HostM S α :=
  tryCatch c fun e => do
    let _ ← attempt (removePath env path)
    throw e

/-- `std::filesystem::file_size`. -/
def fileSize (env : HostEnv S) (path : Bytes) : HostM S Nat :=
  perform env (.fileSize path) fun h => match h.files path with
    | some content => .ok (content.length, h)
    | none => .error (runtimeError "No such file or directory")

/-- `std::filesystem::copy_file`. -/
def copyFile (env : HostEnv S) (source destination : Bytes) : HostM S Unit :=
  perform env (.copy source destination) fun h => match h.files source with
    | some content => .ok ((), { h with files := withFile h.files destination (some content) })
    | none => .error (runtimeError "No such file or directory")

/-- The text of the exception of `MoveFileWithCopyFallback`. -/
def moveFailureText (sourcePath destinationPath : Bytes) (renameError copyError : Thrown) : Bytes :=
  ascii "Failed to move file from " ++ sourcePath ++ ascii " to " ++ destinationPath ++
    ascii ": rename failed (" ++ renameError.what?.getD [] ++
    ascii "), copy fallback also failed (" ++ copyError.what?.getD [] ++ ascii ")"

/-- The part of `MoveFileWithCopyFallback` after a rename that failed. -/
def copyInstead (env : HostEnv S) (sourcePath destinationPath : Bytes) (renameError : Thrown) :
    HostM S Unit := do
  ensureDirectory env (parentPath destinationPath)
  match ← attempt (copyFile env sourcePath destinationPath) with
  | some copyError =>
    throw (.failed (.standard (moveFailureText sourcePath destinationPath renameError copyError)))
  | none =>
    -- a source that cannot be removed is logged, and stays
    let _ ← attempt (removePath env sourcePath)

def moveFileWithCopyFallback (env : HostEnv S) (sourcePath destinationPath : Bytes) :
    HostM S Unit := do
  match ← attempt (renamePath env sourcePath destinationPath) with
  | none => return
  | some renameError => copyInstead env sourcePath destinationPath renameError

/-! ### What changes no file -/

/-- The sources after so many operations of a run from `s`. -/
def HostEnv.sourcesAfter (env : HostEnv S) (s : Host S) : Nat → S
  | 0 => s.sources
  | n + 1 => env.drift (s.trace.length + n) (env.sourcesAfter s n)

/-- A run from `s` may have come to the host. -/
def Later (env : HostEnv S) (s h : Host S) : Prop :=
  ∃ operations, h.trace = operations ++ s.trace ∧ h.sources = env.sourcesAfter s operations.length

/-- A run from `s` has come to the host, and the files are these, and the directories are there. -/
structure Settled (env : HostEnv S) (s : Host S) (files : Bytes → Option Bytes)
    (directories : Bytes → Prop) (h : Host S) : Prop where
  files : h.files = files
  directories : ∀ path, directories path → h.directories path = true
  later : Later env s h

section Settled

variable {env : HostEnv S} {s : Host S} {files : Bytes → Option Bytes} {directories : Bytes → Prop}

theorem Settled.mono {fewer : Bytes → Prop} {h : Host S}
    (hs : Settled env s files directories h) (hsub : ∀ path, fewer path → directories path) :
    Settled env s files fewer h :=
  ⟨hs.files, fun path hpath => hs.directories path (hsub path hpath), hs.later⟩

theorem Later.step {h h' : Host S} {operation : Operation × Bool} (hlater : Later env s h)
    (hsources : h'.sources = env.drift h.trace.length h.sources)
    (htrace : h'.trace = operation :: h.trace) : Later env s h' := by
  obtain ⟨operations, ht, hs⟩ := hlater
  refine ⟨operation :: operations, by rw [htrace, ht, List.cons_append], ?_⟩
  rw [hsources, hs, ht, List.length_append, List.length_cons, HostEnv.sourcesAfter, Nat.add_comm]

theorem perform_settled {operation : Operation} {act : Host S → Except Failure (α × Host S)}
    {R : α → Prop} {D : α → Bytes → Prop}
    (hact : ∀ h a h', h.files = files → (∀ path, directories path → h.directories path = true) →
      (∃ n, h.sources = env.sourcesAfter s n) → act h = .ok (a, h') →
      h'.files = files ∧ h'.sources = h.sources ∧ R a ∧
        ∀ path, D a path → h'.directories path = true) :
    Triple (Settled env s files directories) (perform env operation act)
      (fun a h => R a ∧ Settled env s files (D a) h)
      fun _ => Settled env s files directories := by
  intro h hs
  have hlater : ∀ failed : Bool, Later env s
      { h with sources := env.drift h.trace.length h.sources
               trace := (operation, failed) :: h.trace } :=
    fun failed => hs.later.step rfl rfl
  rw [perform]
  dsimp only
  cases env.fault h.trace.length with
  | some failure => exact ⟨hs.files, hs.directories, hlater true⟩
  | none =>
    cases hrun : act { h with sources := env.drift h.trace.length h.sources } with
    | error failure => exact ⟨hs.files, hs.directories, hlater true⟩
    | ok r =>
      obtain ⟨operations, -, hsources⟩ := hlater false
      obtain ⟨hfiles, hsame, hr, hdirectories⟩ :=
        hact { h with sources := env.drift h.trace.length h.sources } r.1 r.2 hs.files
          hs.directories ⟨_, hsources⟩ hrun
      exact ⟨hr, hfiles, hdirectories, hs.later.step hsame rfl⟩

theorem isDirectory_settled (path : Bytes) :
    Triple (Settled env s files directories) (isDirectory env path)
      (fun there => Settled env s files fun other => directories other ∨ there = true ∧ other = path)
      fun _ => Settled env s files directories := by
  refine (perform_settled (R := fun _ => True) (D := fun there other =>
    directories other ∨ there = true ∧ other = path) fun h there h' hfiles hdirectories _ hact =>
      ?_).post fun _ _ hs => hs.2
  injection hact with hact
  injection hact with hthere hh
  subst hthere hh
  refine ⟨hfiles, rfl, trivial, fun other hother => ?_⟩
  rcases hother with hother | ⟨hthere, rfl⟩
  · exact hdirectories other hother
  · exact hthere

/-- A directory that is made was none of those that are there. -/
theorem createDirectory_settled (path : Bytes) :
    Triple (Settled env s files directories) (createDirectory env path)
      (fun made h => (made = true → ¬directories path) ∧
        Settled env s files (fun other => directories other ∨ other = path) h)
      fun _ => Settled env s files directories := by
  refine perform_settled (D := fun _ other => directories other ∨ other = path)
    fun h made h' hfiles hdirectories _ hact => ?_
  split at hact
  · next hthere =>
    injection hact with hact
    injection hact with hmade hh
    subst hmade hh
    refine ⟨hfiles, rfl, fun hmade => (by cases hmade), fun other hother => ?_⟩
    rcases hother with hother | rfl
    · exact hdirectories other hother
    · exact hthere
  · next hthere =>
    split at hact
    · cases hact
    · split at hact
      · cases hact
      · injection hact with hact
        injection hact with hmade hh
        subst hmade hh
        refine ⟨hfiles, rfl, fun _ hpath => hthere (hdirectories path hpath), fun other hother => ?_⟩
        rcases hother with hother | rfl
        · simp [hdirectories other hother]
        · simp

theorem provideDirectory_settled (path : Bytes) :
    Triple (Settled env s files directories) (provideDirectory env path)
      (fun _ => Settled env s files fun other => directories other ∨ other = path)
      fun _ => Settled env s files directories := by
  rw [provideDirectory]
  refine (isDirectory_settled path).bind fun there => ?_
  cases there with
  | true => exact .pure fun h hs => hs.mono fun other hother => hother.imp_right fun ho => ⟨rfl, ho⟩
  | false =>
    refine Triple.bind (((createDirectory_settled path).conseq
      (fun h hs => hs.mono fun other hother => .inl hother) (fun _ h hs => hs.2) fun _ h hs => hs))
      fun _ => .pure fun h hs => hs

/-- The directories on the way to a directory that was created are there. -/
theorem createDirectories_settled (path : Bytes) :
    Triple (Settled env s files directories) (createDirectories env path)
      (fun _ => Settled env s files fun other => directories other ∨ other ∈ ancestors path)
      fun _ => Settled env s files directories := by
  rw [createDirectories]
  refine (Triple.forM (fun done => Settled env s files fun other => directories other ∨ other ∈ done)
    fun done above rest _ => ?_).pre fun h hs => hs.mono fun other hother => ?_
  · refine (provideDirectory_settled above).conseq (fun _ hs => hs) (fun _ h hs => hs.mono ?_)
      fun _ h hs => hs.mono fun other hother => .inl hother
    intro other hother
    rw [List.mem_append, List.mem_singleton, ← or_assoc] at hother
    exact hother
  · exact hother.resolve_right List.not_mem_nil

theorem describeFailure_triple {P : Host S → Prop} {Q : α → Host S → Prop} {E : Host S → Prop}
    {describe : Bytes → Bytes} {c : HostM S α} (h : Triple P c Q fun _ => E) :
    Triple P (describeFailure describe c) Q fun _ => E :=
  .tryCatch h fun _ => .throw fun _ he => he

theorem ensureDirectory_settled (path : Bytes) :
    Triple (Settled env s files directories) (ensureDirectory env path)
      (fun _ => Settled env s files directories) fun _ => Settled env s files directories :=
  describeFailure_triple ((createDirectories_settled path).post fun _ _ hs =>
    hs.mono fun _ hother => .inl hother)

theorem tryDirectory_settled (candidate : Bytes) :
    Triple (Settled env s files directories) (tryDirectory env candidate)
      (fun made h => (made = true → ¬directories candidate) ∧ Settled env s files directories h)
      fun _ => Settled env s files directories := by
  refine .tryCatch ((createDirectory_settled candidate).post fun _ _ hs =>
    ⟨hs.1, hs.2.mono fun _ hother => .inl hother⟩) fun e => ?_
  exact .ite (fun _ => .pure fun _ hs => ⟨fun hmade => (by cases hmade), hs⟩)
    fun _ => .throw fun _ hs => hs

end Settled

theorem slash_notMem_uniqueName {directoryNamePrefix : Bytes} (hnoSlash : slash ∉ directoryNamePrefix)
    (clockValue sequence : Nat) : slash ∉ uniqueName directoryNamePrefix clockValue sequence := by
  have hhyphen : slash ∉ ascii "-" := by decide
  simp only [uniqueName, List.mem_append, not_or]
  exact ⟨hnoSlash, slash_notMem_decimal _, hhyphen, slash_notMem_decimal _⟩

/-- A unique name ends in a digit, and so is no backup. -/
theorem uniqueName_ne_backupName (directoryNamePrefix name : Bytes) (c q c' q' : Nat) :
    uniqueName directoryNamePrefix c q ≠ backupName name c' q' := by
  intro h
  have hlast := congrArg List.getLast? h
  rw [getLast?_backupName, uniqueName, List.getLast?_append, List.getLast?_append,
    List.getLast?_append] at hlast
  cases hdigit : (decimal q).getLast? with
  | none => exact decimal_ne_nil q (List.getLast?_eq_none_iff.mp hdigit)
  | some b =>
    rw [hdigit, Option.some_or, Option.some_or, Option.some_or] at hlast
    injection hlast with hlast
    subst hlast
    have hhigh := (mem_decimal_bounds (List.mem_of_getLast? hdigit)).2
    revert hhigh
    decide

section Unique

variable {env : WorkspaceEnv S} {s : Host S} {files : Bytes → Option Bytes}
variable {directories : Bytes → Prop}

/-- A unique directory has a name of its own, and was none of those that are there. -/
theorem makeUniqueDirectory_settled (parentDirectory directoryNamePrefix : Bytes) (tries : Nat) :
    Triple (Settled env.toHostEnv s files directories)
      (makeUniqueDirectory env parentDirectory directoryNamePrefix tries)
      (fun made h => (¬directories made ∧ ∃ clockValue sequence, made =
          child parentDirectory (uniqueName directoryNamePrefix clockValue sequence)) ∧
        Settled env.toHostEnv s files directories h)
      fun _ => Settled env.toHostEnv s files directories := by
  induction tries with
  | zero => exact .throw fun _ hs => hs
  | succ tries ih =>
    rw [makeUniqueDirectory]
    refine Triple.bind (M := fun _ => Settled env.toHostEnv s files directories)
      (.get fun _ hs => hs) fun t => ?_
    refine (tryDirectory_settled _).bind fun made => ?_
    refine .ite (fun hmade => .pure fun h hs => ⟨⟨hs.1 hmade, _, _, rfl⟩, hs.2⟩) fun _ => ?_
    exact ih.pre fun _ hs => hs.2

theorem createUniqueDirectory_settled (parentDirectory directoryNamePrefix : Bytes) :
    Triple (Settled env.toHostEnv s files directories)
      (createUniqueDirectory env parentDirectory directoryNamePrefix)
      (fun made h => (¬directories made ∧ ∃ clockValue sequence, made =
          child parentDirectory (uniqueName directoryNamePrefix clockValue sequence)) ∧
        Settled env.toHostEnv s files directories h)
      fun _ => Settled env.toHostEnv s files directories :=
  (ensureDirectory_settled parentDirectory).bind fun _ => makeUniqueDirectory_settled _ _ _

/-- The cleanup leaves alone what is neither the directory nor below it. -/
theorem removeAll_files {path other : Bytes} {h : Host S} (hne : other ≠ path)
    (hbelow : ¬Below path other) : (removeAll env path h).files other = h.files other := by
  simp [removeAll, hne, hbelow]

theorem scopedDirectoryCleanup_triple {path : Bytes} {c : HostM S α} {P : Host S → Prop}
    {Q R : α → Host S → Prop} {E F : Thrown → Host S → Prop} (hc : Triple P c Q E)
    (hQ : ∀ a h, Q a h → R a (removeAll env path h))
    (hE : ∀ e h, E e h → F e (removeAll env path h)) :
    Triple P (scopedDirectoryCleanup env path c) R F := by
  intro h hp
  have hrun := hc h hp
  simp only [scopedDirectoryCleanup]
  cases hr : c h with
  | ok a h' =>
    rw [hr] at hrun
    exact hQ a h' hrun
  | error e h' =>
    rw [hr] at hrun
    exact hE e h' hrun

end Unique

/-! ### Programs that change no file -/

/-- The program changes no file and removes no directory. -/
def Gentle {ε : Type} (env : HostEnv S) (c : EStateM ε (Host S) α) : Prop :=
  ∀ s files directories, Triple (Settled env s files directories) c
    (fun _ => Settled env s files directories) fun _ => Settled env s files directories

section Gentle

variable {ε : Type} {env : HostEnv S} {β : Type}

theorem Gentle.pure {a : α} : Gentle env (Pure.pure a : EStateM ε (Host S) α) :=
  fun _ _ _ => .pure fun _ hs => hs

theorem Gentle.throw {e : ε} : Gentle env (MonadExcept.throw e : EStateM ε (Host S) α) :=
  fun _ _ _ => .throw fun _ hs => hs

theorem Gentle.get : Gentle env (MonadState.get : EStateM ε (Host S) (Host S)) :=
  fun _ _ _ => .get fun _ hs => hs

theorem Gentle.bind {c : EStateM ε (Host S) β} {f : β → EStateM ε (Host S) α} (hc : Gentle env c)
    (hf : ∀ b, Gentle env (f b)) : Gentle env (c >>= f) :=
  fun s files directories => (hc s files directories).bind fun b => hf b s files directories

theorem Gentle.tryCatch {c : EStateM ε (Host S) α} {handler : ε → EStateM ε (Host S) α}
    (hc : Gentle env c) (hh : ∀ e, Gentle env (handler e)) :
    Gentle env (MonadExcept.tryCatch c handler) :=
  fun s files directories => .tryCatch (hc s files directories) fun e => hh e s files directories

theorem Gentle.ite {p : Prop} [Decidable p] {c d : EStateM ε (Host S) α} (hc : Gentle env c)
    (hd : Gentle env d) : Gentle env (if p then c else d) :=
  fun s files directories => .ite (fun _ => hc s files directories) fun _ => hd s files directories

theorem Gentle.require {p : Prop} [Decidable p] {e : ε} :
    Gentle env (Program.require p e : EStateM ε (Host S) Unit) :=
  .ite .pure .throw

theorem Gentle.ofExcept {x : Except ε α} : Gentle env (Program.ofExcept x : EStateM ε (Host S) α) := by
  cases x with
  | ok a => exact .pure
  | error e => exact .throw

theorem Gentle.forM {xs : List β} {f : β → EStateM ε (Host S) PUnit}
    (hf : ∀ x, Gentle env (f x)) : Gentle env (xs.forM f) :=
  fun s files directories => .forM_inv fun x _ => hf x s files directories

theorem Gentle.adaptExcept {ε' : Type} {c : EStateM ε' (Host S) α} {f : ε' → ε}
    (hc : Gentle env c) : Gentle env (EStateM.adaptExcept f c) :=
  fun s files directories => .adaptExcept (hc s files directories)

theorem Gentle.perform {operation : Operation} {act : Host S → Except Failure (α × Host S)}
    (hact : ∀ h a h', act h = .ok (a, h') → h' = h) : Gentle env (App.perform env operation act) := by
  intro s files directories
  refine (perform_settled (R := fun _ => True) (D := fun _ => directories)
    fun h a h' hfiles hdirectories _ hrun => ?_).post fun _ _ hs => hs.2
  obtain rfl := hact h a h' hrun
  exact ⟨hfiles, rfl, trivial, hdirectories⟩

theorem Gentle.files {c : EStateM ε (Host S) α} (hc : Gentle env c)
    (P : (Bytes → Option Bytes) → Prop) :
    Triple (fun h => P h.files) c (fun _ h => P h.files) fun _ h => P h.files := by
  refine .of_state fun s hp => ?_
  refine (hc s s.files fun _ => False).conseq ?_ (fun _ h hs => hs.files ▸ hp) fun _ h hs =>
    hs.files ▸ hp
  rintro h rfl
  exact ⟨rfl, fun _ hpath => hpath.elim, [], rfl, rfl⟩

theorem Gentle.inspects {c : HostM S Unit} (hc : Gentle env c) : Inspects c := by
  intro files trace
  refine .of_state fun s hs => ?_
  have hat : ∀ h, Settled env s files (fun _ => False) h → ∃ l, At files (l ++ trace) h := by
    rintro h ⟨hfiles, -, operations, htrace, -⟩
    exact ⟨operations, hfiles, by rw [htrace, hs.2]⟩
  refine (hc s files fun _ => False).conseq ?_ (fun _ h => hat h) fun _ h => hat h
  rintro h rfl
  exact ⟨hs.1, fun _ hpath => hpath.elim, [], rfl, rfl⟩

end Gentle

end InpxWebReader.App
