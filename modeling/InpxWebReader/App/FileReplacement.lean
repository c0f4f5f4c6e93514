import InpxWebReader.App.Host

/-!
# Replacing a file

`ReplaceDestinationWithPreparedFile` moves the old destination aside, moves the prepared file into
its place, validates it, and then drops the old one. A throw on the way is rolled back.
-/

namespace InpxWebReader.App

open Foundation Storage Program

variable {S : Type}

/-! ### The hooks -/

/-- The files after `rename`. -/
def movedFiles (files : Bytes → Option Bytes) (source destination : Bytes) :
    Bytes → Option Bytes := fun path =>
  if path = destination then files source else if path = source then none else files path

def withFile (files : Bytes → Option Bytes) (path : Bytes) (content : Option Bytes) :
    Bytes → Option Bytes := fun other => if other = path then content else files other

/-- `std::filesystem::exists`. -/
def pathExists (env : HostEnv S) (path : Bytes) : HostM S Bool :=
  perform env (.exists path) fun h => .ok ((h.files path).isSome, h)

/-- `std::filesystem::rename`. -/
def renamePath (env : HostEnv S) (source destination : Bytes) : HostM S Unit :=
  perform env (.rename source destination) fun h =>
    if h.files source = none then .error (runtimeError "No such file or directory")
    else .ok ((), { h with files := movedFiles h.files source destination })

/-- `std::filesystem::remove`. -/
def removePath (env : HostEnv S) (path : Bytes) : HostM S Unit :=
  perform env (.remove path) fun h => .ok ((), { h with files := withFile h.files path none })

/-! ### The replacement -/

/-- `path::parent_path` with its final slash, and `path::filename`. -/
def splitFileName (path : Bytes) : Bytes × Bytes :=
  let name := (path.reverse.takeWhile fun b => b ≠ slash).reverse
  (path.take (path.length - name.length), name)

/-- `BuildSiblingTemporaryPath`, from the clock and the process-wide counter. -/
def siblingTemporaryPath (destinationPath : Bytes) (clockValue sequence : Nat) : Bytes :=
  let (parent, fileName) := splitFileName destinationPath
  let (stem, extension) := stemAndExtension fileName
  parent ++ (stem ++ ascii ".inpx-web-reader-tmp-" ++ decimal clockValue ++ ascii "-"
    ++ decimal sequence ++ extension)

def buildSiblingTemporaryPath (env : HostEnv S) (destinationPath : Bytes) : HostM S Bytes :=
  fun h => .ok (siblingTemporaryPath destinationPath (env.clock h.trace.length) h.sequence)
    { h with sequence := h.sequence + 1 }

/-- The text of `ThrowRollbackFailure`. -/
def rollbackFailureText (operationName backupPath destinationPath replaceError rollbackAction
    rollbackError : Bytes) : Bytes :=
  let backupDetail :=
    if backupPath = [] then ascii "No previous destination backup exists."
    else ascii "Original content is preserved at BackupPath='" ++ backupPath
      ++ ascii "' and can be recovered manually."
  operationName ++ ascii ": failed to roll back a destination replacement while "
    ++ rollbackAction ++ ascii ". " ++ backupDetail ++ ascii " DestinationPath='"
    ++ destinationPath ++ ascii "' ReplaceError='" ++ replaceError
    ++ ascii "' RollbackError='" ++ rollbackError ++ ascii "'."

def throwRollbackFailure (operationName backupPath destinationPath replaceError
    rollbackAction : Bytes) (rollbackError : Thrown) : HostM S Unit :=
  throw (.restore
    (rollbackFailureText operationName backupPath destinationPath replaceError rollbackAction
      (rollbackError.what?.getD []))
    backupPath destinationPath)

def restoreBackupOrThrow (env : HostEnv S)
    (operationName backupPath destinationPath replaceError : Bytes) : HostM S Unit := do
  if !(← pathExists env backupPath) then return
  if ← pathExists env destinationPath then return
  match ← attempt (renamePath env backupPath destinationPath) with
  | none => return
  | some restoreError =>
    throwRollbackFailure operationName backupPath destinationPath replaceError
      (ascii "restoring the previous destination") restoreError

/-- The first half of `RollbackPublishedFileOrThrow`. -/
def removeRejectedOrThrow (env : HostEnv S)
    (operationName backupPath destinationPath replaceError : Bytes) : HostM S Unit := do
  match ← attempt (removePath env destinationPath) with
  | none => return
  | some removeError =>
    throwRollbackFailure operationName backupPath destinationPath replaceError
      (ascii "removing the rejected replacement") removeError

/-- The local variables of the replacement that its handler reads. -/
structure ReplacementFlags where
  destinationWasBackedUp : Bool := false
  preparedFileWasPublished : Bool := false

def rollbackPublishedFileOrThrow (env : HostEnv S)
    (operationName backupPath destinationPath : Bytes) (flags : ReplacementFlags)
    (replaceError : Bytes) : HostM S Unit := do
  if flags.preparedFileWasPublished then
    removeRejectedOrThrow env operationName backupPath destinationPath replaceError
  if flags.destinationWasBackedUp then
    restoreBackupOrThrow env operationName backupPath destinationPath replaceError

/-- The old destination is moved out of the way. -/
def setDestinationAside (env : HostEnv S) (destinationPath backupPath : Bytes) :
    EStateM Thrown (Host S × ReplacementFlags) Unit := do
  onState (renamePath env destinationPath backupPath)
  modify fun s => (s.1, { s.2 with destinationWasBackedUp := true })

/-- The prepared file is moved into place and validated, and the backup is dropped. -/
def publishAndValidate (env : HostEnv S) (preparedPath destinationPath backupPath : Bytes)
    (validatePublishedFile : HostM S Unit) : EStateM Thrown (Host S × ReplacementFlags) Unit := do
  onState (renamePath env preparedPath destinationPath)
  modify fun s => (s.1, { s.2 with preparedFileWasPublished := true })
  onState validatePublishedFile
  if (← get).2.destinationWasBackedUp then
    -- a backup that cannot be removed is logged, and stays
    let _ ← onState (attempt (removePath env backupPath))

/-- The `try` block of the replacement. -/
def publishPreparedFile (env : HostEnv S) (preparedPath destinationPath backupPath : Bytes)
    (destinationExists : Bool) (validatePublishedFile : HostM S Unit) :
    EStateM Thrown (Host S × ReplacementFlags) Unit := do
  if destinationExists then setDestinationAside env destinationPath backupPath
  publishAndValidate env preparedPath destinationPath backupPath validatePublishedFile

/-- The name for the old destination; there is none where there is nothing to keep. -/
def chooseBackupPath (env : HostEnv S) (destinationPath : Bytes) : Bool → HostM S Bytes
  | true => do
    let temporaryPath ← buildSiblingTemporaryPath env destinationPath
    return temporaryPath ++ ascii ".inpx-web-reader-backup"
  | false => return []

def replaceDestinationWithPreparedFile (env : HostEnv S)
    (preparedPath destinationPath operationName : Bytes)
    (validatePublishedFile : HostM S Unit) : HostM S Unit := do
  if preparedPath = destinationPath then
    validatePublishedFile
  else
    let destinationExists ← pathExists env destinationPath
    let backupPath ← chooseBackupPath env destinationPath destinationExists
    withLocals {} do
      try
        publishPreparedFile env preparedPath destinationPath backupPath destinationExists
          validatePublishedFile
      catch replaceError =>
        let flags := (← get).2
        onState (rollbackPublishedFileOrThrow env operationName backupPath destinationPath flags
          (replaceError.what?.getD (ascii "non-standard exception")))
        throw replaceError

/-! ### What one operation does -/

/-- The files and the operations so far. -/
def At (files : Bytes → Option Bytes) (trace : List (Operation × Bool)) (h : Host S) : Prop :=
  h.files = files ∧ h.trace = trace

section Operations

variable {env : HostEnv S} {files : Bytes → Option Bytes} {trace : List (Operation × Bool)}

theorem pathExists_triple (path : Bytes) :
    Triple (At files trace) (pathExists env path)
      (fun b h => b = (files path).isSome ∧ At files ((.exists path, false) :: trace) h)
      fun e h => (∃ failure, e = .failed failure) ∧ At files ((.exists path, true) :: trace) h := by
  refine perform_triple ?_ ?_
  · intro h sources b h' hat hact
    injection hact with hact
    injection hact with hb hh
    subst hb hh
    exact ⟨by rw [hat.1], hat.1, by rw [hat.2]⟩
  · intro h sources failure hat
    exact ⟨⟨failure, rfl⟩, hat.1, by rw [hat.2]⟩

theorem renamePath_triple {source : Bytes} (destination : Bytes) {content : Bytes}
    (hsource : files source = some content) :
    Triple (At files trace) (renamePath env source destination)
      (fun _ => At (movedFiles files source destination)
        ((.rename source destination, false) :: trace))
      fun _ => At files ((.rename source destination, true) :: trace) := by
  refine perform_triple ?_ ?_
  · intro h sources b h' hat hact
    have hne : h.files source ≠ none := by rw [hat.1, hsource]; exact Option.some_ne_none _
    rw [if_neg hne] at hact
    injection hact with hact
    injection hact with _ hh
    subst hh
    exact ⟨by rw [hat.1], by rw [hat.2]⟩
  · intro h sources failure hat
    exact ⟨hat.1, by rw [hat.2]⟩

theorem removePath_triple (path : Bytes) :
    Triple (At files trace) (removePath env path)
      (fun _ => At (withFile files path none) ((.remove path, false) :: trace))
      fun _ => At files ((.remove path, true) :: trace) := by
  refine perform_triple ?_ ?_
  · intro h sources b h' hat hact
    injection hact with hact
    injection hact with _ hh
    subst hh
    exact ⟨by rw [hat.1], by rw [hat.2]⟩
  · intro h sources failure hat
    exact ⟨hat.1, by rw [hat.2]⟩

end Operations

theorem pathExists_sequence (env : HostEnv S) (path : Bytes) (h : Host S) :
    match pathExists env path h with
    | .ok _ h' => h'.sequence = h.sequence
    | .error _ h' => h'.sequence = h.sequence := by
  rw [pathExists, perform]
  dsimp only
  cases env.fault h.trace.length <;> rfl

/-- A validator reads: it changes no file, and only adds operations. -/
def Inspects (c : HostM S Unit) : Prop :=
  ∀ files trace, Triple (At files trace) c (fun _ h => ∃ l, At files (l ++ trace) h)
    fun _ h => ∃ l, At files (l ++ trace) h

/-! ### Rolling back -/

section Rollback

variable {env : HostEnv S} {files : Bytes → Option Bytes} {trace : List (Operation × Bool)}
variable {operationName backupPath destinationPath replaceError : Bytes}

theorem throwRollbackFailure_triple {P : Host S → Prop} {Q : Unit → Host S → Prop}
    (rollbackAction : Bytes) (rollbackError : Thrown) :
    Triple P (throwRollbackFailure operationName backupPath destinationPath replaceError
        rollbackAction rollbackError) Q
      fun e h => (∃ message, e = .restore message backupPath destinationPath) ∧ P h :=
  .throw fun _ hp => ⟨⟨_, rfl⟩, hp⟩

theorem removeRejectedOrThrow_triple :
    Triple (At files trace)
      (removeRejectedOrThrow env operationName backupPath destinationPath replaceError)
      (fun _ => At (withFile files destinationPath none) ((.remove destinationPath, false) :: trace))
      fun e h => (∃ message, e = .restore message backupPath destinationPath) ∧ h.files = files := by
  refine Triple.bind
    (M := fun r h => match r with
      | none => At (withFile files destinationPath none) ((.remove destinationPath, false) :: trace) h
      | some _ => h.files = files)
    (attempt_triple ((removePath_triple destinationPath).error fun _ _ h => h.1)) fun r => ?_
  cases r with
  | none => exact .pure fun _ h => h
  | some removeError => exact throwRollbackFailure_triple _ removeError

/-- The old file goes back, or the exception names where it is; unless an existence check throws,
which is then what the caller sees. -/
theorem restoreBackupOrThrow_triple {original : Bytes} (hbackup : files backupPath = some original)
    (hdestination : files destinationPath = none) :
    Triple (At files trace)
      (restoreBackupOrThrow env operationName backupPath destinationPath replaceError)
      (fun _ h => h.files = movedFiles files backupPath destinationPath)
      fun e h => h.files = files ∧
        ((∃ message, e = .restore message backupPath destinationPath) ∨
          (∃ failure, e = .failed failure) ∧
            ∃ path l, h.trace = (.exists path, true) :: (l ++ trace)) := by
  refine Triple.bind ((pathExists_triple backupPath).error fun e h he =>
    ⟨he.2.1, .inr ⟨he.1, backupPath, [], he.2.2⟩⟩) fun backupThere => .of_pure fun hthere => ?_
  rw [hbackup] at hthere
  subst hthere
  refine Triple.bind ((pathExists_triple destinationPath).error fun e h he =>
    ⟨he.2.1, .inr ⟨he.1, destinationPath, [(.exists backupPath, false)], he.2.2⟩⟩)
    fun destinationThere => .of_pure fun hthere => ?_
  rw [hdestination] at hthere
  subst hthere
  refine Triple.bind
    (M := fun r h => match r with
      | none => h.files = movedFiles files backupPath destinationPath
      | some _ => h.files = files)
    (attempt_triple (((renamePath_triple destinationPath hbackup).post fun _ _ h => h.1).error
      fun _ _ h => h.1)) fun r => ?_
  cases r with
  | none => exact .pure fun _ h => h
  | some restoreError =>
    exact (throwRollbackFailure_triple _ restoreError).error fun e h he => ⟨he.2, .inl he.1⟩

end Rollback

/-! ### The replacement as a whole -/

section Replacement

/-- The other files are as they were. -/
def OthersKept (before : Bytes → Option Bytes) (preparedPath destinationPath backupPath : Bytes)
    (h : Host S) : Prop :=
  ∀ path, path ≠ destinationPath → path ≠ preparedPath → path ≠ backupPath →
    h.files path = before path

/-- Where the replacement of `destinationPath` stands when a step of it throws, from files `before`
and operations `trace`. -/
structure Interrupted (before : Bytes → Option Bytes) (trace : List (Operation × Bool))
    (preparedPath destinationPath backupPath : Bytes) (h : Host S) (flags : ReplacementFlags) :
    Prop where
  ran : ∃ l, l ≠ [] ∧ h.trace = l ++ trace
  others : OthersKept before preparedPath destinationPath backupPath h
  kept : flags.destinationWasBackedUp = true →
    before destinationPath ≠ none ∧ h.files backupPath = before destinationPath
  cleared : flags.destinationWasBackedUp = true → flags.preparedFileWasPublished = false →
    h.files destinationPath = none
  absent : flags.destinationWasBackedUp = false → flags.preparedFileWasPublished = true →
    before destinationPath = none
  untouched : flags.destinationWasBackedUp = false → flags.preparedFileWasPublished = false →
    h.files destinationPath = before destinationPath

def Unchanged (before : Bytes → Option Bytes) (destinationPath : Bytes) (h : Host S) : Prop :=
  h.files destinationPath = before destinationPath

/-- The exception names the path at which the old destination is. -/
def NamesBackup (before : Bytes → Option Bytes) (destinationPath : Bytes) (e : Thrown)
    (h : Host S) : Prop :=
  ∃ message backupPath, e = .restore message backupPath destinationPath ∧
    (before destinationPath ≠ none → h.files backupPath = before destinationPath)

/-- The last operation is an existence check that threw, and not the first operation. -/
def EndsInFailedCheck (trace : List (Operation × Bool)) (h : Host S) : Prop :=
  ∃ path l, l ≠ [] ∧ h.trace = (.exists path, true) :: (l ++ trace)

/-- The old destination is at a path that the exception does not name. -/
structure Stranded (before : Bytes → Option Bytes) (trace : List (Operation × Bool))
    (destinationPath backupPath : Bytes) (e : Thrown) (h : Host S) : Prop where
  check : EndsInFailedCheck trace h
  unnamed : ∃ failure, e = .failed failure
  existed : before destinationPath ≠ none
  gone : h.files destinationPath = none
  left : h.files backupPath = before destinationPath

variable {env : HostEnv S} {before : Bytes → Option Bytes} {trace : List (Operation × Bool)}
variable {preparedPath destinationPath backupPath operationName replaceError : Bytes}

def Apart (before : Bytes → Option Bytes) (preparedPath destinationPath backupPath : Bytes) :
    Prop :=
  before destinationPath ≠ none → backupPath ≠ destinationPath ∧ backupPath ≠ preparedPath

theorem rollbackPublishedFileOrThrow_triple {flags : ReplacementFlags}
    (hapart : Apart before preparedPath destinationPath backupPath) :
    Triple (fun h => Interrupted before trace preparedPath destinationPath backupPath h flags)
      (rollbackPublishedFileOrThrow env operationName backupPath destinationPath flags replaceError)
      (fun _ h => OthersKept before preparedPath destinationPath backupPath h ∧
        Unchanged before destinationPath h)
      fun e h => OthersKept before preparedPath destinationPath backupPath h ∧
        (NamesBackup before destinationPath e h ∨
          Stranded before trace destinationPath backupPath e h) := by
  refine .of_state fun s hs => ?_
  obtain ⟨l, hl, htrace⟩ := hs.ran
  -- what the restore does, from files that still have the old destination at the backup path
  have restore : ∀ (files : Bytes → Option Bytes) (l : List (Operation × Bool)) (original : Bytes),
      l ≠ [] → before destinationPath = some original → files backupPath = some original →
      files destinationPath = none →
      (∀ path, path ≠ destinationPath → path ≠ preparedPath → path ≠ backupPath →
        files path = before path) →
      Triple (At files (l ++ trace))
        (restoreBackupOrThrow env operationName backupPath destinationPath replaceError)
        (fun _ h => OthersKept before preparedPath destinationPath backupPath h ∧
          Unchanged before destinationPath h)
        fun e h => OthersKept before preparedPath destinationPath backupPath h ∧
          (NamesBackup before destinationPath e h ∨
            Stranded before trace destinationPath backupPath e h) := by
    intro files l original hl hbefore hleft hgone hothers
    refine (restoreBackupOrThrow_triple hleft hgone).conseq (fun _ h => h) ?_ ?_
    · intro _ h hfiles
      refine ⟨fun path hd hp hb => ?_, ?_⟩
      · rw [hfiles, movedFiles, if_neg hd, if_neg hb]
        exact hothers path hd hp hb
      · rw [Unchanged, hfiles, movedFiles, if_pos rfl, hleft, hbefore]
    · rintro e h ⟨hfiles, hcase⟩
      refine ⟨fun path hd hp hb => by rw [hfiles]; exact hothers path hd hp hb, ?_⟩
      rcases hcase with ⟨message, he⟩ | ⟨hfailed, path, l', hl'⟩
      · exact .inl ⟨message, backupPath, he, fun _ => by rw [hfiles, hleft, hbefore]⟩
      · refine .inr ⟨⟨path, l' ++ l, by simp [hl], by rw [hl', List.append_assoc]⟩, hfailed, ?_, ?_, ?_⟩
        · rw [hbefore]
          exact Option.some_ne_none _
        · rw [hfiles, hgone]
        · rw [hfiles, hleft, hbefore]
  rw [rollbackPublishedFileOrThrow]
  rcases flags with ⟨backedUp, published⟩
  cases published with
  | false =>
    simp only [Bool.false_eq_true, if_false]
    cases backedUp with
    | false =>
      -- nothing was done yet
      exact .pure fun h hh => hh ▸ ⟨hs.others, hs.untouched rfl rfl⟩
    | true =>
      obtain ⟨hexisted, hkept⟩ := hs.kept rfl
      obtain ⟨original, horiginal⟩ := Option.ne_none_iff_exists'.mp hexisted
      exact (restore s.files l original hl horiginal (hkept.trans horiginal) (hs.cleared rfl rfl)
        hs.others).pre fun h hh => by subst hh; exact ⟨rfl, htrace⟩
  | true =>
    simp only [if_true]
    have hothers : ∀ path, path ≠ destinationPath → path ≠ preparedPath → path ≠ backupPath →
        withFile s.files destinationPath none path = before path := by
      intro path hd hp hb
      rw [withFile, if_neg hd]
      exact hs.others path hd hp hb
    have hremove : Triple (At s.files (l ++ trace))
        (removeRejectedOrThrow env operationName backupPath destinationPath replaceError) _ _ :=
      removeRejectedOrThrow_triple
    refine Triple.bind (hremove.conseq
      (fun h hh => by subst hh; exact ⟨rfl, htrace⟩) (fun _ _ hq => hq) ?_) fun _ => ?_
    · rintro e h ⟨⟨message, he⟩, hfiles⟩
      refine ⟨fun path hd hp hb => by rw [hfiles]; exact hs.others path hd hp hb,
        .inl ⟨message, backupPath, he, fun hexisted => ?_⟩⟩
      cases backedUp with
      | false => exact absurd (hs.absent rfl rfl) hexisted
      | true => rw [hfiles, (hs.kept rfl).2]
    · cases backedUp with
      | false =>
        refine .pure fun h hh => ⟨fun path hd hp hb => ?_, ?_⟩
        · rw [hh.1]
          exact hothers path hd hp hb
        · rw [Unchanged, hh.1, withFile, if_pos rfl, hs.absent rfl rfl]
      | true =>
        obtain ⟨hexisted, hkept⟩ := hs.kept rfl
        obtain ⟨original, horiginal⟩ := Option.ne_none_iff_exists'.mp hexisted
        refine (restore (withFile s.files destinationPath none)
          ((.remove destinationPath, false) :: l) original (List.cons_ne_nil _ _) horiginal ?_ ?_
          hothers)
        · rw [withFile, if_neg (hapart hexisted).1, hkept, horiginal]
        · rw [withFile, if_pos rfl]

/-- The old destination is gone from the backup path, or its removal failed. -/
def BackupDropped (before : Bytes → Option Bytes) (destinationPath backupPath : Bytes)
    (h : Host S) : Prop :=
  before destinationPath ≠ none →
    h.files backupPath = none ∨
      h.files backupPath = before destinationPath ∧ h.trace.head? = some (.remove backupPath, true)

/-- How the `try` block ends when nothing in it throws. -/
structure Replaced (before : Bytes → Option Bytes) (preparedPath destinationPath backupPath
    content : Bytes) (h : Host S) : Prop where
  published : h.files destinationPath = some content
  others : OthersKept before preparedPath destinationPath backupPath h
  dropped : BackupDropped before destinationPath backupPath h

theorem dropBackup_triple {content : Bytes} {files : Bytes → Option Bytes}
    (hbackup : backupPath ≠ destinationPath) (hpublished : files destinationPath = some content)
    (hleft : files backupPath = before destinationPath)
    (hothers : ∀ path, path ≠ destinationPath → path ≠ preparedPath → path ≠ backupPath →
      files path = before path) :
    Triple (At files trace) (attempt (removePath env backupPath))
      (fun _ => Replaced before preparedPath destinationPath backupPath content)
      fun _ _ => False := by
  refine attempt_triple ((removePath_triple backupPath).conseq (fun _ h => h) ?_ ?_)
  · rintro _ h ⟨hfiles, _⟩
    refine ⟨?_, fun path hd hp hb => ?_, fun _ => .inl ?_⟩
    · rw [hfiles, withFile, if_neg hbackup.symm, hpublished]
    · rw [hfiles, withFile, if_neg hb]
      exact hothers path hd hp hb
    · rw [hfiles, withFile, if_pos rfl]
  · rintro _ h ⟨hfiles, htrace⟩
    refine ⟨?_, fun path hd hp hb => ?_, fun _ => .inr ⟨?_, ?_⟩⟩
    · rw [hfiles, hpublished]
    · rw [hfiles]
      exact hothers path hd hp hb
    · rw [hfiles, hleft]
    · rw [htrace]
      rfl

/-- Publishing, once the destination is out of the way. -/
theorem publishAndValidate_triple {content : Bytes} {files : Bytes → Option Bytes}
    {l : List (Operation × Bool)} {backedUp : Bool} {validate : HostM S Unit}
    (hvalidate : Inspects validate)
    (hprepared : files preparedPath = some content)
    (hapart : Apart before preparedPath destinationPath backupPath)
    (hothers : ∀ path, path ≠ destinationPath → path ≠ preparedPath → path ≠ backupPath →
      files path = before path)
    (hkept : backedUp = true →
      before destinationPath ≠ none ∧ files backupPath = before destinationPath)
    (habsent : backedUp = false → before destinationPath = none)
    (hgone : files destinationPath = none) :
    Triple (fun s => At files (l ++ trace) s.1 ∧ s.2 = ⟨backedUp, false⟩)
      (publishAndValidate env preparedPath destinationPath backupPath validate)
      (fun _ s => Replaced before preparedPath destinationPath backupPath content s.1)
      fun _ s => Interrupted before trace preparedPath destinationPath backupPath s.1 s.2 := by
  have hrename : Triple (At files (l ++ trace)) (renamePath env preparedPath destinationPath) _ _ :=
    renamePath_triple destinationPath hprepared
  refine Triple.bind (hrename.onState.error ?_) fun _ => ?_
  · -- the prepared file did not move
    rintro e ⟨h, flags⟩ ⟨⟨hfiles, htrace⟩, rfl⟩
    exact {
      ran := ⟨_ :: l, List.cons_ne_nil _ _, htrace⟩
      others := fun path hd hp hb => by rw [hfiles]; exact hothers path hd hp hb
      kept := fun hb => by rw [hfiles]; exact hkept hb
      cleared := fun _ _ => by rw [hfiles]; exact hgone
      absent := fun _ hp => by cases hp
      untouched := fun hb _ => by rw [hfiles, hgone, habsent hb] }
  have hmovedDestination : movedFiles files preparedPath destinationPath destinationPath
      = some content := by rw [movedFiles, if_pos rfl, hprepared]
  have hmovedBackup : backedUp = true → movedFiles files preparedPath destinationPath backupPath
      = before destinationPath := by
    intro hb
    obtain ⟨hexisted, hleft⟩ := hkept hb
    rw [movedFiles, if_neg (hapart hexisted).1, if_neg (hapart hexisted).2, hleft]
  have hmovedOthers : ∀ path, path ≠ destinationPath → path ≠ preparedPath → path ≠ backupPath →
      movedFiles files preparedPath destinationPath path = before path := by
    intro path hd hp hb
    rw [movedFiles, if_neg hd, if_neg hp]
    exact hothers path hd hp hb
  generalize movedFiles files preparedPath destinationPath = published at *
  have interrupted : ∀ (h : Host S) (l' : List (Operation × Bool)), l' ≠ [] →
      At published (l' ++ trace) h →
      Interrupted before trace preparedPath destinationPath backupPath h ⟨backedUp, true⟩ := by
    rintro h l' hl' ⟨hfiles, htrace⟩
    exact {
      ran := ⟨l', hl', htrace⟩
      others := fun path hd hp hb => by rw [hfiles]; exact hmovedOthers path hd hp hb
      kept := fun hb => ⟨(hkept hb).1, by rw [hfiles, hmovedBackup hb]⟩
      cleared := fun _ hp => by cases hp
      absent := fun hb _ => habsent hb
      untouched := fun _ hp => by cases hp }
  refine Triple.bind (M := fun _ s => At published
      ((.rename preparedPath destinationPath, false) :: l ++ trace) s.1 ∧ s.2 = ⟨backedUp, true⟩)
    (.modify fun s hs => ⟨hs.1, by rw [hs.2]⟩) fun _ => ?_
  refine Triple.bind ((hvalidate published _).onState.error ?_) fun _ => ?_
  · rintro e ⟨h, flags⟩ ⟨⟨l', hat⟩, rfl⟩
    exact interrupted h (l' ++ _ :: l) (by simp) (by simpa using hat)
  refine Triple.bind (M := fun state s => state.2 = ⟨backedUp, true⟩ ∧
      (∃ l', At published (l' ++ ((.rename preparedPath destinationPath, false) :: l ++ trace)) s.1) ∧
      s.2 = ⟨backedUp, true⟩)
    (.get fun s hs => ⟨hs.2, hs⟩) fun state => .of_pure fun hflags => ?_
  rw [hflags]
  cases backedUp with
  | false =>
    refine .pure fun s ⟨⟨l', hfiles, _⟩, _⟩ => ⟨?_, fun path hd hp hb => ?_, fun hexisted => ?_⟩
    · rw [hfiles, hmovedDestination]
    · rw [hfiles]
      exact hmovedOthers path hd hp hb
    · exact absurd (habsent rfl) hexisted
  | true =>
    refine Triple.bind (M := fun _ s => Replaced before preparedPath destinationPath backupPath
      content s.1) ?_ fun _ => .pure fun _ h => h
    rintro ⟨h, flags⟩ ⟨⟨l', hat⟩, rfl⟩
    have hdrop : Triple
        (At published (l' ++ ((.rename preparedPath destinationPath, false) :: l ++ trace)))
        (attempt (removePath env backupPath)) _ _ :=
      dropBackup_triple (hapart (hkept rfl).1).1 hmovedDestination (hmovedBackup rfl) hmovedOthers
    exact (hdrop.onState.conseq (fun _ h => h) (fun _ _ h => h.1) fun _ _ h => h.1.elim) _
      ⟨hat, rfl⟩

/-- The `try` block: it publishes the prepared file, or is interrupted. -/
theorem publishPreparedFile_triple {content : Bytes} {l : List (Operation × Bool)}
    {validate : HostM S Unit} (hvalidate : Inspects validate)
    (hne : preparedPath ≠ destinationPath) (hprepared : before preparedPath = some content)
    (hapart : Apart before preparedPath destinationPath backupPath) :
    Triple (fun s => At before (l ++ trace) s.1 ∧ s.2 = {})
      (publishPreparedFile env preparedPath destinationPath backupPath
        (before destinationPath).isSome validate)
      (fun _ s => Replaced before preparedPath destinationPath backupPath content s.1)
      fun _ s => Interrupted before trace preparedPath destinationPath backupPath s.1 s.2 := by
  rw [publishPreparedFile]
  cases hbefore : before destinationPath with
  | none =>
    exact publishAndValidate_triple hvalidate hprepared hapart
      (fun _ _ _ _ => rfl) (fun h => by cases h) (fun _ => hbefore) hbefore
  | some original =>
    refine Triple.bind (M := fun _ s => At (movedFiles before destinationPath backupPath)
      (((.rename destinationPath backupPath, false) :: l) ++ trace) s.1 ∧ s.2 = ⟨true, false⟩)
      ?_ fun _ => ?_
    · have hrename : Triple (At before (l ++ trace)) (renamePath env destinationPath backupPath)
          _ _ := renamePath_triple backupPath hbefore
      refine Triple.bind (hrename.onState.error ?_) fun _ => .modify fun s hs => ⟨hs.1, by rw [hs.2]⟩
      rintro e ⟨h, flags⟩ ⟨⟨hfiles, htrace⟩, rfl⟩
      exact {
        ran := ⟨_ :: l, List.cons_ne_nil _ _, htrace⟩
        others := fun path _ _ _ => by rw [hfiles]
        kept := fun hb => by cases hb
        cleared := fun hb => by cases hb
        absent := fun _ hp => by cases hp
        untouched := fun _ _ => by rw [hfiles] }
    · have hexisted : before destinationPath ≠ none := by
        rw [hbefore]
        exact Option.some_ne_none _
      obtain ⟨hbackup, hfresh⟩ := hapart hexisted
      refine publishAndValidate_triple hvalidate ?_ hapart ?_
        (fun _ => ⟨hexisted, ?_⟩) (fun h => by cases h) ?_
      · rw [movedFiles, if_neg hfresh.symm, if_neg hne, hprepared]
      · intro path hd _ hb
        rw [movedFiles, if_neg hb, if_neg hd]
      · rw [movedFiles, if_pos rfl]
      · rw [movedFiles, if_neg hbackup.symm, if_pos rfl]

/-- The backup path of a replacement that starts in `h`: a fresh sibling name, if there is
something to keep. -/
def backupPathFrom (env : HostEnv S) (destinationPath : Bytes) (h : Host S) : Bytes :=
  if (h.files destinationPath).isSome then
    siblingTemporaryPath destinationPath (env.clock (h.trace.length + 1)) h.sequence
      ++ ascii ".inpx-web-reader-backup"
  else []

/-- How a replacement that threw leaves the old destination. -/
def Recovered (before : Bytes → Option Bytes) (trace : List (Operation × Bool))
    (destinationPath backupPath : Bytes) (e : Thrown) (h : Host S) : Prop :=
  Unchanged before destinationPath h ∨ NamesBackup before destinationPath e h ∨
    Stranded before trace destinationPath backupPath e h

/-- The replacement from its parts: the `try` block and the rollback of where it was left. -/
theorem replaceDestinationWithPreparedFile_rule {validate : HostM S Unit} {s : Host S}
    {Q : Host S → Prop} {E : Thrown → Host S → Prop} {F : ReplacementFlags → Host S → Prop}
    (hne : preparedPath ≠ destinationPath)
    (hcheck : ∀ e h, At s.files ((.exists destinationPath, true) :: s.trace) h → E e h)
    (hpublish : Triple
      (fun t => At s.files ([(.exists destinationPath, false)] ++ s.trace) t.1 ∧ t.2 = {})
      (publishPreparedFile env preparedPath destinationPath (backupPathFrom env destinationPath s)
        (s.files destinationPath).isSome validate)
      (fun _ t => Q t.1) fun _ t => F t.2 t.1)
    (hrollback : ∀ flags replaceError, Triple (F flags)
      (rollbackPublishedFileOrThrow env operationName (backupPathFrom env destinationPath s)
        destinationPath flags replaceError)
      (fun _ h => ∀ e, E e h) E) :
    Triple (fun h => h = s)
      (replaceDestinationWithPreparedFile env preparedPath destinationPath operationName validate)
      (fun _ => Q) E := by
  rw [replaceDestinationWithPreparedFile, if_neg hne]
  -- the existence check and the choice of the name
  refine Triple.bind (M := fun destinationExists h =>
      destinationExists = (s.files destinationPath).isSome ∧ h.sequence = s.sequence ∧
        At s.files ((.exists destinationPath, false) :: s.trace) h) ?_ fun destinationExists =>
    .of_pure fun hexists => ?_
  · intro h hh
    subst hh
    have hseq := pathExists_sequence env destinationPath h
    have hexists : Triple (At h.files h.trace) (pathExists env destinationPath) _ _ :=
      pathExists_triple destinationPath
    have hcheck' := hexists h ⟨rfl, rfl⟩
    cases hrun : pathExists env destinationPath h with
    | ok b h' =>
      rw [hrun] at hcheck' hseq
      exact ⟨hcheck'.1, hseq, hcheck'.2⟩
    | error e h' =>
      rw [hrun] at hcheck'
      exact hcheck e h' hcheck'.2
  refine Triple.bind (M := fun backupPath h => backupPath = backupPathFrom env destinationPath s ∧
      At s.files ((.exists destinationPath, false) :: s.trace) h) ?_ fun backupPath =>
    .of_pure fun hbackupPath => ?_
  · intro h hh
    rw [hexists, backupPathFrom]
    cases (s.files destinationPath).isSome with
    | false => exact ⟨rfl, hh.2⟩
    | true =>
      refine ⟨?_, hh.2.1, hh.2.2⟩
      rw [hh.1, hh.2.2]
      rfl
  subst hexists hbackupPath
  refine Triple.withLocals (Triple.tryCatch (hpublish.pre fun _ h => h) fun e => ?_)
  refine Triple.bind (M := fun t u => F t.2 u.1 ∧ u.2 = t.2) (.get fun u hu => ⟨hu, rfl⟩) fun t => ?_
  exact Triple.bind ((hrollback t.2 _).onState.error fun e h he => he.1) fun _ =>
    .throw fun h hh => hh.1 e

/-- The replacement, from any state and under any failures. -/
theorem replaceDestinationWithPreparedFile_triple {validate : HostM S Unit} {content : Bytes}
    {s : Host S} (hvalidate : Inspects validate) (hne : preparedPath ≠ destinationPath)
    (hprepared : s.files preparedPath = some content)
    (hapart : Apart s.files preparedPath destinationPath (backupPathFrom env destinationPath s)) :
    Triple (fun h => h = s)
      (replaceDestinationWithPreparedFile env preparedPath destinationPath operationName validate)
      (fun _ => Replaced s.files preparedPath destinationPath
        (backupPathFrom env destinationPath s) content)
      fun e h => OthersKept s.files preparedPath destinationPath
          (backupPathFrom env destinationPath s) h ∧
        Recovered s.files s.trace destinationPath (backupPathFrom env destinationPath s) e h := by
  refine replaceDestinationWithPreparedFile_rule (F := fun flags h => Interrupted s.files s.trace
      preparedPath destinationPath (backupPathFrom env destinationPath s) h flags) hne ?_
    (publishPreparedFile_triple hvalidate hne hprepared hapart) fun flags replaceError =>
      (rollbackPublishedFileOrThrow_triple hapart).conseq (fun _ h => h)
        (fun _ h hh e => ⟨hh.1, .inl hh.2⟩) fun e h he => ⟨he.1, .inr he.2⟩
  intro e h hat
  refine ⟨fun path _ _ _ => by rw [hat.1], .inl ?_⟩
  rw [Unchanged, hat.1]

end Replacement

/-! ### Where the previous file is -/

/-- Since the destination was moved aside, no check whether it or its backup is there has failed. -/
def ChecksAnswer (destinationPath : Bytes) (trace : List (Operation × Bool)) : Prop :=
  ∀ later earlier path backupPath, trace = later ++ (.exists path, true) :: earlier →
    (.rename destinationPath backupPath, false) ∈ earlier →
    path ≠ destinationPath ∧ path ≠ backupPath

/-- What a replacement that threw says of the previous file: it is where it was, or at the backup
path that the exception names, or a check of the rollback has failed. -/
def Accounted (before : Bytes → Option Bytes) (destinationPath backupPath : Bytes) (e : Thrown)
    (h : Host S) : Prop :=
  Unchanged before destinationPath h ∨
    (∃ message, e = .restore message backupPath destinationPath ∧
      (before destinationPath ≠ none → h.files backupPath = before destinationPath)) ∨
    ¬ChecksAnswer destinationPath h.trace

theorem ChecksAnswer.of_cons {destinationPath : Bytes} {operation : Operation × Bool}
    {trace : List (Operation × Bool)} (h : ChecksAnswer destinationPath (operation :: trace)) :
    ChecksAnswer destinationPath trace :=
  fun later earlier path backupPath htrace =>
    h (operation :: later) earlier path backupPath (by rw [htrace, List.cons_append])

section Accounted

variable {env : HostEnv S} {preparedPath destinationPath backupPath operationName : Bytes}
variable {replaceError : Bytes} {before : Bytes → Option Bytes} {x : Operation × Bool}

theorem perform_mem {α : Type} {operation : Operation} {act : Host S → Except Failure (α × Host S)} :
    Triple (fun h => x ∈ h.trace) (perform env operation act) (fun _ h => x ∈ h.trace)
      fun _ h => ∃ earlier, x ∈ earlier ∧ h.trace = (operation, true) :: earlier :=
  perform_triple (fun _ _ _ _ hx _ => List.mem_cons_of_mem _ hx)
    fun h _ _ hx => ⟨h.trace, hx, rfl⟩

theorem not_checksAnswer {path : Bytes} {earlier trace : List (Operation × Bool)}
    (hx : (.rename destinationPath backupPath, false) ∈ earlier)
    (htrace : trace = (.exists path, true) :: earlier)
    (hpath : path = destinationPath ∨ path = backupPath) : ¬ChecksAnswer destinationPath trace := by
  intro h
  have hne := h [] earlier path backupPath htrace hx
  exact hpath.elim hne.1 hne.2

/-- The restore of a destination that was moved aside names the backup, unless a check fails. -/
theorem restoreBackupOrThrow_named :
    Triple (fun h : Host S => (.rename destinationPath backupPath, false) ∈ h.trace)
      (restoreBackupOrThrow env operationName backupPath destinationPath replaceError)
      (fun _ _ => True)
      fun e h => (∃ message, e = .restore message backupPath destinationPath) ∨
        ¬ChecksAnswer destinationPath h.trace := by
  rw [restoreBackupOrThrow]
  refine Triple.bind (perform_mem.error fun e h ⟨earlier, hx, htrace⟩ =>
    .inr (not_checksAnswer hx htrace (.inr rfl))) fun backupThere => ?_
  refine .ite (fun _ => .pure fun _ _ => trivial) fun _ => ?_
  refine Triple.bind (perform_mem.error fun e h ⟨earlier, hx, htrace⟩ =>
    .inr (not_checksAnswer hx htrace (.inl rfl))) fun destinationThere => ?_
  refine .ite (fun _ => .pure fun _ _ => trivial) fun _ => ?_
  refine Triple.bind (M := fun _ _ => True) (attempt_triple fun h _ => ?_) fun r => ?_
  · split <;> trivial
  · cases r with
    | none => exact .pure fun _ _ => trivial
    | some restoreError => exact .throw fun _ _ => .inl ⟨_, rfl⟩

theorem rollbackPublishedFileOrThrow_named {flags : ReplacementFlags} :
    Triple (fun h : Host S => flags.destinationWasBackedUp = true →
        (.rename destinationPath backupPath, false) ∈ h.trace)
      (rollbackPublishedFileOrThrow env operationName backupPath destinationPath flags replaceError)
      (fun _ _ => True)
      fun e h => (∃ message, e = .restore message backupPath destinationPath) ∨
        ¬ChecksAnswer destinationPath h.trace := by
  have hrestore : Triple (fun h : Host S => flags.destinationWasBackedUp = true →
      (.rename destinationPath backupPath, false) ∈ h.trace)
      (if flags.destinationWasBackedUp then
        restoreBackupOrThrow env operationName backupPath destinationPath replaceError
      else pure ()) (fun _ _ => True)
      fun e h => (∃ message, e = .restore message backupPath destinationPath) ∨
        ¬ChecksAnswer destinationPath h.trace :=
    .ite (fun hb => restoreBackupOrThrow_named.pre fun _ h => h hb)
      fun _ => .pure fun _ _ => trivial
  rw [rollbackPublishedFileOrThrow]
  cases flags.preparedFileWasPublished with
  | false => exact hrestore
  | true =>
    refine Triple.bind ?_ fun _ => hrestore
    have hremove : Triple (fun h : Host S => flags.destinationWasBackedUp = true →
        (.rename destinationPath backupPath, false) ∈ h.trace) (removePath env destinationPath)
        (fun _ h => flags.destinationWasBackedUp = true →
          (.rename destinationPath backupPath, false) ∈ h.trace) fun _ _ => True :=
      perform_triple (fun h _ _ _ hx _ hb => List.mem_cons_of_mem _ (hx hb)) fun _ _ _ _ => trivial
    rw [removeRejectedOrThrow]
    refine Triple.bind (M := fun r (h : Host S) => r = none → flags.destinationWasBackedUp = true →
      (.rename destinationPath backupPath, false) ∈ h.trace) (attempt_triple (hremove.conseq
        (fun _ h => h) (fun _ _ h _ => h) fun _ _ _ hr => by cases hr)) fun r => ?_
    cases r with
    | none => exact .pure fun _ h => h rfl
    | some removeError => exact .throw fun _ _ => .inl ⟨_, rfl⟩

theorem onState_keeps {c : HostM S Unit} {I : Host S → Prop} {J : ReplacementFlags → Prop}
    (h : Triple I c (fun _ => I) fun _ => I) :
    Triple (fun t => I t.1 ∧ J t.2) (onState c) (fun _ t => I t.1 ∧ J t.2)
      fun _ t => I t.1 ∧ J t.2 := by
  intro t ht
  exact (h.onState (t := t.2)).conseq (fun _ hu => hu) (fun _ u hu => ⟨hu.1, hu.2 ▸ ht.2⟩)
    (fun _ u hu => ⟨hu.1, hu.2 ▸ ht.2⟩) t ⟨ht.1, rfl⟩

/-- Where the destination was moved aside, the trace says so. -/
theorem publishPreparedFile_named {destinationExists : Bool} {validate : HostM S Unit}
    (hvalidate : Inspects validate) :
    Triple (fun t => t.2 = {})
      (publishPreparedFile env preparedPath destinationPath backupPath destinationExists validate)
      (fun _ _ => True)
      fun _ t => t.2.destinationWasBackedUp = true →
        (.rename destinationPath backupPath, false) ∈ t.1.trace := by
  have hpublish : ∀ backedUp : Bool, Triple
      (fun t => (backedUp = true → (.rename destinationPath backupPath, false) ∈ t.1.trace) ∧
        t.2.destinationWasBackedUp = backedUp)
      (publishAndValidate env preparedPath destinationPath backupPath validate) (fun _ _ => True)
      fun _ t => t.2.destinationWasBackedUp = true →
        (.rename destinationPath backupPath, false) ∈ t.1.trace := by
    intro backedUp
    have hsay : ∀ (e : Thrown) (t : Host S × ReplacementFlags),
        ((backedUp = true → (.rename destinationPath backupPath, false) ∈ t.1.trace) ∧
          t.2.destinationWasBackedUp = backedUp) → t.2.destinationWasBackedUp = true →
        (.rename destinationPath backupPath, false) ∈ t.1.trace :=
      fun _ t ht hb => ht.1 (ht.2 ▸ hb)
    have hperform : ∀ {α : Type} {operation : Operation}
        {act : Host S → Except Failure (α × Host S)},
        Triple (fun h => backedUp = true → (.rename destinationPath backupPath, false) ∈ h.trace)
          (perform env operation act)
          (fun _ h => backedUp = true → (.rename destinationPath backupPath, false) ∈ h.trace)
          fun _ h => backedUp = true → (.rename destinationPath backupPath, false) ∈ h.trace :=
      perform_triple (fun h _ _ _ hx _ hb => List.mem_cons_of_mem _ (hx hb))
        fun h _ _ hx hb => List.mem_cons_of_mem _ (hx hb)
    have hinspect : Triple
        (fun h => backedUp = true → (.rename destinationPath backupPath, false) ∈ h.trace) validate
        (fun _ h => backedUp = true → (.rename destinationPath backupPath, false) ∈ h.trace)
        fun _ h => backedUp = true → (.rename destinationPath backupPath, false) ∈ h.trace := by
      refine .of_state fun s hs => ?_
      have hkeep : ∀ h : Host S, (∃ l, At s.files (l ++ s.trace) h) → backedUp = true →
          (.rename destinationPath backupPath, false) ∈ h.trace := by
        rintro h ⟨l, -, htrace⟩ hb
        rw [htrace]
        exact List.mem_append_right _ (hs hb)
      exact (hvalidate s.files s.trace).conseq (fun h hh => hh ▸ ⟨rfl, rfl⟩) (fun _ => hkeep)
        fun _ => hkeep
    rw [publishAndValidate]
    refine Triple.bind ((onState_keeps
      (J := fun flags => flags.destinationWasBackedUp = backedUp) hperform).error hsay) fun _ => ?_
    refine Triple.bind (M := fun _ t =>
      (backedUp = true → (.rename destinationPath backupPath, false) ∈ t.1.trace) ∧
        t.2.destinationWasBackedUp = backedUp) ?_ fun _ => ?_
    · exact .modify fun t ht => ht
    refine Triple.bind ((onState_keeps
      (J := fun flags => flags.destinationWasBackedUp = backedUp) hinspect).error hsay) fun _ => ?_
    refine Triple.bind (M := fun _ _ => True) (.get fun _ _ => trivial) fun state => ?_
    refine .ite (fun _ => ?_) fun _ => .pure fun _ _ => trivial
    -- nothing throws any more
    have hdrop : Triple (fun _ => True) (attempt (removePath env backupPath)) (fun _ _ => True)
        fun _ _ => False := attempt_triple fun h _ => by split <;> trivial
    refine Triple.bind (M := fun _ _ => True) ?_ fun _ => .pure fun _ _ => trivial
    intro t _
    exact (hdrop.onState (t := t.2)).conseq (fun _ h => h) (fun _ _ _ => trivial)
      (fun _ _ h => h.1.elim) t ⟨trivial, rfl⟩
  rw [publishPreparedFile]
  cases destinationExists with
  | false =>
    refine (hpublish false).pre fun t ht => ⟨fun hb => (by cases hb), ?_⟩
    rw [ht]
  | true =>
    refine Triple.bind (M := fun _ (t : Host S × ReplacementFlags) =>
      (true = true → (.rename destinationPath backupPath, false) ∈ t.1.trace) ∧
        t.2.destinationWasBackedUp = true) ?_ fun _ => hpublish true
    refine Triple.bind (M := fun _ (t : Host S × ReplacementFlags) =>
      (.rename destinationPath backupPath, false) ∈ t.1.trace) ?_
      fun _ => .modify fun t ht => ⟨fun _ => ht, rfl⟩
    have hrename : Triple (fun _ => True) (renamePath env destinationPath backupPath)
        (fun _ h => (.rename destinationPath backupPath, false) ∈ h.trace) fun _ _ => True :=
      perform_triple (fun _ _ _ _ _ _ => List.mem_cons_self ..) fun _ _ _ _ => trivial
    refine (hrename.onState (t := {})).conseq (fun t ht => ⟨trivial, ht⟩) (fun _ _ h => h.1) ?_
    intro _ t ht hb
    rw [ht.2] at hb
    cases hb

theorem renamePath_absent_triple {files : Bytes → Option Bytes} {trace : List (Operation × Bool)}
    {source : Bytes} (destination : Bytes) (hsource : files source = none) :
    Triple (At files trace) (renamePath env source destination) (fun _ _ => False)
      fun _ => At files ((.rename source destination, true) :: trace) := by
  refine perform_triple ?_ fun h sources failure hat => ⟨hat.1, by rw [hat.2]⟩
  intro h sources b h' hat hact
  have hnone : h.files source = none := by rw [hat.1, hsource]
  rw [if_pos hnone] at hact
  cases hact

/-- Without a prepared file the `try` block is interrupted. -/
theorem publishPreparedFile_absent_triple {l trace : List (Operation × Bool)}
    {validate : HostM S Unit} (hne : preparedPath ≠ destinationPath)
    (hprepared : before preparedPath = none)
    (hapart : Apart before preparedPath destinationPath backupPath) :
    Triple (fun s => At before (l ++ trace) s.1 ∧ s.2 = {})
      (publishPreparedFile env preparedPath destinationPath backupPath
        (before destinationPath).isSome validate)
      (fun _ _ => False)
      fun _ s => Interrupted before trace preparedPath destinationPath backupPath s.1 s.2 := by
  rw [publishPreparedFile]
  cases hbefore : before destinationPath with
  | none =>
    have hrename : Triple (At before (l ++ trace)) (renamePath env preparedPath destinationPath)
        _ _ := renamePath_absent_triple destinationPath hprepared
    refine Triple.bind (M := fun _ _ => False) (hrename.onState.conseq (fun _ h => h)
      (fun _ _ h => h.1) ?_) fun _ _ h => h.elim
    rintro e ⟨h, flags⟩ ⟨⟨hfiles, htrace⟩, rfl⟩
    exact {
      ran := ⟨_ :: l, List.cons_ne_nil _ _, htrace⟩
      others := fun path _ _ _ => by rw [hfiles]
      kept := fun hb => by cases hb
      cleared := fun hb => by cases hb
      absent := fun _ hp => by cases hp
      untouched := fun _ _ => by rw [hfiles] }
  | some original =>
    have hexisted : before destinationPath ≠ none := by
      rw [hbefore]
      exact Option.some_ne_none _
    obtain ⟨hbackup, hfresh⟩ := hapart hexisted
    refine Triple.bind (M := fun _ s => At (movedFiles before destinationPath backupPath)
      (((.rename destinationPath backupPath, false) :: l) ++ trace) s.1 ∧ s.2 = ⟨true, false⟩)
      ?_ fun _ => ?_
    · have hrename : Triple (At before (l ++ trace)) (renamePath env destinationPath backupPath)
          _ _ := renamePath_triple backupPath hbefore
      refine Triple.bind (hrename.onState.error ?_) fun _ => .modify fun s hs => ⟨hs.1, by rw [hs.2]⟩
      rintro e ⟨h, flags⟩ ⟨⟨hfiles, htrace⟩, rfl⟩
      exact {
        ran := ⟨_ :: l, List.cons_ne_nil _ _, htrace⟩
        others := fun path _ _ _ => by rw [hfiles]
        kept := fun hb => by cases hb
        cleared := fun hb => by cases hb
        absent := fun _ hp => by cases hp
        untouched := fun _ _ => by rw [hfiles] }
    · have hgone : movedFiles before destinationPath backupPath preparedPath = none := by
        rw [movedFiles, if_neg hfresh.symm, if_neg hne, hprepared]
      have hrename : Triple (At (movedFiles before destinationPath backupPath)
          ((.rename destinationPath backupPath, false) :: l ++ trace))
          (renamePath env preparedPath destinationPath) _ _ :=
        renamePath_absent_triple destinationPath hgone
      refine Triple.bind (M := fun _ _ => False) (hrename.onState.conseq (fun _ h => h)
        (fun _ _ h => h.1) ?_) fun _ _ h => h.elim
      rintro e ⟨h, flags⟩ ⟨⟨hfiles, htrace⟩, rfl⟩
      exact {
        ran := ⟨_ :: _ :: l, List.cons_ne_nil _ _, htrace⟩
        others := fun path hd _ hb => by rw [hfiles, movedFiles, if_neg hb, if_neg hd]
        kept := fun _ => ⟨hexisted, by rw [hfiles, movedFiles, if_pos rfl]⟩
        cleared := fun _ _ => by rw [hfiles, movedFiles, if_neg hbackup.symm, if_pos rfl]
        absent := fun hb => by cases hb
        untouched := fun hb => by cases hb }

/-- Whether or not there is a prepared file, and whatever fails: the replacement returns with it in
place, or it accounts for the previous file. -/
theorem replaceDestinationWithPreparedFile_accounted {validate : HostM S Unit} {s : Host S}
    (hvalidate : Inspects validate) (hne : preparedPath ≠ destinationPath)
    (hapart : Apart s.files preparedPath destinationPath (backupPathFrom env destinationPath s)) :
    Triple (fun h => h = s)
      (replaceDestinationWithPreparedFile env preparedPath destinationPath operationName validate)
      (fun _ h => ∃ content, s.files preparedPath = some content ∧
        Replaced s.files preparedPath destinationPath (backupPathFrom env destinationPath s)
          content h)
      fun e h => OthersKept s.files preparedPath destinationPath
          (backupPathFrom env destinationPath s) h ∧
        Accounted s.files destinationPath (backupPathFrom env destinationPath s) e h := by
  have hpublish : Triple
      (fun t => At s.files ([(.exists destinationPath, false)] ++ s.trace) t.1 ∧ t.2 = {})
      (publishPreparedFile env preparedPath destinationPath (backupPathFrom env destinationPath s)
        (s.files destinationPath).isSome validate)
      (fun _ t => ∃ content, s.files preparedPath = some content ∧
        Replaced s.files preparedPath destinationPath (backupPathFrom env destinationPath s)
          content t.1)
      fun _ t => Interrupted s.files s.trace preparedPath destinationPath
        (backupPathFrom env destinationPath s) t.1 t.2 := by
    cases hprepared : s.files preparedPath with
    | none => exact (publishPreparedFile_absent_triple hne hprepared hapart).post fun _ _ h => h.elim
    | some content =>
      exact (publishPreparedFile_triple hvalidate hne hprepared hapart).post
        fun _ _ h => ⟨content, rfl, h⟩
  refine replaceDestinationWithPreparedFile_rule (F := fun flags h => Interrupted s.files s.trace
      preparedPath destinationPath (backupPathFrom env destinationPath s) h flags ∧
      (flags.destinationWasBackedUp = true →
        (.rename destinationPath (backupPathFrom env destinationPath s), false) ∈ h.trace)) hne ?_
    ((hpublish.and (publishPreparedFile_named hvalidate)).conseq (fun _ h => ⟨h, h.2⟩)
      (fun _ _ h => h.1) fun _ _ h => h) fun flags replaceError => ?_
  · intro e h hat
    refine ⟨fun path _ _ _ => by rw [hat.1], .inl ?_⟩
    rw [Unchanged, hat.1]
  · refine ((rollbackPublishedFileOrThrow_triple hapart).and rollbackPublishedFileOrThrow_named).conseq
      (fun _ h => h) (fun _ h hh e => ⟨hh.1.1, .inl hh.1.2⟩) ?_
    rintro e h ⟨⟨hothers, hcase⟩, hnamed⟩
    refine ⟨hothers, .inr ?_⟩
    rcases hnamed with ⟨message, he⟩ | hcheck
    · refine .inl ⟨message, he, fun hexisted => ?_⟩
      rcases hcase with ⟨message', backupPath', he', hleft⟩ | hstranded
      · rw [he] at he'
        injection he' with _ hbackup
        exact hbackup ▸ hleft hexisted
      · exact hstranded.left
    · exact .inr hcheck

end Accounted

/-! ### Atomicity -/

/-- What a replacement of `destinationPath` may come to: the new content and no copy of the old
one, or the old content, in place or where the exception says. -/
def AllOrNothing (env : HostEnv S) (destinationPath content : Bytes) (s : Host S) :
    EStateM.Result Thrown (Host S) Unit → Prop
  | .ok _ h => h.files destinationPath = some content ∧
      (s.files destinationPath ≠ none → h.files (backupPathFrom env destinationPath s) = none)
  | .error e h => Unchanged s.files destinationPath h ∨ NamesBackup s.files destinationPath e h

theorem apart_of_fresh {before : Bytes → Option Bytes}
    {preparedPath destinationPath backupPath content : Bytes}
    (hprepared : before preparedPath = some content)
    (hfresh : before destinationPath ≠ none → before backupPath = none) :
    Apart before preparedPath destinationPath backupPath := by
  intro hexisted
  have hnone := hfresh hexisted
  refine ⟨fun h => ?_, fun h => ?_⟩
  · rw [h] at hnone
    exact hexisted hnone
  · rw [h, hprepared] at hnone
    cases hnone

/-- Whatever fails, a replacement ends with the new content in place, or with the old content in
place or where the exception says. On success only the failed removal of the backup leaves the old
content beside it. -/
theorem replacement_allOrNothing (env : HostEnv S) {validate : HostM S Unit}
    {preparedPath destinationPath operationName content : Bytes} {s : Host S}
    (hvalidate : Inspects validate) (hne : preparedPath ≠ destinationPath)
    (hprepared : s.files preparedPath = some content)
    (hfresh : s.files destinationPath ≠ none →
      s.files (backupPathFrom env destinationPath s) = none) :
    Triple (fun h => h = s)
      (replaceDestinationWithPreparedFile env preparedPath destinationPath operationName validate)
      (fun _ h => h.files destinationPath = some content ∧
        BackupDropped s.files destinationPath (backupPathFrom env destinationPath s) h)
      fun e h => EndsInFailedCheck s.trace h ∨ Unchanged s.files destinationPath h ∨
        NamesBackup s.files destinationPath e h := by
  refine (replaceDestinationWithPreparedFile_triple hvalidate hne hprepared
    (apart_of_fresh hprepared hfresh)).conseq (fun _ h => h) ?_ ?_
  · intro _ h hreplaced
    exact ⟨hreplaced.published, hreplaced.dropped⟩
  · rintro e h ⟨_, hsame | hnamed | hstranded⟩
    · exact .inr (.inl hsame)
    · exact .inr (.inr hnamed)
    · exact .inl hstranded.check

/-- An old book at `/b` and its replacement, prepared at `/p`. -/
def sampleHost : Host Unit where
  files path := if path = ascii "/b" then some [1] else if path = ascii "/p" then some [2] else none
  sources := ()

/-- A validator that turns every file down. -/
def rejectAll : HostM Unit Unit := throw (.domain .integrityIssue (ascii "changed"))

theorem rejected_allOrNothing :
    Triple (fun h => h = sampleHost)
      (replaceDestinationWithPreparedFile {} (ascii "/p") (ascii "/b") (ascii "PrepareDownload")
        rejectAll)
      (fun _ h => h.files (ascii "/b") = some [2] ∧
        BackupDropped sampleHost.files (ascii "/b") (backupPathFrom {} (ascii "/b") sampleHost) h)
      fun e h => EndsInFailedCheck sampleHost.trace h ∨
        Unchanged sampleHost.files (ascii "/b") h ∨ NamesBackup sampleHost.files (ascii "/b") e h :=
  replacement_allOrNothing {} (fun _ _ => .throw fun _ h => ⟨[], h⟩) (by decide) (by decide)
    fun _ => by decide

/-- The removal of the backup is the fourth operation. -/
def backupStays : HostEnv Unit where
  fault n := if n = 3 then some (runtimeError "Permission denied") else none

/-- The replacement returns, and the old book is still beside the new one. -/
theorem keptBackup_not_allOrNothing :
    ¬AllOrNothing backupStays (ascii "/b") [2] sampleHost
      (replaceDestinationWithPreparedFile backupStays (ascii "/p") (ascii "/b")
        (ascii "PrepareDownload") (pure ()) sampleHost) := by
  intro h
  have hkept : sampleHost.files (ascii "/b") ≠ none := by decide
  have hnone := h.2 hkept
  revert hnone
  decide

end InpxWebReader.App
