import InpxWebReader.App.BookDownload

/-!
# What a download delivers

A download that succeeds delivers the bytes of an entry that the scan has seen: the archive that it
extracts from is one whose manifest has the fingerprint that the scan persisted, whatever the
environment does to the sources in the meantime.

A download that fails leaves the previous file at the destination, or says where it is, if no check
of the rollback fails.
-/

namespace InpxWebReader.App

open Foundation Storage Program Database Query Scan Sorting LexicalPath

variable {env : DownloadEnv} {sha : Sha256} {α : Type}

-- elaboration would evaluate a program up to the loop over the ancestors of a path
attribute [local irreducible] createDirectories

/-! ### What only reads -/

section Reading

theorem gentle_throwIfCancelled : Gentle env.toHostEnv (throwIfCancelled env) := by
  rw [throwIfCancelled]
  exact .bind .get fun _ => .require

theorem gentle_passCheckpoint (operation : Operation) :
    Gentle env.toHostEnv (passCheckpoint env operation) := by
  intro s files directories h hs
  have hlater : Later env.toHostEnv s { h with
      sources := env.drift h.trace.length h.sources
      trace := (operation, false) :: h.trace } := hs.later.step rfl rfl
  rw [passCheckpoint]
  dsimp only
  cases env.stopRequested h.trace.length <;> exact ⟨hs.files, hs.directories, hlater⟩

theorem asSnapshotMismatch_triple {c : DownloadM α} {P : Host DownloadSources → Prop}
    {Q : α → Host DownloadSources → Prop} {E : Host DownloadSources → Prop}
    (h : Triple P c Q fun _ => E) : Triple P (asSnapshotMismatch c) Q fun _ => E := by
  refine .tryCatch h fun e => ?_
  rcases e with (_ | _) | _ | _ <;> exact .throw fun _ he => he

theorem gentle_asSnapshotMismatch {c : DownloadM α} (h : Gentle env.toHostEnv c) :
    Gentle env.toHostEnv (asSnapshotMismatch c) :=
  fun s files directories => asSnapshotMismatch_triple (h s files directories)

theorem gentle_requireSnapshot {p : Prop} [Decidable p] (detail : String) :
    Gentle env.toHostEnv (requireSnapshot p detail) :=
  .ite .pure .throw

theorem gentle_describeFailure {describe : Bytes → Bytes} {c : DownloadM α}
    (h : Gentle env.toHostEnv c) : Gentle env.toHostEnv (describeFailure describe c) :=
  .tryCatch h fun _ => .throw

theorem gentle_computeSourceFingerprint (inpxPath : Bytes) :
    Gentle env.toHostEnv (computeSourceFingerprint env sha inpxPath) := by
  rw [computeSourceFingerprint]
  refine .bind (gentle_passCheckpoint _).adaptExcept fun _ => .bind (.perform ?_) fun stream => ?_
  · intro h stream h' hact
    split at hact
    · cases hact
    · injection hact with hact
      injection hact with _ hh
      exact hh.symm
  · refine .bind (Gentle.forM fun _ => gentle_passCheckpoint _).adaptExcept fun _ => ?_
    exact .bind .require fun _ => .pure

theorem gentle_validateInpxSourceFingerprint (source : BookDownloadSource)
    (locator : InpxDownloadSource) :
    Gentle env.toHostEnv (validateInpxSourceFingerprint env sha source locator) :=
  gentle_asSnapshotMismatch
    (.bind (gentle_computeSourceFingerprint _) fun _ => gentle_requireSnapshot _)

theorem gentle_askTree (operation : Operation) (ask : FileTree Bytes → Except Failure α) :
    Gentle env.toHostEnv (askTree env operation ask) := by
  refine .perform fun h a h' hact => ?_
  cases hask : ask h.sources.tree with
  | error failure =>
    rw [hask] at hact
    cases hact
  | ok b =>
    rw [hask] at hact
    injection hact with hact
    injection hact with _ hh
    exact hh.symm

theorem gentle_canonicalizeArchivePath (path : NamePath Bytes) :
    Gentle env.toHostEnv (canonicalizeArchivePath env path) :=
  gentle_describeFailure (gentle_askTree _ _)

theorem gentle_resolvePersistedInpxArchivePath (archiveRoot relativeArchivePath : Bytes) :
    Gentle env.toHostEnv
      (resolvePersistedInpxArchivePath env archiveRoot relativeArchivePath) := by
  rw [resolvePersistedInpxArchivePath]
  refine .bind .require fun _ => .bind (gentle_canonicalizeArchivePath _) fun canonicalRoot => ?_
  refine .bind .ofExcept fun candidatePath => .bind (gentle_canonicalizeArchivePath _) fun _ => ?_
  refine .bind .require fun _ => .bind (gentle_askTree _ _) fun there => .bind .require fun _ => ?_
  refine .bind (.tryCatch (gentle_askTree _ _) fun _ => .pure) fun regular => ?_
  exact .bind .require fun _ => .pure

end Reading

/-! ### Accepted archives -/

/-- The environment shows the archive at some moment of a run from `s`. -/
def DownloadEnv.Shows (env : DownloadEnv) (s : Host DownloadSources) (archive : ZipArchive) : Prop :=
  ∃ n location file, (env.sourcesAfter s n).archives location = some file ∧
    file.archive = .ok archive

/-- An archive that passes the checks of `OpenValidatedArchiveSnapshot`. -/
structure Accepted (env : DownloadEnv) (s : Host DownloadSources) (sha : Sha256)
    (locator : InpxDownloadSource) (archive : ZipArchive) : Prop where
  shown : env.Shows s archive
  fingerprint : sha.computeBytes archive.hashedText = locator.archiveManifestFingerprint
  entry : ∃ entry stat, locateEntry archive locator.entryName = .ok (entry, stat) ∧
    stat.size = locator.entrySizeBytes

section Accepting

theorem mapError_eq_ok {ε ε' β : Type} {f : ε → ε'} {x : Except ε β} {b : β}
    (h : x.mapError f = .ok b) : x = .ok b := by
  cases x with
  | error e => cases h
  | ok a =>
    injection h with h
    rw [h]

variable {s : Host DownloadSources} {files : Bytes → Option Bytes} {directories : Bytes → Prop}
variable {locator : InpxDownloadSource}

theorem openArchive_settled (location : List Bytes) :
    Triple (Settled env.toHostEnv s files directories) (openArchive env location)
      (fun opened h => env.Shows s opened.2 ∧ Settled env.toHostEnv s files directories h)
      fun _ => Settled env.toHostEnv s files directories := by
  refine perform_settled (D := fun _ => directories)
    fun h opened h' hfiles hdirectories hsources hact => ?_
  split at hact
  · cases hact
  · next file hfile =>
    obtain ⟨state, hstate, hact⟩ := except_bind_eq_ok hact
    obtain ⟨archive, harchive, hact⟩ := except_bind_eq_ok hact
    injection hact with hact
    injection hact with hopened hh
    subst hopened hh
    obtain ⟨n, hn⟩ := hsources
    exact ⟨hfiles, rfl, ⟨n, location, file, hn ▸ hfile, harchive⟩, hdirectories⟩

theorem computeManifestFingerprint_settled (maxArchiveManifestMemoryBytes : Nat)
    (archive : ZipArchive) :
    Triple (Settled env.toHostEnv s files directories)
      (computeManifestFingerprint env sha maxArchiveManifestMemoryBytes archive)
      (fun fingerprint h => fingerprint = sha.computeBytes archive.hashedText ∧
        Settled env.toHostEnv s files directories h)
      fun _ => Settled env.toHostEnv s files directories := by
  have hkeeps := readManifest_keeps (E := fun _ => Settled env.toHostEnv s files directories)
    (gentle_passCheckpoint .readArchive s files directories) (fun _ _ hs => hs) sha
    (env.sortComparisons archive) false maxArchiveManifestMemoryBytes archive
  have hreturns : Returns (readManifest (passCheckpoint env .readArchive) sha
      (env.sortComparisons archive) false maxArchiveManifestMemoryBytes archive) _ :=
    readManifest_returns sha _ false _ archive
  rw [computeManifestFingerprint]
  refine Triple.bind (.adaptExcept ((hkeeps.and hreturns).conseq (fun _ hs => ⟨hs, trivial⟩)
    (fun _ _ h => h) fun _ _ h => h.1)) fun manifest => ?_
  exact .pure fun h hs => ⟨hs.2.2, hs.1⟩

theorem requireSnapshot_triple {p : Prop} [Decidable p] {detail : String}
    {P : Host DownloadSources → Prop} :
    Triple P (requireSnapshot p detail) (fun _ h => p ∧ P h) fun _ => P :=
  .ite (fun hp => .pure fun _ h => ⟨hp, h⟩) fun _ => .throw fun _ h => h

/-- An archive that was opened and validated is accepted. -/
theorem openValidatedArchiveSnapshot_settled (source : BookDownloadSource)
    (maxArchiveManifestMemoryBytes : Nat) :
    Triple (Settled env.toHostEnv s files directories)
      (openValidatedArchiveSnapshot env sha source locator maxArchiveManifestMemoryBytes)
      (fun archive h => Accepted env s sha locator archive ∧
        Settled env.toHostEnv s files directories h)
      fun _ => Settled env.toHostEnv s files directories := by
  refine asSnapshotMismatch_triple ?_
  refine Triple.bind (gentle_resolvePersistedInpxArchivePath _ _ s files directories)
    fun archivePath => ?_
  refine (openArchive_settled archivePath).bind fun opened => .of_pure fun hshown => ?_
  obtain ⟨currentState, archive⟩ := opened
  refine requireSnapshot_triple.bind fun _ => .of_pure fun _ => ?_
  refine (computeManifestFingerprint_settled _ archive).bind fun fingerprint =>
    .of_pure fun hfingerprint => ?_
  refine requireSnapshot_triple.bind fun _ => .of_pure fun hmatches => ?_
  refine Triple.bind (M := fun size h => readEntrySize archive locator.entryName = .ok size ∧
    Settled env.toHostEnv s files directories h) (.ofExcept ?_ fun _ _ _ hs => hs) fun size =>
      .of_pure fun hsize => ?_
  · intro size h hread hs
    exact ⟨mapError_eq_ok hread, hs⟩
  · refine requireSnapshot_triple.bind fun _ => .of_pure fun hsame => .pure fun h hs => ⟨?_, hs⟩
    rw [readEntrySize] at hsize
    cases hlocate : locateEntry archive locator.entryName with
    | error e =>
      rw [hlocate] at hsize
      cases hsize
    | ok located =>
      rw [hlocate] at hsize
      injection hsize with hsize
      exact ⟨hshown, hfingerprint.symm.trans hmatches, located.1, located.2, hlocate, hsize.trans hsame⟩

theorem gentle_openValidatedArchiveSnapshot (source : BookDownloadSource)
    (locator : InpxDownloadSource) (maxArchiveManifestMemoryBytes : Nat) :
    Gentle env.toHostEnv
      (openValidatedArchiveSnapshot env sha source locator maxArchiveManifestMemoryBytes) :=
  fun _ _ _ => (openValidatedArchiveSnapshot_settled source maxArchiveManifestMemoryBytes).post
    fun _ _ hs => hs.2

theorem gentle_validateDownloadSnapshot (source : BookDownloadSource)
    (locator : InpxDownloadSource) (maxArchiveManifestMemoryBytes : Nat) :
    Gentle env.toHostEnv
      (validateDownloadSnapshot env sha source locator maxArchiveManifestMemoryBytes) := by
  rw [validateDownloadSnapshot]
  refine .bind (gentle_validateInpxSourceFingerprint _ _) fun _ => ?_
  exact .bind (gentle_openValidatedArchiveSnapshot _ _ _) fun _ => .pure

end Accepting

/-! ### Extracting -/

/-- The first reads of an opened entry give these bytes. -/
def ZipStream.Gives (stream : ZipStream) (bytes : Bytes) : Prop :=
  ∃ (chunks : List Bytes) (rest : List (Option Bytes)),
    stream.reads = chunks.map some ++ rest ∧ chunks.flatten = bytes

section Extracting

variable {path destinationPath : Bytes} {previous : Option Bytes}

theorem gentle_createDirectories (path : Bytes) :
    Gentle env.toHostEnv (createDirectories env.toHostEnv path) :=
  fun _ _ _ => (createDirectories_settled path).post fun _ _ hs => hs.mono fun _ hother => .inl hother

theorem createOutput_triple (hne : destinationPath ≠ path) :
    Triple (fun h => h.files destinationPath = previous) (createOutput env path)
      (fun _ h => h.files path = some [] ∧ h.files destinationPath = previous)
      fun _ h => h.files destinationPath = previous := by
  refine describeFailure_triple (perform_triple ?_ fun _ _ _ hp => hp)
  intro h sources _ h' hp hact
  split at hact
  · cases hact
  · injection hact with hact
    injection hact with _ hh
    subst hh
    exact ⟨if_pos rfl, (if_neg hne).trans hp⟩

theorem writeOutput_triple (hne : destinationPath ≠ path) (written bytes : Bytes) :
    Triple (fun h => h.files path = some written ∧ h.files destinationPath = previous)
      (writeOutput env path bytes)
      (fun _ h => h.files path = some (written ++ bytes) ∧ h.files destinationPath = previous)
      fun _ h => h.files destinationPath = previous := by
  refine describeFailure_triple (perform_triple ?_ fun _ _ _ hp => hp.2)
  intro h sources _ h' hp hact
  injection hact with hact
  injection hact with _ hh
  subst hh
  refine ⟨(if_pos rfl).trans ?_, (if_neg hne).trans hp.2⟩
  rw [hp.1, Option.getD_some]

/-- The loop writes what it reads, and ends when it has read the size. -/
theorem extractChunks_triple (hne : destinationPath ≠ path) (reads : List (Option Bytes))
    (fuel remainingBytes : Nat) (written : Bytes) :
    Triple (fun h => h.files path = some written ∧ h.files destinationPath = previous)
      (extractChunks env path reads fuel remainingBytes)
      (fun _ h => ∃ (chunks : List Bytes) (rest : List (Option Bytes)),
        reads = chunks.map some ++ rest ∧ chunks.flatten.length = remainingBytes ∧
        h.files path = some (written ++ chunks.flatten) ∧ h.files destinationPath = previous)
      fun _ h => h.files destinationPath = previous := by
  have hstop : ∀ written : Bytes,
      Triple (fun h => h.files path = some written ∧ h.files destinationPath = previous)
        (throwIfCancelled env) (fun _ h => h.files path = some written ∧
          h.files destinationPath = previous) fun _ h => h.files destinationPath = previous :=
    fun written => (gentle_throwIfCancelled.files fun files => files path = some written ∧
      files destinationPath = previous).error fun _ _ h => h.2
  fun_induction extractChunks env path reads fuel remainingBytes generalizing written with
  | case1 reads fuel =>
    refine .pure fun h hp => ⟨[], reads, rfl, rfl, ?_, hp.2⟩
    rw [List.flatten_nil, List.append_nil]
    exact hp.1
  | case2 bytes reads fuel remainingBytes _ ih =>
    refine (hstop written).bind fun _ => ?_
    refine Triple.bind (M := fun _ h => bytes.length ≤ remainingBytes ∧
      h.files path = some written ∧ h.files destinationPath = previous)
      (.require (fun h hp hr => ⟨hr.2.trans (Nat.min_le_right _ _), hp⟩) fun h hp _ => hp.2)
      fun _ => .of_pure fun hle => ?_
    refine (writeOutput_triple hne written bytes).bind fun _ => ?_
    refine (ih _).post fun _ h hdone => ?_
    obtain ⟨chunks, rest, hreads, hlength, hfile, hkept⟩ := hdone
    refine ⟨bytes :: chunks, rest, by rw [hreads]; rfl, ?_, ?_, hkept⟩
    · rw [List.flatten_cons, List.length_append, hlength]
      omega
    · rw [List.flatten_cons, ← List.append_assoc]
      exact hfile
  | case3 => exact (hstop written).bind fun _ => .throw fun h hp => hp.2

/-- The name of an extracted file, and that of its sibling. -/
theorem sourceName_facts (format : BookFormat) :
    slash ∉ ascii "source." ++ formatText format ∧
      (stemAndExtension (ascii "source." ++ formatText format)).2.getLast? ≠ some 112 ∧
      (stemAndExtension (ascii "source." ++ formatText format)).2 ≠ [] := by
  cases format <;> decide

theorem siblingName_ne_backupName {name : Bytes}
    (hlast : (stemAndExtension name).2.getLast? ≠ some 112) (hne : (stemAndExtension name).2 ≠ [])
    (c q c' q' : Nat) : backupName name c' q' ≠ siblingName name c q := by
  intro h
  have hends := congrArg List.getLast? h
  rw [getLast?_backupName, siblingName, List.getLast?_append] at hends
  cases hextension : (stemAndExtension name).2.getLast? with
  | none => exact hne (List.getLast?_eq_none_iff.mp hextension)
  | some b =>
    rw [hextension, Option.some_or] at hends
    exact hlast (hextension.trans hends.symm)

/-- What is extracted is in a directory of its own, and the destination is not below it. -/
theorem extractStream_triple {stream : ZipStream} {size clockValue sequence : Nat}
    {directory name : Bytes} (hname : slash ∉ name)
    (hlast : (stemAndExtension name).2.getLast? ≠ some 112) (hne : (stemAndExtension name).2 ≠ [])
    (hdestination : destinationPath ≠ []) (hbelow : ¬Below directory destinationPath) :
    Triple (fun h => h.files destinationPath = previous)
      (extractStream env stream size (child directory (siblingName name clockValue sequence))
        (child directory name))
      (fun _ h => ∃ bytes, stream.Gives bytes ∧ bytes.length = size ∧
        stream.endsAsDeclared = true ∧ h.files (child directory name) = some bytes ∧
        h.files destinationPath = previous)
      fun _ h => h.files destinationPath = previous := by
  have hother : ∀ name, destinationPath ≠ child directory name :=
    fun name => ne_child_of_not_below hbelow
  rw [extractStream]
  refine ((gentle_createDirectories _).files fun files => files destinationPath = previous).bind
    fun _ => ?_
  refine (createOutput_triple (hother _)).bind fun _ => ?_
  refine (extractChunks_triple (hother _) stream.reads size size []).bind fun _ => ?_
  refine Triple.bind (M := fun _ h => stream.endsAsDeclared = true ∧
    ∃ bytes, (stream.Gives bytes ∧ bytes.length = size) ∧
      h.files (child directory (siblingName name clockValue sequence)) = some bytes ∧
      h.files destinationPath = previous) (.require ?_ fun h hp _ => ?_) fun _ =>
    .of_pure fun hends => .of_exists fun bytes => .of_pure fun hbytes => ?_
  · rintro h ⟨chunks, rest, hreads, hlength, hfile, hkept⟩ hends
    exact ⟨hends, chunks.flatten, ⟨⟨chunks, rest, hreads, rfl⟩, hlength⟩, hfile, hkept⟩
  · obtain ⟨_, _, _, _, _, hkept⟩ := hp
    exact hkept
  refine Triple.bind (.require (fun _ hp _ => hp) fun _ hp _ => hp.2) fun _ => ?_
  have hclose : Gentle env.toHostEnv
      (closeOutput env (child directory (siblingName name clockValue sequence))) := by
    refine gentle_describeFailure (.perform fun h _ h' hact => ?_)
    injection hact with hact
    injection hact with _ hh
    exact hh.symm
  refine Triple.bind ((hclose.files fun files =>
    files (child directory (siblingName name clockValue sequence)) = some bytes ∧
      files destinationPath = previous).error fun _ _ hp => hp.2) fun _ => ?_
  -- the extracted file takes its place
  refine .of_state fun s hs => ?_
  have hsibling : child directory (siblingName name clockValue sequence) ≠ child directory name := by
    intro h
    have hlt := length_lt_length_siblingName name clockValue sequence
    rw [child_inj h] at hlt
    exact lt_irrefl _ hlt
  have hapart : Apart s.files (child directory (siblingName name clockValue sequence))
      (child directory name) (backupPathFrom env.toHostEnv (child directory name) s) := by
    intro hexisted
    rcases backupPathFrom_child env.toHostEnv s hname with ⟨-, hnone⟩ | ⟨c, q, hbackup⟩
    · exact absurd hnone hexisted
    · rw [hbackup]
      refine ⟨fun h => ?_, fun h => siblingName_ne_backupName hlast hne _ _ _ _ (child_inj h)⟩
      have hlt := length_lt_length_backupName name c q
      rw [child_inj h] at hlt
      exact lt_irrefl _ hlt
  have hbackup : destinationPath ≠ backupPathFrom env.toHostEnv (child directory name) s := by
    rcases backupPathFrom_child env.toHostEnv s hname with ⟨hnil, -⟩ | ⟨c, q, hbackup⟩
    · rw [hnil]
      exact hdestination
    · rw [hbackup]
      exact hother _
  refine (replaceDestinationWithPreparedFile_triple (fun _ _ => .pure fun _ h => ⟨[], h⟩) hsibling
    hs.1 hapart).conseq (fun _ h => h) ?_ ?_
  · intro _ h hreplaced
    refine ⟨bytes, hbytes.1, hbytes.2, hends, hreplaced.published, ?_⟩
    exact (hreplaced.others _ (hother _) (hother _) hbackup).trans hs.2
  · intro e h hfailed
    exact (hfailed.1 _ (hother _) (hother _) hbackup).trans hs.2

theorem buildSiblingTemporaryPath_triple {directory name : Bytes} (hname : slash ∉ name)
    {E : Thrown → Host DownloadSources → Prop} :
    Triple (fun h => h.files destinationPath = previous)
      (buildSiblingTemporaryPath env.toHostEnv (child directory name))
      (fun preparedPath h => (∃ clockValue sequence, preparedPath =
        child directory (siblingName name clockValue sequence)) ∧ h.files destinationPath = previous)
      E := by
  intro h hp
  exact ⟨⟨env.clock h.trace.length, h.sequence, siblingTemporaryPath_child hname _ _⟩, hp⟩

theorem openEntry_triple (entry : DirectoryEntry) :
    Triple (fun h => h.files destinationPath = previous) (openEntry env entry)
      (fun stream h => (∃ n, env.openEntry n entry = some stream) ∧
        h.files destinationPath = previous)
      fun _ h => h.files destinationPath = previous := by
  refine perform_triple ?_ fun _ _ _ hp => hp
  intro h sources stream h' hp hact
  split at hact
  · next opened hopened =>
    injection hact with hact
    injection hact with hstream hh
    subst hstream hh
    exact ⟨⟨_, hopened⟩, hp⟩
  · cases hact

theorem removePath_files (hne : destinationPath ≠ path) :
    Triple (fun h => h.files destinationPath = previous)
      (attempt (removePath env.toHostEnv path))
      (fun _ h => h.files destinationPath = previous)
      fun _ h => h.files destinationPath = previous := by
  refine attempt_triple (perform_triple ?_ fun _ _ _ hp => hp)
  intro h sources _ h' hp hact
  injection hact with hact
  injection hact with _ hh
  subst hh
  exact (if_neg hne).trans hp

/-- Extracting an opened entry next to the path that it is for, and moving it there. -/
theorem scopedExtractStream_triple {stream : ZipStream} {size : Nat} {directory name : Bytes}
    (hname : slash ∉ name) (hlast : (stemAndExtension name).2.getLast? ≠ some 112)
    (hne : (stemAndExtension name).2 ≠ []) (hdestination : destinationPath ≠ [])
    (hbelow : ¬Below directory destinationPath) :
    Triple (fun h => h.files destinationPath = previous)
      (do
        let preparedPath ← buildSiblingTemporaryPath env.toHostEnv (child directory name)
        scopedPathCleanup env.toHostEnv preparedPath
          (extractStream env stream size preparedPath (child directory name)))
      (fun _ h => ∃ bytes, stream.Gives bytes ∧ bytes.length = size ∧
        stream.endsAsDeclared = true ∧ h.files (child directory name) = some bytes ∧
        h.files destinationPath = previous)
      fun _ h => h.files destinationPath = previous := by
  refine Triple.bind (buildSiblingTemporaryPath_triple hname) fun preparedPath => ?_
  refine Triple.of_pure fun hprepared => ?_
  obtain ⟨clockValue, sequence, rfl⟩ := hprepared
  refine .tryCatch (extractStream_triple hname hlast hne hdestination hbelow) fun e => ?_
  exact (removePath_files (ne_child_of_not_below hbelow)).bind fun _ => .throw fun _ hp => hp

/-- An extraction gives the bytes of the located entry. -/
theorem extractEntryToPath_triple {archive : ZipArchive} {entryName directory name : Bytes}
    (hname : slash ∉ name) (hlast : (stemAndExtension name).2.getLast? ≠ some 112)
    (hne : (stemAndExtension name).2 ≠ []) (hdestination : destinationPath ≠ [])
    (hbelow : ¬Below directory destinationPath) :
    Triple (fun h => h.files destinationPath = previous)
      (extractEntryToPath env archive entryName (child directory name))
      (fun _ h => ∃ bytes, (∃ n entry stat stream, locateEntry archive entryName = .ok (entry, stat) ∧
          env.openEntry n entry = some stream ∧ stream.Gives bytes ∧ bytes.length = stat.size ∧
          stream.endsAsDeclared = true) ∧
        h.files (child directory name) = some bytes ∧ h.files destinationPath = previous)
      fun _ h => h.files destinationPath = previous := by
  rw [extractEntryToPath]
  refine Triple.bind (M := fun located h => locateEntry archive entryName = .ok located ∧
    h.files destinationPath = previous) (.ofExcept ?_ fun _ _ _ hp => hp) fun located =>
    .of_pure fun hlocated => ?_
  · intro located h hread hp
    exact ⟨mapError_eq_ok hread, hp⟩
  obtain ⟨entry, stat⟩ := located
  refine Triple.bind (openEntry_triple entry) fun stream h hp => ?_
  obtain ⟨⟨n, hopened⟩, hkept⟩ := hp
  refine (scopedExtractStream_triple hname hlast hne hdestination hbelow).post ?_ h hkept
  rintro _ h ⟨bytes, hgives, hlength, hends, hfile, hkept⟩
  exact ⟨bytes, ⟨n, entry, stat, stream, hlocated, hopened, hgives, hlength, hends⟩, hfile, hkept⟩

end Extracting

/-! ### Publishing -/

/-- What a download that threw says of the previous file at its destination. The backup that the
exception names is a sibling of the destination. -/
def FailureKept (before : Bytes → Option Bytes) (destinationPath : Bytes) (e : Thrown)
    (h : Host DownloadSources) : Prop :=
  Unchanged before destinationPath h ∨
    (∃ message backupPath, e = .restore message backupPath destinationPath ∧
      (before destinationPath ≠ none →
        (∃ clockValue sequence, backupPath = child (parentPath destinationPath)
          (backupName (fileNameOf destinationPath) clockValue sequence)) ∧
        h.files backupPath = before destinationPath)) ∨
    ¬ChecksAnswer destinationPath h.trace

/-- The converter took a file with these bytes, returned, and left this at the prepared path. -/
def Converted (env : DownloadEnv) (bytes : Bytes) (result : ConversionResult)
    (content : Option Bytes) : Prop :=
  ∃ n sourcePath preparedPath files after, files sourcePath = some bytes ∧
    env.convert n sourcePath preparedPath files = (.ok result, after) ∧ after preparedPath = content

/-- The file at the destination is the entry, or what the converter made of it. -/
def Delivered (env : DownloadEnv) (converted : Bool) (bytes : Bytes) (content : Option Bytes) :
    Prop :=
  content ≠ none ∧
    if converted then ∃ result, Converted env bytes result content ∧ result.status = .succeeded
    else content = some bytes

/-- A converter leaves a destination alone that is not in the directory of the file it makes. -/
def DownloadEnv.ConvertsInPlace (env : DownloadEnv) (destinationPath : Bytes) : Prop :=
  ∀ n sourcePath preparedPath files, ¬Below (parentPath preparedPath) destinationPath →
    (env.convert n sourcePath preparedPath files).2 destinationPath = files destinationPath

/-- A directory that neither is the destination or one of its backups nor holds them. -/
structure Clear (directory destinationPath : Bytes) : Prop where
  ne : destinationPath ≠ directory
  below : ¬Below directory (child (parentPath destinationPath) [])
  backup : ∀ clockValue sequence, child (parentPath destinationPath)
    (backupName (fileNameOf destinationPath) clockValue sequence) ≠ directory

section Publishing

variable {destinationPath workspace sourcePath preparedPath : Bytes} {previous : Option Bytes}
variable {before : Bytes → Option Bytes} {validate : DownloadM Unit}

theorem Clear.not_below (hclear : Clear workspace destinationPath)
    (habsolute : destinationPath.head? = some slash) : ¬Below workspace destinationPath := by
  obtain ⟨hpath, hname⟩ := child_parentPath habsolute
  intro h
  rw [hpath, below_child_iff hname] at h
  exact hclear.below h

/-- The cleanup of a clear directory does not touch the previous file. -/
theorem FailureKept.removeAll {e : Thrown} {h : Host DownloadSources}
    (hkept : FailureKept before destinationPath e h) (hclear : Clear workspace destinationPath)
    (habsolute : destinationPath.head? = some slash) :
    FailureKept before destinationPath e (removeAll env.toWorkspaceEnv workspace h) := by
  obtain ⟨-, hname⟩ := child_parentPath habsolute
  rcases hkept with hsame | ⟨message, backupPath, he, hbackup⟩ | hchecks
  · refine .inl ?_
    rw [Unchanged, removeAll_files hclear.ne (hclear.not_below habsolute)]
    exact hsame
  · refine .inr (.inl ⟨message, backupPath, he, fun hexisted => ?_⟩)
    obtain ⟨⟨c, q, rfl⟩, hleft⟩ := hbackup hexisted
    refine ⟨⟨c, q, rfl⟩, ?_⟩
    rw [removeAll_files (hclear.backup c q)]
    · exact hleft
    · rw [below_child_iff (slash_notMem_backupName hname c q)]
      exact hclear.below
  · exact .inr (.inr fun hall => hchecks hall.of_cons)

theorem moveFileWithCopyFallback_triple {bytes : Bytes} (hsource : destinationPath ≠ sourcePath)
    (hprepared : destinationPath ≠ preparedPath) (hne : preparedPath ≠ sourcePath) :
    Triple (fun h : Host DownloadSources => h.files sourcePath = some bytes ∧
        h.files destinationPath = previous)
      (moveFileWithCopyFallback env.toHostEnv sourcePath preparedPath)
      (fun _ h => h.files preparedPath = some bytes ∧ h.files destinationPath = previous)
      fun _ h => h.files destinationPath = previous := by
  have hrename : Triple (fun h : Host DownloadSources => h.files sourcePath = some bytes ∧
      h.files destinationPath = previous) (renamePath env.toHostEnv sourcePath preparedPath)
      (fun _ h => h.files preparedPath = some bytes ∧ h.files destinationPath = previous)
      fun _ h => h.files sourcePath = some bytes ∧ h.files destinationPath = previous := by
    refine perform_triple ?_ fun _ _ _ hp => hp
    intro h sources _ h' hp hact
    split at hact
    · cases hact
    · injection hact with hact
      injection hact with _ hh
      subst hh
      exact ⟨(if_pos rfl).trans hp.1, (if_neg hprepared).trans ((if_neg hsource).trans hp.2)⟩
  have hcopy : Triple (fun h : Host DownloadSources => h.files sourcePath = some bytes ∧
      h.files destinationPath = previous) (copyFile env.toHostEnv sourcePath preparedPath)
      (fun _ h => h.files preparedPath = some bytes ∧ h.files destinationPath = previous)
      fun _ h => h.files destinationPath = previous := by
    refine perform_triple ?_ fun _ _ _ hp => hp.2
    intro h sources _ h' hp hact
    dsimp only at hact
    rw [hp.1] at hact
    injection hact with hact
    injection hact with _ hh
    subst hh
    exact ⟨if_pos rfl, (if_neg hprepared).trans hp.2⟩
  have hremove : Triple (fun h : Host DownloadSources => h.files preparedPath = some bytes ∧
      h.files destinationPath = previous) (removePath env.toHostEnv sourcePath)
      (fun _ h => h.files preparedPath = some bytes ∧ h.files destinationPath = previous)
      fun _ h => h.files preparedPath = some bytes ∧ h.files destinationPath = previous := by
    refine perform_triple ?_ fun _ _ _ hp => hp
    intro h sources _ h' hp hact
    injection hact with hact
    injection hact with _ hh
    subst hh
    exact ⟨(if_neg hne).trans hp.1, (if_neg hsource).trans hp.2⟩
  have hensure : Gentle env.toHostEnv
      (ensureDirectory env.toHostEnv (parentPath preparedPath)) :=
    gentle_describeFailure (gentle_createDirectories _)
  rw [moveFileWithCopyFallback]
  refine Triple.bind (M := fun r h => (r = none → h.files preparedPath = some bytes) ∧
    (r ≠ none → h.files sourcePath = some bytes) ∧ h.files destinationPath = previous)
    (attempt_triple (hrename.conseq (fun _ hp => hp)
      (fun _ _ hp => ⟨fun _ => hp.1, fun hr => absurd rfl hr, hp.2⟩)
      fun _ _ hp => ⟨fun hr => (by cases hr), fun _ => hp.1, hp.2⟩)) fun r => ?_
  cases r with
  | none => exact .pure fun _ hp => ⟨hp.1 rfl, hp.2.2⟩
  | some renameError =>
    refine Triple.pre (R := fun h : Host DownloadSources => h.files sourcePath = some bytes ∧
      h.files destinationPath = previous) ?_ fun _ hp => ⟨hp.2.1 (by simp), hp.2.2⟩
    refine Triple.bind ((hensure.files fun files => files sourcePath = some bytes ∧
      files destinationPath = previous).error fun _ _ hp => hp.2) fun _ => ?_
    refine Triple.bind (M := fun r h => (r = none → h.files preparedPath = some bytes) ∧
      h.files destinationPath = previous) (attempt_triple (hcopy.conseq (fun _ hp => hp)
        (fun _ _ hp => ⟨fun _ => hp.1, hp.2⟩) fun _ _ hp => ⟨fun hr => (by cases hr), hp⟩))
      fun r => ?_
    cases r with
    | some copyError => exact .throw fun _ hp => hp.2
    | none =>
      refine Triple.bind (M := fun _ h => h.files preparedPath = some bytes ∧
        h.files destinationPath = previous) (attempt_triple (hremove.pre fun _ hp =>
          ⟨hp.1 rfl, hp.2⟩)) fun _ => .pure fun _ hp => hp

/-- The publication workspace lies beside the destination, and the prepared file in it. -/
theorem prepared_facts (habsolute : destinationPath.head? = some slash) {name : Bytes}
    (hworkspace : workspace = child (parentPath destinationPath) name) :
    destinationPath ≠ child workspace (fileNameOf destinationPath) ∧
      ∀ clockValue sequence, child (parentPath destinationPath)
        (backupName (fileNameOf destinationPath) clockValue sequence) ≠
          child workspace (fileNameOf destinationPath) := by
  obtain ⟨hpath, hname⟩ := child_parentPath habsolute
  have hbelow : ∀ other, slash ∉ other →
      ¬Below workspace (child (parentPath destinationPath) other) := by
    intro other hother
    rw [below_child_iff hother, hworkspace]
    exact not_below_child_child
  constructor
  · have hdestination := hbelow _ hname
    rw [← hpath] at hdestination
    exact ne_child_of_not_below hdestination
  · exact fun c q => ne_child_of_not_below (hbelow _ (slash_notMem_backupName hname c q))

/-- The end of both ways to publish: what was prepared takes the place of the previous file. -/
theorem publishPrepared_triple (hvalidate : Gentle env.toHostEnv validate)
    (habsolute : destinationPath.head? = some slash) (hne : preparedPath ≠ destinationPath)
    (hbackup : ∀ clockValue sequence, child (parentPath destinationPath)
      (backupName (fileNameOf destinationPath) clockValue sequence) ≠ preparedPath)
    {content : Option Bytes} :
    Triple (fun h => h.files preparedPath = content ∧
        h.files destinationPath = before destinationPath)
      (do
        throwIfCancelled env
        validate
        replaceDestinationWithPreparedFile env.toHostEnv preparedPath destinationPath
          (ascii "PrepareDownload") do
            throwIfCancelled env
            validate)
      (fun _ h => h.files destinationPath ≠ none ∧ h.files destinationPath = content)
      (FailureKept before destinationPath) := by
  obtain ⟨hpath, hname⟩ := child_parentPath habsolute
  have hkeep : ∀ {c : DownloadM Unit}, Gentle env.toHostEnv c →
      Triple (fun h => h.files preparedPath = content ∧
        h.files destinationPath = before destinationPath) c
        (fun _ h => h.files preparedPath = content ∧
          h.files destinationPath = before destinationPath)
        (FailureKept before destinationPath) :=
    fun hc => (hc.files fun files => files preparedPath = content ∧
      files destinationPath = before destinationPath).error fun _ _ hp => .inl hp.2
  refine (hkeep gentle_throwIfCancelled).bind fun _ => (hkeep hvalidate).bind fun _ => ?_
  refine .of_state fun s hs => ?_
  have hbackupPath : s.files destinationPath ≠ none → ∃ clockValue sequence,
      backupPathFrom env.toHostEnv destinationPath s = child (parentPath destinationPath)
        (backupName (fileNameOf destinationPath) clockValue sequence) := by
    intro hexisted
    have hcase : backupPathFrom env.toHostEnv (child (parentPath destinationPath) _) s = [] ∧ _ ∨ _ :=
      backupPathFrom_child env.toHostEnv s hname
    rw [← hpath] at hcase
    exact hcase.resolve_left fun h => hexisted h.2
  have hapart : Apart s.files preparedPath destinationPath
      (backupPathFrom env.toHostEnv destinationPath s) := by
    intro hexisted
    obtain ⟨c, q, hb⟩ := hbackupPath hexisted
    rw [hb]
    refine ⟨fun h => ?_, hbackup c q⟩
    have hlt := length_lt_length_backupName (fileNameOf destinationPath) c q
    rw [child_inj (h.trans hpath)] at hlt
    exact lt_irrefl _ hlt
  refine (replaceDestinationWithPreparedFile_accounted
    (Gentle.bind gentle_throwIfCancelled fun _ => hvalidate).inspects hne hapart).conseq
    (fun _ h => h) ?_ ?_
  · rintro _ h ⟨bytes, hbytes, hreplaced⟩
    rw [hreplaced.published, ← hs.1, hbytes]
    exact ⟨Option.some_ne_none _, rfl⟩
  · rintro e h ⟨-, hsame | ⟨message, he, hleft⟩ | hchecks⟩
    · exact .inl (hsame.trans hs.2)
    · refine .inr (.inl ⟨message, _, he, fun hexisted => ?_⟩)
      rw [← hs.2] at hexisted ⊢
      exact ⟨hbackupPath hexisted, hleft hexisted⟩
    · exact .inr (.inr hchecks)

theorem runConverter_triple (hconvert : env.ConvertsInPlace destinationPath)
    (hbelow : ¬Below (parentPath preparedPath) destinationPath) {bytes : Bytes} :
    Triple (fun h => h.files sourcePath = some bytes ∧ h.files destinationPath = previous)
      (runConverter env sourcePath preparedPath)
      (fun result h => ∃ content, Converted env bytes result content ∧
        h.files preparedPath = content ∧ h.files destinationPath = previous)
      fun _ h => h.files destinationPath = previous := by
  rw [runConverter]
  refine Triple.bind (M := fun answer h => (∃ n files, files sourcePath = some bytes ∧
    env.convert n sourcePath preparedPath files = (answer, h.files)) ∧
      h.files destinationPath = previous) (perform_triple ?_ fun _ _ _ hp => hp.2) fun answer => ?_
  · intro h sources answer h' hp hact
    injection hact with hact
    injection hact with hanswer hh
    subst hanswer hh
    refine ⟨⟨h.trace.length, h.files, hp.1, rfl⟩, ?_⟩
    exact (hconvert _ _ _ _ hbelow).trans hp.2
  · refine .ofExcept ?_ fun _ _ _ hp => hp.2
    rintro result h hresult ⟨⟨n, files, hbytes, hconverted⟩, hkept⟩
    rw [mapError_eq_ok hresult] at hconverted
    exact ⟨_, ⟨n, sourcePath, preparedPath, files, h.files, hbytes, hconverted, rfl⟩, rfl, hkept⟩

theorem requireConverted_triple {result : ConversionResult} {P : Host DownloadSources → Prop} :
    Triple P (requireConverted result preparedPath)
      (fun _ h => result.status = .succeeded ∧ P h) fun _ => P := by
  rw [requireConverted]
  refine Triple.bind (.require (fun _ hp _ => hp) fun _ hp _ => hp) fun _ => ?_
  refine Triple.bind (.require (fun _ hp _ => hp) fun _ hp _ => hp) fun _ => ?_
  refine Triple.bind (M := fun _ h => result.status = .succeeded ∧ P h)
    (.require (fun _ hp hr => ⟨hr, hp⟩) fun _ hp _ => hp) fun _ => ?_
  exact .require (fun _ hp _ => hp) fun _ hp _ => hp.2

theorem prepareConvertedDownload_triple {facade : BookDownloadFacade} {sourceFormat : BookFormat}
    {bytes : Bytes} (hvalidate : Gentle env.toHostEnv validate)
    (hconvert : env.ConvertsInPlace destinationPath)
    (hbelow : ¬Below (parentPath preparedPath) destinationPath)
    (habsolute : destinationPath.head? = some slash) (hne : preparedPath ≠ destinationPath)
    (hbackup : ∀ clockValue sequence, child (parentPath destinationPath)
      (backupName (fileNameOf destinationPath) clockValue sequence) ≠ preparedPath) :
    Triple (fun h => h.files sourcePath = some bytes ∧
        h.files destinationPath = before destinationPath)
      (prepareConvertedDownload env facade sourceFormat sourcePath preparedPath destinationPath
        validate)
      (fun _ h => Delivered env true bytes (h.files destinationPath))
      (FailureKept before destinationPath) := by
  rw [prepareConvertedDownload]
  refine Triple.bind (.require (fun _ hp _ => hp) fun _ hp _ => .inl hp.2) fun _ => ?_
  refine ((runConverter_triple hconvert hbelow).error fun _ _ hp => .inl hp).bind fun result => ?_
  refine .of_exists fun content => .of_pure fun hcontent => ?_
  refine (requireConverted_triple.error fun _ _ hp => .inl hp.2).bind fun _ => .of_pure fun hdone => ?_
  refine (publishPrepared_triple hvalidate habsolute hne hbackup).post fun _ h hpublished => ?_
  refine ⟨hpublished.1, ?_⟩
  rw [hpublished.2, if_pos rfl]
  exact ⟨result, hcontent, hdone⟩

theorem prepareOriginalDownload_triple {bytes : Bytes} (hvalidate : Gentle env.toHostEnv validate)
    (hsource : destinationPath ≠ sourcePath) (hnotSource : preparedPath ≠ sourcePath)
    (habsolute : destinationPath.head? = some slash) (hne : preparedPath ≠ destinationPath)
    (hbackup : ∀ clockValue sequence, child (parentPath destinationPath)
      (backupName (fileNameOf destinationPath) clockValue sequence) ≠ preparedPath) :
    Triple (fun h => h.files sourcePath = some bytes ∧
        h.files destinationPath = before destinationPath)
      (prepareOriginalDownload env sourcePath preparedPath destinationPath validate)
      (fun _ h => Delivered env false bytes (h.files destinationPath))
      (FailureKept before destinationPath) := by
  rw [prepareOriginalDownload]
  refine Triple.bind ((moveFileWithCopyFallback_triple hsource hne.symm hnotSource).error
    fun _ _ hp => .inl hp) fun _ => ?_
  refine (publishPrepared_triple hvalidate habsolute hne hbackup).post fun _ h hpublished => ?_
  exact ⟨hpublished.1, hpublished.2⟩

/-- A name that no workspace of a download gets, as the names that the server gives its files. -/
def NamesNoWorkspace (destinationPath : Bytes) : Prop :=
  ∀ directoryNamePrefix ∈ [ascii "download-", ascii ".inpx-web-reader-download-"],
    ∀ clockValue sequence,
      fileNameOf destinationPath ≠ uniqueName directoryNamePrefix clockValue sequence

/-- A workspace of a download that does not hold the destination is clear of it. -/
theorem clear_of_uniqueName {parent directoryNamePrefix : Bytes} {clockValue sequence : Nat}
    (habsolute : destinationPath.head? = some slash) (hnames : NamesNoWorkspace destinationPath)
    (hmem : directoryNamePrefix ∈ [ascii "download-", ascii ".inpx-web-reader-download-"])
    (hworkspace : workspace = child parent (uniqueName directoryNamePrefix clockValue sequence))
    (hbelow : ¬Below workspace (child (parentPath destinationPath) [])) :
    Clear workspace destinationPath := by
  have hnoSlash : ∀ directoryNamePrefix ∈ [ascii "download-", ascii ".inpx-web-reader-download-"],
      slash ∉ directoryNamePrefix := by decide
  have hfileName := congrArg fileNameOf hworkspace
  rw [fileNameOf_child (slash_notMem_uniqueName (hnoSlash _ hmem) _ _)] at hfileName
  refine ⟨fun h => ?_, hbelow, fun c q h => ?_⟩
  · rw [← h] at hfileName
    exact hnames _ hmem _ _ hfileName
  · rw [← h, fileNameOf_child (slash_notMem_backupName (child_parentPath habsolute).2 _ _)]
      at hfileName
    exact uniqueName_ne_backupName _ _ _ _ _ _ hfileName.symm

/-- The unique directories of the two workspaces have different names. -/
theorem uniqueName_download_ne (c q c' q' : Nat) :
    uniqueName (ascii "download-") c q ≠ uniqueName (ascii ".inpx-web-reader-download-") c' q' := by
  intro h
  have hhead := congrArg List.head? h
  have hd : (ascii "download-").head? = some 100 := by decide
  have hdot : (ascii ".inpx-web-reader-download-").head? = some 46 := by decide
  simp only [uniqueName, List.head?_append, hd, hdot, Option.some_or] at hhead
  revert hhead
  decide

theorem publishDownload_triple {facade : BookDownloadFacade} {request : BookDownloadRequest}
    {source : InpxDownloadSource} {bytes directory name : Bytes} {clockValue sequence : Nat}
    (hvalidate : Gentle env.toHostEnv validate)
    (hconvert : env.ConvertsInPlace request.destinationPath)
    (habsolute : request.destinationPath.head? = some slash)
    (hnames : NamesNoWorkspace request.destinationPath) (hname : slash ∉ name)
    (hsourcePath : sourcePath =
      child (child directory (uniqueName (ascii "download-") clockValue sequence)) name)
    (hsource : request.destinationPath ≠ sourcePath) :
    Triple (fun h => h.files sourcePath = some bytes ∧
        h.files request.destinationPath = before request.destinationPath)
      (publishDownload env facade request source sourcePath validate)
      (fun _ h => Delivered env (isConverted request source) bytes
        (h.files request.destinationPath))
      (FailureKept before request.destinationPath) := by
  rw [publishDownload]
  refine .of_state fun s hs => ?_
  have hcreated := fun parentDirectory directoryNamePrefix =>
    @createUniqueDirectory_settled _ env.toWorkspaceEnv s s.files (fun _ => False) parentDirectory
      directoryNamePrefix
  refine Triple.bind ((hcreated _ _).conseq ?_ (fun _ _ hp => hp)
    fun _ h hp => .inl ?_) fun workspace => .of_pure fun hworkspace => ?_
  · rintro h rfl
    exact ⟨rfl, fun _ hpath => hpath.elim, [], rfl, rfl⟩
  · rw [Unchanged, hp.files]
    exact hs.2
  obtain ⟨-, c, q, hworkspace⟩ := hworkspace
  have hunique : slash ∉ uniqueName (ascii ".inpx-web-reader-download-") c q :=
    slash_notMem_uniqueName (by decide) _ _
  have hclear : Clear workspace request.destinationPath := by
    refine clear_of_uniqueName habsolute hnames (List.mem_cons_of_mem _ (List.mem_singleton.mpr rfl))
      hworkspace ?_
    rw [hworkspace]
    exact not_below_child_child
  obtain ⟨hdestination, hbackup⟩ := prepared_facts habsolute hworkspace
  have hbelow : ¬Below (parentPath (child workspace (fileNameOf request.destinationPath)))
      request.destinationPath := by
    rw [parentPath_child (child_parentPath habsolute).2]
    exact hclear.not_below habsolute
  have hnotSource : child workspace (fileNameOf request.destinationPath) ≠ sourcePath := by
    intro h
    have hparents := congrArg parentPath h
    rw [hsourcePath, parentPath_child hname, parentPath_child (child_parentPath habsolute).2,
      hworkspace] at hparents
    have hfileNames := congrArg fileNameOf hparents
    rw [fileNameOf_child hunique,
      fileNameOf_child (slash_notMem_uniqueName (by decide) _ _)] at hfileNames
    exact uniqueName_download_ne _ _ _ _ hfileNames.symm
  refine scopedDirectoryCleanup_triple (E := FailureKept before request.destinationPath)
    (Q := fun _ h => Delivered env (isConverted request source) bytes
      (h.files request.destinationPath)) (Triple.pre (R := fun h =>
      h.files sourcePath = some bytes ∧
        h.files request.destinationPath = before request.destinationPath) ?_ fun h hh => ?_)
    (fun _ h hdelivered => ?_) fun e h hkept => hkept.removeAll hclear habsolute
  · refine .ite (fun hconverted => ?_) fun horiginal => ?_
    · rw [hconverted]
      exact prepareConvertedDownload_triple hvalidate hconvert hbelow habsolute hdestination.symm
        hbackup
    · rw [Bool.not_eq_true] at horiginal
      rw [horiginal]
      exact prepareOriginalDownload_triple hvalidate hsource hnotSource habsolute hdestination.symm
        hbackup
  · rw [hh.files]
    exact hs
  · rw [removeAll_files hclear.ne (hclear.not_below habsolute)]
    exact hdelivered

end Publishing

/-! ### The download -/

/-- Bytes that an extraction from an accepted archive can give. -/
def Extracted (env : DownloadEnv) (s : Host DownloadSources) (sha : Sha256)
    (locator : InpxDownloadSource) (bytes : Bytes) : Prop :=
  ∃ archive n entry stat stream, Accepted env s sha locator archive ∧
    locateEntry archive locator.entryName = .ok (entry, stat) ∧
    env.openEntry n entry = some stream ∧ stream.Gives bytes ∧ bytes.length = stat.size ∧
    stream.endsAsDeclared = true

section Download

variable {s : Host DownloadSources} {facade : BookDownloadFacade} {request : BookDownloadRequest}
variable {inpxSource : BookDownloadSource} {source : InpxDownloadSource}
variable {directories : Bytes → Prop}

theorem Settled.unchanged {h : Host DownloadSources}
    (hs : Settled env.toHostEnv s s.files directories h) (path : Bytes) :
    Unchanged s.files path h := by
  rw [Unchanged, hs.files]

theorem stageDownload_triple {directory : Bytes} {clockValue sequence : Nat}
    (hconvert : env.ConvertsInPlace request.destinationPath)
    (habsolute : request.destinationPath.head? = some slash)
    (hnames : NamesNoWorkspace request.destinationPath)
    (hclear : Clear (child directory (uniqueName (ascii "download-") clockValue sequence))
      request.destinationPath) :
    Triple (Settled env.toHostEnv s s.files directories)
      (stageDownload env sha facade request inpxSource source
        (child directory (uniqueName (ascii "download-") clockValue sequence)))
      (fun _ h => ∃ bytes, Extracted env s sha source bytes ∧
        Delivered env (isConverted request source) bytes (h.files request.destinationPath))
      (FailureKept s.files request.destinationPath) := by
  obtain ⟨hslash, hlast, hextension⟩ := sourceName_facts source.format
  have hdestination : request.destinationPath ≠ [] := by
    intro h
    rw [h] at habsolute
    cases habsolute
  have hbelow := hclear.not_below habsolute
  have hreads : ∀ (workspace : Bytes) {bytes : Bytes} {α : Type} {c : DownloadM α},
      Gentle env.toHostEnv c →
      Triple (fun h => h.files workspace = some bytes ∧
          h.files request.destinationPath = s.files request.destinationPath) c
        (fun _ h => h.files workspace = some bytes ∧
          h.files request.destinationPath = s.files request.destinationPath)
        (FailureKept s.files request.destinationPath) :=
    fun workspace bytes _ _ hc => (hc.files fun files => files workspace = some bytes ∧
      files request.destinationPath = s.files request.destinationPath).error
        fun _ _ hp => .inl hp.2
  rw [stageDownload]
  refine Triple.bind ((openValidatedArchiveSnapshot_settled inpxSource _).error
    fun _ _ hs => .inl (hs.unchanged _)) fun archive => .of_pure fun haccepted => ?_
  refine Triple.bind ((gentle_throwIfCancelled s s.files directories).error
    fun _ _ hs => .inl (hs.unchanged _)) fun _ => ?_
  refine Triple.bind (((extractEntryToPath_triple hslash hlast hextension hdestination hbelow).pre
    fun _ hs => hs.unchanged _).error fun _ _ hp => .inl hp) fun _ => ?_
  refine .of_exists fun bytes => .of_pure fun hextracted => ?_
  obtain ⟨n, entry, stat, stream, hlocated, hopened, hgives, hlength, hends⟩ := hextracted
  have hbytes : Extracted env s sha source bytes :=
    ⟨archive, n, entry, stat, stream, haccepted, hlocated, hopened, hgives, hlength, hends⟩
  have hsize : ∀ path, Gentle env.toHostEnv (fileSize env.toHostEnv path) := by
    refine fun path => .perform fun h size h' hact => ?_
    split at hact
    · injection hact with hact
      injection hact with _ hh
      exact hh.symm
    · cases hact
  refine (hreads _ (hsize _)).bind fun stagedSize => (hreads _ (gentle_requireSnapshot _)).bind
    fun _ => ?_
  refine (hreads _ gentle_throwIfCancelled).bind fun _ => ?_
  refine (hreads _ (gentle_validateDownloadSnapshot _ _ _)).bind fun _ => ?_
  refine (publishDownload_triple (gentle_validateDownloadSnapshot _ _ _) hconvert habsolute hnames
    hslash rfl (ne_child_of_not_below hbelow)).post fun _ h hdelivered => ?_
  exact ⟨bytes, hbytes, hdelivered⟩

theorem prepareSnapshotDownload_triple {snapshot : BookDownloadSnapshot}
    (hconvert : env.ConvertsInPlace request.destinationPath)
    (habsolute : request.destinationPath.head? = some slash)
    (hnames : NamesNoWorkspace request.destinationPath) :
    Triple (Settled env.toHostEnv s s.files directories)
      (prepareSnapshotDownload env sha facade request inpxSource snapshot)
      (fun _ h => ∃ bytes, Extracted env s sha snapshot.source bytes ∧
        Delivered env (isConverted request snapshot.source) bytes
          (h.files request.destinationPath))
      (FailureKept s.files request.destinationPath) := by
  have hreads : ∀ {α : Type} {c : DownloadM α}, Gentle env.toHostEnv c →
      Triple (Settled env.toHostEnv s s.files directories) c
        (fun _ => Settled env.toHostEnv s s.files directories)
        (FailureKept s.files request.destinationPath) :=
    fun hc => (hc _ _ _).error fun _ _ hs => .inl (hs.unchanged _)
  rw [prepareSnapshotDownload]
  refine (hreads .require).bind fun _ => (hreads gentle_throwIfCancelled).bind fun _ => ?_
  refine (hreads (gentle_validateDownloadSnapshot _ _ _)).bind fun _ => ?_
  refine Triple.bind ((createDirectories_settled _).error fun _ _ hs => .inl (hs.unchanged _))
    fun _ => ?_
  refine Triple.bind ((createUniqueDirectory_settled _ _).error
    fun _ _ hs => .inl (hs.unchanged _)) fun workspace => .of_pure fun hworkspace => ?_
  obtain ⟨hfresh, c, q, rfl⟩ := hworkspace
  -- the directories above the destination were there before the workspace was made
  have hclear : Clear (child (child facade.runtimeWorkspaceRoot (ascii "Downloads"))
      (uniqueName (ascii "download-") c q)) request.destinationPath :=
    clear_of_uniqueName habsolute hnames List.mem_cons_self rfl
      fun h => hfresh (.inr (mem_ancestors.mpr h))
  refine Triple.bind (scopedDirectoryCleanup_triple (stageDownload_triple hconvert habsolute hnames
    hclear) (R := fun _ h => ∃ bytes, Extracted env s sha snapshot.source bytes ∧
      Delivered env (isConverted request snapshot.source) bytes
        (h.files request.destinationPath)) ?_ fun e h hkept => hkept.removeAll hclear habsolute)
    fun _ => .pure fun _ hp => hp
  intro _ h hdelivered
  rw [removeAll_files hclear.ne (hclear.not_below habsolute)]
  exact hdelivered

end Download

/-! ### The snapshot binds the download -/

/-- Reading an entry to its end verifies its checksum. -/
def DownloadEnv.VerifiesChecksums (env : DownloadEnv) (crc32 : Bytes → Nat) : Prop :=
  ∀ n entry stream stat bytes, env.openEntry n entry = some stream → entry.stat = some stat →
    stream.Gives bytes → bytes.length = stat.size → stream.endsAsDeclared = true →
    crc32 bytes = stat.crc

/-- The bytes are those of the entry that the scan has seen under the name of the locator. -/
def BoundTo (crc32 : Bytes → Nat) (scanned : ZipArchive) (locator : InpxDownloadSource)
    (bytes : Bytes) : Prop :=
  ∃ stat ∈ scanned.stats, stat.name = cString locator.entryName ∧
    stat.size = locator.entrySizeBytes ∧ bytes.length = stat.size ∧ crc32 bytes = stat.crc

section Bound

variable {s : Host DownloadSources} {locator : InpxDownloadSource} {archive scanned : ZipArchive}

theorem locateEntry_ok {entryName : Bytes} {entry : DirectoryEntry} {stat : ZipStat}
    (h : locateEntry archive entryName = .ok (entry, stat)) :
    entry.stat = some stat ∧ stat ∈ archive.stats ∧ stat.name = cString entryName := by
  rw [locateEntry] at h
  split at h
  · cases h
  · next entry' stat' hfound =>
    split at h
    · injection h with h
      injection h with hentry hstat
      subst hentry hstat
      obtain ⟨candidate, hmem, hcandidate⟩ := List.exists_of_findSome?_eq_some hfound
      obtain ⟨stat'', hstat'', hpick⟩ := Option.bind_eq_some_iff.mp hcandidate
      split at hpick
      · next hname =>
        injection hpick with hpick
        injection hpick with hentry hstat
        subst hentry hstat
        exact ⟨hstat'', List.mem_filterMap.mpr ⟨_, hmem, hstat''⟩, hname⟩
      · cases hpick
    · cases h

/-- Archives of one fingerprint list the same entries. -/
theorem mem_stats_of_hashedText_eq (h : archive.hashedText = scanned.hashedText) (stat : ZipStat) :
    stat ∈ archive.stats ↔ stat ∈ scanned.stats := by
  have hsorted := manifestText_inj h
  exact (mem_orderBy.symm.trans (by rw [hsorted])).trans mem_orderBy

/-- What an accepted archive gives is bound to the archive of the scan. -/
theorem Extracted.boundTo {crc32 : Bytes → Nat} {bytes : Bytes}
    (h : Extracted env s sha locator bytes) (hverify : env.VerifiesChecksums crc32)
    (hscanned : sha.computeBytes scanned.hashedText = locator.archiveManifestFingerprint)
    (hfree : sha.CollisionFree
      (insert scanned.hashedText {text | ∃ archive, env.Shows s archive ∧ archive.hashedText = text})) :
    BoundTo crc32 scanned locator bytes := by
  obtain ⟨archive, n, entry, stat, stream, haccepted, hlocated, hopened, hgives, hlength, hends⟩ := h
  obtain ⟨hentry, hmem, hname⟩ := locateEntry_ok hlocated
  have htext : archive.hashedText = scanned.hashedText :=
    hfree _ (Set.mem_insert_of_mem _ ⟨archive, haccepted.shown, rfl⟩) _ (Set.mem_insert _ _)
      (Sha256.digest_eq_of_computeBytes_eq (haccepted.fingerprint.trans hscanned.symm))
  obtain ⟨entry', stat', hlocated', hsize⟩ := haccepted.entry
  rw [hlocated] at hlocated'
  injection hlocated' with hlocated'
  injection hlocated' with _ hstat
  subst hstat
  exact ⟨stat, (mem_stats_of_hashedText_eq htext stat).mp hmem, hname, hsize, hlength,
    hverify n entry stream stat bytes hopened hentry hgives hlength hends⟩

end Bound

theorem gentle_canonicalizeForComparison (path : Bytes) :
    Gentle env.toHostEnv (canonicalizeForComparison env path) := by
  rw [canonicalizeForComparison]
  refine .bind (gentle_describeFailure (.perform fun h canonical h' hact => ?_)) fun canonicalBase =>
    .ite .pure .pure
  cases hcanonical : env.canonical h.trace.length
      (if fileNameOf path = [] then path
        else if parentPath path = [] then [slash] else parentPath path) with
  | error failure =>
    rw [hcanonical] at hact
    cases hact
  | ok canonical' =>
    rw [hcanonical] at hact
    injection hact with hact
    injection hact with _ hh
    exact hh.symm

/-- A request that is accepted has an absolute destination. -/
theorem requireValidRequest_settled {s : Host DownloadSources} {directories : Bytes → Prop}
    (facade : BookDownloadFacade) (request : BookDownloadRequest) :
    Triple (Settled env.toHostEnv s s.files directories) (requireValidRequest env facade request)
      (fun _ h => request.destinationPath.head? = some slash ∧
        Settled env.toHostEnv s s.files directories h)
      fun _ => Settled env.toHostEnv s s.files directories := by
  have hdirectory : Gentle env.toHostEnv (isDirectory env.toHostEnv request.destinationPath) := by
    refine .perform fun h there h' hact => ?_
    injection hact with hact
    injection hact with _ hh
    exact hh.symm
  rw [requireValidRequest]
  refine Triple.bind (.require (fun _ hs _ => hs) fun _ hs _ => hs) fun _ => ?_
  refine Triple.bind (M := fun _ h => request.destinationPath.head? = some slash ∧
    Settled env.toHostEnv s s.files directories h) (.require (fun _ hs hr => ⟨hr, hs⟩)
      fun _ hs _ => hs) fun _ => .of_pure fun habsolute => ?_
  refine Triple.post ?_ fun _ _ hs => ⟨habsolute, hs⟩
  refine Gentle.bind hdirectory (fun _ => .bind .require fun _ => ?_) s s.files directories
  refine .bind (gentle_canonicalizeForComparison _) fun _ => ?_
  exact .bind (gentle_canonicalizeForComparison _) fun _ => .require

/-- Whatever happens to the INPX file and the archives on the way, a download that succeeds delivers
an entry that the manifest of the scan lists, of the size and the checksum that it lists. One that
fails leaves the previous file where it was, or names where it is, unless a check of the rollback
has failed. -/
theorem prepareDownload_bound {s : Host DownloadSources} {db : Database}
    {facade : BookDownloadFacade} {request : BookDownloadRequest} {crc32 : Bytes → Nat}
    {scanned : ZipArchive} (hverify : env.VerifiesChecksums crc32)
    (hconvert : env.ConvertsInPlace request.destinationPath)
    (hnames : NamesNoWorkspace request.destinationPath)
    (hscanned : ∀ snapshot, loadDownloadSnapshot db request.bookId.toNat = .ok (some snapshot) →
      sha.computeBytes scanned.hashedText = snapshot.source.archiveManifestFingerprint)
    (hfree : sha.CollisionFree (insert scanned.hashedText
      {text | ∃ archive, env.Shows s archive ∧ archive.hashedText = text})) :
    Triple (fun h => h = s) (prepareDownload env sha db facade request)
      (fun delivered h => match delivered with
        | none => Unchanged s.files request.destinationPath h
        | some _ => ∃ snapshot bytes,
          loadDownloadSnapshot db request.bookId.toNat = .ok (some snapshot) ∧
          BoundTo crc32 scanned snapshot.source bytes ∧
          Delivered env (isConverted request snapshot.source) bytes
            (h.files request.destinationPath))
      fun e h => ChecksAnswer request.destinationPath h.trace →
        Unchanged s.files request.destinationPath h ∨
          NamesBackup s.files request.destinationPath e h := by
  have hstart : ∀ h, h = s → Settled env.toHostEnv s s.files (fun _ => False) h := by
    rintro h rfl
    exact ⟨rfl, fun _ hpath => hpath.elim, [], rfl, rfl⟩
  rw [prepareDownload]
  refine Triple.bind (((requireValidRequest_settled facade request).pre hstart).error
    fun _ _ hs _ => .inl (hs.unchanged _)) fun _ => .of_pure fun habsolute => ?_
  split
  · exact .throw fun _ hs _ => .inl (hs.unchanged _)
  · next inpxSource _ =>
    refine Triple.bind (M := fun loaded h =>
      loaded = loadDownloadSnapshot db request.bookId.toNat ∧
        Settled env.toHostEnv s s.files (fun _ => False) h)
      ((perform_settled (D := fun _ _ => False)
        fun h loaded h' hfiles _ _ hact => ?_).error fun _ _ hs _ => .inl (hs.unchanged _))
      fun loaded => .of_pure fun hloaded => ?_
    · injection hact with hact
      injection hact with hloaded hh
      subst hloaded hh
      exact ⟨hfiles, rfl, rfl, fun _ h => h.elim⟩
    · subst hloaded
      refine Triple.bind (M := fun found h =>
        loadDownloadSnapshot db request.bookId.toNat = .ok found ∧
          Settled env.toHostEnv s s.files (fun _ => False) h)
        (.ofExcept (fun _ _ hfound hs => ⟨hfound, hs⟩) fun _ _ _ hs _ => .inl (hs.unchanged _))
        fun found => .of_pure fun hfound => ?_
      cases found with
      | none => exact .pure fun _ hs => hs.unchanged _
      | some snapshot =>
        refine Triple.bind ((prepareSnapshotDownload_triple hconvert habsolute hnames).error
          fun e h hkept hchecks => ?_) fun download => .pure fun h hp => ?_
        · rcases hkept with hsame | ⟨message, backupPath, he, hbackup⟩ | hfailed
          · exact .inl hsame
          · exact .inr ⟨message, backupPath, he, fun hexisted => (hbackup hexisted).2⟩
          · exact absurd hchecks hfailed
        · obtain ⟨bytes, hextracted, hdelivered⟩ := hp
          exact ⟨snapshot, bytes, hfound,
            hextracted.boundTo hverify (hscanned snapshot hfound) hfree, hdelivered⟩

/-! ### A library of one book -/

/-- The entry of the book `ab`. -/
def bookStat : ZipStat := ⟨ascii "a.fb2", 2, 2659403885⟩

def bookArchive : ZipArchive :=
  ⟨some [{ stat := some bookStat, stream := some { reads := [some (ascii "ab")] } }]⟩

/-- SHA-256 on the manifest of the archive and on the INPX file `i`. -/
def bookSha : Sha256 where
  digest := fun bytes => if bytes = ascii "i" then
      [222, 125, 27, 114, 26, 30, 6, 50, 183, 207, 4, 237, 245, 3, 44, 142, 207, 250, 159, 154, 8,
        73, 33, 82, 185, 38, 241, 165, 167, 231, 101, 215]
    else [155, 232, 88, 252, 225, 175, 28, 150, 16, 197, 10, 184, 129, 130, 148, 128, 2, 73, 39,
      190, 100, 239, 71, 214, 224, 215, 0, 104, 253, 1, 121, 172]
  length_digest := fun bytes => by split <;> rfl

def bookCrc32 (bytes : Bytes) : Nat := if bytes = ascii "ab" then 2659403885 else 0

/-- What a scan of the library persists. -/
def bookDatabase : Database where
  books := ⟨[{
    id := 1
    title := ascii "A"
    normalizedTitle := ascii "a"
    language := []
    series := none
    seriesIndex := none
    publisher := none
    year := none
    isbn := none
    description := none
    identifier := none
    coverPath := none
    addedAtUtc := [] }], List.nodup_singleton _, List.nodup_singleton _⟩
  segments := ⟨[{
    id := 1
    inpEntryName := ascii "a.inp"
    archiveName := ascii "a"
    inpFingerprint := []
    segmentOrder := 0
    recordCount := 1
    activeRecordCount := 1
    deletedRecordCount := 0
    availability := .available
    requiresArchive := true
    resolvedArchivePath := some (ascii "a.zip")
    archiveFileSizeBytes := 100
    archiveMtimeTicks := 5
    archiveManifestFingerprint := some (bookSha.computeBytes bookArchive.hashedText)
    lastSeenScanId := none }], List.nodup_singleton _, List.nodup_singleton _⟩
  locations := ⟨[{
    bookId := 1
    segmentId := 1
    libId := ascii "7"
    archiveName := ascii "a"
    entryName := ascii "a.fb2"
    availability := .available
    presentInSegment := true
    fileSizeBytes := 2
    format := ascii "fb2"
    lastSeenScanId := none }], List.nodup_singleton _, List.nodup_singleton _⟩
  source := some { displayName := [], sourceFingerprint := bookSha.computeBytes (ascii "i") }

/-- The host of the library, with an old file at `/d/b.fb2`. -/
def bookHost : Host DownloadSources where
  files path := if path = ascii "/d/b.fb2" then some [1] else none
  directories path := path = [] || path = ascii "/d"
  sources := {
    inpx := some ⟨[ascii "i"], true⟩
    tree := ⟨[([], .directory [ascii "x"]), ([ascii "x"], .directory [ascii "a.zip"]),
      ([ascii "x", ascii "a.zip"], .file)], 40⟩
    archives := fun location => if location = [ascii "x", ascii "a.zip"] then
        some ⟨.ok ⟨100, 5⟩, .ok bookArchive⟩
      else none }

/-- An environment in which nothing fails. -/
def bookEnv : DownloadEnv where
  openEntry _ entry :=
    if entry.stat = some bookStat then some { reads := [some (ascii "ab")] } else none
  convert _ _ _ files := (.ok {}, files)

def bookFacade : BookDownloadFacade where
  cacheRoot := ascii "/c"
  source := some ⟨ascii "/x/i.inpx", ascii "/x"⟩
  runtimeWorkspaceRoot := ascii "/r"
  maxArchiveManifestMemoryBytes := 2048

def bookRequest : BookDownloadRequest where
  bookId := 1
  destinationPath := ascii "/d/b.fb2"

theorem bookEnv_verifiesChecksums : bookEnv.VerifiesChecksums bookCrc32 := by
  rintro n entry stream stat bytes hopened hstat ⟨chunks, rest, hreads, rfl⟩ hlength -
  simp only [bookEnv] at hopened
  split at hopened
  · next hbook =>
    rw [hstat] at hbook
    injection hbook with hbook
    injection hopened with hopened
    subst hbook hopened
    cases chunks with
    | nil => cases hlength
    | cons chunk chunks =>
      obtain ⟨hchunk, hnil⟩ := List.cons.inj hreads
      obtain ⟨hchunks, -⟩ := List.append_eq_nil_iff.mp hnil.symm
      injection hchunk with hchunk
      rw [← hchunk, List.map_eq_nil_iff.mp hchunks]
      decide
  · cases hopened

/-- No name of a workspace has a dot and a letter at its end. -/
theorem bookRequest_namesNoWorkspace : NamesNoWorkspace bookRequest.destinationPath := by
  intro directoryNamePrefix hmem clockValue sequence h
  have hsame := congrArg List.length h
  have hlength : ∀ p ∈ [ascii "download-", ascii ".inpx-web-reader-download-"], 9 ≤ p.length := by
    decide
  have hname : (fileNameOf bookRequest.destinationPath).length = 5 := by decide
  have hlong := hlength _ hmem
  rw [hname, uniqueName, List.length_append] at hsame
  omega

theorem shows_book {archive : ZipArchive} (h : bookEnv.Shows bookHost archive) :
    archive = bookArchive := by
  obtain ⟨n, location, file, hfile, harchive⟩ := h
  have hsources : ∀ n, bookEnv.sourcesAfter bookHost n = bookHost.sources := by
    intro n
    induction n with
    | zero => rfl
    | succ n ih => exact ih
  rw [hsources] at hfile
  simp only [bookHost] at hfile
  split at hfile
  · injection hfile with hfile
    subst hfile
    injection harchive with harchive
    exact harchive.symm
  · cases hfile

def delivers : EStateM.Result Thrown (Host DownloadSources) (Option PreparedBookDownload) → Bool
  | .ok (some _) _ => true
  | _ => false

theorem exists_of_delivers
    {r : EStateM.Result Thrown (Host DownloadSources) (Option PreparedBookDownload)}
    (h : delivers r = true) : ∃ download host, r = .ok (some download) host := by
  rcases r with ⟨_ | download, host⟩ | ⟨e, host⟩
  · cases h
  · exact ⟨download, host, rfl⟩
  · cases h

theorem prepareDownload_bound_book :
    ∃ download h, prepareDownload bookEnv bookSha bookDatabase bookFacade bookRequest bookHost =
        .ok (some download) h ∧
      ∃ snapshot bytes, loadDownloadSnapshot bookDatabase 1 = .ok (some snapshot) ∧
        BoundTo bookCrc32 bookArchive snapshot.source bytes ∧
        Delivered bookEnv (isConverted bookRequest snapshot.source) bytes
          (h.files (ascii "/d/b.fb2")) := by
  have hscanned : ∀ snapshot, loadDownloadSnapshot bookDatabase 1 = .ok (some snapshot) →
      bookSha.computeBytes bookArchive.hashedText = snapshot.source.archiveManifestFingerprint := by
    rintro snapshot hloaded
    cases hloaded
    rfl
  have hfree : bookSha.CollisionFree (insert bookArchive.hashedText
      {text | ∃ archive, bookEnv.Shows bookHost archive ∧ archive.hashedText = text}) := by
    have hall : ∀ text ∈ insert bookArchive.hashedText
        {text | ∃ archive, bookEnv.Shows bookHost archive ∧ archive.hashedText = text},
        text = bookArchive.hashedText := by
      rintro text (rfl | ⟨archive, hshown, rfl⟩)
      · rfl
      · rw [shows_book hshown]
    intro a ha b hb _
    rw [hall a ha, hall b hb]
  have hdelivers : delivers (prepareDownload bookEnv bookSha bookDatabase bookFacade bookRequest
      bookHost) = true := by decide +kernel
  obtain ⟨download, h, hrun⟩ := exists_of_delivers hdelivers
  exact ⟨download, h, hrun, (prepareDownload_bound bookEnv_verifiesChecksums
    (fun _ _ _ _ _ => rfl) bookRequest_namesNoWorkspace hscanned hfree).ok rfl hrun⟩

end InpxWebReader.App
