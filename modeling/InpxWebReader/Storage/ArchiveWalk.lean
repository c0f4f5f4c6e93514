import Mathlib.Data.Finset.Basic
import InpxWebReader.Library.FileTree
import InpxWebReader.Storage.CacheRoot

/-!
# The walk below a child of the archive root

The fallback of the archive lookup walks every directory of the archive root, follows symbolic links,
and keeps a stack of the canonical directories above the current entry beside the iterator, so that
it does not enter one of them again. `walkChild` is that loop, step by step: an iterator, the stack
`ancestorDirectories`, and the set `activeDirectories`.

`walk_finishes` says that on every finite tree the loop ends, and that it has visited the entries of
`entriesBelow`, the recursion that the stack and the set stand for.
-/

namespace InpxWebReader.Storage

open Foundation LexicalPath LexicalPath.NamePath DotNames

/-! ### Paths within a root -/

def buildValidatedCandidatePath (root : List Bytes) (path : NamePath Bytes) (unsafePathMessage : Bytes) :
    Except Failure (NamePath Bytes) :=
  let normalizedPath := path.normal
  if normalizedPath.rooted then .ok normalizedPath
  else if ¬CacheRoot.isSafeRelativePath normalizedPath then .error (.standard unsafePathMessage)
  else .ok ((NamePath.mk true root).append normalizedPath).normal

/-- `CanonicalizeExistingPath`, of a path from the root. -/
def canonicalizeExistingPath (tree : FileTree Bytes) (path : NamePath Bytes) (errorMessage : Bytes) :
    Except Failure (List Bytes) :=
  match tree.weaklyCanonical path.names with
  | .ok location => .ok (normalNames true location)
  | .error _ => .error (.standard errorMessage)

/-- `IsPathWithinRoot`, of normal paths from the root. -/
def isPathWithinRoot (root candidate : List Bytes) : Bool := root.isPrefixOf candidate

/-- `std::filesystem::exists`, the form that throws. -/
def pathExists (tree : FileTree Bytes) (path : NamePath Bytes) : Except Failure Bool :=
  match tree.status path.names with
  | .ok _ => .ok true
  | .error .notFound => .ok false
  | .error .tooManyLinks => .error .nonStandard

def tryResolvePathWithinCanonicalRoot (tree : FileTree Bytes) (canonicalRoot : List Bytes)
    (path : NamePath Bytes) (unsafePathMessage canonicalizationErrorMessage : Bytes) :
    Except Failure (Option (List Bytes)) := do
  let candidatePath ← buildValidatedCandidatePath canonicalRoot path unsafePathMessage
  let canonicalCandidate ←
    canonicalizeExistingPath tree candidatePath canonicalizationErrorMessage
  if ¬isPathWithinRoot canonicalRoot canonicalCandidate then throw (.standard unsafePathMessage)
  else if ← pathExists tree candidatePath then return some canonicalCandidate
  else return none

/-- The archive root, in the tree of all files, and the messages of its lookups. -/
structure ArchiveTree where
  tree : FileTree Bytes
  plainNames : ∀ entry ∈ tree.nodes, ∀ name ∈ entry.2.names, IsPlainPart name
  canonicalRoot : List Bytes
  plainRoot : ∀ name ∈ canonicalRoot, IsPlain name
  unsafePathMessage : Bytes
  canonicalizationErrorMessage : Bytes

namespace ArchiveTree

/-- `TryResolvePathWithinCanonicalRoot` with the index's own root and messages. -/
def tryResolve (archive : ArchiveTree) (path : NamePath Bytes) : Except Failure (Option (List Bytes)) :=
  tryResolvePathWithinCanonicalRoot archive.tree archive.canonicalRoot path
    archive.unsafePathMessage archive.canonicalizationErrorMessage

/-- The path of the iterator at the given names below the root. -/
def visible (archive : ArchiveTree) (names : List Bytes) : NamePath Bytes :=
  ⟨true, archive.canonicalRoot ++ names⟩

/-! ### The loop -/

/-- An entry that the walk visits: its names below the root, and whether it is a directory, or
`none` where its type cannot be read. -/
structure WalkEntry where
  names : List Bytes
  isDirectory : Option Bool
  deriving DecidableEq

/-- `iterator->is_directory(directoryError)`. -/
def isDirectoryAt (archive : ArchiveTree) (names : List Bytes) : Option Bool :=
  match archive.tree.status (archive.canonicalRoot ++ names) with
  | .ok location => some (archive.tree.isDirectory location)
  | .error _ => none

/-- The state of the loop of `IndexFallbackChild`: the frames of the iterator (the names of a
directory below the root, and its entries still to come), the innermost first, and the stack and the
set of canonical directories. -/
structure Walk where
  frames : List (List Bytes × List Bytes)
  ancestorDirectories : List (List Bytes)
  activeDirectories : Finset (List Bytes)

/-- The frames without those that have no entries left. -/
def settle : List (List Bytes × List Bytes) → List (List Bytes × List Bytes)
  | (_, []) :: frames => settle frames
  | frames => frames

/-- The inner loop: the stack gives up the directories below the current depth. -/
def leaveDirectories (depth : Nat) (active : Finset (List Bytes)) :
    List (List Bytes) → List (List Bytes) × Finset (List Bytes)
  | [] => ([], active)
  | directory :: ancestors =>
    if depth + 1 < (directory :: ancestors).length then
      leaveDirectories depth (active.erase directory) ancestors
    else (directory :: ancestors, active)

/-- The directory that the walk enters at the given names: one within the root that is not active. -/
def entered (archive : ArchiveTree) (active : Finset (List Bytes)) (names : List Bytes) :
    Option (List Bytes) :=
  if archive.isDirectoryAt names = some true then
    match archive.tryResolve (archive.visible names) with
    | .ok (some canonicalDirectory) =>
      if canonicalDirectory ∈ active then none else some canonicalDirectory
    | _ => none
  else none

/-- One round of the loop: the entry it visits, and the state after it. -/
def walkStep (archive : ArchiveTree) (walk : Walk) : Option (WalkEntry × Walk) :=
  match settle walk.frames with
  | (directory, name :: names) :: frames =>
    let (ancestors, active) :=
      leaveDirectories frames.length walk.activeDirectories walk.ancestorDirectories
    let path := directory ++ [name]
    let entry : WalkEntry := ⟨path, archive.isDirectoryAt path⟩
    match archive.entered active path with
    | some canonicalDirectory => some (entry,
        { frames := (path, archive.tree.listing canonicalDirectory) :: (directory, names) :: frames
          ancestorDirectories := canonicalDirectory :: ancestors
          activeDirectories := insert canonicalDirectory active })
    | none => some (entry, ⟨(directory, names) :: frames, ancestors, active⟩)
  | _ => none

/-- The loop ends after visiting the entries. -/
inductive Finishes (archive : ArchiveTree) : Walk → List WalkEntry → Prop
  | done {walk : Walk} (h : archive.walkStep walk = none) : Finishes archive walk []
  | next {walk walk' : Walk} {entry : WalkEntry} {entries : List WalkEntry}
      (h : archive.walkStep walk = some (entry, walk')) (hrest : Finishes archive walk' entries) :
      Finishes archive walk (entry :: entries)

/-- The start of the loop of `IndexFallbackChild`, at a child of the root. -/
def walkOf (archive : ArchiveTree) (child : Bytes) (canonicalChildPath : List Bytes) : Walk where
  frames := [([child], archive.tree.listing canonicalChildPath)]
  ancestorDirectories := [canonicalChildPath]
  activeDirectories := {canonicalChildPath}

/-! ### The recursion behind the loop -/

/-- The entries below a directory, with the directories above it, the innermost first. -/
def entriesBelow (archive : ArchiveTree) : Nat → List (List Bytes) → List Bytes → List WalkEntry
  | 0, _, _ => []
  | fuel + 1, above, names =>
    (archive.tree.listing (above.head?.getD [])).flatMap fun name =>
      ⟨names ++ [name], archive.isDirectoryAt (names ++ [name])⟩ ::
        match archive.entered above.toFinset (names ++ [name]) with
        | some canonicalDirectory =>
          archive.entriesBelow fuel (canonicalDirectory :: above) (names ++ [name])
        | none => []

/-- An entry of a directory, with the entries below it. -/
def entriesAt (archive : ArchiveTree) (fuel : Nat) (above : List (List Bytes))
    (directory : List Bytes) (name : Bytes) : List WalkEntry :=
  ⟨directory ++ [name], archive.isDirectoryAt (directory ++ [name])⟩ ::
    match archive.entered above.toFinset (directory ++ [name]) with
    | some canonicalDirectory =>
      archive.entriesBelow fuel (canonicalDirectory :: above) (directory ++ [name])
    | none => []

/-- The entries that the walk below a child visits. -/
def walkEntries (archive : ArchiveTree) (child : Bytes) (canonicalChildPath : List Bytes) :
    List WalkEntry :=
  archive.entriesBelow (archive.tree.directories.length + 1) [canonicalChildPath] [child]

/-! ### Resolution -/

section Resolution

variable {archive : ArchiveTree} {names rest directory : List Bytes} {active : Finset (List Bytes)}

theorem listing_plain (location : List Bytes) :
    ∀ name ∈ archive.tree.listing location, IsPlainPart name :=
  FileTree.forall_mem_listing archive.plainNames location

theorem plain_visible (hnames : ∀ name ∈ names, IsPlain name) :
    ∀ name ∈ archive.canonicalRoot ++ names, IsPlain name := by
  intro name hname
  rcases List.mem_append.mp hname with hname | hname
  · exact archive.plainRoot name hname
  · exact hnames name hname

theorem buildValidatedCandidatePath_visible (hnames : ∀ name ∈ names, IsPlain name) :
    buildValidatedCandidatePath archive.canonicalRoot (archive.visible names)
      archive.unsafePathMessage = .ok (archive.visible names) := by
  simp only [buildValidatedCandidatePath, visible, normal_of_plain (plain_visible hnames), if_true]

theorem buildValidatedCandidatePath_relative (hne : names ≠ [])
    (hnames : ∀ name ∈ names, IsPlain name) :
    buildValidatedCandidatePath archive.canonicalRoot ⟨false, names⟩ archive.unsafePathMessage =
      .ok (archive.visible names) := by
  have hsafe : CacheRoot.isSafeRelativePath ⟨false, names⟩ = true := by
    have hdots : dotdot ∉ names := fun hmem => (hnames _ hmem).2.2 rfl
    simp [CacheRoot.isSafeRelativePath, normal_of_plain hnames, hne, hdots]
  have hroot : normalNames true archive.canonicalRoot = archive.canonicalRoot :=
    normalNames_eq_self_iff.mpr archive.plainRoot
  simp only [buildValidatedCandidatePath, normal_of_plain hnames, hsafe, not_true_eq_false,
    if_false, Bool.false_eq_true, normal_append hne hnames, hroot]
  rfl

/-- A path from the root of all files and one from the archive root resolve alike. -/
theorem tryResolve_relative (hne : names ≠ []) (hnames : ∀ name ∈ names, IsPlain name) :
    archive.tryResolve ⟨false, names⟩ = archive.tryResolve (archive.visible names) := by
  rw [tryResolve, tryResolve, tryResolvePathWithinCanonicalRoot, tryResolvePathWithinCanonicalRoot,
    buildValidatedCandidatePath_visible hnames, buildValidatedCandidatePath_relative hne hnames]

/-- A path with plain names resolves to its canonical location, where that is within the root. -/
theorem tryResolve_visible_eq_some (hnames : ∀ name ∈ names, IsPlain name) :
    archive.tryResolve (archive.visible names) = .ok (some directory) ↔
      archive.tree.status (archive.canonicalRoot ++ names) = .ok directory ∧
        archive.canonicalRoot <+: directory := by
  rw [tryResolve, tryResolvePathWithinCanonicalRoot, buildValidatedCandidatePath_visible hnames]
  show (canonicalizeExistingPath archive.tree (archive.visible names)
    archive.canonicalizationErrorMessage >>= fun canonicalCandidate =>
      if ¬isPathWithinRoot archive.canonicalRoot canonicalCandidate then
        throw (.standard archive.unsafePathMessage)
      else pathExists archive.tree (archive.visible names) >>= fun found =>
        if found then pure (some canonicalCandidate) else pure none) = _ ↔ _
  cases hstatus : archive.tree.status (archive.canonicalRoot ++ names) with
  | ok location =>
    have hcanonical : canonicalizeExistingPath archive.tree (archive.visible names)
        archive.canonicalizationErrorMessage = .ok location := by
      have hnormal := normalNames_eq_self_iff.mpr (FileTree.status_plain hstatus)
      rw [canonicalizeExistingPath, visible, FileTree.weaklyCanonical_of_status hstatus]
      exact congrArg Except.ok hnormal
    have hexists : pathExists archive.tree (archive.visible names) = .ok true := by
      rw [pathExists, visible, hstatus]
    rw [hcanonical, hexists]
    by_cases hwithin : archive.canonicalRoot <+: location
    · have hroot : isPathWithinRoot archive.canonicalRoot location = true :=
        List.isPrefixOf_iff_prefix.mpr hwithin
      show (if ¬isPathWithinRoot archive.canonicalRoot location then _ else _) = _ ↔ _
      rw [hroot, if_neg (not_not.mpr rfl)]
      show Except.ok (some location) = _ ↔ _
      simp only [Except.ok.injEq, Option.some.injEq]
      exact ⟨fun h => ⟨h, h ▸ hwithin⟩, And.left⟩
    · have hroot : ¬isPathWithinRoot archive.canonicalRoot location = true :=
        fun h => hwithin (List.isPrefixOf_iff_prefix.mp h)
      show (if ¬isPathWithinRoot archive.canonicalRoot location then _ else _) = _ ↔ _
      rw [if_pos hroot]
      refine ⟨fun h => (by cases h), fun h => ?_⟩
      obtain ⟨⟨⟩, hpre⟩ := h
      exact absurd hpre hwithin
  | error e =>
    refine ⟨fun h => ?_, fun h => (by cases h.1)⟩
    exfalso
    cases hcanonical : canonicalizeExistingPath archive.tree (archive.visible names)
        archive.canonicalizationErrorMessage with
    | error f =>
      rw [hcanonical] at h
      cases h
    | ok canonicalCandidate =>
      rw [hcanonical] at h
      replace h : (if ¬isPathWithinRoot archive.canonicalRoot canonicalCandidate then
          throw (.standard archive.unsafePathMessage)
        else pathExists archive.tree (archive.visible names) >>= fun found =>
          if found then pure (some canonicalCandidate) else pure none) =
            Except.ok (some directory) := h
      split at h
      · cases h
      · rw [pathExists, visible, hstatus] at h
        cases e <;> cases h

/-- The walk enters a directory within the root that is not one of those above it. -/
theorem entered_eq_some_iff (hnames : ∀ name ∈ names, IsPlain name) :
    archive.entered active names = some directory ↔
      archive.tree.status (archive.canonicalRoot ++ names) = .ok directory ∧
        archive.tree.isDirectory directory = true ∧ archive.canonicalRoot <+: directory ∧
        directory ∉ active := by
  constructor
  · intro h
    rw [entered] at h
    split at h
    · next hdirectory =>
      split at h
      · next canonicalDirectory hresolve =>
        split at h
        · cases h
        · next hactive =>
          injection h with h
          subst h
          obtain ⟨hstatus, hwithin⟩ := (tryResolve_visible_eq_some hnames).mp hresolve
          rw [isDirectoryAt, hstatus, Option.some_inj] at hdirectory
          exact ⟨hstatus, hdirectory, hwithin, hactive⟩
      · cases h
    · cases h
  · rintro ⟨hstatus, hdirectory, hwithin, hactive⟩
    have hat : archive.isDirectoryAt names = some true := by
      rw [isDirectoryAt, hstatus]
      exact congrArg some hdirectory
    rw [entered, if_pos hat, (tryResolve_visible_eq_some hnames).mpr ⟨hstatus, hwithin⟩]
    exact if_neg hactive

end Resolution

/-! ### The loop ends -/

section Termination

variable {archive : ArchiveTree} {walk walk' : Walk} {entries : List WalkEntry}

theorem Finishes.congr (h : archive.walkStep walk = archive.walkStep walk')
    (hfinishes : Finishes archive walk' entries) : Finishes archive walk entries := by
  cases hfinishes with
  | done hdone => exact .done (h.trans hdone)
  | next hnext hrest => exact .next (h.trans hnext) hrest

theorem Finishes.unique {entries' : List WalkEntry} (h : Finishes archive walk entries)
    (h' : Finishes archive walk entries') : entries = entries' := by
  induction h generalizing entries' with
  | done hdone =>
    cases h' with
    | done _ => rfl
    | next hnext _ =>
      rw [hdone] at hnext
      cases hnext
  | next hnext _ ih =>
    cases h' with
    | done hdone =>
      rw [hdone] at hnext
      cases hnext
    | next hnext' hrest' =>
      rw [hnext] at hnext'
      injection hnext' with hnext'
      injection hnext' with hentry hwalk
      subst hentry hwalk
      rw [ih hrest']

/-- The stack and the set give up what lies below the current depth, and keep the rest. -/
theorem leaveDirectories_append {depth : Nat} (below above : List (List Bytes))
    (hlength : above.length = depth + 1) (hnodup : (below ++ above).Nodup) :
    leaveDirectories depth (below ++ above).toFinset (below ++ above) =
      (above, above.toFinset) := by
  induction below with
  | nil =>
    cases above with
    | nil => cases hlength
    | cons directory above =>
      rw [List.nil_append, leaveDirectories, if_neg (by omega)]
  | cons directory below ih =>
    rw [List.cons_append, List.nodup_cons] at hnodup
    have herase : (directory :: (below ++ above)).toFinset.erase directory =
        (below ++ above).toFinset := by
      rw [List.toFinset_cons, Finset.erase_insert]
      rw [List.mem_toFinset]
      exact hnodup.1
    have hdeeper : depth + 1 < (directory :: (below ++ above)).length := by
      rw [List.length_cons, List.length_append]
      omega
    rw [List.cons_append, leaveDirectories, if_pos hdeeper, herase, ih hnodup.2]

theorem plain_append {names : List Bytes} {location : List Bytes} {name : Bytes}
    (hnames : ∀ name ∈ names, IsPlain name) (hname : name ∈ archive.tree.listing location) :
    ∀ next ∈ names ++ [name], IsPlain next := by
  intro next hnext
  rcases List.mem_append.mp hnext with hnext | hnext
  · exact hnames next hnext
  · rw [List.mem_singleton] at hnext
    exact hnext ▸ CacheRoot.isPlain_of_isPlainPart (listing_plain location name hname)

/-- The loop works off a frame of the iterator, and then goes on with the frames below it. The
directories above the entries are distinct directories of the tree, so that there is fuel for every
one of them. -/
def FrameEnds (archive : ArchiveTree) (fuel : Nat) : Prop :=
  ∀ (location directory names : List Bytes) (frames : List (List Bytes × List Bytes))
    (below above : List (List Bytes)) (rest : List WalkEntry),
    above.length = frames.length + 1 → (below ++ above).Nodup →
    (∀ ancestor ∈ above, ancestor ∈ archive.tree.directories) →
    archive.tree.directories.length ≤ fuel + above.length →
    (∀ name ∈ directory, IsPlain name) → (∀ name ∈ names, name ∈ archive.tree.listing location) →
    (∀ left, (left ++ above).Nodup →
      Finishes archive ⟨frames, left ++ above, (left ++ above).toFinset⟩ rest) →
    Finishes archive ⟨(directory, names) :: frames, below ++ above, (below ++ above).toFinset⟩
      (names.flatMap (archive.entriesAt fuel above directory) ++ rest)

theorem frameEnds_of_lower {fuel : Nat} (ih : ∀ lower, fuel = lower + 1 → FrameEnds archive lower) :
    FrameEnds archive fuel := by
  intro location directory names
  induction names with
  | nil =>
    intro frames below above rest hlength hnodup hancestors hfuel hdirectory hnames hrest
    refine Finishes.congr ?_ (hrest below hnodup)
    rfl
  | cons name names ihnames =>
    intro frames below above rest hlength hnodup hancestors hfuel hdirectory hnames hrest
    have hleave := leaveDirectories_append below above hlength hnodup
    have habove : above.Nodup := (List.nodup_append.mp hnodup).2.1
    have hpath := plain_append hdirectory (hnames name (List.mem_cons_self ..))
    have hothers := fun name hname => hnames name (List.mem_cons_of_mem _ hname)
    rw [List.flatMap_cons, List.append_assoc]
    cases hentered : archive.entered above.toFinset (directory ++ [name]) with
    | none =>
      have hentry : archive.entriesAt fuel above directory name =
          [⟨directory ++ [name], archive.isDirectoryAt (directory ++ [name])⟩] := by
        rw [entriesAt, hentered]
      rw [hentry, List.singleton_append]
      refine .next ?_ (ihnames frames [] above rest hlength habove hancestors hfuel hdirectory
        hothers hrest)
      rw [walkStep]
      simp only [settle, hleave, hentered]
      rfl
    | some canonicalDirectory =>
      obtain ⟨-, hisDirectory, -, hnew⟩ := (entered_eq_some_iff hpath).mp hentered
      rw [List.mem_toFinset] at hnew
      -- one more directory above the entries, so there is fuel left
      have hnodup' : (canonicalDirectory :: above).Nodup := List.nodup_cons.mpr ⟨hnew, habove⟩
      have hancestors' : ∀ ancestor ∈ canonicalDirectory :: above,
          ancestor ∈ archive.tree.directories := by
        intro ancestor hmem
        rcases List.mem_cons.mp hmem with rfl | hmem
        · exact FileTree.mem_directories hisDirectory
        · exact hancestors ancestor hmem
      have hcount := (List.subperm_of_subset hnodup' hancestors').length_le
      rw [List.length_cons] at hcount
      obtain ⟨lower, rfl⟩ : ∃ lower, fuel = lower + 1 := ⟨fuel - 1, by omega⟩
      have hentry : archive.entriesAt (lower + 1) above directory name =
          ⟨directory ++ [name], archive.isDirectoryAt (directory ++ [name])⟩ ::
            (archive.tree.listing canonicalDirectory).flatMap
              (archive.entriesAt lower (canonicalDirectory :: above) (directory ++ [name])) := by
        rw [entriesAt, hentered]
        rfl
      rw [hentry, List.cons_append]
      refine .next ?_ (ih lower rfl canonicalDirectory (directory ++ [name])
        (archive.tree.listing canonicalDirectory) ((directory, names) :: frames) []
        (canonicalDirectory :: above) _ (by simp [hlength]) hnodup' hancestors'
        (by rw [List.length_cons]; omega) hpath (fun _ hname => hname) ?_)
      · rw [walkStep]
        simp only [settle, hleave, hentered, List.nil_append, List.toFinset_cons]
      · intro left hleft
        have hsplit : left ++ canonicalDirectory :: above = left ++ [canonicalDirectory] ++ above := by
          rw [List.append_assoc, List.singleton_append]
        rw [hsplit] at hleft ⊢
        exact ihnames frames (left ++ [canonicalDirectory]) above rest hlength hleft hancestors hfuel
          hdirectory hothers hrest

theorem frameEnds (fuel : Nat) : FrameEnds archive fuel := by
  induction fuel with
  | zero => exact frameEnds_of_lower nofun
  | succ fuel ih =>
    refine frameEnds_of_lower ?_
    rintro lower ⟨⟩
    exact ih

/-- The walk below a child of the root ends, whatever links the tree has. -/
theorem walk_finishes {child : Bytes} {canonicalChildPath : List Bytes} (hchild : IsPlain child)
    (hdirectory : archive.tree.isDirectory canonicalChildPath = true) :
    Finishes archive (archive.walkOf child canonicalChildPath)
      (archive.walkEntries child canonicalChildPath) := by
  have hstart := frameEnds (archive.tree.directories.length) canonicalChildPath [child]
    (archive.tree.listing canonicalChildPath) [] [] [canonicalChildPath] [] rfl
    (List.nodup_singleton _) ?_ (Nat.le_add_right _ _) ?_ (fun _ hname => hname) ?_
  · rw [List.append_nil] at hstart
    exact hstart
  · intro ancestor hmem
    rw [List.mem_singleton] at hmem
    exact hmem ▸ FileTree.mem_directories hdirectory
  · intro name hname
    rw [List.mem_singleton] at hname
    exact hname ▸ hchild
  · exact fun left _ => .done rfl

end Termination

/-! ### The entries it visits -/

/-- The canonical directories, all within the root, that a path of some names passes on its way from
a directory to its last name. -/
inductive Way (archive : ArchiveTree) : List Bytes → List Bytes → List (List Bytes) → Prop
  | here {names : List Bytes} {name : Bytes} : Way archive names [name] []
  | into {names rest directory : List Bytes} {name : Bytes} {directories : List (List Bytes)}
      (hresolve : archive.tryResolve (archive.visible (names ++ [name])) = .ok (some directory))
      (hrest : Way archive (names ++ [name]) rest directories) :
      Way archive names (name :: rest) (directory :: directories)

section Entries

variable {archive : ArchiveTree} {names relative : List Bytes} {above directories : List (List Bytes)}

theorem Way.ne_nil (h : Way archive names relative directories) : relative ≠ [] := by
  cases h <;> exact List.cons_ne_nil _ _

/-- An entry that the walk visits lies at the end of a way on which no directory is entered again. -/
theorem way_of_mem_entriesBelow {fuel : Nat} {entry : WalkEntry} (habove : above.Nodup)
    (hnames : ∀ name ∈ names, IsPlain name) (h : entry ∈ archive.entriesBelow fuel above names) :
    ∃ relative directories, Way archive names relative directories ∧
      (directories.reverse ++ above).Nodup ∧ (∀ name ∈ relative, IsPlainPart name) ∧
      entry = ⟨names ++ relative, archive.isDirectoryAt (names ++ relative)⟩ := by
  induction fuel generalizing above names with
  | zero => exact absurd h List.not_mem_nil
  | succ fuel ih =>
    rw [entriesBelow, List.mem_flatMap] at h
    obtain ⟨name, hname, h⟩ := h
    have hpath := plain_append hnames hname
    have hpart := listing_plain _ name hname
    rcases List.mem_cons.mp h with rfl | h
    · refine ⟨[name], [], .here, habove, ?_, rfl⟩
      intro next hnext
      rw [List.mem_singleton] at hnext
      exact hnext ▸ hpart
    · split at h
      · next directory hentered =>
        obtain ⟨hstatus, -, hwithin, hnew⟩ := (entered_eq_some_iff hpath).mp hentered
        rw [List.mem_toFinset] at hnew
        obtain ⟨rest, directories, hway, hnodup, hrest, rfl⟩ :=
          ih (List.nodup_cons.mpr ⟨hnew, habove⟩) hpath h
        refine ⟨name :: rest, directory :: directories,
          .into ((tryResolve_visible_eq_some hpath).mpr ⟨hstatus, hwithin⟩) hway, ?_, ?_, ?_⟩
        · rw [List.reverse_cons, List.append_assoc, List.singleton_append]
          exact hnodup
        · intro next hnext
          rcases List.mem_cons.mp hnext with rfl | hnext
          · exact hpart
          · exact hrest next hnext
        · rw [List.append_assoc, List.singleton_append]
      · exact absurd h List.not_mem_nil

/-- The walk visits every path that exists and has such a way. -/
theorem mem_entriesBelow_of_way {fuel : Nat} {location target : List Bytes}
    (hway : Way archive names relative directories)
    (hnodup : (directories.reverse ++ location :: above).Nodup)
    (hancestors : ∀ ancestor ∈ location :: above, ancestor ∈ archive.tree.directories)
    (hfuel : archive.tree.directories.length + 1 ≤ fuel + (location :: above).length)
    (hnames : ∀ name ∈ names, IsPlain name) (hrelative : ∀ name ∈ relative, IsPlain name)
    (hlocation : archive.tree.status (archive.canonicalRoot ++ names) = .ok location)
    (htarget : archive.tree.status (archive.canonicalRoot ++ (names ++ relative)) = .ok target) :
    ⟨names ++ relative, archive.isDirectoryAt (names ++ relative)⟩ ∈
      archive.entriesBelow fuel (location :: above) names := by
  -- the directories above are distinct directories of the tree, so there is fuel
  obtain ⟨lower, rfl⟩ : ∃ lower, fuel = lower + 1 := by
    have hcount := (List.subperm_of_subset (List.nodup_append.mp hnodup).2.1 hancestors).length_le
    exact ⟨fuel - 1, by omega⟩
  induction hway generalizing lower location above with
  | @here names name =>
    rw [← List.append_assoc] at htarget
    obtain ⟨parent, hparent, -, hlisted⟩ :=
      FileTree.status_of_append (hrelative name (List.mem_cons_self ..)) htarget
    rw [hlocation] at hparent
    injection hparent with hparent
    subst hparent
    rw [entriesBelow, List.mem_flatMap]
    exact ⟨name, hlisted, List.mem_cons_self ..⟩
  | @into names rest directory name directories hresolve hrest ih =>
    obtain ⟨next, rest, rfl⟩ := List.exists_cons_of_ne_nil hrest.ne_nil
    have hpath : ∀ part ∈ names ++ [name], IsPlain part := by
      intro part hpart
      rcases List.mem_append.mp hpart with hpart | hpart
      · exact hnames part hpart
      · rw [List.mem_singleton] at hpart
        exact hpart ▸ hrelative name (List.mem_cons_self ..)
    have hbelow : names ++ name :: next :: rest = names ++ [name] ++ next :: rest := by
      rw [List.append_assoc, List.singleton_append]
    obtain ⟨hstatus, hwithin⟩ := (tryResolve_visible_eq_some hpath).mp hresolve
    obtain ⟨parent, hparent, -, hlisted⟩ : ∃ parent,
        archive.tree.status (archive.canonicalRoot ++ names) = .ok parent ∧
          archive.tree.isDirectory parent = true ∧ name ∈ archive.tree.listing parent := by
      rw [← List.append_assoc] at htarget
      exact FileTree.status_of_append (hrelative name (List.mem_cons_self ..)) htarget
    rw [hlocation] at hparent
    injection hparent with hparent
    subst hparent
    rw [hbelow] at htarget ⊢
    obtain ⟨entered', hentered', hisDirectory, -⟩ : ∃ parent,
        archive.tree.status (archive.canonicalRoot ++ (names ++ [name])) = .ok parent ∧
          archive.tree.isDirectory parent = true ∧ next ∈ archive.tree.listing parent := by
      rw [← List.append_assoc] at htarget
      exact FileTree.status_of_append
        (hrelative next (List.mem_cons_of_mem _ (List.mem_cons_self ..))) htarget
    rw [hstatus] at hentered'
    injection hentered' with hentered'
    subst hentered'
    rw [List.reverse_cons, List.append_assoc, List.singleton_append] at hnodup
    have hnew : directory ∉ (location :: above).toFinset := by
      rw [List.mem_toFinset]
      exact (List.nodup_cons.mp (List.nodup_append.mp hnodup).2.1).1
    have hentered := (entered_eq_some_iff hpath).mpr ⟨hstatus, hisDirectory, hwithin, hnew⟩
    have hancestors' : ∀ ancestor ∈ directory :: location :: above,
        ancestor ∈ archive.tree.directories := by
      intro ancestor hmem
      rcases List.mem_cons.mp hmem with rfl | hmem
      · exact FileTree.mem_directories hisDirectory
      · exact hancestors ancestor hmem
    have hcount := (List.subperm_of_subset (List.nodup_append.mp hnodup).2.1 hancestors').length_le
    rw [List.length_cons] at hcount
    obtain ⟨lower, rfl⟩ : ∃ lower', lower = lower' + 1 := ⟨lower - 1, by omega⟩
    rw [entriesBelow, List.mem_flatMap]
    refine ⟨name, hlisted, List.mem_cons_of_mem _ ?_⟩
    rw [hentered]
    refine ih hnodup hancestors' hpath (fun part hpart => hrelative part (List.mem_cons_of_mem _ hpart))
      hstatus htarget lower ?_
    rw [List.length_cons]
    omega

end Entries

end ArchiveTree

end InpxWebReader.Storage
