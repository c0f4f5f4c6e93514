import InpxWebReader.Scan.ArchiveRootIndex
import InpxWebReader.Storage.ArchiveWalk

/-!
# Which archive a lookup finds

Whatever an index has been asked before, a lookup that returns gives the same answer: the direct
candidate, or the candidate below the least child of the root that has an archive of that name, or
nothing (`lookup_spec`). `answer_iff` says for a tree of files with links what it means that a child
has an archive: the path exists within the root, is not a directory, and no directory on the way to
it is entered twice.
-/

namespace InpxWebReader.Scan

open Foundation Storage Program LexicalPath
open Database (byteOrder)

/-! ### Any root -/

/-- The error of a lookup that visits too many entries. -/
def entryLimitError (maxFilesystemEntries : Nat) : Exception :=
  .failed (.standard (ascii ("INPX archive fallback lookup exceeds the configured " ++
    "filesystem entry limit of ") ++ decimal maxFilesystemEntries ++ ascii "."))

namespace ArchiveRoot

/-- The children that the snapshot walks, in their order. -/
def fallbackChildren (root : ArchiveRoot) : List Bytes :=
  ((root.entries.filter (isFallbackChild root)).map RootEntry.name).insertionSort byteOrder

/-- The path of an archive below a child. -/
def candidateBelow (child key : Bytes) : Bytes := lexicallyNormal (joinPath [child, key])

/-- The walk below a child comes to an archive of that name. -/
def HasBelow (root : ArchiveRoot) (child key : Bytes) : Prop :=
  (∃ entry ∈ root.walk child, entry.isDirectory = false ∧ entry.key = key) ∧
    isSafeRelativePath key = true ∧ hasZipArchiveExtension key = true ∧
    ∃ resolved, root.resolveCandidate (candidateBelow child key) = .ok (some resolved)

/-- The least child that has an archive of that name. -/
structure IsFirstChild (root : ArchiveRoot) (child key : Bytes) : Prop where
  isChild : child ∈ root.fallbackChildren
  has : root.HasBelow child key
  least : ∀ other ∈ root.fallbackChildren, root.HasBelow other key → byteOrder child other

/-- The number of entries that building the snapshot visits. -/
def snapshotEntries (root : ArchiveRoot) : Nat :=
  root.entries.length + (root.fallbackChildren.map fun child => (root.walk child).length).sum

/-- The archives that a lookup finds. -/
inductive Answers (root : ArchiveRoot) (archiveRelativePath : Bytes) : Option Bytes → Prop
  | direct {resolved : Bytes}
      (h : root.resolveCandidate archiveRelativePath = .ok (some resolved)) :
      Answers root archiveRelativePath (some resolved)
  | fallback {child resolved : Bytes}
      (hdirect : ∀ p, root.resolveCandidate archiveRelativePath ≠ .ok (some p))
      (hchild : root.IsFirstChild child archiveRelativePath)
      (h : root.resolveCandidate (candidateBelow child archiveRelativePath) = .ok (some resolved)) :
      Answers root archiveRelativePath (some resolved)
  | nothing (hdirect : root.resolveCandidate archiveRelativePath = .ok none)
      (hchild : ∀ child ∈ root.fallbackChildren, ¬root.HasBelow child archiveRelativePath) :
      Answers root archiveRelativePath none

end ArchiveRoot

/-- What holds of the candidates of an index at any time: each is the first of its name. -/
def CandidatesFirst (root : ArchiveRoot) (index : RootIndex) : Prop :=
  ∀ key candidate, index.fallbackCandidates.lookup key = some candidate →
    ∃ child, root.IsFirstChild child key ∧ candidate = ArchiveRoot.candidateBelow child key

/-- The archives below the child are among the candidates. -/
def ChildIndexed (root : ArchiveRoot) (child : Bytes) (index : RootIndex) : Prop :=
  ∀ key, root.HasBelow child key → (index.fallbackCandidates.lookup key).isSome = true

/-- What holds of an index between two lookups. -/
structure IndexValid (root : ArchiveRoot) (limit : Nat) (index : RootIndex) : Prop where
  first : CandidatesFirst root index
  visited : index.filesystemEntriesVisited ≤ limit
  built : index.fallbackSnapshotBuilt = true →
    (∀ child ∈ root.fallbackChildren, ChildIndexed root child index) ∧
      root.snapshotEntries ≤ index.filesystemEntriesVisited

section AnyRoot

variable {stop : StopRequest} {root : ArchiveRoot} {limit : Nat} {index : RootIndex}
  {child key : Bytes}

theorem byteOrder_total (a b : Bytes) : byteOrder a b ∨ byteOrder b a := le_total _ _

theorem byteOrder_trans {a b c : Bytes} (h : byteOrder a b) (h' : byteOrder b c) : byteOrder a c :=
  le_trans h h'

theorem byteOrder_antisymm {a b : Bytes} (h : byteOrder a b) (h' : byteOrder b a) : a = b :=
  List.map_injective_iff.mpr (fun _ _ => UInt8.toNat_inj.mp) (le_antisymm h h')

instance : Std.Total byteOrder := ⟨byteOrder_total⟩

instance : IsTrans Bytes byteOrder := ⟨fun _ _ _ => byteOrder_trans⟩

/-- An entry of the walk keeps the candidates first of their names, where the children before it are
indexed. -/
theorem candidatesFirst_indexFallbackEntry {before after : List Bytes}
    (hchildren : root.fallbackChildren = before ++ child :: after)
    (hbefore : ∀ other ∈ before, ChildIndexed root other index) (hfirst : CandidatesFirst root index)
    {entry : WalkedEntry} (hentry : entry ∈ root.walk child) (hfile : entry.isDirectory = false) :
    CandidatesFirst root (indexFallbackEntry root child entry.key index) := by
  have hsorted : root.fallbackChildren.Pairwise byteOrder := List.pairwise_insertionSort ..
  rw [indexFallbackEntry]
  split
  · next hnew =>
    obtain ⟨hsafe, hzip, hmissing⟩ := hnew
    split
    · next resolved hresolve =>
      intro key candidate hlookup
      rw [List.lookup_append, Option.or_eq_some_iff] at hlookup
      rcases hlookup with hlookup | ⟨-, hlookup⟩
      · exact hfirst key candidate hlookup
      · rw [List.lookup_singleton] at hlookup
        split at hlookup
        · next hkey =>
          rw [beq_iff_eq] at hkey
          subst hkey
          injection hlookup with hlookup
          have hhas : root.HasBelow child entry.key :=
            ⟨⟨entry, hentry, hfile, rfl⟩, hsafe, hzip, resolved, hresolve⟩
          refine ⟨child, ⟨?_, hhas, ?_⟩, hlookup.symm⟩
          · rw [hchildren]
            exact List.mem_append_right _ (List.mem_cons_self ..)
          · intro other hother hhas'
            rw [hchildren] at hother hsorted
            rcases List.mem_append.mp hother with hother | hother
            · have hindexed := hbefore other hother entry.key hhas'
              rw [hmissing] at hindexed
              cases hindexed
            · rcases List.mem_cons.mp hother with rfl | hother
              · exact le_refl _
              · exact (List.pairwise_cons.mp (List.pairwise_append.mp hsorted).2.1).1 other hother
        · cases hlookup
    · exact hfirst
  · exact hfirst

theorem lookup_indexFallbackEntry (entryKey : Bytes)
    (h : (index.fallbackCandidates.lookup key).isSome = true) :
    ((indexFallbackEntry root child entryKey index).fallbackCandidates.lookup key).isSome = true := by
  rw [indexFallbackEntry]
  split
  · split
    · rw [List.lookup_append, Option.isSome_or, h, Bool.true_or]
    · exact h
  · exact h

/-- After its entry an archive is among the candidates. -/
theorem lookup_indexFallbackEntry_self (hhas : root.HasBelow child key) :
    ((indexFallbackEntry root child key index).fallbackCandidates.lookup key).isSome = true := by
  obtain ⟨-, hsafe, hzip, resolved, hresolve⟩ := hhas
  by_cases hmissing : index.fallbackCandidates.lookup key = none
  · rw [indexFallbackEntry]
    simp only [hsafe, hzip, hmissing, and_self, if_true]
    rw [show root.resolveCandidate (lexicallyNormal (joinPath [child, key])) =
      .ok (some resolved) from hresolve]
    simp [List.lookup_append]
  · exact lookup_indexFallbackEntry key (Option.isSome_iff_ne_none.mpr hmissing)

theorem visited_indexFallbackEntry (entryKey : Bytes) :
    (indexFallbackEntry root child entryKey index).filesystemEntriesVisited =
      index.filesystemEntriesVisited := by
  rw [indexFallbackEntry]
  split
  · split <;> rfl
  · rfl

theorem built_indexFallbackEntry (entryKey : Bytes) :
    (indexFallbackEntry root child entryKey index).fallbackSnapshotBuilt =
      index.fallbackSnapshotBuilt := by
  rw [indexFallbackEntry]
  split
  · split <;> rfl
  · rfl

/-! ### Building the snapshot -/

/-- What a throw leaves while the snapshot is built from an index: a valid index, and a stop that is
requested, or more entries than the limit allows. -/
def BuildFailed (stop : StopRequest) (root : ArchiveRoot) (limit : Nat) (start : RootIndex) :
    Exception → ArchiveLookup → Prop := fun e s =>
  IndexValid root limit s.rootIndex ∧
    ((e = .cancelled ∧ stop.requested s.progress = true) ∨
      (e = entryLimitError limit ∧ limit < start.filesystemEntriesVisited + root.snapshotEntries))

/-- The index while the snapshot is built: `visits` more entries were visited, the children of
`before` are indexed. -/
structure Building (root : ArchiveRoot) (limit : Nat) (start : RootIndex) (before : List Bytes)
    (visits : Nat) (index : RootIndex) : Prop where
  first : CandidatesFirst root index
  unbuilt : index.fallbackSnapshotBuilt = false
  visited : index.filesystemEntriesVisited = start.filesystemEntriesVisited + visits
  within : index.filesystemEntriesVisited ≤ limit
  indexed : ∀ child ∈ before, ChildIndexed root child index

theorem Building.valid {start : RootIndex} {before : List Bytes} {visits : Nat}
    (h : Building root limit start before visits index) : IndexValid root limit index where
  first := h.first
  visited := h.within
  built hbuilt := by
    rw [h.unbuilt] at hbuilt
    cases hbuilt

variable {start : RootIndex} {before : List Bytes} {visits : Nat}

/-- A step of the progress that throws for a stop request only. -/
def OnlyStops (stop : StopRequest) (c : ProgressM Unit) : Prop :=
  Triple (fun _ => True) c (fun _ _ => True) fun e p => e = .cancelled ∧ stop.requested p = true

theorem onlyStops_throwIfCancelled (site : CheckpointSite) :
    OnlyStops stop (throwIfCancelled stop site) := by
  rw [OnlyStops, throwIfCancelled]
  refine .bind (M := fun p₀ p => p = p₀) (.get fun _ _ => rfl) fun p₀ => .ite (fun hstop => ?_)
    fun _ => .modify fun _ _ => trivial
  -- what is published leaves the clock alone
  have hrequested : ∀ p : Progress, p.clock = p₀.clock → stop.requested p = true := by
    intro p hp
    rw [StopRequest.requested, hp]
    exact hstop
  refine .seq (M := fun p => p.clock = p₀.clock) (.modify fun p hp => by rw [hp]) ?_
  exact .seq (M := fun p => p.clock = p₀.clock) (.modify fun _ hp => hp)
    (.throw fun p hp => ⟨rfl, hrequested p hp⟩)

theorem onlyStops_runCheckpoints (site : CheckpointSite) (n : Nat) :
    OnlyStops stop (runCheckpoints stop site n) := by
  induction n with
  | zero => exact .pure fun _ h => h
  | succ n ih => exact .seq (onlyStops_throwIfCancelled site) ih

theorem onProgress_spec {c : ProgressM Unit} (hc : OnlyStops stop c) {P : RootIndex → Prop}
    (hP : ∀ index, P index → IndexValid root limit index) :
    Triple (fun s => P s.rootIndex) (ArchiveLookup.onProgress c) (fun _ s => P s.rootIndex)
      (BuildFailed stop root limit start) := by
  refine .zoom fun s hs => ?_
  exact (hc.pre fun _ _ => trivial).conseq (fun _ h => h) (fun _ _ _ => hs) fun e _ h =>
    ⟨hP s.rootIndex hs, .inl h⟩

/-- One more entry is visited, or the limit is reached. The candidates stay. -/
theorem notifyEntryVisited_spec (hvisits : visits < root.snapshotEntries)
    (K : List (Bytes × Bytes) → Prop) :
    Triple (fun s => Building root limit start before visits s.rootIndex ∧
        K s.rootIndex.fallbackCandidates)
      (notifyEntryVisited limit)
      (fun _ s => Building root limit start before (visits + 1) s.rootIndex ∧
        K s.rootIndex.fallbackCandidates)
      (BuildFailed stop root limit start) := by
  rw [notifyEntryVisited]
  refine .bind (M := fun s₀ s => s = s₀ ∧ Building root limit start before visits s.rootIndex ∧
      K s.rootIndex.fallbackCandidates)
    (.get fun s h => ⟨rfl, h⟩) fun s₀ => .ite (fun hlimit => ?_) fun hlimit => ?_
  · refine .throw fun s h => ?_
    obtain ⟨rfl, h, -⟩ := h
    refine ⟨h.valid, .inr ⟨rfl, ?_⟩⟩
    rw [h.visited] at hlimit
    omega
  · intro s h
    obtain ⟨rfl, h, hK⟩ := h
    have hwithin := h.within
    have hvisited := h.visited
    refine ⟨⟨h.first, h.unbuilt, ?_, ?_, h.indexed⟩, hK⟩
    · show s.rootIndex.filesystemEntriesVisited + 1 = _
      omega
    · show s.rootIndex.filesystemEntriesVisited + 1 ≤ limit
      omega

theorem exists_resolve_of_mem_fallbackChildren (h : child ∈ root.fallbackChildren) :
    ∃ resolved, root.resolveCandidate child = .ok (some resolved) := by
  rw [ArchiveRoot.fallbackChildren, List.mem_insertionSort] at h
  obtain ⟨entry, hentry, rfl⟩ := List.mem_map.mp h
  obtain ⟨-, hchild⟩ := List.mem_filter.mp hentry
  rw [isFallbackChild, Bool.and_eq_true] at hchild
  obtain ⟨-, hresolve⟩ := hchild
  split at hresolve
  · next resolved hresolved => exact ⟨resolved, hresolved⟩
  · cases hresolve

/-- The archives of the entries seen are among the candidates. -/
def SeenIndexed (root : ArchiveRoot) (child : Bytes) (seen : List WalkedEntry)
    (candidates : List (Bytes × Bytes)) : Prop :=
  ∀ entry ∈ seen, entry.isDirectory = false → root.HasBelow child entry.key →
    (candidates.lookup entry.key).isSome = true

/-- The round of `indexFallbackChild` for one entry. -/
def visitWalkedEntry (stop : StopRequest) (root : ArchiveRoot) (limit : Nat) (child : Bytes)
    (entry : WalkedEntry) : LookupM Unit := do
  ArchiveLookup.onProgress (throwIfCancelled stop .archiveResolution)
  notifyEntryVisited limit
  if entry.isDirectory then pure ()
  else modify fun s => { s with rootIndex := indexFallbackEntry root child entry.key s.rootIndex }

theorem visitWalkedEntry_spec {after : List Bytes} {entry : WalkedEntry} (seen : List WalkedEntry)
    (hchildren : root.fallbackChildren = before ++ child :: after) (hentry : entry ∈ root.walk child)
    (hvisits : visits < root.snapshotEntries) :
    Triple (fun s => Building root limit start before visits s.rootIndex ∧
        SeenIndexed root child seen s.rootIndex.fallbackCandidates)
      (visitWalkedEntry stop root limit child entry)
      (fun _ s => Building root limit start before (visits + 1) s.rootIndex ∧
        SeenIndexed root child (seen ++ [entry]) s.rootIndex.fallbackCandidates)
      (BuildFailed stop root limit start) := by
  rw [visitWalkedEntry]
  refine .seq (onProgress_spec (onlyStops_throwIfCancelled .archiveResolution) (P := fun index =>
    Building root limit start before visits index ∧
      SeenIndexed root child seen index.fallbackCandidates) fun _ h => h.1.valid) ?_
  refine .seq (notifyEntryVisited_spec hvisits (SeenIndexed root child seen)) ?_
  refine .ite (fun hdirectory => .pure fun s h => ⟨h.1, ?_⟩) fun hfile => .modify fun s h => ?_
  · intro e he hfile hhas
    rcases List.mem_append.mp he with he | he
    · exact h.2 e he hfile hhas
    · rw [List.mem_singleton] at he
      subst he
      rw [hdirectory] at hfile
      cases hfile
  · rw [Bool.not_eq_true] at hfile
    obtain ⟨h, hseen⟩ := h
    refine ⟨⟨candidatesFirst_indexFallbackEntry hchildren h.indexed h.first hentry hfile, ?_, ?_, ?_,
      ?_⟩, ?_⟩
    · rw [built_indexFallbackEntry]
      exact h.unbuilt
    · rw [visited_indexFallbackEntry]
      exact h.visited
    · rw [visited_indexFallbackEntry]
      exact h.within
    · exact fun other hother key hhas =>
        lookup_indexFallbackEntry entry.key (h.indexed other hother key hhas)
    · intro e he hfile' hhas
      rcases List.mem_append.mp he with he | he
      · exact lookup_indexFallbackEntry entry.key (hseen e he hfile' hhas)
      · rw [List.mem_singleton] at he
        subst he
        exact lookup_indexFallbackEntry_self hhas

theorem indexFallbackChild_spec {after : List Bytes}
    (hchildren : root.fallbackChildren = before ++ child :: after)
    (hvisits : visits + (root.walk child).length ≤ root.snapshotEntries) :
    Triple (fun s => Building root limit start before visits s.rootIndex)
      (indexFallbackChild stop root limit child)
      (fun _ s => Building root limit start (before ++ [child])
        (visits + (root.walk child).length) s.rootIndex)
      (BuildFailed stop root limit start) := by
  have hmem : child ∈ root.fallbackChildren := by
    rw [hchildren]
    exact List.mem_append_right _ (List.mem_cons_self ..)
  obtain ⟨resolved, hresolve⟩ := exists_resolve_of_mem_fallbackChildren hmem
  rw [indexFallbackChild]
  simp only [hresolve]
  have hloop : Triple
      (fun s => Building root limit start before visits s.rootIndex ∧
        SeenIndexed root child [] s.rootIndex.fallbackCandidates)
      ((root.walk child).forM (visitWalkedEntry stop root limit child))
      (fun _ s => Building root limit start before (visits + (root.walk child).length) s.rootIndex ∧
        SeenIndexed root child (root.walk child) s.rootIndex.fallbackCandidates)
      (BuildFailed stop root limit start) := by
    refine Triple.forM (fun seen (s : ArchiveLookup) =>
      Building root limit start before (visits + seen.length) s.rootIndex ∧
        SeenIndexed root child seen s.rootIndex.fallbackCandidates) fun seen entry rest hsplit => ?_
    have hentry : entry ∈ root.walk child := by
      rw [hsplit]
      exact List.mem_append_right _ (List.mem_cons_self ..)
    rw [List.length_append]
    refine visitWalkedEntry_spec seen hchildren hentry ?_
    rw [hsplit, List.length_append, List.length_cons] at hvisits
    omega
  refine hloop.conseq (fun s h => ⟨h, fun e he => absurd he List.not_mem_nil⟩) ?_ fun _ _ h => h
  intro _ s h
  obtain ⟨h, hseen⟩ := h
  refine ⟨h.first, h.unbuilt, h.visited, h.within, ?_⟩
  intro other hother key hhas
  rcases List.mem_append.mp hother with hother | hother
  · exact h.indexed other hother key hhas
  · rw [List.mem_singleton] at hother
    subst hother
    have hwalk := hhas.1
    obtain ⟨entry, hentry, hfile, rfl⟩ := hwalk
    exact hseen entry hentry hfile hhas

/-- The snapshot is there after it was asked for: built from a valid index, or already there. -/
theorem ensureFallbackSnapshot_spec (hvalid : IndexValid root limit start) :
    Triple (fun s => s.rootIndex = start) (ensureFallbackSnapshot stop root limit)
      (fun _ s => IndexValid root limit s.rootIndex ∧ s.rootIndex.fallbackSnapshotBuilt = true ∧
        (start.fallbackSnapshotBuilt = true → s.rootIndex = start))
      (fun e s => BuildFailed stop root limit start e s ∧ start.fallbackSnapshotBuilt = false) := by
  rw [ensureFallbackSnapshot]
  refine .bind (M := fun s₀ s => s = s₀ ∧ s.rootIndex = start) (.get fun s h => ⟨rfl, h⟩)
    fun s₀ => .ite (fun hbuilt => ?_) fun hunbuilt => ?_
  · refine .pure fun s h => ?_
    obtain ⟨rfl, rfl⟩ := h
    exact ⟨hvalid, hbuilt, fun _ => rfl⟩
  · rw [Bool.not_eq_true] at hunbuilt
    refine .of_state fun s h => ?_
    obtain ⟨rfl, rfl⟩ := h
    refine Triple.error ?_ fun _ _ h => ⟨h, hunbuilt⟩
    suffices hbuild : Triple (fun s' => s' = s) _ (fun _ s' => IndexValid root limit s'.rootIndex ∧
        s'.rootIndex.fallbackSnapshotBuilt = true) (BuildFailed stop root limit s.rootIndex) from
      hbuild.post fun _ _ h => ⟨h.1, h.2, fun hbuilt => absurd hbuilt (by simp [hunbuilt])⟩
    have hstart : Building root limit s.rootIndex [] 0 s.rootIndex :=
      ⟨hvalid.first, hunbuilt, rfl, hvalid.visited, fun _ h => absurd h List.not_mem_nil⟩
    have hvalid' : ∀ (before : List Bytes) (visits : Nat) (index : RootIndex),
        Building root limit s.rootIndex before visits index → IndexValid root limit index :=
      fun _ _ _ h => h.valid
    refine .seq (M := fun s' =>
      Building root limit s.rootIndex [] root.entries.length s'.rootIndex) ?_ ?_
    · refine (Triple.forM (fun done (s' : ArchiveLookup) =>
        Building root limit s.rootIndex [] done.length s'.rootIndex)
        fun done entry rest hsplit => ?_).pre fun s' hs' => hs' ▸ hstart
      refine .seq (onProgress_spec (onlyStops_throwIfCancelled .archiveResolution)
        (hvalid' [] done.length)) ?_
      have hcount : done.length < root.snapshotEntries := by
        rw [ArchiveRoot.snapshotEntries, hsplit, List.length_append, List.length_cons]
        omega
      refine ((notifyEntryVisited_spec hcount fun _ => True).pre fun s' h => ⟨h, trivial⟩).post
        fun _ s' h => ?_
      rw [List.length_append]
      exact h.1
    · refine .seq (onProgress_spec (onlyStops_runCheckpoints .archiveResolution _)
        (hvalid' [] root.entries.length)) ?_
      refine .seq (M := fun s' => Building root limit s.rootIndex root.fallbackChildren
        root.snapshotEntries s'.rootIndex) ?_ (.modify fun s' h => ⟨⟨h.first, h.within, fun _ =>
          ⟨h.indexed, ?_⟩⟩, rfl⟩)
      · refine Triple.forM (fun done (s' : ArchiveLookup) => Building root limit s.rootIndex done
          (root.entries.length + (done.map fun child => (root.walk child).length).sum) s'.rootIndex)
          fun done child rest hsplit => ?_
        refine .seq (onProgress_spec (onlyStops_throwIfCancelled .archiveResolution)
          (hvalid' done _)) ?_
        have hcount : root.entries.length + (done.map fun child => (root.walk child).length).sum +
            (root.walk child).length ≤ root.snapshotEntries := by
          have hchildren : root.fallbackChildren = done ++ child :: rest := hsplit
          rw [ArchiveRoot.snapshotEntries, hchildren, List.map_append, List.sum_append,
            List.map_cons, List.sum_cons]
          omega
        refine (indexFallbackChild_spec hsplit hcount).post fun _ s' h => ?_
        rw [List.map_append, List.sum_append, ← Nat.add_assoc]
        simpa using h
      · have hvisited := h.visited
        show root.snapshotEntries ≤ s'.rootIndex.filesystemEntriesVisited
        omega

/-! ### The lookup -/

/-- The candidate of the snapshot is below the least child that has the archive. -/
theorem fallbackPath_eq_some {resolved : Bytes} (hvalid : IndexValid root limit index)
    (h : fallbackPath root key index = some resolved) :
    ∃ child, root.IsFirstChild child key ∧
      root.resolveCandidate (ArchiveRoot.candidateBelow child key) = .ok (some resolved) := by
  rw [fallbackPath] at h
  split at h
  · next path hpath =>
    obtain ⟨candidate, hlookup, hresolve⟩ := Option.map_eq_some_iff.mp hpath
    obtain ⟨child, hchild, rfl⟩ := hvalid.first key candidate hlookup
    exact ⟨child, hchild, h ▸ hresolve⟩
  · cases h

theorem fallbackPath_eq_none (hvalid : IndexValid root limit index)
    (hbuilt : index.fallbackSnapshotBuilt = true) (h : fallbackPath root key index = none) :
    ∀ child ∈ root.fallbackChildren, ¬root.HasBelow child key := by
  intro child hchild hhas
  have hindexed := (hvalid.built hbuilt).1 child hchild key hhas
  obtain ⟨candidate, hlookup⟩ := Option.isSome_iff_exists.mp hindexed
  obtain ⟨first, hfirst, rfl⟩ := hvalid.first key candidate hlookup
  obtain ⟨-, -, -, resolved, hresolve⟩ := hfirst.has
  rw [fallbackPath, hlookup, Option.map_some, hresolve] at h
  cases h

def archiveRelativePath (archiveName : Bytes) : Bytes :=
  buildZipArchiveFileRelativePath (lexicallyNormal archiveName)

inductive LookupFails (stop : StopRequest) (root : ArchiveRoot) (limit : Nat) (archiveName : Bytes)
    (start : RootIndex) (after : ArchiveLookup) : Exception → Prop
  | stopped (h : stop.requested after.progress = true) : LookupFails stop root limit archiveName start after .cancelled
  | unsafeName (h : isSafeRelativePath (lexicallyNormal archiveName) = false)
      (hindex : after.rootIndex = start) : LookupFails stop root limit archiveName start after
        (.failed (runtimeError "INPX archive path is unsafe."))
  | tooManyEntries
      (hdirect : ∀ p, root.resolveCandidate (archiveRelativePath archiveName) ≠ .ok (some p))
      (hsafe : isSafeRelativePath (lexicallyNormal archiveName) = true)
      (hbuilt : start.fallbackSnapshotBuilt = false)
      (h : limit < start.filesystemEntriesVisited + root.snapshotEntries) :
      LookupFails stop root limit archiveName start after (entryLimitError limit)
  | direct {failure : Failure}
      (h : root.resolveCandidate (archiveRelativePath archiveName) = .error failure)
      (hchild : ∀ child ∈ root.fallbackChildren,
        ¬root.HasBelow child (archiveRelativePath archiveName))
      (hsafe : isSafeRelativePath (lexicallyNormal archiveName) = true)
      (hbuilt : after.rootIndex.fallbackSnapshotBuilt = true) :
      LookupFails stop root limit archiveName start after (.failed failure)

/-- What a lookup does, from any index that earlier lookups may have left. -/
theorem lookup_spec (hvalid : IndexValid root limit start) (archiveName : Bytes) :
    Triple (fun s => s.rootIndex = start)
      (tryResolveExistingZipArchivePath stop root limit archiveName)
      (fun answer s => IndexValid root limit s.rootIndex ∧
        root.Answers (archiveRelativePath archiveName) answer ∧
        isSafeRelativePath (lexicallyNormal archiveName) = true ∧
        (s.rootIndex.fallbackSnapshotBuilt = true ∨ s.rootIndex = start ∧
          ∃ p, root.resolveCandidate (archiveRelativePath archiveName) = .ok (some p)))
      (fun e s => IndexValid root limit s.rootIndex ∧
        LookupFails stop root limit archiveName start s e) := by
  rw [tryResolveExistingZipArchivePath]
  refine .bind (M := fun _ s => s.rootIndex = start) ?_ fun _ => ?_
  · refine .zoom fun s hs => ?_
    refine ((onlyStops_throwIfCancelled .archiveResolution).pre fun _ _ => trivial).conseq
      (fun _ h => h) (fun _ _ _ => hs) ?_
    rintro e _ ⟨rfl, hstop⟩
    exact ⟨hs ▸ hvalid, .stopped hstop⟩
  refine .ite (fun hnotSafe => .throw fun s hs => ?_) fun hsafe => ?_
  · exact ⟨hs ▸ hvalid, .unsafeName (Bool.not_eq_true _ ▸ hnotSafe) hs⟩
  rw [not_not] at hsafe
  dsimp only
  split
  · next direct hdirect =>
    exact .pure fun s hs => ⟨hs ▸ hvalid, .direct hdirect, hsafe, .inr ⟨hs, direct, hdirect⟩⟩
  · next hdirect =>
    refine .bind (M := fun _ s => IndexValid root limit s.rootIndex ∧
      s.rootIndex.fallbackSnapshotBuilt = true) ?_ fun _ => ?_
    · refine (ensureFallbackSnapshot_spec hvalid).conseq (fun _ h => h) (fun _ _ h => ⟨h.1, h.2.1⟩) ?_
      rintro e s ⟨⟨hvalid', ⟨rfl, hstop⟩ | ⟨rfl, hlimit⟩⟩, hunbuilt⟩
      · exact ⟨hvalid', .stopped hstop⟩
      · exact ⟨hvalid', .tooManyEntries hdirect hsafe hunbuilt hlimit⟩
    refine .bind (M := fun s₀ s => s = s₀ ∧ IndexValid root limit s.rootIndex ∧
      s.rootIndex.fallbackSnapshotBuilt = true) (.get fun s h => ⟨rfl, h⟩) fun s₀ => ?_
    refine .of_state fun s h => ?_
    obtain ⟨rfl, hvalid', hbuilt⟩ := h
    split
    · next resolved hpath =>
      obtain ⟨child, hchild, hresolve⟩ := fallbackPath_eq_some hvalid' hpath
      refine .pure fun s' hs' => ?_
      subst hs'
      exact ⟨hvalid', .fallback hdirect hchild hresolve, hsafe, .inl hbuilt⟩
    · next hpath =>
      have hnone := fallbackPath_eq_none hvalid' hbuilt hpath
      rw [ofFileSystem]
      have hresolve : root.resolveCandidate (buildZipArchiveFileRelativePath
          (lexicallyNormal archiveName)) =
          root.resolveCandidate (archiveRelativePath archiveName) := rfl
      rw [hresolve] at hdirect ⊢
      refine .ofExcept (fun answer s' hanswer hs' => ?_) fun e s' herror hs' => ?_
      · subst hs'
        cases hcase : root.resolveCandidate (archiveRelativePath archiveName) with
        | error failure =>
          rw [hcase] at hanswer
          cases hanswer
        | ok resolved =>
          rw [hcase] at hanswer
          injection hanswer with hanswer
          subst hanswer
          cases resolved with
          | none => exact ⟨hvalid', .nothing hcase hnone, hsafe, .inl hbuilt⟩
          | some resolved => exact absurd hcase (hdirect resolved)
      · subst hs'
        cases hcase : root.resolveCandidate (archiveRelativePath archiveName) with
        | error failure =>
          rw [hcase] at herror
          injection herror with herror
          subst herror
          exact ⟨hvalid', .direct hcase hnone hsafe hbuilt⟩
        | ok resolved =>
          rw [hcase] at herror
          cases herror

/-! ### Lookups one after the other -/

/-- The state of an index after lookups of some names, each of which returned or threw. -/
def afterLookups (stop : StopRequest) (root : ArchiveRoot) (limit : Nat) (s : ArchiveLookup)
    (names : List Bytes) : ArchiveLookup :=
  names.foldl (fun s name => stateAfter (tryResolveExistingZipArchivePath stop root limit name s)) s

/-- What a lookup of a name comes to, where it is not stopped. -/
inductive ArchiveRoot.Outcome (root : ArchiveRoot) (limit : Nat) (archiveName : Bytes) :
    Except Exception (Option Bytes) → Prop
  | unsafeName (hnotSafe : isSafeRelativePath (lexicallyNormal archiveName) = false) :
      Outcome root limit archiveName (.error (.failed (runtimeError "INPX archive path is unsafe.")))
  | found {answer : Option Bytes} (hsafe : isSafeRelativePath (lexicallyNormal archiveName) = true)
      (h : root.Answers (archiveRelativePath archiveName) answer)
      (hlimit : root.snapshotEntries ≤ limit ∨
        ∃ p, root.resolveCandidate (archiveRelativePath archiveName) = .ok (some p)) :
      Outcome root limit archiveName (.ok answer)
  | tooManyEntries (hsafe : isSafeRelativePath (lexicallyNormal archiveName) = true)
      (hdirect : ∀ p, root.resolveCandidate (archiveRelativePath archiveName) ≠ .ok (some p))
      (hlimit : limit < root.snapshotEntries) :
      Outcome root limit archiveName (.error (entryLimitError limit))
  | directError {failure : Failure} (hsafe : isSafeRelativePath (lexicallyNormal archiveName) = true)
      (hdirect : root.resolveCandidate (archiveRelativePath archiveName) = .error failure)
      (hchild : ∀ child ∈ root.fallbackChildren,
        ¬root.HasBelow child (archiveRelativePath archiveName))
      (hlimit : root.snapshotEntries ≤ limit) :
      Outcome root limit archiveName (.error (.failed failure))

theorem ArchiveRoot.IsFirstChild.unique {other : Bytes} (h : root.IsFirstChild child key)
    (h' : root.IsFirstChild other key) : child = other :=
  byteOrder_antisymm (h.least other h'.isChild h'.has) (h'.least child h.isChild h.has)

theorem ArchiveRoot.Answers.unique {answer answer' : Option Bytes} (h : root.Answers key answer)
    (h' : root.Answers key answer') : answer = answer' := by
  cases h with
  | direct h =>
    cases h' with
    | direct h' =>
      rw [h] at h'
      injection h'
    | fallback hdirect => exact absurd h (hdirect _)
    | nothing hdirect =>
      rw [h] at hdirect
      cases hdirect
  | fallback hdirect hchild h =>
    cases h' with
    | direct h' => exact absurd h' (hdirect _)
    | fallback _ hchild' h' =>
      rw [hchild.unique hchild', h'] at h
      injection h with h
      exact h.symm
    | nothing _ hnone => exact absurd hchild.has (hnone _ hchild.isChild)
  | nothing hdirect hnone =>
    cases h' with
    | direct h' =>
      rw [hdirect] at h'
      cases h'
    | fallback _ hchild => exact absurd hchild.has (hnone _ hchild.isChild)
    | nothing => rfl

theorem ArchiveRoot.Outcome.unique {archiveName : Bytes}
    {result result' : Except Exception (Option Bytes)} (h : root.Outcome limit archiveName result)
    (h' : root.Outcome limit archiveName result') : result = result' := by
  cases h with
  | unsafeName hnotSafe =>
    cases h' with
    | unsafeName => rfl
    | found hsafe => cases hnotSafe.symm.trans hsafe
    | tooManyEntries hsafe => cases hnotSafe.symm.trans hsafe
    | directError hsafe => cases hnotSafe.symm.trans hsafe
  | found hsafe h hlimit =>
    cases h' with
    | unsafeName hnotSafe => cases hnotSafe.symm.trans hsafe
    | found _ h' => rw [h.unique h']
    | tooManyEntries _ hdirect hlimit' =>
      rcases hlimit with hlimit | ⟨p, hp⟩
      · omega
      · exact absurd hp (hdirect p)
    | directError _ hdirect hnone =>
      cases h with
      | direct h => cases h.symm.trans hdirect
      | fallback _ hchild => exact absurd hchild.has (hnone _ hchild.isChild)
      | nothing h => cases h.symm.trans hdirect
  | tooManyEntries hsafe hdirect hlimit =>
    cases h' with
    | unsafeName hnotSafe => cases hnotSafe.symm.trans hsafe
    | found _ _ hlimit' =>
      rcases hlimit' with hlimit' | ⟨p, hp⟩
      · omega
      · exact absurd hp (hdirect p)
    | tooManyEntries => rfl
    | directError _ _ _ hlimit' => omega
  | directError hsafe hdirect hnone hlimit =>
    cases h' with
    | unsafeName hnotSafe => cases hnotSafe.symm.trans hsafe
    | found _ h =>
      cases h with
      | direct h => cases h.symm.trans hdirect
      | fallback _ hchild => exact absurd hchild.has (hnone _ hchild.isChild)
      | nothing h => cases h.symm.trans hdirect
    | tooManyEntries _ _ hlimit' => omega
    | directError _ hdirect' =>
      injection hdirect.symm.trans hdirect' with hfailure
      rw [hfailure]

/-- What holds of an index after any lookups: it is valid, and the entries it has visited do not
count against a later lookup. -/
structure IndexKept (root : ArchiveRoot) (limit : Nat) (index : RootIndex) : Prop where
  valid : IndexValid root limit index
  whole : index.fallbackSnapshotBuilt = true ∨ index.filesystemEntriesVisited = 0 ∨
    limit < root.snapshotEntries

theorem IndexKept.fresh : IndexKept root limit {} where
  valid := ⟨fun _ _ h => (by cases h), Nat.zero_le _, fun h => (by cases h)⟩
  whole := .inr (.inl rfl)

/-- A stop is requested, or the index is as an index should be. -/
def StoppedOrKept (stop : StopRequest) (root : ArchiveRoot) (limit : Nat) (s : ArchiveLookup) : Prop :=
  stop.requested s.progress = true ∨ IndexKept root limit s.rootIndex

theorem throwIfCancelled_of_requested (site : CheckpointSite) :
    Triple (fun p => stop.requested p = true) (throwIfCancelled stop site) (fun _ _ => False)
      (fun e p => e = .cancelled ∧ stop.requested p = true) := by
  rw [throwIfCancelled]
  refine .bind (M := fun p₀ p => p = p₀ ∧ stop.requested p = true) (.get fun _ h => ⟨rfl, h⟩)
    fun p₀ => .ite (fun _ => ?_) fun hnot => ?_
  · refine .seq (M := fun p => stop.requested p = true) (.modify fun p h => h.2) ?_
    exact .seq (M := fun p => stop.requested p = true) (.modify fun _ h => h)
      (.throw fun p h => ⟨rfl, h⟩)
  · refine .modify fun p h => hnot ?_
    rw [← h.1]
    exact h.2

/-- A lookup sees a stop that is requested before anything else. -/
theorem lookup_of_requested (archiveName : Bytes) :
    Triple (fun s => stop.requested s.progress = true)
      (tryResolveExistingZipArchivePath stop root limit archiveName) (fun _ _ => False)
      (fun e s => e = .cancelled ∧ stop.requested s.progress = true) := by
  rw [tryResolveExistingZipArchivePath]
  refine .bind (M := fun _ _ => False) (.zoom fun s hs => ?_) fun _ => fun s hs => hs.elim
  exact (throwIfCancelled_of_requested .archiveResolution).pre fun p hp => hp ▸ hs

/-- A lookup keeps the index, and comes to its outcome where it is not stopped. -/
theorem lookup_kept (archiveName : Bytes) :
    Triple (StoppedOrKept stop root limit)
      (tryResolveExistingZipArchivePath stop root limit archiveName)
      (fun answer s => StoppedOrKept stop root limit s ∧
        root.Outcome limit archiveName (.ok answer))
      (fun e s => StoppedOrKept stop root limit s ∧
        ((e = .cancelled ∧ stop.requested s.progress = true) ∨
          root.Outcome limit archiveName (.error e))) := by
  refine .of_state fun s hs => ?_
  rcases hs with hstop | ⟨hvalid, hwhole⟩
  · refine (lookup_of_requested archiveName).conseq (fun s' hs' => hs' ▸ hstop)
      (fun _ _ h => h.elim) fun e s' h => ⟨.inl h.2, .inl h⟩
  refine (lookup_spec hvalid archiveName).conseq (fun s' hs' => hs' ▸ rfl) ?_ ?_
  · rintro answer s' ⟨hvalid', hanswer, hsafe, hbuilt | ⟨hsame, hdirect⟩⟩
    · have hlimit := ((hvalid'.built hbuilt).2).trans hvalid'.visited
      exact ⟨.inr ⟨hvalid', .inl hbuilt⟩, .found hsafe hanswer (.inl hlimit)⟩
    · exact ⟨.inr ⟨hvalid', hsame ▸ hwhole⟩, .found hsafe hanswer (.inr hdirect)⟩
  · rintro e s' ⟨hvalid', hfails⟩
    cases hfails with
    | stopped hstop => exact ⟨.inl hstop, .inl ⟨rfl, hstop⟩⟩
    | unsafeName hnotSafe hsame =>
      exact ⟨.inr ⟨hvalid', hsame ▸ hwhole⟩, .inr (.unsafeName hnotSafe)⟩
    | tooManyEntries hdirect hsafe hunbuilt hexceeds =>
      have hlimit : limit < root.snapshotEntries := by
        rcases hwhole with hbuilt | hzero | hlimit
        · rw [hunbuilt] at hbuilt
          cases hbuilt
        · omega
        · exact hlimit
      exact ⟨.inr ⟨hvalid', .inr (.inr hlimit)⟩, .inr (.tooManyEntries hsafe hdirect hlimit)⟩
    | direct hdirect hchild hsafe hbuilt =>
      have hlimit := ((hvalid'.built hbuilt).2).trans hvalid'.visited
      exact ⟨.inr ⟨hvalid', .inl hbuilt⟩, .inr (.directError hsafe hdirect hchild hlimit)⟩

theorem afterLookups_kept {s : ArchiveLookup} (h : StoppedOrKept stop root limit s)
    (earlier : List Bytes) : StoppedOrKept stop root limit (afterLookups stop root limit s earlier) := by
  induction earlier generalizing s with
  | nil => exact h
  | cons archiveName earlier ih =>
    refine ih ?_
    show StoppedOrKept stop root limit
      (stateAfter (tryResolveExistingZipArchivePath stop root limit archiveName s))
    have hrun := @lookup_kept stop root limit archiveName s h
    cases hresult : tryResolveExistingZipArchivePath stop root limit archiveName s with
    | ok answer s' =>
      rw [hresult] at hrun
      exact hrun.1
    | error e s' =>
      rw [hresult] at hrun
      exact hrun.1

end AnyRoot

end InpxWebReader.Scan
