import InpxWebReader.Scan.ArchiveResolution

/-!
# Archive lookups in a tree of files

`ArchiveTree.archiveRoot` is the archive root of a finite tree of files, directories and symbolic
links, as the lookups see it: what `std::filesystem` answers there, and the walks below the children
as `IndexFallbackChild` makes them. `archiveLookup` is what the lookups do in such a tree, and
`archiveRelativePath_parts` the form of the path that they look for.
-/

namespace InpxWebReader.Storage

open Foundation LexicalPath LexicalPath.NamePath DotNames

/-! ### Texts of relative paths -/

section Texts

variable {text name : Bytes} {parts : List Bytes}

theorem slash_notMem_of_mem_splitPath (text : Bytes) : ∀ part ∈ splitPath text, slash ∉ part := by
  induction text with
  | nil => decide
  | cons b text ih =>
    intro part hpart
    rw [splitPath, List.splitOn_cons_eq_if_modifyHead] at hpart
    split at hpart
    · rcases List.mem_cons.mp hpart with rfl | hpart
      · exact List.not_mem_nil
      · exact ih part hpart
    · next hb =>
      obtain ⟨first, rest, hsplit⟩ :=
        List.exists_cons_of_ne_nil (List.splitOn_ne_nil slash text)
      rw [splitPath, hsplit] at ih
      rw [hsplit, List.modifyHead_cons] at hpart
      rcases List.mem_cons.mp hpart with rfl | hpart
      · intro hmem
        rcases List.mem_cons.mp hmem with rfl | hmem
        · exact hb (beq_self_eq_true slash)
        · exact ih first (List.mem_cons_self ..) hmem
      · exact ih part (List.mem_cons_of_mem _ hpart)

/-- A text that ends in a separator has an empty last part. -/
theorem splitPath_append_slash (text : Bytes) :
    splitPath (text ++ [slash]) = splitPath text ++ [[]] := by
  rw [splitPath, List.splitOn_append_cons_self]
  rfl

/-- The text of plain parts spells a path with these names. -/
theorem parsePath_joinPath (hne : parts ≠ []) (h : ∀ part ∈ parts, IsPlainPart part) :
    CacheRoot.parsePath (joinPath parts) = ⟨false, parts⟩ := by
  have hsplit := splitPath_joinPath hne h
  have hrooted : (joinPath parts).head? ≠ some slash := head?_joinPath hne h
  have hlast : (joinPath parts).getLast? ≠ some slash := by
    intro hlast
    obtain ⟨init, hinit⟩ := List.getLast?_eq_some_iff.mp hlast
    rw [hinit, splitPath_append_slash] at hsplit
    refine (h [] ?_).1 rfl
    rw [← hsplit]
    exact List.mem_append_right _ (List.mem_cons_self ..)
  have hfilter : parts.filter (fun name => name ≠ empty) = parts := by
    refine List.filter_eq_self.mpr fun part hpart => decide_eq_true (h part hpart).1
  rw [splitPath] at hsplit
  simp only [CacheRoot.parsePath, parse, hsplit, hfilter, hrooted, hlast, and_false, if_false,
    decide_false]

/-- The parts of a relative path are normalized like the names of one. -/
theorem normalParts_eq (parts : List Bytes) : normalParts parts = normalNames false parts := by
  have hstep : ∀ (normal : List Bytes) (part : Bytes),
      (if part = [] ∨ part = ascii "." then normal
        else if part = ascii ".." ∧ normal.getLast? ≠ none ∧
          normal.getLast? ≠ some (ascii "..") then normal.dropLast
        else normal ++ [part]) = normalStep false normal part := by
    intro normal part
    show _ = if part = [] ∨ part = ascii "." then normal
      else if part = ascii ".." then
        if normal = [] then [ascii ".."]
        else if normal.getLast? = some (ascii "..") then normal ++ [ascii ".."]
        else normal.dropLast
      else normal ++ [part]
    by_cases hup : part = ascii ".."
    · subst hup
      by_cases hnil : normal = []
      · subst hnil
        rfl
      · by_cases hlast : normal.getLast? = some (ascii "..") <;> simp [hnil, hlast]
    · simp [hup]
  rw [normalParts, normalNames]
  congr 1
  funext normal part
  exact hstep normal part

theorem mem_of_mem_normalNames {part : Bytes} (h : part ∈ normalNames false parts) :
    part ∈ parts := by
  suffices hfold : ∀ normal : List Bytes, part ∈ parts.foldl (normalStep false) normal →
      part ∈ normal ∨ part ∈ parts from (hfold [] h).resolve_left List.not_mem_nil
  clear h
  induction parts with
  | nil => exact fun normal h => .inl h
  | cons next parts ih =>
    intro normal h
    have hadd : ∀ added : List Bytes, part ∈ added ++ [next] → part ∈ added ∨ part ∈ next :: parts := by
      intro added hmem
      rcases List.mem_append.mp hmem with hmem | hmem
      · exact .inl hmem
      · exact .inr (List.mem_singleton.mp hmem ▸ List.mem_cons_self ..)
    rcases ih _ h with h | h
    · rw [normalStep] at h
      split at h
      · exact .inl h
      · split at h
        · next hup =>
          rw [← hup] at h
          split at h
          · exact hadd [] h |>.imp_left fun h => absurd h List.not_mem_nil
          · split at h
            · exact hadd normal h
            · exact .inl ((List.dropLast_sublist _).mem h)
        · exact hadd normal h
    · exact .inr (List.mem_cons_of_mem _ h)

theorem head?_of_lexicallyNormal (hne : name ≠ [])
    (hhead : (lexicallyNormal name).head? ≠ some slash) : name.head? ≠ some slash := by
  intro hroot
  refine hhead ?_
  simp only [lexicallyNormal, if_neg hne, hroot, if_true]
  split
  · rfl
  · split <;> rfl

/-- A relative path is spelled by its normal parts, with a separator at the end or without. -/
theorem lexicallyNormal_cases (hne : name ≠ []) (hroot : name.head? ≠ some slash) :
    (normalParts (splitPath name) = [] ∧ lexicallyNormal name = ascii ".") ∨
      (normalParts (splitPath name) ≠ [] ∧
        (lexicallyNormal name = joinPath (normalParts (splitPath name)) ∨
          lexicallyNormal name = joinPath (normalParts (splitPath name)) ++ [slash])) := by
  simp only [lexicallyNormal, if_neg hne, hroot, if_false, if_true, List.nil_append]
  by_cases hnormal : normalParts (splitPath name) = []
  · simp [hnormal]
  · refine .inr ⟨hnormal, ?_⟩
    simp only [hnormal, if_false]
    split
    · exact .inr rfl
    · exact .inl rfl

theorem splitPath_of_parts (hne : parts ≠ []) (h : ∀ part ∈ parts, slash ∉ part)
    (htext : text = joinPath parts ∨ text = joinPath parts ++ [slash]) :
    splitPath text = parts ∨ splitPath text = parts ++ [[]] := by
  have hsplit : splitPath (joinPath parts) = parts := List.splitOn_intercalate slash h hne
  rcases htext with rfl | rfl
  · exact .inl hsplit
  · rw [splitPath_append_slash, hsplit]
    exact .inr rfl

theorem plain_of_isSafeRelativePath (hsafe : isSafeRelativePath (lexicallyNormal name) = true) :
    name ≠ [] ∧ name.head? ≠ some slash ∧
      ∀ part ∈ normalParts (splitPath name), IsPlainPart part := by
  have hempty : lexicallyNormal name ≠ [] := by
    intro hempty
    rw [hempty] at hsafe
    cases hsafe
  have hne : name ≠ [] := by
    rintro rfl
    exact hempty rfl
  simp only [isSafeRelativePath, hempty, ne_eq, not_false_eq_true, decide_true, Bool.true_and,
    Bool.and_eq_true, decide_eq_true_eq, Bool.not_eq_true', List.contains_eq_mem,
    decide_eq_false_iff_not] at hsafe
  obtain ⟨hhead, hdots⟩ := hsafe
  have hroot := head?_of_lexicallyNormal hne hhead
  refine ⟨hne, hroot, ?_⟩
  rcases lexicallyNormal_cases hne hroot with ⟨hnil, -⟩ | ⟨hparts, htext⟩
  · intro part hpart
    rw [hnil] at hpart
    exact absurd hpart List.not_mem_nil
  obtain ⟨ups, plain, hform, hplain⟩ := normalNames_relative (splitPath name)
  rw [← normalParts_eq] at hform
  have hslash : ∀ part ∈ normalParts (splitPath name), slash ∉ part := by
    intro part hpart
    rw [normalParts_eq] at hpart
    exact slash_notMem_of_mem_splitPath name part (mem_of_mem_normalNames hpart)
  -- normalizing once more changes none of the parts
  have hagain : normalParts (splitPath (lexicallyNormal name)) = normalParts (splitPath name) := by
    have hself : normalParts (normalParts (splitPath name)) = normalParts (splitPath name) := by
      rw [hform, normalParts_eq, normalNames_ups ups hplain]
    rcases splitPath_of_parts hparts hslash htext with hsplit | hsplit
    · rw [hsplit, hself]
    · rw [hsplit, normalParts_eq, normalNames_append, ← normalParts_eq, hself]
      rfl
  have hup : ascii ".." ∉ normalParts (splitPath name) := by
    intro hmem
    refine hdots ?_
    rcases lexicallyNormal_cases hempty hhead with ⟨hnil, -⟩ | ⟨-, htext'⟩
    · rw [hagain] at hnil
      exact absurd hnil hparts
    · rw [hagain] at htext'
      rcases splitPath_of_parts hparts hslash htext' with hsplit | hsplit
      · rw [hsplit]
        exact hmem
      · rw [hsplit]
        exact List.mem_append_left _ hmem
  intro part hpart
  rw [hform] at hpart hup
  have hups : ups = 0 := by
    cases ups with
    | zero => rfl
    | succ ups => exact absurd (List.mem_append_left _ (List.mem_cons_self ..)) hup
  subst hups
  rw [hform] at hslash
  obtain ⟨hpe, hpd, hpu⟩ := hplain part hpart
  exact ⟨hpe, hpd, hpu, hslash part hpart⟩

theorem joinPath_concat (hne : parts ≠ []) (last : Bytes) :
    joinPath (parts ++ [last]) = joinPath parts ++ slash :: last := by
  induction parts with
  | nil => exact absurd rfl hne
  | cons part parts ih =>
    cases parts with
    | nil => simp [joinPath, List.intercalate_cons_cons]
    | cons next parts =>
      have hcons : ∀ rest : List Bytes, rest ≠ [] →
          joinPath (part :: rest) = part ++ [slash] ++ joinPath rest :=
        fun rest hrest => List.intercalate_cons_of_ne_nil hrest
      rw [List.cons_append, hcons _ (by simp), hcons _ (List.cons_ne_nil _ _),
        ih (List.cons_ne_nil _ _), List.append_assoc _ (joinPath _)]

theorem joinPath_concat_append (parts : List Bytes) (last added : Bytes) :
    joinPath (parts ++ [last]) ++ added = joinPath (parts ++ [last ++ added]) := by
  by_cases hne : parts = []
  · subst hne
    simp [joinPath]
  · rw [joinPath_concat hne, joinPath_concat hne, List.append_assoc, List.cons_append]

theorem isPlainPart_append_zip {part : Bytes} (h : slash ∉ part) : IsPlainPart (part ++ ascii ".zip") := by
  have hlength : (part ++ ascii ".zip").length = part.length + 4 := by
    rw [List.length_append]
    rfl
  refine ⟨?_, ?_, ?_, ?_⟩
  · intro heq
    rw [heq] at hlength
    cases hlength
  · intro heq
    rw [heq] at hlength
    have hone : (ascii ".").length = 1 := rfl
    omega
  · intro heq
    rw [heq] at hlength
    have htwo : (ascii "..").length = 2 := rfl
    omega
  · intro hmem
    rcases List.mem_append.mp hmem with hmem | hmem
    · exact h hmem
    · revert hmem
      decide

/-- The path that a lookup of a safe name looks for has plain parts. -/
theorem archiveRelativePath_parts (hsafe : isSafeRelativePath (lexicallyNormal name) = true) :
    ∃ parts, parts ≠ [] ∧ (∀ part ∈ parts, IsPlainPart part) ∧
      Scan.archiveRelativePath name = joinPath parts := by
  obtain ⟨hne, hroot, hplain⟩ := plain_of_isSafeRelativePath hsafe
  rw [Scan.archiveRelativePath, Scan.buildZipArchiveFileRelativePath]
  rcases lexicallyNormal_cases hne hroot with ⟨-, htext⟩ | ⟨hparts, htext | htext⟩
  · -- the current directory
    rw [htext]
    refine ⟨[ascii "..zip"], List.cons_ne_nil _ _, ?_, by decide⟩
    intro part hpart
    rw [List.mem_singleton] at hpart
    exact hpart ▸ @isPlainPart_append_zip (ascii ".") (by decide)
  · rw [htext]
    split
    · exact ⟨_, hparts, hplain, rfl⟩
    · obtain ⟨init, last, hsplit⟩ := List.eq_nil_or_concat _ |>.resolve_left hparts
      rw [hsplit, List.concat_eq_append] at hplain ⊢
      refine ⟨init ++ [last ++ ascii ".zip"], by simp, ?_, joinPath_concat_append init last _⟩
      intro part hpart
      rcases List.mem_append.mp hpart with hpart | hpart
      · exact hplain part (List.mem_append_left _ hpart)
      · rw [List.mem_singleton] at hpart
        subst hpart
        exact isPlainPart_append_zip (hplain last (by simp)).2.2.2
  · -- a separator at the end leaves the extension as a name
    have hzip : Scan.hasZipArchiveExtension
        (joinPath (normalParts (splitPath name)) ++ [slash]) = false := by
      rw [Scan.hasZipArchiveExtension, Scan.pathExtension, splitPath_append_slash,
        List.getLast?_concat]
      decide
    rw [htext, hzip, if_neg Bool.false_ne_true, List.append_assoc]
    refine ⟨normalParts (splitPath name) ++ [ascii ".zip"], by simp, ?_,
      (joinPath_concat hparts _).symm⟩
    intro part hpart
    rcases List.mem_append.mp hpart with hpart | hpart
    · exact hplain part hpart
    · rw [List.mem_singleton] at hpart
      exact hpart ▸ @isPlainPart_append_zip [] List.not_mem_nil

end Texts

namespace ArchiveTree

/-! ### The archive root of a tree -/

/-- The path of a location from the root, as text. -/
def relativeText (archive : ArchiveTree) (location : List Bytes) : Bytes :=
  joinPath ((NamePath.mk true location).relativeTo ⟨true, archive.canonicalRoot⟩).names

/-- An entry of the walk below a child as the index takes it. An entry whose type cannot be read is
passed over like a directory. -/
def walkedEntry (archive : ArchiveTree) (child : Bytes) (entry : WalkEntry) : Scan.WalkedEntry where
  isDirectory := entry.isDirectory ≠ some false
  key := joinPath ((archive.visible entry.names).relativeTo (archive.visible [child])).normal.names

/-- What the lookups see of the tree. -/
def archiveRoot (archive : ArchiveTree) (sortComparisons : Nat) : Scan.ArchiveRoot where
  resolveCandidate path :=
    (archive.tryResolve (CacheRoot.parsePath path)).map (Option.map archive.relativeText)
  entries := (archive.tree.listing archive.canonicalRoot).map fun name =>
    ⟨name, archive.isDirectoryAt [name] = some true⟩
  sortComparisons := sortComparisons
  walk child :=
    match archive.tryResolve ⟨false, [child]⟩ with
    | .ok (some canonicalChildPath) =>
      (archive.walkEntries child canonicalChildPath).map (archive.walkedEntry child)
    | _ => []

/-! ### What a lookup finds -/

/-- The path with the given names leads to the location, and that is within the root. -/
def LeadsTo (archive : ArchiveTree) (names location : List Bytes) : Prop :=
  archive.tree.status (archive.canonicalRoot ++ names) = .ok location ∧
    archive.canonicalRoot <+: location

/-- A child of the root has a file of that path, and no directory on the way to it is entered
again. -/
structure HasFile (archive : ArchiveTree) (child : Bytes) (names location : List Bytes) : Prop where
  isChild : child ∈ archive.tree.listing archive.canonicalRoot
  leadsTo : archive.LeadsTo (child :: names) location
  isFile : archive.tree.isDirectory location = false
  way : ∃ directories, archive.Way [] (child :: names) directories ∧ directories.Nodup

def lookupNames (archiveName : Bytes) : List Bytes :=
  splitPath (Scan.archiveRelativePath archiveName)

/-- What a lookup of a name comes to in a tree, where `entries` entries are visited for the
snapshot. -/
inductive Outcome (archive : ArchiveTree) (limit entries : Nat) (archiveName : Bytes) :
    Except Exception (Option Bytes) → Prop
  | unsafeName (hnotSafe : isSafeRelativePath (lexicallyNormal archiveName) = false) :
      Outcome archive limit entries archiveName
        (.error (.failed (runtimeError "INPX archive path is unsafe.")))
  | direct {location : List Bytes} (hsafe : isSafeRelativePath (lexicallyNormal archiveName) = true)
      (h : archive.LeadsTo (lookupNames archiveName) location) :
      Outcome archive limit entries archiveName (.ok (some (archive.relativeText location)))
  | tooManyEntries (hsafe : isSafeRelativePath (lexicallyNormal archiveName) = true)
      (hdirect : ∀ location, ¬archive.LeadsTo (lookupNames archiveName) location)
      (hlimit : limit < entries) :
      Outcome archive limit entries archiveName (.error (Scan.entryLimitError limit))
  | fallback {child : Bytes} {location : List Bytes}
      (hsafe : isSafeRelativePath (lexicallyNormal archiveName) = true)
      (hdirect : ∀ location, ¬archive.LeadsTo (lookupNames archiveName) location)
      (hlimit : entries ≤ limit)
      (hzip : Scan.hasZipArchiveExtension (Scan.archiveRelativePath archiveName) = true)
      (h : archive.HasFile child (lookupNames archiveName) location)
      (hleast : ∀ other location, archive.HasFile other (lookupNames archiveName) location →
        Database.byteOrder child other) :
      Outcome archive limit entries archiveName (.ok (some (archive.relativeText location)))
  | nothing (hsafe : isSafeRelativePath (lexicallyNormal archiveName) = true)
      (hdirect : archive.tryResolve (archive.visible (lookupNames archiveName)) = .ok none)
      (hlimit : entries ≤ limit)
      (hnone : Scan.hasZipArchiveExtension (Scan.archiveRelativePath archiveName) = true →
        ∀ child location, ¬archive.HasFile child (lookupNames archiveName) location) :
      Outcome archive limit entries archiveName (.ok none)
  | directError {failure : Failure} (hsafe : isSafeRelativePath (lexicallyNormal archiveName) = true)
      (hdirect : archive.tryResolve (archive.visible (lookupNames archiveName)) = .error failure)
      (hlimit : entries ≤ limit)
      (hnone : Scan.hasZipArchiveExtension (Scan.archiveRelativePath archiveName) = true →
        ∀ child location, ¬archive.HasFile child (lookupNames archiveName) location) :
      Outcome archive limit entries archiveName (.error (.failed failure))

section Lookup

variable {archive : ArchiveTree} {sortComparisons : Nat} {child : Bytes}
  {parts location : List Bytes}

theorem isPlain_of_isPlainPart (h : ∀ part ∈ parts, IsPlainPart part) : ∀ part ∈ parts, IsPlain part :=
  fun part hpart => ⟨(h part hpart).1, (h part hpart).2.1, (h part hpart).2.2.1⟩

theorem tryResolve_visible_iff (h : ∀ part ∈ parts, IsPlainPart part) :
    archive.tryResolve (archive.visible parts) = .ok (some location) ↔
      archive.LeadsTo parts location :=
  tryResolve_visible_eq_some (isPlain_of_isPlainPart h)

/-- A candidate is resolved like its path from the root of all files. -/
theorem resolveCandidate_joinPath (hne : parts ≠ []) (h : ∀ part ∈ parts, IsPlainPart part) :
    (archive.archiveRoot sortComparisons).resolveCandidate (joinPath parts) =
      (archive.tryResolve (archive.visible parts)).map (Option.map archive.relativeText) := by
  rw [archiveRoot]
  dsimp only
  rw [parsePath_joinPath hne h, tryResolve_relative hne (isPlain_of_isPlainPart h)]

theorem resolveCandidate_eq_some {text : Bytes} (hne : parts ≠ [])
    (h : ∀ part ∈ parts, IsPlainPart part) :
    (archive.archiveRoot sortComparisons).resolveCandidate (joinPath parts) = .ok (some text) ↔
      ∃ location, archive.LeadsTo parts location ∧ archive.relativeText location = text := by
  rw [resolveCandidate_joinPath hne h]
  constructor
  · intro hresolve
    cases hcase : archive.tryResolve (archive.visible parts) with
    | error failure =>
      rw [hcase] at hresolve
      cases hresolve
    | ok resolved =>
      rw [hcase] at hresolve
      injection hresolve with hresolve
      obtain ⟨location, rfl, htext⟩ := Option.map_eq_some_iff.mp hresolve
      exact ⟨location, (tryResolve_visible_iff h).mp hcase, htext⟩
  · rintro ⟨location, hleads, rfl⟩
    rw [(tryResolve_visible_iff h).mpr hleads]
    rfl

/-- The children that the snapshot walks are the directories of the root that lead to a place within
it. -/
theorem mem_fallbackChildren :
    child ∈ (archive.archiveRoot sortComparisons).fallbackChildren ↔
      child ∈ archive.tree.listing archive.canonicalRoot ∧
        ∃ location, archive.LeadsTo [child] location ∧
          archive.tree.isDirectory location = true := by
  rw [Scan.ArchiveRoot.fallbackChildren, List.mem_insertionSort, List.mem_map]
  have hone : ∀ {name : Bytes}, name ∈ archive.tree.listing archive.canonicalRoot →
      ∀ part ∈ [name], IsPlainPart part := by
    intro name hname part hpart
    rw [List.mem_singleton] at hpart
    exact hpart ▸ listing_plain _ name hname
  have hresolve : ∀ {name : Bytes}, name ∈ archive.tree.listing archive.canonicalRoot →
      ∀ text, (archive.archiveRoot sortComparisons).resolveCandidate name = .ok (some text) ↔
        ∃ location, archive.LeadsTo [name] location ∧ archive.relativeText location = text := by
    intro name hname text
    have hiff := @resolveCandidate_eq_some archive sortComparisons [name] text
      (List.cons_ne_nil _ _) (hone hname)
    rw [joinPath, List.intercalate_singleton] at hiff
    exact hiff
  constructor
  · rintro ⟨entry, hentry, rfl⟩
    obtain ⟨hmem, hkept⟩ := List.mem_filter.mp hentry
    obtain ⟨name, hname, rfl⟩ := List.mem_map.mp hmem
    rw [Scan.isFallbackChild, Bool.and_eq_true, decide_eq_true_eq] at hkept
    obtain ⟨hdirectory, hkept⟩ := hkept
    dsimp only at hkept ⊢
    split at hkept
    · next text htext =>
      obtain ⟨location, hleads, -⟩ := (hresolve hname text).mp htext
      refine ⟨hname, location, hleads, ?_⟩
      rw [isDirectoryAt, hleads.1, Option.some_inj] at hdirectory
      exact hdirectory
    · cases hkept
  · rintro ⟨hname, location, hleads, hdirectory⟩
    refine ⟨⟨child, archive.isDirectoryAt [child] = some true⟩, List.mem_filter.mpr ⟨?_, ?_⟩, rfl⟩
    · exact List.mem_map.mpr ⟨child, hname, rfl⟩
    · have hat : archive.isDirectoryAt [child] = some true := by
        rw [isDirectoryAt, hleads.1]
        exact congrArg some hdirectory
      have htext := (hresolve hname _).mpr ⟨location, hleads, rfl⟩
      simp only [Scan.isFallbackChild, hat, htext, decide_true, Bool.and_self]

/-- The key of an entry below a child spells its names below the child. -/
theorem walkedEntry_key (hchild : IsPlainPart child) (hne : parts ≠ [])
    (h : ∀ part ∈ parts, IsPlainPart part) (isDirectory : Option Bool) :
    (archive.walkedEntry child ⟨child :: parts, isDirectory⟩).key = joinPath parts := by
  have hplain := isPlain_of_isPlainPart h
  have hbase : ∀ name ∈ archive.canonicalRoot ++ [child], IsPlain name := by
    refine plain_visible fun name hname => ?_
    rw [List.mem_singleton] at hname
    exact hname ▸ ⟨hchild.1, hchild.2.1, hchild.2.2.1⟩
  have hvisible : archive.visible (child :: parts) = ⟨true, archive.canonicalRoot ++ [child] ++ parts⟩ := by
    rw [visible, List.append_assoc, List.singleton_append]
  have hrelative : (archive.visible (child :: parts)).relativeTo (archive.visible [child]) =
      ⟨false, parts⟩ :=
    (relativeTo_eq_iff hbase hne fun name hname => hplain name (List.mem_of_mem_head? hname)).mpr
      hvisible
  rw [walkedEntry]
  dsimp only
  rw [hrelative, normal_of_plain hplain]

theorem candidateBelow_joinPath (hne : parts ≠ []) (hchild : IsPlainPart child)
    (h : ∀ part ∈ parts, IsPlainPart part) :
    Scan.ArchiveRoot.candidateBelow child (joinPath parts) = joinPath (child :: parts) := by
  have hall : ∀ part ∈ child :: parts, IsPlainPart part := by
    intro part hpart
    rcases List.mem_cons.mp hpart with rfl | hpart
    · exact hchild
    · exact h part hpart
  have hjoin : joinPath [child, joinPath parts] = joinPath (child :: parts) := by
    rw [joinPath, joinPath, List.intercalate_cons_cons, List.intercalate_singleton]
    exact (List.intercalate_cons_of_ne_nil hne).symm
  rw [Scan.ArchiveRoot.candidateBelow, hjoin, lexicallyNormal_joinPath (List.cons_ne_nil _ _) hall]

theorem joinPath_injective {other : List Bytes} (hne : parts ≠ []) (hne' : other ≠ [])
    (h : ∀ part ∈ parts, IsPlainPart part) (h' : ∀ part ∈ other, IsPlainPart part)
    (heq : joinPath parts = joinPath other) : parts = other := by
  rw [← splitPath_joinPath hne h, heq, splitPath_joinPath hne' h']

/-- The candidate below a child is the path with the name of the child before it. -/
theorem resolveCandidate_candidateBelow {text : Bytes} (hne : parts ≠ []) (hchild : IsPlainPart child)
    (h : ∀ part ∈ parts, IsPlainPart part) :
    (archive.archiveRoot sortComparisons).resolveCandidate
        (Scan.ArchiveRoot.candidateBelow child (joinPath parts)) = .ok (some text) ↔
      ∃ location, archive.LeadsTo (child :: parts) location ∧
        archive.relativeText location = text := by
  rw [candidateBelow_joinPath hne hchild h]
  refine resolveCandidate_eq_some (List.cons_ne_nil _ _) fun part hpart => ?_
  rcases List.mem_cons.mp hpart with rfl | hpart
  · exact hchild
  · exact h part hpart

theorem LeadsTo.unique {other : List Bytes} (h : archive.LeadsTo parts location)
    (h' : archive.LeadsTo parts other) : location = other :=
  Except.ok.inj (h.1.symm.trans h'.1)

/-- The walk below a child comes to the archive of a name when the child has a file of that path. -/
theorem hasBelow_iff (hne : parts ≠ []) (h : ∀ part ∈ parts, IsPlainPart part)
    (hmem : child ∈ (archive.archiveRoot sortComparisons).fallbackChildren) :
    (archive.archiveRoot sortComparisons).HasBelow child (joinPath parts) ↔
      Scan.hasZipArchiveExtension (joinPath parts) = true ∧
        ∃ location, archive.HasFile child parts location := by
  obtain ⟨hlisted, canonicalChildPath, hleads, hdirectory⟩ := mem_fallbackChildren.mp hmem
  have hchild := listing_plain _ child hlisted
  have hchildPlain : ∀ name ∈ [child], IsPlain name := by
    intro name hname
    rw [List.mem_singleton] at hname
    exact hname ▸ ⟨hchild.1, hchild.2.1, hchild.2.2.1⟩
  have hresolve : archive.tryResolve (archive.visible [child]) = .ok (some canonicalChildPath) :=
    (tryResolve_visible_eq_some hchildPlain).mpr hleads
  have hwalk : (archive.archiveRoot sortComparisons).walk child =
      (archive.walkEntries child canonicalChildPath).map (archive.walkedEntry child) := by
    rw [archiveRoot]
    dsimp only
    rw [tryResolve_relative (List.cons_ne_nil _ _) hchildPlain, hresolve]
  rw [Scan.ArchiveRoot.HasBelow, hwalk]
  constructor
  · rintro ⟨⟨entry, hentry, hfile, hkey⟩, -, hzip, text, htext⟩
    refine ⟨hzip, ?_⟩
    obtain ⟨location, hleadsTo, -⟩ := (resolveCandidate_candidateBelow hne hchild h).mp htext
    obtain ⟨walked, hwalked, rfl⟩ := List.mem_map.mp hentry
    obtain ⟨names, directories, hway, hnodup, hnames, rfl⟩ :=
      way_of_mem_entriesBelow (List.nodup_singleton _) hchildPlain hwalked
    rw [List.singleton_append, walkedEntry_key hchild hway.ne_nil hnames] at hkey
    obtain rfl := joinPath_injective hway.ne_nil hne hnames h hkey
    refine ⟨location, hlisted, hleadsTo, ?_, canonicalChildPath :: directories, ?_, ?_⟩
    · simp only [walkedEntry, List.singleton_append, isDirectoryAt, hleadsTo.1, ne_eq,
        Option.some_inj, Bool.not_eq_false, decide_eq_false_iff_not, Bool.not_eq_true] at hfile
      exact hfile
    · exact .into hresolve hway
    · rw [List.nodup_append_comm, List.singleton_append] at hnodup
      rw [List.nodup_cons, List.mem_reverse, List.nodup_reverse] at hnodup
      exact List.nodup_cons.mpr hnodup
  · rintro ⟨hzip, location, -, hleadsTo, hfile, directories, hway, hnodup⟩
    refine ⟨?_, isSafeRelativePath_joinPath hne h, hzip, _,
      (resolveCandidate_candidateBelow hne hchild h).mpr ⟨location, hleadsTo, rfl⟩⟩
    cases hway with
    | here => exact absurd rfl hne
    | @into _ _ directory _ directories hresolve' hrest =>
      have hsame : directory = canonicalChildPath := by
        rw [List.nil_append, hresolve] at hresolve'
        injection hresolve' with hresolve'
        injection hresolve' with hresolve'
        exact hresolve'.symm
      subst hsame
      rw [List.nodup_cons] at hnodup
      have hnodup' : (directories.reverse ++ [directory]).Nodup := by
        rw [List.nodup_append_comm, List.singleton_append, List.nodup_cons, List.mem_reverse,
          List.nodup_reverse]
        exact hnodup
      refine ⟨archive.walkedEntry child ⟨child :: parts, archive.isDirectoryAt (child :: parts)⟩,
        List.mem_map.mpr ⟨_, ?_, rfl⟩, ?_, walkedEntry_key hchild hne h _⟩
      · refine mem_entriesBelow_of_way hrest hnodup' ?_ (Nat.le_add_right _ _) hchildPlain
          (isPlain_of_isPlainPart h) hleads.1 hleadsTo.1
        intro ancestor hancestor
        rw [List.mem_singleton] at hancestor
        exact hancestor ▸ FileTree.mem_directories hdirectory
      · simp only [walkedEntry, isDirectoryAt, hleadsTo.1, hfile, ne_eq, not_true_eq_false,
          decide_false]

/-- A child that has a file is one that the snapshot walks. -/
theorem HasFile.mem_fallbackChildren (hne : parts ≠ []) (h : ∀ part ∈ parts, IsPlainPart part)
    (hfile : archive.HasFile child parts location) :
    child ∈ (archive.archiveRoot sortComparisons).fallbackChildren := by
  obtain ⟨hlisted, ⟨hstatus, -⟩, -, directories, hway, -⟩ := hfile
  have hchild := listing_plain _ child hlisted
  refine ArchiveTree.mem_fallbackChildren.mpr ⟨hlisted, ?_⟩
  obtain ⟨first, rest, rfl⟩ := List.exists_cons_of_ne_nil hne
  cases hway with
  | @into _ _ directory _ directories hresolve hrest =>
    have hleads : archive.LeadsTo [child] directory := by
      refine (tryResolve_visible_iff fun name hname => ?_).mp hresolve
      rw [List.mem_singleton] at hname
      exact hname ▸ hchild
    refine ⟨directory, hleads, ?_⟩
    have hsplit : archive.canonicalRoot ++ child :: first :: rest =
        archive.canonicalRoot ++ [child] ++ first :: rest := by
      rw [List.append_assoc, List.singleton_append]
    rw [hsplit] at hstatus
    obtain ⟨parent, hparent, hdirectory, -⟩ :=
      FileTree.status_of_append (isPlain_of_isPlainPart h first (List.mem_cons_self ..)) hstatus
    rw [hleads.1] at hparent
    injection hparent with hparent
    exact hparent ▸ hdirectory

/-- No child has an archive of that name where none has a file of that path. -/
theorem not_hasFile_of_not_hasBelow (hne : parts ≠ []) (h : ∀ part ∈ parts, IsPlainPart part)
    (hnone : ∀ child ∈ (archive.archiveRoot sortComparisons).fallbackChildren,
      ¬(archive.archiveRoot sortComparisons).HasBelow child (joinPath parts))
    (hzip : Scan.hasZipArchiveExtension (joinPath parts) = true) (child : Bytes)
    (location : List Bytes) : ¬archive.HasFile child parts location := by
  intro hfile
  have hmem : child ∈ (archive.archiveRoot sortComparisons).fallbackChildren :=
    hfile.mem_fallbackChildren hne h
  exact hnone child hmem ((hasBelow_iff hne h hmem).mpr ⟨hzip, location, hfile⟩)

/-- What a lookup comes to at the archive root of a tree, said of the tree. -/
theorem outcome_of_archiveRoot {limit : Nat} {archiveName : Bytes}
    {result : Except Exception (Option Bytes)}
    (hresult : (archive.archiveRoot sortComparisons).Outcome limit archiveName result) :
    archive.Outcome limit (archive.archiveRoot sortComparisons).snapshotEntries archiveName
      result := by
  by_cases hsafe : isSafeRelativePath (lexicallyNormal archiveName) = true
  · obtain ⟨parts, hne, h, hpath⟩ := archiveRelativePath_parts hsafe
    have hnames : lookupNames archiveName = parts := by
      rw [lookupNames, hpath, splitPath_joinPath hne h]
    have hdirectIff := fun text => @resolveCandidate_eq_some archive sortComparisons parts text hne h
    -- without a direct path the candidate resolves to no place within the root
    have hno : (∀ p, (archive.archiveRoot sortComparisons).resolveCandidate (joinPath parts) ≠
        .ok (some p)) → ∀ location, ¬archive.LeadsTo (lookupNames archiveName) location := by
      intro hdirect location hleads
      rw [hnames] at hleads
      exact hdirect _ ((hdirectIff _).mpr ⟨location, hleads, rfl⟩)
    have hnoFile : (∀ child ∈ (archive.archiveRoot sortComparisons).fallbackChildren,
        ¬(archive.archiveRoot sortComparisons).HasBelow child (joinPath parts)) →
        Scan.hasZipArchiveExtension (Scan.archiveRelativePath archiveName) = true →
          ∀ child location, ¬archive.HasFile child (lookupNames archiveName) location := by
      rw [hpath, hnames]
      exact not_hasFile_of_not_hasBelow hne h
    cases hresult with
    | unsafeName hnotSafe => cases hnotSafe.symm.trans hsafe
    | found _ hanswer hlimit =>
      rw [hpath] at hanswer hlimit
      cases hanswer with
      | direct hresolve =>
        obtain ⟨location, hleads, rfl⟩ := (hdirectIff _).mp hresolve
        exact .direct hsafe (hnames ▸ hleads)
      | @fallback child resolved hdirect hchild hresolve =>
        have hlimit' := hlimit.resolve_right fun ⟨p, hp⟩ => hdirect p hp
        obtain ⟨hzip, location, hfile⟩ := (hasBelow_iff hne h hchild.isChild).mp hchild.has
        have hchildPart := listing_plain _ child hfile.isChild
        obtain ⟨location', hleads, rfl⟩ :=
          (resolveCandidate_candidateBelow hne hchildPart h).mp hresolve
        obtain rfl := hleads.unique hfile.leadsTo
        refine .fallback hsafe (hno hdirect) hlimit' (hpath ▸ hzip) (hnames ▸ hfile) ?_
        intro other location hother
        rw [hnames] at hother
        have hmem : other ∈ (archive.archiveRoot sortComparisons).fallbackChildren :=
          hother.mem_fallbackChildren hne h
        exact hchild.least other hmem ((hasBelow_iff hne h hmem).mpr ⟨hzip, location, hother⟩)
      | nothing hdirect hnone =>
        have hlimit' := hlimit.resolve_right fun ⟨p, hp⟩ => (by cases hdirect.symm.trans hp)
        rw [resolveCandidate_joinPath hne h] at hdirect
        refine .nothing hsafe ?_ hlimit' (hnoFile hnone)
        rw [hnames]
        cases hcase : archive.tryResolve (archive.visible parts) with
        | error failure =>
          rw [hcase] at hdirect
          cases hdirect
        | ok resolved =>
          rw [hcase] at hdirect
          injection hdirect with hdirect
          rw [Option.map_eq_none_iff.mp hdirect]
    | tooManyEntries _ hdirect hlimit =>
      rw [hpath] at hdirect
      exact .tooManyEntries hsafe (hno hdirect) hlimit
    | @directError failure _ hdirect hnone hlimit =>
      rw [hpath, resolveCandidate_joinPath hne h] at hdirect
      rw [hpath] at hnone
      refine .directError hsafe ?_ hlimit (hnoFile hnone)
      rw [hnames]
      cases hcase : archive.tryResolve (archive.visible parts) with
      | error failure' =>
        rw [hcase] at hdirect
        injection hdirect with hdirect
        rw [hdirect]
      | ok resolved =>
        rw [hcase] at hdirect
        cases hdirect
  · rw [Bool.not_eq_true] at hsafe
    cases hresult with
    | unsafeName => exact .unsafeName hsafe
    | found hsafe' => cases hsafe.symm.trans hsafe'
    | tooManyEntries hsafe' => cases hsafe.symm.trans hsafe'
    | directError hsafe' => cases hsafe.symm.trans hsafe'

end Lookup

/-! ### Lookups through one index -/

/-- What a lookup of a name returns or throws, after lookups of other names through the same
index. -/
def lookupAfter (archive : ArchiveTree) (sortComparisons limit : Nat) (stop : Scan.StopRequest)
    (progress : Scan.Progress) (earlier : List Bytes) (archiveName : Bytes) :
    Except Exception (Option Bytes) :=
  let root := archive.archiveRoot sortComparisons
  Program.answerOf (Scan.tryResolveExistingZipArchivePath stop root limit archiveName
    (Scan.afterLookups stop root limit { progress := progress } earlier))

section Index

variable {archive : ArchiveTree} {sortComparisons limit : Nat} {stop : Scan.StopRequest}
  {progress : Scan.Progress}

/-- A lookup after any others is cancelled, or comes to its outcome. -/
theorem lookupAfter_outcome (earlier : List Bytes) (archiveName : Bytes) :
    (archive.lookupAfter sortComparisons limit stop progress earlier archiveName =
        .error .cancelled ∧ stop.stopAt ≠ none) ∨
      (archive.archiveRoot sortComparisons).Outcome limit archiveName
        (archive.lookupAfter sortComparisons limit stop progress earlier archiveName) := by
  have hstart : Scan.StoppedOrKept stop (archive.archiveRoot sortComparisons) limit
      { progress := progress } := .inr .fresh
  have hrun := Scan.lookup_kept archiveName _ (Scan.afterLookups_kept hstart earlier)
  rw [lookupAfter]
  split at hrun
  · next answer s hcase =>
    rw [hcase]
    exact .inr hrun.2
  · next e s hcase =>
    rw [hcase]
    rcases hrun.2 with ⟨rfl, hstop⟩ | houtcome
    · refine .inl ⟨rfl, fun hnever => ?_⟩
      rw [Scan.StopRequest.requested, hnever] at hstop
      cases hstop
    · exact .inr houtcome

end Index

/-- The walks below the children of the root end, whatever links the tree has; a lookup that is not
cancelled finds the direct candidate, or the file below the least child that has one, or says why
not; and it does not matter what was looked up before. -/
theorem archive_lookup (archive : ArchiveTree) (sortComparisons limit : Nat)
    (stop : Scan.StopRequest) (progress : Scan.Progress) :
    (∀ child ∈ archive.tree.listing archive.canonicalRoot, ∀ canonicalChildPath,
      archive.LeadsTo [child] canonicalChildPath →
      archive.tree.isDirectory canonicalChildPath = true →
      Finishes archive (archive.walkOf child canonicalChildPath)
        (archive.walkEntries child canonicalChildPath)) ∧
    (∀ earlier archiveName,
      (archive.lookupAfter sortComparisons limit stop progress earlier archiveName =
          .error .cancelled ∧ stop.stopAt ≠ none) ∨
        archive.Outcome limit (archive.archiveRoot sortComparisons).snapshotEntries archiveName
          (archive.lookupAfter sortComparisons limit stop progress earlier archiveName)) ∧
    ∀ earlier earlier' archiveName,
      archive.lookupAfter sortComparisons limit stop progress earlier archiveName ≠
        .error .cancelled →
      archive.lookupAfter sortComparisons limit stop progress earlier' archiveName ≠
        .error .cancelled →
      archive.lookupAfter sortComparisons limit stop progress earlier archiveName =
        archive.lookupAfter sortComparisons limit stop progress earlier' archiveName := by
  refine ⟨?_, ?_, ?_⟩
  · intro child hchild canonicalChildPath _ hdirectory
    obtain ⟨hempty, hdot, hdotdot, -⟩ := listing_plain _ child hchild
    exact walk_finishes ⟨hempty, hdot, hdotdot⟩ hdirectory
  · intro earlier archiveName
    exact (lookupAfter_outcome earlier archiveName).imp_right outcome_of_archiveRoot
  · intro earlier earlier' archiveName hresult hresult'
    have houtcome := (lookupAfter_outcome earlier archiveName).resolve_left fun h => hresult h.1
    have houtcome' := (lookupAfter_outcome earlier' archiveName).resolve_left fun h => hresult' h.1
    exact houtcome.unique houtcome'

/-- A root with a directory `a.zip` and, below a child, a file of that name. -/
def directoryNamedLikeArchive : ArchiveTree where
  tree := {
    nodes := [
      ([], .directory [ascii "books"]),
      ([ascii "books"], .directory [ascii "a.zip", ascii "b"]),
      ([ascii "books", ascii "a.zip"], .directory []),
      ([ascii "books", ascii "b"], .directory [ascii "a.zip"]),
      ([ascii "books", ascii "b", ascii "a.zip"], .file)] }
  plainNames := by
    simp only [IsPlainPart]
    decide
  canonicalRoot := [ascii "books"]
  plainRoot := by
    simp only [IsPlain]
    decide
  unsafePathMessage := ascii "INPX archive path is unsafe."
  canonicalizationErrorMessage := ascii "INPX archive path could not be canonicalized."

/-- What a lookup finds is not always a file. -/
theorem not_lookup_finds_file : ¬∀ (archive : ArchiveTree) (sortComparisons limit : Nat)
    (stop : Scan.StopRequest) (progress : Scan.Progress) (earlier : List Bytes)
    (archiveName text : Bytes),
    archive.lookupAfter sortComparisons limit stop progress earlier archiveName = .ok (some text) →
      ∃ location, archive.tree.status (archive.canonicalRoot ++ splitPath text) = .ok location ∧
        archive.tree.isDirectory location = false := by
  intro hclaim
  have hfound : directoryNamedLikeArchive.lookupAfter 0 100 { mode := .rescan } {} [] (ascii "a") =
      .ok (some (ascii "a.zip")) := by
    rfl
  obtain ⟨location, hstatus, hfile⟩ := hclaim directoryNamedLikeArchive 0 100 { mode := .rescan } {}
    [] (ascii "a") (ascii "a.zip") hfound
  have hdirectory : directoryNamedLikeArchive.tree.status
      (directoryNamedLikeArchive.canonicalRoot ++ splitPath (ascii "a.zip")) =
      .ok [ascii "books", ascii "a.zip"] := by
    decide
  obtain rfl := Except.ok.inj (hdirectory.symm.trans hstatus)
  revert hfile
  decide

end ArchiveTree

end InpxWebReader.Storage
