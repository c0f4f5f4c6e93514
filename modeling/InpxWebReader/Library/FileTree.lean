import InpxWebReader.Library.LexicalPath

/-!
# Finite file trees with symbolic links

A `FileTree` is a finite table of locations: a location is the list of names from the root to a
file, a directory or a symbolic link, with no link on the way. `resolve` follows a path the way a
kernel does: a link is replaced by its target, at most `maxLinks` times. What a path resolves to is
its canonical location.

`resolve_append` takes a path apart, and `status_append_singleton` says what a resolved path says of
the directory above it.
-/

open LexicalPath DotNames

/-- What is at a location. -/
inductive FileNode (N : Type)
  | file
  | directory (names : List N)
  | link (target : NamePath N)

/-- The names in a directory. -/
def FileNode.names {N : Type} : FileNode N → List N
  | .directory names => names
  | _ => []

structure FileTree (N : Type) where
  nodes : List (List N × FileNode N)
  maxLinks : Nat := 40

/-- Why a path does not resolve. -/
inductive ResolveError
  | notFound
  | tooManyLinks
  deriving DecidableEq

namespace FileTree

variable {N : Type} [DecidableEq N] [DotNames N]

/-- What is at a location. -/
def node (tree : FileTree N) (location : List N) : Option (FileNode N) := tree.nodes.lookup location

/-- The names in a directory; none in anything else. -/
def listing (tree : FileTree N) (location : List N) : List N :=
  match tree.node location with
  | some node => node.names
  | none => []

/-- There is a directory at the location. -/
def isDirectory (tree : FileTree N) (location : List N) : Bool :=
  match tree.node location with
  | some (.directory _) => true
  | _ => false

/-- Follow the names from a directory, and hand a link over to `next` with its target. -/
def follow (tree : FileTree N) (left : Nat)
    (next : List N → List N → Except ResolveError (Nat × List N)) :
    List N → List N → Except ResolveError (Nat × List N)
  | current, [] => .ok (left, current)
  | current, name :: rest =>
    if ¬tree.isDirectory current then .error .notFound
    else if name = empty ∨ name = dot then tree.follow left next current rest
    else if name = dotdot then tree.follow left next current.dropLast rest
    else if name ∉ tree.listing current then .error .notFound
    else match tree.node (current ++ [name]) with
      | none => .error .notFound
      | some (.link target) =>
        next (if target.rooted then [] else current) (target.names ++ rest)
      | some _ => tree.follow left next (current ++ [name]) rest

/-- Where the names lead from a directory, and how many links may still be followed. -/
def resolve (tree : FileTree N) : Nat → List N → List N → Except ResolveError (Nat × List N)
  | 0 => tree.follow 0 fun _ _ => .error .tooManyLinks
  | left + 1 => tree.follow (left + 1) (tree.resolve left)

/-- `stat`: the canonical location of a path. -/
def status (tree : FileTree N) (names : List N) : Except ResolveError (List N) :=
  (tree.resolve tree.maxLinks [] names).map Prod.snd

/-! ### Taking a path apart -/

section Resolve

variable {tree : FileTree N} {left : Nat} {current names rest location : List N} {name : N}

theorem follow_append {next : List N → List N → Except ResolveError (Nat × List N)}
    (hself : tree.resolve left = tree.follow left next)
    (hnext : ∀ current names, next current (names ++ rest) =
      next current names >>= fun p => tree.resolve p.1 p.2 rest) :
    tree.resolve left current (names ++ rest) =
      tree.resolve left current names >>= fun p => tree.resolve p.1 p.2 rest := by
  induction names generalizing current with
  | nil => rw [List.nil_append, hself, follow, ← hself]; rfl
  | cons name names ih =>
    rw [hself] at ih ⊢
    rw [List.cons_append, follow, follow]
    split
    · rfl
    · split
      · exact ih
      · split
        · exact ih
        · split
          · rfl
          · cases tree.node (current ++ [name]) with
            | none => rfl
            | some node =>
              cases node with
              | link target =>
                dsimp only
                rw [← List.append_assoc]
                exact hnext _ _
              | file => exact ih
              | directory listed => exact ih

theorem resolve_append (left : Nat) (current names rest : List N) :
    tree.resolve left current (names ++ rest) =
      tree.resolve left current names >>= fun p => tree.resolve p.1 p.2 rest := by
  induction left generalizing current names with
  | zero => exact follow_append rfl fun _ _ => rfl
  | succ left ih => exact follow_append rfl ih

/-- A first step that leads anywhere starts in a directory, at one of its names. -/
theorem mem_listing_of_resolve {next : List N → List N → Except ResolveError (Nat × List N)}
    {p : Nat × List N} (hself : tree.resolve left = tree.follow left next) (hname : IsPlain name)
    (h : tree.resolve left current (name :: rest) = .ok p) :
    tree.isDirectory current = true ∧ name ∈ tree.listing current := by
  obtain ⟨hempty, hdot, hdotdot⟩ := hname
  rw [hself, follow] at h
  split at h
  · cases h
  · next hdirectory =>
    rw [not_not] at hdirectory
    rw [if_neg (not_or.mpr ⟨hempty, hdot⟩)] at h
    split at h
    · cases h
    · next hlisted => exact ⟨hdirectory, not_not.mp hlisted⟩

/-- A path resolves only through the directories above it. -/
theorem status_of_append (hname : IsPlain name) (h : tree.status (names ++ name :: rest) = .ok location) :
    ∃ parent, tree.status names = .ok parent ∧ tree.isDirectory parent = true ∧
      name ∈ tree.listing parent := by
  rw [status, resolve_append] at h
  cases hparent : tree.resolve tree.maxLinks [] names with
  | error e =>
    rw [hparent] at h
    cases h
  | ok p =>
    rw [hparent] at h
    cases hrest : tree.resolve p.1 p.2 (name :: rest) with
    | error e =>
      replace h : Except.map Prod.snd (tree.resolve p.1 p.2 (name :: rest)) = .ok location := h
      rw [hrest] at h
      cases h
    | ok q =>
      refine ⟨p.2, by rw [status, hparent]; rfl, ?_⟩
      cases hleft : p.1 with
      | zero => exact mem_listing_of_resolve rfl hname (hleft ▸ hrest)
      | succ left => exact mem_listing_of_resolve rfl hname (hleft ▸ hrest)

theorem follow_plain {next : List N → List N → Except ResolveError (Nat × List N)} {p : Nat × List N}
    (hnext : ∀ current names p, (∀ name ∈ current, IsPlain name) → next current names = .ok p →
      ∀ name ∈ p.2, IsPlain name)
    (hcurrent : ∀ name ∈ current, IsPlain name) (h : tree.follow left next current names = .ok p) :
    ∀ name ∈ p.2, IsPlain name := by
  induction names generalizing current with
  | nil =>
    injection h with h
    exact h ▸ hcurrent
  | cons name names ih =>
    rw [follow] at h
    split at h
    · cases h
    · split at h
      · exact ih hcurrent h
      · next hkeep =>
        rw [not_or] at hkeep
        split at h
        · exact ih (fun name hname => hcurrent name ((List.dropLast_sublist _).mem hname)) h
        · next hdotdot =>
          have hstep : ∀ next ∈ current ++ [name], IsPlain next := by
            intro next hnext
            rcases List.mem_append.mp hnext with hnext | hnext
            · exact hcurrent next hnext
            · rw [List.mem_singleton] at hnext
              exact hnext ▸ ⟨hkeep.1, hkeep.2, hdotdot⟩
          split at h
          · cases h
          · cases hnode : tree.node (current ++ [name]) with
            | none =>
              rw [hnode] at h
              cases h
            | some node =>
              rw [hnode] at h
              cases node with
              | link target =>
                refine hnext _ _ p ?_ h
                split
                · exact fun name hname => absurd hname List.not_mem_nil
                · exact hcurrent
              | file => exact ih hstep h
              | directory listed => exact ih hstep h

theorem resolve_plain (left : Nat) {p : Nat × List N} (hcurrent : ∀ name ∈ current, IsPlain name)
    (h : tree.resolve left current names = .ok p) : ∀ name ∈ p.2, IsPlain name := by
  induction left generalizing current names p with
  | zero => exact follow_plain (fun _ _ _ _ hnext => by cases hnext) hcurrent h
  | succ left ih => exact follow_plain (fun _ _ _ => ih) hcurrent h

theorem status_plain (h : tree.status names = .ok location) : ∀ name ∈ location, IsPlain name := by
  rw [status] at h
  cases hresolve : tree.resolve tree.maxLinks [] names with
  | error e =>
    rw [hresolve] at h
    cases h
  | ok p =>
    rw [hresolve] at h
    injection h with h
    exact h ▸ resolve_plain _ (fun name hname => absurd hname List.not_mem_nil) hresolve

end Resolve

/-! ### Paths of which only the beginning exists -/

/-- The leading names of a path that exist, and the others. -/
def existingPrefix (tree : FileTree N) (existing : List N) : List N → List N × List N
  | [] => (existing, [])
  | name :: rest =>
    match tree.status (existing ++ [name]) with
    | .ok _ => tree.existingPrefix (existing ++ [name]) rest
    | .error _ => (existing, name :: rest)

/-- `weakly_canonical` of a path from the root. -/
def weaklyCanonical (tree : FileTree N) (names : List N) : Except ResolveError (List N) :=
  match tree.status names with
  | .ok location => .ok location
  | .error .tooManyLinks => .error .tooManyLinks
  | .error .notFound =>
    let (existing, rest) := tree.existingPrefix [] names
    (tree.status existing).map fun location => NamePath.normalNames true (location ++ rest)

theorem weaklyCanonical_of_status {tree : FileTree N} {names location : List N}
    (h : tree.status names = .ok location) : tree.weaklyCanonical names = .ok location := by
  rw [weaklyCanonical, h]

omit [DotNames N] in
/-- What is said of all names of the table holds of the names of a directory. -/
theorem forall_mem_listing {tree : FileTree N} {P : N → Prop}
    (h : ∀ entry ∈ tree.nodes, ∀ name ∈ entry.2.names, P name) (location : List N) :
    ∀ name ∈ tree.listing location, P name := by
  intro name hname
  rw [listing] at hname
  split at hname
  · next node hnode =>
    obtain ⟨before, after, hnodes, -⟩ := List.lookup_eq_some_iff.mp hnode
    refine h (location, node) ?_ name hname
    rw [hnodes]
    exact List.mem_append_right _ (List.mem_cons_self ..)
  · exact absurd hname List.not_mem_nil

/-- The directories of a tree. -/
def directories (tree : FileTree N) : List (List N) :=
  (tree.nodes.filter fun entry => match entry.2 with
    | .directory _ => true
    | _ => false).map Prod.fst

omit [DotNames N] in
theorem mem_directories {tree : FileTree N} {location : List N}
    (h : tree.isDirectory location = true) : location ∈ tree.directories := by
  rw [isDirectory] at h
  split at h
  · next names hnode =>
    obtain ⟨before, after, hnodes, -⟩ := List.lookup_eq_some_iff.mp hnode
    have hmem : (location, FileNode.directory names) ∈ tree.nodes := by
      rw [hnodes]
      exact List.mem_append_right _ (List.mem_cons_self ..)
    exact List.mem_map.mpr ⟨(location, .directory names), List.mem_filter.mpr ⟨hmem, rfl⟩, rfl⟩
  · cases h

end FileTree
