import Mathlib.Data.List.Induction
import Mathlib.Data.List.Nodup

/-!
# Disks that programs change

A `Disk` is a finite table of locations with what is there, over any type of names and of file
contents. A location is the list of names from the root, and its parent is a directory: the table
carries both facts. Two changes are enough for everything a program does to it. `put` makes an entry
where there is no directory, and `removeAll` takes a location away with everything below it.

Programs name what is on a disk by paths, and a path goes through the links on its way. `follow` is
where a path leads, `place` the location that it names when the last name is not followed, and the
operations on paths act there. Where there is no link on the way (`Straight`) a path is a location.

Every lemma is about `lookup`; `mem_listing` says it of the names in a directory.
-/

/-- What is at a location. -/
inductive DiskEntry (N C : Type)
  | file (content : C)
  | directory
  /-- a symbolic link to a path from the root -/
  | link (target : List N)
  /-- anything else -/
  | other
  deriving DecidableEq

variable {N C : Type} [DecidableEq N]

structure Disk (N C : Type) [DecidableEq N] where
  entries : List (List N × DiskEntry N C)
  nodup : (entries.map Prod.fst).Nodup
  closed : ∀ location name, location ++ [name] ∈ entries.map Prod.fst →
    entries.lookup location = some .directory

namespace Disk

/-- What is at a location. -/
def lookup (d : Disk N C) (location : List N) : Option (DiskEntry N C) := d.entries.lookup location

/-- The names in a directory. -/
def listing (d : Disk N C) (location : List N) : List N :=
  (d.entries.map Prod.fst).filterMap fun key =>
    if key.dropLast = location then key.getLast? else none

section Tables

variable {entries : List (List N × DiskEntry N C)} {location l : List N}

theorem lookup_filter (keep : List N → Bool) :
    (entries.filter fun entry => keep entry.1).lookup l =
      if keep l then entries.lookup l else none := by
  induction entries with
  | nil => simp
  | cons entry entries ih =>
    obtain ⟨key, value⟩ := entry
    by_cases hkey : l = key
    · subst hkey
      by_cases hkeep : keep l = true
      · simp [hkeep]
      · simp [hkeep, ih]
    · have hne : (l == key) = false := beq_eq_false_iff_ne.mpr hkey
      by_cases hkeep : keep key = true
      · simp [hkeep, List.lookup_cons, hne, ih]
      · simp [hkeep, List.lookup_cons, hne, ih]

theorem mem_keys_iff : l ∈ entries.map Prod.fst ↔ entries.lookup l ≠ none := by
  rw [ne_eq, List.lookup_eq_none_iff, List.mem_map]
  constructor
  · rintro ⟨entry, hentry, rfl⟩ hnone
    exact absurd (hnone entry hentry) (by simp)
  · intro h
    by_contra hnone
    refine h fun entry hentry => bne_iff_ne.mpr ?_
    rintro rfl
    exact hnone ⟨entry, hentry, rfl⟩

theorem key_of_listed {key : List N} {name : N}
    (h : (if key.dropLast = location then key.getLast? else none) = some name) :
    key = location ++ [name] := by
  split at h
  · next hparent =>
    obtain ⟨init, rfl⟩ := List.getLast?_eq_some_iff.mp h
    rw [List.dropLast_concat] at hparent
    rw [hparent]
  · cases h

omit [DecidableEq N] in
theorem nodup_filter (h : (entries.map Prod.fst).Nodup) (keep : List N → Bool) :
    ((entries.filter fun entry => keep entry.1).map Prod.fst).Nodup :=
  h.sublist (List.Sublist.map _ List.filter_sublist)

end Tables

/-- The disk without a location and everything below it. -/
def removeAll (d : Disk N C) (location : List N) : Disk N C where
  entries := d.entries.filter fun entry => !location.isPrefixOf entry.1
  nodup := nodup_filter d.nodup fun l => !location.isPrefixOf l
  closed l name hmem := by
    rw [mem_keys_iff, lookup_filter fun l => !location.isPrefixOf l] at hmem
    rw [lookup_filter fun l => !location.isPrefixOf l]
    split at hmem
    · next hkeep =>
      have hkeep' : (!location.isPrefixOf l) = true := by
        rw [Bool.not_eq_true', ← Bool.not_eq_true, List.isPrefixOf_iff_prefix] at hkeep ⊢
        exact fun hpre => hkeep (hpre.trans (List.prefix_append ..))
      rw [if_pos hkeep']
      exact d.closed l name (mem_keys_iff.mpr hmem)
    · exact absurd rfl hmem

/-- The disk with an entry at a location in a directory; none where there is a directory. -/
def put [DecidableEq C] (d : Disk N C) (location : List N) (entry : DiskEntry N C) : Option (Disk N C) :=
  if h : location ≠ [] ∧ d.lookup location.dropLast = some .directory ∧
      d.lookup location ≠ some .directory then
    some {
      entries := (location, entry) :: d.entries.filter fun e => e.1 ≠ location
      nodup := by
        rw [List.map_cons, List.nodup_cons]
        refine ⟨?_, nodup_filter d.nodup fun l => decide (l ≠ location)⟩
        rw [mem_keys_iff, lookup_filter fun l => decide (l ≠ location)]
        simp
      closed := by
        obtain ⟨hne, hparent, hplace⟩ := h
        have hlookup : ∀ l, l ≠ location → ((location, entry) :: d.entries.filter fun e =>
            decide (e.1 ≠ location)).lookup l = d.entries.lookup l := by
          intro l hl
          rw [List.lookup_cons, beq_eq_false_iff_ne.mpr hl,
            lookup_filter fun l => decide (l ≠ location)]
          simp [hl]
        intro l name hmem
        have hup : d.entries.lookup l = some .directory := by
          by_cases hself : l ++ [name] = location
          · rw [← hself, List.dropLast_concat] at hparent
            exact hparent
          · rw [mem_keys_iff, hlookup _ hself] at hmem
            exact d.closed l name (mem_keys_iff.mpr hmem)
        have hl : l ≠ location := by
          rintro rfl
          exact hplace hup
        rw [hlookup l hl]
        exact hup }
  else none

/-- The disk with nothing but its root. -/
def root : Disk N C where
  entries := [([], .directory)]
  nodup := List.nodup_singleton _
  closed location name hmem := by
    rw [List.map_cons, List.map_nil, List.mem_singleton] at hmem
    exact absurd hmem (List.append_ne_nil_of_right_ne_nil _ (List.cons_ne_nil _ _))

section Lookup

variable {d d' : Disk N C} {location l : List N} {entry : DiskEntry N C} {name : N}

theorem lookup_removeAll :
    (d.removeAll location).lookup l = if location <+: l then none else d.lookup l := by
  rw [lookup, removeAll, lookup_filter fun l => !location.isPrefixOf l]
  by_cases hpre : location <+: l
  · rw [List.isPrefixOf_iff_prefix.mpr hpre, if_pos hpre]
    rfl
  · rw [if_neg hpre, Bool.not_eq_true' _ |>.mpr]
    · rfl
    · rw [← Bool.not_eq_true, List.isPrefixOf_iff_prefix]
      exact hpre

/-- An entry is put in a directory, and nowhere where a directory is. -/
theorem put_isSome_iff [DecidableEq C] : (d.put location entry).isSome = true ↔ location ≠ [] ∧
    d.lookup location.dropLast = some .directory ∧ d.lookup location ≠ some .directory := by
  rw [put]
  split
  · next h => exact iff_of_true rfl h
  · next h => exact iff_of_false (fun h => by cases h) h

theorem lookup_put [DecidableEq C] (h : d.put location entry = some d') :
    d'.lookup l = if l = location then some entry else d.lookup l := by
  rw [put] at h
  split at h
  · injection h with h
    subst h
    rw [lookup, List.lookup_cons]
    by_cases hl : l = location
    · subst hl
      simp
    · rw [beq_eq_false_iff_ne.mpr hl, lookup_filter fun l => decide (l ≠ location)]
      simp [hl, lookup]
  · cases h

theorem lookup_parent (h : d.lookup (location ++ [name]) ≠ none) :
    d.lookup location = some .directory :=
  d.closed location name (mem_keys_iff.mpr h)

theorem lookup_above (h : d.lookup l ≠ none) (hpre : location <+: l) (hne : location ≠ l) :
    d.lookup location = some .directory := by
  obtain ⟨rest, rfl⟩ := hpre
  induction rest using List.reverseRecOn with
  | nil => exact absurd (List.append_nil _).symm hne
  | append_singleton rest name ih =>
    rw [← List.append_assoc] at h
    have hparent := lookup_parent h
    by_cases hrest : rest = []
    · subst hrest
      rwa [List.append_nil] at hparent
    · refine ih (by rw [hparent]; exact nofun) ?_
      intro heq
      exact hrest (List.append_right_eq_self.mp heq.symm)

theorem lookup_eq_none_below (h : d.lookup location = none) (hpre : location <+: l) :
    d.lookup l = none := by
  by_contra hl
  by_cases hne : location = l
  · exact hl (hne ▸ h)
  · rw [lookup_above hl hpre hne] at h
    cases h

theorem mem_listing : name ∈ d.listing location ↔ d.lookup (location ++ [name]) ≠ none := by
  rw [lookup, ← mem_keys_iff, listing, List.mem_filterMap]
  constructor
  · rintro ⟨key, hkey, hname⟩
    rwa [← key_of_listed hname]
  · intro hkey
    exact ⟨_, hkey, by rw [List.dropLast_concat, if_pos rfl, List.getLast?_concat]⟩

end Lookup

/-! ### Paths -/

/-- Why a path leads nowhere. -/
inductive FollowError
  | notFound
  | tooManyLinks
  deriving DecidableEq

/-- Follow the names from a directory, and hand a link over to `next` with its target. -/
def followFrom (d : Disk N C) (next : List N → Except FollowError (List N)) :
    List N → List N → Except FollowError (List N)
  | current, [] => if d.lookup current = none then .error .notFound else .ok current
  | current, name :: rest =>
    match d.lookup (current ++ [name]) with
    | some (.link target) => next (target ++ rest)
    | _ => d.followFrom next (current ++ [name]) rest

/-- Where a path leads, with so many links on the way at most. -/
def followWithin (d : Disk N C) : Nat → List N → Except FollowError (List N)
  | 0 => d.followFrom (fun _ => .error .tooManyLinks) []
  | left + 1 => d.followFrom (d.followWithin left) []

/-- The location that a path leads to, by at most 40 links. -/
def follow (d : Disk N C) (path : List N) : Except FollowError (List N) := d.followWithin 40 path

/-- The location that a path names: its last name is not followed. -/
def place (d : Disk N C) (path : List N) : Option (List N) :=
  match path.getLast? with
  | none => some []
  | some name => (d.follow path.dropLast).toOption.map fun parent => parent ++ [name]

/-- `lstat`. -/
def entryAt (d : Disk N C) (path : List N) : Option (DiskEntry N C) := (d.place path).bind d.lookup

def statusAt (d : Disk N C) (path : List N) : Option (DiskEntry N C) :=
  (d.follow path).toOption.bind d.lookup

/-- The names in the directory that a path leads to. -/
def listingAt (d : Disk N C) (path : List N) : List N :=
  match d.follow path with
  | .ok location => d.listing location
  | .error _ => []

/-- The disk without what a path names. -/
def removeAt (d : Disk N C) (path : List N) : Disk N C :=
  match d.place path with
  | some location => d.removeAll location
  | none => d

/-- The disk with an entry where a path says. -/
def putAt [DecidableEq C] (d : Disk N C) (path : List N) (entry : DiskEntry N C) :
    Option (Disk N C) := (d.place path).bind fun location => d.put location entry

/-- There is no link at or above a location. -/
def Straight (d : Disk N C) (path : List N) : Prop :=
  ∀ l target, l <+: path → d.lookup l ≠ some (.link target)

/-- No link is new. -/
def KeepsLinks (d d' : Disk N C) : Prop :=
  ∀ l target, d'.lookup l = some (.link target) → d.lookup l = some (.link target)

section Paths

variable {d d' d'' : Disk N C} {path l : List N} {entry : DiskEntry N C} {name : N}

theorem Straight.of_prefix (h : d.Straight path) (hl : l <+: path) : d.Straight l :=
  fun _ _ hpre => h _ _ (hpre.trans hl)

theorem Straight.dropLast (h : d.Straight path) : d.Straight path.dropLast :=
  h.of_prefix (List.dropLast_prefix path)

theorem Straight.keeps (h : d.Straight path) (hlinks : d.KeepsLinks d') : d'.Straight path :=
  fun l target hl hlink => h l target hl (hlinks l target hlink)

theorem Straight.concat (h : d.Straight path) (hlink : ∀ target, d.lookup (path ++ [name]) ≠
    some (.link target)) : d.Straight (path ++ [name]) := by
  intro l target hl
  rcases List.prefix_concat_iff.mp hl with rfl | hl
  · exact hlink target
  · exact h l target hl

theorem KeepsLinks.refl : d.KeepsLinks d := fun _ _ h => h

theorem KeepsLinks.trans (h : d.KeepsLinks d') (h' : d'.KeepsLinks d'') : d.KeepsLinks d'' :=
  fun l target hlink => h l target (h' l target hlink)

theorem keepsLinks_removeAll {location : List N} : d.KeepsLinks (d.removeAll location) := by
  intro l target hlink
  rw [lookup_removeAll] at hlink
  split at hlink
  · cases hlink
  · exact hlink

theorem keepsLinks_put [DecidableEq C] {location : List N} (h : d.put location entry = some d')
    (hentry : ∀ target, entry ≠ .link target) : d.KeepsLinks d' := by
  intro l target hlink
  rw [lookup_put h] at hlink
  split at hlink
  · exact absurd (Option.some.inj hlink) (hentry target)
  · exact hlink

theorem straight_root : (root : Disk N C).Straight path := by
  intro l target _ hlink
  rw [lookup, root, List.lookup_cons] at hlink
  split at hlink <;> cases hlink

theorem follow_of_straight (h : d.Straight path) :
    d.follow path = if d.lookup path = none then .error .notFound else .ok path := by
  have hfollow : ∀ next current rest, d.Straight (current ++ rest) →
      d.followFrom next current rest =
        if d.lookup (current ++ rest) = none then .error .notFound else .ok (current ++ rest) := by
    intro next current rest hstraight
    induction rest generalizing current with
    | nil => rw [followFrom, List.append_nil]
    | cons name rest ih =>
      rw [← List.singleton_append, ← List.append_assoc] at hstraight ⊢
      rw [List.singleton_append, followFrom]
      split
      · next target hlink => exact absurd hlink (hstraight _ target (List.prefix_append ..))
      · exact ih _ hstraight
  exact hfollow _ [] path h

/-- Where there is no link above it, a path is a location, if there is a directory above it. -/
theorem place_of_straight (h : d.Straight path.dropLast) :
    d.place path = some path ∨ d.place path = none ∧ path ≠ [] ∧ d.lookup path.dropLast = none := by
  rw [place]
  split
  · next hnil => exact .inl (congrArg some (List.getLast?_eq_none_iff.mp hnil).symm)
  · next name hname =>
    obtain ⟨init, rfl⟩ := List.getLast?_eq_some_iff.mp hname
    rw [follow_of_straight h, List.dropLast_concat]
    split
    · next hnone => exact .inr ⟨rfl, List.append_ne_nil_of_right_ne_nil _ (List.cons_ne_nil _ _), hnone⟩
    · exact .inl rfl

theorem entryAt_of_straight (h : d.Straight path.dropLast) : d.entryAt path = d.lookup path := by
  rw [entryAt]
  rcases place_of_straight h with hplace | ⟨hplace, _, hnone⟩
  · rw [hplace]
    rfl
  · rw [hplace, lookup_eq_none_below hnone (List.dropLast_prefix path)]
    rfl

theorem statusAt_of_straight (h : d.Straight path) : d.statusAt path = d.lookup path := by
  rw [statusAt, follow_of_straight h]
  split
  · next hnone => exact hnone.symm
  · rfl

theorem listingAt_of_straight (h : d.Straight path) : d.listingAt path = d.listing path := by
  rw [listingAt, follow_of_straight h]
  split
  · next location hfollow =>
    split at hfollow
    · cases hfollow
    · cases hfollow
      rfl
  · next hfollow =>
    split at hfollow
    · next hnone =>
      refine (List.eq_nil_iff_forall_not_mem.mpr fun name hname => ?_).symm
      exact mem_listing.mp hname (lookup_eq_none_below hnone (List.prefix_append ..))
    · cases hfollow

theorem removeAt_of_straight (h : d.Straight path.dropLast) :
    d.removeAt path = d.removeAll path := by
  rw [removeAt]
  rcases place_of_straight h with hplace | ⟨hplace, _, hnone⟩
  · rw [hplace]
  · rw [hplace]
    -- nothing is at the path, so nothing goes
    have hkeep : ∀ entry ∈ d.entries, (!path.isPrefixOf entry.1) = true := by
      intro entry hentry
      rw [Bool.not_eq_true', ← Bool.not_eq_true, List.isPrefixOf_iff_prefix]
      intro hpre
      refine mem_keys_iff.mp (List.mem_map_of_mem hentry) ?_
      exact lookup_eq_none_below hnone ((List.dropLast_prefix path).trans hpre)
    rw [removeAll]
    cases d
    simp only [mk.injEq]
    exact (List.filter_eq_self.mpr hkeep).symm

theorem putAt_of_straight [DecidableEq C] (h : d.Straight path.dropLast) :
    d.putAt path entry = d.put path entry := by
  rw [putAt]
  rcases place_of_straight h with hplace | ⟨hplace, _, hnone⟩
  · rw [hplace]
    rfl
  · rw [hplace, put, dif_neg]
    · rfl
    · rintro ⟨_, hdirectory, _⟩
      rw [hnone] at hdirectory
      cases hdirectory

end Paths

end Disk
