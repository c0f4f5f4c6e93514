import InpxWebReader.Storage.CacheLayout

/-!
# Files of the cover cache

The files under the cache directory, as a map from relative paths. What is neither absent nor a
regular file (a directory, a symbolic link) has no content that the program would use.
-/

namespace InpxWebReader.Storage

open Foundation

/-- What a path of the cache leads to. -/
inductive FileNode
  | regular (bytes : Bytes)
  | other
  deriving DecidableEq

abbrev CoverStore := Bytes → Option FileNode

namespace CoverStore

/-- A file is written, or whatever the path led to is replaced by it. -/
def write (covers : CoverStore) (path bytes : Bytes) : CoverStore :=
  fun p => if p = path then some (.regular bytes) else covers p

/-- `RemovePathNoThrow`. -/
def remove (covers : CoverStore) (path : Bytes) : CoverStore :=
  fun p => if p = path then none else covers p

def removeAll (covers : CoverStore) (paths : List Bytes) : CoverStore := paths.foldl remove covers

@[simp] theorem write_self (covers : CoverStore) (path bytes : Bytes) :
    covers.write path bytes path = some (.regular bytes) := if_pos rfl

theorem write_ne {covers : CoverStore} {path bytes p : Bytes} (h : p ≠ path) :
    covers.write path bytes p = covers p := if_neg h

@[simp] theorem remove_self (covers : CoverStore) (path : Bytes) :
    covers.remove path path = none := if_pos rfl

theorem remove_ne {covers : CoverStore} {path p : Bytes} (h : p ≠ path) :
    covers.remove path p = covers p := if_neg h

theorem removeAll_apply (covers : CoverStore) (paths : List Bytes) (p : Bytes) :
    covers.removeAll paths p = if p ∈ paths then none else covers p := by
  rw [removeAll]
  induction paths generalizing covers with
  | nil => simp
  | cons path paths ih =>
    rw [List.foldl_cons, ih]
    by_cases hp : p = path
    · subst hp
      simp
    · rw [remove_ne hp]
      simp [hp]

end CoverStore

end InpxWebReader.Storage
