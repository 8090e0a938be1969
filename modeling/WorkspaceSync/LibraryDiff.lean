import WorkspaceSync.Library

/-!
# Library changes

What a project model has to remove and to add to get from one table of libraries to another. A
library whose jars changed under its key is removed and added again.
-/

namespace WorkspaceSync

structure LibraryDiff where
  toAdd : List Library
  toRemove : List Library
  unchanged : List Library
  deriving DecidableEq, Repr

namespace LibraryDiff

/-- Libraries in the order of their own keys; those with one key stay in order. -/
def byKey (l : List Library) : List Library :=
  l.mergeSort fun a b => (compare a.key b.key).isLE

/-- Bindings of `new` that `old` has with the same library are unchanged, the others are added; a
binding of `old` is removed where `new` has none or another one. -/
def between (old new : LibraryTable) : LibraryDiff where
  toAdd := (new.filter fun k l => old.get? k ≠ some l).values
  toRemove := byKey <|
    (new.entries.filterMap fun (k, l) => (old.get? k).filter (· ≠ l)) ++
      (old.filter fun k _ => !new.contains k).values
  unchanged := (new.filter fun k l => old.get? k = some l).values

/-- Everything old is removed and everything new added. -/
def replaceAll (old new : LibraryTable) : LibraryDiff :=
  ⟨new.values, old.values, []⟩

def isEmpty (d : LibraryDiff) : Bool := d.toAdd.isEmpty && d.toRemove.isEmpty

end LibraryDiff

end WorkspaceSync
