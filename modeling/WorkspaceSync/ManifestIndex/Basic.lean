import WorkspaceSync.Label
import WorkspaceSync.Snapshot.Basic

/-!
# The index of dependency manifests

For each target the jars that its compilation read, and for each manifest its signature and the
target that owns it. The list of a target comes from the one file that it owns, so a file that
leaves the snapshot takes the list of its owner with it.
-/

namespace WorkspaceSync

/-- The jars that each target's compilation read, relative to the execution root. -/
abbrev DependencyTable := SortedMap Label (List String)

structure ManifestIndex where
  snapshot : Snapshot
  /-- The target that each loaded manifest belongs to. -/
  owners : SortedMap FilePath Label
  dependencies : DependencyTable
  deriving DecidableEq

namespace ManifestIndex

def empty : ManifestIndex := ⟨.empty, .empty, .empty⟩

/-- Forgets a file and what was loaded from it. -/
def evict (i : ManifestIndex) (file : FilePath) : ManifestIndex :=
  match i.owners.get? file with
  | none => i
  | some label =>
    { i with owners := i.owners.erase file, dependencies := i.dependencies.erase label }

/-- The files that `owners` gives to another target than the index does. -/
def moves (i : ManifestIndex) (owners : SortedMap FilePath Label) : List (FilePath × Label) :=
  owners.entries.filter fun (file, owner) =>
    match i.owners.get? file with
    | some old => old ≠ owner
    | none => false

/-- A file on its way to another owner, with the list that its old owner had. -/
structure Move where
  file : FilePath
  owner : Label
  dependencies : Option (List String)

/-- Takes the list of a file's old owner out. -/
def takeOut (i : ManifestIndex) (acc : List Move × DependencyTable) (m : FilePath × Label) :
    List Move × DependencyTable :=
  let (moves, table) := acc
  match i.owners.get? m.1 with
  | none => (moves ++ [⟨m.1, m.2, none⟩], table)
  | some old => (moves ++ [⟨m.1, m.2, table.get? old⟩], table.erase old)

/-- Gives a file and its list to the new owner. -/
def putIn (i : ManifestIndex) (m : Move) : ManifestIndex where
  snapshot := i.snapshot
  owners := i.owners.insert m.file m.owner
  dependencies :=
    match m.dependencies with
    | some deps => i.dependencies.insert m.owner deps
    | none => i.dependencies.erase m.owner

/-- Moves the lists of files to their present owners. Every list is taken out before the first is
put in, so targets may trade files. -/
def relabel (i : ManifestIndex) (owners : SortedMap FilePath Label) : ManifestIndex :=
  let (moves, table) := (i.moves owners).foldl i.takeOut ([], i.dependencies)
  moves.foldl putIn { i with dependencies := table }

/-- Takes in what was parsed from a file. -/
def record (i : ManifestIndex) (file : FilePath) (label : Label) (deps : List String) :
    ManifestIndex :=
  let table :=
    match i.owners.get? file with
    | some old => if old = label then i.dependencies else i.dependencies.erase old
    | none => i.dependencies
  { i with owners := i.owners.insert file label, dependencies := table.insert label deps }

end ManifestIndex

end WorkspaceSync
