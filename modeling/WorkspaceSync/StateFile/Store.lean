import WorkspaceSync.FileSystem.Access
import WorkspaceSync.StateFile.Format

/-!
# The state store

The state file of a directory. A new state goes to a file beside it, which is then moved over it, so
a reader sees the old state or the new one. A state that cannot be read is no error: the next sync
then starts from nothing.
-/

namespace WorkspaceSync

structure StateStore where
  directory : FilePath
  toolVersion : String

/-- A file operation of the store that failed. -/
structure StoreError where
  path : FilePath
  cause : IoError
  deriving DecidableEq, Repr

def StoreError.message (e : StoreError) : String :=
  s!"cache I/O error at {e.path}: {e.cause.message}"

namespace StateStore

def statePath (s : StateStore) : FilePath := s.directory.push "sync_state.bin"

/-- The file that a new state is written to first. -/
def temporaryPath (s : StateStore) : FilePath := s.directory.push "sync_state.bin.tmp"

variable {m : Type → Type} [Monad m] [FileAccess m]

def load (s : StateStore) : m (Option SyncState) := do
  match ← FileAccess.read s.statePath with
  | .ok b => return StateFile.decode b
  | .error _ => return none

def save (s : StateStore) (state : SyncState) : m (Except StoreError Unit) := do
  match ← FileAccess.createDirectories s.directory with
  | .error e => return .error ⟨s.directory, e⟩
  | .ok () =>
    match ← FileAccess.write s.temporaryPath (StateFile.encode s.toolVersion state) with
    | .error e => return .error ⟨s.temporaryPath, e⟩
    | .ok () =>
      return (← FileAccess.rename s.temporaryPath s.statePath).mapError (⟨s.statePath, ·⟩)

/-- Removes the state file; tells whether there was one. -/
def clear (s : StateStore) : m (Except StoreError Bool) := do
  match ← FileAccess.removeFile s.statePath with
  | .ok () => return .ok true
  | .error .notFound => return .ok false
  | .error e => return .error ⟨s.statePath, e⟩

end StateStore

end WorkspaceSync
