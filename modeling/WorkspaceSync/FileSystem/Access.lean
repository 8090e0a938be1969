import WorkspaceSync.FileSystem.Disk

/-!
# Access to files

What a program does to files, in any monad that can do it. A disk in memory is one instance; its
clock stands still, so every file that it writes gets the same time.
-/

namespace WorkspaceSync

class FileAccess (m : Type → Type) where
  read : FilePath → m (Except IoError Bytes)
  isFile : FilePath → m Bool
  /-- Looks at files all at once. -/
  survey : List FilePath → m FileView
  createDirectories : FilePath → m (Except IoError Unit)
  write : FilePath → Bytes → m (Except IoError Unit)
  rename : FilePath → FilePath → m (Except IoError Unit)
  removeFile : FilePath → m (Except IoError Unit)

namespace FileAccess

variable {m : Type → Type} [Monad m] [FileAccess m]

/-- Reads a file as a text. -/
def readText (p : FilePath) : m (Except IoError String) := do
  return (← read p).bind IoError.decodeText

end FileAccess

namespace Disk

instance : FileAccess (StateM Disk) where
  read p := fun d => (d.read p, d)
  isFile p := fun d => (d.isFile p, d)
  survey _ := fun d => (d.view, d)
  createDirectories := createDirectories
  write p b := attempt (·.write p b 0)
  rename p q := attempt (·.rename p q)
  removeFile p := attempt (·.removeFile p)

end Disk

instance {σ : Type} {m : Type → Type} [Monad m] [FileAccess m] : FileAccess (StateT σ m) where
  read p := liftM (FileAccess.read p : m _)
  isFile p := liftM (FileAccess.isFile p : m _)
  survey ps := liftM (FileAccess.survey ps : m _)
  createDirectories p := liftM (FileAccess.createDirectories p : m _)
  write p b := liftM (FileAccess.write p b : m _)
  rename p q := liftM (FileAccess.rename p q : m _)
  removeFile p := liftM (FileAccess.removeFile p : m _)

end WorkspaceSync
