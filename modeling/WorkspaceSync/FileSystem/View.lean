import WorkspaceSync.Bytes
import WorkspaceSync.FilePath
import WorkspaceSync.FileSystem.Error

/-!
# Views of a file system

What a sync can see of the files around it: the status and the content of every path, or why there
is none. A sync only reads, so a view stands for the state of the files at one time.
-/

namespace WorkspaceSync

inductive FileStatus where
  /-- A regular file: its size in bytes, and its time of modification in nanoseconds since 1970. -/
  | file (size : Nat) (modified : Int)
  | directory
  deriving DecidableEq, Repr

structure FileView where
  status : FilePath → Except IoError FileStatus
  read : FilePath → Except IoError Bytes

namespace FileView

/-- The view in which nothing exists. -/
def empty : FileView := ⟨fun _ => .error .notFound, fun _ => .error .notFound⟩

/-- The size of a regular file; whatever else a path leads to counts nothing. -/
def size (v : FileView) (p : FilePath) : Nat :=
  match v.status p with
  | .ok (.file size _) => size
  | _ => 0

/-- The sizes of files added up. -/
def totalSize (v : FileView) (ps : List FilePath) : Nat := ps.foldl (fun n p => n + v.size p) 0

end FileView

/-- The text that the bytes of a file encode. -/
def IoError.decodeText (b : Bytes) : Except IoError String :=
  match Bytes.toText? b with
  | some s => .ok s
  | none => .error .invalidText

end WorkspaceSync
