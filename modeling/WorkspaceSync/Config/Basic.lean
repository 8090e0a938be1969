import WorkspaceSync.Exclusions
import WorkspaceSync.LanguageLevel
import WorkspaceSync.WorkspacePath

/-!
# Configuration

What the user chooses: which directories are imported as content, which libraries are left out, and
how the engine works. `validate` says which choices make sense together.
-/

namespace WorkspaceSync

structure ProjectSection where
  directories : List WorkspacePath
  excludeDirectories : List WorkspacePath
  deriving DecidableEq

structure JavaSection where
  /-- Overrides the level that targets ask for. -/
  languageLevel : Option LanguageLevel
  excludeLibrary : List String
  attachSourceJars : Bool
  deriving DecidableEq

/-- How a manifest is compared with the one of the previous sync. -/
inductive SignatureMode where
  | metadata
  | content
  deriving DecidableEq, Repr

structure SyncSection where
  useWorkingSet : Bool
  manifestSignature : SignatureMode
  /-- The number of threads; 0 stands for one a core. -/
  parallelism : Nat
  pruneUnusedLibraries : Bool
  deriving DecidableEq

structure SyncConfig where
  project : ProjectSection
  java : JavaSection
  sync : SyncSection
  deriving DecidableEq

namespace ProjectSection

def default : ProjectSection := ⟨[], []⟩

/-- Below an import directory, and not below an excluded one. -/
def includes (p : ProjectSection) (path : WorkspacePath) : Bool :=
  p.directories.any (·.isAncestorOf path) && !p.excludeDirectories.any (·.isAncestorOf path)

end ProjectSection

def JavaSection.default : JavaSection := ⟨none, [], false⟩

def SyncSection.default : SyncSection := ⟨true, .metadata, 0, false⟩

inductive ConfigProblem where
  | invalidPattern (e : InvalidPattern)
  | excludedOutside (directory : WorkspacePath)
  | parallelismOutOfRange (n : Nat)
  deriving DecidableEq

namespace SyncConfig

def default : SyncConfig := ⟨.default, .default, .default⟩

def maxParallelism : Nat := 1024

/-- Patterns must compile, excluded directories lie below import directories, and the number of
threads is limited. -/
def validate (c : SyncConfig) : Except ConfigProblem Unit := do
  match Exclusions.compile c.java.excludeLibrary with
  | .error e => throw (.invalidPattern e)
  | .ok _ => pure ()
  match c.project.excludeDirectories.find? fun x =>
      !c.project.directories.any (·.isAncestorOf x) with
  | some x => throw (.excludedOutside x)
  | none => pure ()
  if maxParallelism < c.sync.parallelism then throw (.parallelismOutOfRange c.sync.parallelism)

end SyncConfig

namespace ConfigProblem

def message : ConfigProblem → String
  | invalidPattern e => e.message
  | excludedOutside d =>
    s!"validation error: excluded directory '{d.text}' is not under any project directory"
  | parallelismOutOfRange n => s!"validation error: sync.parallelism = {n} is out of range"

end ConfigProblem

end WorkspaceSync
