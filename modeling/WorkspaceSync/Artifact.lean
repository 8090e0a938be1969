import WorkspaceSync.WorkspacePath

/-!
# Artifact locations

A file that the build read or made, by its path below a root. A location never holds an absolute
path, because the roots change from build to build: `Roots.resolve` turns it into a file path. The
path relative to the execution root stays the same and so identifies the file.
-/

namespace WorkspaceSync

open Text

inductive ArtifactError where
  | emptyPath
  | absolutePath (path : String)
  | parentReference (path : String)
  deriving DecidableEq, Repr

namespace ArtifactError

def message : ArtifactError → String
  | emptyPath => "artifact has an empty relative path"
  | absolutePath p => s!"artifact path '{p}' must be relative"
  | parentReference p => s!"artifact path '{p}' must not contain '..'"

end ArtifactError

structure ArtifactLocation where
  /-- The output root below the execution root; empty for sources. -/
  rootFragment : String
  relativePath : String
  isSource : Bool
  deriving DecidableEq, Repr

namespace ArtifactLocation

def source (path : String) : ArtifactLocation := ⟨"", path, true⟩

def generated (root path : String) : ArtifactLocation := ⟨root, path, false⟩

/-- Whether the file belongs to an external repository. -/
def isExternal (a : ArtifactLocation) : Bool :=
  "external/".toList.isPrefixOf a.relativePath.toList

/-- Two path texts with one separator between them, where neither is empty. -/
def joinFragments (a b : String) : String :=
  if a = "" then b
  else if b = "" then a
  else
    let trimmed := (a.toList.reverse.dropWhile (· == '/')).reverse
    String.ofList (trimmed ++ '/' :: b.toList)

/-- The path relative to the execution root. -/
def executionPath (a : ArtifactLocation) : String := joinFragments a.rootFragment a.relativePath

/-- A part of a location must be relative and stay below its root. -/
def validatePart (part : String) : Except ArtifactError Unit :=
  if isAbsolute part then .error (.absolutePath part)
  else if ".." ∈ split isSeparator part then .error (.parentReference part)
  else .ok ()

def validate (a : ArtifactLocation) : Except ArtifactError Unit := do
  if a.relativePath = "" then throw .emptyPath
  validatePart a.rootFragment
  validatePart a.relativePath

end ArtifactLocation

/-- The directories that locations are relative to in one build. -/
structure Roots where
  workspace : WorkspaceRoot
  /-- Where the build runs; generated files are below it. -/
  execution : FilePath
  /-- Where external repositories are kept. -/
  outputBase : FilePath
  deriving DecidableEq, Repr

namespace Roots

/-- Pushes the names of a path text that separators leave. -/
def descend (base : FilePath) (path : String) : FilePath :=
  ((split (· == '/') path).filter (· ≠ "")).foldl FilePath.push base

def resolve (r : Roots) (a : ArtifactLocation) : FilePath :=
  if a.isSource then
    descend (if a.isExternal then r.outputBase else r.workspace.directory) a.relativePath
  else descend (descend r.execution a.rootFragment) a.relativePath

end Roots

/-- The jars of one library: the primary one, the one with all classes and the one with sources. -/
structure LibraryArtifact where
  jar : ArtifactLocation
  runtimeJar : Option ArtifactLocation
  sourceJar : Option ArtifactLocation
  deriving DecidableEq, Repr

namespace LibraryArtifact

def ofJar (jar : ArtifactLocation) : LibraryArtifact := ⟨jar, none, none⟩

/-- The locations that are given, the primary jar first. -/
def locations (l : LibraryArtifact) : List ArtifactLocation :=
  l.jar :: (l.runtimeJar.toList ++ l.sourceJar.toList)

/-- The locations of classes: the primary and the runtime jar. -/
def classJars (l : LibraryArtifact) : List ArtifactLocation := l.jar :: l.runtimeJar.toList

def validate (l : LibraryArtifact) : Except ArtifactError Unit :=
  l.locations.forM ArtifactLocation.validate

end LibraryArtifact

end WorkspaceSync
