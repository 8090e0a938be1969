import WorkspaceSync.LanguageLevel
import WorkspaceSync.Library

/-!
# The project model

What an editor needs to know of a Java project: the directories that are edited, with the package
of each source folder, and the libraries around them.
-/

namespace WorkspaceSync

structure SourceFolder where
  directory : FilePath
  /-- The package of the files directly in the directory; empty for a package root. -/
  packagePrefix : String
  /-- Whether only tests have files here. -/
  isTest : Bool
  deriving DecidableEq

/-- A directory that is edited. -/
structure ContentEntry where
  root : FilePath
  folders : List SourceFolder
  excludes : List FilePath
  deriving DecidableEq

structure ImportResult where
  contentEntries : List ContentEntry
  libraries : LibraryTable
  /-- The jars that the build makes for Java targets. -/
  outputJars : SortedSet FilePath
  /-- The Java sources of content targets. -/
  javaSources : SortedSet FilePath
  /-- The highest level that a target asks for. -/
  sourceVersion : Option LanguageLevel
  deriving DecidableEq

/-- The model of one sync, which the next one compares with. -/
structure JavaModel where
  imported : ImportResult
  /-- The patterns of libraries that were left out. -/
  excludedLibraries : List String
  /-- Whether every library had its source jar attached. -/
  attachSourceJars : Bool
  attachedLibraries : LibraryTable
  deriving DecidableEq

end WorkspaceSync
