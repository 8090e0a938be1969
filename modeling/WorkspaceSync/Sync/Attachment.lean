import WorkspaceSync.Exclusions
import WorkspaceSync.LibraryDiff
import WorkspaceSync.ProjectModel

/-!
# Attached libraries

Of the libraries that an import found and augmenters contribute, those that nothing excludes are
attached to the project. An imported library is never replaced by a contributed one.
-/

namespace WorkspaceSync

/-- Contributes libraries to a project and keeps others out. -/
structure Augmenter where
  contribute : ImportResult → List Library
  /-- Patterns of libraries to leave out. -/
  globs : List String
  /-- Tells which libraries to leave out. -/
  drops : Library → Bool

namespace Augmenter

/-- Changes nothing. -/
def inert : Augmenter := ⟨fun _ => [], [], fun _ => false⟩

/-- The patterns of augmenters in addition to given ones. -/
def exclusions (augmenters : List Augmenter) (base : Exclusions) :
    Except InvalidPattern Exclusions :=
  augmenters.foldlM (fun x a => (Exclusions.compile a.globs).map x.extend) base

/-- The libraries of an import with the contributed ones; of one key the first stays. -/
def contributed (augmenters : List Augmenter) (r : ImportResult) : LibraryTable :=
  (augmenters.flatMap fun a => a.contribute r).foldl (fun t l => t.insertIfNew l.key l)
    r.libraries

end Augmenter

namespace Exclusions

/-- Whether a pattern matches one of the class jars of a library. -/
def excludes (x : Exclusions) (l : Library) : Bool :=
  l.artifact.classJars.any fun a => x.isMatch a.relativePath

end Exclusions

namespace LibraryTable

/-- The libraries to attach. -/
def attached (augmenters : List Augmenter) (x : Exclusions) (r : ImportResult) : LibraryTable :=
  (Augmenter.contributed augmenters r).filter fun _ l =>
    !x.excludes l && !augmenters.any (·.drops l)

end LibraryTable

end WorkspaceSync
