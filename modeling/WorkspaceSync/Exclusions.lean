import WorkspaceSync.Glob

/-!
# Library exclusions

Compiled patterns for the paths of jars relative to the execution root. A path is excluded when any
pattern matches it.
-/

namespace WorkspaceSync

/-- A pattern that does not compile, and why. -/
structure InvalidPattern where
  pattern : String
  reason : GlobError
  deriving DecidableEq, Repr

def InvalidPattern.message (e : InvalidPattern) : String :=
  s!"invalid exclude_library pattern '{e.pattern}': {e.reason.message}"

structure Exclusions where
  globs : List Glob
  deriving DecidableEq, Repr

namespace Exclusions

def empty : Exclusions := ⟨[]⟩

def compileOne (pattern : String) : Except InvalidPattern Glob :=
  (Glob.compile pattern).mapError (⟨pattern, ·⟩)

/-- Compiles patterns in order; the first that does not compile is reported. -/
def compile (patterns : List String) : Except InvalidPattern Exclusions :=
  (patterns.mapM compileOne).map (⟨·⟩)

def extend (a b : Exclusions) : Exclusions := ⟨a.globs ++ b.globs⟩

def isMatch (e : Exclusions) (path : String) : Bool := e.globs.any (·.isMatch path)

/-- The patterns as written. -/
def patterns (e : Exclusions) : List String := e.globs.map (·.source)

def isEmpty (e : Exclusions) : Bool := e.globs.isEmpty

@[simp] theorem isMatch_extend (a b : Exclusions) (path : String) :
    (a.extend b).isMatch path = (a.isMatch path || b.isMatch path) := by
  simp [extend, isMatch]

end Exclusions

end WorkspaceSync
