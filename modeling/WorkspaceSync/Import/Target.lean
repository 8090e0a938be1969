import WorkspaceSync.Config.Basic
import WorkspaceSync.RuleMap
import WorkspaceSync.WorkingSet

/-!
# Java targets

Every valid Java target is content, because someone edits one of its sources, or a library. Its
sources are edited where they are in the working set or below an import directory.
-/

namespace WorkspaceSync

/-- The path in the workspace of a source of the main repository. -/
def ArtifactLocation.workspacePath? (a : ArtifactLocation) : Option WorkspacePath :=
  if a.isSource && !a.isExternal then (WorkspacePath.parse a.relativePath).toOption else none

structure JavaTarget where
  rule : Rule
  java : JavaInfo
  isContent : Bool

namespace JavaTarget

def label (t : JavaTarget) : Label := t.rule.label

/-- Whether one of the sources is edited. -/
def isEdited (workingSet : SortedSet WorkspacePath) (project : ProjectSection) (r : Rule) : Bool :=
  (r.sources.filterMap (·.workspacePath?)).any fun p =>
    SortedMap.contains workingSet p || project.includes p

/-- The target of a Java rule that is valid. -/
def ofRule? (workingSet : SortedSet WorkspacePath) (project : ProjectSection) (r : Rule) :
    Option JavaTarget :=
  if r.isValid then r.java?.map (⟨r, ·, isEdited workingSet project r⟩) else none

/-- The Java sources in the workspace, with their paths there. -/
def javaSources (t : JavaTarget) : List (ArtifactLocation × WorkspacePath) :=
  t.rule.sources.filterMap fun a =>
    (a.workspacePath?.filter fun p => ".java".toList.isSuffixOf p.fileName.toList).map (a, ·)

end JavaTarget

end WorkspaceSync
