import WorkspaceSync.Import.Target
import WorkspaceSync.ManifestIndex.Basic

/-!
# Libraries of an import

Library targets offer their jars as libraries, and every target the jars that annotation processing
makes, since an editor cannot make them. Pruning drops what no content target uses; of candidates
with one key the first is kept.
-/

namespace WorkspaceSync

namespace DiagnosticCode

def libraryConflict : DiagnosticCode := ⟨.info, 201⟩

end DiagnosticCode

structure LibraryCandidate where
  label : Label
  artifact : LibraryArtifact
  /-- Whether it may be dropped where nothing uses it. -/
  prunable : Bool

namespace LibraryCandidate

def library (c : LibraryCandidate) : Library := .ofArtifact c.artifact

/-- What a target offers. -/
def ofTarget (t : JavaTarget) : List LibraryCandidate :=
  (if t.isContent then [] else t.java.jars.map (⟨t.label, ·, true⟩)) ++
    t.java.generatedJars.map (⟨t.label, ·, !t.isContent⟩)

/-- The paths by which a manifest may name the library; that of the source jar is none of them. -/
def usePaths (c : LibraryCandidate) : List String :=
  (c.artifact.locations.filter fun a => some a ≠ c.artifact.sourceJar).map (·.executionPath)

end LibraryCandidate

/-- What content targets use. -/
structure LibraryUse where
  /-- The jars in their manifests. -/
  paths : SortedSet String
  /-- The direct dependencies of those without a manifest. -/
  direct : SortedSet Label
  /-- Whether there is any manifest at all. -/
  known : Bool

namespace LibraryUse

def ofContent (dependencies : DependencyTable) (content : List JavaTarget) : LibraryUse where
  paths := .ofList (content.flatMap fun t => (dependencies.get? t.label).getD [])
  direct := .ofList <| content.flatMap fun t =>
    if dependencies.contains t.label then [] else t.rule.dependencies
  known := content.any fun t => dependencies.contains t.label

def keeps (u : LibraryUse) (c : LibraryCandidate) : Bool :=
  !c.prunable || SortedMap.contains u.direct c.label ||
    c.usePaths.any fun p => SortedMap.contains u.paths p

/-- Drops what is not used; where nothing is known of use, everything stays. -/
def prune (u : LibraryUse) (candidates : List LibraryCandidate) : List LibraryCandidate :=
  if u.known then candidates.filter u.keeps else candidates

end LibraryUse

namespace LibraryTable

def conflictDiagnostic (c : LibraryCandidate) (first : Label) : Diagnostic :=
  ((Diagnostic.info .libraryConflict
    s!"library {c.library.key} is produced with different jars").forTarget c.label).withNote
    s!"keeping the library from {first.text}"

/-- The candidates that are kept, by key. -/
abbrev Kept := SortedMap LibraryKey LibraryCandidate

/-- Takes in a candidate if its key is new. -/
def addCandidate (acc : Kept × List Diagnostic) (c : LibraryCandidate) : Kept × List Diagnostic :=
  let (kept, diagnostics) := acc
  match kept.get? c.library.key with
  | none => (kept.insert c.library.key c, diagnostics)
  | some first =>
    if first.artifact = c.artifact then (kept, diagnostics)
    else (kept, diagnostics ++ [conflictDiagnostic c first.label])

/-- The libraries of candidates. -/
def ofCandidates (candidates : List LibraryCandidate) : LibraryTable × List Diagnostic :=
  let (kept, diagnostics) := candidates.foldl addCandidate (SortedMap.empty, [])
  (kept.map fun _ c => c.library, diagnostics)

end LibraryTable

end WorkspaceSync
