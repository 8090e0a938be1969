import WorkspaceSync.Import.ContentEntries
import WorkspaceSync.Import.Libraries
import WorkspaceSync.PackageManifest

/-!
# Importing a workspace

One pass over the rules tells content targets from libraries. Content targets contribute their
sources and the level they ask for, all other Java targets their jars. A target that declares a bad
location is left out; nothing about a single target makes an import fail.
-/

namespace WorkspaceSync

namespace DiagnosticCode

def ruleSkipped : DiagnosticCode := ⟨.warning, 203⟩

def packageManifestUnreadable : DiagnosticCode := ⟨.warning, 204⟩

end DiagnosticCode

abbrev PackageReader := FilePath → Except ManifestProblem (List SourcePackage)

/-- What an import starts from. -/
structure ImportRequest where
  rules : RuleMap
  roots : Roots
  dependencies : DependencyTable
  /-- The Java sources that are edited. -/
  workingSet : SortedSet WorkspacePath
  project : ProjectSection
  pruneUnused : Bool

structure ImportReport where
  result : ImportResult
  /-- The package manifests that were read. -/
  manifests : List FilePath
  diagnostics : List Diagnostic

/-- The highest of some levels. -/
def LanguageLevel.highest? (levels : List LanguageLevel) : Option LanguageLevel :=
  levels.foldl (fun best l => some ((best.map (·.max l)).getD l)) none

namespace ImportRequest

def targets (q : ImportRequest) : List JavaTarget :=
  q.rules.rules.filterMap (JavaTarget.ofRule? q.workingSet q.project)

def content (q : ImportRequest) : List JavaTarget := q.targets.filter (·.isContent)

/-- Warnings for Java rules that are not valid. -/
def skipped (q : ImportRequest) : List Diagnostic :=
  q.rules.rules.filterMap fun r =>
    match r.java?, r.validate with
    | some _, .error e =>
      some ((Diagnostic.warning .ruleSkipped s!"skipping target: {e.message}").forTarget r.label)
    | _, _ => none

def outputJars (q : ImportRequest) : SortedSet FilePath :=
  .ofList <| q.targets.flatMap fun t =>
    t.java.allJars.flatMap fun a => a.classJars.map q.roots.resolve

/-- The package manifests of content targets. -/
def packageManifests (q : ImportRequest) : List (Label × FilePath) :=
  q.content.filterMap fun t => t.java.packageManifest.map fun a => (t.label, q.roots.resolve a)

def unreadableDiagnostic (label : Label) (p : FilePath) (e : ManifestProblem) : Diagnostic :=
  ((Diagnostic.warning .packageManifestUnreadable
    (PackageManifest.problemMessage p e)).forTarget label).withNote
    "source roots for this target are derived from directories"

/-- The packages of sources by relative path, the first one that a manifest tells, and warnings for
manifests that tell nothing. -/
def packages (q : ImportRequest) (read : PackageReader) :
    SortedMap String String × List Diagnostic :=
  let results := q.packageManifests.map fun (label, p) => (label, p, read p)
  (.ofListFirst <| results.flatMap fun (_, _, r) =>
      match r with
      | .ok sources => sources.map fun s => (s.location.relativePath, s.package)
      | .error _ => [],
    results.filterMap fun (label, p, r) =>
      match r with
      | .ok _ => none
      | .error e => some (unreadableDiagnostic label p e))

/-- The Java sources of content targets with their packages. -/
def sourceFiles (q : ImportRequest) (packages : SortedMap String String) : List SourceFile :=
  q.content.flatMap fun t =>
    t.javaSources.map fun (a, p) => ⟨p, packages.get? a.relativePath, t.rule.isTest⟩

def javaSources (q : ImportRequest) : SortedSet FilePath :=
  .ofList <| q.content.flatMap fun t => t.javaSources.map fun (a, _) => q.roots.resolve a

/-- The highest level of content targets, else of toolchains. -/
def sourceVersion (q : ImportRequest) : Option LanguageLevel :=
  (LanguageLevel.highest? (q.content.filterMap (·.java.sourceVersion))).or
    (LanguageLevel.highest? (q.rules.rules.filterMap fun r => r.toolchain?.map (·.sourceVersion)))

def candidates (q : ImportRequest) : List LibraryCandidate :=
  q.targets.flatMap LibraryCandidate.ofTarget

/-- The candidates that remain after pruning, if it is asked for. -/
def keptCandidates (q : ImportRequest) : List LibraryCandidate :=
  if q.pruneUnused then (LibraryUse.ofContent q.dependencies q.content).prune q.candidates
  else q.candidates

def run (q : ImportRequest) (read : PackageReader) : ImportReport :=
  let (packages, unreadable) := q.packages read
  let (libraries, conflicts) := LibraryTable.ofCandidates q.keptCandidates
  { result := {
      contentEntries :=
        ContentEntry.ofFiles q.roots.workspace q.project (q.sourceFiles packages)
      libraries
      outputJars := q.outputJars
      javaSources := q.javaSources
      sourceVersion := q.sourceVersion }
    manifests := q.packageManifests.map (·.2)
    diagnostics := q.skipped ++ unreadable ++ conflicts }

end ImportRequest

end WorkspaceSync
