import WorkspaceSync.Artifact
import WorkspaceSync.Label
import WorkspaceSync.LanguageLevel

/-!
# Rules

What a build reports about one target: its label and kind, its sources, its direct dependencies, and
for Java targets and toolchains a payload. Kinds are an open set; what a rule means is decided by its
payload.
-/

namespace WorkspaceSync

/-- What a Java compilation reads and makes. -/
structure JavaInfo where
  jars : List LibraryArtifact
  /-- Jars that annotation processing makes. -/
  generatedJars : List LibraryArtifact
  /-- Tells the package of each source. -/
  packageManifest : Option ArtifactLocation
  /-- Tells which jars the compilation needed. -/
  dependencyManifest : Option ArtifactLocation
  sourceVersion : Option LanguageLevel
  deriving DecidableEq

/-- The default levels of a toolchain. -/
structure ToolchainInfo where
  sourceVersion : LanguageLevel
  targetVersion : Option LanguageLevel
  deriving DecidableEq

inductive Payload where
  | java (info : JavaInfo)
  | javaToolchain (info : ToolchainInfo)
  | unrecognized
  deriving DecidableEq

structure Rule where
  label : Label
  kind : String
  sources : List ArtifactLocation
  dependencies : List Label
  payload : Option Payload
  deriving DecidableEq

namespace JavaInfo

def empty : JavaInfo := ⟨[], [], none, none, none⟩

/-- All jars, those of the compilation first. -/
def allJars (j : JavaInfo) : List LibraryArtifact := j.jars ++ j.generatedJars

def manifests (j : JavaInfo) : List ArtifactLocation :=
  j.packageManifest.toList ++ j.dependencyManifest.toList

end JavaInfo

namespace Rule

/-- Kinds of tests end in `_test`. -/
def isTest (r : Rule) : Bool := "_test".toList.isSuffixOf r.kind.toList

def java? (r : Rule) : Option JavaInfo :=
  match r.payload with
  | some (.java j) => some j
  | _ => none

def toolchain? (r : Rule) : Option ToolchainInfo :=
  match r.payload with
  | some (.javaToolchain t) => some t
  | _ => none

/-- Checks the locations that the rule declares. -/
def validate (r : Rule) : Except ArtifactError Unit := do
  r.sources.forM ArtifactLocation.validate
  match r.java? with
  | none => pure ()
  | some j =>
    j.allJars.forM LibraryArtifact.validate
    j.manifests.forM ArtifactLocation.validate

def isValid (r : Rule) : Bool :=
  match r.validate with
  | .ok _ => true
  | .error _ => false

end Rule

end WorkspaceSync
