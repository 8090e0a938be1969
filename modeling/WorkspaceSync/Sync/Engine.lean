import WorkspaceSync.Import.Basic
import WorkspaceSync.ManifestIndex.Load
import WorkspaceSync.Sync.Attachment

/-!
# Syncing

A sync brings the index of dependency manifests up to date, imports the workspace, chooses the
libraries to attach and compares them with those of the previous sync. It depends on its inputs and
the previous state alone and yields a new state or none: a sync that is cancelled yields none. The
clock is read only to report how long the phases took.
-/

namespace WorkspaceSync

namespace DiagnosticCode

def phaseTiming : DiagnosticCode := ⟨.info, 202⟩

def deployJar : DiagnosticCode := ⟨.performance, 301⟩

def sourceJarsAttached : DiagnosticCode := ⟨.performance, 302⟩

def librariesRefreshed : DiagnosticCode := ⟨.info, 401⟩

end DiagnosticCode

/-- What one sync leaves to the next. -/
structure SyncState where
  manifests : Option ManifestIndex
  java : Option JavaModel
  deriving DecidableEq

def SyncState.empty : SyncState := ⟨none, none⟩

structure SyncOutcome where
  state : SyncState
  /-- How the libraries differ from those of the previous sync. -/
  libraryDiff : LibraryDiff
  languageLevel : LanguageLevel
  /-- Whether the manifests were loaded anew and not taken over from the previous sync. -/
  reloaded : Bool

inductive SyncError where
  | cancelled
  | invalidPattern (e : InvalidPattern)
  deriving DecidableEq, Repr

namespace SyncError

def ofCancelled : Cancelled → SyncError
  | .cancelled => cancelled

def message : SyncError → String
  | cancelled => Cancelled.cancelled.message
  | invalidPattern e => e.message

end SyncError

structure SyncRequest where
  rules : RuleMap
  roots : Roots
  /-- The files that are changed, where version control tells. -/
  workingSet : Option WorkingSet

/-- What a sync did. -/
structure SyncReport where
  outcome : Except SyncError SyncOutcome
  /-- What the prefetcher was asked for, if it was asked. -/
  requested : Option (List FilePath)
  /-- The dependency manifests that were parsed. -/
  parsed : List FilePath
  diagnostics : List Diagnostic
  /-- The files as they were after the manifests had been loaded. -/
  files : FileView

/-- Runs syncs with one configuration. -/
structure Engine where
  config : SyncConfig
  exclusions : Exclusions
  augmenters : List Augmenter
  prefetch : Prefetcher
  readPackages : FileView → PackageReader

namespace Engine

/-- An engine for files on a local disk, if all patterns compile. -/
def ofConfig (config : SyncConfig) : Except InvalidPattern Engine :=
  (Exclusions.compile config.java.excludeLibrary).map fun x =>
    ⟨config, x, [], Prefetcher.onDisk, PackageManifest.load⟩

/-- The edited Java sources, as far as the configuration makes use of them. -/
def edited (e : Engine) (q : SyncRequest) : SortedSet WorkspacePath :=
  match q.workingSet with
  | some w => if e.config.sync.useWorkingSet then w.javaFiles else SortedMap.empty
  | none => SortedMap.empty

def load (e : Engine) (q : SyncRequest) (previous : SyncState) (v : FileView)
    (cancelled : Cancellation) : LoadReport :=
  (previous.manifests.getD .empty).load e.config.sync.manifestSignature q.roots q.rules e.prefetch
    v cancelled

def importRequest (e : Engine) (q : SyncRequest) (manifests : Option ManifestIndex) :
    ImportRequest where
  rules := q.rules
  roots := q.roots
  dependencies := (manifests.map (·.dependencies)).getD SortedMap.empty
  workingSet := e.edited q
  project := e.config.project
  pruneUnused := e.config.sync.pruneUnusedLibraries

def importWorkspace (e : Engine) (q : SyncRequest) (manifests : Option ManifestIndex)
    (v : FileView) : ImportReport :=
  (e.importRequest q manifests).run (e.readPackages v)

def timing (phase : String) (milliseconds : Nat) : Diagnostic :=
  .info .phaseTiming s!"{phase} took {milliseconds}ms"

def sourceJarsDiagnostic : Diagnostic :=
  (Diagnostic.warning .sourceJarsAttached "source jars are attached to every library").withHelp
    "attach source jars on demand to speed up indexing"

def refreshedDiagnostic : Diagnostic :=
  .info .librariesRefreshed "source jar setting changed; all libraries are refreshed"

def deployJarEndings : List String := ["deploy.jar", "deploy-ijar.jar", "deploy-hjar.jar"]

def deployJarDiagnostic (jar : String) : Diagnostic :=
  ((Diagnostic.warning .deployJar s!"deploy jar {jar} is attached as a library").withNote
    "the debugger may step into the deploy jar instead of your sources").withHelp
    "depend on the library targets instead, or exclude the jar"

/-- Warnings for the deploy jars among libraries. -/
def deployJars (libraries : LibraryTable) : List Diagnostic :=
  (libraries.values.map fun l => l.artifact.jar.relativePath).filterMap fun jar =>
    if deployJarEndings.any fun ending => ending.toList.isSuffixOf jar.toList then
      some (deployJarDiagnostic jar)
    else none

/-- Whether the attachment of source jars is another one than in the previous sync. -/
def settingChanged (e : Engine) (previous : Option JavaModel) : Bool :=
  match previous with
  | some old => old.attachSourceJars != e.config.java.attachSourceJars
  | none => false

/-- How libraries differ from those of the previous sync; a changed setting replaces them all. -/
def libraryDiff (e : Engine) (previous : Option JavaModel) (attached : LibraryTable) :
    LibraryDiff :=
  let old := (previous.map (·.attachedLibraries)).getD SortedMap.empty
  if e.settingChanged previous then .replaceAll old attached else .between old attached

/-- The level that the configuration gives, else the one that targets ask for. -/
def languageLevel (e : Engine) (imported : ImportResult) : LanguageLevel :=
  (e.config.java.languageLevel.or imported.sourceVersion).getD .baseline

def outcome (e : Engine) (previous : SyncState) (manifests : Option ManifestIndex)
    (reloaded : Bool) (imported : ImportResult) (x : Exclusions) : SyncOutcome :=
  let attached := LibraryTable.attached e.augmenters x imported
  { state := {
      manifests
      java := some {
        imported
        excludedLibraries := x.patterns
        attachSourceJars := e.config.java.attachSourceJars
        attachedLibraries := attached } }
    libraryDiff := e.libraryDiff previous.java attached
    languageLevel := e.languageLevel imported
    reloaded }

/-- What the last phase reports. -/
def remarks (e : Engine) (previous : SyncState) (imported : ImportResult) : List Diagnostic :=
  (if e.config.java.attachSourceJars then [sourceJarsDiagnostic] else []) ++
    (if e.settingChanged previous.java then [refreshedDiagnostic] else []) ++
    deployJars imported.libraries

/-- The last phase: chooses the libraries and compares them. -/
def conclude (e : Engine) (previous : SyncState) (manifests : Option ManifestIndex)
    (reloaded : Bool) (imported : ImportResult) (cancelled : Cancellation) :
    Except SyncError SyncOutcome × List Diagnostic :=
  match Augmenter.exclusions e.augmenters e.exclusions with
  | .error p => (.error (.invalidPattern p), [])
  | .ok x =>
    (if cancelled .attached then .error .cancelled
      else .ok (e.outcome previous manifests reloaded imported x),
      e.remarks previous imported)

/-- Runs one sync, reading a clock between the phases. -/
def syncTimed {m : Type → Type} [Monad m] (clock : m Nat) (e : Engine) (q : SyncRequest)
    (previous : SyncState) (v : FileView) (cancelled : Cancellation) : m SyncReport := do
  if cancelled .start then return ⟨.error .cancelled, none, [], [], v⟩
  let started ← clock
  let loaded := e.load q previous v cancelled
  let report (outcome : Except SyncError SyncOutcome) (further : List Diagnostic) : SyncReport :=
    ⟨outcome, loaded.requested, loaded.parsed, loaded.diagnostics ++ further, loaded.files⟩
  match loaded.outcome with
  | .error c => return report (.error (.ofCancelled c)) []
  | .ok index =>
    let afterLoad ← clock
    let loadTiming := timing "LoadJdepsFiles" (afterLoad - started)
    if cancelled .loaded then return report (.error .cancelled) [loadTiming]
    let manifests := index.or previous.manifests
    let imported := e.importWorkspace q manifests loaded.files
    let afterImport ← clock
    let importTiming := timing "JavaWorkspaceImporter" (afterImport - afterLoad)
    let further := loadTiming :: imported.diagnostics ++ [importTiming]
    if cancelled (.imported imported.manifests) then return report (.error .cancelled) further
    let (outcome, remarks) :=
      e.conclude previous manifests index.isSome imported.result cancelled
    return report outcome (further ++ remarks)

/-- Runs one sync without a clock: every phase takes no time. -/
def sync (e : Engine) (q : SyncRequest) (previous : SyncState) (v : FileView)
    (cancelled : Cancellation) : SyncReport :=
  Id.run (e.syncTimed (pure 0) q previous v cancelled)

end Engine

end WorkspaceSync
