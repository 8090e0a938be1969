import WorkspaceSync.DependencyManifest
import WorkspaceSync.Diagnostic.Basic
import WorkspaceSync.ManifestIndex.Basic
import WorkspaceSync.RuleMap
import WorkspaceSync.Snapshot.Diff

/-!
# Loading dependency manifests

Brings the index up to date with a rule map and the files. Only manifests whose signature changed
are parsed. One that cannot be checked, read or decoded keeps the signature it had and the list
that was loaded from it, and so is tried again by the next load. Without the files, because the
prefetch failed or the load was cancelled, there is no new index.
-/

namespace WorkspaceSync

namespace DiagnosticCode

def manifestUnreadable : DiagnosticCode := ⟨.warning, 101⟩

def manifestMalformed : DiagnosticCode := ⟨.warning, 102⟩

def signatureUnavailable : DiagnosticCode := ⟨.warning, 103⟩

def prefetchFailed : DiagnosticCode := ⟨.error, 101⟩

def manifestsLoaded : DiagnosticCode := ⟨.info, 101⟩

end DiagnosticCode

inductive PrefetchOutcome where
  | done
  | failed (reason : String)
  | cancelled
  deriving DecidableEq, Repr

/-- Makes files available before they are read. It is told whether the load has been cancelled and
which files are wanted, and returns what the file system is like afterwards. -/
abbrev Prefetcher := (cancelled : Bool) → List FilePath → FileView → PrefetchOutcome × FileView

/-- Files on a local disk are there already. -/
def Prefetcher.onDisk : Prefetcher := fun cancelled _ v =>
  (if cancelled then .cancelled else .done, v)

/-- What a load did. -/
structure LoadReport where
  /-- The new index, or none if the previous one stays in force. -/
  outcome : Except Cancelled (Option ManifestIndex)
  /-- What the prefetcher was asked for, if it was asked. -/
  requested : Option (List FilePath)
  parsed : List FilePath
  diagnostics : List Diagnostic
  /-- The files as they were when the load ended. -/
  files : FileView

namespace ManifestIndex

/-- The manifests of Java targets, each with the first target that declares it. -/
def ownersOf (roots : Roots) (rules : RuleMap) : SortedMap FilePath Label :=
  SortedMap.ofListFirst <| rules.rules.filterMap fun rule =>
    (rule.java?.bind (·.dependencyManifest)).map fun a => (roots.resolve a, rule.label)

def keptNote : String := "previously loaded dependencies are kept"

def uncheckedDiagnostic (p : FilePath) : Diagnostic :=
  ((Diagnostic.warning .signatureUnavailable
    "could not check dependency manifest for changes").forFile p).withNote keptNote

def prefetchDiagnostic (reason : String) : Diagnostic :=
  ((Diagnostic.error .prefetchFailed "failed to fetch dependency manifests").withNote
    reason).withNote "dependency data from the previous sync is kept"

def problemCode : ManifestProblem → DiagnosticCode
  | .unreadable _ => .manifestUnreadable
  | .malformed _ => .manifestMalformed

def problemDiagnostic (p : FilePath) (label : Label) (e : ManifestProblem) : Diagnostic :=
  ((Diagnostic.warning (problemCode e) (DependencyManifest.problemMessage p e)).forTarget
    label).withNote keptNote

def loadedDiagnostic (files bytes : Nat) : Diagnostic :=
  .info .manifestsLoaded s!"Loaded {files} jdeps files, total size {bytes / 1024}kB"

/-- A manifest that was parsed for its owner. -/
structure Parsed where
  file : FilePath
  label : Label
  result : Except ManifestProblem DependencyManifest

/-- Parses the files that have an owner, except where the flag is set. -/
def parseAll (v : FileView) (cancelled : Cancellation) (owners : SortedMap FilePath Label)
    (files : List FilePath) : List Parsed :=
  (files.filter fun p => !cancelled (.parse p)).filterMap fun p =>
    (owners.get? p).map fun label => ⟨p, label, DependencyManifest.load v p⟩

/-- Takes in a parsed manifest, or takes back the signature of one that failed. -/
def merge (previous : Snapshot) (i : ManifestIndex) (p : Parsed) : ManifestIndex :=
  match p.result with
  | .ok m => i.record p.file p.label m.paths
  | .error _ => { i with snapshot := i.snapshot.rollBack p.file previous }

def Parsed.diagnostic? (p : Parsed) : Option Diagnostic :=
  match p.result with
  | .ok _ => none
  | .error e => some (problemDiagnostic p.file p.label e)

/-- The previous index with the new snapshot: without the files that are gone, and with the present
owners. -/
def rebase (i : ManifestIndex) (d : SnapshotDiff) (owners : SortedMap FilePath Label) :
    ManifestIndex :=
  (d.removed.foldl evict { i with snapshot := d.snapshot }).relabel owners

/-- Brings the index up to date. -/
def load (i : ManifestIndex) (mode : SignatureMode) (roots : Roots) (rules : RuleMap)
    (prefetch : Prefetcher) (v : FileView) (cancelled : Cancellation) : LoadReport :=
  let owners := ownersOf roots rules
  match SnapshotDiff.update mode v cancelled i.snapshot owners.keys with
  | .error c => ⟨.error c, none, [], [], v⟩
  | .ok d =>
    let unchecked := d.unreadable.map uncheckedDiagnostic
    match prefetch (cancelled .prefetch) d.changed v with
    | (.cancelled, v) => ⟨.error .cancelled, some d.changed, [], unchecked, v⟩
    | (.failed reason, v) =>
      ⟨.ok none, some d.changed, [], unchecked ++ [prefetchDiagnostic reason], v⟩
    | (.done, v) =>
      let parsed := parseAll v cancelled owners d.changed
      let files := parsed.map (·.file)
      if cancelled (.parsed files) then ⟨.error .cancelled, some d.changed, files, unchecked, v⟩
      else
        { outcome := .ok (some (parsed.foldl (merge i.snapshot) (i.rebase d owners)))
          requested := some d.changed
          parsed := files
          diagnostics :=
            unchecked ++ parsed.filterMap Parsed.diagnostic? ++
              [loadedDiagnostic d.changed.length (v.totalSize files)]
          files := v }

end ManifestIndex

end WorkspaceSync
