import WorkspaceSync.Artifact
import WorkspaceSync.DependencyManifest

/-!
# Package manifests

A package manifest tells the package of each source of a target. It is a message of source files
(field 1), each of which has a package (2) and a location (3), and a location has a root (1), a
relative path (2) and a flag for sources (3).
-/

namespace WorkspaceSync

open Wire (WireError)

structure SourcePackage where
  /-- The package in dotted form. -/
  package : String
  location : ArtifactLocation
  deriving DecidableEq, Repr

namespace ArtifactLocation

def wireStep (a : ArtifactLocation) (r : Wire.Record) : Except WireError ArtifactLocation :=
  match r.value with
  | .bytes b =>
    if r.field = 1 then (r.text b).map fun s => { a with rootFragment := s }
    else if r.field = 2 then (r.text b).map fun s => { a with relativePath := s }
    else .ok a
  | .varint n => .ok (if r.field = 3 then { a with isSource := n != 0 } else a)
  | .fixed => .ok a

def ofWire (b : Bytes) : Except WireError ArtifactLocation :=
  Wire.foldMessage wireStep (generated "" "") b

end ArtifactLocation

namespace SourcePackage

/-- A source file without fields. -/
def start : SourcePackage := ⟨"", .source ""⟩

def step (s : SourcePackage) (r : Wire.Record) : Except WireError SourcePackage :=
  match r.value with
  | .bytes b =>
    if r.field = 2 then (r.text b).map fun t => { s with package := t }
    else if r.field = 3 then (ArtifactLocation.ofWire b).map fun a => { s with location := a }
    else .ok s
  | _ => .ok s

def decode (b : Bytes) : Except WireError SourcePackage := Wire.foldMessage step start b

end SourcePackage

namespace PackageManifest

def step (sources : List SourcePackage) (r : Wire.Record) :
    Except WireError (List SourcePackage) :=
  match r.value with
  | .bytes b =>
    if r.field = 1 then (SourcePackage.decode b).map fun s => sources ++ [s] else .ok sources
  | _ => .ok sources

/-- The source files of a manifest in file order. -/
def decode (b : Bytes) : Except WireError (List SourcePackage) := Wire.foldMessage step [] b

def load (v : FileView) (p : FilePath) : Except ManifestProblem (List SourcePackage) :=
  match v.read p with
  | .error e => .error (.unreadable e)
  | .ok b => (decode b).mapError .malformed

/-- What is wrong with the manifest at a path. -/
def problemMessage (p : FilePath) : ManifestProblem → String
  | .unreadable e => s!"could not read package manifest {p}: {e.message}"
  | .malformed e => s!"malformed package manifest {p}: {e.message}"

end PackageManifest

end WorkspaceSync
