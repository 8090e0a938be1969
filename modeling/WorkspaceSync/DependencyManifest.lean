import WorkspaceSync.FileSystem.View
import WorkspaceSync.Wire.Record

/-!
# Dependency manifests

A compilation leaves a manifest of the jars on its class path and of what it used each for. A
manifest is a message with the fields

* 1: a dependency, itself a message of a path (1) and a kind (2),
* 2: the label that the compiler was told,
* 3: whether the compilation succeeded.

Other fields, and these with other types of values, have no effect.
-/

namespace WorkspaceSync

open Wire (WireError)

inductive DependencyKind where
  /-- Named in a source. -/
  | explicit
  /-- Needed by the compiler all the same. -/
  | implicit
  /-- On the class path but never read. -/
  | unused
  /-- Read through an incomplete entry of the class path. -/
  | incomplete
  deriving DecidableEq, Repr

structure Dependency where
  /-- The jar, relative to the execution root. -/
  path : String
  kind : DependencyKind
  deriving DecidableEq, Repr

structure DependencyManifest where
  label : Option String
  succeeded : Bool
  dependencies : List Dependency
  deriving DecidableEq, Repr

/-- Numbers that stand for no kind count as explicit. -/
def DependencyKind.ofNumber (n : UInt64) : DependencyKind :=
  if n = 1 then implicit
  else if n = 2 then unused
  else if n = 3 then incomplete
  else explicit

namespace Dependency

def start : Dependency := ⟨"", .explicit⟩

def step (d : Dependency) (r : Wire.Record) : Except WireError Dependency :=
  match r.value with
  | .bytes b => if r.field = 1 then (r.text b).map fun s => { d with path := s } else .ok d
  | .varint n => .ok (if r.field = 2 then { d with kind := .ofNumber n } else d)
  | .fixed => .ok d

def decode (b : Bytes) : Except WireError Dependency := Wire.foldMessage step start b

end Dependency

/-- Why there is no manifest. -/
inductive ManifestProblem where
  | unreadable (e : IoError)
  | malformed (e : WireError)
  deriving DecidableEq, Repr

namespace DependencyManifest

def start : DependencyManifest := ⟨none, false, []⟩

def step (m : DependencyManifest) (r : Wire.Record) : Except WireError DependencyManifest :=
  match r.value with
  | .bytes b =>
    if r.field = 1 then
      (Dependency.decode b).map fun d => { m with dependencies := m.dependencies ++ [d] }
    else if r.field = 2 then (r.text b).map fun s => { m with label := some s }
    else .ok m
  | .varint n => .ok (if r.field = 3 then { m with succeeded := n != 0 } else m)
  | .fixed => .ok m

def decode (b : Bytes) : Except WireError DependencyManifest := Wire.foldMessage step start b

/-- The paths of the dependencies in file order. -/
def paths (m : DependencyManifest) : List String := m.dependencies.map (·.path)

/-- Reads and decodes a manifest. -/
def load (v : FileView) (p : FilePath) : Except ManifestProblem DependencyManifest :=
  match v.read p with
  | .error e => .error (.unreadable e)
  | .ok b => (decode b).mapError .malformed

/-- What is wrong with the manifest at a path. -/
def problemMessage (p : FilePath) : ManifestProblem → String
  | .unreadable e => s!"could not read {p}: {e.message}"
  | .malformed e => s!"malformed dependency manifest {p}: {e.message}"

end DependencyManifest

end WorkspaceSync
