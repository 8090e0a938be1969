import WorkspaceSync.Artifact
import WorkspaceSync.SortedMap

/-!
# Libraries

A library is identified by the path of its primary jar relative to the execution root, written
`path`, or `path#classifier` where several libraries share a jar.
-/

namespace WorkspaceSync

open Text

structure LibraryKey where
  text : String
  deriving DecidableEq, Repr

namespace LibraryKey

instance : Ord LibraryKey := ⟨compareOn text⟩

instance : Std.TransOrd LibraryKey := inferInstanceAs (Std.TransCmp (compareOn text))

instance : ToString LibraryKey := ⟨text⟩

def ofJar (jar : ArtifactLocation) : LibraryKey := ⟨jar.executionPath⟩

def withClassifier (jar : ArtifactLocation) (classifier : String) : LibraryKey :=
  ⟨jar.executionPath ++ "#" ++ classifier⟩

/-- The jar's path: what stands before the first `#`. -/
def location (k : LibraryKey) : String :=
  match cut '#' k.text.toList with
  | some (path, _) => String.ofList path
  | none => k.text

def classifier? (k : LibraryKey) : Option String :=
  (cut '#' k.text.toList).map fun (_, c) => String.ofList c

end LibraryKey

structure Library where
  key : LibraryKey
  artifact : LibraryArtifact
  deriving DecidableEq, Repr

namespace Library

/-- The library that its primary jar identifies. -/
def ofArtifact (a : LibraryArtifact) : Library := ⟨.ofJar a.jar, a⟩

end Library

/-- Libraries by key. -/
abbrev LibraryTable := SortedMap LibraryKey Library

end WorkspaceSync
