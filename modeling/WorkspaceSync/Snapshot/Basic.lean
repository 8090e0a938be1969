import WorkspaceSync.Config.Basic
import WorkspaceSync.ContentHash
import WorkspaceSync.FileSystem.View
import WorkspaceSync.SortedMap

/-!
# Snapshots

A signature stands for the content of a file: its hash, or its size and time of modification. A
snapshot is the signatures of the files of one sync.
-/

namespace WorkspaceSync

inductive FileSignature where
  | metadata (size : UInt64) (modified : BitVec 128)
  | content (hash : ContentHash)
  deriving DecidableEq

namespace FileSignature

/-- The time of modification in nanoseconds; times before 1970 count as the start of that year. -/
def ofTime (modified : Int) : BitVec 128 := BitVec.ofNat 128 modified.toNat

/-- Computes the signature of a file. -/
def compute (mode : SignatureMode) (v : FileView) (p : FilePath) :
    Except IoError FileSignature :=
  match mode with
  | .metadata =>
    match v.status p with
    | .error e => .error e
    | .ok .directory => .error .notRegularFile
    | .ok (.file size modified) => .ok (metadata (UInt64.ofNat size) (ofTime modified))
  | .content => (v.read p).map fun b => content (ContentHash.ofBytes b)

end FileSignature

abbrev Snapshot := SortedMap FilePath FileSignature

namespace Snapshot

/-- Gives a path the signature that it has in an earlier snapshot, or none; its next comparison with
the file then comes out as it did before. -/
def rollBack (s : Snapshot) (p : FilePath) (previous : Snapshot) : Snapshot :=
  match previous.get? p with
  | some signature => s.insert p signature
  | none => s.erase p

end Snapshot

end WorkspaceSync
