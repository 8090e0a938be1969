import WorkspaceSync.Cancellation
import WorkspaceSync.Snapshot.Basic

/-!
# Differences between snapshots

Compares the present signatures of paths with those of an earlier snapshot. A path that is not
there any more counts as removed; one whose signature cannot be computed for another reason keeps
the signature it had.
-/

namespace WorkspaceSync

/-- What an attempt to compute a signature found. -/
inductive SignatureReading where
  | signed (s : FileSignature)
  | missing
  | unreadable
  deriving DecidableEq

namespace SignatureReading

def ofResult : Except IoError FileSignature → SignatureReading
  | .ok s => signed s
  | .error .notFound => missing
  | .error _ => unreadable

/-- The signature to go on with, given the one of the earlier snapshot. -/
def next? (old : Option FileSignature) : SignatureReading → Option FileSignature
  | signed s => some s
  | missing => none
  | unreadable => old

end SignatureReading

/-- The new snapshot, and how each path came into it. All lists are in path order. -/
structure SnapshotDiff where
  snapshot : Snapshot
  added : List FilePath
  updated : List FilePath
  removed : List FilePath
  unreadable : List FilePath

namespace SnapshotDiff

def isEmpty (d : SnapshotDiff) : Bool :=
  d.added.isEmpty && d.updated.isEmpty && d.removed.isEmpty

/-- The files to process: the added ones and then the updated ones. -/
def changed (d : SnapshotDiff) : List FilePath := d.added ++ d.updated

/-- Compares readings with the earlier snapshot. -/
def ofReadings (previous : Snapshot) (readings : SortedMap FilePath SignatureReading) :
    SnapshotDiff where
  snapshot := readings.filterMap fun p r => r.next? (previous.get? p)
  added := (readings.filter fun p r =>
    match r with
    | .signed _ => !previous.contains p
    | _ => false).keys
  updated := (readings.filter fun p r =>
    match r, previous.get? p with
    | .signed s, some old => s ≠ old
    | _, _ => false).keys
  removed := SortedSet.toList <| SortedSet.ofList <|
    (readings.filter fun p r => r = .missing && previous.contains p).keys ++
      (previous.filter fun p _ => !readings.contains p).keys
  unreadable := (readings.filter fun _ r => r = .unreadable).keys

/-- Reads the signature of every path once; the flag is looked at before each. -/
def update (mode : SignatureMode) (v : FileView) (cancelled : Cancellation) (previous : Snapshot)
    (paths : List FilePath) : Except Cancelled SnapshotDiff :=
  let current := SortedSet.ofList paths
  if current.toList.any fun p => cancelled (.signature p) then .error .cancelled
  else
    .ok <| ofReadings previous <|
      current.map fun p _ => .ofResult (FileSignature.compute mode v p)

end SnapshotDiff

end WorkspaceSync
