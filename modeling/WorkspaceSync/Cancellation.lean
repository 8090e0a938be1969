import WorkspaceSync.FilePath

/-!
# Cancellation

A sync looks at a flag at certain moments and gives up where it finds it set. A schedule says at
which moments it is set; a flag that is never cleared has a schedule that stays set.
-/

namespace WorkspaceSync

/-- The moments at which the flag is looked at. -/
inductive Moment where
  | start
  /-- Before the signature of a manifest is computed. -/
  | signature (p : FilePath)
  | prefetch
  /-- Before a manifest is parsed. -/
  | parse (p : FilePath)
  /-- After the given manifests have been parsed. -/
  | parsed (files : List FilePath)
  | loaded
  /-- After an import that read the given package manifests. -/
  | imported (manifests : List FilePath)
  /-- After the libraries have been chosen. -/
  | attached
  deriving DecidableEq, Repr

/-- Tells whether the flag is set at a moment. -/
abbrev Cancellation := Moment → Bool

namespace Cancellation

def never : Cancellation := fun _ => false

def fromStart : Cancellation := fun _ => true

end Cancellation

/-- What an operation returns that found the flag set. -/
inductive Cancelled where
  | cancelled
  deriving DecidableEq, Repr

def Cancelled.message : Cancelled → String
  | cancelled => "sync cancelled"

end WorkspaceSync
