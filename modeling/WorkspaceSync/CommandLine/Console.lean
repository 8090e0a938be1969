/-!
# Consoles

Where a program writes its lines, and the clock that it reads.
-/

namespace WorkspaceSync.CommandLine

class Console (m : Type → Type) where
  /-- Writes text to the output that other programs read. -/
  out : String → m Unit
  /-- Writes text for the user. -/
  err : String → m Unit
  /-- Milliseconds from a fixed moment on. -/
  clock : m Nat

/-- What has been written to a console in memory, whose clock stands still. -/
structure Transcript where
  out : String
  err : String
  deriving DecidableEq, Repr

def Transcript.empty : Transcript := ⟨"", ""⟩

instance {m : Type → Type} [Monad m] : Console (StateT Transcript m) where
  out s := modify fun t => { t with out := t.out ++ s }
  err s := modify fun t => { t with err := t.err ++ s }
  clock := pure 0

end WorkspaceSync.CommandLine
