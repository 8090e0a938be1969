import WorkspaceSync.Diagnostic.Basic

/-!
# Diagnostic logs

A log keeps the diagnostics in the order of their arrival and counts errors and warnings. Taking the
diagnostics out leaves the counts as they are.
-/

namespace WorkspaceSync

structure DiagnosticLog where
  entries : List Diagnostic
  errors : Nat
  warnings : Nat

namespace DiagnosticLog

def empty : DiagnosticLog := ⟨[], 0, 0⟩

def add (l : DiagnosticLog) (d : Diagnostic) : DiagnosticLog where
  entries := l.entries ++ [d]
  errors := l.errors + if d.severity = .error then 1 else 0
  warnings := l.warnings + if d.severity = .warning then 1 else 0

def addAll (l : DiagnosticLog) (ds : List Diagnostic) : DiagnosticLog := ds.foldl add l

def ofList (ds : List Diagnostic) : DiagnosticLog := empty.addAll ds

def hasErrors (l : DiagnosticLog) : Bool := 0 < l.errors

/-- The diagnostics, and the log without them. -/
def takeAll (l : DiagnosticLog) : List Diagnostic × DiagnosticLog :=
  (l.entries, { l with entries := [] })

end DiagnosticLog

end WorkspaceSync
