import WorkspaceSync.FilePath
import WorkspaceSync.Label

/-!
# Diagnostics

What a sync tells its user: a coded message, what it is about, and notes.
-/

namespace WorkspaceSync

/-- From the least to the most serious. -/
inductive Severity where
  | info
  | warning
  | error
  deriving DecidableEq, Repr

namespace Severity

def name : Severity → String
  | info => "info"
  | warning => "warning"
  | error => "error"

end Severity

inductive Category where
  /-- A step failed and its previous result was kept. -/
  | error
  /-- A part was skipped or is less exact. -/
  | warning
  /-- A setup that slows down work on the project. -/
  | performance
  /-- Progress and statistics. -/
  | info
  deriving DecidableEq, Repr

namespace Category

def letter : Category → String
  | error => "E"
  | warning => "W"
  | performance => "P"
  | info => "I"

def name : Category → String
  | error => "Error"
  | warning => "Warning"
  | performance => "Performance"
  | info => "Info"

end Category

structure DiagnosticCode where
  category : Category
  number : UInt16
  deriving DecidableEq, Repr

namespace DiagnosticCode

/-- The category's letter and at least three digits. -/
def text (c : DiagnosticCode) : String :=
  let digits := Nat.toDigits 10 c.number.toNat
  c.category.letter ++ String.ofList (List.replicate (3 - digits.length) '0' ++ digits)

end DiagnosticCode

/-- What a diagnostic is about. -/
inductive Subject where
  | target (l : Label)
  | file (p : FilePath)
  deriving DecidableEq

namespace Subject

def text : Subject → String
  | target l => l.text
  | file p => p.text

end Subject

structure Diagnostic where
  severity : Severity
  code : DiagnosticCode
  message : String
  subject : Option Subject
  notes : List String
  help : List String
  deriving DecidableEq

namespace Diagnostic

def info (code : DiagnosticCode) (message : String) : Diagnostic :=
  ⟨.info, code, message, none, [], []⟩

def warning (code : DiagnosticCode) (message : String) : Diagnostic :=
  ⟨.warning, code, message, none, [], []⟩

def error (code : DiagnosticCode) (message : String) : Diagnostic :=
  ⟨.error, code, message, none, [], []⟩

def forTarget (d : Diagnostic) (l : Label) : Diagnostic := { d with subject := some (.target l) }

def forFile (d : Diagnostic) (p : FilePath) : Diagnostic := { d with subject := some (.file p) }

def withNote (d : Diagnostic) (note : String) : Diagnostic := { d with notes := d.notes ++ [note] }

def withHelp (d : Diagnostic) (help : String) : Diagnostic := { d with help := d.help ++ [help] }

end Diagnostic

end WorkspaceSync
