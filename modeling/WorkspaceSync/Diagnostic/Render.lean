import WorkspaceSync.Diagnostic.Basic
import WorkspaceSync.Json.Printer

/-!
# Rendering diagnostics

For a terminal, in several lines and with or without colour; for a program, as one JSON object.
-/

namespace WorkspaceSync

namespace Severity

/-- The number of the severity's colour. -/
def color : Severity → String
  | info => "36"
  | warning => "33"
  | error => "31"

end Severity

namespace Diagnostic

/-- The start of an escape sequence of a terminal. -/
def escape : String := String.ofList [Char.ofNat 27] ++ "["

def heading (d : Diagnostic) (colored : Bool) : String :=
  let text := d.severity.name ++ "[" ++ d.code.text ++ "]"
  if colored then escape ++ "1;" ++ d.severity.color ++ "m" ++ text ++ escape ++ "0m" else text

/-- The lines of a diagnostic, each ended. -/
def render (d : Diagnostic) (colored : Bool) : String :=
  d.heading colored ++ ": " ++ d.message ++ "\n" ++
  (match d.subject with
    | some s => "  --> " ++ s.text ++ "\n"
    | none => "") ++
  String.join (d.notes.map fun n => "   = note: " ++ n ++ "\n") ++
  String.join (d.help.map fun h => "   = help: " ++ h ++ "\n")

def subjectJson : Option Subject → Json
  | none => .null
  | some (.target l) => .object [("target", .string l.text)]
  | some (.file p) => .object [("file", .string p.text)]

def toJson (d : Diagnostic) : Json :=
  .object [
    ("severity", .string d.severity.name),
    ("code", .object [
      ("category", .string d.code.category.name),
      ("number", .number (.natural d.code.number.toNat))]),
    ("message", .string d.message),
    ("subject", subjectJson d.subject),
    ("notes", .array (d.notes.map .string)),
    ("help", .array (d.help.map .string))]

/-- One line of JSON. -/
def renderJson (d : Diagnostic) : String := d.toJson.print

end Diagnostic

end WorkspaceSync
