import WorkspaceSync.Diagnostic.Basic
import WorkspaceSync.Json.Parse
import WorkspaceSync.Rule.Json
import WorkspaceSync.SortedMap

/-!
# Rule maps

The rules of a build by label. A document is read leniently: a rule that does not decode or that
declares a bad location is left out with a warning, and of rules with one label the first is kept.
Only a document that is no array is refused.
-/

namespace WorkspaceSync

namespace DiagnosticCode

def malformedRule : DiagnosticCode := ⟨.warning, 201⟩

def duplicateRule : DiagnosticCode := ⟨.warning, 202⟩

end DiagnosticCode

/-- Rules in the order of their labels. -/
abbrev RuleMap := SortedMap Label Rule

/-- Why a document is no array of rules. -/
inductive RuleMapError where
  | syntaxError (e : Json.SyntaxError)
  | notAnArray (got : String)
  deriving DecidableEq, Repr

namespace RuleMapError

def reason : RuleMapError → String
  | syntaxError e => e.message
  | notAnArray got => s!"invalid type: {got}, expected a sequence"

def message (e : RuleMapError) : String := s!"rule map is not a JSON array of rules: {e.reason}"

end RuleMapError

namespace RuleMap

/-- Rules are added as they are; one whose label is there is left out. -/
def add (m : RuleMap) (r : Rule) : RuleMap := SortedMap.insertIfNew m r.label r

/-- Of rules with one label the first is kept. -/
def ofRules (rules : List Rule) : RuleMap := rules.foldl add SortedMap.empty

def rules (m : RuleMap) : List Rule := SortedMap.values m

/-- The label that an element spells, if it is an object that spells one. -/
def spelledLabel? : Json → Option Label
  | .object members =>
    match Json.member? "label" members with
    | some (.string s) => (Label.parse s).toOption
    | _ => none
  | _ => none

/-- What becomes of one element of a rule document. -/
inductive Reading where
  | rule (r : Rule)
  | malformed (label : Option Label) (message : String)

/-- Decodes and checks the element at a position. -/
def read (index : Nat) (j : Json) : Reading :=
  match Rule.ofJson j with
  | .error e => .malformed (spelledLabel? j) s!"skipping rule #{index}: {e.message}"
  | .ok r =>
    match r.validate with
    | .error e => .malformed (some r.label) s!"skipping rule: {e.message}"
    | .ok () => .rule r

def malformedRule (label : Option Label) (message : String) : Diagnostic :=
  { Diagnostic.warning .malformedRule message with subject := label.map .target }

def duplicateRule (label : Label) : Diagnostic :=
  ((Diagnostic.warning .duplicateRule "duplicate rule ignored").forTarget label).withNote
    "the first rule with this label is kept"

/-- Takes in the element at a position. -/
def addElement (acc : RuleMap × List Diagnostic) (element : Json × Nat) :
    RuleMap × List Diagnostic :=
  let (m, diagnostics) := acc
  match read element.2 element.1 with
  | .malformed label message => (m, diagnostics ++ [malformedRule label message])
  | .rule r =>
    if SortedMap.contains m r.label then (m, diagnostics ++ [duplicateRule r.label])
    else (add m r, diagnostics)

/-- Reads the elements of a document in order. -/
def ofElements (elements : List Json) : RuleMap × List Diagnostic :=
  elements.zipIdx.foldl addElement (SortedMap.empty, [])

def ofJson : Json → Except RuleMapError (RuleMap × List Diagnostic)
  | .array elements => .ok (ofElements elements)
  | j => .error (.notAnArray j.description)

def parse (document : String) : Except RuleMapError (RuleMap × List Diagnostic) :=
  match Json.parse document with
  | .error e => .error (.syntaxError e)
  | .ok j => ofJson j

end RuleMap

end WorkspaceSync
