import WorkspaceSync.Json.Token

/-!
# Reading JSON

A machine takes in the tokens of a text one by one. Its stack holds the arrays and objects that are
still open, innermost first, with what they hold so far in reverse; its stage says what may come
next. Nesting is limited, so that the depth of a value is known.
-/

namespace WorkspaceSync.Json

inductive Frame where
  | array (items : List Json)
  | object (members : List (String × Json))
  /-- An object in which a name waits for its value. -/
  | member (members : List (String × Json)) (name : String)

inductive Stage where
  | value
  | firstItem
  | nextItem
  | firstName
  | nextName
  | colon (name : String)
  | afterValue
  | done (j : Json)

structure Machine where
  stack : List Frame
  stage : Stage

namespace Machine

def start : Machine := ⟨[], .value⟩

/-- The deepest nesting that is read. -/
def maxDepth : Nat := 127

/-- A value is complete: the innermost open array or object takes it. -/
def complete (j : Json) : List Frame → Machine
  | .array items :: stack => ⟨.array (j :: items) :: stack, .afterValue⟩
  | .member members name :: stack => ⟨.object ((name, j) :: members) :: stack, .afterValue⟩
  | .object members :: stack => ⟨.object members :: stack, .afterValue⟩
  | [] => ⟨[], .done j⟩

def openFrame (f : Frame) (stage : Stage) (stack : List Frame) : Except SyntaxError Machine :=
  if maxDepth ≤ stack.length then .error .recursionLimit else .ok ⟨f :: stack, stage⟩

/-- The innermost open array or object is complete. -/
def close : List Frame → Except SyntaxError Machine
  | .array items :: stack => .ok (complete (.array items.reverse) stack)
  | .object members :: stack => .ok (complete (.object members.reverse) stack)
  | _ => .error .expectedValue

/-- A token where a value must begin. -/
def stepValue (stack : List Frame) : Token → Except SyntaxError Machine
  | .openArray => openFrame (.array []) .firstItem stack
  | .openObject => openFrame (.object []) .firstName stack
  | .string s => s.map fun s => complete (.string s) stack
  | .scalar j => j.map fun j => complete j stack
  | .badString f | .badScalar f => .error f.toReader
  | _ => .error .expectedValue

def stepName (stack : List Frame) : Token → Except SyntaxError Machine
  | .string s => s.map fun s => ⟨stack, .colon s⟩
  | .badString f => .error f.toReader
  | _ => .error .keyMustBeString

def stepAfter : List Frame → Token → Except SyntaxError Machine
  | .array items :: stack, .comma => .ok ⟨.array items :: stack, .nextItem⟩
  | .array items :: stack, .closeArray => close (.array items :: stack)
  | .array _ :: _, _ => .error .expectedListCommaOrEnd
  | .object members :: stack, .comma => .ok ⟨.object members :: stack, .nextName⟩
  | .object members :: stack, .closeObject => close (.object members :: stack)
  | _, _ => .error .expectedObjectCommaOrEnd

def stepColon (name : String) : List Frame → Token → Except SyntaxError Machine
  | .object members :: stack, .colon => .ok ⟨.member members name :: stack, .value⟩
  | _, _ => .error .expectedColon

def step (m : Machine) (t : Token) : Except SyntaxError Machine :=
  match m.stage, t with
  | .value, t => stepValue m.stack t
  | .firstItem, .closeArray => close m.stack
  | .firstItem, t => stepValue m.stack t
  | .nextItem, .closeArray => .error .trailingComma
  | .nextItem, t => stepValue m.stack t
  | .firstName, .closeObject => close m.stack
  | .firstName, t => stepName m.stack t
  | .nextName, .closeObject => .error .trailingComma
  | .nextName, t => stepName m.stack t
  | .colon name, t => stepColon name m.stack t
  | .afterValue, t => stepAfter m.stack t
  | .done _, _ => .error .trailingCharacters

/-- The end of the text. -/
def finish (m : Machine) : Except SyntaxError Json :=
  match m.stage, m.stack with
  | .done j, _ => .ok j
  | .firstItem, _ => .error .eofInList
  | .afterValue, .array _ :: _ => .error .eofInList
  | .firstName, _ | .colon _, _ | .afterValue, _ => .error .eofInObject
  | .value, _ | .nextItem, _ | .nextName, _ => .error .eofInValue

end Machine

def ofTokens (ts : List Token) : Except SyntaxError Json := do
  (← ts.foldlM Machine.step Machine.start).finish

/-- Reads one value and nothing after it but blanks. -/
def parse (s : String) : Except SyntaxError Json := ofTokens (tokens s.toList)

end WorkspaceSync.Json
