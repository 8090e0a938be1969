import WorkspaceSync.Json.Token

/-!
# Skipping JSON

A value that does not matter is followed token by token to its end. Only its spelling has to be
right: its strings need not stand for a text nor its numbers be in range, and it may be nested to
any depth, since all that is kept of it are its open brackets.
-/

namespace WorkspaceSync.Json

inductive Bracket where
  | array
  | object
  deriving DecidableEq, Repr

inductive Skip.Stage where
  | value
  /-- Right after an opening bracket. -/
  | opened
  | afterValue
  | name
  | colon
  | done
  deriving DecidableEq, Repr

/-- A value of which a part has been skipped: the brackets that are open, innermost first, and what
may come next. -/
structure Skip where
  brackets : List Bracket
  stage : Skip.Stage
  deriving DecidableEq, Repr

namespace Skip

def start : Skip := ⟨[], .value⟩

/-- A value is complete within the brackets that are open. -/
def complete : List Bracket → Skip
  | [] => ⟨[], .done⟩
  | bs => ⟨bs, .afterValue⟩

def stepValue (bs : List Bracket) : Token → Except SyntaxError Skip
  | .openArray => .ok ⟨.array :: bs, .opened⟩
  | .openObject => .ok ⟨.object :: bs, .opened⟩
  | .string _ | .scalar _ => .ok (complete bs)
  | .badString f | .badScalar f => .error f.toSkipper
  | _ => .error .expectedValue

def stepName (bs : List Bracket) : Token → Except SyntaxError Skip
  | .string _ => .ok ⟨bs, .colon⟩
  | .badString f => .error f.toSkipper
  | _ => .error .keyMustBeString

def stepOpened : List Bracket → Token → Except SyntaxError Skip
  | .array :: bs, .closeArray => .ok (complete bs)
  | .object :: bs, .closeObject => .ok (complete bs)
  | .object :: bs, t => stepName (.object :: bs) t
  | bs, t => stepValue bs t

def stepAfter : List Bracket → Token → Except SyntaxError Skip
  | .array :: bs, .comma => .ok ⟨.array :: bs, .value⟩
  | .array :: bs, .closeArray => .ok (complete bs)
  | .array :: _, _ => .error .expectedListCommaOrEnd
  | .object :: bs, .comma => .ok ⟨.object :: bs, .name⟩
  | .object :: bs, .closeObject => .ok (complete bs)
  | _, _ => .error .expectedObjectCommaOrEnd

def step (s : Skip) (t : Token) : Except SyntaxError Skip :=
  match s.stage, t with
  | .value, t => stepValue s.brackets t
  | .opened, t => stepOpened s.brackets t
  | .afterValue, t => stepAfter s.brackets t
  | .name, t => stepName s.brackets t
  | .colon, .colon => .ok ⟨s.brackets, .value⟩
  | .colon, _ => .error .expectedColon
  | .done, _ => .error .trailingCharacters

/-- What the end of the text cuts off. -/
def atEnd (s : Skip) : SyntaxError :=
  match s.stage, s.brackets with
  | .value, _ => .eofInValue
  | .opened, .array :: _ | .afterValue, .array :: _ => .eofInList
  | _, _ => .eofInObject

end Skip

end WorkspaceSync.Json
