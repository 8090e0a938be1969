import WorkspaceSync.Json.Parse
import WorkspaceSync.Json.Skip
import WorkspaceSync.Rule.Json

/-!
# Working sets

The files that version control reports as changed. A target with such a file among its sources is
imported as content. A document is checked while it is read, so that of two faults the one that
comes first in the text is reported, whether the text is no JSON there or does not describe a
working set. Members of other names are skipped.
-/

namespace WorkspaceSync

open Json (Decoder DecodeError Frame Machine Record Shape Skip SyntaxError Token)

structure WorkingSet where
  added : List WorkspacePath
  modified : List WorkspacePath
  deleted : List WorkspacePath
  deriving DecidableEq

/-- Why a document is no working set. -/
inductive WorkingSetError where
  | syntaxError (e : SyntaxError)
  | decodeError (e : DecodeError)
  deriving DecidableEq, Repr

def WorkingSetError.message : WorkingSetError → String
  | syntaxError e => e.message
  | decodeError e => e.message

namespace WorkingSet

def shape : Shape :=
  ⟨"WorkingSet",
    [.ofDecoder "added_files" false WorkspacePath.decoder.list,
     .ofDecoder "modified_files" false WorkspacePath.decoder.list,
     .ofDecoder "deleted_files" false WorkspacePath.decoder.list]⟩

def ofRecord (r : Record) : Option WorkingSet :=
  some {
    added := (r.get? "added_files" WorkspacePath.decoder.list).getD []
    modified := (r.get? "modified_files" WorkspacePath.decoder.list).getD []
    deleted := (r.get? "deleted_files" WorkspacePath.decoder.list).getD [] }

def decoder : Decoder WorkingSet := .ofShape shape ofRecord

def toJson (w : WorkingSet) : Json :=
  .object [
    ("added_files", Json.ofList WorkspacePath.toJson w.added),
    ("modified_files", Json.ofList WorkspacePath.toJson w.modified),
    ("deleted_files", Json.ofList WorkspacePath.toJson w.deleted)]

def isEmpty (w : WorkingSet) : Bool :=
  w.added.isEmpty && w.modified.isEmpty && w.deleted.isEmpty

/-- The files that exist: the added ones and then the modified ones. -/
def present (w : WorkingSet) : List WorkspacePath := w.added ++ w.modified

/-- The Java sources among the files that exist. -/
def javaFiles (w : WorkingSet) : SortedSet WorkspacePath :=
  .ofList (w.present.filter fun p => ".java".toList.isSuffixOf p.fileName.toList)

/-! ## Documents -/

/-- A value that begins with a token, as far as an error describes it; a token that is no beginning
of a value is left to the reader of the syntax. -/
def describe? : Token → Option String
  | .openArray => some "sequence"
  | .openObject => some "map"
  | .string (.ok s) => some (Json.string s).description
  | .scalar (.ok j) => some j.description
  | _ => none

def isName (name : String) : Bool := shape.members.any (·.name = name)

/-- What is expected where a value begins. -/
inductive Expected where
  | workingSet
  | files
  | path

def expected : List Frame → Expected
  | [] => .workingSet
  | [.member _ _] | [.array _] => .files
  | _ => .path

def mismatch (t : Token) (wanted : String) : Except WorkingSetError Unit :=
  match describe? t with
  | some got => .error (.decodeError (.invalidType got wanted))
  | none => .ok ()

/-- Checks the first token of a value. -/
def checkValue (t : Token) : Expected → Except WorkingSetError Unit
  | .workingSet =>
    match t with
    | .openArray | .openObject => .ok ()
    | t => mismatch t shape.expectation
  | .files =>
    match t with
    | .openArray => .ok ()
    | t => mismatch t "a sequence"
  | .path =>
    match t with
    | .string (.ok s) =>
      match WorkspacePath.parse s with
      | .ok _ => .ok ()
      | .error e => .error (.decodeError (.invalidValue e.message))
    | t => mismatch t "a string"

/-- Checks the name of a member: those of a working set are given once. -/
def checkName (t : Token) : List Frame → Except WorkingSetError Unit
  | [.object members] =>
    match t with
    | .string (.ok s) =>
      if isName s && members.any (·.1 = s) then .error (.decodeError (.duplicateField s))
      else .ok ()
    | _ => .ok ()
  | _ => .ok ()

/-- Whether a working set that is written as an array has all its elements, so that only the end of
the array may follow. -/
def isFull : List Frame → Bool
  | [.array items] => shape.members.length ≤ items.length
  | _ => false

/-- Checks a token where the reader stands. -/
def check (m : Machine) (t : Token) : Except WorkingSetError Unit :=
  match m.stage, t with
  | .firstItem, .closeArray | .nextItem, .closeArray => .ok ()
  | .value, t | .firstItem, t | .nextItem, t =>
    if isFull m.stack then .error (.syntaxError .trailingCharacters)
    else checkValue t (expected m.stack)
  | .firstName, t | .nextName, t => checkName t m.stack
  | .afterValue, .comma | .afterValue, .closeArray => .ok ()
  | .afterValue, _ =>
    if isFull m.stack then .error (.syntaxError .trailingCharacters) else .ok ()
  | _, _ => .ok ()

/-- Whether the value of a member comes next that is none of a working set. -/
def isForeign (m : Machine) : Bool :=
  match m.stage, m.stack with
  | .value, [.member _ name] => !isName name
  | _, _ => false

/-- A document of which a part has been read. -/
inductive Reading where
  | inside (m : Machine)
  /-- Within a value that does not matter, before which the machine stands. -/
  | skipping (m : Machine) (s : Skip)

namespace Reading

def start : Reading := .inside .start

/-- Goes on with skipping; the value that was skipped is taken for nothing. -/
def resume (m : Machine) (s : Skip) : Reading :=
  if s.stage = .done then .inside (Machine.complete .null m.stack) else .skipping m s

def skip (m : Machine) (s : Skip) (t : Token) : Except WorkingSetError Reading :=
  ((s.step t).map (resume m)).mapError .syntaxError

def step (r : Reading) (t : Token) : Except WorkingSetError Reading :=
  match r with
  | .skipping m s => skip m s t
  | .inside m =>
    if isForeign m then skip m .start t
    else do
      check m t
      ((m.step t).map .inside).mapError .syntaxError

/-- The end of the document. -/
def finish : Reading → Except SyntaxError Json
  | .skipping _ s => .error s.atEnd
  | .inside m =>
    match m.stage with
    | .nextItem => if isFull m.stack then .error .trailingCharacters else m.finish
    | _ => m.finish

end Reading

/-- Reads a document. -/
def parse (document : String) : Except WorkingSetError WorkingSet := do
  let r ← (Json.tokens document.toList).foldlM Reading.step .start
  let j ← r.finish.mapError .syntaxError
  (decoder .document j).mapError .decodeError

end WorkingSet

end WorkspaceSync
