import WorkspaceSync.Json.Basic

/-!
# Decoding JSON values

Decoders of strings, lists and structures. A structure is an object, whose unknown members do not
matter, or an array of its members in the order of their declaration. Faults are looked for member
by member, in an object in the order of names and in an array in the order of positions; what is
missing is reported last. `Record.get?` is all that a decoder sees of a structure.
-/

namespace WorkspaceSync.Json

inductive DecodeError where
  /-- What there is instead of what was expected. -/
  | invalidType (got expected : String)
  | invalidLength (length : Nat) (expected : String)
  | missingField (name : String)
  | duplicateField (name : String)
  /-- A text that is no value of its type, with the reason. -/
  | invalidValue (reason : String)
  deriving DecidableEq, Repr

def DecodeError.message : DecodeError → String
  | invalidType got expected => s!"invalid type: {got}, expected {expected}"
  | invalidLength n expected => s!"invalid length {n}, expected {expected}"
  | missingField name => s!"missing field `{name}`"
  | duplicateField name => s!"duplicate field `{name}`"
  | invalidValue reason => reason

/-- Whether a value is decoded as it stands in its document, or from what was set aside until the
kind of a tagged structure was known. Only the count of surplus elements is worded differently. -/
inductive Place where
  | document
  | tagged
  deriving DecidableEq, Repr

abbrev Decoder (α : Type) := Place → Json → Except DecodeError α

def mismatch {α : Type} (j : Json) (expected : String) : Except DecodeError α :=
  .error (.invalidType j.description expected)

namespace Decoder

def text : Decoder String
  | _, .string s => .ok s
  | _, j => mismatch j "a string"

def boolean : Decoder Bool
  | _, .bool b => .ok b
  | _, j => mismatch j "a boolean"

/-- Decodes the elements of an array in order. -/
def list {α : Type} (d : Decoder α) : Decoder (List α)
  | p, .array items => items.mapM (d p)
  | _, j => mismatch j "a sequence"

def optional {α : Type} (d : Decoder α) : Decoder (Option α)
  | _, .null => .ok none
  | p, j => (d p j).map some

/-- A string that a parser accepts. -/
def parsed {α ε : Type} (parse : String → Except ε α) (message : ε → String) : Decoder α
  | p, j =>
    match text p j with
    | .error e => .error e
    | .ok s => (parse s).mapError fun e => .invalidValue (message e)

end Decoder

/-- A member of a structure: whether it must be there, and what is wrong with a value of it. -/
structure Member where
  name : String
  required : Bool
  check : Place → Json → Except DecodeError Unit

namespace Member

def ofDecoder {α : Type} (name : String) (required : Bool) (d : Decoder α) : Member :=
  ⟨name, required, fun p j => (d p j).map fun _ => ()⟩

end Member

/-- The members of a structure in the order of their declaration. -/
structure Shape where
  name : String
  members : List Member

/-- A value of a structure: its members by name, each of them checked. -/
structure Record where
  place : Place
  values : List (String × Json)

namespace Record

/-- Decodes a member; a value that is not there, or that a check refused, gives none. -/
def get? {α : Type} (r : Record) (name : String) (d : Decoder α) : Option α :=
  (member? name r.values).bind fun j => (d r.place j).toOption

end Record

namespace Shape

def expectation (s : Shape) : String := "struct " ++ s.name

/-- Names a number of elements. -/
def counted (n : Nat) : String := if n = 1 then "1 element" else s!"{n} elements"

def surplus (s : Shape) (p : Place) (length : Nat) : DecodeError :=
  match p with
  | .document => .invalidLength length "fewer elements in array"
  | .tagged => .invalidLength length (counted s.members.length ++ " in sequence")

/-- Checks the members that have a value, in the given order. -/
def checkAll (p : Place) (values : List (String × Json)) (members : List Member) :
    Except DecodeError Unit :=
  members.forM fun m =>
    match member? m.name values with
    | some j => m.check p j
    | none => .ok ()

def ofObject (s : Shape) (p : Place) (values : List (String × Json)) :
    Except DecodeError Record := do
  checkAll p values (s.members.mergeSort fun a b => (compare a.name b.name).isLE)
  match s.members.find? fun m => m.required && (member? m.name values).isNone with
  | some m => throw (.missingField m.name)
  | none => pure ⟨p, values⟩

def ofArray (s : Shape) (p : Place) (items : List Json) : Except DecodeError Record := do
  let values := (s.members.map (·.name)).zip items
  checkAll p values s.members
  match s.members.zipIdx.find? fun (m, i) => m.required && items.length ≤ i with
  | some (_, i) =>
    throw (.invalidLength i (s.expectation ++ " with " ++ counted s.members.length))
  | none =>
    if s.members.length < items.length then throw (s.surplus p items.length)
    pure ⟨p, values⟩

def decode (s : Shape) : Decoder Record
  | p, .object members => s.ofObject p members
  | p, .array items => s.ofArray p items
  | _, j => mismatch j s.expectation

end Shape

/-- Decodes a structure and builds a value from its members. -/
def Decoder.ofShape {α : Type} (s : Shape) (build : Record → Option α) : Decoder α
  | p, j =>
    match s.decode p j with
    | .error e => .error e
    | .ok r =>
      match build r with
      | some a => .ok a
      | none => mismatch j s.expectation

end WorkspaceSync.Json
