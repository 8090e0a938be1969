import WorkspaceSync.Toml.Basic

/-!
# Decoding TOML values

A section starts from its defaults, and the values that a document gives are taken in one by one in
document order, so the first fault is the one reported. A section may also be written as an array
of its values in the order of declaration.
-/

namespace WorkspaceSync.Toml

inductive DecodeError where
  /-- What there is instead of what was expected. -/
  | invalidType (got expected : String)
  | invalidValue (got expected : String)
  | unknownField (name : String) (known : List String)
  | unknownVariant (name : String) (known : List String)
  /-- A text that is no value of its type, with the reason. -/
  | refused (reason : String)
  /-- A value that cannot name a variant at all. -/
  | noVariant
  deriving DecidableEq, Repr

/-- Names to choose from. -/
def alternatives : List String → String
  | [] => "there are no fields"
  | [a] => s!"expected `{a}`"
  | [a, b] => s!"expected `{a}` or `{b}`"
  | names => "expected one of " ++ String.intercalate ", " (names.map fun n => s!"`{n}`")

/-- What is wrong with a value, in words if there are any. -/
def DecodeError.message? : DecodeError → Option String
  | invalidType got expected => some s!"invalid type: {got}, expected {expected}"
  | invalidValue got expected => some s!"invalid value: {got}, expected {expected}"
  | unknownField name known => some s!"unknown field `{name}`, {alternatives known}"
  | unknownVariant name known => some s!"unknown variant `{name}`, {alternatives known}"
  | refused reason => some reason
  | noVariant => none

abbrev Decoder (α : Type) := Value → Except DecodeError α

namespace Decoder

def mismatch {α : Type} (v : Value) (expected : String) : Except DecodeError α :=
  .error (.invalidType v.description expected)

def text : Decoder String
  | .string s => .ok s
  | v => mismatch v "a string"

def boolean : Decoder Bool
  | .boolean b => .ok b
  | v => mismatch v "a boolean"

/-- A number that is not negative. -/
def natural : Decoder Nat
  | .integer n =>
    if 0 ≤ n then .ok n.toNat
    else .error (.invalidValue (Value.integer n).description "usize")
  | v => mismatch v "usize"

/-- A string that a parser accepts. -/
def parsed {α ε : Type} (parse : String → Except ε α) (message : ε → String) : Decoder α
  | v =>
    match text v with
    | .error e => .error e
    | .ok s => (parse s).mapError fun e => .refused (message e)

/-- The elements of an array, however it is written. -/
def elements? : Value → Option (List Value)
  | .array items => some items
  | .tables ts => some (ts.map .table)
  | _ => none

def list {α : Type} (d : Decoder α) : Decoder (List α) := fun v =>
  match elements? v with
  | some items => items.mapM d
  | none => mismatch v "a sequence"

/-- Whether a value holds nothing; only then may it follow the name of a variant. -/
def isVoid : Value → Bool
  | .array items => items.isEmpty
  | .tables ts => ts.isEmpty
  | .inlineTable t | .table t => t.entries.isEmpty
  | _ => false

/-- One of several names, written as a string or as the only key of a table, without content. -/
def variant {α : Type} (variants : List (String × α)) : Decoder α := fun v =>
  match v with
  | .string s => named s
  | .inlineTable (.mk _ _ [(s, content)]) | .table (.mk _ _ [(s, content)]) => tagged s content
  | _ => .error .noVariant
where
  named (s : String) : Except DecodeError α :=
    match variants.lookup s with
    | some a => .ok a
    | none => .error (.unknownVariant s (variants.map (·.1)))
  tagged (s : String) (content : Value) : Except DecodeError α :=
    match named s with
    | .ok a => if isVoid content then .ok a else .error .noVariant
    | .error e => .error e

end Decoder

/-- A value that a section may give, and what it changes. -/
structure Field (σ : Type) where
  name : String
  set : σ → Value → Except DecodeError σ

namespace Field

/-- A field that a decoded value goes to. -/
def ofDecoder {σ α : Type} (name : String) (d : Decoder α) (put : σ → α → σ) : Field σ :=
  ⟨name, fun s v => (d v).map (put s)⟩

end Field

structure Section (σ : Type) where
  name : String
  fields : List (Field σ)
  default : σ

namespace Section

variable {σ : Type}

/-- The key under which a date and time shows its content. -/
def datetimeKey : String := "$__toml_private_datetime"

/-- Takes in the value of a key. -/
def set (c : Section σ) (s : σ) (key : String) (v : Value) : Except DecodeError σ :=
  match c.fields.find? (·.name = key) with
  | some f => f.set s v
  | none => .error (.unknownField key (c.fields.map (·.name)))

def ofTable (c : Section σ) (t : Table) : Except DecodeError σ :=
  t.entries.foldlM (fun s e => c.set s e.1 e.2) c.default

/-- Elements beyond the last field do not count. -/
def ofElements (c : Section σ) (items : List Value) : Except DecodeError σ :=
  (c.fields.zip items).foldlM (fun s e => e.1.set s e.2) c.default

def decoder (c : Section σ) : Decoder σ
  | .table t | .inlineTable t => c.ofTable t
  | .datetime => .error (.unknownField datetimeKey (c.fields.map (·.name)))
  | v =>
    match Decoder.elements? v with
    | some items => c.ofElements items
    | none => Decoder.mismatch v ("struct " ++ c.name)

end Section

end WorkspaceSync.Toml
