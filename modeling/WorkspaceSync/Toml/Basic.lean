import WorkspaceSync.Decimal.Binary64
import WorkspaceSync.Text.Quoted

/-!
# TOML values and documents

A document is built header by header and line by line. A table remembers whether a header or a
dotted key of one below it has only implied it (`implicit`), and whether a dotted key made it
(`dotted`): an implied table may still get its own header, one that a dotted key made may only be
extended by dotted keys, and nothing may be given twice.
-/

namespace WorkspaceSync.Toml

inductive FloatValue where
  | number (negative : Bool) (magnitude : Decimal.Magnitude)
  | nan
  deriving DecidableEq, Repr

mutual

inductive Value where
  | string (s : String)
  | integer (n : Int)
  | float (f : FloatValue)
  | boolean (b : Bool)
  | datetime
  | array (items : List Value)
  | inlineTable (t : Table)
  | table (t : Table)
  /-- The tables of one name, each with a header in double brackets. -/
  | tables (ts : List Table)

inductive Table where
  | mk (implicit dotted : Bool) (entries : List (String × Value))

end

/-- The words for a floating point number: all digits in place, and always a point. Of two shortest
texts equally near, the one farther from zero. -/
def FloatValue.text : FloatValue → String
  | nan => "NaN"
  | number negative m =>
    (if negative then "-" else "") ++
    match m with
    | .infinite => "inf"
    | .finite mantissa exponent =>
      let d := Decimal.Digits.shortest .up mantissa exponent
      String.ofList (d.positional ++ if 0 ≤ d.exponent then ['.', '0'] else [])

/-- How a value is described where another kind of value was expected. -/
def Value.description : Value → String
  | string s => s!"string {Text.quoted s}"
  | integer n => s!"integer `{n}`"
  | float f => s!"floating point `{f.text}`"
  | boolean b => s!"boolean `{b}`"
  | array _ | tables _ => "sequence"
  | datetime | inlineTable _ | table _ => "map"

namespace Table

def implicit : Table → Bool
  | mk i _ _ => i

def dotted : Table → Bool
  | mk _ d _ => d

def entries : Table → List (String × Value)
  | mk _ _ es => es

/-- A table with a header of its own. -/
def explicit : Table := mk false false []

/-- A table that something below it implies. -/
def implied (dotted : Bool) : Table := mk true dotted []

def find? (t : Table) (key : String) : Option Value := t.entries.lookup key

/-- Replaces the value of a key in its place, or adds it at the end. -/
def put (t : Table) (key : String) (v : Value) : Table :=
  if (t.find? key).isSome then
    mk t.implicit t.dotted (t.entries.map fun e => if e.1 = key then (key, v) else e)
  else mk t.implicit t.dotted (t.entries ++ [(key, v)])

def remove (t : Table) (key : String) : Table :=
  mk t.implicit t.dotted (t.entries.filter (·.1 ≠ key))

/-- Changes the table that a path leads to. Tables on the way that are not there are made, of an
array of tables the last one is meant, and a dotted path stays clear of tables with headers. -/
def update (dotted : Bool) (f : Table → Option Table) : (path : List String) → Table → Option Table
  | [], t => f t
  | key :: path, t =>
    match t.find? key with
    | none => (update dotted f path (implied dotted)).map fun s => t.put key (.table s)
    | some (.table s) =>
      if dotted && !s.implicit then none
      else (update dotted f path s).map fun s => t.put key (.table s)
    | some (.tables ss) =>
      match ss.getLast? with
      | none => none
      | some s => (update dotted f path s).map fun s => t.put key (.tables (ss.dropLast ++ [s]))
    | some _ => none

/-- Gives a key a value in the table that a dotted path leads to. -/
def insertDotted (path : List String) (key : String) (v : Value) (t : Table) : Option Table :=
  t.update true
    (fun s =>
      if s.dotted = path.isEmpty || (s.find? key).isSome then none else some (s.put key v)) path

/-- The header of a table. -/
def openTable (path : List String) (key : String) (t : Table) : Option Table :=
  t.update false
    (fun s =>
      match s.find? key with
      | none => some (s.put key (.table explicit))
      | some (.table u) =>
        if u.implicit && !u.dotted then
          some ((s.remove key).put key (.table (mk false false u.entries)))
        else none
      | some _ => none) path

/-- The header of one more table of an array. -/
def openElement (path : List String) (key : String) (t : Table) : Option Table :=
  t.update false
    (fun s =>
      match s.find? key with
      | none => some (s.put key (.tables [explicit]))
      | some (.tables ts) => some (s.put key (.tables (ts ++ [explicit])))
      | some _ => none) path

/-- Gives a key a value in an inline table; its dotted keys make inline tables. -/
def insertInline (key : String) (v : Value) : (path : List String) → Table → Option Table
  | [], t => if (t.find? key).isSome then none else some (t.put key v)
  | k :: path, t =>
    match t.find? k with
    | none => (insertInline key v path (implied true)).map fun s => t.put k (.inlineTable s)
    | some (.inlineTable s) =>
      if s.implicit then (insertInline key v path s).map fun s => t.put k (.inlineTable s)
      else none
    | some _ => none

end Table

/-- One line of a document. -/
inductive Line where
  | header (path : List String) (key : String)
  | elementHeader (path : List String) (key : String)
  | entry (path : List String) (key : String) (v : Value)

/-- The document so far, and the path of the table that entries go to. -/
structure Document where
  root : Table
  current : List String

namespace Document

def empty : Document := ⟨.explicit, []⟩

def add (d : Document) : Line → Option Document
  | .header path key => (d.root.openTable path key).map fun t => ⟨t, path ++ [key]⟩
  | .elementHeader path key => (d.root.openElement path key).map fun t => ⟨t, path ++ [key]⟩
  | .entry path key v =>
    (d.root.update false (Table.insertDotted path key v) d.current).map fun t => ⟨t, d.current⟩

def ofLines (lines : List Line) : Option Document := lines.foldlM add empty

end Document

end WorkspaceSync.Toml
