import WorkspaceSync.Decimal.Binary64
import WorkspaceSync.Text.Quoted

/-!
# JSON values

Values as they stand in a text: members of an object in document order, repeated or not, and
numbers as integers where they are written as such and fit 64 bits, else as binary floating point
numbers. `Json.member?` is the view that decoders take of an object.
-/

namespace WorkspaceSync

namespace Json

inductive Number where
  | natural (n : Nat)
  /-- The number `-n`. -/
  | negative (n : Nat)
  | float (negative : Bool) (magnitude : Decimal.Magnitude)
  deriving DecidableEq, Repr

end Json

inductive Json where
  | null
  | bool (b : Bool)
  | number (n : Json.Number)
  | string (s : String)
  | array (items : List Json)
  | object (members : List (String × Json))
  deriving Repr

instance : Inhabited Json := ⟨.null⟩

namespace Json

namespace Number

/-- How a floating point number is written: with a point up to sixteen digits before it and five
zeros after it, else with a power of ten. Of two shortest texts equally near, the one that ends in
an even digit. -/
def floatText (negative : Bool) (m : Decimal.Magnitude) : String :=
  let sign := if negative then "-" else ""
  match m with
  | .infinite => sign ++ "inf"
  | .finite 0 _ => sign ++ "0.0"
  | .finite mantissa exponent =>
    let d := Decimal.Digits.shortest .even mantissa exponent
    let place := d.pointPosition
    let body :=
      if 0 ≤ d.exponent ∧ place ≤ 16 then d.positional ++ ['.', '0']
      else if -5 < place ∧ place ≤ 16 then d.positional
      else d.scientific
    sign ++ String.ofList body

def text : Number → String
  | natural n => toString n
  | negative n => "-" ++ toString n
  | float s m => floatText s m

end Number

/-- How a value is described where another kind of value was expected. -/
def description : Json → String
  | null => "null"
  | bool b => s!"boolean `{b}`"
  | number (.float s m) => s!"floating point `{Number.floatText s m}`"
  | number n => s!"integer `{n.text}`"
  | string s => s!"string {Text.quoted s}"
  | array _ => "sequence"
  | object _ => "map"

/-- The last value of a member. -/
def member? (name : String) (members : List (String × Json)) : Option Json :=
  (members.reverse.find? (·.1 = name)).map (·.2)

end Json

end WorkspaceSync
