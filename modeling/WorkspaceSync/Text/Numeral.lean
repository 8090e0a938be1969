/-!
# Decimal numerals

Reading natural numbers. `digits?` refuses the empty text and anything but the ten digits.
-/

namespace WorkspaceSync.Text

def digitValue? (c : Char) : Option Nat :=
  if '0' ≤ c ∧ c ≤ '9' then some (c.toNat - 48) else none

/-- The number that digits spell after the number `n`. -/
def digitsFrom? (n : Nat) : List Char → Option Nat
  | [] => some n
  | c :: cs =>
    match digitValue? c with
    | some d => digitsFrom? (10 * n + d) cs
    | none => none

/-- The number that at least one digit spells; leading zeros are fine. -/
def digits? : List Char → Option Nat
  | [] => none
  | cs => digitsFrom? 0 cs

/-- A number below `bound`, with or without a plus sign. -/
def unsigned? (bound : Nat) (cs : List Char) : Option Nat :=
  let digits := match cs with
    | '+' :: cs => digits? cs
    | cs => digits? cs
  digits.filter (· < bound)

/-- What follows `start` in a text that begins with it. -/
def dropStart? (start : List Char) (cs : List Char) : Option (List Char) :=
  if start.isPrefixOf cs then some (cs.drop start.length) else none

end WorkspaceSync.Text
