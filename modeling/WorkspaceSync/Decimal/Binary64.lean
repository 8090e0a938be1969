/-!
# Binary floating point numbers

The non-negative numbers of the 64-bit binary format as a mantissa times a power of two, exact
quotients rounded to them, and the shortest decimal that rounds back. Where two numbers are equally
near, the caller says which one is meant. All arithmetic is on natural numbers.
-/

namespace WorkspaceSync.Decimal

/-- Which of two natural numbers is taken for a value midway between them. -/
inductive Tie where
  | even
  | up
  deriving DecidableEq, Repr

/-- The number `mantissa * 2 ^ exponent`, or infinity. -/
inductive Magnitude where
  | finite (mantissa : Nat) (exponent : Int)
  | infinite
  deriving DecidableEq, Repr

/-- A quotient of two natural numbers. -/
structure Ratio where
  num : Nat
  den : Nat
  deriving Repr

namespace Ratio

/-- `r * base ^ k` for any integer `k`. -/
def scale (r : Ratio) (base : Nat) (k : Int) : Ratio :=
  if 0 ≤ k then ⟨r.num * base.pow k.toNat, r.den⟩ else ⟨r.num, r.den * base.pow (-k).toNat⟩

def floor (r : Ratio) : Nat := r.num / r.den

/-- The nearest natural number. -/
def round (tie : Tie) (r : Ratio) : Nat :=
  let q := r.num / r.den
  let twice := 2 * (r.num % r.den)
  if twice < r.den || (twice = r.den && tie = .even && q % 2 = 0) then q else q + 1

/-- Rounding moves a quotient by half a unit at most. -/
theorem round_within_half (tie : Tie) (r : Ratio) (h : 0 < r.den) :
    2 * r.num ≤ (2 * r.round tie + 1) * r.den ∧ 2 * (r.round tie * r.den) ≤ 2 * r.num + r.den := by
  have parts := Nat.div_add_mod r.num r.den
  have small := Nat.mod_lt r.num h
  rw [Nat.mul_comm] at parts
  unfold round
  dsimp only
  split
  · rename_i down
    simp only [Bool.or_eq_true, Bool.and_eq_true, decide_eq_true_eq] at down
    rw [Nat.add_mul, Nat.mul_assoc]
    omega
  · rename_i up
    simp only [Bool.or_eq_true, decide_eq_true_eq, not_or] at up
    rw [Nat.add_mul, Nat.mul_assoc, Nat.add_mul]
    omega

def le (r s : Ratio) : Bool := r.num * s.den ≤ s.num * r.den

def lt (r s : Ratio) : Bool := r.num * s.den < s.num * r.den

end Ratio

namespace Magnitude

def zero : Magnitude := finite 0 0

/-- The least mantissa of 53 bits. -/
def minMantissa : Nat := 0x10000000000000

/-- The least exponent, that of the subnormal numbers. -/
def minExponent : Int := -1074

/-- The greatest exponent of a mantissa of 53 bits. -/
def maxExponent : Int := 971

/-- The nearest number of the format; a tie goes to the even mantissa. -/
def ofRatio (r : Ratio) : Magnitude :=
  if r.num = 0 then zero
  else
    let guess : Int := (Nat.log2 r.num : Int) - (Nat.log2 r.den : Int) - 53
    let e := if (r.scale 2 (-guess)).floor < 2 * minMantissa then guess else guess + 1
    let e := max e minExponent
    let m := (r.scale 2 (-e)).round .even
    let (m, e) := if m = 2 * minMantissa then (minMantissa, e + 1) else (m, e)
    if maxExponent < e then infinite else finite m e

/-- The nearest number to `digits * 10 ^ exponent`. Exponents far out of range are cut off. -/
def ofDecimal (digits : Nat) (exponent : Int) : Magnitude :=
  if digits = 0 then zero
  else
    let magnitude := exponent + (Nat.log2 digits / 3 : Nat)
    if 400 < exponent then infinite
    else if magnitude < -400 then zero
    else ofRatio (Ratio.scale ⟨digits, 1⟩ 10 exponent)

def ratio (m : Nat) (e : Int) : Ratio := Ratio.scale ⟨m, 1⟩ 2 e

def mul : Magnitude → Magnitude → Magnitude
  | finite m e, finite n f => ofRatio (ratio (m * n) (e + f))
  | _, _ => infinite

/-- The quotient by a number that is not zero. -/
def div : Magnitude → Magnitude → Magnitude
  | finite m e, finite n f => ofRatio (Ratio.scale ⟨m, n⟩ 2 (e - f))
  | _, _ => zero

end Magnitude

/-- The number `digits * 10 ^ exponent`. -/
structure Digits where
  digits : Nat
  exponent : Int
  deriving DecidableEq, Repr

namespace Digits

/-- From the unit `10 ^ unit` down: the first unit of which a multiple lies in the interval of the
numbers that round to `value`, and of its two multiples next to `value` the nearer one. -/
def search (tie : Tie) (value low high : Ratio) (ends : Bool) : (steps : Nat) → (unit : Int) → Digits
  | 0, unit => ⟨(value.scale 10 (-unit)).round tie, unit⟩
  | steps + 1, unit =>
    let below := (value.scale 10 (-unit)).floor
    let at' (n : Nat) : Ratio := Ratio.scale ⟨n, 1⟩ 10 unit
    let fits (n : Nat) : Bool :=
      n ≠ 0 && (if ends then low.le (at' n) && (at' n).le high
        else low.lt (at' n) && (at' n).lt high)
    let nearest := (value.scale 10 (-unit)).round tie
    if fits nearest then ⟨nearest, unit⟩
    else if fits below then ⟨below, unit⟩
    else if fits (below + 1) then ⟨below + 1, unit⟩
    else search tie value low high ends steps (unit - 1)

/-- The fewest digits that round back to `mantissa * 2 ^ exponent`, and of those the nearest. -/
def shortest (tie : Tie) (mantissa : Nat) (exponent : Int) : Digits :=
  if mantissa = 0 then ⟨0, 0⟩
  else
    let value := Magnitude.ratio (4 * mantissa) (exponent - 2)
    let gap := if mantissa = Magnitude.minMantissa && Magnitude.minExponent < exponent then 1 else 2
    let low := Magnitude.ratio (4 * mantissa - gap) (exponent - 2)
    let high := Magnitude.ratio (4 * mantissa + 2) (exponent - 2)
    let bits : Int := (Nat.log2 mantissa : Int) + exponent + 1
    search tie value low high (mantissa % 2 = 0) 40 (bits * 30103 / 100000 + 1)

/-- The digits as characters. -/
def chars (d : Digits) : List Char := Nat.toDigits 10 d.digits

/-- All digits in place, without an exponent. -/
def positional (d : Digits) : List Char :=
  let cs := d.chars
  if 0 ≤ d.exponent then cs ++ List.replicate d.exponent.toNat '0'
  else
    let places := (-d.exponent).toNat
    let padded := List.replicate (places + 1 - cs.length) '0' ++ cs
    padded.take (padded.length - places) ++ '.' :: padded.drop (padded.length - places)

/-- One digit, a point where more follow, and the power of ten with its sign. -/
def scientific (d : Digits) : List Char :=
  match d.chars with
  | [] => []
  | c :: cs =>
    let power := d.exponent + cs.length
    let mantissa := if cs.isEmpty then [c] else c :: '.' :: cs
    mantissa ++ 'e' :: (if power < 0 then '-' else '+') :: Nat.toDigits 10 power.natAbs

/-- The number of digits before the point, where a negative count tells zeros after it. -/
def pointPosition (d : Digits) : Int := d.exponent + d.chars.length

end Digits

end WorkspaceSync.Decimal
