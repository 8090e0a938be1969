import WorkspaceSync.Toml.Basic
import WorkspaceSync.Text.Numeral

/-!
# TOML scalars

Strings in their four spellings, numbers, dates and times. A scan yields a part of a text and the
rest, or nothing where the part is not spelt so.
-/

namespace WorkspaceSync.Toml

def isBlank (c : Char) : Bool := c == ' ' || c == '\t'

def skipBlanks (cs : List Char) : List Char := cs.dropWhile isBlank

/-- The rest after a given beginning. -/
def expect (start cs : List Char) : Option (List Char) := Text.dropStart? start cs

/-- A line feed, alone or after a carriage return. -/
def skipNewline? : List Char → Option (List Char)
  | '\n' :: cs => some cs
  | '\r' :: '\n' :: cs => some cs
  | _ => none

theorem skipNewline?_length {cs rest : List Char} (h : skipNewline? cs = some rest) :
    rest.length < cs.length := by
  unfold skipNewline? at h
  split at h
  · cases h; simp
  · cases h; simp only [List.length_cons]; omega
  · cases h

/-- Characters that may stand in comments and strings: no controls but the tab. -/
def isPlain (c : Char) : Bool := c == '\t' || (0x20 ≤ c.toNat && c.toNat ≠ 0x7F)

def isDigit (c : Char) : Bool := '0' ≤ c && c ≤ '9'

def isHexDigit (c : Char) : Bool := isDigit c || ('a' ≤ c && c ≤ 'f') || ('A' ≤ c && c ≤ 'F')

def digitValue (c : Char) : Nat :=
  if isDigit c then c.toNat - 48 else if 'a' ≤ c then c.toNat - 87 else c.toNat - 55

def number (base : Nat) (ds : List Char) : Nat := ds.foldl (fun n c => base * n + digitValue c) 0

/-! ## Strings -/

/-- A character by its code point, with a fixed number of hexadecimal digits. -/
def scanCodePoint (digits : Nat) (cs : List Char) : Option (Char × List Char) :=
  let ds := cs.take digits
  if ds.length = digits && ds.all isHexDigit then
    let n := number 16 ds
    if n.isValidChar then some (Char.ofNat n, cs.drop digits) else none
  else none

/-- What follows the backslash of an escape. -/
def scanEscape : List Char → Option (Char × List Char)
  | [] => none
  | c :: cs =>
    if c = '"' || c = '\\' then some (c, cs)
    else if c = 'b' then some (Char.ofNat 8, cs)
    else if c = 'f' then some (Char.ofNat 12, cs)
    else if c = 'n' then some ('\n', cs)
    else if c = 'r' then some ('\r', cs)
    else if c = 't' then some ('\t', cs)
    else if c = 'u' then scanCodePoint 4 cs
    else if c = 'U' then scanCodePoint 8 cs
    else none

theorem scanCodePoint_length {n : Nat} {cs rest : List Char} {c : Char}
    (h : scanCodePoint n cs = some (c, rest)) : rest.length ≤ cs.length := by
  unfold scanCodePoint at h
  dsimp only at h
  split at h
  · split at h
    · obtain ⟨-, rfl⟩ := Prod.mk.inj (Option.some.inj h)
      simp
    · cases h
  · cases h

theorem scanEscape_length {cs rest : List Char} {c : Char} (h : scanEscape cs = some (c, rest)) :
    rest.length < cs.length := by
  unfold scanEscape at h
  split at h
  · cases h
  · rename_i d ds
    have simple {e : Char} (h : some (e, ds) = some (c, rest)) :
        rest.length < (d :: ds).length := by
      obtain ⟨-, rfl⟩ := Prod.mk.inj (Option.some.inj h)
      simp
    have coded {n : Nat} (h : scanCodePoint n ds = some (c, rest)) :
        rest.length < (d :: ds).length := Nat.lt_succ_of_le (scanCodePoint_length h)
    repeat' split at h
    all_goals first
      | exact simple h
      | exact coded h
      | cases h

/-- The rest of a string in single quotation marks of its kind, on one line and without escapes. -/
def scanLiteral (cs : List Char) : Option (String × List Char) :=
  let body := cs.takeWhile fun c => isPlain c && c ≠ '\x27'
  match cs.drop body.length with
  | '\x27' :: rest => some (String.ofList body, rest)
  | _ => none

/-- The rest of a string on one line, with escapes. -/
def scanBasic (acc : List Char) (cs : List Char) : Option (String × List Char) :=
  match cs with
  | [] => none
  | '"' :: rest => some (String.ofList acc.reverse, rest)
  | '\\' :: rest =>
    match h : scanEscape rest with
    | none => none
    | some (c, rest') =>
      have := scanEscape_length h
      scanBasic (c :: acc) rest'
  | c :: rest => if isPlain c then scanBasic (c :: acc) rest else none
termination_by cs.length
decreasing_by all_goals simp only [List.length_cons]; omega

/-- A run of three to five quotation marks ends a string of several lines; those beyond three belong
to it. -/
def closing (quote : Char) (acc cs : List Char) : Option (String × List Char) :=
  let run := (cs.takeWhile (· = quote)).length
  if 3 ≤ run ∧ run ≤ 5 then
    some (String.ofList (acc.reverse ++ List.replicate (run - 3) quote), cs.drop run)
  else none

/-- The text from the first character on that is neither a blank nor a line end. -/
def skipWhite : List Char → List Char
  | [] => []
  | '\r' :: '\n' :: cs => skipWhite cs
  | c :: cs => if isBlank c || c = '\n' then skipWhite cs else c :: cs

theorem skipWhite_length (cs : List Char) : (skipWhite cs).length ≤ cs.length := by
  fun_induction skipWhite cs with
  | case1 => simp
  | case2 cs ih => simp only [List.length_cons]; omega
  | case3 c cs _ _ ih => simp only [List.length_cons]; omega
  | case4 => simp

/-- The rest of a string of several lines without escapes. -/
def scanMultiLiteral (acc : List Char) (cs : List Char) : Option (String × List Char) :=
  match cs with
  | [] => none
  | '\r' :: '\n' :: rest => scanMultiLiteral ('\n' :: acc) rest
  | '\x27' :: '\x27' :: '\x27' :: rest => closing '\x27' acc ('\x27' :: '\x27' :: '\x27' :: rest)
  | c :: rest => if isPlain c || c = '\n' then scanMultiLiteral (c :: acc) rest else none
termination_by cs.length

/-- Where a backslash ends a line: the text from the next character on that is not white. -/
def skipLineEnd? (cs : List Char) : Option (List Char) :=
  (skipNewline? (skipBlanks cs)).map skipWhite

theorem skipLineEnd?_length {cs rest : List Char} (h : skipLineEnd? cs = some rest) :
    rest.length ≤ cs.length := by
  unfold skipLineEnd? at h
  obtain ⟨r, hr, rfl⟩ := Option.map_eq_some_iff.1 h
  have h₁ := (List.dropWhile_sublist (l := cs) isBlank).length_le
  have h₂ := skipWhite_length r
  have h₃ := Nat.le_of_lt (skipNewline?_length hr)
  exact Nat.le_trans h₂ (Nat.le_trans h₃ h₁)

/-- The rest of a string of several lines with escapes. -/
def scanMultiBasic (acc : List Char) (cs : List Char) : Option (String × List Char) :=
  match cs with
  | [] => none
  | '\r' :: '\n' :: rest => scanMultiBasic ('\n' :: acc) rest
  | '"' :: '"' :: '"' :: rest => closing '"' acc ('"' :: '"' :: '"' :: rest)
  | '\\' :: rest =>
    match hl : skipLineEnd? rest with
    | some rest' =>
      have := skipLineEnd?_length hl
      scanMultiBasic acc rest'
    | none =>
      match h : scanEscape rest with
      | none => none
      | some (c, rest') =>
        have := scanEscape_length h
        scanMultiBasic (c :: acc) rest'
  | c :: rest => if isPlain c || c = '\n' then scanMultiBasic (c :: acc) rest else none
termination_by cs.length
decreasing_by all_goals simp only [List.length_cons]; omega

/-- A line end right after the opening marks is not part of the string. -/
def skipFirstNewline (cs : List Char) : List Char := (skipNewline? cs).getD cs

/-- A string on one line, as it may also stand for a key. -/
def scanLineString : List Char → Option (String × List Char)
  | '"' :: cs => scanBasic [] cs
  | '\x27' :: cs => scanLiteral cs
  | _ => none

def scanString (cs : List Char) : Option (String × List Char) :=
  match cs with
  | '"' :: '"' :: '"' :: rest => scanMultiBasic [] (skipFirstNewline rest)
  | '\x27' :: '\x27' :: '\x27' :: rest => scanMultiLiteral [] (skipFirstNewline rest)
  | cs => scanLineString cs

/-! ## Numbers -/

/-- Digits, of which single underscores may stand between two. -/
def scanDigits (isDigit : Char → Bool) : List Char → Option (List Char × List Char)
  | [] => none
  | [c] => if isDigit c then some ([c], []) else none
  | c :: '_' :: cs =>
    if isDigit c then (scanDigits isDigit cs).map fun (ds, rest) => (c :: ds, rest) else none
  | c :: d :: cs =>
    if isDigit c then
      if isDigit d then (scanDigits isDigit (d :: cs)).map fun (ds, rest) => (c :: ds, rest)
      else some ([c], d :: cs)
    else none

/-- A sign, which a number may go without; true is minus. -/
def scanSign : List Char → Bool × List Char
  | '-' :: cs => (true, cs)
  | '+' :: cs => (false, cs)
  | cs => (false, cs)

/-- The digits of an integer: zero, or digits that begin with another one. -/
def scanWhole : List Char → Option (List Char × List Char)
  | '0' :: cs => some (['0'], cs)
  | cs => scanDigits isDigit cs

/-- Integers have 64 bits. -/
def inRange (n : Int) : Bool := -0x8000000000000000 ≤ n && n < 0x8000000000000000

def integerOf (n : Int) (rest : List Char) : Option (Value × List Char) :=
  if inRange n then some (.integer n, rest) else none

def scanBased (base : Nat) (isDigit : Char → Bool) (cs : List Char) : Option (Value × List Char) := do
  let (ds, rest) ← scanDigits isDigit cs
  integerOf (number base ds) rest

def scanInteger (cs : List Char) : Option (Value × List Char) :=
  match cs with
  | '0' :: 'x' :: cs => scanBased 16 isHexDigit cs
  | '0' :: 'o' :: cs => scanBased 8 (fun c => '0' ≤ c && c ≤ '7') cs
  | '0' :: 'b' :: cs => scanBased 2 (fun c => c == '0' || c == '1') cs
  | cs => do
    let (negative, cs) := scanSign cs
    let (ds, rest) ← scanWhole cs
    let n : Int := number 10 ds
    integerOf (if negative then -n else n) rest

/-- The power of ten of a number that has one. -/
def scanExponent : List Char → Option (Int × List Char)
  | c :: cs =>
    if c = 'e' || c = 'E' then do
      let (negative, cs) := scanSign cs
      let (ds, rest) ← scanDigits isDigit cs
      let n : Int := number 10 ds
      pure (if negative then -n else n, rest)
    else none
  | [] => none

def floatOf (negative : Bool) (digits : List Char) (exponent : Int) : Option Value :=
  let m := Decimal.Magnitude.ofDecimal (number 10 digits) exponent
  if m = .infinite && !negative then none else some (.float (.number negative m))

def scanFloat (cs : List Char) : Option (Value × List Char) := do
  let (negative, cs) := scanSign cs
  match expect ['i', 'n', 'f'] cs, expect ['n', 'a', 'n'] cs with
  | some rest, _ => pure (.float (.number negative .infinite), rest)
  | _, some rest => pure (.float .nan, rest)
  | none, none =>
    let (whole, cs) ← scanWhole cs
    match cs with
    | '.' :: cs =>
      let (places, cs) ← scanDigits isDigit cs
      let (exponent, cs) := (scanExponent cs).getD (0, cs)
      let v ← floatOf negative (whole ++ places) (exponent - places.length)
      pure (v, cs)
    | cs =>
      let (exponent, cs) ← scanExponent cs
      let v ← floatOf negative whole exponent
      pure (v, cs)

/-! ## Dates and times -/

/-- A number of a fixed count of digits within bounds. -/
def scanField (digits least most : Nat) (cs : List Char) : Option (Nat × List Char) :=
  let ds := cs.take digits
  let n := number 10 ds
  if ds.length = digits && ds.all isDigit && least ≤ n && n ≤ most then some (n, cs.drop digits)
  else none

def daysIn (year month : Nat) : Nat :=
  if month = 2 then if year % 4 = 0 ∧ (year % 100 ≠ 0 ∨ year % 400 = 0) then 29 else 28
  else if month = 4 ∨ month = 6 ∨ month = 9 ∨ month = 11 then 30
  else 31

def skipDate? (cs : List Char) : Option (List Char) := do
  let (year, cs) ← scanField 4 0 9999 cs
  let cs ← expect ['-'] cs
  let (month, cs) ← scanField 2 1 12 cs
  let cs ← expect ['-'] cs
  let (_, cs) ← scanField 2 1 (daysIn year month) cs
  pure cs

/-- A fraction of a second, if there is one. -/
def skipFraction : List Char → List Char
  | '.' :: cs => if (cs.head?.map isDigit).getD false then cs.dropWhile isDigit else '.' :: cs
  | cs => cs

def skipTime? (cs : List Char) : Option (List Char) := do
  let (_, cs) ← scanField 2 0 23 cs
  let cs ← expect [':'] cs
  let (_, cs) ← scanField 2 0 59 cs
  let cs ← expect [':'] cs
  let (_, cs) ← scanField 2 0 60 cs
  pure (skipFraction cs)

/-- The distance from universal time, if there is one. -/
def skipOffset (cs : List Char) : List Char :=
  match cs with
  | c :: rest =>
    if c = 'Z' || c = 'z' then rest
    else if c = '+' || c = '-' then
      (do
        let (_, rest) ← scanField 2 0 23 rest
        let rest ← expect [':'] rest
        let (_, rest) ← scanField 2 0 59 rest
        pure rest).getD cs
    else cs
  | [] => cs

/-- A date with or without a time and an offset, or a time alone. -/
def skipDatetime? (cs : List Char) : Option (List Char) :=
  match skipDate? cs with
  | some rest =>
    match rest with
    | c :: time =>
      if c = 'T' || c = 't' || c = ' ' then
        match skipTime? time with
        | some rest => some (skipOffset rest)
        | none => some rest
      else some rest
    | [] => some []
  | none => skipTime? cs

/-- A value that begins with a digit, a sign or the letter of a special number. -/
def scanNumber (cs : List Char) : Option (Value × List Char) :=
  match skipDatetime? cs with
  | some rest => some (.datetime, rest)
  | none => scanFloat cs <|> scanInteger cs

/-- A value without parts. -/
def scanScalar (cs : List Char) : Option (Value × List Char) :=
  match cs with
  | [] => none
  | c :: _ =>
    if c = '"' || c = '\x27' then (scanString cs).map fun (s, rest) => (.string s, rest)
    else if c = 't' then (expect "true".toList cs).map (.boolean true, ·)
    else if c = 'f' then (expect "false".toList cs).map (.boolean false, ·)
    else if isDigit c || c = '+' || c = '-' || c = 'i' || c = 'n' then scanNumber cs
    else none

end WorkspaceSync.Toml
