import WorkspaceSync.Json.Basic
import WorkspaceSync.Text.Numeral

/-!
# JSON tokens

A text is cut into tokens; the first spelling fault ends the cutting and is itself a token, so that
the machine that follows decides whether an earlier fault in the order of tokens comes first.

Spelling and meaning are apart: a string may be well spelt and yet stand for no text, and a number
may be out of range. Who skips a value minds its spelling only.
-/

namespace WorkspaceSync.Json

inductive SyntaxError where
  | eofInList
  | eofInObject
  | eofInString
  | eofInValue
  | expectedColon
  | expectedListCommaOrEnd
  | expectedObjectCommaOrEnd
  | expectedIdent
  | expectedValue
  | invalidEscape
  | invalidNumber
  | numberOutOfRange
  | controlCharacter
  | keyMustBeString
  | loneSurrogate
  | trailingComma
  | trailingCharacters
  | unexpectedEndOfHexEscape
  | recursionLimit
  deriving DecidableEq, Repr

def SyntaxError.message : SyntaxError → String
  | eofInList => "EOF while parsing a list"
  | eofInObject => "EOF while parsing an object"
  | eofInString => "EOF while parsing a string"
  | eofInValue => "EOF while parsing a value"
  | expectedColon => "expected `:`"
  | expectedListCommaOrEnd => "expected `,` or `]`"
  | expectedObjectCommaOrEnd => "expected `,` or `\x7d`"
  | expectedIdent => "expected ident"
  | expectedValue => "expected value"
  | invalidEscape => "invalid escape"
  | invalidNumber => "invalid number"
  | numberOutOfRange => "number out of range"
  | controlCharacter => "control character (\\u0000-\\u001F) found while parsing a string"
  | keyMustBeString => "key must be a string"
  | loneSurrogate => "lone leading surrogate in hex escape"
  | trailingComma => "trailing comma"
  | trailingCharacters => "trailing characters"
  | unexpectedEndOfHexEscape => "unexpected end of hex escape"
  | recursionLimit => "recursion limit exceeded"

/-- What is wrong with a token that is misspelt, to those who want its value and to those who skip
it. -/
structure Misspelling where
  toReader : SyntaxError
  toSkipper : SyntaxError
  deriving DecidableEq, Repr

inductive Token where
  | openArray
  | closeArray
  | openObject
  | closeObject
  | comma
  | colon
  /-- A string that is well spelt, and the text that it stands for. -/
  | string (s : Except SyntaxError String)
  /-- A number or one of the three words, and its value. -/
  | scalar (j : Except SyntaxError Json)
  /-- A string that is misspelt. -/
  | badString (f : Misspelling)
  /-- A number or a word that is misspelt. -/
  | badScalar (f : Misspelling)
  /-- A character that begins no token. -/
  | stray
  deriving Repr

/-- What a scan of a part of a text yields: the part and the rest. -/
abbrev Scan (α : Type) := Except SyntaxError (α × List Char)

/-- The same scan with its part read as something else. -/
def Scan.mapTo {α β : Type} (f : α → β) : Scan α → Scan β
  | .ok (a, rest) => .ok (f a, rest)
  | .error e => .error e

theorem Scan.mapTo_eq_ok {α β : Type} {f : α → β} {s : Scan α} {b : β} {rest : List Char}
    (h : Scan.mapTo f s = .ok (b, rest)) : ∃ a, s = .ok (a, rest) := by
  unfold Scan.mapTo at h
  split at h
  · obtain ⟨-, rfl⟩ := Prod.mk.inj (Except.ok.inj h)
    exact ⟨_, rfl⟩
  · cases h

def isSpace (c : Char) : Bool := c == ' ' || c == '\n' || c == '\t' || c == '\r'

def hexValue? (c : Char) : Option Nat :=
  if '0' ≤ c ∧ c ≤ '9' then some (c.toNat - 48)
  else if 'a' ≤ c ∧ c ≤ 'f' then some (c.toNat - 87)
  else if 'A' ≤ c ∧ c ≤ 'F' then some (c.toNat - 55)
  else none

/-- What is wrong where four hexadecimal digits are not there: it is the end only if fewer than four
bytes are left. -/
def hexFault (cs : List Char) : SyntaxError :=
  if 4 ≤ ((cs.take 4).map Char.utf8Size).foldl (· + ·) 0 then .invalidEscape else .eofInString

/-- Four hexadecimal digits. -/
def scanHex : List Char → Scan Nat
  | a :: b :: c :: d :: rest =>
    match hexValue? a, hexValue? b, hexValue? c, hexValue? d with
    | some a, some b, some c, some d => .ok (4096 * a + 256 * b + 16 * c + d, rest)
    | _, _, _, _ => .error .invalidEscape
  | cs => .error (hexFault cs)

/-- The character that a leading surrogate and the escape after it stand for. -/
def scanTrailing (lead : Nat) : List Char → Scan Char
  | '\\' :: 'u' :: cs =>
    match scanHex cs with
    | .error e => .error e
    | .ok (n, rest) =>
      if 0xDC00 ≤ n ∧ n ≤ 0xDFFF then
        .ok (Char.ofNat ((lead - 0xD800) * 0x400 + (n - 0xDC00) + 0x10000), rest)
      else .error .loneSurrogate
  | [] | ['\\'] => .error .eofInString
  | _ => .error .unexpectedEndOfHexEscape

/-- What follows the `u` of an escape: one code unit, or the first of a pair of surrogates. -/
def scanUnicode (cs : List Char) : Scan Char :=
  match scanHex cs with
  | .error e => .error e
  | .ok (n, rest) =>
    if 0xDC00 ≤ n ∧ n ≤ 0xDFFF then .error .loneSurrogate
    else if 0xD800 ≤ n ∧ n ≤ 0xDBFF then scanTrailing n rest
    else .ok (Char.ofNat n, rest)

/-- The escapes of one letter. -/
def letterEscape? (c : Char) : Option Char :=
  if c = '"' ∨ c = '\\' ∨ c = '/' then some c
  else if c = 'b' then some (Char.ofNat 8)
  else if c = 'f' then some (Char.ofNat 12)
  else if c = 'n' then some '\n'
  else if c = 'r' then some '\r'
  else if c = 't' then some '\t'
  else none

/-- What follows the backslash of an escape. -/
def scanEscape : List Char → Scan Char
  | [] => .error .eofInString
  | c :: rest =>
    if c = 'u' then scanUnicode rest
    else
      match letterEscape? c with
      | some d => .ok (d, rest)
      | none => .error .invalidEscape

theorem scanHex_length {cs rest : List Char} {n : Nat} (h : scanHex cs = .ok (n, rest)) :
    rest.length < cs.length := by
  unfold scanHex at h
  split at h
  · split at h
    · simp only [Except.ok.injEq, Prod.mk.injEq] at h
      simp only [← h.2, List.length_cons]
      omega
    · simp at h
  · simp at h

theorem scanTrailing_length {lead : Nat} {cs rest : List Char} {c : Char}
    (h : scanTrailing lead cs = .ok (c, rest)) : rest.length < cs.length := by
  unfold scanTrailing at h
  split at h
  · split at h
    · cases h
    · rename_i hx
      split at h
      · obtain ⟨-, rfl⟩ := Prod.mk.inj (Except.ok.inj h)
        have := scanHex_length hx
        simp only [List.length_cons]
        omega
      · cases h
  all_goals cases h

theorem scanUnicode_length {cs rest : List Char} {c : Char}
    (h : scanUnicode cs = .ok (c, rest)) : rest.length < cs.length := by
  unfold scanUnicode at h
  split at h
  · cases h
  · rename_i hx
    have := scanHex_length hx
    split at h
    · cases h
    · split at h
      · exact Nat.lt_trans (scanTrailing_length h) this
      · obtain ⟨-, rfl⟩ := Prod.mk.inj (Except.ok.inj h)
        exact this

theorem scanEscape_length {cs rest : List Char} {c : Char} (h : scanEscape cs = .ok (c, rest)) :
    rest.length < cs.length := by
  unfold scanEscape at h
  split at h
  · cases h
  · split at h
    · simpa using Nat.lt_succ_of_lt (scanUnicode_length h)
    · split at h
      · cases h
        simp
      · cases h

/-- The rest of a string after its opening quote. -/
def scanString (acc : List Char) (cs : List Char) : Scan String :=
  match cs with
  | [] => .error .eofInString
  | '"' :: rest => .ok (String.ofList acc.reverse, rest)
  | '\\' :: rest =>
    match h : scanEscape rest with
    | .error e => .error e
    | .ok (c, rest') =>
      have := scanEscape_length h
      scanString (c :: acc) rest'
  | c :: rest => if c.toNat < 0x20 then .error .controlCharacter else scanString (c :: acc) rest
termination_by cs.length
decreasing_by
  · simp only [List.length_cons]; omega
  · simp

/-- What follows the backslash of an escape that is skipped: a surrogate may stand alone. -/
def skipEscape : List Char → Scan Unit
  | [] => .error .eofInString
  | c :: rest =>
    if c = 'u' then Scan.mapTo (fun _ => ()) (scanHex rest)
    else
      match letterEscape? c with
      | some _ => .ok ((), rest)
      | none => .error .invalidEscape

theorem skipEscape_length {cs rest : List Char} (h : skipEscape cs = .ok ((), rest)) :
    rest.length < cs.length := by
  unfold skipEscape at h
  split at h
  · cases h
  · split at h
    · obtain ⟨_, hx⟩ := Scan.mapTo_eq_ok h
      simpa using Nat.lt_succ_of_lt (scanHex_length hx)
    · split at h
      · cases h
        simp
      · cases h

/-- Skips the rest of a string after its opening quote. -/
def skipString (cs : List Char) : Scan Unit :=
  match cs with
  | [] => .error .eofInString
  | '"' :: rest => .ok ((), rest)
  | '\\' :: rest =>
    match h : skipEscape rest with
    | .error e => .error e
    | .ok ((), rest') =>
      have := skipEscape_length h
      skipString rest'
  | c :: rest => if c.toNat < 0x20 then .error .controlCharacter else skipString rest
termination_by cs.length
decreasing_by
  · simp only [List.length_cons]; omega
  · simp

theorem skipString_length {cs rest : List Char} (h : skipString cs = .ok ((), rest)) :
    rest.length < cs.length := by
  fun_induction skipString cs with
  | case1 => cases h
  | case2 rest' =>
    obtain ⟨-, rfl⟩ := Prod.mk.inj (Except.ok.inj h)
    simp
  | case3 => cases h
  | case4 rest' rest'' he hlt ih =>
    have := ih h
    simp only [List.length_cons]
    omega
  | case5 => cases h
  | case6 c rest' _ _ _ ih => simpa using Nat.lt_succ_of_lt (ih h)

def isDigit (c : Char) : Bool := '0' ≤ c && c ≤ '9'

/-- The digits at the front, and the rest. -/
def spanDigits (cs : List Char) : List Char × List Char :=
  (cs.takeWhile isDigit, cs.dropWhile isDigit)

/-- A number as it is spelt: the digits before and after the point, and the power of ten. -/
structure Numeral where
  negative : Bool
  whole : List Char
  fraction : Option (List Char)
  exponent : Option Int

/-- At least one digit. -/
def scanDigits (cs : List Char) : Scan (List Char) :=
  match spanDigits cs with
  | ([], []) => .error .eofInValue
  | ([], _) => .error .invalidNumber
  | (ds, rest) => .ok (ds, rest)

/-- Digits that begin with zero only if nothing follows it. -/
def scanWhole (cs : List Char) : Scan (List Char) :=
  match scanDigits cs with
  | .ok ('0' :: _ :: _, _) => .error .invalidNumber
  | r => r

def scanFraction : List Char → Scan (Option (List Char))
  | '.' :: cs => Scan.mapTo some (scanDigits cs)
  | cs => .ok (none, cs)

def natOfDigits (ds : List Char) : Nat := (Text.digits? ds).getD 0

def scanExponent : List Char → Scan (Option Int)
  | c :: cs =>
    if c = 'e' ∨ c = 'E' then
      match cs with
      | '-' :: cs => Scan.mapTo (fun ds => some (-(natOfDigits ds : Int))) (scanDigits cs)
      | '+' :: cs => Scan.mapTo (fun ds => some (natOfDigits ds : Int)) (scanDigits cs)
      | cs => Scan.mapTo (fun ds => some (natOfDigits ds : Int)) (scanDigits cs)
    else .ok (none, c :: cs)
  | [] => .ok (none, [])

def scanNumeral (cs : List Char) : Scan Numeral :=
  let (negative, unsigned) := match cs with
    | '-' :: cs => (true, cs)
    | cs => (false, cs)
  match scanWhole unsigned with
  | .error e => .error e
  | .ok (whole, rest) =>
    match scanFraction rest with
    | .error e => .error e
    | .ok (fraction, rest) =>
      match scanExponent rest with
      | .error e => .error e
      | .ok (exponent, rest) => .ok (⟨negative, whole, fraction, exponent⟩, rest)

theorem scanDigits_length {cs ds rest : List Char} (h : scanDigits cs = .ok (ds, rest)) :
    rest.length < cs.length := by
  unfold scanDigits at h
  split at h
  · cases h
  · cases h
  · rename_i ds' rest' hne hs
    obtain ⟨rfl, rfl⟩ := Prod.mk.inj (Except.ok.inj h)
    obtain ⟨rfl, rfl⟩ := Prod.mk.inj hs
    have hcs := List.takeWhile_append_dropWhile (p := isDigit) (l := cs)
    have : (cs.takeWhile isDigit).length ≠ 0 := fun h0 => by
      have := List.length_eq_zero_iff.1 h0
      cases hd : cs.dropWhile isDigit with
      | nil => simp_all
      | cons c r => exact hne (this ▸ rfl)
    have := congrArg List.length hcs
    simp only [List.length_append] at this
    omega

theorem scanWhole_length {cs ds rest : List Char} (h : scanWhole cs = .ok (ds, rest)) :
    rest.length < cs.length := by
  unfold scanWhole at h
  split at h
  · cases h
  · exact scanDigits_length h

theorem mapTo_scanDigits_length {α : Type} {f : List Char → α} {cs rest : List Char} {a : α}
    (h : Scan.mapTo f (scanDigits cs) = .ok (a, rest)) : rest.length < cs.length :=
  (Scan.mapTo_eq_ok h).elim fun _ hd => scanDigits_length hd

theorem scanFraction_length {cs rest : List Char} {d : Option (List Char)}
    (h : scanFraction cs = .ok (d, rest)) : rest.length ≤ cs.length := by
  unfold scanFraction at h
  split at h
  · exact Nat.le_of_lt (Nat.lt_succ_of_lt (mapTo_scanDigits_length h))
  · obtain ⟨-, rfl⟩ := Prod.mk.inj (Except.ok.inj h)
    exact Nat.le_refl _

theorem scanExponent_length {cs rest : List Char} {x : Option Int}
    (h : scanExponent cs = .ok (x, rest)) : rest.length ≤ cs.length := by
  unfold scanExponent at h
  split at h
  · split at h
    · split at h
      all_goals
        have := mapTo_scanDigits_length h
        simp only [List.length_cons] at *
        omega
    · obtain ⟨-, rfl⟩ := Prod.mk.inj (Except.ok.inj h)
      exact Nat.le_refl _
  · obtain ⟨-, rfl⟩ := Prod.mk.inj (Except.ok.inj h)
    exact Nat.le_refl _

theorem scanNumeral_length {cs rest : List Char} {n : Numeral}
    (h : scanNumeral cs = .ok (n, rest)) : rest.length < cs.length := by
  unfold scanNumeral at h
  split at h
  rename_i negative unsigned hu
  have hle : unsigned.length ≤ cs.length := by
    split at hu <;> obtain ⟨-, rfl⟩ := Prod.mk.inj hu <;> simp
  split at h
  · cases h
  · rename_i hw
    have := scanWhole_length hw
    split at h
    · cases h
    · rename_i hf
      have := scanFraction_length hf
      split at h
      · cases h
      · rename_i hx
        have := scanExponent_length hx
        obtain ⟨-, rfl⟩ := Prod.mk.inj (Except.ok.inj h)
        omega

/-- Integers up to this one are kept exactly. -/
def maxNatural : Nat := 0xFFFFFFFFFFFFFFFF

/-- Adds digits to a number as long as it fits 64 bits; tells how many were left out. -/
def gather (n : Nat) : List Char → Nat × Nat
  | [] => (n, 0)
  | c :: cs =>
    let m := 10 * n + (c.toNat - 48)
    if m ≤ maxNatural then gather m cs else (n, cs.length + 1)

/-- The floating point number `n * 10 ^ exponent`, by one multiplication or by divisions by powers
of ten, each of them rounded. -/
def scalePower (n : Decimal.Magnitude) (exponent : Int) : Decimal.Magnitude :=
  if 308 < exponent then if n = .zero then n else .infinite
  else if 0 ≤ exponent then n.mul (.ofDecimal 1 exponent)
  else if -308 ≤ exponent then n.div (.ofDecimal 1 (-exponent))
  else
    match n with
    | .finite 0 _ => n
    | n => scalePower (n.div (.ofDecimal 1 308)) (exponent + 308)
termination_by exponent.natAbs
decreasing_by omega

namespace Numeral

/-- The number: exact where it is an integer of at most 64 bits, else in floating point, of which
only as many digits count as fit 64 bits. -/
def value (n : Numeral) : Except SyntaxError Number :=
  let (whole, dropped) := gather 0 n.whole
  match n.fraction, n.exponent, dropped with
  | none, none, 0 =>
    if n.negative then
      if 0 < whole ∧ whole ≤ 0x8000000000000000 then .ok (.negative whole)
      else .ok (.float true (.ofRatio ⟨whole, 1⟩))
    else .ok (.natural whole)
  | fraction, exponent, _ =>
    let places := fraction.getD []
    let (significand, ignored) := gather whole places
    let power := (dropped : Int) - ((places.length - ignored : Nat) : Int) + exponent.getD 0
    match scalePower (.ofRatio ⟨significand, 1⟩) power with
    | .infinite => .error .numberOutOfRange
    | m => .ok (.float n.negative m)

end Numeral

/-- What follows the first letter of a word. -/
def scanWord (value : Json) : (word cs : List Char) → Scan Json
  | [], cs => .ok (value, cs)
  | _ :: _, [] => .error .eofInValue
  | w :: ws, c :: cs => if w = c then scanWord value ws cs else .error .expectedIdent

theorem scanWord_length {value j : Json} {word cs rest : List Char}
    (h : scanWord value word cs = .ok (j, rest)) : rest.length ≤ cs.length := by
  fun_induction scanWord value word cs with
  | case1 =>
    obtain ⟨-, rfl⟩ := Prod.mk.inj (Except.ok.inj h)
    exact Nat.le_refl _
  | case2 => cases h
  | case3 w ws cs ih => exact Nat.le_succ_of_le (ih h)
  | case4 => cases h

/-- A number or a word as a token, with the rest; or how it is misspelt. -/
abbrev ScalarScan := Except Misspelling (Except SyntaxError Json × List Char)

def scanNumber (cs : List Char) : ScalarScan :=
  match scanNumeral cs with
  | .error e => .error ⟨e, .invalidNumber⟩
  | .ok (n, rest) => .ok (n.value.map .number, rest)

def scanName (value : Json) (word cs : List Char) : ScalarScan :=
  match scanWord value word cs with
  | .error e => .error ⟨e, e⟩
  | .ok (j, rest) => .ok (.ok j, rest)

/-- A number or a word, from its first character on; nothing where none begins. -/
def scanScalar? : List Char → Option ScalarScan
  | [] => none
  | c :: cs =>
    if c = '-' || isDigit c then some (scanNumber (c :: cs))
    else if c = 't' then some (scanName (.bool true) ['r', 'u', 'e'] cs)
    else if c = 'f' then some (scanName (.bool false) ['a', 'l', 's', 'e'] cs)
    else if c = 'n' then some (scanName .null ['u', 'l', 'l'] cs)
    else none

theorem scanNumber_length {cs rest : List Char} {j : Except SyntaxError Json}
    (h : scanNumber cs = .ok (j, rest)) : rest.length < cs.length := by
  unfold scanNumber at h
  split at h
  · cases h
  · rename_i hn
    obtain ⟨-, rfl⟩ := Prod.mk.inj (Except.ok.inj h)
    exact scanNumeral_length hn

theorem scanName_length {value : Json} {word cs rest : List Char} {j : Except SyntaxError Json}
    (h : scanName value word cs = .ok (j, rest)) : rest.length ≤ cs.length := by
  unfold scanName at h
  split at h
  · cases h
  · rename_i hw
    obtain ⟨-, rfl⟩ := Prod.mk.inj (Except.ok.inj h)
    exact scanWord_length hw

theorem scanScalar?_length {cs rest : List Char} {j : Except SyntaxError Json}
    (h : scanScalar? cs = some (.ok (j, rest))) : rest.length < cs.length := by
  unfold scanScalar? at h
  split at h
  · cases h
  · split at h
    · exact scanNumber_length (Option.some.inj h)
    · split at h
      · exact Nat.lt_succ_of_le (scanName_length (Option.some.inj h))
      · split at h
        · exact Nat.lt_succ_of_le (scanName_length (Option.some.inj h))
        · split at h
          · exact Nat.lt_succ_of_le (scanName_length (Option.some.inj h))
          · cases h

/-- The text that a string stands for, read after its opening quote. -/
def stringText (cs : List Char) : Except SyntaxError String := (scanString [] cs).map (·.1)

/-- How a string is misspelt to a reader, given how it is to a skipper. -/
def misspelling (cs : List Char) (e : SyntaxError) : Misspelling :=
  match stringText cs with
  | .error e' => ⟨e', e⟩
  | .ok _ => ⟨e, e⟩

def punctuation? (c : Char) : Option Token :=
  if c = '[' then some .openArray
  else if c = ']' then some .closeArray
  else if c = '\x7b' then some .openObject
  else if c = '\x7d' then some .closeObject
  else if c = ',' then some .comma
  else if c = ':' then some .colon
  else none

/-- The tokens of a text, up to the first that is misspelt. -/
def tokens : List Char → List Token
  | [] => []
  | c :: cs =>
    if isSpace c then tokens cs
    else
      match punctuation? c with
      | some t => t :: tokens cs
      | none =>
        if c = '"' then
          match h : skipString cs with
          | .error e => [.badString (misspelling cs e)]
          | .ok ((), rest) =>
            have := skipString_length h
            .string (stringText cs) :: tokens rest
        else
          match h : scanScalar? (c :: cs) with
          | none => [.stray]
          | some (.error f) => [.badScalar f]
          | some (.ok (j, rest)) =>
            have := scanScalar?_length h
            .scalar j :: tokens rest
termination_by cs => cs.length
decreasing_by
  · simp
  · simp
  · simp only [List.length_cons]; omega
  · simpa using this

end WorkspaceSync.Json
