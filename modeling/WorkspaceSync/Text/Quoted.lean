import WorkspaceSync.Text.Unprintable

/-!
# Quoted texts

How a message shows a text or a single character that it cannot trust: between quotes, with the
quote, the backslash and the usual controls escaped by a letter and every other character that
does not show as itself written as its code point.
-/

namespace WorkspaceSync.Text

/-- The least number of lowercase hexadecimal digits. -/
def hexDigits (n : Nat) : String := String.ofList (Nat.toDigits 16 n)

def isPrintable (c : Char) : Bool :=
  Unprintable.ranges.all fun (lo, hi) => !(lo ≤ c.toNat && c.toNat ≤ hi)

/-- A code point in braces, as in `\u{a0}`. -/
def codePoint (c : Char) : String := "\\u\x7b" ++ hexDigits c.toNat ++ "\x7d"

/-- One character of a text between quotes of the kind `quote`. -/
def escapeChar (quote c : Char) : String :=
  if c = '\x00' then "\\0"
  else if c = '\t' then "\\t"
  else if c = '\r' then "\\r"
  else if c = '\n' then "\\n"
  else if c = '\\' || c = quote then String.ofList ['\\', c]
  else if 0x20 ≤ c.toNat && c.toNat < 0x7F || isPrintable c then c.toString
  else codePoint c

def quotedChar (c : Char) : String := "'" ++ escapeChar '\x27' c ++ "'"

def quoted (s : String) : String :=
  "\"" ++ String.join (s.toList.map (escapeChar '"')) ++ "\""

end WorkspaceSync.Text
