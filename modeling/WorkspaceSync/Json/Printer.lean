import WorkspaceSync.Json.Basic

/-!
# Printing JSON

The compact form: no blanks, members in the given order, and in strings the quote, the backslash and
the controls escaped, all else as it is.
-/

namespace WorkspaceSync.Json

/-- Two lowercase hexadecimal digits. -/
def hexPair (n : Nat) : String :=
  let d := Nat.toDigits 16 n
  String.ofList (List.replicate (2 - d.length) '0' ++ d)

def escapeChar (c : Char) : String :=
  if c = '"' then "\\\""
  else if c = '\\' then "\\\\"
  else if c = '\n' then "\\n"
  else if c = '\r' then "\\r"
  else if c = '\t' then "\\t"
  else if c.toNat = 8 then "\\b"
  else if c.toNat = 12 then "\\f"
  else if c.toNat < 0x20 then "\\u00" ++ hexPair c.toNat
  else c.toString

def quote (s : String) : String := "\"" ++ String.join (s.toList.map escapeChar) ++ "\""

mutual

def print : Json → String
  | null => "null"
  | bool b => toString b
  | number n => n.text
  | string s => quote s
  | array items => "[" ++ printItems items ++ "]"
  | object members => "\x7b" ++ printMembers members ++ "\x7d"

def printItems : List Json → String
  | [] => ""
  | [j] => print j
  | j :: k :: rest => print j ++ "," ++ printItems (k :: rest)

def printMembers : List (String × Json) → String
  | [] => ""
  | [(n, j)] => quote n ++ ":" ++ print j
  | (n, j) :: m :: rest => quote n ++ ":" ++ print j ++ "," ++ printMembers (m :: rest)

end

end WorkspaceSync.Json
