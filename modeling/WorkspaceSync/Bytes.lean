/-!
# Byte strings

Byte strings are lists, so that readers of them are recursions on data. `toText?_ofText` says that
a text is read back from its encoding.
-/

namespace WorkspaceSync

abbrev Bytes := List UInt8

namespace Bytes

/-- The encoding of a text in UTF-8. -/
def ofText (s : String) : Bytes := s.toUTF8.data.toList

/-- The text that the bytes encode in UTF-8, if they do. -/
def toText? (b : Bytes) : Option String := String.fromUTF8? ⟨b.toArray⟩

theorem toText?_ofText (s : String) : toText? (ofText s) = some s := by
  have h : (⟨(ofText s).toArray⟩ : ByteArray) = s.toByteArray := by simp [ofText, String.toUTF8]
  rw [toText?, h, String.fromUTF8?, dif_pos s.isValidUTF8, String.fromUTF8]

def hexDigit (n : UInt8) : Char :=
  if n < 10 then Char.ofNat (48 + n.toNat) else Char.ofNat (87 + n.toNat)

/-- Two lowercase hexadecimal digits a byte. -/
def toHex (b : Bytes) : String :=
  String.ofList (b.flatMap fun n => [hexDigit (n / 16), hexDigit (n % 16)])

def hexValue? (c : Char) : Option UInt8 :=
  if '0' ≤ c ∧ c ≤ '9' then some (UInt8.ofNat (c.toNat - 48))
  else if 'a' ≤ c ∧ c ≤ 'f' then some (UInt8.ofNat (c.toNat - 87))
  else none

/-- The bytes that pairs of lowercase hexadecimal digits spell. -/
def ofHex? : List Char → Option Bytes
  | [] => some []
  | a :: b :: rest => do
    let high ← hexValue? a
    let low ← hexValue? b
    return (16 * high + low) :: (← ofHex? rest)
  | [_] => none

/-- The number that the first `n` bytes spell, least significant byte first. -/
def word (n : Nat) (b : Bytes) : UInt64 :=
  (b.take n).foldr (fun x acc => acc <<< 8 ||| x.toUInt64) 0

/-- The eight bytes of a word, least significant byte first. -/
def ofWord (w : UInt64) : Bytes :=
  (List.range 8).map fun i => (w >>> (8 * i).toUInt64).toUInt8

/-- The last `n` elements. -/
def takeLast (n : Nat) (b : Bytes) : Bytes := b.drop (b.length - n)

end Bytes

end WorkspaceSync
