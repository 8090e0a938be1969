import WorkspaceSync.Bytes
import WorkspaceSync.SortedMap

/-!
# Binary codecs

A codec writes values as bytes and reads a value from the front of a byte string. Numbers up to 250
take one byte; a greater one has a mark that tells its width before its bytes, least significant
byte first. Texts, lists and tables begin with their length.
-/

namespace WorkspaceSync

structure Codec (α : Type) where
  encode : α → Bytes
  decode : Bytes → Option (α × Bytes)

namespace Codec

variable {α β : Type}

/-! ## Numbers -/

/-- The lowest `width` bytes of a number, least significant byte first. -/
def littleEndian : (width n : Nat) → Bytes
  | 0, _ => []
  | width + 1, n => UInt8.ofNat n :: littleEndian width (n / 256)

/-- The number that `width` bytes spell, and what follows them. -/
def readLittleEndian (width : Nat) (b : Bytes) : Option (Nat × Bytes) :=
  if b.length < width then none
  else some ((b.take width).foldr (fun x n => x.toNat + 256 * n) 0, b.drop width)

/-- The marks of wide numbers, with the number of bytes that follow. -/
def mark2 : UInt8 := 251

def mark4 : UInt8 := 252

def mark8 : UInt8 := 253

def mark16 : UInt8 := 254

/-- The shortest encoding of a number below 2 ^ 128. -/
def encodeNatural (n : Nat) : Bytes :=
  if n < 251 then [UInt8.ofNat n]
  else if n < 0x10000 then mark2 :: littleEndian 2 n
  else if n < 0x100000000 then mark4 :: littleEndian 4 n
  else if n < 0x10000000000000000 then mark8 :: littleEndian 8 n
  else mark16 :: littleEndian 16 n

/-- Reads a number in any encoding of at most `width` bytes. -/
def decodeNatural (width : Nat) : Bytes → Option (Nat × Bytes)
  | [] => none
  | b :: rest =>
    if b < mark2 then some (b.toNat, rest)
    else if b = mark2 && 2 ≤ width then readLittleEndian 2 rest
    else if b = mark4 && 4 ≤ width then readLittleEndian 4 rest
    else if b = mark8 && 8 ≤ width then readLittleEndian 8 rest
    else if b = mark16 && 16 ≤ width then readLittleEndian 16 rest
    else none

/-- Numbers of a width in bytes. -/
def natural (width : Nat) : Codec Nat := ⟨encodeNatural, decodeNatural width⟩

/-! ## Combinations -/

/-- Writes a value as one of another type, from which it can be had back. -/
def via (c : Codec β) (view : α → β) (back : β → Option α) : Codec α where
  encode a := c.encode (view a)
  decode b :=
    match c.decode b with
    | none => none
    | some (x, rest) => (back x).map (·, rest)

/-- One value after the other. -/
def pair (c : Codec α) (d : Codec β) : Codec (α × β) where
  encode x := c.encode x.1 ++ d.encode x.2
  decode b :=
    match c.decode b with
    | none => none
    | some (x, rest) => (d.decode rest).map fun (y, rest) => ((x, y), rest)

def word32 : Codec UInt32 := (natural 4).via UInt32.toNat fun n => some (.ofNat n)

def word64 : Codec UInt64 := (natural 8).via UInt64.toNat fun n => some (.ofNat n)

def word128 : Codec (BitVec 128) := (natural 16).via BitVec.toNat fun n => some (.ofNat 128 n)

/-- A flag is the byte 0 or 1. -/
def flag : Codec Bool where
  encode x := [if x then 1 else 0]
  decode
    | [] => none
    | b :: rest => if b = 0 then some (false, rest) else if b = 1 then some (true, rest) else none

/-- A fixed number of bytes. -/
def raw (n : Nat) : Codec Bytes where
  encode x := x
  decode b := if b.length < n then none else some (b.take n, b.drop n)

/-- Reads `n` values. -/
def decodeMany (decode : Bytes → Option (α × Bytes)) : Nat → Bytes → Option (List α × Bytes)
  | 0, b => some ([], b)
  | n + 1, b =>
    match decode b with
    | none => none
    | some (x, rest) => (decodeMany decode n rest).map fun (xs, rest) => (x :: xs, rest)

def list (c : Codec α) : Codec (List α) where
  encode xs := encodeNatural xs.length ++ xs.flatMap c.encode
  decode b :=
    match decodeNatural 8 b with
    | none => none
    | some (n, rest) => decodeMany c.decode n rest

def text : Codec String where
  encode s := encodeNatural (Bytes.ofText s).length ++ Bytes.ofText s
  decode b :=
    match decodeNatural 8 b with
    | none => none
    | some (n, rest) =>
      if rest.length < n then none
      else (Bytes.toText? (rest.take n)).map (·, rest.drop n)

/-- A value that may be missing comes after a flag. -/
def optional (c : Codec α) : Codec (Option α) where
  encode
    | none => flag.encode false
    | some a => flag.encode true ++ c.encode a
  decode b :=
    match flag.decode b with
    | none => none
    | some (false, rest) => some (none, rest)
    | some (true, rest) => (c.decode rest).map fun (a, rest) => (some a, rest)

variable [Ord α] [Std.TransOrd α]

/-- The bindings of a table in key order. -/
def table (c : Codec α) (d : Codec β) : Codec (SortedMap α β) :=
  (list (pair c d)).via SortedMap.entries fun l => some (.ofList l)

/-- The elements of a set in order. -/
def set (c : Codec α) : Codec (SortedSet α) :=
  (list c).via SortedSet.toList fun l => some (.ofList l)

end Codec

end WorkspaceSync
