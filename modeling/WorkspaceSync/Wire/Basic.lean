/-!
# Wire format: kinds of values and errors

A message is a sequence of records, each a key and a value. The key holds the field number and the
wire type, which tells how long the value is.
-/

namespace WorkspaceSync.Wire

inductive WireType where
  | varint
  | fixed64
  | lengthDelimited
  | fixed32
  deriving DecidableEq, Repr

namespace WireType

/-- The three low bits of a key. -/
def bits : WireType → UInt64
  | varint => 0
  | fixed64 => 1
  | lengthDelimited => 2
  | fixed32 => 5

def ofBits? (b : UInt64) : Option WireType :=
  if b = 0 then some varint
  else if b = 1 then some fixed64
  else if b = 2 then some lengthDelimited
  else if b = 5 then some fixed32
  else none

@[simp] theorem ofBits?_bits (t : WireType) : ofBits? t.bits = some t := by
  cases t <;> decide

end WireType

/-- What is wrong with a message, and where. -/
inductive WireError where
  | truncated (offset : Nat)
  | varintOverflow (offset : Nat)
  | unsupportedWireType (bits : UInt64) (offset : Nat)
  | invalidFieldNumber (offset : Nat)
  | invalidUtf8 (offset : Nat)
  deriving DecidableEq, Repr

namespace WireError

def message : WireError → String
  | truncated n => s!"truncated message at byte {n}"
  | varintOverflow n => s!"malformed varint at byte {n}"
  | unsupportedWireType t n => s!"unsupported wire type {t.toNat} at byte {n}"
  | invalidFieldNumber n => s!"invalid field number 0 at byte {n}"
  | invalidUtf8 n => s!"invalid UTF-8 in string field at byte {n}"

end WireError

end WorkspaceSync.Wire
