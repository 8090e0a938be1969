import WorkspaceSync.Bytes
import WorkspaceSync.Wire.Basic

/-!
# Wire format: writing

A message is written as the concatenation of its fields; a nested message is a field of bytes.
-/

namespace WorkspaceSync.Wire

/-- Groups of seven bits, least significant first; all but the last have the high bit set. -/
def encodeVarint (v : UInt64) : Bytes :=
  if v < 0x80 then [v.toUInt8]
  else (v.toUInt8 ||| 0x80) :: encodeVarint (v >>> 7)
termination_by v.toNat
decreasing_by
  have h : 0x80 ≤ v.toNat := by
    rename_i h
    simpa [UInt64.lt_iff_toNat_lt] using h
  have : (v >>> 7).toNat = v.toNat / 128 := by
    simp [UInt64.toNat_shiftRight, Nat.shiftRight_eq_div_pow]
  omega

inductive FieldValue where
  | varint (v : UInt64)
  | bytes (b : Bytes)
  deriving DecidableEq, Repr

structure Field where
  number : UInt32
  value : FieldValue
  deriving DecidableEq, Repr

def encodeKey (number : UInt32) (t : WireType) : Bytes :=
  encodeVarint (number.toUInt64 <<< 3 ||| t.bits)

namespace Field

def varint (number : UInt32) (v : UInt64) : Field := ⟨number, .varint v⟩

def bool (number : UInt32) (b : Bool) : Field := ⟨number, .varint (if b then 1 else 0)⟩

def bytes (number : UInt32) (b : Bytes) : Field := ⟨number, .bytes b⟩

def string (number : UInt32) (s : String) : Field := ⟨number, .bytes (Bytes.ofText s)⟩

def encode (f : Field) : Bytes :=
  match f.value with
  | .varint v => encodeKey f.number .varint ++ encodeVarint v
  | .bytes b =>
    encodeKey f.number .lengthDelimited ++ encodeVarint (UInt64.ofNat b.length) ++ b

end Field

/-- The message with the given fields in order. -/
def encodeMessage (fields : List Field) : Bytes := fields.flatMap Field.encode

end WorkspaceSync.Wire
