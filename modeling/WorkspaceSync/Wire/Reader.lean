import WorkspaceSync.Bytes
import WorkspaceSync.Wire.Basic

/-!
# Wire format: reading

A reader is what is left of a message, and how much of it has been read. Every read returns the
reader that it leaves behind, also when it fails, so that reading can go on. No read moves backwards
and a read that succeeds moves on: `varint_advances`, `bytes_advances` and `key_advances`.
-/

namespace WorkspaceSync.Wire

structure Reader where
  offset : Nat
  rest : Bytes
  deriving DecidableEq, Repr

namespace Reader

def ofBytes (b : Bytes) : Reader := ⟨0, b⟩

def atEnd (r : Reader) : Bool := r.rest.isEmpty

/-- Moves over `n` bytes. -/
def advance (r : Reader) (n : Nat) : Reader := ⟨r.offset + n, r.rest.drop n⟩

@[simp] theorem rest_advance (r : Reader) (n : Nat) : (r.advance n).rest = r.rest.drop n := rfl

@[simp] theorem offset_advance (r : Reader) (n : Nat) : (r.advance n).offset = r.offset + n := rfl

/-- What the groups of seven bits at the front of a message spell. -/
inductive VarintScan where
  | complete (value : UInt64) (size : Nat)
  | unfinished
  | tooLong
  deriving DecidableEq

/-- Adds up at most `fuel` groups of seven bits, the first one shifted by `shift`; bits beyond the
64th are lost. -/
def scanVarint : (fuel shift : Nat) → Bytes → VarintScan
  | 0, _, _ => .tooLong
  | _ + 1, _, [] => .unfinished
  | fuel + 1, shift, b :: rest =>
    let group := (b &&& 0x7F).toUInt64 <<< shift.toUInt64
    if b < 0x80 then .complete group 1
    else
      match scanVarint fuel (shift + 7) rest with
      | .complete v n => .complete (group ||| v) (n + 1)
      | s => s

/-- The longest varint has ten bytes. -/
def maxVarintSize : Nat := 10

def varint (r : Reader) : Except WireError UInt64 × Reader :=
  match scanVarint maxVarintSize 0 r.rest with
  | .complete v n => (.ok v, r.advance n)
  | .unfinished =>
    (.error (.truncated (r.offset + r.rest.length)), r.advance r.rest.length)
  | .tooLong => (.error (.varintOverflow r.offset), r.advance maxVarintSize)

def bool (r : Reader) : Except WireError Bool × Reader :=
  match r.varint with
  | (.ok v, r) => (.ok (v != 0), r)
  | (.error e, r) => (.error e, r)

/-- Moves over a value of fixed width. -/
def fixed (r : Reader) (width : Nat) : Except WireError Unit × Reader :=
  if width ≤ r.rest.length then (.ok (), r.advance width)
  else (.error (.truncated r.offset), r)

/-- A length and as many bytes; too great a length is found out after it has been read. -/
def bytes (r : Reader) : Except WireError Bytes × Reader :=
  match r.varint with
  | (.error e, r) => (.error e, r)
  | (.ok n, r) =>
    if n.toNat ≤ r.rest.length then (.ok (r.rest.take n.toNat), r.advance n.toNat)
    else (.error (.truncated r.offset), r)

/-- Bytes that encode a text. -/
def string (r : Reader) : Except WireError String × Reader :=
  match r.bytes with
  | (.error e, r) => (.error e, r)
  | (.ok b, r') =>
    match Bytes.toText? b with
    | some s => (.ok s, r')
    | none => (.error (.invalidUtf8 r.offset), r')

/-- The field number, of which 32 bits are kept, and the wire type. -/
def key (r : Reader) : Except WireError (UInt32 × WireType) × Reader :=
  match r.varint with
  | (.error e, r) => (.error e, r)
  | (.ok k, r') =>
    let field := (k >>> 3).toUInt32
    if field = 0 then (.error (.invalidFieldNumber r.offset), r')
    else
      match WireType.ofBits? (k &&& 7) with
      | some t => (.ok (field, t), r')
      | none => (.error (.unsupportedWireType (k &&& 7) r.offset), r')

/-- Moves over a value. -/
def skip (r : Reader) : WireType → Except WireError Unit × Reader
  | .varint =>
    match r.varint with
    | (.ok _, r) => (.ok (), r)
    | (.error e, r) => (.error e, r)
  | .fixed64 => r.fixed 8
  | .lengthDelimited =>
    match r.bytes with
    | (.ok _, r) => (.ok (), r)
    | (.error e, r) => (.error e, r)
  | .fixed32 => r.fixed 4

theorem scanVarint_size {fuel shift n : Nat} {b : Bytes} {v : UInt64}
    (h : scanVarint fuel shift b = .complete v n) : 0 < n ∧ n ≤ b.length := by
  induction fuel generalizing shift b v n with
  | zero => simp [scanVarint] at h
  | succ fuel ih =>
    cases b with
    | nil => simp [scanVarint] at h
    | cons c b =>
      rw [scanVarint] at h
      split at h
      · obtain ⟨-, rfl⟩ : _ ∧ 1 = n := by simpa using h
        simp
      · split at h
        · rename_i v' n' hs
          obtain ⟨-, rfl⟩ : _ ∧ n' + 1 = n := by simpa using h
          have := ih hs
          simp only [List.length_cons]
          omega
        · rename_i hs
          exact absurd h (hs v n)

theorem varint_advances {r r' : Reader} {v : UInt64} (h : r.varint = (.ok v, r')) :
    r'.rest.length < r.rest.length := by
  unfold varint at h
  split at h
  · rename_i hs
    obtain ⟨-, rfl⟩ := Prod.mk.inj h
    have := scanVarint_size hs
    simp only [rest_advance, List.length_drop]
    omega
  · simp at h
  · simp at h

theorem bytes_advances {r r' : Reader} {b : Bytes} (h : r.bytes = (.ok b, r')) :
    r'.rest.length < r.rest.length := by
  unfold bytes at h
  split at h
  · simp at h
  · rename_i n r₁ hv
    have := varint_advances hv
    split at h
    · obtain ⟨-, rfl⟩ := Prod.mk.inj h
      simp only [rest_advance, List.length_drop]
      omega
    · simp at h

theorem key_advances {r r' : Reader} {k : UInt32 × WireType} (h : r.key = (.ok k, r')) :
    r'.rest.length < r.rest.length := by
  unfold key at h
  split at h
  · simp at h
  · rename_i n r₁ hv
    have := varint_advances hv
    dsimp only at h
    split at h
    · simp at h
    · split at h
      · obtain ⟨-, rfl⟩ := Prod.mk.inj h
        exact this
      · simp at h

end Reader

end WorkspaceSync.Wire
