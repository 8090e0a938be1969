import WorkspaceSync.Proofs.Wire.Grammar

/-!
# What was written is read back

A reader that takes the key of each field and then reads the value as the kind that was written, or
skips it, gets back the fields of a message one by one and ends where the message ends:
`visits_encodeMessage`. A nested message is a value of bytes, so the same holds of it in turn.
-/

namespace WorkspaceSync.Wire

/-- The kinds of values that can be written and read. -/
inductive Kind where
  | varint
  | bool
  | string
  | bytes
  deriving DecidableEq, Repr

inductive Content where
  | varint (v : UInt64)
  | bool (b : Bool)
  | string (s : String)
  | bytes (b : Bytes)
  deriving DecidableEq, Repr

def Kind.wireType : Kind → WireType
  | varint | bool => .varint
  | string | bytes => .lengthDelimited

namespace Content

def kind : Content → Kind
  | varint _ => .varint
  | bool _ => .bool
  | string _ => .string
  | bytes _ => .bytes

def field (number : UInt32) : Content → Field
  | varint v => .varint number v
  | bool b => .bool number b
  | string s => .string number s
  | bytes b => .bytes number b

/-- The bytes that are written after their length. -/
def payload : Content → Bytes
  | varint _ | bool _ => []
  | string s => Bytes.ofText s
  | bytes b => b

end Content

/-- A field to be written. Its number is not 0 and the length of its value is one of 64 bits. -/
structure Write where
  number : UInt32
  content : Content
  numbered : number ≠ 0
  counted : content.payload.length < 2 ^ 64

/-- What a reader gets of a field: the key, and the value unless it was skipped. -/
structure Seen where
  number : UInt32
  wireType : WireType
  content : Option Content
  deriving DecidableEq, Repr

namespace Write

def field (w : Write) : Field := w.content.field w.number

/-- How a field is asked for: by the kind of its value, or only to be skipped. -/
def ask (w : Write) (wanted : Bool) : Option Kind :=
  if wanted then some w.content.kind else none

def seen (w : Write) (wanted : Bool) : Seen :=
  ⟨w.number, w.content.kind.wireType, if wanted then some w.content else none⟩

end Write

namespace Reader

/-- The read for a kind of values. -/
def content (r : Reader) : Kind → Except WireError Content × Reader
  | .varint =>
    match r.varint with
    | (.ok v, r) => (.ok (.varint v), r)
    | (.error e, r) => (.error e, r)
  | .bool =>
    match r.bool with
    | (.ok b, r) => (.ok (.bool b), r)
    | (.error e, r) => (.error e, r)
  | .string =>
    match r.string with
    | (.ok s, r) => (.ok (.string s), r)
    | (.error e, r) => (.error e, r)
  | .bytes =>
    match r.bytes with
    | (.ok b, r) => (.ok (.bytes b), r)
    | (.error e, r) => (.error e, r)

/-- Takes a key, and then the value of the kind that is asked for or skips it. -/
def visit (r : Reader) (asked : Option Kind) : Except WireError Seen × Reader :=
  match r.key with
  | (.error e, r) => (.error e, r)
  | (.ok (number, t), r) =>
    match asked with
    | some k =>
      match r.content k with
      | (.ok c, r) => (.ok ⟨number, t, some c⟩, r)
      | (.error e, r) => (.error e, r)
    | none =>
      match r.skip t with
      | (.ok (), r) => (.ok ⟨number, t, none⟩, r)
      | (.error e, r) => (.error e, r)

def visits (r : Reader) : List (Option Kind) → Except WireError (List Seen) × Reader
  | [] => (.ok [], r)
  | asked :: rest =>
    match r.visit asked with
    | (.error e, r) => (.error e, r)
    | (.ok seen, r) =>
      match r.visits rest with
      | (.ok others, r) => (.ok (seen :: others), r)
      | (.error e, r) => (.error e, r)

end Reader

/-! ## The bytes of one field -/

theorem toNat_key (number : UInt32) (t : WireType) :
    (number.toUInt64 <<< 3 ||| t.bits).toNat = 8 * number.toNat + t.bits.toNat := by
  have bits : t.bits.toNat < 2 ^ 3 := by cases t <;> decide
  have small := number.toNat_lt
  rw [UInt64.toNat_or, UInt64.toNat_shiftLeft, UInt32.toNat_toUInt64, Nat.shiftLeft_eq,
    Nat.mod_eq_of_lt (b := 2 ^ 64), Nat.mul_comm]
  · exact (Nat.two_pow_add_eq_or_of_lt bits number.toNat).symm
  · simp only [UInt64.toNat_ofNat, Nat.reducePow, Nat.reduceMod]
    omega

theorem keyCode_encodeKey {number : UInt32} (numbered : number ≠ 0) (t : WireType) :
    KeyCode number t (encodeKey number t) := by
  have bits : t.bits.toNat < 8 := by cases t <;> decide
  have small := number.toNat_lt
  refine .intro (spells_encodeVarint _) ?_ numbered ?_
  · rw [toNat_key]
    omega
  · rw [toNat_key]
    omega

theorem bytesCode_encode {b : Bytes} (counted : b.length < 2 ^ 64) :
    BytesCode b (encodeVarint (UInt64.ofNat b.length) ++ b) := by
  apply BytesCode.intro (spells_encodeVarint _)
  rw [UInt64.toNat_ofNat', Nat.mod_eq_of_lt counted]

namespace Content

/-- The bytes of a value. -/
def code : Content → Bytes
  | varint v => encodeVarint v
  | bool b => encodeVarint (if b then 1 else 0)
  | string s => encodeVarint (UInt64.ofNat (Bytes.ofText s).length) ++ Bytes.ofText s
  | bytes b => encodeVarint (UInt64.ofNat b.length) ++ b

theorem encode_field (c : Content) (number : UInt32) :
    (c.field number).encode = encodeKey number c.kind.wireType ++ c.code := by
  cases c with
  | varint v => rfl
  | bool b => rfl
  | string s => exact List.append_assoc _ _ _
  | bytes b => exact List.append_assoc _ _ _

end Content

namespace Reader

variable {r r' : Reader} {c : Content}

theorem content_of_passes (counted : c.payload.length < 2 ^ 64) (passes : r.Passes c.code r') :
    r.content c.kind = (.ok c, r') := by
  cases c with
  | varint v =>
    simp only [Content.kind, content, varint_eq_ok_iff.2 ⟨_, spells_encodeVarint v, passes⟩]
  | bool b =>
    simp only [Content.kind, content, bool, varint_eq_ok_iff.2 ⟨_, spells_encodeVarint _, passes⟩]
    cases b <;> rfl
  | string s =>
    have read := bytes_eq_ok_iff.2 ⟨_, bytesCode_encode counted, passes⟩
    simp only [Content.kind, content, string, read, Content.payload, Bytes.toText?_ofText]
  | bytes b =>
    simp only [Content.kind, content, bytes_eq_ok_iff.2 ⟨_, bytesCode_encode counted, passes⟩,
      Content.payload]

/-- Skipping passes over exactly what reading consumes. -/
theorem skip_of_passes (counted : c.payload.length < 2 ^ 64) (passes : r.Passes c.code r') :
    r.skip c.kind.wireType = (.ok (), r') := by
  cases c with
  | varint v =>
    simp only [Content.kind, Kind.wireType, skip,
      varint_eq_ok_iff.2 ⟨_, spells_encodeVarint v, passes⟩]
  | bool b =>
    simp only [Content.kind, Kind.wireType, skip,
      varint_eq_ok_iff.2 ⟨_, spells_encodeVarint _, passes⟩]
  | string s =>
    have read := bytes_eq_ok_iff.2 ⟨_, bytesCode_encode counted, passes⟩
    simp only [Content.kind, Kind.wireType, skip, read]
  | bytes b =>
    have read := bytes_eq_ok_iff.2 ⟨_, bytesCode_encode counted, passes⟩
    simp only [Content.kind, Kind.wireType, skip, read]

theorem visit_of_passes {w : Write} (passes : r.Passes w.field.encode r') (wanted : Bool) :
    r.visit (w.ask wanted) = (.ok (w.seen wanted), r') := by
  rw [Write.field, Content.encode_field] at passes
  obtain ⟨m, first, second⟩ := passes.split
  have key := key_eq_ok_iff.2 ⟨_, keyCode_encodeKey w.numbered w.content.kind.wireType, first⟩
  cases wanted with
  | true =>
    simp only [visit, key, Write.ask, Write.seen, content_of_passes w.counted second, if_true]
  | false =>
    simp only [visit, key, Write.ask, Write.seen, skip_of_passes w.counted second,
      Bool.false_eq_true, if_false]

theorem visits_of_passes (plan : List (Write × Bool))
    (passes : r.Passes (encodeMessage (plan.map fun p => p.1.field)) r') :
    r.visits (plan.map fun p => p.1.ask p.2) = (.ok (plan.map fun p => p.1.seen p.2), r') := by
  induction plan generalizing r with
  | nil => rw [passes.eq_of_nil, List.map_nil, List.map_nil, visits]
  | cons p plan ih =>
    rw [List.map_cons, encodeMessage, List.flatMap_cons] at passes
    obtain ⟨m, first, second⟩ := passes.split
    simp only [List.map_cons, visits, visit_of_passes first, ih second]

end Reader

/-- Whatever was written, read with any of the values skipped, gives back the numbers, the wire
types and the other values in their order, and the reader is at the end then. -/
theorem visits_encodeMessage (plan : List (Write × Bool)) :
    ∃ last, last.atEnd = true ∧
      (Reader.ofBytes (encodeMessage (plan.map fun p => p.1.field))).visits
        (plan.map fun p => p.1.ask p.2) = (.ok (plan.map fun p => p.1.seen p.2), last) := by
  refine ⟨⟨(encodeMessage (plan.map fun p => p.1.field)).length, []⟩, rfl, ?_⟩
  apply Reader.visits_of_passes
  constructor
  · simp [Reader.ofBytes]
  · simp [Reader.ofBytes]

end WorkspaceSync.Wire
