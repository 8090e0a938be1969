import WorkspaceSync.Wire.Reader

/-!
# Wire format: records

The decoders of messages fold over records. A record is handed on before the next one is read, so
that of two faults the earlier one is reported.
-/

namespace WorkspaceSync.Wire

inductive RecordValue where
  | varint (v : UInt64)
  | bytes (b : Bytes)
  | fixed
  deriving DecidableEq, Repr

/-- A field number, a value and the offset at which the value begins. -/
structure Record where
  field : UInt32
  value : RecordValue
  offset : Nat
  deriving DecidableEq, Repr

namespace Record

/-- The bytes of a record as a text. -/
def text (r : Record) (b : Bytes) : Except WireError String :=
  match Bytes.toText? b with
  | some s => .ok s
  | none => .error (.invalidUtf8 r.offset)

end Record

namespace Reader

def value (r : Reader) : WireType → Except WireError (RecordValue × Reader)
  | .varint =>
    match r.varint with
    | (.ok v, r) => .ok (.varint v, r)
    | (.error e, _) => .error e
  | .fixed64 =>
    match r.fixed 8 with
    | (.ok _, r) => .ok (.fixed, r)
    | (.error e, _) => .error e
  | .lengthDelimited =>
    match r.bytes with
    | (.ok b, r) => .ok (.bytes b, r)
    | (.error e, _) => .error e
  | .fixed32 =>
    match r.fixed 4 with
    | (.ok _, r) => .ok (.fixed, r)
    | (.error e, _) => .error e

def record (r : Reader) : Except WireError (Record × Reader) :=
  match r.key with
  | (.error e, _) => .error e
  | (.ok (field, t), r) =>
    match r.value t with
    | .error e => .error e
    | .ok (v, r') => .ok (⟨field, v, r.offset⟩, r')

theorem value_le {r r' : Reader} {t : WireType} {v : RecordValue}
    (h : r.value t = .ok (v, r')) : r'.rest.length ≤ r.rest.length := by
  have fixed_le {n : Nat} {r₁ : Reader} {u : Unit} (h : r.fixed n = (.ok u, r₁)) :
      r₁.rest.length ≤ r.rest.length := by
    unfold fixed at h
    split at h
    · obtain ⟨-, rfl⟩ := Prod.mk.inj h
      simp
    · simp at h
  unfold value at h
  split at h <;> split at h <;> simp only [Except.ok.injEq, Prod.mk.injEq, reduceCtorEq] at h <;>
    obtain ⟨-, rfl⟩ := h
  · exact Nat.le_of_lt (varint_advances (by assumption))
  · exact fixed_le (by assumption)
  · exact Nat.le_of_lt (bytes_advances (by assumption))
  · exact fixed_le (by assumption)

theorem record_advances {r r' : Reader} {x : Record} (h : r.record = .ok (x, r')) :
    r'.rest.length < r.rest.length := by
  unfold record at h
  split at h
  · simp at h
  · rename_i hk
    split at h
    · simp at h
    · rename_i hv
      simp only [Except.ok.injEq, Prod.mk.injEq] at h
      obtain ⟨-, rfl⟩ := h
      exact Nat.lt_of_le_of_lt (value_le hv) (key_advances hk)

/-- Hands every record on, in order. -/
def foldRecords {σ : Type} (step : σ → Record → Except WireError σ) (s : σ) (r : Reader) :
    Except WireError σ :=
  if r.atEnd then .ok s
  else
    match h : r.record with
    | .error e => .error e
    | .ok (x, r') =>
      have := record_advances h
      match step s x with
      | .error e => .error e
      | .ok s => foldRecords step s r'
termination_by r.rest.length

end Reader

/-- Folds over the records of a message. -/
def foldMessage {σ : Type} (step : σ → Record → Except WireError σ) (s : σ) (b : Bytes) :
    Except WireError σ :=
  (Reader.ofBytes b).foldRecords step s

end WorkspaceSync.Wire
