import Mathlib.Data.List.Perm.Basic
import WorkspaceSync.Proofs.Wire.RoundTrip

/-!
# Messages with more in them

A message may hold records that its reader does not know, between the fields and around them, and
its fields may stand in any order. Such bytes are described here as a relation (`Interleaved`,
`MessageOf`), and `MessageOf.foldMessage_eq` says when a fold over them is the fold over the fields.
-/

namespace WorkspaceSync.Wire

namespace Field

/-- The bytes that are written after their length. -/
def payload (f : Field) : Bytes :=
  match f.value with
  | .varint _ => []
  | .bytes b => b

/-- What is read of a field. -/
def item (f : Field) : Item :=
  match f.value with
  | .varint v => ⟨f.number, .varint v⟩
  | .bytes b => ⟨f.number, .bytes b⟩

/-- Its number is not 0 and the length of its value is one of 64 bits. -/
structure IsProper (f : Field) : Prop where
  numbered : f.number ≠ 0
  counted : f.payload.length < 2 ^ 64

theorem recordCode_encode {f : Field} (proper : f.IsProper) : RecordCode f.item f.encode := by
  obtain ⟨number, value⟩ := f
  cases value with
  | varint v =>
    exact .intro (keyCode_encodeKey proper.numbered _) (.varint (spells_encodeVarint v))
  | bytes b =>
    have code := RecordCode.intro (keyCode_encodeKey proper.numbered _)
      (.lengthDelimited (bytesCode_encode proper.counted))
    rwa [← List.append_assoc] at code

theorem length_payload_le (f : Field) : f.payload.length ≤ f.encode.length := by
  obtain ⟨number, value⟩ := f
  cases value with
  | varint v => exact Nat.zero_le _
  | bytes b =>
    simp only [payload, encode, List.length_append]
    omega

theorem length_payload_le_of_mem {f : Field} {fields : List Field} (mem : f ∈ fields) :
    f.payload.length ≤ (encodeMessage fields).length := by
  obtain ⟨before, after, rfl⟩ := List.append_of_mem mem
  have within := f.length_payload_le
  simp only [encodeMessage, List.flatMap_append, List.flatMap_cons, List.length_append]
  omega

end Field

/-- The bytes of fields in their order, with unknown records anywhere among them. -/
inductive Interleaved (unknown : Item → Prop) : List Field → Bytes → Prop where
  | nil : Interleaved unknown [] []
  | field {f : Field} {fields : List Field} {rest : Bytes} (proper : f.IsProper) :
      Interleaved unknown fields rest → Interleaved unknown (f :: fields) (f.encode ++ rest)
  | other {x : Item} {fields : List Field} {code rest : Bytes} (isRecord : RecordCode x code)
      (isUnknown : unknown x) :
      Interleaved unknown fields rest → Interleaved unknown fields (code ++ rest)

/-- The bytes of fields in any order, of which dispensable ones may be left out, with unknown
records anywhere among them. -/
inductive MessageOf (unknown : Item → Prop) (dispensable : Field → Prop) (fields : List Field)
    (b : Bytes) : Prop where
  | intro {omitted written : List Field} (all : (omitted ++ written).Perm fields)
      (needless : ∀ f ∈ omitted, dispensable f) (code : Interleaved unknown written b)

section Encoded

variable {unknown : Item → Prop} {dispensable : Field → Prop} {fields : List Field}

theorem Interleaved.encoded (proper : ∀ f ∈ fields, f.IsProper) :
    Interleaved unknown fields (encodeMessage fields) := by
  induction fields with
  | nil => exact .nil
  | cons f fields ih =>
    rw [List.forall_mem_cons] at proper
    rw [encodeMessage, List.flatMap_cons]
    exact .field proper.1 (ih proper.2)

theorem MessageOf.encoded (numbered : ∀ f ∈ fields, f.number ≠ 0)
    (short : (encodeMessage fields).length < 2 ^ 64) :
    MessageOf unknown dispensable fields (encodeMessage fields) := by
  have all : ([] ++ fields).Perm fields := .refl fields
  refine .intro all (by simp) (.encoded fun f mem => ⟨numbered f mem, ?_⟩)
  exact Nat.lt_of_le_of_lt (Field.length_payload_le_of_mem mem) short

end Encoded

section Fold

variable {σ : Type} {step : σ → Record → Except WireError σ} {s s' : σ}
  {unknown : Item → Prop} {dispensable : Field → Prop} {fields : List Field} {b : Bytes}

theorem Interleaved.exists_items (inert : ∀ x, unknown x → ∀ s, effect step s x = some s)
    (h : Interleaved unknown fields b) : ∃ items, MessageCode items b ∧
      ∀ s, items.foldlM (effect step) s = (fields.map Field.item).foldlM (effect step) s := by
  induction h with
  | nil => exact ⟨[], .nil, fun _ => rfl⟩
  | @field f fields rest proper _ ih =>
    obtain ⟨items, isMessage, same⟩ := ih
    refine ⟨f.item :: items, .cons (Field.recordCode_encode proper) isMessage, ?_⟩
    intro s
    simp only [List.map_cons, List.foldlM_cons, same]
  | @other x fields code rest isRecord isUnknown _ ih =>
    obtain ⟨items, isMessage, same⟩ := ih
    refine ⟨x :: items, .cons isRecord isMessage, ?_⟩
    intro s
    rw [List.foldlM_cons, inert x isUnknown, ← same]
    rfl

/-- A fold that passes over unknown records is the fold over the fields. -/
theorem Interleaved.foldMessage_eq (uniform : Uniform step)
    (inert : ∀ x, unknown x → ∀ s, effect step s x = some s) (h : Interleaved unknown fields b)
    (folded : (fields.map Field.item).foldlM (effect step) s = some s') :
    foldMessage step s b = .ok s' := by
  obtain ⟨items, isMessage, same⟩ := h.exists_items inert
  exact (foldMessage_eq_ok_iff uniform).2 ⟨items, isMessage, (same s).trans folded⟩

/-- What a field that is accepted makes of a state. -/
def Field.put (step : σ → Record → Except WireError σ) (s : σ) (f : Field) : σ :=
  (effect step s f.item).getD s

theorem foldlM_effect_eq_foldl
    (accepts : ∀ f ∈ fields, ∀ s, (effect step s f.item).isSome) (s : σ) :
    (fields.map Field.item).foldlM (effect step) s = some (fields.foldl (Field.put step) s) := by
  induction fields generalizing s with
  | nil => rfl
  | cons f fields ih =>
    rw [List.forall_mem_cons] at accepts
    obtain ⟨next, accepted⟩ := Option.isSome_iff_exists.1 (accepts.1 s)
    have put_eq : Field.put step s f = next := by rw [Field.put, accepted, Option.getD_some]
    rw [List.map_cons, List.foldlM_cons, accepted, List.foldl_cons, put_eq]
    exact ih accepts.2 _

theorem foldl_put_eq_self (needless : ∀ f ∈ fields, Field.put step s f = s) :
    fields.foldl (Field.put step) s = s := by
  induction fields with
  | nil => rfl
  | cons f fields ih =>
    rw [List.forall_mem_cons] at needless
    rw [List.foldl_cons, needless.1, ih needless.2]

/-- If every field is accepted, two fields may change places and what a dispensable one says is so
without it, then the order in which fields were written and what was left out make no difference. -/
theorem MessageOf.foldMessage_eq (uniform : Uniform step)
    (inert : ∀ x, unknown x → ∀ s, effect step s x = some s)
    (accepts : ∀ f ∈ fields, ∀ s, (effect step s f.item).isSome)
    (commute : ∀ f ∈ fields, ∀ g ∈ fields, ∀ s,
      Field.put step (Field.put step s f) g = Field.put step (Field.put step s g) f)
    (needless : ∀ f, dispensable f → Field.put step s f = s)
    (h : MessageOf unknown dispensable fields b) :
    foldMessage step s b = .ok (fields.foldl (Field.put step) s) := by
  obtain @⟨omitted, written, all, omittable, code⟩ := h
  have accepted : ∀ f ∈ written, ∀ s, (effect step s f.item).isSome := fun f mem =>
    accepts f (all.mem_iff.1 (List.mem_append_right omitted mem))
  have without : omitted.foldl (Field.put step) s = s :=
    foldl_put_eq_self fun f mem => needless f (omittable f mem)
  have ordered : fields.foldl (Field.put step) s = (omitted ++ written).foldl (Field.put step) s :=
    all.symm.foldl_eq' commute s
  rw [ordered, List.foldl_append, without]
  exact code.foldMessage_eq uniform inert (foldlM_effect_eq_foldl accepted s)

end Fold

end WorkspaceSync.Wire
