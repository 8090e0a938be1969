import WorkspaceSync.Proofs.DependencyManifest
import WorkspaceSync.Proofs.Wire.RoundTrip

/-!
# What keys tell

A key tells eight times its field number and the bits of its type, of which the reader keeps the
number modulo `2 ^ 32`. So a key is read back faithfully if and only if its number fits into 32 bits
(`Narrow`), as that of every key that the writer makes does; all others are taken for smaller ones.
-/

namespace WorkspaceSync.Wire

/-- The field number that a key tells fits into 32 bits. -/
def Narrow (k : UInt64) : Prop := k.toNat / 8 < 2 ^ 32

instance (k : UInt64) : Decidable (Narrow k) := inferInstanceAs (Decidable (_ < _))

theorem narrow_of_encoded (number : UInt32) (t : WireType) :
    Narrow (number.toUInt64 <<< 3 ||| t.bits) := by
  have bits : t.bits.toNat < 8 := by cases t <;> decide
  have small := number.toNat_lt
  rw [Narrow, toNat_key]
  omega

theorem number_eq_iff_narrow {n : Nat} {k : UInt64} (kept : n = k.toNat / 8 % 2 ^ 32) :
    n = k.toNat / 8 ↔ Narrow k := by
  rw [Narrow]
  omega

namespace Reader

variable {r r' : Reader}

theorem exists_varint_of_key {field : UInt32} {t : WireType}
    (h : r.key = (.ok (field, t), r')) : ∃ k, r.varint = (.ok k, r') ∧
      field.toNat = k.toNat / 8 % 2 ^ 32 ∧ t.bits.toNat = k.toNat % 8 := by
  obtain ⟨code, @⟨k, spells, number, -, bits⟩, passes⟩ := key_eq_ok_iff.1 h
  exact ⟨k, varint_eq_ok_iff.2 ⟨code, spells, passes⟩, number, bits⟩

theorem told_of_key {field : UInt32} {t : WireType} (h : r.key = (.ok (field, t), r')) :
    ∃ k, r.varint = (.ok k, r') ∧ 8 * field.toNat + t.bits.toNat = k.toNat % 2 ^ 35 ∧
      (8 * field.toNat + t.bits.toNat = k.toNat ↔ Narrow k) := by
  obtain ⟨k, varint, number, bits⟩ := exists_varint_of_key h
  refine ⟨k, varint, by omega, ?_⟩
  rw [← number_eq_iff_narrow number]
  omega

theorem varint_ne_invalidFieldNumber {n : Nat} :
    r.varint ≠ (.error (.invalidFieldNumber n), r') := by
  intro h
  unfold varint at h
  split at h <;> simp at h

theorem exists_varint_of_invalidFieldNumber {n : Nat}
    (h : r.key = (.error (.invalidFieldNumber n), r')) :
    n = r.offset ∧ ∃ k, r.varint = (.ok k, r') ∧ 0 = k.toNat / 8 % 2 ^ 32 := by
  unfold key at h
  split at h
  · rename_i e r₁ failed
    obtain ⟨same, rfl⟩ := Prod.mk.inj h
    obtain rfl := Except.error.inj same
    exact absurd failed varint_ne_invalidFieldNumber
  · rename_i k r₁ read
    dsimp only at h
    split at h
    · rename_i zero
      obtain ⟨same, rfl⟩ := Prod.mk.inj h
      obtain rfl := WireError.invalidFieldNumber.inj (Except.error.inj same)
      refine ⟨rfl, k, read, ?_⟩
      rw [← toNat_fieldOf, zero]
      rfl
    · split at h <;> simp at h

theorem exists_key_of_record {x : Record} (h : r.record = .ok (x, r')) :
    ∃ t m, r.key = (.ok (x.field, t), m) := by
  unfold record at h
  split at h
  · cases h
  · rename_i field t m key
    split at h
    · cases h
    · obtain ⟨rfl, -⟩ := Prod.mk.inj (Except.ok.inj h)
      exact ⟨t, m, key⟩

/-- One turn of a fold. -/
theorem foldRecords_turn {σ : Type} (step : σ → Record → Except WireError σ) (s : σ)
    (more : r.rest ≠ []) :
    (∃ e, r.record = .error e ∧ r.foldRecords step s = .error e) ∨
      ∃ x r', r.record = .ok (x, r') ∧
        r.foldRecords step s = step s x >>= fun s' => r'.foldRecords step s' := by
  cases read : r.record with
  | error e => exact .inl ⟨e, rfl, foldRecords_of_error more read⟩
  | ok p =>
    obtain ⟨x, r'⟩ := p
    refine .inr ⟨x, r', rfl, ?_⟩
    rw [foldRecords_of_record read]
    cases step s x <;> rfl

/-- A key that is read tells the field and the type that were read if and only if it is narrow, so
narrow keys that are read alike are the same; of the keys that are reported for the number 0 the
narrow ones tell it; the keys of the writer are narrow; and a decoder, which is a fold over records,
hands each record to its step with the number that the key tells if and only if the key is narrow.
Of any key all but the bits above the 35th are told. -/
theorem keys_read_back {σ : Type} (step : σ → Record → Except WireError σ) (s : σ) (r : Reader) :
    (∀ (r' : Reader) (field : UInt32) (t : WireType), r.key = (.ok (field, t), r') →
      ∃ k, r.varint = (.ok k, r') ∧
        8 * field.toNat + t.bits.toNat = k.toNat % 2 ^ 35 ∧
        (8 * field.toNat + t.bits.toNat = k.toNat ↔ Narrow k)) ∧
    (∀ (r' q q' : Reader) (told : UInt32 × WireType) (k l : UInt64),
      r.varint = (.ok k, r') → r.key = (.ok told, r') →
      q.varint = (.ok l, q') → q.key = (.ok told, q') → Narrow k → Narrow l → k = l) ∧
    (∀ (r' : Reader) (n : Nat), r.key = (.error (.invalidFieldNumber n), r') →
      n = r.offset ∧ ∃ k, r.varint = (.ok k, r') ∧ (0 = k.toNat / 8 ↔ Narrow k)) ∧
    (∀ (number : UInt32) (t : WireType), Narrow (number.toUInt64 <<< 3 ||| t.bits)) ∧
    (r.rest ≠ [] →
      (∃ e, r.record = .error e ∧ r.foldRecords step s = .error e) ∨
      ∃ x r' k m, r.record = .ok (x, r') ∧ r.varint = (.ok k, m) ∧
        (x.field.toNat = k.toNat / 8 ↔ Narrow k) ∧
        r.foldRecords step s = step s x >>= fun s' => r'.foldRecords step s') := by
  refine ⟨fun r' field t => told_of_key, ?_, ?_, narrow_of_encoded, ?_⟩
  · rintro r' q q' ⟨field, t⟩ k l varintK readK varintL readL narrowK narrowL
    obtain ⟨k', varint, -, faithfulK⟩ := told_of_key readK
    obtain rfl : k' = k := by simpa [varintK] using varint.symm
    obtain ⟨l', varint', -, faithfulL⟩ := told_of_key readL
    obtain rfl : l' = l := by simpa [varintL] using varint'.symm
    exact UInt64.toNat_inj.1 ((faithfulK.2 narrowK).symm.trans (faithfulL.2 narrowL))
  · intro r' n read
    obtain ⟨offset, k, varint, zero⟩ := exists_varint_of_invalidFieldNumber read
    exact ⟨offset, k, varint, number_eq_iff_narrow zero⟩
  · intro more
    obtain failed | ⟨x, r', read, turn⟩ := foldRecords_turn step s more
    · exact .inl failed
    · obtain ⟨t, m, key⟩ := exists_key_of_record read
      obtain ⟨k, varint, number, -⟩ := exists_varint_of_key key
      exact .inr ⟨x, r', k, m, read, varint, number_eq_iff_narrow number, turn⟩

/-- A key of more groups than it needs. -/
theorem key_of_padded_groups :
    (Reader.mk 0 [0x8A, 0x80, 0x00]).key = (.ok (1, .lengthDelimited), ⟨3, []⟩) ∧ Narrow 10 ∧
      ∃ k, (Reader.mk 0 [0x8A, 0x80, 0x00]).varint = (.ok k, ⟨3, []⟩) ∧ k.toNat = 10 := by
  have key : (Reader.mk 0 [0x8A, 0x80, 0x00]).key = (.ok (1, .lengthDelimited), ⟨3, []⟩) := by
    decide
  have varint : (Reader.mk 0 [0x8A, 0x80, 0x00]).varint = (.ok 10, ⟨3, []⟩) := by decide
  have narrow : Narrow 10 := by decide
  obtain ⟨reads, -⟩ := keys_read_back DependencyManifest.step .start ⟨0, [0x8A, 0x80, 0x00]⟩
  obtain ⟨k, read, -, faithful⟩ := reads _ _ _ key
  obtain rfl : k = 10 := by simpa [varint] using read.symm
  exact ⟨key, narrow, _, read, (faithful.2 narrow).symm⟩

/-- The number `2 ^ 32 + 1` is taken for 1 and `2 ^ 32` for 0, and a decoder takes the record of a
field that it does not know for a dependency. -/
theorem key_of_wide_number :
    (Reader.mk 0 [0x8A, 0x80, 0x80, 0x80, 0x80, 0x01]).varint =
        (.ok (8 * 4294967297 + 2), ⟨6, []⟩) ∧
      (Reader.mk 0 [0x8A, 0x80, 0x80, 0x80, 0x80, 0x01]).key =
        (.ok (1, .lengthDelimited), ⟨6, []⟩) ∧
      (Reader.mk 0 [0x0A]).key = (.ok (1, .lengthDelimited), ⟨1, []⟩) ∧
      (Reader.mk 0 [0x80, 0x80, 0x80, 0x80, 0x80, 0x01]).varint =
        (.ok (8 * 4294967296), ⟨6, []⟩) ∧
      (Reader.mk 0 [0x80, 0x80, 0x80, 0x80, 0x80, 0x01]).key =
        (.error (.invalidFieldNumber 0), ⟨6, []⟩) ∧
      DependencyManifest.decode [0x8A, 0x80, 0x80, 0x80, 0x80, 0x01, 0x00] =
        .ok ⟨none, false, [⟨"", .explicit⟩]⟩ := by
  decide +kernel

end Reader

end WorkspaceSync.Wire
