import Mathlib.Algebra.Group.Nat.Defs
import WorkspaceSync.Wire.Reader
import WorkspaceSync.Wire.Writer

/-!
# Numbers of groups of seven bits

A varint is a number to the base 128, least significant digit first, in at most ten bytes of which
the last one and no other has its high bit clear. `varint_eq_ok_iff` says that the reader accepts
these bytes and no others, shortest or not, and `spells_encodeVarint` that the writer makes such.
-/

namespace WorkspaceSync.Wire

/-- The number that groups of seven bits spell. -/
def spelled : Bytes → Nat
  | [] => 0
  | b :: rest => b.toNat % 128 + 128 * spelled rest

/-- Bytes of which exactly the last one ends a number. -/
inductive Groups : Bytes → Prop where
  | last {b : UInt8} (ends : b < 0x80) : Groups [b]
  | more {b : UInt8} {rest : Bytes} (goesOn : ¬ b < 0x80) (groups : Groups rest) :
      Groups (b :: rest)

/-- The bytes `code` are a varint of value `v`. What does not fit into 64 bits is lost. -/
structure Spells (code : Bytes) (v : UInt64) : Prop where
  groups : Groups code
  short : code.length ≤ Reader.maxVarintSize
  value : UInt64.ofNat (spelled code) = v

namespace Reader

/-- Between two readers lie the bytes `code`. -/
structure Passes (r : Reader) (code : Bytes) (r' : Reader) : Prop where
  rest : r.rest = code ++ r'.rest
  offset : r'.offset = r.offset + code.length

variable {r r' r'' : Reader} {code code' : Bytes}

theorem Passes.trans (h : r.Passes code r') (h' : r'.Passes code' r'') :
    r.Passes (code ++ code') r'' where
  rest := by rw [h.rest, h'.rest, List.append_assoc]
  offset := by rw [h'.offset, h.offset, List.length_append, Nat.add_assoc]

theorem Passes.split (h : r.Passes (code ++ code') r') :
    ∃ m, r.Passes code m ∧ m.Passes code' r' := by
  obtain ⟨rest, offset⟩ := h
  refine ⟨⟨r.offset + code.length, code' ++ r'.rest⟩, ⟨?_, rfl⟩, rfl, ?_⟩
  · rw [rest, List.append_assoc]
  · rw [offset, List.length_append, Nat.add_assoc]

theorem passes_advance {n : Nat} (h : n ≤ r.rest.length) :
    r.Passes (r.rest.take n) (r.advance n) where
  rest := by rw [rest_advance, List.take_append_drop]
  offset := by rw [offset_advance, List.length_take, Nat.min_eq_left h]

theorem Passes.advance_eq (h : r.Passes code r') : r.advance code.length = r' := by
  obtain ⟨rest, offset⟩ := h
  cases r'
  simp_all [advance]

theorem Passes.eq_of_nil (h : r.Passes [] r') : r = r' := by
  rw [← h.advance_eq, List.length_nil, advance, Nat.add_zero, List.drop_zero]

/-! ## Adding up the groups -/

theorem toNat_group (b : UInt8) : (b &&& 0x7F).toUInt64.toNat = b.toNat % 128 := by
  rw [UInt8.toNat_toUInt64, UInt8.toNat_and]
  exact Nat.and_two_pow_sub_one_eq_mod b.toNat 7

/-- A group below the sum of the groups after it. -/
theorem group_or {shift : Nat} (small : shift < 64) (b : UInt8) (n : Nat) :
    ((b &&& 0x7F).toUInt64 <<< shift.toUInt64 ||| UInt64.ofNat (2 ^ (shift + 7) * n)) =
      UInt64.ofNat (2 ^ shift * (b.toNat % 128 + 128 * n)) := by
  have amount : shift.toUInt64.toNat % 64 = shift := by
    rw [Nat.toUInt64_eq, UInt64.toNat_ofNat']
    omega
  have below : 2 ^ shift * (b.toNat % 128) < 2 ^ (shift + 7) := by
    rw [Nat.pow_add]
    exact Nat.mul_lt_mul_of_pos_left (Nat.mod_lt _ (by decide)) (Nat.two_pow_pos shift)
  have sum : 2 ^ shift * (b.toNat % 128 + 128 * n) =
      2 ^ (shift + 7) * n + 2 ^ shift * (b.toNat % 128) := by
    rw [Nat.pow_add, Nat.mul_add, Nat.add_comm, Nat.mul_assoc]
  apply UInt64.toNat_inj.1
  rw [UInt64.toNat_or, UInt64.toNat_shiftLeft, amount, toNat_group, UInt64.toNat_ofNat',
    UInt64.toNat_ofNat', Nat.shiftLeft_eq, ← Nat.or_mod_two_pow, sum,
    Nat.two_pow_add_eq_or_of_lt below, Nat.or_comm, Nat.mul_comm (b.toNat % 128)]

theorem scanVarint_append {fuel shift : Nat} (groups : Groups code) (enough : code.length ≤ fuel)
    (small : shift + 7 * fuel ≤ 70) (rest : Bytes) :
    scanVarint fuel shift (code ++ rest) =
      .complete (UInt64.ofNat (2 ^ shift * spelled code)) code.length := by
  induction groups generalizing fuel shift with
  | @last b ends =>
    obtain ⟨fuel, rfl⟩ : ∃ n, fuel = n + 1 := ⟨fuel - 1, by simp at enough; omega⟩
    have value := group_or (show shift < 64 by omega) b 0
    simp only [Nat.mul_zero, Nat.add_zero] at value
    rw [List.cons_append, List.length_singleton, scanVarint, if_pos ends]
    simp only [spelled, Nat.mul_zero, Nat.add_zero, ← value]
    simp
  | @more b code goesOn groups ih =>
    obtain ⟨fuel, rfl⟩ : ∃ n, fuel = n + 1 := ⟨fuel - 1, by simp at enough; omega⟩
    have within : code.length ≤ fuel := by simpa using enough
    have later := ih within (show shift + 7 + 7 * fuel ≤ 70 by omega)
    rw [List.cons_append, scanVarint, if_neg goesOn, later, List.length_cons, spelled]
    exact congrArg (VarintScan.complete · _) (group_or (by omega) b _)

theorem groups_of_scanVarint {fuel shift n : Nat} {b : Bytes} {v : UInt64}
    (h : scanVarint fuel shift b = .complete v n) :
    n ≤ fuel ∧ n ≤ b.length ∧ Groups (b.take n) := by
  induction fuel generalizing shift b v n with
  | zero => simp [scanVarint] at h
  | succ fuel ih =>
    cases b with
    | nil => simp [scanVarint] at h
    | cons c b =>
      rw [scanVarint] at h
      split at h
      · rename_i ends
        obtain ⟨-, rfl⟩ : _ ∧ 1 = n := by simpa using h
        exact ⟨by omega, by simp, .last ends⟩
      · rename_i goesOn
        split at h
        · rename_i v' n' later
          obtain ⟨-, rfl⟩ : _ ∧ n' + 1 = n := by simpa using h
          obtain ⟨enough, within, groups⟩ := ih later
          exact ⟨by omega, by simpa using within, .more goesOn groups⟩
        · rename_i unfinished
          exact absurd h (unfinished v n)

/-- The reader accepts every varint at the front of a message, and nothing else. -/
theorem varint_eq_ok_iff {v : UInt64} :
    r.varint = (.ok v, r') ↔ ∃ code, Spells code v ∧ r.Passes code r' := by
  constructor
  · intro h
    unfold varint at h
    split at h
    · rename_i n scanned
      obtain ⟨short, within, groups⟩ := groups_of_scanVarint scanned
      have length : (r.rest.take n).length = n := by
        rw [List.length_take, Nat.min_eq_left within]
      have again := scanVarint_append groups (Nat.le_trans (Nat.le_of_eq length) short)
        (show 0 + 7 * maxVarintSize ≤ 70 by decide) (r.rest.drop n)
      rw [List.take_append_drop, scanned, Nat.pow_zero, Nat.one_mul] at again
      obtain ⟨value, -⟩ := VarintScan.complete.inj again
      obtain ⟨read, rfl⟩ := Prod.mk.inj h
      refine ⟨r.rest.take n, ⟨groups, ?_, ?_⟩, passes_advance within⟩
      · rw [length]
        exact short
      · rw [← value]
        exact Except.ok.inj read
    · simp at h
    · simp at h
  · rintro ⟨code, spells, passes⟩
    have scanned := scanVarint_append spells.groups spells.short
      (show 0 + 7 * maxVarintSize ≤ 70 by decide) r'.rest
    rw [← passes.rest, Nat.pow_zero, Nat.one_mul, spells.value] at scanned
    simp only [varint, scanned, passes.advance_eq]

end Reader

/-! ## What the writer makes -/

theorem toNat_shiftRight_seven (v : UInt64) : (v >>> 7).toNat = v.toNat / 128 := by
  simp [UInt64.toNat_shiftRight, Nat.shiftRight_eq_div_pow]

theorem lt_iff_toNat_lt_base (v : UInt64) : v < 0x80 ↔ v.toNat < 128 := UInt64.lt_iff_toNat_lt

theorem groups_encodeVarint (v : UInt64) : Groups (encodeVarint v) := by
  induction v using encodeVarint.induct with
  | case1 v small =>
    rw [encodeVarint, if_pos small]
    rw [lt_iff_toNat_lt_base] at small
    apply Groups.last
    rw [UInt8.lt_iff_toNat_lt, UInt64.toNat_toUInt8]
    exact Nat.lt_of_le_of_lt (Nat.mod_le _ _) small
  | case2 v large ih =>
    rw [encodeVarint, if_neg large]
    apply Groups.more _ ih
    rw [UInt8.lt_iff_toNat_lt, UInt8.toNat_or, Nat.not_lt]
    exact Nat.right_le_or

theorem spelled_encodeVarint (v : UInt64) : spelled (encodeVarint v) = v.toNat := by
  induction v using encodeVarint.induct with
  | case1 v small =>
    rw [encodeVarint, if_pos small, spelled, spelled, UInt64.toNat_toUInt8]
    rw [lt_iff_toNat_lt_base] at small
    omega
  | case2 v large ih =>
    have group : (v.toUInt8 ||| 0x80).toNat % 128 = v.toNat % 128 := by
      rw [UInt8.toNat_or, Nat.or_mod_two_pow (n := 7), UInt64.toNat_toUInt8]
      simp
    rw [encodeVarint, if_neg large, spelled, ih, group, toNat_shiftRight_seven, Nat.mod_add_div]

theorem length_encodeVarint_le_of_lt {n : Nat} {v : UInt64} (h : v.toNat < 128 ^ (n + 1)) :
    (encodeVarint v).length ≤ n + 1 := by
  induction n generalizing v with
  | zero =>
    rw [encodeVarint, if_pos ((lt_iff_toNat_lt_base v).2 h)]
    simp
  | succ n ih =>
    rw [encodeVarint]
    split
    · simp
    · rw [List.length_cons]
      apply Nat.succ_le_succ
      apply ih
      rw [toNat_shiftRight_seven, Nat.div_lt_iff_lt_mul (by decide), ← Nat.pow_succ]
      exact h

theorem length_encodeVarint_le (v : UInt64) : (encodeVarint v).length ≤ Reader.maxVarintSize :=
  length_encodeVarint_le_of_lt (n := 9) (Nat.lt_trans v.toNat_lt (by decide))

theorem spells_encodeVarint (v : UInt64) : Spells (encodeVarint v) v where
  groups := groups_encodeVarint v
  short := length_encodeVarint_le v
  value := by rw [spelled_encodeVarint, UInt64.ofNat_toNat]

theorem spells_single {b : UInt8} (small : b < 0x80) : Spells [b] b.toUInt64 := by
  have spells := spells_encodeVarint b.toUInt64
  have few : b.toUInt64 < 0x80 := (lt_iff_toNat_lt_base _).2 (UInt8.lt_iff_toNat_lt.1 small)
  rwa [encodeVarint, if_pos few, UInt8.toUInt8_toUInt64] at spells

end WorkspaceSync.Wire
