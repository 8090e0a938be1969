import Mathlib.Algebra.BigOperators.Fin
import WorkspaceSync.Proofs.Wire.Progress

/-!
# Varints are numbers to the base 128

The low seven bits of a byte are a digit, and the first byte below 128 holds the last digit. Reading
looks for that byte among the next ten, and every message has it there, or ends before, or goes on
for too long; `varint_base128` says what comes of each. Of all varints of a number the one that is
written is the shortest. Ten digits have room for more than 64 bits: what does not fit is lost in
reading, but nothing that is written has such bits.
-/

namespace WorkspaceSync.Wire

variable {code b : Bytes} {v : UInt64}

/-! ## Digits and their weights -/

/-- The low seven bits of every byte, each times its power of 128. -/
def digitSum (code : Bytes) : Nat :=
  ∑ i : Fin code.length, code[i].toNat % 2 ^ 7 * 2 ^ (7 * i.val)

theorem spelled_eq_digitSum (code : Bytes) : spelled code = digitSum code := by
  induction code with
  | nil => rfl
  | cons b rest ih =>
    rw [spelled, ih, digitSum, digitSum]
    change _ = ∑ i : Fin (rest.length + 1), _
    rw [Fin.sum_univ_succ, Finset.mul_sum]
    congr 1
    · simp
    · apply Finset.sum_congr rfl
      intro i _
      have weight : 2 ^ (7 * (i.val + 1)) = 128 * 2 ^ (7 * i.val) := by
        rw [Nat.mul_succ, Nat.pow_add, Nat.mul_comm]
      simp [weight, Nat.mul_left_comm]

theorem spelled_lt (code : Bytes) : spelled code < 128 ^ code.length := by
  induction code with
  | nil => exact Nat.one_pos
  | cons b rest ih =>
    have digit : b.toNat % 128 < 128 := Nat.mod_lt _ (by decide)
    rw [spelled, List.length_cons, Nat.pow_succ]
    omega

theorem groups_append_singleton {before : Bytes} {last : UInt8}
    (goOn : ∀ x ∈ before, ¬ x < 0x80) (ends : last < 0x80) : Groups (before ++ [last]) := by
  induction before with
  | nil => exact .last ends
  | cons x before ih =>
    obtain ⟨goesOn, goOn⟩ := List.forall_mem_cons.1 goOn
    exact .more goesOn (ih goOn)

theorem Groups.exists_mem (groups : Groups code) : ∃ x ∈ code, x < 0x80 := by
  induction groups with
  | last ends => exact ⟨_, List.mem_cons_self, ends⟩
  | more _ _ ih =>
    obtain ⟨x, mem, ends⟩ := ih
    exact ⟨x, List.mem_cons_of_mem _ mem, ends⟩

/-! ## Reading -/

namespace Reader

variable {r r' : Reader}

theorem varint_of_ends {before after : Bytes} {last : UInt8}
    (rest : r.rest = before ++ last :: after) (short : before.length < maxVarintSize)
    (goOn : ∀ x ∈ before, ¬ x < 0x80) (ends : last < 0x80) :
    r.varint = (.ok (UInt64.ofNat (digitSum (before ++ [last]))),
      ⟨r.offset + before.length + 1, after⟩) := by
  refine varint_eq_ok_iff.2 ⟨before ++ [last], ⟨groups_append_singleton goOn ends, ?_, ?_⟩, ?_, ?_⟩
  · rw [List.length_append, List.length_singleton]
    exact short
  · rw [spelled_eq_digitSum]
  · rw [rest, List.append_assoc, List.singleton_append]
  · rw [List.length_append, List.length_singleton, Nat.add_assoc]

theorem scanVarint_of_goOn (fuel shift : Nat) (goOn : ∀ x ∈ b.take fuel, ¬ x < 0x80) :
    scanVarint fuel shift b = if b.length < fuel then .unfinished else .tooLong := by
  induction fuel generalizing shift b with
  | zero => rfl
  | succ fuel ih =>
    cases b with
    | nil => rfl
    | cons x b =>
      obtain ⟨goesOn, goOn⟩ := List.forall_mem_cons.1 goOn
      rw [scanVarint, if_neg goesOn, ih _ goOn, List.length_cons]
      simp only [Nat.add_lt_add_iff_right]
      by_cases short : b.length < fuel
      · simp only [if_pos short]
      · simp only [if_neg short]

theorem varint_of_short (short : r.rest.length < maxVarintSize)
    (goOn : ∀ x ∈ r.rest, ¬ x < 0x80) :
    r.varint = (.error (.truncated (r.offset + r.rest.length)), r.advance r.rest.length) := by
  have scanned := scanVarint_of_goOn maxVarintSize 0
    fun x mem => goOn x (List.mem_of_mem_take mem)
  rw [if_pos short] at scanned
  rw [varint, scanned]

theorem varint_of_long (long : maxVarintSize ≤ r.rest.length)
    (goOn : ∀ x ∈ r.rest.take maxVarintSize, ¬ x < 0x80) :
    r.varint = (.error (.varintOverflow r.offset), r.advance maxVarintSize) := by
  have scanned := scanVarint_of_goOn maxVarintSize 0 goOn
  rw [if_neg (Nat.not_lt.2 long)] at scanned
  rw [varint, scanned]

theorem exists_varint_iff :
    (∃ v r', r.varint = (.ok v, r')) ↔ ∃ x ∈ r.rest.take maxVarintSize, x < 0x80 := by
  constructor
  · rintro ⟨v, r', read⟩
    obtain ⟨code, spells, passes⟩ := varint_eq_ok_iff.1 read
    obtain ⟨x, mem, ends⟩ := spells.groups.exists_mem
    refine ⟨x, ?_, ends⟩
    rw [passes.rest, List.take_append, List.take_of_length_le spells.short]
    exact List.mem_append_left _ mem
  · rintro ⟨x, mem, ends⟩
    have found : ((r.rest.take maxVarintSize).find? fun x => decide (x < 0x80)).isSome = true :=
      List.find?_isSome.2 ⟨x, mem, decide_eq_true ends⟩
    obtain ⟨last, first⟩ := Option.isSome_iff_exists.1 found
    obtain ⟨ends, before, after, split, goOn⟩ := List.find?_eq_some_iff_append.1 first
    have short := congrArg List.length split
    rw [List.length_append, List.length_cons] at short
    have most := List.length_take_le maxVarintSize r.rest
    have whole : r.rest = before ++ last :: (after ++ r.rest.drop maxVarintSize) := by
      rw [← List.cons_append, ← List.append_assoc, ← split, List.take_append_drop]
    refine ⟨_, _, varint_of_ends whole (by omega) ?_ (of_decide_eq_true ends)⟩
    intro y mem
    simpa using goOn y mem

end Reader

/-! ## Writing -/

theorem toNat_or_high (x : UInt8) : (x ||| 0x80).toNat = 128 + x.toNat % 128 := by
  have all : ∀ n < 256, n ||| 128 = 128 + n % 128 := by decide +kernel
  rw [UInt8.toNat_or]
  exact all x.toNat x.toNat_lt

/-- Any other varint of a number is longer than the one that is written. -/
theorem Groups.eq_or_longer (groups : Groups code) (value : spelled code = v.toNat) :
    code = encodeVarint v ∨ (encodeVarint v).length < code.length := by
  induction groups generalizing v with
  | @last x ends =>
    have small : x.toNat < 128 := UInt8.lt_iff_toNat_lt.1 ends
    have number : x.toNat = v.toNat := by
      simp only [spelled] at value
      omega
    rw [encodeVarint, if_pos ((lt_iff_toNat_lt_base v).2 (by omega))]
    left
    congr
    apply UInt8.toNat_inj.1
    rw [UInt64.toNat_toUInt8]
    omega
  | @more x rest goesOn groups ih =>
    have digit : 128 ≤ x.toNat := Nat.le_of_not_lt fun small => goesOn (UInt8.lt_iff_toNat_lt.2 small)
    have byte := x.toNat_lt
    rw [spelled] at value
    rw [encodeVarint]
    split
    · right
      have some_left : rest ≠ [] := by
        rintro rfl
        cases groups
      simpa using List.length_pos_iff.2 some_left
    · have higher : spelled rest = (v >>> 7).toNat := by
        rw [toNat_shiftRight_seven]
        omega
      rcases ih higher with same | longer
      · left
        rw [← same]
        congr
        apply UInt8.toNat_inj.1
        rw [toNat_or_high, UInt64.toNat_toUInt8]
        omega
      · right
        simpa using longer

/-- Of the codes that are read as a word, those that lose bits have ten bytes, and of the others the
one that is written is the shortest. -/
theorem Spells.eq_or_longer_or_wide (spells : Spells code v) :
    code = encodeVarint v ∨ (encodeVarint v).length < code.length ∨
      code.length = 10 ∧ 2 ^ 64 ≤ digitSum code := by
  rw [← spelled_eq_digitSum]
  by_cases fits : spelled code < 2 ^ 64
  · have value : spelled code = v.toNat := by
      rw [← spells.value, UInt64.toNat_ofNat', Nat.mod_eq_of_lt fits]
    rcases spells.groups.eq_or_longer value with same | longer
    · exact .inl same
    · exact .inr (.inl longer)
  · have ten : 9 < code.length := by
      by_contra few
      have below := Nat.lt_of_lt_of_le (spelled_lt code)
        (Nat.pow_le_pow_right (by decide) (Nat.le_of_not_lt few))
      omega
    exact .inr (.inr ⟨Nat.le_antisymm spells.short ten, Nat.le_of_not_lt fits⟩)

/-- What reading a varint comes to at a place in the message `b`. The first byte below 128 ends the
number; without it the message ends first or goes on for more than ten bytes. -/
structure Reader.ReadsBase128 (r : Reader) (b : Bytes) : Prop where
  succeeds : (∃ v r', r.varint = (.ok v, r')) ↔ ∃ x ∈ r.rest.take 10, x < 0x80
  number : ∀ before last after, r.rest = before ++ last :: after → before.length < 10 →
    (∀ x ∈ before, ¬ x < 0x80) → last < 0x80 →
    r.varint = (.ok (UInt64.ofNat (digitSum (before ++ [last]))),
      ⟨r.offset + before.length + 1, after⟩)
  truncated : r.rest.length < 10 → (∀ x ∈ r.rest, ¬ x < 0x80) →
    r.varint = (.error (.truncated b.length), ⟨b.length, []⟩)
  overflow : 10 ≤ r.rest.length → (∀ x ∈ r.rest.take 10, ¬ x < 0x80) →
    r.varint = (.error (.varintOverflow r.offset), ⟨r.offset + 10, r.rest.drop 10⟩)

/-- The bytes `code` are a varint of `n`, and every other one, however long, is longer. -/
structure IsShortest (code : Bytes) (n : Nat) : Prop where
  groups : Groups code
  number : digitSum code = n
  atMostTen : code.length ≤ 10
  unique : ∀ other, Groups other → digitSum other = n → other ≠ code → code.length < other.length

theorem isShortest_encodeVarint (v : UInt64) : IsShortest (encodeVarint v) v.toNat where
  groups := groups_encodeVarint v
  number := by rw [← spelled_eq_digitSum, spelled_encodeVarint]
  atMostTen := length_encodeVarint_le v
  unique other groups number differs := by
    rw [← spelled_eq_digitSum] at number
    exact (groups.eq_or_longer number).resolve_left differs

/-- At every place of every message a varint is read as the number to the base 128 that its bytes
are, modulo `2 ^ 64`. The writer makes the shortest varint of every word: whatever else is read as
that word is longer, or has ten bytes and loses bits. The word is read back from what was written,
whatever follows it. -/
theorem varint_base128 (r : Reader) (b : Bytes) (place : r.Within b) (v : UInt64) :
    r.ReadsBase128 b ∧ IsShortest (encodeVarint v) v.toNat ∧
      (∀ other, Spells other v → other = encodeVarint v ∨
        (encodeVarint v).length < other.length ∨ other.length = 10 ∧ 2 ^ 64 ≤ digitSum other) ∧
      ∀ (offset : Nat) (rest : Bytes), (Reader.mk offset (encodeVarint v ++ rest)).varint =
        (.ok v, ⟨offset + (encodeVarint v).length, rest⟩) := by
  refine ⟨⟨Reader.exists_varint_iff, ?_, ?_, ?_⟩, isShortest_encodeVarint v,
    fun _ => Spells.eq_or_longer_or_wide, ?_⟩
  · intro before last after rest short goOn ends
    exact Reader.varint_of_ends rest short goOn ends
  · intro short goOn
    rw [Reader.varint_of_short short goOn, Reader.advance, place.length_rest, List.drop_length]
  · intro long goOn
    exact Reader.varint_of_long long goOn
  · intro offset rest
    exact Reader.varint_eq_ok_iff.2 ⟨encodeVarint v, spells_encodeVarint v, rfl, rfl⟩

/-- Within a message the word 300, behind a key and before another byte; at the end of a message a
number without an end; and one with ten bytes that all go on. -/
theorem varints_in_messages :
    Reader.Within ⟨1, [0xAC, 0x02, 0x01]⟩ [0x08, 0xAC, 0x02, 0x01] ∧
      Reader.varint ⟨1, [0xAC, 0x02, 0x01]⟩ = (.ok 300, ⟨3, [0x01]⟩) ∧
      Reader.varint ⟨1, [0xAC]⟩ = (.error (.truncated 2), ⟨2, []⟩) ∧
      Reader.varint ⟨1, List.replicate 11 0x80⟩ = (.error (.varintOverflow 1), ⟨11, [0x80]⟩) := by
  have place : Reader.Within ⟨1, [0xAC, 0x02, 0x01]⟩ [0x08, 0xAC, 0x02, 0x01] := ⟨by decide, rfl⟩
  have cut : Reader.Within ⟨1, [0xAC]⟩ [0x08, 0xAC] := ⟨by decide, rfl⟩
  have long : Reader.Within ⟨1, List.replicate 11 0x80⟩ (List.replicate 12 0x80) :=
    ⟨by decide, rfl⟩
  have goesOn : ∀ x ∈ ([0xAC] : Bytes), ¬ x < 0x80 := by
    intro x mem
    rw [List.mem_singleton.1 mem]
    decide
  have allGoOn : ∀ x ∈ (List.replicate 11 (0x80 : UInt8)).take 10, ¬ x < 0x80 := by
    intro x mem
    rw [List.eq_of_mem_replicate (List.mem_of_mem_take mem)]
    decide
  refine ⟨place, ?_, ?_, ?_⟩
  · exact (varint_base128 _ _ place 300).1.number [0xAC] 0x02 [0x01] rfl (by decide) goesOn
      (by decide)
  · exact (varint_base128 _ _ cut 0).1.truncated (by decide) goesOn
  · exact (varint_base128 _ _ long 0).1.overflow (by decide) allGoOn

/-- Of the tenth byte only the lowest bit counts, so two codes of ten bytes are read as one word. -/
example : Reader.varint ⟨0, List.replicate 9 0xFF ++ [0x03]⟩ =
    Reader.varint ⟨0, List.replicate 9 0xFF ++ [0x01]⟩ := by
  decide

end WorkspaceSync.Wire
