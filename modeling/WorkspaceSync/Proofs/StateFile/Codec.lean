import Mathlib.Algebra.Group.Nat.Defs
import WorkspaceSync.Proofs.SortedMap
import WorkspaceSync.StateFile.Codec

/-!
# Laws of codecs

Reading never looks past a value that it has found: what follows it stays behind, whatever it is. A
value that fits in memory is read back from its encoding, so a part of an encoding is none. A codec
may also write values that it does not read back; then it reads nothing at all in their place, and
so does every codec that is built from it.
-/

namespace WorkspaceSync

namespace Codec

variable {α β γ : Type}

/-! ## The laws -/

/-- Bytes that follow those that were read make no difference. -/
def Incremental (c : Codec α) : Prop :=
  ∀ ⦃b a rest⦄, c.decode b = some (a, rest) → ∀ q, c.decode (b ++ q) = some (a, rest ++ q)

/-- Lengths of texts and lists are words, so the law is about encodings of fewer than 2 ^ 64 bytes.
That none is empty bounds the length of a list by that of its encoding. -/
structure Restores (c : Codec α) (a : α) : Prop where
  nonempty : 0 < (c.encode a).length
  decode_encode : (c.encode a).length < 2 ^ 64 → c.decode (c.encode a) = some (a, [])

structure Lawful (c : Codec α) : Prop where
  incremental : c.Incremental
  restores : ∀ a, c.Restores a

/-- Where a value was written nothing is read, whatever follows it. -/
def Refuses (c : Codec α) (a : α) : Prop :=
  (c.encode a).length < 2 ^ 64 → ∀ q, c.decode (c.encode a ++ q) = none

/-- Just the values with a property are read back, and no other one is read from any bytes. -/
structure Selective (c : Codec α) (P : α → Prop) : Prop where
  incremental : c.Incremental
  restores : ∀ a, P a → c.Restores a
  refuses : ∀ a, ¬ P a → c.Refuses a
  yields : ∀ b a rest, c.decode b = some (a, rest) → P a

theorem Restores.decode_append {c : Codec α} {a : α} (restores : c.Restores a)
    (incremental : c.Incremental) (fits : (c.encode a).length < 2 ^ 64) (q : Bytes) :
    c.decode (c.encode a ++ q) = some (a, q) :=
  incremental (restores.decode_encode fits) q

/-- A part of an encoding, from its front, encodes nothing. -/
theorem Restores.decode_part {c : Codec α} {a : α} {p : Bytes} (restores : c.Restores a)
    (incremental : c.Incremental) (fits : (c.encode a).length < 2 ^ 64)
    (part : p <+: c.encode a) (strict : p ≠ c.encode a) : c.decode p = none := by
  obtain ⟨q, whole⟩ := part
  cases h : c.decode p with
  | none => rfl
  | some r =>
    have again := incremental h q
    rw [whole, restores.decode_encode fits] at again
    have ends : r.2 ++ q = [] := (congrArg Prod.snd (Option.some.inj again)).symm
    rw [(List.append_eq_nil_iff.1 ends).2, List.append_nil] at whole
    exact absurd whole strict

theorem Refuses.decode_part {c : Codec α} {a : α} {p : Bytes} (refuses : c.Refuses a)
    (incremental : c.Incremental) (fits : (c.encode a).length < 2 ^ 64) (part : p <+: c.encode a) :
    c.decode p = none := by
  obtain ⟨q, whole⟩ := part
  cases h : c.decode p with
  | none => rfl
  | some r =>
    have again := incremental h q
    rw [whole, ← List.append_nil (c.encode a), refuses fits []] at again
    cases again

/-- A strict part of an encoding encodes nothing, whether the whole is read back or not. -/
theorem Selective.decode_part {c : Codec α} {P : α → Prop} (hc : c.Selective P) {a : α} {p : Bytes}
    (fits : (c.encode a).length < 2 ^ 64) (part : p <+: c.encode a) (strict : p ≠ c.encode a) :
    c.decode p = none := by
  by_cases read : P a
  · exact (hc.restores a read).decode_part hc.incremental fits part strict
  · exact (hc.refuses a read).decode_part hc.incremental fits part

/-! ## Numbers -/

@[simp] theorem length_littleEndian (width n : Nat) : (littleEndian width n).length = width := by
  induction width generalizing n with
  | zero => rfl
  | succ width ih => rw [littleEndian, List.length_cons, ih]

theorem foldr_littleEndian (width n : Nat) :
    (littleEndian width n).foldr (fun x n => x.toNat + 256 * n) 0 = n % 256 ^ width := by
  induction width generalizing n with
  | zero => rw [littleEndian, List.foldr_nil, Nat.pow_zero, Nat.mod_one]
  | succ width ih =>
    have byte : (UInt8.ofNat n).toNat = n % 256 := UInt8.toNat_ofNat'
    rw [littleEndian, List.foldr_cons, ih, byte, Nat.pow_succ', Nat.mod_mul]

theorem readLittleEndian_littleEndian (width : Nat) {n : Nat} (below : n < 256 ^ width) :
    readLittleEndian width (littleEndian width n) = some (n, []) := by
  have whole : (littleEndian width n).take width = littleEndian width n :=
    List.take_of_length_le (Nat.le_of_eq (length_littleEndian width n))
  have none_left : (littleEndian width n).drop width = [] :=
    List.drop_of_length_le (Nat.le_of_eq (length_littleEndian width n))
  rw [readLittleEndian, if_neg (by rw [length_littleEndian]; exact Nat.lt_irrefl _), whole,
    none_left, foldr_littleEndian, Nat.mod_eq_of_lt below]

theorem readLittleEndian_append {width n : Nat} {b rest : Bytes}
    (h : readLittleEndian width b = some (n, rest)) (q : Bytes) :
    readLittleEndian width (b ++ q) = some (n, rest ++ q) := by
  unfold readLittleEndian at h ⊢
  split at h
  · cases h
  · rename_i enough
    obtain ⟨rfl, rfl⟩ := Prod.mk.inj (Option.some.inj h)
    have long : width ≤ b.length := Nat.le_of_not_lt enough
    rw [if_neg (by rw [List.length_append]; omega), List.take_append_of_le_length long,
      List.drop_append_of_le_length long]

theorem decodeNatural_append {width n : Nat} {b rest : Bytes}
    (h : decodeNatural width b = some (n, rest)) (q : Bytes) :
    decodeNatural width (b ++ q) = some (n, rest ++ q) := by
  cases b with
  | nil => cases h
  | cons x b =>
    rw [decodeNatural] at h
    rw [List.cons_append, decodeNatural]
    split at h
    · rename_i small
      obtain ⟨rfl, rfl⟩ := Prod.mk.inj (Option.some.inj h)
      rw [if_pos small]
    · rename_i large
      rw [if_neg large]
      split_ifs at h ⊢
      all_goals exact readLittleEndian_append h q

theorem length_encodeNatural_pos (n : Nat) : 0 < (encodeNatural n).length := by
  unfold encodeNatural
  split_ifs <;> exact Nat.succ_pos _

theorem length_encodeNatural_le (n : Nat) : (encodeNatural n).length ≤ 17 := by
  unfold encodeNatural
  split_ifs <;> simp

/-- A number is read back where its width is one of those that are in use. -/
theorem decodeNatural_encodeNatural {width n : Nat} (used : width ∈ [4, 8, 16])
    (small : n < 256 ^ width) : decodeNatural width (encodeNatural n) = some (n, []) := by
  have wide : 4 ≤ width ∧ (0x100000000 ≤ n → 8 ≤ width) ∧
      (0x10000000000000000 ≤ n → 16 ≤ width) ∧ n < 256 ^ 16 := by
    simp only [List.mem_cons, List.not_mem_nil, or_false] at used
    rcases used with rfl | rfl | rfl <;> omega
  obtain ⟨two, eight, sixteen, below⟩ := wide
  unfold encodeNatural
  split_ifs with h₁ h₂ h₃ h₄
  · have byte : UInt8.ofNat n < mark2 := by
      rw [UInt8.lt_iff_toNat_lt, UInt8.toNat_ofNat']
      have : mark2.toNat = 251 := rfl
      omega
    rw [decodeNatural, if_pos byte, UInt8.toNat_ofNat', Nat.mod_eq_of_lt (by omega)]
  · have room : 2 ≤ width := by omega
    simp [decodeNatural, mark2, room, readLittleEndian_littleEndian 2 h₂]
  · simp [decodeNatural, mark2, mark4, two, readLittleEndian_littleEndian 4 h₃]
  · simp [decodeNatural, mark2, mark4, mark8, eight (by omega), readLittleEndian_littleEndian 8 h₄]
  · simp [decodeNatural, mark2, mark4, mark8, mark16, sixteen (by omega),
      readLittleEndian_littleEndian 16 below]

theorem incremental_natural (width : Nat) : (natural width).Incremental :=
  fun _ _ _ h => decodeNatural_append h

theorem restores_natural {width n : Nat} (used : width ∈ [4, 8, 16]) (small : n < 256 ^ width) :
    (natural width).Restores n where
  nonempty := length_encodeNatural_pos n
  decode_encode _ := decodeNatural_encodeNatural used small

/-! ## Combinations -/

theorem decode_via_eq_some_iff {c : Codec β} {view : α → β} {back : β → Option α} {b rest : Bytes}
    {a : α} : (c.via view back).decode b = some (a, rest) ↔
      ∃ x, c.decode b = some (x, rest) ∧ back x = some a := by
  unfold Codec.via
  dsimp only
  cases c.decode b with
  | none => simp
  | some r =>
    obtain ⟨x, after⟩ := r
    cases hx : back x with
    | none => simp [hx]
    | some a' => simp [hx, and_comm]

theorem decode_pair_eq_some_iff {c : Codec α} {d : Codec β} {b rest : Bytes} {x : α × β} :
    (c.pair d).decode b = some (x, rest) ↔
      ∃ between, c.decode b = some (x.1, between) ∧ d.decode between = some (x.2, rest) := by
  unfold Codec.pair
  dsimp only
  cases c.decode b with
  | none => simp
  | some r => simp [Prod.ext_iff, and_comm]

theorem decode_raw_eq_some_iff {n : Nat} {b x rest : Bytes} :
    (raw n).decode b = some (x, rest) ↔ x.length = n ∧ b = x ++ rest := by
  unfold raw
  dsimp only
  constructor
  · intro h
    split at h
    · cases h
    · obtain ⟨rfl, rfl⟩ := Prod.mk.inj (Option.some.inj h)
      exact ⟨List.length_take_of_le (by omega), (List.take_append_drop n b).symm⟩
  · rintro ⟨rfl, rfl⟩
    rw [if_neg (by simp), List.take_left, List.drop_left]

theorem encode_via {c : Codec β} {view : α → β} {back : β → Option α} {a : α} :
    (c.via view back).encode a = c.encode (view a) := rfl

theorem Incremental.via {c : Codec β} {view : α → β} {back : β → Option α} (hc : c.Incremental) :
    (c.via view back).Incremental := by
  intro b a rest h q
  rw [decode_via_eq_some_iff] at h ⊢
  obtain ⟨x, read, inverse⟩ := h
  exact ⟨x, hc read q, inverse⟩

theorem Restores.via {c : Codec β} {view : α → β} {back : β → Option α} {a : α}
    (hc : c.Restores (view a)) (inverse : back (view a) = some a) :
    (c.via view back).Restores a where
  nonempty := hc.nonempty
  decode_encode fits := decode_via_eq_some_iff.2 ⟨view a, hc.decode_encode fits, inverse⟩

theorem length_encode_pair {c : Codec α} {d : Codec β} {x : α × β} :
    ((c.pair d).encode x).length = (c.encode x.1).length + (d.encode x.2).length :=
  List.length_append

theorem encode_pair_append {c : Codec α} {d : Codec β} {x : α × β} {q : Bytes} :
    (c.pair d).encode x ++ q = c.encode x.1 ++ (d.encode x.2 ++ q) :=
  List.append_assoc _ _ _

theorem Incremental.pair {c : Codec α} {d : Codec β} (hc : c.Incremental) (hd : d.Incremental) :
    (c.pair d).Incremental := by
  intro b x rest h q
  rw [decode_pair_eq_some_iff] at h ⊢
  obtain ⟨between, first, second⟩ := h
  exact ⟨between ++ q, hc first q, hd second q⟩

theorem Restores.pair {c : Codec α} {d : Codec β} {x : α × β} (hc : c.Restores x.1)
    (incremental : c.Incremental) (hd : d.Restores x.2) : (c.pair d).Restores x where
  nonempty := List.length_append ▸ Nat.add_pos_left hc.nonempty _
  decode_encode fits := by
    rw [length_encode_pair] at fits
    rw [decode_pair_eq_some_iff]
    exact ⟨d.encode x.2, hc.decode_append incremental (by omega) (d.encode x.2),
      hd.decode_encode (by omega)⟩

theorem Lawful.via {c : Codec β} {view : α → β} {back : β → Option α} (hc : c.Lawful)
    (inverse : ∀ a, back (view a) = some a) : (c.via view back).Lawful :=
  ⟨hc.incremental.via, fun a => (hc.restores (view a)).via (inverse a)⟩

theorem Lawful.pair {c : Codec α} {d : Codec β} (hc : c.Lawful) (hd : d.Lawful) :
    (c.pair d).Lawful :=
  ⟨hc.incremental.pair hd.incremental,
    fun x => (hc.restores x.1).pair hc.incremental (hd.restores x.2)⟩

theorem Refuses.via {c : Codec β} {view : α → β} {back : β → Option α} {a : α}
    (hc : c.Refuses (view a)) : (c.via view back).Refuses a := by
  intro fits q
  rw [Option.eq_none_iff_forall_ne_some]
  intro r read
  obtain ⟨x, written, -⟩ := decode_via_eq_some_iff.1 read
  rw [encode_via, hc fits q] at written
  cases written

theorem Refuses.pair_left {c : Codec α} {d : Codec β} {x : α × β} (hc : c.Refuses x.1) :
    (c.pair d).Refuses x := by
  intro fits q
  rw [length_encode_pair] at fits
  rw [Option.eq_none_iff_forall_ne_some]
  intro r read
  obtain ⟨between, first, -⟩ := decode_pair_eq_some_iff.1 read
  rw [encode_pair_append, hc (by omega)] at first
  cases first

theorem Refuses.pair_right {c : Codec α} {d : Codec β} {x : α × β} (hd : d.Refuses x.2)
    (hc : c.Lawful) : (c.pair d).Refuses x := by
  intro fits q
  rw [length_encode_pair] at fits
  rw [Option.eq_none_iff_forall_ne_some]
  intro r read
  obtain ⟨between, first, second⟩ := decode_pair_eq_some_iff.1 read
  rw [encode_pair_append, (hc.restores x.1).decode_append hc.incremental (by omega)] at first
  obtain ⟨-, rfl⟩ := Prod.mk.inj (Option.some.inj first)
  rw [hd (by omega)] at second
  cases second

/-- What is written of a value may tell all about it and still not be read as that value. -/
theorem Lawful.selectiveVia {c : Codec β} {view : α → β} {back : β → Option α} {P : α → Prop}
    (hc : c.Lawful) (inverse : ∀ a, P a → back (view a) = some a)
    (refused : ∀ a, ¬ P a → back (view a) = none) (valid : ∀ x a, back x = some a → P a) :
    (c.via view back).Selective P where
  incremental := hc.incremental.via
  restores a read := (hc.restores (view a)).via (inverse a read)
  refuses a unread := by
    intro fits q
    rw [Option.eq_none_iff_forall_ne_some]
    intro r read
    obtain ⟨x, written, same⟩ := decode_via_eq_some_iff.1 read
    rw [encode_via, (hc.restores (view a)).decode_append hc.incremental fits] at written
    obtain ⟨rfl, -⟩ := Prod.mk.inj (Option.some.inj written)
    rw [refused a unread] at same
    cases same
  yields b a rest read := by
    obtain ⟨x, -, same⟩ := decode_via_eq_some_iff.1 read
    exact valid x a same

theorem Selective.via {c : Codec β} {view : α → β} {back : β → Option α} {P : β → Prop}
    (hc : c.Selective P) (inverse : ∀ a, back (view a) = some a)
    (packed : ∀ x a, back x = some a → view a = x) :
    (c.via view back).Selective fun a => P (view a) where
  incremental := hc.incremental.via
  restores a read := (hc.restores (view a) read).via (inverse a)
  refuses a unread := (hc.refuses (view a) unread).via
  yields b a rest read := by
    obtain ⟨x, inner, same⟩ := decode_via_eq_some_iff.1 read
    rw [packed x a same]
    exact hc.yields b x rest inner

theorem Selective.pairRight {c : Codec α} {d : Codec β} {P : α → Prop} (hc : c.Selective P)
    (hd : d.Lawful) : (c.pair d).Selective fun x => P x.1 where
  incremental := hc.incremental.pair hd.incremental
  restores x read := (hc.restores x.1 read).pair hc.incremental (hd.restores x.2)
  refuses x unread := (hc.refuses x.1 unread).pair_left
  yields b x rest read := by
    obtain ⟨between, first, -⟩ := decode_pair_eq_some_iff.1 read
    exact hc.yields b x.1 between first

theorem Lawful.pairSelective {c : Codec α} {d : Codec β} {P : β → Prop} (hc : c.Lawful)
    (hd : d.Selective P) : (c.pair d).Selective fun x => P x.2 where
  incremental := hc.incremental.pair hd.incremental
  restores x read := (hc.restores x.1).pair hc.incremental (hd.restores x.2 read)
  refuses x unread := (hd.refuses x.2 unread).pair_right hc
  yields b x rest read := by
    obtain ⟨between, -, second⟩ := decode_pair_eq_some_iff.1 read
    exact hd.yields between x.2 rest second

theorem lawful_word32 : word32.Lawful where
  incremental := (incremental_natural 4).via
  restores n := (restores_natural (by decide) n.toNat_lt).via (congrArg some UInt32.ofNat_toNat)

theorem lawful_word64 : word64.Lawful where
  incremental := (incremental_natural 8).via
  restores n := (restores_natural (by decide) n.toNat_lt).via (congrArg some UInt64.ofNat_toNat)

theorem lawful_word128 : word128.Lawful where
  incremental := (incremental_natural 16).via
  restores n := (restores_natural (by decide) n.isLt).via
    (by rw [BitVec.ofNat_toNat, BitVec.setWidth_eq])

theorem lawful_flag : flag.Lawful where
  incremental b a rest h q := by
    unfold flag at h ⊢
    dsimp only at h ⊢
    cases b with
    | nil => cases h
    | cons x b =>
      rw [List.cons_append]
      dsimp only at h ⊢
      split_ifs at h ⊢
      all_goals
        obtain ⟨rfl, rfl⟩ := Prod.mk.inj (Option.some.inj h)
        rfl
  restores x := ⟨Nat.one_pos, fun _ => by cases x <;> rfl⟩

theorem incremental_raw (n : Nat) : (raw n).Incremental := by
  intro b x rest h q
  rw [decode_raw_eq_some_iff] at h ⊢
  obtain ⟨length, rfl⟩ := h
  exact ⟨length, List.append_assoc x rest q⟩

theorem restores_raw {n : Nat} {b : Bytes} (length : b.length = n) (some_bytes : 0 < n) :
    (raw n).Restores b where
  nonempty := length ▸ some_bytes
  decode_encode _ := decode_raw_eq_some_iff.2 ⟨length, (List.append_nil b).symm⟩

theorem lawful_text : text.Lawful where
  incremental b a rest h q := by
    unfold text at h ⊢
    dsimp only at h ⊢
    cases hb : decodeNatural 8 b with
    | none =>
      rw [hb] at h
      cases h
    | some r =>
      rw [hb] at h
      rw [decodeNatural_append hb q]
      dsimp only at h ⊢
      split at h
      · cases h
      · rename_i enough
        obtain ⟨s, hs, same⟩ := Option.map_eq_some_iff.1 h
        obtain ⟨rfl, rfl⟩ := Prod.mk.inj same
        have long : r.1 ≤ r.2.length := Nat.le_of_not_lt enough
        rw [if_neg (by rw [List.length_append]; omega), List.take_append_of_le_length long,
          List.drop_append_of_le_length long, hs]
        rfl
  restores s := by
    refine ⟨?_, fun fits => ?_⟩
    · unfold text
      dsimp only
      rw [List.length_append]
      exact Nat.add_pos_left (length_encodeNatural_pos _) _
    · unfold text at fits ⊢
      dsimp only at fits ⊢
      rw [List.length_append] at fits
      have length : decodeNatural 8 (encodeNatural (Bytes.ofText s).length) =
          some ((Bytes.ofText s).length, []) := decodeNatural_encodeNatural (by decide) (by omega)
      rw [decodeNatural_append length]
      dsimp only
      rw [if_neg (by simp), List.nil_append, List.take_length, List.drop_length,
        Bytes.toText?_ofText]
      rfl

/-! ## Lists, tables and sets -/

theorem decodeMany_append {c : Codec α} (hc : c.Incremental) {n : Nat} {b rest : Bytes}
    {xs : List α} (h : decodeMany c.decode n b = some (xs, rest)) (q : Bytes) :
    decodeMany c.decode n (b ++ q) = some (xs, rest ++ q) := by
  induction n generalizing b xs with
  | zero =>
    obtain ⟨rfl, rfl⟩ := Prod.mk.inj (Option.some.inj h)
    rfl
  | succ n ih =>
    rw [decodeMany] at h ⊢
    cases hb : c.decode b with
    | none =>
      rw [hb] at h
      cases h
    | some r =>
      rw [hb] at h
      rw [hc hb q]
      obtain ⟨tail, ht, same⟩ := Option.map_eq_some_iff.1 h
      obtain ⟨rfl, rfl⟩ := Prod.mk.inj same
      exact Option.map_eq_some_iff.2 ⟨_, ih ht, rfl⟩

theorem decodeMany_encode {c : Codec α} (hc : c.Lawful) {xs : List α}
    (fits : (xs.flatMap c.encode).length < 2 ^ 64) :
    decodeMany c.decode xs.length (xs.flatMap c.encode) = some (xs, []) := by
  induction xs with
  | nil => rfl
  | cons x xs ih =>
    rw [List.flatMap_cons, List.length_append] at fits
    rw [List.length_cons, decodeMany, List.flatMap_cons,
      (hc.restores x).decode_append hc.incremental (by omega)]
    dsimp only
    rw [ih (by omega)]
    rfl

/-- A list is no longer than its encoding. -/
theorem length_le_length_flatMap {c : Codec α} (hc : c.Lawful) (xs : List α) :
    xs.length ≤ (xs.flatMap c.encode).length := by
  induction xs with
  | nil => exact Nat.le_refl 0
  | cons x xs ih =>
    have first := (hc.restores x).nonempty
    rw [List.flatMap_cons, List.length_append, List.length_cons]
    omega

theorem Lawful.list {c : Codec α} (hc : c.Lawful) : c.list.Lawful where
  incremental b a rest h q := by
    unfold Codec.list at h ⊢
    dsimp only at h ⊢
    cases hb : decodeNatural 8 b with
    | none =>
      rw [hb] at h
      cases h
    | some r =>
      rw [hb] at h
      rw [decodeNatural_append hb q]
      exact decodeMany_append hc.incremental h q
  restores xs := by
    refine ⟨?_, fun fits => ?_⟩
    · unfold Codec.list
      dsimp only
      rw [List.length_append]
      exact Nat.add_pos_left (length_encodeNatural_pos _) _
    · unfold Codec.list at fits ⊢
      dsimp only at fits ⊢
      rw [List.length_append] at fits
      have bound := length_le_length_flatMap hc xs
      have length : decodeNatural 8 (encodeNatural xs.length) = some (xs.length, []) :=
        decodeNatural_encodeNatural (by decide) (by omega)
      rw [decodeNatural_append length]
      exact decodeMany_encode hc (by omega)

theorem Incremental.optional {c : Codec α} (hc : c.Incremental) : c.optional.Incremental := by
  intro b a rest h q
  unfold Codec.optional at h ⊢
  dsimp only at h ⊢
  cases hb : flag.decode b with
  | none =>
    rw [hb] at h
    cases h
  | some r =>
    obtain ⟨present, after⟩ := r
    rw [hb] at h
    rw [lawful_flag.incremental hb q]
    cases present with
    | false =>
      obtain ⟨rfl, rfl⟩ := Prod.mk.inj (Option.some.inj h)
      rfl
    | true =>
      obtain ⟨x, hx, same⟩ := Option.map_eq_some_iff.1 h
      obtain ⟨rfl, rfl⟩ := Prod.mk.inj same
      exact Option.map_eq_some_iff.2 ⟨_, hc hx q, rfl⟩

/-- Behind the flag of a value that is there, the value decides. -/
theorem decode_optional_some (c : Codec α) (a : α) (q : Bytes) :
    c.optional.decode (c.optional.encode (some a) ++ q) =
      (c.decode (c.encode a ++ q)).map fun r => (some r.1, r.2) := rfl

theorem Restores.optional {c : Codec α} {a : Option α} (hc : ∀ x ∈ a, c.Restores x) :
    c.optional.Restores a := by
  cases a with
  | none => exact ⟨Nat.one_pos, fun _ => rfl⟩
  | some x =>
    refine ⟨Nat.succ_pos _, fun fits => ?_⟩
    have inner := (hc x rfl).decode_encode (Nat.lt_of_succ_lt fits)
    rw [← List.append_nil (c.optional.encode _), decode_optional_some, List.append_nil, inner]
    rfl

theorem Refuses.optional {c : Codec α} {x : α} (hc : c.Refuses x) :
    c.optional.Refuses (some x) := by
  intro fits q
  rw [decode_optional_some, hc (Nat.lt_of_succ_lt fits) q]
  rfl

theorem Lawful.optional {c : Codec α} (hc : c.Lawful) : c.optional.Lawful :=
  ⟨hc.incremental.optional, fun _ => .optional fun x _ => hc.restores x⟩

theorem Selective.optional {c : Codec α} {P : α → Prop} (hc : c.Selective P) :
    c.optional.Selective fun a => ∀ x ∈ a, P x where
  incremental := hc.incremental.optional
  restores _ read := .optional fun x mem => hc.restores x (read x mem)
  refuses a unread := by
    cases a with
    | none => exact absurd nofun unread
    | some x =>
      have unread : ¬ P x := by
        intro read
        apply unread
        rintro _ ⟨⟩
        exact read
      exact (hc.refuses x unread).optional
  yields b a rest read := by
    unfold Codec.optional at read
    dsimp only at read
    split at read
    · cases read
    · cases read
      exact nofun
    · obtain ⟨r, inner, same⟩ := Option.map_eq_some_iff.1 read
      obtain ⟨rfl, rfl⟩ := Prod.mk.inj same
      rintro _ ⟨⟩
      exact hc.yields _ _ _ inner

variable [Ord α] [Std.TransOrd α]

/-- A table comes back with the spelling of its keys. -/
theorem Lawful.table {c : Codec α} {d : Codec β} (hc : c.Lawful) (hd : d.Lawful) :
    (c.table d).Lawful :=
  (hc.pair hd).list.via fun m => congrArg some m.ofList_entries

theorem Lawful.set {c : Codec α} (hc : c.Lawful) : c.set.Lawful :=
  hc.list.via fun s => congrArg some (SortedSet.ofList_toList s)

end Codec

end WorkspaceSync
