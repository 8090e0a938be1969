import WorkspaceSync.Proofs.Wire.Varint
import WorkspaceSync.Wire.Record

/-!
# The grammar of messages

A message is a concatenation of records, each a key and a complete value of the type that the key
names. The grammar is a relation between bytes and what they say, and mentions no reader.
`foldRecords_eq_ok_iff` says that folding over a message accepts the bytes of the grammar whose
records the step accepts one after the other, and no others.
-/

namespace WorkspaceSync.Wire

/-- What a record says, wherever it stands. -/
structure Item where
  field : UInt32
  value : RecordValue
  deriving DecidableEq, Repr

def Record.item (x : Record) : Item := ⟨x.field, x.value⟩

namespace Item

/-- The bytes that a record holds for a field. -/
def bytes? (field : UInt32) (x : Item) : Option Bytes :=
  match x.value with
  | .bytes b => if x.field = field then some b else none
  | _ => none

/-- The number that a record holds for a field. -/
def number? (field : UInt32) (x : Item) : Option UInt64 :=
  match x.value with
  | .varint n => if x.field = field then some n else none
  | _ => none

end Item

def bytesOf (field : UInt32) (items : List Item) : List Bytes := items.filterMap (·.bytes? field)

def numbersOf (field : UInt32) (items : List Item) : List UInt64 :=
  items.filterMap (·.number? field)

theorem Item.number?_of_bytes? {x : Item} {field : UInt32} {b : Bytes}
    (h : x.bytes? field = some b) (other : UInt32) : x.number? other = none := by
  obtain ⟨number, value⟩ := x
  cases value with
  | bytes b => rfl
  | varint n => cases h
  | fixed => cases h

theorem Item.bytes?_of_bytes? {x : Item} {field other : UInt32} {b : Bytes}
    (h : x.bytes? field = some b) (apart : field ≠ other) : x.bytes? other = none := by
  obtain ⟨number, value⟩ := x
  cases value with
  | varint n => rfl
  | fixed => rfl
  | bytes c =>
    obtain ⟨rfl, -⟩ := Option.ite_none_right_eq_some.1 h
    exact if_neg apart

theorem bytesOf_cons (field : UInt32) (x : Item) (items : List Item) :
    bytesOf field (x :: items) = (x.bytes? field).toList ++ bytesOf field items := by
  simp only [bytesOf, List.filterMap_cons]
  cases x.bytes? field <;> rfl

theorem getLast?_bytesOf_cons (field : UInt32) (x : Item) (items : List Item) :
    (bytesOf field (x :: items)).getLast? =
      (bytesOf field items).getLast?.or (x.bytes? field) := by
  rw [bytesOf_cons, List.getLast?_append]
  cases x.bytes? field <;> rfl

theorem getLast?_numbersOf_cons (field : UInt32) (x : Item) (items : List Item) :
    (numbersOf field (x :: items)).getLast? =
      (numbersOf field items).getLast?.or (x.number? field) := by
  have first : numbersOf field (x :: items) =
      (x.number? field).toList ++ numbersOf field items := by
    simp only [numbersOf, List.filterMap_cons]
    cases x.number? field <;> rfl
  rw [first, List.getLast?_append]
  cases x.number? field <;> rfl

/-- A key is a varint: the three low bits tell the type and the 32 bits above them the field. -/
inductive KeyCode (field : UInt32) (t : WireType) (code : Bytes) : Prop where
  | intro {k : UInt64} (spells : Spells code k) (number : field.toNat = k.toNat / 8 % 2 ^ 32)
      (numbered : field ≠ 0) (bits : t.bits.toNat = k.toNat % 8)

/-- A length and as many bytes. -/
inductive BytesCode (b : Bytes) : Bytes → Prop where
  | intro {size : Bytes} {n : UInt64} (spells : Spells size n) (counts : n.toNat = b.length) :
      BytesCode b (size ++ b)

inductive ValueCode : WireType → RecordValue → Bytes → Prop where
  | varint {v : UInt64} {code : Bytes} : Spells code v → ValueCode .varint (.varint v) code
  | fixed64 {code : Bytes} : code.length = 8 → ValueCode .fixed64 .fixed code
  | lengthDelimited {b code : Bytes} : BytesCode b code →
      ValueCode .lengthDelimited (.bytes b) code
  | fixed32 {code : Bytes} : code.length = 4 → ValueCode .fixed32 .fixed code

inductive RecordCode : Item → Bytes → Prop where
  | intro {field : UInt32} {t : WireType} {value : RecordValue} {key code : Bytes} :
      KeyCode field t key → ValueCode t value code → RecordCode ⟨field, value⟩ (key ++ code)

/-- The bytes of records one after the other. -/
inductive MessageCode : List Item → Bytes → Prop where
  | nil : MessageCode [] []
  | cons {x : Item} {items : List Item} {code rest : Bytes} :
      RecordCode x code → MessageCode items rest → MessageCode (x :: items) (code ++ rest)

theorem toNat_fieldOf (k : UInt64) : (k >>> 3).toUInt32.toNat = k.toNat / 8 % 2 ^ 32 := by
  simp [UInt64.toNat_shiftRight, Nat.shiftRight_eq_div_pow]

theorem WireType.ofBits?_eq_some_iff {b : UInt64} {t : WireType} :
    ofBits? b = some t ↔ t.bits = b := by
  constructor
  · intro h
    grind [ofBits?, bits]
  · rintro rfl
    exact ofBits?_bits t

theorem ofBits?_typeOf_eq_some_iff {k : UInt64} {t : WireType} :
    WireType.ofBits? (k &&& 7) = some t ↔ t.bits.toNat = k.toNat % 8 := by
  have low : (k &&& 7).toNat = k.toNat % 8 := by
    rw [UInt64.toNat_and]
    exact Nat.and_two_pow_sub_one_eq_mod k.toNat 3
  rw [WireType.ofBits?_eq_some_iff, ← UInt64.toNat_inj, low]

namespace Reader

variable {r r' : Reader}

theorem fixed_eq_ok_iff {n : Nat} :
    r.fixed n = (.ok (), r') ↔ ∃ code, code.length = n ∧ r.Passes code r' := by
  constructor
  · intro h
    unfold fixed at h
    split at h
    · rename_i within
      obtain ⟨-, rfl⟩ := Prod.mk.inj h
      exact ⟨r.rest.take n, List.length_take_of_le within, passes_advance within⟩
    · simp at h
  · rintro ⟨code, rfl, passes⟩
    have within : code.length ≤ r.rest.length := by simp [passes.rest]
    rw [fixed, if_pos within, passes.advance_eq]

theorem bytes_eq_ok_iff {b : Bytes} :
    r.bytes = (.ok b, r') ↔ ∃ code, BytesCode b code ∧ r.Passes code r' := by
  constructor
  · intro h
    unfold bytes at h
    split at h
    · simp at h
    · rename_i n r₁ size
      obtain ⟨code, spells, passes⟩ := varint_eq_ok_iff.1 size
      split at h
      · rename_i within
        obtain ⟨taken, rfl⟩ := Prod.mk.inj h
        obtain rfl := Except.ok.inj taken
        exact ⟨code ++ r₁.rest.take n.toNat,
          .intro spells (List.length_take_of_le within).symm,
          passes.trans (passes_advance within)⟩
      · simp at h
  · rintro ⟨_, @⟨size, n, spells, counts⟩, passes⟩
    obtain ⟨m, first, second⟩ := passes.split
    have within : n.toNat ≤ m.rest.length := by simp [second.rest, counts]
    have taken : m.rest.take n.toNat = b := by rw [second.rest, counts, List.take_left]
    have moved : m.advance n.toNat = r' := by rw [counts, second.advance_eq]
    rw [bytes, varint_eq_ok_iff.2 ⟨size, spells, first⟩]
    simp only [if_pos within, taken, moved]

theorem key_eq_ok_iff {field : UInt32} {t : WireType} :
    r.key = (.ok (field, t), r') ↔ ∃ code, KeyCode field t code ∧ r.Passes code r' := by
  constructor
  · intro h
    unfold key at h
    split at h
    · simp at h
    · rename_i k r₁ number
      obtain ⟨code, spells, passes⟩ := varint_eq_ok_iff.1 number
      dsimp only at h
      split at h
      · simp at h
      · rename_i numbered
        split at h
        · rename_i u bits
          obtain ⟨read, rfl⟩ := Prod.mk.inj h
          obtain ⟨rfl, rfl⟩ := Prod.mk.inj (Except.ok.inj read)
          exact ⟨code, .intro spells (toNat_fieldOf k) numbered
            (ofBits?_typeOf_eq_some_iff.1 bits), passes⟩
        · simp at h
  · rintro ⟨code, @⟨k, spells, number, numbered, bits⟩, passes⟩
    have field_eq : (k >>> 3).toUInt32 = field :=
      UInt32.toNat_inj.1 ((toNat_fieldOf k).trans number.symm)
    rw [key, varint_eq_ok_iff.2 ⟨code, spells, passes⟩]
    simp only [field_eq, if_neg numbered, ofBits?_typeOf_eq_some_iff.2 bits]

theorem value_eq_ok_iff {t : WireType} {v : RecordValue} :
    r.value t = .ok (v, r') ↔ ∃ code, ValueCode t v code ∧ r.Passes code r' := by
  constructor
  · intro h
    cases t with
    | varint =>
      rw [value] at h
      split at h
      · rename_i n r₁ read
        obtain ⟨rfl, rfl⟩ := Prod.mk.inj (Except.ok.inj h)
        obtain ⟨code, spells, passes⟩ := varint_eq_ok_iff.1 read
        exact ⟨code, .varint spells, passes⟩
      · cases h
    | fixed64 =>
      rw [value] at h
      split at h
      · rename_i r₁ read
        obtain ⟨rfl, rfl⟩ := Prod.mk.inj (Except.ok.inj h)
        obtain ⟨code, wide, passes⟩ := fixed_eq_ok_iff.1 read
        exact ⟨code, .fixed64 wide, passes⟩
      · cases h
    | lengthDelimited =>
      rw [value] at h
      split at h
      · rename_i b r₁ read
        obtain ⟨rfl, rfl⟩ := Prod.mk.inj (Except.ok.inj h)
        obtain ⟨code, content, passes⟩ := bytes_eq_ok_iff.1 read
        exact ⟨code, .lengthDelimited content, passes⟩
      · cases h
    | fixed32 =>
      rw [value] at h
      split at h
      · rename_i r₁ read
        obtain ⟨rfl, rfl⟩ := Prod.mk.inj (Except.ok.inj h)
        obtain ⟨code, wide, passes⟩ := fixed_eq_ok_iff.1 read
        exact ⟨code, .fixed32 wide, passes⟩
      · cases h
  · rintro ⟨code, spelled, passes⟩
    cases spelled with
    | varint spells => rw [value, varint_eq_ok_iff.2 ⟨code, spells, passes⟩]
    | fixed64 wide => rw [value, fixed_eq_ok_iff.2 ⟨code, wide, passes⟩]
    | lengthDelimited content => rw [value, bytes_eq_ok_iff.2 ⟨code, content, passes⟩]
    | fixed32 wide => rw [value, fixed_eq_ok_iff.2 ⟨code, wide, passes⟩]

theorem item_of_record {x : Record} (h : r.record = .ok (x, r')) :
    ∃ code, RecordCode x.item code ∧ r.Passes code r' := by
  unfold record at h
  split at h
  · cases h
  · rename_i field t m key
    split at h
    · cases h
    · rename_i v r₁ value
      obtain ⟨rfl, rfl⟩ := Prod.mk.inj (Except.ok.inj h)
      obtain ⟨keyCode, isKey, first⟩ := key_eq_ok_iff.1 key
      obtain ⟨valueCode, isValue, second⟩ := value_eq_ok_iff.1 value
      exact ⟨keyCode ++ valueCode, .intro isKey isValue, first.trans second⟩

theorem record_of_code {x : Item} {code : Bytes} (isRecord : RecordCode x code)
    (passes : r.Passes code r') : ∃ y : Record, y.item = x ∧ r.record = .ok (y, r') := by
  obtain @⟨field, t, value, key, valueCode, isKey, isValue⟩ := isRecord
  obtain ⟨m, first, second⟩ := passes.split
  refine ⟨⟨field, value, m.offset⟩, rfl, ?_⟩
  rw [record, key_eq_ok_iff.2 ⟨key, isKey, first⟩]
  simp only [value_eq_ok_iff.2 ⟨valueCode, isValue, second⟩]

end Reader

/-! ## Records and messages are read in one way -/

theorem RecordCode.ne_nil {x : Item} {code : Bytes} (h : RecordCode x code) : code ≠ [] := by
  rintro rfl
  have passes : Reader.Passes ⟨0, []⟩ [] ⟨0, []⟩ := ⟨rfl, rfl⟩
  obtain ⟨y, -, read⟩ := Reader.record_of_code h passes
  exact Nat.lt_irrefl _ (Reader.record_advances read)

/-- No record is the beginning of another one. -/
theorem RecordCode.unique {x y : Item} {code code' rest rest' : Bytes} (hx : RecordCode x code)
    (hy : RecordCode y code') (same : code ++ rest = code' ++ rest') : x = y ∧ code = code' := by
  have onePasses : Reader.Passes ⟨0, code ++ rest⟩ code ⟨code.length, rest⟩ := ⟨rfl, by simp⟩
  have otherPasses : Reader.Passes ⟨0, code ++ rest⟩ code' ⟨code'.length, rest'⟩ := ⟨same, by simp⟩
  obtain ⟨a, rfl, first⟩ := Reader.record_of_code hx onePasses
  obtain ⟨b, rfl, second⟩ := Reader.record_of_code hy otherPasses
  rw [first] at second
  obtain ⟨rfl, ends⟩ := Prod.mk.inj (Except.ok.inj second)
  exact ⟨rfl, List.append_inj_left same (Reader.mk.inj ends).1⟩

/-- A concatenation of records. -/
def IsMessage (b : Bytes) : Prop := ∃ items, MessageCode items b

theorem MessageCode.append {xs ys : List Item} {a b : Bytes} (ha : MessageCode xs a)
    (hb : MessageCode ys b) : MessageCode (xs ++ ys) (a ++ b) := by
  induction ha with
  | nil => exact hb
  | cons isRecord _ ih =>
    rw [List.cons_append, List.append_assoc]
    exact .cons isRecord ih

theorem MessageCode.single {x : Item} {code : Bytes} (h : RecordCode x code) :
    MessageCode [x] code := by
  have message := MessageCode.cons h .nil
  rwa [List.append_nil] at message

theorem MessageCode.split {xs items : List Item} {a b : Bytes} (ha : MessageCode xs a)
    (h : MessageCode items (a ++ b)) : ∃ ys, items = xs ++ ys ∧ MessageCode ys b := by
  induction ha generalizing items with
  | nil => exact ⟨items, rfl, h⟩
  | @cons x xs code a isRecord _ ih =>
    rw [List.append_assoc] at h
    generalize same : code ++ (a ++ b) = whole at h
    cases h with
    | nil => exact absurd (List.append_eq_nil_iff.1 same).1 isRecord.ne_nil
    | cons isRecord' rest =>
      obtain ⟨rfl, rfl⟩ := isRecord.unique isRecord' same
      obtain rfl := List.append_cancel_left same
      obtain ⟨ys, rfl, tail⟩ := ih rest
      exact ⟨ys, rfl, tail⟩

/-! ## Folding over a message -/

/-- Whether a step accepts a record, and with what, does not depend on where the record stands. -/
def Uniform {σ : Type} (step : σ → Record → Except WireError σ) : Prop :=
  ∀ s x y, x.item = y.item → (step s x).toOption = (step s y).toOption

/-- What a step makes of a record. -/
def effect {σ : Type} (step : σ → Record → Except WireError σ) (s : σ) (x : Item) : Option σ :=
  (step s ⟨x.field, x.value, 0⟩).toOption

section Fold

variable {σ : Type} {step : σ → Record → Except WireError σ} {s s' : σ}

/-- A relation that goes record by record as a step does tells what the fold gives. -/
theorem foldlM_effect_eq_some_iff {becomes : σ → List Item → σ → Prop}
    (nil : ∀ {s t}, becomes s [] t ↔ s = t)
    (cons : ∀ {s x items t},
      becomes s (x :: items) t ↔ ∃ u, effect step s x = some u ∧ becomes u items t)
    {items : List Item} : items.foldlM (effect step) s = some s' ↔ becomes s items s' := by
  induction items generalizing s with
  | nil => exact Option.some_inj.trans nil.symm
  | cons x items ih =>
    rw [List.foldlM_cons, cons, Option.bind_eq_bind, Option.bind_eq_some_iff]
    simp only [ih]

theorem Uniform.toOption_eq (h : Uniform step) (s : σ) (x : Record) :
    (step s x).toOption = effect step s x.item := h s x _ rfl

namespace Reader

variable {r r' : Reader} {x : Record}

theorem foldRecords_of_atEnd (h : r.rest = []) : r.foldRecords step s = .ok s := by
  rw [foldRecords, if_pos (by simp [atEnd, h])]

theorem foldRecords_of_error {e : WireError} (more : r.rest ≠ []) (h : r.record = .error e) :
    r.foldRecords step s = .error e := by
  rw [foldRecords, if_neg (by simpa [atEnd] using more)]
  split
  · rename_i e' h'
    rw [h] at h'
    rw [Except.error.inj h']
  · rename_i x r' h'
    rw [h] at h'
    cases h'

theorem foldRecords_of_record (h : r.record = .ok (x, r')) :
    r.foldRecords step s =
      match step s x with
      | .error e => .error e
      | .ok s => r'.foldRecords step s := by
  have more : r.rest ≠ [] := by
    intro empty
    simpa [empty] using record_advances h
  rw [foldRecords, if_neg (by simpa [atEnd] using more)]
  split
  · rename_i e h'
    rw [h] at h'
    cases h'
  · rename_i y r'' h'
    rw [h] at h'
    obtain ⟨rfl, rfl⟩ := Prod.mk.inj (Except.ok.inj h')
    rfl

theorem exists_items_of_foldRecords (uniform : Uniform step)
    (h : r.foldRecords step s = .ok s') :
    ∃ items, MessageCode items r.rest ∧ items.foldlM (effect step) s = some s' := by
  induction size : r.rest.length using Nat.strongRecOn generalizing r s with
  | ind n ih =>
    by_cases empty : r.rest = []
    · rw [foldRecords_of_atEnd empty] at h
      exact ⟨[], by rw [empty]; exact .nil, congrArg some (Except.ok.inj h)⟩
    cases read : r.record with
    | error e =>
      rw [foldRecords_of_error empty read] at h
      cases h
    | ok p =>
      obtain ⟨x, r'⟩ := p
      rw [foldRecords_of_record read] at h
      split at h
      · cases h
      · rename_i t stepped
        obtain ⟨code, isRecord, passes⟩ := item_of_record read
        obtain ⟨items, isMessage, folded⟩ := ih _ (size ▸ record_advances read) h rfl
        refine ⟨x.item :: items, ?_, ?_⟩
        · rw [passes.rest]
          exact .cons isRecord isMessage
        · rw [List.foldlM_cons, ← uniform.toOption_eq, stepped]
          exact folded

/-- The rest of a message is folded over as if it stood alone, from what the records before it
left. -/
theorem foldRecords_of_passes (uniform : Uniform step) {items : List Item} {code : Bytes}
    (isMessage : MessageCode items code) (folded : items.foldlM (effect step) s = some s')
    (passes : r.Passes code r') : r.foldRecords step s = r'.foldRecords step s' := by
  induction isMessage generalizing r s with
  | nil =>
    obtain rfl : s = s' := Option.some.inj folded
    rw [passes.eq_of_nil]
  | cons isRecord _ ih =>
    obtain ⟨m, first, second⟩ := passes.split
    obtain ⟨y, rfl, read⟩ := record_of_code isRecord first
    rw [List.foldlM_cons, ← uniform.toOption_eq] at folded
    rw [foldRecords_of_record read]
    cases stepped : step s y with
    | error e =>
      rw [stepped] at folded
      cases folded
    | ok t =>
      rw [stepped] at folded
      exact ih folded second

/-- A fold over a message succeeds exactly on the bytes of the grammar whose records are accepted
one after the other, and then is the left fold over them. -/
theorem foldRecords_eq_ok_iff (uniform : Uniform step) : r.foldRecords step s = .ok s' ↔
    ∃ items, MessageCode items r.rest ∧ items.foldlM (effect step) s = some s' := by
  constructor
  · exact exists_items_of_foldRecords uniform
  · rintro ⟨items, isMessage, folded⟩
    have passes : r.Passes r.rest ⟨r.offset + r.rest.length, []⟩ := ⟨by simp, rfl⟩
    rw [foldRecords_of_passes uniform isMessage folded passes]
    exact foldRecords_of_atEnd rfl

end Reader

theorem foldMessage_eq_ok_iff (uniform : Uniform step) {b : Bytes} : foldMessage step s b = .ok s' ↔
    ∃ items, MessageCode items b ∧ items.foldlM (effect step) s = some s' :=
  Reader.foldRecords_eq_ok_iff uniform

variable {x y : Item} {a b code code' : Bytes}

/-- What follows a message that is accepted is folded over from what the message gave. -/
theorem foldMessage_append (uniform : Uniform step) (h : foldMessage step s a = .ok s') (b : Bytes) :
    foldMessage step s (a ++ b) = (Reader.mk a.length b).foldRecords step s' := by
  obtain ⟨items, isMessage, folded⟩ := (foldMessage_eq_ok_iff uniform).1 h
  apply Reader.foldRecords_of_passes uniform isMessage folded
  exact ⟨rfl, (Nat.zero_add _).symm⟩

private theorem foldMessage_of_replaced (uniform : Uniform step) (ha : IsMessage a)
    {us vs : List Item} (hu : MessageCode us code) (hv : MessageCode vs code')
    (same : ∀ s, us.foldlM (effect step) s = vs.foldlM (effect step) s)
    (h : foldMessage step s (a ++ code ++ b) = .ok s') :
    foldMessage step s (a ++ code' ++ b) = .ok s' := by
  obtain ⟨xs, ha⟩ := ha
  obtain ⟨items, isMessage, folded⟩ := (foldMessage_eq_ok_iff uniform).1 h
  obtain ⟨ys, rfl, rest⟩ := (ha.append hu).split isMessage
  refine (foldMessage_eq_ok_iff uniform).2 ⟨xs ++ vs ++ ys, (ha.append hv).append rest, ?_⟩
  rw [← folded]
  simp only [List.foldlM_append, same]

/-- Records of the same effect may stand for each other. -/
theorem foldMessage_replace (uniform : Uniform step) (ha : IsMessage a)
    (hx : RecordCode x code) (hy : RecordCode y code')
    (same : ∀ s, effect step s x = effect step s y) :
    foldMessage step s (a ++ code ++ b) = .ok s' ↔ foldMessage step s (a ++ code' ++ b) = .ok s' := by
  have folds : ∀ s, [x].foldlM (effect step) s = [y].foldlM (effect step) s := by
    intro s
    simp only [List.foldlM_cons, List.foldlM_nil, same]
  constructor
  · exact foldMessage_of_replaced uniform ha (.single hx) (.single hy) folds
  · exact foldMessage_of_replaced uniform ha (.single hy) (.single hx) fun s => (folds s).symm

/-- A record without effect may be put between records or taken out. -/
theorem foldMessage_insert (uniform : Uniform step) (ha : IsMessage a) (hx : RecordCode x code)
    (inert : ∀ s, effect step s x = some s) :
    foldMessage step s (a ++ code ++ b) = .ok s' ↔ foldMessage step s (a ++ b) = .ok s' := by
  have folds : ∀ s, [x].foldlM (effect step) s = [].foldlM (effect step) s := by
    intro s
    simp only [List.foldlM_cons, List.foldlM_nil, inert]
    rfl
  constructor
  · intro h
    simpa using foldMessage_of_replaced uniform ha (.single hx) .nil folds h
  · intro h
    refine foldMessage_of_replaced uniform ha .nil (.single hx) (fun s => (folds s).symm) ?_
    rwa [List.append_nil]

end Fold

end WorkspaceSync.Wire
