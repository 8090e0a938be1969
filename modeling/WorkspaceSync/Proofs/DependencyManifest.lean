import Mathlib.Data.List.Forall2
import Mathlib.Tactic.MkIffOfInductiveProp
import WorkspaceSync.DependencyManifest
import WorkspaceSync.Proofs.Except
import WorkspaceSync.Proofs.Wire.Grammar

/-!
# What bytes are dependency manifests

A manifest is a message whose texts are UTF-8 and whose dependencies are such messages in turn. Of a
field that takes one value the last record counts, and dependencies are listed in file order.
-/

namespace WorkspaceSync

open Wire

namespace Bytes

/-- Bytes that encode a text in UTF-8. -/
def IsText (b : Bytes) : Prop := ∃ s, ofText s = b

theorem toText?_eq_some_iff {b : Bytes} {s : String} : toText? b = some s ↔ ofText s = b := by
  constructor
  · intro h
    rw [toText?, String.fromUTF8?] at h
    split at h
    · rw [← Option.some.inj h]
      rfl
    · cases h
  · rintro rfl
    exact toText?_ofText s

theorem ofText_inj {s t : String} : ofText s = ofText t ↔ s = t := by
  constructor
  · intro h
    rw [← toText?_eq_some_iff, toText?_ofText] at h
    exact (Option.some.inj h).symm
  · rintro rfl
    rfl

end Bytes

namespace Dependency

/-- After some records, the texts of which are valid, a dependency has the last path and the last
kind that they tell, or else what it had before. -/
@[mk_iff]
structure Becomes (d : Dependency) (items : List Item) (d' : Dependency) : Prop where
  texts : ∀ t ∈ bytesOf 1 items, Bytes.IsText t
  path : Bytes.ofText d'.path = (bytesOf 1 items).getLast?.getD (Bytes.ofText d.path)
  kind : d'.kind = ((numbersOf 2 items).getLast?.map DependencyKind.ofNumber).getD d.kind

theorem uniform_step : Uniform step := by
  rintro d ⟨field, value, m⟩ ⟨_, _, n⟩ ⟨⟩
  cases value with
  | varint v => rfl
  | fixed => rfl
  | bytes b =>
    simp only [step, Record.text]
    split
    · cases Bytes.toText? b <;> rfl
    · rfl

theorem effect_eq (d : Dependency) (x : Item) : effect step d x =
    match x.bytes? 1 with
    | some b => (Bytes.toText? b).map fun s => { d with path := s }
    | none => some { d with kind := ((x.number? 2).map DependencyKind.ofNumber).getD d.kind } := by
  obtain ⟨field, value⟩ := x
  cases value with
  | fixed => rfl
  | varint n =>
    simp only [effect, step, Item.bytes?, Item.number?]
    split <;> rfl
  | bytes b =>
    simp only [effect, step, Record.text, Item.bytes?, Item.number?]
    split
    · dsimp only
      cases Bytes.toText? b <;> rfl
    · rfl

theorem becomes_nil_iff {d d' : Dependency} : Becomes d [] d' ↔ d = d' := by
  constructor
  · rintro ⟨-, path, kind⟩
    obtain ⟨path', kind'⟩ := d'
    obtain rfl := Bytes.ofText_inj.1 path
    obtain rfl : kind' = d.kind := kind
    rfl
  · rintro rfl
    exact ⟨by simp [bytesOf], rfl, rfl⟩

theorem becomes_cons_of_text {d d' : Dependency} {x : Item} {items : List Item} {b : Bytes}
    (text : x.bytes? 1 = some b) : Becomes d (x :: items) d' ↔
      ∃ s, Bytes.ofText s = b ∧ Becomes { d with path := s } items d' := by
  have noNumber := Item.number?_of_bytes? text 2
  simp only [becomes_iff, getLast?_bytesOf_cons, getLast?_numbersOf_cons, text, noNumber,
    Option.or_none, Option.getD_or, Option.getD_some]
  simp only [bytesOf_cons, text, Option.toList_some, List.singleton_append, List.forall_mem_cons]
  constructor
  · rintro ⟨⟨⟨s, rfl⟩, texts⟩, path, kind⟩
    exact ⟨s, rfl, texts, path, kind⟩
  · rintro ⟨s, rfl, texts, path, kind⟩
    exact ⟨⟨⟨s, rfl⟩, texts⟩, path, kind⟩

theorem becomes_cons_of_no_text {d d' : Dependency} {x : Item} {items : List Item}
    (noText : x.bytes? 1 = none) : Becomes d (x :: items) d' ↔
      Becomes { d with kind := ((x.number? 2).map DependencyKind.ofNumber).getD d.kind } items d' := by
  simp only [becomes_iff, getLast?_bytesOf_cons, getLast?_numbersOf_cons, noText, Option.or_none,
    Option.map_or, Option.getD_or]
  simp only [bytesOf_cons, noText, Option.toList_none, List.nil_append]

theorem becomes_cons_iff {d d' : Dependency} {x : Item} {items : List Item} :
    Becomes d (x :: items) d' ↔ ∃ e, effect step d x = some e ∧ Becomes e items d' := by
  rw [effect_eq]
  cases text : x.bytes? 1 with
  | some b =>
    rw [becomes_cons_of_text text]
    simp only [Option.map_eq_some_iff, Bytes.toText?_eq_some_iff]
    constructor
    · rintro ⟨s, spelled, becomes⟩
      exact ⟨_, ⟨s, spelled, rfl⟩, becomes⟩
    · rintro ⟨_, ⟨s, spelled, rfl⟩, becomes⟩
      exact ⟨s, spelled, becomes⟩
  | none =>
    rw [becomes_cons_of_no_text text]
    simp only [Option.some.injEq, exists_eq_left']

/-- What the bytes of a dependency say. -/
def Spells (b : Bytes) (d : Dependency) : Prop := ∃ items, MessageCode items b ∧ Becomes start items d

/-- Messages whose texts are valid. -/
def IsCode (b : Bytes) : Prop :=
  ∃ items, MessageCode items b ∧ ∀ t ∈ bytesOf 1 items, Bytes.IsText t

theorem decode_eq_ok_iff {b : Bytes} {d : Dependency} : decode b = .ok d ↔ Spells b d := by
  unfold decode Spells
  simp only [foldMessage_eq_ok_iff uniform_step,
    foldlM_effect_eq_some_iff becomes_nil_iff becomes_cons_iff]

theorem exists_spells_iff {b : Bytes} : (∃ d, Spells b d) ↔ IsCode b := by
  constructor
  · rintro ⟨d, items, isMessage, becomes⟩
    exact ⟨items, isMessage, becomes.texts⟩
  · rintro ⟨items, isMessage, texts⟩
    have last : Bytes.IsText ((bytesOf 1 items).getLast?.getD []) := by
      cases h : (bytesOf 1 items).getLast? with
      | none => exact ⟨"", rfl⟩
      | some t => exact texts t (List.mem_of_getLast? h)
    obtain ⟨path, spelled⟩ := last
    exact ⟨⟨path, _⟩, items, isMessage, texts, spelled, rfl⟩

theorem exists_all_spelled_iff {ts : List Bytes} :
    (∃ ds, List.Forall₂ Spells ts ds) ↔ ∀ t ∈ ts, IsCode t := by
  induction ts with
  | nil => simp
  | cons t ts ih =>
    rw [List.forall_mem_cons, ← ih, ← exists_spells_iff]
    constructor
    · rintro ⟨_, spelled⟩
      cases spelled with
      | cons first rest => exact ⟨⟨_, first⟩, _, rest⟩
    · rintro ⟨⟨d, first⟩, ds, rest⟩
      exact ⟨d :: ds, .cons first rest⟩

/-- Records that say something of a dependency. -/
def IsKnown (x : Item) : Prop := x.bytes? 1 ≠ none ∨ x.number? 2 ≠ none

theorem effect_of_not_isKnown {x : Item} (h : ¬ IsKnown x) (d : Dependency) :
    effect step d x = some d := by
  simp only [IsKnown, not_or, Decidable.not_not] at h
  rw [effect_eq, h.1, h.2]
  rfl

end Dependency

namespace DependencyManifest

/-- After some records, the texts and dependencies of which are valid, a manifest has the last label
and the last flag that they tell, or else what it had before, and their dependencies in addition. -/
@[mk_iff]
structure Becomes (m : DependencyManifest) (items : List Item) (m' : DependencyManifest) : Prop where
  texts : ∀ t ∈ bytesOf 2 items, Bytes.IsText t
  label : m'.label.map Bytes.ofText = (bytesOf 2 items).getLast?.or (m.label.map Bytes.ofText)
  succeeded : m'.succeeded = ((numbersOf 3 items).getLast?.map (· != 0)).getD m.succeeded
  dependencies : ∃ further, m'.dependencies = m.dependencies ++ further ∧
    List.Forall₂ Dependency.Spells (bytesOf 1 items) further

theorem uniform_step : Uniform step := by
  rintro m ⟨field, value, i⟩ ⟨_, _, j⟩ ⟨⟩
  cases value with
  | varint v => rfl
  | fixed => rfl
  | bytes b =>
    simp only [step, Record.text]
    split
    · rfl
    · split
      · cases Bytes.toText? b <;> rfl
      · rfl

theorem effect_eq (m : DependencyManifest) (x : Item) : effect step m x =
    match x.bytes? 1, x.bytes? 2 with
    | some b, _ =>
      (Dependency.decode b).toOption.map fun d => { m with dependencies := m.dependencies ++ [d] }
    | none, some b => (Bytes.toText? b).map fun s => { m with label := some s }
    | none, none => some { m with succeeded := ((x.number? 3).map (· != 0)).getD m.succeeded } := by
  obtain ⟨field, value⟩ := x
  cases value with
  | fixed => rfl
  | varint n =>
    simp only [effect, step, Item.bytes?, Item.number?]
    split <;> rfl
  | bytes b =>
    simp only [effect, step, Record.text, Item.bytes?, Item.number?]
    split
    · dsimp only
      cases Dependency.decode b <;> rfl
    · split
      · dsimp only
        cases Bytes.toText? b <;> rfl
      · rfl

theorem becomes_nil_iff {m m' : DependencyManifest} : Becomes m [] m' ↔ m = m' := by
  constructor
  · rintro ⟨-, label, succeeded, further, dependencies, ⟨⟩⟩
    obtain ⟨label', succeeded', dependencies'⟩ := m'
    obtain rfl : label' = m.label :=
      Option.map_injective (fun _ _ => Bytes.ofText_inj.1) label
    obtain rfl : succeeded' = m.succeeded := succeeded
    obtain rfl : dependencies' = m.dependencies := dependencies.trans (List.append_nil _)
    rfl
  · rintro rfl
    exact ⟨by simp [bytesOf], rfl, rfl, [], (List.append_nil _).symm, .nil⟩

section Cons

variable {m m' : DependencyManifest} {x : Item} {items : List Item} {b : Bytes}

theorem becomes_cons_of_dependency (dependency : x.bytes? 1 = some b) :
    Becomes m (x :: items) m' ↔ ∃ d, Dependency.Spells b d ∧
      Becomes { m with dependencies := m.dependencies ++ [d] } items m' := by
  have noText := Item.bytes?_of_bytes? dependency (show (1 : UInt32) ≠ 2 by decide)
  have noNumber := Item.number?_of_bytes? dependency 3
  simp only [becomes_iff, getLast?_bytesOf_cons, getLast?_numbersOf_cons, noText, noNumber,
    Option.or_none, List.append_assoc]
  simp only [bytesOf_cons, dependency, noText, Option.toList_none, Option.toList_some,
    List.nil_append, List.singleton_append, List.forall₂_cons_left_iff]
  constructor
  · rintro ⟨texts, label, succeeded, _, dependencies, d, further, spells, spelled, rfl⟩
    exact ⟨d, spells, texts, label, succeeded, further, dependencies, spelled⟩
  · rintro ⟨d, spells, texts, label, succeeded, further, dependencies, spelled⟩
    exact ⟨texts, label, succeeded, _, dependencies, d, further, spells, spelled, rfl⟩

theorem becomes_cons_of_label (noDependency : x.bytes? 1 = none) (text : x.bytes? 2 = some b) :
    Becomes m (x :: items) m' ↔
      ∃ s, Bytes.ofText s = b ∧ Becomes { m with label := some s } items m' := by
  have noNumber := Item.number?_of_bytes? text 3
  simp only [becomes_iff, getLast?_bytesOf_cons, getLast?_numbersOf_cons, text, noNumber,
    Option.or_none, Option.or_assoc, Option.some_or, Option.map_some]
  simp only [bytesOf_cons, noDependency, text, Option.toList_none, Option.toList_some,
    List.nil_append, List.singleton_append, List.forall_mem_cons]
  constructor
  · rintro ⟨⟨⟨s, rfl⟩, texts⟩, rest⟩
    exact ⟨s, rfl, texts, rest⟩
  · rintro ⟨s, rfl, texts, rest⟩
    exact ⟨⟨⟨s, rfl⟩, texts⟩, rest⟩

theorem becomes_cons_of_no_bytes (noDependency : x.bytes? 1 = none) (noText : x.bytes? 2 = none) :
    Becomes m (x :: items) m' ↔
      Becomes { m with succeeded := ((x.number? 3).map (· != 0)).getD m.succeeded } items m' := by
  simp only [becomes_iff, getLast?_bytesOf_cons, getLast?_numbersOf_cons, noText, Option.or_none,
    Option.map_or, Option.getD_or]
  simp only [bytesOf_cons, noDependency, noText, Option.toList_none, List.nil_append]

theorem becomes_cons_iff :
    Becomes m (x :: items) m' ↔ ∃ e, effect step m x = some e ∧ Becomes e items m' := by
  rw [effect_eq]
  cases dependency : x.bytes? 1 with
  | some b =>
    rw [becomes_cons_of_dependency dependency]
    simp only [Option.map_eq_some_iff, toOption_eq_some_iff,
      Dependency.decode_eq_ok_iff]
    constructor
    · rintro ⟨d, spells, becomes⟩
      exact ⟨_, ⟨d, spells, rfl⟩, becomes⟩
    · rintro ⟨_, ⟨d, spells, rfl⟩, becomes⟩
      exact ⟨d, spells, becomes⟩
  | none =>
    cases text : x.bytes? 2 with
    | some b =>
      rw [becomes_cons_of_label dependency text]
      simp only [Option.map_eq_some_iff, Bytes.toText?_eq_some_iff]
      constructor
      · rintro ⟨s, spelled, becomes⟩
        exact ⟨_, ⟨s, spelled, rfl⟩, becomes⟩
      · rintro ⟨_, ⟨s, spelled, rfl⟩, becomes⟩
        exact ⟨s, spelled, becomes⟩
    | none =>
      rw [becomes_cons_of_no_bytes dependency text]
      simp only [Option.some.injEq, exists_eq_left']

end Cons

/-- Messages whose texts and dependencies are valid. -/
def IsCode (b : Bytes) : Prop :=
  ∃ items, MessageCode items b ∧ (∀ t ∈ bytesOf 2 items, Bytes.IsText t) ∧
    ∀ t ∈ bytesOf 1 items, Dependency.IsCode t

theorem fold_eq_ok_iff {m m' : DependencyManifest} {r : Reader} :
    r.foldRecords step m = .ok m' ↔ ∃ items, MessageCode items r.rest ∧ Becomes m items m' := by
  rw [Reader.foldRecords_eq_ok_iff uniform_step]
  simp only [foldlM_effect_eq_some_iff becomes_nil_iff becomes_cons_iff]

theorem exists_becomes_iff {m : DependencyManifest} {items : List Item} :
    (∃ m', Becomes m items m') ↔
      (∀ t ∈ bytesOf 2 items, Bytes.IsText t) ∧ ∀ t ∈ bytesOf 1 items, Dependency.IsCode t := by
  rw [← Dependency.exists_all_spelled_iff]
  constructor
  · rintro ⟨m', texts, -, -, further, -, spelled⟩
    exact ⟨texts, further, spelled⟩
  · rintro ⟨texts, further, spelled⟩
    obtain ⟨label, same⟩ : ∃ label : Option String, label.map Bytes.ofText =
        (bytesOf 2 items).getLast?.or (m.label.map Bytes.ofText) := by
      cases h : (bytesOf 2 items).getLast? with
      | none => exact ⟨m.label, rfl⟩
      | some t =>
        obtain ⟨s, rfl⟩ := texts t (List.mem_of_getLast? h)
        exact ⟨some s, rfl⟩
    exact ⟨⟨label, _, _⟩, texts, same, rfl, further, rfl, spelled⟩

theorem exists_decode_eq_ok_iff {b : Bytes} : (∃ m, decode b = .ok m) ↔ IsCode b := by
  simp only [decode, foldMessage, fold_eq_ok_iff]
  constructor
  · rintro ⟨m, items, isMessage, becomes⟩
    exact ⟨items, isMessage, exists_becomes_iff.1 ⟨m, becomes⟩⟩
  · rintro ⟨items, isMessage, valid⟩
    obtain ⟨m, becomes⟩ := exists_becomes_iff.2 valid
    exact ⟨m, items, isMessage, becomes⟩

/-- Records that say something of a manifest. -/
def IsKnown (x : Item) : Prop := x.bytes? 1 ≠ none ∨ x.bytes? 2 ≠ none ∨ x.number? 3 ≠ none

theorem effect_of_not_isKnown {x : Item} (h : ¬ IsKnown x) (m : DependencyManifest) :
    effect step m x = some m := by
  simp only [IsKnown, not_or, Decidable.not_not] at h
  rw [effect_eq, h.1, h.2.1, h.2.2]
  rfl

/-- A record without effect on a dependency has none within the dependency of a manifest. -/
theorem effect_insert {x : Item} {inner code rest : Bytes} (isRecord : RecordCode x code)
    (isMessage : IsMessage inner) (unknown : ¬ Dependency.IsKnown x) (m : DependencyManifest) :
    effect step m ⟨1, .bytes (inner ++ code ++ rest)⟩ =
      effect step m ⟨1, .bytes (inner ++ rest)⟩ := by
  have same (d : Dependency) : (Dependency.decode (inner ++ code ++ rest)).toOption = some d ↔
      (Dependency.decode (inner ++ rest)).toOption = some d := by
    simp only [toOption_eq_some_iff]
    exact foldMessage_insert Dependency.uniform_step isMessage isRecord
      (Dependency.effect_of_not_isKnown unknown)
  simp only [effect_eq, Item.bytes?, if_pos, Option.ext same]

/-- Manifests are the messages of valid texts and dependencies, and of each it is known what it
decodes to. So records that say nothing of a manifest, or of a dependency, may stand anywhere, and
what follows a manifest goes on from it. -/
theorem decode_exact :
    (∀ b, (∃ m, decode b = .ok m) ↔ IsCode b) ∧
    (∀ b m, decode b = .ok m ↔ ∃ items, MessageCode items b ∧ Becomes start items m) ∧
    (∀ x code before after, RecordCode x code → IsMessage before → ¬ IsKnown x →
      ∀ m, decode (before ++ code ++ after) = .ok m ↔ decode (before ++ after) = .ok m) ∧
    (∀ x code inner rest, RecordCode x code → IsMessage inner → ¬ Dependency.IsKnown x →
      ∀ long short, RecordCode ⟨1, .bytes (inner ++ code ++ rest)⟩ long →
        RecordCode ⟨1, .bytes (inner ++ rest)⟩ short →
      ∀ before after, IsMessage before →
      ∀ m, decode (before ++ long ++ after) = .ok m ↔ decode (before ++ short ++ after) = .ok m) ∧
    ∀ a b m, decode a = .ok m →
      decode (a ++ b) = (Reader.mk a.length b).foldRecords step m ∧
      ∀ n, decode (a ++ b) = .ok n ↔ ∃ items, MessageCode items b ∧ Becomes m items n := by
  refine ⟨?_, ?_, ?_, ?_, ?_⟩
  · intro b
    exact exists_decode_eq_ok_iff
  · intro b m
    exact fold_eq_ok_iff
  · intro x code before after isRecord isMessage unknown m
    exact foldMessage_insert uniform_step isMessage isRecord (effect_of_not_isKnown unknown)
  · intro x code inner rest isRecord isMessage unknown long short isLong isShort before after
      between m
    exact foldMessage_replace uniform_step between isLong isShort
      (effect_insert isRecord isMessage unknown)
  · intro a b m decoded
    have continued := foldMessage_append uniform_step decoded b
    refine ⟨continued, ?_⟩
    intro n
    rw [decode, continued]
    exact fold_eq_ok_iff

theorem decode_of_unknown_field_in_dependency :
    decode ([] ++ [10, 5, 72, 0, 10, 1, 97] ++ [24, 1]) =
      .ok ⟨none, true, [⟨"a", .explicit⟩]⟩ := by
  have unknown : RecordCode ⟨9, .varint 0⟩ ([72] ++ [0]) :=
    .intro (.intro (spells_single (by decide)) rfl (by decide) rfl) (.varint (spells_single (by decide)))
  have isKey : KeyCode 1 .lengthDelimited [10] := .intro (spells_single (by decide)) rfl (by decide) rfl
  have long : RecordCode ⟨1, .bytes [72, 0, 10, 1, 97]⟩ ([10] ++ ([5] ++ [72, 0, 10, 1, 97])) :=
    .intro isKey (.lengthDelimited (.intro (spells_single (by decide)) rfl))
  have short : RecordCode ⟨1, .bytes [10, 1, 97]⟩ ([10] ++ ([3] ++ [10, 1, 97])) :=
    .intro isKey (.lengthDelimited (.intro (spells_single (by decide)) rfl))
  have isUnknown : ¬ Dependency.IsKnown ⟨9, .varint 0⟩ := by
    simp [Dependency.IsKnown, Item.bytes?, Item.number?]
  obtain ⟨-, -, -, inserted, -⟩ := decode_exact
  apply (inserted _ _ [] _ unknown ⟨[], .nil⟩ isUnknown _ _ long short [] [24, 1] ⟨[], .nil⟩ _).2
  decide +kernel

end DependencyManifest

end WorkspaceSync
