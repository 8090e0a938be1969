import Mathlib.Data.List.Forall2
import WorkspaceSync.PackageManifest
import WorkspaceSync.Proofs.DependencyManifest
import WorkspaceSync.Proofs.Wire.Interleaving

/-!
# Package manifests are read as they were written

The bytes of a manifest, of a source and of a location are described level by level (`WrittenAs`):
fields in any order, without those that say nothing new, and among them records that the level does
not know. A record that is unknown to one level may well be a field of another one, and what an
omitted location stands for is not what an empty one says, so every level has a description of its
own.
-/

namespace WorkspaceSync

open Wire

namespace ArtifactLocation

/-- Records that say something of a location. -/
def IsKnown (x : Item) : Prop := x.bytes? 1 ≠ none ∨ x.bytes? 2 ≠ none ∨ x.number? 3 ≠ none

def wireFields (a : ArtifactLocation) : List Field :=
  [.string 1 a.rootFragment, .string 2 a.relativePath, .bool 3 a.isSource]

def toWire (a : ArtifactLocation) : Bytes := encodeMessage a.wireFields

/-- The bytes of a location. A field that an empty location has too may be left out. -/
def WrittenAs (a : ArtifactLocation) : Bytes → Prop :=
  MessageOf (¬ IsKnown ·) (· ∈ (generated "" "").wireFields) a.wireFields

theorem uniform_wireStep : Uniform wireStep := by
  rintro a ⟨field, value, m⟩ ⟨_, _, n⟩ ⟨⟩
  cases value with
  | varint v => rfl
  | fixed => rfl
  | bytes b =>
    simp only [wireStep, Record.text]
    cases Bytes.toText? b with
    | none => split_ifs <;> rfl
    | some s => rfl

theorem effect_of_not_isKnown {x : Item} (h : ¬ IsKnown x) (a : ArtifactLocation) :
    effect wireStep a x = some a := by
  obtain ⟨field, value⟩ := x
  cases value with
  | fixed => rfl
  | varint n => simp_all [IsKnown, Item.number?, Item.bytes?, effect, wireStep, Except.toOption]
  | bytes b => simp_all [IsKnown, Item.number?, Item.bytes?, effect, wireStep, Except.toOption]

@[simp] theorem effect_rootFragment (a : ArtifactLocation) (s : String) :
    effect wireStep a (Field.string 1 s).item = some { a with rootFragment := s } := by
  simp [effect, wireStep, Field.item, Field.string, Record.text, Bytes.toText?_ofText, Except.map,
    Except.toOption]

@[simp] theorem effect_relativePath (a : ArtifactLocation) (s : String) :
    effect wireStep a (Field.string 2 s).item = some { a with relativePath := s } := by
  simp [effect, wireStep, Field.item, Field.string, Record.text, Bytes.toText?_ofText, Except.map,
    Except.toOption]

@[simp] theorem effect_isSource (a : ArtifactLocation) (flag : Bool) :
    effect wireStep a (Field.bool 3 flag).item = some { a with isSource := flag } := by
  cases flag <;> rfl

theorem ofWire_of_writtenAs {a : ArtifactLocation} {b : Bytes} (h : a.WrittenAs b) :
    ofWire b = .ok a := by
  have accepts : ∀ f ∈ a.wireFields, ∀ c, (effect wireStep c f.item).isSome := by
    simp [wireFields]
  have commute : ∀ f ∈ a.wireFields, ∀ g ∈ a.wireFields, ∀ c,
      Field.put wireStep (Field.put wireStep c f) g =
        Field.put wireStep (Field.put wireStep c g) f := by
    simp [wireFields, Field.put]
  have needless : ∀ f ∈ (generated "" "").wireFields,
      Field.put wireStep (generated "" "") f = generated "" "" := by
    simp [wireFields, Field.put, generated]
  have put_all : a.wireFields.foldl (Field.put wireStep) (generated "" "") = a := by
    simp [wireFields, Field.put]
  rw [ofWire, MessageOf.foldMessage_eq uniform_wireStep (fun _ => effect_of_not_isKnown) accepts
    commute needless h, put_all]

theorem writtenAs_toWire {a : ArtifactLocation} (short : a.toWire.length < 2 ^ 64) :
    a.WrittenAs a.toWire :=
  .encoded (by simp [wireFields, Field.string, Field.bool]) short

end ArtifactLocation

namespace SourcePackage

/-- Records that say something of a source. -/
def IsKnown (x : Item) : Prop := x.bytes? 2 ≠ none ∨ x.bytes? 3 ≠ none

/-- The fields of a source whose location has the given bytes. -/
def fields (s : SourcePackage) (location : Bytes) : List Field :=
  [.string 2 s.package, .bytes 3 location]

def encode (s : SourcePackage) : Bytes := encodeMessage (s.fields s.location.toWire)

/-- The bytes of a source. The package may be left out if it is empty, and the location if it is
that of a source at the empty path. -/
inductive WrittenAs (s : SourcePackage) (b : Bytes) : Prop where
  | intro {location : Bytes} (isLocation : s.location.WrittenAs location)
      (code : MessageOf (¬ IsKnown ·)
        (fun f => f = .string 2 "" ∨ f = .bytes 3 location ∧ s.location = .source "")
        (s.fields location) b)

theorem uniform_step : Uniform step := by
  rintro s ⟨field, value, m⟩ ⟨_, _, n⟩ ⟨⟩
  cases value with
  | varint v => rfl
  | fixed => rfl
  | bytes b =>
    simp only [step, Record.text]
    cases Bytes.toText? b with
    | none => split_ifs <;> rfl
    | some t => rfl

theorem effect_of_not_isKnown {x : Item} (h : ¬ IsKnown x) (s : SourcePackage) :
    effect step s x = some s := by
  obtain ⟨field, value⟩ := x
  cases value with
  | fixed => rfl
  | varint n => rfl
  | bytes b => simp_all [IsKnown, Item.bytes?, effect, step, Except.toOption]

@[simp] theorem effect_package (s : SourcePackage) (t : String) :
    effect step s (Field.string 2 t).item = some { s with package := t } := by
  simp [effect, step, Field.item, Field.string, Record.text, Bytes.toText?_ofText, Except.map,
    Except.toOption]

theorem effect_location (s : SourcePackage) {a : ArtifactLocation} {b : Bytes}
    (h : ArtifactLocation.ofWire b = .ok a) :
    effect step s (Field.bytes 3 b).item = some { s with location := a } := by
  simp [effect, step, Field.item, Field.bytes, h, Except.map, Except.toOption]

theorem decode_of_writtenAs {s : SourcePackage} {b : Bytes} (h : s.WrittenAs b) :
    decode b = .ok s := by
  obtain @⟨location, isLocation, code⟩ := h
  have located := fun s => effect_location s (ArtifactLocation.ofWire_of_writtenAs isLocation)
  have accepts : ∀ f ∈ s.fields location, ∀ t, (effect step t f.item).isSome := by
    simp [fields, located]
  have commute : ∀ f ∈ s.fields location, ∀ g ∈ s.fields location, ∀ t,
      Field.put step (Field.put step t f) g = Field.put step (Field.put step t g) f := by
    simp [fields, Field.put, located]
  have needless : ∀ f, f = .string 2 "" ∨ f = .bytes 3 location ∧ s.location = .source "" →
      Field.put step start f = start := by
    rintro f (rfl | ⟨rfl, default⟩)
    · simp [Field.put, start]
    · simp [Field.put, located, start, default]
  have put_all : (s.fields location).foldl (Field.put step) start = s := by
    simp [fields, Field.put, located]
  rw [decode, MessageOf.foldMessage_eq uniform_step (fun _ => effect_of_not_isKnown) accepts
    commute needless code, put_all]

theorem writtenAs_encode {s : SourcePackage} (short : s.encode.length < 2 ^ 64) :
    s.WrittenAs s.encode := by
  have within : s.location.toWire.length ≤ s.encode.length :=
    Field.length_payload_le_of_mem (f := .bytes 3 s.location.toWire) (by simp [fields])
  refine .intro (ArtifactLocation.writtenAs_toWire (Nat.lt_of_le_of_lt within short)) ?_
  exact .encoded (by simp [fields, Field.string, Field.bytes]) short

end SourcePackage

namespace PackageManifest

/-- Records that say something of a manifest. -/
def IsKnown (x : Item) : Prop := x.bytes? 1 ≠ none

def encode (sources : List SourcePackage) : Bytes :=
  encodeMessage ((sources.map SourcePackage.encode).map (Field.bytes 1))

/-- The bytes of a manifest: each source in its turn. -/
inductive WrittenAs (sources : List SourcePackage) (b : Bytes) : Prop where
  | intro {bodies : List Bytes} (areSources : List.Forall₂ SourcePackage.WrittenAs sources bodies)
      (code : Interleaved (¬ IsKnown ·) (bodies.map (Field.bytes 1)) b)

theorem uniform_step : Uniform step := by
  rintro sources ⟨field, value, m⟩ ⟨_, _, n⟩ ⟨⟩
  cases value <;> rfl

theorem effect_of_not_isKnown {x : Item} (h : ¬ IsKnown x) (sources : List SourcePackage) :
    effect step sources x = some sources := by
  obtain ⟨field, value⟩ := x
  cases value with
  | fixed => rfl
  | varint n => rfl
  | bytes b => simp_all [IsKnown, Item.bytes?, effect, step, Except.toOption]

theorem effect_source (sources : List SourcePackage) {s : SourcePackage} {b : Bytes}
    (h : SourcePackage.decode b = .ok s) :
    effect step sources (Field.bytes 1 b).item = some (sources ++ [s]) := by
  simp [effect, step, Field.item, Field.bytes, h, Except.map, Except.toOption]

theorem foldlM_effect_of_sources {sources : List SourcePackage} {bodies : List Bytes}
    (areSources : List.Forall₂ SourcePackage.WrittenAs sources bodies)
    (before : List SourcePackage) :
    ((bodies.map (Field.bytes 1)).map Field.item).foldlM (effect step) before =
      some (before ++ sources) := by
  induction areSources generalizing before with
  | nil => simp
  | @cons s b sources bodies isSource _ ih =>
    have read := effect_source before (SourcePackage.decode_of_writtenAs isSource)
    rw [List.map_cons, List.map_cons, List.foldlM_cons, read, List.append_cons before s sources]
    exact ih (before ++ [s])

/-- Whatever else a manifest carries on any of its levels, and in whatever order the fields of its
sources and of their locations were written, it decodes to the sources that were written. What the
writer makes of sources is such a manifest of theirs. -/
theorem decode_written :
    (∀ sources b, WrittenAs sources b → decode b = .ok sources) ∧
    ∀ sources : List SourcePackage, (∀ s ∈ sources, s.encode.length < 2 ^ 64) →
      WrittenAs sources (encode sources) := by
  constructor
  · rintro sources b @⟨bodies, areSources, code⟩
    exact code.foldMessage_eq uniform_step (fun _ => effect_of_not_isKnown)
      (foldlM_effect_of_sources areSources [])
  · intro sources short
    have areSources : List.Forall₂ SourcePackage.WrittenAs sources
        (sources.map SourcePackage.encode) := by
      rw [List.forall₂_map_right_iff, List.forall₂_same]
      intro s mem
      exact SourcePackage.writtenAs_encode (short s mem)
    have proper : ∀ f ∈ (sources.map SourcePackage.encode).map (Field.bytes 1), f.IsProper := by
      simp only [List.forall_mem_map]
      intro s mem
      exact ⟨by simp [Field.bytes], short s mem⟩
    exact .intro areSources (.encoded proper)

/-- A number as field 1 of the manifest, four bytes as field 9 of its source and a number as field 2
of the location, whose root is left out and whose flag comes first. -/
theorem decode_of_unknown_fields_on_each_level :
    decode [8, 0, 10, 17, 26, 7, 24, 1, 16, 5, 18, 1, 97, 77, 0, 0, 0, 0, 18, 1, 112] =
      .ok [⟨"p", .source "a"⟩] := by
  have location : (ArtifactLocation.source "a").WrittenAs [24, 1, 16, 5, 18, 1, 97] := by
    have flag : (Field.bool 3 true).encode = [24, 1] := by decide +kernel
    have path : (Field.string 2 "a").encode = [18, 1, 97] := by decide +kernel
    have isRecord : RecordCode ⟨2, .varint 5⟩ ([16] ++ [5]) :=
      .intro (.intro (spells_single (by decide)) rfl (by decide) rfl)
        (.varint (spells_single (by decide)))
    have isUnknown : ¬ ArtifactLocation.IsKnown ⟨2, .varint 5⟩ := by
      simp [ArtifactLocation.IsKnown, Item.bytes?, Item.number?]
    have code : Interleaved (¬ ArtifactLocation.IsKnown ·) [.bool 3 true, .string 2 "a"]
        ((Field.bool 3 true).encode ++ (([16] ++ [5]) ++ ((Field.string 2 "a").encode ++ []))) :=
      .field ⟨by decide, by decide⟩
        (.other isRecord isUnknown (.field ⟨by decide, by decide +kernel⟩ .nil))
    have all : ([Field.string 1 ""] ++ [Field.bool 3 true, Field.string 2 "a"]).Perm
        (ArtifactLocation.source "a").wireFields := .cons _ (.swap _ _ _)
    rw [flag, path] at code
    exact .intro all (by simp [ArtifactLocation.wireFields, ArtifactLocation.generated]) code
  have source : SourcePackage.WrittenAs ⟨"p", .source "a"⟩
      [26, 7, 24, 1, 16, 5, 18, 1, 97, 77, 0, 0, 0, 0, 18, 1, 112] := by
    have place : (Field.bytes 3 [24, 1, 16, 5, 18, 1, 97]).encode =
        [26, 7, 24, 1, 16, 5, 18, 1, 97] := by decide +kernel
    have package : (Field.string 2 "p").encode = [18, 1, 112] := by decide +kernel
    have isRecord : RecordCode ⟨9, .fixed⟩ ([77] ++ [0, 0, 0, 0]) :=
      .intro (.intro (spells_single (by decide)) rfl (by decide) rfl) (.fixed32 rfl)
    have isUnknown : ¬ SourcePackage.IsKnown ⟨9, .fixed⟩ := by
      simp [SourcePackage.IsKnown, Item.bytes?]
    have code : Interleaved (¬ SourcePackage.IsKnown ·)
        [.bytes 3 [24, 1, 16, 5, 18, 1, 97], .string 2 "p"]
        ((Field.bytes 3 [24, 1, 16, 5, 18, 1, 97]).encode ++
          (([77] ++ [0, 0, 0, 0]) ++ ((Field.string 2 "p").encode ++ []))) :=
      .field ⟨by decide, by decide⟩
        (.other isRecord isUnknown (.field ⟨by decide, by decide +kernel⟩ .nil))
    have all : ([] ++ [Field.bytes 3 [24, 1, 16, 5, 18, 1, 97], Field.string 2 "p"]).Perm
        (SourcePackage.fields ⟨"p", .source "a"⟩ [24, 1, 16, 5, 18, 1, 97]) := .swap _ _ _
    rw [place, package] at code
    exact .intro location (.intro all (by simp) code)
  have entry : (Field.bytes 1 [26, 7, 24, 1, 16, 5, 18, 1, 97, 77, 0, 0, 0, 0, 18, 1, 112]).encode =
      [10, 17, 26, 7, 24, 1, 16, 5, 18, 1, 97, 77, 0, 0, 0, 0, 18, 1, 112] := by decide +kernel
  have isRecord : RecordCode ⟨1, .varint 0⟩ ([8] ++ [0]) :=
    .intro (.intro (spells_single (by decide)) rfl (by decide) rfl)
      (.varint (spells_single (by decide)))
  have isUnknown : ¬ IsKnown ⟨1, .varint 0⟩ := by simp [IsKnown, Item.bytes?]
  have code : Interleaved (¬ IsKnown ·)
      [.bytes 1 [26, 7, 24, 1, 16, 5, 18, 1, 97, 77, 0, 0, 0, 0, 18, 1, 112]]
      (([8] ++ [0]) ++ ((Field.bytes 1
        [26, 7, 24, 1, 16, 5, 18, 1, 97, 77, 0, 0, 0, 0, 18, 1, 112]).encode ++ [])) :=
    .other isRecord isUnknown (.field ⟨by decide, by decide⟩ .nil)
  rw [entry] at code
  obtain ⟨decodes, -⟩ := decode_written
  exact decodes _ _ (.intro (.cons source .nil) code)

end PackageManifest

end WorkspaceSync
