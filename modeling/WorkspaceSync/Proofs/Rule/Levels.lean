import WorkspaceSync.Proofs.Except
import WorkspaceSync.Proofs.LanguageLevel
import WorkspaceSync.Rule.Json

/-!
# The levels of rules

A rule may name any number as a level, but one that was read names feature releases only, since its
levels were read from their texts: what a decoder says of its values, a structure says of its members.
-/

namespace WorkspaceSync

open Json (Decoder Place Record Shape)

/-! ## What decoders say of their values -/

namespace Json

variable {α : Type} {d : Decoder α} {P : α → Prop}

/-- All values that a decoder reads have a property. -/
def Yields (d : Decoder α) (P : α → Prop) : Prop := ∀ p j a, d p j = .ok a → P a

theorem yields_parsed {ε : Type} {parse : String → Except ε α} {message : ε → String}
    (valid : ∀ s a, parse s = .ok a → P a) : Yields (Decoder.parsed parse message) P := by
  intro p j a read
  simp only [Decoder.parsed] at read
  split at read
  · cases read
  · exact valid _ a (mapError_eq_ok_iff.1 read)

theorem Yields.optional (yields : Yields d P) :
    Yields d.optional fun o => ∀ a ∈ o, P a := by
  intro p j o read a mem
  unfold Decoder.optional at read
  split at read
  · cases read
    cases mem
  · obtain ⟨b, value, rfl⟩ := map_eq_ok_iff.1 read
    cases mem
    exact yields _ _ a value

theorem Yields.get? (yields : Yields d P) {r : Record} {name : String} :
    ∀ a ∈ r.get? name d, P a := by
  intro a found
  obtain ⟨j, -, read⟩ := Option.bind_eq_some_iff.1 found
  exact yields _ _ a (toOption_eq_some_iff.1 read)

/-- A member that may be missing is not there, or is null, or has a value. -/
theorem Yields.join (yields : Yields d P) {r : Record} {name : String} :
    ∀ a ∈ (r.get? name d.optional).join, P a := by
  intro a found
  exact yields.optional.get? (some a) (Option.join_eq_some_iff.1 found) a rfl

theorem yields_ofShape {s : Shape} {build : Record → Option α}
    (built : ∀ r a, build r = some a → P a) : Yields (Decoder.ofShape s build) P := by
  intro p j a read
  simp only [Decoder.ofShape] at read
  split at read
  · cases read
  · rename_i r _
    cases value : build r with
    | none =>
      rw [value] at read
      cases read
    | some b =>
      rw [value] at read
      cases read
      exact built r a value

end Json

/-! ## Levels -/

theorem LanguageLevel.yields_decoder : Json.Yields decoder IsFeatureRelease := by
  apply Json.yields_parsed
  intro s l read
  exact (parse_eq_ok_iff.1 read).1

namespace Payload

/-- The levels that a payload names. -/
def levels : Payload → List LanguageLevel
  | java i => i.sourceVersion.toList
  | javaToolchain t => t.sourceVersion :: t.targetVersion.toList
  | unrecognized => []

theorem levels_of_decodeContent {content : Json} {t : Tag} {a : Payload}
    (read : decodeContent content t = .ok a) : ∀ l ∈ a.levels, l.IsFeatureRelease := by
  have java : Json.Yields JavaInfo.decoder fun i =>
      ∀ l ∈ i.sourceVersion, l.IsFeatureRelease := by
    apply Json.yields_ofShape
    rintro r _ ⟨⟩
    exact LanguageLevel.yields_decoder.join
  have toolchain : Json.Yields ToolchainInfo.decoder fun t =>
      t.sourceVersion.IsFeatureRelease ∧ ∀ l ∈ t.targetVersion, l.IsFeatureRelease := by
    apply Json.yields_ofShape
    intro r t built
    obtain ⟨l, found, same⟩ := Option.bind_eq_some_iff.1 built
    cases same
    exact ⟨LanguageLevel.yields_decoder.get? l found, LanguageLevel.yields_decoder.join⟩
  cases t with
  | java =>
    obtain ⟨i, value, rfl⟩ := map_eq_ok_iff.1 read
    intro l mem
    exact java _ _ i value l (Option.mem_toList.1 mem)
  | javaToolchain =>
    obtain ⟨t, value, rfl⟩ := map_eq_ok_iff.1 read
    obtain ⟨source, target⟩ := toolchain _ _ t value
    rw [levels, List.forall_mem_cons]
    refine ⟨source, ?_⟩
    intro l mem
    exact target l (Option.mem_toList.1 mem)
  | other =>
    have unrecognized : a = .unrecognized := by
      unfold decodeContent at read
      dsimp only at read
      split at read
      · split at read
        · exact (Except.ok.inj read).symm
        · cases read
      · exact (Except.ok.inj read).symm
    rw [unrecognized]
    exact nofun

/-- Whatever the tag is, the levels are in the content that goes with it. -/
theorem yields_decoder : Json.Yields decoder fun a => ∀ l ∈ a.levels, l.IsFeatureRelease := by
  intro p j a read
  unfold decoder at read
  split at read
  · split at read
    · cases read
    · obtain ⟨t, -, content⟩ := bind_eq_ok_iff.1 read
      exact levels_of_decodeContent content
  · obtain ⟨t, -, content⟩ := bind_eq_ok_iff.1 read
    exact levels_of_decodeContent content
  · cases read
  · cases read

end Payload

namespace Rule

/-- The levels that a rule names. -/
def levels (r : Rule) : List LanguageLevel := r.payload.toList.flatMap Payload.levels

theorem mem_levels {r : Rule} {a : Payload} (payload : r.payload = some a) {l : LanguageLevel}
    (named : l ∈ a.levels) : l ∈ r.levels :=
  List.mem_flatMap.2 ⟨a, Option.mem_toList.2 payload, named⟩

theorem mem_levels_of_java {r : Rule} {j : JavaInfo} (java : r.java? = some j) {l : LanguageLevel}
    (version : j.sourceVersion = some l) : l ∈ r.levels := by
  unfold java? at java
  split at java
  · rename_i payload
    cases java
    exact mem_levels payload (Option.mem_toList.2 version)
  · cases java

theorem mem_levels_of_toolchain {r : Rule} {t : ToolchainInfo} (toolchain : r.toolchain? = some t) :
    t.sourceVersion ∈ r.levels := by
  unfold toolchain? at toolchain
  split at toolchain
  · rename_i payload
    cases toolchain
    exact mem_levels payload List.mem_cons_self
  · cases toolchain

theorem levels_of_ofJson {j : Json} {r : Rule} (read : ofJson j = .ok r) :
    ∀ l ∈ r.levels, l.IsFeatureRelease := by
  have yields : Json.Yields decoder fun r => ∀ l ∈ r.levels, l.IsFeatureRelease := by
    apply Json.yields_ofShape
    intro record r built
    obtain ⟨label, -, built⟩ := Option.bind_eq_some_iff.1 built
    obtain ⟨kind, -, same⟩ := Option.bind_eq_some_iff.1 built
    cases same
    intro l mem
    obtain ⟨a, payload, named⟩ := List.mem_flatMap.1 mem
    exact Payload.yields_decoder.join a (Option.mem_toList.1 payload) l named
  exact yields .document j r read

end Rule

end WorkspaceSync
