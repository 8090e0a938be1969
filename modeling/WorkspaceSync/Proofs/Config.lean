import WorkspaceSync.Config.Parse
import WorkspaceSync.Proofs.Except
import WorkspaceSync.Proofs.LanguageLevel

/-!
# The level of a configuration

A section is its default with the values of a document put in one after the other, so what holds of the
default and survives every field holds of whatever is read. A level gets into a configuration from its
text only, so it is a feature release: `asksRelease_of_parse`.
-/

namespace WorkspaceSync

namespace Toml

variable {σ α : Type} {P : σ → Prop}

theorem valid_of_parsed {ε : Type} {parse : String → Except ε α} {message : ε → String}
    {Valid : α → Prop} (valid : ∀ s a, parse s = .ok a → Valid a) {v : Value} {a : α}
    (read : Decoder.parsed parse message v = .ok a) : Valid a := by
  simp only [Decoder.parsed] at read
  split at read
  · cases read
  · exact valid _ a (mapError_eq_ok_iff.1 read)

/-- Whatever value a field takes in, a property stays. -/
def Field.Keeps (f : Field σ) (P : σ → Prop) : Prop := ∀ s v s', f.set s v = .ok s' → P s → P s'

theorem Field.keeps_ofDecoder {name : String} {d : Decoder α} {put : σ → α → σ}
    (kept : ∀ s v a, d v = .ok a → P s → P (put s a)) : (ofDecoder name d put).Keeps P := by
  intro s v s' taken holds
  obtain ⟨a, value, rfl⟩ := map_eq_ok_iff.1 taken
  exact kept s v a value holds

namespace Section

variable {c : Section σ} {s s' : σ}

theorem holds_of_set (keeps : ∀ f ∈ c.fields, f.Keeps P) {key : String} {v : Value}
    (taken : c.set s key v = .ok s') (holds : P s) : P s' := by
  unfold set at taken
  split at taken
  · rename_i f found
    exact keeps f (List.mem_of_find?_eq_some found) s v s' taken holds
  · cases taken

theorem holds_of_ofTable (keeps : ∀ f ∈ c.fields, f.Keeps P) (start : P c.default) {t : Table}
    (read : c.ofTable t = .ok s) : P s := by
  refine foldlM_keeps ?_ read start
  intro e _ s s'
  exact holds_of_set keeps

/-- However a section is written, it has what its default has and its fields keep. -/
theorem holds_of_decoder (keeps : ∀ f ∈ c.fields, f.Keeps P) (start : P c.default) {v : Value}
    (read : c.decoder v = .ok s) : P s := by
  have elements : ∀ items, c.ofElements items = .ok s → P s := by
    intro items read
    refine foldlM_keeps ?_ read start
    intro e mem s s'
    exact keeps e.1 (List.of_mem_zip mem).1 s e.2 s'
  unfold decoder at read
  split at read
  · exact holds_of_ofTable keeps start read
  · exact holds_of_ofTable keeps start read
  · cases read
  · split at read
    · exact elements _ read
    · cases read

end Section

end Toml

open Toml (Field)

/-- The level that a section asks for, if it asks for one, is a feature release. -/
def JavaSection.AsksRelease (j : JavaSection) : Prop := ∀ l ∈ j.languageLevel, l.IsFeatureRelease

theorem JavaSection.asksRelease_default : default.AsksRelease := by
  intro l asked
  cases asked

theorem JavaSection.asksRelease_of_decoder {v : Toml.Value} {j : JavaSection}
    (read : format.decoder v = .ok j) : j.AsksRelease := by
  refine Toml.Section.holds_of_decoder ?_ asksRelease_default read
  simp only [format, List.forall_mem_cons]
  refine ⟨?level, ?excluded, ?attached, nofun⟩
  case level =>
    apply Field.keeps_ofDecoder
    rintro s v l level - _ ⟨⟩
    exact Toml.valid_of_parsed (fun _ _ read => (LanguageLevel.parse_eq_ok_iff.1 read).1) level
  case excluded => exact Field.keeps_ofDecoder fun s v a _ asks => asks
  case attached => exact Field.keeps_ofDecoder fun s v a _ asks => asks

namespace SyncConfig

theorem asksRelease_of_ofTable {t : Toml.Table} {c : SyncConfig} (read : format.ofTable t = .ok c) :
    c.java.AsksRelease := by
  refine Toml.Section.holds_of_ofTable (P := fun c : SyncConfig => c.java.AsksRelease) ?_
    JavaSection.asksRelease_default read
  simp only [format, List.forall_mem_cons]
  refine ⟨?project, ?java, ?sync, nofun⟩
  case project => exact Field.keeps_ofDecoder fun s v a _ asks => asks
  case java => exact Field.keeps_ofDecoder fun s v a read _ => JavaSection.asksRelease_of_decoder read
  case sync => exact Field.keeps_ofDecoder fun s v a _ asks => asks

/-- A configuration that was read asks for a feature release or for none. -/
theorem asksRelease_of_parse {document : String} {c : SyncConfig} (read : parse document = .ok c) :
    c.java.AsksRelease := by
  unfold parse at read
  split at read
  · obtain ⟨config, decoded, read⟩ := bind_eq_ok_iff.1 read
    obtain ⟨-, -, same⟩ := bind_eq_ok_iff.1 read
    cases same
    exact asksRelease_of_ofTable (mapError_eq_ok_iff.1 decoded)
  · cases read

end SyncConfig

end WorkspaceSync
