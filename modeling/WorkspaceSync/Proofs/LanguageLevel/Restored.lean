import WorkspaceSync.Proofs.Config
import WorkspaceSync.Proofs.RuleMap.Elements
import WorkspaceSync.Proofs.StateFile.Format

/-!
# Language levels come back from their texts

Documents in JSON and state files keep a level as its text, so a level that was read from anywhere is
had back from both. The text need not be the one that was read: `+09` and `1.9` are read as release 9,
which is shown as `9`. `restored_from_text` says which texts are read and that none of this loses a
level, on either side of the releases where one spelling ends and the other begins. Only release 0,
which is read from nowhere, would be lost.
-/

namespace WorkspaceSync

namespace Bytes

theorem ofText_eq (s : String) : ofText s = s.toList.flatMap String.utf8EncodeChar := by
  have whole : s.toByteArray = (s.toList.flatMap String.utf8EncodeChar).toByteArray :=
    String.utf8Encode_toList.symm
  rw [ofText, String.toUTF8, whole]
  simp

theorem length_ofText_le (s : String) : (ofText s).length ≤ 4 * s.length := by
  rw [ofText_eq, ← String.length_toList]
  induction s.toList with
  | nil => exact Nat.le_refl 0
  | cons c cs ih =>
    have four := c.utf8Size_le_four
    rw [List.flatMap_cons, List.length_append, String.length_utf8EncodeChar, List.length_cons]
    omega

end Bytes

namespace LanguageLevel

open Text

theorem parse_text {l : LanguageLevel} (feature : l.IsFeatureRelease) : parse l.text = .ok l := by
  rw [parse, parse?_text feature]

/-- Ten digits, behind two characters at most. -/
theorem length_text_le (l : LanguageLevel) : l.text.length ≤ 12 := by
  have digits : (toString l.release.toNat).length ≤ 10 := by
    rw [← String.length_toList, Nat.toString_eq_repr, Nat.toList_repr,
      Nat.length_toDigits_le_iff (by decide) (by decide)]
    exact Nat.lt_trans l.release.toNat_lt (by decide)
  unfold text
  split
  · have start : "1.".length = 2 := rfl
    rw [String.length_append]
    omega
  · omega

theorem decode_encode_append {l : LanguageLevel} (feature : l.IsFeatureRelease) (rest : Bytes) :
    Codec.languageLevel.decode (Codec.languageLevel.encode l ++ rest) = some (l, rest) := by
  have selective := Codec.selective_languageLevel
  have size : (Codec.languageLevel.encode l).length =
      (Codec.encodeNatural (Bytes.ofText l.text).length).length + (Bytes.ofText l.text).length :=
    List.length_append
  have mark := Codec.length_encodeNatural_le (Bytes.ofText l.text).length
  have bytes := Bytes.length_ofText_le l.text
  have chars := l.length_text_le
  exact (selective.restores l feature).decode_append selective.incremental (by omega) rest

/-- A level that was read as a text, or with the rules of a workspace, its configuration or a state. -/
inductive WasRead (l : LanguageLevel) : Prop
  | text {s : String} (read : parse s = .ok l)
  | rules {document : String} {m : RuleMap} {ds : List Diagnostic} {r : Rule}
      (read : RuleMap.parse document = .ok (m, ds)) (mem : r ∈ m.rules) (named : l ∈ r.levels)
  | configuration {document : String} {c : SyncConfig} (read : SyncConfig.parse document = .ok c)
      (asked : c.java.languageLevel = some l)
  | state {b : Bytes} {s : SyncState} {m : JavaModel} (read : StateFile.decode b = some s)
      (java : s.java = some m) (version : m.imported.sourceVersion = some l)

theorem WasRead.isFeatureRelease {l : LanguageLevel} (wasRead : l.WasRead) :
    l.IsFeatureRelease := by
  cases wasRead with
  | text read => exact (parse_eq_ok_iff.1 read).1
  | rules read mem named => exact RuleMap.namesReleases_of_parse read _ mem l named
  | configuration read asked => exact SyncConfig.asksRelease_of_parse read l asked
  | state read java version => exact StateFile.restorable_of_decode read _ java l version

/-- The level of every release from 1 on is read from the text in which it is shown. The texts that are
read are the spellings of such levels, and from every one of them the level is had again when it has
been shown. Wherever a level was read, it comes back from JSON, and from a state file with whatever
follows it there. -/
theorem restored_from_text :
    (∀ n : UInt32, n ≠ 0 → parse (text ⟨n⟩) = .ok ⟨n⟩) ∧
    (∀ (s : String) (l : LanguageLevel),
      parse s = .ok l ↔ l.IsFeatureRelease ∧ l.IsSpelling (trimChars s.toList)) ∧
    (∀ (s : String) (l : LanguageLevel), parse s = .ok l → parse l.text = .ok l) ∧
    (∀ l : LanguageLevel, l.WasRead → l.IsFeatureRelease) ∧
    (∀ l : LanguageLevel, l.IsFeatureRelease → ∀ p : Json.Place,
      Json.parse l.toJson.print = .ok l.toJson ∧ decoder p l.toJson = .ok l) ∧
    ∀ l : LanguageLevel, l.IsFeatureRelease → ∀ rest : Bytes,
      Codec.languageLevel.decode (Codec.languageLevel.encode l ++ rest) = some (l, rest) := by
  refine ⟨?_, ?_, ?_, fun _ => WasRead.isFeatureRelease, ?_, fun _ => decode_encode_append⟩
  · intro n positive
    exact parse_text positive
  · intro s l
    exact parse_eq_ok_iff
  · intro s l read
    exact parse_text (parse_eq_ok_iff.1 read).1
  · intro l feature p
    have decodes := LanguageLevel.decodes feature
    exact ⟨Json.parse_print .string, decodes.read p _ decodes.same⟩

def releaseNine : LanguageLevel := ⟨9⟩

/-- The one release that is read in the older spelling and not shown in it. -/
theorem release_nine_restored :
    releaseNine.WasRead ∧ releaseNine.IsFeatureRelease ∧ parse " 1.+09" = .ok releaseNine ∧
      releaseNine.text = "9" ∧ parse (text ⟨9⟩) = .ok releaseNine ∧
      parse releaseNine.text = .ok releaseNine ∧
      decoder .document releaseNine.toJson = .ok releaseNine := by
  have read : parse " 1.+09" = .ok releaseNine := by decide +kernel
  have wasRead : releaseNine.WasRead := .text read
  obtain ⟨shown, -, again, had, json, -⟩ := restored_from_text
  have feature := had releaseNine wasRead
  exact ⟨wasRead, feature, read, rfl, shown 9 (by decide), again " 1.+09" _ read,
    (json releaseNine feature .document).2⟩

end LanguageLevel

end WorkspaceSync
