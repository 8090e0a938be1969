import WorkspaceSync.Proofs.Import.Pruning
import WorkspaceSync.Proofs.RuleMap.Elements
import WorkspaceSync.Proofs.StateFile.Format

/-!
# The level in the state of a sync

The level that an import finds is one that a rule names, the highest of several. So a sync of rules
that name feature releases only leaves a state that a state file gives back.
-/

namespace WorkspaceSync

theorem LanguageLevel.max_eq (a b : LanguageLevel) : a.max b = a ∨ a.max b = b := by
  unfold LanguageLevel.max
  split
  · exact .inr rfl
  · exact .inl rfl

theorem LanguageLevel.highest?_mem {levels : List LanguageLevel} :
    ∀ l ∈ highest? levels, l ∈ levels := by
  suffices ∀ (rest : List LanguageLevel) (best : Option LanguageLevel),
      (∀ l ∈ best, l ∈ levels) → rest ⊆ levels →
      ∀ l ∈ rest.foldl (fun best l => some ((best.map (·.max l)).getD l)) best, l ∈ levels from
    this levels none nofun (List.Subset.refl levels)
  intro rest
  induction rest with
  | nil =>
    intro best mem _
    exact mem
  | cons next rest ih =>
    intro best mem within
    rw [List.cons_subset] at within
    apply ih _ _ within.2
    rintro l ⟨⟩
    cases best with
    | none => exact within.1
    | some former =>
      show former.max next ∈ levels
      rcases former.max_eq next with same | same
      · rw [same]
        exact mem former rfl
      · rw [same]
        exact within.1

/-- The level of an import is one that a rule names. -/
theorem ImportRequest.exists_rule_of_sourceVersion {q : ImportRequest} {l : LanguageLevel}
    (found : q.sourceVersion = some l) : ∃ r ∈ q.rules.rules, l ∈ r.levels := by
  rcases Option.or_eq_some_iff.1 found with asked | ⟨-, asked⟩
  · obtain ⟨t, content, version⟩ := List.mem_filterMap.1 (LanguageLevel.highest?_mem l asked)
    obtain ⟨declared, -, java, -⟩ := mem_targets_iff.1 (List.mem_of_mem_filter content)
    exact ⟨t.rule, declared, Rule.mem_levels_of_java java version⟩
  · obtain ⟨r, declared, version⟩ := List.mem_filterMap.1 (LanguageLevel.highest?_mem l asked)
    obtain ⟨t, toolchain, rfl⟩ := Option.map_eq_some_iff.1 version
    exact ⟨r, declared, Rule.mem_levels_of_toolchain toolchain⟩

namespace Engine

variable {e : Engine} {q : SyncRequest} {previous : SyncState} {v : FileView}

theorem restorable_outcome (named : q.rules.NamesReleases) (manifests : Option ManifestIndex)
    (reloaded : Bool) (x : Exclusions) :
    (e.outcome previous manifests reloaded (e.importWorkspace q manifests v).result
      x).state.Restorable := by
  rintro _ ⟨⟩ l found
  obtain ⟨r, declared, mem⟩ := ImportRequest.exists_rule_of_sourceVersion found
  exact named r declared l mem

/-- The last phase leaves such a state, if it leaves one. -/
theorem restorable_conclude (named : q.rules.NamesReleases) {manifests : Option ManifestIndex}
    {reloaded : Bool} {cancelled : Cancellation} {o : SyncOutcome}
    (returned : (e.conclude previous manifests reloaded (e.importWorkspace q manifests v).result
      cancelled).1 = .ok o) : o.state.Restorable := by
  unfold conclude at returned
  split at returned
  · cases returned
  · dsimp only at returned
    split at returned
    · cases returned
    · cases returned
      exact restorable_outcome named _ _ _

end Engine

end WorkspaceSync
