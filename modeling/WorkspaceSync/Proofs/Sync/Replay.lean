import WorkspaceSync.Proofs.Sync.Attachment
import WorkspaceSync.Proofs.Sync.Run

/-!
# A project model that replays the differences

A project model that starts without libraries and follows only the differences that the successful
syncs of a run report holds the attached libraries all along: `replay_eq_attached`.
-/

namespace WorkspaceSync

/-- The libraries that are attached in a state; none before the first sync. -/
def SyncState.attached (st : SyncState) : LibraryTable :=
  (st.java.map (·.attachedLibraries)).getD SortedMap.empty

namespace SyncCall

variable {c : SyncCall} {st : SyncState} {o : SyncOutcome}

/-- What a model holds that replays the differences of a run; nothing if one does not apply to what
it holds. -/
def replay : List SyncCall → Option (Finset Library)
  | [] => some ∅
  | c :: earlier =>
    match (c.report (stateAfter earlier)).outcome with
    | .ok o => (replay earlier).bind o.libraryDiff.applyTo?
    | .error _ => replay earlier

theorem attached_conclusion (c : SyncCall) (st : SyncState) (index : Option ManifestIndex)
    (x : Exclusions) : (c.conclusion st index x).state.attached =
      LibraryTable.attached c.engine.augmenters x
        (c.engine.importWorkspace c.request (index.or st.manifests) (c.loaded st).files).result :=
  rfl

theorem keyed_attached_conclusion (c : SyncCall) (st : SyncState) (index : Option ManifestIndex)
    (x : Exclusions) : (c.conclusion st index x).state.attached.Keyed := by
  rw [attached_conclusion]
  exact LibraryTable.keyed_attached _ _ (ImportRequest.keyed_libraries _ _)

theorem keyed_attached_stateAfter (run : List SyncCall) : (stateAfter run).attached.Keyed := by
  induction run with
  | nil => exact SortedMap.keyedBy_empty
  | cons c earlier ih =>
    rw [stateAfter, next]
    cases h : (c.report (stateAfter earlier)).outcome with
    | error e => exact ih
    | ok o =>
      obtain ⟨-, index, x, -, -, rfl⟩ := outcome_eq_ok_iff.1 h
      exact keyed_attached_conclusion _ _ _ _

/-- The difference that a sync reports leads from the libraries before it to those after it. -/
theorem applyTo?_of_outcome (h : (c.report st).outcome = .ok o) (keyed : st.attached.Keyed) :
    o.libraryDiff.applyTo? st.attached.libraries = some o.state.attached.libraries := by
  obtain ⟨-, index, x, -, -, rfl⟩ := outcome_eq_ok_iff.1 h
  have keyed' := keyed_attached_conclusion c st index x
  have diff : (c.conclusion st index x).libraryDiff =
      if c.engine.settingChanged st.java then
        .replaceAll st.attached (c.conclusion st index x).state.attached
      else .between st.attached (c.conclusion st index x).state.attached := rfl
  rw [diff]
  split
  · exact LibraryDiff.applyTo?_replaceAll keyed keyed'
  · exact LibraryDiff.applyTo?_between keyed keyed'

/-- After every run of syncs a model that replays the differences holds exactly the attached
libraries; every removal found its library and every addition its key free. -/
theorem replay_eq_attached (run : List SyncCall) :
    replay run = some (stateAfter run).attached.libraries := by
  induction run with
  | nil => rfl
  | cons c earlier ih =>
    rw [replay, stateAfter, next, ih]
    cases h : (c.report (stateAfter earlier)).outcome with
    | error e => rfl
    | ok o => exact applyTo?_of_outcome h (keyed_attached_stateAfter earlier)

end SyncCall

end WorkspaceSync
