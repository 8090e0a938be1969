import WorkspaceSync.Proofs.ManifestIndex.Reload
import WorkspaceSync.Proofs.Sync.Cancellation
import WorkspaceSync.Proofs.Sync.Fresh
import WorkspaceSync.Proofs.Sync.Replay

/-!
# A sync after itself

A sync that starts from the state that the same sync left ends in that state, with nothing to add or
to remove. This holds also where manifests are missing, cannot be checked or do not parse, and where
the prefetch of the first sync or of the second one fails.
-/

namespace WorkspaceSync

namespace LoadCall

variable {c : LoadCall} {i j : ManifestIndex} {v : FileView}

/-- A load without a flag ends where its prefetch does not report a cancellation. -/
theorem exists_outcome_uncancelled {r : PrefetchOutcome} (done : r ≠ .cancelled)
    (fetched : c.prefetch false (c.diff i).changed c.files = (r, v)) :
    ∃ index, (c.uncancelled.report i).outcome = .ok index ∧
      (c.uncancelled.report i).files = v := by
  have diff : SnapshotDiff.update c.mode c.files .never i.snapshot
      (ManifestIndex.ownersOf c.roots c.rules).keys = .ok (c.diff i) :=
    SnapshotDiff.update_of_clear fun _ => rfl
  have flag : ∀ m, Cancellation.never m = false := fun _ => rfl
  simp only [report, uncancelled, ManifestIndex.load, diff, flag, fetched]
  cases r with
  | done => exact ⟨_, rfl, rfl⟩
  | failed reason => exact ⟨_, rfl, rfl⟩
  | cancelled => exact absurd rfl done

end LoadCall

namespace SyncCall

variable {c : SyncCall} {st : SyncState} {o : SyncOutcome}

/-- A sync without a flag succeeds if its load does and all patterns compile. -/
theorem outcome_uncancelled {index : Option ManifestIndex} {x : Exclusions}
    (loaded : (c.uncancelled.loaded st).outcome = .ok index)
    (compiled : Augmenter.exclusions c.engine.augmenters c.engine.exclusions = .ok x) :
    (c.uncancelled.report st).outcome = .ok (c.uncancelled.conclusion st index x) :=
  outcome_eq_ok_iff.2 ⟨rfl, index, x, loaded, compiled, rfl⟩

/-- The last phase makes of the same manifests and files the same state. It compares the libraries
with themselves then. -/
theorem conclusion_again {index again : Option ManifestIndex} {x : Exclusions}
    (manifests : again.or (c.conclusion st index x).state.manifests =
      (c.conclusion st index x).state.manifests)
    (files : (c.loaded (c.conclusion st index x).state).files = (c.loaded st).files) :
    (c.conclusion (c.conclusion st index x).state again x).state =
        (c.conclusion st index x).state ∧
      (c.conclusion (c.conclusion st index x).state again x).languageLevel =
        (c.conclusion st index x).languageLevel ∧
      (c.conclusion (c.conclusion st index x).state again x).libraryDiff =
        ⟨[], [], (c.conclusion st index x).state.attached.values⟩ := by
  have second : c.conclusion (c.conclusion st index x).state again x =
      c.engine.outcome (c.conclusion st index x).state (index.or st.manifests) again.isSome
        (c.engine.importWorkspace c.request (index.or st.manifests) (c.loaded st).files).result
        x := by
    rw [conclusion, manifests, files]
    rfl
  rw [second]
  refine ⟨rfl, rfl, ?_⟩
  have unchanged : c.engine.settingChanged (c.conclusion st index x).state.java = false :=
    bne_self_eq_false _
  have diff : (c.engine.outcome (c.conclusion st index x).state (index.or st.manifests)
      again.isSome (c.engine.importWorkspace c.request (index.or st.manifests)
        (c.loaded st).files).result x).libraryDiff =
      if c.engine.settingChanged (c.conclusion st index x).state.java then
        .replaceAll (c.conclusion st index x).state.attached
          (c.conclusion st index x).state.attached
      else .between (c.conclusion st index x).state.attached
        (c.conclusion st index x).state.attached := rfl
  rw [diff, unchanged]
  exact LibraryDiff.between_self _

/-- Syncing is done when it is done. After any run, a sync that succeeds and is made again with the
same inputs and files, from the state that it left, succeeds with that state and language level. It
has nothing to add or to remove, and lists all attached libraries as unchanged in the order of their
keys. The prefetcher, asked now for the manifests that failed before, must not call the sync
cancelled and must leave the files as the first sync found them. -/
theorem resync_fixed_point (earlier : List SyncCall) (c : SyncCall) {o : SyncOutcome}
    (returned : (c.report (stateAfter earlier)).outcome = .ok o)
    (honest : (c.engine.prefetch false (c.wanted o.state) c.files).1 ≠ .cancelled)
    (sameFiles : (c.engine.prefetch false (c.wanted o.state) c.files).2 =
      (c.loaded (stateAfter earlier)).files) :
    ∃ o', (c.uncancelled.report o.state).outcome = .ok o' ∧
      o'.state = o.state ∧ o'.languageLevel = o.languageLevel ∧
      o'.libraryDiff.toAdd = [] ∧ o'.libraryDiff.toRemove = [] ∧
      o'.libraryDiff.unchanged = o.state.attached.values ∧
      o'.libraryDiff.unchanged.Pairwise fun a b => compare a.key b.key = .lt := by
  obtain ⟨last, index, x, loaded, compiled, rfl⟩ := outcome_eq_ok_iff.1 returned
  have same := c.loaded_uncancelled (stateAfter earlier) (c.neverCleared.eq_false (by decide) last)
  have coherent : ((stateAfter earlier).manifests.getD .empty).Coherent := by
    rw [manifests_stateAfter]
    exact LoadCall.coherent_indexAfter _
  obtain ⟨again, reloaded, files⟩ := LoadCall.exists_outcome_uncancelled (c := c.loading)
    (i := (c.conclusion (stateAfter earlier) index x).state.manifests.getD .empty) honest
    Prod.mk.eta.symm
  have present : (c.uncancelled.loaded (c.conclusion (stateAfter earlier) index x).state).files =
      (c.uncancelled.loaded (stateAfter earlier)).files :=
    (files.trans sameFiles).trans (congrArg LoadReport.files same).symm
  have manifests : again.or (index.or (stateAfter earlier).manifests) =
      index.or (stateAfter earlier).manifests :=
    LoadCall.reload_or_eq (c := c.loading.uncancelled) coherent
      ((congrArg LoadReport.outcome same).trans loaded) reloaded present
  have first : c.uncancelled.conclusion (stateAfter earlier) index x =
      c.conclusion (stateAfter earlier) index x := by
    rw [conclusion, same]
    rfl
  rw [← first] at present
  obtain ⟨state, level, diff⟩ := c.uncancelled.conclusion_again manifests present
  rw [first] at state level diff
  refine ⟨_, outcome_uncancelled reloaded compiled, state, level, ?_⟩
  rw [diff]
  exact ⟨rfl, rfl, rfl, SortedMap.KeyedBy.values_sorted (keyed_attached_conclusion _ _ _ _)⟩

/-! ## A manifest that stays damaged -/

/-- The first manifest is cut off now, and the second one has changed. -/
def damagedSync : SyncCall :=
  syncBoth (LoadCall.filesWith ([255], 1) (LoadCall.manifestOf 99, 1))

/-- The damaged manifest is tried again and changes nothing. -/
theorem damaged_sync_repeats : ∃ o o',
    (damagedSync.report (stateAfter [firstSync])).outcome = .ok o ∧
      damagedSync.wanted o.state = [⟨"/w/a"⟩] ∧
      (damagedSync.uncancelled.report o.state).outcome = .ok o' ∧
      o'.state = o.state ∧ o'.languageLevel = o.languageLevel ∧
      o'.libraryDiff.toAdd = [] ∧ o'.libraryDiff.toRemove = [] ∧
      o'.libraryDiff.unchanged = o.state.attached.values := by
  have fetched : damagedSync.engine.prefetch false (damagedSync.wanted (stateAfter [firstSync]))
      damagedSync.files = (.done, damagedSync.files) := rfl
  obtain ⟨j, loaded, files⟩ := exists_loaded rfl fetched
  have returned : (damagedSync.report (stateAfter [firstSync])).outcome =
      .ok (damagedSync.conclusion (stateAfter [firstSync]) (some j) .empty) :=
    outcome_eq_ok_iff.2 ⟨rfl, some j, .empty, loaded, rfl, rfl⟩
  have again : (damagedSync.loaded (stateAfter [firstSync])).outcome.toOption.map
      (fun index => (damagedSync.loading.diff (index.getD .empty)).changed) =
      some [⟨"/w/a"⟩] := by decide +kernel
  rw [loaded] at again
  obtain ⟨o', second, state, level, add, remove, unchanged, -⟩ :=
    resync_fixed_point [firstSync] damagedSync returned (fun h => PrefetchOutcome.noConfusion h)
      files.symm
  exact ⟨_, o', returned, Option.some.inj again, second, state, level, add, remove, unchanged⟩

end SyncCall

end WorkspaceSync
