import WorkspaceSync.Import.Basic
import WorkspaceSync.Proofs.Fold
import WorkspaceSync.Proofs.LibraryDiff
import WorkspaceSync.Sync.Attachment

/-!
# Attached libraries are kept under their own keys

An import enters every library under its key, augmenters add libraries under theirs, and leaving
some out moves none.
-/

namespace WorkspaceSync

namespace LibraryTable

theorem addCandidate_fst (acc : Kept × List Diagnostic) (c : LibraryCandidate) :
    (addCandidate acc c).1 = acc.1.insertIfNew c.library.key c := by
  obtain ⟨kept, diagnostics⟩ := acc
  cases hk : kept.get? c.library.key with
  | none => simp [addCandidate, SortedMap.insertIfNew, SortedMap.contains_eq_isSome, hk]
  | some first =>
    simp only [addCandidate, SortedMap.insertIfNew, SortedMap.contains_eq_isSome, hk]
    split <;> rfl

/-- Of candidates with one key the first is kept. -/
theorem foldl_addCandidate_fst (candidates : List LibraryCandidate) :
    (candidates.foldl addCandidate (SortedMap.empty, [])).1 =
      .ofListFirst (candidates.map fun c => (c.library.key, c)) := by
  rw [SortedMap.ofListFirst, List.foldl_map]
  exact (List.foldl_hom Prod.fst fun acc c => (addCandidate_fst acc c).symm).symm

theorem keyed_ofCandidates (candidates : List LibraryCandidate) :
    (ofCandidates candidates).1.Keyed := by
  intro e he
  obtain ⟨f, hf, rfl⟩ := List.mem_map.1 he
  rw [foldl_addCandidate_fst] at hf
  obtain ⟨c, -, rfl⟩ := List.mem_map.1 (SortedMap.mem_ofListFirst hf)
  rfl

end LibraryTable

theorem ImportRequest.keyed_libraries (q : ImportRequest) (read : PackageReader) :
    (q.run read).result.libraries.Keyed :=
  LibraryTable.keyed_ofCandidates _

namespace LibraryTable

variable {r : ImportResult}

theorem keyed_contributed (augmenters : List Augmenter) (h : Keyed r.libraries) :
    Keyed (Augmenter.contributed augmenters r) := by
  unfold Augmenter.contributed
  apply Fold.foldl_inv Keyed h
  intro t ht l _
  exact SortedMap.KeyedBy.insertIfNew ht l

theorem keyed_attached (augmenters : List Augmenter) (x : Exclusions) (h : Keyed r.libraries) :
    (attached augmenters x r).Keyed :=
  SortedMap.KeyedBy.filter (keyed_contributed augmenters h) _

end LibraryTable

end WorkspaceSync
