import WorkspaceSync.Proofs.ManifestIndex.History

/-!
# Loading again what a load left

A load that starts from the index that the same load left, and finds the same files, leaves that
index. Nothing is evicted or moved then. The only files that count as changed are those that failed
before: they are parsed again, fail again, and have their signatures taken back again.
-/

namespace WorkspaceSync.LoadCall

open ManifestIndex

variable {c : LoadCall} {i j k : ManifestIndex} {p q : FilePath} {l : Label}

/-- What a load makes of a file it makes again of what it made. -/
theorem nextEntry_nextEntry (old : Option Entry) (l : Label) (reading : SignatureReading)
    (parse : Except ManifestProblem DependencyManifest) :
    nextEntry (nextEntry old l reading parse) l reading parse = nextEntry old l reading parse := by
  have kept : ((old.map fun e => { e with owner := l }).map fun e => { e with owner := l }) =
      old.map fun e => { e with owner := l } := by cases old <;> rfl
  have signature : (old.map fun e => { e with owner := l }).map Entry.signature =
      old.map Entry.signature := by cases old <;> rfl
  cases reading with
  | missing => rfl
  | unreadable => exact kept
  | signed s =>
    by_cases current : old.map Entry.signature = some s
    · rw [nextEntry_of_current current, nextEntry_of_current (signature.trans current), kept]
    · rw [nextEntry_of_outdated current]
      cases parse with
      | ok m => exact nextEntry_of_current rfl
      | error e =>
        rw [nextEntry_of_outdated fun h => current (signature.symm.trans h)]
        exact kept

/-! ## Spellings in the snapshot -/

theorem mem_keys_readings (h : q ∈ c.readings.keys) : q ∈ c.owners.keys := by
  obtain ⟨r, hr⟩ := SortedMap.mem_keys_iff.1 h
  have he := SortedMap.entryAt?_of_mem hr
  rw [entryAt?_readings, Option.map_eq_some_iff] at he
  obtain ⟨e, he, heq⟩ := he
  obtain ⟨rfl, -⟩ := Prod.mk.inj heq
  exact List.mem_map_of_mem (SortedMap.entryAt?_eq_some_iff.1 he).1

theorem mem_keys_rollBack {s previous : Snapshot} (h : q ∈ (s.rollBack p previous).keys) :
    q = p ∨ q ∈ s.keys := by
  unfold Snapshot.rollBack at h
  split at h
  · exact SortedMap.mem_keys_insert h
  · exact .inr (SortedMap.mem_keys_of_mem_keys_filter h)

/-- A new snapshot spells every file as the declaration of its owner does. -/
theorem mem_keys_snapshot_of_outcome (h : i.Coherent)
    (ho : (c.report i).outcome = .ok (some j)) (hq : q ∈ j.snapshot.keys) :
    q ∈ c.owners.keys := by
  obtain rfl := (report_of_outcome ho).2
  refine Fold.foldl_inv (fun s : ManifestIndex => ∀ q ∈ s.snapshot.keys, q ∈ c.owners.keys)
    ?_ ?_ q hq
  · intro q hq
    rw [(relabelled_rebase h).snapshot, stripped, snapshot_evictAll] at hq
    exact mem_keys_readings (SortedMap.mem_keys_of_mem_keys_filterMap hq)
  · intro s hs m hm q hq
    unfold ManifestIndex.merge at hq
    split at hq
    · exact hs q hq
    · rcases mem_keys_rollBack hq with rfl | hq
      · exact List.mem_map_of_mem (mem_results_iff.1 hm).2.1
      · exact hs q hq

/-! ## What is left to do -/

/-- Of the files in an index that was just loaded none is gone. -/
theorem removed_of_outcome (h : i.Coherent) (ho : (c.report i).outcome = .ok (some j)) :
    (c.diff j).removed = [] := by
  apply List.eq_nil_iff_forall_not_mem.2
  intro q hq
  obtain ⟨tracked, gone⟩ := SnapshotDiff.exists_mem_removed_iff.1 ⟨q, hq, FilePath.Same.refl q⟩
  rw [SortedMap.contains_eq_isSome, (coherent_of_outcome h ho).get?_snapshot,
    entryAt?_of_outcome h ho] at tracked
  rw [SortedMap.get?, entryAt?_readings] at gone
  cases he : c.owners.entryAt? q with
  | none => simp [he] at tracked
  | some e =>
    have missing : c.reading e.1 = .missing := by simpa [he] using gone
    simp [he, missing, nextEntry] at tracked

/-- All of them are with their owners. -/
theorem moves_of_outcome (h : i.Coherent) (ho : (c.report i).outcome = .ok (some j)) :
    j.moves c.owners = [] := by
  apply List.eq_nil_iff_forall_not_mem.2
  rintro ⟨q, l⟩ hq
  obtain ⟨hq, old, hold, moved⟩ := mem_moves_iff.1 hq
  have owned := (Prod.mk.inj (Prod.mk.inj (held_of_outcome h ho hq)).2).1
  rw [hold] at owned
  obtain ⟨entry, hentry, howner⟩ := Option.map_eq_some_iff.1 owned.symm
  exact moved (howner.symm.trans (nextEntry_eq_some hentry).1)

theorem relabel_eq_self {owners : SortedMap FilePath Label} (h : i.moves owners = []) :
    i.relabel owners = i := by
  rw [relabel, h]
  rfl

theorem rebase_of_outcome (h : i.Coherent) (ho : (c.report i).outcome = .ok (some j)) :
    j.rebase (c.diff j) c.owners = { j with snapshot := (c.diff j).snapshot } := by
  have unmoved : ({ j with snapshot := (c.diff j).snapshot } : ManifestIndex).moves c.owners = [] :=
    show j.moves c.owners = [] from moves_of_outcome h ho
  rw [rebase, removed_of_outcome h ho]
  exact relabel_eq_self unmoved

theorem parse_congr (files : (c.report j).files = (c.report i).files) (q : FilePath) :
    c.parse j q = c.parse i q := by
  rw [LoadCall.parse, LoadCall.parse, files]

/-- A file that still counts as changed failed to parse, and fails again. -/
theorem parse_of_changed (h : i.Coherent) (ho : (c.report i).outcome = .ok (some j))
    (files : (c.report j).files = (c.report i).files) (hq : q ∈ (c.diff j).changed) :
    ∃ e, c.parse j q = .error e := by
  obtain ⟨l, hl, s, signed, outdated⟩ := mem_changed_iff.1 hq
  have held := (Prod.mk.inj (held_of_outcome h ho hl)).1
  rw [parse_congr files]
  cases parsed : c.parse i q with
  | error e => exact ⟨e, rfl⟩
  | ok m =>
    refine absurd ?_ outdated
    rw [held, signed, parsed]
    by_cases current : (i.entryAt? q).map (·.signature) = some s
    · rw [nextEntry_of_current current, ← current]
      cases i.entryAt? q <;> rfl
    · rw [nextEntry_of_outdated current]
      rfl

theorem entryAt?_reload (h : i.Coherent) (ho : (c.report i).outcome = .ok (some j))
    (again : (c.report j).outcome = .ok (some k)) (files : (c.report j).files = (c.report i).files)
    (p : FilePath) : k.entryAt? p = j.entryAt? p := by
  have first := entryAt?_of_outcome h ho
  rw [entryAt?_of_outcome (coherent_of_outcome h ho) again, first p]
  cases he : c.owners.entryAt? p with
  | none => rfl
  | some e =>
    obtain ⟨hm, -⟩ := SortedMap.entryAt?_eq_some_iff.1 he
    have same : c.parse j e.1 = c.parse i e.1 := parse_congr files e.1
    rw [Option.bind_some, Option.bind_some, first e.1, SortedMap.entryAt?_of_mem hm,
      Option.bind_some, same]
    exact nextEntry_nextEntry _ _ _ _

/-- Merging files that all failed touches the snapshot alone. -/
theorem foldl_merge_of_failed (previous : Snapshot) {results : List Parsed}
    (failed : ∀ m ∈ results, ∃ e, m.result = .error e) (i : ManifestIndex) :
    (results.foldl (merge previous) i).owners = i.owners ∧
      (results.foldl (merge previous) i).dependencies = i.dependencies := by
  refine Fold.foldl_inv (fun s : ManifestIndex =>
    s.owners = i.owners ∧ s.dependencies = i.dependencies) ⟨rfl, rfl⟩ fun s hs m hm => ?_
  obtain ⟨e, he⟩ := failed m hm
  unfold ManifestIndex.merge
  rw [he]
  exact hs

/-- A load of the same files changes nothing in the index that the load before it left. -/
theorem reload_eq (h : i.Coherent) (ho : (c.report i).outcome = .ok (some j))
    (again : (c.report j).outcome = .ok (some k))
    (files : (c.report j).files = (c.report i).files) : k = j := by
  have hj := coherent_of_outcome h ho
  have hk := coherent_of_outcome hj again
  have failed : ∀ m ∈ c.results j, ∃ e, m.result = .error e := by
    intro m hm
    obtain ⟨changed, -, result⟩ := mem_results_iff.1 hm
    rw [result]
    exact parse_of_changed h ho files changed
  have merged := (report_of_outcome again).2
  rw [rebase_of_outcome h ho] at merged
  obtain ⟨owners, dependencies⟩ := foldl_merge_of_failed j.snapshot failed
    { j with snapshot := (c.diff j).snapshot }
  rw [← merged] at owners dependencies
  have snapshot : k.snapshot = j.snapshot := by
    refine SortedMap.eq_of_get?_eq_of_keys c.owners
      (fun q hq => mem_keys_snapshot_of_outcome hj again hq)
      (fun q hq => mem_keys_snapshot_of_outcome h ho hq) fun p => ?_
    rw [hk.get?_snapshot, hj.get?_snapshot, entryAt?_reload h ho again files]
  cases k
  cases j
  simp_all

/-- The same where one of the loads loses its files and the index before it stays in force. -/
theorem reload_or_eq {previous index again : Option ManifestIndex}
    (h : (previous.getD .empty).Coherent)
    (first : (c.report (previous.getD .empty)).outcome = .ok index)
    (second : (c.report ((index.or previous).getD .empty)).outcome = .ok again)
    (files : (c.report ((index.or previous).getD .empty)).files =
      (c.report (previous.getD .empty)).files) :
    again.or (index.or previous) = index.or previous := by
  cases index with
  | none =>
    rw [Option.none_or] at second ⊢
    obtain rfl := Except.ok.inj (second.symm.trans first)
    exact Option.none_or
  | some j =>
    cases again with
    | none => exact Option.none_or
    | some k => exact congrArg some (reload_eq h first second files)

end WorkspaceSync.LoadCall
