import WorkspaceSync.Proofs.ManifestIndex.Outcomes

/-!
# The order in which manifests are merged

Manifests are parsed in parallel, and what they parse to may be merged in any order. Once files that
are gone are evicted and the others are with their present owners, no two manifests of a load share
a file or a target, so each merge has an effect on its own file alone. `outcome_in_any_order` says
that every order gives the same index, down to the spellings of its paths.
-/

namespace WorkspaceSync

theorem Snapshot.entryAt?_rollBack (s previous : Snapshot) (file p : FilePath) :
    (s.rollBack file previous).entryAt? p =
      if file.Same p then
        (previous.get? file).map fun old => (((s.entryAt? file).map (·.1)).getD file, old)
      else s.entryAt? p := by
  unfold rollBack
  split
  · rename_i old stored
    rw [stored]
    exact s.entryAt?_insert file p old
  · rename_i stored
    rw [stored, s.entryAt?_erase]
    by_cases here : file.Same p
    · exact (if_pos here.symm).trans (if_pos here).symm
    · exact (if_neg fun same => here (FilePath.Same.symm same)).trans (if_neg here).symm

namespace ManifestIndex

variable {i j : ManifestIndex} {p : FilePath}

/-- What an index has of a file, with the spellings under which it is kept. -/
def spelledAt (i : ManifestIndex) (p : FilePath) :
    Option (FilePath × FileSignature) × Option (FilePath × Label) × Option (List String) :=
  (i.snapshot.entryAt? p, i.owners.entryAt? p, i.list? p)

/-- Linked indexes that have the same of every file are one index, since every list is the list of
a file. -/
theorem Linked.eq_of_spelledAt_eq (hi : i.Linked) (hj : j.Linked)
    (same : ∀ p, i.spelledAt p = j.spelledAt p) : i = j := by
  have snapshot : i.snapshot = j.snapshot :=
    SortedMap.eq_of_entryAt?_eq fun p => (Prod.mk.inj (same p)).1
  have owners : i.owners = j.owners :=
    SortedMap.eq_of_entryAt?_eq fun p => (Prod.mk.inj (Prod.mk.inj (same p)).2).1
  have dependencies : i.dependencies = j.dependencies := by
    apply SortedMap.eq_of_get?_eq
    intro l
    by_cases owned : ∃ p, i.owners.get? p = some l
    · obtain ⟨p, ho⟩ := owned
      have list := (Prod.mk.inj (Prod.mk.inj (same p)).2).2
      rwa [list?_of_owner ho, list?_of_owner (owners ▸ ho)] at list
    · have unlisted := (hi.labels l).not.2 owned
      have unlisted' := (hj.labels l).not.2 (owners ▸ owned)
      rw [Option.not_isSome_iff_eq_none] at unlisted unlisted'
      rw [unlisted, unlisted']
  cases i
  cases j
  simp_all

end ManifestIndex

namespace LoadCall

open ManifestIndex

variable {c : LoadCall} {i j : ManifestIndex} {p : FilePath} {m : Parsed}

theorem Merging.spelledAt_merge (h : c.Merging i) (hm : (m.file, m.label) ∈ c.owners.entries)
    (previous : Snapshot) (p : FilePath) :
    (ManifestIndex.merge previous i m).spelledAt p =
      if m.file.Same p then
        match m.result with
        | .ok d =>
          (i.snapshot.entryAt? p, some (((i.owners.entryAt? p).map (·.1)).getD m.file, m.label),
            some d.paths)
        | .error _ =>
          ((previous.get? m.file).map fun old =>
            (((i.snapshot.entryAt? p).map (·.1)).getD m.file, old), i.owners.entryAt? p, i.list? p)
      else i.spelledAt p := by
  cases hr : m.result with
  | ok d =>
    have merged : ManifestIndex.merge previous i m = i.record m.file m.label d.paths := by
      simp only [ManifestIndex.merge, hr]
    have owner : (i.record m.file m.label d.paths).owners.entryAt? p =
        if m.file.Same p then some (((i.owners.entryAt? m.file).map (·.1)).getD m.file, m.label)
        else i.owners.entryAt? p := i.owners.entryAt?_insert m.file p m.label
    rw [merged, spelledAt, owner, h.toLinked.list?_record (h.free hm)]
    by_cases here : m.file.Same p
    · simp only [if_pos here, i.owners.entryAt?_congr here]
      rfl
    · simp only [if_neg here]
      rfl
  | error e =>
    have merged : ManifestIndex.merge previous i m =
        { i with snapshot := i.snapshot.rollBack m.file previous } := by
      simp only [ManifestIndex.merge, hr]
    rw [merged, spelledAt, Snapshot.entryAt?_rollBack]
    by_cases here : m.file.Same p
    · simp only [if_pos here, i.snapshot.entryAt?_congr here]
      rfl
    · simp only [if_neg here]
      rfl

/-- What a merge makes of its file depends on nothing else in the index. -/
theorem Merging.spelledAt_merge_congr (hi : c.Merging i) (hj : c.Merging j)
    (hm : (m.file, m.label) ∈ c.owners.entries) (previous : Snapshot)
    (same : i.spelledAt p = j.spelledAt p) :
    (ManifestIndex.merge previous i m).spelledAt p =
      (ManifestIndex.merge previous j m).spelledAt p := by
  obtain ⟨snapshot, rest⟩ := Prod.mk.inj same
  obtain ⟨owner, list⟩ := Prod.mk.inj rest
  rw [hi.spelledAt_merge hm, hj.spelledAt_merge hm, same, snapshot, owner, list]

theorem local_merge_spelledAt (c : LoadCall) (i : ManifestIndex) :
    Fold.Local (ManifestIndex.merge i.snapshot) c.Merging spelledAt (fun m p => m.file.Same p)
      (c.results i) where
  keeps _ hs _ hm := hs.merge (mem_results_iff.1 hm).2.1 _
  frame s hs m hm p hp := by rw [hs.spelledAt_merge (mem_results_iff.1 hm).2.1, if_neg hp]

/-- The index that a load gets to if what it parsed is merged in the given order. -/
def mergedIn (c : LoadCall) (i : ManifestIndex) (order : List Parsed) : ManifestIndex :=
  order.foldl (ManifestIndex.merge i.snapshot) (i.rebase (c.diff i) c.owners)

theorem mergedIn_perm (h : i.Coherent) {order : List Parsed} (permuted : order.Perm (c.results i)) :
    c.mergedIn i order = c.mergedIn i (c.results i) := by
  have start := c.merging_rebase h
  have merges := c.local_merge_spelledAt i
  have linked : ∀ results : List Parsed, results.Perm (c.results i) →
      (c.mergedIn i results).Linked := fun results order =>
    (Fold.foldl_inv c.Merging start (merges.perm order).keeps).toLinked
  apply (linked order permuted).eq_of_spelledAt_eq (linked _ (.refl _))
  intro p
  refine merges.foldl_perm start permuted ?_ ?_
  · apply (c.results_pairwise i).imp
    intro m n apart both
    exact apart (both.1.trans both.2.symm)
  · intro s t hs ht m hm _ same
    exact hs.spelledAt_merge_congr ht (mem_results_iff.1 hm).2.1 _ same

/-- The manifests that a load which returns an index has parsed are all that changed. -/
theorem parseAll_of_outcome (returned : (c.report i).outcome = .ok (some j)) :
    parseAll (c.report i).files c.cancelled c.owners (c.diff i).changed = c.results i := by
  cases c.report_ends i with
  | unsigned _ _ ho => exact nomatch returned.symm.trans ho
  | unfetched _ _ ho => exact nomatch returned.symm.trans ho
  | lost _ _ _ ho => exact nomatch returned.symm.trans ho
  | unmerged _ _ _ ho => exact nomatch returned.symm.trans ho
  | merged _ _ hc _ => exact (results_eq_parseAll hc).symm

/-- In whatever order the manifests that a load parsed are merged, those that failed among the
others, the index is the one that the load returns. -/
theorem outcome_in_any_order (earlier : List LoadCall) (c : LoadCall) {j : ManifestIndex}
    (returned : (c.report (indexAfter earlier)).outcome = .ok (some j)) {order : List Parsed}
    (permuted : order.Perm (parseAll (c.report (indexAfter earlier)).files c.cancelled c.owners
      (c.diff (indexAfter earlier)).changed)) :
    c.mergedIn (indexAfter earlier) order = j := by
  rw [parseAll_of_outcome returned] at permuted
  rw [mergedIn_perm (coherent_indexAfter earlier) permuted]
  exact (report_of_outcome returned).2.symm

/-- What the second load parsed: a manifest that is cut off and one that is not. -/
def secondParsed : List Parsed :=
  parseAll (secondLoad.report (indexAfter [firstLoad])).files secondLoad.cancelled
    secondLoad.owners (secondLoad.diff (indexAfter [firstLoad])).changed

theorem second_load_backwards :
    secondParsed.map (fun m => (m.file, m.result.isOk)) = [(⟨"/w/a"⟩, false), (⟨"/w/b"⟩, true)] ∧
      secondLoad.mergedIn (indexAfter [firstLoad]) secondParsed.reverse =
        indexAfter [secondLoad, firstLoad] := by
  have returned : (secondLoad.report (indexAfter [firstLoad])).outcome =
      .ok (some (indexAfter [secondLoad, firstLoad])) := rfl
  refine ⟨by decide +kernel, ?_⟩
  exact outcome_in_any_order [firstLoad] secondLoad returned (List.reverse_perm _)

end LoadCall

end WorkspaceSync
