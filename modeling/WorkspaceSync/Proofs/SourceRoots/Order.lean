import WorkspaceSync.Proofs.SourceRoots.Flags

/-!
# The order of files

Roots depend on the order of files in one respect only. Proposals that agree may come in any order,
and so may files that count for a root. But a loose file's directory becomes a root only where it
comes before the directories of loose files above it, and no root that was opened so is merged away.
So two orders of the same files give the same roots if and only if they open the same directories.
-/

namespace WorkspaceSync

open SourceRoots

variable {files files' : List SourceFile} {d k : WorkspacePath}

/-- No two files propose different prefixes for one directory. -/
def SourceFile.Agree (files : List SourceFile) : Prop :=
  ∀ f ∈ files, ∀ g ∈ files, ∀ k x y,
    f.proposal? = some (k, x) → g.proposal? = some (k, y) → x = y

theorem SourceFile.Agree.perm (agree : Agree files) (perm : files.Perm files') : Agree files' := by
  intro f mem g mem'
  exact agree f (perm.mem_iff.2 mem) g (perm.mem_iff.2 mem')

namespace SourceRoots

variable {roots roots' : SourceRoots} {x : String}

/-! ## What decides about roots -/

theorem eq_of_layout (same : layout roots = layout roots')
    (flags : ∀ k, OnlyTests roots k ↔ OnlyTests roots' k) : roots = roots' := by
  apply SortedMap.eq_of_get?_eq
  intro k
  have prefixes : (roots.get? k).map (·.packagePrefix) = (roots'.get? k).map (·.packagePrefix) := by
    rw [← get?_layout, ← get?_layout, same]
  have flags := flags k
  unfold OnlyTests at flags
  cases found : roots.get? k with
  | none =>
    rw [found, Option.map_none] at prefixes
    exact (Option.map_eq_none_iff.1 prefixes.symm).symm
  | some r =>
    cases found' : roots'.get? k with
    | none => simp [found, found'] at prefixes
    | some r' =>
      simp only [found, found', Option.some.injEq, forall_eq', Option.map_some] at flags prefixes
      obtain ⟨p, t⟩ := r
      obtain ⟨p', t'⟩ := r'
      obtain rfl : p = p' := prefixes
      have : t = t' := Bool.eq_iff_iff.2 flags
      rw [this]

theorem mem_entries_proposed_iff (agree : SourceFile.Agree files) :
    (k, x) ∈ (proposed files).entries ↔ ∃ f ∈ files, f.proposal? = some (k, x) := by
  constructor
  · exact exists_of_mem_proposed
  · rintro ⟨f, mem, proposal⟩
    obtain ⟨y, stands⟩ := SortedMap.mem_keys_iff.1 (mem_keys_proposed.2 ⟨f, mem, x, proposal⟩)
    obtain ⟨g, mem', proposal'⟩ := exists_of_mem_proposed stands
    rwa [agree f mem g mem' k x y proposal proposal']

theorem proposed_perm (perm : files.Perm files') (agree : SourceFile.Agree files) :
    proposed files = proposed files' := by
  apply SortedMap.eq_of_get?_eq
  intro k
  apply Option.ext
  intro x
  rw [← SortedMap.mem_entries_iff, ← SortedMap.mem_entries_iff, mem_entries_proposed_iff agree,
    mem_entries_proposed_iff (agree.perm perm)]
  simp only [perm.mem_iff]

theorem candidates_perm (perm : files.Perm files') (agree : SourceFile.Agree files)
    (opens : ∀ d, Opens files d ↔ Opens files' d) : candidates files = candidates files' := by
  have same : layout (candidates files) = layout (candidates files') := by
    apply SortedMap.eq_of_get?_eq
    intro k
    apply Option.ext
    intro x
    rw [← SortedMap.mem_entries_iff, ← SortedMap.mem_entries_iff,
      (opened_candidates files).mem_entries_iff, (opened_candidates files').mem_entries_iff,
      proposed_perm perm agree]
    exact or_congr_right (and_congr_left' (opens k))
  apply eq_of_layout same
  intro k
  have home (f : SourceFile) : home? files f = home? files' f := by
    rw [home?, home?, funext (innermost?_eq_of_layout same)]
  simp only [onlyTests_candidates, perm.mem_iff, home]

/-! ## Opened directories stay -/

theorem mem_keys_calculate_of_opens (opens : Opens files d) : d ∈ (calculate files).keys := by
  have candidate : (d, "") ∈ (layout (candidates files)).entries :=
    ((opened_candidates files).mem_entries_iff _).2 (.inr ⟨opens, rfl⟩)
  have own : Innermost (layout (candidates files)).entries d (d, "") :=
    ⟨candidate, WorkspacePath.isAncestorOf_refl d, fun _ _ above => above⟩
  obtain ⟨e, inner, implied⟩ := (merges_mergeNested (candidates files)).implies d _ own
  -- A root further out would imply a package with a name.
  rw [impliedPackage_self] at implied
  rw [← eq_of_impliedPackage_eq_empty inner.above implied, ← keys_layout]
  exact List.mem_map_of_mem inner.mem

theorem opens_of_calculate_eq (perm : files.Perm files') (agree : SourceFile.Agree files)
    (same : calculate files = calculate files') (opens : Opens files d) : Opens files' d := by
  have root := mem_keys_calculate_of_opens opens
  rw [same] at root
  rcases mem_keys_candidates_iff.1 (mem_keys_candidates_of_calculate root) with proposal | opens'
  · rw [← proposed_perm perm agree] at proposal
    exact absurd (WorkspacePath.isAncestorOf_refl d) (opens.1 d proposal)
  · exact opens'

/-- Of the directories of loose files, none is above another one that may be opened. -/
def LooseApart (files : List SourceFile) : Prop :=
  ∀ d ∈ looseDirectories files, ∀ d' ∈ looseDirectories files,
    Uncovered files d' → d.isAncestorOf d' = true → d = d'

theorem opens_iff_of_looseApart (apart : LooseApart files) :
    Opens files d ↔ Uncovered files d ∧ d ∈ looseDirectories files := by
  refine and_congr_right fun uncovered => ?_
  constructor
  · exact List.mem_of_find?_eq_some
  · intro mem
    cases first : (looseDirectories files).find? (·.isAncestorOf d) with
    | none =>
      exact absurd (WorkspacePath.isAncestorOf_refl d) (List.find?_eq_none.1 first d mem)
    | some d' =>
      have above : d'.isAncestorOf d = true := by simpa using List.find?_some first
      rw [apart d' (List.mem_of_find?_eq_some first) d mem uncovered above]

/-- Two orders of files that agree about prefixes give the same roots if and only if they open the
same directories. So they do where loose files keep their order, or where their directories lie
apart. -/
theorem calculate_perm_iff (perm : files.Perm files') (agree : SourceFile.Agree files) :
    (calculate files = calculate files' ↔ ∀ d, Opens files d ↔ Opens files' d) ∧
    (looseDirectories files = looseDirectories files' → calculate files = calculate files') ∧
    (LooseApart files → calculate files = calculate files') := by
  have iff : calculate files = calculate files' ↔ ∀ d, Opens files d ↔ Opens files' d := by
    constructor
    · intro same d
      exact ⟨opens_of_calculate_eq perm agree same,
        opens_of_calculate_eq perm.symm (agree.perm perm) same.symm⟩
    · intro opens
      exact congrArg mergeNested (candidates_perm perm agree opens)
  have uncovered (d : WorkspacePath) : Uncovered files d ↔ Uncovered files' d := by
    rw [Uncovered, Uncovered, proposed_perm perm agree]
  have loose : ∀ d, d ∈ looseDirectories files ↔ d ∈ looseDirectories files' :=
    fun d => (perm.filterMap _).mem_iff
  refine ⟨iff, ?_, ?_⟩
  · intro kept
    apply iff.2
    intro d
    rw [Opens, Opens, kept, uncovered]
  · intro apart
    have apart' : LooseApart files' := by
      intro d mem d' mem' open'
      exact apart d ((loose d).2 mem) d' ((loose d').2 mem') ((uncovered d').2 open')
    apply iff.2
    intro d
    rw [opens_iff_of_looseApart apart, opens_iff_of_looseApart apart', uncovered, loose]

theorem calculate_swap_main : calculate [sisterFile, mainFile] = calculate [mainFile, sisterFile] := by
  have agree : SourceFile.Agree [sisterFile, mainFile] := by
    have proposals : ∀ f ∈ [sisterFile, mainFile],
        f.proposal? = some (⟨["java"], by decide⟩, "") := by
      decide +kernel
    intro f mem g mem' k x y proposal proposal'
    rw [proposals f mem, Option.some.injEq, Prod.mk.injEq] at proposal
    rw [proposals g mem', Option.some.injEq, Prod.mk.injEq] at proposal'
    exact proposal.2.symm.trans proposal'.2
  exact (calculate_perm_iff (List.Perm.swap mainFile sisterFile []) agree).2.1 rfl

/-- A file of an unknown package. -/
def looseFile : SourceFile where
  path := ⟨["java", "com", "Loose.java"], by decide⟩
  package := none
  isTest := false

/-- Another one in a directory below that of `looseFile`. -/
def lowerLooseFile : SourceFile where
  path := ⟨["java", "com", "app", "Lower.java"], by decide⟩
  package := none
  isTest := false

/-- The lower directory is opened only where its file comes first. -/
theorem calculate_swap_loose : ¬ ∀ files files' : List SourceFile, files.Perm files' →
    SourceFile.Agree files → calculate files = calculate files' := by
  intro unordered
  have agree : SourceFile.Agree [lowerLooseFile, looseFile] := by
    have nothing : ∀ f ∈ [lowerLooseFile, looseFile], f.proposal? = none := by decide
    intro f mem g mem' k x y proposal
    rw [nothing f mem] at proposal
    cases proposal
  have same := unordered _ _ (List.Perm.swap looseFile lowerLooseFile []) agree
  revert same
  decide +kernel

end SourceRoots

end WorkspaceSync
