import Mathlib.Data.List.Induction
import WorkspaceSync.Import.ContentEntries
import WorkspaceSync.Proofs.SortedMap
import WorkspaceSync.Proofs.WorkspacePath

/-!
# Import directories of files

Of the import directories around a file the shortest one is the outermost, so import directories
that are outermost around some files lie apart. Each has the files for which it is the outermost.
-/

namespace WorkspaceSync.ContentEntry

variable {directories : List WorkspacePath} {files : List SourceFile} {f : SourceFile}
  {d d' p p' : WorkspacePath}

/-! ## The outermost directory -/

theorem shortest?_spec (paths : List WorkspacePath) :
    match shortest? paths with
    | none => paths = []
    | some b => b ∈ paths ∧ ∀ p ∈ paths, b.text.utf8ByteSize ≤ p.text.utf8ByteSize := by
  induction paths using List.reverseRecOn with
  | nil => rfl
  | append_singleton l p ih =>
    have last : shortest? (l ++ [p]) =
        match shortest? l with
        | none => some p
        | some b => if p.text.utf8ByteSize < b.text.utf8ByteSize then some p else some b :=
      List.foldl_concat _ _ _ _
    rw [last]
    cases best : shortest? l with
    | none =>
      rw [best] at ih
      obtain rfl : l = [] := ih
      simp
    | some b =>
      rw [best] at ih
      obtain ⟨mem, least⟩ := ih
      dsimp only
      by_cases shorter : p.text.utf8ByteSize < b.text.utf8ByteSize
      · rw [if_pos shorter]
        refine ⟨List.mem_append_right _ List.mem_cons_self, ?_⟩
        intro q hq
        rcases List.mem_append.1 hq with earlier | same
        · exact shorter.le.trans (least q earlier)
        · rw [List.mem_singleton.1 same]
      · rw [if_neg shorter]
        refine ⟨List.mem_append_left _ mem, ?_⟩
        intro q hq
        rcases List.mem_append.1 hq with earlier | same
        · exact least q earlier
        · rw [List.mem_singleton.1 same]
          exact Nat.not_lt.1 shorter

theorem importDirectory?_eq_none_iff :
    importDirectory? directories p = none ↔ ∀ d ∈ directories, ¬ d.isAncestorOf p = true := by
  have spec := shortest?_spec (directories.filter (·.isAncestorOf p))
  rw [← importDirectory?] at spec
  refine Iff.trans ?_ List.filter_eq_nil_iff
  cases best : importDirectory? directories p with
  | none =>
    rw [best] at spec
    exact iff_of_true rfl spec
  | some b =>
    rw [best] at spec
    exact iff_of_false nofun (List.ne_nil_of_mem spec.1)

theorem importDirectory?_eq_some (h : importDirectory? directories p = some d) :
    (d ∈ directories ∧ d.isAncestorOf p = true) ∧
      ∀ d' ∈ directories, d'.isAncestorOf p = true →
        d.text.utf8ByteSize ≤ d'.text.utf8ByteSize := by
  have spec := shortest?_spec (directories.filter (·.isAncestorOf p))
  rw [← importDirectory?, h] at spec
  refine ⟨List.mem_filter.1 spec.1, ?_⟩
  intro d' mem above
  exact spec.2 d' (List.mem_filter.2 ⟨mem, above⟩)

theorem mem_of_importDirectory? (h : importDirectory? directories p = some d) :
    d ∈ directories :=
  (importDirectory?_eq_some h).1.1

theorem isAncestorOf_of_importDirectory? (h : importDirectory? directories p = some d) :
    d.isAncestorOf p = true :=
  (importDirectory?_eq_some h).1.2

/-- The shortest directory around a file is above all others around it. -/
theorem importDirectory?_isAncestorOf (h : importDirectory? directories p = some d)
    (mem : d' ∈ directories) (above : d'.isAncestorOf p = true) : d.isAncestorOf d' = true := by
  rcases WorkspacePath.isAncestorOf_or (isAncestorOf_of_importDirectory? h) above with up | down
  · exact up
  · by_cases same : d' = d
    · rw [same]
      exact WorkspacePath.isAncestorOf_refl d
    · have shorter := WorkspacePath.utf8ByteSize_lt_of_isAncestorOf down same
      exact absurd ((importDirectory?_eq_some h).2 d' mem above) (Nat.not_le.2 shorter)

/-- Outermost directories of files do not lie in one another. -/
theorem importDirectory?_eq_of_isAncestorOf (h : importDirectory? directories p = some d)
    (h' : importDirectory? directories p' = some d') (above : d.isAncestorOf d' = true) :
    d = d' := by
  apply WorkspacePath.isAncestorOf_antisymm above
  apply importDirectory?_isAncestorOf h' (mem_of_importDirectory? h)
  exact WorkspacePath.isAncestorOf_trans above (isAncestorOf_of_importDirectory? h')

/-! ## The files of a directory -/

/-- The files that have a directory as their import directory. -/
def filesBelow (directories : List WorkspacePath) (files : List SourceFile) (d : WorkspacePath) :
    List SourceFile :=
  files.filter fun f => importDirectory? directories f.path = some d

theorem mem_filesBelow : f ∈ filesBelow directories files d ↔
    f ∈ files ∧ importDirectory? directories f.path = some d := by
  rw [filesBelow, List.mem_filter, decide_eq_true_iff]

theorem get?_byDirectory (directories : List WorkspacePath) (files : List SourceFile)
    (d : WorkspacePath) :
    (byDirectory directories files).get? d =
      if filesBelow directories files d = [] then none
      else some (filesBelow directories files d) := by
  induction files using List.reverseRecOn with
  | nil => rfl
  | append_singleton l f ih =>
    have group : filesBelow directories (l ++ [f]) d = filesBelow directories l d ++
        if importDirectory? directories f.path = some d then [f] else [] := by
      rw [filesBelow, List.filter_append, List.filter_singleton, Bool.cond_decide]
      rfl
    rw [byDirectory, List.foldl_concat, ← byDirectory, group]
    cases importDirectory? directories f.path with
    | none => simpa using ih
    | some d' =>
      dsimp only
      rw [SortedMap.get?_alter_eq]
      by_cases same : d' = d
      · subst same
        rw [ih]
        split_ifs with empty <;> simp_all
      · simpa [same] using ih

end WorkspaceSync.ContentEntry
