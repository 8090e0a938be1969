import WorkspaceSync.Proofs.Fold
import WorkspaceSync.Proofs.SourceRoots.Merge

/-!
# The package that inferred roots give to a file

Files of known packages propose roots, and of proposals for one directory the first one stands.
Files of unknown packages bring in roots only where there is none above them, so the innermost root
of a directory stays the one that was proposed. After merging, a file is thus read in the package
that the innermost proposal at or above its directory implies, which is its own package unless
another file proposes a root further down.
-/

namespace WorkspaceSync

open SourceRoots

variable {files : List SourceFile} {f g : SourceFile} {d k : WorkspacePath} {p : String}

namespace SourceFile

/-- The root that a file of a known package proposes, with its prefix. -/
def proposal? (f : SourceFile) : Option (WorkspacePath × String) :=
  f.path.parent?.bind fun d => f.package.map (rootFor d)

/-- A file proposes a root that would give another package to a directory: between the directory
itself and the root that a file of the package `p` proposes there. -/
def Rivals (g : SourceFile) (d : WorkspacePath) (p : String) : Prop :=
  ∃ e, g.proposal? = some e ∧ (rootFor d p).1.isAncestorOf e.1 = true ∧
    e.1.isAncestorOf d = true ∧ impliedPackage e.1 e.2 d ≠ p

theorem proposal?_eq_some (directory : f.path.parent? = some d) (package : f.package = some p) :
    f.proposal? = some (rootFor d p) := by
  rw [proposal?, directory, package]
  rfl

theorem proposal?_eq_some_iff {e : WorkspacePath × String} : f.proposal? = some e ↔
    ∃ d p, f.path.parent? = some d ∧ f.package = some p ∧ rootFor d p = e := by
  simp only [proposal?, Option.bind_eq_some_iff, Option.map_eq_some_iff]
  constructor
  · rintro ⟨d, directory, p, package, same⟩
    exact ⟨d, p, directory, package, same⟩
  · rintro ⟨d, p, directory, package, same⟩
    exact ⟨d, directory, p, package, same⟩

theorem not_rivals_self (directory : f.path.parent? = some d) (package : f.package = some p)
    (plain : '/' ∉ p.toList) : ¬ f.Rivals d p := by
  rintro ⟨e, proposal, -, -, other⟩
  rw [proposal?_eq_some directory package, Option.some.injEq] at proposal
  apply other
  rw [← proposal]
  exact impliedPackage_rootFor d plain

end SourceFile

namespace SourceRoots

variable {roots : SourceRoots} {e : WorkspacePath × String}

/-! ## Proposed roots -/

/-- The proposals of all files by directory; of two for one directory the first one stands. -/
def proposed (files : List SourceFile) : SortedMap WorkspacePath String :=
  .ofListFirst (files.filterMap SourceFile.proposal?)

theorem mem_keys_proposed :
    k ∈ (proposed files).keys ↔ ∃ f ∈ files, ∃ x, f.proposal? = some (k, x) := by
  rw [proposed, SortedMap.mem_keys_ofListFirst]
  constructor
  · rintro ⟨e, mem, rfl⟩
    obtain ⟨f, mem, proposal⟩ := List.mem_filterMap.1 mem
    exact ⟨f, mem, e.2, proposal⟩
  · rintro ⟨f, mem, x, proposal⟩
    exact ⟨(k, x), List.mem_filterMap.2 ⟨f, mem, proposal⟩, rfl⟩

theorem exists_of_mem_proposed (h : e ∈ (proposed files).entries) :
    ∃ f ∈ files, f.proposal? = some e :=
  List.mem_filterMap.1 (SortedMap.mem_ofListFirst h)

theorem layout_addKnown (roots : SourceRoots) (f : SourceFile) : layout (addKnown roots f) =
    match f.proposal? with
    | some e => (layout roots).insertIfNew e.1 e.2
    | none => layout roots := by
  unfold addKnown SourceFile.proposal?
  cases f.path.parent? with
  | none => rfl
  | some d =>
    cases f.package with
    | none => rfl
    | some p => exact layout_add _ _ _ _

theorem layout_foldl_addKnown (files : List SourceFile) :
    layout (files.foldl addKnown SortedMap.empty) = proposed files := by
  rw [proposed, SortedMap.ofListFirst, List.foldl_filterMap]
  refine (List.foldl_hom layout fun roots f => ?_).symm
  rw [layout_addKnown]
  cases f.proposal? <;> rfl

/-! ## Directories of files of unknown packages -/

theorem get?_of_covering?_eq_none (h : covering? roots d = none) : roots.get? d = none := by
  rw [Option.eq_none_iff_forall_ne_some]
  intro r found
  exact covering?_eq_none_iff.1 h _ (SortedMap.mem_entries_iff.2 found)
    (WorkspacePath.isAncestorOf_refl d)

/-- A file of an unknown package brings in only its own directory, and only where no root is above
that. -/
theorem layout_addUnknown (roots : SourceRoots) (f : SourceFile) :
    layout (addUnknown roots f) = layout roots ∨
      ∃ d, f.path.parent? = some d ∧ (∀ e ∈ (layout roots).entries, ¬ e.1.isAncestorOf d = true) ∧
        ∀ e, e ∈ (layout (addUnknown roots f)).entries ↔
          e = (d, "") ∨ e ∈ (layout roots).entries := by
  unfold addUnknown
  split
  · rename_i d directory _
    cases found : covering? roots d with
    | some e =>
      have inner := covering?_eq_some_iff.1 found
      exact .inl (layout_add_of_some (SortedMap.mem_entries_iff.1 inner.mem))
    | none =>
      refine .inr ⟨d, directory, ?_, ?_⟩
      · intro e mem
        obtain ⟨g, old, rfl⟩ := List.mem_map.1 mem
        exact covering?_eq_none_iff.1 found g old
      · intro e
        have new : (layout roots).get? d = none := by
          rw [get?_layout, get?_of_covering?_eq_none found]
          rfl
        simp only [layout_add, SortedMap.insertIfNew, SortedMap.contains_eq_isSome, new]
        exact SortedMap.mem_entries_insert new
  · exact .inl rfl

theorem innermost_addUnknown (inner : Innermost (layout roots).entries d e) :
    Innermost (layout (addUnknown roots f)).entries d e := by
  rcases layout_addUnknown roots f with same | ⟨new, -, uncovered, members⟩
  · rwa [same]
  · refine ⟨(members e).2 (.inr inner.mem), inner.above, ?_⟩
    intro g mem above
    rcases (members g).1 mem with rfl | old
    · exact (WorkspacePath.isAncestorOf_or above inner.above).resolve_right
        (uncovered e inner.mem)
    · exact inner.below g old above

theorem mem_keys_addUnknown (h : k ∈ (addUnknown roots f).keys) :
    k ∈ roots.keys ∨ f.path.parent? = some k := by
  rw [← keys_layout] at h ⊢
  rcases layout_addUnknown roots f with same | ⟨d, directory, -, members⟩
  · exact .inl (same ▸ h)
  · obtain ⟨x, mem⟩ := SortedMap.mem_keys_iff.1 h
    rcases (members _).1 mem with new | old
    · rw [(Prod.mk.inj new).1]
      exact .inr directory
    · exact .inl (SortedMap.mem_keys_iff.2 ⟨x, old⟩)

/-! ## Covered directories -/

/-- A root is at or above a directory. -/
def Covers (roots : SourceRoots) (d : WorkspacePath) : Prop :=
  ∃ k ∈ roots.keys, k.isAncestorOf d = true

theorem covers_iff : Covers roots d ↔ ∃ e, Innermost (layout roots).entries d e := by
  constructor
  · rintro ⟨k, mem, above⟩
    obtain ⟨r, mem⟩ := SortedMap.mem_keys_iff.1 mem
    cases found : covering? roots d with
    | none => exact absurd above (covering?_eq_none_iff.1 found _ mem)
    | some e => exact ⟨_, (covering?_eq_some_iff.1 found).map SourceRoot.packagePrefix⟩
  · rintro ⟨e, inner⟩
    refine ⟨e.1, ?_, inner.above⟩
    rw [← keys_layout]
    exact List.mem_map_of_mem inner.mem

theorem Covers.addUnknown (h : Covers roots d) (f : SourceFile) :
    Covers (addUnknown roots f) d := by
  obtain ⟨e, inner⟩ := covers_iff.1 h
  exact covers_iff.2 ⟨e, innermost_addUnknown inner⟩

theorem covers_addUnknown (roots : SourceRoots) (directory : f.path.parent? = some d)
    (package : f.package = none) : Covers (addUnknown roots f) d := by
  cases found : covering? roots d with
  | some e =>
    have inner := covering?_eq_some_iff.1 found
    exact Covers.addUnknown ⟨e.1, List.mem_map_of_mem inner.mem, inner.above⟩ f
  | none =>
    refine ⟨d, ?_, WorkspacePath.isAncestorOf_refl d⟩
    simp only [SourceRoots.addUnknown, directory, package, found, add, SortedMap.alter]
    exact SortedMap.mem_keys_iff_get?.2 ⟨_, SortedMap.get?_insert_self _ _ _⟩

/-! ## The roots of all files -/

/-- The roots before they are merged. -/
def candidates (files : List SourceFile) : SourceRoots :=
  files.foldl addUnknown (files.foldl addKnown SortedMap.empty)

theorem innermost_candidates (inner : Innermost (proposed files).entries d e) :
    Innermost (layout (candidates files)).entries d e := by
  rw [← layout_foldl_addKnown] at inner
  apply Fold.foldl_inv (fun roots => Innermost (layout roots).entries d e) inner
  intro roots inner f _
  exact innermost_addUnknown inner

theorem covers_proposed (mem : f ∈ files) (directory : f.path.parent? = some d)
    (package : f.package = some p) : ∃ e, Innermost (proposed files).entries d e := by
  rw [← layout_foldl_addKnown, ← covers_iff]
  refine ⟨(rootFor d p).1, ?_, rootFor_isAncestorOf d p⟩
  rw [← keys_layout, layout_foldl_addKnown]
  exact mem_keys_proposed.2 ⟨f, mem, _, SourceFile.proposal?_eq_some directory package⟩

theorem covers_candidates (mem : f ∈ files) (directory : f.path.parent? = some d) :
    Covers (candidates files) d := by
  cases package : f.package with
  | some p =>
    obtain ⟨e, inner⟩ := covers_proposed mem directory package
    exact covers_iff.2 ⟨e, innermost_candidates inner⟩
  | none =>
    apply Fold.foldl_reach (Covers · d) mem
    · intro roots
      exact covers_addUnknown roots directory package
    · intro roots covered g _
      exact covered.addUnknown g

/-- Some root is at or above the directory of every file. -/
theorem covers_calculate (mem : f ∈ files) (directory : f.path.parent? = some d) :
    Covers (calculate files) d := by
  obtain ⟨e, inner⟩ := covers_iff.1 (covers_candidates mem directory)
  obtain ⟨e', inner', -⟩ := (merges_mergeNested (candidates files)).implies d e inner
  exact covers_iff.2 ⟨e', inner'⟩

theorem mem_keys_candidates (h : k ∈ (candidates files).keys) :
    ∃ f ∈ files, ∃ d, f.path.parent? = some d ∧ k.isAncestorOf d = true := by
  revert k
  unfold candidates
  apply Fold.foldl_inv fun roots : SourceRoots => ∀ {k}, k ∈ roots.keys →
    ∃ f ∈ files, ∃ d, f.path.parent? = some d ∧ k.isAncestorOf d = true
  · intro k mem
    rw [← keys_layout, layout_foldl_addKnown, mem_keys_proposed] at mem
    obtain ⟨f, mem, x, proposal⟩ := mem
    obtain ⟨d, p, directory, -, root⟩ := SourceFile.proposal?_eq_some_iff.1 proposal
    refine ⟨f, mem, d, directory, ?_⟩
    have above := rootFor_isAncestorOf d p
    rwa [root] at above
  · intro roots origin f mem k key
    rcases mem_keys_addUnknown key with old | own
    · exact origin old
    · exact ⟨f, mem, k, own, WorkspacePath.isAncestorOf_refl k⟩

/-- Every root is at or above the directory of some file. -/
theorem mem_keys_calculate (h : k ∈ (calculate files).keys) :
    ∃ f ∈ files, ∃ d, f.path.parent? = some d ∧ k.isAncestorOf d = true := by
  apply mem_keys_candidates
  rw [← keys_layout] at h ⊢
  obtain ⟨x, mem⟩ := SortedMap.mem_keys_iff.1 h
  exact SortedMap.mem_keys_iff.2 ⟨x, (merges_mergeNested (candidates files)).subset _ mem⟩

/-! ## The package of a file -/

/-- The innermost proposal gives a file its own package, unless another file rivals it. -/
theorem proposed_implies_package (mem : f ∈ files) (directory : f.path.parent? = some d)
    (package : f.package = some p) (plain : '/' ∉ p.toList)
    (inner : Innermost (proposed files).entries d e)
    (unrivalled : ∀ g ∈ files, g ≠ f → ¬ g.Rivals d p) : impliedPackage e.1 e.2 d = p := by
  by_contra other
  obtain ⟨g, mem', proposal⟩ := exists_of_mem_proposed inner.mem
  have own := mem_keys_proposed.2 ⟨f, mem, _, SourceFile.proposal?_eq_some directory package⟩
  obtain ⟨x, own⟩ := SortedMap.mem_keys_iff.1 own
  have between := inner.below _ own (rootFor_isAncestorOf d p)
  have rivals : g.Rivals d p := ⟨e, proposal, between, inner.above, other⟩
  by_cases same : g = f
  · exact SourceFile.not_rivals_self directory package plain (same ▸ rivals)
  · exact unrivalled g mem' same rivals

/-- A file of a known package is read in the package that the innermost proposal implies for its
directory. That is its own package, unless another file rivals it. -/
theorem calculate_implies_package (mem : f ∈ files) (directory : f.path.parent? = some d)
    (package : f.package = some p) (plain : '/' ∉ p.toList) :
    ∃ e g, Innermost (calculate files).entries d e ∧ Innermost (proposed files).entries d g ∧
      impliedPackage e.1 e.2.packagePrefix d = impliedPackage g.1 g.2 d ∧
      ((∀ f' ∈ files, f' ≠ f → ¬ f'.Rivals d p) →
        impliedPackage e.1 e.2.packagePrefix d = p) := by
  obtain ⟨g, inner⟩ := covers_proposed mem directory package
  obtain ⟨e, inner', implied⟩ :=
    (merges_mergeNested (candidates files)).implies d g (innermost_candidates inner)
  obtain ⟨e, innermost, rfl⟩ := inner'.of_map
  refine ⟨e, g, innermost, inner, implied, ?_⟩
  intro unrivalled
  exact implied.trans (proposed_implies_package mem directory package plain inner unrivalled)

/-- A file in the directory that its package names below `java`. -/
def mainFile : SourceFile where
  path := ⟨["java", "com", "app", "Main.java"], by decide⟩
  package := some "com.app"
  isTest := false

/-- Another file with the same root. -/
def sisterFile : SourceFile where
  path := ⟨["java", "com", "Sister.java"], by decide⟩
  package := some "com"
  isTest := true

/-- A file further up with a package that its directory does not end in. -/
def strayFile : SourceFile where
  path := ⟨["java", "com", "Stray.java"], by decide⟩
  package := some "org.other"
  isTest := false

/-- The directory of `mainFile`. -/
def mainDirectory : WorkspacePath := ⟨["java", "com", "app"], by decide⟩

theorem calculate_implies_package_main :
    ∃ e, Innermost (calculate [sisterFile, mainFile]).entries mainDirectory e ∧
      impliedPackage e.1 e.2.packagePrefix mainDirectory = "com.app" := by
  have unrivalled : ∀ f ∈ [sisterFile, mainFile], f ≠ mainFile →
      ¬ f.Rivals mainDirectory "com.app" := by
    rintro f mem other ⟨e, proposal, -, -, implies⟩
    have sister : f = sisterFile := by simpa [other] using mem
    obtain rfl : (⟨["java"], by decide⟩, "") = e := by
      rw [← Option.some.injEq, ← proposal, sister]
      decide +kernel
    exact implies (by decide +kernel)
  obtain ⟨e, -, inner, -, -, own⟩ := calculate_implies_package (f := mainFile)
    (List.mem_cons_of_mem sisterFile List.mem_cons_self) (d := mainDirectory) (by decide)
    (p := "com.app") rfl (by decide)
  exact ⟨e, inner, own unrivalled⟩

/-- The stray file's root lies between the other file and its root. -/
theorem calculate_implies_other_package :
    (∀ f ∈ [mainFile, strayFile], ∀ g ∈ [mainFile, strayFile],
      f.path.parent? = g.path.parent? → f.package = g.package) ∧
    (∀ f ∈ [mainFile, strayFile], ∀ p ∈ f.package, '/' ∉ p.toList) ∧
    mainFile.path.parent? = some mainDirectory ∧ mainFile.package = some "com.app" ∧
    ¬ ∃ e, Innermost (calculate [mainFile, strayFile]).entries mainDirectory e ∧
      impliedPackage e.1 e.2.packagePrefix mainDirectory = "com.app" := by
  refine ⟨by decide, by decide, by decide, rfl, ?_⟩
  rintro ⟨e, inner, implies⟩
  have found : covering? (calculate [mainFile, strayFile]) mainDirectory =
      some (⟨["java", "com"], by decide⟩, ⟨"org.other", false⟩) := by
    decide +kernel
  obtain rfl := Option.some.inj ((covering?_eq_some_iff.2 inner).symm.trans found)
  revert implies
  decide +kernel

end SourceRoots

end WorkspaceSync
