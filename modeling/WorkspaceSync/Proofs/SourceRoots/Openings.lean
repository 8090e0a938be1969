import WorkspaceSync.Proofs.SourceRoots.Calculate

/-!
# Directories that files of unknown packages open

A file of an unknown package is loose: it proposes nothing, and its directory becomes a root only if
no root is at or above it at that moment. So a loose file's directory becomes a root if and only if
no proposal is at or above it and, of the directories of loose files at or above it, it comes first.
Together with the proposals these are all roots before merging.
-/

namespace WorkspaceSync

open SourceRoots

variable {files : List SourceFile} {f g : SourceFile} {d k : WorkspacePath}

namespace SourceFile

def proposedRoot? (f : SourceFile) : Option WorkspacePath := f.proposal?.map (·.1)

/-- The directory of a file whose package is unknown. -/
def looseDirectory? (f : SourceFile) : Option WorkspacePath :=
  if f.package = none then f.path.parent? else none

theorem looseDirectory?_eq_some_iff :
    f.looseDirectory? = some d ↔ f.package = none ∧ f.path.parent? = some d := by
  rw [looseDirectory?, Option.ite_none_right_eq_some]

theorem proposedRoot?_of_loose (loose : f.looseDirectory? = some d) : f.proposedRoot? = none := by
  obtain ⟨unknown, -⟩ := looseDirectory?_eq_some_iff.1 loose
  simp [proposedRoot?, proposal?, unknown]

theorem exists_of_proposedRoot? (h : f.proposedRoot? = some k) :
    ∃ x, f.proposal? = some (k, x) := by
  obtain ⟨e, proposal, rfl⟩ := Option.map_eq_some_iff.1 h
  exact ⟨e.2, proposal⟩

end SourceFile

namespace SourceRoots

variable {roots roots' : SourceRoots} {e : WorkspacePath × String}

/-! ## The innermost root -/

def innermost? (roots : SourceRoots) (d : WorkspacePath) : Option WorkspacePath :=
  (covering? roots d).map (·.1)

theorem innermost?_eq_some_iff :
    innermost? roots d = some k ↔ ∃ r, Innermost roots.entries d (k, r) := by
  rw [innermost?, Option.map_eq_some_iff]
  simp only [covering?_eq_some_iff]
  constructor
  · rintro ⟨e, inner, rfl⟩
    exact ⟨e.2, inner⟩
  · rintro ⟨r, inner⟩
    exact ⟨_, inner, rfl⟩

theorem innermost?_eq_some_iff_layout :
    innermost? roots d = some k ↔ ∃ x, Innermost (layout roots).entries d (k, x) := by
  rw [innermost?_eq_some_iff]
  constructor
  · rintro ⟨r, inner⟩
    exact ⟨_, inner.map SourceRoot.packagePrefix⟩
  · rintro ⟨x, inner⟩
    obtain ⟨e, inner, same⟩ := inner.of_map
    exact ⟨e.2, (Prod.mk.inj same).1 ▸ inner⟩

theorem innermost?_eq_of_layout (same : layout roots = layout roots') (d : WorkspacePath) :
    innermost? roots d = innermost? roots' d := by
  apply Option.ext
  intro k
  rw [innermost?_eq_some_iff_layout, innermost?_eq_some_iff_layout, same]

theorem mem_keys_of_innermost? (h : innermost? roots d = some k) : k ∈ roots.keys := by
  obtain ⟨r, inner⟩ := innermost?_eq_some_iff.1 h
  exact List.mem_map_of_mem inner.mem

theorem isAncestorOf_of_innermost? (h : innermost? roots d = some k) :
    k.isAncestorOf d = true := by
  obtain ⟨r, inner⟩ := innermost?_eq_some_iff.1 h
  exact inner.above

theorem isAncestorOf_innermost? {c : WorkspacePath} (h : innermost? roots d = some k)
    (mem : c ∈ roots.keys) (above : c.isAncestorOf d = true) : c.isAncestorOf k = true := by
  obtain ⟨r, inner⟩ := innermost?_eq_some_iff.1 h
  obtain ⟨s, mem⟩ := SortedMap.mem_keys_iff.1 mem
  exact inner.below _ mem above

theorem innermost?_eq_some (mem : k ∈ roots.keys) (above : k.isAncestorOf d = true)
    (below : ∀ c ∈ roots.keys, c.isAncestorOf d = true → c.isAncestorOf k = true) :
    innermost? roots d = some k := by
  obtain ⟨r, mem⟩ := SortedMap.mem_keys_iff.1 mem
  apply innermost?_eq_some_iff.2
  refine ⟨r, mem, above, ?_⟩
  intro e mem above
  exact below e.1 (List.mem_map_of_mem mem) above

theorem innermost?_self (mem : k ∈ roots.keys) : innermost? roots k = some k :=
  innermost?_eq_some mem (WorkspacePath.isAncestorOf_refl k) fun _ _ above => above

theorem innermost?_addUnknown (h : innermost? roots d = some k) :
    innermost? (addUnknown roots f) d = some k := by
  obtain ⟨x, inner⟩ := innermost?_eq_some_iff_layout.1 h
  exact innermost?_eq_some_iff_layout.2 ⟨x, innermost_addUnknown inner⟩

theorem covers_iff_innermost? : Covers roots d ↔ ∃ k, innermost? roots d = some k := by
  rw [covers_iff]
  constructor
  · rintro ⟨e, inner⟩
    exact ⟨e.1, innermost?_eq_some_iff_layout.2 ⟨e.2, inner⟩⟩
  · rintro ⟨k, found⟩
    obtain ⟨x, inner⟩ := innermost?_eq_some_iff_layout.1 found
    exact ⟨(k, x), inner⟩

/-! ## Loose files -/

theorem addUnknown_of_not_loose (h : f.looseDirectory? = none) (roots : SourceRoots) :
    addUnknown roots f = roots := by
  unfold addUnknown
  split
  · rename_i d directory unknown
    rw [SourceFile.looseDirectory?_eq_some_iff.2 ⟨unknown, directory⟩] at h
    cases h
  · rfl

theorem covers_foldl_addUnknown (mem : f ∈ files) (loose : f.looseDirectory? = some d)
    (roots : SourceRoots) : Covers (files.foldl addUnknown roots) d := by
  obtain ⟨unknown, directory⟩ := SourceFile.looseDirectory?_eq_some_iff.1 loose
  apply Fold.foldl_reach (Covers · d) mem
  · intro roots
    exact covers_addUnknown roots directory unknown
  · intro roots covered g _
    exact covered.addUnknown g

/-- The directories of loose files, in the order of the files. -/
def looseDirectories (files : List SourceFile) : List WorkspacePath :=
  files.filterMap SourceFile.looseDirectory?

/-- No file of a known package proposes a root at or above a directory. -/
def Uncovered (files : List SourceFile) (d : WorkspacePath) : Prop :=
  ∀ k ∈ (proposed files).keys, ¬ k.isAncestorOf d = true

/-- A loose file's directory becomes a root: nothing that is proposed is at or above it, and of the
directories of loose files at or above it, it comes first. -/
def Opens (files : List SourceFile) (d : WorkspacePath) : Prop :=
  Uncovered files d ∧ (looseDirectories files).find? (·.isAncestorOf d) = some d

/-- The roots before merging that some of the files have brought in: what all files propose, and
what the loose ones among those files open. -/
structure Opened (files l : List SourceFile) (roots : SourceRoots) : Prop where
  mem_entries_iff : ∀ e, e ∈ (layout roots).entries ↔ e ∈ (proposed files).entries ∨
    (Uncovered files e.1 ∧ (looseDirectories l).find? (·.isAncestorOf e.1) = some e.1) ∧ e.2 = ""
  covers : ∀ d ∈ looseDirectories l, Covers roots d

theorem Opened.covers_iff {l : List SourceFile} (h : Opened files l roots) : Covers roots d ↔
    ¬ Uncovered files d ∨ ∃ d' ∈ looseDirectories l, d'.isAncestorOf d = true := by
  constructor
  · rintro ⟨k, mem, above⟩
    rw [← keys_layout] at mem
    obtain ⟨x, mem⟩ := SortedMap.mem_keys_iff.1 mem
    rcases (h.mem_entries_iff _).1 mem with proposal | ⟨⟨-, first⟩, -⟩
    · left
      intro uncovered
      exact uncovered k (List.mem_map_of_mem proposal) above
    · exact .inr ⟨k, List.mem_of_find?_eq_some first, above⟩
  · rintro (covered | ⟨d', mem, above⟩)
    · simp only [Uncovered, not_forall, not_not] at covered
      obtain ⟨k, mem, above⟩ := covered
      obtain ⟨x, mem⟩ := SortedMap.mem_keys_iff.1 mem
      refine ⟨k, ?_, above⟩
      rw [← keys_layout]
      exact List.mem_map_of_mem ((h.mem_entries_iff (k, x)).2 (.inl mem))
    · obtain ⟨k, mem, above'⟩ := h.covers d' mem
      exact ⟨k, mem, WorkspacePath.isAncestorOf_trans above' above⟩

/-- A new directory comes first where none of the others is at or above it. -/
theorem find?_append_singleton_iff {l : List WorkspacePath} :
    (l ++ [d]).find? (·.isAncestorOf k) = some k ↔
      l.find? (·.isAncestorOf k) = some k ∨ (∀ c ∈ l, ¬ c.isAncestorOf k = true) ∧ d = k := by
  have last : [d].find? (·.isAncestorOf k) = some k ↔ d = k := by
    rw [List.find?_singleton, Option.ite_none_right_eq_some]
    constructor
    · rintro ⟨-, same⟩
      exact Option.some.inj same
    · rintro rfl
      exact ⟨WorkspacePath.isAncestorOf_refl d, rfl⟩
  rw [List.find?_append, Option.or_eq_some_iff, List.find?_eq_none, last]

theorem Opened.mem_entries_addUnknown {l : List SourceFile} (h : Opened files l roots)
    (loose : f.looseDirectory? = some d) : e ∈ (layout (addUnknown roots f)).entries ↔
      e ∈ (proposed files).entries ∨ (Uncovered files e.1 ∧
        (looseDirectories l ++ [d]).find? (·.isAncestorOf e.1) = some e.1) ∧ e.2 = "" := by
  obtain ⟨unknown, directory⟩ := SourceFile.looseDirectory?_eq_some_iff.1 loose
  rw [find?_append_singleton_iff]
  rcases layout_addUnknown roots f with same | ⟨d', directory', uncovered, members⟩
  · -- The directory has a root already, so it does not come first.
    have covered : Covers roots d := by
      have covered := covers_addUnknown roots directory unknown
      rwa [Covers, ← keys_layout, same, keys_layout] at covered
    rw [same, h.mem_entries_iff]
    refine or_congr_right (and_congr_left fun _ => and_congr_right fun unproposed => ?_)
    constructor
    · exact .inl
    · rintro (first | ⟨none_above, rfl⟩)
      · exact first
      · rcases h.covers_iff.1 covered with proposed | ⟨d', mem, above⟩
        · exact absurd unproposed proposed
        · exact absurd above (none_above d' mem)
  · obtain rfl : d = d' := Option.some.inj (directory.symm.trans directory')
    have apart : ¬ Covers roots d := by
      rw [SourceRoots.covers_iff]
      rintro ⟨g, inner⟩
      exact uncovered g inner.mem inner.above
    rw [h.covers_iff, not_or, not_not] at apart
    obtain ⟨unproposed, none_above⟩ := apart
    rw [members, h.mem_entries_iff]
    constructor
    · rintro (rfl | proposal | ⟨⟨unproposed, first⟩, empty⟩)
      · refine .inr ⟨⟨unproposed, .inr ⟨?_, rfl⟩⟩, rfl⟩
        intro c mem above
        exact none_above ⟨c, mem, above⟩
      · exact .inl proposal
      · exact .inr ⟨⟨unproposed, .inl first⟩, empty⟩
    · rintro (proposal | ⟨⟨unproposed, first | ⟨-, own⟩⟩, empty⟩)
      · exact .inr (.inl proposal)
      · exact .inr (.inr ⟨⟨unproposed, first⟩, empty⟩)
      · exact .inl (Prod.ext own.symm empty)

theorem Opened.addUnknown {l : List SourceFile} (h : Opened files l roots) (f : SourceFile) :
    Opened files (l ++ [f]) (addUnknown roots f) := by
  cases loose : f.looseDirectory? with
  | none =>
    have same : looseDirectories (l ++ [f]) = looseDirectories l := by
      simp [looseDirectories, loose]
    rw [addUnknown_of_not_loose loose]
    exact ⟨same ▸ h.mem_entries_iff, same ▸ h.covers⟩
  | some d =>
    have more : looseDirectories (l ++ [f]) = looseDirectories l ++ [d] := by
      simp [looseDirectories, loose]
    constructor
    · intro e
      rw [more]
      exact h.mem_entries_addUnknown loose
    · intro d' mem
      rw [more] at mem
      rcases List.mem_append.1 mem with earlier | own
      · exact (h.covers d' earlier).addUnknown f
      · obtain ⟨unknown, directory⟩ := SourceFile.looseDirectory?_eq_some_iff.1 loose
        exact List.mem_singleton.1 own ▸ covers_addUnknown roots directory unknown

theorem opened_candidates (files : List SourceFile) : Opened files files (candidates files) := by
  suffices ∀ l, Opened files l (l.foldl SourceRoots.addUnknown
      (files.foldl addKnown SortedMap.empty)) from this files
  intro l
  induction l using List.reverseRecOn with
  | nil =>
    constructor
    · intro e
      rw [List.foldl_nil, layout_foldl_addKnown]
      simp [looseDirectories]
    · exact nofun
  | append_singleton l f ih =>
    rw [List.foldl_concat]
    exact ih.addUnknown f

/-- The roots before merging are those that are proposed and those that are opened. -/
theorem mem_keys_candidates_iff :
    k ∈ (candidates files).keys ↔ k ∈ (proposed files).keys ∨ Opens files k := by
  rw [← keys_layout, SortedMap.mem_keys_iff, SortedMap.mem_keys_iff]
  simp only [(opened_candidates files).mem_entries_iff, exists_or, exists_and_left, exists_eq,
    and_true, Opens]

theorem mem_keys_proposed_of (mem : f ∈ files) (proposed : f.proposedRoot? = some k) :
    k ∈ (SourceRoots.proposed files).keys := by
  obtain ⟨x, proposal⟩ := SourceFile.exists_of_proposedRoot? proposed
  exact mem_keys_proposed.2 ⟨f, mem, x, proposal⟩

end SourceRoots

end WorkspaceSync
