import WorkspaceSync.Proofs.Import.ImportDirectory
import WorkspaceSync.Proofs.SourceRoots.Calculate

/-!
# Where source roots are placed

Every source root is placed in one entry, and lies at or below the content root of that. The roots
of files outside of import directories come in the order of their texts, so one that encloses others
is placed before them, and the content roots that they make lie apart. Import directories with files
lie apart as well, and none is above a file outside; but a root that was inferred outside may be
above an import directory.
-/

namespace WorkspaceSync.ContentEntry

open SourceRoots

variable {t : Table} {e : WorkspacePath × SourceRoot} {c c' d k : WorkspacePath}
  {directories : List WorkspacePath} {files : List SourceFile} {f : SourceFile}
  {l : List WorkspacePath}

/-- A source root is placed in the entry of a content root. -/
def Placed (t : Table) (c k : WorkspacePath) : Prop :=
  ∃ roots, t.get? c = some roots ∧ k ∈ roots.keys

theorem Placed.mem_keys (h : Placed t c k) : c ∈ t.keys := by
  obtain ⟨roots, found, -⟩ := h
  exact SortedMap.mem_keys_iff_get?.2 ⟨roots, found⟩

/-! ## Roots outside of import directories -/

/-- The content root that a source root goes to. -/
def home (t : Table) (k : WorkspacePath) : WorkspacePath :=
  (t.keys.find? (·.isAncestorOf k)).getD k

theorem home_cases (t : Table) (k : WorkspacePath) :
    (home t k ∈ t.keys ∧ (home t k).isAncestorOf k = true) ∨
      home t k = k ∧ ∀ c ∈ t.keys, ¬ c.isAncestorOf k = true := by
  unfold home
  cases found : t.keys.find? (·.isAncestorOf k) with
  | some c => exact .inl ⟨List.mem_of_find?_eq_some found, by simpa using List.find?_some found⟩
  | none => exact .inr ⟨rfl, List.find?_eq_none.1 found⟩

theorem home_isAncestorOf (t : Table) (k : WorkspacePath) : (home t k).isAncestorOf k = true := by
  rcases home_cases t k with ⟨-, above⟩ | ⟨own, -⟩
  · exact above
  · rw [own]
    exact WorkspacePath.isAncestorOf_refl k

theorem mem_keys_addOutside :
    c ∈ (addOutside t e).keys ↔ c = home t e.1 ∨ c ∈ t.keys :=
  SortedMap.mem_keys_insert_iff

theorem get?_addOutside (t : Table) (e : WorkspacePath × SourceRoot) (c : WorkspacePath) :
    (addOutside t e).get? c = if home t e.1 = c then
      some (((t.get? (home t e.1)).getD SortedMap.empty).insert e.1 e.2) else t.get? c :=
  SortedMap.get?_alter_eq _ _ _ _

theorem placed_addOutside :
    Placed (addOutside t e) c k ↔ Placed t c k ∨ c = home t e.1 ∧ k = e.1 := by
  unfold Placed
  rw [get?_addOutside]
  by_cases same : home t e.1 = c
  · subst same
    simp only [if_true, Option.some.injEq, exists_eq_left', SortedMap.mem_keys_insert_iff,
      true_and]
    cases t.get? (home t e.1) with
    | none => simp [SortedMap.keys, SortedMap.empty]
    | some roots => simp [or_comm]
  · simp [same, Ne.symm same]

/-- The table has placed source roots: each below its content root, which is one of them. Content
roots do not lie in one another. -/
structure Houses (l : List WorkspacePath) (t : Table) : Prop where
  below : ∀ {c k}, Placed t c k → c.isAncestorOf k = true ∧ k ∈ l
  placed : ∀ k ∈ l, ∃ c, Placed t c k
  own : ∀ c ∈ t.keys, Placed t c c
  apart : ∀ c ∈ t.keys, ∀ c' ∈ t.keys, c.isAncestorOf c' = true → c = c'

theorem houses_nil : Houses [] SortedMap.empty where
  below := by
    rintro c k ⟨roots, found, -⟩
    cases found
  placed _ mem := nomatch mem
  own _ mem := nomatch mem
  apart _ mem := nomatch mem

theorem Houses.addOutside (h : Houses l t) (last : ∀ k ∈ l, compare k e.1 = .lt) :
    Houses (l ++ [e.1]) (addOutside t e) where
  below := by
    intro c k placed
    rcases placed_addOutside.1 placed with old | ⟨rfl, rfl⟩
    · exact ⟨(h.below old).1, List.mem_append_left _ (h.below old).2⟩
    · exact ⟨home_isAncestorOf t e.1, List.mem_append_right _ List.mem_cons_self⟩
  placed := by
    intro k mem
    rcases List.mem_append.1 mem with earlier | new
    · obtain ⟨c, placed⟩ := h.placed k earlier
      exact ⟨c, placed_addOutside.2 (.inl placed)⟩
    · exact ⟨home t e.1, placed_addOutside.2 (.inr ⟨rfl, List.mem_singleton.1 new⟩)⟩
  own := by
    intro c mem
    rcases mem_keys_addOutside.1 mem with rfl | old
    · rcases home_cases t e.1 with ⟨old, -⟩ | ⟨own, -⟩
      · exact placed_addOutside.2 (.inl (h.own _ old))
      · exact placed_addOutside.2 (.inr ⟨rfl, own⟩)
    · exact placed_addOutside.2 (.inl (h.own c old))
  apart := by
    have notAbove : ∀ c ∈ t.keys, ¬ e.1.isAncestorOf c = true := by
      intro c mem
      exact WorkspacePath.not_isAncestorOf_of_compare (last c (h.below (h.own c mem)).2)
    intro c mem c' mem' above
    -- Either no content root is new, or the new one lies below none, and as the last above none.
    rcases home_cases t e.1 with ⟨found, -⟩ | ⟨own, uncovered⟩
    · have old {c} (mem : c ∈ (ContentEntry.addOutside t e).keys) : c ∈ t.keys := by
        rcases mem_keys_addOutside.1 mem with rfl | old
        · exact found
        · exact old
      exact h.apart c (old mem) c' (old mem') above
    · rw [mem_keys_addOutside, own] at mem mem'
      rcases mem with rfl | old
      · rcases mem' with rfl | old'
        · rfl
        · exact absurd above (notAbove c' old')
      · rcases mem' with rfl | old'
        · exact absurd above (uncovered c old)
        · exact h.apart c old c' old' above

theorem houses_foldl_addOutside (roots : SourceRoots) :
    Houses roots.keys (roots.entries.foldl addOutside SortedMap.empty) := by
  apply SortedMap.foldl_entries_inv (fun l t => Houses (l.map (·.1)) t) roots houses_nil
  intro l t e houses last
  rw [List.map_append]
  apply houses.addOutside
  intro k mem
  obtain ⟨f, earlier, rfl⟩ := List.mem_map.1 mem
  exact last f earlier

/-! ## Files outside of import directories -/

/-- The files that no import directory is around. -/
def outsideFiles (directories : List WorkspacePath) (files : List SourceFile) : List SourceFile :=
  files.filter fun f => (importDirectory? directories f.path).isNone

theorem mem_outsideFiles : f ∈ outsideFiles directories files ↔
    f ∈ files ∧ importDirectory? directories f.path = none := by
  rw [outsideFiles, List.mem_filter, Option.isNone_iff_eq_none]

/-- The roots that are inferred for these files. -/
def outsideRoots (directories : List WorkspacePath) (files : List SourceFile) : SourceRoots :=
  calculate (outsideFiles directories files)

/-- The table before import directories are added. -/
def outsideTable (directories : List WorkspacePath) (files : List SourceFile) : Table :=
  (outsideRoots directories files).entries.foldl addOutside SortedMap.empty

theorem houses_outsideTable (directories : List WorkspacePath) (files : List SourceFile) :
    Houses (outsideRoots directories files).keys (outsideTable directories files) :=
  houses_foldl_addOutside _

theorem exists_file_of_mem_keys {files : List SourceFile} (h : k ∈ (calculate files).keys) :
    ∃ f ∈ files, k.isAncestorOf f.path = true := by
  obtain ⟨f, mem, parent, directory, above⟩ := mem_keys_calculate h
  exact ⟨f, mem,
    WorkspacePath.isAncestorOf_trans above (WorkspacePath.isAncestorOf_of_parent? directory)⟩

theorem exists_file_of_mem_outsideRoots (h : k ∈ (outsideRoots directories files).keys) :
    ∃ f ∈ files, importDirectory? directories f.path = none ∧ k.isAncestorOf f.path = true := by
  obtain ⟨f, mem, above⟩ := exists_file_of_mem_keys h
  obtain ⟨mem, outside⟩ := mem_outsideFiles.1 mem
  exact ⟨f, mem, outside, above⟩

/-! ## Import directories with files -/

/-- An import directory that is the outermost one around some file. -/
def Used (directories : List WorkspacePath) (files : List SourceFile) (d : WorkspacePath) : Prop :=
  ∃ f ∈ files, importDirectory? directories f.path = some d

theorem Used.eq_of_isAncestorOf (h : Used directories files c) (h' : Used directories files c')
    (above : c.isAncestorOf c' = true) : c = c' := by
  obtain ⟨f, -, imported⟩ := h
  obtain ⟨f', -, imported'⟩ := h'
  exact importDirectory?_eq_of_isAncestorOf imported imported' above

/-- No such directory is above a file outside. -/
theorem Used.not_isAncestorOf (h : Used directories files d)
    (outside : importDirectory? directories f.path = none) : ¬ d.isAncestorOf f.path = true := by
  obtain ⟨g, -, imported⟩ := h
  exact importDirectory?_eq_none_iff.1 outside d (mem_of_importDirectory? imported)

theorem Used.not_isAncestorOf_root (h : Used directories files d)
    (root : k ∈ (outsideRoots directories files).keys) : ¬ d.isAncestorOf k = true := by
  obtain ⟨f, -, outside, above⟩ := exists_file_of_mem_outsideRoots root
  intro above'
  exact h.not_isAncestorOf outside (WorkspacePath.isAncestorOf_trans above' above)

theorem Used.notMem_keys_outsideTable (h : Used directories files d) :
    d ∉ (outsideTable directories files).keys := by
  intro mem
  have houses := houses_outsideTable directories files
  exact h.not_isAncestorOf_root (houses.below (houses.own d mem)).2
    (WorkspacePath.isAncestorOf_refl d)

theorem clip_fst (d : WorkspacePath) (e : WorkspacePath × SourceRoot) :
    (clip d e).1 = if e.1.isAncestorOf d then d else e.1 := by
  unfold clip
  by_cases above : e.1.isAncestorOf d
  · by_cases same : e.1 = d
    · simp [same]
    · simp [above, same]
  · simp [above]

theorem get?_addDirectory (t : Table) (d : WorkspacePath) (files : List SourceFile)
    (c : WorkspacePath) :
    (addDirectory t d files).get? c =
      if d = c then some (((calculate files).entries.map (clip d)).foldl
        (fun roots e => roots.insertIfNew e.1 e.2) ((t.get? d).getD SortedMap.empty))
      else t.get? c :=
  SortedMap.get?_alter_eq _ _ _ _

private theorem local_addDirectory (groups : SortedMap WorkspacePath (List SourceFile)) :
    Fold.Local (fun t g => addDirectory t g.1 g.2) (fun _ => True) (fun (t : Table) c => t.get? c)
      (fun g c => g.1 = c) groups.entries where
  keeps _ _ _ _ := trivial
  frame t _ g _ c other := by rw [get?_addDirectory, if_neg other]

theorem get?_table_of_not_used (h : ¬ Used directories files c) :
    (table directories files).get? c = (outsideTable directories files).get? c := by
  apply (local_addDirectory (byDirectory directories files)).foldl_frame trivial
  rintro ⟨d, group⟩ mem rfl
  have found := SortedMap.mem_entries_iff.1 mem
  rw [get?_byDirectory] at found
  split_ifs at found with empty
  obtain ⟨f, mem⟩ := List.exists_mem_of_ne_nil _ empty
  exact h ⟨f, mem_filesBelow.1 mem⟩

/-- The entry of an import directory has the roots of its files, moved down to it. -/
theorem get?_table_of_used (h : Used directories files d) :
    (table directories files).get? d =
      some (.ofListFirst ((calculate (filesBelow directories files d)).entries.map (clip d))) := by
  have isLocal := local_addDirectory (byDirectory directories files)
  have group : (d, filesBelow directories files d) ∈ (byDirectory directories files).entries := by
    obtain ⟨f, mem⟩ := h
    rw [SortedMap.mem_entries_iff, get?_byDirectory, if_neg]
    exact List.ne_nil_of_mem (mem_filesBelow.2 mem)
  have once : (byDirectory directories files).entries.Pairwise
      fun g g' => ¬ (g.1 = d ∧ g'.1 = d) := by
    refine (byDirectory directories files).sorted.imp fun before => ?_
    rintro ⟨rfl, same⟩
    simp [same] at before
  obtain ⟨t, -, start, result⟩ :=
    isLocal.foldl_touch (s := outsideTable directories files) trivial once group rfl
  have new : (outsideTable directories files).get? d = none := by
    rw [Option.eq_none_iff_forall_ne_some]
    intro roots found
    exact h.notMem_keys_outsideTable (SortedMap.mem_keys_iff_get?.2 ⟨roots, found⟩)
  rw [get?_addDirectory, if_pos rfl, start, new] at result
  exact result

theorem placed_table_of_used (h : Used directories files d) : Placed (table directories files) d k ↔
    ∃ r ∈ (calculate (filesBelow directories files d)).keys,
      (if r.isAncestorOf d then d else r) = k := by
  unfold Placed
  rw [get?_table_of_used h]
  simp only [Option.some.injEq, exists_eq_left', SortedMap.mem_keys_ofListFirst]
  simp only [SortedMap.keys, List.mem_map, exists_exists_and_eq_and, clip_fst]

theorem placed_table_of_not_used (h : ¬ Used directories files c) :
    Placed (table directories files) c k ↔ Placed (outsideTable directories files) c k := by
  unfold Placed
  rw [get?_table_of_not_used h]

/-! ## The whole table -/

theorem exists_root (rooted : ∀ f ∈ files, f.path.names ≠ []) (mem : f ∈ files) :
    ∃ r ∈ (calculate files).keys, r.isAncestorOf f.path = true := by
  have directory : ∃ d, f.path.parent? = some d := by
    simp [WorkspacePath.parent?, WorkspacePath.isRoot, rooted f mem]
  obtain ⟨d, directory⟩ := directory
  obtain ⟨r, root, above⟩ := covers_calculate mem directory
  exact ⟨r, root,
    WorkspacePath.isAncestorOf_trans above (WorkspacePath.isAncestorOf_of_parent? directory)⟩

/-- What is placed lies below its content root, and above a file that the entry is for. -/
theorem file_of_placed (h : Placed (table directories files) c k) :
    c.isAncestorOf k = true ∧ ∃ f ∈ files, k.isAncestorOf f.path = true ∧
      (importDirectory? directories f.path = some c ∨
        importDirectory? directories f.path = none ∧
          Placed (outsideTable directories files) c k) := by
  by_cases used : Used directories files c
  · obtain ⟨r, root, clipped⟩ := (placed_table_of_used used).1 h
    obtain ⟨f, mem, above⟩ := exists_file_of_mem_keys root
    obtain ⟨mem, imported⟩ := mem_filesBelow.1 mem
    have inside := isAncestorOf_of_importDirectory? imported
    -- A root above the directory is moved down to it, any other one stays.
    split_ifs at clipped with outer
    · subst clipped
      exact ⟨WorkspacePath.isAncestorOf_refl c, f, mem, inside, .inl imported⟩
    · subst clipped
      have below := (WorkspacePath.isAncestorOf_or above inside).resolve_left outer
      exact ⟨below, f, mem, above, .inl imported⟩
  · have placed := (placed_table_of_not_used used).1 h
    obtain ⟨below, root⟩ := (houses_outsideTable directories files).below placed
    obtain ⟨f, mem, outside, above⟩ := exists_file_of_mem_outsideRoots root
    exact ⟨below, f, mem, above, .inr ⟨outside, placed⟩⟩

/-- The entry of an import directory has a source root above each file of it. -/
theorem exists_placed_of_imported (rooted : ∀ f ∈ files, f.path.names ≠ []) (mem : f ∈ files)
    (imported : importDirectory? directories f.path = some d) :
    ∃ k, Placed (table directories files) d k ∧ k.isAncestorOf f.path = true := by
  have rooted : ∀ g ∈ filesBelow directories files d, g.path.names ≠ [] :=
    fun g mem => rooted g (mem_filesBelow.1 mem).1
  obtain ⟨r, root, above⟩ := exists_root rooted (mem_filesBelow.2 ⟨mem, imported⟩)
  refine ⟨_, (placed_table_of_used ⟨f, mem, imported⟩).2 ⟨r, root, rfl⟩, ?_⟩
  split_ifs
  · exact isAncestorOf_of_importDirectory? imported
  · exact above

/-- Above every file some source root is placed. -/
theorem exists_placed (directories : List WorkspacePath)
    (rooted : ∀ f ∈ files, f.path.names ≠ []) (mem : f ∈ files) :
    ∃ c k, Placed (table directories files) c k ∧ k.isAncestorOf f.path = true := by
  cases imported : importDirectory? directories f.path with
  | some d => exact ⟨d, exists_placed_of_imported rooted mem imported⟩
  | none =>
    have rooted : ∀ g ∈ outsideFiles directories files, g.path.names ≠ [] :=
      fun g mem => rooted g (mem_outsideFiles.1 mem).1
    obtain ⟨r, root, above⟩ := exists_root rooted (mem_outsideFiles.2 ⟨mem, imported⟩)
    obtain ⟨c, placed⟩ := (houses_outsideTable directories files).placed r root
    refine ⟨c, r, (placed_table_of_not_used ?_).2 placed, above⟩
    intro used
    exact used.notMem_keys_outsideTable placed.mem_keys

/-- No source root is placed in two entries. -/
theorem placed_unique (h : Placed (table directories files) c k)
    (h' : Placed (table directories files) c' k) : c = c' := by
  obtain ⟨below, f, mem, above, origin⟩ := file_of_placed h
  obtain ⟨below', f', mem', above', origin'⟩ := file_of_placed h'
  -- A root below an import directory is above no file outside.
  have outside_absurd {c : WorkspacePath} {f f' : SourceFile} (below : c.isAncestorOf k = true)
      (above : k.isAncestorOf f'.path = true)
      (mem : f ∈ files) (imported : importDirectory? directories f.path = some c)
      (outside : importDirectory? directories f'.path = none) : False := by
    have used : Used directories files c := ⟨f, mem, imported⟩
    exact used.not_isAncestorOf outside (WorkspacePath.isAncestorOf_trans below above)
  rcases origin with imported | ⟨outside, placed⟩
  · rcases origin' with imported' | ⟨outside', -⟩
    · rcases WorkspacePath.isAncestorOf_or below below' with up | down
      · exact importDirectory?_eq_of_isAncestorOf imported imported' up
      · exact (importDirectory?_eq_of_isAncestorOf imported' imported down).symm
    · exact (outside_absurd below above' mem imported outside').elim
  · rcases origin' with imported' | ⟨-, placed'⟩
    · exact (outside_absurd below' above mem' imported' outside).elim
    · have apart := (houses_outsideTable directories files).apart
      rcases WorkspacePath.isAncestorOf_or below below' with up | down
      · exact apart c placed.mem_keys c' placed'.mem_keys up
      · exact (apart c' placed'.mem_keys c placed.mem_keys down).symm

theorem mem_keys_table : c ∈ (table directories files).keys ↔
    Used directories files c ∨ c ∈ (outsideTable directories files).keys := by
  rw [SortedMap.mem_keys_iff_get?]
  by_cases used : Used directories files c
  · simp [get?_table_of_used used, used]
  · rw [get?_table_of_not_used used, ← SortedMap.mem_keys_iff_get?]
    simp [used]

/-- Every entry has a source root. -/
theorem exists_placed_of_mem_keys (rooted : ∀ f ∈ files, f.path.names ≠ [])
    (mem : c ∈ (table directories files).keys) : ∃ k, Placed (table directories files) c k := by
  by_cases used : Used directories files c
  · obtain ⟨f, mem, imported⟩ := used
    obtain ⟨k, placed, -⟩ := exists_placed_of_imported rooted mem imported
    exact ⟨k, placed⟩
  · have old := (mem_keys_table.1 mem).resolve_left used
    exact ⟨c, (placed_table_of_not_used used).2 ((houses_outsideTable directories files).own c old)⟩

/-- A content root that encloses another one was inferred outside of import directories, and the
enclosed one is an import directory. -/
theorem overlap_cases (mem : c ∈ (table directories files).keys)
    (mem' : c' ∈ (table directories files).keys) (above : c.isAncestorOf c' = true) (ne : c ≠ c') :
    c ∈ (outsideRoots directories files).keys ∧ Used directories files c' := by
  have houses := houses_outsideTable directories files
  rcases mem_keys_table.1 mem with used | inferred
  · rcases mem_keys_table.1 mem' with used' | inferred'
    · exact absurd (used.eq_of_isAncestorOf used' above) ne
    · exact absurd above (used.not_isAncestorOf_root (houses.below (houses.own c' inferred')).2)
  · rcases mem_keys_table.1 mem' with used' | inferred'
    · exact ⟨(houses.below (houses.own c inferred)).2, used'⟩
    · exact absurd (houses.apart c inferred c' inferred' above) ne

/-- An inferred root above an import directory makes an entry that encloses its one. -/
theorem exists_overlap (used : Used directories files d)
    (root : k ∈ (outsideRoots directories files).keys) (above : k.isAncestorOf d = true) :
    ∃ c ∈ (table directories files).keys, c.isAncestorOf d = true ∧ c ≠ d := by
  have houses := houses_outsideTable directories files
  obtain ⟨c, placed⟩ := houses.placed k root
  refine ⟨c, mem_keys_table.2 (.inr placed.mem_keys),
    WorkspacePath.isAncestorOf_trans (houses.below placed).1 above, ?_⟩
  rintro rfl
  exact used.notMem_keys_outsideTable placed.mem_keys

end WorkspaceSync.ContentEntry
