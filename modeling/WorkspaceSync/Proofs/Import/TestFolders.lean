import WorkspaceSync.Proofs.Import.ContentEntries
import WorkspaceSync.Proofs.SourceRoots.Flags

/-!
# Test folders

A folder is marked as one of tests if the inferred root that it is made from is. Of the roots that
are moved down to an import directory only the outermost one stays, with its own flag, so a file
that is no test lies in a folder of tests if a root of tests is above the one that it counts for.
Other than that a file that is no test lies in a folder of tests only where a test overtakes it.
-/

namespace WorkspaceSync

open SourceRoots

variable {workspace : WorkspaceRoot} {project : ProjectSection} {files : List SourceFile}
  {directories : List WorkspacePath} {c d k p : WorkspacePath} {r : SourceRoot}
  {e : WorkspacePath × SourceRoot} {f : SourceFile} {folder : SourceFolder}

/-- Of the source folders at or above a file the one that is below all others. -/
structure InnermostFolder (entries : List ContentEntry) (p : FilePath)
    (folder : SourceFolder) : Prop where
  mem : folder ∈ entries.flatMap (·.folders)
  above : folder.directory.Encloses p
  below : ∀ g ∈ entries.flatMap (·.folders), g.directory.Encloses p →
    g.directory.Encloses folder.directory

namespace ContentEntry

/-! ## Folders and placed roots -/

/-- The source roots of all entries. -/
def placedRoots (t : Table) : List (WorkspacePath × SourceRoot) := t.values.flatMap (·.entries)

theorem mem_placedRoots_iff {t : Table} : e ∈ placedRoots t ↔
    ∃ c roots, t.get? c = some roots ∧ roots.get? e.1 = some e.2 := by
  simp only [placedRoots, SortedMap.values, List.mem_flatMap, List.mem_map, Prod.exists,
    exists_eq_right, SortedMap.mem_entries_iff]
  constructor
  · rintro ⟨roots, ⟨c, found⟩, mem⟩
    exact ⟨c, roots, found, SortedMap.mem_entries_iff.1 mem⟩
  · rintro ⟨c, roots, found, root⟩
    exact ⟨roots, ⟨c, found⟩, SortedMap.mem_entries_iff.2 root⟩

theorem exists_mem_placedRoots {t : Table} (placed : Placed t c k) :
    ∃ r, (k, r) ∈ placedRoots t := by
  obtain ⟨roots, found, key⟩ := placed
  obtain ⟨r, root⟩ := SortedMap.mem_keys_iff_get?.1 key
  exact ⟨r, mem_placedRoots_iff.2 ⟨c, roots, found, root⟩⟩

/-- The folder of a source root. -/
def folderOf (workspace : WorkspaceRoot) (e : WorkspacePath × SourceRoot) : SourceFolder :=
  ⟨workspace.file e.1, e.2.packagePrefix, e.2.isTest⟩

theorem folders_ofFiles (workspace : WorkspaceRoot) (project : ProjectSection)
    (files : List SourceFile) : (ofFiles workspace project files).flatMap (·.folders) =
      (placedRoots (table project.directories files)).map (folderOf workspace) := by
  simp only [ofFiles, ofRoots, placedRoots, SortedMap.values, List.flatMap_map, List.map_flatMap]
  rfl

theorem innermostFolder_ofFiles_iff :
    InnermostFolder (ofFiles workspace project files) (workspace.file p) folder ↔
      ∃ e, Innermost (placedRoots (table project.directories files)) p e ∧
        folderOf workspace e = folder := by
  have encloses (e : WorkspacePath × SourceRoot) (q : WorkspacePath) :
      (folderOf workspace e).directory.Encloses (workspace.file q) ↔ e.1.isAncestorOf q = true :=
    WorkspaceRoot.file_encloses_file_iff
  constructor
  · rintro ⟨mem, above, below⟩
    rw [folders_ofFiles] at mem below
    obtain ⟨e, placed, rfl⟩ := List.mem_map.1 mem
    refine ⟨e, ⟨placed, (encloses e p).1 above, ?_⟩, rfl⟩
    intro g placed' above'
    exact (encloses g e.1).1 (below _ (List.mem_map_of_mem placed') ((encloses g p).2 above'))
  · rintro ⟨e, inner, rfl⟩
    refine ⟨?_, (encloses e p).2 inner.above, ?_⟩
    · rw [folders_ofFiles]
      exact List.mem_map_of_mem inner.mem
    · intro g mem above
      rw [folders_ofFiles] at mem
      obtain ⟨e', placed, rfl⟩ := List.mem_map.1 mem
      exact (encloses e' e.1).2 (inner.below e' placed ((encloses e' p).1 above))

/-! ## Where the roots of a folder come from -/

theorem mem_placedRoots_addOutside {t : Table} {f : WorkspacePath × SourceRoot}
    (mem : f ∈ placedRoots (addOutside t e)) : f = e ∨ f ∈ placedRoots t := by
  obtain ⟨c, roots, found, root⟩ := mem_placedRoots_iff.1 mem
  rw [get?_addOutside] at found
  split_ifs at found with here
  · obtain rfl := Option.some.inj found
    rw [SortedMap.get?_insert_eq] at root
    split_ifs at root with same
    · exact .inl (Prod.ext same.symm (Option.some.inj root).symm)
    · cases before : t.get? (home t e.1) with
      | none => simp [before] at root
      | some roots =>
        rw [before, Option.getD_some] at root
        exact .inr (mem_placedRoots_iff.2 ⟨_, roots, before, root⟩)
  · exact .inr (mem_placedRoots_iff.2 ⟨c, roots, found, root⟩)

theorem placedRoots_outsideTable_subset (directories : List WorkspacePath)
    (files : List SourceFile) :
    placedRoots (outsideTable directories files) ⊆ (outsideRoots directories files).entries := by
  apply SortedMap.foldl_entries_inv (fun l t => placedRoots t ⊆ l) (outsideRoots directories files)
  · exact List.Subset.refl []
  · intro l t e subset _ f mem
    rw [List.mem_append, List.mem_singleton]
    exact (mem_placedRoots_addOutside mem).symm.imp_left fun earlier => subset earlier

theorem clip_snd_isTest (d : WorkspacePath) (e : WorkspacePath × SourceRoot) :
    (clip d e).2.isTest = e.2.isTest := by
  unfold clip
  split_ifs <;> rfl

/-- A root placed at or above a file outside of import directories is inferred for such files. -/
theorem innermost_outsideRoots (outside : importDirectory? directories p = none)
    (inner : Innermost (placedRoots (table directories files)) p e) :
    Innermost (outsideRoots directories files).entries p e := by
  have houses := houses_outsideTable directories files
  constructor
  · obtain ⟨c, roots, found, root⟩ := mem_placedRoots_iff.1 inner.mem
    have placed : Placed (table directories files) c e.1 :=
      ⟨roots, found, SortedMap.mem_keys_iff_get?.2 ⟨e.2, root⟩⟩
    have unused : ¬ Used directories files c := by
      rintro ⟨f, -, imported⟩
      apply importDirectory?_eq_none_iff.1 outside c (mem_of_importDirectory? imported)
      exact WorkspacePath.isAncestorOf_trans (file_of_placed placed).1 inner.above
    rw [get?_table_of_not_used unused] at found
    exact placedRoots_outsideTable_subset directories files
      (mem_placedRoots_iff.2 ⟨c, roots, found, root⟩)
  · exact inner.above
  · intro g root above
    obtain ⟨c, placed⟩ := houses.placed g.1 (List.mem_map_of_mem root)
    have unused : ¬ Used directories files c := fun used =>
      used.notMem_keys_outsideTable placed.mem_keys
    obtain ⟨r, placed⟩ := exists_mem_placedRoots ((placed_table_of_not_used unused).2 placed)
    exact inner.below (g.1, r) placed above

/-- What is placed in an import directory belongs to the entry of that. -/
theorem Used.eq_of_placed (used : Used directories files d)
    (placed : Placed (table directories files) c k) (within : d.isAncestorOf k = true) : c = d := by
  have used' : Used directories files c := by
    by_contra unused
    have houses := houses_outsideTable directories files
    have below := (houses.below ((placed_table_of_not_used unused).1 placed)).2
    exact used.not_isAncestorOf_root below within
  rcases WorkspacePath.isAncestorOf_or (file_of_placed placed).1 within with above | below
  · exact used'.eq_of_isAncestorOf used above
  · exact (used.eq_of_isAncestorOf used' below).symm

/-- The innermost root inferred for the files of an import directory is placed where the innermost
root of the table is, be it with what another root has that is moved to the same place. -/
theorem exists_inferred_of_imported (mem : f ∈ files)
    (directory : ∃ parent, f.path.parent? = some parent)
    (imported : importDirectory? directories f.path = some d)
    (inner : Innermost (placedRoots (table directories files)) f.path e) :
    ∃ i, Innermost (calculate (filesBelow directories files d)).entries f.path i ∧
      ∃ s ∈ (calculate (filesBelow directories files d)).entries, clip d s = e ∧
        (clip d i).1 = (clip d s).1 := by
  have used : Used directories files d := ⟨f, mem, imported⟩
  have inside := isAncestorOf_of_importDirectory? imported
  obtain ⟨parent, directory⟩ := directory
  obtain ⟨k, root, above⟩ := covers_calculate (mem_filesBelow.2 ⟨mem, imported⟩) directory
  obtain ⟨r, root⟩ := SortedMap.mem_keys_iff.1 root
  obtain ⟨i, innermost⟩ := Innermost.exists_of_mem root
    (WorkspacePath.isAncestorOf_trans above (WorkspacePath.isAncestorOf_of_parent? directory))
  have placed : Placed (table directories files) d (clip d i).1 := by
    rw [clip_fst]
    exact (placed_table_of_used used).2 ⟨i.1, List.mem_map_of_mem innermost.mem, rfl⟩
  have within : d.isAncestorOf (clip d i).1 = true := (file_of_placed placed).1
  -- The innermost inferred root is placed, so what is placed innermost is at or below it.
  have below : (clip d i).1.isAncestorOf e.1 = true := by
    obtain ⟨r, placed⟩ := exists_mem_placedRoots placed
    apply inner.below (_, r) placed
    rw [clip_fst]
    split_ifs
    · exact inside
    · exact innermost.above
  obtain ⟨c, roots, found, stored⟩ := mem_placedRoots_iff.1 inner.mem
  have own : Placed (table directories files) c e.1 :=
    ⟨roots, found, SortedMap.mem_keys_iff_get?.2 ⟨e.2, stored⟩⟩
  obtain rfl := used.eq_of_placed own (WorkspacePath.isAncestorOf_trans within below)
  rw [get?_table_of_used used, Option.some.injEq] at found
  subst found
  have origin := SortedMap.mem_ofListFirst (SortedMap.mem_entries_iff.2 stored)
  obtain ⟨s, inferred, clipped⟩ := List.mem_map.1 origin
  refine ⟨i, innermost, s, inferred, clipped, ?_⟩
  have key : (clip c s).1 = e.1 := congrArg Prod.fst clipped
  apply WorkspacePath.isAncestorOf_antisymm (key ▸ below)
  rw [clip_fst] at key ⊢
  split_ifs at key ⊢ with outer
  · exact within
  · have up := innermost.below s inferred (key ▸ inner.above)
    rw [clip_fst]
    split_ifs with outer'
    · exact absurd (WorkspacePath.isAncestorOf_trans up outer') outer
    · exact up

/-- The innermost inferred root around a file is moved down to the file's import directory, where a
root of tests that was further out takes its place. -/
inductive HiddenByTests (directories : List WorkspacePath) (files : List SourceFile)
    (f : SourceFile) : Prop where
  | intro {d : WorkspacePath} {i s : WorkspacePath × SourceRoot}
      (imported : importDirectory? directories f.path = some d)
      (innermost : Innermost (calculate (filesBelow directories files d)).entries f.path i)
      (moved : i.1.isAncestorOf d = true)
      (inferred : s ∈ (calculate (filesBelow directories files d)).entries)
      (outer : s.1.isAncestorOf i.1 = true) (ne : s.1 ≠ i.1) (marked : s.2.isTest = true) :
      HiddenByTests directories files f

/-- The innermost root placed at or above a file that is no test is not marked as one of tests,
unless a test for the same entry overtakes the file or tests hide its root. -/
theorem isTest_placed_eq_false (mem : f ∈ files) (production : f.isTest = false)
    (directory : ∃ parent, f.path.parent? = some parent)
    (inner : Innermost (placedRoots (table directories files)) f.path e) :
    e.2.isTest = false ∨
    (∃ g ∈ files, g.isTest = true ∧
      importDirectory? directories g.path = importDirectory? directories f.path ∧
      g.Overtakes f) ∨
    HiddenByTests directories files f := by
  obtain ⟨parent, isParent⟩ := directory
  cases imported : importDirectory? directories f.path with
  | none =>
    rcases isTest_calculate_eq_false (mem_outsideFiles.2 ⟨mem, imported⟩) production isParent
      (innermost_outsideRoots imported inner) with unmarked | ⟨g, outside, test, overtakes⟩
    · exact .inl unmarked
    · obtain ⟨mem', outside⟩ := mem_outsideFiles.1 outside
      exact .inr (.inl ⟨g, mem', test, outside, overtakes⟩)
  | some d =>
    obtain ⟨i, innermost, s, inferred, rfl, place⟩ :=
      exists_inferred_of_imported mem ⟨parent, isParent⟩ imported inner
    rw [clip_snd_isTest]
    rw [clip_fst, clip_fst] at place
    by_cases same : s.1 = i.1
    · obtain rfl := SortedMap.eq_of_mem inferred innermost.mem (same ▸ Std.ReflCmp.compare_self)
      rcases isTest_calculate_eq_false (mem_filesBelow.2 ⟨mem, imported⟩) production isParent
        innermost with unmarked | ⟨g, below, test, overtakes⟩
      · exact .inl unmarked
      · obtain ⟨mem', imported'⟩ := mem_filesBelow.1 below
        exact .inr (.inl ⟨g, mem', test, imported', overtakes⟩)
    · -- Two roots only meet in the import directory itself.
      have moved : s.1.isAncestorOf d = true ∧ i.1.isAncestorOf d = true := by
        split_ifs at place with movedI movedS movedS
        · exact ⟨movedS, movedI⟩
        · exact absurd (place ▸ WorkspacePath.isAncestorOf_refl d) movedS
        · exact absurd (place ▸ WorkspacePath.isAncestorOf_refl d) movedI
        · exact absurd place.symm same
      have outer := innermost.below s inferred (WorkspacePath.isAncestorOf_trans moved.1
        (isAncestorOf_of_importDirectory? imported))
      by_cases marked : s.2.isTest = true
      · exact .inr (.inr (.intro imported innermost moved.2 inferred outer same marked))
      · exact .inl (Bool.eq_false_iff.2 marked)

end ContentEntry

namespace ImportRequest

open ContentEntry

theorem exists_parent_of_contentFile {q : ImportRequest} {read : PackageReader}
    (mem : f ∈ q.contentFiles read) : ∃ parent, f.path.parent? = some parent := by
  obtain ⟨a, source⟩ := exists_sourceFile_iff.1 ⟨f, mem, rfl⟩
  have rooted := (declared_of_mem_contentSources source).2.2
  simp [WorkspacePath.parent?, WorkspacePath.isRoot, rooted]

/-- The innermost folder around a Java source of content that is no test is not marked as one of
tests, with two exceptions. A test overtakes the source, so that the innermost folder is not that of
the root that the source counts for. Or the folder is an import directory, and an inferred root of
tests further out hides the source's own root there. -/
theorem production_folder (q : ImportRequest) (read : PackageReader)
    (mem : f ∈ q.contentFiles read) (production : f.isTest = false) :
    (∃ folder, InnermostFolder (q.run read).result.contentEntries
      (q.roots.workspace.file f.path) folder) ∧
    ∀ folder, InnermostFolder (q.run read).result.contentEntries
        (q.roots.workspace.file f.path) folder →
      folder.isTest = false ∨
      (∃ g ∈ q.contentFiles read, g.isTest = true ∧
        importDirectory? q.project.directories g.path =
          importDirectory? q.project.directories f.path ∧
        g.Overtakes f) ∨
      HiddenByTests q.project.directories (q.contentFiles read) f := by
  have directory := exists_parent_of_contentFile mem
  have entries : (q.run read).result.contentEntries =
      ofFiles q.roots.workspace q.project (q.contentFiles read) := rfl
  rw [entries]
  constructor
  · have rooted : ∀ g ∈ q.contentFiles read, g.path.names ≠ [] := by
      intro g mem
      obtain ⟨parent, isParent⟩ := exists_parent_of_contentFile mem
      exact (WorkspacePath.parent?_eq_some_iff.1 isParent).1
    obtain ⟨c, k, placed, above⟩ := exists_placed q.project.directories rooted mem
    obtain ⟨r, placed⟩ := exists_mem_placedRoots placed
    obtain ⟨e, inner⟩ := Innermost.exists_of_mem placed above
    exact ⟨_, innermostFolder_ofFiles_iff.2 ⟨e, inner, rfl⟩⟩
  · intro folder innermost
    obtain ⟨e, inner, rfl⟩ := innermostFolder_ofFiles_iff.1 innermost
    exact isTest_placed_eq_false mem production directory inner

/-- A source of the one rule of `nestedRequest`, which is no test. -/
def otherSource : SourceFile := ⟨⟨["java", "Other.java"], by decide⟩, none, false⟩

theorem production_folder_nested : ∃ folder,
    InnermostFolder (nestedRequest.run fun _ => .ok []).result.contentEntries
      (nestedRequest.roots.workspace.file otherSource.path) folder ∧ folder.isTest = false := by
  have noTests : ∀ g ∈ nestedRequest.contentFiles fun _ => .ok [], g.isTest = false := by
    decide +kernel
  have outside : importDirectory? nestedRequest.project.directories otherSource.path = none := by
    decide +kernel
  have mem : otherSource ∈ nestedRequest.contentFiles fun _ => .ok [] := by decide +kernel
  obtain ⟨⟨folder, innermost⟩, unmarked⟩ := production_folder nestedRequest _ mem rfl
  refine ⟨folder, innermost, ?_⟩
  rcases unmarked folder innermost with unmarked | ⟨g, mem, test, -⟩ | hidden
  · exact unmarked
  · rw [noTests g mem] at test
    cases test
  · obtain ⟨imported, -⟩ := hidden
    rw [outside] at imported
    cases imported

/-! ## An import directory in two packages -/

/-- A test below `java/com` that takes the workspace for its package root. -/
def deepTestRule : Rule :=
  { LoadCall.ruleA with
    kind := "java_test"
    sources := [.source "java/com/x/XTest.java"]
    payload := some (.java { JavaInfo.empty with packageManifest := some (.source "packages") }) }

/-- A library below `java/com` that takes `java` for its package root. -/
def shallowRule : Rule :=
  { LoadCall.ruleB with
    sources := [.source "java/com/y/Y.java"]
    payload := some (.java { JavaInfo.empty with packageManifest := some (.source "packages") }) }

def bothPackages : PackageReader := fun _ =>
  .ok [⟨"java.com.x", .source "java/com/x/XTest.java"⟩, ⟨"com.y", .source "java/com/y/Y.java"⟩]

/-- Both package roots are above the one import directory. -/
def hidingRequest : ImportRequest :=
  { nestedRequest with rules := .ofRules [deepTestRule, shallowRule] }

def shallowSource : SourceFile := ⟨⟨["java", "com", "y", "Y.java"], by decide⟩, some "com.y", false⟩

theorem production_folder_of_tests :
    ¬ ∀ f ∈ hidingRequest.contentFiles bothPackages, f.isTest = false →
      ∀ folder, InnermostFolder (hidingRequest.run bothPackages).result.contentEntries
        (hidingRequest.roots.workspace.file f.path) folder → folder.isTest = false := by
  intro documented
  have mem : shallowSource ∈ hidingRequest.contentFiles bothPackages := by decide +kernel
  have innermost : InnermostFolder (hidingRequest.run bothPackages).result.contentEntries
      (hidingRequest.roots.workspace.file shallowSource.path)
      ⟨⟨"/w/java/com"⟩, "java.com", true⟩ :=
    ⟨by decide +kernel, by decide +kernel, by decide +kernel⟩
  cases documented shallowSource mem rfl _ innermost

end ImportRequest

end WorkspaceSync
