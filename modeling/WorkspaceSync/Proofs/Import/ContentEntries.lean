import Mathlib.Data.List.Pairwise
import WorkspaceSync.Proofs.FilePath
import WorkspaceSync.Proofs.Import.ContentTable
import WorkspaceSync.Proofs.Import.Pruning

/-!
# Content entries of an import

The source folders of an import are above all Java sources of content and above nothing else, each
of them once and below the content root of its entry. Content roots lie apart unless files outside
of the import directories have a root inferred above one: an entry for such a directory is added
without a look at the roots that are there.
-/

namespace WorkspaceSync

variable {workspace : WorkspaceRoot} {project : ProjectSection} {files : List SourceFile}
  {c k : WorkspacePath} {e : ContentEntry} {folder : SourceFolder}

/-! ## Entries and the table -/

namespace FilePath

variable {p q d : FilePath}

theorem Encloses.of_same (h : d.Encloses p) (same : p.Same q) : d.Encloses q := by
  rwa [Encloses, ← same_iff.1 same]

end FilePath

namespace ContentEntry

theorem mem_ofFiles_iff : e ∈ ofFiles workspace project files ↔
    ∃ c roots, (table project.directories files).get? c = some roots ∧
      ofRoots workspace project.excludeDirectories c roots = e := by
  simp only [ofFiles, List.mem_map, Prod.exists, SortedMap.mem_entries_iff]

theorem directories_ofRoots (workspace : WorkspaceRoot) (excludes : List WorkspacePath)
    (c : WorkspacePath) (roots : SourceRoots) :
    (ofRoots workspace excludes c roots).folders.map (·.directory) =
      roots.keys.map workspace.file := by
  simp [ofRoots, SortedMap.keys]

theorem placed_of_mem (mem : e ∈ ofFiles workspace project files) (mem' : folder ∈ e.folders) :
    ∃ c k, Placed (table project.directories files) c k ∧ e.root = workspace.file c ∧
      folder.directory = workspace.file k := by
  obtain ⟨c, roots, found, rfl⟩ := mem_ofFiles_iff.1 mem
  have directory := List.mem_map_of_mem (f := (·.directory)) mem'
  rw [directories_ofRoots] at directory
  obtain ⟨k, key, same⟩ := List.mem_map.1 directory
  exact ⟨c, k, ⟨roots, found, key⟩, rfl, same.symm⟩

theorem exists_folder_of_placed (workspace : WorkspaceRoot)
    (h : Placed (table project.directories files) c k) :
    ∃ e ∈ ofFiles workspace project files, ∃ folder ∈ e.folders,
      e.root = workspace.file c ∧ folder.directory = workspace.file k := by
  obtain ⟨roots, found, key⟩ := h
  refine ⟨_, mem_ofFiles_iff.2 ⟨c, roots, found, rfl⟩, ?_⟩
  have directory := List.mem_map_of_mem (f := workspace.file) key
  rw [← directories_ofRoots workspace project.excludeDirectories c] at directory
  obtain ⟨folder, mem, same⟩ := List.mem_map.1 directory
  exact ⟨folder, mem, rfl, same⟩

/-- Files of workspace paths in the strict order of their texts. -/
def Ordered (workspace : WorkspaceRoot) (paths : List FilePath) : Prop :=
  ∃ l : List WorkspacePath, paths = l.map workspace.file ∧ l.Pairwise fun p q => p.text < q.text

theorem ordered_keys {β : Type} (workspace : WorkspaceRoot) (m : SortedMap WorkspacePath β) :
    Ordered workspace (m.keys.map workspace.file) := by
  refine ⟨m.keys, rfl, List.pairwise_map.2 (m.sorted.imp ?_)⟩
  intro a b before
  exact WorkspacePath.compare_eq_lt_iff.1 before

theorem roots_ofFiles (workspace : WorkspaceRoot) (project : ProjectSection)
    (files : List SourceFile) : (ofFiles workspace project files).map (·.root) =
      (table project.directories files).keys.map workspace.file := by
  simp [ofFiles, ofRoots, SortedMap.keys]

end ContentEntry

open ContentEntry

/-- How content entries lay out the Java sources of content: the folders are above all of them and
above nothing else, each folder is there once and below its entry, and everything is in order. -/
structure ContentLayout (workspace : WorkspaceRoot) (entries : List ContentEntry)
    (sources : List FilePath) : Prop where
  covered : ∀ s ∈ sources, ∃ e ∈ entries, ∃ f ∈ e.folders, f.directory.Encloses s
  within : ∀ e ∈ entries, ∀ f ∈ e.folders, e.root.Encloses f.directory
  needed : ∀ e ∈ entries, ∀ f ∈ e.folders, ∃ s ∈ sources, f.directory.Encloses s
  once : (entries.flatMap (·.folders)).Pairwise fun f g => ¬ f.directory.Same g.directory
  entriesOrdered : Ordered workspace (entries.map (·.root))
  foldersOrdered : ∀ e ∈ entries, Ordered workspace (e.folders.map (·.directory))
  inhabited : ∀ e ∈ entries, e.folders ≠ []

namespace ContentEntry

/-- No directory is a source folder twice. -/
theorem folders_pairwise (workspace : WorkspaceRoot) (project : ProjectSection)
    (files : List SourceFile) :
    ((ofFiles workspace project files).flatMap (·.folders)).Pairwise
      fun f g => ¬ f.directory.Same g.directory := by
  rw [List.pairwise_flatMap]
  constructor
  · intro e mem
    obtain ⟨c, roots, -, rfl⟩ := mem_ofFiles_iff.1 mem
    refine List.pairwise_map.2 (roots.sorted.imp ?_)
    intro a b before same
    rw [WorkspaceRoot.file_same_file_iff] at same
    simp [same] at before
  · refine List.pairwise_map.2 ((table project.directories files).sorted.imp_of_mem ?_)
    rintro ⟨c, roots⟩ ⟨c', roots'⟩ mem mem' before f hf g hg same
    obtain ⟨⟨k, r⟩, key, rfl⟩ := List.mem_map.1 hf
    obtain ⟨⟨k', r'⟩, key', rfl⟩ := List.mem_map.1 hg
    obtain rfl := WorkspaceRoot.file_same_file_iff.1 same
    have placed : Placed (table project.directories files) c k :=
      ⟨roots, SortedMap.get?_of_mem mem, List.mem_map_of_mem key⟩
    have placed' : Placed (table project.directories files) c' k :=
      ⟨roots', SortedMap.get?_of_mem mem', List.mem_map_of_mem key'⟩
    obtain rfl := placed_unique placed placed'
    simp at before

/-- The entries of files lay out sources that stand for the files. -/
theorem contentLayout_ofFiles {sources : List FilePath}
    (rooted : ∀ f ∈ files, f.path.names ≠ [])
    (isFile : ∀ s ∈ sources, ∃ f ∈ files, s.Same (workspace.file f.path))
    (isSource : ∀ f ∈ files, ∃ s ∈ sources, s.Same (workspace.file f.path)) :
    ContentLayout workspace (ofFiles workspace project files) sources where
  covered := by
    intro s mem
    obtain ⟨f, mem, same⟩ := isFile s mem
    obtain ⟨c, k, placed, above⟩ := exists_placed project.directories rooted mem
    obtain ⟨e, mem, folder, mem', -, directory⟩ := exists_folder_of_placed workspace placed
    refine ⟨e, mem, folder, mem', ?_⟩
    rw [directory]
    exact (WorkspaceRoot.file_encloses_file_iff.2 above).of_same same.symm
  within := by
    intro e mem folder mem'
    obtain ⟨c, k, placed, root, directory⟩ := placed_of_mem mem mem'
    rw [root, directory, WorkspaceRoot.file_encloses_file_iff]
    exact (file_of_placed placed).1
  needed := by
    intro e mem folder mem'
    obtain ⟨c, k, placed, -, directory⟩ := placed_of_mem mem mem'
    obtain ⟨-, f, mem, above, -⟩ := file_of_placed placed
    obtain ⟨s, mem, same⟩ := isSource f mem
    refine ⟨s, mem, ?_⟩
    rw [directory]
    exact (WorkspaceRoot.file_encloses_file_iff.2 above).of_same same.symm
  once := folders_pairwise workspace project files
  entriesOrdered := by
    rw [roots_ofFiles]
    exact ordered_keys workspace _
  foldersOrdered := by
    intro e mem
    obtain ⟨c, roots, -, rfl⟩ := mem_ofFiles_iff.1 mem
    rw [directories_ofRoots]
    exact ordered_keys workspace roots
  inhabited := by
    intro e mem
    obtain ⟨c, roots, found, rfl⟩ := mem_ofFiles_iff.1 mem
    obtain ⟨k, roots', found', key⟩ :=
      exists_placed_of_mem_keys rooted (SortedMap.mem_keys_iff_get?.2 ⟨roots, found⟩)
    obtain rfl := Option.some.inj (found.symm.trans found')
    intro none
    have directories := directories_ofRoots workspace project.excludeDirectories c roots
    rw [none, List.map_nil] at directories
    rw [List.map_eq_nil_iff.1 directories.symm] at key
    cases key

end ContentEntry

/-! ## Sources of content -/

namespace ImportRequest

variable {q : ImportRequest} {packages : SortedMap String String} {f : SourceFile}
  {a : ArtifactLocation} {p : WorkspacePath}

/-- The Java sources of content with their paths in the workspace. -/
def contentSources (q : ImportRequest) : List (ArtifactLocation × WorkspacePath) :=
  q.content.flatMap (·.javaSources)

theorem declared_of_mem_contentSources (h : (a, p) ∈ q.contentSources) :
    (∃ r ∈ q.rules.rules, a ∈ r.sources) ∧ a.workspacePath? = some p ∧ p.names ≠ [] := by
  obtain ⟨t, content, source⟩ := List.mem_flatMap.1 h
  obtain ⟨declared, -⟩ := mem_targets_iff.1 (List.mem_of_mem_filter content)
  obtain ⟨b, mem, isJava⟩ := List.mem_filterMap.1 source
  obtain ⟨p', read, same⟩ := Option.map_eq_some_iff.1 isJava
  obtain ⟨rfl, rfl⟩ := Prod.mk.inj same
  obtain ⟨read, java⟩ := Option.filter_eq_some_iff.1 read
  refine ⟨⟨t.rule, declared, mem⟩, read, ?_⟩
  intro isRoot
  have noName : p'.fileName = "" := by
    rw [WorkspacePath.fileName, isRoot]
    rfl
  rw [noName] at java
  cases java

theorem exists_sourceFile_iff :
    (∃ f ∈ q.sourceFiles packages, f.path = p) ↔ ∃ a, (a, p) ∈ q.contentSources := by
  simp only [sourceFiles, contentSources, List.mem_flatMap, List.mem_map]
  constructor
  · rintro ⟨_, ⟨t, content, ⟨a, p⟩, source, rfl⟩, rfl⟩
    exact ⟨a, t, content, source⟩
  · rintro ⟨a, t, content, source⟩
    exact ⟨_, ⟨t, content, _, source, rfl⟩, rfl⟩

theorem javaSources_eq (q : ImportRequest) :
    q.javaSources = .ofList (q.contentSources.map fun s => q.roots.resolve s.1) := by
  rw [contentSources, List.map_flatMap]
  rfl

/-- The content entries of an import lay out its Java sources. -/
theorem contentEntries_layout (q : ImportRequest) (read : PackageReader)
    (located : q.roots.workspace.directory.text ≠ "")
    (plain : ∀ r ∈ q.rules.rules, ∀ a ∈ r.sources, '\\' ∉ a.relativePath.toList) :
    ContentLayout q.roots.workspace (q.run read).result.contentEntries
      (q.run read).result.javaSources.toList := by
  have same {a p} (source : (a, p) ∈ q.contentSources) :
      (q.roots.resolve a).Same (q.roots.workspace.file p) := by
    obtain ⟨⟨r, declared, mem⟩, reads, -⟩ := declared_of_mem_contentSources source
    exact Roots.resolve_same located (plain r declared a mem) reads
  have sources : (q.run read).result.javaSources = _ := javaSources_eq q
  rw [sources]
  apply contentLayout_ofFiles
  · intro f mem
    obtain ⟨a, source⟩ := exists_sourceFile_iff.1 ⟨f, mem, rfl⟩
    exact (declared_of_mem_contentSources source).2.2
  · intro s mem
    obtain ⟨⟨a, p⟩, source, rfl⟩ := List.mem_map.1 (SortedSet.mem_of_mem_toList_ofList mem)
    obtain ⟨f, mem, rfl⟩ := exists_sourceFile_iff.2 ⟨a, source⟩
    exact ⟨f, mem, same source⟩
  · intro f mem
    obtain ⟨a, source⟩ := exists_sourceFile_iff.1 ⟨f, mem, rfl⟩
    obtain ⟨s, mem, spelled⟩ := SortedSet.exists_mem_toList_ofList
      (List.mem_map_of_mem (f := fun s => q.roots.resolve s.1) source)
    exact ⟨s, mem, FilePath.Same.trans spelled (same source)⟩

/-- A rule with sources in `java` and below `java/com`. -/
def nestedRule : Rule :=
  { LoadCall.ruleA with
    sources := [.source "java/Other.java", .source "java/com/Main.java"]
    payload := some (.java JavaInfo.empty) }

/-- Of the two directories only the inner one is imported. -/
def nestedRequest : ImportRequest where
  rules := .ofRules [nestedRule]
  roots := LoadCall.bothRoots
  dependencies := SortedMap.empty
  workingSet := SortedMap.empty
  project := ⟨[⟨["java", "com"], by decide⟩], []⟩
  pruneUnused := false

theorem contentEntries_layout_nested :
    (nestedRequest.run fun _ => .ok []).result.javaSources.toList =
      [⟨"/w/java/Other.java"⟩, ⟨"/w/java/com/Main.java"⟩] ∧
    ContentLayout LoadCall.bothRoots.workspace
      (nestedRequest.run fun _ => .ok []).result.contentEntries
      (nestedRequest.run fun _ => .ok []).result.javaSources.toList := by
  refine ⟨by decide +kernel, ?_⟩
  exact contentEntries_layout nestedRequest _ (by decide) (by decide +kernel)

end ImportRequest

/-! ## Overlapping content roots -/

/-- No content root is at another one or above it. -/
def RootsApart (entries : List ContentEntry) : Prop :=
  entries.Pairwise fun a b => ¬ a.root.Encloses b.root ∧ ¬ b.root.Encloses a.root

instance (entries : List ContentEntry) : Decidable (RootsApart entries) :=
  inferInstanceAs (Decidable (List.Pairwise _ entries))

namespace ContentEntry

theorem rootsApart_iff_keys : RootsApart (ofFiles workspace project files) ↔
    ∀ c ∈ (table project.directories files).keys, ∀ c' ∈ (table project.directories files).keys,
      c.isAncestorOf c' = true → c = c' := by
  have roots : RootsApart (ofFiles workspace project files) ↔
      (table project.directories files).keys.Pairwise
        fun c c' => ¬ c.isAncestorOf c' = true ∧ ¬ c'.isAncestorOf c = true := by
    rw [RootsApart, ofFiles, SortedMap.keys, List.pairwise_map, List.pairwise_map]
    simp only [ofRoots, WorkspaceRoot.file_encloses_file_iff]
  rw [roots]
  constructor
  · intro apart c mem c' mem' above
    by_contra ne
    have : Std.Symm fun c c' : WorkspacePath =>
        ¬ c.isAncestorOf c' = true ∧ ¬ c'.isAncestorOf c = true :=
      ⟨fun _ _ h => h.symm⟩
    exact (apart.forall mem mem' ne).1 above
  · intro apart
    refine (table project.directories files).keys_pairwise.imp_of_mem ?_
    intro c c' mem mem' ne
    constructor
    · intro above
      simp [apart c mem c' mem' above] at ne
    · intro above
      simp [apart c' mem' c mem above] at ne

theorem rootsApart_ofFiles_iff : RootsApart (ofFiles workspace project files) ↔
    ∀ d k, Used project.directories files d →
      k ∈ (outsideRoots project.directories files).keys → ¬ k.isAncestorOf d = true := by
  rw [rootsApart_iff_keys]
  constructor
  · intro apart d k used root above
    obtain ⟨c, mem, above, ne⟩ := exists_overlap used root above
    exact ne (apart c mem d (mem_keys_table.2 (.inl used)) above)
  · intro apart c mem c' mem' above
    by_contra ne
    obtain ⟨root, used⟩ := overlap_cases mem mem' above ne
    exact apart c' c used root above

/-- An entry that encloses another one is for a root inferred outside of import directories, and
the other one for an import directory. -/
theorem exists_of_encloses {a b : ContentEntry} (mem : a ∈ ofFiles workspace project files)
    (mem' : b ∈ ofFiles workspace project files) (ne : a ≠ b) (encloses : a.root.Encloses b.root) :
    ∃ k d, a.root = workspace.file k ∧ b.root = workspace.file d ∧
      k ∈ (outsideRoots project.directories files).keys ∧ Used project.directories files d := by
  obtain ⟨c, roots, found, rfl⟩ := mem_ofFiles_iff.1 mem
  obtain ⟨c', roots', found', rfl⟩ := mem_ofFiles_iff.1 mem'
  have other : c ≠ c' := by
    rintro rfl
    obtain rfl := Option.some.inj (found.symm.trans found')
    exact ne rfl
  refine ⟨c, c', rfl, rfl, overlap_cases ?_ ?_ (WorkspaceRoot.file_encloses_file_iff.1 encloses)
    other⟩
  · exact SortedMap.mem_keys_iff_get?.2 ⟨roots, found⟩
  · exact SortedMap.mem_keys_iff_get?.2 ⟨roots', found'⟩

end ContentEntry

namespace ImportRequest

/-- The Java sources of content with the packages that manifests tell. -/
def contentFiles (q : ImportRequest) (read : PackageReader) : List SourceFile :=
  q.sourceFiles (q.packages read).1

/-- Content roots lie apart if and only if no root that is inferred for files outside of the import
directories is at or above an import directory with files. Roots of one kind never overlap, and no
root of an import directory encloses an inferred one. -/
theorem contentRoots_apart_iff (q : ImportRequest) (read : PackageReader) :
    (RootsApart (q.run read).result.contentEntries ↔
      ∀ d k, Used q.project.directories (q.contentFiles read) d →
        k ∈ (outsideRoots q.project.directories (q.contentFiles read)).keys →
        ¬ k.isAncestorOf d = true) ∧
    ∀ a ∈ (q.run read).result.contentEntries, ∀ b ∈ (q.run read).result.contentEntries,
      a ≠ b → a.root.Encloses b.root →
      ∃ k d, a.root = q.roots.workspace.file k ∧ b.root = q.roots.workspace.file d ∧
        k ∈ (outsideRoots q.project.directories (q.contentFiles read)).keys ∧
        Used q.project.directories (q.contentFiles read) d := by
  refine ⟨rootsApart_ofFiles_iff, ?_⟩
  intro a mem b mem' ne encloses
  exact exists_of_encloses mem mem' ne encloses

theorem contentRoots_overlap :
    ¬ RootsApart (nestedRequest.run fun _ => .ok []).result.contentEntries := by
  decide +kernel

end ImportRequest

end WorkspaceSync
