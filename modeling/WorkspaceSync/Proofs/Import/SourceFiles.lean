import WorkspaceSync.Proofs.Import.ContentEntries

/-!
# One file by two ways

An import lists its Java sources as their locations resolve and makes folders of their workspace
paths. A location is cut at slashes only, a workspace path at backslashes as well. So the two ways
lead to one file just if there is no backslash, and a source with one is listed as a file that no
workspace path has.
-/

namespace WorkspaceSync

open FilePath (added steps)

variable {a : ArtifactLocation} {p : WorkspacePath}

theorem ArtifactLocation.workspacePath?_eq_some_iff : a.workspacePath? = some p ↔
    a.isSource = true ∧ a.isExternal = false ∧ WorkspacePath.parse a.relativePath = .ok p := by
  rw [workspacePath?, Option.ite_none_right_eq_some, Bool.and_eq_true, Bool.not_eq_true',
    toOption_eq_some_iff, and_assoc]

namespace Roots

variable {roots : Roots}

/-- Below the workspace root no file of a path has a backslash in its name. -/
theorem plain_of_resolve_same (located : roots.workspace.directory.text ≠ "")
    (source : a.isSource = true) (inside : a.isExternal = false)
    (same : (roots.resolve a).Same (roots.workspace.file p)) : '\\' ∉ a.relativePath.toList := by
  rw [resolve, if_pos source, if_neg (by simpa using inside), FilePath.same_iff,
    components_descend located, WorkspaceRoot.components_file, List.append_cancel_left_eq] at same
  intro backslash
  rcases FilePath.slash_or_mem_steps backslash with slash | ⟨s, step, mem⟩
  · cases slash
  · have other {t : String} (plain : '\\' ∉ t.toList) : s ≠ t := by
      rintro rfl
      exact plain mem
    have kept : .normal s ∈ added a.relativePath :=
      List.mem_map.2 ⟨s, List.mem_filter.2 ⟨step, decide_eq_true (other (by decide))⟩,
        if_neg (other (by decide))⟩
    rw [same] at kept
    obtain ⟨name, named, normal⟩ := List.mem_map.1 kept
    obtain rfl := FilePath.Component.normal.inj normal
    cases (p.valid name named).2.2.2 '\\' mem

theorem resolve_same_iff (located : roots.workspace.directory.text ≠ "")
    (read : a.workspacePath? = some p) :
    (roots.resolve a).Same (roots.workspace.file p) ↔ '\\' ∉ a.relativePath.toList := by
  obtain ⟨source, inside, -⟩ := ArtifactLocation.workspacePath?_eq_some_iff.1 read
  exact ⟨plain_of_resolve_same located source inside, fun plain => resolve_same located plain read⟩

end Roots

namespace ImportRequest

variable {q : ImportRequest} {read : PackageReader}

/-- All listed sources are files of workspace paths just if none is spelled with a backslash. -/
theorem javaSources_in_workspace_iff (located : q.roots.workspace.directory.text ≠ "") :
    (∀ s ∈ (q.run read).result.javaSources.toList, ∃ p, s.Same (q.roots.workspace.file p)) ↔
      ∀ a p, (a, p) ∈ q.contentSources → '\\' ∉ a.relativePath.toList := by
  have sources : (q.run read).result.javaSources = _ := javaSources_eq q
  rw [sources]
  constructor
  · intro inWorkspace a p source
    obtain ⟨s, listed, spelled⟩ := SortedSet.exists_mem_toList_ofList
      (List.mem_map_of_mem (f := fun s => q.roots.resolve s.1) source)
    obtain ⟨p', same⟩ := inWorkspace s listed
    obtain ⟨-, reads, -⟩ := declared_of_mem_contentSources source
    obtain ⟨isSource, inside, -⟩ := ArtifactLocation.workspacePath?_eq_some_iff.1 reads
    exact Roots.plain_of_resolve_same located isSource inside
      (FilePath.Same.trans (FilePath.Same.symm spelled) same)
  · intro plain s listed
    obtain ⟨⟨a, p⟩, source, rfl⟩ := List.mem_map.1 (SortedSet.mem_of_mem_toList_ofList listed)
    obtain ⟨-, reads, -⟩ := declared_of_mem_contentSources source
    exact ⟨p, (Roots.resolve_same_iff located reads).2 (plain a p source)⟩

/-- A folder encloses the listed file of a source just if it is above the source's path. -/
theorem folder_encloses_iff (located : q.roots.workspace.directory.text ≠ "")
    {d : WorkspacePath} (source : (a, p) ∈ q.contentSources)
    (plain : '\\' ∉ a.relativePath.toList) :
    (q.roots.workspace.file d).Encloses (q.roots.resolve a) ↔ d.isAncestorOf p = true := by
  obtain ⟨-, reads, -⟩ := declared_of_mem_contentSources source
  have same := (Roots.resolve_same_iff located reads).2 plain
  rw [← WorkspaceRoot.file_encloses_file_iff (w := q.roots.workspace)]
  exact ⟨fun h => h.of_same same, fun h => h.of_same same.symm⟩

end ImportRequest

/-- A source of the workspace resolves to the file of its workspace path just if it is spelled
without backslashes. So the Java sources that an import lists are files of workspace paths just if
all of them are spelled like that, and the folders of its entries are above the listed files of such
sources as they are above the sources' paths. -/
theorem Roots.resolves_to_file_iff (roots : Roots)
    (located : roots.workspace.directory.text ≠ "") :
    (∀ a p, a.isSource = true → a.isExternal = false →
      WorkspacePath.parse a.relativePath = .ok p →
      ((roots.resolve a).Same (roots.workspace.file p) ↔ '\\' ∉ a.relativePath.toList)) ∧
    ∀ (q : ImportRequest) (read : PackageReader), q.roots = roots →
      ((∀ s ∈ (q.run read).result.javaSources.toList, ∃ p, s.Same (roots.workspace.file p)) ↔
        ∀ a p, (a, p) ∈ q.contentSources → '\\' ∉ a.relativePath.toList) ∧
      ∀ e ∈ (q.run read).result.contentEntries, ∀ folder ∈ e.folders,
        ∃ d, folder.directory = roots.workspace.file d ∧
          ∀ a p, (a, p) ∈ q.contentSources → '\\' ∉ a.relativePath.toList →
            (folder.directory.Encloses (roots.resolve a) ↔ d.isAncestorOf p = true) := by
  constructor
  · intro a p source inside read
    exact resolve_same_iff located
      (ArtifactLocation.workspacePath?_eq_some_iff.2 ⟨source, inside, read⟩)
  · rintro q read rfl
    refine ⟨ImportRequest.javaSources_in_workspace_iff located, ?_⟩
    intro e entry folder mem
    obtain ⟨-, d, -, -, directory⟩ := ContentEntry.placed_of_mem entry mem
    refine ⟨d, directory, ?_⟩
    intro a p source plain
    rw [directory]
    exact ImportRequest.folder_encloses_iff located source plain

namespace ImportRequest

/-- The folders and listed files of a rule with two sources are those of their workspace paths. -/
theorem nested_sources_in_workspace :
    (∀ s ∈ (nestedRequest.run fun _ => .ok []).result.javaSources.toList,
      ∃ p, s.Same (LoadCall.bothRoots.workspace.file p)) ∧
    (LoadCall.bothRoots.resolve (.source "./java//com/Main.java")).Same
      (LoadCall.bothRoots.workspace.file ⟨["java", "com", "Main.java"], by decide⟩) := by
  obtain ⟨both, imports⟩ := Roots.resolves_to_file_iff LoadCall.bothRoots (by decide)
  obtain ⟨listed, -⟩ := imports nestedRequest (fun _ => .ok []) rfl
  refine ⟨listed.2 ?_, (both (.source "./java//com/Main.java") _ rfl (by decide) rfl).2 (by decide)⟩
  intro a p source
  obtain ⟨⟨r, declared, mem⟩, -⟩ := declared_of_mem_contentSources source
  have plain : ∀ r ∈ nestedRequest.rules.rules, ∀ a ∈ r.sources, '\\' ∉ a.relativePath.toList := by
    decide +kernel
  exact plain r declared a mem

/-- A valid location whose path is read as `java/Main.java`. -/
def backslashSource : ArtifactLocation := .source "java\\Main.java"

/-- A rule with that source, in a workspace that is edited as a whole. -/
def backslashRequest : ImportRequest :=
  { nestedRequest with
    rules := .ofRules [{ nestedRule with sources := [backslashSource] }]
    project := ⟨[.root], []⟩ }

theorem backslash_listed_apart :
    backslashSource.validate = .ok () ∧ backslashSource.isSource = true ∧
    backslashSource.isExternal = false ∧
    WorkspacePath.parse backslashSource.relativePath =
      .ok ⟨["java", "Main.java"], by decide⟩ ∧
    ¬ (LoadCall.bothRoots.resolve backslashSource).Same
      (LoadCall.bothRoots.workspace.file ⟨["java", "Main.java"], by decide⟩) ∧
    (backslashRequest.run fun _ => .ok []).result.javaSources.toList =
      [⟨"/w/java\\Main.java"⟩] ∧
    (backslashRequest.run fun _ => .ok []).result.contentEntries =
      [⟨⟨"/w"⟩, [⟨⟨"/w/java"⟩, "", false⟩], []⟩] := by
  refine ⟨by decide, rfl, by decide, rfl, by decide, by decide +kernel, by decide +kernel⟩

end ImportRequest

end WorkspaceSync
