import Mathlib.Data.List.Flatten
import WorkspaceSync.Proofs.Import.Libraries

/-!
# More edited files

Where more files are edited, more targets become content. Their own jars are no libraries any more
and their sources are edited from then on, but nothing changes in what the build makes of them.
-/

namespace WorkspaceSync

theorem ProjectSection.includes_mono {project : ProjectSection} {directories : List WorkspacePath}
    {p : WorkspacePath} (more : project.directories ⊆ directories)
    (includes : project.includes p = true) :
    ProjectSection.includes { project with directories } p = true := by
  unfold ProjectSection.includes at includes ⊢
  rw [Bool.and_eq_true, List.any_eq_true] at includes ⊢
  obtain ⟨⟨d, mem, above⟩, allowed⟩ := includes
  exact ⟨⟨d, more mem, above⟩, allowed⟩

namespace ImportRequest

variable {q : ImportRequest} {workingSet : SortedSet WorkspacePath}
  {directories : List WorkspacePath} {r : Rule}

/-- The same request with another working set and other import directories. -/
def editing (q : ImportRequest) (workingSet : SortedSet WorkspacePath)
    (directories : List WorkspacePath) : ImportRequest :=
  { q with workingSet, project := { q.project with directories } }

/-- Nothing that a request has edited is left out. -/
structure MoreEdited (q : ImportRequest) (workingSet : SortedSet WorkspacePath)
    (directories : List WorkspacePath) : Prop where
  files : ∀ p, SortedMap.contains q.workingSet p = true → SortedMap.contains workingSet p = true
  directories : q.project.directories ⊆ directories

/-! ## Targets -/

theorem MoreEdited.isEdited (more : q.MoreEdited workingSet directories)
    (edited : JavaTarget.isEdited q.workingSet q.project r = true) :
    JavaTarget.isEdited (q.editing workingSet directories).workingSet
      (q.editing workingSet directories).project r = true := by
  unfold JavaTarget.isEdited at edited ⊢
  rw [List.any_eq_true] at edited ⊢
  obtain ⟨p, source, edited⟩ := edited
  refine ⟨p, source, ?_⟩
  rw [Bool.or_eq_true] at edited ⊢
  exact edited.imp (more.files p) (ProjectSection.includes_mono more.directories)

theorem MoreEdited.content_subset (more : q.MoreEdited workingSet directories) :
    q.content ⊆ (q.editing workingSet directories).content := by
  intro t mem
  obtain ⟨target, content⟩ := List.mem_filter.1 mem
  obtain ⟨declared, valid, java, edited⟩ := mem_targets_iff.1 target
  have edited' := more.isEdited (edited ▸ content)
  exact List.mem_filter.2
    ⟨mem_targets_iff.2 ⟨declared, valid, java, content.trans edited'.symm⟩, content⟩

/-- A target that becomes content lists its generated jars only, and all others list the same. -/
theorem MoreEdited.listedBy_sublist (more : q.MoreEdited workingSet directories) (r : Rule) :
    ((q.editing workingSet directories).listedBy r).Sublist (q.listedBy r) := by
  unfold listedBy
  cases r.isValid with
  | false => apply List.Sublist.refl
  | true =>
    cases r.java? with
    | none => apply List.Sublist.refl
    | some j =>
      apply List.Sublist.append_right
      by_cases edited : JavaTarget.isEdited q.workingSet q.project r = true
      · rw [if_pos edited, if_pos (more.isEdited edited)]
      · rw [if_neg edited]
        split_ifs
        · apply List.nil_sublist
        · apply List.Sublist.refl

theorem MoreEdited.listed_sublist (more : q.MoreEdited workingSet directories) :
    (q.editing workingSet directories).listed.Sublist q.listed :=
  List.Sublist.flatMap_right _ fun r _ => more.listedBy_sublist r

theorem java_targets (q : ImportRequest) : q.targets.map (·.java) =
    q.rules.rules.filterMap fun r => if r.isValid then r.java? else none := by
  rw [targets, List.map_filterMap]
  apply List.filterMap_congr
  intro r _
  unfold JavaTarget.ofRule?
  cases r.isValid with
  | false => rfl
  | true => simp [Function.comp_def]

/-! ## What is imported of them -/

/-- The jars of the build do not depend on what is edited. -/
theorem outputJars_editing (q : ImportRequest) (workingSet : SortedSet WorkspacePath)
    (directories : List WorkspacePath) :
    (q.editing workingSet directories).outputJars = q.outputJars := by
  have java (q : ImportRequest) : q.outputJars = .ofList ((q.targets.map (·.java)).flatMap fun j =>
      j.allJars.flatMap fun a => a.classJars.map q.roots.resolve) := by
    rw [List.flatMap_map]
    rfl
  rw [java, java, java_targets, java_targets]
  rfl

theorem MoreEdited.contains_javaSources (more : q.MoreEdited workingSet directories)
    {p : FilePath} (source : SortedMap.contains q.javaSources p = true) :
    SortedMap.contains (q.editing workingSet directories).javaSources p = true := by
  rw [javaSources, SortedSet.contains_ofList] at source ⊢
  obtain ⟨b, mem, same⟩ := source
  obtain ⟨t, content, mem⟩ := List.mem_flatMap.1 mem
  exact ⟨b, List.mem_flatMap.2 ⟨t, more.content_subset content, mem⟩, same⟩

theorem MoreEdited.mem_keys (more : q.MoreEdited workingSet directories)
    (unpruned : q.pruneUnused = false) {read : PackageReader} {k : LibraryKey}
    (mem : k ∈ ((q.editing workingSet directories).run read).result.libraries.keys) :
    k ∈ (q.run read).result.libraries.keys := by
  have unpruned' : (q.editing workingSet directories).pruneUnused = false := unpruned
  rw [mem_keys_of_unpruned unpruned'] at mem
  rw [mem_keys_of_unpruned unpruned]
  obtain ⟨a, listed, key⟩ := mem
  exact ⟨a, more.listed_sublist.subset listed, key⟩

/-- Where more is edited, the jars of the build stay the same, no Java source is lost and no
library comes to be. -/
theorem libraries_become_content (q : ImportRequest) (workingSet : SortedSet WorkspacePath)
    (directories : List WorkspacePath) (read : PackageReader) (unpruned : q.pruneUnused = false)
    (more : q.MoreEdited workingSet directories) :
    ((q.editing workingSet directories).run read).result.outputJars =
      (q.run read).result.outputJars ∧
    (∀ p, SortedMap.contains (q.run read).result.javaSources p = true →
      SortedMap.contains ((q.editing workingSet directories).run read).result.javaSources p = true) ∧
    ((q.editing workingSet directories).run read).result.libraries.keys ⊆
      (q.run read).result.libraries.keys := by
  refine ⟨outputJars_editing q workingSet directories, ?_, ?_⟩
  · intro p source
    exact more.contains_javaSources source
  · intro k mem
    exact more.mem_keys unpruned mem

/-- A rule with a source and a jar. -/
def unopenedRule : Rule :=
  { LoadCall.ruleA with
    sources := [.source "app/App.java"]
    payload := some (.java { JavaInfo.empty with jars := [.ofJar namedJar] }) }

/-- Nothing is edited, so the rule is a library. -/
def unopenedRequest : ImportRequest where
  rules := .ofRules [unopenedRule]
  roots := LoadCall.bothRoots
  dependencies := SortedMap.empty
  workingSet := SortedMap.empty
  project := ⟨[], []⟩
  pruneUnused := false

def openedFiles : SortedSet WorkspacePath := .ofList [⟨["app", "App.java"], by decide⟩]

theorem library_becomes_content :
    (unopenedRequest.run fun _ => .ok []).result.libraries.keys = [.ofJar namedJar] ∧
    ((unopenedRequest.editing openedFiles []).run fun _ => .ok []).result.libraries.keys = [] ∧
    ((unopenedRequest.editing openedFiles []).run fun _ => .ok []).result.outputJars =
      (unopenedRequest.run fun _ => .ok []).result.outputJars := by
  have more : unopenedRequest.MoreEdited openedFiles [] := ⟨nofun, List.Subset.refl []⟩
  obtain ⟨outputJars, -, -⟩ :=
    libraries_become_content unopenedRequest openedFiles [] (fun _ => .ok []) rfl more
  exact ⟨by decide +kernel, by decide +kernel, outputJars⟩

end ImportRequest

end WorkspaceSync
