import Mathlib.Data.List.Forall2
import WorkspaceSync.Proofs.Import.ContentEntries

/-!
# Directories in another order

The import directories of a project count as a set: files belong to the outermost one around them,
wherever it is listed. Of the excluded directories each entry keeps those at or below its root, as
they are listed and not sorted. So listing directories in another order changes nothing but the
order of excludes.
-/

namespace WorkspaceSync

open ContentEntry

/-- The same directories, listed in another order. -/
structure ProjectSection.Relists (a b : ProjectSection) : Prop where
  directories : a.directories.Perm b.directories
  excludeDirectories : a.excludeDirectories.Perm b.excludeDirectories

theorem ProjectSection.includes_congr {a b : ProjectSection} (relists : a.Relists b)
    (p : WorkspacePath) : a.includes p = b.includes p := by
  have any {l l' : List WorkspacePath} (perm : l.Perm l') :
      l.any (·.isAncestorOf p) = l'.any (·.isAncestorOf p) := by
    rw [Bool.eq_iff_iff, List.any_eq_true, List.any_eq_true]
    exact exists_congr fun d => and_congr_left' perm.mem_iff
  rw [includes, includes, any relists.directories, any relists.excludeDirectories]

namespace ContentEntry

variable {directories directories' : List WorkspacePath} {p d : WorkspacePath}
  {workspace : WorkspaceRoot} {project project' : ProjectSection} {files : List SourceFile}
  {e : ContentEntry}

/-! ## Import directories as a set -/

theorem importDirectory?_eq_some_iff : importDirectory? directories p = some d ↔
    (d ∈ directories ∧ d.isAncestorOf p = true) ∧
      ∀ d' ∈ directories, d'.isAncestorOf p = true → d.isAncestorOf d' = true := by
  constructor
  · intro imported
    exact ⟨(importDirectory?_eq_some imported).1, fun _ => importDirectory?_isAncestorOf imported⟩
  · rintro ⟨⟨mem, above⟩, outermost⟩
    cases imported : importDirectory? directories p with
    | none => exact absurd above (importDirectory?_eq_none_iff.1 imported d mem)
    | some b =>
      obtain ⟨⟨mem', above'⟩, -⟩ := importDirectory?_eq_some imported
      rw [WorkspacePath.isAncestorOf_antisymm (importDirectory?_isAncestorOf imported mem above)
        (outermost b mem' above')]

theorem importDirectory?_congr (same : ∀ d, d ∈ directories ↔ d ∈ directories')
    (p : WorkspacePath) : importDirectory? directories p = importDirectory? directories' p := by
  apply Option.ext
  intro d
  rw [importDirectory?_eq_some_iff, importDirectory?_eq_some_iff]
  simp only [same]

theorem table_congr (same : ∀ d, d ∈ directories ↔ d ∈ directories') (files : List SourceFile) :
    table directories files = table directories' files := by
  have import_eq : importDirectory? directories = importDirectory? directories' :=
    funext (importDirectory?_congr same)
  unfold table byDirectory
  rw [import_eq]

/-! ## Excludes as they are listed -/

/-- The excluded directories at or below a directory, in the order of the project. -/
def excludesBelow (workspace : WorkspaceRoot) (project : ProjectSection) (root : FilePath) :
    List FilePath :=
  (project.excludeDirectories.map workspace.file).filter fun x => root.Encloses x

/-- Files in their order, where one may be there twice. -/
def InOrder (paths : List FilePath) : Prop := paths.Pairwise fun x y => compare x y ≠ .gt

instance (paths : List FilePath) : Decidable (InOrder paths) :=
  inferInstanceAs (Decidable (List.Pairwise _ paths))

theorem excludes_ofRoots (workspace : WorkspaceRoot) (project : ProjectSection)
    (c : WorkspacePath) (roots : SourceRoots) :
    (ofRoots workspace project.excludeDirectories c roots).excludes =
      excludesBelow workspace project (workspace.file c) := by
  rw [ofRoots, excludesBelow, List.filter_map]
  apply congrArg (List.map workspace.file)
  apply List.filter_congr
  intro x _
  rw [Function.comp_apply, Bool.eq_iff_iff, decide_eq_true_iff,
    WorkspaceRoot.file_encloses_file_iff]

theorem excludes_of_mem (mem : e ∈ ofFiles workspace project files) :
    e.excludes = excludesBelow workspace project e.root := by
  obtain ⟨c, roots, -, rfl⟩ := mem_ofFiles_iff.1 mem
  exact excludes_ofRoots workspace project c roots

/-- All excludes are in order just if each two directories that are excluded from one entry are
listed in order. -/
theorem excludes_inOrder_iff : (∀ e ∈ ofFiles workspace project files, InOrder e.excludes) ↔
    project.excludeDirectories.Pairwise fun x y => ∀ e ∈ ofFiles workspace project files,
      e.root.Encloses (workspace.file x) → e.root.Encloses (workspace.file y) →
        compare (workspace.file x) (workspace.file y) ≠ .gt := by
  have inOrder (e) (mem : e ∈ ofFiles workspace project files) : InOrder e.excludes ↔
      project.excludeDirectories.Pairwise fun x y =>
        e.root.Encloses (workspace.file x) → e.root.Encloses (workspace.file y) →
          compare (workspace.file x) (workspace.file y) ≠ .gt := by
    rw [excludes_of_mem mem, excludesBelow, InOrder, List.pairwise_filter, List.pairwise_map]
    simp only [decide_eq_true_eq]
  rw [List.pairwise_iff_forall_sublist]
  constructor
  · intro all x y listed e mem
    exact List.pairwise_iff_forall_sublist.1 ((inOrder e mem).1 (all e mem)) listed
  · intro pairs e mem
    exact (inOrder e mem).2 (List.pairwise_iff_forall_sublist.2 fun listed => pairs listed e mem)

/-- Two entries that may differ in the order of their excludes. -/
structure Relisted (e e' : ContentEntry) : Prop where
  root : e'.root = e.root
  folders : e'.folders = e.folders
  excludes : e'.excludes.Perm e.excludes

theorem relisted_ofFiles (relists : project.Relists project') :
    List.Forall₂ Relisted (ofFiles workspace project files) (ofFiles workspace project' files) := by
  unfold ofFiles
  rw [table_congr (fun _ => relists.directories.mem_iff), List.forall₂_map_left_iff,
    List.forall₂_map_right_iff, List.forall₂_same]
  rintro ⟨c, roots⟩ -
  exact ⟨rfl, rfl, ((relists.excludeDirectories.filter _).map _).symm⟩

theorem ofFiles_eq_iff (relists : project.Relists project') :
    ofFiles workspace project' files = ofFiles workspace project files ↔
      ∀ e ∈ ofFiles workspace project files,
        excludesBelow workspace project' e.root = excludesBelow workspace project e.root := by
  constructor
  · intro same e mem
    rw [← excludes_of_mem mem]
    rw [← same] at mem
    exact (excludes_of_mem mem).symm
  · intro same
    rw [ofFiles, ofFiles, ← table_congr fun _ => relists.directories.mem_iff]
    apply List.map_congr_left
    rintro ⟨c, roots⟩ mem
    have excludes := same _ (mem_ofFiles_iff.2 ⟨c, roots, SortedMap.get?_of_mem mem, rfl⟩)
    apply congrArg (ContentEntry.mk _ _)
    exact (excludes_ofRoots workspace project' c roots).trans
      (excludes.trans (excludes_ofRoots workspace project c roots).symm)

end ContentEntry

namespace ImportRequest

variable {q : ImportRequest} {project : ProjectSection}

/-- The same request with another project section. -/
def relisting (q : ImportRequest) (project : ProjectSection) : ImportRequest := { q with project }

theorem targets_relisting (relists : q.project.Relists project) :
    (q.relisting project).targets = q.targets := by
  have includes : project.includes = q.project.includes :=
    funext fun p => (ProjectSection.includes_congr relists p).symm
  unfold targets JavaTarget.ofRule? JavaTarget.isEdited relisting
  rw [includes]

/-- Only the layout of content entries looks at the order of directories. -/
theorem run_relisting (relists : q.project.Relists project) (read : PackageReader) :
    (q.relisting project).run read =
      { q.run read with
        result := { (q.run read).result with
          contentEntries :=
            ofFiles q.roots.workspace project (q.contentFiles read) } } := by
  have targets := targets_relisting relists
  unfold run outputJars javaSources sourceVersion keptCandidates candidates skipped contentFiles
    sourceFiles packages packageManifests content
  rw [targets]
  rfl

/-- Where the directories of a project are listed in another order, an import reports the same and
its entries differ in the order of their excludes only. Each entry has exactly the excluded
directories at or below its root, as the project lists them: so import directories may be listed in
any order, the results are equal just if the excludes of each entry are listed in one order, and
excludes are in order just if the project lists those of each entry in order. -/
theorem run_of_relisted (q : ImportRequest) (project : ProjectSection)
    (relists : q.project.Relists project) (read : PackageReader) :
    (q.relisting project).run read =
      { q.run read with
        result := { (q.run read).result with
          contentEntries := ((q.relisting project).run read).result.contentEntries } } ∧
    List.Forall₂ Relisted (q.run read).result.contentEntries
      ((q.relisting project).run read).result.contentEntries ∧
    (∀ e ∈ (q.run read).result.contentEntries,
      e.excludes = excludesBelow q.roots.workspace q.project e.root) ∧
    (project.excludeDirectories = q.project.excludeDirectories →
      (q.relisting project).run read = q.run read) ∧
    (((q.relisting project).run read).result = (q.run read).result ↔
      ∀ e ∈ (q.run read).result.contentEntries,
        excludesBelow q.roots.workspace project e.root =
          excludesBelow q.roots.workspace q.project e.root) ∧
    ((∀ e ∈ (q.run read).result.contentEntries, InOrder e.excludes) ↔
      q.project.excludeDirectories.Pairwise fun x y =>
        ∀ e ∈ (q.run read).result.contentEntries,
          e.root.Encloses (q.roots.workspace.file x) →
          e.root.Encloses (q.roots.workspace.file y) →
            compare (q.roots.workspace.file x) (q.roots.workspace.file y) ≠ .gt) := by
  have entries : (q.run read).result.contentEntries =
      ofFiles q.roots.workspace q.project (q.contentFiles read) := rfl
  rw [run_relisting relists, entries]
  refine ⟨rfl, relisted_ofFiles relists, fun _ => excludes_of_mem, ?directories, ?results,
    excludes_inOrder_iff⟩
  case directories =>
    intro same
    have listed : ofFiles q.roots.workspace project (q.contentFiles read) =
        ofFiles q.roots.workspace q.project (q.contentFiles read) := by
      apply (ofFiles_eq_iff relists).2
      intro e _
      rw [excludesBelow, excludesBelow, same]
    rw [listed]
    rfl
  case results =>
    rw [← ofFiles_eq_iff relists]
    constructor
    · intro same
      exact congrArg ImportResult.contentEntries same
    · intro same
      rw [same]
      rfl

/-- A directory without sources. -/
def libDirectory : WorkspacePath := ⟨["lib"], by decide⟩

def generatedDirectory : WorkspacePath := ⟨["java", "gen"], by decide⟩

def outputDirectory : WorkspacePath := ⟨["java", "out"], by decide⟩

/-- A request with two import directories, of which one has sources, and some excluded ones. -/
def excludingRequest (excluded : List WorkspacePath) : ImportRequest :=
  { nestedRequest with
    project := ⟨libDirectory :: nestedRequest.project.directories, excluded⟩ }

/-- One of the excluded directories is below no entry, so both lists may be turned around. -/
theorem run_of_relisted_backwards :
    (((excludingRequest [libDirectory, outputDirectory]).relisting
      ⟨(excludingRequest []).project.directories.reverse, [outputDirectory, libDirectory]⟩).run
        fun _ => .ok []).result =
      ((excludingRequest [libDirectory, outputDirectory]).run fun _ => .ok []).result := by
  have relists : (excludingRequest [libDirectory, outputDirectory]).project.Relists
      ⟨(excludingRequest []).project.directories.reverse, [outputDirectory, libDirectory]⟩ :=
    ⟨(List.reverse_perm _).symm, .swap _ _ _⟩
  obtain ⟨-, -, -, -, equal, -⟩ := run_of_relisted _ _ relists fun _ => .ok []
  exact equal.2 (by decide +kernel)

theorem excludes_as_listed :
    (excludingRequest [outputDirectory, generatedDirectory]).project.Relists
      (excludingRequest [generatedDirectory, outputDirectory]).project ∧
    ((excludingRequest [outputDirectory, generatedDirectory]).run fun _ => .ok []).result ≠
      ((excludingRequest [generatedDirectory, outputDirectory]).run fun _ => .ok []).result ∧
    ¬ ∀ e ∈ ((excludingRequest [outputDirectory, generatedDirectory]).run
      fun _ => .ok []).result.contentEntries, InOrder e.excludes := by
  refine ⟨⟨.refl _, .swap _ _ _⟩, ?_, ?_⟩ <;> decide +kernel

end ImportRequest

end WorkspaceSync
