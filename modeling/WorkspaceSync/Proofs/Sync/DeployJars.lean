import WorkspaceSync.Proofs.Import.Libraries
import WorkspaceSync.Proofs.Sync.Exclusions

/-!
# Warnings of deploy jars

A sync warns of deploy jars among the libraries of its import, before patterns and augmenters choose
what is attached. `deploy_jars_warned` says which jars it warns of, and when these are the deploy
jars that are attached.
-/

namespace WorkspaceSync

/-! ## What the other phases report -/

theorem LoadCall.category_of_mem {c : LoadCall} {i : ManifestIndex} {d : Diagnostic}
    (mem : d ∈ (c.report i).diagnostics) : d.code.category ≠ .performance := by
  have unchecked {files : List FilePath} :
      d ∈ files.map ManifestIndex.uncheckedDiagnostic → d.code.category ≠ .performance := by
    intro listed
    obtain ⟨p, -, rfl⟩ := List.mem_map.1 listed
    exact nofun
  have problem {parsed : List ManifestIndex.Parsed} :
      d ∈ parsed.filterMap ManifestIndex.Parsed.diagnostic? → d.code.category ≠ .performance := by
    intro listed
    obtain ⟨⟨p, label, result⟩, -, reported⟩ := List.mem_filterMap.1 listed
    cases result with
    | ok m => cases reported
    | error e =>
      obtain rfl := Option.some.inj reported
      cases e <;> exact nofun
  revert mem
  unfold report ManifestIndex.load
  dsimp only
  split
  · exact nofun
  · split
    · exact unchecked
    · intro mem
      rcases List.mem_append.1 mem with listed | failed
      · exact unchecked listed
      · obtain rfl := List.mem_singleton.1 failed
        exact nofun
    · split
      · exact unchecked
      · intro mem
        rcases List.mem_append.1 mem with listed | last
        · exact (List.mem_append.1 listed).elim unchecked problem
        · obtain rfl := List.mem_singleton.1 last
          exact nofun

theorem ImportRequest.category_of_mem {q : ImportRequest} {read : PackageReader} {d : Diagnostic}
    (mem : d ∈ (q.run read).diagnostics) : d.code.category ≠ .performance := by
  rcases List.mem_append.1 mem with listed | conflict
  · rcases List.mem_append.1 listed with skipped | unreadable
    · rw [code_of_mem_skipped skipped]
      decide
    · rw [code_of_mem_unreadable unreadable]
      decide
  · rw [LibraryTable.code_of_mem_conflicts conflict]
    decide

/-! ## Deploy jars -/

/-- The path of the primary jar below its root. -/
def Library.jarPath (l : Library) : String := l.artifact.jar.relativePath

/-- A primary jar of the table has the path. -/
def LibraryTable.HasJar (t : LibraryTable) (path : String) : Prop :=
  ∃ l ∈ t.values, l.jarPath = path

namespace Engine

variable {e : Engine} {x : Exclusions} {r : ImportResult} {l : Library} {jar : String}

/-- A path with one of the endings of deploy jars. -/
def IsDeployJar (jar : String) : Prop :=
  ∃ ending ∈ deployJarEndings, ending.toList <:+ jar.toList

instance (jar : String) : Decidable (IsDeployJar jar) := List.decidableBEx _ _

/-- The paths of primary jars that are deploy jars. -/
def deployJarPaths (t : LibraryTable) : List String :=
  (t.values.map (·.jarPath)).filter (IsDeployJar ·)

theorem mem_deployJarPaths_iff {t : LibraryTable} :
    jar ∈ deployJarPaths t ↔ IsDeployJar jar ∧ t.HasJar jar := by
  rw [deployJarPaths, List.mem_filter, List.mem_map, decide_eq_true_iff, and_comm,
    LibraryTable.HasJar]

theorem deployJars_eq (t : LibraryTable) :
    deployJars t = (deployJarPaths t).map deployJarDiagnostic := by
  rw [deployJars, deployJarPaths, ← List.filterMap_eq_map (f := deployJarDiagnostic),
    List.filterMap_filter]
  apply List.filterMap_congr
  intro jar _
  have ends : (deployJarEndings.any fun ending => ending.toList.isSuffixOf jar.toList) = true ↔
      IsDeployJar jar := by
    simp [IsDeployJar]
  simp only [ends, decide_eq_true_iff]
  rfl

theorem code_deployJarDiagnostic (jar : String) : (deployJarDiagnostic jar).code = .deployJar := rfl

/-- A warning names its jar. -/
theorem deployJarDiagnostic_injective : Function.Injective deployJarDiagnostic := by
  intro jar jar' same
  have message : "deploy jar " ++ jar ++ " is attached as a library" =
      "deploy jar " ++ jar' ++ " is attached as a library" := congrArg Diagnostic.message same
  rwa [String.append_left_inj, String.append_right_inj] at message

theorem filter_remarks (e : Engine) (previous : SyncState) (r : ImportResult) :
    (e.remarks previous r).filter (·.code = .deployJar) = deployJars r.libraries := by
  have all : (deployJars r.libraries).filter (·.code = .deployJar) = deployJars r.libraries := by
    rw [deployJars_eq, List.filter_eq_self]
    intro d listed
    obtain ⟨jar, -, rfl⟩ := List.mem_map.1 listed
    exact decide_eq_true (code_deployJarDiagnostic jar)
  rw [remarks, List.filter_append, List.filter_append, all]
  split_ifs <;> rfl

/-! ## Imported and attached libraries -/

/-- A pattern or an augmenter keeps a library out. -/
def KeepsOut (e : Engine) (l : Library) : Prop :=
  e.Excludes (·.relativePath) l ∨ ∃ a ∈ e.augmenters, a.drops l = true

theorem attaches_iff : e.Attaches r (·.relativePath) l ↔
    Augmenter.offered? e.augmenters r l.key = some l ∧ ¬ e.KeepsOut l := by
  constructor
  · intro h
    refine ⟨h.offered, not_or.2 ⟨h.allowed, ?_⟩⟩
    rintro ⟨a, mem, drops⟩
    rw [h.kept a mem] at drops
    cases drops
  · rintro ⟨offered, out⟩
    rw [KeepsOut, not_or] at out
    exact ⟨offered, out.1, fun a mem => Bool.eq_false_iff.2 fun drops => out.2 ⟨a, mem, drops⟩⟩

section Attached

variable (configured : Exclusions.compile e.config.java.excludeLibrary = .ok e.exclusions)
  (compiled : Augmenter.exclusions e.augmenters e.exclusions = .ok x) (keyed : r.libraries.Keyed)

include configured compiled keyed

theorem mem_attached_iff : l ∈ (LibraryTable.attached e.augmenters x r).values ↔
    Augmenter.offered? e.augmenters r l.key = some l ∧ ¬ e.KeepsOut l := by
  rw [(LibraryTable.keyed_attached e.augmenters x keyed).mem_values_iff,
    get?_attached_iff configured compiled keyed, attaches_iff]

theorem mem_attached_iff_of_imported (imported : l ∈ r.libraries.values) :
    l ∈ (LibraryTable.attached e.augmenters x r).values ↔ ¬ e.KeepsOut l := by
  rw [mem_attached_iff configured compiled keyed, and_iff_right]
  rw [Augmenter.offered?, keyed.mem_values_iff.1 imported, Option.some_or]

/-- What is attached is imported, or its key is new. -/
theorem imported_or_new (attached : l ∈ (LibraryTable.attached e.augmenters x r).values) :
    l ∈ r.libraries.values ∨ r.libraries.get? l.key = none := by
  have offered := ((mem_attached_iff configured compiled keyed).1 attached).1
  rw [Augmenter.offered?] at offered
  cases found : r.libraries.get? l.key with
  | none => exact .inr rfl
  | some l' =>
    rw [found, Option.some_or] at offered
    rw [keyed.mem_values_iff, found]
    exact .inl offered

/-- The imported deploy jars are the attached ones unless the only libraries of a jar are kept out,
or the only ones are contributed. -/
theorem deployJarPaths_agree_iff :
    (∀ jar, jar ∈ deployJarPaths r.libraries ↔
      jar ∈ deployJarPaths (LibraryTable.attached e.augmenters x r)) ↔
    (∀ l ∈ r.libraries.values, IsDeployJar l.jarPath → e.KeepsOut l →
      (LibraryTable.attached e.augmenters x r).HasJar l.jarPath) ∧
    ∀ l ∈ (LibraryTable.attached e.augmenters x r).values, IsDeployJar l.jarPath →
      r.libraries.get? l.key = none → r.libraries.HasJar l.jarPath := by
  simp only [mem_deployJarPaths_iff, and_congr_right_iff]
  constructor
  · intro agree
    exact ⟨fun l imported deploy _ => (agree _ deploy).1 ⟨l, imported, rfl⟩,
      fun l attached deploy _ => (agree _ deploy).2 ⟨l, attached, rfl⟩⟩
  · rintro ⟨kept, contributed⟩ jar deploy
    constructor
    · rintro ⟨l, imported, rfl⟩
      by_cases out : e.KeepsOut l
      · exact kept l imported deploy out
      · exact ⟨l, (mem_attached_iff_of_imported configured compiled keyed imported).2 out, rfl⟩
    · rintro ⟨l, attached, rfl⟩
      rcases imported_or_new configured compiled keyed attached with imported | new
      · exact ⟨l, imported, rfl⟩
      · exact contributed l attached deploy new

end Attached

end Engine

namespace SyncCall

open Engine

variable {c : SyncCall} {st : SyncState} {o : SyncOutcome}

/-- The warnings of deploy jars are those of the imported libraries. -/
theorem deployJars_of_outcome (returned : (c.report st).outcome = .ok o) :
    (c.report st).diagnostics.filter (·.code = .deployJar) = deployJars
      (c.engine.importWorkspace c.request o.state.manifests
        (c.loaded st).files).result.libraries := by
  -- No other phase speaks of performance, so it is enough to look at categories.
  have silent {ds : List Diagnostic} (other : ∀ d ∈ ds, d.code.category ≠ .performance) :
      ds.filter (·.code = .deployJar) = [] := by
    rw [List.filter_eq_nil_iff]
    intro d mem deploy
    apply other d mem
    rw [of_decide_eq_true deploy]
    rfl
  have timed (phase : String) : ∀ d ∈ [timing phase 0], d.code.category ≠ .performance := by
    intro d mem
    obtain rfl := List.mem_singleton.1 mem
    exact nofun
  have loaded : ∀ d ∈ (c.loaded st).diagnostics, d.code.category ≠ .performance :=
    fun _ => LoadCall.category_of_mem
  have imported : ∀ d ∈ (c.engine.importWorkspace c.request o.state.manifests
      (c.loaded st).files).diagnostics, d.code.category ≠ .performance :=
    fun _ => ImportRequest.category_of_mem
  rw [diagnostics_of_outcome returned, ← List.singleton_append, List.filter_append,
    List.filter_append, List.filter_append, List.filter_append, filter_remarks, silent loaded,
    silent (timed _), silent imported, silent (timed _)]
  rfl

/-- A sync warns of the deploy jars of imported libraries, whether or not they are attached. These
are the deploy jars that are attached if and only if no jar is left without a library because what
was imported for it is kept out, and none has contributed libraries only. -/
theorem deploy_jars_warned (c : SyncCall) (st : SyncState) {o : SyncOutcome}
    (configured : Exclusions.compile c.engine.config.java.excludeLibrary = .ok c.engine.exclusions)
    (returned : (c.report st).outcome = .ok o) :
    ∃ m, o.state.java = some m ∧
      (c.report st).diagnostics.filter (·.code = .deployJar) =
        (deployJarPaths m.imported.libraries).map deployJarDiagnostic ∧
      (∀ jar, deployJarDiagnostic jar ∈ (c.report st).diagnostics ↔
        IsDeployJar jar ∧ m.imported.libraries.HasJar jar) ∧
      (∀ l ∈ m.imported.libraries.values,
        l ∈ m.attachedLibraries.values ↔ ¬ c.engine.KeepsOut l) ∧
      ((∀ jar, deployJarDiagnostic jar ∈ (c.report st).diagnostics ↔
          IsDeployJar jar ∧ m.attachedLibraries.HasJar jar) ↔
        (∀ l ∈ m.imported.libraries.values, IsDeployJar l.jarPath → c.engine.KeepsOut l →
          m.attachedLibraries.HasJar l.jarPath) ∧
        ∀ l ∈ m.attachedLibraries.values, IsDeployJar l.jarPath →
          m.imported.libraries.get? l.key = none → m.imported.libraries.HasJar l.jarPath) := by
  obtain ⟨-, index, x, -, compiled, rfl⟩ := outcome_eq_ok_iff.1 returned
  have keyed := ImportRequest.keyed_libraries
    (c.engine.importRequest c.request (index.or st.manifests))
    (c.engine.readPackages (c.loaded st).files)
  have warnings : (c.report st).diagnostics.filter (·.code = .deployJar) =
      (deployJarPaths (c.engine.importWorkspace c.request (index.or st.manifests)
        (c.loaded st).files).result.libraries).map deployJarDiagnostic :=
    (deployJars_of_outcome returned).trans (deployJars_eq _)
  have warned (jar : String) : deployJarDiagnostic jar ∈ (c.report st).diagnostics ↔
      jar ∈ deployJarPaths (c.engine.importWorkspace c.request (index.or st.manifests)
        (c.loaded st).files).result.libraries := by
    rw [← List.mem_map_of_injective deployJarDiagnostic_injective, ← warnings, List.mem_filter]
    exact (and_iff_left (decide_eq_true (code_deployJarDiagnostic jar))).symm
  refine ⟨_, rfl, warnings, fun jar => (warned jar).trans mem_deployJarPaths_iff,
    fun l => mem_attached_iff_of_imported configured compiled keyed, ?_⟩
  simp only [warned, ← mem_deployJarPaths_iff]
  exact deployJarPaths_agree_iff configured compiled keyed

/-! ## An SDK with a deploy jar -/

def appJar : ArtifactLocation := .source "app_deploy.jar"

def sdkJar : ArtifactLocation := .source "sdk_deploy.jar"

def deployRule : Rule :=
  { LoadCall.ruleA with payload := some (.java { JavaInfo.empty with jars := [.ofJar appJar] }) }

def appPattern : Glob := ⟨"app_deploy.jar", "app_deploy.jar".toList.map .char⟩

/-- A sync over one deploy jar, which may take the deploy jar of an SDK in its place. -/
def deploySync (replaced : Bool) : SyncCall where
  engine :=
    { config := { SyncConfig.default with
        java := { JavaSection.default with
          excludeLibrary := if replaced then [appPattern.source] else [] } }
      exclusions := ⟨if replaced then [appPattern] else []⟩
      augmenters :=
        if replaced then
          [{ Augmenter.inert with contribute := fun _ => [.ofArtifact (.ofJar sdkJar)] }]
        else []
      prefetch := .onDisk
      readPackages := PackageManifest.load }
  request := ⟨.ofRules [deployRule], LoadCall.bothRoots, none⟩
  files := .empty
  cancelled := .never
  keyed := RuleMap.keyed_ofRules _
  neverCleared := Cancellation.neverCleared_never

theorem configured_deploySync (replaced : Bool) :
    Exclusions.compile (deploySync replaced).engine.config.java.excludeLibrary =
      .ok (deploySync replaced).engine.exclusions := by
  cases replaced with
  | false => rfl
  | true =>
    have compiled : Glob.compile "app_deploy.jar" = .ok appPattern := by cbv
    have one : Exclusions.compileOne "app_deploy.jar" = .ok appPattern := by
      rw [Exclusions.compileOne, compiled]
      rfl
    change Except.map _ (List.mapM Exclusions.compileOne ["app_deploy.jar"]) = _
    rw [List.mapM_cons, one]
    rfl

theorem values_deploySync (replaced : Bool) :
    ∃ o m, ((deploySync replaced).report .empty).outcome = .ok o ∧ o.state.java = some m ∧
      m.imported.libraries.values = [.ofArtifact (.ofJar appJar)] ∧
      m.attachedLibraries.values =
        [.ofArtifact (.ofJar (if replaced then sdkJar else appJar))] := by
  have computed : ((deploySync replaced).report .empty).outcome.toOption.bind (fun o =>
      o.state.java.map fun m => (m.imported.libraries.values, m.attachedLibraries.values)) =
      some ([.ofArtifact (.ofJar appJar)],
        [.ofArtifact (.ofJar (if replaced then sdkJar else appJar))]) := by
    cases replaced <;> decide +kernel
  cases h : ((deploySync replaced).report .empty).outcome with
  | error e =>
    rw [h] at computed
    cases computed
  | ok o =>
    rw [h] at computed
    obtain ⟨m, java, values⟩ := Option.map_eq_some_iff.1 computed
    obtain ⟨imported, attached⟩ := Prod.mk.inj values
    exact ⟨o, m, rfl, java, imported, attached⟩

theorem app_jar_warned :
    ∃ o m, ((deploySync false).report .empty).outcome = .ok o ∧ o.state.java = some m ∧
      ∀ jar, deployJarDiagnostic jar ∈ ((deploySync false).report .empty).diagnostics ↔
        IsDeployJar jar ∧ m.attachedLibraries.HasJar jar := by
  obtain ⟨o, m, returned, java, imported, attached⟩ := values_deploySync false
  obtain ⟨m', java', -, -, -, agree⟩ :=
    deploy_jars_warned (deploySync false) .empty (configured_deploySync false) returned
  obtain rfl : m' = m := Option.some.inj (java'.symm.trans java)
  have same : m'.attachedLibraries.values = m'.imported.libraries.values :=
    attached.trans imported.symm
  refine ⟨o, m', returned, java, agree.2 ⟨fun l mem _ _ => ?_, fun l mem _ _ => ?_⟩⟩
  · exact ⟨l, same ▸ mem, rfl⟩
  · exact ⟨l, same ▸ mem, rfl⟩

/-- The excluded jar is warned of, and the one that is attached in its place is not. -/
theorem sdk_jar_not_warned :
    Exclusions.compile (deploySync true).engine.config.java.excludeLibrary =
      .ok (deploySync true).engine.exclusions ∧
    ∃ o m, ((deploySync true).report .empty).outcome = .ok o ∧ o.state.java = some m ∧
      deployJarDiagnostic "app_deploy.jar" ∈ ((deploySync true).report .empty).diagnostics ∧
      ¬ m.attachedLibraries.HasJar "app_deploy.jar" ∧
      deployJarDiagnostic "sdk_deploy.jar" ∉ ((deploySync true).report .empty).diagnostics ∧
      IsDeployJar "sdk_deploy.jar" ∧ m.attachedLibraries.HasJar "sdk_deploy.jar" := by
  obtain ⟨o, m, returned, java, -, attached⟩ := values_deploySync true
  refine ⟨configured_deploySync true, o, m, returned, java, by decide +kernel, ?_,
    by decide +kernel, by decide, ?_⟩
  · rintro ⟨l, mem, path⟩
    rw [attached, List.mem_singleton] at mem
    rw [mem] at path
    exact absurd path (by decide)
  · exact ⟨_, attached ▸ List.mem_singleton_self _, rfl⟩

end SyncCall

end WorkspaceSync
