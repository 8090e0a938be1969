import WorkspaceSync.Proofs.Except
import WorkspaceSync.Proofs.Label
import WorkspaceSync.Proofs.ManifestIndex.Outcomes
import WorkspaceSync.Proofs.Sync.Replay

/-!
# Which libraries are attached

A library of an import, or the first contributed one where the import has none of its key, is
attached unless a pattern or an augmenter keeps it out. Patterns are written for the paths of jars
relative to the execution root, but a sync matches them against the paths below the output root.
`attached_exactly` says what that makes of the attached libraries; for jars without an output root
both are the same.
-/

namespace WorkspaceSync

/-- A pattern compiles, and matches a path. -/
def Glob.Matches (pattern path : String) : Prop :=
  ∃ g, Glob.compile pattern = .ok g ∧ g.isMatch path = true

namespace Exclusions

theorem matches_iff_of_compileOne {pattern path : String} {g : Glob}
    (h : compileOne pattern = .ok g) : Glob.Matches pattern path ↔ g.isMatch path = true := by
  rw [Glob.Matches, mapError_eq_ok_iff.1 h]
  constructor
  · rintro ⟨g', same, isMatch⟩
    rwa [Except.ok.inj same]
  · intro isMatch
    exact ⟨g, rfl, isMatch⟩

theorem isMatch_of_mapM {patterns : List String} {globs : List Glob}
    (h : patterns.mapM compileOne = .ok globs) (path : String) :
    (⟨globs⟩ : Exclusions).isMatch path = true ↔ ∃ p ∈ patterns, Glob.Matches p path := by
  induction patterns generalizing globs with
  | nil =>
    obtain rfl := Except.ok.inj h
    simp [isMatch]
  | cons p patterns ih =>
    rw [List.mapM_cons] at h
    obtain ⟨g, first, h⟩ := bind_eq_ok_iff.1 h
    obtain ⟨gs, rest, h⟩ := bind_eq_ok_iff.1 h
    obtain rfl := Except.ok.inj h
    simp only [List.mem_cons, exists_eq_or_imp, ← ih rest, matches_iff_of_compileOne first]
    rw [isMatch, List.any_cons, Bool.or_eq_true]
    rfl

theorem isMatch_of_compile {patterns : List String} {x : Exclusions}
    (h : compile patterns = .ok x) (path : String) :
    x.isMatch path = true ↔ ∃ p ∈ patterns, Glob.Matches p path := by
  obtain ⟨globs, compiled, rfl⟩ := map_eq_ok_iff.1 h
  exact isMatch_of_mapM compiled path

end Exclusions

namespace Augmenter

theorem isMatch_of_exclusions {augmenters : List Augmenter} {base x : Exclusions}
    (h : exclusions augmenters base = .ok x) (path : String) :
    x.isMatch path = true ↔ base.isMatch path = true ∨
      ∃ p ∈ augmenters.flatMap (·.globs), Glob.Matches p path := by
  induction augmenters generalizing base with
  | nil =>
    obtain rfl := Except.ok.inj h
    simp
  | cons a augmenters ih =>
    rw [exclusions, List.foldlM_cons] at h
    obtain ⟨_, extended, h⟩ := bind_eq_ok_iff.1 h
    obtain ⟨y, compiled, rfl⟩ := map_eq_ok_iff.1 extended
    rw [ih h, Exclusions.isMatch_extend, Bool.or_eq_true, Exclusions.isMatch_of_compile compiled,
      or_assoc, List.flatMap_cons]
    simp only [List.mem_append, or_and_right, exists_or]

/-- The library of a key before any is left out: the imported one, or else the first contributed
one. -/
def offered? (augmenters : List Augmenter) (r : ImportResult) (k : LibraryKey) : Option Library :=
  (r.libraries.get? k).or ((augmenters.flatMap fun a => a.contribute r).find? fun l => l.key = k)

theorem get?_contributed (augmenters : List Augmenter) (r : ImportResult) (k : LibraryKey) :
    (contributed augmenters r).get? k = offered? augmenters r k := by
  have folded : contributed augmenters r =
      ((augmenters.flatMap fun a => a.contribute r).map fun l => (l.key, l)).foldl
        (fun t e => t.insertIfNew e.1 e.2) r.libraries := by
    rw [List.foldl_map]
    rfl
  have sameKey : (fun l : Library => compare l.key k == .eq) = fun l => decide (l.key = k) := by
    funext l
    rw [Bool.eq_iff_iff, beq_iff_eq, decide_eq_true_iff, Std.LawfulEqOrd.compare_eq_iff_eq]
  rw [folded, SortedMap.get?, SortedMap.entryAt?_foldl_insertIfNew, List.find?_map, Option.map_or,
    Option.map_map, offered?, ← sameKey]
  exact congrArg _ Option.map_id'

end Augmenter

namespace Engine

def patterns (e : Engine) : List String :=
  e.config.java.excludeLibrary ++ e.augmenters.flatMap (·.globs)

/-- A pattern matches a class jar of a library by the path that `path` takes of it. -/
def Excludes (e : Engine) (path : ArtifactLocation → String) (l : Library) : Prop :=
  ∃ jar ∈ l.artifact.classJars, ∃ p ∈ e.patterns, Glob.Matches p (path jar)

structure Attaches (e : Engine) (r : ImportResult) (path : ArtifactLocation → String)
    (l : Library) : Prop where
  offered : Augmenter.offered? e.augmenters r l.key = some l
  allowed : ¬ e.Excludes path l
  kept : ∀ a ∈ e.augmenters, a.drops l = false

theorem isMatch_iff {e : Engine} {x : Exclusions}
    (configured : Exclusions.compile e.config.java.excludeLibrary = .ok e.exclusions)
    (h : Augmenter.exclusions e.augmenters e.exclusions = .ok x) (path : String) :
    x.isMatch path = true ↔ ∃ p ∈ e.patterns, Glob.Matches p path := by
  rw [Augmenter.isMatch_of_exclusions h, Exclusions.isMatch_of_compile configured, patterns]
  simp only [List.mem_append, or_and_right, exists_or]

theorem get?_attached_iff {e : Engine} {x : Exclusions} {r : ImportResult} {l : Library}
    (configured : Exclusions.compile e.config.java.excludeLibrary = .ok e.exclusions)
    (h : Augmenter.exclusions e.augmenters e.exclusions = .ok x) (keyed : r.libraries.Keyed) :
    (LibraryTable.attached e.augmenters x r).get? l.key = some l ↔
      e.Attaches r (·.relativePath) l := by
  have excludes : x.excludes l = true ↔ e.Excludes (·.relativePath) l := by
    simp only [Exclusions.excludes, List.any_eq_true, isMatch_iff configured h, Excludes]
  rw [← (LibraryTable.keyed_attached e.augmenters x keyed).mem_values_iff, LibraryTable.attached,
    (LibraryTable.keyed_contributed e.augmenters keyed).mem_values_filter_iff,
    Augmenter.get?_contributed, Bool.and_eq_true, Bool.not_eq_true', Bool.not_eq_true',
    ← Bool.not_eq_true, excludes, List.any_eq_false]
  constructor
  · rintro ⟨offered, allowed, kept⟩
    exact ⟨offered, allowed, fun a ha => by simpa using kept a ha⟩
  · rintro ⟨offered, allowed, kept⟩
    exact ⟨offered, allowed, fun a ha => by simpa using kept a ha⟩

theorem attaches_congr {e : Engine} {r : ImportResult} {l : Library}
    {path path' : ArtifactLocation → String}
    (same : ∀ jar ∈ l.artifact.classJars, path jar = path' jar) :
    e.Attaches r path l ↔ e.Attaches r path' l := by
  have excludes : e.Excludes path l ↔ e.Excludes path' l := by
    refine exists_congr fun jar => and_congr_right fun mem => ?_
    rw [same jar mem]
  constructor
  · rintro ⟨offered, allowed, kept⟩
    exact ⟨offered, mt excludes.2 allowed, kept⟩
  · rintro ⟨offered, allowed, kept⟩
    exact ⟨offered, mt excludes.1 allowed, kept⟩

end Engine

namespace SyncCall

/-- Attached are the libraries that are offered and that nothing keeps out, each under its own key.
Patterns are matched against the paths of class jars below the output root, which are the paths
relative to the execution root where the output root is that one. -/
theorem attached_exactly (c : SyncCall) (st : SyncState) {o : SyncOutcome}
    (configured : Exclusions.compile c.engine.config.java.excludeLibrary = .ok c.engine.exclusions)
    (returned : (c.report st).outcome = .ok o) :
    ∃ m, o.state.java = some m ∧
      m.imported =
        (c.engine.importWorkspace c.request o.state.manifests (c.loaded st).files).result ∧
      m.attachedLibraries.Keyed ∧
      (∀ l, m.attachedLibraries.get? l.key = some l ↔
        c.engine.Attaches m.imported (·.relativePath) l) ∧
      ∀ l, (∀ jar ∈ l.artifact.classJars, jar.rootFragment = "") →
        (m.attachedLibraries.get? l.key = some l ↔
          c.engine.Attaches m.imported (·.executionPath) l) := by
  obtain ⟨-, index, x, -, compiled, rfl⟩ := outcome_eq_ok_iff.1 returned
  have attached (l : Library) := Engine.get?_attached_iff (l := l) configured compiled
    (ImportRequest.keyed_libraries (c.engine.importRequest c.request (index.or st.manifests))
      (c.engine.readPackages (c.loaded st).files))
  refine ⟨_, rfl, rfl, keyed_attached_conclusion c st index x, attached, ?_⟩
  intro l below
  refine (attached l).trans (Engine.attaches_congr ?_)
  intro jar mem
  rw [ArtifactLocation.executionPath, ArtifactLocation.joinFragments, if_pos (below jar mem)]

/-! ## A pattern for the jars of a directory -/

/-- A jar at `bin/lib.jar`, which is there in the workspace or which the build makes there. -/
def binJar (generated : Bool) : ArtifactLocation :=
  if generated then .generated "bin" "lib.jar" else .source "bin/lib.jar"

def binLibrary (generated : Bool) : Library := .ofArtifact (.ofJar (binJar generated))

def jarRule (generated : Bool) : Rule :=
  { LoadCall.ruleA with
    payload := some (.java { JavaInfo.empty with jars := [.ofJar (binJar generated)] }) }

def binJars : Glob :=
  ⟨"bin/*.jar", "bin/".toList.map .char ++ .sequence :: ".jar".toList.map .char⟩

/-- A sync that is to leave out the jars of `bin`, one of which is a library. -/
def excludingSync (generated : Bool) : SyncCall where
  engine :=
    { config := { SyncConfig.default with
        java := { JavaSection.default with excludeLibrary := [binJars.source] } }
      exclusions := ⟨[binJars]⟩
      augmenters := []
      prefetch := .onDisk
      readPackages := PackageManifest.load }
  request := ⟨.ofRules [jarRule generated], LoadCall.bothRoots, none⟩
  files := .empty
  cancelled := .never
  keyed := RuleMap.keyed_ofRules _
  neverCleared := Cancellation.neverCleared_never

theorem compile_binJars : Glob.compile binJars.source = .ok binJars := by cbv

theorem configured_excludingSync (generated : Bool) :
    Exclusions.compile (excludingSync generated).engine.config.java.excludeLibrary =
      .ok (excludingSync generated).engine.exclusions := by
  have one : Exclusions.compileOne binJars.source = .ok binJars := by
    rw [Exclusions.compileOne, compile_binJars]
    rfl
  change Except.map _ (List.mapM Exclusions.compileOne [binJars.source]) = _
  rw [List.mapM_cons, one]
  rfl

theorem excludes_binLibrary (generated : Bool) :
    (excludingSync generated).engine.Excludes (·.executionPath) (binLibrary generated) := by
  refine ⟨binJar generated, List.mem_cons_self, binJars.source, List.mem_cons_self, binJars,
    compile_binJars, ?_⟩
  cases generated <;> decide +kernel

theorem java_excludingSync (generated : Bool) :
    ∃ o m, ((excludingSync generated).report .empty).outcome = .ok o ∧ o.state.java = some m := by
  cases h : ((excludingSync generated).report .empty).outcome with
  | error e =>
    have succeeds : ((excludingSync generated).report .empty).outcome.toOption.isSome = true := by
      cases generated <;> decide +kernel
    rw [h] at succeeds
    cases succeeds
  | ok o =>
    obtain ⟨-, index, x, -, -, rfl⟩ := outcome_eq_ok_iff.1 h
    exact ⟨_, _, rfl, rfl⟩

theorem source_library_left_out :
    ∃ o m, ((excludingSync false).report .empty).outcome = .ok o ∧ o.state.java = some m ∧
      m.attachedLibraries.get? (binLibrary false).key ≠ some (binLibrary false) := by
  obtain ⟨o, m, returned, java⟩ := java_excludingSync false
  obtain ⟨m', java', -, -, -, documented⟩ :=
    attached_exactly (excludingSync false) .empty (configured_excludingSync false) returned
  obtain rfl : m' = m := Option.some.inj (java'.symm.trans java)
  refine ⟨o, m', returned, java, ?_⟩
  rw [Ne, documented (binLibrary false) (by decide)]
  intro attaches
  exact attaches.allowed (excludes_binLibrary false)

theorem generated_library_attached :
    ∃ o m, ((excludingSync true).report .empty).outcome = .ok o ∧ o.state.java = some m ∧
      ¬ ∀ l, m.attachedLibraries.get? l.key = some l ↔
        (excludingSync true).engine.Attaches m.imported (·.executionPath) l := by
  obtain ⟨o, m, returned, java⟩ := java_excludingSync true
  have attached : ((excludingSync true).report .empty).outcome.toOption.map (fun o =>
      o.state.java.map (·.attachedLibraries.get? (binLibrary true).key)) =
      some (some (some (binLibrary true))) := by decide +kernel
  rw [returned, Except.toOption, Option.map_some, java] at attached
  refine ⟨o, m, returned, java, ?_⟩
  intro documented
  have attaches := (documented (binLibrary true)).1 (by simpa using attached)
  exact attaches.allowed (excludes_binLibrary true)

end SyncCall

end WorkspaceSync
