import WorkspaceSync.Proofs.Label
import WorkspaceSync.Proofs.ManifestIndex.Outcomes
import WorkspaceSync.Proofs.Sync.Attachment

/-!
# What pruning keeps

A library stays if content made it, depends on it or names it. Which jars a manifest may name it by
is left open in `Uses`: pruning takes the class jars, but leaves out one that is the source jar too.
Where a rule declares one location as both, a library that content names is dropped.
-/

namespace WorkspaceSync

namespace LibraryTable

theorem mem_keys_ofCandidates_iff {candidates : List LibraryCandidate} {k : LibraryKey} :
    k ∈ (ofCandidates candidates).1.keys ↔ ∃ c ∈ candidates, c.library.key = k := by
  simp only [ofCandidates, SortedMap.keys_map, foldl_addCandidate_fst,
    SortedMap.mem_keys_ofListFirst, List.mem_map]
  constructor
  · rintro ⟨_, ⟨c, mem, rfl⟩, same⟩
    exact ⟨c, mem, same⟩
  · rintro ⟨c, mem, same⟩
    exact ⟨_, ⟨c, mem, rfl⟩, same⟩

end LibraryTable

/-- The class jars that are not the source jar as well. -/
def LibraryArtifact.pureClassJars (a : LibraryArtifact) : List ArtifactLocation :=
  a.classJars.filter fun x => some x ≠ a.sourceJar

theorem LibraryArtifact.pureClassJars_eq {a : LibraryArtifact}
    (apart : ∀ jar ∈ a.classJars, some jar ≠ a.sourceJar) : a.pureClassJars = a.classJars :=
  List.filter_eq_self.2 fun jar mem => decide_eq_true (apart jar mem)

theorem LibraryCandidate.usePaths_eq (c : LibraryCandidate) :
    c.usePaths = c.artifact.pureClassJars.map (·.executionPath) := by
  have split : c.artifact.locations = c.artifact.classJars ++ c.artifact.sourceJar.toList := rfl
  have none_left : c.artifact.sourceJar.toList.filter (fun x => some x ≠ c.artifact.sourceJar) =
      [] := by
    cases c.artifact.sourceJar <;> simp
  rw [usePaths, split, List.filter_append, none_left, List.append_nil]
  rfl

theorem LibraryCandidate.mem_ofTarget_iff {t : JavaTarget} {c : LibraryCandidate} :
    c ∈ ofTarget t ↔ c.label = t.label ∧ c.prunable = !t.isContent ∧
      (c.artifact ∈ t.java.generatedJars ∨ c.artifact ∈ t.java.jars ∧ t.isContent = false) := by
  have mem_map_iff {jars : List LibraryArtifact} {p : Bool} :
      c ∈ jars.map (⟨t.label, ·, p⟩) ↔ c.label = t.label ∧ c.prunable = p ∧ c.artifact ∈ jars := by
    rw [List.mem_map]
    constructor
    · rintro ⟨a, mem, rfl⟩
      exact ⟨rfl, rfl, mem⟩
    · rintro ⟨label, rfl, mem⟩
      exact ⟨c.artifact, mem, label ▸ rfl⟩
  rw [ofTarget, List.mem_append, mem_map_iff]
  cases t.isContent with
  | true => simp
  | false =>
    simp only [Bool.false_eq_true, if_false, mem_map_iff, Bool.not_false, and_true]
    rw [← and_or_left, ← and_or_left, or_comm]

theorem LibraryUse.keeps_ofContent_iff {dependencies : DependencyTable}
    {content : List JavaTarget} {c : LibraryCandidate} :
    (ofContent dependencies content).keeps c = true ↔
      c.prunable = false ∨
      (∃ t ∈ content, dependencies.get? t.label = none ∧ c.label ∈ t.rule.dependencies) ∨
      ∃ t ∈ content, ∃ paths, dependencies.get? t.label = some paths ∧
        ∃ jar ∈ c.artifact.pureClassJars, jar.executionPath ∈ paths := by
  simp only [keeps, ofContent, LibraryCandidate.usePaths_eq, Bool.or_eq_true,
    Bool.not_eq_true', List.any_eq_true, List.mem_map, SortedSet.contains_ofList_iff,
    List.mem_flatMap, or_assoc]
  refine or_congr_right (or_congr ?_ ?_)
  · refine exists_congr fun t => and_congr_right fun _ => ?_
    rw [SortedMap.contains_eq_isSome]
    cases dependencies.get? t.label <;> simp
  · constructor
    · rintro ⟨_, ⟨jar, mem, rfl⟩, t, isContent, named⟩
      cases known : dependencies.get? t.label with
      | none => simp [known] at named
      | some paths => exact ⟨t, isContent, paths, known, jar, mem, by simpa [known] using named⟩
    · rintro ⟨t, isContent, paths, known, jar, mem, named⟩
      exact ⟨_, ⟨jar, mem, rfl⟩, t, isContent, by simpa [known] using named⟩

namespace ImportRequest

variable {q : ImportRequest} {r : Rule}

/-- A rule that is imported as content: a valid Java rule that someone edits a source of. -/
structure IsContent (q : ImportRequest) (r : Rule) : Prop where
  declared : r ∈ q.rules.rules
  valid : r.isValid = true
  java : r.java?.isSome = true
  edited : JavaTarget.isEdited q.workingSet q.project r = true

/-- The libraries of a rule: the jars of a valid Java rule that is no content, and the generated
jars of any valid Java rule. -/
structure Offers (q : ImportRequest) (r : Rule) (a : LibraryArtifact) : Prop where
  declared : r ∈ q.rules.rules
  valid : r.isValid = true
  java : ∃ j, r.java? = some j ∧ (a ∈ j.generatedJars ∨ a ∈ j.jars ∧ ¬ q.IsContent r)

/-- Content uses a library of a rule that manifests may name by certain jars. -/
inductive Uses (q : ImportRequest) (r : Rule) (jars : List ArtifactLocation) : Prop where
  | own (content : q.IsContent r) : Uses q r jars
  | direct {s : Rule} (content : q.IsContent s) (unknown : q.dependencies.get? s.label = none)
      (depends : r.label ∈ s.dependencies) : Uses q r jars
  | named {s : Rule} {paths : List String} {jar : ArtifactLocation} (content : q.IsContent s)
      (known : q.dependencies.get? s.label = some paths) (mem : jar ∈ jars)
      (names : jar.executionPath ∈ paths) : Uses q r jars

theorem mem_targets_iff {t : JavaTarget} : t ∈ q.targets ↔
    t.rule ∈ q.rules.rules ∧ t.rule.isValid = true ∧ t.rule.java? = some t.java ∧
      t.isContent = JavaTarget.isEdited q.workingSet q.project t.rule := by
  obtain ⟨rule, java, isContent⟩ := t
  simp only [targets, JavaTarget.ofRule?, List.mem_filterMap, Option.ite_none_right_eq_some,
    Option.map_eq_some_iff]
  constructor
  · rintro ⟨r, declared, valid, j, known, same⟩
    obtain ⟨rfl, rfl, rfl⟩ := JavaTarget.mk.inj same
    exact ⟨declared, valid, known, rfl⟩
  · rintro ⟨declared, valid, known, rfl⟩
    exact ⟨rule, declared, valid, java, known, rfl⟩

/-- The rules of content targets are the content rules. -/
theorem exists_mem_content_iff {P : Rule → Prop} :
    (∃ t ∈ q.content, P t.rule) ↔ ∃ r, q.IsContent r ∧ P r := by
  simp only [content, List.mem_filter, mem_targets_iff]
  constructor
  · rintro ⟨t, ⟨⟨declared, valid, known, edited⟩, isContent⟩, holds⟩
    exact ⟨t.rule, ⟨declared, valid, by rw [known]; rfl, edited ▸ isContent⟩, holds⟩
  · rintro ⟨r, ⟨declared, valid, java, edited⟩, holds⟩
    obtain ⟨j, known⟩ := Option.isSome_iff_exists.1 java
    exact ⟨⟨r, j, true⟩, ⟨⟨declared, valid, known, edited.symm⟩, rfl⟩, holds⟩

theorem isContent_iff {t : JavaTarget} (h : t ∈ q.targets) :
    t.isContent = true ↔ q.IsContent t.rule := by
  obtain ⟨declared, valid, known, edited⟩ := mem_targets_iff.1 h
  constructor
  · intro isContent
    exact ⟨declared, valid, by rw [known]; rfl, edited ▸ isContent⟩
  · intro isContent
    exact edited.trans isContent.edited

theorem mem_candidates_iff {c : LibraryCandidate} : c ∈ q.candidates ↔
    ∃ r, q.Offers r c.artifact ∧ c.label = r.label ∧ (c.prunable = false ↔ q.IsContent r) := by
  simp only [candidates, List.mem_flatMap, LibraryCandidate.mem_ofTarget_iff]
  constructor
  · rintro ⟨t, ht, label, prunable, made⟩
    obtain ⟨declared, valid, known, -⟩ := mem_targets_iff.1 ht
    refine ⟨t.rule, ⟨declared, valid, t.java, known, ?_⟩, label, ?_⟩
    · rwa [← isContent_iff ht, Bool.not_eq_true]
    · rw [prunable, Bool.not_eq_false', isContent_iff ht]
  · rintro ⟨r, ⟨declared, valid, j, known, made⟩, label, prunable⟩
    have ht : ⟨r, j, JavaTarget.isEdited q.workingSet q.project r⟩ ∈ q.targets :=
      mem_targets_iff.2 ⟨declared, valid, known, rfl⟩
    refine ⟨_, ht, label, ?_, ?_⟩
    · rw [← isContent_iff ht] at prunable
      cases h : c.prunable <;> simp_all
    · rwa [← isContent_iff ht, Bool.not_eq_true] at made

/-- A candidate that is kept is one that content uses. -/
theorem keeps_iff {c : LibraryCandidate} (label : c.label = r.label)
    (prunable : c.prunable = false ↔ q.IsContent r) :
    (LibraryUse.ofContent q.dependencies q.content).keeps c = true ↔
      q.Uses r c.artifact.pureClassJars := by
  have depends_iff : (∃ t ∈ q.content, q.dependencies.get? t.label = none ∧
      r.label ∈ t.rule.dependencies) ↔ _ :=
    exists_mem_content_iff (P := fun s => q.dependencies.get? s.label = none ∧
      r.label ∈ s.dependencies)
  have names_iff : (∃ t ∈ q.content, ∃ paths, q.dependencies.get? t.label = some paths ∧
      ∃ jar ∈ c.artifact.pureClassJars, jar.executionPath ∈ paths) ↔ _ :=
    exists_mem_content_iff (P := fun s => ∃ paths, q.dependencies.get? s.label = some paths ∧
      ∃ jar ∈ c.artifact.pureClassJars, jar.executionPath ∈ paths)
  rw [LibraryUse.keeps_ofContent_iff, prunable, label, depends_iff, names_iff]
  constructor
  · rintro (content | ⟨s, content, unknown, depends⟩ | ⟨s, content, paths, known, jar, mem, names⟩)
    · exact .own content
    · exact .direct content unknown depends
    · exact .named content known mem names
  · intro uses
    cases uses with
    | own content => exact .inl content
    | direct content unknown depends => exact .inr (.inl ⟨_, content, unknown, depends⟩)
    | named content known mem names =>
      exact .inr (.inr ⟨_, content, _, known, _, mem, names⟩)

theorem known_iff : (LibraryUse.ofContent q.dependencies q.content).known = true ↔
    ∃ r, q.IsContent r ∧ q.dependencies.get? r.label ≠ none := by
  rw [← exists_mem_content_iff]
  simp only [LibraryUse.ofContent, List.any_eq_true, SortedMap.contains_eq_isSome,
    Option.isSome_iff_ne_none]
  rfl

theorem libraries_of_unknown (asked : q.pruneUnused = true) {read : PackageReader}
    (unknown : ∀ r, q.IsContent r → q.dependencies.get? r.label = none) :
    (q.run read).result.libraries =
      (ImportRequest.run { q with pruneUnused := false } read).result.libraries := by
  have kept : q.keptCandidates = q.candidates := by
    rw [keptCandidates, if_pos asked, LibraryUse.prune, if_neg]
    intro known
    obtain ⟨r, content, told⟩ := known_iff.1 known
    exact told (unknown r content)
  change (LibraryTable.ofCandidates q.keptCandidates).1 = _
  rw [kept]
  rfl

theorem mem_keys_pruned_iff (asked : q.pruneUnused = true) {read : PackageReader}
    (known : ∃ r, q.IsContent r ∧ q.dependencies.get? r.label ≠ none) {k : LibraryKey} :
    k ∈ (q.run read).result.libraries.keys ↔
      ∃ r a, q.Offers r a ∧ .ofJar a.jar = k ∧ q.Uses r a.pureClassJars := by
  have kept : q.keptCandidates =
      q.candidates.filter (LibraryUse.ofContent q.dependencies q.content).keeps := by
    rw [keptCandidates, if_pos asked, LibraryUse.prune, if_pos (known_iff.2 known)]
  have libraries : (q.run read).result.libraries =
      (LibraryTable.ofCandidates q.keptCandidates).1 := rfl
  simp only [libraries, kept, LibraryTable.mem_keys_ofCandidates_iff, List.mem_filter]
  constructor
  · rintro ⟨c, ⟨candidate, keeps⟩, rfl⟩
    obtain ⟨r, offers, label, prunable⟩ := mem_candidates_iff.1 candidate
    exact ⟨r, c.artifact, offers, rfl, (keeps_iff label prunable).1 keeps⟩
  · rintro ⟨r, a, offers, rfl, uses⟩
    obtain ⟨prunable, prunable_iff⟩ : ∃ prunable : Bool, prunable = false ↔ q.IsContent r := by
      by_cases content : q.IsContent r
      · exact ⟨false, by simp [content]⟩
      · exact ⟨true, by simp [content]⟩
    exact ⟨⟨r.label, a, prunable⟩, ⟨mem_candidates_iff.2 ⟨r, offers, rfl, prunable_iff⟩,
      (keeps_iff rfl prunable_iff).2 uses⟩, rfl⟩

/-- The libraries that stay are those that content uses, where anything is known of use. Manifests
name them by their class jars, but for one that a rule declares as its source jar as well; where
none is, all class jars count. -/
theorem pruned_libraries (q : ImportRequest) (read : PackageReader)
    (asked : q.pruneUnused = true) :
    ((∀ r, q.IsContent r → q.dependencies.get? r.label = none) →
      (q.run read).result.libraries =
        (ImportRequest.run { q with pruneUnused := false } read).result.libraries) ∧
    ((∃ r, q.IsContent r ∧ q.dependencies.get? r.label ≠ none) →
      (∀ k, k ∈ (q.run read).result.libraries.keys ↔
        ∃ r a, q.Offers r a ∧ .ofJar a.jar = k ∧ q.Uses r a.pureClassJars) ∧
      ((∀ r a, q.Offers r a → ∀ jar ∈ a.classJars, some jar ≠ a.sourceJar) →
        ∀ k, k ∈ (q.run read).result.libraries.keys ↔
          ∃ r a, q.Offers r a ∧ .ofJar a.jar = k ∧ q.Uses r a.classJars)) := by
  refine ⟨libraries_of_unknown asked, ?_⟩
  intro known
  refine ⟨fun k => mem_keys_pruned_iff asked known, ?_⟩
  intro apart k
  rw [mem_keys_pruned_iff asked known]
  refine exists_congr fun r => exists_congr fun a => and_congr_right fun offers => ?_
  rw [LibraryArtifact.pureClassJars_eq (apart r a offers)]

/-! ## A library that content names by its primary jar -/

def namedJar : ArtifactLocation := .generated "bin" "lib.jar"

/-- A rule that offers the jar, which holds the sources as well or not. -/
def offeringRule (withSources : Bool) : Rule :=
  { LoadCall.ruleA with
    payload := some (.java { JavaInfo.empty with
      jars := [⟨namedJar, none, if withSources then some namedJar else none⟩] }) }

def editedRule : Rule :=
  { LoadCall.ruleB with
    sources := [.source "app/App.java"]
    payload := some (.java JavaInfo.empty) }

/-- The workspace is edited as a whole, and the manifest of what is in it names the jar. -/
def namingRequest (withSources : Bool) : ImportRequest where
  rules := .ofRules [offeringRule withSources, editedRule]
  roots := LoadCall.bothRoots
  dependencies := SortedMap.empty.insert editedRule.label ["bin/lib.jar"]
  workingSet := SortedMap.empty
  project := ⟨[.root], []⟩
  pruneUnused := true

theorem editedRule_isContent (withSources : Bool) :
    (namingRequest withSources).IsContent editedRule where
  declared := by cases withSources <;> decide +kernel
  valid := by decide +kernel
  java := rfl
  edited := by cases withSources <;> decide +kernel

theorem get?_editedRule (withSources : Bool) :
    (namingRequest withSources).dependencies.get? editedRule.label = some ["bin/lib.jar"] :=
  SortedMap.get?_insert_self _ _ _

theorem offers_namedJar (withSources : Bool) :
    (namingRequest withSources).Offers (offeringRule withSources)
      ⟨namedJar, none, if withSources then some namedJar else none⟩ where
  declared := by cases withSources <;> decide +kernel
  valid := by cases withSources <;> decide +kernel
  java := by
    refine ⟨_, rfl, .inr ⟨by simp, ?_⟩⟩
    intro content
    have edited := content.edited
    simp [JavaTarget.isEdited, offeringRule, LoadCall.ruleA, LoadCall.ruleNamed] at edited

theorem uses_namedJar (withSources : Bool) :
    (namingRequest withSources).Uses (offeringRule withSources) [namedJar] :=
  .named (editedRule_isContent withSources) (get?_editedRule withSources)
    (List.mem_singleton_self _) (by decide +kernel)

theorem named_library_kept : LibraryKey.ofJar namedJar ∈
    ((namingRequest false).run fun _ => .ok []).result.libraries.keys := by
  have known : ∃ r, (namingRequest false).IsContent r ∧
      (namingRequest false).dependencies.get? r.label ≠ none :=
    ⟨editedRule, editedRule_isContent false, by simp [get?_editedRule]⟩
  obtain ⟨-, pruned⟩ := pruned_libraries (namingRequest false) (fun _ => .ok []) rfl
  exact ((pruned known).1 _).2 ⟨_, _, offers_namedJar false, rfl, uses_namedJar false⟩

theorem named_library_dropped :
    (∃ r, (namingRequest true).IsContent r ∧
      (namingRequest true).dependencies.get? r.label ≠ none) ∧
    ¬ ∀ k, k ∈ ((namingRequest true).run fun _ => .ok []).result.libraries.keys ↔
      ∃ r a, (namingRequest true).Offers r a ∧ .ofJar a.jar = k ∧
        (namingRequest true).Uses r a.classJars := by
  refine ⟨⟨editedRule, editedRule_isContent true, by simp [get?_editedRule]⟩, ?_⟩
  intro documented
  have dropped : LibraryKey.ofJar namedJar ∉
      ((namingRequest true).run fun _ => .ok []).result.libraries.keys := by
    decide +kernel
  exact dropped ((documented _).2 ⟨_, _, offers_namedJar true, rfl, uses_namedJar true⟩)

end ImportRequest

end WorkspaceSync
