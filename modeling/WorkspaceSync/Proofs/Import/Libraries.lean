import WorkspaceSync.Proofs.Import.Deduplication
import WorkspaceSync.Proofs.RuleMap

/-!
# Libraries in the order of labels

Without pruning the libraries are known from what the rules list. Of all that is listed for one key
the first has its library, and what is listed with other jars later on is reported.
-/

namespace WorkspaceSync

namespace LibraryTable

variable {candidates : List LibraryCandidate} {c : LibraryCandidate}

/-- A candidate is reported where the artifact that is kept for its key is not its own. -/
theorem isSome_conflict?_iff (mem : c ∈ candidates) : (conflict? candidates c).isSome = true ↔
    (first? candidates c.library.key).map (·.artifact) ≠ some c.artifact := by
  obtain ⟨f, found⟩ := exists_first? mem
  simp [conflict?, found]

theorem length_conflicts (candidates : List LibraryCandidate) :
    (ofCandidates candidates).2.length = candidates.countP fun c =>
      (first? candidates c.library.key).map (·.artifact) ≠ some c.artifact := by
  rw [conflicts_ofCandidates, List.length_filterMap_eq_countP]
  apply List.countP_congr
  intro c mem
  rw [isSome_conflict?_iff mem, decide_eq_true_iff]

theorem code_of_mem_conflicts {d : Diagnostic} (mem : d ∈ (ofCandidates candidates).2) :
    d.code = .libraryConflict := by
  rw [conflicts_ofCandidates, List.mem_filterMap] at mem
  obtain ⟨c, -, reported⟩ := mem
  obtain ⟨first, -, reported⟩ := Option.bind_eq_some_iff.1 reported
  split_ifs at reported
  obtain rfl := Option.some.inj reported
  rfl

end LibraryTable

theorem LibraryCandidate.artifacts_ofTarget (t : JavaTarget) :
    (ofTarget t).map (·.artifact) =
      (if t.isContent then [] else t.java.jars) ++ t.java.generatedJars := by
  cases content : t.isContent <;> simp [ofTarget, content, Function.comp_def]

namespace ImportRequest

open LibraryTable

variable {q : ImportRequest} {k : LibraryKey}

/-- What a rule lists as libraries: its jars if it is no content, and its generated jars. Only
valid Java rules list any. -/
def listedBy (q : ImportRequest) (r : Rule) : List LibraryArtifact :=
  match r.isValid, r.java? with
  | true, some j =>
    (if JavaTarget.isEdited q.workingSet q.project r then [] else j.jars) ++ j.generatedJars
  | _, _ => []

/-- What all rules list, in their order. -/
def listed (q : ImportRequest) : List LibraryArtifact := q.rules.rules.flatMap q.listedBy

theorem artifacts_candidates (q : ImportRequest) :
    q.candidates.map (·.artifact) = q.listed := by
  rw [candidates, targets, List.filterMap_eq_flatMap_toList, List.flatMap_assoc, List.map_flatMap,
    listed]
  apply List.flatMap_congr
  intro r _
  unfold listedBy JavaTarget.ofRule?
  cases r.isValid with
  | false => rfl
  | true =>
    cases r.java? with
    | none => rfl
    | some j => simp [LibraryCandidate.artifacts_ofTarget]

theorem first?_candidates (q : ImportRequest) (k : LibraryKey) :
    (first? q.candidates k).map (·.artifact) = q.listed.find? fun a => .ofJar a.jar = k := by
  rw [← artifacts_candidates, List.find?_map]
  rfl

theorem keptCandidates_of_unpruned (unpruned : q.pruneUnused = false) :
    q.keptCandidates = q.candidates := by
  rw [keptCandidates, unpruned]
  rfl

theorem libraries_of_unpruned (unpruned : q.pruneUnused = false) (read : PackageReader) :
    (q.run read).result.libraries = (ofCandidates q.candidates).1 := by
  rw [← keptCandidates_of_unpruned unpruned]
  rfl

theorem mem_keys_of_unpruned (unpruned : q.pruneUnused = false) (read : PackageReader) :
    k ∈ (q.run read).result.libraries.keys ↔ ∃ a ∈ q.listed, .ofJar a.jar = k := by
  rw [libraries_of_unpruned unpruned, mem_keys_ofCandidates_iff, ← artifacts_candidates]
  simp only [List.mem_map, exists_exists_and_eq_and]
  rfl

theorem get?_of_unpruned (unpruned : q.pruneUnused = false) (read : PackageReader)
    (k : LibraryKey) : (q.run read).result.libraries.get? k =
      (q.listed.find? fun a => .ofJar a.jar = k).map .ofArtifact := by
  rw [libraries_of_unpruned unpruned, get?_ofCandidates, ← first?_candidates, Option.map_map]
  rfl

theorem code_of_mem_skipped {d : Diagnostic} (mem : d ∈ q.skipped) : d.code = .ruleSkipped := by
  obtain ⟨r, -, reported⟩ := List.mem_filterMap.1 mem
  split at reported
  · obtain rfl := Option.some.inj reported
    rfl
  · cases reported

theorem code_of_mem_unreadable {read : PackageReader} {d : Diagnostic}
    (mem : d ∈ (q.packages read).2) : d.code = .packageManifestUnreadable := by
  obtain ⟨⟨label, p, result⟩, -, reported⟩ := List.mem_filterMap.1 mem
  cases result with
  | ok sources => cases reported
  | error e =>
    obtain rfl := Option.some.inj reported
    rfl

/-- Without pruning the reported conflicts are those of all candidates. -/
theorem countP_libraryConflict (unpruned : q.pruneUnused = false) (read : PackageReader) :
    (q.run read).diagnostics.countP (·.code = .libraryConflict) =
      (ofCandidates q.candidates).2.length := by
  have diagnostics : (q.run read).diagnostics =
      q.skipped ++ (q.packages read).2 ++ (ofCandidates q.candidates).2 := by
    rw [← keptCandidates_of_unpruned unpruned]
    rfl
  have skipped : q.skipped.countP (·.code = .libraryConflict) = 0 := by
    rw [List.countP_eq_zero]
    intro d mem
    rw [code_of_mem_skipped mem]
    decide
  have unreadable : (q.packages read).2.countP (·.code = .libraryConflict) = 0 := by
    rw [List.countP_eq_zero]
    intro d mem
    rw [code_of_mem_unreadable mem]
    decide
  rw [diagnostics, List.countP_append, List.countP_append, skipped, unreadable, Nat.zero_add,
    List.countP_eq_length]
  intro d mem
  exact decide_eq_true (code_of_mem_conflicts mem)

/-- Without pruning the keys of libraries are those of what the rules list in the order of their
labels, and each has the library of what is listed first for it. What is listed with other jars for
a key counts as a conflict. The order in which rules are added makes no difference. -/
theorem libraries_first_listed (q : ImportRequest) (read : PackageReader)
    (unpruned : q.pruneUnused = false) :
    (q.rules.Keyed → q.rules.rules.Pairwise fun r s => compare r.label s.label = .lt) ∧
    (∀ k, k ∈ (q.run read).result.libraries.keys ↔ ∃ a ∈ q.listed, .ofJar a.jar = k) ∧
    (∀ k, (q.run read).result.libraries.get? k =
      (q.listed.find? fun a => .ofJar a.jar = k).map .ofArtifact) ∧
    (∀ k l, (q.run read).result.libraries.get? k = some l →
      k = l.key ∧ l.key = .ofJar l.artifact.jar) ∧
    (q.run read).diagnostics.countP (·.code = .libraryConflict) =
      (q.listed.countP fun a =>
        ((q.run read).result.libraries.get? (.ofJar a.jar)).map (·.artifact) ≠ some a) ∧
    ∀ rules rules' : List Rule, q.rules = .ofRules rules → (rules.map (·.label)).Nodup →
      rules.Perm rules' → ({ q with rules := .ofRules rules' } : ImportRequest).run read =
        q.run read := by
  refine ⟨RuleMap.Keyed.rules_sorted, fun k => mem_keys_of_unpruned unpruned read,
    get?_of_unpruned unpruned read, ?key, ?conflicts, ?order⟩
  case key =>
    intro k l found
    rw [get?_of_unpruned unpruned, Option.map_eq_some_iff] at found
    obtain ⟨a, first, rfl⟩ := found
    have key := List.find?_some first
    exact ⟨(of_decide_eq_true key).symm, rfl⟩
  case conflicts =>
    rw [countP_libraryConflict unpruned, length_conflicts, ← artifacts_candidates, List.countP_map]
    apply List.countP_congr
    intro c _
    have kept : ((q.run read).result.libraries.get? c.library.key).map (·.artifact) =
        (first? q.candidates c.library.key).map (·.artifact) := by
      rw [libraries_of_unpruned unpruned, get?_ofCandidates, Option.map_map]
      rfl
    rw [← kept]
    rfl
  case order =>
    intro rules rules' built distinct perm
    rw [← RuleMap.ofRules_perm distinct perm, ← built]

/-- Of the two rules that offer the jar the one with the smaller label has the library, wherever it
stands, and the other one is reported. -/
theorem libraries_of_conflicting :
    (conflictingRequest.unpruned.run fun _ => .ok []).result.libraries.get? (.ofJar namedJar) =
      some (.ofArtifact (.ofJar namedJar)) ∧
    (conflictingRequest.unpruned.run fun _ => .ok []).diagnostics.countP
      (·.code = .libraryConflict) = 1 ∧
    ({ conflictingRequest.unpruned with
        rules := .ofRules [unrelatedRule, dependentRule, withSourcesRule, offeringRule false] } :
      ImportRequest).run (fun _ => .ok []) = conflictingRequest.unpruned.run fun _ => .ok [] := by
  obtain ⟨-, -, stored, -, conflicts, order⟩ :=
    libraries_first_listed conflictingRequest.unpruned (fun _ => .ok []) rfl
  refine ⟨?_, ?_, ?_⟩
  · rw [stored]
    decide +kernel
  · rw [conflicts]
    decide +kernel
  · exact order [offeringRule false, withSourcesRule, dependentRule, unrelatedRule] _ rfl
      (by decide +kernel) (List.reverse_perm _).symm

end ImportRequest

end WorkspaceSync
