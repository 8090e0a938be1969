import Mathlib.Data.List.Induction
import WorkspaceSync.Proofs.Import.Pruning

/-!
# Which jars a library has

Of candidates for one key the first one makes the library, and every other one with different jars
is reported. Pruning takes candidates out before that. So a key that it keeps is there without
pruning as well, but with other jars where the first candidate is taken out and a later one is not.
-/

namespace WorkspaceSync

namespace LibraryTable

variable {candidates : List LibraryCandidate} {c f : LibraryCandidate} {k : LibraryKey}

/-- The first candidate for a key. -/
def first? (candidates : List LibraryCandidate) (k : LibraryKey) : Option LibraryCandidate :=
  candidates.find? fun c => c.library.key = k

/-- What is reported of a candidate: that the first one for its key has other jars. -/
def conflict? (candidates : List LibraryCandidate) (c : LibraryCandidate) : Option Diagnostic :=
  (first? candidates c.library.key).bind fun first =>
    if first.artifact = c.artifact then none else some (conflictDiagnostic c first.label)

theorem first?_eq_some (h : first? candidates k = some f) : f ∈ candidates ∧ f.library.key = k :=
  ⟨List.mem_of_find?_eq_some h, by simpa using List.find?_some h⟩

theorem exists_first? (mem : c ∈ candidates) :
    ∃ f, first? candidates c.library.key = some f := by
  rw [← Option.isSome_iff_exists, first?, List.find?_isSome]
  exact ⟨c, mem, by simp⟩

theorem first?_append_of_mem {rest : List LibraryCandidate} (mem : c ∈ candidates) :
    first? (candidates ++ rest) c.library.key = first? candidates c.library.key := by
  obtain ⟨f, found⟩ := exists_first? mem
  rw [found, first?, List.find?_append, ← first?, found]
  rfl

theorem first?_filter_of_first {p : LibraryCandidate → Bool} (h : first? candidates k = some f)
    (kept : p f = true) : first? (candidates.filter p) k = some f := by
  obtain ⟨key, before, after, rfl, others⟩ := List.find?_eq_some_iff_append.1 h
  refine List.find?_eq_some_iff_append.2 ⟨key, before.filter p, after.filter p, ?_, ?_⟩
  · rw [List.filter_append, List.filter_cons_of_pos kept]
  · intro c mem
    exact others c (List.mem_of_mem_filter mem)

theorem get?_foldl_addCandidate (candidates : List LibraryCandidate) (k : LibraryKey) :
    (candidates.foldl addCandidate (SortedMap.empty, [])).1.get? k = first? candidates k := by
  rw [foldl_addCandidate_fst, SortedMap.get?_ofListFirst_map, first?]

/-- The first candidate for a key makes its library. -/
theorem get?_ofCandidates (candidates : List LibraryCandidate) (k : LibraryKey) :
    (ofCandidates candidates).1.get? k = (first? candidates k).map (·.library) := by
  rw [← get?_foldl_addCandidate]
  simp [ofCandidates, SortedMap.get?, SortedMap.entryAt?_map, Function.comp_def]

theorem addCandidate_snd (acc : Kept × List Diagnostic) (c : LibraryCandidate) :
    (addCandidate acc c).2 = acc.2 ++ ((acc.1.get? c.library.key).bind fun first =>
      if first.artifact = c.artifact then none
      else some (conflictDiagnostic c first.label)).toList := by
  obtain ⟨kept, diagnostics⟩ := acc
  cases found : kept.get? c.library.key with
  | none => simp [addCandidate, found]
  | some first =>
    simp only [addCandidate, found, Option.bind_some]
    split_ifs <;> simp

/-- Every candidate is compared with the first one for its key. -/
theorem conflicts_ofCandidates (candidates : List LibraryCandidate) :
    (ofCandidates candidates).2 = candidates.filterMap (conflict? candidates) := by
  change (candidates.foldl addCandidate (SortedMap.empty, [])).2 = _
  induction candidates using List.reverseRecOn with
  | nil => rfl
  | append_singleton l c ih =>
    have earlier : l.filterMap (conflict? (l ++ [c])) = l.filterMap (conflict? l) := by
      apply List.filterMap_congr
      intro f mem
      rw [conflict?, conflict?, first?_append_of_mem mem]
    have last : conflict? (l ++ [c]) c = (first? l c.library.key).bind fun first =>
        if first.artifact = c.artifact then none else some (conflictDiagnostic c first.label) := by
      rw [conflict?, first?, List.find?_append, ← first?]
      cases first? l c.library.key <;> simp
    rw [List.foldl_concat, addCandidate_snd, ih, get?_foldl_addCandidate, List.filterMap_append,
      earlier, ← last, List.filterMap_cons, List.filterMap_nil]
    cases conflict? (l ++ [c]) c <;> rfl

theorem conflict_mem (mem : c ∈ candidates) (first : first? candidates c.library.key = some f)
    (other : f.artifact ≠ c.artifact) :
    conflictDiagnostic c f.label ∈ (ofCandidates candidates).2 := by
  rw [conflicts_ofCandidates, List.mem_filterMap]
  refine ⟨c, mem, ?_⟩
  rw [conflict?, first, Option.bind_some, if_neg other]

end LibraryTable

/-- Whether a candidate remains. -/
def LibraryUse.stays (u : LibraryUse) (c : LibraryCandidate) : Bool := !u.known || u.keeps c

theorem LibraryUse.prune_eq_filter (u : LibraryUse) (candidates : List LibraryCandidate) :
    u.prune candidates = candidates.filter u.stays := by
  unfold prune stays
  cases u.known with
  | false => simp
  | true => simp

namespace ImportRequest

open LibraryTable

variable {q : ImportRequest} {k : LibraryKey} {l : Library}

/-- The same request without pruning. -/
def unpruned (q : ImportRequest) : ImportRequest := { q with pruneUnused := false }

/-- What content of the request uses. -/
def use (q : ImportRequest) : LibraryUse := .ofContent q.dependencies q.content

theorem get?_unpruned (q : ImportRequest) (read : PackageReader) (k : LibraryKey) :
    (q.unpruned.run read).result.libraries.get? k = (first? q.candidates k).map (·.library) :=
  get?_ofCandidates q.candidates k

theorem get?_pruned (asked : q.pruneUnused = true) (read : PackageReader) (k : LibraryKey) :
    (q.run read).result.libraries.get? k =
      (first? (q.candidates.filter q.use.stays) k).map (·.library) := by
  have kept : q.keptCandidates = q.candidates.filter q.use.stays := by
    rw [keptCandidates, if_pos asked]
    exact LibraryUse.prune_eq_filter _ _
  rw [← kept]
  exact get?_ofCandidates q.keptCandidates k

/-- A library that pruning keeps is that of the first candidate that stays, and without pruning
there is one of the same key. -/
theorem exists_first_of_pruned (asked : q.pruneUnused = true) {read : PackageReader}
    (h : (q.run read).result.libraries.get? k = some l) :
    ∃ first kept, first? q.candidates k = some first ∧
      first? (q.candidates.filter q.use.stays) k = some kept ∧ l = kept.library ∧
      (q.unpruned.run read).result.libraries.get? k = some first.library := by
  rw [get?_pruned asked, Option.map_eq_some_iff] at h
  obtain ⟨kept, found, rfl⟩ := h
  obtain ⟨mem, rfl⟩ := first?_eq_some found
  obtain ⟨first, found'⟩ := exists_first? (List.mem_of_mem_filter mem)
  refine ⟨first, kept, found', found, rfl, ?_⟩
  rw [get?_unpruned, found']
  rfl

/-- Pruning changes nothing but the libraries. A key that it keeps has the library of the first
candidate that stays, which is the one without pruning if the first of all candidates stays or has
the same jars. The import without pruning reports every other key as a conflict. -/
theorem pruned_libraries_subset (q : ImportRequest) (read : PackageReader)
    (asked : q.pruneUnused = true) :
    (q.run read).result =
      { (q.unpruned.run read).result with libraries := (q.run read).result.libraries } ∧
    ∀ k l, (q.run read).result.libraries.get? k = some l →
      ∃ first kept, first? q.candidates k = some first ∧
        first? (q.candidates.filter q.use.stays) k = some kept ∧ l = kept.library ∧
        (q.unpruned.run read).result.libraries.get? k = some first.library ∧
        (l = first.library ↔ kept.artifact = first.artifact) ∧
        (q.use.stays first = true → l = first.library) ∧
        (l ≠ first.library →
          conflictDiagnostic kept first.label ∈ (q.unpruned.run read).diagnostics) := by
  refine ⟨rfl, ?_⟩
  intro k l stored
  obtain ⟨first, kept, found, found', rfl, unpruned⟩ := exists_first_of_pruned asked stored
  refine ⟨first, kept, found, found', rfl, unpruned, ?_, ?_, ?_⟩
  · constructor
    · intro same
      exact congrArg Library.artifact same
    · intro same
      exact congrArg Library.ofArtifact same
  · intro stays
    have same := found'.symm.trans (first?_filter_of_first found stays)
    rw [Option.some.inj same]
  · intro other
    obtain ⟨mem, rfl⟩ := first?_eq_some found'
    apply List.mem_append_right
    apply conflict_mem (List.mem_of_mem_filter mem) found
    intro same
    exact other (congrArg Library.ofArtifact same.symm)

/-- Without a conflict the library that a manifest names is the same after pruning. -/
theorem named_library_same :
    ((namingRequest false).run fun _ => .ok []).result.libraries.get? (.ofJar namedJar) =
      some (.ofArtifact (.ofJar namedJar)) ∧
    ((namingRequest false).unpruned.run fun _ => .ok []).result.libraries.get? (.ofJar namedJar) =
      some (.ofArtifact (.ofJar namedJar)) := by
  have stored : ((namingRequest false).run fun _ => .ok []).result.libraries.get?
      (.ofJar namedJar) = some (.ofArtifact (.ofJar namedJar)) := by
    decide +kernel
  have unreported : ((namingRequest false).unpruned.run fun _ => .ok []).diagnostics = [] := by
    decide +kernel
  obtain ⟨-, subset⟩ := pruned_libraries_subset (namingRequest false) (fun _ => .ok []) rfl
  obtain ⟨first, kept, -, -, -, unpruned, -, -, reported⟩ := subset _ _ stored
  refine ⟨stored, ?_⟩
  by_contra changed
  rw [unpruned] at changed
  have conflict := reported fun same => changed (congrArg some same.symm)
  rw [unreported] at conflict
  cases conflict

/-! ## A key whose first candidate is not used -/

/-- A rule that offers the jar together with its sources. -/
def withSourcesRule : Rule :=
  { LoadCall.ruleB with
    payload := some (.java { JavaInfo.empty with
      jars := [⟨namedJar, none, some (.source "lib-sources.jar")⟩] }) }

/-- A rule of content without a manifest that depends on the one with sources. -/
def dependentRule : Rule :=
  { LoadCall.ruleNamed "c" (by decide) with
    sources := [.source "app/App.java"]
    dependencies := [withSourcesRule.label]
    payload := some (.java JavaInfo.empty) }

/-- A rule of content whose manifest names nothing. -/
def unrelatedRule : Rule :=
  { LoadCall.ruleNamed "d" (by decide) with
    sources := [.source "app/Other.java"]
    payload := some (.java JavaInfo.empty) }

/-- Two rules offer the jar, with and without sources, and content uses the second one. -/
def conflictingRequest : ImportRequest where
  rules := .ofRules [offeringRule false, withSourcesRule, dependentRule, unrelatedRule]
  roots := LoadCall.bothRoots
  dependencies := SortedMap.empty.insert unrelatedRule.label []
  workingSet := SortedMap.empty
  project := ⟨[.root], []⟩
  pruneUnused := true

theorem pruned_library_changed :
    ¬ ∀ k l, (conflictingRequest.run fun _ => .ok []).result.libraries.get? k = some l →
      (conflictingRequest.unpruned.run fun _ => .ok []).result.libraries.get? k = some l := by
  intro subset
  have stored : (conflictingRequest.run fun _ => .ok []).result.libraries.get? (.ofJar namedJar) =
      some (.ofArtifact ⟨namedJar, none, some (.source "lib-sources.jar")⟩) := by
    decide +kernel
  have other : (conflictingRequest.unpruned.run fun _ => .ok []).result.libraries.get?
      (.ofJar namedJar) = some (.ofArtifact (.ofJar namedJar)) := by
    decide +kernel
  have same := other.symm.trans (subset _ _ stored)
  revert same
  decide

end ImportRequest

end WorkspaceSync
