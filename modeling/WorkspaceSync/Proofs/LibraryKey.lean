import Mathlib.Data.List.TakeWhile
import Mathlib.Data.String.Basic
import WorkspaceSync.Library
import WorkspaceSync.Proofs.Text.Segments

/-!
# Reading library keys

A key is read at its first `#`, and a jar's path may hold one as well. So the jar and the classifier
of a key are read back exactly where the path holds none, and keys of different jars can be equal
where one does: `jar_and_classifier_read_back`.
-/

namespace WorkspaceSync

open Text

/-! ## Paths of jars -/

/-- Only slashes are lost and gained where a path is put together. -/
theorem ArtifactLocation.mem_executionPath {c : Char} (plain : c ≠ '/') (a : ArtifactLocation) :
    c ∈ a.executionPath.toList ↔ c ∈ a.rootFragment.toList ∨ c ∈ a.relativePath.toList := by
  rw [executionPath, joinFragments]
  split_ifs with noRoot noPath
  · simp [noRoot]
  · simp [noPath]
  · have trimmed : c ∈ (a.rootFragment.toList.reverse.dropWhile (· == '/')).reverse ↔
        c ∈ a.rootFragment.toList := by
      rw [List.mem_reverse]
      constructor
      · intro mem
        exact List.mem_reverse.1 ((List.dropWhile_suffix _).subset mem)
      · intro mem
        rw [← List.mem_reverse, ← List.takeWhile_append_dropWhile (p := (· == '/'))
          (l := a.rootFragment.toList.reverse), List.mem_append] at mem
        refine mem.resolve_left fun slash => plain ?_
        exact eq_of_beq (List.mem_takeWhile_imp (p := (· == '/')) slash)
    simp only [String.toList_ofList, List.mem_append, List.mem_cons, trimmed, plain, false_or]

namespace LibraryKey

variable {k : LibraryKey} {path c d : String} {a b : ArtifactLocation}

/-! ## What is read -/

theorem hash_notMem_location (k : LibraryKey) : '#' ∉ k.location.toList := by
  rw [location]
  split
  · rename_i parts
    rw [String.toList_ofList]
    exact (cut_eq_some_iff.1 parts).2
  · rename_i whole
    exact cut_eq_none_iff.1 whole

theorem classifier?_eq_none_iff : k.classifier? = none ↔ '#' ∉ k.text.toList := by
  rw [classifier?, Option.map_eq_none_iff, cut_eq_none_iff]

theorem location_of_clear (clear : '#' ∉ k.text.toList) : k.location = k.text := by
  rw [location, cut_eq_none_iff.2 clear]

/-- What is read of a key is all that there is of it. -/
theorem text_eq (k : LibraryKey) :
    k.text = k.location ++ (k.classifier?.map ("#" ++ ·)).getD "" := by
  rw [location, classifier?, ← String.toList_inj]
  cases parts : cut '#' k.text.toList with
  | none => simp
  | some both => simp [(cut_eq_some_iff.1 parts).1]

/-- A classifier put to a key comes after what is read as the classifier already. -/
theorem read_append (path c : String) :
    (⟨path ++ "#" ++ c⟩ : LibraryKey).location = (⟨path⟩ : LibraryKey).location ∧
    (⟨path ++ "#" ++ c⟩ : LibraryKey).classifier? =
      some (((⟨path⟩ : LibraryKey).classifier?.map (· ++ "#" ++ c)).getD c) := by
  have whole : (path ++ "#" ++ c).toList = path.toList ++ '#' :: c.toList := by simp
  rw [location, location, classifier?, classifier?, whole, cut_append]
  cases cut '#' path.toList with
  | none => simp
  | some both => simp [String.append_assoc]

/-! ## What is read back -/

theorem location_eq_path_iff (h : k.location = (⟨path⟩ : LibraryKey).location) :
    k.location = path ↔ '#' ∉ path.toList := by
  constructor
  · intro same
    rw [← same]
    exact hash_notMem_location k
  · intro clear
    exact h.trans (location_of_clear clear)

theorem classifier?_withClassifier_iff :
    (withClassifier a c).classifier? = some c ↔ '#' ∉ a.executionPath.toList := by
  constructor
  · intro read
    have whole := text_eq (withClassifier a c)
    rw [read, withClassifier, Option.map_some, Option.getD_some, String.append_assoc,
      String.append_left_inj] at whole
    rw [whole]
    exact hash_notMem_location _
  · intro clear
    have none : (⟨a.executionPath⟩ : LibraryKey).classifier? = none :=
      classifier?_eq_none_iff.2 clear
    rw [withClassifier, (read_append _ c).2, none]
    rfl

/-! ## Equal keys -/

theorem withClassifier_eq_iff : withClassifier a c = withClassifier b d ↔
    a.executionPath = b.executionPath ∧ c = d ∨
    (∃ x, b.executionPath = a.executionPath ++ "#" ++ x ∧ c = x ++ "#" ++ d) ∨
    ∃ x, a.executionPath = b.executionPath ++ "#" ++ x ∧ d = x ++ "#" ++ c := by
  have hash : "#".toList = ['#'] := rfl
  have texts (p : List Char → Prop) : (∃ z, p z) ↔ ∃ x : String, p x.toList :=
    ⟨fun ⟨z, hz⟩ => ⟨String.ofList z, by rwa [String.toList_ofList]⟩, fun ⟨x, hx⟩ => ⟨_, hx⟩⟩
  simp only [withClassifier, mk.injEq, ← String.toList_inj, String.toList_append, hash,
    List.append_assoc, List.singleton_append, append_sep_inj, texts]

/-- A path without a `#` does not go on from another one after a `#`. -/
theorem ne_append_of_clear (clear : '#' ∉ path.toList) (s x : String) : path ≠ s ++ "#" ++ x := by
  rintro rfl
  exact clear (by simp)

/-- Jars and classifiers are known by their keys exactly where no path holds a `#`, which valid
locations may do. -/
theorem jar_and_classifier_read_back (a b : ArtifactLocation) (c d : String) :
    ((ofJar a).location = a.executionPath ↔ '#' ∉ a.executionPath.toList) ∧
    ((ofJar a).classifier? = none ↔ '#' ∉ a.executionPath.toList) ∧
    ((withClassifier a c).location = a.executionPath ↔ '#' ∉ a.executionPath.toList) ∧
    ((withClassifier a c).classifier? = some c ↔ '#' ∉ a.executionPath.toList) ∧
    (ofJar a = withClassifier b c ↔ a.executionPath = b.executionPath ++ "#" ++ c) ∧
    (withClassifier a c = withClassifier b d ↔ a.executionPath = b.executionPath ∧ c = d ∨
      (∃ x, b.executionPath = a.executionPath ++ "#" ++ x ∧ c = x ++ "#" ++ d) ∨
      ∃ x, a.executionPath = b.executionPath ++ "#" ++ x ∧ d = x ++ "#" ++ c) ∧
    ('#' ∉ a.executionPath.toList → ofJar a ≠ withClassifier b c) ∧
    ('#' ∉ a.executionPath.toList → '#' ∉ b.executionPath.toList →
      withClassifier a c = withClassifier b d → a.executionPath = b.executionPath ∧ c = d) ∧
    ('#' ∉ a.executionPath.toList ↔
      '#' ∉ a.rootFragment.toList ∧ '#' ∉ a.relativePath.toList) := by
  have ofJar_iff :
      ofJar a = withClassifier b c ↔ a.executionPath = b.executionPath ++ "#" ++ c := by
    rw [ofJar, withClassifier, mk.injEq]
  refine ⟨location_eq_path_iff rfl, classifier?_eq_none_iff,
    location_eq_path_iff (read_append a.executionPath c).1, classifier?_withClassifier_iff,
    ofJar_iff, withClassifier_eq_iff, ?notOfJar, ?same, ?parts⟩
  case notOfJar =>
    intro clear
    rw [Ne, ofJar_iff]
    exact ne_append_of_clear clear _ _
  case same =>
    intro clearA clearB equal
    rcases withClassifier_eq_iff.1 equal with same | ⟨x, longer, -⟩ | ⟨x, longer, -⟩
    · exact same
    · exact absurd longer (ne_append_of_clear clearB _ x)
    · exact absurd longer (ne_append_of_clear clearA _ x)
  case parts => rw [ArtifactLocation.mem_executionPath (by decide), not_or]

/-- The jar `a#b.jar` is read as the jar `a` with a classifier, and its keys are that jar's. -/
theorem hashed_jar_not_read_back :
    (ArtifactLocation.source "a#b.jar").validate = .ok () ∧
    (ArtifactLocation.source "a").validate = .ok () ∧
    (ArtifactLocation.source "a#b.jar").executionPath = "a#b.jar" ∧
    (ArtifactLocation.source "a").executionPath = "a" ∧
    (ofJar (.source "a#b.jar")).location = "a" ∧
    (ofJar (.source "a#b.jar")).classifier? = some "b.jar" ∧
    (withClassifier (.source "a#b.jar") "sources").location = "a" ∧
    (withClassifier (.source "a#b.jar") "sources").classifier? = some "b.jar#sources" ∧
    ofJar (.source "a#b.jar") = withClassifier (.source "a") "b.jar" ∧
    withClassifier (.source "a#b.jar") "sources" =
      withClassifier (.source "a") "b.jar#sources" := by
  decide

end LibraryKey

end WorkspaceSync
