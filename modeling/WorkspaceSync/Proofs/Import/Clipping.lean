import WorkspaceSync.Proofs.Import.ContentTable
import WorkspaceSync.Proofs.WorkspacePath.Segments

/-!
# Inferred and clipped roots

Proposing a root and implying a package undo one another: the package of a directory below a root
with no prefix leads back to the root where no name on the way holds a dot, and every package
without slashes is implied by what is proposed for it. Implied packages compose along a path, so a
root may be moved down to a content root, and what is below keeps its packages.
-/

namespace WorkspaceSync

open Text

namespace SourceRoots

variable {root d : WorkspacePath} {x : String}

/-! ## Packages by texts -/

/-- What follows the text of a root in that of another path, without leading slashes. -/
def textBelow (root d : WorkspacePath) : List Char :=
  if root.isRoot then d.text.toList
  else if root.text.toList.isPrefixOf d.text.toList then
    (d.text.toList.drop root.text.toList.length).dropWhile (· = '/')
  else []

/-- The same with dots in the place of slashes. -/
def packageBelow (root d : WorkspacePath) : String :=
  String.ofList ((textBelow root d).map fun c => if c = '/' then '.' else c)

/-- The names below a root begin with no slash. -/
private theorem dropWhile_glue_below (root d : WorkspacePath) :
    (glue '/' ((root.below d).map String.toList)).dropWhile (· = '/') =
      glue '/' ((root.below d).map String.toList) := by
  cases names : root.below d with
  | nil => rfl
  | cons s rest =>
    have mem : s ∈ root.below d := names ▸ List.mem_cons_self
    have isName := d.valid s (List.drop_subset _ _ mem)
    obtain ⟨c, cs, chars⟩ := List.exists_cons_of_ne_nil (mt String.toList_eq_nil_iff.1 isName.1)
    have first : c ≠ '/' := by
      rintro rfl
      exact slash_notMem_below root d _ (List.mem_map_of_mem mem) (chars ▸ List.mem_cons_self)
    obtain ⟨more, whole⟩ : ∃ more, glue '/' ((s :: rest).map String.toList) = c :: more := by
      cases rest <;> exact ⟨_, by rw [List.map_cons, chars]; rfl⟩
    rw [whole, List.dropWhile_cons_of_neg (by simpa using first)]

theorem textBelow_eq (above : root.isAncestorOf d = true) :
    textBelow root d = glue '/' ((root.below d).map String.toList) := by
  unfold textBelow
  split_ifs with isRoot begins
  · have none : root.names = [] := List.isEmpty_iff.1 isRoot
    rw [WorkspacePath.toList_text, WorkspacePath.below, none]
    rfl
  · by_cases same : root.below d = []
    · rw [WorkspacePath.eq_of_below_eq_nil above same, List.drop_length, WorkspacePath.below_self]
      rfl
    · have some : root.names ≠ [] := mt List.isEmpty_iff.2 isRoot
      rw [WorkspacePath.toList_text_below above some same, List.drop_left,
        List.dropWhile_cons_of_pos (by rfl), dropWhile_glue_below]
  · rw [List.isPrefixOf_iff_prefix] at begins
    exact absurd (WorkspacePath.text_prefix_of_isAncestorOf above) begins

theorem packageBelow_eq (above : root.isAncestorOf d = true) :
    packageBelow root d = join '.' (root.below d) := by
  rw [packageBelow, textBelow_eq above, join, ← glue_eq_map (slash_notMem_below root d)]

/-- Below a root the names give the package that the texts give. -/
theorem impliedPackage_eq_text (above : root.isAncestorOf d = true) :
    impliedPackage root x d =
      if x = "" then packageBelow root d
      else if packageBelow root d = "" then x
      else x ++ "." ++ packageBelow root d := by
  rw [impliedPackage_eq above, packageBelow_eq above]
  rfl

/-! ## Proposing what is implied -/

/-- Cutting the names below a root off a directory's text leaves the text of the root. -/
theorem above?_text (above : root.isAncestorOf d = true) (below : root.below d ≠ []) {s : String}
    (leads : s.toList = glue '/' ((root.below d).map String.toList)) :
    above? d.text s = some root.text := by
  rw [above?_eq_some_iff]
  by_cases isRoot : root.names = []
  · have whole : d.text = s := by
      rw [← String.toList_inj, leads, WorkspacePath.toList_text, WorkspacePath.below_eq above,
        isRoot, List.nil_append]
    rw [if_pos whole, WorkspacePath.text_eq_empty_iff]
    exact isRoot
  · have whole := WorkspacePath.toList_text_below above isRoot below
    rw [← leads] at whole
    have longer : d.text ≠ s := by
      intro same
      rw [same] at whole
      have := congrArg List.length whole
      rw [List.length_append, List.length_cons] at this
      omega
    rw [if_neg longer]
    exact whole

/-- The package that the names below a root make up leads back to the root. -/
theorem rootFor_impliedPackage (above : root.isAncestorOf d = true)
    (plain : ∀ s ∈ root.below d, '.' ∉ s.toList) :
    rootFor d (impliedPackage root "" d) = (root, "") := by
  have package : impliedPackage root "" d = join '.' (root.below d) := impliedPackage_eq above
  by_cases nothing : root.below d = []
  · rw [package, nothing, WorkspacePath.eq_of_below_eq_nil above nothing]
    rfl
  · have some : join '.' (root.below d) ≠ "" :=
      mt (join_eq_empty_iff (empty_notMem_below root d)).1 nothing
    have leads : (packagePath (join '.' (root.below d))).toList =
        glue '/' ((root.below d).map String.toList) := by
      rw [packagePath, join, String.toList_ofList, String.toList_ofList,
        ← glue_eq_map (by simpa using plain)]
    rw [package, rootFor, if_neg some, above?_text above nothing leads, Option.bind_some,
      WorkspacePath.parse_text]
    rfl

/-- What is proposed for a package has no prefix, or is the directory itself. -/
theorem rootFor_prefix (d : WorkspacePath) (package : String) :
    (rootFor d package).2 = "" ∨ (rootFor d package).1 = d := by
  rcases rootFor_cases d package with own | ⟨root, found, -⟩
  · exact .inr (congrArg Prod.fst own)
  · exact .inl (congrArg Prod.snd found)

end SourceRoots

open SourceRoots

namespace ContentEntry

variable {contentRoot d : WorkspacePath} {e : WorkspacePath × SourceRoot}

/-- Below a content root, clipping changes no package. -/
theorem impliedPackage_clip (below : contentRoot.isAncestorOf d = true) :
    impliedPackage (clip contentRoot e).1 (clip contentRoot e).2.packagePrefix d =
      impliedPackage e.1 e.2.packagePrefix d := by
  unfold clip
  split_ifs with moved
  · rw [Bool.and_eq_true] at moved
    exact impliedPackage_trans moved.2 below
  · rfl

/-- At or below a root, the implied package is what the texts of the two paths give. A proposed root
is at or above the directory and implies the package; it has a prefix only where it is the directory.
Implied packages compose, and a root that is moved down to a content root implies what it implied
for every directory below. -/
theorem inferred_packages_compose :
    (∀ (root d : WorkspacePath) (x : String), root.isAncestorOf d = true →
      impliedPackage root x d =
        if x = "" then packageBelow root d
        else if packageBelow root d = "" then x
        else x ++ "." ++ packageBelow root d) ∧
    (∀ (d : WorkspacePath) (package : String), '/' ∉ package.toList →
      (rootFor d package).1.isAncestorOf d = true ∧
      impliedPackage (rootFor d package).1 (rootFor d package).2 d = package ∧
      ((rootFor d package).2 = "" ∨ (rootFor d package).1 = d)) ∧
    (∀ (a b c : WorkspacePath) (x : String), a.isAncestorOf b = true → b.isAncestorOf c = true →
      impliedPackage b (impliedPackage a x b) c = impliedPackage a x c) ∧
    (∀ (contentRoot d : WorkspacePath) (e : WorkspacePath × SourceRoot),
      contentRoot.isAncestorOf d = true →
      (clip contentRoot e).1 = (if e.1.isAncestorOf contentRoot then contentRoot else e.1) ∧
      impliedPackage (clip contentRoot e).1 (clip contentRoot e).2.packagePrefix d =
        impliedPackage e.1 e.2.packagePrefix d) := by
  refine ⟨?texts, ?inferred, ?compose, ?clipped⟩
  case texts => exact fun root d x => impliedPackage_eq_text
  case inferred =>
    intro d package plain
    exact ⟨rootFor_isAncestorOf d package, impliedPackage_rootFor d plain,
      rootFor_prefix d package⟩
  case compose => exact fun a b c x => impliedPackage_trans
  case clipped =>
    intro contentRoot d e below
    exact ⟨clip_fst contentRoot e, impliedPackage_clip below⟩

/-- A directory that ends in the package `org.tool`. -/
def toolDirectory : WorkspacePath := ⟨["code", "org", "tool"], by decide⟩

/-- The root of that package. -/
def codeRoot : WorkspacePath × SourceRoot := (⟨["code"], by decide⟩, ⟨"", false⟩)

/-- A content root between the two. -/
def orgDirectory : WorkspacePath := ⟨["code", "org"], by decide⟩

theorem inferred_packages_compose_tool :
    '/' ∉ "org.tool".toList ∧ orgDirectory.isAncestorOf toolDirectory = true ∧
    rootFor toolDirectory "org.tool" = (codeRoot.1, "") ∧
    impliedPackage (rootFor toolDirectory "org.tool").1 (rootFor toolDirectory "org.tool").2
      toolDirectory = "org.tool" ∧
    impliedPackage orgDirectory "org" toolDirectory =
      "org" ++ "." ++ packageBelow orgDirectory toolDirectory ∧
    (clip orgDirectory codeRoot).1 = orgDirectory ∧
    impliedPackage (clip orgDirectory codeRoot).1 (clip orgDirectory codeRoot).2.packagePrefix
      toolDirectory = "org.tool" := by
  obtain ⟨texts, inferred, -, clipped⟩ := inferred_packages_compose
  have plain : '/' ∉ "org.tool".toList := by decide
  have between : orgDirectory.isAncestorOf toolDirectory = true := by decide
  have found : rootFor toolDirectory "org.tool" = (codeRoot.1, "") := by decide +kernel
  obtain ⟨-, implied, -⟩ := inferred toolDirectory "org.tool" plain
  obtain ⟨moved, same⟩ := clipped orgDirectory toolDirectory codeRoot between
  refine ⟨plain, between, found, implied, ?_, ?_, ?_⟩
  · rw [texts orgDirectory toolDirectory "org" between, if_neg (by decide), if_neg (by decide)]
  · rw [moved, if_pos (by decide)]
  · rw [same, ← implied, found]
    rfl

end ContentEntry

end WorkspaceSync
