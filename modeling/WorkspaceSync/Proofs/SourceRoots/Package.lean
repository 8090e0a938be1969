import WorkspaceSync.Proofs.Except
import WorkspaceSync.Proofs.WorkspacePath
import WorkspaceSync.SourceRoots

/-!
# Packages below source roots

A directory below a root has the package of the root, continued by the names that lead there. Going
down in two steps gives the same package as going down in one. The root that a file proposes is at
or above its directory and gives the directory the file's package; only a package that holds a slash
is read as another one.
-/

namespace WorkspaceSync

open Text

namespace SourceRoots

variable {a b c d root : WorkspacePath} {package x : String} {names names' : List String}

/-! ## Continued packages -/

/-- A package continued by names. -/
def subpackage (package : String) (names : List String) : String :=
  if package = "" then join '.' names
  else if join '.' names = "" then package
  else package ++ "." ++ join '.' names

theorem join_eq_empty_iff (ne : "" ∉ names) : join '.' names = "" ↔ names = [] := by
  have chars : [] ∉ names.map String.toList := by
    intro h
    obtain ⟨s, mem, empty⟩ := List.mem_map.1 h
    exact ne (String.toList_eq_nil_iff.1 empty ▸ mem)
  rw [← String.toList_eq_nil_iff, join, String.toList_ofList, glue_eq_nil_iff chars,
    List.map_eq_nil_iff]

theorem join_append (h : names ≠ []) (h' : names' ≠ []) :
    join '.' (names ++ names') = join '.' names ++ "." ++ join '.' names' := by
  rw [← String.toList_inj]
  simp only [join, String.toList_append, String.toList_ofList, List.map_append]
  rw [glue_append (by simpa using h) (by simpa using h')]
  simp

@[simp] theorem subpackage_nil (package : String) : subpackage package [] = package := by
  have nothing : join '.' [] = "" := rfl
  unfold subpackage
  split_ifs with empty
  · rw [nothing, empty]
  · rfl

theorem subpackage_append (h : "" ∉ names) (h' : "" ∉ names') :
    subpackage (subpackage package names) names' = subpackage package (names ++ names') := by
  by_cases none : names = []
  · rw [none, subpackage_nil, List.nil_append]
  · by_cases none' : names' = []
    · rw [none', subpackage_nil, List.append_nil]
    · have some := mt (join_eq_empty_iff h).1 none
      have some' := mt (join_eq_empty_iff h').1 none'
      unfold subpackage
      rw [join_append none none']
      by_cases empty : package = ""
      · simp [empty, some, some']
      · simp [empty, some, some', String.append_assoc]

/-! ## The package that a root implies -/

theorem impliedPackage_eq (h : root.isAncestorOf c = true) :
    impliedPackage root x c = subpackage x (root.below c) := by
  rw [impliedPackage, if_pos h]
  rfl

@[simp] theorem impliedPackage_self (root : WorkspacePath) (x : String) :
    impliedPackage root x root = x := by
  rw [impliedPackage_eq (WorkspacePath.isAncestorOf_refl root), WorkspacePath.below_self,
    subpackage_nil]

theorem empty_notMem_below (a b : WorkspacePath) : "" ∉ a.below b := by
  intro mem
  exact (b.valid "" (List.drop_subset _ _ mem)).1 rfl

theorem slash_notMem_below (a b : WorkspacePath) :
    ∀ p ∈ (a.below b).map String.toList, '/' ∉ p := by
  intro p mem slash
  obtain ⟨s, below, rfl⟩ := List.mem_map.1 mem
  have := (b.valid s (List.drop_subset _ _ below)).2.2.2 '/' slash
  cases this

/-- The way down may be taken in two steps. -/
theorem impliedPackage_trans (hab : a.isAncestorOf b = true) (hbc : b.isAncestorOf c = true) :
    impliedPackage b (impliedPackage a x b) c = impliedPackage a x c := by
  rw [impliedPackage_eq hbc, impliedPackage_eq hab,
    impliedPackage_eq (WorkspacePath.isAncestorOf_trans hab hbc),
    subpackage_append (empty_notMem_below a b) (empty_notMem_below b c),
    ← WorkspacePath.below_trans hab hbc]

/-- Only the root itself can have the unnamed package. -/
theorem eq_of_impliedPackage_eq_empty (above : root.isAncestorOf c = true)
    (h : impliedPackage root x c = "") : root = c := by
  have nothing : join '.' (root.below c) = "" := by
    rw [impliedPackage_eq above, subpackage] at h
    split_ifs at h with empty
    · exact h
    · assumption
    · rw [← String.toList_eq_nil_iff] at h
      simp at h
  exact WorkspacePath.eq_of_below_eq_nil above
    ((join_eq_empty_iff (empty_notMem_below root c)).1 nothing)

/-! ## The root that a file proposes -/

theorem stripEnd?_eq_some_iff {ending s rest : List Char} :
    stripEnd? ending s = some rest ↔ s = rest ++ ending := by
  unfold stripEnd?
  rw [Option.ite_none_right_eq_some, List.isSuffixOf_iff_suffix, Option.some.injEq]
  constructor
  · rintro ⟨⟨start, rfl⟩, rfl⟩
    simp
  · rintro rfl
    simp

theorem above?_eq_some_iff {directory s : String} : above? directory package = some s ↔
    if directory = package then s = ""
    else directory.toList = s.toList ++ '/' :: package.toList := by
  unfold above?
  split_ifs with same
  · rw [Option.some.injEq, eq_comm]
  · simp only [Option.map_eq_some_iff, Option.bind_eq_some_iff, stripEnd?_eq_some_iff]
    constructor
    · rintro ⟨_, ⟨_, whole, rfl⟩, rfl⟩
      simp [whole]
    · intro whole
      exact ⟨s.toList, ⟨s.toList ++ ['/'], by simp [whole], rfl⟩, String.ofList_toList⟩

/-- The names below the beginning of a text, where a slash follows the beginning. -/
theorem names_eq_of_text {s : String} {rest : List Char}
    (text : d.text.toList = s.toList ++ '/' :: rest) (parsed : WorkspacePath.parse s = .ok root) :
    d.names = root.names ++ (pieces isSeparator rest).map String.ofList := by
  have ne : d.names ≠ [] := by
    intro isRoot
    rw [WorkspacePath.text_eq_empty_iff.2 isRoot] at text
    simp at text
  have split : d.names = split isSeparator s ++ (pieces isSeparator rest).map String.ofList := by
    rw [← WorkspacePath.split_isSeparator_text ne, Text.split, text,
      pieces_append (by rfl), List.map_append, Text.split]
  obtain ⟨-, -, names⟩ := WorkspacePath.parse_eq_ok_iff.1 parsed
  rw [names, List.filter_eq_self.2, ← split]
  intro t mem
  have isName := d.valid t (split ▸ List.mem_append_left _ mem)
  exact decide_eq_true ⟨isName.1, isName.2.1⟩

/-- A file proposes its own directory with its whole package, or a directory from where the package
leads to its own. -/
theorem rootFor_cases (d : WorkspacePath) (package : String) :
    rootFor d package = (d, package) ∨
      ∃ root, rootFor d package = (root, "") ∧ root.isAncestorOf d = true ∧
        glue '/' ((root.below d).map String.toList) = (packagePath package).toList := by
  unfold rootFor
  split_ifs with empty
  · rw [empty]
    exact .inl rfl
  · split
    · rename_i root found
      obtain ⟨s, above, parsed⟩ := Option.bind_eq_some_iff.1 found
      have parsed := toOption_eq_some_iff.1 parsed
      refine .inr ⟨root, rfl, ?_⟩
      rw [above?_eq_some_iff] at above
      split_ifs at above with same
      · have isRoot : root.names = [] := by
          rw [(WorkspacePath.parse_eq_ok_iff.1 parsed).2.2, above]
          rfl
        constructor
        · rw [WorkspacePath.isAncestorOf_iff, isRoot]
          exact List.nil_prefix
        · rw [← same, WorkspacePath.toList_text, WorkspacePath.below, isRoot]
          rfl
      · have names := names_eq_of_text above parsed
        have above : root.isAncestorOf d = true := by
          rw [WorkspacePath.isAncestorOf_iff, names]
          exact List.prefix_append _ _
        refine ⟨above, ?_⟩
        have below : root.below d =
            (pieces isSeparator (packagePath package).toList).map String.ofList :=
          List.append_cancel_left ((WorkspacePath.below_eq above).symm.trans names)
        have only : ∀ c ∈ (packagePath package).toList, isSeparator c = true → c = '/' := by
          intro c mem isSep
          have inText : c ∈ d.text.toList := by
            rw [‹d.text.toList = _›]
            exact List.mem_append_right _ (List.mem_cons_of_mem _ mem)
          rcases WorkspacePath.isSeparator_of_mem_text inText with slash | plain
          · exact slash
          · rw [plain] at isSep
            cases isSep
        rw [below, List.map_map]
        simpa [Function.comp_def] using glue_pieces only
    · exact .inl rfl

theorem rootFor_isAncestorOf (d : WorkspacePath) (package : String) :
    (rootFor d package).1.isAncestorOf d = true := by
  rcases rootFor_cases d package with own | ⟨root, found, above, -⟩
  · rw [own]
    exact WorkspacePath.isAncestorOf_refl d
  · rw [found]
    exact above

/-- A package without slashes is what the proposed root implies. -/
theorem impliedPackage_rootFor (d : WorkspacePath) (plain : '/' ∉ package.toList) :
    impliedPackage (rootFor d package).1 (rootFor d package).2 d = package := by
  rcases rootFor_cases d package with own | ⟨root, found, above, leads⟩
  · rw [own, impliedPackage_self]
  · have restored : (packagePath package).toList.map (fun c => if c = '/' then '.' else c) =
        package.toList := by
      rw [packagePath, String.toList_ofList, List.map_map]
      refine (List.map_congr_left fun c mem => ?_).trans (List.map_id _)
      by_cases dot : c = '.'
      · simp [dot]
      · have : c ≠ '/' := by
          rintro rfl
          exact plain mem
        simp [dot, this]
    rw [found, impliedPackage_eq above, subpackage, if_pos rfl, join,
      glue_eq_map (slash_notMem_below root d), leads, restored, String.ofList_toList]

end SourceRoots

end WorkspaceSync
