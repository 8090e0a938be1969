import WorkspaceSync.Proofs.FilePath
import WorkspaceSync.Proofs.WorkspacePath.Segments

/-!
# Files of a workspace root

A file at or below the workspace root has the components of the root and then names, whatever way
the two are spelled. Read as a workspace path, the names lead back to the file. Only `..` is in the
way, which no workspace path holds, and a backslash, at which workspace paths are cut and files are
not.
-/

namespace WorkspaceSync

open Text

namespace FilePath

variable {p root f r : FilePath} {rest : List Component}

/-! ## What follows a root -/

theorem below?_eq_some_iff : below? root f = some r ↔
    ∃ rest, f.components = root.components ++ rest ∧ ofComponents rest = r := by
  rw [below?, Option.ite_none_right_eq_some, List.isPrefixOf_iff_prefix, Option.some.injEq]
  constructor
  · rintro ⟨⟨rest, whole⟩, same⟩
    rw [← whole, List.drop_left] at same
    exact ⟨rest, whole.symm, same⟩
  · rintro ⟨rest, whole, same⟩
    rw [whole, List.drop_left]
    exact ⟨List.prefix_append _ _, same⟩

theorem components_ne_nil (ne : p.text ≠ "") : p.components ≠ [] := by
  rw [components_eq, Ne, List.append_eq_nil_iff]
  rintro ⟨leading, following⟩
  unfold lead at leading
  split_ifs at leading with slash dot
  -- There is a first name, which is no dot and so a component.
  cases first : steps p.text with
  | nil => exact slash (head?_of_steps_eq_nil ne first)
  | cons s rest =>
    rw [first, List.head?_cons, Option.some.injEq] at dot
    simp [added, first, dot] at following

theorem length_lead_le (p : FilePath) : p.lead.length ≤ 1 := by
  unfold lead
  split_ifs <;> simp

/-- Below a root that is not empty there are only names. -/
theorem exists_names (located : root.text ≠ "") (whole : f.components = root.components ++ rest) :
    ∃ names : List String, rest = names.map ofName ∧ ∀ s ∈ names, s ∈ steps f.text ∧ s ≠ "." := by
  have named : ∀ s ∈ (steps f.text).filter (· ≠ "."), s ∈ steps f.text ∧ s ≠ "." := by
    intro s mem
    obtain ⟨step, plain⟩ := List.mem_filter.1 mem
    exact ⟨step, of_decide_eq_true plain⟩
  rw [components_eq, added] at whole
  rcases List.append_eq_append_iff.1 whole with ⟨more, start, names⟩ | ⟨more, start, names⟩
  · obtain ⟨front, back, parts, -, rest⟩ := List.map_eq_append_iff.1 names
    refine ⟨back, rest.symm, fun s mem => named s ?_⟩
    rw [parts]
    exact List.mem_append_right front mem
  · -- The root begins with a component already, so the lead is in it.
    obtain rfl : more = [] := by
      have short := length_lead_le f
      have some := List.length_pos_of_ne_nil (components_ne_nil located)
      rw [start, List.length_append] at short
      exact List.eq_nil_of_length_eq_zero (by omega)
    exact ⟨_, names, named⟩

theorem name_ofName (s : String) : (ofName s).name = s := by
  unfold ofName
  split_ifs with up
  · exact up.symm
  · rfl

theorem ofComponents_map_ofName (names : List String) :
    ofComponents (names.map ofName) = ⟨Text.join '/' names⟩ := by
  have spelled : (names.map ofName).map Component.name = names := by
    rw [List.map_map]
    exact (List.map_congr_left fun s _ => name_ofName s).trans (List.map_id names)
  unfold ofComponents
  split
  · rename_i cs root
    -- No name makes a root.
    obtain ⟨s, -, -, isRoot, -⟩ := List.map_eq_cons_iff.1 root
    unfold ofName at isRoot
    split_ifs at isRoot
  · rw [spelled]

theorem map_ofName {names : List String} (up : ".." ∉ names) :
    names.map ofName = names.map .normal := by
  apply List.map_congr_left
  intro s mem
  apply if_neg
  rintro rfl
  exact up mem

end FilePath

open FilePath (Component ofName steps)

namespace WorkspaceRoot

variable {w : WorkspaceRoot} {p : WorkspacePath} {f : FilePath} {names : List String}

/-! ## From paths to files -/

theorem pathOf?_eq_some_iff : w.pathOf? f = some p ↔
    ∃ rest, f.components = w.directory.components ++ rest ∧
      WorkspacePath.parse (FilePath.ofComponents rest).text = .ok p := by
  unfold pathOf?
  simp only [Option.bind_eq_some_iff, FilePath.below?_eq_some_iff, toOption_eq_some_iff]
  constructor
  · rintro ⟨-, ⟨rest, whole, rfl⟩, read⟩
    exact ⟨rest, whole, read⟩
  · rintro ⟨rest, whole, read⟩
    exact ⟨_, ⟨rest, whole, rfl⟩, read⟩

theorem up_notMem_names (p : WorkspacePath) : ".." ∉ p.names :=
  fun mem => (p.valid _ mem).2.2.1 rfl

/-- Every spelling of the file of a path has that path. -/
theorem pathOf?_of_same (same : (w.file p).Same f) : w.pathOf? f = some p := by
  rw [FilePath.same_iff, components_file, ← FilePath.map_ofName (up_notMem_names p)] at same
  refine pathOf?_eq_some_iff.2 ⟨_, same.symm, ?_⟩
  rw [FilePath.ofComponents_map_ofName]
  exact WorkspacePath.parse_text p

/-! ## From files to paths -/

/-- Workspace paths are read from names that are not `..`. -/
theorem up_notMem_of_parse (plain : ∀ s ∈ names, s ≠ "" ∧ '/' ∉ s.toList)
    (read : WorkspacePath.parse (Text.join '/' names) = .ok p) : ".." ∉ names := by
  intro up
  rw [← FilePath.steps_join plain] at up
  exact (WorkspacePath.parse_eq_ok_iff.1 read).2.1 (FilePath.up_mem_split up)

/-- A file with a workspace path is below the root and does not go up from there. -/
theorem below_of_pathOf? (located : w.directory.text ≠ "") (found : w.pathOf? f = some p) :
    w.directory.Encloses f ∧
      .parent ∉ f.components.drop w.directory.components.length := by
  obtain ⟨rest, whole, read⟩ := pathOf?_eq_some_iff.1 found
  obtain ⟨names, rfl, named⟩ := FilePath.exists_names located whole
  refine ⟨⟨_, whole.symm⟩, ?_⟩
  rw [FilePath.ofComponents_map_ofName] at read
  have up := up_notMem_of_parse (fun s mem => FilePath.of_mem_steps (named s mem).1) read
  rw [whole, List.drop_left, FilePath.map_ofName up]
  simp

/-- Without backslashes the names below the root are those of a workspace path. -/
theorem exists_path (located : w.directory.text ≠ "") (plain : '\\' ∉ f.text.toList)
    (encloses : w.directory.Encloses f)
    (up : .parent ∉ f.components.drop w.directory.components.length) :
    ∃ p, (w.file p).Same f := by
  obtain ⟨rest, whole⟩ := encloses
  obtain ⟨names, rfl, named⟩ := FilePath.exists_names located whole.symm
  rw [← whole, List.drop_left] at up
  replace up : ".." ∉ names := fun mem => up (List.mem_map_of_mem (f := ofName) mem)
  have valid : ∀ s ∈ names, WorkspacePath.IsName s := by
    intro s mem
    obtain ⟨step, dot⟩ := named s mem
    obtain ⟨ne, slash⟩ := FilePath.of_mem_steps step
    refine ⟨ne, dot, fun same => up (same ▸ mem), fun c hc => ?_⟩
    rw [isSeparator, Bool.or_eq_false_iff, beq_eq_false_iff_ne, beq_eq_false_iff_ne]
    constructor
    · rintro rfl
      exact slash hc
    · rintro rfl
      exact plain (FilePath.mem_of_mem_steps step hc)
  refine ⟨⟨names, valid⟩, ?_⟩
  rw [FilePath.same_iff, components_file, ← whole, FilePath.map_ofName up]

/-- Each workspace path is that of its file in every spelling, and a file without backslashes has a
path just if it is that path's file. A file that is not below the root, or goes up below it, has
none. -/
theorem pathOf?_file (w : WorkspaceRoot) (located : w.directory.text ≠ "") :
    (∀ p, w.pathOf? (w.file p) = some p ∧ w.contains (w.file p) = true) ∧
    (∀ f p, '\\' ∉ f.text.toList → (w.pathOf? f = some p ↔ (w.file p).Same f)) ∧
    ∀ f, ¬ w.directory.Encloses f ∨
        .parent ∈ f.components.drop w.directory.components.length →
      w.pathOf? f = none ∧ w.contains f = false := by
  refine ⟨?paths, ?files, ?none⟩
  case paths =>
    intro p
    have found := pathOf?_of_same (FilePath.Same.refl (w.file p))
    exact ⟨found, by rw [contains, found]; rfl⟩
  case files =>
    intro f p plain
    refine ⟨fun found => ?_, pathOf?_of_same⟩
    obtain ⟨encloses, up⟩ := below_of_pathOf? located found
    obtain ⟨q, same⟩ := exists_path located plain encloses up
    obtain rfl : p = q := Option.some.inj (found.symm.trans (pathOf?_of_same same))
    exact same
  case none =>
    intro f outside
    have none : w.pathOf? f = none := by
      rw [Option.eq_none_iff_forall_ne_some]
      intro p found
      obtain ⟨encloses, up⟩ := below_of_pathOf? located found
      exact outside.elim (fun h => h encloses) up
    exact ⟨none, by rw [contains, none]; rfl⟩

/-- A root that begins with a dot and goes up, with separators to spare. -/
def dottedRoot : WorkspaceRoot := ⟨⟨"./ws//../a/."⟩⟩

theorem pathOf?_file_dotted :
    dottedRoot.pathOf? (dottedRoot.file ⟨["java", "Main.java"], by decide⟩) =
      some ⟨["java", "Main.java"], by decide⟩ ∧
    (dottedRoot.file ⟨["java", "Main.java"], by decide⟩).Same
      ⟨"./ws/../a/java/./Main.java/"⟩ ∧
    dottedRoot.pathOf? ⟨"ws/../a/java/Main.java"⟩ = none ∧
    dottedRoot.pathOf? ⟨"./ws/../a/java/../Main.java"⟩ = none := by
  obtain ⟨paths, files, none⟩ := pathOf?_file dottedRoot (by decide)
  exact ⟨(paths _).1, (files _ _ (by decide)).1 rfl, (none _ (.inl (by decide))).1,
    (none _ (.inr (by decide))).1⟩

end WorkspaceRoot

end WorkspaceSync
