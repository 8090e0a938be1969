import Mathlib.Data.List.Infix
import WorkspaceSync.Import.Target
import WorkspaceSync.Proofs.Except
import WorkspaceSync.Proofs.WorkspacePath

/-!
# Components of file paths

Pushing onto a path appends components. So a workspace path under a root has the components of the
root and then its own names, whatever the root is, and a location resolved below a root has what its
relative path adds. Where a source is read as a workspace path, both ways lead to the same file.
-/

namespace WorkspaceSync

open Text

namespace FilePath

variable {p q : FilePath} {name : String}

namespace Component

instance : Std.LawfulEqOrd Component where
  eq_of_compare {c d} h := by
    obtain ⟨rank, name⟩ := compareLex_eq_eq.1 h
    have rank : c.rank = d.rank := Std.LawfulEqOrd.eq_of_compare rank
    have name : c.name = d.name := Std.LawfulEqOrd.eq_of_compare name
    cases c <;> cases d <;> simp_all [Component.rank, Component.name]

end Component

theorem same_iff : p.Same q ↔ p.components = q.components :=
  Std.LawfulEqOrd.compare_eq_iff_eq (α := List Component)

/-- A path is at another one or below it. -/
def Encloses (d p : FilePath) : Prop := d.components <+: p.components

instance (d p : FilePath) : Decidable (d.Encloses p) :=
  inferInstanceAs (Decidable (_ <+: _))

/-! ## What a text adds to a path -/

/-- The pieces of a text that are not empty. -/
def steps (s : String) : List String := (split (· == '/') s).filter (· ≠ "")

/-- The components that a text adds to the path in front of it. -/
def added (s : String) : List Component := ((steps s).filter (· ≠ ".")).map ofName

/-- The component before all that names add. -/
def lead (p : FilePath) : List Component :=
  if p.text.toList.head? = some '/' then [.root]
  else if (steps p.text).head? = some "." then [.current]
  else []

theorem components_eq (p : FilePath) : p.components = p.lead ++ added p.text := by
  unfold components lead added steps
  dsimp only
  split_ifs <;> rfl

theorem steps_append_slash (a b : String) : steps (a ++ "/" ++ b) = steps a ++ steps b := by
  have whole : (a ++ "/" ++ b).toList = a.toList ++ '/' :: b.toList := by simp
  rw [steps, split, whole, pieces_append (by rfl), List.map_append, List.filter_append]
  rfl

theorem steps_of_notMem (plain : '/' ∉ name.toList) (ne : name ≠ "") : steps name = [name] := by
  have one : split (· == '/') name = [name] := by
    rw [split, pieces_of_not_sep]
    · rw [List.map_singleton, String.ofList_toList]
    · intro c hc
      rw [beq_eq_false_iff_ne]
      rintro rfl
      exact plain hc
  rw [steps, one, List.filter_singleton, decide_eq_true ne]
  rfl

theorem of_mem_steps {s t : String} (h : s ∈ steps t) : s ≠ "" ∧ '/' ∉ s.toList := by
  obtain ⟨piece, some⟩ := List.mem_filter.1 h
  obtain ⟨cs, mem, rfl⟩ := List.mem_map.1 piece
  refine ⟨of_decide_eq_true some, ?_⟩
  rw [String.toList_ofList]
  intro slash
  simpa using not_sep_of_mem_pieces mem '/' slash

theorem mem_of_mem_steps {s t : String} {c : Char} (h : s ∈ steps t) (hc : c ∈ s.toList) :
    c ∈ t.toList := by
  obtain ⟨cs, piece, rfl⟩ := List.mem_map.1 (List.mem_of_mem_filter h)
  rw [String.toList_ofList] at hc
  exact mem_of_mem_pieces piece hc

/-- Names are the steps of the text that joins them. -/
theorem steps_join {names : List String} (plain : ∀ s ∈ names, s ≠ "" ∧ '/' ∉ s.toList) :
    steps (Text.join '/' names) = names := by
  by_cases none : names = []
  · rw [none]
    rfl
  · have cut : split (· == '/') (Text.join '/' names) = names := by
      rw [split, Text.join, String.toList_ofList, pieces_glue (by rfl) (by simpa using none)]
      · simp
      · intro cs mem c hc
        obtain ⟨s, named, rfl⟩ := List.mem_map.1 mem
        rw [beq_eq_false_iff_ne]
        rintro rfl
        exact (plain s named).2 hc
    rw [steps, cut, List.filter_eq_self]
    exact fun s mem => decide_eq_true (plain s mem).1

/-- Every character of a text is a slash or in a step. -/
theorem slash_or_mem_steps {c : Char} {t : String} (h : c ∈ t.toList) :
    c = '/' ∨ ∃ s ∈ steps t, c ∈ s.toList := by
  have glued : glue '/' (pieces (· == '/') t.toList) = t.toList :=
    glue_pieces fun d _ slash => eq_of_beq slash
  rw [← glued] at h
  refine (mem_glue h).imp_right ?_
  rintro ⟨p, piece, mem⟩
  refine ⟨String.ofList p, List.mem_filter.2 ⟨List.mem_map_of_mem piece, ?_⟩, by simpa using mem⟩
  rw [decide_eq_true_iff, Ne, ← String.toList_eq_nil_iff, String.toList_ofList]
  exact List.ne_nil_of_mem mem

/-- A step up is cut out at separators of both kinds as well. -/
theorem up_mem_split {t : String} (h : ".." ∈ steps t) : ".." ∈ split isSeparator t := by
  obtain ⟨cs, piece, up⟩ := List.mem_map.1 (List.mem_of_mem_filter h)
  obtain rfl : cs = ['.', '.'] := by
    rw [← String.toList_ofList (l := cs), up]
    rfl
  have finer (d : Char) (slash : (d == '/') = true) : isSeparator d = true := by
    rw [isSeparator, slash, Bool.true_or]
  rw [split, pieces_flatMap finer]
  exact List.mem_map.2 ⟨_, List.mem_flatMap.2 ⟨_, piece, List.mem_singleton_self _⟩, up⟩

/-- A text without any step is made of separators only. -/
theorem head?_of_steps_eq_nil {s : String} (ne : s ≠ "") (none : steps s = []) :
    s.toList.head? = some '/' := by
  cases whole : s.toList with
  | nil => exact absurd (String.toList_eq_nil_iff.1 whole) ne
  | cons c cs =>
    by_cases slash : c = '/'
    · rw [slash]
      rfl
    · obtain ⟨p, ps, parts⟩ : ∃ p ps, pieces (· == '/') s.toList = (c :: p) :: ps := by
        rw [whole, pieces, if_neg (by simpa using slash)]
        split
        · exact ⟨[], [], rfl⟩
        · exact ⟨_, _, rfl⟩
      have kept : String.ofList (c :: p) ∈ steps s := by
        rw [steps, split, parts, List.mem_filter]
        exact ⟨List.mem_cons_self, by simp⟩
      rw [none] at kept
      cases kept

theorem steps_push (p : FilePath) (name : String) :
    steps (p.push name).text = steps p.text ++ steps name := by
  unfold push
  split_ifs with empty slash
  · rw [empty]
    rfl
  · obtain ⟨start, whole⟩ := List.getLast?_eq_some_iff.1 slash
    have text : p.text = String.ofList start ++ "/" ++ "" := by
      rw [← String.toList_inj, whole]
      simp
    have closed : p.text ++ name = String.ofList start ++ "/" ++ name := by
      rw [← String.toList_inj, String.toList_append, whole]
      simp
    have nothing : steps "" = [] := rfl
    rw [closed, steps_append_slash, text, steps_append_slash, nothing, List.append_nil]
  · exact steps_append_slash p.text name

theorem text_push_ne (ne : p.text ≠ "") : (p.push name).text ≠ "" := by
  unfold push
  rw [if_neg ne]
  split_ifs <;> simp [ne]

theorem lead_push (ne : p.text ≠ "") : (p.push name).lead = p.lead := by
  have first : (p.push name).text.toList.head? = p.text.toList.head? := by
    obtain ⟨c, cs, whole⟩ := List.exists_cons_of_ne_nil (mt String.toList_eq_nil_iff.1 ne)
    unfold push
    rw [if_neg ne]
    split_ifs <;> simp [whole]
  unfold lead
  rw [first, steps_push]
  by_cases none : steps p.text = []
  · rw [head?_of_steps_eq_nil ne none]
    rfl
  · obtain ⟨s, rest, whole⟩ := List.exists_cons_of_ne_nil none
    rw [whole]
    rfl

/-- Pushing appends what the text adds. -/
theorem components_push (ne : p.text ≠ "") :
    (p.push name).components = p.components ++ added name := by
  rw [components_eq, components_eq, lead_push ne, List.append_assoc]
  congr 1
  rw [added, steps_push, List.filter_append, List.map_append]
  rfl

theorem components_foldl_push (ne : p.text ≠ "") (names : List String) :
    (names.foldl push p).components = p.components ++ names.flatMap added := by
  induction names generalizing p with
  | nil => simp
  | cons name names ih =>
    rw [List.foldl_cons, ih (text_push_ne ne), components_push ne, List.append_assoc,
      List.flatMap_cons]

theorem flatMap_added {names : List String} (single : ∀ s ∈ names, steps s = [s]) :
    names.flatMap added = (names.filter (· ≠ ".")).map ofName := by
  induction names with
  | nil => rfl
  | cons s names ih =>
    rw [List.flatMap_cons, ih fun t ht => single t (List.mem_cons_of_mem s ht), added,
      single s List.mem_cons_self, ← List.map_append, ← List.filter_append]
    rfl

end FilePath

open FilePath (Component added steps)

namespace WorkspacePath

variable {p q : WorkspacePath}

theorem steps_text (p : WorkspacePath) : steps p.text = p.names := by
  apply FilePath.steps_join
  intro s mem
  refine ⟨(p.valid s mem).1, fun slash => ?_⟩
  cases (p.valid s mem).2.2.2 '/' slash

theorem added_text (p : WorkspacePath) : added p.text = p.names.map .normal := by
  have named : ∀ s ∈ p.names, s ≠ "." := fun s hs => (p.valid s hs).2.1
  rw [added, steps_text, List.filter_eq_self.2 fun s hs => decide_eq_true (named s hs)]
  apply List.map_congr_left
  intro s hs
  exact if_neg (p.valid s hs).2.2.1

/-- A workspace path by itself is no absolute path and does not begin with a dot. -/
theorem lead_text (p : WorkspacePath) : FilePath.lead ⟨p.text⟩ = [] := by
  have first : p.text.toList.head? ≠ some '/' := by
    intro slash
    have names := steps_text p
    obtain ⟨cs, whole⟩ := List.head?_eq_some_iff.1 slash
    by_cases isRoot : p.names = []
    · rw [text_eq_empty_iff.2 isRoot] at whole
      cases whole
    · have split := split_isSeparator_text isRoot
      rw [Text.split, whole, pieces, if_pos (by rfl)] at split
      have empty : "" ∈ p.names := by
        rw [← split]
        exact List.mem_cons_self
      exact (p.valid "" empty).1 rfl
  unfold FilePath.lead
  rw [if_neg first, if_neg]
  rw [steps_text]
  intro dot
  exact (p.valid "." (List.mem_of_head? dot)).2.1 rfl

end WorkspacePath

namespace WorkspaceRoot

variable {w : WorkspaceRoot} {p q : WorkspacePath}

theorem components_file (w : WorkspaceRoot) (p : WorkspacePath) :
    (w.file p).components = w.directory.components ++ p.names.map .normal := by
  unfold file
  split_ifs with isRoot
  · rw [List.isEmpty_iff.1 isRoot, List.map_nil, List.append_nil]
  · by_cases empty : w.directory.text = ""
    · have pushed : w.directory.push p.text = ⟨p.text⟩ := by
        rw [FilePath.push, if_pos empty]
      have nothing : w.directory.components = [] := by
        rw [FilePath.components_eq, FilePath.lead, empty]
        rfl
      rw [pushed, nothing, FilePath.components_eq, WorkspacePath.lead_text,
        WorkspacePath.added_text]
    · rw [FilePath.components_push empty, WorkspacePath.added_text]

/-- Ancestry of workspace paths is that of their files. -/
theorem file_encloses_file_iff :
    (w.file p).Encloses (w.file q) ↔ p.isAncestorOf q = true := by
  have injective : Function.Injective Component.normal := fun _ _ => Component.normal.inj
  rw [FilePath.Encloses, components_file, components_file, List.prefix_append_right_inj,
    List.prefix_map_iff_of_injective injective, WorkspacePath.isAncestorOf_iff]

theorem file_same_file_iff : (w.file p).Same (w.file q) ↔ p = q := by
  have injective : Function.Injective Component.normal := fun _ _ => Component.normal.inj
  rw [FilePath.same_iff, components_file, components_file, List.append_cancel_left_eq,
    List.map_inj_right injective]
  constructor
  · exact WorkspacePath.ext_names
  · rintro rfl
    rfl

end WorkspaceRoot

namespace Roots

variable {roots : Roots} {a : ArtifactLocation} {p : WorkspacePath}

theorem components_descend {base : FilePath} (ne : base.text ≠ "") (path : String) :
    (descend base path).components = base.components ++ added path := by
  have single : ∀ s ∈ steps path, steps s = [s] := by
    intro s mem
    obtain ⟨some, plain⟩ := FilePath.of_mem_steps mem
    exact FilePath.steps_of_notMem plain some
  rw [descend, FilePath.components_foldl_push ne]
  exact congrArg _ (FilePath.flatMap_added single)

/-- A source is where the workspace has the path that it is read as. -/
theorem resolve_same (ne : roots.workspace.directory.text ≠ "")
    (plain : '\\' ∉ a.relativePath.toList) (read : a.workspacePath? = some p) :
    (roots.resolve a).Same (roots.workspace.file p) := by
  obtain ⟨source, parsed⟩ := Option.ite_none_right_eq_some.1 read
  obtain ⟨isSource, inside⟩ := Bool.and_eq_true_iff.1 source
  obtain ⟨-, -, names⟩ := WorkspacePath.parse_eq_ok_iff.1 (toOption_eq_some_iff.1 parsed)
  have split : split (· == '/') a.relativePath = split isSeparator a.relativePath := by
    apply congrArg (List.map String.ofList)
    apply pieces_congr
    intro c mem
    have other : (c == '\\') = false := by
      rw [beq_eq_false_iff_ne]
      rintro rfl
      exact plain mem
    rw [isSeparator, other, Bool.or_false]
  have kept : (steps a.relativePath).filter (· ≠ ".") = p.names := by
    rw [names, steps, List.filter_filter, split]
    apply List.filter_congr
    intro s _
    rw [← Bool.decide_and, decide_eq_decide, and_comm]
  rw [resolve, if_pos isSource, if_neg (by simpa using inside), FilePath.same_iff,
    components_descend ne, WorkspaceRoot.components_file, added, kept]
  congr 1
  apply List.map_congr_left
  intro s mem
  exact if_neg (p.valid s mem).2.2.1

end Roots

end WorkspaceSync
