import Mathlib.Data.String.Basic
import WorkspaceSync.Proofs.Text.Segments
import WorkspaceSync.WorkspacePath

/-!
# Ancestry and texts of workspace paths

A path is known by its text, and the text of an ancestor begins that of what is below it. So the
order of paths, which is that of their texts, puts ancestors first, and of the ancestors of one path
a longer text is further down.
-/

namespace WorkspaceSync

open Text

namespace WorkspacePath

variable {p q r : WorkspacePath} {name : String}

theorem ext_names (h : p.names = q.names) : p = q := by
  cases p
  cases q
  simpa using h

/-! ## Ancestry -/

theorem isAncestorOf_antisymm (h : p.isAncestorOf q = true) (h' : q.isAncestorOf p = true) :
    p = q := by
  rw [isAncestorOf_iff] at h h'
  exact ext_names (h.eq_of_length_le h'.length_le)

/-- The ancestors of one path are ancestors of one another. -/
theorem isAncestorOf_or (hp : p.isAncestorOf r = true) (hq : q.isAncestorOf r = true) :
    p.isAncestorOf q = true ∨ q.isAncestorOf p = true := by
  simp only [isAncestorOf_iff] at *
  exact List.prefix_or_prefix_of_prefix hp hq

theorem parent?_eq_some_iff :
    p.parent? = some q ↔ p.names ≠ [] ∧ q.names = p.names.dropLast := by
  unfold parent?
  split
  · rename_i isRoot
    simp [List.isEmpty_iff.1 isRoot]
  · rename_i below
    rw [Option.some.injEq]
    constructor
    · rintro rfl
      exact ⟨mt List.isEmpty_iff.2 below, rfl⟩
    · rintro ⟨-, names⟩
      exact ext_names names.symm

theorem isAncestorOf_of_parent? (h : p.parent? = some q) : q.isAncestorOf p = true := by
  obtain ⟨-, names⟩ := parent?_eq_some_iff.1 h
  rw [isAncestorOf_iff, names]
  exact List.dropLast_prefix p.names

theorem not_isAncestorOf_parent? (h : p.parent? = some q) : ¬ p.isAncestorOf q = true := by
  obtain ⟨some, names⟩ := parent?_eq_some_iff.1 h
  rw [isAncestorOf_iff, names]
  intro above
  have shorter := above.length_le
  rw [List.length_dropLast] at shorter
  have := List.length_pos_of_ne_nil some
  omega

/-- What is above a path and not the path itself is above its parent. -/
theorem isAncestorOf_parent? (h : p.parent? = some q) (above : r.isAncestorOf p = true)
    (ne : r ≠ p) : r.isAncestorOf q = true := by
  rcases isAncestorOf_or above (isAncestorOf_of_parent? h) with up | down
  · exact up
  · obtain ⟨some, names⟩ := parent?_eq_some_iff.1 h
    rw [isAncestorOf_iff] at above down
    have length := down.length_le
    rw [names, List.length_dropLast] at length
    -- Only the parent and the path itself lie between the two.
    have short : r.names.length ≠ p.names.length :=
      fun same => ne (ext_names (above.eq_of_length same))
    have same : q.names = r.names := by
      apply down.eq_of_length
      rw [names, List.length_dropLast]
      have := above.length_le
      omega
    rw [ext_names same]
    exact isAncestorOf_refl r

theorem below_eq (h : p.isAncestorOf q = true) : q.names = p.names ++ p.below q := by
  rw [isAncestorOf_iff] at h
  rw [below]
  exact (List.prefix_iff_eq_append.1 h).symm

@[simp] theorem below_self (p : WorkspacePath) : p.below p = [] := by simp [below]

theorem below_trans (hpq : p.isAncestorOf q = true) (hqr : q.isAncestorOf r = true) :
    p.below r = p.below q ++ q.below r := by
  have split := below_eq (isAncestorOf_trans hpq hqr)
  rw [below_eq hqr, below_eq hpq, List.append_assoc] at split
  exact (List.append_cancel_left split).symm

/-! ## Texts -/

theorem toList_text (p : WorkspacePath) :
    p.text.toList = glue '/' (p.names.map String.toList) := by
  rw [text, Text.join, String.toList_ofList]

private theorem nil_notMem_names (p : WorkspacePath) : [] ∉ p.names.map String.toList := by
  intro h
  obtain ⟨s, hs, empty⟩ := List.mem_map.1 h
  exact (p.valid s hs).1 (String.toList_eq_nil_iff.1 empty)

theorem text_eq_empty_iff : p.text = "" ↔ p.names = [] := by
  rw [← String.toList_eq_nil_iff, toList_text, glue_eq_nil_iff (nil_notMem_names p),
    List.map_eq_nil_iff]

theorem isSeparator_of_mem_text {c : Char} (h : c ∈ p.text.toList) : c = '/' ∨
    isSeparator c = false := by
  rw [toList_text] at h
  rcases mem_glue h with slash | ⟨_, hs, hc⟩
  · exact .inl slash
  · obtain ⟨s, mem, rfl⟩ := List.mem_map.1 hs
    exact .inr ((p.valid s mem).2.2.2 c hc)

/-- The pieces of a text are the names of the path, where there are any. -/
theorem split_isSeparator_text (ne : p.names ≠ []) : split isSeparator p.text = p.names := by
  rw [split, toList_text, pieces_glue rfl (by simpa using ne)]
  · simp
  · intro cs hcs c hc
    obtain ⟨s, mem, rfl⟩ := List.mem_map.1 hcs
    exact (p.valid s mem).2.2.2 c hc

theorem text_injective (h : p.text = q.text) : p = q := by
  by_cases hp : p.names = []
  · have hq := text_eq_empty_iff.1 (h ▸ text_eq_empty_iff.2 hp)
    exact ext_names (hp.trans hq.symm)
  · have hq : q.names ≠ [] := by
      intro hq
      exact hp (text_eq_empty_iff.1 (h.trans (text_eq_empty_iff.2 hq)))
    apply ext_names
    rw [← split_isSeparator_text hp, h, split_isSeparator_text hq]

instance : Std.LawfulEqOrd WorkspacePath where
  eq_of_compare {p q} h :=
    text_injective (Std.LawfulEqOrd.eq_of_compare (show compare p.text q.text = .eq from h))

theorem compare_eq_lt_iff : compare p q = .lt ↔ p.text < q.text := by
  change compare p.text q.text = .lt ↔ _
  exact compare_lt_iff_lt

/-- The text of what is below a path goes on with the names that lead there, after a slash. -/
theorem toList_text_below (h : p.isAncestorOf q = true) (hp : p.names ≠ [])
    (rest : p.below q ≠ []) :
    q.text.toList = p.text.toList ++ '/' :: glue '/' ((p.below q).map String.toList) := by
  rw [toList_text, below_eq h, List.map_append, glue_append (by simpa using hp)
    (by simpa using rest), toList_text]

theorem eq_of_below_eq_nil (h : p.isAncestorOf q = true) (nothing : p.below q = []) : p = q := by
  have names := below_eq h
  rw [nothing, List.append_nil] at names
  exact ext_names names.symm

theorem toList_text_of_isAncestorOf (h : p.isAncestorOf q = true) (hp : p.names ≠ [])
    (ne : p ≠ q) : ∃ cs, q.text.toList = p.text.toList ++ '/' :: cs :=
  ⟨_, toList_text_below h hp (mt (eq_of_below_eq_nil h) ne)⟩

theorem text_prefix_of_isAncestorOf (h : p.isAncestorOf q = true) :
    p.text.toList <+: q.text.toList := by
  by_cases hp : p.names = []
  · rw [text_eq_empty_iff.2 hp]
    exact List.nil_prefix
  · by_cases same : p = q
    · exact same ▸ List.prefix_rfl
    · obtain ⟨cs, whole⟩ := toList_text_of_isAncestorOf h hp same
      rw [whole]
      exact List.prefix_append _ _

/-- Ancestors come first. -/
theorem compare_of_isAncestorOf (h : p.isAncestorOf q = true) (ne : p ≠ q) :
    compare p q = .lt := by
  rw [compare_eq_lt_iff]
  apply lt_of_le_of_ne
  · apply not_lt.1
    rw [String.lt_iff_toList_lt]
    exact List.not_lt.2 (text_prefix_of_isAncestorOf h).le
  · intro same
    exact ne (text_injective same)

/-- What comes later is no ancestor. -/
theorem not_isAncestorOf_of_compare (h : compare p q = .lt) : ¬ q.isAncestorOf p = true := by
  intro above
  by_cases same : q = p
  · simp [same] at h
  · have := Std.OrientedCmp.gt_of_lt (compare_of_isAncestorOf above same)
    rw [h] at this
    cases this

/-- Of the ancestors of one path an earlier one is above a later one. -/
theorem isAncestorOf_of_compare (h : compare p q = .lt) (hp : p.isAncestorOf r = true)
    (hq : q.isAncestorOf r = true) : p.isAncestorOf q = true :=
  (isAncestorOf_or hp hq).resolve_right (not_isAncestorOf_of_compare h)

/-- What is below a path has a longer text. -/
theorem utf8ByteSize_lt_of_isAncestorOf (h : p.isAncestorOf q = true) (ne : p ≠ q) :
    p.text.utf8ByteSize < q.text.utf8ByteSize := by
  obtain ⟨cs, whole⟩ := text_prefix_of_isAncestorOf h
  have some : String.ofList cs ≠ "" := by
    intro nothing
    rw [← String.toList_eq_nil_iff, String.toList_ofList] at nothing
    rw [nothing, List.append_nil, String.toList_inj] at whole
    exact ne (text_injective whole)
  rw [← String.ofList_toList (s := q.text), ← whole, String.ofList_append,
    String.utf8ByteSize_append, String.ofList_toList]
  exact Nat.lt_add_of_pos_right (Nat.pos_of_ne_zero (mt String.utf8ByteSize_eq_zero_iff.1 some))

/-! ## Reading -/

/-- Reading keeps the pieces that are names. -/
theorem parse_eq_ok_iff {s : String} : parse s = .ok p ↔
    isAbsolute s = false ∧ ".." ∉ split isSeparator s ∧
      p.names = (split isSeparator s).filter fun t => t ≠ "" ∧ t ≠ "." := by
  unfold parse
  split_ifs with absolute goesUp
  · simp [absolute]
  · simp [goesUp]
  · rw [Except.ok.injEq]
    constructor
    · rintro rfl
      exact ⟨Bool.eq_false_iff.2 absolute, goesUp, rfl⟩
    · rintro ⟨-, -, names⟩
      exact ext_names names.symm

end WorkspacePath

end WorkspaceSync
