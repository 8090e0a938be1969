import Mathlib.Data.List.DropRight
import Mathlib.Data.List.Induction
import Mathlib.Logic.Relation
import WorkspaceSync.Artifact
import WorkspaceSync.Proofs.WorkspacePath

/-!
# Workspace paths as lists of segments

The names of a workspace path are the segments of its text. What can be seen of a path in its text,
namely what is above it, its parent, its place in the order of paths and how it is put together with
another path, is therefore known from lists of segments: `segments_tell`.
-/

namespace WorkspaceSync.WorkspacePath

open Text

variable {p q r : WorkspacePath} {s : String}

/-! ## Reading texts -/

/-- What the separators of both kinds leave of a text, without empty segments and `.`. -/
def segments (s : String) : List String :=
  (split isSeparator s).filter fun t => t ≠ "" ∧ t ≠ "."

theorem text_eq_of_parse (h : parse s = .ok p) : p.text = Text.join '/' (segments s) := by
  rw [text, (parse_eq_ok_iff.1 h).2.2, segments]

theorem segments_text (p : WorkspacePath) : segments p.text = p.names := by
  by_cases root : p.names = []
  · rw [text_eq_empty_iff.2 root, root]
    rfl
  · rw [segments, split_isSeparator_text root, List.filter_eq_self]
    intro t mem
    simpa using ⟨(p.valid t mem).1, (p.valid t mem).2.1⟩

theorem mem_of_hasDrive {cs : List Char} (h : isAbsolute.hasDrive cs = true) : '\\' ∈ cs := by
  fun_induction isAbsolute.hasDrive cs with
  | case1 cs => simp
  | case2 c cs _ ih => exact .tail _ (ih h)
  | case3 => cases h

/-- No slash begins or ends a text, since no name is empty. -/
theorem not_slash_at_ends (p : WorkspacePath) :
    p.text.toList.head? ≠ some '/' ∧ p.text.toList.getLast? ≠ some '/' := by
  by_cases root : p.names = []
  · rw [text_eq_empty_iff.2 root]
    simp
  · have names := split_isSeparator_text root
    have nonempty : "" ∉ p.names := fun mem => (p.valid "" mem).1 rfl
    rw [split] at names
    constructor
    · intro slash
      obtain ⟨cs, whole⟩ := List.head?_eq_some_iff.1 slash
      rw [whole] at names
      exact nonempty (names ▸ List.mem_cons_self)
    · intro slash
      obtain ⟨cs, whole⟩ := List.getLast?_eq_some_iff.1 slash
      rw [whole, pieces_append rfl, List.map_append] at names
      exact nonempty (names ▸ List.mem_append_right _ List.mem_cons_self)

theorem isAbsolute_text (p : WorkspacePath) : isAbsolute p.text = false := by
  rw [isAbsolute, Bool.or_eq_false_iff, beq_eq_false_iff_ne]
  refine ⟨(not_slash_at_ends p).1, Bool.eq_false_iff.2 fun drive => ?_⟩
  rcases isSeparator_of_mem_text (mem_of_hasDrive drive) with other | plain
  · cases other
  · cases plain

/-- The text of a path is read as that path. -/
theorem parse_text (p : WorkspacePath) : parse p.text = .ok p := by
  refine parse_eq_ok_iff.2 ⟨isAbsolute_text p, ?_, (segments_text p).symm⟩
  by_cases root : p.names = []
  · rw [text_eq_empty_iff.2 root]
    decide
  · rw [split_isSeparator_text root]
    exact fun mem => (p.valid _ mem).2.2.1 rfl

/-! ## Ancestry -/

/-- A text begins another one, which may only go on with a slash; the empty text begins all. -/
def TextAbove (s t : String) : Prop :=
  s = "" ∨ ∃ rest, t.toList = s.toList ++ rest ∧ (rest = [] ∨ rest.head? = some '/')

theorem isAncestorOf_iff_textAbove : p.isAncestorOf q = true ↔ TextAbove p.text q.text := by
  constructor
  · intro above
    by_cases root : p.names = []
    · exact .inl (text_eq_empty_iff.2 root)
    · by_cases same : p = q
      · exact .inr ⟨[], by simp [same], .inl rfl⟩
      · obtain ⟨cs, whole⟩ := toList_text_of_isAncestorOf above root same
        exact .inr ⟨_, whole, .inr rfl⟩
  · rw [isAncestorOf_iff, TextAbove, text_eq_empty_iff]
    rintro (root | ⟨rest, whole, rfl | slash⟩)
    · rw [root]
      exact List.nil_prefix
    · rw [List.append_nil, String.toList_inj] at whole
      obtain rfl := text_injective whole
      exact List.prefix_rfl
    · obtain ⟨cs, rfl⟩ := List.head?_eq_some_iff.1 slash
      by_cases root : p.names = []
      · rw [root]
        exact List.nil_prefix
      · -- The slash that follows is a cut, so that no name goes on across it.
        have below : q.names ≠ [] := by
          rw [Ne, ← text_eq_empty_iff, ← String.toList_eq_nil_iff, whole]
          simp
        rw [← split_isSeparator_text root, ← split_isSeparator_text below, split, split, whole,
          pieces_append rfl, List.map_append]
        exact List.prefix_append _ _

theorem exists_parent? (below : p.names ≠ []) : ∃ q, p.parent? = some q := by
  have notRoot : ¬ p.isRoot = true := mt List.isEmpty_iff.1 below
  rw [parent?, if_neg notRoot]
  exact ⟨_, rfl⟩

/-- One path leads to another by taking parents, zero times or more. -/
def Climbs : WorkspacePath → WorkspacePath → Prop :=
  Relation.ReflTransGen fun p q => p.parent? = some q

theorem isAncestorOf_iff_climbs : p.isAncestorOf q = true ↔ Climbs q p := by
  constructor
  · rw [isAncestorOf_iff]
    rintro ⟨rest, whole⟩
    -- The last name goes first, since a parent is without it.
    induction rest using List.reverseRecOn generalizing q with
    | nil =>
      rw [List.append_nil] at whole
      rw [ext_names whole]
      exact .refl
    | append_singleton rest name ih =>
      obtain ⟨q', step⟩ := exists_parent? (p := q) (by simp [← whole])
      have names := (parent?_eq_some_iff.1 step).2
      rw [← whole, ← List.append_assoc, List.dropLast_concat] at names
      exact .head step (ih names.symm)
  · intro climbs
    induction climbs with
    | refl => exact isAncestorOf_refl q
    | tail _ step above => exact isAncestorOf_trans (isAncestorOf_of_parent? step) above

/-! ## Parents -/

/-- What stands before the last slash of a text that is not empty. -/
def textParent? (s : String) : Option String :=
  if s = "" then none else some (String.ofList (s.toList.take ((lastAt? '/' s.toList).getD 0)))

theorem text_parent? (p : WorkspacePath) : p.parent?.map text = textParent? p.text := by
  by_cases root : p.names = []
  · have isRoot : p.isRoot = true := List.isEmpty_iff.2 root
    rw [textParent?, if_pos (text_eq_empty_iff.2 root), parent?, if_pos isRoot]
    rfl
  · obtain ⟨q, step⟩ := exists_parent? root
    obtain ⟨names, name, whole⟩ := (List.eq_nil_or_concat' p.names).resolve_left root
    have upper : q.names = names := by
      rw [(parent?_eq_some_iff.1 step).2, whole, List.dropLast_concat]
    have plain : '/' ∉ name.toList := fun mem =>
      Bool.noConfusion ((p.valid name (by simp [whole])).2.2.2 '/' mem)
    rw [step, Option.map_some, textParent?, if_neg (mt text_eq_empty_iff.1 root), toList_text p,
      whole, List.map_append, ← String.ofList_toList (s := q.text), toList_text q, upper]
    by_cases top : names = []
    · have one : glue '/' [name.toList] = name.toList := rfl
      rw [top, List.map_nil, List.nil_append, List.map_singleton, one, lastAt?_eq_none plain]
      rfl
    · rw [glue_append (by simpa using top) (by simp), List.map_singleton, glue,
        lastAt?_append _ plain, Option.getD_some, List.take_left]

/-! ## Joining -/

theorem text_append (p q : WorkspacePath) :
    (p ++ q).text = ArtifactLocation.joinFragments p.text q.text := by
  rw [ArtifactLocation.joinFragments]
  split_ifs with left right
  · rw [text, names_append, text_eq_empty_iff.1 left]
    rfl
  · rw [text, names_append, text_eq_empty_iff.1 right, List.append_nil]
    rfl
  · -- A text does not end in a slash, so there is nothing to trim.
    have trimmed : (p.text.toList.reverse.dropWhile (· == '/')).reverse = p.text.toList := by
      refine List.rdropWhile_eq_self_iff.2 fun some slash => ?_
      apply (not_slash_at_ends p).2
      rw [List.getLast?_eq_some_getLast some, eq_of_beq slash]
    rw [trimmed, ← String.ofList_toList (s := (p ++ q).text), toList_text, names_append,
      List.map_append, glue_append (by simpa using mt text_eq_empty_iff.2 left)
      (by simpa using mt text_eq_empty_iff.2 right), toList_text, toList_text]

/-! ## Order -/

/-- The bytes of a text in UTF-8. -/
def bytes (s : String) : List UInt8 := s.toByteArray.data.toList

theorem bytes_append (s t : String) : bytes (s ++ t) = bytes s ++ bytes t := by
  simp [bytes]

theorem bytes_eq_nil_iff : bytes s = [] ↔ s = "" := by
  rw [bytes, ← List.length_eq_zero_iff, ← String.utf8ByteSize_eq_zero_iff]
  rfl

/-- Ancestors come first in the order of bytes, too. -/
theorem bytes_lt_of_isAncestorOf (above : p.isAncestorOf q = true) (ne : p ≠ q) :
    bytes p.text < bytes q.text := by
  obtain ⟨rest, whole⟩ := text_prefix_of_isAncestorOf above
  have split : q.text = p.text ++ String.ofList rest := by
    rw [← String.toList_inj, ← whole, String.toList_append, String.toList_ofList]
  have more : bytes (String.ofList rest) ≠ [] := by
    rw [Ne, bytes_eq_nil_iff]
    intro nothing
    rw [nothing, String.append_empty] at split
    exact ne (text_injective split.symm)
  obtain ⟨b, bs, more⟩ := List.exists_cons_of_ne_nil more
  have longer : bytes p.text ++ [] < bytes p.text ++ b :: bs :=
    List.append_left_lt (List.nil_lt_cons b bs)
  rw [List.append_nil] at longer
  rwa [split, bytes_append, more]

/-! ## All of it -/

/-- A text that is read is kept as its segments with slashes between them, and each question about
paths has one answer whether it is asked of lists of segments, of texts or of parents. -/
theorem segments_tell (s c : String) (p q r d : WorkspacePath) :
    (parse s = .ok p → p.text = Text.join '/' (segments s) ∧ parse p.text = .ok p) ∧
    (p.isAncestorOf q = true ↔ segments p.text <+: segments q.text) ∧
    (p.isAncestorOf q = true ↔ TextAbove p.text q.text) ∧
    (p.isAncestorOf q = true ↔ Climbs q p) ∧
    p.parent?.map text = textParent? p.text ∧
    p.isAncestorOf p = true ∧
    (p.isAncestorOf q = true → q.isAncestorOf r = true → p.isAncestorOf r = true) ∧
    (p.isAncestorOf q = true → q.isAncestorOf p = true → p = q) ∧
    (p.isAncestorOf r = true → q.isAncestorOf r = true →
      p.isAncestorOf q = true ∨ q.isAncestorOf p = true) ∧
    (p.isAncestorOf q = true → p ≠ q →
      compare p q = .lt ∧ p.text < q.text ∧ bytes p.text < bytes q.text) ∧
    (parse c = .ok d → p.join c = .ok (p ++ d) ∧
      (p ++ d).text = ArtifactLocation.joinFragments p.text d.text ∧
      segments (p ++ d).text = segments p.text ++ segments c ∧ p.isAncestorOf (p ++ d) = true) := by
  refine ⟨?reading, ?prefixes, isAncestorOf_iff_textAbove, isAncestorOf_iff_climbs, text_parent? p,
    isAncestorOf_refl p, isAncestorOf_trans, isAncestorOf_antisymm, isAncestorOf_or, ?order,
    ?joining⟩
  case reading => exact fun read => ⟨text_eq_of_parse read, parse_text p⟩
  case prefixes => rw [isAncestorOf_iff, segments_text, segments_text]
  case order =>
    intro above ne
    have first := compare_of_isAncestorOf above ne
    exact ⟨first, compare_eq_lt_iff.1 first, bytes_lt_of_isAncestorOf above ne⟩
  case joining =>
    intro read
    refine ⟨by rw [join, read]; rfl, text_append p d, ?_, isAncestorOf_append p d⟩
    rw [segments_text, segments_text, names_append, segments, (parse_eq_ok_iff.1 read).2.2]

/-- `java/com`, a path below it, and the same path reached with other separators. -/
theorem segments_tell_java : ∃ p q d : WorkspacePath,
    parse "./java//com/" = .ok p ∧ parse ".\\app//" = .ok d ∧ p.isAncestorOf q = true ∧ p ≠ q ∧
    p.text = Text.join '/' (segments "./java//com/") ∧ p.text < q.text ∧
    p.join ".\\app//" = .ok (p ++ d) ∧
    segments (p ++ d).text = segments p.text ++ segments ".\\app//" := by
  obtain ⟨reading, -, -, -, -, -, -, -, -, order, joining⟩ :=
    segments_tell "./java//com/" ".\\app//" ⟨["java", "com"], by decide⟩
      ⟨["java", "com", "app"], by decide⟩ ⟨["java", "com", "app"], by decide⟩ ⟨["app"], by decide⟩
  have above := order (by decide) (by decide)
  have joined := joining rfl
  exact ⟨_, _, _, rfl, rfl, by decide, by decide, (reading rfl).1, above.2.1, joined.1,
    joined.2.2.1⟩

end WorkspaceSync.WorkspacePath
