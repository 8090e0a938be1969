import WorkspaceSync.Text.Segments

/-!
# Cutting what was put together

A text put together from two at a separator has the pieces of both, and pieces glued in two goes are
the pieces glued at once. Which characters separate matters only where they occur. A separator may
also be looked up by its position; slices between positions give back what was put together.
-/

namespace WorkspaceSync.Text

variable {sep : Char → Bool} {c : Char}

theorem pieces_append (hc : sep c = true) (cs rest : List Char) :
    pieces sep (cs ++ c :: rest) = pieces sep cs ++ pieces sep rest := by
  induction cs with
  | nil => simp [pieces, hc]
  | cons d cs ih =>
    rw [List.cons_append, pieces, pieces, ih]
    split
    · rfl
    · cases parts : pieces sep cs with
      | nil => exact absurd parts (pieces_ne_nil sep cs)
      | cons p ps => rfl

theorem pieces_congr {sep' : Char → Bool} {cs : List Char} (same : ∀ d ∈ cs, sep d = sep' d) :
    pieces sep cs = pieces sep' cs := by
  induction cs with
  | nil => rfl
  | cons d cs ih =>
    rw [pieces, pieces, same d List.mem_cons_self, ih fun e he => same e (.tail _ he)]

/-- Cutting at more characters cuts the pieces of the first cut further. -/
theorem pieces_flatMap {sep' : Char → Bool} (finer : ∀ d, sep d = true → sep' d = true)
    (cs : List Char) : pieces sep' cs = (pieces sep cs).flatMap (pieces sep') := by
  induction cs with
  | nil => rfl
  | cons d cs ih =>
    by_cases isSep : sep d = true
    · rw [pieces, if_pos (finer d isSep), pieces, if_pos isSep, ih]
      rfl
    · obtain ⟨p, ps, parts⟩ := List.exists_cons_of_ne_nil (pieces_ne_nil sep cs)
      obtain ⟨q, qs, first⟩ := List.exists_cons_of_ne_nil (pieces_ne_nil sep' p)
      rw [parts, List.flatMap_cons, first] at ih
      rw [pieces, ih, pieces, if_neg isSep, parts, List.flatMap_cons, pieces, first]
      split <;> rfl

/-- What stands before the first separator begins the text. -/
theorem glue_append {ps qs : List (List Char)} (hp : ps ≠ []) (hq : qs ≠ []) :
    glue c (ps ++ qs) = glue c ps ++ c :: glue c qs := by
  fun_induction glue c ps with
  | case1 => exact absurd rfl hp
  | case2 p =>
    obtain ⟨q, qs, rfl⟩ := List.exists_cons_of_ne_nil hq
    rfl
  | case3 p q ps ih =>
    rw [List.cons_append, List.cons_append, glue, ← List.cons_append, ih (by simp),
      List.append_assoc, List.cons_append]

theorem glue_eq_nil_iff {ps : List (List Char)} (ne : [] ∉ ps) : glue c ps = [] ↔ ps = [] := by
  fun_cases glue c ps with
  | case1 => simp
  | case2 p => simpa [eq_comm] using ne
  | case3 p q ps => simp

/-- Gluing undoes cutting where one character only separates. -/
theorem glue_pieces {cs : List Char} (only : ∀ d ∈ cs, sep d = true → d = c) :
    glue c (pieces sep cs) = cs := by
  induction cs with
  | nil => rfl
  | cons d cs ih =>
    have rest := ih fun e he => only e (List.mem_cons_of_mem d he)
    obtain ⟨p, ps, parts⟩ := List.exists_cons_of_ne_nil (pieces_ne_nil sep cs)
    rw [parts] at rest
    rw [pieces, parts]
    split
    · rename_i isSep
      rw [glue, List.nil_append, rest, only d List.mem_cons_self isSep]
    · cases ps with
      | nil => exact congrArg (d :: ·) rest
      | cons q ps => exact congrArg (d :: ·) rest

/-- Gluing with another character puts that one in the places of the first. -/
theorem glue_eq_map {c' : Char} {ps : List (List Char)} (absent : ∀ p ∈ ps, c ∉ p) :
    glue c' ps = (glue c ps).map fun d => if d = c then c' else d := by
  have kept : ∀ p ∈ ps, p.map (fun d => if d = c then c' else d) = p := by
    intro p mem
    refine (List.map_congr_left fun d hd => ?_).trans (List.map_id p)
    apply if_neg
    rintro rfl
    exact absent p mem hd
  fun_induction glue c ps with
  | case1 => rfl
  | case2 p => exact (kept p List.mem_cons_self).symm
  | case3 p q ps ih =>
    have rest := ih (fun r hr => absent r (.tail _ hr)) fun r hr => kept r (.tail _ hr)
    rw [glue, rest, List.map_append, kept p List.mem_cons_self, List.map_cons, if_pos rfl]

theorem mem_glue {ps : List (List Char)} {d : Char} (h : d ∈ glue c ps) :
    d = c ∨ ∃ p ∈ ps, d ∈ p := by
  fun_induction glue c ps with
  | case1 => simp at h
  | case2 p => exact .inr ⟨p, List.mem_cons_self, h⟩
  | case3 p q ps ih =>
    rw [List.mem_append, List.mem_cons] at h
    rcases h with first | rfl | rest
    · exact .inr ⟨p, List.mem_cons_self, first⟩
    · exact .inl rfl
    · rcases ih rest with rfl | ⟨r, mem, hd⟩
      · exact .inl rfl
      · exact .inr ⟨r, List.mem_cons_of_mem _ mem, hd⟩

theorem pieces_of_absent {cs : List Char} (absent : c ∉ cs) : pieces (· == c) cs = [cs] := by
  apply pieces_of_not_sep
  intro d mem
  rw [beq_eq_false_iff_ne]
  rintro rfl
  exact absent mem

/-! ## The first separator -/

/-- A further separator is not the first one where there is one before. -/
theorem cut_append (a b : List Char) :
    cut c (a ++ c :: b) = some (((cut c a).map fun (x, y) => (x, y ++ c :: b)).getD (a, b)) := by
  cases first : cut c a with
  | none => exact cut_eq_some_iff.2 ⟨rfl, cut_eq_none_iff.1 first⟩
  | some parts =>
    obtain ⟨x, y⟩ := parts
    obtain ⟨rfl, absent⟩ := cut_eq_some_iff.1 first
    rw [List.append_assoc]
    exact cut_eq_some_iff.2 ⟨rfl, absent⟩

/-- Two texts put together at a separator are the same if their parts are, or if the text after one
of the separators holds the other separator. -/
theorem append_sep_inj {a b x y : List Char} : a ++ c :: x = b ++ c :: y ↔
    a = b ∧ x = y ∨ (∃ z, b = a ++ c :: z ∧ x = z ++ c :: y) ∨
      ∃ z, a = b ++ c :: z ∧ y = z ++ c :: x := by
  constructor
  · rw [List.append_eq_append_iff]
    rintro (⟨z, rfl, rest⟩ | ⟨z, rfl, rest⟩)
    all_goals
      cases z with
      | nil => simp_all
      | cons d z =>
        obtain ⟨rfl, rfl⟩ := List.cons.inj rest
        simp
  · rintro (⟨rfl, rfl⟩ | ⟨z, rfl, rfl⟩ | ⟨z, rfl, rfl⟩)
    · rfl
    · rw [List.append_assoc, List.cons_append]
    · rw [List.append_assoc, List.cons_append]

/-! ## Positions -/

/-- The characters from one position up to another, if the positions are in order and within the
text. -/
def slice? (cs : List Char) (start stop : Nat) : Option (List Char) :=
  if start ≤ stop ∧ stop ≤ cs.length then some ((cs.take stop).drop start) else none

theorem slice?_append (before middle after : List Char) :
    slice? (before ++ middle ++ after) before.length (before.length + middle.length) =
      some middle := by
  rw [slice?, if_pos ⟨by omega, by simp⟩, ← List.length_append, List.take_left, List.drop_left]

/-- The position at which a character stands for the last time. -/
def lastAt? (c : Char) : List Char → Option Nat
  | [] => none
  | d :: cs => ((lastAt? c cs).map (· + 1)).or (if d = c then some 0 else none)

theorem lastAt?_eq_none {cs : List Char} (absent : c ∉ cs) : lastAt? c cs = none := by
  induction cs with
  | nil => rfl
  | cons d cs ih =>
    rw [List.mem_cons, not_or] at absent
    rw [lastAt?, ih absent.2, if_neg (Ne.symm absent.1)]
    rfl

theorem lastAt?_append (before : List Char) {after : List Char} (absent : c ∉ after) :
    lastAt? c (before ++ c :: after) = some before.length := by
  induction before with
  | nil => simp [lastAt?, lastAt?_eq_none absent]
  | cons d before ih => simp [lastAt?, ih]

end WorkspaceSync.Text
