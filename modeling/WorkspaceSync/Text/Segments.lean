/-!
# Cutting texts at separators

`pieces` cuts a list of characters at every separator and keeps empty pieces; `glue` puts a
separator between pieces. `pieces_glue` says that cutting undoes gluing. `lines` cuts a text at its
line ends, of which the last one opens no further line.
-/

namespace WorkspaceSync.Text

/-- The pieces between separators; there is always at least one. -/
def pieces (sep : Char → Bool) : List Char → List (List Char)
  | [] => [[]]
  | c :: cs =>
    if sep c then [] :: pieces sep cs
    else
      match pieces sep cs with
      | [] => [[c]]
      | p :: ps => (c :: p) :: ps

/-- Pieces joined by one separator each. -/
def glue (sep : Char) : List (List Char) → List Char
  | [] => []
  | [p] => p
  | p :: q :: ps => p ++ sep :: glue sep (q :: ps)

theorem pieces_ne_nil (sep : Char → Bool) (cs : List Char) : pieces sep cs ≠ [] := by
  cases cs with
  | nil => simp [pieces]
  | cons c cs =>
    rw [pieces]
    split
    · simp
    · split <;> simp

theorem not_sep_of_mem_pieces {sep : Char → Bool} {cs p : List Char} (h : p ∈ pieces sep cs) :
    ∀ c ∈ p, sep c = false := by
  induction cs generalizing p with
  | nil => simp_all [pieces]
  | cons d cs ih =>
    rw [pieces] at h
    split at h
    · rcases List.mem_cons.1 h with rfl | h
      · simp
      · exact ih h
    · rename_i hd
      split at h
      · simp_all
      · rename_i q qs hq
        rcases List.mem_cons.1 h with rfl | h
        · intro c hc
          rcases List.mem_cons.1 hc with rfl | hc
          · simpa using hd
          · exact ih (hq ▸ List.mem_cons_self) c hc
        · exact ih (hq ▸ List.mem_cons_of_mem _ h)

theorem mem_of_mem_pieces {sep : Char → Bool} {cs p : List Char} {c : Char}
    (h : p ∈ pieces sep cs) (hc : c ∈ p) : c ∈ cs := by
  induction cs generalizing p with
  | nil => simp_all [pieces]
  | cons d cs ih =>
    rw [pieces] at h
    split at h
    · rcases List.mem_cons.1 h with rfl | h
      · simp at hc
      · exact .tail _ (ih h hc)
    · split at h
      · simp_all
      · rename_i q qs hq
        rcases List.mem_cons.1 h with rfl | h
        · rcases List.mem_cons.1 hc with rfl | hc
          · exact .head _
          · exact .tail _ (ih (hq ▸ List.mem_cons_self) hc)
        · exact .tail _ (ih (hq ▸ List.mem_cons_of_mem _ h) hc)

theorem pieces_append_sep {sep : Char → Bool} {p : List Char} {c : Char} (rest : List Char)
    (hp : ∀ d ∈ p, sep d = false) (hc : sep c = true) :
    pieces sep (p ++ c :: rest) = p :: pieces sep rest := by
  induction p with
  | nil => simp [pieces, hc]
  | cons d p ih =>
    rw [List.cons_append, pieces, if_neg (by simp [hp d]), ih fun e he => hp e (.tail _ he)]

theorem pieces_of_not_sep {sep : Char → Bool} {p : List Char} (hp : ∀ d ∈ p, sep d = false) :
    pieces sep p = [p] := by
  induction p with
  | nil => rfl
  | cons d p ih => rw [pieces, if_neg (by simp [hp d]), ih fun e he => hp e (.tail _ he)]

theorem pieces_glue {sep : Char → Bool} {c : Char} (hc : sep c = true) {ps : List (List Char)}
    (hne : ps ≠ []) (hps : ∀ p ∈ ps, ∀ d ∈ p, sep d = false) : pieces sep (glue c ps) = ps := by
  fun_induction glue c ps with
  | case1 => exact absurd rfl hne
  | case2 p => exact pieces_of_not_sep (hps p (by simp))
  | case3 p q ps ih =>
    rw [pieces_append_sep _ (hps p (by simp)) hc, ih (by simp) fun r hr => hps r (.tail _ hr)]

/-- The pieces as texts. -/
def split (sep : Char → Bool) (s : String) : List String :=
  (pieces sep s.toList).map String.ofList

/-- A line without the carriage return that may stand at its end. -/
def dropReturn (cs : List Char) : List Char :=
  if cs.getLast? = some '\r' then cs.dropLast else cs

/-- The lines of a text. A line feed ends one, together with a carriage return right before it; what
stands after the last line feed is a line where it is not empty, and keeps its carriage return. -/
def lines (s : String) : List String :=
  let ps := pieces (· == '\n') s.toList
  (ps.dropLast.map dropReturn ++ ps.getLast?.toList.filter (!·.isEmpty)).map String.ofList

/-- Texts joined by one separator each. -/
def join (sep : Char) (ps : List String) : String :=
  String.ofList (glue sep (ps.map String.toList))

/-- What stands before and after the first separator. -/
def cut (sep : Char) : List Char → Option (List Char × List Char)
  | [] => none
  | c :: cs => if c = sep then some ([], cs) else (cut sep cs).map fun (a, b) => (c :: a, b)

theorem cut_eq_some_iff {sep : Char} {cs a b : List Char} :
    cut sep cs = some (a, b) ↔ cs = a ++ sep :: b ∧ sep ∉ a := by
  induction cs generalizing a with
  | nil => simp [cut]
  | cons c cs ih =>
    rw [cut]
    by_cases h : c = sep
    · subst h
      rw [if_pos rfl]
      constructor
      · rintro h
        obtain ⟨rfl, rfl⟩ : [] = a ∧ cs = b := by simpa using h
        simp
      · rintro ⟨h, hn⟩
        cases a with
        | nil => simp_all
        | cons d a => simp_all
    · rw [if_neg h]
      cases a with
      | nil => simp [h]
      | cons d a =>
        simp only [Option.map_eq_some_iff, Prod.exists, Prod.mk.injEq, List.cons.injEq,
          List.cons_append, List.mem_cons, not_or]
        constructor
        · rintro ⟨x, y, hxy, ⟨rfl, rfl⟩, rfl⟩
          exact ⟨⟨rfl, (ih.1 hxy).1⟩, fun e => h e.symm, (ih.1 hxy).2⟩
        · rintro ⟨⟨rfl, e⟩, _, hn⟩
          exact ⟨a, b, ih.2 ⟨e, hn⟩, ⟨rfl, rfl⟩, rfl⟩

theorem cut_eq_none_iff {sep : Char} {cs : List Char} : cut sep cs = none ↔ sep ∉ cs := by
  induction cs with
  | nil => simp [cut]
  | cons c cs ih =>
    rw [cut]
    by_cases h : c = sep
    · simp [h]
    · rw [if_neg h, Option.map_eq_none_iff, ih]
      simp [Ne.symm h]

end WorkspaceSync.Text
