import WorkspaceSync.Proofs.Label
import WorkspaceSync.Proofs.Text.Segments

/-!
# Which texts spell a label

A label is spelled by its canonical text and, where its name is the last directory of its package,
by the shorthand; up to blanks around it no other text is read as that label: `parse_eq_ok_iff`. So
which texts are labels at all is a matter of grammar. In a canonical text each part of the label
stands where the separators say, although the first `//` and the last `:` are looked up apart from
one another.
-/

namespace WorkspaceSync

open Text

namespace Label

variable {l : Label} {s : String} {t body package name : List Char}
  {repository : Option (List Char)}

/-! ## The first root -/

/-- A `//` that begins before the end of a text. -/
def RootWithin (cs : List Char) : Prop := ['/', '/'] <:+: cs ++ ['/']

theorem cutAtRoot_eq_some_iff {cs a b : List Char} :
    cutAtRoot cs = some (a, b) ↔ cs = a ++ '/' :: '/' :: b ∧ ¬ RootWithin a := by
  constructor
  · intro h
    refine ⟨cutAtRoot_append h, ?_⟩
    fun_induction cutAtRoot cs generalizing a with
    | case1 => cases h
    | case2 cs =>
      obtain ⟨rfl, -⟩ := Prod.mk.inj (Option.some.inj h)
      exact fun within => absurd within.length_le (by decide)
    | case3 c cs earlier ih =>
      obtain ⟨⟨x, y⟩, rest, parts⟩ := Option.map_eq_some_iff.1 h
      obtain ⟨rfl, rfl⟩ := Prod.mk.inj parts
      rw [RootWithin, List.cons_append, List.infix_cons_iff, not_or]
      refine ⟨?_, ih rest⟩
      -- A root at the very start would have been found there.
      intro first
      have whole := cutAtRoot_append rest
      cases x with
      | nil => exact earlier ('/' :: y) (List.cons_prefix_cons.1 first).1.symm whole
      | cons d x =>
        obtain ⟨rfl, second⟩ := List.cons_prefix_cons.1 first
        obtain ⟨rfl, -⟩ := List.cons_prefix_cons.1 second
        exact earlier (x ++ '/' :: '/' :: y) rfl whole
  · rintro ⟨rfl, none⟩
    induction a with
    | nil => rfl
    | cons c a ih =>
      rw [RootWithin, List.cons_append, List.infix_cons_iff, not_or] at none
      rw [List.cons_append, cutAtRoot, ih none.2, Option.map_some]
      rintro cs rfl next
      apply none.1
      cases a with
      | nil => exact List.prefix_rfl
      | cons d a =>
        obtain ⟨rfl, -⟩ := List.cons.inj next
        exact ⟨a ++ ['/'], rfl⟩

theorem rootWithin_at_cons {cs : List Char} : RootWithin ('@' :: cs) ↔ RootWithin cs := by
  rw [RootWithin, List.cons_append, List.infix_cons_iff, or_iff_right]
  · rfl
  · exact fun first => absurd (List.cons_prefix_cons.1 first).1 (by decide)

/-- What stands before the first root. -/
def front : Option (List Char) → List Char
  | none => []
  | some r => '@' :: r

theorem rooted_eq_front_append (l : Label) (body : List Char) :
    l.rooted body = front (l.repository.map String.toList) ++ '/' :: '/' :: body := by
  unfold rooted
  split <;> rename_i h <;> rw [h] <;> rfl

theorem splitRoot_eq_some_iff : splitRoot t = some (repository, body) ↔
    t = front repository ++ '/' :: '/' :: body ∧ ¬ RootWithin (front repository) := by
  constructor
  · intro h
    unfold splitRoot at h
    split at h
    · rename_i cs
      obtain ⟨⟨r, rest⟩, cut, parts⟩ := Option.map_eq_some_iff.1 h
      obtain ⟨rfl, rfl⟩ := Prod.mk.inj parts
      obtain ⟨rfl, none⟩ := cutAtRoot_eq_some_iff.1 cut
      exact ⟨rfl, mt rootWithin_at_cons.1 none⟩
    · obtain ⟨rfl, rfl⟩ := Prod.mk.inj (Option.some.inj h)
      exact ⟨rfl, fun within => absurd within.length_le (by decide)⟩
    · cases h
  · rintro ⟨rfl, none⟩
    cases repository with
    | none => rfl
    | some r =>
      have first := mt rootWithin_at_cons.2 none
      rw [front, List.cons_append, splitRoot, cutAtRoot_eq_some_iff.2 ⟨rfl, first⟩]
      rfl

/-! ## The body -/

theorem lastSegment_eq_nil_iff : lastSegment t = [] ↔ t = [] ∨ t.getLast? = some '/' := by
  rcases List.eq_nil_or_concat t with rfl | ⟨cs, c, rfl⟩
  · simp [lastSegment]
  · by_cases slash : c = '/' <;> simp [lastSegment, slash]

theorem splitBody_eq_ok_iff {shown : String} : splitBody shown body = .ok (package, name) ↔
    ':' ∉ package ∧ ':' ∉ name ∧ name ≠ [] ∧
      (body = package ++ ':' :: name ∨ body = package ∧ lastSegment package = name) := by
  constructor
  · intro h
    obtain ⟨-, -, package_clear, name_clear, some⟩ := splitBody_ok h
    refine ⟨package_clear, name_clear, some, ?_⟩
    unfold splitBody at h
    split at h
    · rename_i p n cut
      split at h
      · cases h
      · split at h
        · cases h
        · obtain ⟨rfl, rfl⟩ := Prod.mk.inj (Except.ok.inj h)
          exact .inl (cut_eq_some_iff.1 cut).1
    · split at h
      · cases h
      · obtain ⟨rfl, rfl⟩ := Prod.mk.inj (Except.ok.inj h)
        exact .inr ⟨rfl, rfl⟩
  · rintro ⟨package_clear, name_clear, some, rfl | ⟨rfl, rfl⟩⟩
    · rw [splitBody, cut_eq_some_iff.2 ⟨rfl, package_clear⟩]
      dsimp only
      rw [if_neg some, if_neg name_clear]
    · rw [splitBody, cut_eq_none_iff.2 package_clear]
      dsimp only
      rw [if_neg some]

/-- What may follow the root: a package and a name with one colon between them, or a package that
ends in a name. -/
inductive IsBody : List Char → Prop where
  | full {package name : List Char} (package_clear : ':' ∉ package) (name_clear : ':' ∉ name)
      (named : name ≠ []) : IsBody (package ++ ':' :: name)
  | shorthand {package : List Char} (clear : ':' ∉ package) (nonempty : package ≠ [])
      (named : package.getLast? ≠ some '/') : IsBody package

theorem isBody_iff_splitBody {shown : String} :
    IsBody body ↔ ∃ package name, splitBody shown body = .ok (package, name) := by
  constructor
  · intro h
    cases h with
    | full package_clear name_clear named =>
      exact ⟨_, _, splitBody_eq_ok_iff.2 ⟨package_clear, name_clear, named, .inl rfl⟩⟩
    | shorthand clear nonempty named =>
      refine ⟨body, lastSegment body, splitBody_eq_ok_iff.2 ⟨clear, ?_, ?_, .inr ⟨rfl, rfl⟩⟩⟩
      · exact fun mem => clear (lastSegment_subset body mem)
      · rw [Ne, lastSegment_eq_nil_iff, not_or]
        exact ⟨nonempty, named⟩
  · rintro ⟨package, name, read⟩
    obtain ⟨package_clear, name_clear, named, rfl | ⟨rfl, rfl⟩⟩ := splitBody_eq_ok_iff.1 read
    · exact .full package_clear name_clear named
    · rw [Ne, lastSegment_eq_nil_iff, not_or] at named
      exact .shorthand package_clear named.1 named.2

/-! ## Spellings -/

/-- The grammar of labels. The root is the first one in the text, and what stands before it is
nothing or begins with an at sign. -/
structure IsSpelling (t : List Char) : Prop where
  nonempty : t ≠ []
  allowed : ∀ c ∈ t, isBlank c = false ∧ c ≠ '\\'
  rooted : ∃ front body, t = front ++ '/' :: '/' :: body ∧ ¬ RootWithin front ∧
    (front = [] ∨ front.head? = some '@') ∧ IsBody body

theorem isForbidden_eq_false_iff {c : Char} :
    isForbidden c = false ↔ isBlank c = false ∧ c ≠ '\\' := by
  simp [isForbidden]

theorem exists_front_iff {cs : List Char} :
    (∃ r, cs = front r) ↔ cs = [] ∨ cs.head? = some '@' := by
  constructor
  · rintro ⟨_ | r, rfl⟩
    · exact .inl rfl
    · exact .inr rfl
  · rintro (rfl | start)
    · exact ⟨none, rfl⟩
    · obtain ⟨r, rfl⟩ := List.head?_eq_some_iff.1 start
      exact ⟨some r, rfl⟩

/-- A text that splits into parts is read. -/
theorem exists_parse_of_parts (allowed : ∀ c ∈ trimChars s.toList, isForbidden c = false)
    (parts : splitRoot (trimChars s.toList) = some (repository, body))
    (read : splitBody (String.ofList (trimChars s.toList)) body = .ok (package, name)) :
    ∃ l, parse s = .ok l := by
  cases result : parse s with
  | ok l => exact ⟨l, rfl⟩
  | error e =>
    unfold parse at result
    dsimp only at result
    split at result
    · rename_i empty
      rw [empty] at parts
      cases parts
    · split at result
      · rename_i c found
        have clear := allowed c (List.mem_of_find?_eq_some found)
        rw [List.find?_some found] at clear
        cases clear
      · split at result
        · rename_i root
          cases root.symm.trans parts
        · rename_i root
          obtain ⟨-, rfl⟩ := Prod.mk.inj (Option.some.inj (root.symm.trans parts))
          split at result
          · rename_i refused
            cases refused.symm.trans read
          · cases result

/-- The texts that are read are those of the grammar. -/
theorem exists_parse_eq_ok_iff :
    (∃ l, parse s = .ok l) ↔ IsSpelling (trimChars s.toList) := by
  constructor
  · rintro ⟨l, read⟩
    obtain ⟨allowed, body, parts, read⟩ := parse_eq_ok_iff_parts.1 read
    obtain ⟨whole, first⟩ := splitRoot_eq_some_iff.1 parts
    exact
      { nonempty := by simp [whole]
        allowed := fun c mem => isForbidden_eq_false_iff.1 (allowed c mem)
        rooted := ⟨_, body, whole, first, exists_front_iff.1 ⟨_, rfl⟩,
          isBody_iff_splitBody.2 ⟨_, _, read⟩⟩ }
  · rintro ⟨-, allowed, before, body, whole, first, start, isBody⟩
    obtain ⟨repository, rfl⟩ := exists_front_iff.2 start
    obtain ⟨package, name, read⟩ := isBody_iff_splitBody.1 isBody
    exact exists_parse_of_parts (fun c mem => isForbidden_eq_false_iff.2 (allowed c mem))
      (splitRoot_eq_some_iff.2 ⟨whole, first⟩) read

/-- A label has its canonical spelling and perhaps the shorthand, and no other. -/
theorem parse_eq_ok_iff : parse s = .ok l ↔
    trim s = l.text ∨ lastSegment l.package.toList = l.name.toList ∧ trim s = l.shorthand := by
  rw [parse_eq_ok_iff_parts, ← String.toList_inj, ← String.toList_inj, toList_trim, toList_text,
    shorthand, String.toList_ofList]
  constructor
  · rintro ⟨-, body, parts, read⟩
    have whole := (splitRoot_eq_some_iff.1 parts).1
    rw [← rooted_eq_front_append] at whole
    obtain ⟨-, -, -, rfl | ⟨rfl, named⟩⟩ := splitBody_eq_ok_iff.1 read
    · exact .inl whole
    · exact .inr ⟨named, whole⟩
  · rintro (whole | ⟨named, whole⟩)
    · rw [whole]
      exact ⟨fun c => not_isForbidden_of_mem_rooted fun _ => not_isForbidden_of_mem_body, l.body,
        splitRoot_rooted l _, splitBody_body l _⟩
    · rw [whole]
      exact ⟨fun c => not_isForbidden_of_mem_rooted fun d mem => (l.package_valid d mem).1,
        l.package.toList, splitRoot_rooted l _, splitBody_package named _⟩

/-! ## Parts by position -/

/-- The position of the first root. -/
def rootAt? (t : List Char) : Option Nat := (cutAtRoot t).map fun (before, _) => before.length

/-- What stands between an at sign at the start and the first root. Like `packageIn?` it has no
result if a slice is out of range. -/
def repositoryIn? (t : List Char) : Option (Option (List Char)) :=
  match t with
  | '@' :: rest =>
    match rootAt? rest with
    | some stop => (slice? rest 0 stop).map some
    | none => some none
  | _ => some none

/-- What stands between the first root and the last colon. -/
def packageIn? (t : List Char) : Option (List Char) :=
  slice? t ((rootAt? t).elim 0 (· + 2)) ((lastAt? ':' t).getD t.length)

/-- What stands after the last colon. -/
def nameIn (t : List Char) : List Char := ((pieces (· == ':') t).getLast?).getD []

theorem repositoryIn?_append {r : List Char} (first : ¬ RootWithin r) (rest : List Char) :
    repositoryIn? ('@' :: (r ++ '/' :: '/' :: rest)) = some (some r) := by
  have slice := slice?_append [] r ('/' :: '/' :: rest)
  rw [List.nil_append, List.length_nil, Nat.zero_add] at slice
  simp only [repositoryIn?, rootAt?, cutAtRoot_eq_some_iff.2 ⟨rfl, first⟩, Option.map_some, slice]

theorem packageIn?_append {before : List Char} (first : ¬ RootWithin before) (package : List Char)
    (clear : ':' ∉ name) :
    packageIn? (before ++ '/' :: '/' :: package ++ ':' :: name) = some package := by
  have root : rootAt? (before ++ '/' :: '/' :: package ++ ':' :: name) = some before.length := by
    rw [List.append_assoc, rootAt?, List.cons_append, List.cons_append,
      cutAtRoot_eq_some_iff.2 ⟨rfl, first⟩]
    rfl
  have slice := slice?_append (before ++ ['/', '/']) package (':' :: name)
  have stop : (before ++ '/' :: '/' :: package).length =
      (before ++ ['/', '/']).length + package.length := by simp; omega
  rw [packageIn?, root, lastAt?_append _ clear, Option.getD_some, stop]
  simpa using slice

theorem nameIn_append (before : List Char) (clear : ':' ∉ name) :
    nameIn (before ++ ':' :: name) = name := by
  rw [nameIn, pieces_append rfl, pieces_of_absent clear, List.getLast?_concat]
  rfl

theorem toList_text_eq (l : Label) : l.text.toList =
    front (l.repository.map String.toList) ++ '/' :: '/' :: l.package.toList ++
      ':' :: l.name.toList := by
  rw [toList_text, rooted_eq_front_append, body, List.append_assoc]
  rfl

theorem name_clear (l : Label) : ':' ∉ l.name.toList := fun mem => (l.name_valid.2 _ mem).2 rfl

theorem package_clear (l : Label) : ':' ∉ l.package.toList :=
  fun mem => (l.package_valid _ mem).2 rfl

/-- The parts of a label are found in its text. -/
theorem parts_in_text (l : Label) :
    repositoryIn? l.text.toList = some (l.repository.map String.toList) ∧
      packageIn? l.text.toList = some l.package.toList ∧ nameIn l.text.toList = l.name.toList := by
  have first := (splitRoot_eq_some_iff.1 (splitRoot_text l)).2
  rw [toList_text_eq]
  refine ⟨?repository, packageIn?_append first _ (name_clear l), nameIn_append _ (name_clear l)⟩
  cases h : l.repository with
  | none => rfl
  | some r =>
    rw [h] at first
    rw [Option.map_some, front, List.append_assoc]
    exact repositoryIn?_append (mt rootWithin_at_cons.2 first) _

theorem text_eq_shorthand_append (l : Label) : l.text = l.shorthand ++ ":" ++ l.name := by
  rw [← String.toList_inj, toList_text_eq, String.toList_append, String.toList_append, shorthand,
    String.toList_ofList, rooted_eq_front_append]
  simp

/-- A text is a label exactly if the grammar allows what is left of it without the blanks around it.
A label is spelled by its canonical text, by the shorthand where it has one, and by no other text;
its name and its package are free of colons, and each part stands in the canonical text where the
separators say. -/
theorem parse_by_grammar (s : String) (l : Label) :
    ((∃ m, parse s = .ok m) ↔ IsSpelling (trimChars s.toList)) ∧
    (parse s = .ok l ↔
      trim s = l.text ∨ lastSegment l.package.toList = l.name.toList ∧ trim s = l.shorthand) ∧
    parse l.text = .ok l ∧
    (lastSegment l.package.toList = l.name.toList → parse l.shorthand = .ok l) ∧
    l.text = l.shorthand ++ ":" ++ l.name ∧
    l.text.toList = front (l.repository.map String.toList) ++ '/' :: '/' :: l.package.toList ++
      ':' :: l.name.toList ∧
    l.name ≠ "" ∧ ':' ∉ l.name.toList ∧ ':' ∉ l.package.toList ∧
    repositoryIn? l.text.toList = some (l.repository.map String.toList) ∧
    packageIn? l.text.toList = some l.package.toList ∧
    nameIn l.text.toList = l.name.toList := by
  have named : l.name ≠ "" := mt String.toList_eq_nil_iff.2 l.name_valid.1
  exact ⟨exists_parse_eq_ok_iff, parse_eq_ok_iff, parse_text l, parse_shorthand,
    text_eq_shorthand_append l, toList_text_eq l, named, name_clear l, package_clear l,
    parts_in_text l⟩

example : repositoryIn? "@a:b//c/d:d".toList = some (some "a:b".toList) ∧
    packageIn? "@a:b//c/d:d".toList = some "c/d".toList := by decide

end Label

end WorkspaceSync
