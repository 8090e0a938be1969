import WorkspaceSync.Text.Blank
import WorkspaceSync.Text.Quoted
import WorkspaceSync.Text.Segments

/-!
# Target labels

A label names one target: `//package:name`, or `@repository//package:name` outside the main
workspace. `Label.parse` also reads the shorthand `//a/b`, which stands for `//a/b:b`. A label
holds its three parts with the proof that they can be told apart in the text, so that `Label.text`
is its only canonical spelling.
-/

namespace WorkspaceSync

open Text

inductive LabelError where
  | empty
  | missingWorkspaceRoot (label : String)
  | emptyTargetName (label : String)
  | invalidCharacter (label : String) (c : Char)
  deriving DecidableEq, Repr

namespace LabelError

def message : LabelError → String
  | empty => "empty label"
  | missingWorkspaceRoot l => s!"label '{l}' must start with '//' or '@repo//'"
  | emptyTargetName l => s!"label '{l}' has an empty target name"
  | invalidCharacter l c => s!"label '{l}' contains invalid character {quotedChar c}"

end LabelError

namespace Label

/-- No label holds a blank or a backslash. -/
def isForbidden (c : Char) : Bool := isBlank c || c == '\\'

/-- What stands before and after the first `//`. -/
def cutAtRoot : List Char → Option (List Char × List Char)
  | [] => none
  | '/' :: '/' :: cs => some ([], cs)
  | c :: cs => (cutAtRoot cs).map fun (a, b) => (c :: a, b)

/-- A repository is followed by the first `//` of its label. -/
def IsRepository (r : String) : Prop :=
  (∀ c ∈ r.toList, isForbidden c = false) ∧ cutAtRoot (r.toList ++ ['/', '/']) = some (r.toList, [])

def IsPackage (p : String) : Prop := ∀ c ∈ p.toList, isForbidden c = false ∧ c ≠ ':'

def IsTargetName (n : String) : Prop :=
  n.toList ≠ [] ∧ ∀ c ∈ n.toList, isForbidden c = false ∧ c ≠ ':'

instance (r : String) : Decidable (IsRepository r) :=
  have : Decidable (∀ c ∈ r.toList, isForbidden c = false) := List.decidableBAll _ _
  inferInstanceAs (Decidable (_ ∧ _))

instance (p : String) : Decidable (IsPackage p) := List.decidableBAll _ _

instance (n : String) : Decidable (IsTargetName n) :=
  have : Decidable (∀ c ∈ n.toList, isForbidden c = false ∧ c ≠ ':') := List.decidableBAll _ _
  inferInstanceAs (Decidable (_ ∧ _))

end Label

structure Label where
  repository : Option String
  package : String
  name : String
  repository_valid : ∀ r, repository = some r → Label.IsRepository r
  package_valid : Label.IsPackage package
  name_valid : Label.IsTargetName name
  deriving DecidableEq

namespace Label

/-- The canonical spelling. -/
def text (l : Label) : String :=
  (match l.repository with
    | some r => "@" ++ r
    | none => "") ++ "//" ++ l.package ++ ":" ++ l.name

instance : ToString Label := ⟨text⟩

/-- Labels are ordered as their canonical spellings, by code point. -/
instance : Ord Label := ⟨compareOn text⟩

instance : Std.TransOrd Label := inferInstanceAs (Std.TransCmp (compareOn text))

/-- Targets of other repositories; `@//a:a` is one of the main workspace. -/
def isExternal (l : Label) : Bool := l.repository.any (· != "")

theorem cutAtRoot_append {cs a b : List Char} (h : cutAtRoot cs = some (a, b)) :
    cs = a ++ '/' :: '/' :: b := by
  fun_induction cutAtRoot cs generalizing a with
  | case1 => simp at h
  | case2 cs => simp_all
  | case3 c cs _ ih =>
    obtain ⟨⟨x, y⟩, hxy, e⟩ := Option.map_eq_some_iff.1 h
    obtain ⟨rfl, rfl⟩ : c :: x = a ∧ y = b := by simpa using e
    rw [ih hxy, List.cons_append]

/-- Where the first `//` stands does not depend on what follows it. -/
theorem cutAtRoot_append_root {cs a b : List Char} (h : cutAtRoot cs = some (a, b))
    (b' : List Char) : cutAtRoot (a ++ '/' :: '/' :: b') = some (a, b') := by
  fun_induction cutAtRoot cs generalizing a with
  | case1 => simp at h
  | case2 cs =>
    obtain ⟨rfl, -⟩ : [] = a ∧ cs = b := by simpa using h
    rfl
  | case3 c cs hn ih =>
    obtain ⟨⟨x, y⟩, hxy, e⟩ := Option.map_eq_some_iff.1 h
    obtain ⟨rfl, rfl⟩ : c :: x = a ∧ y = b := by simpa using e
    have hcs := cutAtRoot_append hxy
    rw [List.cons_append]
    cases x with
    | nil =>
      by_cases hc : c = '/'
      · exact (hn ('/' :: y) hc hcs).elim
      · simp [cutAtRoot, hc]
    | cons d x =>
      by_cases hc : c = '/' ∧ d = '/'
      · exact (hn (x ++ '/' :: '/' :: y) hc.1 (by simp [hcs, hc.2])).elim
      · have := ih hxy
        simp_all [cutAtRoot]

/-- The repository and the body of a label text, around its first `//`. -/
def splitRoot : List Char → Option (Option (List Char) × List Char)
  | '@' :: cs => (cutAtRoot cs).map fun (r, body) => (some r, body)
  | '/' :: '/' :: body => some (none, body)
  | _ => none

theorem splitRoot_repository {t r body : List Char} (h : splitRoot t = some (some r, body)) :
    t = '@' :: (r ++ '/' :: '/' :: body) ∧ cutAtRoot (r ++ ['/', '/']) = some (r, []) := by
  unfold splitRoot at h
  split at h
  · obtain ⟨⟨x, y⟩, hxy, e⟩ := Option.map_eq_some_iff.1 h
    obtain ⟨rfl, rfl⟩ : x = r ∧ y = body := by simpa using e
    exact ⟨by rw [← cutAtRoot_append hxy], cutAtRoot_append_root hxy []⟩
  · simp at h
  · simp at h

theorem splitRoot_suffix {t body : List Char} {r : Option (List Char)}
    (h : splitRoot t = some (r, body)) : body <:+ t := by
  cases r with
  | some r => exact ⟨'@' :: (r ++ ['/', '/']), by simp [(splitRoot_repository h).1]⟩
  | none =>
    unfold splitRoot at h
    split at h
    · simp at h
    · exact ⟨['/', '/'], by simp_all⟩
    · simp at h

/-- The part of a path after its last separator. -/
def lastSegment (cs : List Char) : List Char := (cs.reverse.takeWhile (· ≠ '/')).reverse

theorem lastSegment_subset (cs : List Char) : lastSegment cs ⊆ cs := fun c hc => by
  have := (List.takeWhile_sublist (l := cs.reverse) (· ≠ '/')).subset (List.mem_reverse.1 hc)
  simpa using this

/-- The package and the name that a label's body spells, in full or by the shorthand. -/
def splitBody (shown : String) (body : List Char) :
    Except LabelError (List Char × List Char) :=
  match cut ':' body with
  | some (package, name) =>
    if name = [] then .error (.emptyTargetName shown)
    else if ':' ∈ name then .error (.invalidCharacter shown ':')
    else .ok (package, name)
  | none =>
    if lastSegment body = [] then .error (.emptyTargetName shown)
    else .ok (body, lastSegment body)

theorem splitBody_ok {shown : String} {body package name : List Char}
    (h : splitBody shown body = .ok (package, name)) :
    package ⊆ body ∧ name ⊆ body ∧ ':' ∉ package ∧ ':' ∉ name ∧ name ≠ [] := by
  unfold splitBody at h
  split at h
  · rename_i p n hc
    obtain ⟨hb, hp⟩ := cut_eq_some_iff.1 hc
    split at h
    · simp at h
    · split at h
      · simp at h
      · obtain ⟨rfl, rfl⟩ : p = package ∧ n = name := by simpa using h
        refine ⟨fun c h => ?_, fun c h => ?_, hp, by assumption, by assumption⟩ <;> simp [hb, h]
  · rename_i hc
    have hb := cut_eq_none_iff.1 hc
    split at h
    · simp at h
    · obtain ⟨rfl, rfl⟩ : body = package ∧ lastSegment body = name := by simpa using h
      exact ⟨fun _ h => h, lastSegment_subset body, hb, fun h => hb (lastSegment_subset body h),
        by assumption⟩

/-- Reads a label, surrounded by blanks or not, in full or by the shorthand. -/
def parse (s : String) : Except LabelError Label :=
  let t := trimChars s.toList
  let shown := String.ofList t
  if t = [] then .error .empty
  else
    match hf : t.find? isForbidden with
    | some c => .error (.invalidCharacter shown c)
    | none =>
      match hr : splitRoot t with
      | none => .error (.missingWorkspaceRoot shown)
      | some (repository, body) =>
        match hb : splitBody shown body with
        | .error e => .error e
        | .ok (package, name) =>
          have ht : ∀ c ∈ t, isForbidden c = false := by simpa using hf
          have hs : ∀ c ∈ body, isForbidden c = false := fun c hc =>
            ht c ((splitRoot_suffix hr).subset hc)
          have hpn := splitBody_ok hb
          .ok {
            repository := repository.map String.ofList
            package := String.ofList package
            name := String.ofList name
            repository_valid := by
              intro r h
              obtain ⟨r, rfl, rfl⟩ := Option.map_eq_some_iff.1 h
              obtain ⟨e, hc⟩ := splitRoot_repository hr
              exact ⟨fun c h => ht c (by rw [e]; simp_all), by simpa using hc⟩
            package_valid := fun c h => by
              rw [String.toList_ofList] at h
              exact ⟨hs c (hpn.1 h), fun e => hpn.2.2.1 (e ▸ h)⟩
            name_valid := by
              refine ⟨by simpa using hpn.2.2.2.2, fun c h => ?_⟩
              rw [String.toList_ofList] at h
              exact ⟨hs c (hpn.2.1 h), fun e => hpn.2.2.2.1 (e ▸ h)⟩ }

end Label

end WorkspaceSync
