import WorkspaceSync.FilePath
import WorkspaceSync.Text.Segments

/-!
# Workspace paths

A workspace path names a file or directory by the names that lead to it from the workspace root.
Reading one accepts both separators and drops empty names and `.`; `..` and absolute paths are
refused. Ancestry is the order of beginnings of lists of names.
-/

namespace WorkspaceSync

open Text

inductive WorkspacePathError where
  | absolute (path : String)
  | parentReference (path : String)
  deriving DecidableEq, Repr

namespace WorkspacePathError

def message : WorkspacePathError → String
  | absolute p => s!"workspace path '{p}' must be relative"
  | parentReference p => s!"workspace path '{p}' must not contain '..'"

end WorkspacePathError

/-- Both kinds of separator. -/
def Text.isSeparator (c : Char) : Bool := c == '/' || c == '\\'

/-- Paths that begin with a separator or hold a drive. -/
def Text.isAbsolute (s : String) : Bool :=
  s.toList.head? == some '/' || hasDrive s.toList
where
  hasDrive : List Char → Bool
    | ':' :: '\\' :: _ => true
    | _ :: cs => hasDrive cs
    | [] => false

/-- A name within a workspace path. -/
def WorkspacePath.IsName (s : String) : Prop :=
  s ≠ "" ∧ s ≠ "." ∧ s ≠ ".." ∧ ∀ c ∈ s.toList, isSeparator c = false

instance (s : String) : Decidable (WorkspacePath.IsName s) :=
  have : Decidable (∀ c ∈ s.toList, isSeparator c = false) := List.decidableBAll _ _
  inferInstanceAs (Decidable (_ ∧ _))

structure WorkspacePath where
  names : List String
  valid : ∀ s ∈ names, WorkspacePath.IsName s
  deriving DecidableEq

namespace WorkspacePath

/-- The names joined by slashes; the root is the empty text. -/
def text (p : WorkspacePath) : String := join '/' p.names

instance : ToString WorkspacePath := ⟨text⟩

/-- Workspace paths are ordered as their texts, by code point. -/
instance : Ord WorkspacePath := ⟨compareOn text⟩

instance : Std.TransOrd WorkspacePath := inferInstanceAs (Std.TransCmp (compareOn text))

def root : WorkspacePath := ⟨[], by simp⟩

instance : Inhabited WorkspacePath := ⟨root⟩

def isRoot (p : WorkspacePath) : Bool := p.names.isEmpty

/-- The path with the pieces that are names, where no piece is `..`. -/
def ofPieces (pieces : List String) (separated : ∀ s ∈ pieces, ∀ c ∈ s.toList, isSeparator c = false)
    (inside : ".." ∉ pieces) : WorkspacePath where
  names := pieces.filter fun s => s ≠ "" ∧ s ≠ "."
  valid s hs := by
    obtain ⟨hm, hn⟩ := List.mem_filter.1 hs
    simp only [ne_eq, decide_not, Bool.decide_and, Bool.and_eq_true, Bool.not_eq_eq_eq_not,
      Bool.not_true, decide_eq_false_iff_not] at hn
    exact ⟨hn.1, hn.2, fun e => inside (e ▸ hm), separated s hm⟩

theorem separated_split (s : String) :
    ∀ p ∈ split isSeparator s, ∀ c ∈ p.toList, isSeparator c = false := by
  intro p hp
  obtain ⟨q, hq, rfl⟩ := List.mem_map.1 hp
  simpa using not_sep_of_mem_pieces hq

/-- Reads and normalises a relative path. -/
def parse (s : String) : Except WorkspacePathError WorkspacePath :=
  if isAbsolute s then .error (.absolute s)
  else if h : ".." ∈ split isSeparator s then .error (.parentReference s)
  else .ok (ofPieces (split isSeparator s) (separated_split s) h)

/-- A path is an ancestor of itself and of what is below it. -/
def isAncestorOf (p q : WorkspacePath) : Bool := p.names.isPrefixOf q.names

def parent? (p : WorkspacePath) : Option WorkspacePath :=
  if p.isRoot then none
  else some ⟨p.names.dropLast, fun s hs => p.valid s (List.dropLast_subset _ hs)⟩

def append (p q : WorkspacePath) : WorkspacePath :=
  ⟨p.names ++ q.names, fun s hs => (List.mem_append.1 hs).elim (p.valid s) (q.valid s)⟩

instance : Append WorkspacePath := ⟨append⟩

/-- Appends a relative path given as a text. -/
def join (p : WorkspacePath) (child : String) : Except WorkspacePathError WorkspacePath :=
  (parse child).map (p ++ ·)

/-- The last name, or the empty text for the root. -/
def fileName (p : WorkspacePath) : String := p.names.getLast?.getD ""

/-- The names that lead from `p` to a path below it. -/
def below (p q : WorkspacePath) : List String := q.names.drop p.names.length

@[simp] theorem names_append (p q : WorkspacePath) : (p ++ q).names = p.names ++ q.names := rfl

@[simp] theorem isAncestorOf_iff (p q : WorkspacePath) :
    p.isAncestorOf q = true ↔ p.names <+: q.names := by simp [isAncestorOf]

theorem isAncestorOf_refl (p : WorkspacePath) : p.isAncestorOf p = true := by simp

theorem isAncestorOf_trans {p q r : WorkspacePath} (h : p.isAncestorOf q = true)
    (h' : q.isAncestorOf r = true) : p.isAncestorOf r = true := by
  simp only [isAncestorOf_iff] at *
  exact h.trans h'

theorem isAncestorOf_append (p q : WorkspacePath) : p.isAncestorOf (p ++ q) = true := by simp

end WorkspacePath

/-- The directory that holds the workspace. -/
structure WorkspaceRoot where
  directory : FilePath
  deriving DecidableEq, Repr

namespace WorkspaceRoot

def file (r : WorkspaceRoot) (p : WorkspacePath) : FilePath :=
  if p.isRoot then r.directory else r.directory.push p.text

/-- The workspace path of a file at or below the root. -/
def pathOf? (r : WorkspaceRoot) (f : FilePath) : Option WorkspacePath :=
  (FilePath.below? r.directory f).bind fun rest => (WorkspacePath.parse rest.text).toOption

def contains (r : WorkspaceRoot) (f : FilePath) : Bool := (r.pathOf? f).isSome

end WorkspaceRoot

end WorkspaceSync
