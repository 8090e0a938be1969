import WorkspaceSync.Text.Segments

/-!
# File paths

A file path keeps its spelling but is compared component by component: repeated separators, a
separator at the end and `.` anywhere but in front do not count, `..` does. So paths that compare
equal may be spelled differently.
-/

namespace WorkspaceSync

open Text

structure FilePath where
  text : String
  deriving DecidableEq, Repr

namespace FilePath

inductive Component where
  | root
  | current
  | parent
  | normal (name : String)
  deriving DecidableEq, Repr

namespace Component

/-- The order of the kinds. -/
def rank : Component → Nat
  | root => 0
  | current => 1
  | parent => 2
  | normal _ => 3

def name : Component → String
  | root => "/"
  | current => "."
  | parent => ".."
  | normal s => s

instance : Ord Component := ⟨compareLex (compareOn rank) (compareOn name)⟩

instance : Std.TransOrd Component :=
  inferInstanceAs (Std.TransCmp (compareLex (compareOn rank) (compareOn name)))

end Component

def ofName (s : String) : Component := if s = ".." then .parent else .normal s

def components (p : FilePath) : List Component :=
  let names := (split (· == '/') p.text).filter (· ≠ "")
  let named := (names.filter (· ≠ ".")).map ofName
  if p.text.toList.head? = some '/' then .root :: named
  else if names.head? = some "." then .current :: named
  else named

instance : Ord FilePath := ⟨compareOn components⟩

instance : Std.TransOrd FilePath := inferInstanceAs (Std.TransCmp (compareOn components))

instance : ToString FilePath := ⟨text⟩

/-- Paths with the same components. -/
def Same (p q : FilePath) : Prop := compare p q = .eq

instance (p q : FilePath) : Decidable (Same p q) := inferInstanceAs (Decidable (_ = _))

theorem Same.refl (p : FilePath) : p.Same p := Std.ReflCmp.compare_self

theorem Same.symm {p q : FilePath} (h : p.Same q) : q.Same p := Std.OrientedCmp.eq_symm h

theorem Same.trans {p q r : FilePath} (h : p.Same q) (h' : q.Same r) : p.Same r :=
  Std.TransCmp.eq_trans h h'

/-- Appends one name: to the empty path, after a separator, or after a new one. -/
def push (p : FilePath) (name : String) : FilePath :=
  if p.text = "" then ⟨name⟩
  else if p.text.toList.getLast? = some '/' then ⟨p.text ++ name⟩
  else ⟨p.text ++ "/" ++ name⟩

/-- A spelling of a list of components. -/
def ofComponents : List Component → FilePath
  | .root :: cs => ⟨"/" ++ join '/' (cs.map Component.name)⟩
  | cs => ⟨join '/' (cs.map Component.name)⟩

/-- What follows the components of `root` in a path that begins with them. -/
def below? (root p : FilePath) : Option FilePath :=
  if root.components.isPrefixOf p.components then
    some (ofComponents (p.components.drop root.components.length))
  else none

end FilePath

end WorkspaceSync
