import WorkspaceSync.SortedMap
import WorkspaceSync.WorkspacePath

/-!
# Source roots

Where the sources of targets belong in a project. A file `java/com/app/Main.java` in the package
`com.app` implies the package root `java`; a file whose directory does not end in its package gets
a root of its own with the package as prefix. A root below another one that already implies its
prefix is merged into that.
-/

namespace WorkspaceSync

open Text

/-- A Java source of a content target. -/
structure SourceFile where
  path : WorkspacePath
  /-- The package, where a package manifest tells it. -/
  package : Option String
  isTest : Bool
  deriving DecidableEq

structure SourceRoot where
  /-- The package of the files directly in the directory. -/
  packagePrefix : String
  /-- Whether only tests have files here. -/
  isTest : Bool
  deriving DecidableEq, Repr

/-- Source roots by directory. -/
abbrev SourceRoots := SortedMap WorkspacePath SourceRoot

namespace SourceRoots

/-- A text without an ending that it has. -/
def stripEnd? (ending s : List Char) : Option (List Char) :=
  if ending.isSuffixOf s then some (s.take (s.length - ending.length)) else none

/-- The text of a package with slashes in the place of dots. -/
def packagePath (package : String) : String :=
  String.ofList (package.toList.map fun c => if c = '.' then '/' else c)

/-- What remains of a directory's text above the path of a package. -/
def above? (directory package : String) : Option String :=
  if directory = package then some ""
  else
    ((stripEnd? package.toList directory.toList).bind (stripEnd? ['/'])).map String.ofList

/-- The root of a directory whose files are in a package, and the prefix that it needs. -/
def rootFor (directory : WorkspacePath) (package : String) : WorkspacePath × String :=
  if package = "" then (directory, "")
  else
    match (above? directory.text (packagePath package)).bind fun s =>
        (WorkspacePath.parse s).toOption with
    | some root => (root, "")
    | none => (directory, package)

/-- The package of a directory below a root with a prefix. -/
def impliedPackage (root : WorkspacePath) (packagePrefix : String) (child : WorkspacePath) :
    String :=
  let below := if root.isAncestorOf child then join '.' (root.below child) else ""
  if packagePrefix = "" then below
  else if below = "" then packagePrefix
  else packagePrefix ++ "." ++ below

/-- Adds a root, or files to one that is there; the first prefix stays. -/
def add (roots : SourceRoots) (directory : WorkspacePath) (packagePrefix : String)
    (isTest : Bool) : SourceRoots :=
  roots.alter directory fun
    | some r => { r with isTest := r.isTest && isTest }
    | none => ⟨packagePrefix, isTest⟩

/-- The last of the roots, in their order, that are above a directory or at it. -/
def covering? (roots : SourceRoots) (directory : WorkspacePath) :
    Option (WorkspacePath × SourceRoot) :=
  (roots.entries.filter fun e => e.1.isAncestorOf directory).getLast?

/-- Adds a file of a known package. -/
def addKnown (roots : SourceRoots) (f : SourceFile) : SourceRoots :=
  match f.path.parent?, f.package with
  | some directory, some package =>
    let (root, packagePrefix) := rootFor directory package
    add roots root packagePrefix f.isTest
  | _, _ => roots

/-- Adds a file of an unknown package; only where no root covers it, its directory becomes one. -/
def addUnknown (roots : SourceRoots) (f : SourceFile) : SourceRoots :=
  match f.path.parent?, f.package with
  | some directory, none =>
    match covering? roots directory with
    | some (root, r) => add roots root r.packagePrefix f.isTest
    | none => add roots directory "" f.isTest
  | _, _ => roots

/-- Keeps a root, unless the nearest one that is kept already implies its prefix. -/
def keep (kept : SourceRoots) (e : WorkspacePath × SourceRoot) : SourceRoots :=
  match covering? kept e.1 with
  | some (root, r) =>
    if impliedPackage root r.packagePrefix e.1 = e.2.packagePrefix then
      add kept root r.packagePrefix e.2.isTest
    else kept.insert e.1 e.2
  | none => kept.insert e.1 e.2

/-- Merges roots into those above them. -/
def mergeNested (candidates : SourceRoots) : SourceRoots :=
  candidates.entries.foldl keep SortedMap.empty

/-- The roots of files; those of known packages are placed first. -/
def calculate (files : List SourceFile) : SourceRoots :=
  mergeNested (files.foldl addUnknown (files.foldl addKnown SortedMap.empty))

end SourceRoots

end WorkspaceSync
