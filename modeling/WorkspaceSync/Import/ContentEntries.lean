import WorkspaceSync.Config.Basic
import WorkspaceSync.ProjectModel
import WorkspaceSync.SourceRoots

/-!
# Content entries

The files below an import directory make up its content entry, and of directories in one another the
outermost counts. The roots of all other files go to an entry that encloses them, or become entries
of their own.
-/

namespace WorkspaceSync

namespace ContentEntry

/-- The shortest of paths, of equally short ones the first. -/
def shortest? (paths : List WorkspacePath) : Option WorkspacePath :=
  paths.foldl (fun best p =>
    match best with
    | none => some p
    | some b => if p.text.utf8ByteSize < b.text.utf8ByteSize then some p else some b) none

/-- The outermost import directory around a file. -/
def importDirectory? (directories : List WorkspacePath) (p : WorkspacePath) :
    Option WorkspacePath :=
  shortest? (directories.filter (·.isAncestorOf p))

/-- Source roots by the content root that they belong to. -/
abbrev Table := SortedMap WorkspacePath SourceRoots

/-- Adds a root to the first entry that encloses it, or makes it an entry. -/
def addOutside (entries : Table) (e : WorkspacePath × SourceRoot) : Table :=
  entries.alter ((entries.keys.find? (·.isAncestorOf e.1)).getD e.1) fun roots =>
    (roots.getD SortedMap.empty).insert e.1 e.2

/-- Moves a root that lies above a content root down to it. -/
def clip (contentRoot : WorkspacePath) (e : WorkspacePath × SourceRoot) :
    WorkspacePath × SourceRoot :=
  if e.1 ≠ contentRoot && e.1.isAncestorOf contentRoot then
    (contentRoot,
      { e.2 with packagePrefix := SourceRoots.impliedPackage e.1 e.2.packagePrefix contentRoot })
  else e

/-- Adds the roots of the files below an import directory. -/
def addDirectory (entries : Table) (contentRoot : WorkspacePath) (files : List SourceFile) :
    Table :=
  entries.alter contentRoot fun roots =>
    ((SourceRoots.calculate files).entries.map (clip contentRoot)).foldl
      (fun roots e => roots.insertIfNew e.1 e.2) (roots.getD SortedMap.empty)

/-- The files below each import directory. -/
def byDirectory (directories : List WorkspacePath) (files : List SourceFile) :
    SortedMap WorkspacePath (List SourceFile) :=
  files.foldl (fun groups f =>
    match importDirectory? directories f.path with
    | some d => groups.alter d fun l => l.getD [] ++ [f]
    | none => groups) SortedMap.empty

/-- The source roots of files by content root: those outside of import directories first, and then
directory by directory. -/
def table (directories : List WorkspacePath) (files : List SourceFile) : Table :=
  let outside := files.filter fun f => (importDirectory? directories f.path).isNone
  let entries := (SourceRoots.calculate outside).entries.foldl addOutside SortedMap.empty
  (byDirectory directories files).entries.foldl (fun t g => addDirectory t g.1 g.2) entries

def ofRoots (workspace : WorkspaceRoot) (excludes : List WorkspacePath)
    (contentRoot : WorkspacePath) (roots : SourceRoots) : ContentEntry where
  root := workspace.file contentRoot
  folders := roots.entries.map fun (d, r) => ⟨workspace.file d, r.packagePrefix, r.isTest⟩
  excludes := (excludes.filter (contentRoot.isAncestorOf ·)).map workspace.file

/-- The content entries of files, in the order of their roots. -/
def ofFiles (workspace : WorkspaceRoot) (project : ProjectSection) (files : List SourceFile) :
    List ContentEntry :=
  (table project.directories files).entries.map fun (contentRoot, roots) =>
    ofRoots workspace project.excludeDirectories contentRoot roots

end ContentEntry

end WorkspaceSync
