import WorkspaceSync.FileSystem.View
import WorkspaceSync.SortedMap

/-!
# Disks

A disk in memory: directories and files by the names that lead to them from the root. A path is
followed step by step, and each step needs a directory to start from, so `a/..` leads nowhere where
`a` does not exist. What makes or removes something looks at the last step apart, because `.` and
`..` can name a directory but not make one.
-/

namespace WorkspaceSync

open Text

inductive DiskNode where
  | file (content : Bytes) (modified : Int)
  | directory
  deriving DecidableEq, Repr

structure Disk where
  nodes : SortedMap (List String) DiskNode
  deriving DecidableEq

/-- A path as the platform takes it apart: where it starts, its steps, and whether a separator at
the end asks for a directory. -/
structure DiskRoute where
  start : List String
  steps : List String
  trailing : Bool
  deriving DecidableEq, Repr

namespace Disk

def empty : Disk := ⟨.empty⟩

/-- The current directory: a directory in the root, whose name no step can have. -/
def home : List String := [""]

/-- What the names from the root lead to. -/
def node? (d : Disk) (names : List String) : Option DiskNode :=
  if names.isPrefixOf home then some .directory else d.nodes.get? names

/-- Paths are at most this long, in bytes. -/
def maxPathLength : Nat := 4095

/-- Names are at most this long, in bytes. -/
def maxNameLength : Nat := 255

/-- Takes a path apart. -/
def route (p : FilePath) : Except IoError DiskRoute :=
  if p.text.toList.contains '\x00' then .error .nulInPath
  else if p.text = "" then .error .notFound
  else if maxPathLength < p.text.utf8ByteSize then .error .nameTooLong
  else
    .ok {
      start := if p.text.toList.head? = some '/' then [] else home
      steps := (split (· == '/') p.text).filter (· ≠ "")
      trailing := p.text.toList.getLast? = some '/' }

/-- Looks for one name in a directory. -/
def enter (names : List String) (step : String) : Except IoError (List String) :=
  if step = "." then .ok names
  else if step = ".." then .ok names.dropLast
  else if maxNameLength < step.utf8ByteSize then .error .nameTooLong
  else .ok (names ++ [step])

/-- Takes steps from a position, each of which needs a directory; the last may lead to nothing. -/
def walk (d : Disk) : (names steps : List String) → Except IoError (List String)
  | names, [] => .ok names
  | names, step :: rest =>
    match d.node? names with
    | none => .error .notFound
    | some (.file _ _) => .error .notADirectory
    | some .directory =>
      match enter names step with
      | .error e => .error e
      | .ok names' => walk d names' rest

/-- The names that a path leads to. -/
def locate (d : Disk) (p : FilePath) : Except IoError (List String) := do
  let r ← route p
  d.walk r.start (r.steps ++ if r.trailing then ["."] else [])

/-- What a path leads to. -/
def find (d : Disk) (p : FilePath) : Except IoError DiskNode :=
  match d.locate p with
  | .error e => .error e
  | .ok names =>
    match d.node? names with
    | some n => .ok n
    | none => .error .notFound

def status (d : Disk) (p : FilePath) : Except IoError FileStatus :=
  (d.find p).map fun
    | .file content modified => .file content.length modified
    | .directory => .directory

def read (d : Disk) (p : FilePath) : Except IoError Bytes :=
  match d.find p with
  | .error e => .error e
  | .ok (.file content _) => .ok content
  | .ok .directory => .error .isADirectory

def view (d : Disk) : FileView := ⟨d.status, d.read⟩

def exists? (d : Disk) (p : FilePath) : Bool := (d.find p).isOk

def isFile (d : Disk) (p : FilePath) : Bool :=
  match d.find p with
  | .ok (.file _ _) => true
  | _ => false

def put (d : Disk) (names : List String) (n : DiskNode) : Disk := ⟨d.nodes.insert names n⟩

/-- The directory in which the last step of a route is taken, and that step; there is none in the
route to the root. -/
def lastStep (d : Disk) (r : DiskRoute) : Except IoError (List String × Option String) := do
  let names ← d.walk r.start (r.steps.dropLast ++ ["."])
  return (names, r.steps.getLast?)

/-- Where a new entry goes; `taken` is what is wrong with a last step that only names a directory. -/
def newEntry (d : Disk) (taken : IoError) (r : DiskRoute) : Except IoError (List String) := do
  match ← d.lastStep r with
  | (names, some step) => if step = "." || step = ".." then throw taken else enter names step
  | (_, none) => throw taken

/-- Makes or overwrites a file in a directory that exists. -/
def write (d : Disk) (p : FilePath) (content : Bytes) (modified : Int) : Except IoError Disk := do
  let r ← route p
  let names ← d.newEntry .isADirectory r
  if r.trailing then throw .isADirectory
  match d.node? names with
  | some .directory => throw .isADirectory
  | _ => return d.put names (.file content modified)

/-- Makes one directory; the one above it must exist. -/
def makeDirectory (d : Disk) (r : DiskRoute) : Except IoError Disk := do
  let names ← d.newEntry .alreadyExists r
  match d.node? names with
  | some _ => throw .alreadyExists
  | none => return d.put names .directory

def isDirectory (d : Disk) (r : DiskRoute) : Bool :=
  match d.walk r.start (r.steps ++ ["."]) with
  | .ok _ => true
  | .error _ => false

/-- Makes a directory or is content with the one that is there. -/
def ensureDirectory (d : Disk) (r : DiskRoute) : Except IoError Disk :=
  match d.makeDirectory r with
  | .ok d' => .ok d'
  | .error e => if d.isDirectory r then .ok d else .error e

/-- Changes the disk, or leaves it as it is where that fails. -/
def attempt (f : Disk → Except IoError Disk) : StateM Disk (Except IoError Unit) := fun d =>
  match f d with
  | .ok d' => (.ok (), d')
  | .error e => (.error e, d)

/-- Makes the first of some directories and, where what is above it is missing, the rest before;
directories that were made stay where a later one fails. -/
def ensureAll : List DiskRoute → StateM Disk (Except IoError Unit)
  | [] => return .ok ()
  | r :: above => do
    match ← attempt (·.ensureDirectory r) with
    | .error .notFound =>
      match ← ensureAll above with
      | .ok () => attempt (·.ensureDirectory r)
      | .error e => return .error e
    | done => return done

/-- The routes to a directory and to those above it. A `.` within the path or at its end counts in
the first route only. -/
def ancestry (r : DiskRoute) (p : FilePath) : List DiskRoute :=
  let steps := (p.components.filter (· ≠ .root)).map FilePath.Component.name
  let above := (List.range steps.length).reverse.map fun n => ⟨r.start, steps.take n, false⟩
  r :: above.filter (·.steps ≠ [])

/-- Makes a directory and all that lead to it. -/
def createDirectories (p : FilePath) : StateM Disk (Except IoError Unit) :=
  match p.components, route p with
  | [], _ | [.root], _ => return .ok ()
  | _, .error e => return .error e
  | _, .ok r => ensureAll (ancestry r p)

/-- Moves a file over whatever file is at its new place. -/
def rename (d : Disk) (source target : FilePath) : Except IoError Disk := do
  let names ← d.locate source
  match d.node? names with
  | some (.file content modified) =>
    let d' ← d.write target content modified
    return if (d.locate target).toOption = some names then d' else ⟨d'.nodes.erase names⟩
  | some .directory => throw .isADirectory
  | none => throw .notFound

def removeFile (d : Disk) (p : FilePath) : Except IoError Disk := do
  let names ← d.locate p
  match d.node? names with
  | some (.file _ _) => return ⟨d.nodes.erase names⟩
  | some .directory => throw .isADirectory
  | none => throw .notFound

/-- Whether a name list leads to something within a directory. -/
def isWithin (directory names : List String) : Bool :=
  directory.isPrefixOf names && directory ≠ names

/-- Removes an empty directory; one that is gone is no failure. A last step that only names a
directory cannot remove it. -/
def removeDirectory (d : Disk) (r : DiskRoute) : Except IoError Disk :=
  match d.lastStep r with
  | .error .notFound => .ok d
  | .error e => .error e
  | .ok (names, some step) =>
    if step = "." || step = ".." then .error .invalidArgument
    else .ok ⟨d.nodes.erase (names ++ [step])⟩
  | .ok (_, none) => .error .invalidArgument

/-- Removes a file or a directory with all that is in it. What is in a directory goes first, and
with it perhaps the way to the directory. -/
def removeTree (p : FilePath) : StateM Disk (Except IoError Unit) := fun d =>
  match route p, d.locate p with
  | .ok r, .ok names =>
    match d.node? names with
    | some (.file _ _) => (.ok (), ⟨d.nodes.erase names⟩)
    | some .directory =>
      attempt (·.removeDirectory r) ⟨d.nodes.filter fun k _ => !isWithin names k⟩
    | none => (.error .notFound, d)
  | .error e, _ | _, .error e => (.error e, d)

end Disk

end WorkspaceSync
