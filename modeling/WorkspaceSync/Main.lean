import WorkspaceSync.CommandLine.Run

/-!
# The program

The commands on the real file system and the real console. A sync looks at the manifests once, before
it starts, and keeps what it has seen.
-/

namespace WorkspaceSync

/-- Why an operation of the platform failed. -/
def IoError.ofPlatform : IO.Error → IoError
  | .noFileOrDirectory _ _ _ => .notFound
  | .noSuchThing _ _ _ => .notFound
  | .alreadyExists _ _ _ => .alreadyExists
  | .inappropriateType _ code text =>
    if code = 20 then .notADirectory
    else if code = 21 then .isADirectory
    else .platform text
  | e => .platform (toString e)

/-- Runs an operation of the platform and keeps its failure. -/
def attempt {α : Type} (action : IO α) : IO (Except IoError α) := do
  try
    return .ok (← action)
  catch e =>
    return .error (.ofPlatform e)

/-- The size and the time of modification of a file. -/
def readStatus (p : FilePath) : IO (Except IoError FileStatus) :=
  attempt do
    let data ← ((← IO.currentDir) / p.text).metadata
    match data.type with
    | .file =>
      let nanoseconds := data.modified.sec * 1000000000 + data.modified.nsec.toNat
      return .file data.byteSize.toNat nanoseconds
    | _ => return .directory

def readBytes (p : FilePath) : IO (Except IoError Bytes) :=
  attempt do
    return (← IO.FS.readBinFile p.text).toList

/-- What was found of files, by path. -/
def viewOf (seen : List (FilePath × Except IoError FileStatus × Except IoError Bytes)) :
    FileView where
  status p :=
    match seen.lookup p with
    | some (status, _) => status
    | none => .error .notFound
  read p :=
    match seen.lookup p with
    | some (_, content) => content
    | none => .error .notFound

instance : FileAccess IO where
  read := readBytes
  isFile p := do
    match ← readStatus p with
    | .ok (.file _ _) => return true
    | _ => return false
  survey paths := do
    return viewOf (← paths.mapM fun p => do return (p, ← readStatus p, ← readBytes p))
  createDirectories p := attempt (IO.FS.createDirAll p.text)
  write p content := attempt (IO.FS.writeBinFile p.text ⟨content.toArray⟩)
  rename p q := attempt (IO.FS.rename p.text q.text)
  removeFile p := attempt (IO.FS.removeFile p.text)

instance : CommandLine.Console IO where
  out s := do
    (← IO.getStdout).putStr s
  err s := do
    (← IO.getStderr).putStr s
  clock := IO.monoMsNow

end WorkspaceSync

def main (args : List String) : IO UInt32 := do
  WorkspaceSync.CommandLine.run args (← (← IO.getStderr).isTty)
