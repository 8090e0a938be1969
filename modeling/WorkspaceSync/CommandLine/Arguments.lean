import WorkspaceSync.CommandLine.Options
import WorkspaceSync.FilePath

/-!
# The arguments of the program

What `sync` and `clean` are told on the command line.
-/

namespace WorkspaceSync.CommandLine

inductive ColorChoice where
  | auto
  | always
  | never
  deriving DecidableEq, Repr

inductive ReportFormat where
  | text
  | json
  deriving DecidableEq, Repr

/-- What every command understands. -/
structure GeneralArguments where
  quiet : Bool
  color : ColorChoice
  /-- A configuration to use instead of the workspace's own. -/
  config : Option FilePath

structure SyncArguments where
  workspace : FilePath
  executionRoot : FilePath
  outputBase : FilePath
  rules : FilePath
  workingSet : Option FilePath
  /-- Where the state is kept, if not in the workspace. -/
  stateDirectory : Option FilePath
  format : ReportFormat

structure CleanArguments where
  stateDirectory : Option FilePath

inductive Command where
  | sync (a : SyncArguments)
  | clean (a : CleanArguments)

structure Arguments where
  general : GeneralArguments
  command : Command

namespace ColorChoice

def names : List (String × ColorChoice) := [("auto", auto), ("always", always), ("never", never)]

end ColorChoice

namespace ReportFormat

def names : List (String × ReportFormat) := [("text", text), ("json", json)]

end ReportFormat

/-- An option that names a path. -/
def pathOption (name : String) : OptionSpec := ⟨name, none, some (· ≠ "")⟩

/-- An option with one of several names as its value. -/
def choiceOption {α : Type} (name : String) (short : Option Char) (names : List (String × α)) :
    OptionSpec :=
  ⟨name, short, some fun s => (names.lookup s).isSome⟩

def syncCommand : CommandSpec :=
  ⟨"sync",
    [pathOption "workspace", pathOption "execution-root", pathOption "output-base",
     pathOption "rules", pathOption "working-set", pathOption "state-dir",
     choiceOption "format" (some 'f') ReportFormat.names]⟩

def cleanCommand : CommandSpec := ⟨"clean", [pathOption "state-dir"]⟩

def program : ProgramSpec where
  general := [
    ⟨"quiet", some 'q', none⟩, ⟨"verbose", some 'v', none⟩,
    choiceOption "color" none ColorChoice.names, pathOption "config"]
  commands := [syncCommand, cleanCommand]

namespace Given

def path? (g : Given) (name : String) : Option FilePath := (g.lookup name).map (⟨·⟩)

def choice? {α : Type} (g : Given) (name : String) (names : List (String × α)) : Option α :=
  (g.lookup name).bind fun value => names.lookup value

def general (g : Given) : GeneralArguments where
  quiet := (g.lookup "quiet").isSome
  color := (choice? g "color" ColorChoice.names).getD .auto
  config := path? g "config"

def sync? (g : Given) : Option SyncArguments := do
  return {
    workspace := ← path? g "workspace"
    executionRoot := ← path? g "execution-root"
    outputBase := ← path? g "output-base"
    rules := ← path? g "rules"
    workingSet := path? g "working-set"
    stateDirectory := path? g "state-dir"
    format := (choice? g "format" ReportFormat.names).getD .text }

end Given

/-- Reads the arguments; what a command cannot do without must be given. -/
def Arguments.parse (args : List String) : Except Stop Arguments :=
  match program.read args with
  | .error e => .error e
  | .ok (name, g) =>
    if name = cleanCommand.name then
      .ok ⟨Given.general g, .clean ⟨Given.path? g "state-dir"⟩⟩
    else
      match Given.sync? g with
      | some a => .ok ⟨Given.general g, .sync a⟩
      | none => .error .misuse

end WorkspaceSync.CommandLine
