import WorkspaceSync.CommandLine.Arguments
import WorkspaceSync.CommandLine.Console
import WorkspaceSync.Config.Parse
import WorkspaceSync.Diagnostic.Log
import WorkspaceSync.Diagnostic.Render
import WorkspaceSync.StateFile.Store

/-!
# Running commands

`sync` reads the configuration, the rules, the working set and the state of the previous sync, runs
one sync, keeps the new state and reports. Whatever fails before the state is kept leaves the old
one in force. `clean` removes the state.
-/

namespace WorkspaceSync.CommandLine

def toolVersion : String := "0.1.0"

/-- The name of the program and its version. -/
def versionLine : String := "bsync " ++ toolVersion ++ "\n"

def usage : String :=
  "Usage: bsync [OPTIONS] <COMMAND>\n\nCommands:\n" ++
  "  sync   Run one sync and persist its state\n" ++
  "  clean  Delete persisted sync state\n\nOptions:\n" ++
  "  -q, --quiet            Suppress all output except errors\n" ++
  "  -v, --verbose          Enable verbose logging\n" ++
  "      --color <COLOR>    Control colored output: auto, always, never\n" ++
  "      --config <CONFIG>  Path to a configuration to use instead of the workspace's own\n" ++
  "  -h, --help             Print help\n" ++
  "  -V, --version          Print version\n"

/-- What makes a command fail. -/
inductive RunError where
  | unreadableConfig (path : FilePath) (e : IoError)
  | config (e : ConfigError)
  | unreadableRules (path : FilePath) (e : IoError)
  | rules (e : RuleMapError)
  | unreadableWorkingSet (path : FilePath) (e : IoError)
  | workingSet (e : WorkingSetError)
  | sync (e : SyncError)
  | store (e : StoreError)

namespace RunError

def message : RunError → String
  | unreadableConfig p e => s!"could not read {p}: {e.message}"
  | config e => e.message
  | unreadableRules p e => s!"failed to read rule map {p}: {e.message}"
  | rules e => e.message
  | unreadableWorkingSet p e => s!"could not read working set {p}: {e.message}"
  | workingSet e => e.message
  | sync e => e.message
  | store e => e.message

end RunError

variable {m : Type → Type} [Monad m] [FileAccess m]

/-- The configuration that is given, else the one in the workspace, else the default. -/
def resolveConfig (given : Option FilePath) (workspace : FilePath) :
    m (Except RunError SyncConfig) := do
  match given with
  | some p =>
    match ← FileAccess.readText p with
    | .error e => return .error (.unreadableConfig p e)
    | .ok s => return (SyncConfig.parse s).mapError .config
  | none =>
    let p := workspace.push SyncConfig.fileName
    if ← FileAccess.isFile p then
      match ← FileAccess.readText p with
      | .error e => return .error (.config (.unreadable e))
      | .ok s => return (SyncConfig.parse s).mapError .config
    else return .ok .default

def loadRules (p : FilePath) : m (Except RunError (RuleMap × List Diagnostic)) := do
  match ← FileAccess.readText p with
  | .error e => return .error (.unreadableRules p e)
  | .ok s => return (RuleMap.parse s).mapError .rules

def loadWorkingSet (p : Option FilePath) : m (Except RunError (Option WorkingSet)) := do
  match p with
  | none => return .ok none
  | some p =>
    match ← FileAccess.readText p with
    | .error e => return .error (.unreadableWorkingSet p e)
    | .ok s => return ((WorkingSet.parse s).mapError .workingSet).map some

/-- Everything that a sync reads before it starts. -/
structure Job where
  engine : Engine
  request : SyncRequest
  /-- What the reading of the rules reported. -/
  diagnostics : List Diagnostic
  store : StateStore
  previous : Option SyncState

/-- The directory in a workspace where the state is kept. -/
def defaultStateDirectory : String := ".bsync"

def SyncArguments.store (a : SyncArguments) : StateStore :=
  ⟨a.stateDirectory.getD (a.workspace.push defaultStateDirectory), toolVersion⟩

def CleanArguments.store (a : CleanArguments) : StateStore :=
  ⟨a.stateDirectory.getD ⟨defaultStateDirectory⟩, toolVersion⟩

def SyncArguments.roots (a : SyncArguments) : Roots :=
  ⟨⟨a.workspace⟩, a.executionRoot, a.outputBase⟩

/-- Reads what a sync needs; the first thing that fails is reported. -/
def prepare (a : SyncArguments) (config : Option FilePath) : m (Except RunError Job) := do
  match ← resolveConfig config a.workspace with
  | .error e => return .error e
  | .ok config =>
    match ← loadRules a.rules with
    | .error e => return .error e
    | .ok (rules, diagnostics) =>
      match ← loadWorkingSet a.workingSet with
      | .error e => return .error e
      | .ok workingSet =>
        let previous ← a.store.load
        match Engine.ofConfig config with
        | .error e => return .error (.sync (.invalidPattern e))
        | .ok engine =>
          return .ok ⟨engine, ⟨rules, a.roots, workingSet⟩, diagnostics, a.store, previous⟩

/-- The files that a sync may look at: the manifests that the rules declare. -/
def Job.manifests (j : Job) : List FilePath :=
  j.request.rules.rules.flatMap fun r =>
    ((r.java?.map (·.manifests)).getD []).map j.request.roots.resolve

variable [Console m]

/-- Runs a sync and keeps its state. -/
def Job.run (j : Job) : m (Except RunError (SyncOutcome × DiagnosticLog)) := do
  let files ← FileAccess.survey j.manifests
  let report ← j.engine.syncTimed Console.clock j.request (j.previous.getD .empty) files
    Cancellation.never
  match report.outcome with
  | .error e => return .error (.sync e)
  | .ok outcome =>
    match ← j.store.save outcome.state with
    | .error e => return .error (.store e)
    | .ok () => return .ok (outcome, .ofList (j.diagnostics ++ report.diagnostics))

/-- Prints diagnostics; a quiet user is told of errors only, another program of everything. -/
def printDiagnostics (log : DiagnosticLog) (format : ReportFormat) (quiet colored : Bool) :
    m Unit :=
  match format with
  | .text =>
    (log.entries.filter fun d => !quiet || d.severity = .error).forM fun d =>
      Console.err (d.render colored)
  | .json => log.entries.forM fun d => Console.out (d.renderJson ++ "\n")

/-- The lines that close the report of a sync. -/
def summary (o : SyncOutcome) (log : DiagnosticLog) : String :=
  let entries := (o.state.java.map (·.imported.contentEntries.length)).getD 0
  let d := o.libraryDiff
  s!"      Synced {entries} content root(s), libraries +{d.toAdd.length} " ++
  s!"-{d.toRemove.length} ={d.unchanged.length}, language level {o.languageLevel}\n" ++
  s!"      Result: {log.errors} error(s), {log.warnings} warning(s)\n"

/-- Prepares a sync and runs it. A user who wants to know is told in between. -/
def performSync (a : SyncArguments) (g : GeneralArguments) :
    m (Except RunError (SyncOutcome × DiagnosticLog)) := do
  match ← prepare a g.config with
  | .error e => return .error e
  | .ok job =>
    if !g.quiet then Console.err s!"     Syncing {job.request.rules.size} targets\n"
    job.run

/-- Runs `sync`. The exit code is 1 if an error was reported. -/
def runSync (a : SyncArguments) (g : GeneralArguments) (colored : Bool) :
    m (Except RunError UInt32) := do
  match ← performSync a g with
  | .error e => return .error e
  | .ok (outcome, log) =>
    printDiagnostics log a.format g.quiet colored
    if !g.quiet && a.format = .text then Console.err (summary outcome log)
    return .ok (if log.hasErrors then 1 else 0)

/-- Runs `clean`. That there is nothing to remove is no error. -/
def runClean (a : CleanArguments) (g : GeneralArguments) : m (Except RunError UInt32) := do
  match ← a.store.clear with
  | .error e => return .error (.store e)
  | .ok removed =>
    if !g.quiet then
      if removed then Console.err s!"     Removed {a.store.statePath}\n"
      else Console.err s!"     Nothing to clean in {a.store.directory}\n"
    return .ok 0

/-- Whether output is coloured, given whether it goes to a terminal. -/
def ColorChoice.resolve (terminal : Bool) : ColorChoice → Bool
  | auto => terminal
  | always => true
  | never => false

/-- Runs the program and returns its exit code. -/
def run (args : List String) (terminal : Bool) : m UInt32 := do
  match Arguments.parse args with
  | .error .help => do
    Console.out usage
    return 0
  | .error .version => do
    Console.out versionLine
    return 0
  | .error .misuse => do
    Console.err usage
    return 2
  | .ok a =>
    let result ← match a.command with
      | .sync s => runSync s a.general (a.general.color.resolve terminal)
      | .clean c => runClean c a.general
    match result with
    | .ok code => return code
    | .error e => do
      Console.err s!"error: {e.message}\n"
      return 1

/-- Runs the program on a disk in memory, away from any terminal. -/
def runOnDisk (args : List String) (d : Disk) : (UInt32 × Transcript) × Disk :=
  ((run args false : StateT Transcript (StateM Disk) UInt32).run .empty).run d

end WorkspaceSync.CommandLine
