import WorkspaceSync.CommandLine.Run
import WorkspaceSync.Proofs.StateFile.Failures
import WorkspaceSync.Proofs.Sync.Levels

/-!
# The state that commands keep

A command that fails leaves the state file as it was, wherever it fails; a sync that succeeds leaves
its state there, which can be had back since the rules were read from a document, and a cleaning that
succeeds leaves nothing. So after any commands on one state directory the file has the state of the
last sync that succeeded, unless it was cleaned away since.
-/

namespace WorkspaceSync

open CommandLine Session

namespace CommandLine

theorem quiet_forM {α : Type} {f : α → Session Unit} (hf : ∀ a, Quiet (f a)) (l : List α) :
    Quiet (l.forM f) := by
  induction l with
  | nil => exact .pure _
  | cons a l ih => exact (hf a).bind fun _ => ih

theorem quiet_printDiagnostics (log : DiagnosticLog) (format : ReportFormat)
    (quiet colored : Bool) : Quiet (printDiagnostics log format quiet colored) := by
  cases format with
  | text => exact quiet_forM (fun d => quiet_err _) _
  | json => exact quiet_forM (fun d => quiet_out _) _

theorem quiet_readText (p : FilePath) : Quiet (FileAccess.readText p) :=
  (quiet_read p).bind fun _ => .pure _

theorem quiet_resolveConfig (given : Option FilePath) (workspace : FilePath) :
    Quiet (resolveConfig given workspace) := by
  unfold resolveConfig
  cases given with
  | some p =>
    refine (quiet_readText p).bind fun r => ?_
    cases r <;> exact .pure _
  | none =>
    refine (quiet_isFile _).bind fun found => ?_
    split
    · refine (quiet_readText _).bind fun r => ?_
      cases r <;> exact .pure _
    · exact .pure _

theorem ensures_loadRules (p : FilePath) :
    Ensures (loadRules p) fun d r d' =>
      d' = d ∧ ∀ m ds, r = .ok (m, ds) → RuleMap.NamesReleases m := by
  unfold loadRules
  refine (quiet_readText p).ensures_bind fun r => ?_
  cases r with
  | error e => exact .pure fun _ => ⟨rfl, nofun⟩
  | ok s =>
    refine .pure fun _ => ⟨rfl, ?_⟩
    intro m ds read
    exact RuleMap.namesReleases_of_parse (mapError_eq_ok_iff.1 read)

theorem quiet_loadWorkingSet (p : Option FilePath) : Quiet (loadWorkingSet p) := by
  unfold loadWorkingSet
  cases p with
  | none => exact .pure _
  | some p =>
    refine (quiet_readText p).bind fun r => ?_
    cases r <;> exact .pure _

theorem ensures_prepare (a : SyncArguments) (config : Option FilePath) :
    Ensures (prepare a config) fun d r d' =>
      d' = d ∧ ∀ job, r = .ok job → job.store = a.store ∧ job.request.rules.NamesReleases := by
  have refused : ∀ e : RunError, Ensures (pure (.error e)) fun d (r : Except RunError Job) d' =>
      d' = d ∧ ∀ job, r = .ok job → job.store = a.store ∧ job.request.rules.NamesReleases := by
    refine fun e => .pure fun _ => ⟨rfl, ?_⟩
    rintro job ⟨⟩
  unfold prepare
  refine (quiet_resolveConfig config a.workspace).ensures_bind fun r => ?_
  rcases r with e | config <;> dsimp only
  · exact refused e
  refine (ensures_loadRules a.rules).bind_of_same fun r read => ?_
  rcases r with e | ⟨rules, diagnostics⟩ <;> dsimp only
  · exact refused e
  have named := read rules diagnostics rfl
  refine (quiet_loadWorkingSet a.workingSet).ensures_bind fun r => ?_
  rcases r with e | workingSet <;> dsimp only
  · exact refused e
  refine a.store.quiet_load.ensures_bind fun previous => ?_
  rcases Engine.ofConfig config with e | engine <;> dsimp only
  · exact refused _
  · refine .pure fun _ => ⟨rfl, ?_⟩
    rintro job ⟨⟩
    exact ⟨rfl, named⟩

/-- A sync leaves the disk alone, and a state that can be had back. -/
theorem ensures_syncTimed (e : Engine) {q : SyncRequest} (named : q.rules.NamesReleases)
    (previous : SyncState) (v : FileView) (cancelled : Cancellation) :
    Ensures (e.syncTimed Console.clock q previous v cancelled) fun d report d' =>
      d' = d ∧ ∀ o, report.outcome = .ok o → o.state.Restorable := by
  unfold Engine.syncTimed
  split
  · exact .pure fun _ => ⟨rfl, nofun⟩
  · refine quiet_clock.ensures_bind fun started => ?_
    dsimp only
    split
    · exact .pure fun _ => ⟨rfl, nofun⟩
    · refine quiet_clock.ensures_bind fun loaded => ?_
      split
      · exact .pure fun _ => ⟨rfl, nofun⟩
      · refine quiet_clock.ensures_bind fun imported => ?_
        split
        · exact .pure fun _ => ⟨rfl, nofun⟩
        · exact .pure fun _ => ⟨rfl, fun o => Engine.restorable_conclude named⟩

/-- A sync keeps its state, or the state file is as it was. -/
theorem ensures_run {j : Job} (named : j.request.rules.NamesReleases) :
    Ensures j.run fun d r d' =>
      match r with
      | .ok (o, _) => j.store.Keeps (some o.state) d'
      | .error _ => Disk.Spares j.store.statePath d d' := by
  unfold Job.run
  refine (quiet_survey j.manifests).ensures_bind fun files => ?_
  refine (ensures_syncTimed _ named _ _ _).bind_of_same fun report restorable => ?_
  cases returned : report.outcome with
  | error e => exact .pure fun d => .refl _ d
  | ok outcome =>
    refine (j.store.ensures_save (restorable outcome returned)).bind fun r => ?_
    cases r with
    | error e => exact .pure fun d' d spares => spares
    | ok u => exact .pure fun d' d keeps => keeps

theorem ensures_performSync (a : SyncArguments) (g : GeneralArguments) :
    Ensures (performSync a g) fun d r d' =>
      match r with
      | .ok (o, _) => a.store.Keeps (some o.state) d'
      | .error _ => Disk.Spares a.store.statePath d d' := by
  unfold performSync
  refine (ensures_prepare a g.config).bind_of_same fun r prepared => ?_
  cases r with
  | error e => exact .pure fun d => .refl _ d
  | ok job =>
    obtain ⟨store, named⟩ := prepared job rfl
    have ran := ensures_run named
    rw [store] at ran
    dsimp only
    split
    · exact (quiet_err _).ensures_bind fun _ => ran
    · exact ran

/-! ## The end of a command -/

/-- A program does to the disk what another one does, and fails when that one fails. -/
def Reports {ε ε' α β : Type} (y : Session (Except ε' β)) (x : Session (Except ε α)) : Prop :=
  ∀ t s, (y t s).2.disk = (x t s).2.disk ∧ (y t s).1.1.isOk = (x t s).1.1.isOk

theorem reports_bind {ε ε' α β : Type} {x : Session (Except ε α)}
    {f : Except ε α → Session (Except ε' β)}
    (talk : ∀ r, Ensures (f r) fun d r' d' => d' = d ∧ r'.isOk = r.isOk) : Reports (x >>= f) x :=
  fun t s => talk (x t s).1.1 (x t s).1.2 (x t s).2

/-- After a sync there is only talk, and nothing to fail. -/
theorem reports_runSync (a : SyncArguments) (g : GeneralArguments) (colored : Bool) :
    Reports (runSync a g colored) (performSync a g) := by
  refine reports_bind fun r => ?_
  rcases r with e | ⟨outcome, log⟩ <;> dsimp only
  · exact .pure fun _ => ⟨rfl, rfl⟩
  · refine (quiet_printDiagnostics log a.format g.quiet colored).ensures_bind fun _ => ?_
    split
    · exact (quiet_err _).ensures_bind fun _ => .pure fun _ => ⟨rfl, rfl⟩
    · exact .pure fun _ => ⟨rfl, rfl⟩

theorem reports_runClean (a : CleanArguments) (g : GeneralArguments) :
    Reports (runClean a g) a.store.clear := by
  refine reports_bind fun r => ?_
  rcases r with e | removed <;> dsimp only
  · exact .pure fun _ => ⟨rfl, rfl⟩
  · split
    · split
      · exact (quiet_err _).ensures_bind fun _ => .pure fun _ => ⟨rfl, rfl⟩
      · exact (quiet_err _).ensures_bind fun _ => .pure fun _ => ⟨rfl, rfl⟩
    · exact .pure fun _ => ⟨rfl, rfl⟩

def Command.store : Command → StateStore
  | .sync a => a.store
  | .clean a => a.store

theorem Command.toolVersion_store (c : Command) : c.store.toolVersion = toolVersion := by
  cases c <;> rfl

/-- One run of the program, of arguments that say what to do, with the failures that it meets. -/
structure Invocation where
  args : List String
  terminal : Bool
  faults : List (Option Fault)
  arguments : Arguments
  parsed : Arguments.parse args = .ok arguments

namespace Invocation

variable {i : Invocation} {d : Disk} {kept : Option SyncState}

def store (i : Invocation) : StateStore := i.arguments.command.store

/-- The disk that the program leaves. -/
def after (i : Invocation) (d : Disk) : Disk :=
  ((run i.args i.terminal : Session UInt32) .empty ⟨d, i.faults⟩).2.disk

/-- What the command returns. -/
def result (i : Invocation) (d : Disk) : Except RunError UInt32 :=
  match i.arguments.command with
  | .sync a =>
    ((runSync a i.arguments.general (i.arguments.general.color.resolve i.terminal) :
      Session (Except RunError UInt32)) .empty ⟨d, i.faults⟩).1.1
  | .clean a =>
    ((runClean a i.arguments.general : Session (Except RunError UInt32)) .empty ⟨d, i.faults⟩).1.1

/-- What a sync gives that is run with certain arguments. -/
def outcome (i : Invocation) (a : SyncArguments) (d : Disk) :
    Except RunError (SyncOutcome × DiagnosticLog) :=
  ((performSync a i.arguments.general :
    Session (Except RunError (SyncOutcome × DiagnosticLog))) .empty ⟨d, i.faults⟩).1.1

/-- The state to keep after the program was run, given the one before: that of a sync that succeeds,
and none after a cleaning that succeeds. -/
def keep (i : Invocation) (d : Disk) (kept : Option SyncState) : Option SyncState :=
  match i.arguments.command with
  | .sync a =>
    match i.outcome a d with
    | .ok (o, _) => some o.state
    | .error _ => kept
  | .clean _ =>
    match i.result d with
    | .ok _ => none
    | .error _ => kept

theorem after_eq (i : Invocation) (d : Disk) : i.after d =
    match i.arguments.command with
    | .sync a =>
      ((performSync a i.arguments.general :
        Session (Except RunError (SyncOutcome × DiagnosticLog))) .empty ⟨d, i.faults⟩).2.disk
    | .clean a =>
      ((a.store.clear : Session (Except StoreError Bool)) .empty ⟨d, i.faults⟩).2.disk := by
  have told : ∀ r : Except RunError UInt32, Quiet (match r with
      | .ok code => pure code
      | .error e => do
        Console.err s!"error: {e.message}\n"
        return 1) := by
    intro r
    cases r with
    | ok code => exact .pure _
    | error e => exact (quiet_err _).bind fun _ => .pure _
  unfold after run
  rw [i.parsed]
  dsimp only
  cases i.arguments.command with
  | sync a => exact (told _ _ _).trans (reports_runSync a _ _ _ _).1
  | clean a => exact (told _ _ _).trans (reports_runClean a _ _ _).1

/-- A command that fails spares the state file, and one that succeeds keeps a new state or none. -/
theorem after_cases (i : Invocation) (d : Disk) :
    (∃ e, i.result d = .error e ∧ (∀ kept, i.keep d kept = kept) ∧
      Disk.Spares i.store.statePath d (i.after d)) ∨
    ∃ code state, i.result d = .ok code ∧ (∀ kept, i.keep d kept = state) ∧
      (d.Settled i.store.statePath → i.store.Keeps state (i.after d)) := by
  rw [after_eq]
  unfold keep result outcome store
  cases i.arguments.command with
  | sync a =>
    have done := ensures_performSync a i.arguments.general .empty ⟨d, i.faults⟩
    obtain ⟨-, same⟩ := reports_runSync a i.arguments.general
      (i.arguments.general.color.resolve i.terminal) .empty ⟨d, i.faults⟩
    dsimp only [Command.store]
    generalize ((performSync a i.arguments.general :
      Session (Except RunError (SyncOutcome × DiagnosticLog))) .empty ⟨d, i.faults⟩) = x at *
    generalize ((runSync a i.arguments.general (i.arguments.general.color.resolve i.terminal) :
      Session (Except RunError UInt32)) .empty ⟨d, i.faults⟩).1.1 = y at *
    -- What `runSync` makes of the outcome is an error just when the outcome is one.
    obtain ⟨⟨e | ⟨o, log⟩, t⟩, s⟩ := x
    · cases y with
      | error e => exact .inl ⟨e, rfl, fun _ => rfl, done⟩
      | ok code => cases same
    · cases y with
      | error e => cases same
      | ok code => exact .inr ⟨code, some o.state, rfl, fun _ => rfl, fun _ => done⟩
  | clean a =>
    have done := a.store.ensures_clear .empty ⟨d, i.faults⟩
    obtain ⟨-, same⟩ := reports_runClean a i.arguments.general .empty ⟨d, i.faults⟩
    dsimp only [Command.store]
    generalize ((a.store.clear : Session (Except StoreError Bool)) .empty ⟨d, i.faults⟩) = x at *
    generalize ((runClean a i.arguments.general : Session (Except RunError UInt32))
      .empty ⟨d, i.faults⟩).1.1 = y at *
    obtain ⟨⟨e | removed, t⟩, s⟩ := x
    · cases y with
      | error e => exact .inl ⟨e, rfl, fun _ => rfl, done ▸ .refl _ _⟩
      | ok code => cases same
    · cases y with
      | error e => cases same
      | ok code => exact .inr ⟨code, none, rfl, fun _ => rfl, done⟩

theorem keeps_after (keeps : i.store.Keeps kept d) :
    i.store.Keeps (i.keep d kept) (i.after d) := by
  rcases i.after_cases d with ⟨e, -, same, spares⟩ | ⟨code, state, -, new, keeps'⟩
  · rw [same]
    exact keeps.of_spares spares
  · rw [new]
    exact keeps' keeps.settled

end Invocation

end CommandLine

end WorkspaceSync
