import WorkspaceSync.Proofs.CommandLine.Persistence

/-!
# Runs of the program on one state file

Syncs and cleanings follow each other, each with its own arguments and its own failures, and other
programs may do anything but touch the state file. What the file has in the end is what the last
command that succeeded wanted it to have.
-/

namespace WorkspaceSync.CommandLine

/-- What happens to a disk: the program is run, or others leave another disk. -/
inductive Event where
  | ran (i : Invocation)
  | others (d : Disk)

namespace Event

variable {start d : Disk} {events : List Event}

/-- The disk after events, of which the latest comes first. -/
def diskAfter (start : Disk) : List Event → Disk
  | [] => start
  | ran i :: earlier => i.after (diskAfter start earlier)
  | others d :: _ => d

/-- The state of the last sync that succeeded since the last cleaning that did. -/
def lastKept (start : Disk) : List Event → Option SyncState
  | [] => none
  | ran i :: earlier => i.keep (diskAfter start earlier) (lastKept start earlier)
  | others _ :: earlier => lastKept start earlier

/-- The program is always run on one state file, and others leave that file and the way to it as
they are. -/
inductive Concern (path : FilePath) (start : Disk) : List Event → Prop where
  | nil : Concern path start []
  | ran {i : Invocation} {earlier : List Event} : Disk.SameWay path i.store.statePath →
      Concern path start earlier → Concern path start (ran i :: earlier)
  | others {d : Disk} {earlier : List Event} : Disk.Spares path (diskAfter start earlier) d →
      Concern path start earlier → Concern path start (others d :: earlier)

variable {s : StateStore}

/-- The state file has what the run kept. -/
theorem keeps_diskAfter (version : s.toolVersion = toolVersion)
    (nothing : ∀ names, Disk.place s.statePath = .ok names → start.fileAt? names = none)
    (concern : Concern s.statePath start events) :
    s.Keeps (lastKept start events) (diskAfter start events) := by
  induction concern with
  | nil =>
    obtain ⟨content, settled⟩ := Disk.settled_of_nothing nothing
    exact StateStore.keeps_none content settled
  | @ran i earlier same concern ih =>
    -- The run knows the state file by its own path: over to that one, and back.
    have versions : s.toolVersion = i.store.toolVersion :=
      version.trans i.arguments.command.toolVersion_store.symm
    have before := ih.of_sameWay versions same
    exact (Invocation.keeps_after before).of_sameWay versions.symm same.symm
  | others spares concern ih => exact ih.of_spares spares

/-- Whatever failed at whichever step of which run, the state that is loaded is that of the last sync
that succeeded, if it was not cleaned away since; and a command that fails changes nothing about what
is loaded. -/
theorem loaded_diskAfter {directory : FilePath} {start : Disk} {events : List Event}
    (nothing : ∀ names, Disk.place (StateStore.statePath ⟨directory, toolVersion⟩) = .ok names →
      start.fileAt? names = none)
    (concern : Concern (StateStore.statePath ⟨directory, toolVersion⟩) start events) :
    StateStore.loaded ⟨directory, toolVersion⟩ (diskAfter start events) = lastKept start events ∧
    ∀ (i : Invocation) (e : RunError),
      Disk.SameWay (StateStore.statePath ⟨directory, toolVersion⟩) i.store.statePath →
      i.result (diskAfter start events) = .error e →
      StateStore.loaded ⟨directory, toolVersion⟩ (i.after (diskAfter start events)) =
        StateStore.loaded ⟨directory, toolVersion⟩ (diskAfter start events) := by
  have short : (Bytes.ofText toolVersion).length + 64 < 2 ^ 32 := by decide
  have keeps : ∀ {events}, Concern (StateStore.statePath ⟨directory, toolVersion⟩) start events →
      StateStore.loaded ⟨directory, toolVersion⟩ (diskAfter start events) =
        lastKept start events :=
    fun concern => (keeps_diskAfter rfl nothing concern).loaded_eq short
  refine ⟨keeps concern, fun i e same failed => ?_⟩
  rw [keeps concern]
  refine (keeps (.ran same concern)).trans ?_
  rcases i.after_cases (diskAfter start events) with ⟨-, -, kept, -⟩ | ⟨code, -, done, -, -⟩
  · exact kept _
  · rw [done] at failed
    cases failed

/-! ## An interrupted sync -/

/-- A workspace of no targets. -/
def sampleDisk : Disk :=
  (Disk.empty.put ["w"] .directory).put ["w", "rules.json"] (.file (Bytes.ofText "[]") 0)

def sampleArgs : List String :=
  ["sync", "--workspace", "/w", "--execution-root", "/x", "--output-base", "/o",
    "--rules", "/w/rules.json"]

/-- A sync that keeps its state in the workspace. -/
def sampleSync : Invocation where
  args := sampleArgs
  terminal := false
  faults := []
  arguments := ⟨⟨false, .auto, none⟩,
    .sync ⟨⟨"/w"⟩, ⟨"/x"⟩, ⟨"/o"⟩, ⟨"/w/rules.json"⟩, none, none, .text⟩⟩
  parsed := by rfl

/-- A sync that is told to keep its state in the same directory. Its seventh operation fails, which
is to rename the temporary file. -/
def interruptedSync : Invocation where
  args := sampleArgs ++ ["--state-dir", "/w/./.bsync"]
  terminal := false
  faults := List.replicate 6 none ++ [some ⟨"Permission denied", sampleDisk.view, 0, none⟩]
  arguments := ⟨⟨false, .auto, none⟩,
    .sync ⟨⟨"/w"⟩, ⟨"/x"⟩, ⟨"/o"⟩, ⟨"/w/rules.json"⟩, none, some ⟨"/w/./.bsync"⟩, .text⟩⟩
  parsed := by rfl

theorem interrupted_sync_keeps_state :
    (StateStore.loaded ⟨⟨"/w/.bsync"⟩, toolVersion⟩ (diskAfter sampleDisk [ran sampleSync])).isSome ∧
    StateStore.loaded ⟨⟨"/w/.bsync"⟩, toolVersion⟩
        (diskAfter sampleDisk [ran interruptedSync, ran sampleSync]) =
      StateStore.loaded ⟨⟨"/w/.bsync"⟩, toolVersion⟩ (diskAfter sampleDisk [ran sampleSync]) := by
  have place : Disk.place (StateStore.statePath ⟨⟨"/w/.bsync"⟩, toolVersion⟩) =
      .ok ["w", ".bsync", "sync_state.bin"] := by decide +kernel
  have nothing : ∀ names,
      Disk.place (StateStore.statePath ⟨⟨"/w/.bsync"⟩, toolVersion⟩) = .ok names →
      sampleDisk.fileAt? names = none := by
    intro names placed
    rw [place] at placed
    cases placed
    decide +kernel
  have concern : Concern (StateStore.statePath ⟨⟨"/w/.bsync"⟩, toolVersion⟩) sampleDisk
      [ran sampleSync] := .ran (.inl (by decide +kernel)) .nil
  have same : Disk.SameWay (StateStore.statePath ⟨⟨"/w/.bsync"⟩, toolVersion⟩)
      interruptedSync.store.statePath :=
    .inr ⟨place.trans (by decide +kernel), by decide +kernel, by decide +kernel⟩
  obtain ⟨loaded, failing⟩ := loaded_diskAfter nothing concern
  constructor
  · rw [loaded]
    decide +kernel
  · cases result : interruptedSync.result (diskAfter sampleDisk [ran sampleSync]) with
    | error e => exact failing interruptedSync e same result
    | ok code =>
      have failed : (interruptedSync.result (diskAfter sampleDisk [ran sampleSync])).isOk =
          false := by decide +kernel
      rw [result] at failed
      cases failed

end Event

end WorkspaceSync.CommandLine
