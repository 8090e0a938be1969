import WorkspaceSync.Proofs.FileSystem.Faults
import WorkspaceSync.Proofs.StateFile.Store

/-!
# Stores on disks that fail

Whichever operation fails, a store saves the new state or its state file stays as it was, and a state
file that is not removed stays. What is left of a new state that did not make it lies in the temporary
file, which no one reads and the next save overwrites.
-/

namespace WorkspaceSync

open Session

namespace StateStore

variable {s s' : StateStore} {d d' : Disk} {state : SyncState} {kept : Option SyncState}

/-- The state file of a store has a state, or there is none. -/
structure Keeps (s : StateStore) (kept : Option SyncState) (d : Disk) : Prop where
  restorable : ∀ state ∈ kept, state.Restorable
  content : d.content? s.statePath = kept.map (StateFile.encode s.toolVersion)
  length : ∀ b, d.content? s.statePath = some b → b.length ≤ FaultyDisk.maxFileSize
  settled : d.Settled s.statePath

theorem Keeps.of_spares (keeps : s.Keeps kept d) (spares : Disk.Spares s.statePath d d') :
    s.Keeps kept d' where
  restorable := keeps.restorable
  content := (spares.content?_eq keeps.settled).trans keeps.content
  length := by
    rw [spares.content?_eq keeps.settled]
    exact keeps.length
  settled := spares.settled keeps.settled

theorem keeps_none (content : d.content? s.statePath = none) (settled : d.Settled s.statePath) :
    s.Keeps none d where
  restorable := nofun
  content := content
  length := by
    rw [content]
    exact nofun
  settled := settled

/-- Another way to the state file is as good. -/
theorem Keeps.of_sameWay (keeps : s.Keeps kept d) (version : s.toolVersion = s'.toolVersion)
    (same : Disk.SameWay s.statePath s'.statePath) : s'.Keeps kept d := by
  have settled : d.Settled s'.statePath := by
    intro names placed file
    have reached := keeps.settled names (same.place_eq.trans placed) file
    exact same.locate (by decide) reached
  have content : d.content? s'.statePath = d.content? s.statePath := by
    rw [settled.content?_eq, keeps.settled.content?_eq, same.place_eq]
  refine ⟨keeps.restorable, ?_, ?_, settled⟩
  · rw [content, keeps.content, version]
  · rw [content]
    exact keeps.length

/-- A store loads the state that the file has. -/
theorem Keeps.loaded_eq (keeps : s.Keeps kept d)
    (short : (Bytes.ofText s.toolVersion).length + 64 < 2 ^ 32) : s.loaded d = kept := by
  have content := keeps.content
  have length := keeps.length
  rw [StateStore.loaded_eq]
  cases kept with
  | none =>
    rw [content]
    rfl
  | some state =>
    have whole := length _ content
    rw [StateFile.encode_eq, List.length_append, FaultyDisk.maxFileSize] at whole
    have fits : StateFile.Fits s.toolVersion state := StateFile.fits_of_short short (by omega)
    have restorable := keeps.restorable state rfl
    rw [content, Option.map_some, Option.bind_some, StateFile.decode_encode fits restorable]

theorem quiet_load (s : StateStore) : Quiet s.load := by
  unfold load
  refine (quiet_read _).bind fun r => ?_
  cases r with
  | ok b => exact .pure _
  | error e => exact .pure _

/-- A state is saved, or the state file is as it was. -/
theorem ensures_save (s : StateStore) (restorable : state.Restorable) :
    Ensures (s.save state) fun d r d' =>
      match r with
      | .ok () => s.Keeps (some state) d'
      | .error _ => Disk.Spares s.statePath d d' := by
  unfold save
  refine (ensures_createDirectories s.directory).bind fun r => ?_
  cases r with
  | error e => exact .pure fun d₁ d grows => grows.spares _
  | ok u =>
    refine (ensures_write _ _).bind fun r => ?_
    cases r with
    | error e =>
      -- Something may be in the temporary file by now.
      refine .pure fun d₂ d₁ wrote d grows => ?_
      exact (grows.spares _).trans (wrote.2 _ fun _ => s.temporary_apart)
    | ok u =>
      refine (ensures_rename _ _).bind fun r => ?_
      cases r with
      | error e =>
        refine .pure fun d₃ d₂ same d₁ wrote d grows => ?_
        rw [same]
        exact (grows.spares _).trans (wrote.2 _ fun _ => s.temporary_apart)
      | ok u =>
        refine .pure fun d₃ d₂ renamed d₁ wrote d grows => ?_
        obtain ⟨written, small⟩ := wrote.1 rfl
        obtain ⟨content, settled⟩ :=
          Disk.content?_of_rename renamed fun _ => s.temporary_apart
        rw [Disk.content?_of_write written] at content
        refine ⟨?_, content, ?_, settled⟩
        · rintro _ ⟨⟩
          exact restorable
        rw [content]
        rintro b ⟨⟩
        exact small

/-- The state file is removed, or the disk is as it was. -/
theorem ensures_clear (s : StateStore) :
    Ensures s.clear fun d r d' =>
      match r with
      | .ok _ => d.Settled s.statePath → s.Keeps none d'
      | .error _ => d' = d := by
  unfold clear
  refine (ensures_removeFile _).bind fun r => ?_
  cases r with
  | ok u =>
    refine .pure fun d' d removed _ => ?_
    obtain ⟨content, settled⟩ := Disk.content?_of_removeFile removed
    exact keeps_none content settled
  | error e =>
    cases e with
    | notFound =>
      refine .pure fun d' d refused settled => ?_
      rw [refused.1]
      exact keeps_none (Disk.content?_of_removeFile_error (refused.2 rfl)) settled
    | _ => exact .pure fun d' d refused => refused.1

end StateStore

end WorkspaceSync
