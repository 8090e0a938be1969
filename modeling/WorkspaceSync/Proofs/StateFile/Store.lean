import WorkspaceSync.Proofs.FileSystem.Entries
import WorkspaceSync.Proofs.StateFile.Format
import WorkspaceSync.Proofs.Sync.Run
import WorkspaceSync.StateFile.Store

/-!
# What a store loads

A store loads what a store of the same directory saved, whichever versions of the program the two
belong to, unless the level in it is release 0: such a state is saved as any other and not loaded. It
loads nothing from a file that was cut off or changed, unless the change goes unnoticed by the hash,
and nothing from a file of another kind or layout.
-/

namespace WorkspaceSync

namespace StateStore

variable {s : StateStore} {d d' : Disk} {state : SyncState}

/-- What a store loads from a disk. -/
def loaded (s : StateStore) (d : Disk) : Option SyncState :=
  ((s.load : StateM Disk (Option SyncState)) d).1

private theorem run_bind {α β : Type} (x : StateM Disk α) (f : α → StateM Disk β) (d : Disk) :
    (x >>= f) d = f (x d).1 (x d).2 := rfl

theorem loaded_eq (s : StateStore) (d : Disk) :
    s.loaded d = (d.content? s.statePath).bind StateFile.decode := by
  unfold loaded load Disk.content?
  rw [run_bind]
  simp only [FileAccess.read]
  cases d.read s.statePath <;> rfl

/-- The two files of a store are two places. -/
theorem temporary_apart (s : StateStore) {names : List String}
    (temporary : Disk.place s.temporaryPath = .ok names) : Disk.place s.statePath ≠ .ok names := by
  intro state
  have first := Disk.getLast?_place_push (by decide) temporary
  have second := Disk.getLast?_place_push (by decide) state
  rw [first] at second
  exact absurd second (by decide)

theorem save_eq (s : StateStore) (state : SyncState) (d : Disk) :
    (s.save state : StateM Disk (Except StoreError Unit)) d =
      match Disk.createDirectories s.directory d with
      | (.error e, d₁) => (.error ⟨s.directory, e⟩, d₁)
      | (.ok (), d₁) =>
        match d₁.write s.temporaryPath (StateFile.encode s.toolVersion state) 0 with
        | .error e => (.error ⟨s.temporaryPath, e⟩, d₁)
        | .ok d₂ =>
          match d₂.rename s.temporaryPath s.statePath with
          | .error e => (.error ⟨s.statePath, e⟩, d₂)
          | .ok d₃ => (.ok (), d₃) := by
  unfold save
  simp only [run_bind, FileAccess.createDirectories, FileAccess.write, FileAccess.rename]
  rcases Disk.createDirectories s.directory d with ⟨e | u, d₁⟩
  · rfl
  · simp only [run_bind, Disk.attempt]
    cases d₁.write s.temporaryPath (StateFile.encode s.toolVersion state) 0 with
    | error e => rfl
    | ok d₂ =>
      simp only [run_bind, Disk.attempt]
      cases d₂.rename s.temporaryPath s.statePath with
      | error e => rfl
      | ok d₃ => rfl

/-- After a state was saved, the state file has its encoding. -/
theorem content?_of_save
    (saved : (s.save state : StateM Disk (Except StoreError Unit)) d = (.ok (), d')) :
    d'.content? s.statePath = some (StateFile.encode s.toolVersion state) := by
  rw [save_eq] at saved
  split at saved
  · cases saved
  · rename_i d₁ made
    split at saved
    · cases saved
    · rename_i d₂ written
      split at saved
      · cases saved
      · rename_i d₃ renamed
        obtain rfl := (Prod.mk.inj saved).2
        rw [(Disk.content?_of_rename renamed fun _ => s.temporary_apart).1]
        exact Disk.content?_of_write written

/-- What was saved is loaded: by a store of the same directory and any version of the program, up to
every spelling, so that a sync from it is the sync from the state in memory. Only a state with a level
that is no feature release is not loaded again. A file that was cut off holds nothing. What stands in
the payload's place behind the same header is not read if its hash is another one, and a file with
other letters in front or another layout is not read at all. -/
theorem loaded_of_save {t₁ : String} (t₂ : String) {directory : FilePath} {state : SyncState}
    {d d' : Disk} (fits : StateFile.Fits t₁ state)
    (saved : (save ⟨directory, t₁⟩ state : StateM Disk (Except StoreError Unit)) d =
      (.ok (), d')) :
    d'.content? (statePath ⟨directory, t₂⟩) = some (StateFile.encode t₁ state) ∧
    (state.Restorable → loaded ⟨directory, t₂⟩ d' = some state ∧
      ∀ c : SyncCall, c.report ((loaded ⟨directory, t₂⟩ d').getD .empty) = c.report state) ∧
    (¬ state.Restorable → loaded ⟨directory, t₂⟩ d' = none) ∧
    ∀ (x : Disk) (b : Bytes), x.content? (statePath ⟨directory, t₂⟩) = some b →
      (b <+: StateFile.encode t₁ state → b ≠ StateFile.encode t₁ state →
        loaded ⟨directory, t₂⟩ x = none) ∧
      (∀ other, b = StateFile.front t₁ (Codec.syncState.encode state) ++ other →
        ContentHash.ofBytes other ≠ ContentHash.ofBytes (Codec.syncState.encode state) →
        loaded ⟨directory, t₂⟩ x = none) ∧
      ((b.drop 4).take 4 ≠ StateHeader.stateMagic ∨
          (∀ rest, Codec.word32.decode (b.drop 8) ≠ some (StateHeader.currentSchema, rest)) →
        loaded ⟨directory, t₂⟩ x = none) := by
  have path : statePath ⟨directory, t₂⟩ = statePath ⟨directory, t₁⟩ := rfl
  have content : d'.content? (statePath ⟨directory, t₂⟩) = some (StateFile.encode t₁ state) := by
    rw [path]
    exact content?_of_save saved
  have decoded : loaded ⟨directory, t₂⟩ d' = StateFile.decode (StateFile.encode t₁ state) := by
    rw [loaded_eq, content, Option.bind_some]
  refine ⟨content, fun restorable => ?_, fun lost => ?_, fun x b found => ?_⟩
  · have same : loaded ⟨directory, t₂⟩ d' = some state := by
      rw [decoded, StateFile.decode_encode fits restorable]
    exact ⟨same, fun c => by rw [same]; rfl⟩
  · rw [decoded, StateFile.decode_encode_eq_none fits lost]
  · rw [loaded_eq, found, Option.bind_some]
    refine ⟨StateFile.decode_part fits, ?_, fun strange => ?_⟩
    · rintro other rfl differs
      exact StateFile.decode_other_payload fits differs
    · cases holds : StateFile.decode b with
      | none => rfl
      | some state' =>
        obtain ⟨magic, rest, schema⟩ := StateFile.fields_of_decode holds
        rcases strange with strange | strange
        · exact absurd magic strange
        · exact absurd schema (strange rest)

/-! ## A state with a bit of everything -/

/-- A target of another repository. -/
def sampleLabel : Label where
  repository := some "r"
  package := "p"
  name := "n"
  repository_valid r h := Option.some.inj h ▸ by decide
  package_valid := by decide
  name_valid := by decide

/-- A state whose numbers take every width and whose paths are spelled with dots. -/
def sampleState : SyncState where
  manifests := some {
    snapshot := .ofList [(⟨"/w/./a"⟩, .metadata 70000 0x10000000000000000000000000), (⟨"/w//b"⟩, .content ⟨251, 7⟩)]
    owners := .ofList [(⟨"/w/a/"⟩, sampleLabel)]
    dependencies := .ofList [(sampleLabel, ["a.jar", ""])] }
  java := some {
    imported := {
      contentEntries := [⟨⟨"/w"⟩, [⟨⟨"/w/j"⟩, "p", true⟩], [⟨"/w/x"⟩]⟩]
      libraries := .ofList [(⟨"k"⟩, ⟨⟨"k"⟩, .ofJar ⟨"out", "a.jar", false⟩⟩)]
      outputJars := .ofList [⟨"/o/./b.jar"⟩]
      javaSources := .ofList [⟨"/w/j/A.java"⟩]
      sourceVersion := some ⟨17⟩ }
    excludedLibraries := ["x*"]
    attachSourceJars := true
    attachedLibraries := .empty }

theorem sample_state_loaded : sampleState.Restorable ∧ ∃ d',
    (save ⟨⟨"/w/.bsync"⟩, "0.1.0"⟩ sampleState : StateM Disk (Except StoreError Unit)) .empty =
      (.ok (), d') ∧ loaded ⟨⟨"/w/.bsync"⟩, "0.2.0"⟩ d' = some sampleState := by
  have fits : StateFile.Fits "0.1.0" sampleState :=
    StateFile.fits_of_short (by decide) (by decide +kernel)
  have saved : (save ⟨⟨"/w/.bsync"⟩, "0.1.0"⟩ sampleState :
      StateM Disk (Except StoreError Unit)) .empty = (.ok (), _) :=
    Prod.ext (by decide +kernel) rfl
  have restorable : sampleState.Restorable := by
    rintro _ ⟨⟩ _ ⟨⟩
    decide
  exact ⟨restorable, _, saved, ((loaded_of_save "0.2.0" fits saved).2.1 restorable).1⟩

/-! ## A level without a text of its own -/

/-- A toolchain whose level is no feature release. -/
def unreleasedToolchain : Rule where
  label := .inWorkspace "jdk" "unreleased" (by decide) (by decide)
  kind := "java_toolchain"
  sources := []
  dependencies := []
  payload := some (.javaToolchain ⟨⟨0⟩, none⟩)

def unreleasedSync : SyncCall where
  engine := ⟨.default, .empty, [], .onDisk, PackageManifest.load⟩
  request := ⟨.ofRules [unreleasedToolchain], ⟨⟨⟨"/w"⟩⟩, ⟨"/e"⟩, ⟨"/o"⟩⟩, none⟩
  files := .empty
  cancelled := .never
  keyed := RuleMap.keyed_ofRules _
  neverCleared := Cancellation.neverCleared_never

/-- The state that such a sync leaves. -/
def unreleasedState : SyncState where
  manifests := some .empty
  java := some {
    imported := {
      contentEntries := []
      libraries := .empty
      outputJars := .empty
      javaSources := .empty
      sourceVersion := some ⟨0⟩ }
    excludedLibraries := []
    attachSourceJars := false
    attachedLibraries := .empty }

/-- The level is written as `1.0`, which is not read, and the whole state is lost with it. -/
theorem release_zero_not_loaded : ∃ o d',
    (unreleasedSync.report .empty).outcome = .ok o ∧ o.state = unreleasedState ∧
      (save ⟨⟨"/w/.bsync"⟩, "1.0.0"⟩ o.state : StateM Disk (Except StoreError Unit)) .empty =
        (.ok (), d') ∧ loaded ⟨⟨"/w/.bsync"⟩, "1.0.0"⟩ d' = none := by
  have left : (unreleasedSync.report .empty).outcome.toOption.map (·.state) =
      some unreleasedState := by decide +kernel
  obtain ⟨⟨state, d, l, reloaded⟩, returned, same⟩ := Option.map_eq_some_iff.1 left
  obtain rfl : state = unreleasedState := same
  have fits : StateFile.Fits "1.0.0" unreleasedState :=
    StateFile.fits_of_short (by decide) (by decide +kernel)
  have saved : (save ⟨⟨"/w/.bsync"⟩, "1.0.0"⟩ unreleasedState :
      StateM Disk (Except StoreError Unit)) .empty = (.ok (), _) :=
    Prod.ext (by decide +kernel) rfl
  have lost : ¬ unreleasedState.Restorable := by
    intro restorable
    have feature := restorable _ rfl ⟨0⟩ rfl
    exact absurd feature (by decide)
  refine ⟨_, _, toOption_eq_some_iff.1 returned, rfl, saved, ?_⟩
  rw [loaded_eq, content?_of_save saved, Option.bind_some,
    StateFile.decode_encode_eq_none fits lost]

end StateStore

end WorkspaceSync
