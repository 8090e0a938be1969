import WorkspaceSync.Proofs.ManifestIndex.History
import WorkspaceSync.Sync.Engine

/-!
# Runs of syncs

Every sync of a run has its own configuration, inputs, files and moments of cancellation, and starts
from the state of the last one that succeeded. `outcome_eq_ok_iff` tells when a sync succeeds and
with what; the manifests of its state are those that the loads of the successful syncs leave.
-/

namespace WorkspaceSync

/-- A sync, with all that it is given but the previous state. -/
structure SyncCall where
  engine : Engine
  request : SyncRequest
  files : FileView
  cancelled : Cancellation
  keyed : request.rules.Keyed
  neverCleared : cancelled.NeverCleared

namespace SyncCall

variable {c : SyncCall} {st : SyncState} {o : SyncOutcome}

def report (c : SyncCall) (st : SyncState) : SyncReport :=
  c.engine.sync c.request st c.files c.cancelled

/-- The state that the next sync starts from. -/
def next (c : SyncCall) (st : SyncState) : SyncState :=
  match (c.report st).outcome with
  | .ok o => o.state
  | .error _ => st

/-- The state after a run of syncs, which has the latest one first. -/
def stateAfter : List SyncCall → SyncState
  | [] => .empty
  | c :: earlier => c.next (stateAfter earlier)

/-- The load of dependency manifests in a sync. -/
def loading (c : SyncCall) : LoadCall where
  mode := c.engine.config.sync.manifestSignature
  roots := c.request.roots
  rules := c.request.rules
  prefetch := c.engine.prefetch
  files := c.files
  cancelled := c.cancelled
  keyed := c.keyed
  neverCleared := c.neverCleared

/-- The report of the load that a sync makes. -/
def loaded (c : SyncCall) (st : SyncState) : LoadReport :=
  c.loading.report (st.manifests.getD .empty)

/-- What the last phase makes of the manifests. -/
def conclusion (c : SyncCall) (st : SyncState) (index : Option ManifestIndex) (x : Exclusions) :
    SyncOutcome :=
  c.engine.outcome st (index.or st.manifests) index.isSome
    (c.engine.importWorkspace c.request (index.or st.manifests) (c.loaded st).files).result x

theorem outcome_eq (c : SyncCall) (st : SyncState) : (c.report st).outcome =
    if c.cancelled .start then .error .cancelled
    else
      match (c.loaded st).outcome with
      | .error e => .error (.ofCancelled e)
      | .ok index =>
        let imported :=
          c.engine.importWorkspace c.request (index.or st.manifests) (c.loaded st).files
        if c.cancelled .loaded then .error .cancelled
        else if c.cancelled (.imported imported.manifests) then .error .cancelled
        else
          (c.engine.conclude st (index.or st.manifests) index.isSome imported.result
            c.cancelled).1 := by
  have load : c.engine.load c.request st c.files c.cancelled = c.loaded st := rfl
  simp only [report, Engine.sync, Engine.syncTimed, Id.run, load]
  split
  · rfl
  · cases (c.loaded st).outcome with
    | error e => rfl
    | ok index =>
      dsimp only
      split
      · rfl
      · split <;> rfl

/-- A sync succeeds if it is not cancelled by the end, its load is not either, and all patterns
compile. -/
theorem outcome_eq_ok_iff : (c.report st).outcome = .ok o ↔
    c.cancelled .attached = false ∧ ∃ index x, (c.loaded st).outcome = .ok index ∧
      Augmenter.exclusions c.engine.augmenters c.engine.exclusions = .ok x ∧
      c.conclusion st index x = o := by
  rw [outcome_eq]
  constructor
  · intro h
    split at h
    · cases h
    · cases hl : (c.loaded st).outcome with
      | error e =>
        rw [hl] at h
        cases h
      | ok index =>
        rw [hl] at h
        dsimp only at h
        split at h
        · cases h
        · split at h
          · cases h
          · unfold Engine.conclude at h
            split at h
            · cases h
            · rename_i x hx
              dsimp only at h
              split at h
              · cases h
              · rename_i hc
                exact ⟨by simpa using hc, index, x, rfl, hx, Except.ok.inj h⟩
  · rintro ⟨last, index, x, hl, hx, rfl⟩
    have clear : ∀ m : Moment, m.phase < Moment.attached.phase → c.cancelled m = false :=
      fun m hm => c.neverCleared.eq_false hm last
    rw [clear .start (by decide), hl]
    simp only [clear .loaded (by decide), clear (.imported _) (by simp [Moment.phase]),
      Bool.false_eq_true, if_false]
    unfold Engine.conclude
    rw [hx]
    simp only [last, Bool.false_eq_true, if_false]
    rfl

/-- A sync that succeeds reports what every phase has to say. -/
theorem diagnostics_of_outcome (h : (c.report st).outcome = .ok o) :
    (c.report st).diagnostics = (c.loaded st).diagnostics ++
      (Engine.timing "LoadJdepsFiles" 0 ::
          (c.engine.importWorkspace c.request o.state.manifests (c.loaded st).files).diagnostics ++
        [Engine.timing "JavaWorkspaceImporter" 0] ++
        c.engine.remarks st
          (c.engine.importWorkspace c.request o.state.manifests (c.loaded st).files).result) := by
  obtain ⟨last, index, x, hl, hx, rfl⟩ := outcome_eq_ok_iff.1 h
  have clear : ∀ m : Moment, m.phase < Moment.attached.phase → c.cancelled m = false :=
    fun m hm => c.neverCleared.eq_false hm last
  have load : c.engine.load c.request st c.files c.cancelled = c.loaded st := rfl
  simp only [report, Engine.sync, Engine.syncTimed, Id.run, load, clear .start (by decide), hl,
    clear .loaded (by decide), clear (.imported _) (by simp [Moment.phase]), Bool.false_eq_true,
    if_false, Engine.conclude, hx]
  rfl

theorem next_of_outcome (h : (c.report st).outcome = .ok o) : c.next st = o.state := by
  rw [next, h]

/-! ## The loads of a run -/

/-- The loads of the syncs that succeeded, the latest one first. -/
def loads : List SyncCall → List LoadCall
  | [] => []
  | c :: earlier =>
    match (c.report (stateAfter earlier)).outcome with
    | .ok _ => c.loading :: loads earlier
    | .error _ => loads earlier

/-- The manifests in the state of a run are those that its loads leave. -/
theorem manifests_stateAfter (run : List SyncCall) :
    (stateAfter run).manifests.getD .empty = LoadCall.indexAfter (loads run) := by
  induction run with
  | nil => rfl
  | cons c earlier ih =>
    cases h : (c.report (stateAfter earlier)).outcome with
    | error e =>
      rw [stateAfter, next, loads]
      simp only [h]
      exact ih
    | ok o =>
      obtain ⟨-, index, x, hl, -, rfl⟩ := outcome_eq_ok_iff.1 h
      rw [stateAfter, next_of_outcome h, loads, h]
      simp only [LoadCall.indexAfter, ← ih]
      unfold LoadCall.next
      rw [← loaded, hl]
      cases index <;> rfl

end SyncCall

end WorkspaceSync
