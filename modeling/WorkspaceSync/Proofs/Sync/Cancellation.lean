import WorkspaceSync.Proofs.ManifestIndex.Outcomes
import WorkspaceSync.Proofs.Sync.Run

/-!
# Syncs that are cancelled

The flag may go up at any moment of a sync. Files that are parsed together are looked at in no fixed
order, and those that find the flag set are dropped, although their new signatures are already in
the snapshot. The look after them makes up for that: a sync either ends as cancelled or is, in
everything that it reports, the sync whose flag is never set.
-/

namespace WorkspaceSync

namespace LoadCall

variable {c : LoadCall} {i : ManifestIndex}

/-- The same load with a flag that is never set. -/
def uncancelled (c : LoadCall) : LoadCall :=
  { c with cancelled := .never, neverCleared := Cancellation.neverCleared_never }

theorem parseAll_of_clear {v : FileView} {cancelled : Cancellation}
    {owners : SortedMap FilePath Label} {files : List FilePath}
    (clear : ∀ p, cancelled (.parse p) = false) :
    ManifestIndex.parseAll v cancelled owners files =
      ManifestIndex.parseAll v .never owners files := by
  unfold ManifestIndex.parseAll Cancellation.never
  simp only [clear]

/-- A load after which the flag is not set has done what it does without a flag. -/
theorem report_uncancelled (i : ManifestIndex) (last : c.cancelled .loaded = false) :
    c.uncancelled.report i = c.report i := by
  have clear : ∀ m : Moment, m.phase < Moment.loaded.phase → c.cancelled m = false :=
    fun m before => c.neverCleared.eq_false before last
  have signatures : ∀ p, c.cancelled (.signature p) = false :=
    fun p => clear (.signature p) (by simp [Moment.phase])
  have parses : ∀ p, c.cancelled (.parse p) = false :=
    fun p => clear (.parse p) (by simp [Moment.phase])
  have parsed : ∀ files, c.cancelled (.parsed files) = false :=
    fun files => clear (.parsed files) (by simp [Moment.phase])
  have never : ∀ p, Cancellation.never (.signature p) = false := fun _ => rfl
  unfold report uncancelled ManifestIndex.load
  simp only [SnapshotDiff.update_of_clear signatures, clear .prefetch (by decide), parsed,
    parseAll_of_clear parses, SnapshotDiff.update_of_clear never]
  rfl

end LoadCall

/-- The last look at the flag decides nothing but whether the outcome is kept. -/
theorem Engine.conclude_cancelled_or_eq (e : Engine) (previous : SyncState)
    (manifests : Option ManifestIndex) (reloaded : Bool) (imported : ImportResult)
    (cancelled : Cancellation) :
    (e.conclude previous manifests reloaded imported cancelled).1 = .error .cancelled ∨
      e.conclude previous manifests reloaded imported cancelled =
        e.conclude previous manifests reloaded imported .never := by
  unfold conclude
  split
  · exact .inr rfl
  · cases cancelled .attached with
    | true => exact .inl rfl
    | false => exact .inr rfl

namespace SyncCall

variable {c : SyncCall} {st : SyncState} {o : SyncOutcome}

/-- The same sync with a flag that is never set. -/
def uncancelled (c : SyncCall) : SyncCall :=
  { c with cancelled := .never, neverCleared := Cancellation.neverCleared_never }

theorem loaded_uncancelled (st : SyncState) (last : c.cancelled .loaded = false) :
    c.uncancelled.loaded st = c.loaded st :=
  c.loading.report_uncancelled (st.manifests.getD .empty) last

/-- A sync is cancelled, or no look at the flag made a difference. -/
theorem cancelled_or_report_eq (c : SyncCall) (st : SyncState) :
    (c.report st).outcome = .error .cancelled ∨ c.report st = c.uncancelled.report st := by
  have load : ∀ d : SyncCall, d.engine.load d.request st d.files d.cancelled = d.loaded st :=
    fun _ => rfl
  by_cases start : c.cancelled .start = true
  · rw [outcome_eq, if_pos start]
    exact .inl rfl
  by_cases loaded : c.cancelled .loaded = true
  · rw [outcome_eq, if_neg start]
    cases (c.loaded st).outcome with
    | error e => exact .inl rfl
    | ok index =>
      dsimp only
      rw [if_pos loaded]
      exact .inl rfl
  rw [Bool.not_eq_true] at start loaded
  have same := c.loaded_uncancelled st loaded
  simp only [report, Engine.sync, Engine.syncTimed, Id.run, load, same, start, loaded]
  cases (c.loaded st).outcome with
  | error e => exact .inl rfl
  | ok index =>
    dsimp only
    rw [if_neg Bool.false_ne_true]
    cases c.cancelled (.imported (c.engine.importWorkspace c.request (index.or st.manifests)
        (c.loaded st).files).manifests) with
    | true => exact .inl rfl
    | false =>
      refine (c.engine.conclude_cancelled_or_eq st (index.or st.manifests) index.isSome
        (c.engine.importWorkspace c.request (index.or st.manifests) (c.loaded st).files).result
        c.cancelled).imp id fun concluded => ?_
      rw [concluded]
      rfl

theorem parsed_of_outcome (h : (c.report st).outcome = .ok o) :
    (c.report st).parsed = (c.loaded st).parsed := by
  have load : c.engine.load c.request st c.files c.cancelled = c.loaded st := rfl
  have clear : ∀ m : Moment, m.phase < Moment.attached.phase → c.cancelled m = false :=
    fun m before => c.neverCleared.eq_false before (outcome_eq_ok_iff.1 h).1
  simp only [report, Engine.sync, Engine.syncTimed, Id.run, load, clear .start (by decide),
    clear .loaded (by decide), clear (.imported _) (by simp [Moment.phase])]
  cases (c.loaded st).outcome with
  | error e => rfl
  | ok index => rfl

/-- A sync that succeeds with manifests that are loaded anew has parsed every manifest whose
signature is another one than the stored one. -/
theorem mem_parsed_of_outdated (h : (c.report st).outcome = .ok o) (reloaded : o.reloaded = true)
    {l : Label} {q : FilePath} {s : FileSignature}
    (owns : ManifestIndex.Owns c.request.roots c.request.rules l q)
    (signed : FileSignature.compute c.engine.config.sync.manifestSignature c.files q = .ok s)
    (outdated : (st.manifests.getD .empty).snapshot.get? q ≠ some s) :
    q ∈ (c.report st).parsed := by
  rw [parsed_of_outcome h]
  obtain ⟨-, index, x, loaded, -, rfl⟩ := outcome_eq_ok_iff.1 h
  obtain ⟨j, rfl⟩ := Option.isSome_iff_exists.1 (show index.isSome = true from reloaded)
  have parsed : (c.loaded st).parsed = (c.loading.diff (st.manifests.getD .empty)).changed :=
    LoadCall.parsed_of_outcome loaded
  rw [parsed, LoadCall.mem_changed_iff]
  exact ⟨l, (ManifestIndex.mem_ownersOf_iff c.keyed).2 owns, s,
    LoadCall.reading_eq_signed_iff.2 signed, outdated⟩

/-- On a local disk every sync that succeeds has loaded the manifests anew. -/
theorem reloaded_of_onDisk (onDisk : c.engine.prefetch = .onDisk)
    (h : (c.report st).outcome = .ok o) : o.reloaded = true := by
  obtain ⟨last, index, x, loaded, -, rfl⟩ := outcome_eq_ok_iff.1 h
  have clear : ∀ m : Moment, m.phase < Moment.loaded.phase → c.cancelled m = false :=
    fun m before => c.neverCleared.eq_false (Nat.lt_trans before (by decide)) last
  have fetched : c.loading.prefetch false
      (c.loading.diff (st.manifests.getD .empty)).changed c.files = (.done, c.files) := by
    rw [loading, onDisk]
    rfl
  obtain ⟨j, hj, -⟩ := LoadCall.exists_outcome (c := c.loading) clear fetched
  obtain rfl := Except.ok.inj (loaded.symm.trans hj)
  rfl

/-- Cancellation is all or nothing. Whenever the flag goes up, and in whatever order the looks at it
within a phase come, a sync on a local disk is cancelled or reports what it reports with a flag that
is never set; and one that succeeds has parsed every manifest that changed. -/
theorem cancelled_or_as_never_set (c : SyncCall) (st : SyncState)
    (onDisk : c.engine.prefetch = .onDisk) :
    (c.report st).outcome = .error .cancelled ∨
    c.report st = c.uncancelled.report st ∧
      ∀ o, (c.report st).outcome = .ok o → o.reloaded = true ∧
        ∀ l q s, ManifestIndex.Owns c.request.roots c.request.rules l q →
          FileSignature.compute c.engine.config.sync.manifestSignature c.files q = .ok s →
          (st.manifests.getD .empty).snapshot.get? q ≠ some s → q ∈ (c.report st).parsed := by
  refine (c.cancelled_or_report_eq st).imp id fun same => ⟨same, fun o returned => ?_⟩
  have reloaded := reloaded_of_onDisk onDisk returned
  exact ⟨reloaded, fun l q s => mem_parsed_of_outdated returned reloaded⟩

/-! ## A flag that goes up between two manifests -/

/-- The flag goes up when one of two manifests has been parsed. -/
def interruptedSync : SyncCall where
  engine := ⟨.default, .empty, [], .onDisk, PackageManifest.load⟩
  request := ⟨LoadCall.bothRules, LoadCall.bothRoots, none⟩
  files := LoadCall.filesWith (LoadCall.manifestOf 97, 0) (LoadCall.manifestOf 98, 0)
  cancelled m := m = .parse ⟨"/w/b"⟩ || Moment.phase (.parse ⟨"/w/b"⟩) < m.phase
  keyed := LoadCall.keyed_bothRules
  neverCleared m n before set := by
    simp only [Bool.or_eq_true, decide_eq_true_eq] at set ⊢
    rcases set with rfl | set
    · exact .inr before
    · exact .inr (Nat.lt_trans set before)

theorem interrupted_sync_cancelled :
    (interruptedSync.report .empty).parsed = [⟨"/w/a"⟩] ∧
      (interruptedSync.report .empty).outcome = .error .cancelled := by
  have parsed : (interruptedSync.report .empty).parsed = [⟨"/w/a"⟩] := by decide +kernel
  refine ⟨parsed, (cancelled_or_as_never_set interruptedSync .empty rfl).resolve_right ?_⟩
  rintro ⟨same, -⟩
  have all : (interruptedSync.uncancelled.report .empty).parsed = [⟨"/w/a"⟩, ⟨"/w/b"⟩] := by
    decide +kernel
  rw [same, all] at parsed
  simp at parsed

end SyncCall

end WorkspaceSync
