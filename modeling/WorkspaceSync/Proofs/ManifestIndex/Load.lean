import WorkspaceSync.Proofs.Cancellation
import WorkspaceSync.Proofs.ManifestIndex.Entry
import WorkspaceSync.Proofs.ManifestIndex.Owners
import WorkspaceSync.Proofs.SnapshotDiff

/-!
# Loading file by file

A load that returns an index keeps it coherent. What the new index has of a file follows from what
the old one had, the file's present owner, its signature and what it parses to; no other file comes
into it.
-/

namespace WorkspaceSync

/-- A load, with all that it is given but the index. -/
structure LoadCall where
  mode : SignatureMode
  roots : Roots
  rules : RuleMap
  prefetch : Prefetcher
  files : FileView
  cancelled : Cancellation
  -- As every rule map and every flag is.
  keyed : rules.Keyed
  neverCleared : cancelled.NeverCleared

namespace LoadCall

open ManifestIndex

variable {c : LoadCall} {i j : ManifestIndex} {p q : FilePath} {l : Label}

def report (c : LoadCall) (i : ManifestIndex) : LoadReport :=
  i.load c.mode c.roots c.rules c.prefetch c.files c.cancelled

def owners (c : LoadCall) : SortedMap FilePath Label := ownersOf c.roots c.rules

def reading (c : LoadCall) (q : FilePath) : SignatureReading :=
  .ofResult (FileSignature.compute c.mode c.files q)

def readings (c : LoadCall) : SortedMap FilePath SignatureReading :=
  SnapshotDiff.readingsOf c.mode c.files c.owners.keys

def diff (c : LoadCall) (i : ManifestIndex) : SnapshotDiff :=
  SnapshotDiff.ofReadings i.snapshot c.readings

/-- What a file parses to after the prefetch. -/
def parse (c : LoadCall) (i : ManifestIndex) (q : FilePath) :
    Except ManifestProblem DependencyManifest :=
  DependencyManifest.load (c.report i).files q

/-- The changed files with what they parse to. -/
def results (c : LoadCall) (i : ManifestIndex) : List Parsed :=
  (c.diff i).changed.filterMap fun p => (c.owners.get? p).map fun l => ⟨p, l, c.parse i p⟩

theorem assigns (c : LoadCall) : Assigns c.owners := ownersOf_injective c.keyed

/-- How a load can end. -/
inductive Ends (c : LoadCall) (i : ManifestIndex) (r : LoadReport) : Prop where
  | unsigned (p : FilePath) :
      c.cancelled (.signature p) = true →
      r.outcome = .error .cancelled → r.parsed = [] → Ends c i r
  | unfetched (v : FileView) :
      c.prefetch (c.cancelled .prefetch) (c.diff i).changed c.files = (.cancelled, v) →
      r.outcome = .error .cancelled → r.parsed = [] → Ends c i r
  | lost (reason : String) (v : FileView) :
      c.prefetch (c.cancelled .prefetch) (c.diff i).changed c.files = (.failed reason, v) →
      r.outcome = .ok none → r.parsed = [] → Ends c i r
  | unmerged :
      c.prefetch (c.cancelled .prefetch) (c.diff i).changed c.files = (.done, r.files) →
      r.parsed = (parseAll r.files c.cancelled c.owners (c.diff i).changed).map (·.file) →
      c.cancelled (.parsed r.parsed) = true →
      r.outcome = .error .cancelled → Ends c i r
  | merged :
      c.prefetch (c.cancelled .prefetch) (c.diff i).changed c.files = (.done, r.files) →
      r.parsed = (parseAll r.files c.cancelled c.owners (c.diff i).changed).map (·.file) →
      c.cancelled (.parsed r.parsed) = false →
      r.outcome = .ok (some ((parseAll r.files c.cancelled c.owners (c.diff i).changed).foldl
        (merge i.snapshot) (i.rebase (c.diff i) c.owners))) → Ends c i r

theorem report_ends (c : LoadCall) (i : ManifestIndex) : c.Ends i (c.report i) := by
  unfold report load
  dsimp only
  split
  · rename_i e he
    obtain ⟨p, hp⟩ := SnapshotDiff.exists_cancelled_of_update he
    cases e
    exact .unsigned p hp rfl rfl
  · rename_i d hd
    obtain rfl : d = c.diff i := SnapshotDiff.update_eq_ok hd
    split
    · rename_i v hv
      exact .unfetched v hv rfl rfl
    · rename_i reason v hv
      exact .lost reason v hv rfl rfl
    · rename_i v hv
      split
      · rename_i hc
        exact .unmerged hv rfl hc rfl
      · rename_i hc
        exact .merged hv rfl (Bool.eq_false_iff.2 hc) rfl

/-- Where the flag is not set after parsing, it was not set before any file either. -/
theorem results_eq_parseAll {files : List FilePath} (h : c.cancelled (.parsed files) = false) :
    c.results i = parseAll (c.report i).files c.cancelled c.owners (c.diff i).changed := by
  unfold parseAll
  rw [List.filter_eq_self.2]
  · rfl
  · intro p _
    rw [c.neverCleared.eq_false (m := .parse p) (by simp [Moment.phase]) h]
    rfl

/-- A load that returns an index has parsed all the files that changed. -/
theorem report_of_outcome (h : (c.report i).outcome = .ok (some j)) :
    (c.report i).parsed = (c.results i).map (·.file) ∧
      j = (c.results i).foldl (merge i.snapshot) (i.rebase (c.diff i) c.owners) := by
  cases c.report_ends i with
  | unsigned _ _ ho => exact nomatch h.symm.trans ho
  | unfetched _ _ ho => exact nomatch h.symm.trans ho
  | lost _ _ _ ho => exact nomatch h.symm.trans ho
  | unmerged _ _ _ ho => exact nomatch h.symm.trans ho
  | merged _ hp hc ho =>
    rw [results_eq_parseAll hc]
    exact ⟨hp, Option.some.inj (Except.ok.inj (h.symm.trans ho))⟩

/-- A load that is not cancelled and whose prefetch succeeds returns an index. -/
theorem exists_outcome {v : FileView}
    (clear : ∀ m : Moment, m.phase < Moment.loaded.phase → c.cancelled m = false)
    (fetched : c.prefetch false (c.diff i).changed c.files = (.done, v)) :
    ∃ j, (c.report i).outcome = .ok (some j) ∧ (c.report i).files = v := by
  rw [← clear .prefetch (by decide)] at fetched
  cases c.report_ends i with
  | unsigned p hp =>
    rw [clear (.signature p) (by simp [Moment.phase])] at hp
    cases hp
  | unfetched _ hf => cases fetched.symm.trans hf
  | lost _ _ hf => cases fetched.symm.trans hf
  | unmerged _ _ hc =>
    rw [clear (.parsed _) (by simp [Moment.phase])] at hc
    cases hc
  | merged hf _ _ ho => exact ⟨_, ho, (Prod.mk.inj (hf.symm.trans fetched)).2⟩

/-! ## Files and their readings -/

theorem entryAt?_readings (c : LoadCall) (p : FilePath) :
    c.readings.entryAt? p = (c.owners.entryAt? p).map fun e => (e.1, c.reading e.1) := by
  rw [readings, SnapshotDiff.readingsOf, SortedMap.entryAt?_map, SortedSet.entryAt?_ofList_keys,
    Option.map_map]
  rfl

theorem get?_readings (h : (q, l) ∈ c.owners.entries) : c.readings.get? q = some (c.reading q) := by
  rw [SortedMap.get?, entryAt?_readings, SortedMap.entryAt?_of_mem h]
  rfl

theorem get?_readings_of_no_owner (h : c.owners.get? p = none) : c.readings.get? p = none := by
  rw [SortedMap.get?, Option.map_eq_none_iff] at h
  rw [SortedMap.get?, entryAt?_readings, h]
  rfl

theorem mem_changed_iff : q ∈ (c.diff i).changed ↔
    ∃ l, (q, l) ∈ c.owners.entries ∧
      ∃ s, c.reading q = .signed s ∧ i.snapshot.get? q ≠ some s := by
  rw [diff, SnapshotDiff.mem_changed_iff]
  constructor
  · rintro ⟨s, hs, hne⟩
    have hr := SortedMap.entryAt?_of_mem hs
    rw [entryAt?_readings, Option.map_eq_some_iff] at hr
    obtain ⟨⟨q', l⟩, hq, heq⟩ := hr
    obtain ⟨rfl, hr⟩ := Prod.mk.inj heq
    exact ⟨l, (SortedMap.entryAt?_eq_some_iff.1 hq).1, s, hr, hne⟩
  · rintro ⟨l, hq, s, hr, hne⟩
    refine ⟨s, ?_, hne⟩
    have hm := entryAt?_readings c q
    rw [SortedMap.entryAt?_of_mem hq, Option.map_some, hr] at hm
    exact (SortedMap.entryAt?_eq_some_iff.1 hm).1

theorem mem_results_iff {m : Parsed} : m ∈ c.results i ↔
    m.file ∈ (c.diff i).changed ∧ (m.file, m.label) ∈ c.owners.entries ∧
      m.result = c.parse i m.file := by
  rw [results, List.mem_filterMap]
  constructor
  · rintro ⟨q, hq, h⟩
    obtain ⟨l, hl, rfl⟩ := Option.map_eq_some_iff.1 h
    obtain ⟨l', hm, -⟩ := mem_changed_iff.1 hq
    obtain rfl : l' = l := Option.some.inj ((SortedMap.get?_of_mem hm).symm.trans hl)
    exact ⟨hq, hm, rfl⟩
  · rintro ⟨hq, hm, hr⟩
    refine ⟨m.file, hq, ?_⟩
    rw [SortedMap.get?_of_mem hm, Option.map_some, ← hr]

theorem map_file_results (c : LoadCall) (i : ManifestIndex) :
    (c.results i).map (·.file) = (c.diff i).changed := by
  rw [results, List.map_filterMap]
  refine (List.filterMap_congr fun q hq => ?_).trans List.filterMap_some
  obtain ⟨l, hm, -⟩ := mem_changed_iff.1 hq
  rw [SortedMap.get?_of_mem hm]
  rfl

/-- Only changed files are parsed, also by a load that is cancelled then. -/
theorem mem_changed_of_parsed (hq : q ∈ (c.report i).parsed) : q ∈ (c.diff i).changed := by
  have parsed : (c.report i).parsed =
      (parseAll (c.report i).files c.cancelled c.owners (c.diff i).changed).map (·.file) →
      q ∈ (c.diff i).changed := by
    intro hp
    rw [hp] at hq
    obtain ⟨m, hm, rfl⟩ := List.mem_map.1 hq
    obtain ⟨r, hr, hm⟩ := List.mem_filterMap.1 hm
    obtain ⟨l, -, rfl⟩ := Option.map_eq_some_iff.1 hm
    exact List.mem_of_mem_filter hr
  cases c.report_ends i with
  | unsigned _ _ _ hp => simp [hp] at hq
  | unfetched _ _ _ hp => simp [hp] at hq
  | lost _ _ _ _ hp => simp [hp] at hq
  | unmerged _ hp => exact parsed hp
  | merged _ hp => exact parsed hp

theorem results_pairwise (c : LoadCall) (i : ManifestIndex) :
    (c.results i).Pairwise fun m n => ¬ m.file.Same n.file := by
  have changed := SnapshotDiff.changed_pairwise i.snapshot c.readings
  rw [← diff, ← map_file_results, List.pairwise_map] at changed
  exact changed

/-! ## The rebased index -/

/-- The previous index with the new snapshot, without the files that are gone. -/
def stripped (c : LoadCall) (i : ManifestIndex) : ManifestIndex :=
  (c.diff i).removed.foldl evict { i with snapshot := (c.diff i).snapshot }

theorem linked_stripped (c : LoadCall) (h : i.Linked) : (c.stripped i).Linked :=
  Linked.evictAll (i := { i with snapshot := (c.diff i).snapshot }) ⟨h.injective, h.labels⟩ _

theorem get?_owners_stripped_of_gone (h : i.Coherent)
    (gone : c.readings.get? p = none ∨ c.readings.get? p = some .missing) :
    (c.stripped i).owners.get? p = none := by
  by_cases hr : ∃ q ∈ (c.diff i).removed, q.Same p
  · exact owners_evictAll _ hr
  · -- The file was not in the previous snapshot, so it had no owner.
    have untracked : i.snapshot.contains p = false := by
      by_contra hc
      exact hr (SnapshotDiff.exists_mem_removed_iff.2 ⟨by simpa using hc, gone⟩)
    rw [SortedMap.contains_eq_isSome, h.tracked p, Option.isSome_eq_false_iff,
      Option.isNone_iff_eq_none] at untracked
    have frame := (Linked.evictAll_frame (i := { i with snapshot := (c.diff i).snapshot })
      ⟨h.injective, h.labels⟩ fun q hq hqp => hr ⟨q, hq, hqp⟩).1
    exact frame.trans untracked

theorem stripped_frame (h : i.Coherent)
    (present : ¬ (c.readings.get? p = none ∨ c.readings.get? p = some .missing)) :
    (c.stripped i).owners.get? p = i.owners.get? p ∧ (c.stripped i).list? p = i.list? p :=
  Linked.evictAll_frame (i := { i with snapshot := (c.diff i).snapshot })
    ⟨h.injective, h.labels⟩ fun _ hq hqp =>
      present (SnapshotDiff.exists_mem_removed_iff.1 ⟨_, hq, hqp⟩).2

/-- The files that are left have present owners, so relabelling gives each its own list. -/
theorem relabelled_rebase (h : i.Coherent) :
    Relabelled (c.stripped i) (i.rebase (c.diff i) c.owners) c.owners := by
  apply (linked_stripped c h.toLinked).relabel c.assigns
  intro p hp
  by_contra hn
  have hn : c.owners.get? p = none := by simpa using hn
  rw [get?_owners_stripped_of_gone h (.inl (get?_readings_of_no_owner hn))] at hp
  cases hp

theorem held_rebase_of_no_owner (h : i.Coherent) (hp : c.owners.get? p = none) :
    (i.rebase (c.diff i) c.owners).held p = Entry.parts none := by
  have rebased := relabelled_rebase (c := c) h
  have snapshot : (i.rebase (c.diff i) c.owners).snapshot.get? p = none := by
    rw [rebased.snapshot, stripped, snapshot_evictAll]
    dsimp only
    rw [diff, SnapshotDiff.get?_snapshot, get?_readings_of_no_owner hp, Option.bind_none]
  have owner : (i.rebase (c.diff i) c.owners).owners.get? p = none := by
    rw [rebased.owner, get?_owners_stripped_of_gone h (.inl (get?_readings_of_no_owner hp)),
      Option.bind_none]
  rw [held, snapshot, owner, list?_of_no_owner owner]
  rfl

/-- A file that is there has its present owner, if it had one, and its list. -/
theorem held_rebase (h : i.Coherent) (hq : (q, l) ∈ c.owners.entries) :
    (i.rebase (c.diff i) c.owners).held q =
      if c.reading q = .missing then Entry.parts none
      else ((c.reading q).next? (i.snapshot.get? q), (i.owners.get? q).map fun _ => l,
        i.list? q) := by
  have rebased := relabelled_rebase (c := c) h
  have snapshot : (i.rebase (c.diff i) c.owners).snapshot.get? q =
      (c.reading q).next? (i.snapshot.get? q) := by
    rw [rebased.snapshot, stripped, snapshot_evictAll]
    dsimp only
    rw [diff, SnapshotDiff.get?_snapshot, get?_readings hq, Option.bind_some]
  by_cases gone : c.reading q = .missing
  · have owner : (i.rebase (c.diff i) c.owners).owners.get? q = none := by
      rw [rebased.owner, get?_owners_stripped_of_gone h (.inr ?_), Option.bind_none]
      rw [get?_readings hq, gone]
    rw [if_pos gone, held, snapshot, owner, list?_of_no_owner owner, gone]
    rfl
  · obtain ⟨owner, list⟩ := stripped_frame (c := c) (p := q) h (by simp [get?_readings hq, gone])
    rw [if_neg gone, held, snapshot, rebased.owner, owner, rebased.list, list]
    rw [SortedMap.get?_of_mem hq]
    cases i.owners.get? q <;> rfl

/-! ## Merging what was parsed -/

/-- While parsed files are merged every owner in the index is the present one. -/
structure Merging (c : LoadCall) (i : ManifestIndex) : Prop extends i.Linked where
  owned : ∀ {p l}, i.owners.get? p = some l → c.owners.get? p = some l

theorem Merging.free (h : c.Merging i) {m : Parsed} (hm : (m.file, m.label) ∈ c.owners.entries) :
    ∀ q, i.owners.get? q = some m.label → q.Same m.file :=
  fun _ hq => c.assigns (h.owned hq) (SortedMap.get?_of_mem hm)

theorem Merging.merge (h : c.Merging i) {m : Parsed}
    (hm : (m.file, m.label) ∈ c.owners.entries) (previous : Snapshot) :
    c.Merging (ManifestIndex.merge previous i m) := by
  unfold ManifestIndex.merge
  split
  · refine ⟨h.toLinked.record (h.free hm) _, fun {p l} hp => ?_⟩
    rw [get?_owners_record] at hp
    split at hp
    · rename_i hfp
      rw [← hp, ← c.owners.get?_congr hfp]
      exact SortedMap.get?_of_mem hm
    · exact h.owned hp
  · exact ⟨⟨h.injective, h.labels⟩, h.owned⟩

theorem Merging.held_merge (h : c.Merging i) {m : Parsed}
    (hm : (m.file, m.label) ∈ c.owners.entries) (previous : Snapshot) (p : FilePath) :
    (ManifestIndex.merge previous i m).held p =
      if m.file.Same p then
        match m.result with
        | .ok d => (i.snapshot.get? p, some m.label, some d.paths)
        | .error _ => (previous.get? p, i.owners.get? p, i.list? p)
      else i.held p := by
  cases hr : m.result with
  | ok d =>
    have merged : ManifestIndex.merge previous i m = i.record m.file m.label d.paths := by
      simp only [ManifestIndex.merge, hr]
    rw [merged, held, get?_owners_record, h.toLinked.list?_record (h.free hm)]
    by_cases hp : m.file.Same p
    · simp only [if_pos hp]
      rfl
    · simp only [if_neg hp]
      rfl
  | error e =>
    have merged : ManifestIndex.merge previous i m =
        { i with snapshot := i.snapshot.rollBack m.file previous } := by
      simp only [ManifestIndex.merge, hr]
    rw [merged, held, Snapshot.get?_rollBack]
    by_cases hp : m.file.Same p
    · rw [if_pos hp, if_pos hp, previous.get?_congr hp]
      rfl
    · rw [if_neg hp, if_neg hp]
      rfl

theorem merging_rebase (c : LoadCall) (h : i.Coherent) :
    c.Merging (i.rebase (c.diff i) c.owners) where
  toLinked := (relabelled_rebase h).linked
  owned {p l} hp := by
    rw [(relabelled_rebase h).owner, Option.bind_eq_some_iff] at hp
    exact hp.choose_spec.2

theorem Merging.foldl_merge (c : LoadCall) (h : i.Coherent) :
    c.Merging ((c.results i).foldl (ManifestIndex.merge i.snapshot)
      (i.rebase (c.diff i) c.owners)) :=
  Fold.foldl_inv c.Merging (c.merging_rebase h) fun _ hs _ hm =>
    hs.merge (mem_results_iff.1 hm).2.1 _

/-- Merging a parsed file touches that file alone. -/
theorem local_merge (c : LoadCall) (i : ManifestIndex) :
    Fold.Local (ManifestIndex.merge i.snapshot) c.Merging held (fun m p => m.file.Same p)
      (c.results i) where
  keeps _ hs _ hm := hs.merge (mem_results_iff.1 hm).2.1 _
  frame s hs m hm p hp := by rw [hs.held_merge (mem_results_iff.1 hm).2.1, if_neg hp]

theorem held_foldl_merge_of_unchanged (h : i.Coherent) (hp : ∀ q ∈ (c.diff i).changed, ¬ q.Same p) :
    ((c.results i).foldl (ManifestIndex.merge i.snapshot) (i.rebase (c.diff i) c.owners)).held p =
      (i.rebase (c.diff i) c.owners).held p :=
  (c.local_merge i).foldl_frame (c.merging_rebase h) fun m hm =>
    hp m.file (mem_results_iff.1 hm).1

theorem held_foldl_merge_of_changed (h : i.Coherent) (hq : q ∈ (c.diff i).changed)
    (hm : (q, l) ∈ c.owners.entries) :
    ((c.results i).foldl (ManifestIndex.merge i.snapshot) (i.rebase (c.diff i) c.owners)).held q =
      match c.parse i q with
      | .ok d => (((i.rebase (c.diff i) c.owners).held q).1, some l, some d.paths)
      | .error _ => (i.snapshot.get? q, ((i.rebase (c.diff i) c.owners).held q).2) := by
  have member : (⟨q, l, c.parse i q⟩ : Parsed) ∈ c.results i := mem_results_iff.2 ⟨hq, hm, rfl⟩
  obtain ⟨t, ht, start, result⟩ := (c.local_merge i).foldl_touch (k := q) (c.merging_rebase h)
    ((c.results_pairwise i).imp fun hne h => hne (h.1.trans h.2.symm)) member (FilePath.Same.refl q)
  rw [result, ht.held_merge hm, if_pos (FilePath.Same.refl q), ← start]
  rfl

/-! ## The new index -/

/-- A file that has an owner is taken for itself, whatever happens to the others. -/
theorem held_of_outcome (h : i.Coherent) (ho : (c.report i).outcome = .ok (some j))
    (hq : (q, l) ∈ c.owners.entries) :
    j.held q = Entry.parts (nextEntry (i.entryAt? q) l (c.reading q) (c.parse i q)) := by
  obtain rfl := (report_of_outcome ho).2
  have rebased := held_rebase h hq
  have signature := h.get?_snapshot q
  -- What is kept of the file: its signature and list, under the present owner.
  have kept : (i.snapshot.get? q, (i.owners.get? q).map fun _ => l, i.list? q) =
      Entry.parts ((i.entryAt? q).map fun e => { e with owner := l }) := by
    rw [signature, h.get?_owners, h.list?_eq]
    cases i.entryAt? q <;> rfl
  by_cases hc : q ∈ (c.diff i).changed
  · obtain ⟨-, -, s, hs, hne⟩ := mem_changed_iff.1 hc
    rw [hs, if_neg (by simp)] at rebased
    rw [held_foldl_merge_of_changed h hc hq, rebased, hs, nextEntry_of_outdated (signature ▸ hne)]
    cases c.parse i q with
    | ok d => rfl
    | error _ => exact kept
  · have alone : ∀ r ∈ (c.diff i).changed, ¬ r.Same q := by
      intro r hr hrq
      obtain ⟨m, hm, -⟩ := mem_changed_iff.1 hr
      obtain ⟨rfl, -⟩ := Prod.mk.inj (SortedMap.eq_of_mem hm hq hrq)
      exact hc hr
    rw [held_foldl_merge_of_unchanged h alone, rebased]
    cases hr : c.reading q with
    | missing => rfl
    | unreadable => exact (if_neg (by simp)).trans kept
    | signed s =>
      have same : i.snapshot.get? q = some s := by
        by_contra hne
        exact hc (mem_changed_iff.2 ⟨l, hq, s, hr, hne⟩)
      rw [if_neg (by simp), nextEntry_of_current (signature ▸ same), ← kept, same]
      rfl

theorem held_of_no_owner (h : i.Coherent) (ho : (c.report i).outcome = .ok (some j))
    (hp : c.owners.get? p = none) : j.held p = Entry.parts none := by
  obtain rfl := (report_of_outcome ho).2
  rw [held_foldl_merge_of_unchanged h, held_rebase_of_no_owner h hp]
  intro q hq hqp
  obtain ⟨l, hm, -⟩ := mem_changed_iff.1 hq
  rw [← c.owners.get?_congr hqp, SortedMap.get?_of_mem hm] at hp
  cases hp

theorem held_eq_parts (h : i.Coherent) (ho : (c.report i).outcome = .ok (some j)) (p : FilePath) :
    j.held p = Entry.parts ((c.owners.entryAt? p).bind fun e =>
      nextEntry (i.entryAt? e.1) e.2 (c.reading e.1) (c.parse i e.1)) := by
  cases hp : c.owners.entryAt? p with
  | none => exact held_of_no_owner h ho (by rw [SortedMap.get?, hp]; rfl)
  | some e =>
    obtain ⟨hm, hq⟩ := SortedMap.entryAt?_eq_some_iff.1 hp
    rw [← j.held_congr hq, held_of_outcome h ho hm]
    rfl

/-- A load keeps the index coherent. -/
theorem coherent_of_outcome (h : i.Coherent) (ho : (c.report i).outcome = .ok (some j)) :
    j.Coherent := by
  refine coherent_of_held ?_ fun p => ⟨_, held_eq_parts h ho p⟩
  obtain rfl := (report_of_outcome ho).2
  exact (Merging.foldl_merge c h).toLinked

theorem entryAt?_of_outcome (h : i.Coherent) (ho : (c.report i).outcome = .ok (some j))
    (p : FilePath) :
    j.entryAt? p = (c.owners.entryAt? p).bind fun e =>
      nextEntry (i.entryAt? e.1) e.2 (c.reading e.1) (c.parse i e.1) :=
  entryAt?_of_held (held_eq_parts h ho p)

/-- Exactly the changed files are parsed, each once. -/
theorem parsed_of_outcome (ho : (c.report i).outcome = .ok (some j)) :
    (c.report i).parsed = (c.diff i).changed :=
  (report_of_outcome ho).1.trans (c.map_file_results i)

end LoadCall

end WorkspaceSync
