import WorkspaceSync.Proofs.SortedMap
import WorkspaceSync.Snapshot.Diff

/-!
# What a snapshot difference says of each path

Every list of a difference and its new snapshot, path by path: what they hold of a path depends on
its own reading and its own earlier signature alone.
-/

namespace WorkspaceSync

theorem Snapshot.get?_rollBack (s previous : Snapshot) (file p : FilePath) :
    (s.rollBack file previous).get? p =
      if file.Same p then previous.get? file else s.get? p := by
  unfold rollBack
  split
  · rename_i old hold
    rw [hold]
    exact s.get?_insert file p old
  · rename_i hold
    rw [hold, s.get?_erase]
    by_cases hp : file.Same p
    · exact (if_pos hp.symm).trans (if_pos hp).symm
    · exact (if_neg fun hpf => hp (FilePath.Same.symm hpf)).trans (if_neg hp).symm

theorem SignatureReading.ofResult_error {e : IoError} (h : e ≠ .notFound) :
    ofResult (.error e) = unreadable := by
  unfold ofResult
  split
  · rename_i he
    cases he
  · rename_i he
    exact absurd (Except.error.inj he) h
  · rfl

namespace SnapshotDiff

variable {previous : Snapshot} {readings : SortedMap FilePath SignatureReading} {p q : FilePath}

theorem get?_snapshot (previous : Snapshot) (readings : SortedMap FilePath SignatureReading)
    (p : FilePath) : (ofReadings previous readings).snapshot.get? p =
      (readings.get? p).bind fun r => r.next? (previous.get? p) := by
  rw [ofReadings, SortedMap.get?_filterMap, SortedMap.get?, Option.bind_map]
  cases hp : readings.entryAt? p with
  | none => rfl
  | some e =>
    have he := (SortedMap.entryAt?_eq_some_iff.1 hp).2
    simp [previous.get?_congr he]

theorem mem_changed_iff : q ∈ (ofReadings previous readings).changed ↔
    ∃ s, (q, .signed s) ∈ readings.entries ∧ previous.get? q ≠ some s := by
  simp only [changed, ofReadings, List.mem_append, SortedMap.mem_keys_filter]
  constructor
  · rintro (⟨r, hr, h⟩ | ⟨r, hr, h⟩)
    · cases r with
      | signed s =>
        refine ⟨s, hr, fun hs => ?_⟩
        simp [SortedMap.contains_eq_isSome, hs] at h
      | missing => simp at h
      | unreadable => simp at h
    · cases r with
      | signed s =>
        refine ⟨s, hr, fun hs => ?_⟩
        simp [hs] at h
      | missing => simp at h
      | unreadable => simp at h
  · rintro ⟨s, hr, hs⟩
    cases hp : previous.get? q with
    | none => exact .inl ⟨_, hr, by simp [SortedMap.contains_eq_isSome, hp]⟩
    | some old =>
      refine .inr ⟨_, hr, ?_⟩
      simp only [decide_eq_true_eq]
      intro h
      exact hs (h ▸ hp)

/-- No path changes twice, in whatever spelling. -/
theorem changed_pairwise (previous : Snapshot) (readings : SortedMap FilePath SignatureReading) :
    (ofReadings previous readings).changed.Pairwise fun p q => ¬ p.Same q := by
  refine List.pairwise_append.2
    ⟨SortedMap.keys_pairwise _, SortedMap.keys_pairwise _, fun p hp q hq hpq => ?_⟩
  simp only [ofReadings, SortedMap.mem_keys_filter] at hp hq
  obtain ⟨r, -, hr⟩ := hp
  obtain ⟨t, -, ht⟩ := hq
  have new : previous.get? p = none := by
    cases r <;> simp [SortedMap.contains_eq_isSome] at hr
    exact hr
  rw [previous.get?_congr hpq] at new
  cases t <;> simp [new] at ht

/-- The paths that are removed: those that had a signature and are not there any more, or not asked
for. -/
theorem exists_mem_removed_iff : (∃ q ∈ (ofReadings previous readings).removed, q.Same p) ↔
    previous.contains p = true ∧
      (readings.get? p = none ∨ readings.get? p = some .missing) := by
  constructor
  · rintro ⟨q, hq, hqp⟩
    rw [previous.contains_congr hqp.symm, readings.get?_congr hqp.symm]
    have hq := SortedSet.mem_of_mem_toList_ofList hq
    simp only [List.mem_append, SortedMap.mem_keys_filter] at hq
    rcases hq with ⟨r, hr, h⟩ | ⟨s, hs, h⟩
    · obtain ⟨rfl, hc⟩ : r = .missing ∧ previous.contains q = true := by simpa using h
      exact ⟨hc, .inr (SortedMap.get?_of_mem hr)⟩
    · have listed := SortedMap.mem_keys_iff.2 ⟨s, hs⟩
      refine ⟨SortedMap.contains_iff.2 ⟨q, listed, FilePath.Same.refl q⟩, .inl ?_⟩
      simpa [SortedMap.contains_eq_isSome] using h
  · rintro ⟨hc, h⟩
    have listed : ∃ q, q.Same p ∧ q ∈
        (readings.filter fun p r => r = .missing && previous.contains p).keys ++
          (previous.filter fun p _ => !readings.contains p).keys := by
      simp only [List.mem_append, SortedMap.mem_keys_filter]
      rcases h with h | h
      · obtain ⟨q, hq, hqp⟩ := SortedMap.contains_iff.1 hc
        obtain ⟨s, hs⟩ := SortedMap.mem_keys_iff.1 hq
        rw [← readings.get?_congr hqp] at h
        exact ⟨q, hqp, .inr ⟨s, hs, by simp [SortedMap.contains_eq_isSome, h]⟩⟩
      · obtain ⟨q, hq, hqp⟩ := SortedMap.get?_eq_some_iff.1 h
        rw [← previous.contains_congr hqp] at hc
        exact ⟨q, hqp, .inl ⟨_, hq, by simp [hc]⟩⟩
    obtain ⟨q, hqp, hq⟩ := listed
    obtain ⟨r, hr, hrq : r.Same q⟩ := SortedSet.exists_mem_toList_ofList hq
    exact ⟨r, hr, hrq.trans hqp⟩

/-- The readings of some paths. -/
def readingsOf (mode : SignatureMode) (v : FileView) (paths : List FilePath) :
    SortedMap FilePath SignatureReading :=
  (SortedSet.ofList paths).map fun p _ => .ofResult (FileSignature.compute mode v p)

theorem update_eq_ok {mode : SignatureMode} {v : FileView} {cancelled : Cancellation}
    {paths : List FilePath} {d : SnapshotDiff}
    (h : update mode v cancelled previous paths = .ok d) :
    d = ofReadings previous (readingsOf mode v paths) := by
  unfold update at h
  dsimp only at h
  split at h
  · cases h
  · exact (Except.ok.inj h).symm

theorem update_of_clear_on {mode : SignatureMode} {v : FileView} {cancelled : Cancellation}
    {paths : List FilePath} (clear : ∀ p ∈ paths, cancelled (.signature p) = false) :
    update mode v cancelled previous paths =
      .ok (ofReadings previous (readingsOf mode v paths)) := by
  have unseen : ¬ (SortedSet.ofList paths).toList.any (fun p => cancelled (.signature p)) = true := by
    rw [List.any_eq_true]
    rintro ⟨p, mem, seen⟩
    simp [clear p (SortedSet.mem_of_mem_toList_ofList mem)] at seen
  exact if_neg unseen

theorem update_of_clear {mode : SignatureMode} {v : FileView} {cancelled : Cancellation}
    {paths : List FilePath}
    (clear : ∀ p, cancelled (.signature p) = false) :
    update mode v cancelled previous paths =
      .ok (ofReadings previous (readingsOf mode v paths)) :=
  update_of_clear_on fun p _ => clear p

theorem exists_cancelled_of_update {mode : SignatureMode} {v : FileView}
    {cancelled : Cancellation} {paths : List FilePath} {e : Cancelled}
    (h : update mode v cancelled previous paths = .error e) :
    ∃ p, cancelled (.signature p) = true := by
  unfold update at h
  dsimp only at h
  split at h
  · rename_i hc
    obtain ⟨p, -, hp⟩ := List.any_eq_true.1 hc
    exact ⟨p, hp⟩
  · cases h

end SnapshotDiff

end WorkspaceSync
