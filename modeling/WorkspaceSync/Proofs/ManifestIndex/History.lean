import WorkspaceSync.Proofs.ManifestIndex.Load

/-!
# Indexes over runs of loads

Every index that a run of loads reaches is coherent, and what it has of a file was obtained by one
load: the last one in the run that obtained anything for that file.
-/

namespace WorkspaceSync.LoadCall

open ManifestIndex

variable {c : LoadCall} {earlier : List LoadCall} {i j : ManifestIndex} {p q : FilePath}
  {l : Label} {s : FileSignature} {deps : List String}

/-- The index that stays in force after a load. -/
def next (c : LoadCall) (i : ManifestIndex) : ManifestIndex :=
  match (c.report i).outcome with
  | .ok (some j) => j
  | _ => i

/-- The index after a run of loads, which has the latest one first. -/
def indexAfter : List LoadCall → ManifestIndex
  | [] => .empty
  | c :: earlier => c.next (indexAfter earlier)

/-- The load computes the signature of a file and, in the same go, parses it to the list. -/
structure Obtains (c : LoadCall) (i : ManifestIndex) (p : FilePath) (s : FileSignature)
    (deps : List String) : Prop where
  returns : ∃ j, (c.report i).outcome = .ok (some j)
  parses : ∃ q ∈ (c.report i).parsed, q.Same p ∧ FileSignature.compute c.mode c.files q = .ok s ∧
    ∃ m, DependencyManifest.load (c.report i).files q = .ok m ∧ m.paths = deps

/-- Of the loads of a run that obtain anything for a file, the last one obtains this. -/
inductive LastObtained (p : FilePath) (s : FileSignature) (deps : List String) :
    List LoadCall → Prop where
  | now {c : LoadCall} {earlier : List LoadCall} : c.Obtains (indexAfter earlier) p s deps →
      LastObtained p s deps (c :: earlier)
  | before {c : LoadCall} {earlier : List LoadCall} :
      (∀ s' deps', ¬ c.Obtains (indexAfter earlier) p s' deps') →
      LastObtained p s deps earlier → LastObtained p s deps (c :: earlier)

theorem next_of_outcome (h : (c.report i).outcome = .ok (some j)) : c.next i = j := by
  rw [next, h]

theorem next_eq_or (c : LoadCall) (i : ManifestIndex) :
    (c.report i).outcome = .ok (some (c.next i)) ∨
      (∀ j, (c.report i).outcome ≠ .ok (some j)) ∧ c.next i = i := by
  unfold next
  split
  · rename_i j hj
    exact .inl hj
  · rename_i hn
    exact .inr ⟨hn, rfl⟩

theorem reading_eq_signed_iff :
    c.reading q = .signed s ↔ FileSignature.compute c.mode c.files q = .ok s := by
  unfold reading
  cases FileSignature.compute c.mode c.files q with
  | ok t => simp [SignatureReading.ofResult]
  | error e => cases e <;> simp [SignatureReading.ofResult]

theorem coherent_next (h : i.Coherent) : (c.next i).Coherent := by
  rcases c.next_eq_or i with ho | ⟨-, hn⟩
  · exact coherent_of_outcome h ho
  · rw [hn]
    exact h

theorem coherent_indexAfter (run : List LoadCall) : (indexAfter run).Coherent := by
  induction run with
  | nil => exact coherent_empty
  | cons c earlier ih => exact coherent_next ih

theorem Obtains.entryAt?_next (h : i.Coherent) (obtains : c.Obtains i p s deps) :
    ∃ l, (c.next i).entryAt? p = some ⟨s, l, deps⟩ := by
  obtain ⟨⟨j, ho⟩, q, hq, hqp, hs, m, hm, rfl⟩ := obtains
  rw [parsed_of_outcome ho] at hq
  obtain ⟨l, hl, t, ht, outdated⟩ := mem_changed_iff.1 hq
  obtain rfl : t = s := by
    rw [reading_eq_signed_iff, hs] at ht
    exact (Except.ok.inj ht).symm
  have old : (i.entryAt? q).map (·.signature) ≠ some t := h.get?_snapshot q ▸ outdated
  have parse : c.parse i q = .ok m := hm
  refine ⟨l, ?_⟩
  rw [next_of_outcome ho, ← j.entryAt?_congr hqp, entryAt?_of_outcome h ho,
    SortedMap.entryAt?_of_mem hl, Option.bind_some, ht, nextEntry_of_outdated old, parse]

/-- An entry that a load leaves is either obtained by it or was there before. -/
theorem obtains_or_kept (h : i.Coherent) {e : Entry} (he : (c.next i).entryAt? p = some e) :
    c.Obtains i p e.signature e.dependencies ∨
      ∃ o, i.entryAt? p = some o ∧ o.signature = e.signature ∧ o.dependencies = e.dependencies := by
  rcases c.next_eq_or i with ho | ⟨-, hn⟩
  · rw [entryAt?_of_outcome h ho, Option.bind_eq_some_iff] at he
    obtain ⟨⟨q, l⟩, hq, he⟩ := he
    obtain ⟨hm, hqp⟩ := SortedMap.entryAt?_eq_some_iff.1 hq
    obtain ⟨-, ⟨o, hold, signature, dependencies⟩ | ⟨signed, outdated, m, parse, paths⟩⟩ :=
      nextEntry_eq_some he
    · exact .inr ⟨o, i.entryAt?_congr hqp ▸ hold, signature, dependencies⟩
    · refine .inl ⟨⟨_, ho⟩, q, ?_, hqp, reading_eq_signed_iff.1 signed, m, parse, paths⟩
      rw [parsed_of_outcome ho]
      refine mem_changed_iff.2 ⟨l, hm, e.signature, signed, ?_⟩
      rw [h.get?_snapshot]
      exact outdated
  · rw [hn] at he
    exact .inr ⟨e, he, rfl, rfl⟩

theorem lastObtained_of_entryAt? {run : List LoadCall} {e : Entry}
    (he : (indexAfter run).entryAt? p = some e) :
    LastObtained p e.signature e.dependencies run := by
  induction run generalizing e with
  | nil => cases he
  | cons c earlier ih =>
    have coherent := coherent_indexAfter earlier
    by_cases obtains : ∃ s deps, c.Obtains (indexAfter earlier) p s deps
    · obtain ⟨s, deps, obtains⟩ := obtains
      obtain ⟨l, hl⟩ := obtains.entryAt?_next coherent
      obtain rfl := Option.some.inj (hl.symm.trans he)
      exact .now obtains
    · have none : ∀ s deps, ¬ c.Obtains (indexAfter earlier) p s deps :=
        fun s deps h => obtains ⟨s, deps, h⟩
      rcases obtains_or_kept coherent he with h | ⟨o, ho, signature, dependencies⟩
      · exact absurd h (none _ _)
      · rw [← signature, ← dependencies]
        exact .before none (ih ho)

theorem Obtains.unique {s' : FileSignature} {deps' : List String} (h : i.Coherent)
    (obtains : c.Obtains i p s deps) (obtains' : c.Obtains i p s' deps') :
    s = s' ∧ deps = deps' := by
  obtain ⟨l, hl⟩ := obtains.entryAt?_next h
  obtain ⟨l', hl'⟩ := obtains'.entryAt?_next h
  have same := Option.some.inj (hl.symm.trans hl')
  exact ⟨congrArg Entry.signature same, congrArg Entry.dependencies same⟩

theorem LastObtained.unique {run : List LoadCall} {s' : FileSignature} {deps' : List String}
    (last : LastObtained p s deps run) (last' : LastObtained p s' deps' run) :
    s = s' ∧ deps = deps' := by
  induction last with
  | now obtains =>
    cases last' with
    | now obtains' => exact obtains.unique (coherent_indexAfter _) obtains'
    | before none _ => exact absurd obtains (none _ _)
  | before none _ ih =>
    cases last' with
    | now obtains' => exact absurd obtains' (none _ _)
    | before _ last' => exact ih last'

/-- A file that does not parse is not up to date after the load either. -/
theorem get?_snapshot_next_of_failed (h : i.Coherent) (hq : q ∈ (c.report i).parsed)
    {e : ManifestProblem} (failed : c.parse i q = .error e) (hs : c.reading q = .signed s) :
    (c.next i).snapshot.get? q ≠ some s := by
  obtain ⟨l, hl, t, ht, outdated⟩ := mem_changed_iff.1 (mem_changed_of_parsed hq)
  obtain rfl : t = s := SignatureReading.signed.inj (ht.symm.trans hs)
  rcases c.next_eq_or i with ho | ⟨-, hn⟩
  · have old := h.get?_snapshot q
    have new := (Prod.mk.inj (held_of_outcome h ho hl)).1
    rw [ht, failed, nextEntry_of_outdated (old ▸ outdated)] at new
    rw [new]
    intro stored
    refine outdated (old.trans ?_)
    rw [← stored]
    cases i.entryAt? q <;> rfl
  · rw [hn]
    exact outdated

/-- After every run of loads the snapshot, the owners and the lists agree: the files with signatures
are those with owners, no target owns two files, and exactly the owners have lists. The signature
and the list of a file were obtained together, by the last load that obtained any. The next load
stores no signature of a file that it cannot parse. -/
theorem indexAfter_coherent (run : List LoadCall) :
    (∀ p, (indexAfter run).snapshot.contains p = (indexAfter run).owners.contains p) ∧
    (∀ p q l, (indexAfter run).owners.get? p = some l → (indexAfter run).owners.get? q = some l →
      p.Same q) ∧
    (∀ l, (indexAfter run).dependencies.contains l = true ↔
      ∃ p, (indexAfter run).owners.get? p = some l) ∧
    (∀ p s, (indexAfter run).snapshot.get? p = some s →
      ∃ l deps, (indexAfter run).owners.get? p = some l ∧
        (indexAfter run).dependencies.get? l = some deps ∧ LastObtained p s deps run) ∧
    (∀ (c : LoadCall) (q : FilePath) (e : ManifestProblem) (s : FileSignature),
      q ∈ (c.report (indexAfter run)).parsed →
      DependencyManifest.load (c.report (indexAfter run)).files q = .error e →
      FileSignature.compute c.mode c.files q = .ok s →
      (c.next (indexAfter run)).snapshot.get? q ≠ some s) := by
  have coherent := coherent_indexAfter run
  refine ⟨fun p => ?_, fun p q l => coherent.injective, fun l => ?_, fun p s hs => ?_,
    fun c q e s hq failed hs => ?_⟩
  · rw [SortedMap.contains_eq_isSome, SortedMap.contains_eq_isSome, coherent.tracked]
  · rw [SortedMap.contains_eq_isSome, coherent.labels]
  · rw [coherent.get?_snapshot, Option.map_eq_some_iff] at hs
    obtain ⟨e, he, rfl⟩ := hs
    have owner : (indexAfter run).owners.get? p = some e.owner := by
      rw [coherent.get?_owners, he, Option.map_some]
    refine ⟨e.owner, e.dependencies, owner, ?_, lastObtained_of_entryAt? he⟩
    rw [← list?_of_owner owner, coherent.list?_eq, he, Option.map_some]
  · exact get?_snapshot_next_of_failed coherent hq failed (reading_eq_signed_iff.2 hs)

end WorkspaceSync.LoadCall
