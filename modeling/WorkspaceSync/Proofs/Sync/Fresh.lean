import WorkspaceSync.Proofs.ManifestIndex.Outcomes
import WorkspaceSync.Proofs.Sync.Run

/-!
# A sync that starts from nothing

A sync that finds every declared manifest missing or in order ends in the same state as one without
a previous state, whatever the syncs before it went through: other owners of the files, manifests
that failed, loads that were lost. It needs that a manifest whose stored signature is the present
one still lists what it listed when that signature was stored.
-/

namespace WorkspaceSync

namespace ManifestIndex

variable {i j : ManifestIndex}

/-- The same index, up to the spelling of paths. -/
def Same (i j : ManifestIndex) : Prop :=
  i.snapshot.Matches j.snapshot ∧ i.owners.Matches j.owners ∧ i.dependencies = j.dependencies

/-- The entries of files make up a coherent index. -/
theorem Coherent.same_of_entryAt? (hi : i.Coherent) (hj : j.Coherent)
    (h : ∀ p, i.entryAt? p = j.entryAt? p) : i.Same j := by
  have signatures : ∀ p, i.snapshot.get? p = j.snapshot.get? p := by
    intro p
    rw [hi.get?_snapshot, hj.get?_snapshot, h]
  have owners : ∀ p, i.owners.get? p = j.owners.get? p := by
    intro p
    rw [hi.get?_owners, hj.get?_owners, h]
  refine ⟨SortedMap.matches_iff.2 signatures, SortedMap.matches_iff.2 owners,
    SortedMap.eq_of_get?_eq fun l => ?_⟩
  by_cases hl : ∃ p, i.owners.get? p = some l
  · obtain ⟨p, hp⟩ := hl
    rw [← list?_of_owner hp, ← list?_of_owner ((owners p).symm.trans hp), hi.list?_eq,
      hj.list?_eq, h]
  · have left : (i.dependencies.get? l).isSome = false := by
      rw [← Bool.not_eq_true, hi.labels]
      exact hl
    have right : (j.dependencies.get? l).isSome = false := by
      rw [← Bool.not_eq_true, hj.labels]
      rintro ⟨p, hp⟩
      exact hl ⟨p, (owners p).trans hp⟩
    rw [Option.isSome_eq_false_iff, Option.isNone_iff_eq_none] at left right
    rw [left, right]

end ManifestIndex

namespace LoadCall

open ManifestIndex

variable {c : LoadCall} {earlier : List LoadCall} {i j k : ManifestIndex} {q : FilePath} {l : Label}

/-- A manifest is not there, or its signature can be computed and it decodes. -/
def InOrder (c : LoadCall) (present : FileView) (q : FilePath) : Prop :=
  FileSignature.compute c.mode c.files q = .error .notFound ∨
    ∃ s m, FileSignature.compute c.mode c.files q = .ok s ∧
      DependencyManifest.load present q = .ok m

/-- If the stored signature of a manifest is the present one, it decodes to the list that it had
when that signature was stored. -/
def Faithful (earlier : List LoadCall) (c : LoadCall) (present : FileView) (q : FilePath) : Prop :=
  ∀ s, FileSignature.compute c.mode c.files q = .ok s →
    (indexAfter earlier).snapshot.get? q = some s →
    ∀ deps, LastObtained q s deps earlier →
    ∃ m, DependencyManifest.load present q = .ok m ∧ m.paths = deps

/-- The stored list is the one that it had then. -/
theorem faithful_iff {present : FileView} : Faithful earlier c present q ↔
    ∀ e, (indexAfter earlier).entryAt? q = some e →
      FileSignature.compute c.mode c.files q = .ok e.signature →
      ∃ m, DependencyManifest.load present q = .ok m ∧ m.paths = e.dependencies := by
  have stored := (coherent_indexAfter earlier).get?_snapshot q
  constructor
  · intro faithful e he signed
    refine faithful e.signature signed ?_ e.dependencies (lastObtained_of_entryAt? he)
    rw [stored, he]
    rfl
  · intro h s signed current deps last
    rw [stored, Option.map_eq_some_iff] at current
    obtain ⟨e, he, rfl⟩ := current
    obtain ⟨-, rfl⟩ := last.unique (lastObtained_of_entryAt? he)
    exact h e he signed

/-- A manifest that is in order comes out of a load in the same way whether or not an earlier load
had it. -/
theorem nextEntry_eq_fresh {present : FileView} (order : c.InOrder present q)
    (faithful : Faithful earlier c present q) :
    nextEntry ((indexAfter earlier).entryAt? q) l (c.reading q)
        (DependencyManifest.load present q) =
      nextEntry none l (c.reading q) (DependencyManifest.load present q) := by
  rcases order with missing | ⟨s, m, signed, decoded⟩
  · have reading : c.reading q = .missing := by
      rw [LoadCall.reading, missing]
      rfl
    rw [reading]
    rfl
  · have new : (none : Option Entry).map (·.signature) ≠ some s := by simp
    rw [reading_eq_signed_iff.2 signed, decoded, nextEntry_of_outdated new]
    by_cases current : ((indexAfter earlier).entryAt? q).map (·.signature) = some s
    · rw [nextEntry_of_current current]
      obtain ⟨e, he, rfl⟩ := Option.map_eq_some_iff.1 current
      obtain ⟨m', decoded', paths⟩ := faithful_iff.1 faithful e he signed
      obtain rfl : m = m' := Except.ok.inj (decoded.symm.trans decoded')
      rw [he, Option.map_some, ← paths]
    · rw [nextEntry_of_outdated current]

/-- A load after others gives the same index as one of the same files that starts from nothing. -/
theorem same_of_fresh {present : FileView}
    (hj : (c.report (indexAfter earlier)).outcome = .ok (some j))
    (hk : (c.report .empty).outcome = .ok (some k))
    (filesj : (c.report (indexAfter earlier)).files = present)
    (filesk : (c.report .empty).files = present)
    (order : ∀ l q, Owns c.roots c.rules l q → c.InOrder present q)
    (faithful : ∀ l q, Owns c.roots c.rules l q → Faithful earlier c present q) : j.Same k := by
  have coherent := coherent_indexAfter earlier
  refine (coherent_of_outcome coherent hj).same_of_entryAt?
    (coherent_of_outcome coherent_empty hk) fun p => ?_
  rw [entryAt?_of_outcome coherent hj, entryAt?_of_outcome coherent_empty hk]
  cases he : c.owners.entryAt? p with
  | none => rfl
  | some e =>
    obtain ⟨hm, -⟩ := SortedMap.entryAt?_eq_some_iff.1 he
    have owns := (mem_ownersOf_iff c.keyed).1 hm
    have nothing : (ManifestIndex.empty).entryAt? e.1 = none := rfl
    rw [Option.bind_some, Option.bind_some, nothing, LoadCall.parse, LoadCall.parse, filesj, filesk]
    exact nextEntry_eq_fresh (order _ _ owns) (faithful _ _ owns)

end LoadCall

/-- The same state, up to the spelling of the paths of manifests. -/
def SyncState.Same (s t : SyncState) : Prop :=
  Option.Rel ManifestIndex.Same s.manifests t.manifests ∧ s.java = t.java

namespace SyncCall

variable {c : SyncCall} {st : SyncState} {o : SyncOutcome}

/-- The files that a sync asks the prefetcher for. -/
def wanted (c : SyncCall) (st : SyncState) : List FilePath :=
  (c.loading.diff (st.manifests.getD .empty)).changed

/-- A sync that succeeds and whose prefetch does has new manifests. -/
theorem exists_loaded {present : FileView} (last : c.cancelled .attached = false)
    (fetched : c.engine.prefetch false (c.wanted st) c.files = (.done, present)) :
    ∃ j, (c.loaded st).outcome = .ok (some j) ∧ (c.loaded st).files = present := by
  refine LoadCall.exists_outcome (fun m hm => ?_) fetched
  exact c.neverCleared.eq_false (Nat.lt_trans hm (by decide)) last

/-- The rest of a sync sees of the manifests only their lists. -/
theorem conclusion_same {j k : ManifestIndex} (st : SyncState) (x : Exclusions)
    (same : j.Same k) (files : (c.loaded st).files = (c.loaded .empty).files) :
    (c.conclusion st (some j) x).state.Same (c.conclusion .empty (some k) x).state ∧
      (c.conclusion st (some j) x).languageLevel =
        (c.conclusion .empty (some k) x).languageLevel := by
  have imported : c.engine.importWorkspace c.request (some j) (c.loaded st).files =
      c.engine.importWorkspace c.request (some k) (c.loaded .empty).files := by
    rw [files]
    unfold Engine.importWorkspace Engine.importRequest
    simp only [Option.map_some, same.2.2]
  refine ⟨⟨.some same, ?_⟩, ?_⟩
  · simp only [conclusion, Engine.outcome, Option.some_or, imported]
  · simp only [conclusion, Engine.outcome, Option.some_or, imported]

/-- The last sync of a run ends as it would have from nothing, if every declared manifest is missing
or in order and the signatures that are stored are faithful. The prefetch has to succeed for both,
since from nothing it is asked for more files. -/
theorem outcome_same_as_fresh (earlier : List SyncCall) (c : SyncCall) {o : SyncOutcome}
    {present : FileView} (returned : (c.report (stateAfter earlier)).outcome = .ok o)
    (fetched : ∀ st ∈ [stateAfter earlier, .empty],
      c.engine.prefetch false (c.wanted st) c.files = (.done, present))
    (order : ∀ l q, ManifestIndex.Declares c.request.roots c.request.rules l q →
      c.loading.InOrder present q)
    (faithful : ∀ l q, ManifestIndex.Declares c.request.roots c.request.rules l q →
      LoadCall.Faithful (loads earlier) c.loading present q) :
    ∃ o', (c.report .empty).outcome = .ok o' ∧ o.state.Same o'.state ∧
      o.languageLevel = o'.languageLevel := by
  obtain ⟨last, index, x, hindex, hx, rfl⟩ := outcome_eq_ok_iff.1 returned
  obtain ⟨j, hj, filesj⟩ := exists_loaded last (fetched (stateAfter earlier) (by simp))
  obtain ⟨k, hk, filesk⟩ := exists_loaded last (fetched .empty (by simp))
  obtain rfl : index = some j := Except.ok.inj (hindex.symm.trans hj)
  have same : j.Same k := by
    rw [loaded, manifests_stateAfter] at hj filesj
    exact LoadCall.same_of_fresh hj hk filesj filesk (fun l q owns => order l q owns.1)
      fun l q owns => faithful l q owns.1
  have fresh : (c.report .empty).outcome = .ok (c.conclusion .empty (some k) x) :=
    outcome_eq_ok_iff.2 ⟨last, some k, x, hk, hx, rfl⟩
  exact ⟨_, fresh, conclusion_same _ x same (filesj.trans filesk.symm)⟩

/-! ## A manifest that stays beside one that changes -/

/-- A sync of two targets with the default configuration. -/
def syncBoth (files : FileView) : SyncCall where
  engine := ⟨.default, .empty, [], .onDisk, PackageManifest.load⟩
  request := ⟨LoadCall.bothRules, LoadCall.bothRoots, none⟩
  files := files
  cancelled := .never
  keyed := LoadCall.keyed_bothRules
  neverCleared := Cancellation.neverCleared_never

def firstSync : SyncCall :=
  syncBoth (LoadCall.filesWith (LoadCall.manifestOf 97, 0) (LoadCall.manifestOf 98, 0))

def secondSync : SyncCall :=
  syncBoth (LoadCall.filesWith (LoadCall.manifestOf 97, 0) (LoadCall.manifestOf 99, 1))

theorem second_sync_same_as_fresh : ∃ o o',
    (secondSync.report (stateAfter [firstSync])).outcome = .ok o ∧
      (secondSync.report .empty).outcome = .ok o' ∧ o.state.Same o'.state ∧
      o.languageLevel = o'.languageLevel := by
  have returned : ∃ o, (secondSync.report (stateAfter [firstSync])).outcome = .ok o := by
    have fetched : secondSync.engine.prefetch false (secondSync.wanted (stateAfter [firstSync]))
        secondSync.files = (.done, secondSync.files) := rfl
    obtain ⟨j, hj, -⟩ := exists_loaded rfl fetched
    exact ⟨_, outcome_eq_ok_iff.2 ⟨rfl, some j, .empty, hj, rfl, rfl⟩⟩
  have declared : ∀ {l q}, ManifestIndex.Declares secondSync.request.roots
      secondSync.request.rules l q → q = ⟨"/w/a"⟩ ∨ q = ⟨"/w/b"⟩ := by
    intro l q h
    have two : ManifestIndex.declarations secondSync.request.roots secondSync.request.rules =
        [(⟨"/w/a"⟩, LoadCall.ruleA.label), (⟨"/w/b"⟩, LoadCall.ruleB.label)] := by decide +kernel
    have listed := ManifestIndex.mem_declarations_iff.2 h
    rw [two, List.mem_cons, List.mem_singleton, Prod.mk.injEq, Prod.mk.injEq] at listed
    exact listed.imp And.left And.left
  have decodedA : DependencyManifest.load secondSync.files ⟨"/w/a"⟩ =
      .ok ⟨none, false, [⟨"a", .explicit⟩]⟩ := by decide +kernel
  have decodedB : DependencyManifest.load secondSync.files ⟨"/w/b"⟩ =
      .ok ⟨none, false, [⟨"c", .explicit⟩]⟩ := by decide +kernel
  have storedA : (LoadCall.indexAfter (loads [firstSync])).entryAt? ⟨"/w/a"⟩ =
      some ⟨.metadata 5 0, LoadCall.ruleA.label, ["a"]⟩ := by decide +kernel
  have storedB : (LoadCall.indexAfter (loads [firstSync])).entryAt? ⟨"/w/b"⟩ =
      some ⟨.metadata 5 0, LoadCall.ruleB.label, ["b"]⟩ := by decide +kernel
  have order : ∀ l q, ManifestIndex.Declares secondSync.request.roots secondSync.request.rules l q →
      secondSync.loading.InOrder secondSync.files q := by
    intro l q h
    rcases declared h with rfl | rfl
    · exact .inr ⟨.metadata 5 0, _, rfl, decodedA⟩
    · exact .inr ⟨.metadata 5 1, _, rfl, decodedB⟩
  have faithful : ∀ l q,
      ManifestIndex.Declares secondSync.request.roots secondSync.request.rules l q →
      LoadCall.Faithful (loads [firstSync]) secondSync.loading secondSync.files q := by
    intro l q h
    rw [LoadCall.faithful_iff]
    intro e he signed
    rcases declared h with rfl | rfl
    · obtain rfl := Option.some.inj (storedA.symm.trans he)
      exact ⟨_, decodedA, rfl⟩
    · obtain rfl := Option.some.inj (storedB.symm.trans he)
      exact absurd signed (by decide +kernel)
  obtain ⟨o, returned⟩ := returned
  obtain ⟨o', fresh⟩ := outcome_same_as_fresh [firstSync] secondSync returned (fun _ _ => rfl)
    order faithful
  exact ⟨o, o', returned, fresh⟩

end SyncCall

end WorkspaceSync
