import WorkspaceSync.Proofs.ManifestIndex.Outcomes

/-!
# Targets whose manifest fails

What a load keeps when a manifest fails is the list of the file, and it goes to the present owner of
the file. The target keeps the list that it had if it owned the file before. If the file is new to
the index the target has no list afterwards, and if the file had another owner the target gets the
list of that one, although the warning is the same in each case.
-/

namespace WorkspaceSync.LoadCall

open ManifestIndex

variable {c : LoadCall} {i j : ManifestIndex} {q : FilePath} {l : Label}

/-- A manifest that is there cannot be checked, or one that changed cannot be read or decoded. -/
inductive Fails (c : LoadCall) (i : ManifestIndex) (q : FilePath) : Prop
  | unchecked {e : IoError} (failed : FileSignature.compute c.mode c.files q = .error e)
      (there : e ≠ .notFound)
  | unparsed {e : ManifestProblem} (tried : q ∈ (c.report i).parsed)
      (failed : DependencyManifest.load (c.report i).files q = .error e)

/-! ## Warnings -/

theorem diagnostics_of_outcome (ho : (c.report i).outcome = .ok (some j)) :
    ∃ last, (c.report i).diagnostics =
      (c.diff i).unreadable.map uncheckedDiagnostic ++
        (c.results i).filterMap Parsed.diagnostic? ++ [last] := by
  have merged : ∃ last, (c.report i).diagnostics =
      (c.diff i).unreadable.map uncheckedDiagnostic ++
        (parseAll (c.report i).files c.cancelled c.owners (c.diff i).changed).filterMap
          Parsed.diagnostic? ++ [last] ∧
      c.cancelled (.parsed (c.report i).parsed) = false := by
    revert ho
    unfold report load
    dsimp only
    split
    · exact nofun
    · rename_i d hd
      obtain rfl : d = c.diff i := SnapshotDiff.update_eq_ok hd
      split
      · exact nofun
      · exact nofun
      · split
        · exact nofun
        · rename_i clear
          intro _
          exact ⟨_, rfl, Bool.eq_false_iff.2 clear⟩
  obtain ⟨last, diagnostics, clear⟩ := merged
  rw [results_eq_parseAll clear]
  exact ⟨last, diagnostics⟩

theorem mem_unreadable_iff : q ∈ (c.diff i).unreadable ↔
    ∃ l, (q, l) ∈ c.owners.entries ∧ c.reading q = .unreadable := by
  rw [diff, SnapshotDiff.ofReadings, SortedMap.mem_keys_filter]
  simp only [decide_eq_true_eq, exists_eq_right]
  constructor
  · intro listed
    have read := SortedMap.entryAt?_of_mem listed
    rw [entryAt?_readings, Option.map_eq_some_iff] at read
    obtain ⟨⟨q', l⟩, owned, same⟩ := read
    obtain ⟨rfl, unreadable⟩ := Prod.mk.inj same
    exact ⟨l, (SortedMap.entryAt?_eq_some_iff.1 owned).1, unreadable⟩
  · rintro ⟨l, owned, unreadable⟩
    have read := entryAt?_readings c q
    rw [SortedMap.entryAt?_of_mem owned, Option.map_some, unreadable] at read
    exact (SortedMap.entryAt?_eq_some_iff.1 read).1

/-- A warning about a manifest or its owner that says that what was loaded is kept. -/
structure Warns (d : Diagnostic) (q : FilePath) (l : Label) : Prop where
  severity : d.severity = .warning
  subject : d.subject = some (.file q) ∨ d.subject = some (.target l)
  note : keptNote ∈ d.notes

theorem exists_warning (ho : (c.report i).outcome = .ok (some j)) (hq : (q, l) ∈ c.owners.entries)
    (fails : c.Fails i q) : ∃ d ∈ (c.report i).diagnostics, Warns d q l := by
  obtain ⟨last, diagnostics⟩ := diagnostics_of_outcome ho
  rw [diagnostics]
  cases fails with
  | unchecked failed there =>
    have unreadable : c.reading q = .unreadable := by
      rw [reading, failed]
      exact SignatureReading.ofResult_error there
    have listed : q ∈ (c.diff i).unreadable := mem_unreadable_iff.2 ⟨l, hq, unreadable⟩
    refine ⟨uncheckedDiagnostic q, ?_, rfl, .inl rfl, List.mem_singleton.2 rfl⟩
    apply List.mem_append_left
    apply List.mem_append_left
    exact List.mem_map_of_mem listed
  | @unparsed e tried failed =>
    have result : (⟨q, l, .error e⟩ : Parsed) ∈ c.results i :=
      mem_results_iff.2 ⟨mem_changed_of_parsed tried, hq, failed.symm⟩
    refine ⟨problemDiagnostic q l e, ?_, rfl, .inr rfl, List.mem_singleton.2 rfl⟩
    apply List.mem_append_left
    apply List.mem_append_right
    exact List.mem_filterMap.2 ⟨_, result, rfl⟩

/-! ## Lists -/

/-- A manifest that fails keeps its entry, under the present owner. -/
theorem nextEntry_of_fails (h : i.Coherent) (fails : c.Fails i q) :
    nextEntry (i.entryAt? q) l (c.reading q) (c.parse i q) =
      (i.entryAt? q).map fun e => { e with owner := l } := by
  cases fails with
  | unchecked failed there =>
    rw [reading, failed, SignatureReading.ofResult_error there]
    rfl
  | unparsed tried failed =>
    obtain ⟨-, -, s, signed, outdated⟩ := mem_changed_iff.1 (mem_changed_of_parsed tried)
    rw [h.get?_snapshot] at outdated
    rw [signed, nextEntry_of_outdated outdated, parse, failed]

/-- So its list goes to the present owner. -/
theorem get?_dependencies_of_fails (h : i.Coherent) (ho : (c.report i).outcome = .ok (some j))
    (hq : (q, l) ∈ c.owners.entries) (fails : c.Fails i q) :
    j.dependencies.get? l = i.list? q := by
  have stored := stored_of_outcome h ho hq
  rw [nextEntry_of_fails h fails] at stored
  rw [(Prod.mk.inj (Prod.mk.inj stored).2).2, h.list?_eq, Option.map_map]
  rfl

/-- A manifest that fails is warned about, and its owner then has the list that was loaded from the
file before: its own if it was the owner before, that of another target if that one was, and none if
the file is new. The owner keeps what it had in no other case than these. -/
theorem failed_target (earlier : List LoadCall) (c : LoadCall) {j : ManifestIndex}
    (returned : (c.report (indexAfter earlier)).outcome = .ok (some j)) {l : Label} {q : FilePath}
    (owns : Owns c.roots c.rules l q) (fails : c.Fails (indexAfter earlier) q) :
    (∃ d ∈ (c.report (indexAfter earlier)).diagnostics, Warns d q l) ∧
    (∀ m, (indexAfter earlier).owners.get? q = some m →
      j.dependencies.get? l = (indexAfter earlier).dependencies.get? m) ∧
    ((indexAfter earlier).owners.get? q = none → j.dependencies.get? l = none) ∧
    (j.dependencies.get? l = (indexAfter earlier).dependencies.get? l ↔
      (indexAfter earlier).owners.get? q = some l ∨
      ((indexAfter earlier).owners.get? q = none ∧
        (indexAfter earlier).dependencies.get? l = none) ∨
      ∃ m, m ≠ l ∧ (indexAfter earlier).owners.get? q = some m ∧
        (indexAfter earlier).dependencies.get? m = (indexAfter earlier).dependencies.get? l) := by
  have coherent := coherent_indexAfter earlier
  have owned := (mem_ownersOf_iff c.keyed).2 owns
  have list := get?_dependencies_of_fails coherent returned owned fails
  generalize indexAfter earlier = i at *
  refine ⟨exists_warning returned owned fails, ?_, ?_, ?_⟩
  · intro m owner
    rw [list, list?_of_owner owner]
  · intro untracked
    rw [list, list?_of_no_owner untracked]
  · rw [list]
    cases owner : i.owners.get? q with
    | none =>
      rw [list?_of_no_owner owner]
      simp [eq_comm]
    | some m =>
      rw [list?_of_owner owner]
      by_cases same : m = l
      · simp [same]
      · simp [same]

theorem failed_target_keeps_list :
    secondLoad.Fails (indexAfter [firstLoad]) ⟨"/w/a"⟩ ∧
      (indexAfter [secondLoad, firstLoad]).dependencies.get? ruleA.label = some ["a"] := by
  have owns : Owns secondLoad.roots secondLoad.rules ruleA.label ⟨"/w/a"⟩ :=
    (mem_ownersOf_iff secondLoad.keyed).1 (by decide +kernel)
  have failed : DependencyManifest.load (secondLoad.report (indexAfter [firstLoad])).files
      ⟨"/w/a"⟩ = .error (.malformed (.truncated 1)) := by decide +kernel
  have fails : secondLoad.Fails (indexAfter [firstLoad]) ⟨"/w/a"⟩ :=
    .unparsed (by decide +kernel) failed
  have owner : (indexAfter [firstLoad]).owners.get? ⟨"/w/a"⟩ = some ruleA.label := by
    decide +kernel
  have before : (indexAfter [firstLoad]).dependencies.get? ruleA.label = some ["a"] := by
    decide +kernel
  refine ⟨fails, ?_⟩
  have kept := (failed_target [firstLoad] secondLoad (j := indexAfter [secondLoad, firstLoad]) rfl
    owns fails).2.1 _ owner
  rw [kept, before]

/-! ## Manifests that move -/

/-- A rule that declares another manifest of the workspace. -/
def withManifest (r : Rule) (path : String) : Rule :=
  { r with
    payload := some (.java { JavaInfo.empty with dependencyManifest := some (.source path) }) }

/-- The rules of both targets, with other manifests. -/
def rulesWith (manifestA manifestB : String) : RuleMap :=
  .ofRules [withManifest ruleA manifestA, withManifest ruleB manifestB]

/-- A load after the first one in which all manifests are cut off. -/
def brokenLoad (manifestA manifestB : String) : LoadCall :=
  { loadBoth (filesWith ([255], 1) ([255], 1)) with
    rules := rulesWith manifestA manifestB
    keyed := RuleMap.keyed_ofRules _ }

theorem brokenLoad_fails :
    (brokenLoad "c" "b").Fails (indexAfter [firstLoad]) ⟨"/w/c"⟩ ∧
      (brokenLoad "b" "a").Fails (indexAfter [firstLoad]) ⟨"/w/b"⟩ := by
  have moved : DependencyManifest.load ((brokenLoad "c" "b").report (indexAfter [firstLoad])).files
      ⟨"/w/c"⟩ = .error (.malformed (.truncated 1)) := by decide +kernel
  have traded : DependencyManifest.load
      ((brokenLoad "b" "a").report (indexAfter [firstLoad])).files
      ⟨"/w/b"⟩ = .error (.malformed (.truncated 1)) := by decide +kernel
  exact ⟨.unparsed (by decide +kernel) moved, .unparsed (by decide +kernel) traded⟩

/-- A target whose manifest is at another path loses its list, and targets that trade manifests also
trade lists, both with the warning that the list is kept. -/
theorem failed_target_loses_list :
    (indexAfter [firstLoad]).dependencies.get? ruleA.label = some ["a"] ∧
    (Owns (brokenLoad "c" "b").roots (brokenLoad "c" "b").rules ruleA.label ⟨"/w/c"⟩ ∧
      (brokenLoad "c" "b").Fails (indexAfter [firstLoad]) ⟨"/w/c"⟩ ∧
      (∃ d ∈ ((brokenLoad "c" "b").report (indexAfter [firstLoad])).diagnostics,
        Warns d ⟨"/w/c"⟩ ruleA.label) ∧
      (indexAfter [brokenLoad "c" "b", firstLoad]).dependencies.get? ruleA.label = none) ∧
    (Owns (brokenLoad "b" "a").roots (brokenLoad "b" "a").rules ruleA.label ⟨"/w/b"⟩ ∧
      (brokenLoad "b" "a").Fails (indexAfter [firstLoad]) ⟨"/w/b"⟩ ∧
      (∃ d ∈ ((brokenLoad "b" "a").report (indexAfter [firstLoad])).diagnostics,
        Warns d ⟨"/w/b"⟩ ruleA.label) ∧
      (indexAfter [brokenLoad "b" "a", firstLoad]).dependencies.get? ruleA.label =
        some ["b"]) := by
  obtain ⟨moved, traded⟩ := brokenLoad_fails
  have ownsMoved : (⟨"/w/c"⟩, ruleA.label) ∈ (brokenLoad "c" "b").owners.entries := by
    decide +kernel
  have ownsTraded : (⟨"/w/b"⟩, ruleA.label) ∈ (brokenLoad "b" "a").owners.entries := by
    decide +kernel
  have returnedMoved : ((brokenLoad "c" "b").report (indexAfter [firstLoad])).outcome =
      .ok (some (indexAfter [brokenLoad "c" "b", firstLoad])) := rfl
  have returnedTraded : ((brokenLoad "b" "a").report (indexAfter [firstLoad])).outcome =
      .ok (some (indexAfter [brokenLoad "b" "a", firstLoad])) := rfl
  refine ⟨by decide +kernel, ⟨?_, moved, ?_, by decide +kernel⟩, ?_, traded, ?_, by decide +kernel⟩
  · exact (mem_ownersOf_iff (brokenLoad "c" "b").keyed).1 ownsMoved
  · exact exists_warning returnedMoved ownsMoved moved
  · exact (mem_ownersOf_iff (brokenLoad "b" "a").keyed).1 ownsTraded
  · exact exists_warning returnedTraded ownsTraded traded

end WorkspaceSync.LoadCall
