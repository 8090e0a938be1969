import WorkspaceSync.Proofs.ManifestIndex.History

/-!
# What a load does to each file

The seven things that can happen to a manifest in one load, each told from the file itself and from
what the previous index has of it. So a manifest that fails changes nothing of any other file.
-/

namespace WorkspaceSync

namespace ManifestIndex

/-- The index has the signature and the list of a file, under the target. -/
def Holds (i : ManifestIndex) (q : FilePath) (l : Label) (s : FileSignature)
    (deps : List String) : Prop :=
  i.snapshot.get? q = some s ∧ i.owners.get? q = some l ∧ i.dependencies.get? l = some deps

/-- The index has nothing of a file and no list of the target. -/
def Lacks (i : ManifestIndex) (q : FilePath) (l : Label) : Prop :=
  i.snapshot.get? q = none ∧ i.owners.get? q = none ∧ i.dependencies.get? l = none

/-- From one index to the next a file keeps its signature and its list, now under the target, or
stays out. -/
def Keeps (i j : ManifestIndex) (q : FilePath) (l : Label) : Prop :=
  match i.snapshot.get? q with
  | none => j.Lacks q l
  | some s => ∃ old deps, i.Holds q old s deps ∧ j.Holds q l s deps

end ManifestIndex

namespace LoadCall

open ManifestIndex

variable {c : LoadCall} {i j : ManifestIndex} {p q : FilePath} {l : Label}

/-- How often a file is parsed, in whatever spelling. -/
def timesParsed (c : LoadCall) (i : ManifestIndex) (q : FilePath) : Nat :=
  (c.report i).parsed.countP fun p => p.Same q

theorem countP_same_of_mem {files : List FilePath}
    (distinct : files.Pairwise fun p q => ¬ p.Same q) (hq : q ∈ files) :
    (files.countP fun p => p.Same q) = 1 := by
  induction files with
  | nil => simp at hq
  | cons f files ih =>
    obtain ⟨first, distinct⟩ := List.pairwise_cons.1 distinct
    rw [List.countP_cons]
    by_cases hf : f.Same q
    · have rest : (files.countP fun p => p.Same q) = 0 := by
        rw [List.countP_eq_zero]
        intro p hp
        rw [decide_eq_true_eq]
        intro hpq
        exact first p hp (hf.trans hpq.symm)
      rw [rest]
      simp [hf]
    · have inRest : q ∈ files := by
        rcases List.mem_cons.1 hq with rfl | hq
        · exact absurd (FilePath.Same.refl q) hf
        · exact hq
      rw [ih distinct inRest]
      simp [hf]

theorem timesParsed_of_changed (ho : (c.report i).outcome = .ok (some j))
    (hq : q ∈ (c.diff i).changed) : c.timesParsed i q = 1 := by
  rw [timesParsed, parsed_of_outcome ho]
  exact countP_same_of_mem (SnapshotDiff.changed_pairwise _ _) hq

/-- Files with the same components that both have an owner are spelled the same. -/
theorem timesParsed_of_unchanged (hl : (q, l) ∈ c.owners.entries)
    (hq : q ∉ (c.diff i).changed) : c.timesParsed i q = 0 := by
  rw [timesParsed, List.countP_eq_zero]
  intro p hp
  rw [decide_eq_true_eq]
  intro hpq
  have changed := mem_changed_of_parsed hp
  obtain ⟨m, hm, -⟩ := mem_changed_iff.1 changed
  obtain ⟨rfl, -⟩ := Prod.mk.inj (SortedMap.eq_of_mem hm hl hpq)
  exact hq changed

/-- Only a file of its own gives a target a list. -/
theorem get?_owners_of_dependencies (h : i.Coherent) (ho : (c.report i).outcome = .ok (some j))
    (hl : (j.dependencies.get? l).isSome = true) :
    ∃ q, (q, l) ∈ c.owners.entries ∧ j.owners.get? q = some l := by
  obtain ⟨p, hp⟩ := ((coherent_of_outcome h ho).labels l).1 hl
  have owned := (coherent_of_outcome h ho).get?_owners p
  rw [hp, entryAt?_of_outcome h ho] at owned
  cases he : c.owners.entryAt? p with
  | none =>
    rw [he] at owned
    cases owned
  | some e =>
    obtain ⟨hm, hep⟩ := SortedMap.entryAt?_eq_some_iff.1 he
    rw [he, Option.bind_some] at owned
    obtain ⟨entry, hentry, howner⟩ := Option.map_eq_some_iff.1 owned.symm
    have owner := (nextEntry_eq_some hentry).1
    obtain rfl : e.2 = l := owner.symm.trans howner
    exact ⟨e.1, hm, (j.owners.get?_congr hep).trans hp⟩

theorem get?_dependencies_of_outcome (h : i.Coherent) (ho : (c.report i).outcome = .ok (some j))
    (hq : (q, l) ∈ c.owners.entries) : j.dependencies.get? l = j.list? q := by
  cases hown : j.owners.get? q with
  | none =>
    rw [list?_of_no_owner hown]
    by_contra hn
    have listed : (j.dependencies.get? l).isSome = true := Option.isSome_iff_ne_none.2 hn
    obtain ⟨r, hr, hrl⟩ := get?_owners_of_dependencies h ho listed
    have same := c.assigns (SortedMap.get?_of_mem hr) (SortedMap.get?_of_mem hq)
    rw [j.owners.get?_congr same, hown] at hrl
    cases hrl
  | some m =>
    have held := (Prod.mk.inj (Prod.mk.inj (held_of_outcome h ho hq)).2).1
    rw [hown] at held
    obtain ⟨entry, hentry, howner⟩ := Option.map_eq_some_iff.1 held.symm
    obtain rfl : l = m := (nextEntry_eq_some hentry).1.symm.trans howner
    exact (list?_of_owner hown).symm

/-- What the new index has of a file and of the owner of the file. -/
theorem stored_of_outcome (h : i.Coherent) (ho : (c.report i).outcome = .ok (some j))
    (hq : (q, l) ∈ c.owners.entries) :
    (j.snapshot.get? q, j.owners.get? q, j.dependencies.get? l) =
      Entry.parts (nextEntry (i.entryAt? q) l (c.reading q) (c.parse i q)) := by
  rw [get?_dependencies_of_outcome h ho hq]
  exact held_of_outcome h ho hq

theorem lacks_of_stored
    (h : (j.snapshot.get? q, j.owners.get? q, j.dependencies.get? l) = Entry.parts none) :
    j.Lacks q l := by
  simpa [Entry.parts, Lacks] using h

theorem holds_of_stored {s : FileSignature} {deps : List String}
    (h : (j.snapshot.get? q, j.owners.get? q, j.dependencies.get? l) =
      Entry.parts (some ⟨s, l, deps⟩)) : j.Holds q l s deps := by
  simpa [Entry.parts, Holds] using h

theorem keeps_of_stored (h : i.Coherent)
    (hs : (j.snapshot.get? q, j.owners.get? q, j.dependencies.get? l) =
      Entry.parts ((i.entryAt? q).map fun e => { e with owner := l })) : i.Keeps j q l := by
  have signature := h.get?_snapshot q
  have owner := h.get?_owners q
  have list := h.list?_eq q
  unfold Keeps
  cases he : i.entryAt? q with
  | none =>
    rw [he, Option.map_none] at signature hs
    rw [signature]
    exact lacks_of_stored hs
  | some e =>
    rw [he, Option.map_some] at signature owner list
    rw [list?_of_owner owner] at list
    rw [signature]
    refine ⟨e.owner, e.dependencies, ⟨signature, owner, list⟩, holds_of_stored ?_⟩
    rw [hs, he]
    rfl

theorem not_mem_changed_of_reading (hr : ∀ s, c.reading q ≠ .signed s) :
    q ∉ (c.diff i).changed := by
  intro hq
  obtain ⟨-, -, s, hs, -⟩ := mem_changed_iff.1 hq
  exact hr s hs

/-- The seven cases of a file that has an owner. -/
theorem outcome_of_owned (h : i.Coherent) (ho : (c.report i).outcome = .ok (some j))
    (hq : (q, l) ∈ c.owners.entries) :
    match FileSignature.compute c.mode c.files q with
    | .error .notFound => j.Lacks q l ∧ c.timesParsed i q = 0
    | .error _ => i.Keeps j q l ∧ c.timesParsed i q = 0
    | .ok s =>
      if i.snapshot.get? q = some s then i.Keeps j q l ∧ c.timesParsed i q = 0
      else
        c.timesParsed i q = 1 ∧
        match DependencyManifest.load (c.report i).files q with
        | .ok m => j.Holds q l s m.paths
        | .error _ => i.Keeps j q l := by
  have stored := stored_of_outcome h ho hq
  have signature := h.get?_snapshot q
  split
  · rename_i hc
    have missing : c.reading q = .missing := congrArg SignatureReading.ofResult hc
    rw [missing] at stored
    refine ⟨lacks_of_stored stored, timesParsed_of_unchanged hq (not_mem_changed_of_reading ?_)⟩
    simp [missing]
  · rename_i e he hc
    have unreadable : c.reading q = .unreadable := by
      rw [reading, hc]
      exact SignatureReading.ofResult_error he
    rw [unreadable] at stored
    refine ⟨keeps_of_stored h stored, timesParsed_of_unchanged hq (not_mem_changed_of_reading ?_)⟩
    simp [unreadable]
  · rename_i s hc
    have signed := reading_eq_signed_iff.2 hc
    rw [signed] at stored
    split
    · rename_i current
      rw [nextEntry_of_current (signature ▸ current)] at stored
      refine ⟨keeps_of_stored h stored, timesParsed_of_unchanged hq ?_⟩
      intro hm
      obtain ⟨-, -, t, ht, outdated⟩ := mem_changed_iff.1 hm
      obtain rfl : t = s := SignatureReading.signed.inj (ht.symm.trans signed)
      exact outdated current
    · rename_i outdated
      rw [nextEntry_of_outdated (signature ▸ outdated)] at stored
      refine ⟨timesParsed_of_changed ho (mem_changed_iff.2 ⟨l, hq, s, signed, outdated⟩), ?_⟩
      cases hp : c.parse i q with
      | ok m =>
        have decoded : DependencyManifest.load (c.report i).files q = .ok m := hp
        rw [hp] at stored
        rw [decoded]
        exact holds_of_stored stored
      | error e =>
        have failed : DependencyManifest.load (c.report i).files q = .error e := hp
        rw [hp] at stored
        rw [failed]
        exact keeps_of_stored h stored

/-- A load that returns an index has of every file what follows from the file alone. A file that is
missing is forgotten, one that cannot be checked is kept as it was, and so is one whose signature is
the stored one; every other file is parsed once and taken in, or kept as it was where it does not
parse. Nothing else is tracked, and no target without a file has a list. Two loads from one index
that find the same in a file have the same of it, however the other files fare. -/
theorem report_file_by_file (earlier : List LoadCall) (c : LoadCall) {j : ManifestIndex}
    (returned : (c.report (indexAfter earlier)).outcome = .ok (some j)) :
    (∀ p, j.snapshot.contains p = true → ∃ l q, Owns c.roots c.rules l q ∧ q.Same p) ∧
    (∀ l q, Owns c.roots c.rules l q →
      match FileSignature.compute c.mode c.files q with
      | .error .notFound => j.Lacks q l ∧ c.timesParsed (indexAfter earlier) q = 0
      | .error _ =>
        (indexAfter earlier).Keeps j q l ∧ c.timesParsed (indexAfter earlier) q = 0
      | .ok s =>
        if (indexAfter earlier).snapshot.get? q = some s then
          (indexAfter earlier).Keeps j q l ∧ c.timesParsed (indexAfter earlier) q = 0
        else
          c.timesParsed (indexAfter earlier) q = 1 ∧
          match DependencyManifest.load (c.report (indexAfter earlier)).files q with
          | .ok m => j.Holds q l s m.paths
          | .error _ => (indexAfter earlier).Keeps j q l) ∧
    (∀ l, (∀ q, ¬ Owns c.roots c.rules l q) → j.dependencies.contains l = false) ∧
    (∀ (d : LoadCall) (k : ManifestIndex), (d.report (indexAfter earlier)).outcome = .ok (some k) →
      ∀ l q, Owns c.roots c.rules l q → Owns d.roots d.rules l q →
      FileSignature.compute c.mode c.files q = FileSignature.compute d.mode d.files q →
      DependencyManifest.load (c.report (indexAfter earlier)).files q =
        DependencyManifest.load (d.report (indexAfter earlier)).files q →
      j.snapshot.get? q = k.snapshot.get? q ∧ j.owners.get? q = k.owners.get? q ∧
        j.dependencies.get? l = k.dependencies.get? l) := by
  have coherent := coherent_indexAfter earlier
  refine ⟨fun p hp => ?_, fun l q owns => ?_, fun l unowned => ?_,
    fun d k hk l q owns owns' same parse => ?_⟩
  · have tracked : (j.entryAt? p).isSome = true := by
      rw [SortedMap.contains_eq_isSome,
        (coherent_of_outcome coherent returned).get?_snapshot] at hp
      simpa using hp
    rw [entryAt?_of_outcome coherent returned] at tracked
    cases he : c.owners.entryAt? p with
    | none => simp [he] at tracked
    | some e => exact ⟨e.2, e.1, (entryAt?_ownersOf_eq_some_iff c.keyed).1 he⟩
  · exact outcome_of_owned coherent returned ((mem_ownersOf_iff c.keyed).2 owns)
  · by_contra hn
    rw [SortedMap.contains_eq_isSome, Bool.not_eq_false] at hn
    obtain ⟨q, hq, -⟩ := get?_owners_of_dependencies coherent returned hn
    exact unowned q ((mem_ownersOf_iff c.keyed).1 hq)
  · have left := stored_of_outcome coherent returned ((mem_ownersOf_iff c.keyed).2 owns)
    have right := stored_of_outcome coherent hk ((mem_ownersOf_iff d.keyed).2 owns')
    have reading : c.reading q = d.reading q := congrArg SignatureReading.ofResult same
    rw [reading, LoadCall.parse, parse] at left
    have := left.trans right.symm
    simpa only [Prod.mk.injEq] using this

/-! ## A manifest that fails beside one that does not -/

/-- A target `//lib:name` that declares the manifest `name` of the workspace. -/
def ruleNamed (name : String) (valid : Label.IsTargetName name) : Rule where
  label := ⟨none, "lib", name, by simp, by decide, valid⟩
  kind := "java_library"
  sources := []
  dependencies := []
  payload := some (.java { JavaInfo.empty with dependencyManifest := some (.source name) })

def ruleA : Rule := ruleNamed "a" (by decide)

def ruleB : Rule := ruleNamed "b" (by decide)

def bothRules : RuleMap := RuleMap.ofRules [ruleA, ruleB]

theorem keyed_bothRules : bothRules.Keyed := RuleMap.keyed_ofRules _

def bothRoots : Roots := ⟨⟨⟨"/w"⟩⟩, ⟨"/e"⟩, ⟨"/o"⟩⟩

/-- Files with one pair of content and time of modification for `/w/a` and another elsewhere. -/
def filesWith (a b : Bytes × Int) : FileView where
  status p := .ok (if p = ⟨"/w/a"⟩ then .file a.1.length a.2 else .file b.1.length b.2)
  read p := .ok (if p = ⟨"/w/a"⟩ then a.1 else b.1)

/-- A load of the manifests of two targets. -/
def loadBoth (files : FileView) : LoadCall where
  mode := .metadata
  roots := bothRoots
  rules := bothRules
  prefetch := .onDisk
  files := files
  cancelled := .never
  keyed := keyed_bothRules
  neverCleared := Cancellation.neverCleared_never

/-- A manifest that lists one jar, of a name with one letter. -/
def manifestOf (letter : UInt8) : Bytes := [10, 3, 10, 1, letter]

def firstLoad : LoadCall := loadBoth (filesWith (manifestOf 97, 0) (manifestOf 98, 0))

/-- The first manifest is cut off now, and the second one has changed. -/
def secondLoad : LoadCall := loadBoth (filesWith ([255], 1) (manifestOf 99, 1))

theorem second_load_file_by_file :
    (indexAfter [firstLoad]).Keeps (indexAfter [secondLoad, firstLoad]) ⟨"/w/a"⟩ ruleA.label ∧
      (indexAfter [secondLoad, firstLoad]).Holds ⟨"/w/b"⟩ ruleB.label (.metadata 5 1) ["c"] := by
  obtain ⟨-, outcome, -⟩ := report_file_by_file [firstLoad] secondLoad
    (j := indexAfter [secondLoad, firstLoad]) rfl
  have owns : ∀ {l q}, (q, l) ∈ secondLoad.owners.entries →
      Owns secondLoad.roots secondLoad.rules l q := (mem_ownersOf_iff secondLoad.keyed).1
  have outdatedA : (indexAfter [firstLoad]).snapshot.get? ⟨"/w/a"⟩ ≠ some (.metadata 1 1) := by
    decide +kernel
  have outdatedB : (indexAfter [firstLoad]).snapshot.get? ⟨"/w/b"⟩ ≠ some (.metadata 5 1) := by
    decide +kernel
  have failed : DependencyManifest.load (secondLoad.report (indexAfter [firstLoad])).files
      ⟨"/w/a"⟩ = .error (.malformed (.truncated 1)) := by decide +kernel
  have decoded : DependencyManifest.load (secondLoad.report (indexAfter [firstLoad])).files
      ⟨"/w/b"⟩ = .ok ⟨none, false, [⟨"c", .explicit⟩]⟩ := by decide +kernel
  have a := (if_neg outdatedA).mp
    (outcome ruleA.label ⟨"/w/a"⟩ (owns (by decide +kernel)))
  have b := (if_neg outdatedB).mp
    (outcome ruleB.label ⟨"/w/b"⟩ (owns (by decide +kernel)))
  rw [failed] at a
  rw [decoded] at b
  exact ⟨a.2, b.2⟩

end LoadCall

end WorkspaceSync
